import Dot1xCP.Lib.Reserved
import Dot1xCP.Broker.JsonScopes

/-! How the escape decoder walks over a token.

The scanner takes two bytes for every escape, the decoder two, six or twelve. The walk
lists, in the order of the source, which byte `UnescapeJsonString` takes for what, every
`push_back`, and where it returns.
-/

set_option autoImplicit false

namespace Dot1xCP.Broker
open FlatJson

/-- What the decoder takes a byte for. -/
inductive Role where
  | plain
  | solidus
  | letter
  | digit
  deriving DecidableEq, Repr

/-- `take` stands for one step of the index over the input, `push` for `push_back`. -/
inductive WalkEvent where
  | take (role : Role)
  | push (byte : UInt8)
  deriving DecidableEq, Repr

inductive Exit where
  | dangling
  | noHex
  | noLowHex
  | highAlone
  | lowAlone
  | noEscape
  | finished
  deriving DecidableEq, Repr

structure Walk where
  events : List WalkEvent
  exit : Exit
  deriving DecidableEq, Repr

def passed (roles : List Role) : List WalkEvent := roles.map .take

def Walk.after (roles : List Role) (bytes : List UInt8) (walk : Walk) : Walk where
  events := passed roles ++ bytes.map .push ++ walk.events
  exit := walk.exit

def unicodeRoles : List Role := [.solidus, .letter, .digit, .digit, .digit, .digit]

/-- `UnescapeJsonString`, branch by branch as in `unescapeLoop`. -/
def unescapeWalk (s : List UInt8) : Walk :=
  match s with
  | [] => ⟨[], .finished⟩
  | c :: s =>
    if c ≠ backslash then (unescapeWalk s).after [.plain] [c]
    else
      match s with
      | [] => ⟨passed [.solidus], .dangling⟩
      | e :: s =>
        match shortEscape e with
        | some b => (unescapeWalk s).after [.solidus, .letter] [b]
        | none =>
          if e ≠ letterU then ⟨passed [.solidus, .letter], .noEscape⟩
          else
            match parseHex4 s with
            | none => ⟨passed [.solidus, .letter], .noHex⟩
            | some cp1 =>
              let s := s.drop 4
              if 0xD800 ≤ cp1 ∧ cp1 ≤ 0xDBFF then
                if 6 ≤ s.length ∧ s[0]? = some backslash ∧ s[1]? = some letterU then
                  match parseHex4 (s.drop 2) with
                  | none => ⟨passed unicodeRoles, .noLowHex⟩
                  | some cp2 =>
                    if 0xDC00 ≤ cp2 ∧ cp2 ≤ 0xDFFF then
                      (unescapeWalk (s.drop 6)).after (unicodeRoles ++ unicodeRoles)
                        (appendUtf8 [] (0x10000 + (((cp1 - 0xD800) <<< 10) ||| (cp2 - 0xDC00))))
                    else ⟨passed unicodeRoles, .highAlone⟩
                else ⟨passed unicodeRoles, .highAlone⟩
              else if 0xDC00 ≤ cp1 ∧ cp1 ≤ 0xDFFF then ⟨passed unicodeRoles, .lowAlone⟩
              else (unescapeWalk s).after unicodeRoles (appendUtf8 [] cp1)
termination_by s.length
decreasing_by all_goals simp only [List.length_cons, List.length_drop]; omega

def WalkEvent.role? : WalkEvent → Option Role
  | .take role => some role
  | .push _ => none

def WalkEvent.byte? : WalkEvent → Option UInt8
  | .take _ => none
  | .push byte => some byte

def taken (events : List WalkEvent) : List Role := events.filterMap WalkEvent.role?

def pushed (events : List WalkEvent) : List UInt8 := events.filterMap WalkEvent.byte?

@[simp] theorem taken_append (first second : List WalkEvent) :
    taken (first ++ second) = taken first ++ taken second := List.filterMap_append

@[simp] theorem pushed_append (first second : List WalkEvent) :
    pushed (first ++ second) = pushed first ++ pushed second := List.filterMap_append

@[simp] theorem taken_passed (roles : List Role) : taken (passed roles) = roles := by
  rw [taken, passed, List.filterMap_map]
  exact List.filterMap_some

@[simp] theorem pushed_passed (roles : List Role) : pushed (passed roles) = [] := by
  rw [pushed, passed, List.filterMap_map]
  exact List.filterMap_eq_nil_iff.mpr fun _ _ => rfl

@[simp] theorem taken_push (bytes : List UInt8) : taken (bytes.map .push) = [] := by
  rw [taken, List.filterMap_map]
  exact List.filterMap_eq_nil_iff.mpr fun _ _ => rfl

@[simp] theorem pushed_push (bytes : List UInt8) : pushed (bytes.map .push) = bytes := by
  rw [pushed, List.filterMap_map]
  exact List.filterMap_some

@[simp] theorem taken_after (roles : List Role) (bytes : List UInt8) (walk : Walk) :
    taken (walk.after roles bytes).events = roles ++ taken walk.events := by
  simp [Walk.after]

@[simp] theorem pushed_after (roles : List Role) (bytes : List UInt8) (walk : Walk) :
    pushed (walk.after roles bytes).events = bytes ++ pushed walk.events := by
  simp [Walk.after]

@[simp] theorem exit_after (roles : List Role) (bytes : List UInt8) (walk : Walk) :
    (walk.after roles bytes).exit = walk.exit := rfl

theorem appendUtf8_append (out : List UInt8) (cp : Nat) :
    appendUtf8 out cp = out ++ appendUtf8 [] cp := by
  unfold appendUtf8
  split
  · rfl
  split
  · rfl
  split <;> rfl

theorem length_appendUtf8_le (cp : Nat) :
    (appendUtf8 [] cp).length ≤ if cp ≤ 0xFFFF then 3 else 4 := by
  unfold appendUtf8
  split
  · split <;> simp
  split
  · split <;> simp
  split <;> simp

/-- The walk is the decoder: it pushes what the decoder writes and ends as it does. -/
theorem unescapeLoop_walk (s out : List UInt8) :
    unescapeLoop s out =
      ((unescapeWalk s).exit == .finished, out ++ pushed (unescapeWalk s).events) := by
  fun_induction unescapeWalk s generalizing out with
  | case1 =>
    unfold unescapeLoop
    simp [pushed]
  | case2 c s plain ih =>
    unfold unescapeLoop
    simp [plain, ih]
  | case3 c solidus =>
    unfold unescapeLoop
    simp [solidus]
  | case4 c solidus e s b short ih =>
    unfold unescapeLoop
    simp [solidus, short, ih]
  | case5 c solidus e s notShort noLetter =>
    unfold unescapeLoop
    simp [solidus, notShort, noLetter]
  | case6 c solidus e s notShort letter noHex =>
    unfold unescapeLoop
    simp [solidus, notShort, letter, noHex]
  | case7 c solidus e s notShort letter cp1 hex1 rest high guard noHex =>
    unfold unescapeLoop
    simp only [solidus, notShort, letter, hex1, if_false]
    rw [if_pos high, if_pos guard, noHex]
    simp
  | case8 c solidus e s notShort letter cp1 hex1 rest high guard cp2 hex2 low ih =>
    unfold unescapeLoop
    simp only [solidus, notShort, letter, hex1, if_false]
    rw [if_pos high, if_pos guard, hex2]
    dsimp only
    rw [if_pos low, ih, appendUtf8_append]
    simp
  | case9 c solidus e s notShort letter cp1 hex1 rest high guard cp2 hex2 notLow =>
    unfold unescapeLoop
    simp only [solidus, notShort, letter, hex1, if_false]
    rw [if_pos high, if_pos guard, hex2]
    simp [notLow]
  | case10 c solidus e s notShort letter cp1 hex1 rest high noPair =>
    unfold unescapeLoop
    simp only [solidus, notShort, letter, hex1, if_false]
    rw [if_pos high, if_neg noPair]
    simp
  | case11 c solidus e s notShort letter cp1 hex1 notHigh low =>
    unfold unescapeLoop
    simp [solidus, notShort, letter, hex1, notHigh, low]
  | case12 c solidus e s notShort letter cp1 hex1 rest notHigh notLow ih =>
    unfold unescapeLoop
    simp only [solidus, notShort, letter, hex1, if_false]
    rw [if_neg notHigh, if_neg notLow, ih, appendUtf8_append]
    simp

theorem unescapeJsonString_walk (s : List UInt8) :
    unescapeJsonString s =
      ((unescapeWalk s).exit == .finished, pushed (unescapeWalk s).events) := by
  rw [unescapeJsonString, unescapeLoop_walk, List.nil_append]

theorem parseHex4_length {s : List UInt8} {value : Nat} (found : parseHex4 s = some value) :
    4 ≤ s.length := by
  unfold parseHex4 at found
  split at found
  next => cases found
  next long => exact Nat.le_of_not_lt long

/-- The index stays within the input, and has passed all of it where the decoder succeeds. -/
theorem taken_length (s : List UInt8) :
    (taken (unescapeWalk s).events).length ≤ s.length ∧
      ((unescapeWalk s).exit = .finished → (taken (unescapeWalk s).events).length = s.length) := by
  fun_induction unescapeWalk s with
  | case1 => exact ⟨Nat.le_refl _, fun _ => rfl⟩
  | case2 c s plain ih | case4 c solidus e s b short ih =>
    simp only [taken_after, exit_after, List.length_append, List.length_cons, List.length_nil]
    refine ⟨by omega, fun finished => ?_⟩
    have whole := ih.2 finished
    omega
  | case3 => exact ⟨Nat.le_refl _, fun finished => by cases finished⟩
  | case5 | case6 =>
    rw [taken_passed]
    exact ⟨by simp, fun finished => by cases finished⟩
  | case7 c solidus e s notShort letter cp1 hex1 | case9 c solidus e s notShort letter cp1 hex1
  | case10 c solidus e s notShort letter cp1 hex1 | case11 c solidus e s notShort letter cp1 hex1 =>
    have long := parseHex4_length hex1
    refine ⟨?_, fun finished => by cases finished⟩
    simp only [taken_passed, unicodeRoles, List.length_cons, List.length_nil]
    omega
  | case8 c solidus e s notShort letter cp1 hex1 rest high guard cp2 hex2 low ih =>
    have long := parseHex4_length hex1
    have behind : rest.length = s.length - 4 := List.length_drop
    have pair := guard.1
    rw [List.length_drop] at ih
    simp only [taken_after, exit_after, List.length_append, unicodeRoles, List.length_cons,
      List.length_nil]
    refine ⟨by omega, fun finished => ?_⟩
    have whole := ih.2 finished
    omega
  | case12 c solidus e s notShort letter cp1 hex1 rest notHigh notLow ih =>
    have long := parseHex4_length hex1
    have behind : rest.length = s.length - 4 := List.length_drop
    simp only [taken_after, exit_after, List.length_append, unicodeRoles, List.length_cons,
      List.length_nil]
    refine ⟨by omega, fun finished => ?_⟩
    have whole := ih.2 finished
    omega

/-- At every point no more bytes have been pushed than taken. -/
def Covered (events : List WalkEvent) : Prop :=
  ∀ n : Nat, (pushed (events.take n)).length ≤ (taken (events.take n)).length

theorem covered_passed (roles : List Role) : Covered (passed roles) := by
  intro n
  rw [passed, ← List.map_take, ← passed, pushed_passed]
  exact Nat.zero_le _

theorem Covered.after {walk : Walk} (covered : Covered walk.events) {roles : List Role}
    {bytes : List UInt8} (fits : bytes.length ≤ roles.length) :
    Covered (walk.after roles bytes).events := by
  intro n
  have later := covered (n - (passed roles ++ bytes.map WalkEvent.push).length)
  rw [Walk.after, List.take_append, List.take_append, passed, ← List.map_take, ← List.map_take,
    ← passed, ← passed]
  simp only [pushed_append, taken_append, pushed_passed, taken_passed, pushed_push, taken_push,
    List.length_append, List.length_nil, List.length_take]
  -- The pushes of a pass only begin behind all its bytes.
  have pass : min (n - (passed roles).length) bytes.length ≤ min n roles.length := by
    rw [passed, List.length_map]
    omega
  simp only [List.length_append] at later
  omega

theorem unescapeWalk_covered (s : List UInt8) : Covered (unescapeWalk s).events := by
  fun_induction unescapeWalk s with
  | case1 => exact covered_passed []
  | case2 c s plain ih => exact ih.after (Nat.le_refl _)
  | case4 c solidus e s b short ih => exact ih.after (Nat.le_succ _)
  | case8 c solidus e s notShort letter cp1 hex1 rest high guard cp2 hex2 low ih =>
    have short := length_appendUtf8_le (0x10000 + (((cp1 - 0xD800) <<< 10) ||| (cp2 - 0xDC00)))
    refine ih.after (Nat.le_trans short ?_)
    split <;> decide
  | case12 c solidus e s notShort letter cp1 hex1 rest notHigh notLow ih =>
    refine ih.after (Nat.le_trans (length_appendUtf8_le cp1) ?_)
    split <;> decide
  | _ => exact covered_passed _

/-! ## The reservation -/

def perform (allocator : Reserved.Allocator UInt8) (out : Reserved.Vector (0 : UInt8)) :
    WalkEvent → Reserved.Vector (0 : UInt8)
  | .take _ => out
  | .push byte => out.push allocator byte

def reserveOut (allocator : Reserved.Allocator UInt8) (input : List UInt8)
    (out : Reserved.Vector (0 : UInt8)) : Reserved.Vector (0 : UInt8) :=
  out.clear.reserve allocator input.length

theorem foldl_perform (allocator : Reserved.Allocator UInt8) (out : Reserved.Vector (0 : UInt8))
    (events : List WalkEvent) :
    events.foldl (perform allocator) out = out.pushAll allocator (pushed events) := by
  induction events generalizing out with
  | nil => rfl
  | cons event rest ih =>
    rw [List.foldl_cons, ih]
    cases event <;> rfl

/-- At any point of `UnescapeJsonString`, however it ends, `out` holds no more bytes than
were taken from the input, and its array is the reserved one: the only array given back is
the one that the caller's string had when it was cleared. -/
theorem unescapeJsonString_reservation (allocator : Reserved.Allocator UInt8)
    (input : List UInt8) (out : Reserved.Vector (0 : UInt8)) (n : Nat) :
    let events := (unescapeWalk input).events.take n
    let now := events.foldl (perform allocator) (reserveOut allocator input out)
    now.contents = pushed events ∧
      (pushed events).length ≤ (taken events).length ∧
      (taken events).length ≤ input.length ∧
      now.contents.length ≤ now.capacity ∧
      now.capacity = (reserveOut allocator input out).capacity ∧
      now.given =
        if input.length ≤ out.capacity then out.given else out.given ++ [out.clear.str.storage] := by
  intro events now
  have covered : (pushed events).length ≤ (taken events).length := unescapeWalk_covered input n
  have within : (taken events).length ≤ input.length := by
    have part : taken events <+: taken (unescapeWalk input).events :=
      (List.take_prefix n _).filterMap _
    exact Nat.le_trans part.length_le (taken_length input).1
  have empty : (reserveOut allocator input out).contents = [] := by
    rw [reserveOut, Reserved.Vector.contents_reserve, Reserved.Vector.contents_clear]
  have enough : input.length ≤ (reserveOut allocator input out).capacity :=
    Reserved.Vector.capacity_reserve _ _
  have room : (reserveOut allocator input out).contents.length + (pushed events).length ≤
      (reserveOut allocator input out).capacity := by
    rw [empty, List.length_nil]
    omega
  have appended : now = { reserveOut allocator input out with
      str := (reserveOut allocator input out).str.append (pushed events) } := by
    rw [← Reserved.Vector.pushAll_of_room room, ← foldl_perform]
  have capacity : now.capacity = (reserveOut allocator input out).capacity := by
    rw [appended, Reserved.Vector.capacity_append room]
  have contents : now.contents = pushed events :=
    calc
      now.contents = (reserveOut allocator input out).contents ++ pushed events := by
        rw [appended]
        rfl
      _ = pushed events := by rw [empty, List.nil_append]
  refine ⟨contents, covered, within, ?_, capacity, ?_⟩
  · rw [contents, capacity]
    omega
  · have given := @Reserved.Vector.given_reserve _ 0 allocator out.clear input.length
    rw [Reserved.Vector.capacity_clear] at given
    rw [appended, reserveOut]
    exact given

/-! ## Where quotes lie -/

def escapedAfter (escaped : Bool) (s : List UInt8) : Bool :=
  s.foldl (fun escaped c => !escaped && c == backslash) escaped

theorem escapedAfter_plain {c : UInt8} (notSolidus : c ≠ backslash) (s : List UInt8) :
    escapedAfter false (c :: s) = escapedAfter false s := by
  rw [escapedAfter, List.foldl_cons, Bool.not_false, Bool.true_and, beq_eq_false_iff_ne.mpr notSolidus,
    ← escapedAfter]

theorem escapedAfter_pair (c : UInt8) (s : List UInt8) :
    escapedAfter false (backslash :: c :: s) = escapedAfter false s := by
  simp [escapedAfter]

def solidiBefore (s : List UInt8) (k : Nat) : Nat := ((s.take k).rtakeWhile (· == backslash)).length

theorem solidi_odd_iff (s : List UInt8) :
    (s.rtakeWhile (· == backslash)).length % 2 = 1 ↔ escapedAfter false s = true := by
  induction s using List.reverseRecOn with
  | nil => simp [escapedAfter]
  | append_singleton s c ih =>
    rw [List.rtakeWhile_concat, escapedAfter, List.foldl_concat, ← escapedAfter]
    split
    next solidus =>
      rw [solidus, Bool.and_true, List.length_append, List.length_singleton]
      cases flag : escapedAfter false s with
      | false =>
        rw [flag] at ih
        simp only [Bool.false_eq_true, iff_false] at ih
        simp only [Bool.not_false, iff_true]
        omega
      | true =>
        rw [flag] at ih
        have odd := ih.mpr rfl
        simp only [Bool.not_true, Bool.false_eq_true, iff_false]
        omega
    next other => simp [other]

theorem Scanned.escapedAfter_false {raw : List UInt8} (scanned : Scanned raw) :
    escapedAfter false raw = false := by
  induction scanned with
  | nil => rfl
  | plain _ notSolidus _ ih => rw [escapedAfter_plain notSolidus, ih]
  | escaped _ ih => rw [escapedAfter_pair, ih]

theorem Scanned.quote_escaped {raw : List UInt8} (scanned : Scanned raw) {k : Nat}
    (quote : raw[k]? = some doubleQuote) : escapedAfter false (raw.take k) = true := by
  induction scanned generalizing k with
  | nil => simp at quote
  | plain notQuote notSolidus _ ih =>
    cases k with
    | zero => exact absurd (Option.some.inj quote) notQuote
    | succ k => rw [List.take_succ_cons, escapedAfter_plain notSolidus, ih quote]
  | escaped _ ih =>
    match k with
    | 0 => exact absurd (Option.some.inj quote) (by decide)
    | 1 => rfl
    | k + 2 => rw [List.take_succ_cons, List.take_succ_cons, escapedAfter_pair, ih quote]

theorem solidiBefore_odd_iff (front : List UInt8) {raw : List UInt8} (behind : List UInt8) {k : Nat}
    (within : k ≤ raw.length) :
    solidiBefore (front ++ doubleQuote :: (raw ++ behind)) (front.length + 1 + k) % 2 = 1 ↔
      escapedAfter false (raw.take k) = true := by
  have part : (front ++ doubleQuote :: (raw ++ behind)).take (front.length + 1 + k) =
      (front ++ [doubleQuote]) ++ raw.take k := by
    rw [Nat.add_assoc, List.take_length_add_append, Nat.add_comm 1 k, List.take_succ_cons,
      List.take_append_of_le_length within, List.append_assoc]
    rfl
  have opened : escapedAfter false (front ++ [doubleQuote]) = false := by
    rw [escapedAfter, List.foldl_concat]
    exact Bool.and_false _
  rw [solidiBefore, part, solidi_odd_iff, escapedAfter, List.foldl_append, ← escapedAfter,
    ← escapedAfter, opened]

/-- The first quote behind the opening one that an even number of backslashes precedes. -/
structure Closes (s : List UInt8) (opening closing : Nat) : Prop where
  opens : s[opening]? = some doubleQuote
  behind : opening < closing
  quote : s[closing]? = some doubleQuote
  even : solidiBefore s closing % 2 = 0
  first : ∀ k, opening < k → k < closing → s[k]? = some doubleQuote → solidiBefore s k % 2 = 1

theorem Scanned.closes {raw : List UInt8} (scanned : Scanned raw) (front rest : List UInt8) :
    Closes (front ++ doubleQuote :: (raw ++ doubleQuote :: rest)) front.length
      (front.length + 1 + raw.length) where
  opens := by simp
  behind := by omega
  quote := by
    rw [List.getElem?_append_right (by omega), Nat.add_assoc, Nat.add_sub_cancel_left, Nat.add_comm 1,
      List.getElem?_cons_succ, List.getElem?_append_right (Nat.le_refl _), Nat.sub_self]
    rfl
  even := by
    have phase := (solidiBefore_odd_iff front (doubleQuote :: rest) (Nat.le_refl raw.length)).not
    rw [List.take_length, scanned.escapedAfter_false] at phase
    have notOdd := phase.mpr Bool.false_ne_true
    omega
  first := by
    intro k above below quote
    obtain ⟨j, rfl⟩ : ∃ j, k = front.length + 1 + j := ⟨k - (front.length + 1), by omega⟩
    have inside : j < raw.length := by omega
    rw [List.getElem?_append_right (by omega), Nat.add_assoc, Nat.add_sub_cancel_left, Nat.add_comm 1,
      List.getElem?_cons_succ, List.getElem?_append_left inside] at quote
    exact (solidiBefore_odd_iff front _ (Nat.le_of_lt inside)).mpr (scanned.quote_escaped quote)

/-- Every quote that was passed was the second byte of an escape. -/
def QuotesEscaped (raw : List UInt8) (roles : List Role) : Prop :=
  ∀ pair ∈ raw.zip roles, pair.1 = doubleQuote → pair.2 = .letter

theorem quotesEscaped_nil (raw : List UInt8) : QuotesEscaped raw [] := by
  rw [QuotesEscaped, List.zip_nil_right]
  exact fun _ inside => absurd inside List.not_mem_nil

theorem QuotesEscaped.plain {raw : List UInt8} {roles : List Role} (escaped : QuotesEscaped raw roles)
    {c : UInt8} (notQuote : c ≠ doubleQuote) (role : Role) :
    QuotesEscaped (c :: raw) (role :: roles) := by
  intro pair inside quote
  rcases List.mem_cons.mp inside with rfl | inside
  · exact absurd quote notQuote
  · exact escaped pair inside quote

theorem QuotesEscaped.escape {raw : List UInt8} {roles : List Role} (escaped : QuotesEscaped raw roles)
    (c : UInt8) : QuotesEscaped (backslash :: c :: raw) (.solidus :: .letter :: roles) := by
  refine QuotesEscaped.plain ?_ doubleQuote_ne_backslash.symm _
  intro pair inside quote
  rcases List.mem_cons.mp inside with rfl | inside
  · rfl
  · exact escaped pair inside quote

theorem QuotesEscaped.quad {raw : List UInt8} {roles : List Role} (escaped : QuotesEscaped raw roles)
    (c : UInt8) (quad : HexQuad) :
    QuotesEscaped (backslash :: c :: (quad.bytes ++ raw)) (unicodeRoles ++ roles) := by
  have digit (digit : HexDigit) := (HexDigit.byte_plain digit).1
  exact ((((escaped.plain (digit quad.fourth) .digit).plain (digit quad.third) .digit).plain
    (digit quad.second) .digit).plain (digit quad.first) .digit).escape c

/-- The decoder never comes to a backslash that ends the token, and passes no quote but
behind a backslash. -/
theorem Scanned.walk {raw : List UInt8} (scanned : Scanned raw) :
    (unescapeWalk raw).exit ≠ .dangling ∧ QuotesEscaped raw (taken (unescapeWalk raw).events) := by
  -- Along the decoder; what is left at the head of its loop is always a scanned token.
  fun_induction unescapeWalk raw with
  | case1 => exact ⟨by simp, quotesEscaped_nil _⟩
  | case2 c s notSolidus ih =>
    obtain ⟨notQuote, rest⟩ := scanned.of_plain notSolidus
    obtain ⟨exit, escaped⟩ := ih rest
    rw [taken_after]
    exact ⟨exit, escaped.plain notQuote .plain⟩
  | case3 c solidus =>
    rw [of_not_not solidus] at scanned
    cases scanned with
    | plain _ notSolidus _ => exact absurd rfl notSolidus
  | case4 c solidus e s b short ih =>
    rw [of_not_not solidus] at scanned ⊢
    obtain ⟨exit, escaped⟩ := ih scanned.of_escaped
    rw [taken_after]
    exact ⟨exit, escaped.escape e⟩
  | case5 c solidus e s | case6 c solidus e s =>
    rw [of_not_not solidus, taken_passed]
    exact ⟨by simp, (quotesEscaped_nil s).escape e⟩
  | case7 c solidus e s notShort letter cp1 hex1 | case9 c solidus e s notShort letter cp1 hex1
  | case10 c solidus e s notShort letter cp1 hex1 | case11 c solidus e s notShort letter cp1 hex1 =>
    obtain ⟨quad, written, _⟩ := parseHex4_some hex1
    rw [of_not_not solidus, taken_passed, written, ← List.append_nil unicodeRoles]
    exact ⟨by simp, (quotesEscaped_nil _).quad e quad⟩
  | case8 c solidus e s notShort letter cp1 hex1 rest high guard cp2 hex2 low ih =>
    rw [of_not_not solidus] at scanned ⊢
    obtain ⟨first, firstBytes, _⟩ := parseHex4_some hex1
    obtain ⟨second, secondBytes, _⟩ := low_escape guard.2.1 guard.2.2 hex2
    have behind : Scanned rest := scanned.of_escaped.of_hex hex1
    rw [secondBytes] at behind
    obtain ⟨exit, escaped⟩ := ih behind.of_escaped.of_quad
    have pair := (escaped.quad letterU second).quad e first
    rw [← secondBytes, ← firstBytes] at pair
    rw [taken_after, List.append_assoc]
    exact ⟨exit, pair⟩
  | case12 c solidus e s notShort letter cp1 hex1 rest notHigh notLow ih =>
    rw [of_not_not solidus] at scanned ⊢
    obtain ⟨quad, written, _⟩ := parseHex4_some hex1
    obtain ⟨exit, escaped⟩ := ih (scanned.of_escaped.of_hex hex1)
    have passed := escaped.quad e quad
    rw [← written] at passed
    rw [taken_after]
    exact ⟨exit, passed⟩

/-- A token and its decoder agree on the escapes: the decoder finds no backslash at the
end and no quote outside an escape, the token ends at the first quote that is not escaped,
and quoted again it is read as the same token. -/
theorem parseJsonQuotedToken_in_phase {s raw rest : List UInt8} {i : Nat}
    (found : parseJsonQuotedToken (s.drop i) = some (raw, rest)) :
    (unescapeWalk raw).exit ≠ .dangling ∧
      (∀ k : Nat, raw[k]? = some doubleQuote → solidiBefore raw k % 2 = 1 ∧
        ∀ role, (taken (unescapeWalk raw).events)[k]? = some role → role = .letter) ∧
      ((unescapeJsonString raw).1 = true →
        (taken (unescapeWalk raw).events).length = raw.length) ∧
      Closes s i (i + 1 + raw.length) ∧
      s.drop i = doubleQuote :: (raw ++ doubleQuote :: rest) ∧
      ∀ behind, parseJsonQuotedToken (doubleQuote :: (raw ++ doubleQuote :: behind)) =
        some (raw, behind) := by
  have scanned := parseJsonQuotedToken_scanned found
  have written := parseJsonQuotedToken_split found
  obtain ⟨exit, escaped⟩ := scanned.walk
  refine ⟨exit, fun k quote => ⟨?_, fun role passed => ?_⟩, fun ok => ?_, ?_, written,
    parseJsonQuotedToken_of_scanned scanned⟩
  · exact (solidi_odd_iff _).mpr (scanned.quote_escaped quote)
  · have inside : (raw.zip (taken (unescapeWalk raw).events))[k]? = some (doubleQuote, role) :=
      List.getElem?_zip_eq_some.mpr ⟨quote, passed⟩
    exact escaped _ (List.mem_of_getElem? inside) rfl
  · rw [unescapeJsonString_walk] at ok
    exact (taken_length raw).2 (beq_iff_eq.mp ok)
  · have within : (s.take i).length = i := by
      have present := congrArg List.length written
      rw [List.length_drop, List.length_cons] at present
      exact List.length_take_of_le (by omega)
    have closes := scanned.closes (s.take i) rest
    rwa [← written, List.take_append_drop, within] at closes

/-- `x"a\\\"b",`: three backslashes come before the inner quote, so it does not end the token. -/
theorem parseJsonQuotedToken_in_phase_backslashes :
    Closes (ascii "x\"a\\\\\\\"b\",") 1 8 ∧
      (unescapeWalk (ascii "a\\\\\\\"b")).exit ≠ .dangling := by
  have found : parseJsonQuotedToken ((ascii "x\"a\\\\\\\"b\",").drop 1) =
      some (ascii "a\\\\\\\"b", ascii ",") := by decide
  have phase := parseJsonQuotedToken_in_phase found
  exact ⟨phase.2.2.2.1, phase.1⟩

end Dot1xCP.Broker
