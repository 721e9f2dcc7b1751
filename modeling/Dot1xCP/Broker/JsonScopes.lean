import Dot1xCP.Broker.JsonLine

/-! What the decoder leaves in its local strings.

Freed memory keeps what a `std::string` held when its scope ended, so each local
carries its contents together with what was done to it. The scopes are listed in the
order in which they end, for every way through the parser.
-/

set_option autoImplicit false

namespace Dot1xCP.Broker
open FlatJson

inductive Local where
  | s
  | keyRaw
  | key
  | valueRaw
  | value
  deriving DecidableEq, Repr

/-- A local string. `received` stays set once it has held bytes; `cleared` holds when
`SecureClearString` was the last to write it. -/
structure LocalString where
  content : List UInt8
  received : Bool
  cleared : Bool
  deriving DecidableEq, Repr

namespace LocalString

def declared : LocalString := ⟨[], false, false⟩

def assign (string : LocalString) (bytes : List UInt8) : LocalString where
  content := bytes
  received := string.received || !bytes.isEmpty
  cleared := false

def secureClear (string : LocalString) : LocalString where
  content := secureClearString string.content
  received := string.received
  cleared := true

/-- Whatever it received has been cleared. -/
def Clean (string : LocalString) : Prop :=
  string.received = true → string.content = [] ∧ string.cleared = true

@[simp] theorem declared_clean : declared.Clean := nofun

@[simp] theorem secureClear_clean (string : LocalString) : string.secureClear.Clean :=
  fun _ => ⟨rfl, rfl⟩

@[simp] theorem assign_clean (bytes : List UInt8) : (declared.assign bytes).Clean ↔ bytes = [] := by
  simp [Clean, assign, declared]

end LocalString

structure Scope where
  name : Local
  string : LocalString
  deriving DecidableEq, Repr

def Scope.Clean (scope : Scope) : Prop := scope.string.Clean

/-! ## The scopes of the parser -/

def fieldOf (out : Msg) (key : List UInt8) : Option (List UInt8) :=
  if key = ascii "type" then some out.type
  else if key = ascii "sam" then some out.sam
  else if key = ascii "password" then some out.password
  else if key = ascii "reason" then some out.reason
  else none

open LocalString in
/-- The scopes of one pass through the member loop, branch by branch as in
`parseMember`. A failed `ParseJsonQuotedToken` has cleared its output, a failed
`UnescapeJsonString` leaves what it has written. -/
def memberScopes (s : List UInt8) (out : Msg) : List Scope :=
  match parseJsonQuotedToken s with
  | none => [⟨.keyRaw, declared⟩]
  | some (raw, s) =>
    let keyRaw := declared.assign raw
    match unescapeJsonString raw with
    | (false, decoded) => [⟨.keyRaw, keyRaw.secureClear⟩, ⟨.key, declared.assign decoded⟩]
    | (true, name) =>
      let keyRaw := keyRaw.secureClear
      let key := declared.assign name
      match skipWs s with
      | [] => [⟨.keyRaw, keyRaw⟩, ⟨.key, key.secureClear⟩]
      | c :: s =>
        if c ≠ colon then [⟨.keyRaw, keyRaw⟩, ⟨.key, key.secureClear⟩]
        else
          match parseJsonQuotedToken (skipWs s) with
          | none => [⟨.keyRaw, keyRaw⟩, ⟨.key, key.secureClear⟩, ⟨.valueRaw, declared⟩]
          | some (raw, _) =>
            let valueRaw := (declared.assign raw).secureClear
            match unescapeJsonString raw with
            | (false, decoded) =>
              [⟨.keyRaw, keyRaw⟩, ⟨.key, key.secureClear⟩, ⟨.valueRaw, valueRaw⟩,
                ⟨.value, declared.assign decoded⟩]
            | (true, decoded) =>
              let value := declared.assign decoded
              -- The swap leaves the field's old contents, which have been cleared.
              let value :=
                match fieldOf out name with
                | some field => value.assign (secureClearString field)
                | none => value
              [⟨.keyRaw, keyRaw⟩, ⟨.key, key.secureClear⟩, ⟨.valueRaw, valueRaw⟩,
                ⟨.value, value.secureClear⟩]

def loopScopes (s : List UInt8) (out : Msg) : List Scope :=
  match _head : skipWs s with
  | [] => []
  | c :: s1 =>
    if c = rightBrace then []
    else
      memberScopes (c :: s1) out ++
        match _found : parseMember (c :: s1) with
        | none => []
        | some (key, value, s2) =>
          match _next : skipWs s2 with
          | [] => []
          | c :: s3 => if c = comma then loopScopes s3 (storeMember out key value) else []
termination_by s.length
decreasing_by
  have member := parseMember_length _found
  have before := skipWs_length s
  have after := skipWs_length s2
  rw [_head] at before
  rw [_next] at after
  simp only [List.length_cons] at before after member
  omega

def objectScopes (obj : List UInt8) (out : Msg) : List Scope :=
  match skipWs obj with
  | [] => []
  | c :: s => if c ≠ leftBrace then [] else loopScopes s out

def lineScopes (line : List UInt8) (out : Msg) : List Scope :=
  let s := LocalString.declared.assign (trim line)
  if (trim line).isEmpty then [⟨.s, s.secureClear⟩]
  else objectScopes (trim line) (secureClearMsg out) ++ [⟨.s, s.secureClear⟩]

/-- A token that begins with a string that has a meaning, but has none as a whole. -/
structure Broken (raw : List UInt8) : Prop where
  scanned : Scanned raw
  begins : ∃ (items : List (Item RawByte)) (tail : List UInt8), items ≠ [] ∧
    decodeBytes items ≠ none ∧ raw = itemBytes items ++ tail
  meaningless : ¬ ∃ items : List (Item RawByte), decodeBytes items ≠ none ∧ raw = itemBytes items

theorem appendUtf8_extends (out : List UInt8) (cp : Nat) : out <+: appendUtf8 out cp := by
  unfold appendUtf8
  split_ifs <;> exact List.prefix_append _ _

theorem unescapeLoop_prefix (s out : List UInt8) : out <+: (unescapeLoop s out).2 := by
  fun_induction unescapeLoop s out with
  | case2 out c s notSolidus ih => exact (List.prefix_append _ _).trans ih
  | case4 out c solidus e s b found ih => exact (List.prefix_append _ _).trans ih
  | case8 out c solidus e s notShort letter cp1 hex1 rest high guard cp2 hex2 low ih =>
    exact (appendUtf8_extends _ _).trans ih
  | case12 out c solidus e s notShort letter cp1 hex1 rest notHigh notLow ih =>
    exact (appendUtf8_extends _ _).trans ih
  | _ => exact List.prefix_rfl

theorem decodeBytes_ne_none {items : List (Item RawByte)} :
    decodeBytes items ≠ none ↔
      ∃ segments, decode Literal.bytes String.utf8EncodeChar items = some segments := by
  rw [decodeBytes, Ne, Option.map_eq_none_iff]
  exact Option.ne_none_iff_exists'

theorem segments_flatten_ne_nil {items : List (Item RawByte)} {segments : List (List UInt8)}
    (decoded : decode Literal.bytes String.utf8EncodeChar items = some segments)
    (filled : items ≠ []) : segments.flatten ≠ [] := by
  have literal (a : RawByte) (tail : List (List UInt8)) :
      (Literal.bytes a :: tail).flatten ≠ [] := by simp [Literal.nonempty a]
  have char (c : Char) (tail : List (List UInt8)) :
      (String.utf8EncodeChar c :: tail).flatten ≠ [] := by simp [String.utf8EncodeChar_ne_nil]
  fun_induction decode Literal.bytes String.utf8EncodeChar items generalizing segments with
  | case1 => exact absurd rfl filled
  | case2 a rest =>
    obtain ⟨tail, _, rfl⟩ := Option.map_eq_some_iff.mp decoded
    exact literal a tail
  | case3 | case4 | case8 =>
    obtain ⟨tail, _, rfl⟩ := Option.map_eq_some_iff.mp decoded
    exact char _ tail
  | case5 | case6 | case7 => cases decoded

/-- The decoder fails after part of its output exactly on these tokens. -/
theorem broken_iff {raw : List UInt8} (scanned : Scanned raw) :
    Broken raw ↔ (unescapeJsonString raw).1 = false ∧ (unescapeJsonString raw).2 ≠ [] := by
  constructor
  · rintro ⟨_, ⟨items, tail, filled, decodable, rfl⟩, meaningless⟩
    obtain ⟨segments, decoded⟩ := decodeBytes_ne_none.mp decodable
    constructor
    · rw [Bool.eq_false_iff]
      intro ok
      obtain ⟨whole, wholeSegments, same, meaning, _⟩ := unescapeLoop_sound scanned (Prod.ext ok rfl)
      exact meaningless ⟨whole, decodeBytes_ne_none.mpr ⟨_, meaning⟩, same⟩
    · intro nothing
      have kept := unescapeLoop_prefix tail ([] ++ segments.flatten)
      rw [← unescapeLoop_items decoded] at kept
      rw [unescapeJsonString] at nothing
      rw [nothing, List.nil_append, List.prefix_nil] at kept
      exact segments_flatten_ne_nil decoded filled kept
  · rintro ⟨failed, some⟩
    obtain ⟨items, segments, tail, same, meaning, written, _⟩ := unescapeLoop_reads scanned []
    refine ⟨scanned, ⟨items, tail, ?_, decodeBytes_ne_none.mpr ⟨_, meaning⟩, same⟩, ?_⟩
    · rintro rfl
      cases meaning
      exact some written
    · rintro ⟨whole, decodable, rfl⟩
      obtain ⟨bytes, meaning⟩ := Option.ne_none_iff_exists'.mp decodable
      rw [unescapeJsonString_items meaning] at failed
      cases failed

theorem tokenLoop_of_scanned {raw : List UInt8} (scanned : Scanned raw) (rest : List UInt8) :
    tokenLoop false (raw ++ doubleQuote :: rest) = some (raw, rest) := by
  induction scanned with
  | nil => simp [tokenLoop]
  | plain notQuote notSolidus _ ih => simp [tokenLoop, notQuote, notSolidus, ih]
  | escaped _ ih => simp [tokenLoop, ih]

theorem parseJsonQuotedToken_of_scanned {raw : List UInt8} (scanned : Scanned raw)
    (rest : List UInt8) :
    parseJsonQuotedToken (doubleQuote :: (raw ++ doubleQuote :: rest)) = some (raw, rest) := by
  simp [parseJsonQuotedToken, tokenLoop_of_scanned scanned]

theorem failed_clean {raw : List UInt8} {decoded : List UInt8} (scanned : Scanned raw)
    (failed : unescapeJsonString raw = (false, decoded)) :
    (LocalString.declared.assign decoded).Clean ↔ ¬ Broken raw := by
  rw [broken_iff scanned, failed, LocalString.assign_clean]
  simp

theorem Broken.failed {raw : List UInt8} (broken : Broken raw) : (unescapeJsonString raw).1 = false :=
  ((broken_iff broken.scanned).mp broken).1

theorem Broken.not_decoded {raw value : List UInt8} (broken : Broken raw)
    (decoded : unescapeJsonString raw = (true, value)) : False := by
  have failed := broken.failed
  rw [decoded] at failed
  cases failed

/-! ## Where the parser stops -/

/-- The key or the value of the member at the head is broken. -/
inductive MemberStops (s : List UInt8) : Prop where
  | key {raw rest : List UInt8} (token : parseJsonQuotedToken s = some (raw, rest))
      (broken : Broken raw)
  | value {keyRaw key beforeColon afterColon raw rest : List UInt8}
      (keyToken : parseJsonQuotedToken s = some (keyRaw, beforeColon))
      (decoded : unescapeJsonString keyRaw = (true, key))
      (head : skipWs beforeColon = colon :: afterColon)
      (token : parseJsonQuotedToken (skipWs afterColon) = some (raw, rest)) (broken : Broken raw)

theorem MemberStops.value_broken {s keyRaw key beforeColon : List UInt8} (stops : MemberStops s)
    (keyToken : parseJsonQuotedToken s = some (keyRaw, beforeColon))
    (decodedKey : unescapeJsonString keyRaw = (true, key)) :
    ∃ afterColon raw rest, skipWs beforeColon = colon :: afterColon ∧
      parseJsonQuotedToken (skipWs afterColon) = some (raw, rest) ∧ Broken raw := by
  rcases stops with ⟨token, broken⟩ | ⟨token, decoded, head, valueToken, broken⟩
  · cases keyToken.symm.trans token
    exact (broken.not_decoded decodedKey).elim
  · cases keyToken.symm.trans token
    exact ⟨_, _, _, head, valueToken, broken⟩

theorem memberScopes_clean_iff (s : List UInt8) (out : Msg) :
    (∀ scope ∈ memberScopes s out, scope.Clean) ↔ ¬ MemberStops s := by
  unfold memberScopes
  split
  next none =>
    refine iff_of_true (by simp [Scope.Clean]) ?_
    rintro (⟨token, _⟩ | ⟨token, _, _, _, _⟩)
    · cases none.symm.trans token
    · cases none.symm.trans token
  next keyRaw beforeColon keyToken =>
    have keyScanned := parseJsonQuotedToken_scanned keyToken
    split
    next written failed =>
      have clean := failed_clean keyScanned failed
      simp only [List.forall_mem_cons, Scope.Clean, LocalString.secureClear_clean, clean, true_and,
        List.not_mem_nil, false_imp_iff, implies_true, and_true]
      refine not_congr ⟨fun broken => .key keyToken broken, ?_⟩
      rintro (⟨token, broken⟩ | ⟨token, decoded, _, _, _⟩)
      · cases keyToken.symm.trans token
        exact broken
      · cases keyToken.symm.trans token
        cases failed.symm.trans decoded
    next key decodedKey =>
      dsimp only
      split
      next empty =>
        refine iff_of_true (by simp [Scope.Clean]) fun stops => ?_
        obtain ⟨_, _, _, head, _, _⟩ := stops.value_broken keyToken decodedKey
        cases empty.symm.trans head
      next c afterColon found =>
        split
        next other =>
          refine iff_of_true (by simp [Scope.Clean]) fun stops => ?_
          obtain ⟨_, _, _, head, _, _⟩ := stops.value_broken keyToken decodedKey
          exact other (List.cons.inj (found.symm.trans head)).1
        next isColon =>
          have head : skipWs beforeColon = colon :: afterColon := of_not_not isColon ▸ found
          have here (stops : MemberStops s) : ∃ raw rest,
              parseJsonQuotedToken (skipWs afterColon) = some (raw, rest) ∧ Broken raw := by
            obtain ⟨_, raw, rest, head', token, broken⟩ := stops.value_broken keyToken decodedKey
            obtain ⟨_, rfl⟩ := List.cons.inj (head.symm.trans head')
            exact ⟨raw, rest, token, broken⟩
          split
          next none =>
            refine iff_of_true (by simp [Scope.Clean]) fun stops => ?_
            obtain ⟨_, _, token, _⟩ := here stops
            cases none.symm.trans token
          next raw rest valueToken =>
            split
            next written failed =>
              have clean := failed_clean (parseJsonQuotedToken_scanned valueToken) failed
              simp only [List.forall_mem_cons, Scope.Clean, LocalString.secureClear_clean, clean,
                true_and, List.not_mem_nil, false_imp_iff, implies_true, and_true]
              refine not_congr ⟨fun broken => .value keyToken decodedKey head valueToken broken, ?_⟩
              intro stops
              obtain ⟨_, _, token, broken⟩ := here stops
              cases valueToken.symm.trans token
              exact broken
            next value decodedValue =>
              refine iff_of_true (by simp [Scope.Clean]) fun stops => ?_
              obtain ⟨_, _, token, broken⟩ := here stops
              cases valueToken.symm.trans token
              exact broken.not_decoded decodedValue

inductive LoopStops : List UInt8 → Prop where
  | here {s : List UInt8} : MemberStops (skipWs s) → LoopStops s
  | later {s key value s2 s3 : List UInt8} (member : parseMember (skipWs s) = some (key, value, s2))
      (next : skipWs s2 = comma :: s3) : LoopStops s3 → LoopStops s

theorem MemberStops.opens {s : List UInt8} (stops : MemberStops s) : ∃ t, s = doubleQuote :: t := by
  rcases stops with ⟨token, _⟩ | ⟨token, _, _, _, _⟩
  · exact ⟨_, parseJsonQuotedToken_split token⟩
  · exact ⟨_, parseJsonQuotedToken_split token⟩

theorem LoopStops.opens {s : List UInt8} (stops : LoopStops s) :
    ∃ t, skipWs s = doubleQuote :: t := by
  cases stops with
  | here stops => exact stops.opens
  | later member _ _ =>
    obtain ⟨_, _, _, _, token, _⟩ := parseMember_eq_some.mp member
    exact ⟨_, parseJsonQuotedToken_split token⟩

theorem loopStops_iff {s : List UInt8} :
    LoopStops s ↔ MemberStops (skipWs s) ∨ ∃ key value s2 s3,
      parseMember (skipWs s) = some (key, value, s2) ∧ skipWs s2 = comma :: s3 ∧ LoopStops s3 := by
  constructor
  · rintro (stops | ⟨member, next, stops⟩)
    · exact Or.inl stops
    · exact Or.inr ⟨_, _, _, _, member, next, stops⟩
  · rintro (stops | ⟨_, _, _, _, member, next, stops⟩)
    · exact .here stops
    · exact .later member next stops

theorem loopScopes_clean_iff (s : List UInt8) (out : Msg) :
    (∀ scope ∈ loopScopes s out, scope.Clean) ↔ ¬ LoopStops s := by
  fun_induction loopScopes s out with
  | case1 s out empty =>
    refine iff_of_true (by simp) fun stops => ?_
    obtain ⟨_, opened⟩ := stops.opens
    cases empty.symm.trans opened
  | case2 s out rest head =>
    refine iff_of_true (by simp) fun stops => ?_
    obtain ⟨_, opened⟩ := stops.opens
    exact absurd (List.cons.inj (head.symm.trans opened)).1 (by decide)
  | case3 s out c rest head opens ih =>
    rw [List.forall_mem_append, memberScopes_clean_iff, loopStops_iff, head, not_or]
    refine and_congr_right fun _ => ?_
    split
    next failed => simp [failed]
    next key value s2 member =>
      split
      next empty => simp [member, empty]
      next d s3 next =>
        by_cases comma : d = FlatJson.comma
        · rw [if_pos comma, ih key value s2 member d s3 next]
          simp [member, next, comma]
        · rw [if_neg comma]
          simp [member, next, comma]

inductive Position where
  | ofKey
  | ofValue (key : List (Item RawByte)) (beforeColon afterColon : List Ws)

def Position.bytes : Position → List UInt8
  | .ofKey => []
  | .ofValue key beforeColon afterColon =>
    quoted key ++ (blank beforeColon ++ colon :: blank afterColon)

def Position.Decodes : Position → Prop
  | .ofKey => True
  | .ofValue key _ _ => decodeBytes key ≠ none

/-- After the brace: members that decode, each with its comma, and then a broken string. -/
def BrokenBody (s : List UInt8) : Prop :=
  ∃ (members : List (Member RawByte)) (ws : List Ws) (position : Position) (raw rest : List UInt8),
    s = (members.flatMap fun member => member.bytes ++ [comma]) ++
      (blank ws ++ (position.bytes ++ doubleQuote :: (raw ++ doubleQuote :: rest))) ∧
    (∀ member ∈ members, decodeMember member ≠ none) ∧ position.Decodes ∧ Broken raw

/-- The line is an object up to a key or a value that begins with a string that has a
meaning, but has none as a whole. -/
def PartlyDecoded (line : List UInt8) : Prop :=
  ∃ before s, line = blank before ++ leftBrace :: s ∧ BrokenBody s

theorem MemberStops.exists_position {s : List UInt8} (stops : MemberStops s) :
    ∃ (position : Position) (raw rest : List UInt8),
      s = position.bytes ++ doubleQuote :: (raw ++ doubleQuote :: rest) ∧ position.Decodes ∧
        Broken raw := by
  rcases stops with ⟨token, broken⟩ | @⟨_, _, beforeColon, afterColon, raw, rest, keyToken, decoded,
    head, token, broken⟩
  · exact ⟨.ofKey, _, _, parseJsonQuotedToken_split token, trivial, broken⟩
  · obtain ⟨key, rfl, meaning⟩ := token_sound keyToken decoded
    obtain ⟨blankBefore, split⟩ := skipWs_split beforeColon
    obtain ⟨blankAfter, behind⟩ := skipWs_split afterColon
    refine ⟨.ofValue key blankBefore blankAfter, raw, rest, ?_, ?_, broken⟩
    · rw [split, head, behind, parseJsonQuotedToken_split token]
      simp [Position.bytes]
    · rw [Position.Decodes, meaning]
      simp

theorem memberStops_position {position : Position} {raw : List UInt8} (decodes : position.Decodes)
    (broken : Broken raw) (rest : List UInt8) :
    MemberStops (position.bytes ++ doubleQuote :: (raw ++ doubleQuote :: rest)) := by
  have token := parseJsonQuotedToken_of_scanned broken.scanned rest
  cases position with
  | ofKey => exact .key token broken
  | ofValue key beforeColon afterColon =>
    obtain ⟨bytes, meaning⟩ := Option.ne_none_iff_exists'.mp decodes
    rw [Position.bytes, List.append_assoc, List.append_assoc]
    have head (s : List UInt8) : skipWs (blank beforeColon ++ (colon :: s)) = colon :: s := by
      rw [skipWs_blank, skipWs_cons rfl]
    have valueToken : parseJsonQuotedToken (skipWs (blank afterColon ++
        doubleQuote :: (raw ++ doubleQuote :: rest))) = some (raw, rest) := by
      rw [skipWs_blank, skipWs_cons rfl, token]
    exact .value (parseJsonQuotedToken_quoted key _) (unescapeJsonString_items meaning) (head _)
      valueToken broken

theorem loopStops_iff_body {s : List UInt8} : LoopStops s ↔ BrokenBody s := by
  constructor
  · intro stops
    induction stops with
    | @here s stops =>
      obtain ⟨position, raw, rest, split, decodes, broken⟩ := stops.exists_position
      obtain ⟨ws, written⟩ := skipWs_split s
      exact ⟨[], ws, position, raw, rest, by rw [written, split]; rfl, by simp, decodes, broken⟩
    | @later s key value s2 s3 found next _ ih =>
      obtain ⟨members, ws, position, raw, rest, rfl, decodable, decodes, broken⟩ := ih
      obtain ⟨before, split⟩ := skipWs_split s
      obtain ⟨between, continued⟩ := skipWs_split s2
      obtain ⟨member, written, rfl, rfl, meaning⟩ := parseMember_sound found before between
      refine ⟨member :: members, ws, position, raw, rest, ?_, ?_, decodes, broken⟩
      · rw [split, written, continued, next, List.flatMap_cons, List.append_assoc, List.append_assoc,
          Member.bytes_eq]
        simp
      · exact List.forall_mem_cons.mpr ⟨by simp [meaning], decodable⟩
  · rintro ⟨members, ws, position, raw, rest, rfl, decodable, decodes, broken⟩
    have stops := memberStops_position decodes broken rest
    induction members with
    | nil =>
      apply LoopStops.here
      obtain ⟨t, opened⟩ := stops.opens
      rw [List.flatMap_nil, List.nil_append, skipWs_blank, opened, skipWs_cons rfl, ← opened]
      exact stops
    | cons member members ih =>
      obtain ⟨first, others⟩ := List.forall_mem_cons.mp decodable
      obtain ⟨⟨key, value⟩, meaning⟩ := Option.ne_none_iff_exists'.mp first
      rw [List.flatMap_cons, List.append_assoc, List.append_assoc, Member.bytes_eq]
      have found (s : List UInt8) : parseMember (skipWs (blank member.before ++
          (memberTokens member ++ s))) = some (key, value, s) := by
        rw [skipWs_blank, memberTokens, List.append_assoc, skipWs_quoted, ← List.append_assoc,
          ← memberTokens, parseMember_tokens, meaning]
        rfl
      have next (s : List UInt8) : skipWs (blank member.after ++ ([comma] ++ s)) = comma :: s := by
        rw [skipWs_blank]
        exact skipWs_cons rfl _
      exact .later (found _) (next _) (ih others)

theorem rdropWhile_black {c : UInt8} (black : isWs c = false) (front rest : List UInt8) :
    (front ++ c :: rest).rdropWhile isWs = front ++ c :: rest.rdropWhile isWs := by
  have kept : (c :: front.reverse).dropWhile isWs = c :: front.reverse := by simp [black]
  have shape : (front ++ c :: rest).reverse = rest.reverse ++ c :: front.reverse := by simp
  rw [List.rdropWhile, shape, List.dropWhile_append, kept]
  split
  next empty => simp [List.rdropWhile, List.isEmpty_iff.mp empty]
  next => simp [List.rdropWhile]

theorem partlyDecoded_iff (line : List UInt8) :
    PartlyDecoded line ↔ ∃ s, skipWs (trim line) = leftBrace :: s ∧ LoopStops s := by
  simp only [loopStops_iff_body]
  constructor
  · rintro ⟨before, _, rfl, members, ws, position, raw, rest, rfl, body⟩
    -- Trimming takes nothing but the end of what follows the token.
    obtain ⟨front, shape⟩ : ∃ front, ∀ rest : List UInt8,
        leftBrace :: ((members.flatMap fun member => member.bytes ++ [comma]) ++
          (blank ws ++ (position.bytes ++ doubleQuote :: (raw ++ doubleQuote :: rest)))) =
          front ++ doubleQuote :: rest :=
      ⟨leftBrace :: ((members.flatMap fun member => member.bytes ++ [comma]) ++
        (blank ws ++ (position.bytes ++ doubleQuote :: raw))), by simp⟩
    have left : (blank before ++ leftBrace ::
        ((members.flatMap fun member => member.bytes ++ [comma]) ++
          (blank ws ++ (position.bytes ++ doubleQuote :: (raw ++ doubleQuote :: rest))))).dropWhile
          isWs = front ++ doubleQuote :: rest := by
      rw [dropWhile_blank, ← shape]
      exact skipWs_cons rfl _
    refine ⟨_, ?_, members, ws, position, raw, rest.rdropWhile isWs, rfl, body⟩
    rw [trim, left, rdropWhile_black rfl, ← shape]
    exact skipWs_cons rfl _
  · rintro ⟨_, head, members, ws, position, raw, rest, rfl, body⟩
    obtain ⟨before, after, split⟩ := trim_split line
    obtain ⟨inner, entered⟩ := skipWs_split (trim line)
    refine ⟨before ++ inner, _, ?_, members, ws, position, raw, rest ++ blank after, rfl, body⟩
    rw [split, entered, head]
    simp [blank]

theorem objectScopes_clean_iff (obj : List UInt8) (out : Msg) :
    (∀ scope ∈ objectScopes obj out, scope.Clean) ↔
      ¬ ∃ s, skipWs obj = leftBrace :: s ∧ LoopStops s := by
  unfold objectScopes
  split
  next empty => simp [empty]
  next c s head =>
    split
    next other => simp [head, other]
    next brace =>
      rw [loopScopes_clean_iff, head, of_not_not brace]
      simp

theorem lineScopes_clean (line : List UInt8) (out : Msg) :
    (∀ scope ∈ lineScopes line out, scope.Clean) ↔
      ¬ ∃ s, skipWs (trim line) = leftBrace :: s ∧ LoopStops s := by
  unfold lineScopes
  split
  next empty =>
    rw [List.isEmpty_iff.mp empty]
    simp [Scope.Clean, skipWs]
  next =>
    have line : Scope.Clean ⟨.s, (LocalString.declared.assign (trim line)).secureClear⟩ :=
      LocalString.secureClear_clean _
    rw [List.forall_mem_append, objectScopes_clean_iff]
    simp [line]

/-- Every local string that received bytes has been cleared when its scope ends, on every
way through the parser, unless it decodes a key or a value in part. -/
theorem lineScopes_clean_iff (line : List UInt8) (out : Msg) :
    (∀ scope ∈ lineScopes line out, scope.Clean) ↔ ¬ PartlyDecoded line := by
  rw [partlyDecoded_iff, lineScopes_clean]

/-- `{"password":"pw\q"}`: the letters before the unknown escape stay in `value`. -/
theorem lineScopes_leaves_secret :
    ¬ ∀ scope ∈ lineScopes (ascii "\x7b\"password\":\"pw\\q\"\x7d") emptyMsg, scope.Clean := by
  intro clean
  have left := clean ⟨.value, ⟨ascii "pw", true, false⟩⟩ (by decide +kernel) rfl
  exact absurd left.1 (by decide)

theorem MemberStops.not_parsed {s : List UInt8} (stops : MemberStops s) : parseMember s = none := by
  rw [Option.eq_none_iff_forall_not_mem]
  rintro ⟨key, value, rest⟩ found
  obtain ⟨_, _, _, _, keyToken, decodedKey, head, valueToken, decodedValue⟩ :=
    parseMember_eq_some.mp found
  obtain ⟨_, _, _, head', valueToken', broken⟩ := stops.value_broken keyToken decodedKey
  obtain ⟨_, rfl⟩ := List.cons.inj (head.symm.trans head')
  cases valueToken.symm.trans valueToken'
  exact broken.not_decoded decodedValue

theorem LoopStops.rejected {s : List UInt8} (stops : LoopStops s) (out : Msg) (hasType : Bool) :
    (memberLoop s out hasType).1 = false := by
  induction stops generalizing out hasType with
  | @here s stops =>
    obtain ⟨t, opened⟩ := stops.opens
    rw [memberLoop_open opened (by decide), ← opened]
    rw [stops.not_parsed]
  | @later s key value s2 s3 member next _ ih =>
    obtain ⟨_, _, _, _, keyToken, _⟩ := parseMember_eq_some.mp member
    have opened := parseJsonQuotedToken_split keyToken
    rw [memberLoop_open opened (by decide), ← opened, member]
    simp only [afterMember, next, if_true]
    exact ih _ _

/-- A line that is accepted leaves nothing behind. -/
theorem lineScopes_accepted {line : List UInt8} {out : Msg}
    (accepted : (parseJsonLine line out).1 = true) :
    ∀ scope ∈ lineScopes line out, scope.Clean := by
  rw [lineScopes_clean]
  rintro ⟨s, head, stops⟩
  have parsed : (parseFlatBrokerMessage (trim line) emptyMsg).1 = false := by
    rw [parseFlatBrokerMessage, head]
    simpa using stops.rejected emptyMsg false
  rw [parseJsonLine_eq] at accepted
  simp [parsed] at accepted

end Dot1xCP.Broker
