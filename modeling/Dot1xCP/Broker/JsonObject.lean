import Dot1xCP.Broker.JsonString

/-! What the member loop accepts, and what it stores.

The loop reads its closing brace in two places: at its head, which it reaches
after the opening brace and after every comma, and after a member. `Tail` is the
language of the loop read off its control flow; it contains every RFC 8259
object of strings, and also a comma before the closing brace.
-/

set_option autoImplicit false

namespace Dot1xCP.Broker
open FlatJson

@[simp] theorem isWs_byte (w : Ws) : isWs w.byte = true := by cases w <;> rfl

theorem exists_ws {c : UInt8} (white : isWs c = true) : ∃ w : Ws, w.byte = c := by
  simp only [isWs, Bool.or_eq_true, beq_iff_eq] at white
  rcases white with ((rfl | rfl) | rfl) | rfl
  · exact ⟨.space, rfl⟩
  · exact ⟨.tab, rfl⟩
  · exact ⟨.cr, rfl⟩
  · exact ⟨.lf, rfl⟩

theorem skipWs_blank (ws : List Ws) (s : List UInt8) : skipWs (blank ws ++ s) = skipWs s := by
  induction ws with
  | nil => rfl
  | cons w ws ih => simpa [skipWs] using ih

theorem skipWs_cons {c : UInt8} (black : isWs c = false) (s : List UInt8) :
    skipWs (c :: s) = c :: s := by simp [skipWs, black]

@[simp] theorem skipWs_quoted {α : Type} [Literal α] (items : List (Item α)) (s : List UInt8) :
    skipWs (quoted items ++ s) = quoted items ++ s := skipWs_cons rfl _

theorem skipWs_split (s : List UInt8) : ∃ ws, s = blank ws ++ skipWs s := by
  induction s with
  | nil => exact ⟨[], rfl⟩
  | cons c s ih =>
    by_cases white : isWs c = true
    · obtain ⟨w, rfl⟩ := exists_ws white
      obtain ⟨ws, split⟩ := ih
      refine ⟨w :: ws, ?_⟩
      have skipped : skipWs (w.byte :: s) = skipWs s := skipWs_blank [w] s
      rw [skipped, blank_cons, List.cons_append, ← split]
    · exact ⟨[], by rw [skipWs_cons (Bool.eq_false_iff.mpr white)]; rfl⟩

section Written
variable {α : Type} [Literal α]

def memberTokens (member : Member α) : List UInt8 :=
  quoted member.key ++ (blank member.beforeColon ++
    colon :: (blank member.afterColon ++ quoted member.value))

theorem Member.bytes_eq (member : Member α) (s : List UInt8) :
    member.bytes ++ s = blank member.before ++ (memberTokens member ++ (blank member.after ++ s)) := by
  simp [Member.bytes, memberTokens]

def decodeMember (member : Member α) : Option (List UInt8 × List UInt8) :=
  match decodeBytes member.key, decodeBytes member.value with
  | some key, some value => some (key, value)
  | _, _ => none

theorem parseMember_tokens (member : Member α) (s : List UInt8) :
    parseMember (memberTokens member ++ s) =
      (decodeMember member).map fun (key, value) => (key, value, s) := by
  have keyToken := parseJsonQuotedToken_quoted member.key
    (blank member.beforeColon ++ colon :: (blank member.afterColon ++ quoted member.value ++ s))
  have valueToken := parseJsonQuotedToken_quoted member.value s
  have afterKey (s : List UInt8) : skipWs (blank member.beforeColon ++ colon :: s) = colon :: s := by
    rw [skipWs_blank, skipWs_cons rfl]
  have afterColon : skipWs (blank member.afterColon ++ (quoted member.value ++ s)) =
      quoted member.value ++ s := by
    rw [skipWs_blank, skipWs_quoted]
  simp only [memberTokens, List.append_assoc, List.cons_append] at keyToken ⊢
  -- The key is decoded before the colon is read, so its failure hides the rest.
  cases key : decodeBytes member.key with
  | none =>
    have failed := unescapeJsonString_undecodable key
    rcases decoded : unescapeJsonString (itemBytes member.key) with ⟨ok, out⟩
    rw [decoded] at failed
    simp only at failed
    subst failed
    simp [parseMember, keyToken, decoded, decodeMember, key]
  | some keyBytes =>
    have keyDecoded := unescapeJsonString_items key
    cases value : decodeBytes member.value with
    | none =>
      have failed := unescapeJsonString_undecodable value
      rcases decoded : unescapeJsonString (itemBytes member.value) with ⟨ok, out⟩
      rw [decoded] at failed
      simp only at failed
      subst failed
      simp [parseMember, keyToken, keyDecoded, afterKey, afterColon, valueToken, decoded,
        decodeMember, key, value]
    | some valueBytes =>
      have valueDecoded := unescapeJsonString_items value
      simp [parseMember, keyToken, keyDecoded, afterKey, afterColon, valueToken, valueDecoded,
        decodeMember, key, value]

end Written

theorem parseMember_sound {s key value rest : List UInt8}
    (found : parseMember s = some (key, value, rest)) (before after : List Ws) :
    ∃ member : Member RawByte, s = memberTokens member ++ rest ∧ member.before = before ∧
      member.after = after ∧ decodeMember member = some (key, value) := by
  obtain ⟨keyRaw, valueRaw, beforeColon, afterColon, keyToken, keyDecoded, head, valueToken,
    valueDecoded⟩ := parseMember_eq_some.mp found
  obtain ⟨keyItems, rfl, keyMeaning⟩ := token_sound keyToken keyDecoded
  obtain ⟨valueItems, written, valueMeaning⟩ := token_sound valueToken valueDecoded
  obtain ⟨first, beforeSplit⟩ := skipWs_split beforeColon
  obtain ⟨second, afterSplit⟩ := skipWs_split afterColon
  refine ⟨⟨before, keyItems, first, second, valueItems, after⟩, ?_, rfl, rfl, ?_⟩
  · rw [beforeSplit, head, afterSplit, written]
    simp [memberTokens]
  · simp [decodeMember, keyMeaning, valueMeaning]

/-! ## The loop -/

/-- What the loop may still read at its head. -/
inductive Tail (α : Type) where
  | close (ws : List Ws)
  | last (member : Member α)
  | more (member : Member α) (rest : Tail α)

def Tail.members {α : Type} : Tail α → List (Member α)
  | .close _ => []
  | .last member => [member]
  | .more member rest => member :: rest.members

/-- A comma stands right before the closing brace. -/
def Tail.Dangling {α : Type} : Tail α → Prop
  | .close _ => False
  | .last _ => False
  | .more _ (.close _) => True
  | .more _ rest => rest.Dangling

section Written
variable {α : Type} [Literal α]

def Tail.bytes : Tail α → List UInt8
  | .close ws => blank ws ++ [rightBrace]
  | .last member => member.bytes ++ [rightBrace]
  | .more member rest => member.bytes ++ comma :: rest.bytes

/-- The fields after the members have been stored in order, up to the first
member that does not decode. -/
def storeMembers : List (Member α) → Msg → Bool → Bool × Msg
  | [], out, hasType => (hasType, out)
  | member :: rest, out, hasType =>
    match decodeMember member with
    | none => (false, out)
    | some (key, value) =>
      storeMembers rest (storeMember out key value) (hasType || key == ascii "type")

theorem finishObject_blank (after : List Ws) (out : Msg) (hasType : Bool) :
    finishObject (blank after) out hasType = (hasType, out) := by
  have skipped : skipWs (blank after) = [] := by simpa [skipWs] using skipWs_blank after []
  simp [finishObject, skipped]

end Written

theorem memberLoop_close {s rest : List UInt8} (head : skipWs s = rightBrace :: rest)
    (out : Msg) (hasType : Bool) :
    memberLoop s out hasType = finishObject rest out hasType := by
  rw [memberLoop.eq_def]
  split
  next empty => simp [empty] at head
  next c s1 found =>
    obtain ⟨rfl, rfl⟩ := List.cons.inj (found.symm.trans head)
    rw [if_pos rfl]

def afterMember (s : List UInt8) (out : Msg) (hasType : Bool) : Bool × Msg :=
  match skipWs s with
  | [] => (false, out)
  | c :: rest =>
    if c = comma then memberLoop rest out hasType
    else if c = rightBrace then finishObject rest out hasType
    else (false, out)

theorem memberLoop_open {s rest : List UInt8} {c : UInt8} (head : skipWs s = c :: rest)
    (opens : c ≠ rightBrace) (out : Msg) (hasType : Bool) :
    memberLoop s out hasType =
      match parseMember (c :: rest) with
      | none => (false, out)
      | some (key, value, s) =>
        afterMember s (storeMember out key value) (hasType || key == ascii "type") := by
  -- The loop's matches carry proofs for its termination; `afterMember` has none.
  rw [memberLoop.eq_def]
  split
  next empty => simp [empty] at head
  next c s1 found =>
    obtain ⟨rfl, rfl⟩ := List.cons.inj (found.symm.trans head)
    rw [if_neg opens]
    split
    next none => simp [none]
    next key value s2 member =>
      simp only [member, afterMember]
      split
      next empty => simp [empty]
      next c s3 next => simp [next]

section Written
variable {α : Type} [Literal α]

theorem memberLoop_member (member : Member α) (s : List UInt8) (out : Msg) (hasType : Bool) :
    memberLoop (member.bytes ++ s) out hasType =
      match decodeMember member with
      | none => (false, out)
      | some (key, value) =>
        afterMember (blank member.after ++ s) (storeMember out key value)
          (hasType || key == ascii "type") := by
  have head : skipWs (member.bytes ++ s) = memberTokens member ++ (blank member.after ++ s) := by
    rw [Member.bytes_eq, skipWs_blank, memberTokens, List.append_assoc, skipWs_quoted]
  have parsed := parseMember_tokens member (blank member.after ++ s)
  have shape : memberTokens member ++ (blank member.after ++ s) = doubleQuote :: _ := rfl
  rw [shape] at head parsed
  rw [memberLoop_open head (by decide), parsed]
  cases decodeMember member with
  | none => rfl
  | some pair => rfl

theorem afterMember_comma (ws : List Ws) (s : List UInt8) (out : Msg) (hasType : Bool) :
    afterMember (blank ws ++ comma :: s) out hasType = memberLoop s out hasType := by
  have head : skipWs (blank ws ++ comma :: s) = comma :: s := by rw [skipWs_blank, skipWs_cons rfl]
  simp [afterMember, head]

theorem afterMember_brace (ws : List Ws) (s : List UInt8) (out : Msg) (hasType : Bool) :
    afterMember (blank ws ++ rightBrace :: s) out hasType = finishObject s out hasType := by
  have head : skipWs (blank ws ++ rightBrace :: s) = rightBrace :: s := by
    rw [skipWs_blank, skipWs_cons rfl]
  have other : rightBrace ≠ comma := by decide
  simp [afterMember, head, other]

/-- The loop stores exactly the members of the tail it reads. -/
theorem memberLoop_tail (tail : Tail α) (after : List Ws) (out : Msg) (hasType : Bool) :
    memberLoop (tail.bytes ++ blank after) out hasType = storeMembers tail.members out hasType := by
  -- A member that does not decode stops the loop and `storeMembers` alike.
  induction tail generalizing out hasType with
  | close ws =>
    have head : skipWs ((Tail.close ws : Tail α).bytes ++ blank after) = rightBrace :: blank after := by
      rw [Tail.bytes, List.append_assoc, skipWs_blank, List.singleton_append, skipWs_cons rfl]
    rw [memberLoop_close head, finishObject_blank]
    rfl
  | last member =>
    rw [Tail.bytes, List.append_assoc, memberLoop_member, Tail.members, storeMembers]
    cases decodeMember member with
    | none => rfl
    | some pair =>
      simp only [List.singleton_append, afterMember_brace, finishObject_blank, storeMembers]
  | more member rest ih =>
    rw [Tail.bytes, List.append_assoc, memberLoop_member, Tail.members, storeMembers]
    cases decodeMember member with
    | none => rfl
    | some pair => simp only [List.cons_append, afterMember_comma, ih]

end Written

theorem finishObject_sound {s : List UInt8} {out final : Msg} {hasType : Bool}
    (accepted : finishObject s out hasType = (true, final)) : ∃ after, s = blank after := by
  obtain ⟨after, split⟩ := skipWs_split s
  unfold finishObject at accepted
  split at accepted
  · cases accepted
  next empty =>
    rw [of_not_not empty, List.append_nil] at split
    exact ⟨after, split⟩

/-- Whatever the loop accepts is a tail of the grammar, followed by white space. -/
theorem memberLoop_sound {s : List UInt8} {out final : Msg} {hasType : Bool}
    (accepted : memberLoop s out hasType = (true, final)) :
    ∃ (tail : Tail RawByte) (after : List Ws), s = tail.bytes ++ blank after := by
  -- Three of the loop's exits accept or go on; the others return false.
  fun_induction memberLoop s out hasType with
  -- A brace at the head: the object is empty or its last comma dangles.
  | case2 s out hasType rest head =>
    obtain ⟨ws, split⟩ := skipWs_split s
    obtain ⟨after, rfl⟩ := finishObject_sound accepted
    exact ⟨.close ws, after, by rw [split, head]; simp [Tail.bytes]⟩
  -- A member and a comma.
  | case5 s out hasType c s1 head opens key value s2 found out' hasType' s3 next ih =>
    obtain ⟨before, split⟩ := skipWs_split s
    obtain ⟨between, continued⟩ := skipWs_split s2
    obtain ⟨member, written, rfl, rfl, _⟩ := parseMember_sound found before between
    obtain ⟨tail, after, rfl⟩ := ih accepted
    refine ⟨.more member tail, after, ?_⟩
    rw [Tail.bytes, List.append_assoc, Member.bytes_eq, split, head, written, continued, next]
    simp
  -- A member and the closing brace.
  | case6 s out hasType c s1 head opens key value s2 found out' hasType' s3 next other =>
    obtain ⟨before, split⟩ := skipWs_split s
    obtain ⟨between, continued⟩ := skipWs_split s2
    obtain ⟨member, written, rfl, rfl, _⟩ := parseMember_sound found before between
    obtain ⟨after, rfl⟩ := finishObject_sound accepted
    refine ⟨.last member, after, ?_⟩
    rw [Tail.bytes, List.append_assoc, Member.bytes_eq, split, head, written, continued, next]
    simp
  | case1 | case3 | case4 | case7 => cases accepted

end Dot1xCP.Broker
