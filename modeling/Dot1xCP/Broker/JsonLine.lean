import Dot1xCP.Broker.JsonObject

/-! Broker messages: which lines are accepted, and the four fields they yield.

Every RFC 8259 object of strings is read as it is meant: the last member with a
key decides its field. The converse fails in two ways that the grammar of the
loop makes explicit, a comma before the closing brace and raw control bytes
inside strings.
-/

set_option autoImplicit false

namespace Dot1xCP.Broker
open FlatJson

abbrev Pair := List UInt8 × List UInt8

def storeAll (out : Msg) (pairs : List Pair) : Msg :=
  pairs.foldl (fun out pair => storeMember out pair.1 pair.2) out

def lastValue (pairs : List Pair) (key : List UInt8) : Option (List UInt8) :=
  (pairs.filter fun pair => pair.1 == key).getLast?.map Prod.snd

theorem lastValue_cons (pair : Pair) (pairs : List Pair) (key : List UInt8) :
    lastValue (pair :: pairs) key =
      if pair.1 = key then some ((lastValue pairs key).getD pair.2) else lastValue pairs key := by
  unfold lastValue
  -- A pair with the key counts only when no later pair has it.
  by_cases same : pair.1 = key
  · rw [List.filter_cons_of_pos (by simpa using same), if_pos same, List.getLast?_cons]
    cases (pairs.filter fun pair => pair.1 == key).getLast? <;> rfl
  · rw [List.filter_cons_of_neg (by simpa using same), if_neg same]

theorem lastValue_mem {pairs : List Pair} {key value : List UInt8}
    (last : lastValue pairs key = some value) : (key, value) ∈ pairs := by
  obtain ⟨⟨name, found⟩, final, rfl⟩ := Option.map_eq_some_iff.mp last
  obtain ⟨inside, same⟩ := List.mem_filter.mp (List.mem_of_getLast? final)
  obtain rfl : name = key := eq_of_beq same
  exact inside

theorem lastValue_eq_none {pairs : List Pair} {key : List UInt8} :
    lastValue pairs key = none ↔ ∀ value, (key, value) ∉ pairs := by
  rw [lastValue, Option.map_eq_none_iff, List.getLast?_eq_none_iff, List.filter_eq_nil_iff]
  constructor
  · intro others value inside
    exact others (key, value) inside (beq_self_eq_true key)
  · intro absent pair inside same
    obtain ⟨name, value⟩ := pair
    obtain rfl : name = key := eq_of_beq same
    exact absent value inside

/-- A field that a key, and nothing else, overwrites holds its last value. -/
theorem storeAll_field {get : Msg → List UInt8} {key : List UInt8}
    (stores : ∀ out name value, get (storeMember out name value) = if name = key then value else get out)
    (out : Msg) (pairs : List Pair) :
    get (storeAll out pairs) = (lastValue pairs key).getD (get out) := by
  induction pairs generalizing out with
  | nil => rfl
  | cons pair pairs ih =>
    change get (storeAll (storeMember out pair.1 pair.2) pairs) = _
    rw [ih, stores, lastValue_cons]
    by_cases same : pair.1 = key
    · simp [same]
    · simp [same]

theorem storeMember_eq (out : Msg) (name value : List UInt8) :
    storeMember out name value =
      { type := if name = ascii "type" then value else out.type
        sam := if name = ascii "sam" then value else out.sam
        password := if name = ascii "password" then value else out.password
        reason := if name = ascii "reason" then value else out.reason } := by
  unfold storeMember
  split_ifs <;> simp_all [ascii]

def emptyMsg : Msg := ⟨[], [], [], []⟩

theorem parseJsonLine_eq (line : List UInt8) (out : Msg) :
    parseJsonLine line out =
      if (trim line).isEmpty then (false, emptyMsg)
      else if !(parseFlatBrokerMessage (trim line) emptyMsg).1 ||
          (parseFlatBrokerMessage (trim line) emptyMsg).2.type.isEmpty then (false, emptyMsg)
      else (true, (parseFlatBrokerMessage (trim line) emptyMsg).2) := rfl

theorem storeAll_empty (pairs : List Pair) :
    storeAll emptyMsg pairs =
      { type := (lastValue pairs (ascii "type")).getD []
        sam := (lastValue pairs (ascii "sam")).getD []
        password := (lastValue pairs (ascii "password")).getD []
        reason := (lastValue pairs (ascii "reason")).getD [] } := by
  have type := storeAll_field (fun out _ _ => congrArg Msg.type (storeMember_eq out _ _)) emptyMsg pairs
  have sam := storeAll_field (fun out _ _ => congrArg Msg.sam (storeMember_eq out _ _)) emptyMsg pairs
  have password :=
    storeAll_field (fun out _ _ => congrArg Msg.password (storeMember_eq out _ _)) emptyMsg pairs
  have reason :=
    storeAll_field (fun out _ _ => congrArg Msg.reason (storeMember_eq out _ _)) emptyMsg pairs
  rcases stored : storeAll emptyMsg pairs with ⟨a, b, c, d⟩
  rw [stored] at type sam password reason
  simp only at type sam password reason
  simp only [type, sam, password, reason, emptyMsg]

section Written
variable {α : Type} [Literal α]

def decodeMembers : List (Member α) → Option (List Pair)
  | [] => some []
  | member :: rest => do
    let pair ← decodeMember member
    let pairs ← decodeMembers rest
    return pair :: pairs

theorem decodeMembers_cons {member : Member α} {rest : List (Member α)} {pairs : List Pair} :
    decodeMembers (member :: rest) = some pairs ↔
      ∃ pair tail, decodeMember member = some pair ∧ decodeMembers rest = some tail ∧
        pair :: tail = pairs := by
  simp [decodeMembers, Option.bind_eq_some_iff]

theorem storeMembers_decoded {members : List (Member α)} {pairs : List Pair}
    (decoded : decodeMembers members = some pairs) (out : Msg) (hasType : Bool) :
    storeMembers members out hasType =
      (hasType || (lastValue pairs (ascii "type")).isSome, storeAll out pairs) := by
  -- The flag and the fields are carried along, so the claim is for every start of both.
  induction members generalizing pairs out hasType with
  | nil =>
    cases decoded
    simp [storeMembers, lastValue, storeAll]
  | cons member rest ih =>
    obtain ⟨pair, tail, first, others, rfl⟩ := decodeMembers_cons.mp decoded
    simp only [storeMembers, first, ih others, lastValue_cons]
    by_cases same : pair.1 = ascii "type"
    · simp [same, storeAll]
    · have differs : (pair.1 == ascii "type") = false := beq_eq_false_iff_ne.mpr same
      simp [same, differs, storeAll]

theorem storeMembers_undecoded {members : List (Member α)}
    (undecoded : decodeMembers members = none) (out : Msg) (hasType : Bool) :
    (storeMembers members out hasType).1 = false := by
  induction members generalizing out hasType with
  | nil => cases undecoded
  | cons member rest ih =>
    cases first : decodeMember member with
    | none => simp [storeMembers, first]
    | some pair =>
      have others : decodeMembers rest = none := by
        cases others : decodeMembers rest with
        | none => rfl
        | some tail => simp [decodeMembers, first, others] at undecoded
      simp only [storeMembers, first]
      exact ih others _ _

end Written

/-- The objects the loop reads, with the white space around them. -/
structure Lenient (α : Type) where
  before : List Ws
  tail : Tail α
  after : List Ws

section Written
variable {α : Type} [Literal α]

def Lenient.bytes (object : Lenient α) : List UInt8 :=
  blank object.before ++ leftBrace :: (object.tail.bytes ++ blank object.after)

theorem Tail.bytes_ends (tail : Tail α) : ∃ front, tail.bytes = front ++ [rightBrace] := by
  induction tail with
  | close ws => exact ⟨_, rfl⟩
  | last member => exact ⟨_, rfl⟩
  | more member rest ih =>
    obtain ⟨front, written⟩ := ih
    exact ⟨member.bytes ++ comma :: front, by simp [Tail.bytes, written]⟩

theorem dropWhile_blank (ws : List Ws) (s : List UInt8) :
    (blank ws ++ s).dropWhile isWs = s.dropWhile isWs := skipWs_blank ws s

theorem blank_reverse (ws : List Ws) : (blank ws).reverse = blank ws.reverse := by
  simp [blank]

theorem trim_object (object : Lenient α) :
    trim object.bytes = leftBrace :: object.tail.bytes := by
  obtain ⟨front, ends⟩ := object.tail.bytes_ends
  have left : (Lenient.bytes object).dropWhile isWs =
      leftBrace :: (object.tail.bytes ++ blank object.after) := by
    rw [Lenient.bytes, dropWhile_blank]
    exact skipWs_cons rfl _
  -- From the right the object ends in a brace, which is where trimming stops.
  have right : (leftBrace :: (object.tail.bytes ++ blank object.after)).reverse.dropWhile isWs =
      (leftBrace :: object.tail.bytes).reverse := by
    have shape : (leftBrace :: (object.tail.bytes ++ blank object.after)).reverse =
        blank object.after.reverse ++ rightBrace :: (leftBrace :: front).reverse := by
      simp [ends, blank_reverse]
    rw [shape, dropWhile_blank, ends]
    simpa [skipWs] using skipWs_cons (c := rightBrace) rfl (front.reverse ++ [leftBrace])
  rw [trim, left, List.rdropWhile, right, List.reverse_reverse]

theorem parseFlatBrokerMessage_object (object : Lenient α) (out : Msg) :
    parseFlatBrokerMessage (leftBrace :: object.tail.bytes) out =
      storeMembers object.tail.members out false := by
  have read := memberLoop_tail object.tail [] out false
  rw [blank_nil, List.append_nil] at read
  rw [← read, parseFlatBrokerMessage, skipWs_cons rfl]
  simp

/-- An accepted object yields the last value of each key. -/
theorem parseJsonLine_decoded (object : Lenient α) {pairs : List Pair}
    (decoded : decodeMembers object.tail.members = some pairs) (out : Msg) :
    parseJsonLine object.bytes out =
      if (lastValue pairs (ascii "type")).getD [] = [] then (false, emptyMsg)
      else (true, storeAll emptyMsg pairs) := by
  have stored := storeMembers_decoded decoded emptyMsg false
  have type : (storeAll emptyMsg pairs).type = (lastValue pairs (ascii "type")).getD [] := by
    rw [storeAll_empty]
  simp only [parseJsonLine_eq, trim_object, parseFlatBrokerMessage_object, stored,
    List.isEmpty_cons, Bool.false_eq_true, if_false, Bool.false_or, type]
  cases lastValue pairs (ascii "type") with
  | none => simp
  | some value => simp

theorem parseJsonLine_undecoded (object : Lenient α)
    (undecoded : decodeMembers object.tail.members = none) (out : Msg) :
    parseJsonLine object.bytes out = (false, emptyMsg) := by
  have failed := storeMembers_undecoded undecoded emptyMsg false
  simp only [parseJsonLine_eq, trim_object, parseFlatBrokerMessage_object,
    List.isEmpty_cons, Bool.false_eq_true, if_false, failed, Bool.not_false, Bool.true_or, if_true]

end Written

/-- A rejected line leaves nothing in the fields, whatever they held. -/
theorem parseJsonLine_rejected {line : List UInt8} {out : Msg}
    (rejected : (parseJsonLine line out).1 = false) : (parseJsonLine line out).2 = emptyMsg := by
  rw [parseJsonLine_eq] at rejected ⊢
  split at rejected
  next empty => rw [if_pos empty]
  next filled =>
    rw [if_neg filled]
    split at rejected
    next unusable => rw [if_pos unusable]
    next usable => cases rejected

theorem dropWhile_ws (s : List UInt8) : ∃ ws, s = blank ws ++ s.dropWhile isWs := skipWs_split s

theorem trim_split (line : List UInt8) :
    ∃ before after, line = blank before ++ (trim line ++ blank after) := by
  obtain ⟨before, left⟩ := dropWhile_ws line
  obtain ⟨after, right⟩ := dropWhile_ws (line.dropWhile isWs).reverse
  -- The right end is trimmed as the left end of the reversal.
  have kept := congrArg List.reverse right
  rw [List.reverse_reverse, List.reverse_append, blank_reverse] at kept
  exact ⟨before, after.reverse, left.trans (congrArg (blank before ++ ·) kept)⟩

theorem parseJsonLine_sound {line : List UInt8} {out : Msg}
    (accepted : (parseJsonLine line out).1 = true) :
    ∃ object : Lenient RawByte, line = object.bytes := by
  obtain ⟨before, after, split⟩ := trim_split line
  obtain ⟨ws, head⟩ := skipWs_split (trim line)
  rw [parseJsonLine_eq] at accepted
  split at accepted
  · cases accepted
  split at accepted
  · cases accepted
  next usable =>
    have parsed : (parseFlatBrokerMessage (trim line) emptyMsg).1 = true := by
      simp only [Bool.or_eq_true, not_or, Bool.not_eq_true, Bool.not_eq_false'] at usable
      exact usable.1
    unfold parseFlatBrokerMessage at parsed
    split at parsed
    · cases parsed
    next c s opened =>
      split at parsed
      · cases parsed
      next brace =>
        obtain ⟨tail, blanks, rfl⟩ := memberLoop_sound (Prod.ext parsed rfl)
        -- Blanks inside the trimmed line join those that were trimmed.
        refine ⟨⟨before ++ ws, tail, blanks ++ after⟩, ?_⟩
        rw [split, head, opened, of_not_not brace]
        simp [Lenient.bytes, blank]

/-! ## RFC 8259 objects -/

def Tail.ofMembers {α : Type} : Member α → List (Member α) → Tail α
  | first, [] => .last first
  | first, second :: rest => .more first (Tail.ofMembers second rest)

theorem Tail.members_ofMembers {α : Type} (first : Member α) (rest : List (Member α)) :
    (Tail.ofMembers first rest).members = first :: rest := by
  induction rest generalizing first with
  | nil => rfl
  | cons second rest ih => simp [ofMembers, members, ih]

def lenient {α : Type} (document : Document α) : Lenient α where
  before := document.before
  tail :=
    match document.body with
    | .empty ws => .close ws
    | .members first rest => .ofMembers first rest
  after := document.after

theorem lenient_members {α : Type} (document : Document α) :
    (lenient document).tail.members = document.members := by
  obtain ⟨before, body, after⟩ := document
  cases body with
  | empty ws => rfl
  | members first rest => exact Tail.members_ofMembers first rest

section Written
variable {α : Type} [Literal α]

theorem Tail.bytes_ofMembers (first : Member α) (rest : List (Member α)) :
    (Tail.ofMembers first rest).bytes =
      (Body.members first rest).bytes ++ [rightBrace] := by
  induction rest generalizing first with
  | nil => simp [ofMembers, bytes, Body.bytes]
  | cons second rest ih => simp [ofMembers, bytes, Body.bytes, ih]

theorem lenient_bytes (document : Document α) : (lenient document).bytes = document.bytes := by
  obtain ⟨before, body, after⟩ := document
  cases body with
  | empty ws => simp [lenient, Lenient.bytes, Document.bytes, Tail.bytes, Body.bytes]
  | members first rest =>
    simp [lenient, Lenient.bytes, Document.bytes, Tail.bytes_ofMembers]

theorem decodeMember_eq_none (member : Member α) :
    decodeMember member = none ↔
      UnpairedSurrogate member.key ∨ UnpairedSurrogate member.value := by
  rw [← decode_eq_none_iff Literal.bytes String.utf8EncodeChar member.key,
    ← decode_eq_none_iff Literal.bytes String.utf8EncodeChar member.value]
  unfold decodeMember decodeBytes
  cases decode Literal.bytes String.utf8EncodeChar member.key <;>
    cases decode Literal.bytes String.utf8EncodeChar member.value <;> simp

theorem decodeMembers_eq_none (members : List (Member α)) :
    decodeMembers members = none ↔ ∃ member ∈ members, decodeMember member = none := by
  induction members with
  | nil => simp [decodeMembers]
  | cons member rest ih =>
    cases first : decodeMember member with
    | none => simp [decodeMembers, first]
    | some pair =>
      cases others : decodeMembers rest with
      | none =>
        obtain ⟨other, member, undecoded⟩ := ih.mp others
        simpa [decodeMembers, others] using Or.inr ⟨other, member, undecoded⟩
      | some tail =>
        have decoded : ¬ ∃ member ∈ rest, decodeMember member = none := by
          rw [← ih, others]
          simp
        simpa [decodeMembers, first, others] using decoded

end Written

theorem decodeMember_text {member : Member Unescaped} {pair : Pair}
    (decoded : decodeMember member = some pair) :
    ∃ key value, decodeText member.key = some key ∧ decodeText member.value = some value ∧
      pair = (Utf.utf8 key, Utf.utf8 value) := by
  unfold decodeMember at decoded
  rw [decodeBytes_text, decodeBytes_text] at decoded
  cases key : decodeText member.key with
  | none => simp [key] at decoded
  | some keyText =>
    cases value : decodeText member.value with
    | none => simp [key, value] at decoded
    | some valueText =>
      simp only [key, value, Option.map_some, Option.some.injEq] at decoded
      exact ⟨keyText, valueText, rfl, rfl, decoded.symm⟩

theorem decodeText_value {members : List (Member Unescaped)} {pairs : List Pair}
    (decoded : decodeMembers members = some pairs) :
    ∀ member ∈ members, decodeText member.value ≠ none := by
  intro member inside undecoded
  have paired : ¬ ∃ member ∈ members, decodeMember member = none := by
    rw [← decodeMembers_eq_none, decoded]
    simp
  refine paired ⟨member, inside, ?_⟩
  unfold decodeMember
  rw [decodeBytes_text member.value, undecoded]
  cases decodeBytes member.key <;> rfl

/-- Among decoded members the last value of a key is that of the last member with
the key. -/
theorem lastValue_text {members : List (Member Unescaped)} {pairs : List Pair}
    (decoded : decodeMembers members = some pairs) (key : List Char) :
    lastValue pairs (Utf.utf8 key) = (textOf members key).map Utf.utf8 := by
  induction members generalizing pairs with
  | nil =>
    cases decoded
    rfl
  | cons member rest ih =>
    obtain ⟨pair, tail, first, others, rfl⟩ := decodeMembers_cons.mp decoded
    obtain ⟨name, value, nameText, valueText, rfl⟩ := decodeMember_text first
    rw [lastValue_cons, ih others]
    by_cases same : name = key
    · subst same
      rw [if_pos rfl, textOf_cons_pos nameText valueText (decodeText_value others)]
      cases textOf rest name <;> rfl
    · -- Keys are compared as bytes in the source and as text in the document.
      have differs : Utf.utf8 name ≠ Utf.utf8 key := fun equal => same (Utf.utf8_injective equal)
      rw [if_neg differs, textOf_cons_neg]
      simpa [nameText] using same

theorem ascii_eq_utf8 {text : String} (low : text.toList.all (fun c => c.toNat < 0x80) = true) :
    ascii text = Utf.utf8 text.toList := by
  rw [ascii, Utf.utf8_ascii fun c inside => of_decide_eq_true (List.all_eq_true.mp low c inside)]

theorem unpaired_iff {α : Type} [Literal α] (document : Document α) :
    document.Unpaired ↔ decodeMembers document.members = none := by
  rw [decodeMembers_eq_none]
  constructor
  · rintro ⟨member, inside, unpaired⟩
    exact ⟨member, inside, (decodeMember_eq_none member).mpr unpaired⟩
  · rintro ⟨member, inside, undecoded⟩
    exact ⟨member, inside, (decodeMember_eq_none member).mp undecoded⟩

/-- The fields as the UTF-8 form of what a document says. -/
def meaning (document : Document Unescaped) : Msg where
  type := Utf.utf8 ((document.valueOf "type".toList).getD [])
  sam := Utf.utf8 ((document.valueOf "sam".toList).getD [])
  password := Utf.utf8 ((document.valueOf "password".toList).getD [])
  reason := Utf.utf8 ((document.valueOf "reason".toList).getD [])

theorem utf8_getD (text : Option (List Char)) :
    (text.map Utf.utf8).getD [] = Utf.utf8 (text.getD []) := by
  cases text <;> rfl

theorem parseJsonLine_document (document : Document Unescaped) (paired : ¬ document.Unpaired)
    (out : Msg) :
    parseJsonLine document.bytes out =
      if (document.valueOf "type".toList).getD [] = [] then (false, emptyMsg)
      else (true, meaning document) := by
  cases decoded : decodeMembers document.members with
  | none => exact absurd ((unpaired_iff document).mpr decoded) paired
  | some pairs =>
    have text := lastValue_text decoded
    rw [← lenient_bytes, parseJsonLine_decoded (lenient document) (lenient_members document ▸ decoded),
      storeAll_empty, @ascii_eq_utf8 "type" rfl, @ascii_eq_utf8 "sam" rfl,
      @ascii_eq_utf8 "password" rfl, @ascii_eq_utf8 "reason" rfl]
    simp only [text, utf8_getD, Utf.utf8_eq_nil]
    rfl

theorem parseJsonLine_unpaired (document : Document Unescaped) (unpaired : document.Unpaired)
    (out : Msg) : parseJsonLine document.bytes out = (false, emptyMsg) := by
  rw [← lenient_bytes]
  exact parseJsonLine_undecoded (lenient document)
    (lenient_members document ▸ (unpaired_iff document).mp unpaired) out

/-- The decoder is complete: it accepts a document exactly when its escapes are
paired and its type is not empty, and reads every field as it is meant. -/
theorem parseJsonLine_complete (document : Document Unescaped) (out : Msg) :
    ((parseJsonLine document.bytes out).1 = true ↔
      (∃ type, document.valueOf "type".toList = some type ∧ type ≠ []) ∧ ¬ document.Unpaired) ∧
    ((parseJsonLine document.bytes out).1 = true →
      (parseJsonLine document.bytes out).2 = meaning document) := by
  by_cases unpaired : document.Unpaired
  · simp [parseJsonLine_unpaired document unpaired, unpaired]
  · rw [parseJsonLine_document document unpaired]
    cases type : document.valueOf "type".toList with
    | none => simp
    | some text =>
      by_cases empty : text = []
      · simp [empty]
      · simp [empty, unpaired]

end Dot1xCP.Broker
