import Dot1xCP.Lib.Utf

/-! RFC 8259 objects whose members are all strings, as written.

A document is a syntax tree that keeps every choice the writer made: white
space, literal characters or escapes, letter case of hexadecimal digits. It is
generic in the literal characters of a string, so that one grammar serves both
Unicode text and uninterpreted bytes; ill-formed trees cannot be built.
-/

set_option autoImplicit false

namespace FlatJson

abbrev doubleQuote : UInt8 := 0x22
abbrev backslash : UInt8 := 0x5C
abbrev leftBrace : UInt8 := 0x7B
abbrev rightBrace : UInt8 := 0x7D
abbrev colon : UInt8 := 0x3A
abbrev comma : UInt8 := 0x2C
abbrev letterU : UInt8 := 0x75

@[simp] theorem doubleQuote_ne_backslash : doubleQuote ≠ backslash := by decide

inductive Ws where
  | space
  | tab
  | lf
  | cr
  deriving DecidableEq, Repr

def Ws.byte : Ws → UInt8
  | .space => 0x20
  | .tab => 0x09
  | .lf => 0x0A
  | .cr => 0x0D

def blank (ws : List Ws) : List UInt8 := ws.map Ws.byte

@[simp] theorem blank_nil : blank [] = [] := rfl

@[simp] theorem blank_cons (w : Ws) (ws : List Ws) : blank (w :: ws) = w.byte :: blank ws := rfl

/-- The two-character escapes, named by the character they stand for. -/
inductive Short where
  | quotation
  | reverseSolidus
  | solidus
  | backspace
  | formFeed
  | lineFeed
  | carriageReturn
  | tab
  deriving DecidableEq, Repr

def Short.letter : Short → UInt8
  | .quotation => 0x22
  | .reverseSolidus => 0x5C
  | .solidus => 0x2F
  | .backspace => 0x62
  | .formFeed => 0x66
  | .lineFeed => 0x6E
  | .carriageReturn => 0x72
  | .tab => 0x74

def Short.char : Short → Char
  | .quotation => '"'
  | .reverseSolidus => '\\'
  | .solidus => '/'
  | .backspace => Char.ofNat 0x08
  | .formFeed => Char.ofNat 0x0C
  | .lineFeed => '\n'
  | .carriageReturn => '\r'
  | .tab => '\t'

inductive HexDigit where
  | decimal (digit : Fin 10)
  | lower (digit : Fin 6)
  | upper (digit : Fin 6)
  deriving DecidableEq, Repr

def HexDigit.byte : HexDigit → UInt8
  | .decimal digit => UInt8.ofNat (0x30 + digit.val)
  | .lower digit => UInt8.ofNat (0x61 + digit.val)
  | .upper digit => UInt8.ofNat (0x41 + digit.val)

def HexDigit.value : HexDigit → Nat
  | .decimal digit => digit.val
  | .lower digit => 10 + digit.val
  | .upper digit => 10 + digit.val

theorem HexDigit.value_lt (digit : HexDigit) : digit.value < 16 := by
  cases digit with
  | decimal digit => simp only [value]; omega
  | lower digit => simp only [value]; omega
  | upper digit => simp only [value]; omega

theorem HexDigit.byte_plain (digit : HexDigit) :
    digit.byte ≠ doubleQuote ∧ digit.byte ≠ backslash := by
  cases digit with
  | decimal digit => revert digit; decide
  | lower digit => revert digit; decide
  | upper digit => revert digit; decide

structure HexQuad where
  first : HexDigit
  second : HexDigit
  third : HexDigit
  fourth : HexDigit
  deriving DecidableEq, Repr

def HexQuad.bytes (quad : HexQuad) : List UInt8 :=
  [quad.first.byte, quad.second.byte, quad.third.byte, quad.fourth.byte]

def HexQuad.value (quad : HexQuad) : Nat :=
  ((quad.first.value * 16 + quad.second.value) * 16 + quad.third.value) * 16 + quad.fourth.value

theorem HexQuad.value_lt (quad : HexQuad) : quad.value < 0x10000 := by
  have first := quad.first.value_lt
  have second := quad.second.value_lt
  have third := quad.third.value_lt
  have fourth := quad.fourth.value_lt
  simp only [value]
  omega

def HexQuad.isHigh (quad : HexQuad) : Bool := 0xD800 ≤ quad.value && quad.value ≤ 0xDBFF

def HexQuad.isLow (quad : HexQuad) : Bool := 0xDC00 ≤ quad.value && quad.value ≤ 0xDFFF

def pairValue (high low : Nat) : Nat := 0x10000 + ((high - 0xD800) * 0x400 + (low - 0xDC00))

theorem scalar_valid (quad : HexQuad) (notHigh : ¬ quad.isHigh) (notLow : ¬ quad.isLow) :
    quad.value.isValidChar := by
  have bound := quad.value_lt
  simp only [HexQuad.isHigh, HexQuad.isLow, Bool.and_eq_true, decide_eq_true_eq] at notHigh notLow
  unfold Nat.isValidChar
  omega

theorem pairValue_valid {high low : HexQuad} (opens : high.isHigh) (closes : low.isLow) :
    (pairValue high.value low.value).isValidChar := by
  simp only [HexQuad.isHigh, HexQuad.isLow, Bool.and_eq_true, decide_eq_true_eq] at opens closes
  refine Or.inr ⟨?_, ?_⟩
  · unfold pairValue
    omega
  · unfold pairValue
    omega

/-- What a string may hold without an escape, and how it is written. -/
class Literal (α : Type) where
  bytes : α → List UInt8
  nonempty : ∀ a, bytes a ≠ []
  plain : ∀ a, ∀ byte ∈ bytes a, byte ≠ doubleQuote ∧ byte ≠ backslash

structure Unescaped where
  char : Char
  visible : 0x20 ≤ char.toNat
  plain : char ≠ '"' ∧ char ≠ '\\'

structure UnescapedByte where
  byte : UInt8
  visible : 0x20 ≤ byte.toNat
  plain : byte ≠ doubleQuote ∧ byte ≠ backslash

structure RawByte where
  byte : UInt8
  plain : byte ≠ doubleQuote ∧ byte ≠ backslash

theorem encodeChar_plain {c : Char} (plain : c ≠ '"' ∧ c ≠ '\\') :
    ∀ byte ∈ String.utf8EncodeChar c, byte ≠ doubleQuote ∧ byte ≠ backslash := by
  intro byte member
  constructor
  · rintro rfl
    obtain ⟨_, value⟩ := Utf.encodeChar_of_low member (by decide)
    exact plain.1 (Char.toNat_inj.mp value)
  · rintro rfl
    obtain ⟨_, value⟩ := Utf.encodeChar_of_low member (by decide)
    exact plain.2 (Char.toNat_inj.mp value)

instance : Literal Unescaped where
  bytes c := String.utf8EncodeChar c.char
  nonempty _ := String.utf8EncodeChar_ne_nil
  plain c := encodeChar_plain c.plain

instance : Literal UnescapedByte where
  bytes literal := [literal.byte]
  nonempty literal := List.cons_ne_nil literal.byte []
  plain literal byte member := by
    rw [List.mem_singleton] at member
    exact member ▸ literal.plain

instance : Literal RawByte where
  bytes literal := [literal.byte]
  nonempty literal := List.cons_ne_nil literal.byte []
  plain literal byte member := by
    rw [List.mem_singleton] at member
    exact member ▸ literal.plain

inductive Item (α : Type) where
  | literal (a : α)
  | short (escape : Short)
  | unicode (quad : HexQuad)

section Written
variable {α : Type} [Literal α]

def Item.bytes : Item α → List UInt8
  | .literal a => Literal.bytes a
  | .short escape => [backslash, escape.letter]
  | .unicode quad => backslash :: letterU :: quad.bytes

def itemBytes (items : List (Item α)) : List UInt8 := items.flatMap Item.bytes

@[simp] theorem itemBytes_nil : itemBytes ([] : List (Item α)) = [] := rfl

@[simp] theorem itemBytes_cons (item : Item α) (items : List (Item α)) :
    itemBytes (item :: items) = item.bytes ++ itemBytes items := rfl

def quoted (items : List (Item α)) : List UInt8 :=
  doubleQuote :: (itemBytes items ++ [doubleQuote])

end Written

/-- `before "key" beforeColon : afterColon "value" after`. -/
structure Member (α : Type) where
  before : List Ws
  key : List (Item α)
  beforeColon : List Ws
  afterColon : List Ws
  value : List (Item α)
  after : List Ws

inductive Body (α : Type) where
  | empty (ws : List Ws)
  | members (first : Member α) (rest : List (Member α))

structure Document (α : Type) where
  before : List Ws
  body : Body α
  after : List Ws

def Body.list {α : Type} : Body α → List (Member α)
  | .empty _ => []
  | .members first rest => first :: rest

def Document.members {α : Type} (document : Document α) : List (Member α) := document.body.list

section Written
variable {α : Type} [Literal α]

def Member.bytes (member : Member α) : List UInt8 :=
  blank member.before ++ quoted member.key ++ blank member.beforeColon ++
    colon :: (blank member.afterColon ++ quoted member.value ++ blank member.after)

def Body.bytes : Body α → List UInt8
  | .empty ws => blank ws
  | .members first rest => first.bytes ++ rest.flatMap fun member => comma :: member.bytes

def Document.bytes (document : Document α) : List UInt8 :=
  blank document.before ++ leftBrace :: (document.body.bytes ++ rightBrace :: blank document.after)

end Written

/-! ## Meaning -/

section Meaning
variable {α β γ : Type} (literal : α → β) (char : Char → β)

/-- The characters of a string; none if a surrogate escape has no partner. -/
def decode : List (Item α) → Option (List β)
  | [] => some []
  | .literal a :: rest => (decode rest).map (literal a :: ·)
  | .short escape :: rest => (decode rest).map (char escape.char :: ·)
  | .unicode quad :: rest =>
    if quad.isHigh then
      match rest with
      -- Only an escape of the same form can be the partner.
      | .unicode low :: rest =>
        if low.isLow then
          (decode rest).map (char (Char.ofNat (pairValue quad.value low.value)) :: ·)
        else none
      | _ => none
    else if quad.isLow then none
    else (decode rest).map (char (Char.ofNat quad.value) :: ·)

@[simp] theorem decode_literal (a : α) (rest : List (Item α)) :
    decode literal char (.literal a :: rest) = (decode literal char rest).map (literal a :: ·) := by
  simp [decode]

@[simp] theorem decode_short (escape : Short) (rest : List (Item α)) :
    decode literal char (.short escape :: rest) =
      (decode literal char rest).map (char escape.char :: ·) := by
  simp [decode]

theorem decode_pair {high low : HexQuad} (rest : List (Item α))
    (opens : high.isHigh) (closes : low.isLow) :
    decode literal char (.unicode high :: .unicode low :: rest) =
      (decode literal char rest).map
        (char (Char.ofNat (pairValue high.value low.value)) :: ·) := by
  simp [decode, opens, closes]

theorem decode_scalar {quad : HexQuad} (rest : List (Item α))
    (notHigh : ¬ quad.isHigh) (notLow : ¬ quad.isLow) :
    decode literal char (.unicode quad :: rest) =
      (decode literal char rest).map (char (Char.ofNat quad.value) :: ·) := by
  rw [decode.eq_def]
  simp [notHigh, notLow]

theorem decode_map (transform : β → γ) (items : List (Item α)) :
    decode (fun a => transform (literal a)) (fun c => transform (char c)) items =
      (decode literal char items).map (List.map transform) := by
  fun_induction decode literal char items with
  | case1 => rfl
  | case2 a rest ih => simp [decode, ih, Function.comp_def]
  | case3 escape rest ih => simp [decode, ih, Function.comp_def]
  | case4 quad high low rest closes ih => simp [decode_pair, high, closes, ih, Function.comp_def]
  | case5 quad high low rest closes => simp [decode, high, closes]
  | case6 rest quad high other => simp [decode, high]
  | case7 quad rest high low =>
    rw [decode.eq_def]
    simp [high, low]
  | case8 quad rest high low ih => simp [decode_scalar, high, low, ih, Function.comp_def]

end Meaning

def decodeText (items : List (Item Unescaped)) : Option (List Char) := decode Unescaped.char id items

def decodeBytes {α : Type} [Literal α] (items : List (Item α)) : Option (List UInt8) :=
  (decode Literal.bytes String.utf8EncodeChar items).map List.flatten

theorem decodeBytes_char {α : Type} [Literal α] {char : α → Char}
    (encoded : ∀ a, Literal.bytes a = String.utf8EncodeChar (char a)) (items : List (Item α)) :
    decodeBytes items = (decode char id items).map Utf.utf8 := by
  have mapped := decode_map char id String.utf8EncodeChar items
  simp only [← encoded] at mapped
  change decode Literal.bytes String.utf8EncodeChar items = _ at mapped
  rw [decodeBytes, mapped, Option.map_map]
  rfl

theorem decodeBytes_text (items : List (Item Unescaped)) :
    decodeBytes items = (decodeText items).map Utf.utf8 := decodeBytes_char (fun _ => rfl) items

def Item.opensPair {α : Type} : Item α → Bool
  | .unicode quad => quad.isHigh
  | _ => false

def Item.closesPair {α : Type} : Item α → Bool
  | .unicode quad => quad.isLow
  | _ => false

/-- A surrogate escape without its partner: a high one that no low one follows,
or a low one that follows no high one. -/
def UnpairedSurrogate {α : Type} (items : List (Item α)) : Prop :=
  ∃ front item back, items = front ++ item :: back ∧
    ((item.opensPair ∧ ¬ ∃ next ∈ back.head?, next.closesPair) ∨
      (item.closesPair ∧ ¬ ∃ previous ∈ front.getLast?, previous.opensPair))

section Pairing
variable {α β : Type}

theorem HexQuad.not_low_of_high {quad : HexQuad} (high : quad.isHigh) : ¬ quad.isLow := by
  simp only [isHigh, isLow, Bool.and_eq_true, decide_eq_true_eq] at high ⊢
  omega

theorem unpaired_cons {item : Item α} {rest : List (Item α)} (opens : ¬ item.opensPair) :
    UnpairedSurrogate (item :: rest) ↔ item.closesPair ∨ UnpairedSurrogate rest := by
  have preceding (front : List (Item α)) : (∃ previous ∈ (item :: front).getLast?, previous.opensPair) ↔
      ∃ previous ∈ front.getLast?, previous.opensPair := by
    cases front with
    | nil => simp [opens]
    | cons head front => simp [List.getLast?_cons_cons]
  constructor
  · rintro ⟨front, found, back, same, alone⟩
    cases front with
    | nil =>
      obtain ⟨rfl, rfl⟩ := List.cons.inj same
      rcases alone with ⟨opened, _⟩ | ⟨closes, _⟩
      · exact absurd opened opens
      · exact Or.inl closes
    | cons head front =>
      obtain ⟨rfl, rfl⟩ := List.cons.inj same
      rw [preceding] at alone
      exact Or.inr ⟨front, found, back, rfl, alone⟩
  · rintro (closes | ⟨front, found, back, rfl, alone⟩)
    · exact ⟨[], item, rest, rfl, Or.inr ⟨closes, by simp⟩⟩
    · exact ⟨item :: front, found, back, rfl, by rwa [preceding]⟩

theorem unpaired_pair {high low : Item α} {rest : List (Item α)} (opens : high.opensPair)
    (single : ¬ high.closesPair) (closes : low.closesPair) (closed : ¬ low.opensPair) :
    UnpairedSurrogate (high :: low :: rest) ↔ UnpairedSurrogate rest := by
  have preceding (front : List (Item α)) :
      (∃ previous ∈ (high :: low :: front).getLast?, previous.opensPair) ↔
        ∃ previous ∈ front.getLast?, previous.opensPair := by
    cases front with
    | nil => simp [closed]
    | cons head front => simp [List.getLast?_cons_cons]
  constructor
  · rintro ⟨front, found, back, same, alone⟩
    -- The lone surrogate cannot be the first or the second item.
    rcases front with _ | ⟨first, _ | ⟨second, front⟩⟩
    · obtain ⟨rfl, rfl⟩ := List.cons.inj same
      rcases alone with ⟨_, missing⟩ | ⟨closing, _⟩
      · exact absurd ⟨low, rfl, closes⟩ missing
      · exact absurd closing single
    · simp only [List.cons_append, List.nil_append, List.cons.injEq] at same
      obtain ⟨rfl, rfl, rfl⟩ := same
      rcases alone with ⟨opened, _⟩ | ⟨_, missing⟩
      · exact absurd opened closed
      · exact absurd ⟨high, rfl, opens⟩ missing
    · simp only [List.cons_append, List.cons.injEq] at same
      obtain ⟨rfl, rfl, rfl⟩ := same
      rw [preceding] at alone
      exact ⟨front, found, back, rfl, alone⟩
  · rintro ⟨front, found, back, rfl, alone⟩
    exact ⟨high :: low :: front, found, back, rfl, by rwa [preceding]⟩

/-- A string has a meaning exactly when its surrogate escapes are paired. -/
theorem decode_eq_none_iff (literal : α → β) (char : Char → β) (items : List (Item α)) :
    decode literal char items = none ↔ UnpairedSurrogate items := by
  -- Along `decode`; an item that opens no pair is skipped by `unpaired_cons`, a pair by
  -- `unpaired_pair`, and the other cases exhibit the surrogate that is alone.
  fun_induction decode literal char items with
  | case1 => simp [UnpairedSurrogate]
  | case2 a rest ih =>
    rw [Option.map_eq_none_iff, ih, unpaired_cons (by simp [Item.opensPair])]
    simp [Item.closesPair]
  | case3 escape rest ih =>
    rw [Option.map_eq_none_iff, ih, unpaired_cons (by simp [Item.opensPair])]
    simp [Item.closesPair]
  | case4 quad opens low rest closes ih =>
    have closed : ¬ low.isHigh := fun high => low.not_low_of_high high closes
    rw [Option.map_eq_none_iff, ih,
      unpaired_pair (by exact opens) (by exact quad.not_low_of_high opens) (by exact closes)
        (by exact closed)]
  | case5 quad opens low rest closes =>
    refine iff_of_true rfl ⟨[], .unicode quad, _, rfl, Or.inl ⟨opens, ?_⟩⟩
    rintro ⟨next, same, closing⟩
    cases same
    exact closes closing
  | case6 quad rest opens other =>
    refine iff_of_true rfl ⟨[], .unicode quad, _, rfl, Or.inl ⟨opens, ?_⟩⟩
    rintro ⟨next, same, closing⟩
    cases rest with
    | nil => cases same
    | cons head rest =>
      cases same
      cases next with
      | literal | short => cases closing
      | unicode low => exact other low rest rfl
  | case7 quad rest notHigh low =>
    exact iff_of_true rfl ⟨[], .unicode quad, _, rfl, Or.inr ⟨low, by simp⟩⟩
  | case8 quad rest notHigh notLow ih =>
    rw [Option.map_eq_none_iff, ih, unpaired_cons (by exact notHigh)]
    simp [Item.closesPair, notLow]

end Pairing

/-! ## Members -/

def Document.Unpaired {α : Type} (document : Document α) : Prop :=
  ∃ member ∈ document.members, UnpairedSurrogate member.key ∨ UnpairedSurrogate member.value

/-- The text of the last member whose key stands for the given text. -/
def textOf (members : List (Member Unescaped)) (key : List Char) : Option (List Char) := do
  let member ← (members.filter fun member => decodeText member.key == some key).getLast?
  decodeText member.value

def Document.valueOf (document : Document Unescaped) (key : List Char) : Option (List Char) :=
  textOf document.members key

theorem textOf_cons_neg {member : Member Unescaped} {rest : List (Member Unescaped)}
    {key : List Char} (other : decodeText member.key ≠ some key) :
    textOf (member :: rest) key = textOf rest key := by
  rw [textOf, List.filter_cons_of_neg (by simpa using other), textOf]

theorem textOf_cons_pos {member : Member Unescaped} {rest : List (Member Unescaped)}
    {key value : List Char} (same : decodeText member.key = some key)
    (text : decodeText member.value = some value)
    (decodable : ∀ member ∈ rest, decodeText member.value ≠ none) :
    textOf (member :: rest) key = some ((textOf rest key).getD value) := by
  rw [textOf, List.filter_cons_of_pos (by simpa using same), List.getLast?_cons, textOf]
  cases last : (rest.filter fun member => decodeText member.key == some key).getLast? with
  | none => simp [text]
  | some final =>
    have inside := (List.mem_filter.mp (List.mem_of_getLast? last)).1
    cases found : decodeText final.value with
    | none => exact absurd found (decodable final inside)
    | some finalText => simp [found]

section Size
variable {α β : Type} {literal : α → β} {char : Char → β}

theorem length_decode_le {items : List (Item α)} {text : List β}
    (decoded : decode literal char items = some text) : text.length ≤ items.length := by
  fun_induction decode literal char items generalizing text with
  | case1 =>
    cases decoded
    exact Nat.le_refl _
  | case2 a rest ih | case3 escape rest ih =>
    obtain ⟨tail, decodedTail, rfl⟩ := Option.map_eq_some_iff.mp decoded
    exact Nat.succ_le_succ (ih decodedTail)
  | case4 quad high low rest closes ih =>
    obtain ⟨tail, decodedTail, rfl⟩ := Option.map_eq_some_iff.mp decoded
    exact Nat.le_succ_of_le (Nat.succ_le_succ (ih decodedTail))
  | case5 | case6 | case7 => cases decoded
  | case8 quad rest high low ih =>
    obtain ⟨tail, decodedTail, rfl⟩ := Option.map_eq_some_iff.mp decoded
    exact Nat.succ_le_succ (ih decodedTail)

end Size

theorem length_le_itemBytes {α : Type} [Literal α] (items : List (Item α)) :
    items.length ≤ (itemBytes items).length := by
  induction items with
  | nil => exact Nat.le_refl _
  | cons item items ih =>
    have written : 0 < item.bytes.length := by
      cases item with
      | literal a => exact List.length_pos_of_ne_nil (Literal.nonempty a)
      | short escape | unicode quad => exact Nat.succ_pos _
    rw [itemBytes_cons, List.length_append, List.length_cons]
    omega

theorem Body.length_member_le {α : Type} [Literal α] {body : Body α} {member : Member α}
    (inside : member ∈ body.list) : member.bytes.length ≤ body.bytes.length := by
  cases body with
  | empty ws => cases inside
  | members first rest =>
    rw [Body.bytes, List.length_append]
    rcases List.mem_cons.mp inside with rfl | inside
    · exact Nat.le_add_right _ _
    · obtain ⟨front, back, rfl⟩ := List.append_of_mem inside
      simp only [List.flatMap_append, List.flatMap_cons, List.length_append, List.length_cons]
      omega

theorem Document.length_valueOf_le {document : Document Unescaped} {key text : List Char}
    (value : document.valueOf key = some text) : text.length ≤ document.bytes.length := by
  unfold Document.valueOf textOf at value
  obtain ⟨member, last, decoded⟩ := Option.bind_eq_some_iff.mp value
  have inside := (List.mem_filter.mp (List.mem_of_getLast? last)).1
  -- Each item stands for at most one character and takes at least one byte.
  have characters : text.length ≤ member.value.length := length_decode_le decoded
  have written := length_le_itemBytes member.value
  have body : member.bytes.length ≤ document.body.bytes.length := Body.length_member_le inside
  simp only [Member.bytes, quoted, Document.bytes, List.length_append, List.length_cons] at body ⊢
  omega

end FlatJson
