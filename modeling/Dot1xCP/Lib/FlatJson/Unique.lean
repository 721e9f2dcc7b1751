import Mathlib.Data.Set.Image
import Dot1xCP.Lib.FlatJson

/-! Unambiguity of the object grammar, and change of literal alphabet.

Where no literal is written as a prefix of another, the bytes of a member
determine the member and where it ends.
-/

set_option autoImplicit false

namespace FlatJson

/-- No literal is written as a proper prefix of another. -/
def PrefixFree (α : Type) [Literal α] : Prop :=
  ∀ (first second : α) (s t : List UInt8),
    Literal.bytes first ++ s = Literal.bytes second ++ t → first = second ∧ s = t

theorem prefixFree_rawByte : PrefixFree RawByte := by
  rintro ⟨first, _⟩ ⟨second, _⟩ s t same
  obtain ⟨rfl, rfl⟩ := List.cons.inj same
  exact ⟨rfl, rfl⟩

theorem Ws.byte_injective {first second : Ws} (same : first.byte = second.byte) :
    first = second := by
  revert same
  cases first <;> cases second <;> decide

theorem blank_unique {first second : List Ws} {s t : List UInt8}
    (left : ∀ w : Ws, ∀ rest, s ≠ w.byte :: rest) (right : ∀ w : Ws, ∀ rest, t ≠ w.byte :: rest)
    (same : blank first ++ s = blank second ++ t) : first = second ∧ s = t := by
  induction first generalizing second with
  | nil =>
    cases second with
    | nil => exact ⟨rfl, same⟩
    | cons w second => exact absurd same (left w _)
  | cons w first ih =>
    cases second with
    | nil => exact absurd same.symm (right w _)
    | cons w' second =>
      obtain ⟨head, tail⟩ := List.cons.inj same
      obtain ⟨rfl, rfl⟩ := ih tail
      exact ⟨by rw [Ws.byte_injective head], rfl⟩

theorem blank_unique_nil {first second : List Ws} (same : blank first = blank second) :
    first = second := by
  have padded : blank first ++ [] = blank second ++ [] := congrArg (· ++ []) same
  exact (blank_unique (by simp) (by simp) padded).1

theorem Ws.cons_ne {c : UInt8} (black : ∀ w : Ws, w.byte ≠ c) (s : List UInt8) (w : Ws)
    (rest : List UInt8) : c :: s ≠ w.byte :: rest :=
  fun same => black w (List.cons.inj same).1.symm

theorem Short.letter_injective {first second : Short} (same : first.letter = second.letter) :
    first = second := by
  revert same
  cases first <;> cases second <;> decide

theorem Short.letter_ne_u (escape : Short) : escape.letter ≠ letterU := by
  cases escape <;> decide

theorem HexDigit.byte_injective {first second : HexDigit} (same : first.byte = second.byte) :
    first = second := by
  have bytes := congrArg UInt8.toNat same
  cases first <;> cases second <;>
    simp only [byte, UInt8.toNat_ofNat', HexDigit.decimal.injEq, HexDigit.lower.injEq,
      HexDigit.upper.injEq, reduceCtorEq, Fin.ext_iff] at bytes ⊢ <;> omega

theorem HexQuad.bytes_unique {first second : HexQuad} {s t : List UInt8}
    (same : first.bytes ++ s = second.bytes ++ t) : first = second ∧ s = t := by
  simp only [bytes, List.cons_append, List.nil_append, List.cons.injEq] at same
  obtain ⟨one, two, three, four, rest⟩ := same
  refine ⟨?_, rest⟩
  cases first with
  | mk a b c d =>
    cases second with
    | mk a' b' c' d' =>
      rw [HexQuad.mk.injEq]
      exact ⟨HexDigit.byte_injective one, HexDigit.byte_injective two,
        HexDigit.byte_injective three, HexDigit.byte_injective four⟩

section Unique
variable {α : Type} [Literal α]

theorem Literal.bytes_cons (a : α) :
    ∃ byte rest, Literal.bytes a = byte :: rest ∧ byte ≠ doubleQuote ∧ byte ≠ backslash := by
  cases written : Literal.bytes a with
  | nil => exact absurd written (Literal.nonempty a)
  | cons byte rest =>
    exact ⟨byte, rest, rfl, Literal.plain a byte (written ▸ List.mem_cons_self)⟩

theorem Item.bytes_ne_quote (item : Item α) (s t : List UInt8) :
    item.bytes ++ s ≠ doubleQuote :: t := by
  intro same
  cases item with
  | literal a =>
    obtain ⟨byte, rest, written, quote, _⟩ := Literal.bytes_cons a
    rw [Item.bytes, written] at same
    exact quote (List.cons.inj same).1
  | short escape => exact absurd (List.cons.inj same).1.symm doubleQuote_ne_backslash
  | unicode quad => exact absurd (List.cons.inj same).1.symm doubleQuote_ne_backslash

theorem Literal.bytes_ne_backslash (a : α) (s t : List UInt8) :
    Literal.bytes a ++ s ≠ backslash :: t := by
  intro same
  obtain ⟨byte, rest, written, _, solidus⟩ := Literal.bytes_cons a
  rw [written] at same
  exact solidus (List.cons.inj same).1

theorem Item.bytes_unique (free : PrefixFree α) {first second : Item α} {s t : List UInt8}
    (same : first.bytes ++ s = second.bytes ++ t) : first = second ∧ s = t := by
  -- A literal begins with no backslash, and the letter after one tells the escapes apart.
  cases first with
  | literal a =>
    cases second with
    | literal b =>
      obtain ⟨rfl, rest⟩ := free a b s t same
      exact ⟨rfl, rest⟩
    | short | unicode => exact absurd same (Literal.bytes_ne_backslash a _ _)
  | short escape =>
    cases second with
    | literal b => exact absurd same.symm (Literal.bytes_ne_backslash b _ _)
    | short other =>
      obtain ⟨letter, rest⟩ := List.cons.inj (List.cons.inj same).2
      exact ⟨by rw [Short.letter_injective letter], rest⟩
    | unicode quad => exact absurd (List.cons.inj (List.cons.inj same).2).1 escape.letter_ne_u
  | unicode quad =>
    cases second with
    | literal b => exact absurd same.symm (Literal.bytes_ne_backslash b _ _)
    | short other =>
      exact absurd (List.cons.inj (List.cons.inj same).2).1.symm other.letter_ne_u
    | unicode other =>
      obtain ⟨rfl, rest⟩ := HexQuad.bytes_unique (List.cons.inj (List.cons.inj same).2).2
      exact ⟨rfl, rest⟩

theorem itemBytes_unique (free : PrefixFree α) {first second : List (Item α)} {s t : List UInt8}
    (same : itemBytes first ++ doubleQuote :: s = itemBytes second ++ doubleQuote :: t) :
    first = second ∧ s = t := by
  induction first generalizing second with
  | nil =>
    cases second with
    | nil => exact ⟨rfl, (List.cons.inj same).2⟩
    | cons item second =>
      rw [itemBytes_cons, List.append_assoc] at same
      exact absurd same.symm (item.bytes_ne_quote _ _)
  | cons item first ih =>
    rw [itemBytes_cons, List.append_assoc] at same
    cases second with
    | nil => exact absurd same (item.bytes_ne_quote _ _)
    | cons other second =>
      rw [itemBytes_cons, List.append_assoc] at same
      obtain ⟨rfl, rest⟩ := Item.bytes_unique free same
      obtain ⟨rfl, rfl⟩ := ih rest
      exact ⟨rfl, rfl⟩

theorem quoted_unique (free : PrefixFree α) {first second : List (Item α)} {s t : List UInt8}
    (same : quoted first ++ s = quoted second ++ t) : first = second ∧ s = t := by
  simp only [quoted, List.cons_append, List.append_assoc, List.nil_append, List.cons.injEq,
    true_and] at same
  exact itemBytes_unique free same

/-- The bytes of a member and what stands behind it determine both, if what stands
behind it is not white space. -/
theorem Member.bytes_unique (free : PrefixFree α) {first second : Member α} {s t : List UInt8}
    (left : ∀ w : Ws, ∀ rest, s ≠ w.byte :: rest) (right : ∀ w : Ws, ∀ rest, t ≠ w.byte :: rest)
    (same : first.bytes ++ s = second.bytes ++ t) : first = second ∧ s = t := by
  have quote : ∀ w : Ws, w.byte ≠ doubleQuote := by rintro (_ | _ | _ | _) <;> decide
  have separator : ∀ w : Ws, w.byte ≠ colon := by rintro (_ | _ | _ | _) <;> decide
  obtain ⟨before, key, beforeColon, afterColon, value, after⟩ := first
  obtain ⟨before', key', beforeColon', afterColon', value', after'⟩ := second
  simp only [Member.bytes, List.append_assoc, List.cons_append] at same
  -- Read off part by part, from the left.
  obtain ⟨rfl, fromKey⟩ := blank_unique (Ws.cons_ne quote _) (Ws.cons_ne quote _) same
  obtain ⟨rfl, fromColon⟩ := quoted_unique free fromKey
  obtain ⟨rfl, colons⟩ := blank_unique (Ws.cons_ne separator _) (Ws.cons_ne separator _) fromColon
  obtain ⟨rfl, fromValue⟩ := blank_unique (Ws.cons_ne quote _) (Ws.cons_ne quote _)
    (List.cons.inj colons).2
  obtain ⟨rfl, fromAfter⟩ := quoted_unique free fromValue
  obtain ⟨rfl, behind⟩ := blank_unique left right fromAfter
  exact ⟨rfl, behind⟩

end Unique

/-! ## Change of alphabet -/

section Map
variable {α β : Type}

def Item.map (f : α → β) : Item α → Item β
  | .literal a => .literal (f a)
  | .short escape => .short escape
  | .unicode quad => .unicode quad

def Member.map (f : α → β) (member : Member α) : Member β where
  before := member.before
  key := member.key.map (Item.map f)
  beforeColon := member.beforeColon
  afterColon := member.afterColon
  value := member.value.map (Item.map f)
  after := member.after

def Body.map (f : α → β) : Body α → Body β
  | .empty ws => .empty ws
  | .members first rest => .members (first.map f) (rest.map (Member.map f))

def Document.map (f : α → β) (document : Document α) : Document β where
  before := document.before
  body := document.body.map f
  after := document.after

theorem Document.map_members (f : α → β) (document : Document α) :
    (document.map f).members = document.members.map (Member.map f) := by
  obtain ⟨before, body, after⟩ := document
  cases body <;> rfl

theorem Item.map_range {f : α → β} (item : Item β)
    (inside : ∀ b, item = .literal b → b ∈ Set.range f) : item ∈ Set.range (Item.map f) := by
  cases item with
  | literal b =>
    obtain ⟨a, rfl⟩ := inside b rfl
    exact ⟨.literal a, rfl⟩
  | short escape => exact ⟨.short escape, rfl⟩
  | unicode quad => exact ⟨.unicode quad, rfl⟩

@[simp] theorem Item.opensPair_map (f : α → β) (item : Item α) :
    (item.map f).opensPair = item.opensPair := by cases item <;> rfl

@[simp] theorem Item.closesPair_map (f : α → β) (item : Item α) :
    (item.map f).closesPair = item.closesPair := by cases item <;> rfl

theorem UnpairedSurrogate.map (f : α → β) {items : List (Item α)} (unpaired : UnpairedSurrogate items) :
    UnpairedSurrogate (items.map (Item.map f)) := by
  obtain ⟨front, item, back, rfl, alone⟩ := unpaired
  refine ⟨front.map (Item.map f), item.map f, back.map (Item.map f), by simp, ?_⟩
  simpa only [Item.opensPair_map, Item.closesPair_map, List.head?_map, List.getLast?_map,
    Option.mem_def, Option.map_eq_some_iff, exists_exists_and_eq_and] using alone

theorem Document.Unpaired.map (f : α → β) {document : Document α} (unpaired : document.Unpaired) :
    (document.map f).Unpaired := by
  obtain ⟨member, inside, alone⟩ := unpaired
  refine ⟨member.map f, ?_, alone.imp (·.map f) (·.map f)⟩
  rw [Document.map_members]
  exact List.mem_map_of_mem inside

variable [Literal α] [Literal β] {f : α → β}

theorem itemBytes_map (same : ∀ a, Literal.bytes (f a) = Literal.bytes a) (items : List (Item α)) :
    itemBytes (items.map (Item.map f)) = itemBytes items := by
  induction items with
  | nil => rfl
  | cons item items ih =>
    have head : (item.map f).bytes = item.bytes := by
      cases item with
      | literal a => exact same a
      | short escape => rfl
      | unicode quad => rfl
    rw [List.map_cons, itemBytes_cons, head, ih, itemBytes_cons]

theorem Member.bytes_map (same : ∀ a, Literal.bytes (f a) = Literal.bytes a) (member : Member α) :
    (member.map f).bytes = member.bytes := by
  simp only [bytes, map, quoted, itemBytes_map same]

theorem Document.bytes_map (same : ∀ a, Literal.bytes (f a) = Literal.bytes a)
    (document : Document α) : (document.map f).bytes = document.bytes := by
  obtain ⟨before, body, after⟩ := document
  cases body with
  | empty ws => rfl
  | members first rest =>
    simp only [bytes, map, Body.map, Body.bytes, Member.bytes_map same, List.flatMap_map]

end Map

end FlatJson
