import Mathlib.Data.List.Basic
import Mathlib.Tactic.Common

/-! UTF-8 and UTF-16 forms of a list of Unicode scalar values.

A character is encoded on its own. Bytes below 0x80 occur in the UTF-8 form only as the
form of an ASCII character; this is the only synchronisation fact that byte-level parsers
need. Well-formed bytes may be cut at any of them.
-/

set_option autoImplicit false

namespace Utf

def utf8 (text : List Char) : List UInt8 := text.flatMap String.utf8EncodeChar

def utf16Char (c : Char) : List UInt16 :=
  if c.toNat < 0x10000 then [UInt16.ofNat c.toNat]
  else [UInt16.ofNat (0xD800 + (c.toNat - 0x10000) / 0x400),
    UInt16.ofNat (0xDC00 + (c.toNat - 0x10000) % 0x400)]

def utf16 (text : List Char) : List UInt16 := text.flatMap utf16Char

@[simp] theorem utf8_nil : utf8 [] = [] := rfl

@[simp] theorem utf8_cons (c : Char) (text : List Char) :
    utf8 (c :: text) = String.utf8EncodeChar c ++ utf8 text := rfl

@[simp] theorem utf16_nil : utf16 [] = [] := rfl

theorem utf16Char_ne_nil (c : Char) : utf16Char c ≠ [] := by
  unfold utf16Char
  split <;> simp

@[simp] theorem utf16_eq_nil (text : List Char) : utf16 text = [] ↔ text = [] := by
  cases text with
  | nil => simp
  | cons c text => simp [utf16, utf16Char_ne_nil]

theorem length_utf16_le (text : List Char) : (utf16 text).length ≤ 2 * text.length := by
  induction text with
  | nil => exact Nat.le_refl _
  | cons c text ih =>
    have units : (utf16Char c).length ≤ 2 := by
      unfold utf16Char
      split <;> simp
    rw [utf16, List.flatMap_cons, List.length_append, List.length_cons]
    change _ + (utf16 text).length ≤ _
    omega

@[simp] theorem utf8_eq_nil (text : List Char) : utf8 text = [] ↔ text = [] := by
  cases text with
  | nil => simp
  | cons c text => simp [String.utf8EncodeChar_ne_nil]

theorem utf8_injective {first second : List Char} (same : utf8 first = utf8 second) :
    first = second := by
  have encoded : first.utf8Encode = second.utf8Encode := congrArg List.toByteArray same
  have decoded := congrArg ByteArray.utf8Decode? encoded
  rw [List.utf8Decode?_utf8Encode, List.utf8Decode?_utf8Encode] at decoded
  simpa using decoded

/-- The scalar values of a byte string; ill-formed bytes have none. -/
def decodeUtf8 (bytes : List UInt8) : List Char :=
  (bytes.toByteArray.utf8Decode?.getD #[]).toList

@[simp] theorem decodeUtf8_utf8 (text : List Char) : decodeUtf8 (utf8 text) = text := by
  have decoded : (utf8 text).toByteArray.utf8Decode? = some text.toArray :=
    List.utf8Decode?_utf8Encode
  simp [decodeUtf8, decoded]

theorem encodeChar_ascii {c : Char} (ascii : c.toNat < 0x80) :
    String.utf8EncodeChar c = [UInt8.ofNat c.toNat] := by
  have bound : c.val.toNat ≤ 0x7F := Nat.le_of_lt_succ ascii
  simp only [String.utf8EncodeChar, bound, ite_true]
  rfl

theorem utf8_ascii {text : List Char} (ascii : ∀ c ∈ text, c.toNat < 0x80) :
    utf8 text = text.map fun c => UInt8.ofNat c.toNat := by
  induction text with
  | nil => rfl
  | cons c text ih =>
    rw [utf8_cons, encodeChar_ascii (ascii c List.mem_cons_self),
      ih fun other inside => ascii other (List.mem_cons_of_mem c inside), List.map_cons,
      List.singleton_append]

theorem toNat_ofNat_of_lt {n : Nat} (small : n < 256) : (UInt8.ofNat n).toNat = n := by
  simp [Nat.mod_eq_of_lt small]

theorem encodeChar_high {c : Char} (wide : 0x80 ≤ c.toNat) :
    ∀ byte ∈ String.utf8EncodeChar c, 0x80 ≤ byte.toNat := by
  have large : ¬ c.val.toNat ≤ 0x7F := Nat.not_le_of_lt wide
  intro byte member
  unfold String.utf8EncodeChar at member
  simp only [large, ite_false] at member
  split at member
  · simp only [List.mem_cons, List.not_mem_nil, or_false] at member
    rcases member with rfl | rfl <;> rw [toNat_ofNat_of_lt (by omega)] <;> omega
  · split at member
    · simp only [List.mem_cons, List.not_mem_nil, or_false] at member
      rcases member with rfl | rfl | rfl <;> rw [toNat_ofNat_of_lt (by omega)] <;> omega
    · simp only [List.mem_cons, List.not_mem_nil, or_false] at member
      rcases member with rfl | rfl | rfl | rfl <;> rw [toNat_ofNat_of_lt (by omega)] <;> omega

theorem encodeChar_of_low {c : Char} {byte : UInt8} (member : byte ∈ String.utf8EncodeChar c)
    (low : byte.toNat < 0x80) : String.utf8EncodeChar c = [byte] ∧ c.toNat = byte.toNat := by
  by_cases ascii : c.toNat < 0x80
  · rw [encodeChar_ascii ascii] at member ⊢
    rw [List.mem_singleton] at member
    subst member
    exact ⟨rfl, (toNat_ofNat_of_lt (by omega)).symm⟩
  · have := encodeChar_high (Nat.le_of_not_lt ascii) byte member
    omega

/-- The bytes are the UTF-8 form of some text. -/
def WellFormed (bytes : List UInt8) : Prop := ∃ text, utf8 text = bytes

theorem wellFormed_utf8 (text : List Char) : WellFormed (utf8 text) := ⟨text, rfl⟩

theorem wellFormed_nil : WellFormed [] := ⟨[], rfl⟩

/-- A byte below 0x80 is a character of its own, so what stands on either side of it is
well formed. -/
theorem WellFormed.cut {front back : List UInt8} {byte : UInt8} (low : byte.toNat < 0x80)
    (formed : WellFormed (front ++ byte :: back)) : WellFormed front ∧ WellFormed back := by
  obtain ⟨text, written⟩ := formed
  induction text generalizing front with
  | nil => cases front <;> cases written
  | cons c text ih =>
    rw [utf8_cons, List.append_eq_append_iff] at written
    rcases written with ⟨between, rfl, rest⟩ | ⟨between, ends, rest⟩
    -- The byte lies behind the first character.
    · obtain ⟨⟨inner, rfl⟩, formed⟩ := ih rest
      exact ⟨⟨c :: inner, rfl⟩, formed⟩
    · cases between with
      | nil =>
        rw [List.append_nil] at ends
        obtain ⟨_, formed⟩ := @ih [] rest.symm
        exact ⟨⟨[c], by rw [utf8_cons, utf8_nil, List.append_nil, ends]⟩, formed⟩
      -- The byte lies inside the first character, and is all of it.
      | cons head between =>
        obtain ⟨rfl, rfl⟩ := List.cons.inj rest
        have inside : byte ∈ String.utf8EncodeChar c := by rw [ends]; simp
        have single := congrArg List.length (ends.symm.trans (encodeChar_of_low inside low).1)
        simp only [List.length_append, List.length_cons, List.length_nil] at single
        obtain rfl : front = [] := List.length_eq_zero_iff.mp (by omega)
        obtain rfl : between = [] := List.length_eq_zero_iff.mp (by omega)
        exact ⟨wellFormed_nil, text, rfl⟩

theorem WellFormed.tail {byte : UInt8} {bytes : List UInt8} (low : byte.toNat < 0x80)
    (formed : WellFormed (byte :: bytes)) : WellFormed bytes :=
  (@WellFormed.cut [] bytes byte low formed).2

theorem WellFormed.behind {front back : List UInt8} (low : ∀ byte ∈ front, byte.toNat < 0x80)
    (formed : WellFormed (front ++ back)) : WellFormed back := by
  induction front with
  | nil => exact formed
  | cons byte front ih =>
    have rest := WellFormed.tail (low byte List.mem_cons_self) formed
    exact ih (fun byte member => low byte (List.mem_cons_of_mem _ member)) rest

end Utf
