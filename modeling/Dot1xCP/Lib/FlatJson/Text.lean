import Dot1xCP.Lib.FlatJson

/-! Strings of well-formed UTF-8, read by whole characters.

A string whose literals are bytes may spread a character over several of them. The
escapes and the quotation marks around it are ASCII, so in well-formed bytes the
literals between two of them are whole characters.
-/

set_option autoImplicit false

namespace FlatJson

structure RawChar where
  char : Char
  plain : char ≠ '"' ∧ char ≠ '\\'
  deriving DecidableEq

instance : Literal RawChar where
  bytes c := String.utf8EncodeChar c.char
  nonempty _ := String.utf8EncodeChar_ne_nil
  plain c := encodeChar_plain c.plain

theorem decodeBytes_rawChar (items : List (Item RawChar)) :
    decodeBytes items = (decode RawChar.char id items).map Utf.utf8 :=
  decodeBytes_char (fun _ => rfl) items

theorem Ws.byte_low (w : Ws) : w.byte.toNat < 0x80 := by cases w <;> decide

theorem blank_low (ws : List Ws) : ∀ byte ∈ blank ws, byte.toNat < 0x80 := by
  intro byte member
  obtain ⟨w, _, rfl⟩ := List.mem_map.mp member
  exact w.byte_low

theorem Short.letter_low (escape : Short) : escape.letter.toNat < 0x80 := by
  cases escape <;> decide

theorem HexDigit.byte_low (digit : HexDigit) : digit.byte.toNat < 0x80 := by
  cases digit with
  | decimal digit => revert digit; decide
  | lower digit => revert digit; decide
  | upper digit => revert digit; decide

theorem HexQuad.bytes_low (quad : HexQuad) : ∀ byte ∈ quad.bytes, byte.toNat < 0x80 := by
  intro byte member
  simp only [bytes, List.mem_cons, List.not_mem_nil, or_false] at member
  rcases member with rfl | rfl | rfl | rfl <;> exact HexDigit.byte_low _

/-! ## Regrouping -/

section Regroup
variable {α : Type} [Literal α]

theorem itemBytes_append (first second : List (Item α)) :
    itemBytes (first ++ second) = itemBytes first ++ itemBytes second := List.flatMap_append

theorem itemBytes_literals (literals : List α) :
    itemBytes (literals.map Item.literal) = literals.flatMap Literal.bytes := by
  simp [itemBytes, List.flatMap_map, Item.bytes]

end Regroup

theorem exists_literals {run : List UInt8} (formed : Utf.WellFormed run)
    (plain : ∀ byte ∈ run, byte ≠ doubleQuote ∧ byte ≠ backslash) :
    ∃ literals : List RawChar, literals.flatMap Literal.bytes = run := by
  obtain ⟨text, rfl⟩ := formed
  induction text with
  | nil => exact ⟨[], rfl⟩
  | cons c text ih =>
    rw [Utf.utf8_cons] at plain
    obtain ⟨literals, written⟩ := ih fun byte member => plain byte (List.mem_append_right _ member)
    -- A delimiter would be encoded as itself.
    have visible : c ≠ '"' ∧ c ≠ '\\' := by
      constructor
      · rintro rfl
        exact (plain doubleQuote (List.mem_append_left _ (by decide))).1 rfl
      · rintro rfl
        exact (plain backslash (List.mem_append_left _ (by decide))).2 rfl
    refine ⟨⟨c, visible⟩ :: literals, ?_⟩
    rw [List.flatMap_cons, written]
    rfl

/-- In well-formed bytes the items of a string are whole characters and escapes. -/
theorem exists_items {items : List (Item RawByte)} (formed : Utf.WellFormed (itemBytes items)) :
    ∃ whole : List (Item RawChar), itemBytes whole = itemBytes items := by
  -- `run` holds the literal bytes since the last escape: they may end inside a character.
  suffices general : ∀ run : List UInt8, (∀ byte ∈ run, byte ≠ doubleQuote ∧ byte ≠ backslash) →
      Utf.WellFormed (run ++ itemBytes items) →
      ∃ whole : List (Item RawChar), itemBytes whole = run ++ itemBytes items from
    general [] (by simp) formed
  clear formed
  induction items with
  | nil =>
    intro run plain formed
    rw [itemBytes_nil, List.append_nil] at formed ⊢
    obtain ⟨literals, rfl⟩ := exists_literals formed plain
    exact ⟨literals.map .literal, itemBytes_literals literals⟩
  | cons item items ih =>
    intro run plain formed
    -- An escape ends the run; its bytes are ASCII, so the text behind it starts a character.
    have escape (unit : Item RawChar) {tail : List UInt8} (same : unit.bytes = backslash :: tail)
        (low : ∀ byte ∈ tail, byte.toNat < 0x80) (written : item.bytes = backslash :: tail) :
        ∃ whole : List (Item RawChar), itemBytes whole = run ++ itemBytes (item :: items) := by
      rw [itemBytes_cons, written, List.cons_append] at formed
      obtain ⟨ended, behind⟩ := formed.cut (by decide)
      obtain ⟨literals, rfl⟩ := exists_literals ended plain
      obtain ⟨whole, rest⟩ := ih [] (by simp) (behind.behind low)
      refine ⟨literals.map .literal ++ unit :: whole, ?_⟩
      rw [itemBytes_append, itemBytes_literals, itemBytes_cons, rest, same, itemBytes_cons, written]
      rfl
    cases item with
    | literal raw =>
      obtain ⟨whole, written⟩ := ih (run ++ [raw.byte])
        (by
          intro byte member
          rcases List.mem_append.mp member with member | member
          · exact plain byte member
          · exact List.mem_singleton.mp member ▸ raw.plain)
        (by rw [List.append_assoc]; exact formed)
      exact ⟨whole, by rw [written, List.append_assoc]; rfl⟩
    | short letter =>
      refine escape (.short letter) rfl (fun byte member => ?_) rfl
      exact List.mem_singleton.mp member ▸ letter.letter_low
    | unicode quad =>
      refine escape (.unicode quad) rfl (fun byte member => ?_) rfl
      rcases List.mem_cons.mp member with rfl | member
      · decide
      · exact quad.bytes_low byte member

theorem exists_quoted {items : List (Item RawByte)} {s : List UInt8}
    (formed : Utf.WellFormed (quoted items ++ s)) :
    (∃ whole : List (Item RawChar), quoted whole = quoted items) ∧ Utf.WellFormed s := by
  rw [quoted, List.cons_append, List.append_assoc] at formed
  have inner := Utf.WellFormed.tail (by decide) formed
  obtain ⟨written, behind⟩ := inner.cut (by decide)
  obtain ⟨whole, same⟩ := exists_items written
  exact ⟨⟨whole, by rw [quoted, same, quoted]⟩, behind⟩

theorem exists_member {member : Member RawByte} {s : List UInt8}
    (formed : Utf.WellFormed (member.bytes ++ s)) :
    (∃ whole : Member RawChar, whole.bytes = member.bytes) ∧ Utf.WellFormed s := by
  simp only [Member.bytes, List.append_assoc, List.cons_append] at formed
  obtain ⟨⟨key, keySame⟩, afterKey⟩ := exists_quoted (formed.behind (blank_low member.before))
  obtain ⟨_, afterColon⟩ := afterKey.cut (by decide)
  obtain ⟨⟨value, valueSame⟩, afterValue⟩ :=
    exists_quoted (afterColon.behind (blank_low member.afterColon))
  refine ⟨⟨⟨member.before, key, member.beforeColon, member.afterColon, value, member.after⟩, ?_⟩,
    afterValue.behind (blank_low member.after)⟩
  simp only [Member.bytes, keySame, valueSame]

def codePoints {α : Type} : List (Item α) → List Nat
  | [] => []
  | .unicode quad :: rest =>
    if quad.isHigh then
      match rest with
      | .unicode low :: rest => pairValue quad.value low.value :: codePoints rest
      | rest => codePoints rest
    else quad.value :: codePoints rest
  | .literal _ :: rest => codePoints rest
  | .short _ :: rest => codePoints rest

/-- In a string with a meaning every escaped code point is a Unicode scalar value. -/
theorem codePoints_valid {α β : Type} {literal : α → β} {char : Char → β} {items : List (Item α)}
    {text : List β} (decoded : decode literal char items = some text) :
    ∀ value ∈ codePoints items, value.isValidChar := by
  fun_induction decode literal char items generalizing text with
  | case1 => simp [codePoints]
  | case2 a rest ih | case3 escape rest ih =>
    obtain ⟨tail, decodedTail, _⟩ := Option.map_eq_some_iff.mp decoded
    simpa [codePoints] using ih decodedTail
  | case4 quad high low rest closes ih =>
    obtain ⟨tail, decodedTail, _⟩ := Option.map_eq_some_iff.mp decoded
    simp only [codePoints, high, if_true, List.forall_mem_cons]
    exact ⟨pairValue_valid high closes, ih decodedTail⟩
  | case5 | case6 | case7 => cases decoded
  | case8 quad rest high low ih =>
    obtain ⟨tail, decodedTail, _⟩ := Option.map_eq_some_iff.mp decoded
    rw [codePoints.eq_def]
    simp only [if_neg high, List.forall_mem_cons]
    exact ⟨scalar_valid quad high low, ih decodedTail⟩

end FlatJson
