import Mathlib.Data.List.TakeWhile
import Dot1xCP.Lib.Json.Complete

/-! Pascal strings of the installer, and its JSON escaper.

A `string` is a list of UTF-16 code units. The escaper is a loop over them; what it writes
for each is one item of the grammar of JSON strings, and stands for that code unit.
-/

set_option autoImplicit false

namespace Dot1xCP.Setup
open FlatJson (HexDigit HexQuad)

abbrev PascalString := List UInt16

def text (literal : String) : PascalString := literal.toList.map fun c => UInt16.ofNat c.toNat

/-- A literal is the list of its characters; decoding its bytes takes far longer. -/
theorem text_ofList (characters : List Char) :
    text (String.ofList characters) = characters.map fun c => UInt16.ofNat c.toNat := by
  rw [text, String.toList_ofList]

def crlf : PascalString := [13, 10]

/-- `Trim` removes spaces and control characters from both ends. -/
def trim (s : PascalString) : PascalString :=
  ((s.dropWhile (· ≤ 32)).reverse.dropWhile (· ≤ 32)).reverse

def safeTrim (s : PascalString) : PascalString := trim s

/-- `LowerCase` changes the letters from A to Z only. -/
def lowerCase (s : PascalString) : PascalString :=
  s.map fun c => if 0x41 ≤ c ∧ c ≤ 0x5A then c + 0x20 else c

def upperCase (s : PascalString) : PascalString :=
  s.map fun c => if 0x61 ≤ c ∧ c ≤ 0x7A then c - 0x20 else c

/-- `Pos`: where the substring begins, counted from 1; 0 where it does not occur. -/
def pos (substr s : PascalString) : Nat :=
  match s.tails.findIdx? fun rest => substr.isPrefixOf rest with
  | some index => index + 1
  | none => 0

theorem trim_ne_nil {c : UInt16} (visible : 32 < c) (s : PascalString) : trim (c :: s) ≠ [] := by
  have kept : decide (c ≤ 32) = false := decide_eq_false (UInt16.not_le.mpr visible)
  intro empty
  simp only [trim, List.dropWhile_cons, kept, Bool.false_eq_true, if_false, List.reverse_eq_nil_iff,
    List.dropWhile_eq_nil_iff] at empty
  have blank := empty c (List.mem_reverse.mpr List.mem_cons_self)
  rw [kept] at blank
  cases blank

theorem lowerCase_append (s t : PascalString) : lowerCase (s ++ t) = lowerCase s ++ lowerCase t :=
  List.map_append

def nibbleToHex (n : Nat) : UInt16 :=
  if n < 10 then UInt16.ofNat (0x30 + n) else UInt16.ofNat (0x41 + (n - 10))

def codeToHex4 (code : Nat) : PascalString :=
  let v := code &&& 0xFFFF
  [nibbleToHex ((v / 4096) % 16), nibbleToHex ((v / 256) % 16), nibbleToHex ((v / 16) % 16),
    nibbleToHex (v % 16)]

def escapeCode (result : PascalString) (c : UInt16) : PascalString :=
  let code := c.toNat
  if code = 34 then result ++ text "\\\""
  else if code = 92 then result ++ text "\\\\"
  else if code = 8 then result ++ text "\\b"
  else if code = 9 then result ++ text "\\t"
  else if code = 10 then result ++ text "\\n"
  else if code = 12 then result ++ text "\\f"
  else if code = 13 then result ++ text "\\r"
  else if code < 32 ∨ code > 126 then result ++ (text "\\u" ++ codeToHex4 code)
  else result ++ [c]

def jsonEscape (s : PascalString) : PascalString := s.foldl escapeCode []

/-! ## What the escaper writes -/

def digitOf (n : Nat) (small : n < 16) : HexDigit :=
  if decimal : n < 10 then .decimal ⟨n, decimal⟩ else .upper ⟨n - 10, by omega⟩

theorem digitOf_value {n : Nat} (small : n < 16) : (digitOf n small).value = n := by
  unfold digitOf
  split
  · rfl
  · simp only [HexDigit.value]
    omega

theorem digitOf_unit {n : Nat} (small : n < 16) :
    (digitOf n small).byte.toUInt16 = nibbleToHex n := by
  revert n
  decide

def quadOf (code : Nat) : HexQuad where
  first := digitOf (code / 4096 % 16) (Nat.mod_lt _ (by decide))
  second := digitOf (code / 256 % 16) (Nat.mod_lt _ (by decide))
  third := digitOf (code / 16 % 16) (Nat.mod_lt _ (by decide))
  fourth := digitOf (code % 16) (Nat.mod_lt _ (by decide))

theorem quadOf_value {code : Nat} (small : code < 0x10000) : (quadOf code).value = code := by
  simp only [HexQuad.value, quadOf, digitOf_value]
  omega

theorem quadOf_units {code : Nat} (small : code < 0x10000) :
    (quadOf code).bytes.map UInt8.toUInt16 = codeToHex4 code := by
  have masked : code &&& 0xFFFF = code := by
    rw [Nat.and_two_pow_sub_one_eq_mod code 16]
    exact Nat.mod_eq_of_lt small
  simp only [HexQuad.bytes, quadOf, List.map_cons, List.map_nil, digitOf_unit, codeToHex4, masked]

def escapeItem (c : UInt16) : Json.Item :=
  if quotation : c = 34 then .short .quotation
  else if solidus : c = 92 then .short .reverseSolidus
  else if c = 8 then .short .backspace
  else if c = 9 then .short .tab
  else if c = 10 then .short .lineFeed
  else if c = 12 then .short .formFeed
  else if c = 13 then .short .carriageReturn
  else if visible : 32 ≤ c ∧ c ≤ 126 then .plain ⟨c, visible.1, quotation, solidus⟩
  else .unicode (quadOf c.toNat)

/-- A short escape for some characters, and the character itself only where it is visible. -/
theorem escapeItem_cases (c : UInt16) :
    (∃ escape, escapeItem c = .short escape ∧ (Json.Item.short escape).value = c) ∨
      (∃ visible plain, escapeItem c = .plain ⟨c, visible, plain⟩ ∧ c ≤ 126) ∨
      escapeItem c = .unicode (quadOf c.toNat) := by
  fun_cases escapeItem c with
  | case1 quotation => exact .inl ⟨_, rfl, quotation.symm⟩
  | case2 _ solidus => exact .inl ⟨_, rfl, solidus.symm⟩
  | case3 _ _ backspace => exact .inl ⟨_, rfl, backspace.symm⟩
  | case4 _ _ _ tab => exact .inl ⟨_, rfl, tab.symm⟩
  | case5 _ _ _ _ lineFeed => exact .inl ⟨_, rfl, lineFeed.symm⟩
  | case6 _ _ _ _ _ formFeed => exact .inl ⟨_, rfl, formFeed.symm⟩
  | case7 _ _ _ _ _ _ carriageReturn => exact .inl ⟨_, rfl, carriageReturn.symm⟩
  | case8 _ _ _ _ _ _ _ visible => exact .inr (.inl ⟨_, _, rfl, visible.2⟩)
  | case9 => exact .inr (.inr rfl)

theorem escapeItem_value (c : UInt16) : (escapeItem c).value = c := by
  rcases escapeItem_cases c with ⟨escape, short, value⟩ | ⟨_, _, plain, _⟩ | unicode
  · rw [short, value]
  · rw [plain, Json.Item.value]
  · rw [unicode, Json.Item.value, quadOf_value c.toNat_lt, UInt16.ofNat_toNat]

theorem escapeCode_eq (result : PascalString) (c : UInt16) :
    escapeCode result c = result ++ (escapeItem c).units := by
  -- The source compares the ordinal of the character.
  have code (n : Nat) (d : UInt16) (same : d.toNat = n) : c.toNat = n ↔ c = d := by
    rw [← same, UInt16.toNat_inj]
  have hidden : c.toNat < 32 ∨ c.toNat > 126 ↔ ¬ (32 ≤ c ∧ c ≤ 126) := by
    simp only [UInt16.le_iff_toNat_le, UInt16.reduceToNat]
    omega
  simp only [escapeCode, code 34 34 rfl, code 92 92 rfl, code 8 8 rfl, code 9 9 rfl, code 10 10 rfl,
    code 12 12 rfl, code 13 13 rfl, hidden]
  fun_cases escapeItem c with
  | case9 =>
    simp only [*, if_true, if_false, not_false_eq_true]
    rw [Json.Item.units, quadOf_units c.toNat_lt]
    rfl
  | _ =>
    simp only [*, if_true, if_false]
    rfl

theorem jsonEscape_eq (s : PascalString) : jsonEscape s = Json.itemUnits (s.map escapeItem) := by
  have loop (result : PascalString) :
      s.foldl escapeCode result = result ++ Json.itemUnits (s.map escapeItem) := by
    induction s generalizing result with
    | nil => simp [Json.itemUnits]
    | cons c s ih => rw [List.foldl_cons, ih, escapeCode_eq]; simp [Json.itemUnits]
  exact loop []

@[simp] theorem escapeItems_value (s : PascalString) :
    s.map (Json.Item.value ∘ escapeItem) = s :=
  List.map_id'' (fun c => escapeItem_value c) s

def Ascii (s : PascalString) : Prop := ∀ c ∈ s, c < 0x80

instance (s : PascalString) : Decidable (Ascii s) := List.decidableBAll _ s

theorem ascii_append {first second : PascalString} :
    Ascii (first ++ second) ↔ Ascii first ∧ Ascii second := List.forall_mem_append

theorem ascii_cons {c : UInt16} {s : PascalString} : Ascii (c :: s) ↔ c < 0x80 ∧ Ascii s :=
  List.forall_mem_cons

theorem nibbleToHex_ascii (n : Nat) : nibbleToHex (n % 16) < 0x80 := by
  have each : ∀ nibble < 16, nibbleToHex nibble < 0x80 := by decide
  exact each _ (Nat.mod_lt _ (by decide))

theorem codeToHex4_ascii (code : Nat) : Ascii (codeToHex4 code) := by
  simp [Ascii, codeToHex4, nibbleToHex_ascii]

theorem escapeItem_ascii (c : UInt16) : Ascii (escapeItem c).units := by
  rcases escapeItem_cases c with ⟨escape, short, _⟩ | ⟨visible, unescaped, plain, upper⟩ | unicode
  · rw [short]
    cases escape <;> decide
  · have small : c < 0x80 := by
      simp only [UInt16.le_iff_toNat_le, UInt16.lt_iff_toNat_lt, UInt16.reduceToNat] at upper ⊢
      omega
    rw [plain]
    simpa [Ascii, Json.Item.units] using small
  · have digits := codeToHex4_ascii c.toNat
    rw [unicode, Json.Item.units, quadOf_units c.toNat_lt]
    intro unit inside
    simp only [List.mem_cons] at inside
    rcases inside with rfl | rfl | inside
    · decide
    · decide
    · exact digits unit inside

theorem jsonEscape_ascii (s : PascalString) : Ascii (jsonEscape s) := by
  rw [jsonEscape_eq]
  intro unit inside
  obtain ⟨item, listed, member⟩ := List.mem_flatMap.mp inside
  obtain ⟨c, _, rfl⟩ := List.mem_map.mp listed
  exact escapeItem_ascii c unit member

end Dot1xCP.Setup
