import Dot1xCP.Lib.Json

/-! The decoder reads every text as its tree says.

Each part of the decoder is followed through what the grammar writes. A value is given with
whatever comes after it; only a number depends on that, since it ends at the first unit that
cannot continue it.
-/

set_option autoImplicit false

namespace Json
open FlatJson (Ws Short HexDigit HexQuad)

@[simp] theorem blank_nil : blank [] = [] := rfl

@[simp] theorem blank_cons (w : Ws) (ws : List Ws) :
    blank (w :: ws) = w.byte.toUInt16 :: blank ws := rfl

@[simp] theorem isWs_unit (w : Ws) : isWs w.byte.toUInt16 = true := by cases w <;> rfl

@[simp] theorem skipWs_blank (ws : List Ws) (s : List UInt16) :
    skipWs (blank ws ++ s) = skipWs s := by
  induction ws with
  | nil => rfl
  | cons w ws ih => simpa [skipWs] using ih

theorem skipWs_cons {c : UInt16} (black : isWs c = false) (s : List UInt16) :
    skipWs (c :: s) = c :: s := by simp [skipWs, black]

/-- What follows a number does not continue it. -/
def Follows (s : List UInt16) : Prop := ∀ c ∈ s.head?, isNumberUnit c = false

theorem follows_nil : Follows [] := nofun

theorem follows_cons {c : UInt16} (ends : isNumberUnit c = false) (s : List UInt16) :
    Follows (c :: s) := by
  intro d same
  cases same
  exact ends

theorem follows_blank (ws : List Ws) {s : List UInt16} (follows : Follows s) :
    Follows (blank ws ++ s) := by
  cases ws with
  | nil => exact follows
  | cons w ws => exact follows_cons (by cases w <;> rfl) _

theorem hexValue_unit (digit : HexDigit) : hexValue digit.byte.toUInt16 = some digit.value := by
  cases digit with
  | decimal digit => revert digit; decide
  | lower digit => revert digit; decide
  | upper digit => revert digit; decide

theorem shortValue_unit (escape : Short) :
    shortValue escape.letter.toUInt16 = some (UInt16.ofNat escape.char.toNat) := by
  cases escape <;> rfl

theorem short_ne_letterU (escape : Short) : escape.letter.toUInt16 ≠ letterU := by
  cases escape <;> decide

theorem parseString_item (item : Item) (s : List UInt16) :
    parseString (item.units ++ s) =
      (parseString s).map fun (text, rest) => (item.value :: text, rest) := by
  have escapes : backslash ≠ quote := by decide
  cases item with
  | plain p =>
    have visible : ¬ p.unit < 0x20 := UInt16.not_lt.mpr p.visible
    rw [Item.units, List.singleton_append, parseString.eq_def]
    simp only [p.plain.1, p.plain.2, visible, if_false, Item.value]
  | short escape =>
    rw [Item.units, List.cons_append, List.singleton_append, parseString.eq_def]
    simp only [escapes, short_ne_letterU, shortValue_unit, if_false, if_true, Item.value]
  | unicode quad =>
    rw [Item.units, List.cons_append, List.cons_append, parseString.eq_def]
    simp only [escapes, if_false, if_true, HexQuad.bytes, List.map_cons, List.map_nil,
      List.cons_append, List.nil_append, hexValue_unit, Item.value, HexQuad.value]

theorem parseString_close (s : List UInt16) : parseString (quote :: s) = some ([], s) := by
  rw [parseString.eq_def]
  simp

theorem parseString_items (items : List Item) (s : List UInt16) :
    parseString (itemUnits items ++ quote :: s) = some (items.map Item.value, s) := by
  induction items with
  | nil => exact parseString_close s
  | cons item items ih =>
    rw [itemUnits, List.flatMap_cons, List.append_assoc, parseString_item]
    change (parseString (itemUnits items ++ quote :: s)).map _ = _
    rw [ih]
    rfl

theorem isNumberUnit_digit {c : UInt16} (digit : isDigit c = true) : isNumberUnit c = true := by
  simp [isNumberUnit, digit]

theorem afterInt_numberUnit {c : UInt16} {next : NumberState} (stepped : afterInt c = some next) :
    isNumberUnit c = true := by
  unfold afterInt at stepped
  split at stepped
  next point => rw [point]; rfl
  next =>
    obtain ⟨exponent, _⟩ := Option.ite_none_right_eq_some.mp stepped
    rcases exponent with rfl | rfl <;> rfl

theorem step_numberUnit {state next : NumberState} {c : UInt16} (stepped : state.step c = some next) :
    isNumberUnit c = true := by
  -- Every unit that a state takes is a digit, or one of the five named here.
  have taken : isDigit c = true ∨ c = 0x2D ∨ c = 0x2B ∨ c = 0x30 ∨ (c = 0x65 ∨ c = 0x45) ∨
      afterInt c = some next := by
    cases state <;> simp only [NumberState.step] at stepped <;> grind
  rcases taken with digit | rfl | rfl | rfl | (rfl | rfl) | after
  · exact isNumberUnit_digit digit
  · rfl
  · rfl
  · rfl
  · rfl
  · rfl
  · exact afterInt_numberUnit after

theorem run_numberUnits {state final : NumberState} {units : List UInt16}
    (ran : state.run units = some final) : ∀ c ∈ units, isNumberUnit c = true := by
  induction units generalizing state with
  | nil => simp
  | cons c s ih =>
    rw [NumberState.run] at ran
    split at ran
    · cases ran
    next next stepped => exact List.forall_mem_cons.mpr ⟨step_numberUnit stepped, ih ran⟩

theorem Number.forall_numberUnit (number : Number) : ∀ c ∈ number.units, isNumberUnit c = true := by
  have valid := number.valid
  unfold isNumber at valid
  split at valid
  next final ran => exact run_numberUnits ran
  next => cases valid

theorem parseNumber_units (number : Number) {s : List UInt16} (follows : Follows s) :
    parseNumber (number.units ++ s) = some (.number number.units, s) := by
  have units := number.forall_numberUnit
  have rest : s.takeWhile isNumberUnit = [] ∧ s.dropWhile isNumberUnit = s := by
    cases s with
    | nil => exact ⟨rfl, rfl⟩
    | cons c s => simp [follows c rfl]
  rw [parseNumber, List.takeWhile_append_of_pos units, List.dropWhile_append_of_pos units, rest.1,
    rest.2, List.append_nil, if_pos number.valid]

theorem parseWord_units (word : Word) (s : List UInt16) :
    parseWord (word.units ++ s) = some (word.value, s) := by
  rcases word with _ | _ | _ <;> simp [parseWord, Word.units, Word.value]

theorem parseWord_number {c : UInt16} (unit : isNumberUnit c = true) (s : List UInt16) :
    parseWord (c :: s) = none := by
  have other (d : UInt16) (is : isNumberUnit d = false) : d ≠ c := by
    rintro rfl
    exact absurd unit (by simp [is])
  simp [parseWord, Word.units, other 0x6E rfl, other 0x74 rfl, other 0x66 rfl]

/-! ## Values -/

mutual

def Tree.cost : Tree → Nat
  | .array elements => elements.cost + 1
  | .object members => members.cost + 1
  | _ => 1

def Elements.cost : Elements → Nat
  | .last _ value _ => value.cost + 1
  | .more _ value _ rest => value.cost + rest.cost + 1

def Members.cost : Members → Nat
  | .last _ _ _ _ value _ => value.cost + 1
  | .more _ _ _ _ value _ rest => value.cost + rest.cost + 1

end

theorem Number.units_ne_nil (number : Number) : number.units ≠ [] := by
  intro empty
  have valid := number.valid
  rw [empty] at valid
  cases valid

theorem numberUnit_black {c : UInt16} (unit : isNumberUnit c = true) :
    isWs c = false ∧ c ≠ rightBracket ∧ c ≠ quote ∧ c ≠ leftBracket ∧ c ≠ leftBrace := by
  have other (d : UInt16) (is : isNumberUnit d = false) : c ≠ d := by
    rintro rfl
    exact absurd unit (by simp [is])
  refine ⟨?_, other _ rfl, other _ rfl, other _ rfl, other _ rfl⟩
  simp [isWs, other 0x20 rfl, other 0x09 rfl, other 0x0A rfl, other 0x0D rfl]

theorem Tree.units_head (tree : Tree) :
    ∃ c s, tree.units = c :: s ∧ isWs c = false ∧ c ≠ rightBracket := by
  cases tree with
  | word word => rcases word with _ | _ | _ <;> exact ⟨_, _, rfl, rfl, by decide⟩
  | number number =>
    cases units : number.units with
    | nil => exact absurd units number.units_ne_nil
    | cons c s =>
      have black := numberUnit_black (number.forall_numberUnit c (by simp [units]))
      exact ⟨c, s, by rw [Tree.units, units], black.1, black.2.1⟩
  | string | emptyArray | array | emptyObject | object => exact ⟨_, _, rfl, rfl, by decide⟩

theorem skipWs_tree (tree : Tree) (s : List UInt16) : skipWs (tree.units ++ s) = tree.units ++ s := by
  obtain ⟨c, t, units, black, _⟩ := tree.units_head
  rw [units]
  exact skipWs_cons black _

theorem Elements.skip_head (elements : Elements) (s : List UInt16) :
    (skipWs (elements.units ++ s)).head? ≠ some rightBracket := by
  have first (before : List Ws) (tree : Tree) (s : List UInt16) :
      (skipWs (blank before ++ (tree.units ++ s))).head? ≠ some rightBracket := by
    obtain ⟨c, t, units, _, other⟩ := tree.units_head
    rw [skipWs_blank, skipWs_tree, units]
    simpa using other
  cases elements with
  | last before value after => simpa [Elements.units] using first before value (blank after ++ s)
  | more before value after rest =>
    simpa [Elements.units] using first before value (blank after ++ comma :: (rest.units ++ s))

theorem Members.skip_eq (members : Members) (s : List UInt16) :
    ∃ t, skipWs (members.units ++ s) = quote :: t := by
  cases members with
  | last before key beforeColon afterColon value after =>
    simp only [Members.units, List.append_assoc, skipWs_blank, quoted, List.cons_append]
    exact ⟨_, skipWs_cons rfl _⟩
  | more before key beforeColon afterColon value after rest =>
    simp only [Members.units, List.append_assoc, skipWs_blank, quoted, List.cons_append]
    exact ⟨_, skipWs_cons rfl _⟩

theorem parseMembers_value {fuel : Nat} (key : List Item) (beforeColon afterColon : List Ws)
    (tree : Tree) {s : List UInt16} {value : Value} {rest : List UInt16}
    (parsed : parseValue fuel (tree.units ++ s) = some (value, rest)) :
    parseMembers (fuel + 1) (quoted key ++ (blank beforeColon ++
        colon :: (blank afterColon ++ (tree.units ++ s)))) =
      match skipWs rest with
      | [] => none
      | c :: s =>
        if c = comma then
          (parseMembers fuel (skipWs s)).map fun (members, rest) =>
            ((key.map Item.value, value) :: members, rest)
        else if c = rightBrace then some ([(key.map Item.value, value)], s)
        else none := by
  have head (s : List UInt16) : skipWs (blank beforeColon ++ colon :: s) = colon :: s := by
    rw [skipWs_blank, skipWs_cons rfl]
  have unfolded := parseMembers.eq_def (fuel + 1)
    (quoted key ++ (blank beforeColon ++ colon :: (blank afterColon ++ (tree.units ++ s))))
  simp only [quoted, List.cons_append, List.append_assoc, List.nil_append, ne_eq,
    not_true_eq_false, if_false, parseString_items, head, skipWs_blank, skipWs_tree,
    parsed] at unfolded ⊢
  exact unfolded

theorem parseElements_value {fuel : Nat} {s rest : List UInt16} {value : Value}
    (parsed : parseValue fuel s = some (value, rest)) :
    parseElements (fuel + 1) s =
      match skipWs rest with
      | [] => none
      | c :: s =>
        if c = comma then
          (parseElements fuel (skipWs s)).map fun (values, rest) => (value :: values, rest)
        else if c = rightBracket then some ([value], s)
        else none := by
  have unfolded := parseElements.eq_def (fuel + 1) s
  simp only [parsed] at unfolded
  exact unfolded

section Heads
variable (fuel : Nat) (s : List UInt16)

theorem parseValue_string (items : List Item) :
    parseValue (fuel + 1) (quoted items ++ s) = some (.string (items.map Item.value), s) := by
  simp [quoted, parseValue, parseString_items]

theorem parseValue_bare {c : UInt16} (string : c ≠ quote) (array : c ≠ leftBracket)
    (object : c ≠ leftBrace) :
    parseValue (fuel + 1) (c :: s) = (parseWord (c :: s)).or (parseNumber (c :: s)) := by
  rw [parseValue, if_neg string, if_neg array, if_neg object]

theorem parseValue_word (word : Word) :
    parseValue (fuel + 1) (word.units ++ s) = some (word.value, s) := by
  have bare : parseValue (fuel + 1) (word.units ++ s) =
      (parseWord (word.units ++ s)).or (parseNumber (word.units ++ s)) := by
    rcases word with _ | _ | _ <;>
      exact parseValue_bare fuel _ (by decide) (by decide) (by decide)
  rw [bare, parseWord_units, Option.some_or]

theorem parseValue_number (number : Number) (follows : Follows s) :
    parseValue (fuel + 1) (number.units ++ s) = some (.number number.units, s) := by
  have parsed := parseNumber_units number follows
  cases units : number.units with
  | nil => exact absurd units number.units_ne_nil
  | cons c t =>
    have unit := number.forall_numberUnit c (by simp [units])
    obtain ⟨_, _, string, array, object⟩ := numberUnit_black unit
    rw [units, List.cons_append] at parsed
    rw [List.cons_append, parseValue_bare fuel _ string array object, parseWord_number unit,
      Option.none_or, parsed]

end Heads

mutual

theorem parseValue_units : ∀ (tree : Tree) (fuel : Nat), tree.cost ≤ fuel →
    ∀ s, Follows s → parseValue fuel (tree.units ++ s) = some (tree.value, s)
  | .word word, fuel + 1, _, s, _ => parseValue_word fuel s word
  | .number number, fuel + 1, _, s, follows => parseValue_number fuel s number follows
  | .string items, fuel + 1, _, s, _ => parseValue_string fuel s items
  | .emptyArray ws, fuel + 1, _, s, _ => by
    have inner : skipWs (blank ws ++ rightBracket :: s) = rightBracket :: s := by
      rw [skipWs_blank, skipWs_cons rfl]
    simp [Tree.units, Tree.value, parseValue, inner]
  | .array elements, fuel + 1, enough, s, _ => by
    have inner := parseElements_units elements fuel (Nat.le_of_succ_le_succ enough) s
    have filled := elements.skip_head (rightBracket :: s)
    simp [Tree.units, Tree.value, parseValue, inner, filled]
  | .emptyObject ws, fuel + 1, _, s, _ => by
    have inner : skipWs (blank ws ++ rightBrace :: s) = rightBrace :: s := by
      rw [skipWs_blank, skipWs_cons rfl]
    simp [Tree.units, Tree.value, parseValue, inner]
  | .object members, fuel + 1, enough, s, _ => by
    have inner := parseMembers_units members fuel (Nat.le_of_succ_le_succ enough) s
    obtain ⟨t, filled⟩ := members.skip_eq (rightBrace :: s)
    have opens : (skipWs (members.units ++ rightBrace :: s)).head? ≠ some rightBrace := by
      rw [filled, List.head?_cons, ne_eq, Option.some_inj]
      decide
    simp [Tree.units, Tree.value, parseValue, inner, opens]

theorem parseElements_units : ∀ (elements : Elements) (fuel : Nat), elements.cost ≤ fuel →
    ∀ s, parseElements fuel (skipWs (elements.units ++ rightBracket :: s)) =
      some (elements.values, s)
  | .last before value after, fuel + 1, enough, s => by
    have parsed := parseValue_units value fuel (Nat.le_of_succ_le_succ enough)
      (blank after ++ rightBracket :: s) (follows_blank after (follows_cons rfl s))
    have ends : skipWs (blank after ++ rightBracket :: s) = rightBracket :: s := by
      rw [skipWs_blank, skipWs_cons rfl]
    rw [Elements.units, List.append_assoc, List.append_assoc, skipWs_blank, skipWs_tree,
      parseElements_value parsed, ends]
    rfl
  | .more before value after rest, fuel + 1, enough, s => by
    have bounds : value.cost + rest.cost ≤ fuel := Nat.le_of_succ_le_succ enough
    have parsed := parseValue_units value fuel (Nat.le_trans (Nat.le_add_right _ _) bounds)
      (blank after ++ comma :: (rest.units ++ rightBracket :: s))
      (follows_blank after (follows_cons rfl _))
    have next (s : List UInt16) : skipWs (blank after ++ comma :: s) = comma :: s := by
      rw [skipWs_blank, skipWs_cons rfl]
    have others := parseElements_units rest fuel (Nat.le_trans (Nat.le_add_left _ _) bounds) s
    rw [Elements.units, List.append_assoc, List.append_assoc, List.append_assoc, List.cons_append,
      skipWs_blank, skipWs_tree, parseElements_value parsed, next]
    simp [others, Elements.values]

theorem parseMembers_units : ∀ (members : Members) (fuel : Nat), members.cost ≤ fuel →
    ∀ s, parseMembers fuel (skipWs (members.units ++ rightBrace :: s)) = some (members.values, s)
  | .last before key beforeColon afterColon value after, fuel + 1, enough, s => by
    have parsed := parseValue_units value fuel (Nat.le_of_succ_le_succ enough)
      (blank after ++ rightBrace :: s) (follows_blank after (follows_cons rfl s))
    have ends : skipWs (blank after ++ rightBrace :: s) = rightBrace :: s := by
      rw [skipWs_blank, skipWs_cons rfl]
    have read := parseMembers_value key beforeColon afterColon value parsed
    rw [ends] at read
    have opens (t : List UInt16) : skipWs (quoted key ++ t) = quoted key ++ t := skipWs_cons rfl _
    simp only [Members.units, List.append_assoc, List.cons_append, skipWs_blank, opens, read]
    rfl
  | .more before key beforeColon afterColon value after rest, fuel + 1, enough, s => by
    have bounds : value.cost + rest.cost ≤ fuel := Nat.le_of_succ_le_succ enough
    have parsed := parseValue_units value fuel (Nat.le_trans (Nat.le_add_right _ _) bounds)
      (blank after ++ comma :: (rest.units ++ rightBrace :: s))
      (follows_blank after (follows_cons rfl _))
    have next (s : List UInt16) : skipWs (blank after ++ comma :: s) = comma :: s := by
      rw [skipWs_blank, skipWs_cons rfl]
    have others := parseMembers_units rest fuel (Nat.le_trans (Nat.le_add_left _ _) bounds) s
    have read := parseMembers_value key beforeColon afterColon value parsed
    rw [next] at read
    have opens (t : List UInt16) : skipWs (quoted key ++ t) = quoted key ++ t := skipWs_cons rfl _
    simp only [Members.units, List.append_assoc, List.cons_append, skipWs_blank, opens, read]
    simp [others, Members.values]

end

mutual

theorem Tree.cost_le : ∀ tree : Tree, tree.cost ≤ tree.units.length
  | .word word => by rcases word with _ | _ | _ <;> simp [Tree.cost, Tree.units, Word.units]
  | .number number => List.length_pos_of_ne_nil number.units_ne_nil
  | .string items | .emptyArray ws | .emptyObject ws => by
    simp [Tree.cost, Tree.units, quoted]
  | .array elements => by
    have inner := elements.cost_le
    simp only [Tree.cost, Tree.units, List.length_cons, List.length_append, List.length_nil]
    omega
  | .object members => by
    have inner := members.cost_le
    simp only [Tree.cost, Tree.units, List.length_cons, List.length_append, List.length_nil]
    omega

theorem Elements.cost_le : ∀ elements : Elements, elements.cost ≤ elements.units.length + 1
  | .last before value after => by
    have inner := value.cost_le
    simp only [Elements.cost, Elements.units, List.length_append]
    omega
  | .more before value after rest => by
    have inner := value.cost_le
    have others := rest.cost_le
    simp only [Elements.cost, Elements.units, List.length_append, List.length_cons]
    omega

theorem Members.cost_le : ∀ members : Members, members.cost ≤ members.units.length + 1
  | .last before key beforeColon afterColon value after => by
    have inner := value.cost_le
    simp only [Members.cost, Members.units, List.length_append, List.length_cons]
    omega
  | .more before key beforeColon afterColon value after rest => by
    have inner := value.cost_le
    have others := rest.cost_le
    simp only [Members.cost, Members.units, List.length_append, List.length_cons]
    omega

end

/-- The decoder reads what the text says. -/
theorem decode_units (text : Text) : decode text.units = some text.tree.value := by
  have enough : text.tree.cost ≤ text.units.length + 1 := by
    have bound := text.tree.cost_le
    simp only [Text.units, List.length_append]
    omega
  have parsed := parseValue_units text.tree _ enough (blank text.after)
    (List.append_nil (blank text.after) ▸ follows_blank text.after follows_nil)
  have ends : skipWs (blank text.after) = [] := by
    rw [← List.append_nil (blank text.after), skipWs_blank]
    rfl
  have opens : skipWs text.units = text.tree.units ++ blank text.after := by
    rw [Text.units, List.append_assoc, skipWs_blank, skipWs_tree]
  rw [decode, opens, parsed]
  simp [ends]

end Json
