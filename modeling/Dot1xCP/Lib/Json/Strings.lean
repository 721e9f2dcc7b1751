import Dot1xCP.Lib.Json.Complete

/-! Where a quoted name occurs in a text.

A search for the letters of a name between quotation marks knows nothing of the grammar. It
stops at the first string that is the name, or that ends in an escaped quotation mark and
the name; at which depth that string stands, and whether it names a member, plays no part.
-/

set_option autoImplicit false

namespace Json
open FlatJson (Ws Short HexDigit HexQuad)

/-- A string of a text with all that follows it: the name of a member, or a value. -/
inductive Spot where
  | name (key : List Item) (beforeColon afterColon : List Ws) (tree : Tree) (rest : List UInt16)
  | value (items : List Item) (rest : List UInt16)

namespace Spot

def items : Spot → List Item
  | .name key _ _ _ _ => key
  | .value items _ => items

def behind : Spot → List UInt16
  | .name _ beforeColon afterColon tree rest =>
    blank beforeColon ++ colon :: (blank afterColon ++ (tree.units ++ rest))
  | .value _ rest => rest

end Spot

mutual

def Tree.spots : Tree → List UInt16 → List Spot
  | .word _, _ | .number _, _ | .emptyArray _, _ | .emptyObject _, _ => []
  | .string items, rest => [.value items rest]
  | .array elements, rest => elements.spots (rightBracket :: rest)
  | .object members, rest => members.spots (rightBrace :: rest)

def Elements.spots : Elements → List UInt16 → List Spot
  | .last _ value after, rest => value.spots (blank after ++ rest)
  | .more _ value after others, rest =>
    value.spots (blank after ++ comma :: (others.units ++ rest)) ++ others.spots rest

def Members.spots : Members → List UInt16 → List Spot
  | .last _ key beforeColon afterColon value after, rest =>
    .name key beforeColon afterColon value (blank after ++ rest) :: value.spots (blank after ++ rest)
  | .more _ key beforeColon afterColon value after others, rest =>
    .name key beforeColon afterColon value (blank after ++ comma :: (others.units ++ rest)) ::
      (value.spots (blank after ++ comma :: (others.units ++ rest)) ++ others.spots rest)

end

def Text.spots (text : Text) : List Spot := text.tree.spots (blank text.after)

/-- As it is written, the string is the name or ends in a quotation mark and the name. -/
def Spot.shows (name : List UInt16) (spot : Spot) : Bool :=
  itemUnits spot.items == name || (quote :: name).isSuffixOf (itemUnits spot.items)

def afterFirst (token : List UInt16) : List UInt16 → Option (List UInt16)
  | [] => none
  | c :: s =>
    if token.isPrefixOf (c :: s) then some ((c :: s).drop token.length) else afterFirst token s

def nameToken (name : List UInt16) : List UInt16 := quote :: (name ++ [quote])

def isLetter (c : UInt16) : Bool := (0x41 ≤ c && c ≤ 0x5A) || (0x61 ≤ c && c ≤ 0x7A)

def Cut (s : List UInt16) : Prop := ∀ c ∈ s.head?, c ≠ quote ∧ isLetter c = false

theorem cut_nil : Cut [] := nofun

theorem cut_cons {c : UInt16} (cut : c ≠ quote ∧ isLetter c = false) (s : List UInt16) :
    Cut (c :: s) := by
  intro d same
  cases same
  exact cut

theorem cut_blank (ws : List Ws) {s : List UInt16} (cut : Cut s) : Cut (blank ws ++ s) := by
  cases ws with
  | nil => exact cut
  | cons w ws => exact cut_cons (by cases w <;> decide) _

theorem backslash_ne_quote : backslash ≠ quote := by decide

theorem hexDigit_ne_quote (digit : HexDigit) : digit.byte.toUInt16 ≠ quote := by
  cases digit with
  | decimal digit => revert digit; decide
  | lower digit => revert digit; decide
  | upper digit => revert digit; decide

theorem Item.units_free {item : Item} (other : item ≠ .short .quotation) :
    ∀ c ∈ item.units, c ≠ quote := by
  cases item with
  | plain p => exact List.forall_mem_singleton.mpr p.plain.1
  | short escape =>
    refine List.forall_mem_cons.mpr ⟨backslash_ne_quote, List.forall_mem_singleton.mpr ?_⟩
    cases escape with
    | quotation => exact absurd rfl other
    | _ => decide
  | unicode quad =>
    refine List.forall_mem_cons.mpr ⟨backslash_ne_quote, List.forall_mem_cons.mpr ⟨by decide, ?_⟩⟩
    intro c inside
    obtain ⟨byte, digit, rfl⟩ := List.mem_map.mp inside
    simp only [HexQuad.bytes, List.mem_cons, List.not_mem_nil, or_false] at digit
    rcases digit with rfl | rfl | rfl | rfl <;> exact hexDigit_ne_quote _

section Search
variable {name : List UInt16}

theorem afterFirst_skip {front : List UInt16} (free : ∀ c ∈ front, c ≠ quote) (s : List UInt16) :
    afterFirst (nameToken name) (front ++ s) = afterFirst (nameToken name) s := by
  induction front with
  | nil => rfl
  | cons c front ih =>
    obtain ⟨other, free⟩ := List.forall_mem_cons.mp free
    have missed : (nameToken name).isPrefixOf (c :: (front ++ s)) = false := by
      rw [nameToken, List.isPrefixOf_cons_cons, beq_eq_false_iff_ne.mpr other.symm, Bool.false_and]
    rw [List.cons_append, afterFirst, missed]
    exact ih free

theorem afterFirst_quote (s : List UInt16) :
    afterFirst (nameToken name) (quote :: s) =
      if (name ++ [quote]).isPrefixOf s then some (s.drop (name.length + 1))
      else afterFirst (nameToken name) s := by
  rw [afterFirst, nameToken, List.isPrefixOf_cons_cons, beq_self_eq_true, Bool.true_and,
    List.length_cons, List.length_append, List.length_singleton, List.drop_succ_cons]

variable (letters : ∀ c ∈ name, isLetter c = true)
include letters

/-- Behind an opening quotation mark the name is only found as the whole string. -/
theorem isPrefixOf_items (items : List Item) (s : List UInt16) :
    (name ++ [quote]).isPrefixOf (itemUnits items ++ quote :: s) = (itemUnits items == name) := by
  have escape : quote ≠ backslash := by decide
  induction name generalizing items with
  | nil =>
    rw [List.nil_append]
    match items with
    | [] => rfl
    | .plain p :: items =>
      change (quote == p.unit && _) = (p.unit :: itemUnits items == [])
      rw [beq_eq_false_iff_ne.mpr p.plain.1.symm]
      rfl
    | .short escape :: items => rfl
    | .unicode quad :: items => rfl
  | cons c name ih =>
    obtain ⟨letter, letters⟩ := List.forall_mem_cons.mp letters
    have other {d : UInt16} (is : isLetter d = false) : (c == d) = false := by
      rw [beq_eq_false_iff_ne]
      rintro rfl
      exact absurd letter (by simp [is])
    match items with
    | [] =>
      change (c == quote && _) = false
      rw [other rfl]
      rfl
    | .plain p :: items =>
      change (c == p.unit && (name ++ [quote]).isPrefixOf (itemUnits items ++ quote :: s)) =
        (p.unit == c && itemUnits items == name)
      rw [ih letters, Bool.beq_comm]
    | .short escape :: items =>
      change (c == backslash && _) = (backslash == c && _)
      rw [other rfl, Bool.beq_comm, other rfl]
      rfl
    | .unicode quad :: items =>
      change (c == backslash && _) = (backslash == c && _)
      rw [other rfl, Bool.beq_comm, other rfl]
      rfl

theorem afterFirst_close {s : List UInt16} (cut : Cut s) :
    afterFirst (nameToken name) (quote :: s) = afterFirst (nameToken name) s := by
  have missed : (name ++ [quote]).isPrefixOf s = false := by
    match name, s with
    | [], [] => rfl
    | _ :: _, [] => rfl
    | [], c :: s =>
      rw [List.nil_append, List.isPrefixOf_cons_cons, beq_eq_false_iff_ne.mpr (cut c rfl).1.symm,
        Bool.false_and]
    | d :: name, c :: s =>
      have other : d ≠ c := by
        rintro rfl
        exact absurd (letters d List.mem_cons_self) (by rw [(cut d rfl).2]; decide)
      rw [List.cons_append, List.isPrefixOf_cons_cons, beq_eq_false_iff_ne.mpr other, Bool.false_and]
  rw [afterFirst_quote, missed]
  rfl

omit letters in
theorem isSuffixOf_skip {front : List UInt16} (free : ∀ c ∈ front, c ≠ quote) (s : List UInt16) :
    (quote :: name).isSuffixOf (front ++ s) = (quote :: name).isSuffixOf s := by
  induction front with
  | nil => rfl
  | cons c front ih =>
    obtain ⟨other, free⟩ := List.forall_mem_cons.mp free
    rw [← ih free, Bool.eq_iff_iff, List.isSuffixOf_iff_suffix, List.isSuffixOf_iff_suffix,
      List.cons_append, List.suffix_cons_iff]
    refine or_iff_right fun same => other ?_
    exact (List.cons.inj same).1.symm

omit letters in
theorem isSuffixOf_quote (s : List UInt16) :
    (quote :: name).isSuffixOf (quote :: s) = (s == name || (quote :: name).isSuffixOf s) := by
  rw [Bool.eq_iff_iff, Bool.or_eq_true, beq_iff_eq, List.isSuffixOf_iff_suffix,
    List.isSuffixOf_iff_suffix, List.suffix_cons_iff, List.cons.injEq]
  exact or_congr_left ⟨fun same => same.2.symm, fun same => ⟨rfl, same.symm⟩⟩

/-- Inside a string the name is only found at its end, behind an escaped quotation mark. -/
theorem afterFirst_items (items : List Item) {s : List UInt16} (cut : Cut s) :
    afterFirst (nameToken name) (itemUnits items ++ quote :: s) =
      if (quote :: name).isSuffixOf (itemUnits items) then some s
      else afterFirst (nameToken name) s := by
  induction items with
  | nil =>
    rw [itemUnits, List.flatMap_nil, List.nil_append, afterFirst_close letters cut,
      List.isSuffixOf_cons_nil]
    rfl
  | cons item items ih =>
    rw [itemUnits, List.flatMap_cons, List.append_assoc]
    change afterFirst _ (item.units ++ (itemUnits items ++ quote :: s)) =
      if (quote :: name).isSuffixOf (item.units ++ itemUnits items) then _ else _
    by_cases escaped : item = .short .quotation
    · subst escaped
      have solidus : ∀ c ∈ [backslash], c ≠ quote :=
        List.forall_mem_singleton.mpr backslash_ne_quote
      change afterFirst _ ([backslash] ++ quote :: (itemUnits items ++ quote :: s)) =
        if (quote :: name).isSuffixOf ([backslash] ++ quote :: itemUnits items) then _ else _
      rw [afterFirst_skip solidus, afterFirst_quote, isPrefixOf_items letters,
        isSuffixOf_skip solidus, isSuffixOf_quote, ih]
      cases whole : itemUnits items == name with
      | false => rfl
      | true =>
        rw [beq_iff_eq.mp whole]
        simp
    · rw [afterFirst_skip (Item.units_free escaped), isSuffixOf_skip (Item.units_free escaped), ih]

theorem afterFirst_string (spot : Spot) (cut : Cut spot.behind) :
    afterFirst (nameToken name) (quoted spot.items ++ spot.behind) =
      if spot.shows name then some spot.behind else afterFirst (nameToken name) spot.behind := by
  have written : quoted spot.items ++ spot.behind =
      quote :: (itemUnits spot.items ++ quote :: spot.behind) := by
    rw [quoted, List.cons_append, List.append_assoc, List.singleton_append]
  rw [written, afterFirst_quote, isPrefixOf_items letters,
    afterFirst_items letters spot.items cut, Spot.shows]
  cases whole : itemUnits spot.items == name with
  | false => rfl
  | true =>
    rw [beq_iff_eq.mp whole]
    simp

end Search

/-! ## The first occurrence in a text -/

theorem blank_free (ws : List Ws) : ∀ c ∈ blank ws, c ≠ quote := by
  intro c inside
  obtain ⟨w, _, rfl⟩ := List.mem_map.mp inside
  cases w <;> decide

theorem Word.units_free (word : Word) : ∀ c ∈ word.units, c ≠ quote := by
  rcases word with _ | _ | _ <;> simp [Word.units, quote]

theorem Number.units_free (number : Number) : ∀ c ∈ number.units, c ≠ quote := fun c inside =>
  (numberUnit_black (number.forall_numberUnit c inside)).2.2.1

/-- What the search finds in a part of a text: its first string that shows the name, or
else what it finds behind the part. -/
def found (name : List UInt16) (spots : List Spot) (s : List UInt16) : Option (List UInt16) :=
  ((spots.find? (Spot.shows name)).map Spot.behind).or (afterFirst (nameToken name) s)

section Found
variable {name : List UInt16}

theorem found_cons (spot : Spot) (spots : List Spot) (s : List UInt16) :
    found name (spot :: spots) s =
      if spot.shows name then some spot.behind else found name spots s := by
  unfold found
  rw [List.find?_cons]
  cases spot.shows name <;> rfl

theorem found_append (first second : List Spot) (s : List UInt16) :
    found name (first ++ second) s =
      ((first.find? (Spot.shows name)).map Spot.behind).or (found name second s) := by
  rw [found, List.find?_append, Option.map_or, Option.or_assoc]
  rfl

theorem afterFirst_free {front : List UInt16} (free : ∀ c ∈ front, c ≠ quote) (c : UInt16)
    (other : c ≠ quote) (s : List UInt16) :
    afterFirst (nameToken name) (front ++ c :: s) = afterFirst (nameToken name) s := by
  rw [afterFirst_skip free, ← List.singleton_append,
    afterFirst_skip (List.forall_mem_singleton.mpr other)]

theorem found_congr (spots : List Spot) {s t : List UInt16}
    (same : afterFirst (nameToken name) s = afterFirst (nameToken name) t) :
    found name spots s = found name spots t := by
  rw [found, same, found]

theorem found_chain (first : List Spot) {second : List Spot} {s t : List UInt16}
    (later : afterFirst (nameToken name) s = found name second t) :
    found name first s = found name (first ++ second) t := by
  rw [found_append, ← later]
  rfl

theorem afterFirst_name (letters : ∀ c ∈ name, isLetter c = true) (key : List Item)
    (beforeColon afterColon : List Ws) (tree : Tree) {spots : List Spot} {s t : List UInt16}
    (value : afterFirst (nameToken name) (tree.units ++ s) = found name spots t) :
    afterFirst (nameToken name)
        (quoted key ++ (blank beforeColon ++ colon :: (blank afterColon ++ (tree.units ++ s)))) =
      found name (.name key beforeColon afterColon tree s :: spots) t := by
  have cut : Cut (Spot.name key beforeColon afterColon tree s).behind :=
    cut_blank beforeColon (cut_cons (by decide) _)
  have stopped := afterFirst_string letters _ cut
  rw [Spot.items, Spot.behind] at stopped
  rw [found_cons, stopped, afterFirst_free (blank_free _) colon (by decide),
    afterFirst_skip (blank_free _), value]
  rfl

mutual

theorem afterFirst_tree (letters : ∀ c ∈ name, isLetter c = true) :
    ∀ (tree : Tree) (s : List UInt16), Cut s →
      afterFirst (nameToken name) (tree.units ++ s) = found name (tree.spots s) s
  | .word word, s, _ => afterFirst_skip word.units_free s
  | .number number, s, _ => afterFirst_skip number.units_free s
  | .string items, s, cut => by
    rw [Tree.spots, found_cons]
    exact afterFirst_string letters (.value items s) cut
  | .emptyArray ws, s, _ => by
    have free : ∀ c ∈ leftBracket :: blank ws, c ≠ quote :=
      List.forall_mem_cons.mpr ⟨leftBracket_ne_quote, blank_free ws⟩
    simpa [Tree.units, Tree.spots, found] using afterFirst_free free rightBracket (by decide) s
  | .array elements, s, _ => by
    have inner := afterFirst_elements letters elements (rightBracket :: s) (cut_cons (by decide) s)
    have opening : ∀ c ∈ [leftBracket], c ≠ quote :=
      List.forall_mem_singleton.mpr leftBracket_ne_quote
    have closing : ∀ c ∈ [rightBracket], c ≠ quote := List.forall_mem_singleton.mpr (by decide)
    have written : (Tree.array elements).units ++ s =
        [leftBracket] ++ (elements.units ++ rightBracket :: s) := by
      simp [Tree.units]
    rw [written, afterFirst_skip opening, inner]
    exact found_congr _ (afterFirst_skip closing s)
  | .emptyObject ws, s, _ => by
    have free : ∀ c ∈ leftBrace :: blank ws, c ≠ quote :=
      List.forall_mem_cons.mpr ⟨leftBrace_ne_quote, blank_free ws⟩
    simpa [Tree.units, Tree.spots, found] using afterFirst_free free rightBrace (by decide) s
  | .object members, s, _ => by
    have inner := afterFirst_members letters members (rightBrace :: s) (cut_cons (by decide) s)
    have opening : ∀ c ∈ [leftBrace], c ≠ quote :=
      List.forall_mem_singleton.mpr leftBrace_ne_quote
    have closing : ∀ c ∈ [rightBrace], c ≠ quote := List.forall_mem_singleton.mpr (by decide)
    have written : (Tree.object members).units ++ s =
        [leftBrace] ++ (members.units ++ rightBrace :: s) := by
      simp [Tree.units]
    rw [written, afterFirst_skip opening, inner]
    exact found_congr _ (afterFirst_skip closing s)

theorem afterFirst_elements (letters : ∀ c ∈ name, isLetter c = true) :
    ∀ (elements : Elements) (s : List UInt16), Cut s →
      afterFirst (nameToken name) (elements.units ++ s) = found name (elements.spots s) s
  | .last before value after, s, cut => by
    have inner := afterFirst_tree letters value (blank after ++ s) (cut_blank after cut)
    rw [Elements.units, List.append_assoc, List.append_assoc, afterFirst_skip (blank_free _), inner]
    exact found_congr _ (afterFirst_skip (blank_free after) s)
  | .more before value after others, s, cut => by
    have later := afterFirst_elements letters others s cut
    have inner := afterFirst_tree letters value (blank after ++ comma :: (others.units ++ s))
      (cut_blank after (cut_cons (by decide) _))
    rw [Elements.units, List.append_assoc, List.append_assoc, List.append_assoc, List.cons_append,
      afterFirst_skip (blank_free _), inner]
    exact found_chain _ ((afterFirst_free (blank_free after) comma (by decide) _).trans later)

theorem afterFirst_members (letters : ∀ c ∈ name, isLetter c = true) :
    ∀ (members : Members) (s : List UInt16), Cut s →
      afterFirst (nameToken name) (members.units ++ s) = found name (members.spots s) s
  | .last before key beforeColon afterColon value after, s, cut => by
    have inner := afterFirst_tree letters value (blank after ++ s) (cut_blank after cut)
    have passed := inner.trans (found_congr _ (afterFirst_skip (blank_free after) s))
    have named := afterFirst_name letters key beforeColon afterColon value passed
    simpa [Members.units, Members.spots, afterFirst_skip (blank_free before)] using named
  | .more before key beforeColon afterColon value after others, s, cut => by
    have later := afterFirst_members letters others s cut
    have inner := afterFirst_tree letters value (blank after ++ comma :: (others.units ++ s))
      (cut_blank after (cut_cons (by decide) _))
    have passed := inner.trans (found_chain _
      ((afterFirst_free (blank_free after) comma (by decide) _).trans later))
    have named := afterFirst_name letters key beforeColon afterColon value passed
    simpa [Members.units, Members.spots, afterFirst_skip (blank_free before)] using named

end

/-- Through a whole text the search stops at the first string that shows the name. -/
theorem afterFirst_text (letters : ∀ c ∈ name, isLetter c = true) (text : Text) :
    afterFirst (nameToken name) text.units =
      (text.spots.find? (Spot.shows name)).map Spot.behind := by
  have nothing : afterFirst (nameToken name) (blank text.after) = none := by
    rw [← List.append_nil (blank text.after), afterFirst_skip (blank_free _)]
    rfl
  have cut : Cut (blank text.after) := by
    rw [← List.append_nil (blank text.after)]
    exact cut_blank _ cut_nil
  rw [Text.units, List.append_assoc, afterFirst_skip (blank_free _), afterFirst_tree letters _ _ cut,
    found, nothing, Option.or_none, Text.spots]

end Found

end Json
