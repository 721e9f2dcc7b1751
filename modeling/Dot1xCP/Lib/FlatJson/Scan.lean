import Dot1xCP.Lib.FlatJson

/-! Where a byte of an object stands: before the brace, outside or inside a string, or
behind the backslash of an escape.

A part at the end of an object is not itself an object: it begins inside a string, and then
what is a string in one is none in the other, up to the last byte.
-/

set_option autoImplicit false

namespace FlatJson

inductive Place where
  | before
  | outside
  | inside
  | escaped
  deriving DecidableEq, Repr

def isBlank (c : UInt8) : Bool := c == 0x20 || c == 0x09 || c == 0x0A || c == 0x0D

theorem isBlank_iff {c : UInt8} : isBlank c = true ↔ ∃ w : Ws, w.byte = c := by
  simp only [isBlank, Bool.or_eq_true, beq_iff_eq]
  constructor
  · rintro (((rfl | rfl) | rfl) | rfl)
    exacts [⟨.space, rfl⟩, ⟨.tab, rfl⟩, ⟨.lf, rfl⟩, ⟨.cr, rfl⟩]
  · rintro ⟨w, rfl⟩
    cases w <;> simp [Ws.byte]

/-- The place of the next byte; none where no object has the byte at the place. -/
def Place.next (place : Place) (c : UInt8) : Option Place :=
  match place with
  | .before => if c = leftBrace then some .outside else if isBlank c then some .before else none
  | .outside =>
    if c = leftBrace ∨ c = backslash then none
    else if c = doubleQuote then some .inside
    else some .outside
  | .inside =>
    if c = doubleQuote then some .outside else if c = backslash then some .escaped else some .inside
  | .escaped => if c = leftBrace ∨ isBlank c then none else some .inside

def scan (place : Place) (s : List UInt8) : Option Place := s.foldlM Place.next place

section Scan
variable {place : Place} {c : UInt8} {s t : List UInt8}

@[simp] theorem scan_nil : scan place [] = some place := rfl

theorem scan_cons : scan place (c :: s) = (place.next c).bind fun next => scan next s :=
  List.foldlM_cons

theorem scan_append : scan place (s ++ t) = (scan place s).bind fun next => scan next t :=
  List.foldlM_append

theorem scan_blank (ws : List Ws) (stays : ∀ w : Ws, place.next w.byte = some place) :
    scan place (blank ws) = some place := by
  induction ws with
  | nil => rfl
  | cons w ws ih =>
    rw [blank_cons, scan_cons, stays w]
    exact ih

/-! ## Ends of an object -/

theorem Place.next_ne_before {next : Place} (left : place ≠ .before)
    (moved : place.next c = some next) : next ≠ .before := by
  unfold Place.next at moved
  split at moved
  next => exact absurd rfl left
  all_goals
    split_ifs at moved <;> cases moved <;> decide

theorem scan_ne_before (left : place ≠ .before) : scan place s ≠ some .before := by
  induction s generalizing place with
  | nil => simpa using left
  | cons c s ih =>
    rw [scan_cons]
    cases moved : place.next c with
    | none => simp
    | some next => exact ih (Place.next_ne_before left moved)

theorem blank_of_scan (scanned : scan .before s = some .before) : ∃ ws, s = blank ws := by
  induction s with
  | nil => exact ⟨[], rfl⟩
  | cons c s ih =>
    rw [scan_cons, Place.next] at scanned
    split_ifs at scanned with brace space
    · exact absurd scanned (scan_ne_before (by decide))
    · obtain ⟨w, rfl⟩ := isBlank_iff.mp space
      obtain ⟨ws, rfl⟩ := ih scanned
      exact ⟨w :: ws, rfl⟩
    · cases scanned

theorem next_outside_blank (space : isBlank c = true) : Place.outside.next c = some .outside := by
  obtain ⟨w, rfl⟩ := isBlank_iff.mp space
  cases w <;> rfl

theorem next_inside_blank (space : isBlank c = true) : Place.inside.next c = some .inside := by
  obtain ⟨w, rfl⟩ := isBlank_iff.mp space
  cases w <;> rfl

/-- There is one brace outside of the strings. -/
theorem scan_outside (object : scan .before s = some .outside) : scan .outside s = none := by
  induction s with
  | nil => cases object
  | cons c s ih =>
    rw [scan_cons, Place.next] at object
    split_ifs at object with brace space
    · rw [scan_cons, Place.next, if_pos (Or.inl brace)]
      rfl
    · rw [scan_cons, next_outside_blank space]
      exact ih object
    · cases object

/-- A text that ends outside of a string if it begins outside of one ends inside if it begins
inside: a quotation mark changes the place in both, and a backslash outside is in neither. -/
theorem scan_opposed (balanced : scan .outside s = some .outside) :
    scan .inside s ≠ some .outside := by
  intro opposed
  induction s with
  | nil => cases opposed
  | cons c s ih =>
    rw [scan_cons, Place.next] at balanced
    rw [scan_cons, Place.next] at opposed
    split_ifs at balanced with none quote
    · cases balanced
    · rw [if_pos quote] at opposed
      exact ih opposed balanced
    · rw [if_neg quote, if_neg (not_or.mp none).2] at opposed
      exact ih balanced opposed

theorem scan_inside (object : scan .before s = some .outside) : scan .inside s ≠ some .outside := by
  induction s with
  | nil => cases object
  | cons c s ih =>
    rw [scan_cons, Place.next] at object
    split_ifs at object with brace space
    · rw [scan_cons, Place.next, brace]
      exact scan_opposed object
    · rw [scan_cons, next_inside_blank space]
      exact ih object
    · cases object

theorem scan_escaped (object : scan .before s = some .outside) : scan .escaped s = none := by
  cases s with
  | nil => cases object
  | cons c s =>
    rw [scan_cons, Place.next] at object
    split_ifs at object with brace space
    · rw [scan_cons, Place.next, if_pos (Or.inl brace)]
      rfl
    · rw [scan_cons, Place.next, if_pos (Or.inr space)]
      rfl
    · cases object

/-- Only blanks may be cut off the front of an object so that an object is left. -/
theorem blank_of_objects (whole : scan .before (s ++ t) = some .outside)
    (rest : scan .before t = some .outside) : ∃ ws, s = blank ws := by
  rw [scan_append] at whole
  cases cut : scan .before s with
  | none =>
    rw [cut] at whole
    cases whole
  | some place =>
    rw [cut, Option.bind_some] at whole
    cases place with
    | before => exact blank_of_scan cut
    | outside => cases (scan_outside rest).symm.trans whole
    | inside => exact absurd whole (scan_inside rest)
    | escaped => cases (scan_escaped rest).symm.trans whole

end Scan

section Written
variable {α : Type} [Literal α]

theorem scan_plain {s : List UInt8} (plain : ∀ c ∈ s, c ≠ doubleQuote ∧ c ≠ backslash) :
    scan .inside s = some .inside := by
  induction s with
  | nil => rfl
  | cons c s ih =>
    obtain ⟨quote, solidus⟩ := plain c List.mem_cons_self
    rw [scan_cons, Place.next, if_neg quote, if_neg solidus]
    exact ih fun other inside => plain other (List.mem_cons_of_mem c inside)

theorem scan_item (item : Item α) : scan .inside item.bytes = some .inside := by
  cases item with
  | literal a => exact scan_plain (Literal.plain a)
  | short escape => cases escape <;> rfl
  | unicode quad =>
    change scan .inside quad.bytes = some .inside
    refine scan_plain fun c written => ?_
    simp only [HexQuad.bytes, List.mem_cons, List.not_mem_nil, or_false] at written
    rcases written with rfl | rfl | rfl | rfl <;> exact HexDigit.byte_plain _

theorem scan_items (items : List (Item α)) : scan .inside (itemBytes items) = some .inside := by
  induction items with
  | nil => rfl
  | cons item items ih => rw [itemBytes_cons, scan_append, scan_item, Option.bind_some, ih]

theorem scan_quoted (items : List (Item α)) : scan .outside (quoted items) = some .outside := by
  rw [quoted, scan_cons]
  change scan .inside (itemBytes items ++ [doubleQuote]) = some .outside
  rw [scan_append, scan_items]
  rfl

theorem scan_outside_blank (ws : List Ws) : scan .outside (blank ws) = some .outside :=
  scan_blank ws fun w => next_outside_blank (isBlank_iff.mpr ⟨w, rfl⟩)

theorem scan_member (member : Member α) : scan .outside member.bytes = some .outside := by
  have colons : Place.outside.next colon = some .outside := rfl
  simp only [Member.bytes, scan_append, scan_cons, scan_outside_blank, scan_quoted, colons,
    Option.bind_some]

end Written

end FlatJson
