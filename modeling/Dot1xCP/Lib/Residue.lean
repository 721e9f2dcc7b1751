import Mathlib.Data.List.Basic
import Mathlib.Tactic.Common

/-! What stays in memory that is written again and again from its start.

A string keeps the storage behind its terminator: making it shorter leaves the old values
there, and a shorter text leaves the rest of a longer one. Overwriting with zeros is one
more text.
-/

set_option autoImplicit false

namespace Residue

variable {α : Type}

def overlay (storage text : List α) : List α := text ++ storage.drop text.length

theorem overlay_getElem? (storage text : List α) (i : Nat) :
    (overlay storage text)[i]? = if i < text.length then text[i]? else storage[i]? := by
  unfold overlay
  split
  next short => rw [List.getElem?_append_left short]
  next long =>
    have behind : text.length ≤ i := Nat.le_of_not_lt long
    rw [List.getElem?_append_right behind, List.getElem?_drop, Nat.add_sub_cancel' behind]

theorem overlay_first (storage : List α) (first : α) {text : List α} (filled : text ≠ []) :
    overlay (overlay storage text) [first] = overlay storage (first :: text.tail) := by
  cases text with
  | nil => exact absurd rfl filled
  | cons => rfl

/-- A string in its array: the contents, the terminator, and what lies behind it. -/
structure Str {α : Type} (nul : α) where
  contents : List α
  behind : List α
  deriving DecidableEq, Repr

namespace Str

variable {nul : α}

def empty : Str nul := ⟨[], []⟩

def storage (s : Str nul) : List α := s.contents ++ nul :: s.behind

def size (s : Str nul) : Nat := s.contents.length

def clear (s : Str nul) : Str nul := ⟨[], s.storage.tail⟩

/-- The first value takes the place of the terminator, which moves behind the last. -/
def append (s : Str nul) (chunk : List α) : Str nul :=
  ⟨s.contents ++ chunk, s.behind.drop chunk.length⟩

/-- The contents are overwritten and then given up. -/
def wipe (s : Str nul) : Str nul := clear ⟨List.replicate s.size nul, s.behind⟩

@[simp] theorem contents_append (s : Str nul) (chunk : List α) :
    (s.append chunk).contents = s.contents ++ chunk := rfl

@[simp] theorem size_append (s : Str nul) (chunk : List α) :
    (s.append chunk).size = s.size + chunk.length := List.length_append

@[simp] theorem size_clear (s : Str nul) : s.clear.size = 0 := rfl

@[simp] theorem append_nil (s : Str nul) : s.append [] = s := by
  simp [append]

theorem append_append (s : Str nul) (first second : List α) :
    (s.append first).append second = s.append (first ++ second) := by
  simp [append]

theorem storage_clear (s : Str nul) : s.clear.storage = overlay s.storage [nul] := by
  rw [clear, storage, overlay, List.nil_append, List.length_singleton, List.drop_one]
  rfl

theorem storage_written (s : Str nul) (text : List α) :
    (s.clear.append text).storage = overlay s.storage (text ++ [nul]) := by
  simp [clear, append, storage, overlay, List.drop_tail]

theorem storage_wipe (s : Str nul) :
    s.wipe.storage = overlay s.storage (List.replicate (s.size + 1) nul) := by
  have zeros : List.replicate s.size nul ++ nul :: s.behind =
      List.replicate (s.size + 1) nul ++ s.behind := by
    rw [List.replicate_succ', List.append_assoc, List.singleton_append]
  rw [wipe, storage_clear, storage, zeros, List.replicate_succ]
  simp [storage, overlay, size]

end Str

section Covered
variable (zero : α)

/-- Every value of a text, unless it is zero, lies where a later text is written. -/
def Covered : List (List α) → Prop
  | [] => True
  | text :: later =>
    (∀ (i : Nat) value, text[i]? = some value → value ≠ zero → ∃ next ∈ later, i < next.length) ∧
      Covered later

/-- Storage that was zero is zero again exactly after covered texts. -/
theorem zero_iff_covered (texts : List (List α)) (storage : List α) :
    (∀ (i : Nat) value, (texts.foldl overlay storage)[i]? = some value → value = zero) ↔
      (∀ (i : Nat) value, storage[i]? = some value → value ≠ zero → ∃ next ∈ texts, i < next.length) ∧
        Covered zero texts := by
  induction texts generalizing storage with
  | nil =>
    simp only [List.foldl_nil, Covered, and_true, List.not_mem_nil, false_and, exists_const]
    exact forall_congr' fun i => forall_congr' fun value => forall_congr' fun _ => by
      rw [ne_eq, imp_false, not_not]
  | cons text later ih =>
    rw [List.foldl_cons, ih, Covered, ← and_assoc]
    refine and_congr_left fun _ => ?_
    -- An offset holds the text's value where the text reaches, and the old one elsewhere.
    constructor
    · intro covered
      refine ⟨fun i value found nonzero => ?_, fun i value found nonzero => ?_⟩
      · by_cases reached : i < text.length
        · exact ⟨text, List.mem_cons_self, reached⟩
        · obtain ⟨next, inside, long⟩ :=
            covered i value (by rw [overlay_getElem?, if_neg reached, found]) nonzero
          exact ⟨next, List.mem_cons_of_mem _ inside, long⟩
      · have reached : i < text.length := (List.getElem?_eq_some_iff.mp found).1
        exact covered i value (by rw [overlay_getElem?, if_pos reached, found]) nonzero
    · rintro ⟨old, own⟩ i value found nonzero
      rw [overlay_getElem?] at found
      split at found
      next => exact own i value found nonzero
      next long =>
        obtain ⟨next, inside, reaches⟩ := old i value found nonzero
        rcases List.mem_cons.mp inside with rfl | inside
        · exact absurd reaches long
        · exact ⟨next, inside, reaches⟩

theorem foldl_overlay_zero_iff {storage : List α} (clean : ∀ value ∈ storage, value = zero)
    (texts : List (List α)) :
    (∀ value ∈ texts.foldl overlay storage, value = zero) ↔ Covered zero texts := by
  have indexed := zero_iff_covered zero texts storage
  have old : ∀ (i : Nat) value, storage[i]? = some value → value ≠ zero →
      ∃ next ∈ texts, i < next.length := fun i value found nonzero =>
    absurd (clean value (List.mem_of_getElem? found)) nonzero
  rw [iff_true_intro old, true_and] at indexed
  rw [← indexed]
  exact ⟨fun all i value found => all value (List.mem_of_getElem? found), fun all value inside => by
    obtain ⟨i, found⟩ := List.getElem?_of_mem inside
    exact all i value found⟩

end Covered

end Residue
