import Mathlib.Data.Set.Function
import Mathlib.Tactic.Common

/-! Changes of a store that stay within a region, and their sequences.

What such a change does inside its region depends on that region alone, and outside it does
nothing. A sequence of changes whose regions do not meet acts on each region as the one
change that belongs there.
-/

set_option autoImplicit false

namespace Footprint

variable {Address Value Entry : Type}

structure Within (region : Set Address) (change : (Address → Value) → Address → Value) : Prop where
  frame : ∀ store, Set.EqOn (change store) store regionᶜ
  reads : ∀ {first second}, Set.EqOn first second region →
    Set.EqOn (change first) (change second) region

namespace Within
variable {region larger : Set Address} {change later : (Address → Value) → Address → Value}

protected theorem id (region : Set Address) : Within region fun store : Address → Value => store where
  frame _ _ _ := rfl
  reads same := same

theorem comp (laterWithin : Within region later) (within : Within region change) :
    Within region fun store => later (change store) where
  frame store := (laterWithin.frame _).trans (within.frame store)
  reads same := laterWithin.reads (within.reads same)

theorem mono (within : Within region change) (included : region ⊆ larger) : Within larger change where
  frame store := (within.frame store).mono (Set.compl_subset_compl.mpr included)
  reads := by
    intro first second same address inside
    by_cases owned : address ∈ region
    · exact within.reads (same.mono included) owned
    · rw [within.frame first owned, within.frame second owned]
      exact same inside

/-- Which change is made may depend on what the region holds. -/
theorem choose {Choice : Type} (pick : (Address → Value) → Choice)
    (picked : ∀ {first second}, Set.EqOn first second region → pick first = pick second)
    (branches : ∀ choice, ∃ branch, Within region branch ∧
      ∀ store, pick store = choice → change store = branch store) :
    Within region change where
  frame store := by
    obtain ⟨branch, within, taken⟩ := branches (pick store)
    rw [taken store rfl]
    exact within.frame store
  reads := by
    intro first second same
    obtain ⟨branch, within, taken⟩ := branches (pick second)
    rw [taken first (picked same), taken second rfl]
    exact within.reads same

end Within

def Apart (first second : Set Address) : Prop := ∀ address ∈ first, address ∉ second

theorem Apart.symm {first second : Set Address} (apart : Apart first second) : Apart second first :=
  fun address inside outside => apart address outside inside

/-! ## Sequences of changes -/

variable (change : Entry → (Address → Value) → Address → Value)

def sweep (entries : List Entry) (store : Address → Value) : Address → Value :=
  entries.foldl (fun store entry => change entry store) store

@[simp] theorem sweep_cons (entry : Entry) (entries : List Entry) (store : Address → Value) :
    sweep change (entry :: entries) store = sweep change entries (change entry store) := rfl

variable {change} {region : Entry → Set Address} (within : ∀ entry, Within (region entry) (change entry))
include within

theorem sweep_frame (entries : List Entry) (store : Address → Value) {address : Address}
    (outside : ∀ entry ∈ entries, address ∉ region entry) :
    sweep change entries store address = store address := by
  induction entries generalizing store with
  | nil => rfl
  | cons entry entries ih =>
    rw [sweep_cons, ih _ fun other inside => outside other (List.mem_cons_of_mem _ inside)]
    exact (within entry).frame store (outside entry List.mem_cons_self)

/-- Each region is changed as by its own entry, whatever the others do before and after. -/
theorem sweep_at {entries : List Entry}
    (apart : entries.Pairwise fun entry other => Apart (region entry) (region other))
    (store : Address → Value) {entry : Entry} (listed : entry ∈ entries) :
    Set.EqOn (sweep change entries store) (change entry store) (region entry) := by
  induction entries generalizing store with
  | nil => cases listed
  | cons head entries ih =>
    obtain ⟨headApart, restApart⟩ := List.pairwise_cons.mp apart
    rw [sweep_cons]
    rcases List.mem_cons.mp listed with rfl | listed
    · intro address inside
      exact sweep_frame within entries _ fun other member =>
        headApart other member address inside
    · have untouched : Set.EqOn (change head store) store (region entry) := fun address inside =>
        (within head).frame store ((headApart entry listed).symm address inside)
      exact (ih restApart _ listed).trans ((within entry).reads untouched)

end Footprint
