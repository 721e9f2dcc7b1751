import Mathlib.Tactic.Common

/-! Objects that count the references to them.

An object is created with one reference and deleted by the release that brings its count
to zero. The count is a machine word, which wraps. An object is named by its place in the
order of creation; a deleted one leaves its place empty.
-/

set_option autoImplicit false

namespace RefCount

structure Counted (width : Nat) (Value : Type) where
  ref : BitVec width
  value : Value
  deriving DecidableEq, Repr

structure Table (width : Nat) (Value : Type) where
  objects : List (Option (Counted width Value))
  deriving DecidableEq, Repr

namespace Table
variable {width : Nat} {Value : Type}

def empty : Table width Value := ⟨[]⟩

def find (t : Table width Value) (i : Nat) : Option (Counted width Value) := t.objects[i]?.join

def next (t : Table width Value) : Nat := t.objects.length

def create (t : Table width Value) (value : Value) : Table width Value :=
  ⟨t.objects ++ [some ⟨1, value⟩]⟩

def put (t : Table width Value) (i : Nat) (object : Option (Counted width Value)) :
    Table width Value :=
  ⟨t.objects.set i object⟩

def addRef (t : Table width Value) (i : Nat) : Table width Value :=
  match t.find i with
  | none => t
  | some object => t.put i (some { object with ref := object.ref + 1 })

def release (t : Table width Value) (i : Nat) : Table width Value :=
  match t.find i with
  | none => t
  | some object =>
    let ref := object.ref - 1
    t.put i (if ref = 0 then none else some { object with ref := ref })

def assign (t : Table width Value) (i : Nat) (value : Value) : Table width Value :=
  match t.find i with
  | none => t
  | some object => t.put i (some { object with value := value })

/-- How many objects there are that have not been deleted. -/
def live (t : Table width Value) : Nat := t.objects.countP Option.isSome

theorem find_eq_some {t : Table width Value} {i : Nat} {object : Counted width Value} :
    t.find i = some object ↔ ∃ h : i < t.objects.length, t.objects[i] = some object := by
  rw [find, Option.join_eq_some_iff, List.getElem?_eq_some_iff]

theorem live_pos {t : Table width Value} {i : Nat} {object : Counted width Value}
    (found : t.find i = some object) : 0 < t.live := by
  obtain ⟨inside, same⟩ := find_eq_some.mp found
  apply List.countP_pos_iff.mpr
  refine ⟨some object, ?_, rfl⟩
  rw [← same]
  exact List.getElem_mem inside

theorem live_create (t : Table width Value) (value : Value) :
    (t.create value).live = t.live + 1 := by
  rw [live, create, List.countP_append]
  rfl

theorem find_create (t : Table width Value) (value : Value) :
    (t.create value).find t.next = some ⟨1, value⟩ := by
  rw [find, create, next, List.getElem?_concat_length, Option.join_some]

section Put
variable {t : Table width Value} {i : Nat} {object : Counted width Value}

theorem live_put (found : t.find i = some object) (other : Option (Counted width Value)) :
    (t.put i other).live + 1 = t.live + other.isSome.toNat := by
  obtain ⟨inside, same⟩ := find_eq_some.mp found
  have positive : 0 < t.live := live_pos found
  have counted : (t.put i other).live = t.live - 1 + other.isSome.toNat := by
    rw [live, put, List.countP_set inside, same, if_pos Option.isSome_some]
    cases other <;> rfl
  omega

theorem find_put (found : t.find i = some object) (other : Option (Counted width Value)) :
    (t.put i other).find i = other := by
  obtain ⟨inside, _⟩ := find_eq_some.mp found
  rw [find, put, List.getElem?_set_self inside, Option.join_some]

theorem find_addRef (found : t.find i = some object) :
    (t.addRef i).find i = some { object with ref := object.ref + 1 } := by
  unfold addRef
  rw [found]
  exact find_put found _

theorem live_addRef (t : Table width Value) (i : Nat) : (t.addRef i).live = t.live := by
  unfold addRef
  cases found : t.find i with
  | none => rfl
  | some object => exact Nat.succ.inj (live_put found _)

theorem live_release_last (found : t.find i = some object) (last : object.ref = 1) :
    (t.release i).live + 1 = t.live := by
  have zero : object.ref - 1 = 0 := by rw [last, BitVec.sub_self]; rfl
  unfold release
  rw [found]
  dsimp only
  rw [if_pos zero]
  exact live_put found none

theorem live_release_other (found : t.find i = some object) (other : object.ref ≠ 1) :
    (t.release i).live = t.live := by
  have more : object.ref - 1 ≠ 0 := by
    intro zero
    exact other ((BitVec.sub_eq_iff_eq_add.mp zero).trans (BitVec.zero_add 1))
  unfold release
  rw [found]
  dsimp only
  rw [if_neg more]
  exact Nat.succ.inj (live_put found _)

end Put

end Table

end RefCount
