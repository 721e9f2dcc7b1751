import Dot1xCP.Lib.Residue

/-! A growable array whose capacity was reserved.

An array that is full is replaced by a larger one, and the old array is given back with
what it held. Where the capacity covers everything that is written later, no array is
replaced, and so none is given back with the new contents.
-/

set_option autoImplicit false

namespace Reserved
open Residue (Str)

variable {α : Type}

/-- Where arrays come from: one with room for so many values and the terminator, whatever
lies in it. -/
structure Allocator (α : Type) where
  array : Nat → List α
  enough (n : Nat) : n < (array n).length

/-- A growable array, and the arrays it has given back. -/
structure Vector {α : Type} (nul : α) where
  str : Str nul
  given : List (List α)
  deriving DecidableEq, Repr

namespace Vector

variable {nul : α}

def contents (v : Vector nul) : List α := v.str.contents

/-- The room for values; the terminator has a place of its own. -/
def capacity (v : Vector nul) : Nat := v.contents.length + v.str.behind.length

def clear (v : Vector nul) : Vector nul := { v with str := v.str.clear }

def move (v : Vector nul) (array : List α) : Vector nul where
  str := ⟨v.contents, array.drop (v.contents.length + 1)⟩
  given := v.given ++ [v.str.storage]

section Growth
variable (allocator : Allocator α)

def reserve (v : Vector nul) (n : Nat) : Vector nul :=
  if n ≤ v.capacity then v else v.move (allocator.array n)

def push (v : Vector nul) (value : α) : Vector nul :=
  let v := v.reserve allocator (v.contents.length + 1)
  { v with str := v.str.append [value] }

def pushAll (v : Vector nul) (values : List α) : Vector nul := values.foldl (push allocator) v

end Growth

@[simp] theorem contents_clear (v : Vector nul) : v.clear.contents = [] := rfl

@[simp] theorem capacity_clear (v : Vector nul) : v.clear.capacity = v.capacity := by
  simp only [capacity, contents, clear, Str.clear, Str.storage, List.length_nil, List.length_tail,
    List.length_append, List.length_cons]
  omega

section Growth
variable {allocator : Allocator α}

@[simp] theorem contents_reserve (v : Vector nul) (n : Nat) :
    (v.reserve allocator n).contents = v.contents := by
  unfold reserve
  split <;> rfl

theorem capacity_reserve (v : Vector nul) (n : Nat) : n ≤ (v.reserve allocator n).capacity := by
  unfold reserve
  split
  · assumption
  · have enough := allocator.enough n
    simp only [capacity, contents, move, List.length_drop]
    omega

theorem given_reserve (v : Vector nul) (n : Nat) :
    (v.reserve allocator n).given =
      if n ≤ v.capacity then v.given else v.given ++ [v.str.storage] := by
  unfold reserve
  split <;> rfl

theorem reserve_of_le {v : Vector nul} {n : Nat} (room : n ≤ v.capacity) :
    v.reserve allocator n = v := if_pos room

theorem push_of_room {v : Vector nul} (room : v.contents.length < v.capacity) (value : α) :
    v.push allocator value = { v with str := v.str.append [value] } := by
  rw [push, reserve_of_le room]

theorem capacity_append {v : Vector nul} {values : List α}
    (room : v.contents.length + values.length ≤ v.capacity) :
    { v with str := v.str.append values }.capacity = v.capacity := by
  simp only [capacity, contents, Str.append, List.length_append, List.length_drop] at room ⊢
  omega

/-- Within the capacity any number of values is one append to the same array. -/
theorem pushAll_of_room {v : Vector nul} {values : List α}
    (room : v.contents.length + values.length ≤ v.capacity) :
    v.pushAll allocator values = { v with str := v.str.append values } := by
  induction values generalizing v with
  | nil => rw [pushAll, List.foldl_nil, Str.append_nil]
  | cons value rest ih =>
    rw [List.length_cons] at room
    have one : v.contents.length + [value].length ≤ v.capacity := by
      rw [List.length_singleton]
      omega
    have fits : { v with str := v.str.append [value] }.contents.length + rest.length ≤
        { v with str := v.str.append [value] }.capacity := by
      rw [capacity_append one]
      simp only [contents, Str.contents_append, List.length_append, List.length_singleton] at room ⊢
      omega
    rw [pushAll, List.foldl_cons, push_of_room (by omega), ← pushAll, ih fits, Str.append_append]
    rfl

end Growth

end Vector

end Reserved
