import Mathlib.Data.List.Nodup
import Mathlib.Data.List.Pairwise
import Mathlib.Data.List.Perm.Basic
import Mathlib.Tactic.Common

/-! Accounts of resources along a trace of effects.

A trace lists effects, newest first. An effect may hand out resources, which are
numbers never used before, or take some back. The account balances when what was
handed out is, without repetition, what is held together with what was taken back.
-/

set_option autoImplicit false

namespace Ledger

/-- Every effect stands in the relation to what came before it. -/
def Always {Effect : Type} (P : Effect → List Effect → Prop) : List Effect → Prop
  | [] => True
  | effect :: earlier => P effect earlier ∧ Always P earlier

theorem Always.split {Effect : Type} {P : Effect → List Effect → Prop} {later earlier : List Effect}
    {effect : Effect} (always : Always P (later ++ effect :: earlier)) : P effect earlier := by
  induction later with
  | nil => exact always.1
  | cons head later ih => exact ih always.2

section Account
variable {Effect : Type} (acquires releases : Effect → List Nat)

structure Balanced (held : List Nat) (next : Nat) (trace : List Effect) : Prop where
  perm : (trace.flatMap acquires).Perm (held ++ trace.flatMap releases)
  nodup : (trace.flatMap acquires).Nodup
  bound : ∀ r ∈ trace.flatMap acquires, r < next

variable {acquires releases} {held : List Nat} {next : Nat} {trace : List Effect}

theorem balanced_nil (next : Nat) : Balanced acquires releases [] next [] where
  perm := List.Perm.refl []
  nodup := List.nodup_nil
  bound := by simp

theorem Balanced.reorder {held' : List Nat} (balanced : Balanced acquires releases held next trace)
    (same : held.Perm held') : Balanced acquires releases held' next trace where
  perm := balanced.perm.trans (same.append_right _)
  nodup := balanced.nodup
  bound := balanced.bound

theorem Balanced.quiet {effect : Effect} (balanced : Balanced acquires releases held next trace)
    (acquired : acquires effect = []) (released : releases effect = []) :
    Balanced acquires releases held next (effect :: trace) where
  perm := by
    rw [List.flatMap_cons, List.flatMap_cons, acquired, released]
    exact balanced.perm
  nodup := by
    rw [List.flatMap_cons, acquired]
    exact balanced.nodup
  bound := by
    rw [List.flatMap_cons, acquired]
    exact balanced.bound

theorem Balanced.acquire {effect : Effect} {fresh : List Nat} {next' : Nat}
    (balanced : Balanced acquires releases held next trace) (acquired : acquires effect = fresh)
    (released : releases effect = []) (distinct : fresh.Nodup)
    (new : ∀ r ∈ fresh, next ≤ r ∧ r < next') (grows : next ≤ next') :
    Balanced acquires releases (fresh ++ held) next' (effect :: trace) where
  perm := by
    rw [List.flatMap_cons, List.flatMap_cons, acquired, released, List.append_assoc]
    exact balanced.perm.append_left fresh
  nodup := by
    rw [List.flatMap_cons, acquired, List.nodup_append']
    refine ⟨distinct, balanced.nodup, ?_⟩
    intro r inside before
    have low := (new r inside).1
    have high := balanced.bound r before
    omega
  bound := by
    intro r inside
    rw [List.flatMap_cons, acquired, List.mem_append] at inside
    rcases inside with inside | before
    · exact (new r inside).2
    · exact Nat.lt_of_lt_of_le (balanced.bound r before) grows

theorem Balanced.release {effect : Effect} {r : Nat}
    (balanced : Balanced acquires releases (r :: held) next trace) (acquired : acquires effect = [])
    (released : releases effect = [r]) :
    Balanced acquires releases held next (effect :: trace) where
  perm := by
    rw [List.flatMap_cons, List.flatMap_cons, acquired, released]
    exact balanced.perm.trans List.perm_middle.symm
  nodup := by
    rw [List.flatMap_cons, acquired]
    exact balanced.nodup
  bound := by
    rw [List.flatMap_cons, acquired]
    exact balanced.bound

/-- Every resource handed out is in exactly one place, once. -/
theorem Balanced.count_eq_one (balanced : Balanced acquires releases held next trace) {r : Nat}
    (acquired : r ∈ trace.flatMap acquires) :
    held.count r + (trace.flatMap releases).count r = 1 := by
  rw [← List.count_append, ← balanced.perm.count_eq, List.count_eq_one_of_mem balanced.nodup acquired]

theorem Balanced.mem_acquired (balanced : Balanced acquires releases held next trace) {r : Nat}
    (inside : r ∈ held ∨ r ∈ trace.flatMap releases) : r ∈ trace.flatMap acquires :=
  balanced.perm.mem_iff.mpr (List.mem_append.mpr inside)

/-- Only one effect of the trace hands out a given resource. -/
theorem Balanced.unique {first second : Effect} {r : Nat}
    (balanced : Balanced acquires releases held next trace) (inFirst : first ∈ trace)
    (inSecond : second ∈ trace) (byFirst : r ∈ acquires first) (bySecond : r ∈ acquires second) :
    first = second := by
  have apart := (List.nodup_flatMap.mp balanced.nodup).2
  have symmetric : Std.Symm (Function.onFun List.Disjoint acquires) :=
    ⟨fun _ _ disjoint => List.disjoint_symm disjoint⟩
  by_contra different
  exact apart.forall inFirst inSecond different byFirst bySecond

end Account

/-! ## References -/

section Count
variable {Effect : Type} (takes gives : Effect → List Nat)

/-- References are counted where resources are unique: the ones taken are those given
back and those held, and none is given back before it was taken. -/
structure Counted (held : List Nat) (trace : List Effect) : Prop where
  perm : (trace.flatMap takes).Perm (held ++ trace.flatMap gives)
  owed : Always (fun effect earlier => ∀ r, ((effect :: earlier).flatMap gives).count r ≤
    (earlier.flatMap takes).count r) trace

variable {takes gives} {held : List Nat} {trace : List Effect}

theorem counted_nil : Counted takes gives [] [] := ⟨List.Perm.refl [], trivial⟩

theorem Counted.reorder {held' : List Nat} (counted : Counted takes gives held trace)
    (same : held.Perm held') : Counted takes gives held' trace :=
  ⟨counted.perm.trans (same.append_right _), counted.owed⟩

theorem Counted.count_eq (counted : Counted takes gives held trace) (r : Nat) :
    (trace.flatMap takes).count r = held.count r + (trace.flatMap gives).count r := by
  rw [counted.perm.count_eq, List.count_append]

theorem Counted.cons (effect : Effect) {left : List Nat}
    (counted : Counted takes gives (gives effect ++ left) trace) :
    Counted takes gives (takes effect ++ left) (effect :: trace) where
  perm := by
    rw [List.flatMap_cons, List.flatMap_cons, List.append_assoc]
    apply List.Perm.append_left
    have moved := counted.perm
    rw [List.append_assoc] at moved
    exact moved.trans (List.perm_append_comm_assoc _ _ _)
  owed := by
    refine ⟨fun r => ?_, counted.owed⟩
    rw [List.flatMap_cons, List.count_append, counted.count_eq, List.count_append]
    omega

end Count

end Ledger
