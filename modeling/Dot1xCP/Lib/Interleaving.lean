import Dot1xCP.Lib.Transition
import Mathlib.Algebra.BigOperators.Group.List.Basic
import Mathlib.Algebra.Order.Ring.Nat
import Mathlib.Data.List.Perm.Basic

/-! Function calls that run beside each other on shared state.

A call in progress is what it does next; calls at the same point are interchangeable, so
the calls in progress are a list whose order does not matter. Any number of them may run,
and any of them may take the next step.
-/

set_option autoImplicit false

namespace Interleaving

/-- How a call begins, and what a call at a point does with the shared state: it goes on
at another point, or it has returned. -/
structure Program (Shared Entry Point Choice : Type) where
  enter : Shared → Entry → Option (Shared × Option Point)
  advance : Shared → Point → Choice → Option (Shared × Option Point)

structure State (Shared Point : Type) where
  shared : Shared
  running : List Point
  deriving DecidableEq, Repr

inductive Label (Entry Point Choice : Type) where
  | enter (entry : Entry)
  | advance (point : Point) (choice : Choice)
  deriving DecidableEq, Repr

variable {Shared Entry Point Choice : Type}

section System
variable [DecidableEq Point]

def Program.step (program : Program Shared Entry Point Choice) (s : State Shared Point) :
    Label Entry Point Choice → Option (State Shared Point)
  | .enter entry =>
    (program.enter s.shared entry).map fun next => ⟨next.1, next.2.toList ++ s.running⟩
  | .advance point choice =>
    if point ∈ s.running then
      (program.advance s.shared point choice).map fun next =>
        ⟨next.1, next.2.toList ++ s.running.erase point⟩
    else none

abbrev Program.Reachable (program : Program Shared Entry Point Choice) (start : Shared)
    (s : State Shared Point) : Prop :=
  Transition.Reachable program.step ⟨start, []⟩ s

/-- What holds of the shared state and the calls in progress, and stays so when a call
that is allowed begins and when any goes on. -/
structure Program.Invariant (program : Program Shared Entry Point Choice) (allowed : Entry → Prop)
    (inv : Shared → List Point → Prop) : Prop where
  reorder : ∀ {shared running running'}, running.Perm running' →
    inv shared running → inv shared running'
  enter : ∀ {shared running entry next point}, allowed entry → inv shared running →
    program.enter shared entry = some (next, point) → inv next (point.toList ++ running)
  advance : ∀ {shared point rest choice next point'}, inv shared (point :: rest) →
    program.advance shared point choice = some (next, point') → inv next (point'.toList ++ rest)

def Label.Allowed (allowed : Entry → Prop) : Label Entry Point Choice → Prop
  | .enter entry => allowed entry
  | .advance _ _ => True

variable {program : Program Shared Entry Point Choice} {allowed : Entry → Prop}
  {inv : Shared → List Point → Prop}

theorem Program.Invariant.step (invariant : program.Invariant allowed inv)
    {s next : State Shared Point} {label : Label Entry Point Choice} (may : label.Allowed allowed)
    (holds : inv s.shared s.running) (stepped : program.step s label = some next) :
    inv next.shared next.running := by
  cases label with
  | enter entry =>
    obtain ⟨⟨shared, point⟩, entered, rfl⟩ := Option.map_eq_some_iff.mp stepped
    exact invariant.enter may holds entered
  | advance point choice =>
    obtain ⟨inside, went⟩ := Option.ite_none_right_eq_some.mp stepped
    obtain ⟨⟨shared, point'⟩, advanced, rfl⟩ := Option.map_eq_some_iff.mp went
    have first := invariant.reorder (List.perm_cons_erase inside) holds
    exact invariant.advance first advanced

theorem Program.Invariant.run (invariant : program.Invariant allowed inv)
    {start : State Shared Point} (initial : inv start.shared start.running)
    {labels : List (Label Entry Point Choice)} (each : ∀ label ∈ labels, label.Allowed allowed)
    {s : State Shared Point} (ran : Transition.run program.step start labels = some s) :
    inv s.shared s.running :=
  (Transition.meets_of_forall program.step each start).invariant (fun s => inv s.shared s.running)
    (fun _ _ _ holds may stepped => invariant.step may holds stepped) initial ran

omit [DecidableEq Point] in
theorem Label.allowed_true (label : Label Entry Point Choice) : label.Allowed fun _ => True := by
  cases label <;> trivial

/-- Where every call is allowed, the invariant holds of whatever is reached. -/
theorem Program.Invariant.reachable (invariant : program.Invariant (fun _ => True) inv)
    {start : Shared} (initial : inv start []) {s : State Shared Point}
    (reached : program.Reachable start s) : inv s.shared s.running := by
  obtain ⟨labels, ran⟩ := reached
  exact invariant.run initial (fun label _ => label.allowed_true) ran

end System

def total (weight : Point → Nat) (running : List Point) : Nat := (running.map weight).sum

@[simp] theorem total_nil (weight : Point → Nat) : total weight [] = 0 := rfl

@[simp] theorem total_cons (weight : Point → Nat) (point : Point) (running : List Point) :
    total weight (point :: running) = weight point + total weight running := List.sum_cons

theorem total_advance (weight : Point → Nat) (after : Option Point) (rest : List Point) :
    total weight (after.toList ++ rest) = (after.map weight).getD 0 + total weight rest := by
  cases after with
  | none => exact (Nat.zero_add _).symm
  | some after => exact total_cons weight after rest

theorem total_perm (weight : Point → Nat) {running running' : List Point}
    (same : running.Perm running') : total weight running = total weight running' :=
  (same.map weight).sum_eq

theorem weight_le_total (weight : Point → Nat) {point : Point} {running : List Point}
    (inside : point ∈ running) : weight point ≤ total weight running := by
  obtain ⟨before, after, rfl⟩ := List.append_of_mem inside
  rw [total_perm weight List.perm_middle, total_cons]
  exact Nat.le_add_right _ _

theorem total_mono {weight weight' : Point → Nat} (below : ∀ point, weight point ≤ weight' point)
    (running : List Point) : total weight running ≤ total weight' running := by
  induction running with
  | nil => exact Nat.le_refl _
  | cons point running ih =>
    rw [total_cons, total_cons]
    exact Nat.add_le_add (below point) ih

theorem weight_eq_zero {weight : Point → Nat} {running : List Point}
    (none : total weight running = 0) {point : Point} (inside : point ∈ running) :
    weight point = 0 :=
  Nat.le_zero.mp (none ▸ weight_le_total weight inside)

/-! ## One call on its own -/

def Program.alone (program : Program Shared Entry Point Choice) (shared : Shared) (point : Point) :
    List Choice → Option Shared
  | [] => none
  | choice :: choices =>
    match program.advance shared point choice with
    | none => none
    | some (next, none) => if choices.isEmpty then some next else none
    | some (next, some point') => program.alone next point' choices

theorem Program.alone_run [DecidableEq Point] {program : Program Shared Entry Point Choice}
    {shared final : Shared} {point : Point} {choices : List Choice}
    (ended : program.alone shared point choices = some final) :
    ∃ labels, Transition.run program.step ⟨shared, [point]⟩ labels = some ⟨final, []⟩ := by
  induction choices generalizing shared point with
  | nil => cases ended
  | cons choice choices ih =>
    have first (next : Shared × Option Point)
        (advanced : program.advance shared point choice = some next) :
        program.step ⟨shared, [point]⟩ (.advance point choice) =
          some ⟨next.1, next.2.toList⟩ := by
      rw [Program.step, if_pos List.mem_cons_self, advanced, List.erase_cons_head]
      simp
    rw [Program.alone] at ended
    split at ended
    · cases ended
    next next advanced =>
      obtain ⟨_, same⟩ := Option.ite_none_right_eq_some.mp ended
      cases same
      exact ⟨[.advance point choice], Transition.run_cons.mpr ⟨_, first _ advanced, rfl⟩⟩
    next next point' advanced =>
      obtain ⟨labels, ran⟩ := ih ended
      exact ⟨.advance point choice :: labels, Transition.run_cons.mpr ⟨_, first _ advanced, ran⟩⟩

end Interleaving
