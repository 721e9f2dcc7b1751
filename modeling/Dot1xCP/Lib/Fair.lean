import Mathlib.Data.Nat.Init
import Dot1xCP.Lib.Transition

/-! Behaviours that never end, and what must happen in them.

Between two states of a behaviour either a step is taken or nothing happens, so a run that
is over is a behaviour that stands still. Weak fairness says that what is waited for all
the time happens in the end; a property that waits and that nothing but the action takes
away is then met by the action.
-/

set_option autoImplicit false

namespace Transition

variable {State Label : Type}

structure Behaviour (step : State → Label → Option State) where
  state : Nat → State
  label : Nat → Option Label
  stands : ∀ n, label n = none → state (n + 1) = state n
  steps : ∀ n l, label n = some l → step (state n) l = some (state (n + 1))

variable {step : State → Label → Option State}

namespace Behaviour

/-- What waits from some moment on is acted on after it. -/
def WeaklyFair (b : Behaviour step) (waits : State → Prop) (acts : Label → Prop) : Prop :=
  ∀ n, (∀ m, n ≤ m → waits (b.state m)) → ∃ m, n ≤ m ∧ ∃ l, b.label m = some l ∧ acts l

theorem forever (b : Behaviour step) {p : State → Prop} {n : Nat} (start : p (b.state n))
    (keeps : ∀ m l, n ≤ m → b.label m = some l → p (b.state m) → p (b.state (m + 1))) :
    ∀ m, n ≤ m → p (b.state m) := by
  intro m later
  induction m, later using Nat.le_induction with
  | base => exact start
  | succ m later ih =>
    cases taken : b.label m with
    | none =>
      rw [b.stands m taken]
      exact ih
    | some l => exact keeps m l later taken ih

/-- A property that waits, and that only the actions can end, holds until one of them
is taken. -/
theorem WeaklyFair.acted {b : Behaviour step} {waits : State → Prop} {acts : Label → Prop}
    (fair : b.WeaklyFair waits acts) {p : State → Prop} (waiting : ∀ s, p s → waits s) {n : Nat}
    (start : p (b.state n))
    (keeps : ∀ m l, n ≤ m → b.label m = some l → ¬ acts l →
      p (b.state m) → p (b.state (m + 1))) :
    ∃ m, n ≤ m ∧ p (b.state m) ∧ ∃ l, b.label m = some l ∧ acts l := by
  by_contra never
  simp only [not_exists, not_and] at never
  have always := b.forever start fun m l later taken holds =>
    keeps m l later taken (never m later holds l taken) holds
  obtain ⟨m, later, l, taken, act⟩ := fair n fun m later => waiting _ (always m later)
  exact never m later (always m later) l taken act

end Behaviour

/-! ## Runs as behaviours -/

theorem run_append {s : State} {first second : List Label} :
    run step s (first ++ second) = (run step s first).bind fun t => run step t second := by
  induction first generalizing s with
  | nil => rfl
  | cons label labels ih =>
    rw [List.cons_append, run, run, Option.bind_assoc]
    congr 1
    funext next
    exact ih

theorem run_take {s final : State} {labels : List Label} (ran : run step s labels = some final)
    (n : Nat) :
    ∃ t, run step s (labels.take n) = some t ∧ run step t (labels.drop n) = some final := by
  rw [← List.take_append_drop n labels, run_append] at ran
  exact Option.bind_eq_some_iff.mp ran

def stateAt (step : State → Label → Option State) (s : State) (labels : List Label) (n : Nat) :
    State :=
  (run step s (labels.take n)).getD s

theorem stateAt_eq {s t : State} {labels : List Label} {n : Nat}
    (ran : run step s (labels.take n) = some t) : stateAt step s labels n = t := by
  rw [stateAt, ran]
  rfl

theorem Meets.at {condition : State → Label → Prop} {s t : State} {labels : List Label}
    (meets : Meets step condition s labels) {n : Nat} {l : Label}
    (before : run step s (labels.take n) = some t) (taken : labels[n]? = some l) :
    condition t l := by
  induction labels generalizing s n with
  | nil => cases taken
  | cons label labels ih =>
    cases n with
    | zero =>
      cases before
      cases taken
      exact meets.1
    | succ n =>
      obtain ⟨next, stepped, rest⟩ := run_cons.mp before
      exact ih (meets.2 next stepped) rest taken

namespace Behaviour

/-- The behaviour that takes the steps of a run and stands still after them. -/
def ofRun {s final : State} {labels : List Label} (ran : run step s labels = some final) :
    Behaviour step where
  state := stateAt step s labels
  label n := labels[n]?
  stands n past := by
    have short : labels.length ≤ n := List.getElem?_eq_none_iff.mp past
    rw [stateAt, stateAt, List.take_of_length_le short,
      List.take_of_length_le (Nat.le_succ_of_le short)]
  steps n l taken := by
    obtain ⟨inside, rfl⟩ := List.getElem?_eq_some_iff.mp taken
    obtain ⟨t, before, rest⟩ := run_take ran n
    rw [List.drop_eq_getElem_cons inside] at rest
    obtain ⟨next, stepped, _⟩ := run_cons.mp rest
    have after : run step s (labels.take (n + 1)) = some next := by
      rw [List.take_succ_eq_append_getElem inside, run_append, before]
      exact run_cons.mpr ⟨next, stepped, rfl⟩
    rw [stateAt_eq before, stateAt_eq after]
    exact stepped

theorem ofRun_meets {s final : State} {labels : List Label}
    (ran : run step s labels = some final) {condition : State → Label → Prop}
    (meets : Meets step condition s labels) (n : Nat) (l : Label)
    (taken : (ofRun ran).label n = some l) : condition ((ofRun ran).state n) l := by
  obtain ⟨t, before, _⟩ := run_take ran n
  have here : (ofRun ran).state n = t := stateAt_eq before
  rw [here]
  exact meets.at before taken

/-- A run at whose end nothing waits is fair. -/
theorem ofRun_weaklyFair {s final : State} {labels : List Label}
    (ran : run step s labels = some final) {waits : State → Prop} (rests : ¬ waits final)
    (acts : Label → Prop) : (ofRun ran).WeaklyFair waits acts := by
  intro n always
  have atEnd : run step s (labels.take (n + labels.length)) = some final := by
    rw [List.take_of_length_le (Nat.le_add_left _ _)]
    exact ran
  have stands : (ofRun ran).state (n + labels.length) = final := stateAt_eq atEnd
  exact absurd (stands ▸ always _ (Nat.le_add_right _ _)) rests

end Behaviour

end Transition
