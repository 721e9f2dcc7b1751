import Mathlib.Tactic.Common

/-! Systems that take labelled steps, and what holds along their runs.

A step is a partial function of the state and a label; the label carries every
choice that the environment makes. A property that the start has and every step
keeps holds in every state of every run, also when only the steps that meet a
condition keep it and the run consists of such steps.
-/

set_option autoImplicit false

namespace Transition

variable {State Label : Type} (step : State → Label → Option State)

def run (s : State) : List Label → Option State
  | [] => some s
  | label :: labels => (step s label).bind fun next => run next labels

/-- Every step of the run meets the condition in the state where it is taken. -/
def Meets (condition : State → Label → Prop) (s : State) : List Label → Prop
  | [] => True
  | label :: labels =>
    condition s label ∧ ∀ next, step s label = some next → Meets condition next labels

def Visits (start : State) (labels : List Label) (s : State) : Prop :=
  ∃ earlier later, labels = earlier ++ later ∧ run step start earlier = some s

def Reachable (start s : State) : Prop := ∃ labels, run step start labels = some s

def tally (weight : State → Label → Nat) (s : State) : List Label → Nat
  | [] => 0
  | label :: labels =>
    weight s label + ((step s label).map fun next => tally weight next labels).getD 0

def Eventually (condition : State → Label → Prop) (s : State) : List Label → Prop
  | [] => False
  | label :: labels =>
    condition s label ∨ ∃ next, step s label = some next ∧ Eventually condition next labels

/-- Every step that is a trigger is followed by one that is a response. -/
def LeadsTo (trigger response : State → Label → Prop) (s : State) : List Label → Prop
  | [] => True
  | label :: labels =>
    ∀ next, step s label = some next →
      (trigger s label → Eventually step response next labels) ∧
        LeadsTo trigger response next labels

variable {step}

theorem run_cons {s final : State} {label : Label} {labels : List Label} :
    run step s (label :: labels) = some final ↔
      ∃ next, step s label = some next ∧ run step next labels = some final :=
  Option.bind_eq_some_iff

theorem Reachable.refl (s : State) : Reachable step s s := ⟨[], rfl⟩

theorem meets_cons_iff {condition : State → Label → Prop} {s next : State} {label : Label}
    {labels : List Label} (stepped : step s label = some next) :
    Meets step condition s (label :: labels) ↔
      condition s label ∧ Meets step condition next labels := by
  constructor
  · intro meets
    exact ⟨meets.1, meets.2 next stepped⟩
  · intro meets
    refine ⟨meets.1, fun other stepped' => ?_⟩
    obtain rfl := Option.some_inj.mp (stepped.symm.trans stepped')
    exact meets.2

theorem meets_cons {condition : State → Label → Prop} {s next : State} {label : Label}
    {labels : List Label} (here : condition s label) (stepped : step s label = some next)
    (rest : Meets step condition next labels) : Meets step condition s (label :: labels) :=
  (meets_cons_iff stepped).mpr ⟨here, rest⟩

instance decidableMeets (step : State → Label → Option State) (condition : State → Label → Prop)
    [∀ s label, Decidable (condition s label)] :
    (s : State) → (labels : List Label) → Decidable (Meets step condition s labels)
  | _, [] => isTrue trivial
  | s, label :: labels =>
    match stepped : step s label with
    | none =>
      decidable_of_iff (condition s label)
        ⟨fun here => ⟨here, fun _ other => by cases stepped.symm.trans other⟩, And.left⟩
    | some next =>
      have := decidableMeets step condition next labels
      decidable_of_iff (condition s label ∧ Meets step condition next labels)
        (meets_cons_iff stepped).symm

/-- What steps that meet the condition keep, a run of such steps keeps. -/
theorem Meets.invariant {condition : State → Label → Prop} (inv : State → Prop)
    (preserved : ∀ s label next, inv s → condition s label → step s label = some next → inv next)
    {s final : State} {labels : List Label} (start : inv s) (meets : Meets step condition s labels)
    (ran : run step s labels = some final) : inv final := by
  induction labels generalizing s with
  | nil =>
    cases ran
    exact start
  | cons label labels ih =>
    obtain ⟨next, stepped, rest⟩ := run_cons.mp ran
    exact ih (preserved s label next start meets.1 stepped) (meets.2 next stepped) rest

theorem meets_of_forall (step : State → Label → Option State) {condition : Label → Prop}
    {labels : List Label} (each : ∀ label ∈ labels, condition label) (s : State) :
    Meets step (fun _ label => condition label) s labels := by
  induction labels generalizing s with
  | nil => trivial
  | cons label labels ih =>
    exact ⟨each label List.mem_cons_self,
      fun next _ => ih (fun other inside => each other (List.mem_cons_of_mem _ inside)) next⟩

/-- What every step keeps, every reachable state has. -/
theorem Reachable.invariant {inv : State → Prop}
    (preserved : ∀ s label next, inv s → step s label = some next → inv next)
    {start s : State} (initial : inv start) (reached : Reachable step start s) : inv s := by
  obtain ⟨labels, ran⟩ := reached
  have each : ∀ label ∈ labels, (fun _ : Label => True) label := fun _ _ => trivial
  have meets := meets_of_forall step each start
  exact meets.invariant inv (fun s label next holds _ stepped => preserved s label next holds stepped)
    initial ran

theorem tally_cons {weight : State → Label → Nat} {s next : State} {label : Label}
    (stepped : step s label = some next) (labels : List Label) :
    tally step weight s (label :: labels) = weight s label + tally step weight next labels := by
  rw [tally, stepped]
  rfl

/-- A value that every step advances by its weight is advanced by the tally of the run. -/
theorem run_tally {Value : Type} (inv : State → Prop) (weight : State → Label → Nat)
    (value : State → Value) (advance : Nat → Value → Value)
    (zero : ∀ v, advance 0 v = v) (add : ∀ m n v, advance (m + n) v = advance n (advance m v))
    (preserved : ∀ s label next, inv s → step s label = some next → inv next)
    (advances : ∀ s label next, inv s → step s label = some next →
      value next = advance (weight s label) (value s))
    {s final : State} {labels : List Label} (start : inv s) (ran : run step s labels = some final) :
    value final = advance (tally step weight s labels) (value s) := by
  induction labels generalizing s with
  | nil =>
    cases ran
    exact (zero _).symm
  | cons label labels ih =>
    obtain ⟨next, stepped, rest⟩ := run_cons.mp ran
    rw [ih (preserved s label next start stepped) rest, advances s label next start stepped,
      tally_cons stepped, add]

/-- Two conditions that agree wherever the invariant and a third condition hold are met
by the same runs. The first condition may help to keep the invariant. -/
theorem meets_iff (inv : State → Prop) {given first second : State → Label → Prop}
    (preserved : ∀ s label next, inv s → first s label → step s label = some next → inv next)
    (agree : ∀ s label, inv s → given s label → (first s label ↔ second s label))
    {s : State} {labels : List Label} (start : inv s) (assumed : Meets step given s labels) :
    Meets step first s labels ↔ Meets step second s labels := by
  induction labels generalizing s with
  | nil => exact Iff.rfl
  | cons label labels ih =>
    have here := agree s label start assumed.1
    constructor
    · intro meets
      refine ⟨here.mp meets.1, fun next stepped => ?_⟩
      exact (ih (preserved s label next start meets.1 stepped) (assumed.2 next stepped)).mp
        (meets.2 next stepped)
    · intro meets
      refine ⟨here.mpr meets.1, fun next stepped => ?_⟩
      exact (ih (preserved s label next start (here.mpr meets.1) stepped) (assumed.2 next stepped)).mpr
        (meets.2 next stepped)

theorem meets_true (step : State → Label → Option State) (s : State) (labels : List Label) :
    Meets step (fun _ _ => True) s labels :=
  meets_of_forall step (fun _ _ => trivial) s

theorem visits_cons {start s : State} {label : Label} {labels : List Label} :
    Visits step start (label :: labels) s ↔
      s = start ∨ ∃ next, step start label = some next ∧ Visits step next labels s := by
  constructor
  · rintro ⟨earlier, later, split, ran⟩
    cases earlier with
    | nil =>
      cases ran
      exact Or.inl rfl
    | cons first earlier =>
      obtain ⟨rfl, rest⟩ := List.cons.inj split
      obtain ⟨next, stepped, ran⟩ := run_cons.mp ran
      exact Or.inr ⟨next, stepped, earlier, later, rest, ran⟩
  · rintro (rfl | ⟨next, stepped, earlier, later, split, ran⟩)
    · exact ⟨[], label :: labels, rfl, rfl⟩
    · exact ⟨label :: earlier, later, by rw [split, List.cons_append],
        run_cons.mpr ⟨next, stepped, ran⟩⟩

/-- Where the condition says exactly which steps keep a property, the runs that have the
property throughout are those whose steps all meet the condition. -/
theorem visits_iff_meets (inv good : State → Prop) {condition : State → Label → Prop}
    (preserved : ∀ s label next, inv s → step s label = some next → inv next)
    (exact : ∀ s label next, inv s → good s → step s label = some next →
      (good next ↔ condition s label))
    {s final : State} {labels : List Label} (start : inv s) (fine : good s)
    (ran : run step s labels = some final) :
    (∀ t, Visits step s labels t → good t) ↔ Meets step condition s labels := by
  induction labels generalizing s with
  | nil =>
    refine iff_of_true ?_ trivial
    rintro t ⟨earlier, later, split, ran⟩
    obtain ⟨rfl, _⟩ := List.append_eq_nil_iff.mp split.symm
    cases ran
    exact fine
  | cons label labels ih =>
    obtain ⟨next, stepped, rest⟩ := run_cons.mp ran
    have invNext := preserved s label next start stepped
    have kept := exact s label next start fine stepped
    constructor
    · intro all
      have fineNext : good next :=
        all next (visits_cons.mpr (Or.inr ⟨next, stepped, [], labels, rfl, rfl⟩))
      refine ⟨kept.mp fineNext, ?_⟩
      intro other stepped'
      obtain rfl := Option.some_inj.mp (stepped.symm.trans stepped')
      exact (ih invNext fineNext rest).mp fun t visits =>
        all t (visits_cons.mpr (Or.inr ⟨next, stepped, visits⟩))
    · intro meets t visits
      rcases visits_cons.mp visits with rfl | ⟨other, stepped', visits⟩
      · exact fine
      · obtain rfl := Option.some_inj.mp (stepped.symm.trans stepped')
        exact (ih invNext (kept.mpr meets.1) rest).mpr (meets.2 next stepped) t visits

theorem leadsTo_cons {trigger response : State → Label → Prop} {s next : State} {label : Label}
    {labels : List Label} (stepped : step s label = some next) :
    LeadsTo step trigger response s (label :: labels) ↔
      (trigger s label → Eventually step response next labels) ∧
        LeadsTo step trigger response next labels := by
  constructor
  · intro leads
    exact leads next stepped
  · intro leads other stepped'
    obtain rfl := Option.some_inj.mp (stepped.symm.trans stepped')
    exact leads

theorem eventually_cons {condition : State → Label → Prop} {s next : State} {label : Label}
    {labels : List Label} (stepped : step s label = some next) :
    Eventually step condition s (label :: labels) ↔
      condition s label ∨ Eventually step condition next labels := by
  rw [Eventually, stepped]
  simp only [Option.some.injEq, exists_eq_left']

/-- What a trigger leaves to be done, and only a response does, is done at the end of the
run exactly when every trigger is followed by a response. -/
theorem discharged_iff (inv pending : State → Prop) {trigger response : State → Label → Prop}
    (preserved : ∀ s label next, inv s → step s label = some next → inv next)
    (exact : ∀ s label next, inv s → step s label = some next →
      (pending next ↔ trigger s label ∨ pending s ∧ ¬ response s label))
    {s final : State} {labels : List Label} (start : inv s)
    (ran : run step s labels = some final) :
    ¬ pending final ↔
      LeadsTo step trigger response s labels ∧ (pending s → Eventually step response s labels) := by
  induction labels generalizing s with
  | nil =>
    cases ran
    exact ⟨fun done => ⟨trivial, done⟩, fun done => done.2⟩
  | cons label labels ih =>
    obtain ⟨next, stepped, rest⟩ := run_cons.mp ran
    rw [ih (preserved s label next start stepped) rest, leadsTo_cons stepped,
      eventually_cons stepped, exact s label next start stepped]
    tauto

theorem leadsTo_of_meets {trigger response : State → Label → Prop} {s : State}
    {labels : List Label} (none : Meets step (fun s label => ¬ trigger s label) s labels) :
    LeadsTo step trigger response s labels := by
  induction labels generalizing s with
  | nil => trivial
  | cons label labels ih =>
    intro next stepped
    exact ⟨fun triggered => absurd triggered none.1, ih (none.2 next stepped)⟩

/-- What is never followed by a response never happens. -/
theorem leadsTo_never {trigger : State → Label → Prop} {s final : State} {labels : List Label}
    (ran : run step s labels = some final) :
    LeadsTo step trigger (fun _ _ => False) s labels ↔
      Meets step (fun s label => ¬ trigger s label) s labels := by
  have never (s : State) (labels : List Label) :
      ¬ Eventually step (fun _ _ => False) s labels := by
    induction labels generalizing s with
    | nil => exact id
    | cons label labels ih =>
      rintro (none | ⟨next, _, later⟩)
      · exact none
      · exact ih next later
  induction labels generalizing s with
  | nil => exact Iff.rfl
  | cons label labels ih =>
    obtain ⟨next, stepped, rest⟩ := run_cons.mp ran
    rw [leadsTo_cons stepped, meets_cons_iff stepped]
    apply and_congr _ (ih rest)
    exact ⟨fun leads trigger => never next labels (leads trigger),
      fun none trigger => absurd trigger none⟩

end Transition
