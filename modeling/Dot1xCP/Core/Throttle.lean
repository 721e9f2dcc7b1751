import Mathlib.Algebra.Group.Nat.Defs
import Dot1xCP.Core.Provider

/-! The auto-submit window against true time.

The tick count is 32 bits wide and wraps. It is stored when a submission is granted or
marked, and the stored value 0 also stands for no submission at all. Beside the globals
the state here keeps the true time of the last grant or mark.
-/

set_option autoImplicit false

namespace Dot1xCP.Core

structure Throttle where
  world : World
  /-- The true time in milliseconds of the last grant or mark. -/
  last : Option Nat
  deriving DecidableEq, Repr

inductive Submit where
  | attempt (milliseconds : Nat)
  | mark (milliseconds : Nat)
  deriving DecidableEq, Repr

def World.after (s : World) (milliseconds : Nat) : World := { s with now := s.now + milliseconds }

def Throttle.grants (minIntervalMs : BitVec 32) (t : Throttle) (milliseconds : Nat) : Bool :=
  (tryAcquireAutoSubmitWindow (t.world.after milliseconds) minIntervalMs).2

def Throttle.step (minIntervalMs : BitVec 32) (t : Throttle) : Submit → Option Throttle
  | .attempt milliseconds =>
    let world := t.world.after milliseconds
    some
      { world := (tryAcquireAutoSubmitWindow world minIntervalMs).1
        last := if t.grants minIntervalMs milliseconds then some world.now else t.last }
  | .mark milliseconds =>
    let world := t.world.after milliseconds
    some { world := markAutoSubmitTickNow world, last := some world.now }

/-- So much true time has passed since the last grant or mark, if there was one. -/
def Throttle.Rested (t : Throttle) (milliseconds interval : Nat) : Prop :=
  ∀ last ∈ t.last, last + interval ≤ t.world.now + milliseconds

instance (t : Throttle) (milliseconds interval : Nat) : Decidable (t.Rested milliseconds interval) :=
  inferInstanceAs (Decidable (∀ last ∈ t.last, _))

def Throttle.Exact (minIntervalMs : BitVec 32) (t : Throttle) : Submit → Prop
  | .attempt milliseconds =>
    t.grants minIntervalMs milliseconds = true ↔ t.Rested milliseconds minIntervalMs.toNat
  | .mark _ => True

/-- An attempt comes within one round of the tick count. -/
def Throttle.Timely (t : Throttle) : Submit → Prop
  | .attempt milliseconds => ∀ last ∈ t.last, t.world.now + milliseconds < last + 2 ^ 32
  | .mark _ => True

/-- Where the last grant or mark fell on a tick count of 0, the attempt comes late enough
to be granted anyway. -/
def Throttle.Clear (minIntervalMs : BitVec 32) (t : Throttle) : Submit → Prop
  | .attempt milliseconds =>
    (∃ last ∈ t.last, last % 2 ^ 32 = 0) → t.Rested milliseconds minIntervalMs.toNat
  | .mark _ => True

instance (minIntervalMs : BitVec 32) (t : Throttle) (submit : Submit) :
    Decidable (t.Exact minIntervalMs submit) :=
  match submit with
  | .attempt _ => inferInstanceAs (Decidable (_ ↔ _))
  | .mark _ => isTrue trivial

instance (t : Throttle) (submit : Submit) : Decidable (t.Timely submit) :=
  match submit with
  | .attempt _ => inferInstanceAs (Decidable (∀ last ∈ t.last, _))
  | .mark _ => isTrue trivial

instance (minIntervalMs : BitVec 32) (t : Throttle) (submit : Submit) :
    Decidable (t.Clear minIntervalMs submit) :=
  match submit with
  | .attempt _ => inferInstanceAs (Decidable ((∃ last ∈ t.last, _) → _))
  | .mark _ => isTrue trivial

def Throttle.Stored (t : Throttle) : Prop :=
  match t.last with
  | none => t.world.autoSubmitTick = 0
  | some last => t.world.autoSubmitTick = BitVec.ofNat 32 last ∧ last ≤ t.world.now

section Step
variable {minIntervalMs : BitVec 32} {t next : Throttle}

theorem tryAcquireAutoSubmitWindow_granted (s : World) :
    (tryAcquireAutoSubmitWindow s minIntervalMs).2 = true ↔
      s.autoSubmitTick = 0 ∨ minIntervalMs ≤ getTickCount s - s.autoSubmitTick := by
  unfold tryAcquireAutoSubmitWindow
  dsimp only
  split
  next opens => exact iff_of_true rfl opens
  next closed => exact iff_of_false Bool.false_ne_true closed

/-- Within one round the difference of the tick counts is the time that has passed. -/
theorem tick_elapsed {last now : Nat} (later : last ≤ now) (round : now < last + 2 ^ 32) :
    (BitVec.ofNat 32 now - BitVec.ofNat 32 last).toNat = now - last := by
  rw [BitVec.toNat_sub, BitVec.toNat_ofNat, BitVec.toNat_ofNat]
  omega

theorem grants_iff (stored : t.Stored) {milliseconds : Nat}
    (timely : t.Timely (.attempt milliseconds)) :
    t.grants minIntervalMs milliseconds = true ↔
      (∃ last ∈ t.last, last % 2 ^ 32 = 0) ∨ t.Rested milliseconds minIntervalMs.toNat := by
  unfold Throttle.grants
  rw [tryAcquireAutoSubmitWindow_granted]
  unfold Throttle.Rested
  unfold Throttle.Stored at stored
  cases known : t.last with
  | none =>
    rw [known] at stored
    exact iff_of_true (Or.inl stored) (Or.inr fun last none => by cases none)
  | some last =>
    rw [known] at stored
    obtain ⟨tick, later⟩ := stored
    have round := timely last known
    have elapsed := tick_elapsed (Nat.le_add_right_of_le later) round
    have never : BitVec.ofNat 32 last = 0 ↔ last % 2 ^ 32 = 0 := by
      rw [← BitVec.toNat_inj, BitVec.toNat_ofNat]
      rfl
    have rested : minIntervalMs ≤ BitVec.ofNat 32 (t.world.now + milliseconds) - BitVec.ofNat 32 last ↔
        last + minIntervalMs.toNat ≤ t.world.now + milliseconds := by
      rw [BitVec.le_def, elapsed]
      omega
    simp only [World.after, getTickCount, tick, never, rested, Option.mem_some_iff,
      exists_eq_left', forall_eq']

theorem exact_iff_clear (t : Throttle) (submit : Submit) (stored : t.Stored)
    (timely : t.Timely submit) : t.Exact minIntervalMs submit ↔ t.Clear minIntervalMs submit := by
  cases submit with
  | mark milliseconds => exact Iff.rfl
  | attempt milliseconds =>
    have granted : t.grants minIntervalMs milliseconds = true ↔ _ := grants_iff stored timely
    exact (iff_congr granted Iff.rfl).trans or_iff_right_iff_imp

theorem Throttle.Stored.step {submit : Submit} (stored : t.Stored)
    (stepped : t.step minIntervalMs submit = some next) : next.Stored := by
  cases submit with
  | mark milliseconds =>
    cases stepped
    exact ⟨rfl, Nat.le_refl _⟩
  | attempt milliseconds =>
    cases stepped
    unfold Throttle.grants tryAcquireAutoSubmitWindow
    dsimp only
    split
    next => exact ⟨rfl, Nat.le_refl _⟩
    next =>
      -- A refused attempt leaves the tick and the last grant alone.
      unfold Throttle.Stored at stored ⊢
      dsimp only
      cases known : t.last with
      | none =>
        rw [known] at stored
        exact stored
      | some last =>
        rw [known] at stored
        exact ⟨stored.1, Nat.le_add_right_of_le stored.2⟩

end Step

/-- From a window that was never used, the attempts of a run are granted exactly when the
interval has passed since the last grant or mark, unless that one fell on a tick count of
0 and the attempt comes before the interval has passed. -/
theorem throttle_exact_iff (minIntervalMs : BitVec 32) (s : World) (unused : s.autoSubmitTick = 0)
    (submits : List Submit)
    (timely : Transition.Meets (Throttle.step minIntervalMs) Throttle.Timely ⟨s, none⟩ submits) :
    Transition.Meets (Throttle.step minIntervalMs) (Throttle.Exact minIntervalMs) ⟨s, none⟩ submits ↔
      Transition.Meets (Throttle.step minIntervalMs) (Throttle.Clear minIntervalMs) ⟨s, none⟩
        submits :=
  Transition.meets_iff Throttle.Stored (fun _ _ _ stored _ stepped => stored.step stepped)
    (fun t submit stored timely => exact_iff_clear t submit stored timely) unused timely

def acrossTheWrap : List Submit :=
  [.attempt (2 ^ 32 - 1000), .attempt 2499, .attempt 1, .mark 100, .attempt 2499, .attempt 1]

theorem throttle_exact_wrap :
    Transition.Meets (Throttle.step 2500) (Throttle.Exact 2500) ⟨World.initial, none⟩
      acrossTheWrap :=
  (throttle_exact_iff 2500 World.initial rfl acrossTheWrap (by decide +kernel)).mpr
    (by decide +kernel)

/-- Submissions 1 ms apart: the first falls on the tick count 0, which is stored. -/
theorem throttle_open_at_zero :
    Transition.Meets (Throttle.step 2500) Throttle.Timely ⟨World.initial, none⟩
        [.attempt (2 ^ 32), .attempt 1] ∧
      ¬ Transition.Meets (Throttle.step 2500) (Throttle.Exact 2500) ⟨World.initial, none⟩
        [.attempt (2 ^ 32), .attempt 1] := by
  constructor <;> decide +kernel

end Dot1xCP.Core
