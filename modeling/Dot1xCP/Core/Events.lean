import Dot1xCP.Core.Generation

/-! The events object of a callback.

A refresh request copies the events object and its context into the timer, with a
reference of its own. `UnAdvise` and a later `Advise` change the globals only: the timer
still calls the object that it holds, unless the session generation has moved on, which
neither of the two does.
-/

set_option autoImplicit false

namespace Dot1xCP.Core
open Broker Auth

/-- Whenever a timer that is armed now fires before the next call, it notifies the events
object that is advised, or none. -/
def NotifiesAdvised (machine : Machine) (s : World) : Prop :=
  ∀ milliseconds ctx late next, step machine s (.elapse milliseconds) = some late →
    step machine late (.refreshTimer ctx) = some next →
    ∀ effects events context, next.trace = effects ++ late.trace →
      .credentialsChanged events context ∈ effects → s.cpEvents = some events

/-- Events are taken back or exchanged only when no callback is left that would notify the
object that goes. -/
def Careful (s : World) : Call → Prop
  | .unAdvise => ∀ ctx ∈ s.outstanding, ctx.sessionGeneration ≠ s.sessionGeneration
  | .advise events _ =>
    ∀ ctx ∈ s.outstanding, ctx.sessionGeneration = s.sessionGeneration → events = some ctx.events
  -- The end of a session makes every callback stale, but for one of a whole turn ago.
  | call =>
    0 < sessionEnds s call → ∀ ctx ∈ s.outstanding,
      ctx.sessionGeneration = advance (sessionEnds s call) s.sessionGeneration →
        s.cpEvents = some ctx.events

/-- The callbacks that would notify are those of the events object that is advised. -/
def CurrentAdvised (s : World) : Prop :=
  ∀ ctx ∈ s.outstanding, ctx.sessionGeneration = s.sessionGeneration → s.cpEvents = some ctx.events

section Callbacks
variable {machine : Machine} {s : World}

theorem fired_notifies {ctx : CredRefreshAsyncCtx} {effects : List Effect} {events : Events}
    {context : Nat}
    (grows : (credRefreshTimerCallback { s with outstanding := s.outstanding.erase ctx } ctx).trace =
      effects ++ s.trace)
    (notifies : .credentialsChanged events context ∈ effects) :
    ctx.sessionGeneration = s.sessionGeneration ∧ ctx.events = events := by
  by_cases current : ctx.sessionGeneration = s.sessionGeneration
  · have called : (credRefreshTimerCallback { s with outstanding := s.outstanding.erase ctx } ctx).trace =
        [.release ctx.events, .credentialsChanged ctx.events ctx.context] ++ s.trace := by
      simp [credRefreshTimerCallback, isCurrentSessionGeneration, current, World.emit]
    obtain rfl := List.append_cancel_right (called.symm.trans grows)
    simp only [List.mem_cons, reduceCtorEq, List.not_mem_nil, or_false, false_or] at notifies
    cases notifies
    exact ⟨current, rfl⟩
  · have silent : (credRefreshTimerCallback { s with outstanding := s.outstanding.erase ctx } ctx).trace =
        [.release ctx.events] ++ s.trace := by
      simp [credRefreshTimerCallback, isCurrentSessionGeneration, current, World.emit]
    obtain rfl := List.append_cancel_right (silent.symm.trans grows)
    cases List.mem_singleton.mp notifies

theorem notifiesAdvised_iff : NotifiesAdvised machine s ↔ CurrentAdvised s := by
  constructor
  · intro advised ctx armed current
    -- The timer may fire once it is due.
    let late : World := { s with now := s.now + ctx.due }
    have fired : step machine late (.refreshTimer ctx) =
        some (credRefreshTimerCallback { late with outstanding := late.outstanding.erase ctx } ctx) :=
      fireTimer_eq_some.mpr ⟨⟨armed, Nat.le_add_left _ _⟩, rfl⟩
    have current : ctx.sessionGeneration = late.sessionGeneration := current
    obtain ⟨effects, grows, notifies⟩ := fired_notified current
    exact advised ctx.due ctx late _ rfl fired effects ctx.events ctx.context grows notifies
  · intro advised milliseconds ctx late next elapsed fired effects events context grows notifies
    cases elapsed
    obtain ⟨⟨armed, _⟩, rfl⟩ := fireTimer_eq_some.mp fired
    obtain ⟨current, rfl⟩ := fired_notifies grows notifies
    exact advised ctx armed current

end Callbacks

section Calls
variable {machine : Machine} {s : World}

theorem request_events (os : RefreshOs) (s : World) (delayMs : Nat) (generation : BitVec 32) :
    (requestCredentialsChangedAsync os s delayMs generation).cpEvents = s.cpEvents := by
  obtain ⟨pending, outstanding, effects, same, _⟩ :=
    requestCredentialsChangedAsync_frame os s delayMs generation
  rw [same]

theorem afterRead_events (os : SerializationOs) (s : World) (verdict : Verdict) :
    (afterRead os s verdict).cpEvents = s.cpEvents := by
  cases verdict with
  | timeout | pending | idle | lost => exact request_events _ _ _ _
  | empty | malformed | final => rfl

theorem getSerialization_events (coherent : Coherent s) (machine : Machine) (pointers : OutPointers)
    (os : SerializationOs) (cpus : UsageScenario) :
    (getSerialization machine pointers os s cpus).1.cpEvents = s.cpEvents := by
  refine @coherent.getSerialization_ways s (fun next => next.cpEvents = s.cpEvents) machine pointers
    os cpus rfl ?_ ?_ ?_
  · intro _ verdict
    exact afterRead_events os s verdict
  · intro _ verdict
    exact afterRead_events os (World.started s) verdict
  · intro _ verdict
    cases verdict <;> rfl

theorem step_events {call : Call} {next : World} (coherent : Coherent s)
    (notAdvise : ∀ events context, call ≠ .advise events context) (notUnAdvise : call ≠ .unAdvise)
    (stepped : step machine s call = some next) : next.cpEvents = s.cpEvents := by
  cases call with
  | setUsageScenario cpus os =>
    cases stepped
    rw [setUsageScenario_world]
    split <;> rfl
  | advise events context => exact absurd rfl (notAdvise events context)
  | unAdvise => exact absurd rfl notUnAdvise
  | setSelected cpus =>
    cases stepped
    obtain ⟨tick, force, same⟩ := setSelected_frame s cpus
    rw [same]
  | setDeselected cpus os =>
    cases stepped
    rw [setDeselected_world]
    split <;> rfl
  | getSerialization cpus pointers os =>
    cases stepped
    exact getSerialization_events coherent machine pointers os cpus
  | refreshTimer ctx =>
    obtain ⟨_, rfl⟩ := fireTimer_eq_some.mp stepped
    obtain ⟨effects, same, _⟩ :=
      credRefreshTimerCallback_frame { s with outstanding := s.outstanding.erase ctx } ctx
    rw [same]
  | elapse milliseconds =>
    cases stepped
    rfl

/-- Of the other calls only one that ends a session can bring a callback back. -/
theorem other_exact {call : Call} {next : World} (coherent : Coherent s) (advised : CurrentAdvised s)
    (notAdvise : ∀ events context, call ≠ .advise events context) (notUnAdvise : call ≠ .unAdvise)
    (stepped : step machine s call = some next) :
    CurrentAdvised next ↔
      (0 < sessionEnds s call → ∀ ctx ∈ s.outstanding,
        ctx.sessionGeneration = advance (sessionEnds s call) s.sessionGeneration →
          s.cpEvents = some ctx.events) := by
  have events := step_events coherent notAdvise notUnAdvise stepped
  have moved := step_advances coherent stepped
  unfold CurrentAdvised
  rw [events, moved]
  rcases step_outstanding coherent stepped with (kept | ⟨added, grown, fresh⟩) | ⟨fired, _, rfl, fewer⟩
  · rw [kept]
    -- Where no session ends, the generation is the one of before.
    rcases Nat.eq_zero_or_pos (sessionEnds s call) with none | some
    · rw [none, advance_zero]
      exact iff_of_true advised fun ends => absurd ends (Nat.lt_irrefl 0)
    · exact ⟨fun all _ => all, fun all => all some⟩
  · have own : s.cpEvents = some added.events := events.symm.trans fresh.events
    rw [grown, List.forall_mem_cons]
    rcases Nat.eq_zero_or_pos (sessionEnds s call) with none | some
    · rw [none, advance_zero]
      exact iff_of_true ⟨fun _ => own, advised⟩ fun ends => absurd ends (Nat.lt_irrefl 0)
    · exact ⟨fun all _ => all.2, fun all => ⟨fun _ => own, all some⟩⟩
  · have none : sessionEnds s (.refreshTimer fired) = 0 := rfl
    rw [fewer, none, advance_zero]
    refine iff_of_true ?_ fun ends => absurd ends (Nat.lt_irrefl 0)
    intro ctx left current
    exact advised ctx (List.mem_of_mem_erase left) current

theorem careful_exact (s : World) (call : Call) (next : World) (coherent : Coherent s)
    (advised : CurrentAdvised s) (stepped : step machine s call = some next) :
    CurrentAdvised next ↔ Careful s call := by
  cases call with
  | advise events context =>
    cases stepped
    obtain ⟨effects, same, _⟩ := setProviderEvents_frame s events context
    rw [same]
    exact Iff.rfl
  | unAdvise =>
    cases stepped
    obtain ⟨effects, same, _⟩ := clearProviderEvents_frame s
    rw [same]
    refine forall₂_congr fun ctx _ => forall_congr' fun _ => ?_
    simp only [reduceCtorEq]
  | setUsageScenario | setSelected | setDeselected | getSerialization | refreshTimer | elapse =>
    exact other_exact coherent advised nofun nofun stepped

end Calls

/-- No callback notifies an events object that is not advised any more, in any state of a
run and whatever time passes, exactly when every step of the run is careful. -/
theorem notifies_advised_iff (machine : Machine) (calls : List Call) (final : World)
    (ran : Transition.run (step machine) World.initial calls = some final) :
    (∀ s, Transition.Visits (step machine) World.initial calls s → NotifiesAdvised machine s) ↔
      Transition.Meets (step machine) Careful World.initial calls := by
  have none : CurrentAdvised World.initial := fun ctx armed => by cases armed
  rw [← Transition.visits_iff_meets Coherent CurrentAdvised
    (fun _ _ _ coherent stepped => coherent.step stepped) careful_exact coherent_initial none ran]
  exact forall₂_congr fun s _ => notifiesAdvised_iff

def deselectedFirst : List Call :=
  [.advise (some 7) 0, sampleCall .ok idleMessage, .setDeselected .logon ⟨.object0, true, .object0⟩,
    .unAdvise]

theorem notifies_advised_deselected :
    ∃ final, Transition.run (step sampleMachine) World.initial deselectedFirst = some final ∧
      final.outstanding ≠ [] ∧
      ∀ s, Transition.Visits (step sampleMachine) World.initial deselectedFirst s →
        NotifiesAdvised sampleMachine s := by
  have left : (clearProviderEvents (setDeselected ⟨.object0, true, .object0⟩ idling .logon)).outstanding ≠
      [] := by decide +kernel
  refine ⟨_, rfl, left, (notifies_advised_iff sampleMachine deselectedFirst _ rfl).mpr ?_⟩
  have first : sessionEnds (setProviderEvents World.initial (some 7) 0)
      (sampleCall .ok idleMessage) = 0 := by decide +kernel
  have deselects : ∀ ctx ∈ idling.outstanding, ctx.sessionGeneration ≠
      advance (sessionEnds idling (.setDeselected .logon ⟨.object0, true, .object0⟩))
        idling.sessionGeneration := by decide +kernel
  have stale : ∀ ctx ∈ (setDeselected ⟨.object0, true, .object0⟩ idling .logon).outstanding,
      ctx.sessionGeneration ≠
        (setDeselected ⟨.object0, true, .object0⟩ idling .logon).sessionGeneration := by decide +kernel
  refine ⟨fun ctx armed => (by cases armed), ?_⟩
  intro advised stepped
  cases stepped
  refine ⟨fun ends => absurd (first ▸ ends) (Nat.lt_irrefl 0), ?_⟩
  intro s stepped
  obtain rfl : idling = s := Option.some_inj.mp stepped
  refine ⟨fun _ ctx armed revived => absurd revived (deselects ctx armed), ?_⟩
  intro deselected stepped
  cases stepped
  exact ⟨stale, fun _ _ => trivial⟩

/-- The events are taken back while the refresh of an idle broker is armed. -/
theorem notified_after_unadvise :
    ¬ ∀ s, Transition.Visits (step sampleMachine) World.initial
        [.advise (some 7) 0, sampleCall .ok idleMessage, .unAdvise] s →
      NotifiesAdvised sampleMachine s := by
  intro all
  have advised := all (clearProviderEvents idling)
    ⟨[.advise (some 7) 0, sampleCall .ok idleMessage, .unAdvise], [], rfl, rfl⟩
  have waits : ∃ ctx ∈ (clearProviderEvents idling).outstanding,
      ctx.sessionGeneration = (clearProviderEvents idling).sessionGeneration := by decide +kernel
  have gone : (clearProviderEvents idling).cpEvents = none := by decide +kernel
  obtain ⟨ctx, armed, current⟩ := waits
  cases gone.symm.trans (notifiesAdvised_iff.mp advised ctx armed current)

end Dot1xCP.Core
