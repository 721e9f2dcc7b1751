import Dot1xCP.Broker.GetSerialization

/-! The provider and credential calls of `ProviderCore.cpp` that change state, and the
system they form together with `GetSerialization` and the refresh timer.

A credential is known by the scenario it was created with. What `SetSelected`
remembers of its last decision only suppresses repeated log lines and is left out.
-/

set_option autoImplicit false

namespace Dot1xCP.Core
open Broker

def setUsageScenario (os : CloseOs) (s : World) (cpus : UsageScenario) :
    World × UsageScenario × HResult :=
  if cpus = .logon then
    let s :=
      if !s.brokerSessionActive then
        let s := closeBrokerSessionNow os s 0
        let s := resetForceNextAutoSubmit s
        let s := setBrokerSessionActive s false
        setBrokerAwaitingFinal s false
      else s
    (s, cpus, .sOk)
  else
    let s := resetForceNextAutoSubmit s
    let s := closeBrokerSessionNow os s 0
    let s := setBrokerSessionActive s false
    let s := setBrokerAwaitingFinal s false
    (s, .invalid, .eNotImpl)

theorem setUsageScenario_world (os : CloseOs) (s : World) (cpus : UsageScenario) :
    (setUsageScenario os s cpus).1 =
      if cpus = .logon ∧ s.brokerSessionActive = true then s
      else
        { s.ended.emits (closingSession os s.session 0) with
          sessionGeneration := s.sessionGeneration + 1 + 1
          forceNextAutoSubmit := false } := by
  by_cases logon : cpus = .logon
  · rw [setUsageScenario, if_pos logon]
    cases active : s.brokerSessionActive with
    | true => exact (if_pos ⟨logon, rfl⟩).symm
    | false =>
      have notBoth : ¬ (cpus = .logon ∧ false = true) := fun both => Bool.false_ne_true both.2
      rw [closeBrokerSessionNow_eq, if_neg notBoth]
      rfl
  · rw [setUsageScenario, if_neg logon, if_neg fun both => logon both.1]
    dsimp only
    rw [closeBrokerSessionNow_eq]
    rfl

def kMinSubmitIntervalMs : BitVec 32 := 2500

/-- The state and the value of `pbAutoLogon`. -/
def setSelected (s : World) (cpus : UsageScenario) : World × Bool :=
  if cpus = .logon then
    if s.brokerSessionActive then
      if s.brokerAwaitingFinal then (s, true) else tryAcquireAutoSubmitWindow s kMinSubmitIntervalMs
    else
      let consumed := consumeForceNextAutoSubmit s
      if consumed.2 then (markAutoSubmitTickNow consumed.1, true)
      else tryAcquireAutoSubmitWindow consumed.1 kMinSubmitIntervalMs
  else (s, false)

theorem setSelected_frame (s : World) (cpus : UsageScenario) :
    ∃ tick force, (setSelected s cpus).1 =
      { s with autoSubmitTick := tick, forceNextAutoSubmit := force } := by
  simp only [setSelected]
  split
  · split
    · split
      · exact ⟨_, _, rfl⟩
      · obtain ⟨tick, acquired⟩ := tryAcquireAutoSubmitWindow_frame s kMinSubmitIntervalMs
        exact ⟨tick, s.forceNextAutoSubmit, acquired⟩
    · split
      · exact ⟨_, _, rfl⟩
      · obtain ⟨tick, acquired⟩ :=
          tryAcquireAutoSubmitWindow_frame (consumeForceNextAutoSubmit s).1 kMinSubmitIntervalMs
        exact ⟨tick, false, acquired⟩
  · exact ⟨_, _, rfl⟩

def setDeselected (os : CloseOs) (s : World) (cpus : UsageScenario) : World :=
  if cpus = .logon ∧ s.brokerSessionActive then
    armForceNextAutoSubmit (closeBrokerSessionNow os s 0)
  else s

theorem setDeselected_world (os : CloseOs) (s : World) (cpus : UsageScenario) :
    setDeselected os s cpus =
      if cpus = .logon ∧ s.brokerSessionActive = true then
        armForceNextAutoSubmit (s.ended.emits (closingSession os s.session 0))
      else s := by
  rw [setDeselected, closeBrokerSessionNow_eq]

/-! ## The system -/

inductive Call where
  | setUsageScenario (cpus : UsageScenario) (os : CloseOs)
  | advise (events : Option Events) (context : Nat)
  | unAdvise
  | setSelected (cpus : UsageScenario)
  | setDeselected (cpus : UsageScenario) (os : CloseOs)
  | getSerialization (cpus : UsageScenario) (pointers : OutPointers) (os : SerializationOs)
  | refreshTimer (ctx : CredRefreshAsyncCtx)
  | elapse (milliseconds : Nat)

/-- A timer fires once, and not before it is due. -/
def fireTimer (s : World) (ctx : CredRefreshAsyncCtx) : Option World :=
  if ctx ∈ s.outstanding ∧ ctx.due ≤ s.now then
    some (credRefreshTimerCallback { s with outstanding := s.outstanding.erase ctx } ctx)
  else none

theorem fireTimer_eq_some {s next : World} {ctx : CredRefreshAsyncCtx} :
    fireTimer s ctx = some next ↔ (ctx ∈ s.outstanding ∧ ctx.due ≤ s.now) ∧
      next = credRefreshTimerCallback { s with outstanding := s.outstanding.erase ctx } ctx := by
  rw [fireTimer, Option.ite_none_right_eq_some, Option.some_inj, eq_comm (a := next)]

def step (machine : Machine) (s : World) : Call → Option World
  | .setUsageScenario cpus os => some (setUsageScenario os s cpus).1
  | .advise events context => some (setProviderEvents s events context)
  | .unAdvise => some (clearProviderEvents s)
  | .setSelected cpus => some (setSelected s cpus).1
  | .setDeselected cpus os => some (setDeselected os s cpus)
  | .getSerialization cpus pointers os => some (getSerialization machine pointers os s cpus).1
  | .refreshTimer ctx => fireTimer s ctx
  | .elapse milliseconds => some { s with now := s.now + milliseconds }

def Call.Aside : Call → Prop
  | .advise _ _ | .unAdvise | .setSelected _ | .refreshTimer _ | .elapse _ => True
  | .setUsageScenario _ _ | .setDeselected _ _ | .getSerialization _ _ _ => False

/-- The session, its flags, and whom a stale request would name, are what they were. -/
structure Spared (s next : World) : Prop where
  session : next.session = s.session
  active : next.brokerSessionActive = s.brokerSessionActive
  awaiting : next.brokerAwaitingFinal = s.brokerAwaitingFinal
  flow : next.lastBrokerFlowState = s.lastBrokerFlowState
  generation : next.sessionGeneration = s.sessionGeneration
  nextHandle : next.nextHandle = s.nextHandle
  trace : ∃ effects, next.trace = effects ++ s.trace ∧ ∀ effect ∈ effects, effect.Quiet

theorem step_aside {machine : Machine} {call : Call} {s next : World}
    (stepped : step machine s call = some next) (aside : call.Aside) : Spared s next := by
  cases call with
  | setUsageScenario | setDeselected | getSerialization => exact aside.elim
  | advise events context =>
    cases stepped
    obtain ⟨effects, same, quiet⟩ := setProviderEvents_frame s events context
    rw [same]
    exact ⟨rfl, rfl, rfl, rfl, rfl, rfl, effects, rfl, quiet⟩
  | unAdvise =>
    cases stepped
    obtain ⟨effects, same, quiet⟩ := clearProviderEvents_frame s
    rw [same]
    exact ⟨rfl, rfl, rfl, rfl, rfl, rfl, effects, rfl, quiet⟩
  | setSelected cpus =>
    cases stepped
    obtain ⟨tick, force, same⟩ := setSelected_frame s cpus
    rw [same]
    exact ⟨rfl, rfl, rfl, rfl, rfl, rfl, [], rfl, by simp⟩
  | refreshTimer ctx =>
    obtain ⟨_, rfl⟩ := fireTimer_eq_some.mp stepped
    obtain ⟨effects, same, quiet⟩ :=
      credRefreshTimerCallback_frame { s with outstanding := s.outstanding.erase ctx } ctx
    rw [same]
    exact ⟨rfl, rfl, rfl, rfl, rfl, rfl, effects, rfl, quiet⟩
  | elapse milliseconds =>
    cases stepped
    exact ⟨rfl, rfl, rfl, rfl, rfl, rfl, [], rfl, by simp⟩

def Call.Unfired : Call → Prop
  | .advise _ _ | .unAdvise | .setSelected _ | .elapse _ => True
  | .setUsageScenario _ _ | .setDeselected _ _ | .getSerialization _ _ _ | .refreshTimer _ => False

theorem step_unfired {machine : Machine} {call : Call} {s next : World}
    (stepped : step machine s call = some next) (unfired : call.Unfired) :
    next.outstanding = s.outstanding ∧ next.refreshPending = s.refreshPending := by
  cases call with
  | setUsageScenario | setDeselected | getSerialization | refreshTimer => exact unfired.elim
  | advise events context =>
    cases stepped
    obtain ⟨effects, same, _⟩ := setProviderEvents_frame s events context
    rw [same]
    exact ⟨rfl, rfl⟩
  | unAdvise =>
    cases stepped
    obtain ⟨effects, same, _⟩ := clearProviderEvents_frame s
    rw [same]
    exact ⟨rfl, rfl⟩
  | setSelected cpus =>
    cases stepped
    obtain ⟨tick, force, same⟩ := setSelected_frame s cpus
    rw [same]
    exact ⟨rfl, rfl⟩
  | elapse milliseconds =>
    cases stepped
    exact ⟨rfl, rfl⟩

abbrev Reachable (machine : Machine) (s : World) : Prop :=
  Transition.Reachable (step machine) World.initial s

end Dot1xCP.Core
