import Dot1xCP.Core.World

/-! The flags, the auto-submit window and the refresh timer of `Provider.cpp`.

Each function here runs on one thread without interleaving; an `Interlocked` access
is then a plain read or write.
-/

set_option autoImplicit false

namespace Dot1xCP.Core

def isCurrentSessionGeneration (s : World) (generation : BitVec 32) : Bool :=
  generation == s.sessionGeneration

def tryAcquireAutoSubmitWindow (s : World) (minIntervalMs : BitVec 32) : World × Bool :=
  let nowTick := getTickCount s
  let lastTick := s.autoSubmitTick
  let elapsed := nowTick - lastTick
  if lastTick = 0 ∨ minIntervalMs ≤ elapsed then ({ s with autoSubmitTick := nowTick }, true)
  else (s, false)

theorem tryAcquireAutoSubmitWindow_frame (s : World) (minIntervalMs : BitVec 32) :
    ∃ tick, (tryAcquireAutoSubmitWindow s minIntervalMs).1 = { s with autoSubmitTick := tick } := by
  simp only [tryAcquireAutoSubmitWindow]
  split <;> exact ⟨_, rfl⟩

def markAutoSubmitTickNow (s : World) : World := { s with autoSubmitTick := getTickCount s }

def credRefreshTimerCallback (s : World) (ctx : CredRefreshAsyncCtx) : World :=
  let s :=
    if isCurrentSessionGeneration s ctx.sessionGeneration then
      s.emit (.credentialsChanged ctx.events ctx.context)
    else s
  let s := s.emit (.release ctx.events)
  { s with refreshPending := false }

theorem credRefreshTimerCallback_frame (s : World) (ctx : CredRefreshAsyncCtx) :
    ∃ effects, credRefreshTimerCallback s ctx =
        { s with refreshPending := false, trace := effects ++ s.trace } ∧
      ∀ effect ∈ effects, effect.Quiet := by
  simp only [credRefreshTimerCallback]
  split
  · exact ⟨[.release ctx.events, .credentialsChanged ctx.events ctx.context], rfl,
      by simp [Effect.Quiet]⟩
  · exact ⟨[.release ctx.events], rfl, by simp [Effect.Quiet]⟩

def setBrokerSessionActive (s : World) (active : Bool) : World :=
  let s := { s with brokerSessionActive := active }
  if active then s
  else
    { s with
      brokerAwaitingFinal := false
      autoSubmitTick := 0
      sessionGeneration := s.sessionGeneration + 1 }

def setBrokerAwaitingFinal (s : World) (awaiting : Bool) : World :=
  let s := { s with brokerAwaitingFinal := awaiting }
  if awaiting then { s with autoSubmitTick := 0 } else s

def armForceNextAutoSubmit (s : World) : World := { s with forceNextAutoSubmit := true }

def resetForceNextAutoSubmit (s : World) : World := { s with forceNextAutoSubmit := false }

def consumeForceNextAutoSubmit (s : World) : World × Bool :=
  ({ s with forceNextAutoSubmit := false }, s.forceNextAutoSubmit)

structure RefreshOs where
  newCtx : Bool
  createThreadpoolTimer : Bool
  deriving DecidableEq, Repr

def requestCredentialsChangedAsync (os : RefreshOs) (s : World) (delayMs : Nat)
    (sessionGeneration : BitVec 32) : World :=
  let sessionGeneration :=
    if sessionGeneration.toInt ≤ 0 then s.sessionGeneration else sessionGeneration
  if s.refreshPending then s
  else
    let s := { s with refreshPending := true }
    match s.cpEvents with
    | none => { s with refreshPending := false }
    | some events =>
      let context := s.cpEventsContext
      let s := s.emit (.addRef events)
      if !os.newCtx then { s.emit (.release events) with refreshPending := false }
      else if !os.createThreadpoolTimer then { s.emit (.release events) with refreshPending := false }
      else
        let ctx := ⟨events, context, sessionGeneration, s.now + delayMs⟩
        { s with outstanding := ctx :: s.outstanding }

theorem requestCredentialsChangedAsync_coalesced {s : World} (pending : s.refreshPending = true)
    (os : RefreshOs) (delayMs : Nat) (generation : BitVec 32) :
    requestCredentialsChangedAsync os s delayMs generation = s := by
  simp [requestCredentialsChangedAsync, pending]

/-- With events advised and the system willing, a request that finds none pending arms
a timer. The generation it carries is the current one in either case. -/
theorem requestCredentialsChangedAsync_armed {os : RefreshOs} {s : World} {events : Events}
    (idle : s.refreshPending = false) (advised : s.cpEvents = some events)
    (newCtx : os.newCtx = true) (created : os.createThreadpoolTimer = true) (delayMs : Nat) :
    requestCredentialsChangedAsync os s delayMs s.sessionGeneration =
      { s with
        refreshPending := true
        outstanding := ⟨events, s.cpEventsContext, s.sessionGeneration, s.now + delayMs⟩ ::
          s.outstanding
        trace := .addRef events :: s.trace } := by
  simp [requestCredentialsChangedAsync, idle, advised, newCtx, created, World.emit]

theorem requestCredentialsChangedAsync_dropped {os : RefreshOs} {s : World} {events : Events}
    (idle : s.refreshPending = false) (advised : s.cpEvents = some events)
    (failed : os.newCtx = false ∨ os.createThreadpoolTimer = false) (delayMs : Nat)
    (generation : BitVec 32) :
    requestCredentialsChangedAsync os s delayMs generation =
      { s with
        refreshPending := false
        trace := [.release events, .addRef events] ++ s.trace } := by
  rcases failed with failed | failed <;>
    simp [requestCredentialsChangedAsync, idle, advised, failed, World.emit]

/-- All that a request can do: nothing, or take a reference and release it again, or arm
a timer that holds one. -/
theorem requestCredentialsChangedAsync_cases (os : RefreshOs) (s : World) (delayMs : Nat)
    (generation : BitVec 32) :
    requestCredentialsChangedAsync os s delayMs generation = s ∨
      (∃ events, s.cpEvents = some events ∧
        requestCredentialsChangedAsync os s delayMs generation =
          { s with trace := [.release events, .addRef events] ++ s.trace }) ∨
      ∃ events, s.refreshPending = false ∧ s.cpEvents = some events ∧
        requestCredentialsChangedAsync os s delayMs generation =
          { s with
            refreshPending := true
            outstanding :=
              ⟨events, s.cpEventsContext,
                if generation.toInt ≤ 0 then s.sessionGeneration else generation, s.now + delayMs⟩ ::
              s.outstanding
            trace := [.addRef events] ++ s.trace } := by
  rcases s.refreshPending.eq_false_or_eq_true with pending | idle
  · exact Or.inl (requestCredentialsChangedAsync_coalesced pending os delayMs generation)
  -- On every exit that arms no timer the flag is what it was.
  have kept (trace : List Effect) :
      { s with refreshPending := false, trace := trace } = { s with trace := trace } := by rw [← idle]
  rcases Option.eq_none_or_eq_some s.cpEvents with unadvised | ⟨events, advised⟩
  · have none : requestCredentialsChangedAsync os s delayMs generation =
        { s with refreshPending := false } := by
      simp [requestCredentialsChangedAsync, idle, unadvised]
    exact Or.inl (none.trans (kept s.trace))
  · by_cases failed : os.newCtx = false ∨ os.createThreadpoolTimer = false
    · have dropped := requestCredentialsChangedAsync_dropped idle advised failed delayMs generation
      exact Or.inr (Or.inl ⟨events, advised, dropped.trans (kept _)⟩)
    · simp only [not_or, Bool.not_eq_false] at failed
      refine Or.inr (Or.inr ⟨events, idle, advised, ?_⟩)
      simp [requestCredentialsChangedAsync, idle, advised, failed, World.emit]

theorem requestCredentialsChangedAsync_frame (os : RefreshOs) (s : World) (delayMs : Nat)
    (generation : BitVec 32) :
    ∃ pending outstanding effects,
      requestCredentialsChangedAsync os s delayMs generation =
        { s with
          refreshPending := pending
          outstanding := outstanding
          trace := effects ++ s.trace } ∧
      ∀ effect ∈ effects, effect.Quiet := by
  rcases requestCredentialsChangedAsync_cases os s delayMs generation with
    same | ⟨events, _, same⟩ | ⟨events, _, _, same⟩
  · exact ⟨s.refreshPending, s.outstanding, [], same, by simp⟩
  · exact ⟨s.refreshPending, s.outstanding, _, same, by simp [Effect.Quiet]⟩
  · exact ⟨true, _ :: s.outstanding, _, same, by simp [Effect.Quiet]⟩

def releaseEvents (s : World) : World :=
  match s.cpEvents with
  | none => s
  | some events => { s.emit (.release events) with cpEvents := none }

theorem releaseEvents_frame (s : World) :
    ∃ effects, releaseEvents s = { s with cpEvents := none, trace := effects ++ s.trace } ∧
      ∀ effect ∈ effects, effect.Quiet := by
  unfold releaseEvents
  split
  next advised => exact ⟨[], by rw [← advised]; rfl, by simp⟩
  next events _ => exact ⟨[.release events], rfl, by simp [Effect.Quiet]⟩

def setProviderEvents (s : World) (events : Option Events) (context : Nat) : World :=
  let s := releaseEvents s
  let s := { s with cpEventsContext := context, cpEvents := events }
  match events with
  | none => s
  | some events => s.emit (.addRef events)

def clearProviderEvents (s : World) : World := { releaseEvents s with cpEventsContext := 0 }

theorem setProviderEvents_frame (s : World) (events : Option Events) (context : Nat) :
    ∃ effects, setProviderEvents s events context =
        { s with cpEvents := events, cpEventsContext := context, trace := effects ++ s.trace } ∧
      ∀ effect ∈ effects, effect.Quiet := by
  obtain ⟨effects, released, quiet⟩ := releaseEvents_frame s
  simp only [setProviderEvents, released]
  cases events with
  | none => exact ⟨effects, rfl, quiet⟩
  | some events =>
    refine ⟨.addRef events :: effects, rfl, ?_⟩
    intro effect inside
    rcases List.mem_cons.mp inside with rfl | inside
    · trivial
    · exact quiet effect inside

theorem clearProviderEvents_frame (s : World) :
    ∃ effects, clearProviderEvents s =
        { s with cpEvents := none, cpEventsContext := 0, trace := effects ++ s.trace } ∧
      ∀ effect ∈ effects, effect.Quiet := by
  obtain ⟨effects, released, quiet⟩ := releaseEvents_frame s
  rw [clearProviderEvents, released]
  exact ⟨effects, rfl, quiet⟩

end Dot1xCP.Core
