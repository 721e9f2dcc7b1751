import Dot1xCP.Core.Credential
import Dot1xCP.Broker.Protocol

/-! Session coherence.

The session is a struct and several flags that many paths reset by hand. Between calls
they always agree: all parts of a session are present or none is, and the flow state
matches the flags.
-/

set_option autoImplicit false

namespace Dot1xCP.Core
open Broker

/-- The parts of a session and its flags agree. -/
structure Coherent (s : World) : Prop where
  connected : s.session.connected = s.brokerSessionActive
  pipe : s.session.hPipe.isSome = s.brokerSessionActive
  process : s.session.pi.hProcess.isSome = s.brokerSessionActive
  thread : s.session.pi.hThread.isSome = s.brokerSessionActive
  awaiting : s.brokerAwaitingFinal = true ↔ s.lastBrokerFlowState = .pending
  flow : s.brokerSessionActive = false → s.lastBrokerFlowState = .none

theorem coherent_initial : Coherent World.initial where
  connected := rfl
  pipe := rfl
  process := rfl
  thread := rfl
  awaiting := by decide
  flow _ := rfl

section Step
variable {s : World}

theorem Coherent.congr {next : World} (coherent : Coherent s) (session : next.session = s.session)
    (active : next.brokerSessionActive = s.brokerSessionActive)
    (awaiting : next.brokerAwaitingFinal = s.brokerAwaitingFinal)
    (flow : next.lastBrokerFlowState = s.lastBrokerFlowState) : Coherent next where
  connected := by rw [session, active, coherent.connected]
  pipe := by rw [session, active, coherent.pipe]
  process := by rw [session, active, coherent.process]
  thread := by rw [session, active, coherent.thread]
  awaiting := by rw [awaiting, flow, coherent.awaiting]
  flow := by
    rw [active, flow]
    exact coherent.flow

theorem Coherent.closed (coherent : Coherent s) (inactive : s.brokerSessionActive = false) :
    World.Closed s := by
  have connected := coherent.connected
  have pipe := coherent.pipe
  have process := coherent.process
  have thread := coherent.thread
  rw [inactive] at connected pipe process thread
  refine ⟨?_, coherent.flow inactive⟩
  generalize s.session = session at connected pipe process thread
  obtain ⟨hPipe, ⟨hProcess, hThread⟩, flag⟩ := session
  rw [Option.isSome_eq_false_iff, Option.isNone_iff_eq_none] at pipe process thread
  simp only at connected pipe process thread
  subst connected pipe process thread
  rfl

theorem coherent_ended (s : World) (effects : List Effect) : Coherent (s.ended.emits effects) where
  connected := rfl
  pipe := rfl
  process := rfl
  thread := rfl
  awaiting := by simp [World.ended, World.emits]
  flow _ := rfl

theorem coherent_started (s : World) : Coherent (World.started s) where
  connected := rfl
  pipe := rfl
  process := rfl
  thread := rfl
  awaiting := by simp [World.started]
  flow active := by cases active

theorem Coherent.request (coherent : Coherent s) (os : RefreshOs) (delayMs : Nat)
    (generation : BitVec 32) : Coherent (requestCredentialsChangedAsync os s delayMs generation) := by
  obtain ⟨pending, outstanding, effects, same, _⟩ :=
    requestCredentialsChangedAsync_frame os s delayMs generation
  rw [same]
  exact coherent.congr rfl rfl rfl rfl

theorem Coherent.afterRead (coherent : Coherent s) (active : s.brokerSessionActive = true)
    (os : SerializationOs) (verdict : Verdict) : Coherent (afterRead os s verdict) := by
  cases verdict with
  | timeout => exact coherent.request _ _ _
  | lost =>
    apply Coherent.request
    -- Arming the forced submit does not touch the session.
    have ended := coherent_ended s (closingSession os.close s.session 0)
    exact ended.congr rfl rfl rfl rfl
  | empty => exact coherent_ended s _
  | malformed => exact coherent_ended s _
  | pending =>
    have marked : Coherent
        { s with brokerAwaitingFinal := true, autoSubmitTick := 0, lastBrokerFlowState := .pending } :=
      { connected := coherent.connected
        pipe := coherent.pipe
        process := coherent.process
        thread := coherent.thread
        awaiting := iff_of_true rfl rfl
        -- The flow state may be set because the session is active.
        flow inactive := by cases active.symm.trans inactive }
    exact marked.request _ _ _
  | idle =>
    have marked : Coherent { s with brokerAwaitingFinal := false, lastBrokerFlowState := .idle } :=
      { connected := coherent.connected
        pipe := coherent.pipe
        process := coherent.process
        thread := coherent.thread
        awaiting := iff_of_false Bool.false_ne_true FlowState.noConfusion
        flow inactive := by cases active.symm.trans inactive }
    exact marked.request _ _ _
  | final m => exact coherent_ended s _

theorem Coherent.afterStart (coherent : Coherent s) (os : SerializationOs) (verdict : StartVerdict) :
    Coherent (afterStart os s verdict) := by
  cases verdict with
  | noPipe => exact coherent
  | noBroker | notConnected =>
    have ended := coherent_ended s []
    exact ended.congr rfl rfl rfl rfl
  | started => exact coherent_started s

/-- What holds of the three ways through a call, and of a call that is refused, holds of
every call. -/
theorem Coherent.getSerialization_ways {P : World → Prop} (coherent : Coherent s)
    (machine : Machine) (pointers : OutPointers) (os : SerializationOs) (cpus : UsageScenario)
    (refused : P s)
    (live : s.brokerSessionActive = true → ∀ verdict, P (Broker.afterRead os s verdict))
    (opened : World.Closed s → ∀ verdict, P (Broker.afterRead os (World.started s) verdict))
    (failed : World.Closed s → ∀ verdict, P (Broker.afterStart os s verdict)) :
    P (getSerialization machine pointers os s cpus).1 := by
  by_cases null : pointers.pcpgsr = false ∨ pointers.pcpcs = false
  · rw [getSerialization_null machine pointers os s cpus null]
    exact refused
  · simp only [not_or, Bool.not_eq_false] at null
    -- Coherence decides which of the two paths the test of the handles takes.
    cases active : s.brokerSessionActive with
    | true =>
      rw [getSerialization_live machine os null.1 null.2 (coherent.pipe.trans active)
        (coherent.process.trans active)]
      exact live active _
    | false =>
      have closed := coherent.closed active
      rw [getSerialization_closed machine os null.1 null.2 closed]
      split
      · exact opened closed _
      · exact failed closed _

theorem Coherent.getSerialization (coherent : Coherent s) (machine : Machine) (pointers : OutPointers)
    (os : SerializationOs) (cpus : UsageScenario) :
    Coherent (getSerialization machine pointers os s cpus).1 := by
  refine coherent.getSerialization_ways machine pointers os cpus coherent ?_ ?_ ?_
  · intro active verdict
    exact coherent.afterRead active os verdict
  · intro _ verdict
    exact (coherent_started s).afterRead rfl os verdict
  · intro _ verdict
    exact coherent.afterStart os verdict

theorem coherent_closeBrokerSessionNow (os : CloseOs) (s : World) (waitMs : Nat) :
    Coherent (closeBrokerSessionNow os s waitMs) := by
  rw [closeBrokerSessionNow_eq]
  exact coherent_ended s _

theorem coherent_reset {s : World} (coherent : Coherent s) (inactive : s.brokerSessionActive = false) :
    Coherent (setBrokerAwaitingFinal (setBrokerSessionActive s false) false) := by
  have flow := coherent.flow inactive
  refine ⟨?_, ?_, ?_, ?_, ?_, fun _ => flow⟩
  · exact coherent.connected.trans inactive
  · exact coherent.pipe.trans inactive
  · exact coherent.process.trans inactive
  · exact coherent.thread.trans inactive
  · exact iff_of_false Bool.false_ne_true fun pending => by cases flow.symm.trans pending

theorem Coherent.setUsageScenario (coherent : Coherent s) (os : CloseOs) (cpus : UsageScenario) :
    Coherent (setUsageScenario os s cpus).1 := by
  unfold Core.setUsageScenario
  -- A logon scenario with a session running changes nothing.
  split
  · dsimp only
    split
    · rw [closeBrokerSessionNow_eq]
      have ended := coherent_ended s (closingSession os s.session 0)
      exact coherent_reset (ended.congr rfl rfl rfl rfl) rfl
    · exact coherent
  · dsimp only
    rw [closeBrokerSessionNow_eq]
    exact coherent_reset (coherent_ended _ _) rfl

theorem Coherent.setSelected (coherent : Coherent s) (cpus : UsageScenario) :
    Coherent (setSelected s cpus).1 := by
  obtain ⟨tick, force, same⟩ := setSelected_frame s cpus
  rw [same]
  exact coherent.congr rfl rfl rfl rfl

theorem Coherent.setDeselected (coherent : Coherent s) (os : CloseOs) (cpus : UsageScenario) :
    Coherent (setDeselected os s cpus) := by
  unfold Core.setDeselected
  split
  · have ended := coherent_closeBrokerSessionNow os s 0
    exact ended.congr rfl rfl rfl rfl
  · exact coherent

theorem Spared.coherent {next : World} (spared : Spared s next) (coherent : Coherent s) :
    Coherent next :=
  coherent.congr spared.session spared.active spared.awaiting spared.flow

theorem Coherent.step (coherent : Coherent s) {machine : Machine} {call : Call} {next : World}
    (stepped : step machine s call = some next) : Coherent next := by
  cases call with
  | setUsageScenario cpus os =>
    cases stepped
    exact coherent.setUsageScenario os cpus
  | setDeselected cpus os =>
    cases stepped
    exact coherent.setDeselected os cpus
  | getSerialization cpus pointers os =>
    cases stepped
    exact coherent.getSerialization machine pointers os cpus
  | advise | unAdvise | setSelected | refreshTimer | elapse =>
    exact (step_aside stepped trivial).coherent coherent

end Step

theorem Reachable.coherent {machine : Machine} {s : World} (reached : Reachable machine s) :
    Coherent s :=
  Transition.Reachable.invariant (fun _ _ _ coherent stepped => coherent.step stepped)
    coherent_initial reached

/-- Between any two calls, whatever the system answered, the session is coherent. -/
theorem session_coherence (machine : Machine) (calls : List Call) (s : World)
    (ran : Transition.run (step machine) World.initial calls = some s) : Coherent s :=
  Reachable.coherent ⟨calls, ran⟩

def sampleMachine : Machine where
  abi := .x64
  multiByteToWideChar u8 := Utf.utf16 (Utf.decodeUtf8 u8)

def sampleSystem (read : PipeReadResult) (message : List UInt8) : SerializationOs where
  createPipe := ⟨true, true, true⟩
  launch := ⟨.ok (), .ok ()⟩
  connect := ⟨true, .ok (), .object0, .ok ()⟩
  read := read
  message := message
  close := ⟨.object0, true, .object0⟩
  refresh := ⟨true, true⟩
  auth :=
    { resolveNegotiate := some 3
      resolveMsv := some 2
      activeConsoleSessionId := 1
      tokenLogonId := some ⟨0x3E7, 0⟩
      computerName := none
      coTaskMemAlloc := fun _ => some 0x10000 }
  dupSysAlloc := true

def allPointers : OutPointers := ⟨true, true, true, true⟩

def sampleCall (read : PipeReadResult) (message : List UInt8) : Call :=
  .getSerialization .logon allPointers (sampleSystem read message)

def pendingMessage : List UInt8 := ascii "\x7b\"type\":\"AUTH_PENDING\"\x7d"

theorem session_coherence_pending :
    ∃ s, Transition.run (step sampleMachine) World.initial
        [.setUsageScenario .logon ⟨.object0, true, .object0⟩, .advise (some 7) 0,
          sampleCall .ok pendingMessage] = some s ∧
      s.brokerSessionActive = true ∧ s.brokerAwaitingFinal = true ∧ Coherent s := by
  have ran : ((Transition.run (step sampleMachine) World.initial
      [.setUsageScenario .logon ⟨.object0, true, .object0⟩, .advise (some 7) 0,
        sampleCall .ok pendingMessage]).map fun s => s.brokerSessionActive && s.brokerAwaitingFinal) =
      some true := by decide +kernel
  obtain ⟨s, reached, flags⟩ := Option.map_eq_some_iff.mp ran
  rw [Bool.and_eq_true] at flags
  exact ⟨s, reached, flags.1, flags.2, session_coherence sampleMachine _ s reached⟩

end Dot1xCP.Core
