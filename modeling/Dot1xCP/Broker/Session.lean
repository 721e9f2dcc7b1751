import Dot1xCP.Core.Provider

/-! The broker session of `ProviderBrokerSession.cpp`. Its lock is held around every
use, so the functions run one at a time. -/

set_option autoImplicit false

namespace Dot1xCP.Broker
open Dot1xCP.Core

structure CloseOs where
  waitForSingleObject : WaitResult
  terminateProcess : Bool
  waitAfterTerminate : WaitResult
  deriving DecidableEq, Repr

/-- A wait on a valid process handle does not fail, and neither does a termination. -/
def CloseOs.Reliable (os : CloseOs) : Prop :=
  os.waitForSingleObject ≠ .failed ∧ os.terminateProcess = true

def waitAndCloseBrokerProcess (os : CloseOs) (s : World) (pi : ProcessInformation) (waitMs : Nat) :
    World × ProcessInformation :=
  let (s, pi) :=
    match pi.hProcess with
    | none => (s, pi)
    | some process =>
      let s := s.emit (.waited process waitMs os.waitForSingleObject)
      let s :=
        match os.waitForSingleObject with
        | .timeout =>
          let s := s.emit (.terminated process os.terminateProcess)
          if !os.terminateProcess then s
          else s.emit (.waited process 500 os.waitAfterTerminate)
        | .failed => s
        | .object0 => s
      (s.emit (.closed process), { pi with hProcess := none })
  match pi.hThread with
  | none => (s, pi)
  | some thread => (s.emit (.closed thread), { pi with hThread := none })

def closePipeHandle (s : World) (hPipe : Option Handle) : World × Option Handle :=
  match hPipe with
  | none => (s, none)
  | some pipe => (s.emit (.closed pipe), none)

def updateBrokerFlowState (s : World) (state : FlowState) : World :=
  { s with lastBrokerFlowState := state }

def resetBrokerSession (os : CloseOs) (s : World) (waitMs : Nat) : World :=
  let (s, hPipe) := closePipeHandle s s.session.hPipe
  let s := { s with session := { s.session with hPipe := hPipe } }
  let (s, _) := waitAndCloseBrokerProcess os s s.session.pi waitMs
  let s := { s with session := { s.session with pi := .zero } }
  let s := { s with session := { s.session with connected := false } }
  let s := setBrokerSessionActive s false
  updateBrokerFlowState s .none

def closeBrokerSessionNow (os : CloseOs) (s : World) (waitMs : Nat) : World :=
  let s :=
    if s.session.hPipe.isSome || s.session.pi.hProcess.isSome || s.session.pi.hThread.isSome ||
        s.session.connected then
      resetBrokerSession os s waitMs
    -- Without a session the flags are reset all the same, and pending refreshes go stale.
    else setBrokerSessionActive s false
  let s := setBrokerAwaitingFinal s false
  updateBrokerFlowState s .none

def closingProcess (os : CloseOs) (pi : ProcessInformation) (waitMs : Nat) : List Effect :=
  (pi.hThread.toList.map Effect.closed) ++
    pi.hProcess.toList.flatMap fun process =>
      .closed process ::
        (match os.waitForSingleObject with
        | .timeout =>
          (if os.terminateProcess then [.waited process 500 os.waitAfterTerminate] else []) ++
            [.terminated process os.terminateProcess]
        | .failed | .object0 => []) ++
        [.waited process waitMs os.waitForSingleObject]

def closingPipe (hPipe : Option Handle) : List Effect := hPipe.toList.map Effect.closed

theorem waitAndCloseBrokerProcess_eq (os : CloseOs) (s : World) (pi : ProcessInformation)
    (waitMs : Nat) :
    waitAndCloseBrokerProcess os s pi waitMs = (s.emits (closingProcess os pi waitMs), .zero) := by
  obtain ⟨process, thread⟩ := pi
  obtain ⟨result, terminated, after⟩ := os
  cases process with
  | none => cases thread <;> rfl
  | some process =>
    cases thread <;> cases result <;> cases terminated <;>
      simp [waitAndCloseBrokerProcess, closingProcess, World.emit, World.emits, ProcessInformation.zero]

theorem closePipeHandle_eq (s : World) (hPipe : Option Handle) :
    closePipeHandle s hPipe = (s.emits (closingPipe hPipe), none) := by
  cases hPipe <;> rfl

def closingSession (os : CloseOs) (session : BrokerSessionState) (waitMs : Nat) : List Effect :=
  closingProcess os session.pi waitMs ++ closingPipe session.hPipe

theorem resetBrokerSession_eq (os : CloseOs) (s : World) (waitMs : Nat) :
    resetBrokerSession os s waitMs = s.ended.emits (closingSession os s.session waitMs) := by
  simp only [resetBrokerSession, closePipeHandle_eq, waitAndCloseBrokerProcess_eq]
  simp [World.ended, World.emits, setBrokerSessionActive, updateBrokerFlowState, closingSession,
    BrokerSessionState.closed]

/-- Nothing is closed when there is nothing to close, but the generation moves on. -/
theorem closeBrokerSessionNow_eq (os : CloseOs) (s : World) (waitMs : Nat) :
    closeBrokerSessionNow os s waitMs = s.ended.emits (closingSession os s.session waitMs) := by
  unfold closeBrokerSessionNow
  split
  next => rw [resetBrokerSession_eq]; rfl
  next nothing =>
    have closed : s.session = .closed := by
      generalize s.session = session at nothing
      obtain ⟨hPipe, ⟨hProcess, hThread⟩, connected⟩ := session
      simpa [BrokerSessionState.closed, ProcessInformation.zero, and_assoc] using nothing
    simp [World.ended, World.emits, closed, closingSession, closingProcess, closingPipe,
      BrokerSessionState.closed, ProcessInformation.zero, setBrokerSessionActive,
      setBrokerAwaitingFinal, updateBrokerFlowState]

end Dot1xCP.Broker
