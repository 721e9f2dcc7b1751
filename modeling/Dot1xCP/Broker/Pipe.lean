import Dot1xCP.Core.World

/-! Creating the pipe server, launching the broker and waiting for it to connect. -/

set_option autoImplicit false

namespace Dot1xCP.Broker
open Dot1xCP.Core

inductive PipeConnectResult where
  | connected
  | timeout
  | brokerExited
  | failed
  deriving DecidableEq, Repr

inductive PipeReadResult where
  | ok
  | timeout
  | brokerExited
  | failed
  deriving DecidableEq, Repr

/-- Which of the three `CreateNamedPipeW` calls succeed: with the strict descriptor,
with the relaxed one, with none. -/
structure CreatePipeOs where
  strict : Bool
  relax : Bool
  noAttributes : Bool
  deriving DecidableEq, Repr

def createRestrictedPipeServer (os : CreatePipeOs) (s : World) : World × Option Handle :=
  let created := os.strict || os.relax || os.noAttributes
  if created then
    let pipe := s.nextHandle
    ({ s.emit (.pipeCreated pipe) with nextHandle := s.nextHandle + 1 }, some pipe)
  else (s, none)

def errorAccessDenied : Nat := 5
def errorNotSupported : Nat := 50
def errorInvalidParameter : Nat := 87

structure LaunchOs where
  withBreakaway : Except Nat Unit
  withoutBreakaway : Except Nat Unit

def createProcessSucceeds (os : LaunchOs) : Bool :=
  match os.withBreakaway with
  | .ok _ => true
  | .error firstErr =>
    if firstErr = errorAccessDenied ∨ firstErr = errorNotSupported ∨
        firstErr = errorInvalidParameter then
      -- The second attempt does without leaving the job object.
      match os.withoutBreakaway with
      | .ok _ => true
      | .error _ => false
    else false

/-- The state, whether a process runs, and the `PROCESS_INFORMATION` written. -/
def launchBroker (os : LaunchOs) (s : World) : World × Bool × ProcessInformation :=
  let s := s.emit .launchBroker
  if createProcessSucceeds os then
    let process := s.nextHandle
    let thread := s.nextHandle + 1
    ({ s.emit (.processCreated process thread) with nextHandle := s.nextHandle + 2 }, true,
      ⟨some process, some thread⟩)
  else (s, false, .zero)

def errorPipeConnected : Nat := 535
def errorIoPending : Nat := 997

inductive MultipleWaitResult where
  | object0
  | object1
  | timeout
  | other
  deriving DecidableEq, Repr

structure ConnectOs where
  createEvent : Bool
  connectNamedPipe : Except Nat Unit
  waitForMultipleObjects : MultipleWaitResult
  getOverlappedResult : Except Nat Unit

/-- The event is closed on every path, and a pending connect is cancelled. -/
def waitPipeClientConnect (os : ConnectOs) : PipeConnectResult :=
  if !os.createEvent then .failed
  else
    match os.connectNamedPipe with
    | .ok _ => .connected
    | .error le =>
      -- The client was faster than the call.
      if le = errorPipeConnected then .connected
      else if le ≠ errorIoPending then .failed
      else
        match os.waitForMultipleObjects with
        | .object0 =>
          match os.getOverlappedResult with
          | .ok _ => .connected
          | .error gle => if gle = errorPipeConnected then .connected else .failed
        | .object1 => .brokerExited
        | .timeout => .timeout
        | .other => .failed

end Dot1xCP.Broker
