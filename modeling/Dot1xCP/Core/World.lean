import Dot1xCP.Lib.Transition

/-! The state that the calls of the provider share.

`World` holds the globals of `Provider.cpp` and `ProviderBrokerSession.cpp` and
what the system keeps for them: the armed timers, the clock, the handles given out
so far, and a trace of the system calls that matter to ownership, newest first.
The `LONG` globals that only ever hold 0 and 1 are Booleans.
-/

set_option autoImplicit false

namespace Dot1xCP.Core

/-- A handle value; every handle the system opens is a new one. -/
abbrev Handle := Nat

structure ProcessInformation where
  hProcess : Option Handle
  hThread : Option Handle
  deriving DecidableEq, Repr

def ProcessInformation.zero : ProcessInformation := ⟨none, none⟩

/-- `none` stands for `INVALID_HANDLE_VALUE`. -/
structure BrokerSessionState where
  hPipe : Option Handle
  pi : ProcessInformation
  connected : Bool
  deriving DecidableEq, Repr

def BrokerSessionState.closed : BrokerSessionState := ⟨none, .zero, false⟩

/-- `g_lastBrokerFlowState`: 0, 1 and 2. -/
inductive FlowState where
  | none
  | pending
  | idle
  deriving DecidableEq, Repr

inductive WaitResult where
  | object0
  | timeout
  | failed
  deriving DecidableEq, Repr

abbrev Events := Nat

inductive Effect where
  | pipeCreated (pipe : Handle)
  | launchBroker
  | processCreated (process thread : Handle)
  | waited (process : Handle) (milliseconds : Nat) (result : WaitResult)
  | terminated (process : Handle) (succeeded : Bool)
  | closed (handle : Handle)
  | addRef (events : Events)
  | release (events : Events)
  | credentialsChanged (events : Events) (context : Nat)
  deriving DecidableEq, Repr

def Effect.Quiet : Effect → Prop
  | .waited _ _ _ | .terminated _ _ | .addRef _ | .release _ | .credentialsChanged _ _ => True
  | _ => False

structure CredRefreshAsyncCtx where
  events : Events
  context : Nat
  sessionGeneration : BitVec 32
  /-- The true time in milliseconds before which the timer does not fire. -/
  due : Nat
  deriving DecidableEq, Repr

structure World where
  brokerSessionActive : Bool
  brokerAwaitingFinal : Bool
  refreshPending : Bool
  autoSubmitTick : BitVec 32
  forceNextAutoSubmit : Bool
  sessionGeneration : BitVec 32
  cpEvents : Option Events
  cpEventsContext : Nat
  lastBrokerFlowState : FlowState
  session : BrokerSessionState
  outstanding : List CredRefreshAsyncCtx
  now : Nat
  nextHandle : Handle
  trace : List Effect
  deriving DecidableEq, Repr

def World.initial : World where
  brokerSessionActive := false
  brokerAwaitingFinal := false
  refreshPending := false
  autoSubmitTick := 0
  forceNextAutoSubmit := false
  sessionGeneration := 1
  cpEvents := none
  cpEventsContext := 0
  lastBrokerFlowState := .none
  session := .closed
  outstanding := []
  now := 0
  nextHandle := 1
  trace := []

def World.emit (s : World) (effect : Effect) : World := { s with trace := effect :: s.trace }

def World.emits (s : World) (effects : List Effect) : World :=
  { s with trace := effects ++ s.trace }

@[simp] theorem World.emits_emits (s : World) (first second : List Effect) :
    (s.emits first).emits second = s.emits (second ++ first) := by
  simp [World.emits]

/-- No session, and every flag that belongs to one reset; requests that carry the old
generation are void. -/
def World.ended (s : World) : World :=
  { s with
    session := .closed
    brokerSessionActive := false
    brokerAwaitingFinal := false
    autoSubmitTick := 0
    sessionGeneration := s.sessionGeneration + 1
    lastBrokerFlowState := .none }

def getTickCount (s : World) : BitVec 32 := BitVec.ofNat 32 s.now

end Dot1xCP.Core
