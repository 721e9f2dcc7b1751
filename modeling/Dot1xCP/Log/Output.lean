import Dot1xCP.Log.Calls

/-! What the calls of the provider write to the log, in the order in which they write it.

The states on the way are those of the model of each call. The package caches are part of
the state here, so the lookups of `AuthOs` are answered from them.
-/

set_option autoImplicit false

namespace Dot1xCP.Log
open Dot1xCP.Core Broker Auth Broker.PipeName Transition

/-- The results of the LSA calls; a status is an error if its highest bit is set. -/
structure LsaStatus where
  connect : UInt32
  lookup : UInt32
  t : UInt32
  stClose : UInt32
  deriving DecidableEq, Repr

def failed (st : UInt32) : Bool := 0x80000000 ≤ st

def LsaStatus.answers (status : LsaStatus) : LsaOs where
  connectUntrusted := !failed status.connect
  lookupAuthenticationPackage := if failed status.lookup then none else some status.t
  deregisterLogonProcess := !failed status.stClose

/-- What the log shows of the system, besides what the calls act on: the error codes behind
the failures, and what is only logged. -/
structure LogOs where
  pipeName : PipeNameOs
  strictError : UInt32
  relaxError : UInt32
  noAttributesError : UInt32
  pipeCreateError : UInt32
  brokerMissing : Option UInt32
  processId : UInt32
  waitError : UInt32
  terminateError : UInt32
  exitCode : Option UInt32
  readFailures : List ReadFailure
  lsa : LsaStatus

section Functions
variable (lo : LogOs)

def waitAndCloseBrokerProcess (os : CloseOs) (pi : ProcessInformation) : List LogCall :=
  match pi.hProcess with
  | none => []
  | some _ =>
    match os.waitForSingleObject with
    | .timeout =>
      .brokerDidNotExit ::
        if !os.terminateProcess then [.terminateProcessFailed lo.terminateError] else []
    | .failed => [.waitForSingleObjectFailed lo.waitError]
    | .object0 => []

def updateBrokerFlowState (s : World) (state : FlowState) (transitionLog : LogCall) : List LogCall :=
  if s.lastBrokerFlowState ≠ state then [transitionLog] else []

def resetBrokerSession (os : CloseOs) (s : World) : List LogCall :=
  waitAndCloseBrokerProcess lo os s.session.pi

def closeBrokerSessionNow (os : CloseOs) (s : World) (reasonLog : LogCall) : List LogCall :=
  reasonLog ::
    if s.session.hPipe.isSome || s.session.pi.hProcess.isSome || s.session.pi.hThread.isSome ||
        s.session.connected then
      resetBrokerSession lo os s
    else []

def makePipeName (os : PipeNameOs) : LogCall :=
  match os.coCreateGuid with
  | none => .pipeName .fallback (PipeName.makePipeName os)
  | some _ =>
    if os.stringFromGUID2 then .pipeName .guid (PipeName.makePipeName os)
    else .pipeName .fallback2 (PipeName.makePipeName os)

def createRestrictedPipeServer (os : CreatePipeOs) : List LogCall :=
  if os.strict then []
  else
    .createNamedPipeFailed lo.strictError .strict ::
      if os.relax then []
      else
        .createNamedPipeFailed lo.relaxError .relax ::
          if os.noAttributes then [] else [.createNamedPipeFailedFinal lo.noAttributesError]

def createProcess (os : LaunchOs) : List LogCall :=
  match os.withBreakaway with
  | .ok _ => [.brokerLaunched lo.processId true]
  | .error firstErr =>
    if firstErr = errorAccessDenied ∨ firstErr = errorNotSupported ∨
        firstErr = errorInvalidParameter then
      .breakawayFailed (.ofNat firstErr) ::
        match os.withoutBreakaway with
        | .ok _ => [.withoutBreakaway, .brokerLaunched lo.processId false]
        | .error le => [.brokerLaunchFailed (.ofNat le)]
    else [.brokerLaunchFailed (.ofNat firstErr)]

def launchBroker (os : LaunchOs) (pipeName : Format.Text) : List LogCall :=
  (lo.brokerMissing.map LogCall.brokerPathNotFound).toList ++ .launchBrokerCmd pipeName ::
    createProcess lo os

def closeLsa (status : LsaStatus) : List LogCall :=
  if failed status.stClose then [.deregisterFailed status.stClose] else []

def resolvePkgA (status : LsaStatus) (package : Package) : List LogCall :=
  .attemptConnect ::
    if failed status.connect then [.connectUntrustedFailed status.connect]
    else
      .connected :: .lookingUp package ::
        if failed status.lookup then closeLsa status ++ [.lookupFailed package status.lookup]
        else if status.t = 0 then closeLsa status ++ [.lookupZero package]
        else .found package status.t :: closeLsa status

def resolvePkgCached (status : LsaStatus) (s : Lsa) (package : Package) : List LogCall :=
  if 0 < (s.slot package).toInt then [] else resolvePkgA status package

def packMsv (s : Lsa) (user : WString) : Lsa × List LogCall :=
  if user.isEmpty then (s, [])
  else ((resolveMsv lo.lsa.answers s).1, resolvePkgCached lo.lsa s .msv)

def packKerb (s : Lsa) (user : WString) : Lsa × List LogCall :=
  if user.isEmpty then (s, [])
  else ((resolveNegotiate lo.lsa.answers s).1, .resolveNegotiate :: resolvePkgCached lo.lsa s .kerberos)

def packAutoEx (s : Lsa) (domain user : WString) : Lsa × List LogCall :=
  if domain.isEmpty || domain == dot then
    let (s, calls) := packMsv lo s user
    (s, .localAccount :: calls)
  else
    let (s, calls) := packKerb lo s user
    (s, .domainAccount :: calls)

def authOs (os : AuthOs) (s : Lsa) : AuthOs :=
  { os with
    resolveNegotiate := (resolveNegotiate lo.lsa.answers s).2
    resolveMsv := (resolveMsv lo.lsa.answers s).2 }

/-! ## `GetSerialization` -/

variable (machine : Machine) (pointers : OutPointers) (os : SerializationOs)

def handleAuthSuccessMessage (s : Lsa) (m : Msg) (cpus : UsageScenario) (pi : ProcessInformation) :
    Lsa × List LogCall :=
  let wUser := widen machine m.sam
  let wPass := widen machine m.password
  let scen := if cpus = .unlockWorkstation then Scenario.unlock else Scenario.logon
  let (after, calls) := packAutoEx lo s dot wUser
  match Auth.packAutoEx machine.abi os.auth dot wUser wPass scen with
  | none => (after, calls ++ waitAndCloseBrokerProcess lo os.close pi ++ [.serializationFailed])
  | some pk =>
    (after, calls ++ .packedOk pk.authPkg pk.size :: .authSuccess ::
      waitAndCloseBrokerProcess lo os.close pi)

def handleParsedBrokerMessage (s : Lsa) (m : Msg) (cpus : UsageScenario) (pi : ProcessInformation) :
    Lsa × List LogCall :=
  let waited := waitAndCloseBrokerProcess lo os.close pi
  if m.type = ascii "AUTH_FAIL" then (s, waited ++ [.authFail])
  else if m.type = ascii "AUTH_FALLBACK" then (s, waited ++ [.authFallback])
  else if m.type = ascii "AUTH_SUCCESS" then handleAuthSuccessMessage lo machine os s m cpus pi
  else (s, waited ++ [.unknownMessageType])

def connectFailure (result : PipeConnectResult) : LogCall :=
  if result = .brokerExited then .connectExited
  else if result = .timeout then .connectTimeout
  else .connectFailed

def readFailure (result : PipeReadResult) : LogCall :=
  if result = .brokerExited then .readExited
  else if result = .timeout then .readTimeout
  else .noResponse

def startBrokerSession (s : World) : List LogCall :=
  let pipeName := PipeName.makePipeName lo.pipeName
  makePipeName lo.pipeName :: createRestrictedPipeServer lo os.createPipe ++
    let (s, hPipe) := Broker.createRestrictedPipeServer os.createPipe s
    let s := { s with session := { s.session with hPipe := hPipe } }
    if hPipe.isNone then [.pipeCreateFailed lo.pipeCreateError]
    else
      launchBroker lo os.launch pipeName ++
        let (s, launched, pi) := Broker.launchBroker os.launch s
        let s := { s with session := { s.session with pi := pi } }
        if !launched then resetBrokerSession lo os.close s ++ [.launchFailed]
        else
          let connectResult := waitPipeClientConnect os.connect
          if connectResult ≠ .connected then
            waitAndCloseBrokerProcess lo os.close pi ++ [connectFailure connectResult]
          else [.sessionStarted]

def logBrokerExitCodeIfAvailable (pi : ProcessInformation) : List LogCall :=
  if pi.hProcess.isNone then [] else (lo.exitCode.map LogCall.brokerExitCode).toList

def readBrokerMessage (lsa : Lsa) (s : World) (cpus : UsageScenario) : Lsa × List LogCall :=
  let failures := lo.readFailures.map LogCall.read
  let pi := s.session.pi
  if os.read = .timeout then (lsa, failures)
  else if os.read ≠ .ok ∨ os.message.isEmpty then
    let calls := failures ++ logBrokerExitCodeIfAvailable lo pi ++ waitAndCloseBrokerProcess lo os.close pi
    if os.read = .brokerExited ∨ os.read = .failed then (lsa, calls ++ [.autoRecover])
    else (lsa, calls ++ [readFailure os.read])
  else
    match parseJsonLine os.message ⟨[], [], [], []⟩ with
    | (false, _) => (lsa, failures ++ resetBrokerSession lo os.close s ++ [.parseFailed])
    | (true, m) =>
      if m.type = ascii "AUTH_PENDING" then
        (lsa, failures ++ updateBrokerFlowState s .pending .authPending)
      else if m.type = ascii "AUTH_IDLE" then
        (lsa, failures ++ updateBrokerFlowState s .idle .authIdle)
      else
        let (lsa, calls) := handleParsedBrokerMessage lo machine os lsa m cpus pi
        (lsa, failures ++ calls)

def getSerialization (lsa : Lsa) (s : World) (cpus : UsageScenario) : Lsa × List LogCall :=
  if !pointers.pcpgsr || !pointers.pcpcs then (lsa, [])
  else if s.session.hPipe.isNone || s.session.pi.hProcess.isNone then
    let started := startBrokerSession lo os s
    match Broker.startBrokerSession pointers os s (clearedOut pointers) with
    | (_, some _) => (lsa, started)
    | (s, none) =>
      let (lsa, calls) := readBrokerMessage lo machine os lsa s cpus
      (lsa, started ++ calls)
  else readBrokerMessage lo machine os lsa s cpus

def setUsageScenario (os : CloseOs) (s : World) (cpus : UsageScenario) : List LogCall :=
  if cpus = .logon then
    (if !s.brokerSessionActive then closeBrokerSessionNow lo os s .logonInit else [.logonReEnter]) ++
      [.logonSupported]
  else
    closeBrokerSessionNow lo os s .nonLogon ++
      if cpus = .unlockWorkstation then [.unlockNotSupported] else []

def setDeselected (os : CloseOs) (s : World) (cpus : UsageScenario) : List LogCall :=
  if cpus = .logon ∧ s.brokerSessionActive then closeBrokerSessionNow lo os s .setDeselected else []

end Functions

def logCode (logon active awaiting force autoSubmit : Bool) : BitVec 32 :=
  let bit (b : Bool) (mask : BitVec 32) : BitVec 32 := if b then mask else 0
  bit logon 0x01 ||| bit active 0x02 ||| bit awaiting 0x04 ||| bit force 0x08 ||| bit autoSubmit 0x10

/-- `g_lastSetSelectedDecision` afterwards, and what is logged. -/
def setSelected (last : BitVec 32) (s : World) (cpus : UsageScenario) : BitVec 32 × List LogCall :=
  let isLogonScenario := cpus = .logon
  let forceConsumed := isLogonScenario && !s.brokerSessionActive && (consumeForceNextAutoSubmit s).2
  let shouldAutoSubmit := (Core.setSelected s cpus).2
  let code := logCode isLogonScenario s.brokerSessionActive s.brokerAwaitingFinal forceConsumed
    shouldAutoSubmit
  (code, if last ≠ code then
    [.setSelected isLogonScenario s.brokerSessionActive s.brokerAwaitingFinal forceConsumed
      shouldAutoSubmit] else [])

end Dot1xCP.Log
