import Dot1xCP.Auth.Serialization
import Dot1xCP.Broker.Json
import Dot1xCP.Broker.Pipe
import Dot1xCP.Broker.Session

/-! `testCPCredential::GetSerialization` and its helpers.

What `ReadPipeMessageUntilDone` answers is part of the outcome of a call, as is
every answer of the system. Secrets are wiped after use; the wiped locals are not
visible to the caller and are left out.
-/

set_option autoImplicit false

namespace Dot1xCP.Broker
open Dot1xCP.Core Auth

inductive UsageScenario where
  | invalid
  | logon
  | unlockWorkstation
  | changePassword
  | credUI
  | plap
  deriving DecidableEq, Repr

inductive HResult where
  | sOk
  | ePointer
  | eNotImpl
  deriving DecidableEq, Repr

inductive Response where
  | noCredentialNotFinished
  | noCredentialFinished
  | returnCredentialFinished
  deriving DecidableEq, Repr

inductive StatusIcon where
  | none
  | error
  deriving DecidableEq, Repr

structure Guid where
  data1 : UInt32
  data2 : UInt16
  data3 : UInt16
  data4 : List UInt8
  deriving DecidableEq, Repr

def Guid.zero : Guid := ⟨0, 0, 0, List.replicate 8 0⟩

def clsidTestCPProvider : Guid :=
  ⟨0x7c5b9dc9, 0x3fae, 0x4e3c, [0x8b, 0x1f, 0x2b, 0x4b, 0x53, 0x0a, 0x1d, 0x77]⟩

structure CredentialSerialization where
  ulAuthenticationPackage : UInt32
  clsidCredentialProvider : Guid
  cbSerialization : UInt32
  rgbSerialization : Option Blob
  deriving DecidableEq, Repr

def CredentialSerialization.zero : CredentialSerialization := ⟨0, .zero, 0, none⟩

structure OutPointers where
  pcpgsr : Bool
  pcpcs : Bool
  ppwszOptionalStatusText : Bool
  pcpsi : Bool
  deriving DecidableEq, Repr

/-- What the caller receives. An output that was not written is `none`; so is a null
status text. -/
structure SerializationOut where
  hr : HResult
  response : Option Response
  credential : Option CredentialSerialization
  optionalStatusText : Option String
  statusIcon : Option StatusIcon
  deriving DecidableEq, Repr

structure Machine where
  abi : Abi
  /-- `MultiByteToWideChar(CP_UTF8, 0, …)` on non-empty input; no units when it fails. -/
  multiByteToWideChar : List UInt8 → WString

/-- Every answer of the system during one call. -/
structure SerializationOs where
  createPipe : CreatePipeOs
  launch : LaunchOs
  connect : ConnectOs
  read : PipeReadResult
  message : List UInt8
  close : CloseOs
  refresh : RefreshOs
  auth : AuthOs
  dupSysAlloc : Bool

def kMsgPipeCreateFail : String := "pipe create failed"
def kMsgBrokerLaunchFail : String := "broker launch failed"
def kMsgConnectTimeout : String := "broker connect timeout"
def kMsgReadTimeout : String := "broker response timeout"
def kMsgNoResponse : String := "no response from broker"
def kMsgBrokerExited : String := "broker exited unexpectedly"
def kMsgParseFail : String := "response parse failed"
def kMsgAuthFail : String := "authentication failed"
def kMsgSerializeNA : String := "serialization not implemented"

def widen (machine : Machine) (u8 : List UInt8) : WString :=
  if u8.isEmpty then [] else machine.multiByteToWideChar u8

section Call
variable (machine : Machine) (pointers : OutPointers) (os : SerializationOs)

def setOptionalStatusText (out : SerializationOut) (text : Option String) : SerializationOut :=
  if pointers.ppwszOptionalStatusText then
    { out with optionalStatusText := if os.dupSysAlloc then text else none }
  else out

def connectFailureStatusText (result : PipeConnectResult) : String :=
  if result = .brokerExited then kMsgBrokerExited else kMsgConnectTimeout

def readFailureStatusText (result : PipeReadResult) : String :=
  if result = .brokerExited then kMsgBrokerExited
  else if result = .timeout then kMsgReadTimeout
  else kMsgNoResponse

def returnNoCredentialNotFinished (s : World) (out : SerializationOut) (pi : ProcessInformation)
    (statusText : Option String) (waitMs : Nat) : World × SerializationOut :=
  let (s, _) := waitAndCloseBrokerProcess os.close s pi waitMs
  let out := setOptionalStatusText pointers os out statusText
  (s, { out with response := some .noCredentialNotFinished })

def returnNoCredentialFinished (s : World) (out : SerializationOut) (pi : ProcessInformation)
    (waitMs : Nat) : World × SerializationOut :=
  let (s, _) := waitAndCloseBrokerProcess os.close s pi waitMs
  (s, { out with response := some .noCredentialFinished })

def handleAuthSuccessMessage (s : World) (out : SerializationOut) (m : Msg) (cpus : UsageScenario)
    (pi : ProcessInformation) : World × SerializationOut :=
  let wDomain := dot
  let wUser := widen machine m.sam
  let wPass := widen machine m.password
  let scen := if cpus = .unlockWorkstation then Scenario.unlock else Scenario.logon
  match packAutoEx machine.abi os.auth wDomain wUser wPass scen with
  | none => returnNoCredentialNotFinished pointers os s out pi (some kMsgSerializeNA) 1000
  | some pk =>
    let credential : CredentialSerialization :=
      { ulAuthenticationPackage := pk.authPkg
        clsidCredentialProvider := clsidTestCPProvider
        cbSerialization := pk.size
        rgbSerialization := some pk.blob }
    let out :=
      { out with credential := some credential, response := some .returnCredentialFinished }
    let (s, _) := waitAndCloseBrokerProcess os.close s pi 1000
    (s, out)

def handleParsedBrokerMessage (s : World) (out : SerializationOut) (m : Msg) (cpus : UsageScenario)
    (pi : ProcessInformation) : World × SerializationOut :=
  if m.type = ascii "AUTH_FAIL" then
    returnNoCredentialNotFinished pointers os s out pi (some kMsgAuthFail) 1000
  else if m.type = ascii "AUTH_FALLBACK" then returnNoCredentialFinished os s out pi 1000
  else if m.type = ascii "AUTH_SUCCESS" then
    handleAuthSuccessMessage machine pointers os s out m cpus pi
  else returnNoCredentialNotFinished pointers os s out pi (some "unknown message type") 1000

def returnNoCredentialNotFinishedNoCleanup (s : World) (out : SerializationOut)
    (statusText : Option String) : World × SerializationOut :=
  let out := setOptionalStatusText pointers os out statusText
  (s, { out with response := some .noCredentialNotFinished })

def detachBrokerSession (s : World) : World × ProcessInformation :=
  let detached := s.session.pi
  let s := { s with session := { s.session with pi := .zero } }
  let (s, hPipe) := closePipeHandle s s.session.hPipe
  let s := { s with session := { s.session with hPipe := hPipe } }
  let s := { s with session := { s.session with connected := false } }
  (setBrokerSessionActive s false, detached)

/-- The part before the read that runs when there is no session; a result ends the
call. -/
def startBrokerSession (s : World) (out : SerializationOut) : World × Option SerializationOut :=
  let (s, hPipe) := createRestrictedPipeServer os.createPipe s
  let s := { s with session := { s.session with hPipe := hPipe } }
  if hPipe.isNone then
    let out := setOptionalStatusText pointers os out (some kMsgPipeCreateFail)
    (s, some { out with response := some .noCredentialNotFinished })
  else
    let (s, launched, pi) := launchBroker os.launch s
    let s := { s with session := { s.session with pi := pi } }
    if !launched then
      let s := resetBrokerSession os.close s 0
      let (s, out) :=
        returnNoCredentialNotFinishedNoCleanup pointers os s out (some kMsgBrokerLaunchFail)
      (s, some out)
    else
      let connectResult := waitPipeClientConnect os.connect
      -- The awaiting flag is cleared with the active one, the flow state stays as it is.
      if connectResult ≠ .connected then
        let (s, failedPi) := detachBrokerSession s
        let (s, out) := returnNoCredentialNotFinished pointers os s out failedPi
          (some (connectFailureStatusText connectResult)) 500
        (s, some out)
      else
        let s := { s with session := { s.session with connected := true } }
        let s := setBrokerSessionActive s true
        let s := setBrokerAwaitingFinal s false
        let s := updateBrokerFlowState s .none
        (s, none)

/-- The part from the read on. -/
def readBrokerMessage (s : World) (out : SerializationOut) (cpus : UsageScenario) :
    World × SerializationOut :=
  if os.read = .timeout then
    let sessionGeneration := s.sessionGeneration
    let nextDelayMs := if s.brokerAwaitingFinal then 300 else 2500
    let s := requestCredentialsChangedAsync os.refresh s nextDelayMs sessionGeneration
    returnNoCredentialNotFinishedNoCleanup pointers os s out none
  else if os.read ≠ .ok ∨ os.message.isEmpty then
    let (s, failedPi) := detachBrokerSession s
    let s := setBrokerAwaitingFinal s false
    let s := updateBrokerFlowState s .none
    -- The broker is gone: the next `SetSelected` may submit at once.
    if os.read = .brokerExited ∨ os.read = .failed then
      let (s, _) := waitAndCloseBrokerProcess os.close s failedPi 0
      let s := armForceNextAutoSubmit s
      let s := requestCredentialsChangedAsync os.refresh s 50 s.sessionGeneration
      returnNoCredentialNotFinishedNoCleanup pointers os s out none
    else
      returnNoCredentialNotFinished pointers os s out failedPi
        (some (readFailureStatusText os.read)) 1000
  else
    match parseJsonLine os.message ⟨[], [], [], []⟩ with
    -- What the decoder leaves in its output is not used after a failure.
    | (false, _) =>
      let s := resetBrokerSession os.close s 0
      let s := setBrokerAwaitingFinal s false
      let s := updateBrokerFlowState s .none
      returnNoCredentialNotFinishedNoCleanup pointers os s out (some kMsgParseFail)
    | (true, m) =>
      if m.type = ascii "AUTH_PENDING" then
        let s := setBrokerAwaitingFinal s true
        let s := updateBrokerFlowState s .pending
        let s := requestCredentialsChangedAsync os.refresh s 300 s.sessionGeneration
        returnNoCredentialNotFinishedNoCleanup pointers os s out none
      else if m.type = ascii "AUTH_IDLE" then
        let s := setBrokerAwaitingFinal s false
        let s := updateBrokerFlowState s .idle
        let s := requestCredentialsChangedAsync os.refresh s 2500 s.sessionGeneration
        returnNoCredentialNotFinishedNoCleanup pointers os s out none
      else
        let (s, terminalPi) := detachBrokerSession s
        let s := setBrokerAwaitingFinal s false
        let s := updateBrokerFlowState s .none
        handleParsedBrokerMessage machine pointers os s out m cpus terminalPi

def clearedOut : SerializationOut where
  hr := .sOk
  response := none
  credential := some .zero
  optionalStatusText := none
  statusIcon := if pointers.pcpsi then some .none else none

def getSerialization (s : World) (cpus : UsageScenario) : World × SerializationOut :=
  if !pointers.pcpgsr || !pointers.pcpcs then (s, ⟨.ePointer, none, none, none, none⟩)
  else
    let out := clearedOut pointers
    if s.session.hPipe.isNone || s.session.pi.hProcess.isNone then
      match startBrokerSession pointers os s out with
      | (s, some out) => (s, out)
      | (s, none) => readBrokerMessage machine pointers os s out cpus
    else readBrokerMessage machine pointers os s out cpus

end Call

end Dot1xCP.Broker
