import Dot1xCP.Broker.GetSerialization
import Dot1xCP.Broker.JsonLine

/-! What one `GetSerialization` call does, exit by exit.

The call is summed up by two verdicts, on starting a session and on what was read.
The state after the call is a function of them; later modules use these equations
and never unfold the call.
-/

set_option autoImplicit false

namespace Dot1xCP.Broker
open Dot1xCP.Core Auth

/-- What the read and the decoder make of a message. -/
inductive Verdict where
  | timeout
  | lost
  | empty
  | malformed
  | pending
  | idle
  | final (m : Msg)
  deriving DecidableEq, Repr

def verdict (read : PipeReadResult) (message : List UInt8) : Verdict :=
  match read with
  | .timeout => .timeout
  | .brokerExited | .failed => .lost
  | .ok =>
    if message.isEmpty then .empty
    else
      match parseJsonLine message emptyMsg with
      | (false, _) => .malformed
      | (true, m) =>
        if m.type = ascii "AUTH_PENDING" then .pending
        else if m.type = ascii "AUTH_IDLE" then .idle
        else .final m

def Verdict.Continues : Verdict → Prop
  | .timeout | .pending | .idle => True
  | _ => False

instance : (verdict : Verdict) → Decidable verdict.Continues
  | .timeout | .pending | .idle => .isTrue trivial
  | .lost | .empty | .malformed | .final _ => .isFalse id

inductive StartVerdict where
  | noPipe
  | noBroker
  | notConnected (result : PipeConnectResult)
  | started
  deriving DecidableEq, Repr

def startVerdict (os : SerializationOs) : StartVerdict :=
  if !(os.createPipe.strict || os.createPipe.relax || os.createPipe.noAttributes) then .noPipe
  else if !createProcessSucceeds os.launch then .noBroker
  else if waitPipeClientConnect os.connect ≠ .connected then
    .notConnected (waitPipeClientConnect os.connect)
  else .started

/-- The state after the read, by verdict. -/
def afterRead (os : SerializationOs) (s : World) : Verdict → World
  -- The next poll comes sooner while a final answer is awaited.
  | .timeout =>
    requestCredentialsChangedAsync os.refresh s (if s.brokerAwaitingFinal then 300 else 2500)
      s.sessionGeneration
  | .pending =>
    requestCredentialsChangedAsync os.refresh
      { s with brokerAwaitingFinal := true, autoSubmitTick := 0, lastBrokerFlowState := .pending }
      300 s.sessionGeneration
  | .idle =>
    requestCredentialsChangedAsync os.refresh
      { s with brokerAwaitingFinal := false, lastBrokerFlowState := .idle } 2500 s.sessionGeneration
  -- The request carries the generation after the session's end.
  | .lost =>
    requestCredentialsChangedAsync os.refresh
      (armForceNextAutoSubmit (s.ended.emits (closingSession os.close s.session 0)))
      50 s.ended.sessionGeneration
  | .malformed => s.ended.emits (closingSession os.close s.session 0)
  | .empty | .final _ => s.ended.emits (closingSession os.close s.session 1000)

section Call
variable (machine : Machine) (pointers : OutPointers) (os : SerializationOs)

theorem detachBrokerSession_eq (s : World) :
    detachBrokerSession s =
      ({ s.ended.emits (closingPipe s.session.hPipe) with lastBrokerFlowState := s.lastBrokerFlowState },
        s.session.pi) := by
  simp only [detachBrokerSession, closePipeHandle_eq]
  rfl

theorem flow_reset (s : World) (effects : List Effect) (flow : FlowState) :
    updateBrokerFlowState
      (setBrokerAwaitingFinal { s.ended.emits effects with lastBrokerFlowState := flow } false) .none =
      s.ended.emits effects := rfl

def notFinished (out : SerializationOut) (text : Option String) : SerializationOut :=
  { setOptionalStatusText pointers os out text with response := some .noCredentialNotFinished }

def packMessage (m : Msg) (cpus : UsageScenario) : Option Packed :=
  packAutoEx machine.abi os.auth dot (widen machine m.sam) (widen machine m.password)
    (if cpus = .unlockWorkstation then .unlock else .logon)

def credentialOf (pk : Packed) : CredentialSerialization where
  ulAuthenticationPackage := pk.authPkg
  clsidCredentialProvider := clsidTestCPProvider
  cbSerialization := pk.size
  rgbSerialization := some pk.blob

def finalAnswer (out : SerializationOut) (m : Msg) (cpus : UsageScenario) : SerializationOut :=
  if m.type = ascii "AUTH_FAIL" then notFinished pointers os out (some kMsgAuthFail)
  else if m.type = ascii "AUTH_FALLBACK" then { out with response := some .noCredentialFinished }
  else if m.type = ascii "AUTH_SUCCESS" then
    match packMessage machine os m cpus with
    | none => notFinished pointers os out (some kMsgSerializeNA)
    | some pk =>
      { out with
        credential := some (credentialOf pk)
        response := some .returnCredentialFinished }
  else notFinished pointers os out (some "unknown message type")

def answer (out : SerializationOut) (cpus : UsageScenario) : Verdict → SerializationOut
  | .timeout | .lost | .pending | .idle => notFinished pointers os out none
  | .empty => notFinished pointers os out (some kMsgNoResponse)
  | .malformed => notFinished pointers os out (some kMsgParseFail)
  | .final m => finalAnswer machine pointers os out m cpus

theorem handleAuthSuccessMessage_eq (s : World) (out : SerializationOut) (m : Msg)
    (cpus : UsageScenario) (pi : ProcessInformation) :
    handleAuthSuccessMessage machine pointers os s out m cpus pi =
      (s.emits (closingProcess os.close pi 1000),
        match packMessage machine os m cpus with
        | none => notFinished pointers os out (some kMsgSerializeNA)
        | some pk =>
          { out with
            credential := some (credentialOf pk)
            response := some .returnCredentialFinished }) := by
  simp only [handleAuthSuccessMessage, returnNoCredentialNotFinished, waitAndCloseBrokerProcess_eq,
    packMessage]
  generalize packAutoEx machine.abi os.auth dot (widen machine m.sam) (widen machine m.password)
    (if cpus = .unlockWorkstation then .unlock else .logon) = packed
  cases packed with
  | none => rfl
  | some pk => rfl

theorem handleParsedBrokerMessage_eq (s : World) (out : SerializationOut) (m : Msg)
    (cpus : UsageScenario) (pi : ProcessInformation) :
    handleParsedBrokerMessage machine pointers os s out m cpus pi =
      (s.emits (closingProcess os.close pi 1000), finalAnswer machine pointers os out m cpus) := by
  simp only [handleParsedBrokerMessage, finalAnswer, returnNoCredentialNotFinished,
    returnNoCredentialFinished, waitAndCloseBrokerProcess_eq, handleAuthSuccessMessage_eq]
  split_ifs <;> rfl

theorem readBrokerMessage_eq (s : World) (out : SerializationOut) (cpus : UsageScenario) :
    readBrokerMessage machine pointers os s out cpus =
      (afterRead os s (verdict os.read os.message),
        answer machine pointers os out cpus (verdict os.read os.message)) := by
  unfold readBrokerMessage verdict
  simp only [detachBrokerSession_eq, flow_reset, waitAndCloseBrokerProcess_eq, resetBrokerSession_eq,
    returnNoCredentialNotFinishedNoCleanup, returnNoCredentialNotFinished,
    handleParsedBrokerMessage_eq, World.emits_emits]
  -- From here each exit of the call is one case, and its equation computes.
  cases read : os.read with
  | timeout => rfl
  | brokerExited | failed => rfl
  | ok =>
    cases empty : os.message.isEmpty with
    | true => rfl
    | false =>
      have emptied : (⟨[], [], [], []⟩ : Msg) = emptyMsg := rfl
      rw [emptied]
      rcases parseJsonLine os.message emptyMsg with ⟨ok, m⟩
      cases ok with
      | false => rfl
      | true =>
        simp only [reduceCtorEq, ne_eq, not_true_eq_false, Bool.false_eq_true, or_self, if_false]
        split_ifs <;> rfl

/-- A call may find no session only in this form. -/
def World.Closed (s : World) : Prop := s.session = .closed ∧ s.lastBrokerFlowState = .none

def World.started (s : World) : World :=
  { s with
    session := ⟨some s.nextHandle, ⟨some (s.nextHandle + 1), some (s.nextHandle + 2)⟩, true⟩
    brokerSessionActive := true
    brokerAwaitingFinal := false
    lastBrokerFlowState := .none
    nextHandle := s.nextHandle + 3
    trace := .processCreated (s.nextHandle + 1) (s.nextHandle + 2) :: .launchBroker ::
      .pipeCreated s.nextHandle :: s.trace }

def afterStart (s : World) : StartVerdict → World
  | .noPipe => s
  | .noBroker =>
    { s.ended with
      nextHandle := s.nextHandle + 1
      trace := .closed s.nextHandle :: .launchBroker :: .pipeCreated s.nextHandle :: s.trace }
  -- The process pair was moved out of the session first, so it is closed last.
  | .notConnected _ =>
    { s.ended with
      nextHandle := s.nextHandle + 3
      trace := closingProcess os.close ⟨some (s.nextHandle + 1), some (s.nextHandle + 2)⟩ 500 ++
        .closed s.nextHandle :: .processCreated (s.nextHandle + 1) (s.nextHandle + 2) ::
        .launchBroker :: .pipeCreated s.nextHandle :: s.trace }
  | .started => World.started s

def startText : StartVerdict → Option String
  | .noPipe => some kMsgPipeCreateFail
  | .noBroker => some kMsgBrokerLaunchFail
  | .notConnected result => some (connectFailureStatusText result)
  | .started => none

theorem startBrokerSession_eq {s : World} (closed : World.Closed s) (out : SerializationOut) :
    startBrokerSession pointers os s out =
      (afterStart os s (startVerdict os),
        if startVerdict os = .started then none
        else some (notFinished pointers os out (startText (startVerdict os)))) := by
  obtain ⟨session, flow⟩ := closed
  -- With the fields exposed both sides reduce to the same record in every exit.
  obtain ⟨active, awaiting, pending, tick, force, generation, events, context, flowState, session,
    outstanding, now, next, trace⟩ := s
  subst session flow
  unfold startBrokerSession startVerdict createRestrictedPipeServer launchBroker
  generalize waitPipeClientConnect os.connect = connectResult
  cases os.createPipe.strict || os.createPipe.relax || os.createPipe.noAttributes with
  | false => rfl
  | true =>
    cases createProcessSucceeds os.launch with
    | false =>
      simp only [resetBrokerSession_eq]
      rfl
    | true =>
      cases connectResult with
      | connected => rfl
      | timeout | brokerExited | failed =>
        simp only [returnNoCredentialNotFinished, waitAndCloseBrokerProcess_eq, detachBrokerSession_eq]
        rfl

theorem getSerialization_null (s : World) (cpus : UsageScenario)
    (null : pointers.pcpgsr = false ∨ pointers.pcpcs = false) :
    (getSerialization machine pointers os s cpus).1 = s := by
  unfold getSerialization
  rw [if_pos (by simpa using null)]

variable {pointers}

/-- A call that finds a session reads from it. -/
theorem getSerialization_live (response : pointers.pcpgsr = true) (credential : pointers.pcpcs = true)
    {s : World} (pipe : s.session.hPipe.isSome) (process : s.session.pi.hProcess.isSome)
    (cpus : UsageScenario) :
    getSerialization machine pointers os s cpus =
      (afterRead os s (verdict os.read os.message),
        answer machine pointers os (clearedOut pointers) cpus (verdict os.read os.message)) := by
  have present : (s.session.hPipe.isNone || s.session.pi.hProcess.isNone) = false := by
    simp [Option.isNone_eq_false_iff.mpr pipe, Option.isNone_eq_false_iff.mpr process]
  simp only [getSerialization, response, credential, present, readBrokerMessage_eq]
  rfl

/-- A call that finds none starts one, and reads from it if it starts. -/
theorem getSerialization_closed (response : pointers.pcpgsr = true)
    (credential : pointers.pcpcs = true) {s : World} (closed : World.Closed s) (cpus : UsageScenario) :
    getSerialization machine pointers os s cpus =
      if startVerdict os = .started then
        (afterRead os (World.started s) (verdict os.read os.message),
          answer machine pointers os (clearedOut pointers) cpus (verdict os.read os.message))
      else
        (afterStart os s (startVerdict os),
          notFinished pointers os (clearedOut pointers) (startText (startVerdict os))) := by
  have absent : (s.session.hPipe.isNone || s.session.pi.hProcess.isNone) = true := by
    rw [closed.1]
    rfl
  simp only [getSerialization, response, credential, absent, startBrokerSession_eq pointers os closed]
  by_cases started : startVerdict os = .started
  · simp [started, readBrokerMessage_eq, afterStart]
  · simp [started]

end Call

end Dot1xCP.Broker
