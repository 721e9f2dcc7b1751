import Dot1xCP.Core.Coherence
import Dot1xCP.Log.Output

/-! Runs of the provider together with what they log and answer.

The log file shows the messages of a run one by one, and neither it nor anything else that a
run leaves behind, the returned blob apart, tells more about a broker message than its kind
and the length of its credentials.
-/

set_option autoImplicit false

namespace Dot1xCP.Log
open Dot1xCP.Core Broker Auth Broker.PipeName Transition

/-- What `GetSerialization` answers, the credential reduced to its size. -/
structure Answer where
  hr : HResult
  response : Option Response
  ulAuthenticationPackage : Option UInt32
  cbSerialization : Option UInt32
  optionalStatusText : Option String
  statusIcon : Option StatusIcon
  deriving DecidableEq, Repr

def Answer.of (out : SerializationOut) : Answer where
  hr := out.hr
  response := out.response
  ulAuthenticationPackage := out.credential.map CredentialSerialization.ulAuthenticationPackage
  cbSerialization := out.credential.map CredentialSerialization.cbSerialization
  optionalStatusText := out.optionalStatusText
  statusIcon := out.statusIcon

/-- The messages logged and the answers given are there oldest first. -/
structure Logged where
  world : World
  lsa : Lsa
  lastSetSelectedDecision : BitVec 32
  log : List LogCall
  answers : List Answer
  deriving DecidableEq, Repr

def Logged.initial : Logged := ⟨.initial, .initial, -1, [], []⟩

inductive Event where
  | call (call : Call) (lo : LogOs)
  | reportResult (ntsStatus ntsSubstatus : UInt32) (cpus : UsageScenario)

def answered (lo : LogOs) (s : Lsa) (os : SerializationOs) : SerializationOs :=
  { os with auth := authOs lo os.auth s }

def withCaches (lo : LogOs) (s : Lsa) : Call → Call
  | .getSerialization cpus pointers os => .getSerialization cpus pointers (answered lo s os)
  | call => call

/-- What a call logs and answers, besides what it does. -/
def report (machine : Machine) (s : Logged) (lo : LogOs) (world : World) : Call → Logged
  | .setUsageScenario cpus os =>
    { s with world := world, log := s.log ++ setUsageScenario lo os s.world cpus }
  | .setSelected cpus =>
    let (last, calls) := setSelected s.lastSetSelectedDecision s.world cpus
    { s with world := world, lastSetSelectedDecision := last, log := s.log ++ calls }
  | .setDeselected cpus os =>
    { s with world := world, log := s.log ++ setDeselected lo os s.world cpus }
  | .getSerialization cpus pointers os =>
    let (lsa, calls) := getSerialization lo machine pointers os s.lsa s.world cpus
    let out := (Broker.getSerialization machine pointers os s.world cpus).2
    { s with
      world := world
      lsa := lsa
      log := s.log ++ calls
      answers := s.answers ++ [.of out] }
  | .advise _ _ | .unAdvise | .refreshTimer _ | .elapse _ => { s with world := world }

def step (machine : Machine) (s : Logged) : Event → Option Logged
  | .call call lo =>
    let call := withCaches lo s.lsa call
    (Core.step machine s.world call).map fun world => report machine s lo world call
  | .reportResult ntsStatus ntsSubstatus cpus =>
    some { s with log := s.log ++ [.reportResult ntsStatus ntsSubstatus cpus] }

def Named (calls : List LogCall) : Prop := ∀ call ∈ calls, ∀ name ∈ call.name, Valid name

@[simp] theorem named_nil : Named [] := fun _ inside => by cases inside

@[simp] theorem named_cons {call : LogCall} {calls : List LogCall} :
    Named (call :: calls) ↔ (∀ name, call.name = some name → Valid name) ∧ Named calls :=
  List.forall_mem_cons

@[simp] theorem named_append {first second : List LogCall} :
    Named (first ++ second) ↔ Named first ∧ Named second := List.forall_mem_append

theorem named_map {α : Type} {call : α → LogCall} (nameless : ∀ a, (call a).name = none) (list : List α) :
    Named (list.map call) := by
  refine List.forall_mem_map.mpr fun a _ name shown => ?_
  rw [nameless a] at shown
  cases shown

section Named
variable (lo : LogOs) (machine : Machine) (pointers : OutPointers) (os : SerializationOs)

@[simp] theorem named_waitAndCloseBrokerProcess (os : CloseOs) (pi : ProcessInformation) :
    Named (waitAndCloseBrokerProcess lo os pi) := by
  unfold waitAndCloseBrokerProcess
  split
  · exact named_nil
  · split
    · split <;> simp [LogCall.name]
    · simp [LogCall.name]
    · exact named_nil

@[simp] theorem named_resetBrokerSession (os : CloseOs) (s : World) :
    Named (resetBrokerSession lo os s) := named_waitAndCloseBrokerProcess lo os s.session.pi

theorem named_closeBrokerSessionNow (os : CloseOs) (s : World) {reasonLog : LogCall}
    (nameless : reasonLog.name = none) : Named (closeBrokerSessionNow lo os s reasonLog) := by
  unfold closeBrokerSessionNow
  split <;> simp [nameless]

theorem named_updateBrokerFlowState (s : World) (state : FlowState) {transitionLog : LogCall}
    (nameless : transitionLog.name = none) : Named (updateBrokerFlowState s state transitionLog) := by
  unfold updateBrokerFlowState
  split <;> simp [nameless]

theorem makePipeName_name (os : PipeNameOs) (name : Format.Text)
    (shown : (makePipeName os).name = some name) : Valid name := by
  have same : (makePipeName os).name = some (PipeName.makePipeName os) := by
    unfold makePipeName
    split
    · rfl
    · split <;> rfl
  cases same.symm.trans shown
  exact valid_of_makePipeName rfl

theorem connectFailure_name (result : PipeConnectResult) : (connectFailure result).name = none := by
  cases result <;> rfl

theorem readFailure_name (result : PipeReadResult) : (readFailure result).name = none := by
  cases result <;> rfl

@[simp] theorem named_createRestrictedPipeServer (os : CreatePipeOs) :
    Named (createRestrictedPipeServer lo os) := by
  unfold createRestrictedPipeServer
  split
  · exact named_nil
  · split
    · simp [LogCall.name]
    · split <;> simp [LogCall.name]

@[simp] theorem named_createProcess (os : LaunchOs) : Named (createProcess lo os) := by
  unfold createProcess
  split
  · simp [LogCall.name]
  · split
    · split <;> simp [LogCall.name]
    · simp [LogCall.name]

@[simp] theorem named_launchBroker (os : LaunchOs) (pipeName : PipeNameOs) :
    Named (launchBroker lo os (PipeName.makePipeName pipeName)) := by
  have valid : Valid (PipeName.makePipeName pipeName) := valid_of_makePipeName rfl
  unfold launchBroker
  cases lo.brokerMissing <;> simp [LogCall.name, valid]

@[simp] theorem named_closeLsa (status : LsaStatus) : Named (closeLsa status) := by
  unfold closeLsa
  split <;> simp [LogCall.name]

@[simp] theorem named_resolvePkgCached (status : LsaStatus) (s : Lsa) (package : Package) :
    Named (resolvePkgCached status s package) := by
  unfold resolvePkgCached resolvePkgA
  split
  · exact named_nil
  · split
    · simp [LogCall.name]
    · split
      · simp [LogCall.name]
      · split <;> simp [LogCall.name]

@[simp] theorem named_packMsv (s : Lsa) (user : WString) : Named (packMsv lo s user).2 := by
  unfold packMsv
  split <;> simp

@[simp] theorem named_packKerb (s : Lsa) (user : WString) : Named (packKerb lo s user).2 := by
  unfold packKerb
  split <;> simp [LogCall.name]

@[simp] theorem named_packAutoEx (s : Lsa) (domain user : WString) :
    Named (packAutoEx lo s domain user).2 := by
  unfold packAutoEx
  split <;> simp [LogCall.name]

@[simp] theorem named_handleParsedBrokerMessage (s : Lsa) (m : Msg) (cpus : UsageScenario)
    (pi : ProcessInformation) : Named (handleParsedBrokerMessage lo machine os s m cpus pi).2 := by
  unfold handleParsedBrokerMessage
  split
  · simp [LogCall.name]
  · split
    · simp [LogCall.name]
    · split
      · unfold handleAuthSuccessMessage
        dsimp only
        split <;> simp [LogCall.name]
      · simp [LogCall.name]

@[simp] theorem named_startBrokerSession (s : World) : Named (startBrokerSession lo os s) := by
  unfold startBrokerSession
  refine named_cons.mpr ⟨makePipeName_name lo.pipeName, named_append.mpr ⟨by simp, ?_⟩⟩
  dsimp only
  split
  · simp [LogCall.name]
  · refine named_append.mpr ⟨by simp, ?_⟩
    split
    · simp [LogCall.name]
    · split
      · simp [connectFailure_name]
      · simp [LogCall.name]

@[simp] theorem named_readFailures (failures : List ReadFailure) : Named (failures.map LogCall.read) :=
  named_map (fun _ => rfl) failures

@[simp] theorem named_logBrokerExitCodeIfAvailable (pi : ProcessInformation) :
    Named (logBrokerExitCodeIfAvailable lo pi) := by
  unfold logBrokerExitCodeIfAvailable
  split
  · exact named_nil
  · cases lo.exitCode <;> simp [LogCall.name]

@[simp] theorem named_readBrokerMessage (lsa : Lsa) (s : World) (cpus : UsageScenario) :
    Named (readBrokerMessage lo machine os lsa s cpus).2 := by
  unfold readBrokerMessage
  dsimp only
  split
  · simp
  · split
    · split
      · simp [LogCall.name]
      · simp [readFailure_name]
    · split
      · simp [LogCall.name]
      · split
        · exact named_append.mpr ⟨by simp, named_updateBrokerFlowState s .pending rfl⟩
        · split
          · exact named_append.mpr ⟨by simp, named_updateBrokerFlowState s .idle rfl⟩
          · simp

theorem named_getSerialization (lsa : Lsa) (s : World) (cpus : UsageScenario) :
    Named (getSerialization lo machine pointers os lsa s cpus).2 := by
  unfold getSerialization
  split
  · exact named_nil
  · split
    · dsimp only
      split <;> simp
    · simp

theorem named_setUsageScenario (os : CloseOs) (s : World) (cpus : UsageScenario) :
    Named (setUsageScenario lo os s cpus) := by
  unfold setUsageScenario
  split
  · refine named_append.mpr ⟨?_, by simp [LogCall.name]⟩
    split
    · exact named_closeBrokerSessionNow lo os s rfl
    · simp [LogCall.name]
  · refine named_append.mpr ⟨named_closeBrokerSessionNow lo os s rfl, ?_⟩
    split <;> simp [LogCall.name]

theorem named_setDeselected (os : CloseOs) (s : World) (cpus : UsageScenario) :
    Named (setDeselected lo os s cpus) := by
  unfold setDeselected
  split
  · exact named_closeBrokerSessionNow lo os s rfl
  · exact named_nil

theorem named_setSelected (last : BitVec 32) (s : World) (cpus : UsageScenario) :
    Named (setSelected last s cpus).2 := by
  unfold setSelected
  dsimp only
  split <;> simp [LogCall.name]

theorem named_report {s : Logged} (world : World) (named : Named s.log) (call : Call) :
    Named (report machine s lo world call).log := by
  cases call with
  | setUsageScenario cpus os => exact named_append.mpr ⟨named, named_setUsageScenario lo os _ cpus⟩
  | setSelected cpus => exact named_append.mpr ⟨named, named_setSelected _ _ cpus⟩
  | setDeselected cpus os => exact named_append.mpr ⟨named, named_setDeselected lo os _ cpus⟩
  | getSerialization cpus pointers os =>
    exact named_append.mpr ⟨named, named_getSerialization lo machine pointers os _ _ cpus⟩
  | advise | unAdvise | refreshTimer | elapse => exact named

end Named

theorem named_step {machine : Machine} {s next : Logged} {event : Event} (named : Named s.log)
    (stepped : step machine s event = some next) : Named next.log := by
  cases event with
  | call call lo =>
    obtain ⟨world, _, rfl⟩ := Option.map_eq_some_iff.mp stepped
    exact named_report lo machine world named _
  | reportResult ntsStatus ntsSubstatus cpus =>
    cases stepped
    exact named_append.mpr ⟨named, by simp [LogCall.name]⟩

/-- Whatever has happened, no text has overrun its buffer, and behind a file of whole lines the
log reads back as the messages that were written, one for each line. -/
theorem log_readable {machine : Machine} {s : Logged}
    (reached : Reachable (step machine) .initial s) (answers : List CpLogOs) {file : Format.Text}
    (complete : file = [] ∨ ∃ front, file = front ++ [0x0A]) :
    ∃ after, logFile file (s.log.zip answers) = some after ∧
      readLog after = readLog file ++ messages (s.log.zip answers) := by
  have named : Named s.log := reached.invariant (fun _ _ _ => named_step) named_nil
  have each : ∀ call ∈ s.log.zip answers, ∀ name ∈ call.1.name, Valid name := fun call inside =>
    named call.1 (List.of_mem_zip inside).1
  exact ⟨_, logFile_eq each file, readLog_lines each complete⟩

def sampleLogOs : LogOs where
  pipeName := ⟨none, false, 0⟩
  strictError := 0
  relaxError := 0
  noAttributesError := 0
  pipeCreateError := 0
  brokerMissing := some 2
  processId := 4711
  waitError := 0
  terminateError := 0
  exitCode := none
  readFailures := []
  lsa := ⟨0, 0, 2, 0⟩

def sampleEvents (message : List UInt8) : List Event :=
  [.call (.getSerialization .logon allPointers (sampleSystem .ok message)) sampleLogOs,
    .reportResult 0xC000006D 0 .logon]

def sampleAnswers : List CpLogOs :=
  (List.range 7).map fun n => ⟨true, ⟨2025, 1, 2, 3, 4, 5⟩, n != 6⟩

theorem log_readable_pending : ∃ s after,
    run (step sampleMachine) .initial (sampleEvents pendingMessage) = some s ∧
      logFile [] (s.log.zip sampleAnswers) = some after ∧
      readLog after = messages (s.log.zip sampleAnswers) ∧ (readLog after).length = 6 := by
  have ran : (run (step sampleMachine) .initial (sampleEvents pendingMessage)).map
      (fun s => (messages (s.log.zip sampleAnswers)).length) = some 6 := by decide +kernel
  obtain ⟨s, ran, six⟩ := Option.map_eq_some_iff.mp ran
  obtain ⟨after, written, read⟩ := log_readable ⟨_, ran⟩ sampleAnswers (Or.inl rfl)
  refine ⟨s, after, ran, written, read, ?_⟩
  rw [read]
  exact six

end Dot1xCP.Log
