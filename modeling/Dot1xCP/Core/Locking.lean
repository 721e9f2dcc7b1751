import Dot1xCP.Lib.Locks

/-! What the functions of the provider do to its three locks and to the data the locks guard.

Every function keeps its branches and loops, without what they depend on; an `Interlocked`
access and a system call are no step here. Handles in a local copy of the process
information are no shared data, those in `g_session` are.
-/

set_option autoImplicit false

namespace Dot1xCP.Locking
open Locks Interleaving

inductive GlobalLock where
  | brokerSession
  | cpEvents
  | log
  deriving DecidableEq, Repr

/-- What a call uses, besides what only it can reach. -/
inductive Resource where
  /-- `g_session` -/
  | session
  /-- a read of `g_cpEvents` and `g_cpEventsContext` -/
  | readEvents
  | writeEvents
  | logFile
  /-- a call of `CredentialsChanged`, which runs code of LogonUI -/
  | credentialsChanged
  deriving DecidableEq, Repr

abbrev Skeleton := Code GlobalLock Resource

def locks : Discipline GlobalLock Resource where
  rank
    | .brokerSession => 0
    | .cpEvents => 1
    | .log => 2
  permits
    | .session, held => ⟨.brokerSession, .exclusive⟩ ∈ held
    | .readEvents, held => ⟨.cpEvents, .shared⟩ ∈ held
    | .writeEvents, held => ⟨.cpEvents, .exclusive⟩ ∈ held
    | .logFile, held => ⟨.log, .exclusive⟩ ∈ held
    | .credentialsChanged, held => held.isEmpty

def block (steps : List Skeleton) : Skeleton := steps.foldr .seq .skip

def when (body : Skeleton) : Skeleton := .branch body .skip

def cpLog : Skeleton :=
  when (block
    [.acquire ⟨.log, .exclusive⟩,
      when (.use .logFile),
      .release ⟨.log, .exclusive⟩])

def credRefreshTimerCallback : Skeleton := when (.use .credentialsChanged)

def requestCredentialsChangedAsync : Skeleton :=
  when (block
    [.acquire ⟨.cpEvents, .shared⟩, .use .readEvents, .release ⟨.cpEvents, .shared⟩])

/-- `ClearProviderEvents` does the same. -/
def setProviderEvents : Skeleton :=
  block [.acquire ⟨.cpEvents, .exclusive⟩, .use .writeEvents, .release ⟨.cpEvents, .exclusive⟩]

/-- The handles are those of `pi`, an access to `g_session` or to a copy of it. -/
def waitAndCloseBrokerProcess (pi : Skeleton) : Skeleton :=
  block
    [pi,
      when (block
        [.branch
          -- `WAIT_TIMEOUT`
          (block [cpLog, when cpLog])
          -- `WAIT_FAILED`
          (when cpLog),
          pi]),
      pi,
      when pi]

def updateBrokerFlowState : Skeleton := when cpLog

def resetBrokerSession : Skeleton :=
  block
    [.use .session, waitAndCloseBrokerProcess (.use .session), .use .session, updateBrokerFlowState]

def closeBrokerSessionNow : Skeleton :=
  block
    [.acquire ⟨.brokerSession, .exclusive⟩, when cpLog, .use .session, when resetBrokerSession,
      updateBrokerFlowState, .release ⟨.brokerSession, .exclusive⟩]

def makePipeName : Skeleton := cpLog

def createRestrictedPipeServer : Skeleton := when (block [cpLog, when (block [cpLog, when cpLog])])

/-- A message may come in any number of fragments; every failure but two logs. -/
def readPipeMessageWithTimeout : Skeleton := block [.loop .skip, when cpLog]

def readPipeMessageUntilDone : Skeleton :=
  block [readPipeMessageWithTimeout, .loop readPipeMessageWithTimeout]

def launchBroker : Skeleton :=
  block
    [when cpLog, cpLog, .use .session,
      -- the retry without the breakaway flag
      when (block [cpLog, .use .session, when cpLog]),
      .branch cpLog (block [.use .session, cpLog])]

def closeLsa : Skeleton := when cpLog

def resolvePkgA : Skeleton :=
  block
    [cpLog,
      .branch cpLog (block
        [cpLog, cpLog,
          .branch (block [closeLsa, cpLog])
            (.branch (block [closeLsa, cpLog]) (block [cpLog, closeLsa]))])]

def resolvePkgCached : Skeleton := when resolvePkgA

def resolveNegotiate : Skeleton := block [cpLog, resolvePkgCached]

def packKerb : Skeleton := when resolveNegotiate

def packMsv : Skeleton := when resolvePkgCached

def packAutoEx : Skeleton := .branch (block [cpLog, packMsv]) (block [cpLog, packKerb])

def logBrokerExitCodeIfAvailable : Skeleton := when cpLog

def returnNoCredentialNotFinished : Skeleton :=
  block [waitAndCloseBrokerProcess .skip, when cpLog]

def returnNoCredentialFinished : Skeleton := block [waitAndCloseBrokerProcess .skip, when cpLog]

def returnNoCredentialNotFinishedNoCleanup : Skeleton := when cpLog

def handleAuthSuccessMessage : Skeleton :=
  block
    [packAutoEx,
      .branch returnNoCredentialNotFinished
        (block [cpLog, cpLog, waitAndCloseBrokerProcess .skip])]

def handleParsedBrokerMessage : Skeleton :=
  .branch returnNoCredentialNotFinished
    (.branch returnNoCredentialFinished
      (.branch handleAuthSuccessMessage returnNoCredentialNotFinished))

/-- From `ReadPipeMessageUntilDone` to the end of `GetSerialization`. -/
def readAndHandle : Skeleton :=
  block
    [.use .session, readPipeMessageUntilDone,
      -- `Timeout`
      .branch (block [requestCredentialsChangedAsync, returnNoCredentialNotFinishedNoCleanup])
        (.branch
          -- a failed read
          (block
            [.use .session, updateBrokerFlowState, logBrokerExitCodeIfAvailable,
              .branch
                (block
                  [waitAndCloseBrokerProcess .skip, requestCredentialsChangedAsync,
                    returnNoCredentialNotFinishedNoCleanup])
                returnNoCredentialNotFinished])
          (.branch
            -- a message that does not parse
            (block
              [resetBrokerSession, updateBrokerFlowState, returnNoCredentialNotFinishedNoCleanup])
            (.branch
              -- `AUTH_PENDING` and `AUTH_IDLE`
              (block
                [updateBrokerFlowState, requestCredentialsChangedAsync,
                  returnNoCredentialNotFinishedNoCleanup])
              (block [.use .session, updateBrokerFlowState, handleParsedBrokerMessage]))))]

def openSession (next : Skeleton) : Skeleton :=
  block
    [makePipeName, createRestrictedPipeServer, .use .session,
      .branch cpLog (block
        [launchBroker,
          .branch (block [resetBrokerSession, returnNoCredentialNotFinishedNoCleanup]) (block
            -- `WaitPipeClientConnect`
            [.use .session,
              .branch (block [.use .session, returnNoCredentialNotFinished]) (block
                [.use .session, updateBrokerFlowState, cpLog, next])])])]

def getSerialization : Skeleton :=
  when (block
    [.acquire ⟨.brokerSession, .exclusive⟩, .use .session,
      .branch (openSession readAndHandle) readAndHandle,
      .release ⟨.brokerSession, .exclusive⟩])

def setUsageScenario : Skeleton :=
  .branch (block [.branch closeBrokerSessionNow cpLog, cpLog])
    (block [closeBrokerSessionNow, when cpLog])

def setSelected : Skeleton := when cpLog

def setDeselected : Skeleton := when closeBrokerSessionNow

def reportResult : Skeleton := cpLog

/-- The methods LogonUI calls and the callback of the timer; the other methods touch
neither locks nor what they guard. -/
inductive Method where
  | setUsageScenario
  | advise
  | unAdvise
  | setSelected
  | setDeselected
  | getSerialization
  | reportResult
  | credRefreshTimerCallback
  deriving DecidableEq, Repr

def Method.skeleton : Method → Skeleton
  | .setUsageScenario => Locking.setUsageScenario
  | .advise | .unAdvise => setProviderEvents
  | .setSelected => Locking.setSelected
  | .setDeselected => Locking.setDeselected
  | .getSerialization => Locking.getSerialization
  | .reportResult => Locking.reportResult
  | .credRefreshTimerCallback => Locking.credRefreshTimerCallback

abbrev calls : Program (GlobalLock → LockState) Method (Thread GlobalLock Resource) Bool :=
  threads Method.skeleton

abbrev unlocked : GlobalLock → LockState := fun _ => .free

theorem follows (method : Method) : method.skeleton.Follows locks := by
  cases method <;> decide +kernel

theorem sound {s : State (GlobalLock → LockState) (Thread GlobalLock Resource)}
    (reached : calls.Reachable unlocked s) : Sound locks s.shared s.running :=
  (sound_invariant follows).reachable (sound_initial locks) reached

/-! ## No deadlock -/

/-- Some call can go on, whichever way it branches, and all can be brought to their ends. -/
structure Live (s : State (GlobalLock → LockState) (Thread GlobalLock Resource)) : Prop where
  goes : s.running ≠ [] → ∃ thread ∈ s.running, ∀ choice, ∃ next after,
    thread.advance s.shared choice = some (next, after)
  completes : ∃ labels final, Transition.run calls.step s labels = some ⟨final, []⟩ ∧
    ∀ lock, final lock = .free

theorem calls_live (s : State (GlobalLock → LockState) (Thread GlobalLock Resource))
    (reached : calls.Reachable unlocked s) : Live s where
  goes := by
    intro busy
    obtain ⟨thread, inside, goes⟩ := (sound reached).some_free busy
    exact ⟨thread, inside, fun choice => advance_of_not_waits goes choice⟩
  completes := (sound reached).completes

def contended : List (Label Method (Thread GlobalLock Resource) Bool) :=
  let hold : Hold GlobalLock := ⟨.cpEvents, .exclusive⟩
  let use : Skeleton := block [.use .writeEvents, .release hold]
  [.enter .advise, .enter .unAdvise, .advance ⟨[], [setProviderEvents]⟩ true,
    .advance ⟨[], [.acquire hold, use]⟩ true, .advance ⟨[hold], [use]⟩ true,
    .advance ⟨[], [setProviderEvents]⟩ true]

theorem calls_live_contended : ∃ s,
    Transition.run calls.step ⟨unlocked, []⟩ contended = some s ∧
      s.running.map (Thread.waits s.shared) = [some ⟨.cpEvents, .exclusive⟩, none] ∧ Live s :=
  ⟨_, rfl, by decide, calls_live _ ⟨contended, rfl⟩⟩

/-! ## No data race -/

def Resource.conflicts : Resource → Resource → Bool
  | .session, .session | .logFile, .logFile => true
  | .writeEvents, .writeEvents | .writeEvents, .readEvents | .readEvents, .writeEvents => true
  | _, _ => false

structure RaceFree (running : List (Thread GlobalLock Resource)) : Prop where
  apart : ∀ first second rest, running.Perm (first :: second :: rest) →
    ∀ a ∈ first.uses, ∀ b ∈ second.uses, a.conflicts b = false
  outside : ∀ thread ∈ running, thread.uses = some .credentialsChanged → thread.held = []

/-- Conflicting uses are permitted under one lock only, and one of the two holds it alone. -/
theorem exclusive_of_conflicts {a b : Resource} (conflicts : a.conflicts b = true)
    {first second : List (Hold GlobalLock)} (byFirst : locks.permits a first = true)
    (bySecond : locks.permits b second = true) : ∃ lock,
      (⟨lock, .exclusive⟩ ∈ first ∧ ∃ mode, ⟨lock, mode⟩ ∈ second) ∨
        (⟨lock, .exclusive⟩ ∈ second ∧ ∃ mode, ⟨lock, mode⟩ ∈ first) := by
  match a, b, conflicts with
  | .session, .session, _ | .logFile, .logFile, _ | .writeEvents, .writeEvents, _
  | .writeEvents, .readEvents, _ =>
    exact ⟨_, Or.inl ⟨of_decide_eq_true byFirst, _, of_decide_eq_true bySecond⟩⟩
  | .readEvents, .writeEvents, _ =>
    exact ⟨_, Or.inr ⟨of_decide_eq_true bySecond, _, of_decide_eq_true byFirst⟩⟩

theorem calls_race_free (s : State (GlobalLock → LockState) (Thread GlobalLock Resource))
    (reached : calls.Reachable unlocked s) : RaceFree s.running where
  apart := by
    intro first second rest same a usesA b usesB
    have ordered := (sound reached).reorder same
    have permittedA := ordered.permitted List.mem_cons_self usesA
    have permittedB := ordered.permitted (List.mem_cons_of_mem _ List.mem_cons_self) usesB
    rw [← Bool.not_eq_true]
    intro conflicts
    obtain ⟨lock, ⟨own, mode, also⟩ | ⟨own, mode, also⟩⟩ :=
      exclusive_of_conflicts conflicts permittedA permittedB
    · exact ordered.alone own mode also
    · exact (ordered.reorder (List.Perm.swap second first rest)).alone own mode also
  outside := fun _ inside uses => List.isEmpty_iff.mp ((sound reached).permitted inside uses)

theorem calls_race_free_contended : ∃ s,
    Transition.run calls.step ⟨unlocked, []⟩ contended = some s ∧
      s.running.map Thread.uses = [none, some .writeEvents] ∧ RaceFree s.running :=
  ⟨_, rfl, by decide, calls_race_free _ ⟨contended, rfl⟩⟩

end Dot1xCP.Locking
