import Dot1xCP.Core.Coherence
import Dot1xCP.Lib.Ledger

/-! Conservation of handles and processes.

The account of handles is kept along the trace of system calls: a handle is held by
the session or has been closed, and never both. Process handles are closed only when
the process is gone, so a broker is launched only when every earlier one is.
-/

set_option autoImplicit false

namespace Dot1xCP.Core
open Broker Ledger

def Effect.acquires : Effect → List Handle
  | .pipeCreated pipe => [pipe]
  | .processCreated process thread => [process, thread]
  | _ => []

def Effect.releases : Effect → List Handle
  | .closed handle => [handle]
  | _ => []

/-- The pipe, process and thread handles that were ever obtained. -/
def obtained (trace : List Effect) : List Handle := trace.flatMap Effect.acquires

def closings (trace : List Effect) : List Handle := trace.flatMap Effect.releases

def held (pipe : Option Handle) (pi : ProcessInformation) : List Handle :=
  pipe.toList ++ (pi.hProcess.toList ++ pi.hThread.toList)

def World.held (s : World) : List Handle := Core.held s.session.hPipe s.session.pi

/-- The exit of the process was observed, or it was told to terminate. -/
def Gone (trace : List Effect) (process : Handle) : Prop :=
  (∃ milliseconds, .waited process milliseconds .object0 ∈ trace) ∨ .terminated process true ∈ trace

/-- What must have happened before an effect: a handle is closed after it was
obtained, a process handle after the process is gone, and a broker is launched after
every earlier one is gone. -/
def Rightful : Effect → List Effect → Prop
  | .closed handle, earlier =>
    handle ∈ obtained earlier ∧
      ∀ thread, .processCreated handle thread ∈ earlier → Gone earlier handle
  | .launchBroker, earlier =>
    ∀ process thread, .processCreated process thread ∈ earlier → Gone earlier process
  | _, _ => True

theorem Gone.cons {trace : List Effect} {process : Handle} (gone : Gone trace process)
    (effect : Effect) : Gone (effect :: trace) process :=
  gone.imp (fun ⟨milliseconds, waited⟩ => ⟨milliseconds, List.mem_cons_of_mem _ waited⟩)
    (List.mem_cons_of_mem _)

/-- What the parts of a session own, and how they came by it. -/
structure Owned (pipe : Option Handle) (pi : ProcessInformation) (next : Handle)
    (trace : List Effect) : Prop where
  balanced : Balanced Effect.acquires Effect.releases (held pipe pi) next trace
  pipeCreated : ∀ h ∈ pipe, .pipeCreated h ∈ trace
  processCreated : ∀ process ∈ pi.hProcess, ∃ thread, .processCreated process thread ∈ trace
  threadCreated : ∀ thread ∈ pi.hThread, ∃ process, .processCreated process thread ∈ trace
  accounted : ∀ process thread, .processCreated process thread ∈ trace →
    process ∈ pi.hProcess ∨ Gone trace process
  rightful : Always Rightful trace

theorem owned_initial (next : Handle) : Owned none .zero next [] where
  balanced := balanced_nil next
  pipeCreated := by simp
  processCreated := by simp [ProcessInformation.zero]
  threadCreated := by simp [ProcessInformation.zero]
  accounted := by simp
  rightful := trivial

section Steps
variable {pipe : Option Handle} {pi : ProcessInformation} {next : Handle} {trace : List Effect}

theorem Owned.quiet (owned : Owned pipe pi next trace) (effect : Effect) (quiet : effect.Quiet) :
    Owned pipe pi next (effect :: trace) where
  balanced := by
    refine owned.balanced.quiet ?_ ?_ <;> cases effect <;> first | rfl | cases quiet
  pipeCreated h inside := List.mem_cons_of_mem _ (owned.pipeCreated h inside)
  processCreated process inside := by
    obtain ⟨thread, created⟩ := owned.processCreated process inside
    exact ⟨thread, List.mem_cons_of_mem _ created⟩
  threadCreated thread inside := by
    obtain ⟨process, created⟩ := owned.threadCreated thread inside
    exact ⟨process, List.mem_cons_of_mem _ created⟩
  accounted process thread created := by
    rcases List.mem_cons.mp created with same | created
    · subst same
      cases quiet
    · exact (owned.accounted process thread created).imp_right (·.cons effect)
  rightful := by
    refine ⟨?_, owned.rightful⟩
    cases effect <;> trivial

theorem Owned.quiets (owned : Owned pipe pi next trace) {effects : List Effect}
    (quiet : ∀ effect ∈ effects, effect.Quiet) : Owned pipe pi next (effects ++ trace) := by
  induction effects with
  | nil => exact owned
  | cons effect effects ih =>
    exact (ih fun e inside => quiet e (List.mem_cons_of_mem _ inside)).quiet effect
      (quiet effect List.mem_cons_self)

theorem Owned.createPipe (owned : Owned none pi next trace) :
    Owned (some next) pi (next + 1) (.pipeCreated next :: trace) where
  balanced := owned.balanced.acquire rfl rfl (List.nodup_singleton next)
    (by simp) (Nat.le_succ next)
  pipeCreated h inside := by
    cases inside
    exact List.mem_cons_self
  processCreated process inside := by
    obtain ⟨thread, created⟩ := owned.processCreated process inside
    exact ⟨thread, List.mem_cons_of_mem _ created⟩
  threadCreated thread inside := by
    obtain ⟨process, created⟩ := owned.threadCreated thread inside
    exact ⟨process, List.mem_cons_of_mem _ created⟩
  accounted process thread created := by
    rcases List.mem_cons.mp created with same | created
    · cases same
    · exact (owned.accounted process thread created).imp_right (·.cons _)
  rightful := ⟨trivial, owned.rightful⟩

theorem Owned.launchBroker (owned : Owned pipe .zero next trace) :
    Owned pipe .zero next (.launchBroker :: trace) where
  balanced := owned.balanced.quiet rfl rfl
  pipeCreated h inside := List.mem_cons_of_mem _ (owned.pipeCreated h inside)
  processCreated process inside := by cases inside
  threadCreated thread inside := by cases inside
  accounted process thread created := by
    rcases List.mem_cons.mp created with same | created
    · cases same
    · exact (owned.accounted process thread created).imp_right (·.cons _)
  rightful := by
    refine ⟨?_, owned.rightful⟩
    intro process thread created
    rcases owned.accounted process thread created with inside | gone
    · cases inside
    · exact gone

theorem Owned.createProcess (owned : Owned pipe .zero next trace) :
    Owned pipe ⟨some next, some (next + 1)⟩ (next + 2) (.processCreated next (next + 1) :: trace) where
  balanced := by
    have acquired : Balanced Effect.acquires Effect.releases ([next, next + 1] ++ held pipe .zero)
        (next + 2) (.processCreated next (next + 1) :: trace) :=
      owned.balanced.acquire rfl rfl (by simp) (by simp) (by omega)
    apply acquired.reorder
    simp only [held, ProcessInformation.zero, Option.toList_none, Option.toList_some, List.append_nil]
    exact List.perm_append_comm
  pipeCreated h inside := List.mem_cons_of_mem _ (owned.pipeCreated h inside)
  processCreated process inside := by
    cases inside
    exact ⟨_, List.mem_cons_self⟩
  threadCreated thread inside := by
    cases inside
    exact ⟨_, List.mem_cons_self⟩
  accounted process thread created := by
    rcases List.mem_cons.mp created with same | created
    · cases same
      exact Or.inl rfl
    · rcases owned.accounted process thread created with inside | gone
      · cases inside
      · exact Or.inr (gone.cons _)
  rightful := ⟨trivial, owned.rightful⟩

/-- A handle that was obtained otherwise is not that of a process. -/
theorem Owned.not_process (owned : Owned pipe pi next trace) {effect : Effect} {h : Handle}
    (inside : effect ∈ trace) (acquired : h ∈ effect.acquires)
    (other : ∀ thread, effect ≠ .processCreated h thread) (thread : Handle) :
    .processCreated h thread ∉ trace := fun created =>
  other thread (owned.balanced.unique inside created acquired List.mem_cons_self)

theorem Owned.closePipe (owned : Owned pipe pi next trace) :
    Owned none pi next (closingPipe pipe ++ trace) := by
  cases pipe with
  | none => exact owned
  | some h =>
    have created := owned.pipeCreated h rfl
    refine ⟨owned.balanced.release rfl rfl, by simp, fun process inside => ?_, fun thread inside => ?_,
      fun process thread created => ?_, ⟨?_, fun thread created' => ?_⟩, owned.rightful⟩
    · obtain ⟨thread, created⟩ := owned.processCreated process inside
      exact ⟨thread, List.mem_cons_of_mem _ created⟩
    · obtain ⟨process, created⟩ := owned.threadCreated thread inside
      exact ⟨process, List.mem_cons_of_mem _ created⟩
    · rcases List.mem_cons.mp created with same | created
      · cases same
      · exact (owned.accounted process thread created).imp_right (·.cons _)
    · exact owned.balanced.mem_acquired (Or.inl List.mem_cons_self)
    -- The pipe was handed out as a pipe, so no process has its number.
    · exact absurd created' (owned.not_process created List.mem_cons_self (by simp) thread)

theorem Owned.closeProcessHandle {process : Handle} {hThread : Option Handle}
    (owned : Owned pipe ⟨some process, hThread⟩ next trace) (gone : Gone trace process) :
    Owned pipe ⟨none, hThread⟩ next (.closed process :: trace) where
  balanced := by
    refine Balanced.release (owned.balanced.reorder ?_) rfl rfl
    exact List.perm_middle
  pipeCreated h inside := List.mem_cons_of_mem _ (owned.pipeCreated h inside)
  processCreated process inside := by cases inside
  threadCreated thread inside := by
    obtain ⟨process, created⟩ := owned.threadCreated thread inside
    exact ⟨process, List.mem_cons_of_mem _ created⟩
  accounted other thread created := by
    rcases List.mem_cons.mp created with same | created
    · cases same
    · rcases owned.accounted other thread created with inside | gone'
      · cases inside
        exact Or.inr (gone.cons _)
      · exact Or.inr (gone'.cons _)
  rightful := by
    refine ⟨⟨owned.balanced.mem_acquired (Or.inl ?_), fun _ _ => gone⟩, owned.rightful⟩
    exact List.mem_append_right _ List.mem_cons_self

theorem Owned.closeThreadHandle {thread : Handle} (owned : Owned pipe ⟨none, some thread⟩ next trace) :
    Owned pipe .zero next (.closed thread :: trace) where
  balanced := by
    refine Balanced.release (owned.balanced.reorder ?_) rfl rfl
    exact List.perm_middle
  pipeCreated h inside := List.mem_cons_of_mem _ (owned.pipeCreated h inside)
  processCreated process inside := by cases inside
  threadCreated thread inside := by cases inside
  accounted process other created := by
    rcases List.mem_cons.mp created with same | created
    · cases same
    · exact (owned.accounted process other created).imp_right (·.cons _)
  rightful := by
    obtain ⟨process, created⟩ := owned.threadCreated thread rfl
    have member : thread ∈ Effect.acquires (.processCreated process thread) := by
      simp [Effect.acquires]
    refine ⟨⟨owned.balanced.mem_acquired (Or.inl ?_), fun other created' => ?_⟩, owned.rightful⟩
    · exact List.mem_append_right _ List.mem_cons_self
    -- A process with this number would share its creation with the thread.
    · have same := owned.balanced.unique created' created List.mem_cons_self member
      have distinct := List.nodup_flatMap.mp owned.balanced.nodup
      have repeated := distinct.1 _ created
      cases same
      simp [Effect.acquires] at repeated

end Steps

section Close
variable {pipe : Option Handle} {pi : ProcessInformation} {next : Handle} {trace : List Effect}
variable {os : CloseOs}

theorem Owned.closeProcess (owned : Owned pipe pi next trace) (reliable : os.Reliable)
    (waitMs : Nat) : Owned pipe .zero next (closingProcess os pi waitMs ++ trace) := by
  obtain ⟨hProcess, hThread⟩ := pi
  have noProcess : Owned pipe ⟨none, hThread⟩ next (closingProcess os ⟨hProcess, none⟩ waitMs ++ trace) := by
    cases hProcess with
    | none => exact owned
    | some process =>
      obtain ⟨result, terminates, after⟩ := os
      obtain ⟨notFailed, rfl⟩ := reliable
      cases result with
      | failed => exact absurd rfl notFailed
      | object0 =>
        exact (owned.quiet (.waited process waitMs .object0) trivial).closeProcessHandle
          (Or.inl ⟨waitMs, List.mem_cons_self⟩)
      -- A broker that outlives the wait is terminated before its handle is closed.
      | timeout =>
        have waited := owned.quiet (.waited process waitMs .timeout) trivial
        have terminated := waited.quiet (.terminated process true) trivial
        have waitedAgain := terminated.quiet (.waited process 500 after) trivial
        exact waitedAgain.closeProcessHandle (Or.inr (List.mem_cons_of_mem _ List.mem_cons_self))
  cases hThread with
  | none => exact noProcess
  | some thread => exact noProcess.closeThreadHandle

theorem Owned.closeSession {session : BrokerSessionState}
    (owned : Owned session.hPipe session.pi next trace) (reliable : os.Reliable)
    (waitMs : Nat) : Owned none .zero next (closingSession os session waitMs ++ trace) := by
  rw [closingSession, List.append_assoc]
  exact owned.closePipe.closeProcess reliable waitMs

end Close

/-- The session state owns every handle that is open. -/
def Keeps (s : World) : Prop := Owned s.session.hPipe s.session.pi s.nextHandle s.trace

section Calls
variable {s : World} {os : CloseOs}

theorem Keeps.ended (keeps : Keeps s) (reliable : os.Reliable) (waitMs : Nat) :
    Keeps (s.ended.emits (closingSession os s.session waitMs)) :=
  Owned.closeSession keeps reliable waitMs

theorem Keeps.request (keeps : Keeps s) (os : RefreshOs) (delayMs : Nat) (generation : BitVec 32) :
    Keeps (requestCredentialsChangedAsync os s delayMs generation) := by
  obtain ⟨pending, outstanding, effects, same, quiet⟩ :=
    requestCredentialsChangedAsync_frame os s delayMs generation
  rw [same]
  exact Owned.quiets keeps quiet

theorem Keeps.afterRead {os : SerializationOs} (keeps : Keeps s)
    (reliable : os.close.Reliable) (verdict : Verdict) : Keeps (afterRead os s verdict) := by
  cases verdict with
  | timeout => exact keeps.request _ _ _
  | pending | idle =>
    apply Keeps.request
    exact keeps
  | lost =>
    apply Keeps.request
    exact keeps.ended reliable 0
  | malformed => exact keeps.ended reliable 0
  | empty | final => exact keeps.ended reliable 1000

theorem Keeps.started (keeps : Keeps s) (closed : s.session = .closed) : Keeps (World.started s) := by
  unfold Keeps at keeps
  rw [closed] at keeps
  exact keeps.createPipe.launchBroker.createProcess

theorem Keeps.afterStart {os : SerializationOs} (keeps : Keeps s) (closed : s.session = .closed)
    (reliable : os.close.Reliable) (verdict : StartVerdict) :
    Keeps (afterStart os s verdict) := by
  cases verdict with
  | noPipe => exact keeps
  | started => exact keeps.started closed
  | noBroker =>
    unfold Keeps at keeps
    rw [closed] at keeps
    exact keeps.createPipe.launchBroker.closePipe
  | notConnected result =>
    unfold Keeps at keeps
    rw [closed] at keeps
    exact keeps.createPipe.launchBroker.createProcess.closePipe.closeProcess reliable 500

theorem Keeps.getSerialization (keeps : Keeps s) (coherent : Coherent s) (machine : Machine)
    (pointers : OutPointers) (os : SerializationOs) (reliable : os.close.Reliable)
    (cpus : UsageScenario) : Keeps (getSerialization machine pointers os s cpus).1 := by
  refine coherent.getSerialization_ways machine pointers os cpus keeps ?_ ?_ ?_
  · intro _ verdict
    exact keeps.afterRead reliable verdict
  · intro closed verdict
    exact (keeps.started closed.1).afterRead reliable verdict
  · intro closed verdict
    exact keeps.afterStart closed.1 reliable verdict

theorem Keeps.setUsageScenario (keeps : Keeps s) (reliable : os.Reliable) (cpus : UsageScenario) :
    Keeps (setUsageScenario os s cpus).1 := by
  unfold Core.setUsageScenario
  split
  · dsimp only
    split
    · rw [closeBrokerSessionNow_eq]
      exact keeps.ended reliable 0
    · exact keeps
  · dsimp only
    rw [closeBrokerSessionNow_eq]
    exact keeps.ended reliable 0

theorem Keeps.setDeselected (keeps : Keeps s) (reliable : os.Reliable) (cpus : UsageScenario) :
    Keeps (setDeselected os s cpus) := by
  unfold Core.setDeselected
  split
  · rw [closeBrokerSessionNow_eq]
    exact keeps.ended reliable 0
  · exact keeps

end Calls

def Call.Reliable : Call → Prop
  | .setUsageScenario _ os | .setDeselected _ os => os.Reliable
  | .getSerialization _ _ os => os.close.Reliable
  | _ => True

theorem Spared.keeps {s next : World} (spared : Spared s next) (keeps : Keeps s) : Keeps next := by
  obtain ⟨effects, grows, quiet⟩ := spared.trace
  unfold Keeps
  rw [spared.session, spared.nextHandle, grows]
  exact Owned.quiets keeps quiet

theorem Keeps.step {s next : World} (keeps : Keeps s) (coherent : Coherent s) {machine : Machine}
    {call : Call} (reliable : call.Reliable) (stepped : step machine s call = some next) :
    Keeps next := by
  cases call with
  | setUsageScenario cpus os =>
    cases stepped
    exact keeps.setUsageScenario reliable cpus
  | setDeselected cpus os =>
    cases stepped
    exact keeps.setDeselected reliable cpus
  | getSerialization cpus pointers os =>
    cases stepped
    exact keeps.getSerialization coherent machine pointers os reliable cpus
  | advise | unAdvise | setSelected | refreshTimer | elapse =>
    exact (step_aside stepped trivial).keeps keeps

theorem keeps_of_reliable {machine : Machine} {calls : List Call} {s : World}
    (reliable : ∀ call ∈ calls, call.Reliable)
    (ran : Transition.run (step machine) World.initial calls = some s) : Keeps s := by
  have meets := Transition.meets_of_forall (step machine) reliable World.initial
  -- Coherence rides along: it says which handles a call finds.
  have both := meets.invariant (fun s => Coherent s ∧ Keeps s)
    (fun s call next holds reliable stepped =>
      ⟨holds.1.step stepped, holds.2.step holds.1 reliable stepped⟩)
    ⟨coherent_initial, owned_initial 1⟩ ran
  exact both.2

/-- Between calls every handle ever obtained is held exactly once or was closed exactly
once; a process handle was closed, and a broker launched, only when the process in
question was gone. -/
theorem handle_conservation (machine : Machine) (calls : List Call) (s : World)
    (reliable : ∀ call ∈ calls, call.Reliable)
    (ran : Transition.run (step machine) World.initial calls = some s) :
    (∀ h ∈ obtained s.trace, s.held.count h + (closings s.trace).count h = 1) ∧
    (∀ h, h ∈ s.held ∨ h ∈ closings s.trace → h ∈ obtained s.trace) ∧
    (∀ later earlier process thread, s.trace = later ++ .closed process :: earlier →
      .processCreated process thread ∈ s.trace → Gone earlier process) ∧
    (∀ later earlier process thread, s.trace = later ++ .launchBroker :: earlier →
      .processCreated process thread ∈ earlier → Gone earlier process) := by
  have keeps := keeps_of_reliable reliable ran
  refine ⟨fun h inside => keeps.balanced.count_eq_one inside,
    fun h inside => keeps.balanced.mem_acquired inside, ?_, ?_⟩
  · intro later earlier process thread split created
    have rightful := keeps.rightful
    rw [split] at rightful
    obtain ⟨before, gone⟩ := rightful.split
    -- Only the creation of the process can have handed out the handle that was closed.
    obtain ⟨effect, inside, acquired⟩ := List.mem_flatMap.mp before
    have inTrace : effect ∈ s.trace := by
      rw [split]
      exact List.mem_append_right _ (List.mem_cons_of_mem _ inside)
    have same := keeps.balanced.unique inTrace created acquired List.mem_cons_self
    exact gone thread (same ▸ inside)
  · intro later earlier process thread split created
    have rightful := keeps.rightful
    rw [split] at rightful
    exact rightful.split process thread created

theorem handle_conservation_restart :
    ∃ s, Transition.run (step sampleMachine) World.initial
        [sampleCall .brokerExited [], sampleCall .timeout []] = some s ∧
      s.held = [4, 5, 6] ∧ closings s.trace = [3, 2, 1] ∧
      ∀ h ∈ obtained s.trace, s.held.count h + (closings s.trace).count h = 1 := by
  have ran : ((Transition.run (step sampleMachine) World.initial
      [sampleCall .brokerExited [], sampleCall .timeout []]).map
        fun s => (s.held, closings s.trace)) = some ([4, 5, 6], [3, 2, 1]) := by decide +kernel
  obtain ⟨s, reached, account⟩ := Option.map_eq_some_iff.mp ran
  obtain ⟨held, closed⟩ := Prod.mk.inj account
  refine ⟨s, reached, held, closed, (handle_conservation sampleMachine _ s ?_ reached).1⟩
  intro call inside
  simp only [List.mem_cons, List.not_mem_nil, or_false] at inside
  rcases inside with rfl | rfl <;> exact ⟨by decide, rfl⟩

end Dot1xCP.Core
