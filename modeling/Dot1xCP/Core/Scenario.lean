import Dot1xCP.Core.Generation

/-! The scenario of a credential.

The provider keeps the scenario of the last accepted `SetUsageScenario` call, and each
credential the one that the provider had when it was created. `GetCredentialCount`,
`SetSelected` and `SetDeselected` consult what they have; `GetCredentialAt` and
`GetSerialization` consult nothing.
-/

set_option autoImplicit false

namespace Dot1xCP.Core
open Broker Auth

inductive ComResult where
  | sOk
  | sFalse
  | ePointer
  | eInvalidArg
  | eOutOfMemory
  | eNoInterface
  | eNoAggregation
  | eClassNotAvailable
  deriving DecidableEq, Repr

structure CredentialCount where
  count : UInt32
  default : UInt32
  autoLogonWithDefault : Bool
  deriving DecidableEq, Repr

def credentialProviderNoDefault : UInt32 := 0xFFFFFFFF

def getCredentialCount (pointers : Bool) (cpus : UsageScenario) : ComResult × Option CredentialCount :=
  if !pointers then (.ePointer, none)
  else if cpus ≠ .logon then (.sOk, some ⟨0, credentialProviderNoDefault, false⟩)
  else (.sOk, some ⟨1, 0, false⟩)

/-- The result, and the scenario of the credential that was created. -/
def getCredentialAt (ppcpc allocated : Bool) (cpus : UsageScenario) (dwIndex : UInt32) :
    ComResult × Option UsageScenario :=
  if !ppcpc then (.ePointer, none)
  else if dwIndex ≠ 0 then (.eInvalidArg, none)
  else if !allocated then (.eOutOfMemory, none)
  else (.sOk, some cpus)

/-- A credential is handed out also where none is announced. -/
theorem getCredentialAt_unguarded {cpus : UsageScenario} (other : cpus ≠ .logon) :
    (getCredentialCount true cpus).2.map CredentialCount.count = some 0 ∧
      getCredentialAt true true cpus 0 = (.sOk, some cpus) := by
  refine ⟨?_, rfl⟩
  rw [getCredentialCount, if_neg (by simp), if_pos other]
  rfl

/-! ## A provider and its credentials -/

structure Objects where
  world : World
  /-- The scenario that the provider keeps. -/
  cpus : UsageScenario
  /-- The credentials handed out so far, each with its own scenario. -/
  credentials : List UsageScenario
  /-- What the last `SetUsageScenario` call asked for. -/
  scenario : Option UsageScenario
  deriving DecidableEq, Repr

def Objects.initial : Objects := ⟨World.initial, .invalid, [], none⟩

inductive Request where
  | setUsageScenario (cpus : UsageScenario) (os : CloseOs)
  | getCredentialCount (pointers : Bool)
  | getCredentialAt (ppcpc allocated : Bool) (dwIndex : UInt32)
  | setSelected (credential : Nat)
  | setDeselected (credential : Nat) (os : CloseOs)
  | getSerialization (credential : Nat) (pointers : OutPointers) (os : SerializationOs)
  | advise (events : Option Events) (context : Nat)
  | unAdvise
  | refreshTimer (ctx : CredRefreshAsyncCtx)
  | elapse (milliseconds : Nat)

def request (machine : Machine) (o : Objects) : Request → Option Objects
  | .setUsageScenario cpus os =>
    let (world, kept, _) := setUsageScenario os o.world cpus
    some { o with world := world, cpus := kept, scenario := some cpus }
  | .getCredentialCount _ => some o
  | .getCredentialAt ppcpc allocated dwIndex =>
    let (_, created) := getCredentialAt ppcpc allocated o.cpus dwIndex
    some { o with credentials := o.credentials ++ created.toList }
  | .setSelected credential =>
    o.credentials[credential]?.map fun cpus => { o with world := (setSelected o.world cpus).1 }
  | .setDeselected credential os =>
    o.credentials[credential]?.map fun cpus => { o with world := setDeselected os o.world cpus }
  | .getSerialization credential pointers os =>
    o.credentials[credential]?.map fun cpus =>
      { o with world := (getSerialization machine pointers os o.world cpus).1 }
  | .advise events context => some { o with world := setProviderEvents o.world events context }
  | .unAdvise => some { o with world := clearProviderEvents o.world }
  | .refreshTimer ctx => (fireTimer o.world ctx).map fun world => { o with world := world }
  | .elapse milliseconds =>
    some { o with world := { o.world with now := o.world.now + milliseconds } }

def Launches (machine : Machine) (s : World) (cpus : UsageScenario) (pointers : OutPointers)
    (os : SerializationOs) : Prop :=
  ∃ effects process thread, (getSerialization machine pointers os s cpus).1.trace = effects ++ s.trace ∧
    .processCreated process thread ∈ effects

def HandsOut (machine : Machine) (s : World) (cpus : UsageScenario) (pointers : OutPointers)
    (os : SerializationOs) : Prop :=
  ∃ credential, (getSerialization machine pointers os s cpus).2.credential = some credential ∧
    credential.rgbSerialization ≠ none

/-- The request launches a broker or returns a blob only in the logon scenario. -/
def LogonOnly (machine : Machine) (o : Objects) : Request → Prop
  | .getSerialization credential pointers os =>
    ∀ cpus, o.credentials[credential]? = some cpus →
      Launches machine o.world cpus pointers os ∨ HandsOut machine o.world cpus pointers os →
      o.scenario = some .logon
  | _ => True

def Unlaunchable (pointers : OutPointers) (os : SerializationOs) : Prop :=
  pointers.pcpgsr = false ∨ pointers.pcpcs = false ∨
    (os.createPipe.strict || os.createPipe.relax || os.createPipe.noAttributes) = false ∨
    createProcessSucceeds os.launch = false

/-- Outside the logon scenario no credential is asked for its serialization, unless nothing
can be launched. -/
def Guarded (o : Objects) : Request → Prop
  | .getSerialization credential pointers os =>
    o.scenario ≠ some .logon → credential < o.credentials.length → Unlaunchable pointers os
  | _ => True

section Closed
variable {machine : Machine} {s : World} {cpus : UsageScenario} {pointers : OutPointers}
  {os : SerializationOs}

theorem unlaunchable_iff (response : pointers.pcpgsr = true) (credential : pointers.pcpcs = true) :
    Unlaunchable pointers os ↔ startVerdict os = .noPipe ∨ startVerdict os = .noBroker := by
  rw [Unlaunchable, response, credential, startVerdict]
  cases os.createPipe.strict || os.createPipe.relax || os.createPipe.noAttributes with
  | false => simp
  | true =>
    cases createProcessSucceeds os.launch with
    | false => simp
    | true =>
      simp only [Bool.not_true, Bool.false_eq_true, if_false]
      split <;> simp

theorem idle_of_effects {text : Option String} (effects : List Effect)
    (answered : (getSerialization machine pointers os s cpus).2 =
      notFinished pointers os (clearedOut pointers) text)
    (trace : (getSerialization machine pointers os s cpus).1.trace = effects ++ s.trace)
    (quiet : ∀ process thread, .processCreated process thread ∉ effects) :
    ¬ Launches machine s cpus pointers os ∧ ¬ HandsOut machine s cpus pointers os := by
  constructor
  · rintro ⟨others, process, thread, grows, created⟩
    obtain rfl := List.append_cancel_right (grows.symm.trans trace)
    exact quiet process thread created
  · intro handsOut
    unfold HandsOut at handsOut
    rw [answered] at handsOut
    cases (answers_notFinished pointers os text).blob.mp handsOut

theorem unlaunchable_idle (machine : Machine) (cpus : UsageScenario) (coherent : Coherent s)
    (inactive : s.brokerSessionActive = false) (unlaunchable : Unlaunchable pointers os) :
    ¬ Launches machine s cpus pointers os ∧ ¬ HandsOut machine s cpus pointers os ∧
      (getSerialization machine pointers os s cpus).1.brokerSessionActive = false := by
  rw [← and_assoc]
  by_cases null : pointers.pcpgsr = false ∨ pointers.pcpcs = false
  · have refused : (!pointers.pcpgsr || !pointers.pcpcs) = true := by simpa using null
    have same : getSerialization machine pointers os s cpus = (s, ⟨.ePointer, none, none, none, none⟩) :=
      if_pos refused
    unfold Launches HandsOut
    rw [same]
    refine ⟨⟨?_, ?_⟩, inactive⟩
    · rintro ⟨effects, process, thread, grows, created⟩
      obtain rfl := List.self_eq_append_left.mp grows
      cases created
    · rintro ⟨credential, returned, _⟩
      cases returned
  · simp only [not_or, Bool.not_eq_false] at null
    have closed := getSerialization_closed machine os null.1 null.2 (coherent.closed inactive) cpus
    rcases (unlaunchable_iff null.1 null.2).mp unlaunchable with noPipe | noBroker
    · rw [noPipe, if_neg nofun] at closed
      refine ⟨idle_of_effects [] (congrArg Prod.snd closed) ?_ nofun, ?_⟩
      · rw [closed]
        rfl
      · rw [closed]
        exact inactive
    · rw [noBroker, if_neg nofun] at closed
      refine ⟨idle_of_effects [.closed s.nextHandle, .launchBroker, .pipeCreated s.nextHandle]
        (congrArg Prod.snd closed) ?_ ?_, ?_⟩
      · rw [closed]
        rfl
      · simp
      · rw [closed]
        rfl

theorem launches_of_launchable (machine : Machine) (cpus : UsageScenario) (coherent : Coherent s)
    (inactive : s.brokerSessionActive = false) (launchable : ¬ Unlaunchable pointers os) :
    Launches machine s cpus pointers os := by
  have response : pointers.pcpgsr = true := by
    by_contra null
    exact launchable (Or.inl (Bool.not_eq_true _ ▸ null))
  have credential : pointers.pcpcs = true := by
    by_contra null
    exact launchable (Or.inr (Or.inl (Bool.not_eq_true _ ▸ null)))
  rw [unlaunchable_iff response credential, not_or] at launchable
  have closed := getSerialization_closed machine os response credential (coherent.closed inactive) cpus
  unfold Launches
  rw [closed]
  cases start : startVerdict os with
  | noPipe => exact absurd start launchable.1
  | noBroker => exact absurd start launchable.2
  | notConnected result =>
    rw [if_neg nofun]
    refine ⟨closingProcess os.close ⟨some (s.nextHandle + 1), some (s.nextHandle + 2)⟩ 500 ++
      [.closed s.nextHandle, .processCreated (s.nextHandle + 1) (s.nextHandle + 2), .launchBroker,
        .pipeCreated s.nextHandle], s.nextHandle + 1, s.nextHandle + 2, ?_, by simp⟩
    simp [afterStart]
  | started =>
    rw [if_pos rfl]
    -- Whatever the read brings, the process was created before it.
    obtain ⟨⟨effects, grows⟩, _⟩ :=
      asks_afterRead os (World.started s) (verdict os.read os.message)
    refine ⟨effects ++ [.processCreated (s.nextHandle + 1) (s.nextHandle + 2), .launchBroker,
      .pipeCreated s.nextHandle], s.nextHandle + 1, s.nextHandle + 2, ?_, by simp⟩
    dsimp only
    rw [grows, World.started, List.append_assoc]
    rfl

end Closed

/-- Outside the logon scenario there is no session. -/
structure Confined (o : Objects) : Prop where
  coherent : Coherent o.world
  inactive : o.scenario ≠ some .logon → o.world.brokerSessionActive = false

section Requests
variable {machine : Machine} {o : Objects}

theorem confined_initial : Confined Objects.initial := ⟨coherent_initial, fun _ => rfl⟩

theorem logonOnly_iff (confined : Confined o) (r : Request) : LogonOnly machine o r ↔ Guarded o r := by
  cases r with
  | getSerialization credential pointers os =>
    unfold LogonOnly Guarded
    by_cases logon : o.scenario = some .logon
    · exact iff_of_true (fun _ _ _ => logon) fun other => absurd logon other
    · have inactive := confined.inactive logon
      constructor
      · intro only _ present
        by_contra launchable
        have launches := launches_of_launchable machine o.credentials[credential] confined.coherent
          inactive launchable
        exact logon (only _ (List.getElem?_eq_getElem present) (Or.inl launches))
      · intro guarded cpus found acts
        have unlaunchable := guarded logon (List.getElem?_eq_some_iff.mp found).1
        obtain ⟨launches, handsOut, _⟩ :=
          unlaunchable_idle machine cpus confined.coherent inactive unlaunchable
        exact absurd acts (not_or.mpr ⟨launches, handsOut⟩)
  | setUsageScenario | getCredentialCount | getCredentialAt | setSelected | setDeselected | advise
  | unAdvise | refreshTimer | elapse => exact Iff.rfl

theorem Confined.spared {next : World} (confined : Confined o) (spared : Spared o.world next) :
    Confined { o with world := next } := by
  obtain ⟨coherent, inactive⟩ := confined
  exact ⟨spared.coherent coherent, fun other => spared.active.trans (inactive other)⟩

/-- A request that launches nothing outside the logon scenario keeps the provider confined. -/
theorem Confined.request {r : Request} {next : Objects} (confined : Confined o)
    (only : LogonOnly machine o r) (served : request machine o r = some next) : Confined next := by
  have ⟨coherent, inactive⟩ := confined
  cases r with
  | setUsageScenario cpus os =>
    have ends (notLogon : cpus ≠ .logon) :
        (setUsageScenario os o.world cpus).1.brokerSessionActive = false := by
      rw [setUsageScenario_world, if_neg fun both => notLogon both.1]
      rfl
    cases served
    exact ⟨coherent.setUsageScenario os cpus, fun other => ends fun logon => other (congrArg some logon)⟩
  | getCredentialCount pointers =>
    cases served
    exact ⟨coherent, inactive⟩
  | getCredentialAt ppcpc allocated dwIndex =>
    cases served
    exact ⟨coherent, inactive⟩
  | setSelected credential =>
    obtain ⟨cpus, _, rfl⟩ := Option.map_eq_some_iff.mp served
    refine ⟨coherent.setSelected cpus, fun other => ?_⟩
    exact (setSelected_kept o.world cpus).1.trans (inactive other)
  | setDeselected credential os =>
    obtain ⟨cpus, _, rfl⟩ := Option.map_eq_some_iff.mp served
    refine ⟨coherent.setDeselected os cpus, fun other => ?_⟩
    rcases setDeselected_ends os o.world cpus with same | ended
    · exact (congrArg World.brokerSessionActive same).trans (inactive other)
    · exact ended
  | getSerialization credential pointers os =>
    obtain ⟨cpus, found, rfl⟩ := Option.map_eq_some_iff.mp served
    refine ⟨coherent.getSerialization machine pointers os cpus, fun other => ?_⟩
    -- In the other scenarios the call could not launch anything.
    have guarded := (logonOnly_iff ⟨coherent, inactive⟩ _).mp only
    have unlaunchable := guarded other (List.getElem?_eq_some_iff.mp found).1
    exact (unlaunchable_idle machine cpus coherent (inactive other) unlaunchable).2.2
  | advise events context =>
    cases served
    have stepped : step machine o.world (.advise events context) =
      some (setProviderEvents o.world events context) := rfl
    exact confined.spared (step_aside stepped trivial)
  | unAdvise =>
    cases served
    have stepped : step machine o.world .unAdvise = some (clearProviderEvents o.world) := rfl
    exact confined.spared (step_aside stepped trivial)
  | refreshTimer ctx =>
    obtain ⟨world, fired, rfl⟩ := Option.map_eq_some_iff.mp served
    have stepped : step machine o.world (.refreshTimer ctx) = some world := fired
    exact confined.spared (step_aside stepped trivial)
  | elapse milliseconds =>
    cases served
    exact ⟨coherent.congr rfl rfl rfl rfl, inactive⟩

end Requests

/-- Along every run of a provider and its credentials, brokers are launched and blobs
returned in the logon scenario only, exactly when outside of it no credential is asked
that could launch one. -/
theorem logon_only_iff (machine : Machine) (requests : List Request) :
    Transition.Meets (request machine) (LogonOnly machine) Objects.initial requests ↔
      Transition.Meets (request machine) Guarded Objects.initial requests :=
  Transition.meets_iff Confined (fun _ _ _ confined only served => confined.request only served)
    (fun _ r confined _ => logonOnly_iff confined r) confined_initial (Transition.meets_true _ _ _)

/-- The provider refuses the scenario, hands out a credential all the same, and the
credential launches a broker; so does one that was handed out before. -/
theorem launched_for_unlock :
    ¬ Transition.Meets (request sampleMachine) (LogonOnly sampleMachine) Objects.initial
        [.setUsageScenario .unlockWorkstation ⟨.object0, true, .object0⟩, .getCredentialAt true true 0,
          .getSerialization 0 allPointers (sampleSystem .timeout [])] ∧
      ¬ Transition.Meets (request sampleMachine) (LogonOnly sampleMachine) Objects.initial
        [.setUsageScenario .logon ⟨.object0, true, .object0⟩, .getCredentialAt true true 0,
          .setUsageScenario .unlockWorkstation ⟨.object0, true, .object0⟩,
          .getSerialization 0 allPointers (sampleSystem .timeout [])] := by
  have launchable : ¬ Unlaunchable allPointers (sampleSystem .timeout []) := by
    rintro (null | null | noPipe | noProcess)
    · cases null
    · cases null
    · cases noPipe
    · cases noProcess
  constructor
  · intro only
    have coherent := coherent_initial.setUsageScenario ⟨.object0, true, .object0⟩ .unlockWorkstation
    have launches := launches_of_launchable sampleMachine .invalid coherent rfl launchable
    cases ((only.2 _ rfl).2 _ rfl).1 _ rfl (Or.inl launches)
  · intro only
    have coherent := (coherent_initial.setUsageScenario ⟨.object0, true, .object0⟩
      .logon).setUsageScenario ⟨.object0, true, .object0⟩ .unlockWorkstation
    have launches := launches_of_launchable sampleMachine .logon coherent rfl launchable
    cases (((only.2 _ rfl).2 _ rfl).2 _ rfl).1 _ rfl (Or.inl launches)

end Dot1xCP.Core
