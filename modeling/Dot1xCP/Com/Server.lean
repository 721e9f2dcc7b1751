import Dot1xCP.Core.Scenario
import Dot1xCP.Lib.RefCount

/-! The objects that the DLL hands out, and when it may be unloaded.

`g_LockCount` counts the class factories and the locks of the server. Providers and
credentials count their own references only, and a timer that is armed is counted nowhere.
-/

set_option autoImplicit false

namespace Dot1xCP.Com
open Dot1xCP.Broker Dot1xCP.Core RefCount

inductive Iid where
  | unknown
  | classFactory
  | credentialProvider
  | credentialProviderCredential
  | other
  deriving DecidableEq, Repr

/-- The provider keeps a scenario, and so does a credential. -/
structure Server where
  lockCount : BitVec 32
  factories : Table 32 Unit
  providers : Table 32 UsageScenario
  credentials : Table 32 UsageScenario
  /-- The locks that clients have taken and not given back. -/
  locks : Nat
  world : World
  deriving DecidableEq, Repr

def Server.initial : Server := ⟨0, .empty, .empty, .empty, 0, World.initial⟩

/-- `ppv`: the pointer is not null. -/
def queryInterface {Value : Type} (supported : List Iid) (objects : Table 32 Value) (i : Nat)
    (riid : Iid) (ppv : Bool) : Table 32 Value × ComResult :=
  if !ppv then (objects, .ePointer)
  else if riid ∈ supported then (objects.addRef i, .sOk)
  else (objects, .eNoInterface)

def ClassFactory.queryInterface := @Com.queryInterface Unit [.unknown, .classFactory]

def CPProvider.queryInterface := @Com.queryInterface UsageScenario [.unknown, .credentialProvider]

def CPCredential.queryInterface :=
  @Com.queryInterface UsageScenario [.unknown, .credentialProviderCredential]

def ClassFactory.new (s : Server) : Server :=
  { s with factories := s.factories.create (), lockCount := s.lockCount + 1 }

def ClassFactory.release (s : Server) (i : Nat) : Server :=
  match s.factories.find i with
  | none => s
  | some factory =>
    { s with
      factories := s.factories.release i
      lockCount := if factory.ref - 1 = 0 then s.lockCount - 1 else s.lockCount }

/-- `pUnkOuter` and `ppvObject`: the pointers are not null. `allocated`: `new` succeeds. -/
def ClassFactory.createInstance (s : Server) (pUnkOuter : Bool) (riid : Iid)
    (ppvObject allocated : Bool) : Server × ComResult :=
  if pUnkOuter then (s, .eNoAggregation)
  else if !ppvObject then (s, .ePointer)
  else if !allocated then (s, .eOutOfMemory)
  else
    let prov := s.providers.next
    let (providers, hr) :=
      CPProvider.queryInterface (s.providers.create .invalid) prov riid ppvObject
    ({ s with providers := providers.release prov }, hr)

def ClassFactory.lockServer (s : Server) (fLock : Bool) : Server :=
  if fLock then { s with lockCount := s.lockCount + 1, locks := s.locks + 1 }
  else { s with lockCount := s.lockCount - 1, locks := s.locks - 1 }

def dllGetClassObject (s : Server) (rclsid : Bool) (riid : Iid) (ppv allocated : Bool) :
    Server × ComResult :=
  if !ppv then (s, .ePointer)
  else if rclsid then
    if !allocated then (s, .eOutOfMemory)
    else
      let cf := s.factories.next
      let s := ClassFactory.new s
      let (factories, hr) := ClassFactory.queryInterface s.factories cf riid ppv
      (ClassFactory.release { s with factories := factories } cf, hr)
  else (s, .eClassNotAvailable)

def dllCanUnloadNow (s : Server) : ComResult := if s.lockCount = 0 then .sOk else .sFalse

/-! ## The clients -/

inductive Name where
  | factory (i : Nat)
  | provider (i : Nat)
  | credential (i : Nat)
  deriving DecidableEq, Repr

inductive Call where
  | dllGetClassObject (rclsid : Bool) (riid : Iid) (ppv allocated : Bool)
  | queryInterface (object : Name) (riid : Iid) (ppv : Bool)
  | addRef (object : Name)
  | release (object : Name)
  | createInstance (factory : Nat) (pUnkOuter : Bool) (riid : Iid) (ppvObject allocated : Bool)
  | lockServer (factory : Nat) (fLock : Bool)
  | setUsageScenario (provider : Nat) (cpus : UsageScenario) (os : CloseOs)
  | advise (provider : Nat) (events : Option Events) (context : Nat)
  | unAdvise (provider : Nat)
  | getCredentialAt (provider : Nat) (ppcpc allocated : Bool) (dwIndex : UInt32)
  | setSelected (credential : Nat)
  | setDeselected (credential : Nat) (os : CloseOs)
  | getSerialization (credential : Nat) (pointers : OutPointers) (os : SerializationOs)
  | refreshTimer (ctx : CredRefreshAsyncCtx)
  | elapse (milliseconds : Nat)

/-- The clients call methods of objects to which they hold a reference, and give back only
the locks that they have taken. -/
def serve (machine : Machine) (s : Server) : Call → Option Server
  | .dllGetClassObject rclsid riid ppv allocated =>
    some (dllGetClassObject s rclsid riid ppv allocated).1
  | .queryInterface (.factory i) riid ppv =>
    (s.factories.find i).map fun _ =>
      { s with factories := (ClassFactory.queryInterface s.factories i riid ppv).1 }
  | .queryInterface (.provider i) riid ppv =>
    (s.providers.find i).map fun _ =>
      { s with providers := (CPProvider.queryInterface s.providers i riid ppv).1 }
  | .queryInterface (.credential i) riid ppv =>
    (s.credentials.find i).map fun _ =>
      { s with credentials := (CPCredential.queryInterface s.credentials i riid ppv).1 }
  | .addRef (.factory i) =>
    (s.factories.find i).map fun _ => { s with factories := s.factories.addRef i }
  | .addRef (.provider i) =>
    (s.providers.find i).map fun _ => { s with providers := s.providers.addRef i }
  | .addRef (.credential i) =>
    (s.credentials.find i).map fun _ => { s with credentials := s.credentials.addRef i }
  | .release (.factory i) => (s.factories.find i).map fun _ => ClassFactory.release s i
  | .release (.provider i) =>
    (s.providers.find i).map fun _ => { s with providers := s.providers.release i }
  | .release (.credential i) =>
    (s.credentials.find i).map fun _ => { s with credentials := s.credentials.release i }
  | .createInstance i pUnkOuter riid ppvObject allocated =>
    (s.factories.find i).map fun _ =>
      (ClassFactory.createInstance s pUnkOuter riid ppvObject allocated).1
  | .lockServer i fLock =>
    if fLock = false ∧ s.locks = 0 then none
    else (s.factories.find i).map fun _ => ClassFactory.lockServer s fLock
  | .setUsageScenario i cpus os =>
    (s.providers.find i).map fun _ =>
      let (world, kept, _) := setUsageScenario os s.world cpus
      { s with world := world, providers := s.providers.assign i kept }
  | .advise i events context =>
    (s.providers.find i).map fun _ =>
      { s with world := setProviderEvents s.world events context }
  | .unAdvise i =>
    (s.providers.find i).map fun _ => { s with world := clearProviderEvents s.world }
  | .getCredentialAt i ppcpc allocated dwIndex =>
    (s.providers.find i).map fun provider =>
      match (getCredentialAt ppcpc allocated provider.value dwIndex).2 with
      | none => s
      | some cpus => { s with credentials := s.credentials.create cpus }
  | .setSelected i =>
    (s.credentials.find i).map fun credential =>
      { s with world := (setSelected s.world credential.value).1 }
  | .setDeselected i os =>
    (s.credentials.find i).map fun credential =>
      { s with world := setDeselected os s.world credential.value }
  | .getSerialization i pointers os =>
    (s.credentials.find i).map fun credential =>
      { s with world := (getSerialization machine pointers os s.world credential.value).1 }
  | .refreshTimer ctx => (fireTimer s.world ctx).map fun world => { s with world := world }
  | .elapse milliseconds =>
    some { s with world := { s.world with now := s.world.now + milliseconds } }

/-! ## What is in use -/

/-- What `g_LockCount` counts. -/
def Server.locked (s : Server) : Nat := s.factories.live + s.locks

def InUse (s : Server) : Prop :=
  0 < s.factories.live ∨ 0 < s.providers.live ∨ 0 < s.credentials.live ∨ 0 < s.locks ∨
    s.world.outstanding ≠ []

def UnloadSafe (s : Server) : Prop := dllCanUnloadNow s = .sOk → ¬ InUse s

def Counted (s : Server) : Prop := s.lockCount = BitVec.ofNat 32 s.locked

def HandsOutFactory (rclsid : Bool) (riid : Iid) (ppv allocated : Bool) : Prop :=
  ppv = true ∧ rclsid = true ∧ allocated = true ∧ riid ∈ [Iid.unknown, Iid.classFactory]

/-- The condition on one call: when it brings `g_LockCount` to zero, nothing is in use
after it. Apart from the last release of a factory only a count that wraps gets there. -/
def Careful (s : Server) : Call → Prop
  | .dllGetClassObject rclsid riid ppv allocated =>
    HandsOutFactory rclsid riid ppv allocated → (s.locked + 1) % 2 ^ 32 ≠ 0
  | .lockServer _ true => (s.locked + 1) % 2 ^ 32 ≠ 0
  | .lockServer _ false => (s.locked - 1) % 2 ^ 32 ≠ 0
  | .release (.factory i) =>
    ∀ factory, s.factories.find i = some factory → factory.ref = 1 →
      (s.locked - 1) % 2 ^ 32 = 0 →
      s.locked = 1 ∧ s.providers.live = 0 ∧ s.credentials.live = 0 ∧ s.world.outstanding = []
  | _ => True

structure Kept (s next : Server) : Prop where
  lockCount : next.lockCount = s.lockCount
  locked : next.locked = s.locked
  used : InUse next → InUse s

section Calls
variable {machine : Machine} {s next : Server}

theorem live_queryInterface {Value : Type} (supported : List Iid) (objects : Table 32 Value)
    (i : Nat) (riid : Iid) (ppv : Bool) :
    (Com.queryInterface supported objects i riid ppv).1.live = objects.live := by
  unfold Com.queryInterface
  split_ifs
  · rfl
  · exact objects.live_addRef i
  · rfl

theorem queryInterface_supported {Value : Type} {supported : List Iid} {riid : Iid}
    (known : riid ∈ supported) (objects : Table 32 Value) (i : Nat) :
    Com.queryInterface supported objects i riid true = (objects.addRef i, .sOk) :=
  if_pos known

theorem queryInterface_other {Value : Type} {supported : List Iid} {riid : Iid}
    (other : riid ∉ supported) (objects : Table 32 Value) (i : Nat) :
    Com.queryInterface supported objects i riid true = (objects, .eNoInterface) :=
  if_neg other

theorem release_eq {i : Nat} {factory : RefCount.Counted 32 Unit}
    (found : s.factories.find i = some factory) :
    ClassFactory.release s i =
      { s with
        factories := s.factories.release i
        lockCount := if factory.ref - 1 = 0 then s.lockCount - 1 else s.lockCount } := by
  unfold ClassFactory.release
  rw [found]

theorem inUse_factory {i : Nat} {object : RefCount.Counted 32 Unit}
    (found : s.factories.find i = some object) : InUse s :=
  Or.inl (Table.live_pos found)

theorem inUse_provider {i : Nat} {object : RefCount.Counted 32 UsageScenario}
    (found : s.providers.find i = some object) : InUse s :=
  Or.inr (Or.inl (Table.live_pos found))

theorem inUse_credential {i : Nat} {object : RefCount.Counted 32 UsageScenario}
    (found : s.credentials.find i = some object) : InUse s :=
  Or.inr (Or.inr (Or.inl (Table.live_pos found)))

theorem inUse_locked (locked : 0 < s.locked) : InUse s := by
  rcases Nat.add_pos_iff_pos_or_pos.mp locked with factory | lock
  · exact Or.inl factory
  · exact Or.inr (Or.inr (Or.inr (Or.inl lock)))

theorem not_inUse : ¬ InUse s ↔
    s.locked = 0 ∧ s.providers.live = 0 ∧ s.credentials.live = 0 ∧ s.world.outstanding = [] := by
  simp only [InUse, Server.locked, not_or, Nat.not_lt, Nat.le_zero_eq, not_not, Nat.add_eq_zero_iff]
  tauto

theorem createInstance_frame (s : Server) (pUnkOuter : Bool) (riid : Iid)
    (ppvObject allocated : Bool) :
    ∃ providers, (ClassFactory.createInstance s pUnkOuter riid ppvObject allocated).1 =
      { s with providers := providers } := by
  unfold ClassFactory.createInstance
  split_ifs <;> exact ⟨_, rfl⟩

/-- A factory that is not handed out is deleted again. -/
theorem dllGetClassObject_frame (s : Server) (rclsid : Bool) (riid : Iid) (ppv allocated : Bool) :
    ∃ lockCount factories, (dllGetClassObject s rclsid riid ppv allocated).1 =
        { s with lockCount := lockCount, factories := factories } ∧
      ((HandsOutFactory rclsid riid ppv allocated ∧ lockCount = s.lockCount + 1 ∧
          factories.live = s.factories.live + 1) ∨
        (¬ HandsOutFactory rclsid riid ppv allocated ∧ lockCount = s.lockCount ∧
          factories.live = s.factories.live)) := by
  by_cases creates : ppv = true ∧ rclsid = true ∧ allocated = true
  · obtain ⟨rfl, rfl, rfl⟩ := creates
    have created := s.factories.find_create ()
    have one := s.factories.live_create ()
    by_cases known : riid ∈ [Iid.unknown, Iid.classFactory]
    · have added := Table.find_addRef created
      have same : (dllGetClassObject s true riid true true).1 =
          { s with
            lockCount := s.lockCount + 1
            factories := ((s.factories.create ()).addRef s.factories.next).release
              s.factories.next } := by
        change (ClassFactory.release { ClassFactory.new s with
          factories := (Com.queryInterface _ (s.factories.create ()) s.factories.next riid true).1 }
            s.factories.next) = _
        rw [queryInterface_supported known, release_eq added]
        rfl
      refine ⟨_, _, same, Or.inl ⟨⟨rfl, rfl, rfl, known⟩, rfl, ?_⟩⟩
      rw [Table.live_release_other added (by decide), Table.live_addRef, one]
    · have same : (dllGetClassObject s true riid true true).1 =
          { s with
            lockCount := s.lockCount + 1 - 1
            factories := (s.factories.create ()).release s.factories.next } := by
        change (ClassFactory.release { ClassFactory.new s with
          factories := (Com.queryInterface _ (s.factories.create ()) s.factories.next riid true).1 }
            s.factories.next) = _
        rw [queryInterface_other known, release_eq created]
        rfl
      refine ⟨_, _, same, Or.inr ⟨fun handsOut => known handsOut.2.2.2, ?_, ?_⟩⟩
      · exact BitVec.add_sub_cancel _ _
      · exact Nat.succ.inj ((Table.live_release_last created rfl).trans one)
  · have same : (dllGetClassObject s rclsid riid ppv allocated).1 = s := by
      unfold dllGetClassObject
      cases ppv <;> cases rclsid <;> cases allocated <;> simp_all
    refine ⟨s.lockCount, s.factories, same, Or.inr ⟨?_, rfl, rfl⟩⟩
    exact fun handsOut => creates ⟨handsOut.1, handsOut.2.1, handsOut.2.2.1⟩

theorem kept_of_used (used : InUse s) (lockCount : next.lockCount = s.lockCount)
    (factories : next.factories.live = s.factories.live) (locks : next.locks = s.locks) :
    Kept s next :=
  ⟨lockCount, by rw [Server.locked, Server.locked, factories, locks], fun _ => used⟩

/-- The last release of a factory is careful when nothing else is left. -/
theorem careful_last {i : Nat} {factory : RefCount.Counted 32 Unit}
    (found : s.factories.find i = some factory) (last : factory.ref = 1)
    (locked : next.locked + 1 = s.locked) (providers : next.providers = s.providers)
    (credentials : next.credentials = s.credentials) (world : next.world = s.world) :
    Careful s (.release (.factory i)) ↔ (next.locked % 2 ^ 32 = 0 → ¬ InUse next) := by
  have less : s.locked - 1 = next.locked := by omega
  rw [not_inUse, providers, credentials, world]
  constructor
  · intro careful wraps
    obtain ⟨one, rest⟩ := careful factory found last (less.symm ▸ wraps)
    exact ⟨by omega, rest⟩
  · intro safe other _ _ wraps
    obtain ⟨zero, rest⟩ := safe (less ▸ wraps)
    exact ⟨by omega, rest⟩

theorem serve_cases {call : Call} (served : serve machine s call = some next) :
    (Kept s next ∧ Careful s call) ∨
      (next.lockCount = s.lockCount + 1 ∧ next.locked = s.locked + 1 ∧
        (Careful s call ↔ (s.locked + 1) % 2 ^ 32 ≠ 0)) ∨
      (next.lockCount = s.lockCount - 1 ∧ next.locked + 1 = s.locked ∧
        (Careful s call ↔ (next.locked % 2 ^ 32 = 0 → ¬ InUse next))) := by
  cases call with
  | dllGetClassObject rclsid riid ppv allocated =>
    obtain ⟨lockCount, factories, same, ⟨handsOut, counts, lives⟩ | ⟨not, counts, lives⟩⟩ :=
      dllGetClassObject_frame s rclsid riid ppv allocated
    · cases served
      refine Or.inr (Or.inl ?_)
      rw [same]
      refine ⟨counts, ?_, fun careful => careful handsOut, fun wraps _ => wraps⟩
      dsimp only [Server.locked]
      omega
    · cases served
      refine Or.inl ⟨?_, fun handsOut => absurd handsOut not⟩
      rw [same]
      refine ⟨counts, ?_, ?_⟩
      · rw [Server.locked, Server.locked, lives]
      · unfold InUse
        rw [lives]
        exact id
  | queryInterface object riid ppv =>
    cases object with
    | factory i =>
      obtain ⟨object, found, rfl⟩ := Option.map_eq_some_iff.mp served
      exact Or.inl ⟨kept_of_used (inUse_factory found) rfl (live_queryInterface _ _ _ _ _) rfl, trivial⟩
    | provider i =>
      obtain ⟨object, found, rfl⟩ := Option.map_eq_some_iff.mp served
      exact Or.inl ⟨kept_of_used (inUse_provider found) rfl rfl rfl, trivial⟩
    | credential i =>
      obtain ⟨object, found, rfl⟩ := Option.map_eq_some_iff.mp served
      exact Or.inl ⟨kept_of_used (inUse_credential found) rfl rfl rfl, trivial⟩
  | addRef object =>
    cases object with
    | factory i =>
      obtain ⟨object, found, rfl⟩ := Option.map_eq_some_iff.mp served
      exact Or.inl ⟨kept_of_used (inUse_factory found) rfl (Table.live_addRef _ i) rfl, trivial⟩
    | provider i =>
      obtain ⟨object, found, rfl⟩ := Option.map_eq_some_iff.mp served
      exact Or.inl ⟨kept_of_used (inUse_provider found) rfl rfl rfl, trivial⟩
    | credential i =>
      obtain ⟨object, found, rfl⟩ := Option.map_eq_some_iff.mp served
      exact Or.inl ⟨kept_of_used (inUse_credential found) rfl rfl rfl, trivial⟩
  | release object =>
    cases object with
    | factory i =>
      obtain ⟨factory, found, rfl⟩ := Option.map_eq_some_iff.mp served
      rw [release_eq found]
      by_cases last : factory.ref = 1
      · have fewer := Table.live_release_last found last
        have locked : (s.factories.release i).live + s.locks + 1 = s.locked := by
          dsimp only [Server.locked]
          omega
        refine Or.inr (Or.inr ⟨?_, locked, careful_last found last locked rfl rfl rfl⟩)
        exact if_pos (by rw [last]; rfl)
      · have more : factory.ref - 1 ≠ 0 := fun zero =>
          last ((BitVec.sub_eq_iff_eq_add.mp zero).trans (BitVec.zero_add 1))
        rw [if_neg more]
        have stays := Table.live_release_other found last
        refine Or.inl ⟨kept_of_used (inUse_factory found) rfl stays rfl, ?_⟩
        intro other same one
        obtain rfl := Option.some_inj.mp (found.symm.trans same)
        exact absurd one last
    | provider i =>
      obtain ⟨object, found, rfl⟩ := Option.map_eq_some_iff.mp served
      exact Or.inl ⟨kept_of_used (inUse_provider found) rfl rfl rfl, trivial⟩
    | credential i =>
      obtain ⟨object, found, rfl⟩ := Option.map_eq_some_iff.mp served
      exact Or.inl ⟨kept_of_used (inUse_credential found) rfl rfl rfl, trivial⟩
  | createInstance i pUnkOuter riid ppvObject allocated =>
    obtain ⟨object, found, rfl⟩ := Option.map_eq_some_iff.mp served
    obtain ⟨providers, same⟩ := createInstance_frame s pUnkOuter riid ppvObject allocated
    rw [same]
    exact Or.inl ⟨kept_of_used (inUse_factory found) rfl rfl rfl, trivial⟩
  | lockServer i fLock =>
    obtain ⟨held, served⟩ := Option.ite_none_left_eq_some.mp served
    obtain ⟨factory, found, rfl⟩ := Option.map_eq_some_iff.mp served
    cases fLock with
    | true => exact Or.inr (Or.inl ⟨rfl, rfl, Iff.rfl⟩)
    | false =>
      have some : 0 < s.locks := Nat.pos_of_ne_zero fun none => held ⟨rfl, none⟩
      have used : InUse (ClassFactory.lockServer s false) := Or.inl (Table.live_pos found)
      have locked : (ClassFactory.lockServer s false).locked + 1 = s.locked := by
        change s.factories.live + (s.locks - 1) + 1 = s.factories.live + s.locks
        omega
      refine Or.inr (Or.inr ⟨rfl, locked, ?_⟩)
      rw [Careful, ← locked, Nat.add_sub_cancel]
      exact ⟨fun wraps zero => absurd zero wraps, fun safe zero => safe zero used⟩
  | setUsageScenario i | advise i | unAdvise i =>
    obtain ⟨object, found, rfl⟩ := Option.map_eq_some_iff.mp served
    exact Or.inl ⟨kept_of_used (inUse_provider found) rfl rfl rfl, trivial⟩
  | getCredentialAt i ppcpc allocated dwIndex =>
    obtain ⟨object, found, rfl⟩ := Option.map_eq_some_iff.mp served
    refine Or.inl ⟨?_, trivial⟩
    split
    · exact kept_of_used (inUse_provider found) rfl rfl rfl
    · exact kept_of_used (inUse_provider found) rfl rfl rfl
  | setSelected i | setDeselected i | getSerialization i =>
    obtain ⟨object, found, rfl⟩ := Option.map_eq_some_iff.mp served
    exact Or.inl ⟨kept_of_used (inUse_credential found) rfl rfl rfl, trivial⟩
  | refreshTimer ctx =>
    obtain ⟨world, fired, rfl⟩ := Option.map_eq_some_iff.mp served
    obtain ⟨⟨armed, _⟩, _⟩ := fireTimer_eq_some.mp fired
    have used : InUse s :=
      Or.inr (Or.inr (Or.inr (Or.inr (List.ne_nil_of_mem armed))))
    exact Or.inl ⟨kept_of_used used rfl rfl rfl, trivial⟩
  | elapse milliseconds =>
    cases served
    exact Or.inl ⟨⟨rfl, rfl, id⟩, trivial⟩

end Calls

theorem Counted.serve (machine : Machine) {call : Call} {s next : Server} (counted : Counted s)
    (served : serve machine s call = some next) : Counted next := by
  unfold Counted at counted ⊢
  rcases serve_cases served with ⟨kept, _⟩ | ⟨lockCount, locked, _⟩ | ⟨lockCount, locked, _⟩
  · rw [kept.lockCount, kept.locked, counted]
  · rw [lockCount, locked, counted]
    exact (BitVec.ofNat_add s.locked 1).symm
  · rw [lockCount, counted, ← locked, BitVec.ofNat_add]
    exact BitVec.add_sub_cancel _ _

theorem unloadSafe_iff {s : Server} (counted : Counted s) :
    UnloadSafe s ↔ (s.locked % 2 ^ 32 = 0 → ¬ InUse s) := by
  unfold UnloadSafe dllCanUnloadNow
  rw [counted]
  have zero : BitVec.ofNat 32 s.locked = 0 ↔ s.locked % 2 ^ 32 = 0 := by
    rw [← BitVec.toNat_inj, BitVec.toNat_ofNat]
    rfl
  by_cases wraps : s.locked % 2 ^ 32 = 0
  · rw [if_pos (zero.mpr wraps)]
    exact ⟨fun safe _ => safe rfl, fun safe _ => safe wraps⟩
  · rw [if_neg fun same => wraps (zero.mp same)]
    exact ⟨fun _ same => absurd same wraps, fun _ same => by cases same⟩

theorem careful_exact (machine : Machine) (s : Server) (call : Call) (next : Server)
    (counted : Counted s) (safe : UnloadSafe s) (served : serve machine s call = some next) :
    UnloadSafe next ↔ Careful s call := by
  rw [unloadSafe_iff (counted.serve machine served)]
  rcases serve_cases served with ⟨kept, careful⟩ | ⟨_, locked, careful⟩ | ⟨_, _, careful⟩
  · refine iff_of_true ?_ careful
    rw [kept.locked]
    exact fun zero used => (unloadSafe_iff counted).mp safe zero (kept.used used)
  · rw [careful, ← locked]
    have used : InUse next := inUse_locked (locked ▸ Nat.succ_pos _)
    exact ⟨fun safe wraps => safe wraps used, fun wraps zero => absurd zero wraps⟩
  · exact careful.symm

/-- The DLL says that it may be unloaded only when nothing of it is in use, in every state
that the clients' calls and the timers lead to, exactly when every call is careful. -/
theorem unload_safe_iff (machine : Machine) (calls : List Call) (final : Server)
    (ran : Transition.run (serve machine) Server.initial calls = some final) :
    (∀ s, Transition.Visits (serve machine) Server.initial calls s → UnloadSafe s) ↔
      Transition.Meets (serve machine) Careful Server.initial calls := by
  apply Transition.visits_iff_meets Counted UnloadSafe
    (fun _ _ _ counted served => counted.serve machine served) (careful_exact machine) _ _ ran
  · rfl
  · intro _
    rw [not_inUse]
    exact ⟨rfl, rfl, rfl, rfl⟩

def providerFirst : List Call :=
  [.dllGetClassObject true .classFactory true true,
    .createInstance 0 false .credentialProvider true true, .release (.provider 0),
    .release (.factory 0)]

theorem unload_safe_provider_first :
    (Transition.run (serve sampleMachine) Server.initial providerFirst).map dllCanUnloadNow =
        some .sOk ∧
      ∀ s, Transition.Visits (serve sampleMachine) Server.initial providerFirst s →
        UnloadSafe s := by
  have unloads : (Transition.run (serve sampleMachine) Server.initial providerFirst).map
      dllCanUnloadNow = some .sOk := by decide +kernel
  obtain ⟨final, ran, _⟩ := Option.map_eq_some_iff.mp unloads
  refine ⟨unloads, (unload_safe_iff sampleMachine providerFirst final ran).mpr ?_⟩
  apply Transition.meets_cons _ rfl
  · apply Transition.meets_cons trivial rfl
    apply Transition.meets_cons trivial rfl
    refine ⟨fun _ _ _ _ => ?_, fun _ _ => trivial⟩
    decide
  · intro _
    decide

def factoryFirst : List Call :=
  [.dllGetClassObject true .classFactory true true,
    .createInstance 0 false .credentialProvider true true, .release (.factory 0),
    .advise 0 (some 7) 0, .getCredentialAt 0 true true 0,
    .getSerialization 0 allPointers (sampleSystem .ok idleMessage)]

/-- Provider, credential and an armed timer do not keep the DLL loaded. -/
theorem unloaded_in_use :
    (∃ s, Transition.run (serve sampleMachine) Server.initial factoryFirst = some s ∧
      0 < s.providers.live ∧ 0 < s.credentials.live ∧ s.world.outstanding ≠ [] ∧
      dllCanUnloadNow s = .sOk) ∧
    ¬ ∀ s, Transition.Visits (serve sampleMachine) Server.initial factoryFirst s →
        UnloadSafe s := by
  have ran : (Transition.run (serve sampleMachine) Server.initial factoryFirst).map
      (fun s => decide (0 < s.providers.live ∧ 0 < s.credentials.live ∧
        s.world.outstanding ≠ [] ∧ dllCanUnloadNow s = .sOk)) = some true := by decide +kernel
  obtain ⟨s, ran, uses⟩ := Option.map_eq_some_iff.mp ran
  have uses := of_decide_eq_true uses
  refine ⟨⟨s, ran, uses⟩, fun safe => ?_⟩
  exact safe s ⟨factoryFirst, [], (List.append_nil _).symm, ran⟩ uses.2.2.2
    (Or.inr (Or.inl uses.1))

end Dot1xCP.Com
