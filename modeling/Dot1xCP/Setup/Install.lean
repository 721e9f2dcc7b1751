import Dot1xCP.Setup.Policies

/-! Installing, upgrading and uninstalling, as changes of the registry.

An upgrade runs the uninstaller that it finds, so that a backup is only taken on a machine
without the product. From one backup to the next restore, nothing but the installer writes
the backup entries.
-/

set_option autoImplicit false

namespace Dot1xCP.Setup
open Footprint

def uninstallKey : PascalString :=
  text "SOFTWARE\\Microsoft\\Windows\\CurrentVersion\\Uninstall\\" ++
    text "\x7b9A237E8F-6C2D-4FB4-8E6A-2A0E8F88B511\x7d_is1"

def cpGuid : PascalString := text "\x7b7C5B9DC9-3FAE-4E3C-8B1F-2B4B530A1D77\x7d"

inductive Launch where
  | failed
  | exited (resultCode : Int)
  deriving DecidableEq, Repr

/-- What `Exec` does: it reports, and the program that it ran has changed the registry. -/
abbrev Exec := PascalString → Registry → Launch × Registry

structure Removal where
  result : Bool
  shown : Option PascalString
  registry : Registry

def tryGetExistingUninstallCommand (registry : Registry) : Option PascalString :=
  let uninstallCmd :=
    regQueryStringValue .hklm64 uninstallKey (text "QuietUninstallString") registry <|>
    regQueryStringValue .hklm64 uninstallKey (text "UninstallString") registry <|>
    regQueryStringValue .hklm uninstallKey (text "QuietUninstallString") registry <|>
    regQueryStringValue .hklm uninstallKey (text "UninstallString") registry
  uninstallCmd.filter fun cmd => trim cmd ≠ []

def uninstallPreviousVersionIfExists (exec : Exec) (registry : Registry) : Removal :=
  match tryGetExistingUninstallCommand registry with
  | none => ⟨true, none, registry⟩
  | some cmd =>
    let upperCmd := upperCase cmd
    let cmd :=
      if pos (text "/VERYSILENT") upperCmd = 0 then
        cmd ++ text " /VERYSILENT /SUPPRESSMSGBOXES /NORESTART"
      else cmd
    match exec (text "/C " ++ cmd) registry with
    | (.failed, registry) =>
      ⟨false, some (text "기존 버전 제거 실행에 실패했습니다. 설치를 중단합니다."), registry⟩
    | (.exited resultCode, registry) =>
      if resultCode ≠ 0 then
        ⟨false, some (text "기존 버전 제거 실패 (종료 코드: " ++ text (toString resultCode) ++
          text "). 설치를 중단합니다."), registry⟩
      else ⟨true, none, registry⟩

def prepareToInstall (exec : Exec) (succeeds : Outcome) (registry : Registry) :
    PascalString × Registry :=
  let removal := uninstallPreviousVersionIfExists exec registry
  let result :=
    if !removal.result then text "기존 버전 제거에 실패하여 설치를 진행할 수 없습니다." else []
  if result = [] then (result, backupPolicyRegistryValues succeeds removal.registry)
  else (result, removal.registry)

/-! ## What the engine does -/

def credentialProviderKey : PascalString :=
  text "SOFTWARE\\Microsoft\\Windows\\CurrentVersion\\Authentication\\Credential Providers\\" ++ cpGuid

def clsidKey : PascalString := text "SOFTWARE\\Classes\\CLSID\\" ++ cpGuid

def inprocServerKey : PascalString := clsidKey ++ text "\\InprocServer32"

def comEntries (app : PascalString) : List RegistryEntry :=
  [⟨.hklm64, credentialProviderKey, [], .string (text "Dot1xCP")⟩,
    ⟨.hklm64, clsidKey, [], .string (text "Dot1xCP")⟩,
    ⟨.hklm64, inprocServerKey, [], .string (app ++ text "\\Dot1xCP.dll")⟩,
    ⟨.hklm64, inprocServerKey, text "ThreadingModel", .string (text "Apartment")⟩]

def applyRegistrySection (app : PascalString) (succeeds : Outcome) (registry : Registry) : Registry :=
  writePolicyEntries succeeds
    ((comEntries app).foldl (fun registry entry => writeEntry succeeds entry registry) registry)

def registerUninstaller (app : PascalString) (registry : Registry) : Registry :=
  let uninstallString := text "\"" ++ app ++ text "\\unins000.exe\""
  let registry := put allSucceed (location .hklm uninstallKey (text "UninstallString"))
    (some (.string uninstallString)) registry
  put allSucceed (location .hklm uninstallKey (text "QuietUninstallString"))
    (some (.string (uninstallString ++ text " /SILENT"))) registry

inductive UninstallStep where
  | usAppMutexCheck | usUninstall | usPostUninstall | usDone
  deriving DecidableEq, Repr

/-- The programs that are run before the restore do not touch the policies. -/
def curUninstallStepChanged (succeeds : Outcome) (curUninstallStep : UninstallStep)
    (registry : Registry) : Registry :=
  if curUninstallStep = .usUninstall then restorePolicyRegistryValues succeeds registry
  else registry

def uninsdeletekeys : List PascalString := [inprocServerKey, clsidKey, credentialProviderKey]

def performUninstall (registry : Registry) : Registry :=
  deleteKey .hklm uninstallKey
    (uninsdeletekeys.foldl (fun registry key => deleteKey .hklm64 key registry) registry)

def uninstaller (registry : Registry) : Registry :=
  let registry := curUninstallStepChanged allSucceed .usAppMutexCheck registry
  let registry := curUninstallStepChanged allSucceed .usUninstall registry
  let registry := performUninstall registry
  let registry := curUninstallStepChanged allSucceed .usPostUninstall registry
  curUninstallStepChanged allSucceed .usDone registry

/-- The uninstaller ran to its end where it exits with 0, and did not start otherwise. -/
def runUninstaller (launch : Launch) : Exec := fun _ registry =>
  (launch, if launch = .exited 0 then uninstaller registry else registry)

def install (app : PascalString) (launch : Launch) (registry : Registry) : Registry :=
  let prepared := prepareToInstall (runUninstaller launch) allSucceed registry
  if prepared.1 = [] then registerUninstaller app (applyRegistrySection app allSucceed prepared.2)
  else prepared.2

/-! ## Histories of a machine -/

/-- An installation or an upgrade, with what running the uninstaller that it finds comes to;
the uninstaller run by the user; and an edit of a policy by others. -/
inductive Event where
  | install (app : PascalString) (launch : Launch)
  | uninstall
  | edit (policy : { policy // policy ∈ policies }) (content : Option UInt32)

def withoutProduct (registry : Registry) : Registry :=
  if (tryGetExistingUninstallCommand registry).isSome then uninstaller registry else registry

def next (registry : Registry) : Event → Registry
  | .install app launch => install app launch registry
  | .uninstall => withoutProduct registry
  | .edit policy content =>
    Function.update registry policy.val.call.place (content.map .dword)

def history (registry : Registry) (events : List Event) : Registry := events.foldl next registry

def engineKeys : List PascalString := uninstallKey :: uninsdeletekeys

theorem engineKeys_apart : ∀ key ∈ engineKeys,
    ∀ subKey ∈ lowerCase policyBackupKey :: policies.map fun policy => lowerCase policy.call.subKey,
      subKey ≠ lowerCase key ∧ ¬ lowerCase key ++ [0x5C] <+: subKey := by
  unfold engineKeys uninstallKey uninsdeletekeys inprocServerKey clsidKey credentialProviderKey
    cpGuid policyBackupKey policies backupCalls
  repeat rw [text_ofList]
  decide +kernel

section Places
variable {policy : Policy} {place : Location}

theorem region_apart (listed : policy ∈ policies) (inside : place ∈ policy.call.region)
    {key : PascalString} (owned : key ∈ engineKeys) :
    place.subKey ≠ lowerCase key ∧ ¬ lowerCase key ++ [0x5C] <+: place.subKey := by
  refine engineKeys_apart key owned place.subKey ?_
  rcases inside with rfl | rfl | rfl
  · exact List.mem_cons_of_mem _ (List.mem_map.mpr ⟨policy, listed, rfl⟩)
  · exact List.mem_cons_self
  · exact List.mem_cons_self

theorem engine_outside {key : PascalString} (owned : key ∈ engineKeys) (rootKey : RootKey)
    (valueName : PascalString) :
    ∀ policy ∈ policies, location rootKey key valueName ∉ policy.call.region :=
  fun _ listed inside => (region_apart listed inside owned).1 rfl

theorem performUninstall_frame (listed : policy ∈ policies) (inside : place ∈ policy.call.region)
    (registry : Registry) : performUninstall registry place = registry place := by
  have kept {key : PascalString} (owned : key ∈ engineKeys) (rootKey : RootKey)
      (registry : Registry) : deleteKey rootKey key registry place = registry place :=
    deleteKey_frame (region_apart listed inside owned).1 (region_apart listed inside owned).2 registry
  unfold performUninstall uninsdeletekeys
  simp only [List.foldl_cons, List.foldl_nil]
  rw [kept (by simp [engineKeys]), kept (by simp [engineKeys, uninsdeletekeys]),
    kept (by simp [engineKeys, uninsdeletekeys]), kept (by simp [engineKeys, uninsdeletekeys])]

theorem uninstaller_eq (registry : Registry) : uninstaller registry =
    performUninstall (restorePolicyRegistryValues allSucceed registry) := rfl

theorem uninstaller_at (listed : policy ∈ policies) (inside : place ∈ policy.call.region)
    (registry : Registry) :
    uninstaller registry place = restorePolicyRegistryValues allSucceed registry place :=
  performUninstall_frame listed inside _

theorem comEntries_frame (listed : policy ∈ policies) (inside : place ∈ policy.call.region)
    (app : PascalString) (registry : Registry) :
    (comEntries app).foldl (fun registry entry => writeEntry allSucceed entry registry) registry
      place = registry place := by
  have within (entry : RegistryEntry) := put_within allSucceed
    (location entry.rootKey entry.subKey entry.valueName) (some entry.valueData)
  refine sweep_frame within (comEntries app) registry fun entry written same => ?_
  have key : entry.subKey ∈ engineKeys := by
    simp only [comEntries, List.mem_cons, List.not_mem_nil, or_false] at written
    rcases written with rfl | rfl | rfl | rfl <;> simp [engineKeys, uninsdeletekeys]
  cases Set.mem_singleton_iff.mp same
  exact engine_outside key _ _ policy listed inside

theorem registerUninstaller_frame (listed : policy ∈ policies) (inside : place ∈ policy.call.region)
    (app : PascalString) (registry : Registry) :
    registerUninstaller app registry place = registry place := by
  have differs (valueName : PascalString) : place ≠ location .hklm uninstallKey valueName :=
    fun same => engine_outside List.mem_cons_self _ valueName policy listed (same ▸ inside)
  unfold registerUninstaller
  rw [put_allSucceed, put_allSucceed, Function.update_of_ne (differs _),
    Function.update_of_ne (differs _)]

end Places

theorem tryGetExistingUninstallCommand_congr {first second : Registry}
    (same : ∀ valueName, first (location .hklm64 uninstallKey valueName) =
      second (location .hklm64 uninstallKey valueName)) :
    tryGetExistingUninstallCommand first = tryGetExistingUninstallCommand second := by
  have read (rootKey : RootKey) (valueName : PascalString) :
      regQueryStringValue rootKey uninstallKey valueName first =
        regQueryStringValue rootKey uninstallKey valueName second := by
    cases rootKey <;> exact regQueryStringValue_congr (same valueName)
  unfold tryGetExistingUninstallCommand
  rw [read, read, read, read]

theorem registerUninstaller_found (app : PascalString) (registry : Registry) :
    (tryGetExistingUninstallCommand (registerUninstaller app registry)).isSome := by
  have quiet : regQueryStringValue .hklm64 uninstallKey (text "QuietUninstallString")
      (registerUninstaller app registry) =
        some (text "\"" ++ app ++ text "\\unins000.exe\"" ++ text " /SILENT") := by
    have stored : registerUninstaller app registry
        (location .hklm64 uninstallKey (text "QuietUninstallString")) =
          some (.string (text "\"" ++ app ++ text "\\unins000.exe\"" ++ text " /SILENT")) := by
      unfold registerUninstaller
      rw [put_allSucceed]
      exact Function.update_self ..
    rw [regQueryStringValue, stored]
  have quotation : text "\"" = [0x22] := by decide +kernel
  unfold tryGetExistingUninstallCommand
  rw [quiet, quotation]
  simp only [Option.orElse_eq_orElse, Option.orElse_some, List.cons_append, List.nil_append]
  rw [Option.filter_some, if_pos (decide_eq_true (trim_ne_nil (by decide) _))]
  rfl

theorem uninstaller_not_found (registry : Registry) :
    tryGetExistingUninstallCommand (uninstaller registry) = none := by
  have read (rootKey : RootKey) (valueName : PascalString) :
      regQueryStringValue rootKey uninstallKey valueName (uninstaller registry) = none := by
    have oneView : location rootKey uninstallKey valueName = location .hklm uninstallKey valueName := by
      cases rootKey <;> rfl
    rw [regQueryStringValue, oneView, uninstaller_eq, performUninstall, deleteKey_own]
  unfold tryGetExistingUninstallCommand
  rw [read, read, read, read]
  rfl

theorem withoutProduct_not_found (registry : Registry) :
    tryGetExistingUninstallCommand (withoutProduct registry) = none := by
  unfold withoutProduct
  split
  · exact uninstaller_not_found registry
  next absent => exact Option.not_isSome_iff_eq_none.mp absent

theorem withoutProduct_of_not_found {registry : Registry}
    (absent : tryGetExistingUninstallCommand registry = none) : withoutProduct registry = registry := by
  rw [withoutProduct, absent]
  rfl

theorem withoutProduct_of_found {registry : Registry}
    (found : (tryGetExistingUninstallCommand registry).isSome) :
    withoutProduct registry = uninstaller registry := if_pos found

/-- Either the product is gone, or running its uninstaller failed and nothing has changed. -/
theorem removal_cases (launch : Launch) (registry : Registry) :
    let removal := uninstallPreviousVersionIfExists (runUninstaller launch) registry
    (removal.result = true ∧ removal.registry = withoutProduct registry ∧
      (tryGetExistingUninstallCommand registry = none ∨ launch = .exited 0)) ∨
    (removal.result = false ∧ removal.registry = registry ∧ launch ≠ .exited 0) := by
  unfold uninstallPreviousVersionIfExists withoutProduct runUninstaller
  cases tryGetExistingUninstallCommand registry with
  | none => exact .inl ⟨rfl, rfl, .inl rfl⟩
  | some cmd =>
    cases launch with
    | failed => exact .inr ⟨rfl, rfl, by decide⟩
    | exited resultCode =>
      dsimp only
      split
      next failing =>
        have code : Launch.exited resultCode ≠ .exited 0 := fun same =>
          failing (Launch.exited.inj same)
        exact .inr ⟨rfl, if_neg code, code⟩
      next zero =>
        rw [of_not_not zero]
        exact .inl ⟨rfl, rfl, .inr rfl⟩

/-- The installation goes on exactly when the removal succeeds. -/
theorem prepareToInstall_eq (exec : Exec) (succeeds : Outcome) (registry : Registry) :
    prepareToInstall exec succeeds registry =
      let removal := uninstallPreviousVersionIfExists exec registry
      if removal.result then ([], backupPolicyRegistryValues succeeds removal.registry)
      else (text "기존 버전 제거에 실패하여 설치를 진행할 수 없습니다.", removal.registry) := by
  have message : text "기존 버전 제거에 실패하여 설치를 진행할 수 없습니다." ≠ [] := by
    rw [text_ofList]
    exact List.cons_ne_nil _ _
  unfold prepareToInstall
  dsimp only
  cases (uninstallPreviousVersionIfExists exec registry).result with
  | true => rfl
  | false => exact if_neg message

theorem prepareToInstall_exited (registry : Registry) :
    (prepareToInstall (runUninstaller (.exited 0)) allSucceed registry).1 = [] := by
  rcases removal_cases (.exited 0) registry with ⟨result, _⟩ | ⟨_, _, failed⟩
  · rw [prepareToInstall_eq]
    simp only [result, if_true]
  · exact absurd rfl failed

def installed (app : PascalString) (registry : Registry) : Registry :=
  registerUninstaller app
    (applyRegistrySection app allSucceed (backupPolicyRegistryValues allSucceed registry))

section Installation
variable (app : PascalString) {launch : Launch} {registry : Registry}

theorem install_completed
    (completed : (prepareToInstall (runUninstaller launch) allSucceed registry).1 = []) :
    (uninstallPreviousVersionIfExists (runUninstaller launch) registry).registry =
        withoutProduct registry ∧
      install app launch registry = installed app (withoutProduct registry) ∧
      (tryGetExistingUninstallCommand registry = none ∨ launch = .exited 0) := by
  rcases removal_cases launch registry with ⟨result, after, why⟩ | ⟨result, after, why⟩
  · refine ⟨after, ?_, why⟩
    unfold install
    rw [prepareToInstall_eq]
    simp only [result, after, if_true]
    rfl
  · rw [prepareToInstall_eq] at completed
    simp only [result, Bool.false_eq_true, if_false] at completed
    rw [text_ofList] at completed
    cases completed

theorem install_stopped
    (stopped : (prepareToInstall (runUninstaller launch) allSucceed registry).1 ≠ []) :
    install app launch registry = registry := by
  unfold install
  rw [if_neg stopped]
  rcases removal_cases launch registry with ⟨result, _, _⟩ | ⟨result, after, _⟩
  · rw [prepareToInstall_eq] at stopped
    simp only [result, if_true, ne_eq, not_true] at stopped
  · rw [prepareToInstall_eq]
    simp only [result, after, Bool.false_eq_true, if_false]

variable {policy : Policy} {content : Option UInt32}

theorem installed_found : (tryGetExistingUninstallCommand (installed app registry)).isSome :=
  registerUninstaller_found app _

theorem installed_encodes (listed : policy ∈ policies) (holds : Holds registry policy.call content) :
    Encodes (installed app registry) policy.call content := by
  have taken := (backup_encodes listed holds).1
  have kept {place : Location} (inside : place ∈ policy.call.region) :
      (comEntries app).foldl (fun registry entry => writeEntry allSucceed entry registry)
        (backupPolicyRegistryValues allSucceed registry) place =
          backupPolicyRegistryValues allSucceed registry place :=
    comEntries_frame listed inside app _
  have written := write_encodes (taken.congr (kept (present_mem _)) (kept (saved_mem _)))
  exact written.congr (registerUninstaller_frame listed (present_mem _) app _)
    (registerUninstaller_frame listed (saved_mem _) app _)

theorem installed_holds (listed : policy ∈ policies) (registry : Registry) :
    Holds (installed app registry) policy.call (some policy.data) :=
  (registerUninstaller_frame listed (place_mem _) app _).trans (write_holds listed _)

theorem withoutProduct_holds (listed : policy ∈ policies)
    (found : (tryGetExistingUninstallCommand registry).isSome)
    (encodes : Encodes registry policy.call content) :
    Holds (withoutProduct registry) policy.call content := by
  rw [withoutProduct_of_found found]
  exact (uninstaller_at listed (place_mem _) registry).trans (restore_holds listed encodes)

end Installation

def Dwords (registry : Registry) : Prop :=
  ∀ policy ∈ policies, ∃ content, Holds registry policy.call content

theorem withoutProduct_dwords {registry : Registry} (dwords : Dwords registry) :
    Dwords (withoutProduct registry) := by
  intro policy listed
  unfold withoutProduct
  split
  · obtain ⟨content, holds⟩ := dwords policy listed
    obtain ⟨after, held⟩ := restore_dword listed holds
    exact ⟨after, (uninstaller_at listed (place_mem _) registry).trans held⟩
  · exact dwords policy listed

theorem next_dwords {registry : Registry} (dwords : Dwords registry) (event : Event) :
    Dwords (next registry event) := by
  cases event with
  | install app launch =>
    by_cases completed : (prepareToInstall (runUninstaller launch) allSucceed registry).1 = []
    · rw [next, (install_completed app completed).2.1]
      exact fun policy listed => ⟨_, installed_holds app listed _⟩
    · rw [next, install_stopped app completed]
      exact dwords
  | uninstall => exact withoutProduct_dwords dwords
  | edit edited content =>
    intro policy listed
    by_cases same : policy.call.place = edited.val.call.place
    · exact ⟨content, by rw [Holds, same]; exact Function.update_self ..⟩
    · obtain ⟨before, holds⟩ := dwords policy listed
      exact ⟨before, (Function.update_of_ne same _ _).trans holds⟩

theorem history_dwords {registry : Registry} (dwords : Dwords registry) (events : List Event) :
    Dwords (history registry events) := by
  induction events generalizing registry with
  | nil => exact dwords
  | cons event events ih => exact ih (next_dwords dwords event)

/-- An event after which the last backup is still the last: an edit, or an upgrade that
stops. -/
def Event.KeepsBackup : Event → Prop
  | .install _ launch => launch ≠ .exited 0
  | .uninstall => False
  | .edit _ _ => True

theorem next_keeps {registry : Registry} {event : Event} (keeps : event.KeepsBackup)
    {call : PolicyCall} {content : Option UInt32}
    (found : (tryGetExistingUninstallCommand registry).isSome)
    (encodes : Encodes registry call content) :
    (tryGetExistingUninstallCommand (next registry event)).isSome ∧
      Encodes (next registry event) call content := by
  cases event with
  | install app launch =>
    have stopped : (prepareToInstall (runUninstaller launch) allSucceed registry).1 ≠ [] := by
      intro completed
      rcases (install_completed app completed).2.2 with absent | succeeded
      · rw [absent] at found
        cases found
      · exact keeps succeeded
    rw [next, install_stopped app stopped]
    exact ⟨found, encodes⟩
  | uninstall => exact keeps.elim
  | edit edited value =>
    have elsewhere (valueName : PascalString) :
        location .hklm64 uninstallKey valueName ≠ edited.val.call.place := fun same =>
      engine_outside List.mem_cons_self _ valueName _ edited.property (same ▸ place_mem _)
    have sameCommand := tryGetExistingUninstallCommand_congr fun valueName =>
      Function.update_of_ne (elsewhere valueName) (value.map .dword) registry
    refine ⟨?_, encodes.congr ?_ ?_⟩
    · rw [next, sameCommand]
      exact found
    · exact Function.update_of_ne (place_ne_present edited.property _).symm _ _
    · exact Function.update_of_ne (place_ne_saved edited.property _).symm _ _

theorem history_keeps {registry : Registry} {events : List Event}
    (keep : ∀ event ∈ events, event.KeepsBackup) {call : PolicyCall} {content : Option UInt32}
    (found : (tryGetExistingUninstallCommand registry).isSome)
    (encodes : Encodes registry call content) :
    (tryGetExistingUninstallCommand (history registry events)).isSome ∧
      Encodes (history registry events) call content := by
  induction events generalizing registry with
  | nil => exact ⟨found, encodes⟩
  | cons event events ih =>
    obtain ⟨stillFound, stillEncodes⟩ := next_keeps (keep event List.mem_cons_self) found encodes
    exact ih (fun other member => keep other (List.mem_cons_of_mem _ member)) stillFound stillEncodes

def Event.IsEdit : Event → Prop
  | .edit _ _ => True
  | _ => False

/-- What uninstalling now would leave of a policy is not changed by installing or
uninstalling. -/
theorem next_withoutProduct {registry : Registry} (dwords : Dwords registry) {event : Event}
    (own : ¬ event.IsEdit) {policy : Policy} (listed : policy ∈ policies) :
    withoutProduct (next registry event) policy.call.place =
      withoutProduct registry policy.call.place := by
  cases event with
  | install app launch =>
    by_cases completed : (prepareToInstall (runUninstaller launch) allSucceed registry).1 = []
    · obtain ⟨content, holds⟩ := withoutProduct_dwords dwords policy listed
      rw [next, (install_completed app completed).2.1]
      have restored := withoutProduct_holds listed (installed_found app)
        (installed_encodes app listed holds)
      exact restored.trans holds.symm
    · rw [next, install_stopped app completed]
  | uninstall => rw [next, withoutProduct_of_not_found (withoutProduct_not_found registry)]
  | edit edited content => exact (own trivial).elim

theorem history_withoutProduct {registry : Registry} (dwords : Dwords registry)
    {events : List Event} (own : ∀ event ∈ events, ¬ event.IsEdit) {policy : Policy}
    (listed : policy ∈ policies) :
    withoutProduct (history registry events) policy.call.place =
      withoutProduct registry policy.call.place := by
  induction events generalizing registry with
  | nil => rfl
  | cons event events ih =>
    have rest := ih (next_dwords dwords event) fun other member =>
      own other (List.mem_cons_of_mem _ member)
    exact rest.trans (next_withoutProduct dwords (own event List.mem_cons_self) listed)

/-- Installing and uninstalling end with the product removed from the machine as it was. -/
theorem history_uninstalled {registry : Registry} (dwords : Dwords registry) {events : List Event}
    (own : ∀ event ∈ events, ¬ event.IsEdit) {policy : Policy} (listed : policy ∈ policies) :
    history registry (events ++ [.uninstall]) policy.call.place =
      withoutProduct registry policy.call.place := by
  have ran : history registry (events ++ [.uninstall]) = withoutProduct (history registry events) :=
    List.foldl_concat ..
  rw [ran]
  exact history_withoutProduct dwords own listed

/-- A machine from the last installation to the removal of the product: the policies become
what they were when that installation took its backup; where nobody else edits them, that is
what removing the product at the start would have left. The two procedures change nothing
else. -/
theorem uninstall_restores {machine : Registry} (dwords : Dwords machine) (earlier : List Event)
    (app : PascalString) (launch : Launch) (later : List Event)
    (completed : (prepareToInstall (runUninstaller launch) allSucceed
      (history machine earlier)).1 = [])
    (last : ∀ event ∈ later, event.KeepsBackup) :
    let saved :=
      (uninstallPreviousVersionIfExists (runUninstaller launch) (history machine earlier)).registry
    let events := earlier ++ .install app launch :: (later ++ [.uninstall])
    (∀ policy ∈ policies,
      history machine events policy.call.place = saved policy.call.place) ∧
    ((∀ event ∈ earlier ++ later, ¬ event.IsEdit) → ∀ policy ∈ policies,
      history machine events policy.call.place = withoutProduct machine policy.call.place ∧
      (tryGetExistingUninstallCommand machine = none →
        history machine events policy.call.place = machine policy.call.place)) ∧
    ∀ succeeds registry place, (∀ policy ∈ policies, place ∉ policy.call.region) →
      backupPolicyRegistryValues succeeds registry place = registry place ∧
      restorePolicyRegistryValues succeeds registry place = registry place := by
  intro saved events
  have ran : history machine events =
      withoutProduct (history (next (history machine earlier) (.install app launch)) later) := by
    simp only [events, history, List.foldl_append, List.foldl_cons, List.foldl_nil]
    rfl
  refine ⟨fun policy listed => ?_, fun own policy listed => ?_, fun succeeds registry place outside =>
    ⟨backup_frame succeeds registry outside, restore_frame succeeds registry outside⟩⟩
  · obtain ⟨after, installs, _⟩ := install_completed app completed
    obtain ⟨content, holds⟩ :=
      withoutProduct_dwords (history_dwords dwords earlier) policy listed
    obtain ⟨found, encodes⟩ := history_keeps last (installed_found app)
      (installed_encodes app listed holds)
    rw [ran, next, installs]
    have removed : saved = withoutProduct (history machine earlier) := after
    rw [removed]
    exact (withoutProduct_holds listed found encodes).trans holds.symm
  · have allOwn : ∀ event ∈ earlier ++ .install app launch :: later, ¬ event.IsEdit := by
      intro event member
      rcases List.mem_append.mp member with before | after
      · exact own event (List.mem_append_left _ before)
      · rcases List.mem_cons.mp after with rfl | after
        · exact id
        · exact own event (List.mem_append_right _ after)
    have initially : history machine events policy.call.place =
        withoutProduct machine policy.call.place := by
      have removed := history_uninstalled dwords allOwn listed
      rwa [List.append_assoc, List.cons_append] at removed
    refine ⟨initially, fun absent => ?_⟩
    rw [initially, withoutProduct_of_not_found absent]

theorem uninstall_restores_clean :
    history (fun _ => none) [.install [] .failed, .install [] (.exited 0), .uninstall]
      firstLogonAnimation.call.place = none := by
  have dwords : Dwords fun _ => none := fun _ _ => ⟨none, rfl⟩
  have restored := uninstall_restores dwords [.install [] .failed] [] (.exited 0) []
    (prepareToInstall_exited _) fun _ member => absurd member List.not_mem_nil
  have own : ∀ event ∈ [Event.install [] .failed] ++ [], ¬ event.IsEdit := by
    intro event member
    rw [List.append_nil, List.mem_singleton] at member
    rw [member]
    exact id
  exact (restored.2.1 own firstLogonAnimation firstLogonAnimation_mem).2 rfl

/-- The product is there from the start: the upgrade and the removal leave a policy absent
that was set. -/
theorem uninstall_restores_not_installed :
    ¬ ∀ (machine : Registry) (earlier : List Event) (app : PascalString) (launch : Launch)
      (later : List Event), Dwords machine →
      (prepareToInstall (runUninstaller launch) allSucceed (history machine earlier)).1 = [] →
      (∀ event ∈ later, event.KeepsBackup) → (∀ event ∈ earlier ++ later, ¬ event.IsEdit) →
      ∀ policy ∈ policies,
        history machine (earlier ++ .install app launch :: (later ++ [.uninstall])) policy.call.place =
          machine policy.call.place := by
  intro restores
  have listed := firstLogonAnimation_mem
  have set (policy : Policy) (listed : policy ∈ policies) :
      Holds (installed [] fun _ => none) policy.call (some policy.data) := installed_holds [] listed _
  have dwords : Dwords (installed [] fun _ => none) := fun policy listed => ⟨_, set policy listed⟩
  have removed := history_uninstalled dwords
    (fun event member => List.mem_singleton.mp member ▸ id :
      ∀ event ∈ [Event.install [] (.exited 0)], ¬ event.IsEdit) listed
  have absent : Holds (withoutProduct (installed [] fun _ => none)) firstLogonAnimation.call none :=
    withoutProduct_holds listed (installed_found []) (installed_encodes [] listed rfl)
  have same := restores _ [] [] (.exited 0) [] dwords (prepareToInstall_exited _)
    (fun _ member => absurd member List.not_mem_nil) (fun _ member => absurd member List.not_mem_nil)
    firstLogonAnimation listed
  have both : Holds (installed [] fun _ => none) firstLogonAnimation.call none :=
    (same.symm.trans removed).trans absent
  cases (set firstLogonAnimation listed).symm.trans both

end Dot1xCP.Setup
