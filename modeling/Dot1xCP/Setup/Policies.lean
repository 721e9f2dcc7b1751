import Dot1xCP.Setup.Registry

/-! The twelve policies of the installer: written by `[Registry]`, saved before and restored
by the uninstaller.

Three lists of the script name them, and each saves into two values of one key. The names
keep the policies apart, so that each can be followed on its own.
-/

set_option autoImplicit false

namespace Dot1xCP.Setup
open Footprint

def policyBackupKey : PascalString := text "SOFTWARE\\Dot1xCP\\Backup\\PolicyValues"

structure RegistryEntry where
  rootKey : RootKey
  subKey : PascalString
  valueName : PascalString
  valueData : Value
  deriving DecidableEq, Repr

structure PolicyCall where
  subKey : PascalString
  valueName : PascalString
  tag : PascalString
  deriving DecidableEq, Repr

def backupPolicyDword (succeeds : Outcome) (call : PolicyCall) (registry : Registry) : Registry :=
  match regQueryDWordValue .hklm call.subKey call.valueName registry with
  | some existingValue =>
    let registry := regWriteDWordValue .hklm64 policyBackupKey (call.tag ++ text "_Present")
      succeeds 1 registry
    regWriteDWordValue .hklm64 policyBackupKey (call.tag ++ text "_Value")
      succeeds existingValue registry
  | none =>
    let registry := regWriteDWordValue .hklm64 policyBackupKey (call.tag ++ text "_Present")
      succeeds 0 registry
    regDeleteValue .hklm64 policyBackupKey (call.tag ++ text "_Value") succeeds registry

def restorePolicyDword (succeeds : Outcome) (call : PolicyCall) (registry : Registry) : Registry :=
  match regQueryDWordValue .hklm64 policyBackupKey (call.tag ++ text "_Present") registry with
  | none => registry
  | some presentFlag =>
    let registry :=
      if presentFlag = 1 then
        match regQueryDWordValue .hklm64 policyBackupKey (call.tag ++ text "_Value") registry with
        | some backupValue =>
          regWriteDWordValue .hklm call.subKey call.valueName succeeds backupValue registry
        | none => registry
      else regDeleteValue .hklm call.subKey call.valueName succeeds registry
    let registry :=
      regDeleteValue .hklm64 policyBackupKey (call.tag ++ text "_Present") succeeds registry
    regDeleteValue .hklm64 policyBackupKey (call.tag ++ text "_Value") succeeds registry

def writeEntry (succeeds : Outcome) (entry : RegistryEntry) (registry : Registry) : Registry :=
  put succeeds (location entry.rootKey entry.subKey entry.valueName) (some entry.valueData) registry

def policyEntries : List RegistryEntry :=
  [⟨.hklm, text "SOFTWARE\\Microsoft\\Windows\\CurrentVersion\\Policies\\System",
      text "EnableFirstLogonAnimation", .dword 0⟩,
    ⟨.hklm, text "SOFTWARE\\Microsoft\\Windows\\CurrentVersion\\Policies\\System",
      text "HideFastUserSwitching", .dword 0⟩,
    ⟨.hklm, text "SOFTWARE\\Microsoft\\Windows\\CurrentVersion\\Policies\\System",
      text "dontdisplaylastusername", .dword 1⟩,
    ⟨.hklm, text "SOFTWARE\\Microsoft\\Windows\\CurrentVersion\\Policies\\System",
      text "EnumerateLocalUsers", .dword 0⟩,
    ⟨.hklm, text "SOFTWARE\\Microsoft\\Windows\\CurrentVersion\\Policies\\System",
      text "DisableAutomaticRestartSignOn", .dword 1⟩,
    ⟨.hklm, text "SYSTEM\\CurrentControlSet\\Control\\Session Manager\\Power",
      text "HiberbootEnabled", .dword 0⟩,
    ⟨.hklm, text "SOFTWARE\\Policies\\Microsoft\\Windows\\CloudContent",
      text "DisableConsumerFeatures", .dword 1⟩,
    ⟨.hklm, text "SOFTWARE\\Policies\\Microsoft\\Windows\\CloudContent",
      text "DisableThirdPartySuggestions", .dword 1⟩,
    ⟨.hklm, text "SOFTWARE\\Policies\\Microsoft\\Windows\\CloudContent",
      text "DisableWindowsSpotlightFeatures", .dword 1⟩,
    ⟨.hklm, text "SOFTWARE\\Policies\\Microsoft\\Edge",
      text "HideFirstRunExperience", .dword 1⟩,
    ⟨.hklm, text "SOFTWARE\\Policies\\Microsoft\\Edge",
      text "TutorialShown", .dword 1⟩,
    ⟨.hklm, text "SOFTWARE\\Policies\\Microsoft\\Windows\\OOBE",
      text "DisablePrivacyExperience", .dword 1⟩]

def backupCalls : List PolicyCall :=
  [⟨text "SOFTWARE\\Microsoft\\Windows\\CurrentVersion\\Policies\\System",
      text "EnableFirstLogonAnimation", text "EnableFirstLogonAnimation"⟩,
    ⟨text "SOFTWARE\\Microsoft\\Windows\\CurrentVersion\\Policies\\System",
      text "HideFastUserSwitching", text "HideFastUserSwitching"⟩,
    ⟨text "SOFTWARE\\Microsoft\\Windows\\CurrentVersion\\Policies\\System",
      text "dontdisplaylastusername", text "dontdisplaylastusername"⟩,
    ⟨text "SOFTWARE\\Microsoft\\Windows\\CurrentVersion\\Policies\\System",
      text "EnumerateLocalUsers", text "EnumerateLocalUsers"⟩,
    ⟨text "SOFTWARE\\Microsoft\\Windows\\CurrentVersion\\Policies\\System",
      text "DisableAutomaticRestartSignOn", text "DisableAutomaticRestartSignOn"⟩,
    ⟨text "SYSTEM\\CurrentControlSet\\Control\\Session Manager\\Power",
      text "HiberbootEnabled", text "HiberbootEnabled"⟩,
    ⟨text "SOFTWARE\\Policies\\Microsoft\\Windows\\CloudContent",
      text "DisableConsumerFeatures", text "DisableConsumerFeatures"⟩,
    ⟨text "SOFTWARE\\Policies\\Microsoft\\Windows\\CloudContent",
      text "DisableThirdPartySuggestions", text "DisableThirdPartySuggestions"⟩,
    ⟨text "SOFTWARE\\Policies\\Microsoft\\Windows\\CloudContent",
      text "DisableWindowsSpotlightFeatures", text "DisableWindowsSpotlightFeatures"⟩,
    ⟨text "SOFTWARE\\Policies\\Microsoft\\Edge",
      text "HideFirstRunExperience", text "HideFirstRunExperience"⟩,
    ⟨text "SOFTWARE\\Policies\\Microsoft\\Edge",
      text "TutorialShown", text "TutorialShown"⟩,
    ⟨text "SOFTWARE\\Policies\\Microsoft\\Windows\\OOBE",
      text "DisablePrivacyExperience", text "DisablePrivacyExperience"⟩]

def restoreCalls : List PolicyCall :=
  [⟨text "SOFTWARE\\Microsoft\\Windows\\CurrentVersion\\Policies\\System",
      text "EnableFirstLogonAnimation", text "EnableFirstLogonAnimation"⟩,
    ⟨text "SOFTWARE\\Microsoft\\Windows\\CurrentVersion\\Policies\\System",
      text "HideFastUserSwitching", text "HideFastUserSwitching"⟩,
    ⟨text "SOFTWARE\\Microsoft\\Windows\\CurrentVersion\\Policies\\System",
      text "dontdisplaylastusername", text "dontdisplaylastusername"⟩,
    ⟨text "SOFTWARE\\Microsoft\\Windows\\CurrentVersion\\Policies\\System",
      text "EnumerateLocalUsers", text "EnumerateLocalUsers"⟩,
    ⟨text "SOFTWARE\\Microsoft\\Windows\\CurrentVersion\\Policies\\System",
      text "DisableAutomaticRestartSignOn", text "DisableAutomaticRestartSignOn"⟩,
    ⟨text "SYSTEM\\CurrentControlSet\\Control\\Session Manager\\Power",
      text "HiberbootEnabled", text "HiberbootEnabled"⟩,
    ⟨text "SOFTWARE\\Policies\\Microsoft\\Windows\\CloudContent",
      text "DisableConsumerFeatures", text "DisableConsumerFeatures"⟩,
    ⟨text "SOFTWARE\\Policies\\Microsoft\\Windows\\CloudContent",
      text "DisableThirdPartySuggestions", text "DisableThirdPartySuggestions"⟩,
    ⟨text "SOFTWARE\\Policies\\Microsoft\\Windows\\CloudContent",
      text "DisableWindowsSpotlightFeatures", text "DisableWindowsSpotlightFeatures"⟩,
    ⟨text "SOFTWARE\\Policies\\Microsoft\\Edge",
      text "HideFirstRunExperience", text "HideFirstRunExperience"⟩,
    ⟨text "SOFTWARE\\Policies\\Microsoft\\Edge",
      text "TutorialShown", text "TutorialShown"⟩,
    ⟨text "SOFTWARE\\Policies\\Microsoft\\Windows\\OOBE",
      text "DisablePrivacyExperience", text "DisablePrivacyExperience"⟩]

def writePolicyEntries (succeeds : Outcome) (registry : Registry) : Registry :=
  policyEntries.foldl (fun registry entry => writeEntry succeeds entry registry) registry

def backupPolicyRegistryValues (succeeds : Outcome) (registry : Registry) : Registry :=
  backupCalls.foldl (fun registry call => backupPolicyDword succeeds call registry) registry

def restorePolicyRegistryValues (succeeds : Outcome) (registry : Registry) : Registry :=
  restoreCalls.foldl (fun registry call => restorePolicyDword succeeds call registry) registry

/-- A policy together with the value that the installer gives it. -/
structure Policy where
  call : PolicyCall
  data : UInt32
  deriving DecidableEq, Repr

def policies : List Policy :=
  backupCalls.zipWith Policy.mk [0, 0, 1, 0, 1, 0, 1, 1, 1, 1, 1, 1]

def firstLogonAnimation : Policy :=
  ⟨⟨text "SOFTWARE\\Microsoft\\Windows\\CurrentVersion\\Policies\\System",
    text "EnableFirstLogonAnimation", text "EnableFirstLogonAnimation"⟩, 0⟩

theorem firstLogonAnimation_mem : firstLogonAnimation ∈ policies := List.mem_cons_self

def Policy.entry (policy : Policy) : RegistryEntry :=
  ⟨.hklm, policy.call.subKey, policy.call.valueName, .dword policy.data⟩

/-- The lists name the same policies in the same order. -/
theorem policyEntries_eq : policyEntries = policies.map Policy.entry := by
  simp only [policyEntries, policies, backupCalls, List.zipWith, List.map, Policy.entry]

theorem backupCalls_eq : backupCalls = policies.map Policy.call := by
  simp only [policies, backupCalls, List.zipWith, List.map]

theorem restoreCalls_eq : restoreCalls = policies.map Policy.call := by
  simp only [restoreCalls, policies, backupCalls, List.zipWith, List.map]

/-! ## Where the policies are kept -/

namespace PolicyCall

def place (call : PolicyCall) : Location := location .hklm call.subKey call.valueName

def present (call : PolicyCall) : Location :=
  location .hklm64 policyBackupKey (call.tag ++ text "_Present")

def saved (call : PolicyCall) : Location :=
  location .hklm64 policyBackupKey (call.tag ++ text "_Value")

def region (call : PolicyCall) : Set Location := {call.place, call.present, call.saved}

end PolicyCall

theorem present_ne_saved (call other : PolicyCall) : call.present ≠ other.saved := by
  intro same
  have names : lowerCase (call.tag ++ text "_Present") = lowerCase (other.tag ++ text "_Value") :=
    congrArg Location.valueName same
  have lastUnits := congrArg List.getLast? names
  have flag : (lowerCase (text "_Present")).getLast? = some 0x74 := by decide +kernel
  have value : (lowerCase (text "_Value")).getLast? = some 0x65 := by decide +kernel
  rw [lowerCase_append, lowerCase_append, List.getLast?_append, List.getLast?_append, flag,
    value, Option.some_or, Option.some_or] at lastUnits
  exact absurd lastUnits (by decide)

theorem tag_injective {suffix tag tag' : PascalString}
    (same : lowerCase (tag ++ suffix) = lowerCase (tag' ++ suffix)) :
    lowerCase tag = lowerCase tag' := by
  rw [lowerCase_append, lowerCase_append] at same
  exact List.append_cancel_right same

theorem present_injective {call other : PolicyCall} (same : call.present = other.present) :
    lowerCase call.tag = lowerCase other.tag :=
  @tag_injective (text "_Present") _ _ (congrArg Location.valueName same)

theorem saved_injective {call other : PolicyCall} (same : call.saved = other.saved) :
    lowerCase call.tag = lowerCase other.tag :=
  @tag_injective (text "_Value") _ _ (congrArg Location.valueName same)

/-- No policy is one of the backup entries. -/
theorem subKey_ne_backup : ∀ policy ∈ policies,
    lowerCase policy.call.subKey ≠ lowerCase policyBackupKey := by
  unfold policies backupCalls policyBackupKey
  repeat rw [text_ofList]
  decide +kernel

theorem place_distinct : policies.Pairwise fun policy other => policy.call.place ≠ other.call.place := by
  unfold policies backupCalls PolicyCall.place
  repeat rw [text_ofList]
  decide +kernel

theorem tag_distinct :
    policies.Pairwise fun policy other => lowerCase policy.call.tag ≠ lowerCase other.call.tag := by
  unfold policies backupCalls
  repeat rw [text_ofList]
  decide +kernel

section Places
variable {policy other : Policy}

theorem place_ne_present (listed : policy ∈ policies) (call : PolicyCall) :
    policy.call.place ≠ call.present := fun same =>
  subKey_ne_backup policy listed (congrArg Location.subKey same)

theorem place_ne_saved (listed : policy ∈ policies) (call : PolicyCall) :
    policy.call.place ≠ call.saved := fun same =>
  subKey_ne_backup policy listed (congrArg Location.subKey same)

theorem place_mem (call : PolicyCall) : call.place ∈ call.region := .inl rfl

theorem present_mem (call : PolicyCall) : call.present ∈ call.region := .inr (.inl rfl)

theorem saved_mem (call : PolicyCall) : call.saved ∈ call.region := .inr (.inr rfl)

theorem region_apart_of_names (listed : policy ∈ policies) (otherListed : other ∈ policies)
    (places : policy.call.place ≠ other.call.place)
    (tags : lowerCase policy.call.tag ≠ lowerCase other.call.tag) :
    Apart policy.call.region other.call.region := by
  rintro _ (rfl | rfl | rfl) (same | same | same)
  · exact places same
  · exact place_ne_present listed _ same
  · exact place_ne_saved listed _ same
  · exact place_ne_present otherListed _ same.symm
  · exact tags (present_injective same)
  · exact present_ne_saved _ _ same
  · exact place_ne_saved otherListed _ same.symm
  · exact present_ne_saved _ _ same.symm
  · exact tags (saved_injective same)

end Places

theorem regions_apart :
    policies.Pairwise fun policy other => Apart policy.call.region other.call.region :=
  (place_distinct.and tag_distinct).imp_of_mem fun listed otherListed differ =>
    region_apart_of_names listed otherListed differ.1 differ.2

section Procedures
variable (succeeds : Outcome)

theorem backupPolicyDword_within (call : PolicyCall) :
    Within call.region (backupPolicyDword succeeds call) := by
  have flagged (flag : UInt32) : Within call.region
      (regWriteDWordValue .hklm64 policyBackupKey (call.tag ++ text "_Present") succeeds flag) :=
    (put_within succeeds call.present _).mono (Set.singleton_subset_iff.mpr (present_mem call))
  have kept (content : Option Value) : Within call.region (put succeeds call.saved content) :=
    (put_within succeeds call.saved content).mono (Set.singleton_subset_iff.mpr (saved_mem call))
  refine Within.choose (regQueryDWordValue .hklm call.subKey call.valueName)
    (fun same => regQueryDWordValue_congr (same (place_mem call))) fun existing => ?_
  cases existing with
  | some existingValue =>
    refine ⟨_, (kept (some (.dword existingValue))).comp (flagged 1), fun registry found => ?_⟩
    rw [backupPolicyDword, found]
    rfl
  | none =>
    refine ⟨_, (kept none).comp (flagged 0), fun registry found => ?_⟩
    rw [backupPolicyDword, found]
    rfl

theorem restorePolicyDword_within (call : PolicyCall) :
    Within call.region (restorePolicyDword succeeds call) := by
  have set (content : Option Value) : Within call.region (put succeeds call.place content) :=
    (put_within succeeds call.place content).mono (Set.singleton_subset_iff.mpr (place_mem call))
  have restored (presentFlag : UInt32) : Within call.region fun registry =>
      if presentFlag = 1 then
        match regQueryDWordValue .hklm64 policyBackupKey (call.tag ++ text "_Value") registry with
        | some backupValue =>
          regWriteDWordValue .hklm call.subKey call.valueName succeeds backupValue registry
        | none => registry
      else regDeleteValue .hklm call.subKey call.valueName succeeds registry := by
    by_cases stored : presentFlag = 1
    · refine Within.choose (regQueryDWordValue .hklm64 policyBackupKey (call.tag ++ text "_Value"))
        (fun same => regQueryDWordValue_congr (same (saved_mem call))) fun value => ?_
      cases value with
      | none => exact ⟨_, Within.id _, fun registry missing => by simp only [if_pos stored, missing]⟩
      | some backupValue =>
        exact ⟨_, set (some (.dword backupValue)), fun registry found => by
          simp only [if_pos stored, found]
          rfl⟩
    · simp only [if_neg stored]
      exact set none
  have erased : Within call.region fun registry =>
      regDeleteValue .hklm64 policyBackupKey (call.tag ++ text "_Value") succeeds
        (regDeleteValue .hklm64 policyBackupKey (call.tag ++ text "_Present") succeeds registry) :=
    ((put_within succeeds call.saved none).mono (Set.singleton_subset_iff.mpr (saved_mem call))).comp
      ((put_within succeeds call.present none).mono (Set.singleton_subset_iff.mpr (present_mem call)))
  refine Within.choose (regQueryDWordValue .hklm64 policyBackupKey (call.tag ++ text "_Present"))
    (fun same => regQueryDWordValue_congr (same (present_mem call))) fun flag => ?_
  cases flag with
  | none =>
    refine ⟨_, Within.id _, fun registry found => ?_⟩
    rw [restorePolicyDword, found]
  | some presentFlag =>
    refine ⟨_, erased.comp (restored presentFlag), fun registry found => ?_⟩
    rw [restorePolicyDword, found]

theorem writeEntry_within (policy : Policy) :
    Within {policy.call.place} (writeEntry succeeds policy.entry) :=
  put_within succeeds policy.call.place _

variable (registry : Registry) {policy : Policy}

theorem backupPolicyRegistryValues_eq : backupPolicyRegistryValues succeeds registry =
    sweep (fun policy => backupPolicyDword succeeds policy.call) policies registry := by
  rw [backupPolicyRegistryValues, backupCalls_eq, List.foldl_map]
  rfl

theorem restorePolicyRegistryValues_eq : restorePolicyRegistryValues succeeds registry =
    sweep (fun policy => restorePolicyDword succeeds policy.call) policies registry := by
  rw [restorePolicyRegistryValues, restoreCalls_eq, List.foldl_map]
  rfl

theorem writePolicyEntries_eq : writePolicyEntries succeeds registry =
    sweep (fun policy => writeEntry succeeds policy.entry) policies registry := by
  rw [writePolicyEntries, policyEntries_eq, List.foldl_map]
  rfl

theorem backup_at (listed : policy ∈ policies) :
    Set.EqOn (backupPolicyRegistryValues succeeds registry)
      (backupPolicyDword succeeds policy.call registry) policy.call.region := by
  have within (policy : Policy) := backupPolicyDword_within succeeds policy.call
  rw [backupPolicyRegistryValues_eq]
  exact sweep_at within regions_apart registry listed

theorem restore_at (listed : policy ∈ policies) :
    Set.EqOn (restorePolicyRegistryValues succeeds registry)
      (restorePolicyDword succeeds policy.call registry) policy.call.region := by
  have within (policy : Policy) := restorePolicyDword_within succeeds policy.call
  rw [restorePolicyRegistryValues_eq]
  exact sweep_at within regions_apart registry listed

theorem write_at (listed : policy ∈ policies) :
    writePolicyEntries succeeds registry policy.call.place =
      writeEntry succeeds policy.entry registry policy.call.place := by
  rw [writePolicyEntries_eq]
  have apart : policies.Pairwise fun policy other =>
      Apart ({policy.call.place} : Set Location) {other.call.place} :=
    place_distinct.imp fun differ _ here there => differ (here.symm.trans there)
  exact sweep_at (writeEntry_within succeeds) apart registry listed rfl

theorem backup_frame {place : Location}
    (outside : ∀ policy ∈ policies, place ∉ policy.call.region) :
    backupPolicyRegistryValues succeeds registry place = registry place := by
  have within (policy : Policy) := backupPolicyDword_within succeeds policy.call
  rw [backupPolicyRegistryValues_eq]
  exact sweep_frame within _ _ outside

theorem restore_frame {place : Location}
    (outside : ∀ policy ∈ policies, place ∉ policy.call.region) :
    restorePolicyRegistryValues succeeds registry place = registry place := by
  have within (policy : Policy) := restorePolicyDword_within succeeds policy.call
  rw [restorePolicyRegistryValues_eq]
  exact sweep_frame within _ _ outside

theorem write_frame {place : Location} (outside : ∀ policy ∈ policies, place ≠ policy.call.place) :
    writePolicyEntries succeeds registry place = registry place := by
  rw [writePolicyEntries_eq]
  exact sweep_frame (writeEntry_within succeeds) _ _ outside

end Procedures

/-! ## What the backup entries say -/

def Holds (registry : Registry) (call : PolicyCall) (content : Option UInt32) : Prop :=
  registry call.place = content.map .dword

/-- The backup entries say what the policy was. -/
def Encodes (registry : Registry) (call : PolicyCall) : Option UInt32 → Prop
  | some value =>
    registry call.present = some (.dword 1) ∧ registry call.saved = some (.dword value)
  | none => registry call.present = some (.dword 0)

theorem Encodes.congr {first second : Registry} {call : PolicyCall} {original : Option UInt32}
    (encodes : Encodes first call original) (flag : second call.present = first call.present)
    (value : second call.saved = first call.saved) : Encodes second call original := by
  cases original with
  | some content => exact ⟨flag.trans encodes.1, value.trans encodes.2⟩
  | none => exact flag.trans encodes

section Entry
variable {registry : Registry} {policy : Policy} {content : Option UInt32}

theorem Holds.query {call : PolicyCall} (holds : Holds registry call content) :
    regQueryDWordValue .hklm call.subKey call.valueName registry = content :=
  regQueryDWordValue_map holds

theorem entries_place (listed : policy ∈ policies) (registry : Registry) (flag value : Option Value) :
    Function.update (Function.update registry policy.call.present flag) policy.call.saved value
      policy.call.place = registry policy.call.place := by
  rw [Function.update_of_ne (place_ne_saved listed _),
    Function.update_of_ne (place_ne_present listed _)]

theorem entries_present (call : PolicyCall) (registry : Registry) (flag value : Option Value) :
    Function.update (Function.update registry call.present flag) call.saved value call.present =
      flag := by
  rw [Function.update_of_ne (present_ne_saved _ _), Function.update_self]

/-- The backup takes down what the policy is, and does not change it. -/
theorem backup_encodes (listed : policy ∈ policies) (holds : Holds registry policy.call content) :
    Encodes (backupPolicyRegistryValues allSucceed registry) policy.call content ∧
      Holds (backupPolicyRegistryValues allSucceed registry) policy.call content := by
  have acts := backup_at allSucceed registry listed
  have taken : Encodes (backupPolicyDword allSucceed policy.call registry) policy.call content ∧
      Holds (backupPolicyDword allSucceed policy.call registry) policy.call content := by
    rw [backupPolicyDword, holds.query]
    cases content with
    | some value =>
      refine ⟨⟨?_, ?_⟩, ?_⟩
      · exact entries_present ..
      · exact Function.update_self ..
      · exact (entries_place listed ..).trans holds
    | none =>
      refine ⟨?_, ?_⟩
      · exact entries_present ..
      · exact (entries_place listed ..).trans holds
  exact ⟨taken.1.congr (acts (present_mem _)) (acts (saved_mem _)),
    (acts (place_mem _)).trans taken.2⟩

/-- The restore puts back what the backup entries say. -/
theorem restore_holds (listed : policy ∈ policies) (encodes : Encodes registry policy.call content) :
    Holds (restorePolicyRegistryValues allSucceed registry) policy.call content := by
  refine (restore_at allSucceed registry listed (place_mem _)).trans ?_
  cases content with
  | some value =>
    have flag : regQueryDWordValue .hklm64 policyBackupKey (policy.call.tag ++ text "_Present")
        registry = some 1 := regQueryDWordValue_map encodes.1
    have stored : regQueryDWordValue .hklm64 policyBackupKey (policy.call.tag ++ text "_Value")
        registry = some value := regQueryDWordValue_map encodes.2
    rw [restorePolicyDword, flag]
    dsimp only
    rw [if_pos rfl, stored]
    exact (entries_place listed ..).trans (Function.update_self ..)
  | none =>
    have flag : regQueryDWordValue .hklm64 policyBackupKey (policy.call.tag ++ text "_Present")
        registry = some 0 := regQueryDWordValue_map encodes
    rw [restorePolicyDword, flag]
    dsimp only
    rw [if_neg (by decide)]
    exact (entries_place listed ..).trans (Function.update_self ..)

/-- Whatever the backup entries say, a policy stays absent or a DWORD. -/
theorem restore_dword (listed : policy ∈ policies) (holds : Holds registry policy.call content) :
    ∃ after, Holds (restorePolicyRegistryValues allSucceed registry) policy.call after := by
  suffices kept : ∃ after, Holds (restorePolicyDword allSucceed policy.call registry)
      policy.call after from
    kept.imp fun _ held => (restore_at allSucceed registry listed (place_mem _)).trans held
  unfold restorePolicyDword
  split
  · exact ⟨content, holds⟩
  next presentFlag _ =>
    dsimp only
    split
    · split
      next backupValue _ =>
        exact ⟨some backupValue, (entries_place listed ..).trans (Function.update_self ..)⟩
      · exact ⟨content, (entries_place listed ..).trans holds⟩
    · exact ⟨none, (entries_place listed ..).trans (Function.update_self ..)⟩

theorem write_holds (listed : policy ∈ policies) (registry : Registry) :
    Holds (writePolicyEntries allSucceed registry) policy.call (some policy.data) :=
  (write_at allSucceed registry listed).trans (Function.update_self ..)

theorem write_encodes {call : PolicyCall} (encodes : Encodes registry call content) :
    Encodes (writePolicyEntries allSucceed registry) call content :=
  encodes.congr
    (write_frame _ _ fun _ listed same => place_ne_present listed call same.symm)
    (write_frame _ _ fun _ listed same => place_ne_saved listed call same.symm)

end Entry

end Dot1xCP.Setup
