import Dot1xCP.Setup.Policies

/-! The policies when calls to the registry fail.

The backup, the lines of `[Registry]` and the restore each write a place once at most, so an
outcome for every place describes which of their calls fail. Two entries tell what a policy
was; whether a failure loses it depends on what they hold when the restore reads them.
-/

set_option autoImplicit false

namespace Dot1xCP.Setup
open Footprint

theorem put_self (succeeds : Outcome) (place : Location) (content : Option Value)
    (registry : Registry) :
    put succeeds place content registry place =
      if succeeds place then content else registry place := by
  unfold put
  split
  · exact Function.update_self ..
  · rfl

theorem put_other {place other : Location} (apart : other ≠ place) (succeeds : Outcome)
    (content : Option Value) (registry : Registry) :
    put succeeds place content registry other = registry other :=
  (put_within succeeds place content).frame registry apart

theorem regQueryDWordValue_eq_some {rootKey : RootKey} {subKey valueName : PascalString}
    {registry : Registry} {value : UInt32} :
    regQueryDWordValue rootKey subKey valueName registry = some value ↔
      registry (location rootKey subKey valueName) = some (.dword value) := by
  constructor
  · intro found
    unfold regQueryDWordValue at found
    split at found
    next held => rw [held, Option.some.inj found]
    next => cases found
  · exact @regQueryDWordValue_map _ _ _ _ (some value)

def presentFlag (original : Option UInt32) : UInt32 := if original.isSome then 1 else 0

theorem backupPolicyDword_eq {registry : Registry} {call : PolicyCall} {original : Option UInt32}
    (holds : Holds registry call original) (succeeds : Outcome) :
    backupPolicyDword succeeds call registry =
      put succeeds call.saved (original.map .dword)
        (put succeeds call.present (some (.dword (presentFlag original))) registry) := by
  rw [backupPolicyDword, holds.query]
  cases original <;> rfl

section Procedures
variable {policy : Policy} {original : Option UInt32} {registry : Registry}

theorem backup_place (listed : policy ∈ policies) (holds : Holds registry policy.call original)
    (succeeds : Outcome) :
    Holds (backupPolicyRegistryValues succeeds registry) policy.call original := by
  rw [Holds, backup_at succeeds registry listed (place_mem _), backupPolicyDword_eq holds,
    put_other (place_ne_saved listed _), put_other (place_ne_present listed _)]
  exact holds

theorem backup_present (listed : policy ∈ policies) (holds : Holds registry policy.call original)
    (succeeds : Outcome) :
    backupPolicyRegistryValues succeeds registry policy.call.present =
      if succeeds policy.call.present then some (.dword (presentFlag original))
      else registry policy.call.present := by
  rw [backup_at succeeds registry listed (present_mem _), backupPolicyDword_eq holds,
    put_other (present_ne_saved _ _), put_self]

theorem backup_saved (listed : policy ∈ policies) (holds : Holds registry policy.call original)
    (succeeds : Outcome) :
    backupPolicyRegistryValues succeeds registry policy.call.saved =
      if succeeds policy.call.saved then original.map .dword
      else registry policy.call.saved := by
  rw [backup_at succeeds registry listed (saved_mem _), backupPolicyDword_eq holds, put_self,
    put_other (present_ne_saved _ _).symm]

theorem write_place (listed : policy ∈ policies) (succeeds : Outcome) (registry : Registry) :
    writePolicyEntries succeeds registry policy.call.place =
      if succeeds policy.call.place then some (.dword policy.data)
      else registry policy.call.place := by
  rw [write_at succeeds registry listed]
  exact put_self succeeds policy.call.place _ registry

theorem write_present (call : PolicyCall) (succeeds : Outcome) (registry : Registry) :
    writePolicyEntries succeeds registry call.present = registry call.present :=
  write_frame _ _ fun _ listed same => place_ne_present listed call same.symm

theorem write_saved (call : PolicyCall) (succeeds : Outcome) (registry : Registry) :
    writePolicyEntries succeeds registry call.saved = registry call.saved :=
  write_frame _ _ fun _ listed same => place_ne_saved listed call same.symm

theorem restorePolicyDword_flagged {call : PolicyCall} {flag : UInt32} {registry : Registry}
    (found : registry call.present = some (.dword flag)) (succeeds : Outcome) :
    ∃ restored : Registry,
      restorePolicyDword succeeds call registry =
        put succeeds call.saved none (put succeeds call.present none restored) ∧
      ((flag = 1 ∧ ∃ value, registry call.saved = some (.dword value) ∧
          restored = put succeeds call.place (some (.dword value)) registry) ∨
        (flag = 1 ∧ (∀ value, registry call.saved ≠ some (.dword value)) ∧ restored = registry) ∨
        (flag ≠ 1 ∧ restored = put succeeds call.place none registry)) := by
  have read : regQueryDWordValue .hklm64 policyBackupKey (call.tag ++ text "_Present") registry =
      some flag := regQueryDWordValue_eq_some.mpr found
  rw [restorePolicyDword, read]
  by_cases present : flag = 1
  · dsimp only
    rw [if_pos present]
    cases kept : regQueryDWordValue .hklm64 policyBackupKey (call.tag ++ text "_Value") registry with
    | some value =>
      exact ⟨_, rfl, .inl ⟨present, value, regQueryDWordValue_eq_some.mp kept, rfl⟩⟩
    | none =>
      refine ⟨_, rfl, .inr (.inl ⟨present, fun value held => ?_, rfl⟩)⟩
      rw [regQueryDWordValue_eq_some.mpr held] at kept
      cases kept
  · dsimp only
    rw [if_neg present]
    exact ⟨_, rfl, .inr (.inr ⟨present, rfl⟩)⟩

/-- A restore that finds a flag deletes both entries and gives the policy what they say. -/
theorem restore_flagged (listed : policy ∈ policies) {flag : UInt32}
    (found : registry policy.call.present = some (.dword flag)) (succeeds : Outcome) :
    let after := restorePolicyRegistryValues succeeds registry
    after policy.call.present =
        (if succeeds policy.call.present then none else registry policy.call.present) ∧
      after policy.call.saved =
        (if succeeds policy.call.saved then none else registry policy.call.saved) ∧
      ((flag = 1 ∧ ∃ value, registry policy.call.saved = some (.dword value) ∧
          after policy.call.place =
            if succeeds policy.call.place then some (.dword value) else registry policy.call.place) ∨
        (flag = 1 ∧ (∀ value, registry policy.call.saved ≠ some (.dword value)) ∧
          after policy.call.place = registry policy.call.place) ∨
        (flag ≠ 1 ∧ after policy.call.place =
          if succeeds policy.call.place then none else registry policy.call.place)) := by
  intro after
  have acts : Set.EqOn after (restorePolicyDword succeeds policy.call registry) policy.call.region :=
    restore_at succeeds registry listed
  obtain ⟨restored, same, cases⟩ := restorePolicyDword_flagged found succeeds
  have untouched {other : Location} (apart : other ≠ policy.call.place) :
      restored other = registry other := by
    rcases cases with ⟨_, _, _, rfl⟩ | ⟨_, _, rfl⟩ | ⟨_, rfl⟩
    · exact put_other apart ..
    · rfl
    · exact put_other apart ..
  have place : after policy.call.place = restored policy.call.place := by
    rw [acts (place_mem _), same, put_other (place_ne_saved listed _),
      put_other (place_ne_present listed _)]
  refine ⟨?_, ?_, ?_⟩
  · rw [acts (present_mem _), same, put_other (present_ne_saved _ _), put_self,
      untouched (place_ne_present listed _).symm]
  · rw [acts (saved_mem _), same, put_self, put_other (present_ne_saved _ _).symm,
      untouched (place_ne_saved listed _).symm]
  · rw [place]
    rcases cases with ⟨present, value, kept, rfl⟩ | ⟨present, lost, rfl⟩ | ⟨absent, rfl⟩
    · exact .inl ⟨present, value, kept, put_self ..⟩
    · exact .inr (.inl ⟨present, lost, rfl⟩)
    · exact .inr (.inr ⟨absent, put_self ..⟩)

theorem restore_unflagged (listed : policy ∈ policies)
    (unflagged : ∀ flag, registry policy.call.present ≠ some (.dword flag)) (succeeds : Outcome) :
    Set.EqOn (restorePolicyRegistryValues succeeds registry) registry policy.call.region := by
  have read : regQueryDWordValue .hklm64 policyBackupKey (policy.call.tag ++ text "_Present")
      registry = none :=
    Option.eq_none_iff_forall_ne_some.mpr fun flag found =>
      unflagged flag (regQueryDWordValue_eq_some.mp found)
  intro place inside
  rw [restore_at succeeds registry listed inside, restorePolicyDword, read]

end Procedures

/-! ## Entries that tell, and entries that mislead -/

/-- From these entries a restore brings the policy back to what it was. -/
def Tells (registry : Registry) (call : PolicyCall) : Option UInt32 → Prop
  | some value =>
    registry call.present = some (.dword 1) ∧ registry call.saved = some (.dword value)
  | none => ∃ flag, flag ≠ 1 ∧ registry call.present = some (.dword flag)

/-- A restore would change the policy because of these entries. -/
def Changes (registry : Registry) (call : PolicyCall) : Prop :=
  ∃ flag, registry call.present = some (.dword flag) ∧
    (flag ≠ 1 ∨ ∃ value, registry call.saved = some (.dword value))

section Restore
variable {policy : Policy} {original : Option UInt32} {registry : Registry}

theorem Tells.restored (listed : policy ∈ policies) (tells : Tells registry policy.call original)
    (succeeds : Outcome) :
    restorePolicyRegistryValues succeeds registry policy.call.place =
      if succeeds policy.call.place then original.map .dword else registry policy.call.place := by
  cases original with
  | some value =>
    rcases (restore_flagged listed tells.1 succeeds).2.2 with
      ⟨_, other, kept, after⟩ | ⟨_, lost, _⟩ | ⟨absent, _⟩
    · cases Option.some.inj (kept.symm.trans tells.2)
      exact after
    · exact absurd tells.2 (lost value)
    · exact absurd rfl absent
  | none =>
    obtain ⟨flag, absent, found⟩ := tells
    rcases (restore_flagged listed found succeeds).2.2 with ⟨present, _⟩ | ⟨present, _⟩ | ⟨_, after⟩
    · exact absurd present absent
    · exact absurd present absent
    · exact after

/-- The entries still tell the original exactly if they were not deleted. -/
theorem Tells.kept_iff (listed : policy ∈ policies) (tells : Tells registry policy.call original)
    (succeeds : Outcome) :
    Tells (restorePolicyRegistryValues succeeds registry) policy.call original ↔
      succeeds policy.call.present = false ∧
        (original = none ∨ succeeds policy.call.saved = false) := by
  cases original with
  | some value =>
    obtain ⟨present, saved, _⟩ := restore_flagged listed tells.1 succeeds
    rw [Tells, present, saved, tells.1, tells.2]
    cases succeeds policy.call.present <;> cases succeeds policy.call.saved <;> simp
  | none =>
    obtain ⟨flag, absent, found⟩ := tells
    obtain ⟨present, _⟩ := restore_flagged listed found succeeds
    rw [Tells, present, found]
    cases succeeds policy.call.present with
    | true => simp
    | false => simpa using absent

theorem Tells.before (listed : policy ∈ policies) {succeeds : Outcome}
    (tells : Tells (restorePolicyRegistryValues succeeds registry) policy.call original) :
    Tells registry policy.call original := by
  by_cases flagged : ∃ flag, registry policy.call.present = some (.dword flag)
  · obtain ⟨flag, found⟩ := flagged
    obtain ⟨present, saved, _⟩ := restore_flagged listed found succeeds
    have older {deleted : Bool} {held : Option Value} {content : Value}
        (left : (if deleted then none else held) = some content) : held = some content := by
      cases deleted with
      | true => cases left
      | false => exact left
    cases original with
    | some value =>
      exact ⟨older (present.symm.trans tells.1), older (saved.symm.trans tells.2)⟩
    | none =>
      obtain ⟨other, absent, left⟩ := tells
      exact ⟨other, absent, older (present.symm.trans left)⟩
  · have same := restore_unflagged listed (not_exists.mp flagged) succeeds
    have present := same (present_mem _)
    have saved := same (saved_mem _)
    cases original with
    | some value => exact ⟨present.symm.trans tells.1, saved.symm.trans tells.2⟩
    | none =>
      obtain ⟨flag, absent, found⟩ := tells
      exact ⟨flag, absent, present.symm.trans found⟩

/-- Entries that do not tell the original never bring it back: the policy has it only if it
had it before and was left alone. -/
theorem restored_of_not_tells (listed : policy ∈ policies)
    (silent : ¬ Tells registry policy.call original) (succeeds : Outcome) :
    Holds (restorePolicyRegistryValues succeeds registry) policy.call original ↔
      Holds registry policy.call original ∧
        ¬ (succeeds policy.call.place = true ∧ Changes registry policy.call) := by
  unfold Holds
  by_cases flagged : ∃ flag, registry policy.call.present = some (.dword flag)
  · obtain ⟨flag, found⟩ := flagged
    rcases (restore_flagged listed found succeeds).2.2 with
      ⟨rfl, value, kept, after⟩ | ⟨rfl, lost, after⟩ | ⟨absent, after⟩
    · have changes : Changes registry policy.call := ⟨1, found, .inr ⟨value, kept⟩⟩
      have other : some (Value.dword value) ≠ original.map .dword := by
        intro same
        cases original with
        | none => cases same
        | some content =>
          cases same
          exact silent ⟨found, kept⟩
      rw [after]
      cases succeeds policy.call.place <;> simp [changes, other]
    · have unchanged : ¬ Changes registry policy.call := by
        rintro ⟨other, again, differs | ⟨value, kept⟩⟩
        · exact differs (Value.dword.inj (Option.some.inj (again.symm.trans found)))
        · exact lost value kept
      rw [after]
      simp [unchanged]
    · have changes : Changes registry policy.call := ⟨flag, found, .inl absent⟩
      have other : none ≠ original.map Value.dword := by
        intro same
        cases original with
        | none => exact silent ⟨flag, absent, found⟩
        | some content => cases same
      rw [after]
      cases succeeds policy.call.place <;> simp [changes, other]
  · have unchanged : ¬ Changes registry policy.call := fun ⟨flag, found, _⟩ => flagged ⟨flag, found⟩
    rw [restore_unflagged listed (not_exists.mp flagged) succeeds (place_mem _)]
    simp [unchanged]

end Restore

/-! ## Which failures lose a policy -/

/-- Each entry was written, or held already what it takes. -/
def Recorded (backup : Outcome) (registry : Registry) (call : PolicyCall) : Option UInt32 → Prop
  | some value =>
    (backup call.present = true ∨ registry call.present = some (.dword 1)) ∧
      (backup call.saved = true ∨ registry call.saved = some (.dword value))
  | none =>
    backup call.present = true ∨ ∃ flag, flag ≠ 1 ∧ registry call.present = some (.dword flag)

/-- An entry that could not be written is left from an earlier backup, and the restore
goes by it. -/
def Stale (backup : Outcome) (registry : Registry) (call : PolicyCall) : Option UInt32 → Prop
  | some _ =>
    (backup call.present = false ∧ ∃ flag, flag ≠ 1 ∧ registry call.present = some (.dword flag)) ∨
      (backup call.present = true ∨ registry call.present = some (.dword 1)) ∧
        backup call.saved = false ∧ ∃ value, registry call.saved = some (.dword value)
  | none =>
    backup call.present = false ∧ registry call.present = some (.dword 1) ∧
      backup call.saved = false ∧ ∃ value, registry call.saved = some (.dword value)

section Backup
variable {policy : Policy} {original : Option UInt32} {registry : Registry}

theorem tells_backup_iff (listed : policy ∈ policies) (holds : Holds registry policy.call original)
    (backup : Outcome) :
    Tells (backupPolicyRegistryValues backup registry) policy.call original ↔
      Recorded backup registry policy.call original := by
  have present := backup_present listed holds backup
  have saved := backup_saved listed holds backup
  cases original with
  | some value =>
    rw [Tells, Recorded, present, saved]
    cases backup policy.call.present <;> cases backup policy.call.saved <;> simp [presentFlag]
  | none =>
    rw [Tells, Recorded, present]
    cases backup policy.call.present <;> simp [presentFlag]

/-- Where the entries do not tell the original, the restore only changes the policy by
entries that were left. -/
theorem changes_backup_iff (listed : policy ∈ policies)
    (holds : Holds registry policy.call original) {backup : Outcome}
    (lost : ¬ Recorded backup registry policy.call original) :
    Changes (backupPolicyRegistryValues backup registry) policy.call ↔
      Stale backup registry policy.call original := by
  rw [Changes, backup_present listed holds backup, backup_saved listed holds backup]
  cases original with
  | some value =>
    rw [Recorded, not_and_or] at lost
    rw [Stale]
    cases written : backup policy.call.present with
    | true =>
      have unsaved := not_or.mp (lost.resolve_left fun missing => missing (.inl written))
      simp [unsaved, presentFlag]
    | false =>
      simp only [Bool.false_eq_true, if_false, true_and, false_or]
      constructor
      · rintro ⟨flag, found, differs | kept⟩
        · exact .inl ⟨flag, differs, found⟩
        · by_cases present : flag = 1
          · subst present
            have unsaved := not_or.mp (lost.resolve_left fun missing => missing (.inr found))
            rw [if_neg unsaved.1] at kept
            exact .inr ⟨found, Bool.eq_false_iff.mpr unsaved.1, kept⟩
          · exact .inl ⟨flag, present, found⟩
      · rintro (⟨flag, differs, found⟩ | ⟨found, unsaved, kept⟩)
        · exact ⟨flag, found, .inl differs⟩
        · rw [unsaved]
          exact ⟨1, found, .inr kept⟩
  | none =>
    rw [Recorded, not_or, Bool.not_eq_true, not_exists] at lost
    obtain ⟨unwritten, unflagged⟩ := lost
    rw [Stale, unwritten]
    simp only [Bool.false_eq_true, if_false, true_and]
    constructor
    · rintro ⟨flag, found, cases⟩
      have present : flag = 1 := by_contra fun differs => unflagged flag ⟨differs, found⟩
      subst present
      obtain ⟨value, kept⟩ := cases.resolve_left fun differs => differs rfl
      cases saved : backup policy.call.saved with
      | true =>
        rw [saved] at kept
        cases kept
      | false =>
        rw [saved] at kept
        exact ⟨found, rfl, value, kept⟩
    · rintro ⟨found, unsaved, value, kept⟩
      rw [unsaved]
      exact ⟨1, found, .inr ⟨value, kept⟩⟩

end Backup

def afterUninstall (backup write restore : Outcome) (registry : Registry) : Registry :=
  restorePolicyRegistryValues restore
    (writePolicyEntries write (backupPolicyRegistryValues backup registry))

def originalOf (registry : Registry) (call : PolicyCall) : Option UInt32 :=
  regQueryDWordValue .hklm call.subKey call.valueName registry

/-- The policy is what it was, or its entries still tell that. -/
def PolicyKept (before after : Registry) (call : PolicyCall) : Prop :=
  after call.place = before call.place ∨ Tells after call (originalOf before call)

def Unwritten (write : Outcome) (registry : Registry) (policy : Policy) : Prop :=
  write policy.call.place = false ∨ originalOf registry policy.call = some policy.data

/-- The failures that do not lose the policy. -/
structure Harmless (backup write restore : Outcome) (registry : Registry) (policy : Policy) : Prop where
  /-- The entries tell the original: it comes back, was never changed, or they stay. -/
  recorded : Recorded backup registry policy.call (originalOf registry policy.call) →
    restore policy.call.place = true ∨ Unwritten write registry policy ∨
      restore policy.call.present = false ∧
        (originalOf registry policy.call = none ∨ restore policy.call.saved = false)
  /-- They do not: nothing has changed the policy, and the restore does not. -/
  lost : ¬ Recorded backup registry policy.call (originalOf registry policy.call) →
    Unwritten write registry policy ∧
      ¬ (restore policy.call.place = true ∧
        Stale backup registry policy.call (originalOf registry policy.call))

section Run
variable {policy : Policy} {registry : Registry}

theorem written_holds_iff (listed : policy ∈ policies) {original : Option UInt32}
    (holds : Holds registry policy.call original) (backup write : Outcome) :
    Holds (writePolicyEntries write (backupPolicyRegistryValues backup registry)) policy.call original ↔
      Unwritten write registry policy := by
  have same : originalOf registry policy.call = original := holds.query
  have before : backupPolicyRegistryValues backup registry policy.call.place = original.map .dword :=
    backup_place listed holds backup
  rw [Holds, write_place listed, before, Unwritten, same]
  cases write policy.call.place with
  | true =>
    cases original with
    | none => simp
    | some value => simp [eq_comm]
  | false => simp

theorem tells_write_iff (call : PolicyCall) (original : Option UInt32) (write : Outcome)
    (registry : Registry) :
    Tells (writePolicyEntries write registry) call original ↔ Tells registry call original := by
  cases original <;> simp only [Tells, write_present, write_saved]

theorem changes_write_iff (call : PolicyCall) (write : Outcome) (registry : Registry) :
    Changes (writePolicyEntries write registry) call ↔ Changes registry call := by
  simp only [Changes, write_present, write_saved]

theorem policyKept_iff (listed : policy ∈ policies)
    (dword : ∃ content, Holds registry policy.call content) (backup write restore : Outcome) :
    PolicyKept registry (afterUninstall backup write restore registry) policy.call ↔
      Harmless backup write restore registry policy := by
  obtain ⟨original, holds⟩ := dword
  have same : originalOf registry policy.call = original := holds.query
  have unwritten := written_holds_iff listed holds backup write
  have entries := (tells_write_iff policy.call original write _).trans
    (tells_backup_iff listed holds backup)
  have kept : PolicyKept registry (afterUninstall backup write restore registry) policy.call ↔
      Holds (afterUninstall backup write restore registry) policy.call original ∨
        Tells (afterUninstall backup write restore registry) policy.call original := by
    rw [PolicyKept, same, holds, Holds]
  rw [kept, afterUninstall]
  by_cases recorded : Recorded backup registry policy.call original
  · have tells := entries.mpr recorded
    have harmless : Harmless backup write restore registry policy ↔
        restore policy.call.place = true ∨ Unwritten write registry policy ∨
          restore policy.call.present = false ∧
            (original = none ∨ restore policy.call.saved = false) := by
      subst same
      refine ⟨fun each => each.recorded recorded, fun each => ⟨fun _ => each, fun lost => ?_⟩⟩
      exact absurd recorded lost
    rw [harmless, tells.kept_iff listed restore, ← unwritten, Holds, Holds,
      tells.restored listed restore]
    cases restore policy.call.place <;> simp
  · have silent := mt entries.mp recorded
    have harmless : Harmless backup write restore registry policy ↔
        Unwritten write registry policy ∧
          ¬ (restore policy.call.place = true ∧ Stale backup registry policy.call original) := by
      subst same
      refine ⟨fun each => each.lost recorded, fun each => ⟨fun told => ?_, fun _ => each⟩⟩
      exact absurd told recorded
    have gone : ¬ Tells (restorePolicyRegistryValues restore
        (writePolicyEntries write (backupPolicyRegistryValues backup registry))) policy.call original :=
      fun tells => silent (tells.before listed)
    rw [harmless, or_iff_left gone, restored_of_not_tells listed silent restore, unwritten,
      changes_write_iff, changes_backup_iff listed holds recorded]

/-- After an uninstall with failures each policy is what it was, or its entries still tell
that, exactly if the failures are harmless for it. -/
theorem policies_kept_iff_harmless (backup write restore : Outcome) (registry : Registry)
    (dwords : ∀ policy ∈ policies, ∃ content, Holds registry policy.call content) :
    (∀ policy ∈ policies,
        PolicyKept registry (afterUninstall backup write restore registry) policy.call) ↔
      ∀ policy ∈ policies, Harmless backup write restore registry policy :=
  forall₂_congr fun policy listed => policyKept_iff listed (dwords policy listed) backup write restore

end Run

/-- No call of the restore succeeds: the entries stay for a later one. -/
theorem policies_kept_restore_fails :
    PolicyKept (fun _ => none)
      (afterUninstall allSucceed allSucceed (fun _ => false) fun _ => none)
      firstLogonAnimation.call := by
  have absent (call : PolicyCall) : originalOf (fun _ => none) call = none := rfl
  refine (policies_kept_iff_harmless allSucceed allSucceed (fun _ => false) (fun _ => none)
    fun policy _ => ⟨none, rfl⟩).mpr (fun policy _ => ⟨fun _ => ?_, fun lost => ?_⟩)
    firstLogonAnimation firstLogonAnimation_mem
  · exact .inr (.inr ⟨rfl, .inl (absent policy.call)⟩)
  · rw [absent] at lost
    exact absurd (.inl rfl) lost

/-- The original cannot be saved, everything else succeeds: the restore finds the flag but
no value, and deletes the flag. -/
theorem failed_backup_loses_policy :
    ¬ ∀ (backup write restore : Outcome) (registry : Registry),
      (∀ policy ∈ policies, ∃ content, Holds registry policy.call content) →
      ∀ policy ∈ policies,
        PolicyKept registry (afterUninstall backup write restore registry) policy.call := by
  intro kept
  let registry : Registry := fun place =>
    if place = firstLogonAnimation.call.place then some (.dword 1) else none
  let backup : Outcome := fun place => decide (place ≠ firstLogonAnimation.call.saved)
  have dwords : ∀ policy ∈ policies, ∃ content, Holds registry policy.call content := by
    intro policy _
    by_cases first : policy.call.place = firstLogonAnimation.call.place
    · exact ⟨some 1, if_pos first⟩
    · exact ⟨none, if_neg first⟩
  have held : Holds registry firstLogonAnimation.call (some 1) := if_pos rfl
  have original : originalOf registry firstLogonAnimation.call = some 1 := held.query
  have unsaved : registry firstLogonAnimation.call.saved = none :=
    if_neg (place_ne_saved firstLogonAnimation_mem _).symm
  have lost : ¬ Recorded backup registry firstLogonAnimation.call
      (originalOf registry firstLogonAnimation.call) := by
    rw [original, Recorded, unsaved]
    simp [backup]
  have first := kept backup allSucceed allSucceed registry dwords _ firstLogonAnimation_mem
  have harmless := (policyKept_iff firstLogonAnimation_mem (dwords _ firstLogonAnimation_mem) backup
    allSucceed allSucceed).mp first
  rcases (harmless.lost lost).1 with failed | equal
  · cases failed
  · rw [original] at equal
    exact absurd equal (by decide)

end Dot1xCP.Setup
