import Dot1xCP.Setup.Install

/-! Installations that are interrupted after the policies are written.

The next attempt finds no uninstaller and takes its backup again, of what the one before it
has written. What the policies were is only known as long as there is one such attempt.
-/

set_option autoImplicit false

namespace Dot1xCP.Setup

/-- An attempt that ends before the product is registered. -/
def attempt (exec : Exec) (registry : Registry) : Registry :=
  let prepared := prepareToInstall exec allSucceed registry
  if prepared.1 = [] then writePolicyEntries allSucceed prepared.2 else prepared.2

section Attempts
variable (exec : Exec) {registry : Registry}

theorem attempt_eq (absent : tryGetExistingUninstallCommand registry = none) :
    attempt exec registry =
      writePolicyEntries allSucceed (backupPolicyRegistryValues allSucceed registry) := by
  unfold attempt
  rw [prepareToInstall_eq, uninstallPreviousVersionIfExists, absent]
  rfl

theorem write_not_found (registry : Registry) :
    tryGetExistingUninstallCommand (writePolicyEntries allSucceed registry) =
      tryGetExistingUninstallCommand registry := by
  refine tryGetExistingUninstallCommand_congr fun valueName => write_frame _ _ fun policy listed same => ?_
  exact engine_outside List.mem_cons_self .hklm64 valueName policy listed (same ▸ place_mem policy.call)

theorem attempt_not_found (absent : tryGetExistingUninstallCommand registry = none) :
    tryGetExistingUninstallCommand (attempt exec registry) = none := by
  rw [attempt_eq exec absent, write_not_found, ← absent]
  refine tryGetExistingUninstallCommand_congr fun valueName => ?_
  exact backup_frame _ _ (engine_outside List.mem_cons_self .hklm64 valueName)

variable {policy : Policy} {content : Option UInt32}

/-- The backup of an attempt says what the policy was before it, and the policy is then what
the installer makes it. -/
theorem attempt_encodes (listed : policy ∈ policies)
    (absent : tryGetExistingUninstallCommand registry = none)
    (holds : Holds registry policy.call content) :
    Encodes (attempt exec registry) policy.call content ∧
      Holds (attempt exec registry) policy.call (some policy.data) := by
  rw [attempt_eq exec absent]
  exact ⟨write_encodes (backup_encodes listed holds).1, write_holds listed _⟩

/-- After the second attempt the backup says what the installer wrote. -/
theorem attempts_encode (listed : policy ∈ policies)
    (absent : tryGetExistingUninstallCommand registry = none)
    (holds : Holds registry policy.call content) (n : Nat) :
    tryGetExistingUninstallCommand ((attempt exec)^[n + 1] registry) = none ∧
      Encodes ((attempt exec)^[n + 1] registry) policy.call
        (if n = 0 then content else some policy.data) ∧
      Holds ((attempt exec)^[n + 1] registry) policy.call (some policy.data) := by
  induction n with
  | zero => exact ⟨attempt_not_found exec absent, attempt_encodes exec listed absent holds⟩
  | succ n ih =>
    obtain ⟨stillAbsent, _, written⟩ := ih
    rw [Function.iterate_succ_apply', if_neg (Nat.succ_ne_zero n)]
    exact ⟨attempt_not_found exec stillAbsent, attempt_encodes exec listed stillAbsent written⟩

theorem restored_after_attempts (listed : policy ∈ policies)
    (absent : tryGetExistingUninstallCommand registry = none)
    (holds : Holds registry policy.call content) (n : Nat) :
    Holds (restorePolicyRegistryValues allSucceed ((attempt exec)^[n + 1] registry)) policy.call
      (if n = 0 then content else some policy.data) :=
  restore_holds listed (attempts_encode exec listed absent holds n).2.1

end Attempts

/-- One attempt can be undone. After more, the policies are what they were exactly when the
installer had nothing to change. -/
theorem attempts_undone_iff (exec : Exec) {machine : Registry} (dwords : Dwords machine)
    (absent : tryGetExistingUninstallCommand machine = none) {n : Nat} (positive : 1 ≤ n) :
    (∀ policy ∈ policies,
      restorePolicyRegistryValues allSucceed ((attempt exec)^[n] machine) policy.call.place =
        machine policy.call.place) ↔
      n = 1 ∨ ∀ policy ∈ policies, machine policy.call.place = some (.dword policy.data) := by
  obtain ⟨n, rfl⟩ := Nat.exists_eq_add_of_le' positive
  constructor
  · intro undone
    refine or_iff_not_imp_left.mpr fun again policy listed => ?_
    obtain ⟨content, holds⟩ := dwords policy listed
    have restored := restored_after_attempts exec listed absent holds n
    rw [if_neg fun zero => again (congrArg (· + 1) zero)] at restored
    exact (undone policy listed).symm.trans restored
  · intro condition policy listed
    obtain ⟨content, holds⟩ := dwords policy listed
    have restored := restored_after_attempts exec listed absent holds n
    refine restored.trans ?_
    split
    · exact holds.symm
    next again =>
      rcases condition with once | same
      · exact absurd (Nat.succ.inj once) again
      · exact (same policy listed).symm

/-- The policies are as the installer writes them. -/
def prepared : Registry := writePolicyEntries allSucceed fun _ => none

theorem attempts_undone_unchanged :
    tryGetExistingUninstallCommand prepared = none ∧ ∀ policy ∈ policies,
      restorePolicyRegistryValues allSucceed
          ((attempt fun _ registry => (.failed, registry))^[3] prepared) policy.call.place =
        prepared policy.call.place := by
  have absent : tryGetExistingUninstallCommand prepared = none := write_not_found _
  have same (policy : Policy) (listed : policy ∈ policies) :
      Holds prepared policy.call (some policy.data) := write_holds listed _
  have undone := attempts_undone_iff (fun _ registry => (.failed, registry))
    (fun policy listed => ⟨_, same policy listed⟩) absent (by decide : 1 ≤ 3)
  exact ⟨absent, undone.mpr (.inr same)⟩

/-- Two attempts on a clean machine: the first policy was absent, and is restored to 0. -/
theorem attempts_not_undone :
    ¬ ∀ policy ∈ policies,
      restorePolicyRegistryValues allSucceed
        ((attempt fun _ registry => (.failed, registry))^[2] fun _ => none) policy.call.place =
          none := by
  intro undone
  have absent : Holds (fun _ => none) firstLogonAnimation.call none := rfl
  have restored := restored_after_attempts (fun _ registry => (.failed, registry))
    firstLogonAnimation_mem rfl absent 1
  exact absurd ((undone _ firstLogonAnimation_mem).symm.trans restored) (by simp)

end Dot1xCP.Setup
