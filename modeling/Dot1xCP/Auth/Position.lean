import Dot1xCP.Auth.Layout

/-! Credential blobs and the address they are built at.

Two runs of a pack differ in the address that the allocator returns and in nothing else.
A layout whose buffers are differences of addresses comes out the same in both; one whose
buffers are addresses does not.
-/

set_option autoImplicit false

namespace Dot1xCP.Auth
open Bytes

/-- The same system, with an allocator that returns the address. -/
def AuthOs.placing (os : AuthOs) (address : Nat) : AuthOs :=
  { os with coTaskMemAlloc := fun _ => some address }

/-- An address that the allocator may return for a block of so many bytes. -/
structure Placeable (abi : Abi) (size address : Nat) : Prop where
  nonnull : 0 < address
  inside : address + size ≤ 256 ^ abi.pointer

def Local (domain : WString) : Prop := domain = [] ∨ domain = dot

/-- Every `Buffer` is the offset of its string from the start of the blob. -/
def Packed.Offsets (abi : Abi) (packed : Packed) (scen : Scenario) (dom user : WString) : Prop :=
  ∀ field, (packed.field abi field).buffer = start (headerSize abi scen) dom user field

section Stores
variable {blob blob' : Blob}

theorem memcpy_congr (same : blob.bytes = blob'.bytes) (offset : Nat) (data : List UInt8) :
    (blob.memcpy (blob.address + offset) data).bytes =
      (blob'.memcpy (blob'.address + offset) data).bytes := by
  rw [memcpy_bytes, memcpy_bytes, same]

theorem fillUS_congr (abi : Abi) (same : blob.bytes = blob'.bytes) (us buf : Nat)
    (length maximum : UInt16) :
    (fillUS abi blob (blob.address + us) buf length maximum).bytes =
      (fillUS abi blob' (blob'.address + us) buf length maximum).bytes := by
  rw [fillUS_bytes, fillUS_bytes, same]

theorem fillHeader_congr (abi : Abi) (same : blob.bytes = blob'.bytes) (messageType d u w : Nat)
    (dom user pass : WString) :
    (fillHeader abi blob messageType d u w dom user pass).bytes =
      (fillHeader abi blob' messageType d u w dom user pass).bytes := by
  unfold fillHeader
  have typed := memcpy_congr same 0 (littleEndian 4 messageType)
  have domain := fillUS_congr abi typed (Field.logonDomainName.offset abi) d
  exact fillUS_congr abi (fillUS_congr abi (domain _ _) _ _ _ _) _ _ _ _

theorem copyStrings_congr (same : blob.bytes = blob'.bytes) (cbH : Nat) (dom user pass : WString) :
    (copyStrings blob cbH dom user pass).bytes = (copyStrings blob' cbH dom user pass).bytes := by
  rw [copyStrings_bytes, copyStrings_bytes, same]

/-- What is stored as a buffer may depend on the address, or not. -/
theorem fillLogon_congr (abi : Abi) (same : blob.bytes = blob'.bytes) (cbH messageType : Nat)
    (dom user pass : WString) :
    (fillLogon abi blob cbH messageType (· - blob.address) dom user pass).bytes =
      (fillLogon abi blob' cbH messageType (· - blob'.address) dom user pass).bytes := by
  unfold fillLogon
  dsimp only
  simp only [Nat.add_assoc, Nat.add_sub_cancel_left]
  exact fillHeader_congr abi (copyStrings_congr same cbH dom user pass) _ _ _ _ _ _ _

end Stores

section Msv
variable {abi : Abi} {os : AuthOs} {domain user pass : WString} {scen : Scenario}
variable {first second : Nat} {packed packed' : Packed}

theorem packMsv_independent (packs : packMsv abi (os.placing first) domain user pass scen = some packed)
    (packs' : packMsv abi (os.placing second) domain user pass scen = some packed') :
    packed.blob.bytes = packed'.blob.bytes := by
  cases scen with
  | logon =>
    dsimp only [packMsv, guard] at packs packs'
    simp only [Option.bind_eq_bind, Option.bind_eq_some_iff, Option.pure_def, Option.some.injEq,
      coAllocZero, Option.map_eq_some_iff] at packs packs'
    obtain ⟨_, _, pkg, _, blob, ⟨address, _, rfl⟩, rfl⟩ := packs
    obtain ⟨_, _, pkg', _, blob', ⟨address', _, rfl⟩, rfl⟩ := packs'
    exact fillLogon_congr abi (by rfl) _ _ _ _ _
  | unlock =>
    dsimp only [packMsv, guard] at packs packs'
    simp only [Option.bind_eq_bind, Option.bind_eq_some_iff, Option.pure_def, Option.some.injEq,
      coAllocZero, Option.map_eq_some_iff] at packs packs'
    obtain ⟨_, _, pkg, _, luid, logonId, blob, ⟨address, _, rfl⟩, rfl⟩ := packs
    obtain ⟨_, _, pkg', _, luid', logonId', blob', ⟨address', _, rfl⟩, rfl⟩ := packs'
    obtain rfl : luid = luid' := Option.some_inj.mp (logonId.symm.trans logonId')
    exact memcpy_congr (fillLogon_congr abi (by rfl) _ _ _ _ _) _ _

end Msv

section Kerb
variable {abi : Abi} {os : AuthOs} {domain user pass : WString} {scen : Scenario}
variable {address : Nat} {packed : Packed}

theorem packKerb_filled (named : ¬ Local domain)
    (packs : packKerb abi (os.placing address) domain user pass scen = some packed)
    (placed : Placeable abi (blobSize abi scen domain user pass) address) :
    Filled abi packed.blob.bytes (fun field => address + start (headerSize abi scen) domain user field)
      (headerSize abi scen) domain user pass := by
  have notLocal : (domain.isEmpty || domain == dot) = false := by
    rw [Bool.or_eq_false_iff, beq_eq_false_iff_ne]
    exact ⟨by simpa using fun empty => named (Or.inl empty), fun isDot => named (Or.inr isDot)⟩
  have small (field : Field) :
      address + start (headerSize abi scen) domain user field < 256 ^ abi.pointer := by
    have inside := placed.inside
    have before := start_lt_blobSize abi scen domain user pass field
    omega
  cases scen with
  | logon =>
    dsimp only [packKerb, guard] at packs
    simp only [notLocal, Option.bind_eq_bind, Option.bind_eq_some_iff, Option.pure_def,
      Option.some.injEq, coAllocZero, Option.map_eq_some_iff] at packs
    obtain ⟨_, _, pkg, _, blob, ⟨address, allocated, rfl⟩, rfl⟩ := packs
    cases allocated
    exact fillLogon_filled _ id List.length_replicate (Nat.le_refl _) small
  | unlock =>
    dsimp only [packKerb, guard] at packs
    simp only [notLocal, Option.bind_eq_bind, Option.bind_eq_some_iff, Option.pure_def,
      Option.some.injEq, coAllocZero, Option.map_eq_some_iff] at packs
    obtain ⟨_, _, pkg, _, luid, _, blob, ⟨address, allocated, rfl⟩, rfl⟩ := packs
    cases allocated
    exact Filled.storeLogonId
      (fillLogon_filled _ id List.length_replicate (Nat.le_add_right _ 8) small)

/-- A blob of a domain account tells its address. -/
theorem packKerb_buffer (named : ¬ Local domain)
    (packs : packKerb abi (os.placing address) domain user pass scen = some packed)
    (placed : Placeable abi (blobSize abi scen domain user pass) address) (field : Field) :
    (packed.field abi field).buffer = address + start (headerSize abi scen) domain user field := by
  rw [Packed.field, (packKerb_filled named packs placed).fields field]

end Kerb

/-! ## `PackAutoEx` -/

theorem packAutoEx_local {abi : Abi} {domain : WString} (here : Local domain) (os : AuthOs)
    (user password : WString) (scen : Scenario) :
    packAutoEx abi os domain user password scen = packMsv abi os domain user password scen := by
  unfold packAutoEx
  rcases here with rfl | rfl <;> rfl

theorem packAutoEx_domain {abi : Abi} {domain : WString} (named : ¬ Local domain) (os : AuthOs)
    (user password : WString) (scen : Scenario) :
    packAutoEx abi os domain user password scen = packKerb abi os domain user password scen := by
  unfold packAutoEx
  rw [if_neg]
  rw [Bool.or_eq_true, List.isEmpty_iff, beq_iff_eq]
  exact named

theorem effectiveDomain_domain {domain : WString} (named : ¬ Local domain) :
    effectiveDomain domain = domain := by
  unfold effectiveDomain
  rw [if_neg]
  rw [List.isEmpty_iff]
  exact fun empty => named (Or.inl empty)

/-- The bytes of a blob are the same wherever it is built, and its buffers are offsets,
exactly for a local account. -/
theorem packAutoEx_position_iff (abi : Abi) (os : AuthOs) (domain user password : WString)
    (scen : Scenario) (first second : Nat) (packed packed' : Packed) (apart : first ≠ second)
    (placed : Placeable abi (blobSize abi scen (effectiveDomain domain) user password) first)
    (placed' : Placeable abi (blobSize abi scen (effectiveDomain domain) user password) second)
    (packs : packAutoEx abi (os.placing first) domain user password scen = some packed)
    (packs' : packAutoEx abi (os.placing second) domain user password scen = some packed') :
    (packed.blob.bytes = packed'.blob.bytes ↔ Local domain) ∧
      (packed.Offsets abi scen (effectiveDomain domain) user ↔ Local domain) := by
  by_cases here : Local domain
  · rw [packAutoEx_local here] at packs packs'
    have small := Nat.le_trans (Nat.le_add_left _ _) placed.inside
    obtain ⟨_, _, filled⟩ := packMsv_filled packs small
    exact ⟨iff_of_true (packMsv_independent packs packs') here, iff_of_true filled.buffer_eq here⟩
  · rw [packAutoEx_domain here] at packs packs'
    rw [effectiveDomain_domain here] at placed placed' ⊢
    have stored := packKerb_buffer here packs placed .logonDomainName
    have stored' := packKerb_buffer here packs' placed' .logonDomainName
    constructor
    · refine iff_of_false (fun same => apart ?_) here
      have sameBuffer : (packed.field abi .logonDomainName).buffer =
          (packed'.field abi .logonDomainName).buffer := by rw [Packed.field, Packed.field, same]
      exact Nat.add_right_cancel (stored.symm.trans (sameBuffer.trans stored'))
    · refine iff_of_false (fun offsets => ?_) here
      have nonnull := placed.nonnull
      have offset := stored.symm.trans (offsets .logonDomainName)
      omega

/-- An unlock blob of a local account. -/
theorem packAutoEx_position_local :
    ∃ packed packed', packAutoEx .x64 (sampleOs.placing 0x10000) dot [0x61] [0x62] .unlock = some packed ∧
      packAutoEx .x64 (sampleOs.placing 0x20000) dot [0x61] [0x62] .unlock = some packed' ∧
      packed.blob.bytes = packed'.blob.bytes ∧ packed.Offsets .x64 .unlock dot [0x61] := by
  have succeeds : (packAutoEx .x64 (sampleOs.placing 0x10000) dot [0x61] [0x62] .unlock).isSome := by
    decide +kernel
  have succeeds' : (packAutoEx .x64 (sampleOs.placing 0x20000) dot [0x61] [0x62] .unlock).isSome := by
    decide +kernel
  obtain ⟨packed, packs⟩ := Option.isSome_iff_exists.mp succeeds
  obtain ⟨packed', packs'⟩ := Option.isSome_iff_exists.mp succeeds'
  obtain ⟨bytes, offsets⟩ := packAutoEx_position_iff .x64 sampleOs dot [0x61] [0x62] .unlock 0x10000
    0x20000 packed packed' (by decide) ⟨by decide, by decide⟩ ⟨by decide, by decide⟩ packs packs'
  exact ⟨packed, packed', packs, packs', bytes.mpr (Or.inr rfl), offsets.mpr (Or.inr rfl)⟩

/-- A domain account: the two blobs differ, and a buffer holds an address. -/
theorem packAutoEx_stores_address :
    ∃ packed packed',
      packAutoEx .x64 ({ sampleOs with resolveNegotiate := some 3 }.placing 0x10000) [0x44] [0x61] [0x62]
        .logon = some packed ∧
      packAutoEx .x64 ({ sampleOs with resolveNegotiate := some 3 }.placing 0x20000) [0x44] [0x61] [0x62]
        .logon = some packed' ∧
      packed.blob.bytes ≠ packed'.blob.bytes ∧
      (packed.field .x64 .userName).buffer = 0x10000 + 60 ∧
      (packed'.field .x64 .userName).buffer = 0x20000 + 60 := by
  refine ⟨_, _, rfl, rfl, ?_, ?_, ?_⟩ <;> decide +kernel

end Dot1xCP.Auth
