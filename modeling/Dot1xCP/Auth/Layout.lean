import Dot1xCP.Auth.Serialization

/-! The MSV1_0 blob read back.

Every store is followed through the later ones by the range rules of flat memory:
a field of the header or a copied string is read as it was written, because no
later store touches its range.
-/

set_option autoImplicit false

namespace Dot1xCP.Auth
open Bytes

def loadUS (abi : Abi) (mem : List UInt8) (us : Nat) : UnicodeString where
  length := UInt16.ofNat (ofLittleEndian (readAt mem us 2))
  maximumLength := UInt16.ofNat (ofLittleEndian (readAt mem (us + 2) 2))
  buffer := ofLittleEndian (readAt mem (us + abi.pointer) abi.pointer)

def Packed.field (abi : Abi) (packed : Packed) (field : Field) : UnicodeString :=
  loadUS abi packed.blob.bytes (field.offset abi)

def Packed.text (abi : Abi) (packed : Packed) (field : Field) : WString :=
  ofUnitBytes (readAt packed.blob.bytes (packed.field abi field).buffer
    (packed.field abi field).length.toNat)

theorem pointer_ge (abi : Abi) : 4 ≤ abi.pointer := by cases abi <;> decide

theorem memcpy_bytes (blob : Blob) (offset : Nat) (data : List UInt8) :
    (blob.memcpy (blob.address + offset) data).bytes = writeAt blob.bytes offset data := by
  rw [Blob.memcpy, Nat.add_sub_cancel_left]

section FillUS
variable {abi : Abi} {blob : Blob} {us : Nat}

theorem fillUS_bytes (buf : Nat) (length maximum : UInt16) :
    (fillUS abi blob (blob.address + us) buf length maximum).bytes =
      writeAt (writeAt (writeAt blob.bytes (us + abi.pointer) (littleEndian abi.pointer buf)) us
        (littleEndian 2 length.toNat)) (us + 2) (littleEndian 2 maximum.toNat) := by
  simp only [fillUS, Blob.memcpy]
  rw [Nat.add_assoc blob.address us abi.pointer, Nat.add_assoc blob.address us 2,
    Nat.add_sub_cancel_left, Nat.add_sub_cancel_left, Nat.add_sub_cancel_left]

theorem fillUS_spec (fits : us + sizeofUnicodeString abi ≤ blob.bytes.length) (buf : Nat)
    (length maximum : UInt16) :
    let stored := (fillUS abi blob (blob.address + us) buf length maximum).bytes
    stored.length = blob.bytes.length ∧
    (∀ start count, (start + count ≤ us ∨ us + sizeofUnicodeString abi ≤ start) →
      readAt stored start count = readAt blob.bytes start count) ∧
    readAt stored us 2 = littleEndian 2 length.toNat ∧
    readAt stored (us + 2) 2 = littleEndian 2 maximum.toNat ∧
    readAt stored (us + abi.pointer) abi.pointer = littleEndian abi.pointer buf := by
  have wide := pointer_ge abi
  unfold sizeofUnicodeString at fits ⊢
  have first : us + abi.pointer + (littleEndian abi.pointer buf).length ≤ blob.bytes.length := by
    rw [length_littleEndian]
    omega
  have second : us + (littleEndian 2 length.toNat).length ≤
      (writeAt blob.bytes (us + abi.pointer) (littleEndian abi.pointer buf)).length := by
    rw [length_writeAt first, length_littleEndian]
    omega
  have third : us + 2 + (littleEndian 2 maximum.toNat).length ≤
      (writeAt (writeAt blob.bytes (us + abi.pointer) (littleEndian abi.pointer buf)) us
        (littleEndian 2 length.toNat)).length := by
    rw [length_writeAt second, length_writeAt first, length_littleEndian]
    omega
  -- The parts are disjoint, so the order of the three stores does not matter.
  have readMaximum := readAt_writeAt_self third
  have readLength := readAt_writeAt_self second
  have readBuffer := readAt_writeAt_self first
  simp only [length_littleEndian] at readMaximum readLength readBuffer
  simp only [fillUS_bytes]
  refine ⟨?_, ?_, ?_, readMaximum, ?_⟩
  · rw [length_writeAt third, length_writeAt second, length_writeAt first]
  · intro start count apart
    rw [readAt_writeAt_disjoint third, readAt_writeAt_disjoint second,
      readAt_writeAt_disjoint first] <;> rw [length_littleEndian] <;> omega
  · rw [readAt_writeAt_disjoint third (by omega), readLength]
  · rw [readAt_writeAt_disjoint third (by rw [length_littleEndian]; omega),
      readAt_writeAt_disjoint second (by rw [length_littleEndian]; omega), readBuffer]

theorem fillUS_load (fits : us + sizeofUnicodeString abi ≤ blob.bytes.length) {buf : Nat}
    (small : buf < 256 ^ abi.pointer) (length maximum : UInt16) :
    loadUS abi (fillUS abi blob (blob.address + us) buf length maximum).bytes us =
      ⟨length, maximum, buf⟩ := by
  obtain ⟨_, _, readLength, readMaximum, readBuffer⟩ := fillUS_spec fits buf length maximum
  rw [loadUS, readLength, readMaximum, readBuffer, ofLittleEndian_of_lt small,
    ofLittleEndian_of_lt length.toNat_lt, ofLittleEndian_of_lt maximum.toNat_lt,
    UInt16.ofNat_toNat, UInt16.ofNat_toNat]

theorem loadUS_congr {mem mem' : List UInt8} (wide : 4 ≤ abi.pointer)
    (same : readAt mem us (sizeofUnicodeString abi) = readAt mem' us (sizeofUnicodeString abi)) :
    loadUS abi mem us = loadUS abi mem' us := by
  have part (start count : Nat) (inside : start + count ≤ sizeofUnicodeString abi) :
      readAt mem (us + start) count = readAt mem' (us + start) count := by
    rw [← readAt_readAt mem inside, same, readAt_readAt mem' inside]
  have readLength := part 0 2 (by unfold sizeofUnicodeString; omega)
  have readMaximum := part 2 2 (by unfold sizeofUnicodeString; omega)
  have readBuffer := part abi.pointer abi.pointer (by unfold sizeofUnicodeString; omega)
  rw [Nat.add_zero] at readLength
  rw [loadUS, readLength, readMaximum, readBuffer, loadUS]

end FillUS

@[simp] theorem length_cStr (s : WString) : (cStr s).length = byteCount s := by
  rw [cStr, length_unitBytes, List.length_append, byteCount, List.length_singleton, Nat.mul_comm]

def texts (dom user pass : WString) : Field → WString
  | .logonDomainName => dom
  | .userName => user
  | .password => pass

def start (cbH : Nat) (dom user : WString) : Field → Nat
  | .logonDomainName => cbH
  | .userName => cbH + byteCount dom
  | .password => cbH + byteCount dom + byteCount user

section Fill
variable {abi : Abi} {blob : Blob} {cbH : Nat} {dom user pass : WString}

theorem copyStrings_bytes :
    (copyStrings blob cbH dom user pass).bytes =
      writeAt (writeAt (writeAt blob.bytes cbH (cStr dom)) (cbH + byteCount dom) (cStr user))
        (cbH + byteCount dom + byteCount user) (cStr pass) := by
  simp only [copyStrings, Blob.memcpy]
  rw [Nat.add_assoc blob.address, Nat.add_assoc blob.address, Nat.add_sub_cancel_left,
    Nat.add_sub_cancel_left, Nat.add_sub_cancel_left]

theorem copyStrings_spec
    (size : blob.bytes.length = cbH + byteCount dom + byteCount user + byteCount pass) :
    (copyStrings blob cbH dom user pass).bytes.length = blob.bytes.length ∧
    ∀ field, readAt (copyStrings blob cbH dom user pass).bytes (start cbH dom user field)
      (byteCount (texts dom user pass field)) = cStr (texts dom user pass field) := by
  have first : cbH + (cStr dom).length ≤ blob.bytes.length := by
    rw [length_cStr]
    omega
  have second : cbH + byteCount dom + (cStr user).length ≤
      (writeAt blob.bytes cbH (cStr dom)).length := by
    rw [length_writeAt first, length_cStr]
    omega
  have third : cbH + byteCount dom + byteCount user + (cStr pass).length ≤
      (writeAt (writeAt blob.bytes cbH (cStr dom)) (cbH + byteCount dom) (cStr user)).length := by
    rw [length_writeAt second, length_writeAt first, length_cStr]
    omega
  have readPass := readAt_writeAt_self third
  have readUser := readAt_writeAt_self second
  have readDom := readAt_writeAt_self first
  simp only [length_cStr] at readPass readUser readDom
  rw [copyStrings_bytes]
  refine ⟨by rw [length_writeAt third, length_writeAt second, length_writeAt first], ?_⟩
  intro field
  cases field with
  | logonDomainName =>
    simp only [start, texts]
    rw [readAt_writeAt_disjoint third (by omega), readAt_writeAt_disjoint second (by omega), readDom]
  | userName =>
    simp only [start, texts]
    rw [readAt_writeAt_disjoint third (by omega), readUser]
  | password => exact readPass

/-- The header is read back, and what lies behind it is not touched. -/
theorem fillHeader_spec (messageType : Nat) (dom user pass : WString) {d u w : Nat}
    (fits : sizeofInteractiveLogon abi ≤ blob.bytes.length)
    (smallD : d < 256 ^ abi.pointer) (smallU : u < 256 ^ abi.pointer) (smallW : w < 256 ^ abi.pointer) :
    let filled := (fillHeader abi blob messageType d u w dom user pass).bytes
    filled.length = blob.bytes.length ∧
    (∀ offset count, sizeofInteractiveLogon abi ≤ offset →
      readAt filled offset count = readAt blob.bytes offset count) ∧
    loadUS abi filled (Field.logonDomainName.offset abi) =
      ⟨UInt16.ofNat (dom.length * 2), UInt16.ofNat (byteCount dom), d⟩ ∧
    loadUS abi filled (Field.userName.offset abi) =
      ⟨UInt16.ofNat (user.length * 2), UInt16.ofNat (byteCount user), u⟩ ∧
    loadUS abi filled (Field.password.offset abi) =
      ⟨UInt16.ofNat (pass.length * 2), UInt16.ofNat (byteCount pass), w⟩ := by
  have wide := pointer_ge abi
  have typed : (blob.memcpy blob.address (littleEndian 4 messageType)).bytes =
      writeAt blob.bytes 0 (littleEndian 4 messageType) := memcpy_bytes blob 0 _
  have typeFits : 0 + (littleEndian 4 messageType).length ≤ blob.bytes.length := by
    rw [length_littleEndian]
    unfold sizeofInteractiveLogon at fits
    omega
  have typedLength : (blob.memcpy blob.address (littleEndian 4 messageType)).bytes.length =
      blob.bytes.length := by rw [typed, length_writeAt typeFits]
  simp only [fillHeader]
  generalize blob.memcpy blob.address (littleEndian 4 messageType) = first at typed typedLength ⊢
  unfold sizeofInteractiveLogon at fits ⊢
  have firstFits : Field.logonDomainName.offset abi + sizeofUnicodeString abi ≤ first.bytes.length := by
    simp only [Field.offset, sizeofUnicodeString]
    omega
  obtain ⟨firstLength, firstFrame, _⟩ := fillUS_spec firstFits d
    (UInt16.ofNat (dom.length * 2)) (UInt16.ofNat (byteCount dom))
  have loadD := fillUS_load firstFits smallD
    (UInt16.ofNat (dom.length * 2)) (UInt16.ofNat (byteCount dom))
  -- From here only the spec of this store is used, and so for the next two.
  generalize fillUS abi first _ d _ _ = second at firstLength firstFrame loadD ⊢
  have secondFits : Field.userName.offset abi + sizeofUnicodeString abi ≤ second.bytes.length := by
    simp only [Field.offset, sizeofUnicodeString]
    omega
  obtain ⟨secondLength, secondFrame, _⟩ := fillUS_spec secondFits u
    (UInt16.ofNat (user.length * 2)) (UInt16.ofNat (byteCount user))
  have loadU := fillUS_load secondFits smallU
    (UInt16.ofNat (user.length * 2)) (UInt16.ofNat (byteCount user))
  generalize fillUS abi second _ u _ _ = third at secondLength secondFrame loadU ⊢
  have thirdFits : Field.password.offset abi + sizeofUnicodeString abi ≤ third.bytes.length := by
    simp only [Field.offset, sizeofUnicodeString]
    omega
  obtain ⟨thirdLength, thirdFrame, _⟩ := fillUS_spec thirdFits w
    (UInt16.ofNat (pass.length * 2)) (UInt16.ofNat (byteCount pass))
  have loadW := fillUS_load thirdFits smallW
    (UInt16.ofNat (pass.length * 2)) (UInt16.ofNat (byteCount pass))
  generalize fillUS abi third _ w _ _ = last at thirdLength thirdFrame loadW ⊢
  simp only [Field.offset, sizeofUnicodeString] at firstFrame secondFrame thirdFrame loadD loadU loadW ⊢
  refine ⟨by omega, ?_, ?_, ?_, loadW⟩
  -- A range behind the header is disjoint from all four stores.
  · intro offset count behind
    rw [thirdFrame offset count (by omega), secondFrame offset count (by omega),
      firstFrame offset count (by omega), typed,
      readAt_writeAt_disjoint typeFits (by rw [length_littleEndian]; omega)]
  · rw [← loadD]
    apply loadUS_congr wide
    rw [sizeofUnicodeString, thirdFrame _ _ (by omega), secondFrame _ _ (by omega)]
  · rw [← loadU]
    apply loadUS_congr wide
    rw [sizeofUnicodeString, thirdFrame _ _ (by omega)]

/-- A filled blob: what each field holds, and each string in its place. -/
structure Filled (abi : Abi) (mem : List UInt8) (buffer : Field → Nat) (cbH : Nat)
    (dom user pass : WString) : Prop where
  length : mem.length = cbH + byteCount dom + byteCount user + byteCount pass
  fields : ∀ field, loadUS abi mem (field.offset abi) =
    ⟨UInt16.ofNat ((texts dom user pass field).length * 2),
      UInt16.ofNat (byteCount (texts dom user pass field)), buffer field⟩
  strings : ∀ field, readAt mem (start cbH dom user field) (byteCount (texts dom user pass field)) =
    cStr (texts dom user pass field)

theorem fillLogon_filled (messageType : Nat) (pointer : Nat → Nat)
    (size : blob.bytes.length = cbH + byteCount dom + byteCount user + byteCount pass)
    (header : sizeofInteractiveLogon abi ≤ cbH)
    (small : ∀ field, pointer (blob.address + start cbH dom user field) < 256 ^ abi.pointer) :
    Filled abi (fillLogon abi blob cbH messageType pointer dom user pass).bytes
      (fun field => pointer (blob.address + start cbH dom user field)) cbH dom user pass := by
  obtain ⟨copiedLength, copied⟩ := copyStrings_spec size
  have smallD := small .logonDomainName
  have smallU := small .userName
  have smallW := small .password
  simp only [start, ← Nat.add_assoc] at smallD smallU smallW
  have fits : sizeofInteractiveLogon abi ≤ (copyStrings blob cbH dom user pass).bytes.length := by
    omega
  obtain ⟨length, behind, loadD, loadU, loadW⟩ :=
    fillHeader_spec messageType dom user pass fits smallD smallU smallW
  refine ⟨by rw [← size, ← copiedLength]; exact length, ?_, ?_⟩
  · intro field
    cases field with
    | logonDomainName => exact loadD
    | userName =>
      simp only [start, ← Nat.add_assoc]
      exact loadU
    | password =>
      simp only [start, ← Nat.add_assoc]
      exact loadW
  · intro field
    have begins : sizeofInteractiveLogon abi ≤ start cbH dom user field := by
      cases field <;> simp only [start] <;> omega
    rw [← copied field]
    exact behind _ _ begins

/-- With differences of addresses as buffers, the blob does not depend on where it is. -/
theorem fillLogon_offsets {messageType : Nat}
    (size : blob.bytes.length = cbH + byteCount dom + byteCount user + byteCount pass)
    (header : sizeofInteractiveLogon abi ≤ cbH)
    (small : ∀ field, start cbH dom user field < 256 ^ abi.pointer) :
    Filled abi (fillLogon abi blob cbH messageType (· - blob.address) dom user pass).bytes
      (start cbH dom user) cbH dom user pass := by
  have offsets (field : Field) :
      blob.address + start cbH dom user field - blob.address = start cbH dom user field :=
    Nat.add_sub_cancel_left _ _
  have stored (field : Field) :
      blob.address + start cbH dom user field - blob.address < 256 ^ abi.pointer := by
    rw [offsets]
    exact small field
  have filled := fillLogon_filled messageType (· - blob.address) size header stored
  simpa only [offsets] using filled

theorem Filled.storeLogonId {buffer : Field → Nat} {luid : Luid}
    (filled : Filled abi blob.bytes buffer (sizeofUnlockLogon abi) dom user pass) :
    Filled abi (blob.memcpy (blob.address + sizeofInteractiveLogon abi) luid.bytes).bytes buffer
      (sizeofUnlockLogon abi) dom user pass := by
  have luidLength : luid.bytes.length = 8 := by simp [Luid.bytes]
  have length := filled.length
  have fits : sizeofInteractiveLogon abi + luid.bytes.length ≤ blob.bytes.length := by
    simp only [sizeofUnlockLogon, sizeofInteractiveLogon] at length ⊢
    omega
  rw [memcpy_bytes]
  simp only [sizeofInteractiveLogon] at fits ⊢
  refine ⟨by rw [length_writeAt fits, length], ?_, ?_⟩
  · intro field
    rw [← filled.fields field]
    apply loadUS_congr (pointer_ge abi)
    apply readAt_writeAt_disjoint fits
    left
    cases field <;> simp only [Field.offset, sizeofUnicodeString] <;> omega
  · intro field
    rw [← filled.strings field]
    apply readAt_writeAt_disjoint fits
    right
    cases field <;> simp only [start, sizeofUnlockLogon] <;> omega

end Fill

/-! ## `PackMsv` -/

def effectiveDomain (domainIn : WString) : WString := if domainIn.isEmpty then dot else domainIn

def blobSize (abi : Abi) (scen : Scenario) (dom user pass : WString) : Nat :=
  headerSize abi scen + byteCount dom + byteCount user + byteCount pass

theorem user_ne_nil {user : WString} {u : Unit}
    (named : (if (!user.isEmpty) = true then some () else failure) = some u) : user ≠ [] := by
  rintro rfl
  cases named

theorem four_gib_le (abi : Abi) : 2 ^ 32 ≤ 256 ^ abi.pointer := by cases abi <;> decide

theorem start_lt_blobSize (abi : Abi) (scen : Scenario) (dom user pass : WString) (field : Field) :
    start (headerSize abi scen) dom user field < blobSize abi scen dom user pass := by
  unfold blobSize byteCount
  cases field <;> simp only [start, byteCount] <;> omega

/-- A successful pack yields a filled blob whose buffers are offsets. -/
theorem packMsv_filled {abi : Abi} {os : AuthOs} {domainIn user pass : WString} {scen : Scenario}
    {packed : Packed} (packs : packMsv abi os domainIn user pass scen = some packed)
    (small : blobSize abi scen (effectiveDomain domainIn) user pass ≤ 256 ^ abi.pointer) :
    user ≠ [] ∧
    packed.size = UInt32.ofNat (blobSize abi scen (effectiveDomain domainIn) user pass) ∧
    Filled abi packed.blob.bytes (start (headerSize abi scen) (effectiveDomain domainIn) user)
      (headerSize abi scen) (effectiveDomain domainIn) user pass := by
  have inside (field : Field) :
      start (headerSize abi scen) (effectiveDomain domainIn) user field < 256 ^ abi.pointer :=
    Nat.lt_of_lt_of_le (start_lt_blobSize abi scen _ user pass field) small
  cases scen with
  | logon =>
    dsimp only [packMsv, guard] at packs
    simp only [Option.bind_eq_bind, Option.bind_eq_some_iff, Option.pure_def, Option.some.injEq,
      coAllocZero, Option.map_eq_some_iff] at packs
    obtain ⟨_, named, pkg, _, blob, ⟨address, _, allocated⟩, rfl⟩ := packs
    refine ⟨user_ne_nil named, rfl, fillLogon_offsets ?_ (Nat.le_refl _) inside⟩
    rw [← allocated]
    exact List.length_replicate
  | unlock =>
    dsimp only [packMsv, guard] at packs
    simp only [Option.bind_eq_bind, Option.bind_eq_some_iff, Option.pure_def, Option.some.injEq,
      coAllocZero, Option.map_eq_some_iff] at packs
    obtain ⟨_, named, pkg, _, luid, _, blob, ⟨address, _, allocated⟩, rfl⟩ := packs
    refine ⟨user_ne_nil named, rfl, Filled.storeLogonId (fillLogon_offsets ?_ ?_ inside)⟩
    · rw [← allocated]
      exact List.length_replicate
    · exact Nat.le_add_right _ 8

/-! ## The layout -/

theorem cStr_eq (s : WString) : cStr s = unitBytes s ++ [0, 0] := by
  rw [cStr, unitBytes_append]
  rfl

theorem cStr_units (s : WString) : readAt (cStr s) 0 (2 * s.length) = unitBytes s := by
  rw [cStr_eq, readAt, List.drop_zero, ← length_unitBytes, List.take_left]

theorem cStr_terminator (s : WString) : readAt (cStr s) (2 * s.length) 2 = [0, 0] := by
  rw [cStr_eq, readAt, ← length_unitBytes, List.drop_left]
  rfl

section Filled
variable {abi : Abi} {packed : Packed} {cbH : Nat} {dom user pass : WString}

theorem Filled.readAt_string {mem : List UInt8}
    (filled : Filled abi mem (start cbH dom user) cbH dom user pass) (field : Field)
    (offset count : Nat) (inside : offset + count ≤ byteCount (texts dom user pass field)) :
    readAt mem (start cbH dom user field + offset) count =
      readAt (cStr (texts dom user pass field)) offset count := by
  rw [← filled.strings field, readAt_readAt mem inside]

theorem Filled.text (filled : Filled abi packed.blob.bytes (start cbH dom user) cbH dom user pass)
    (field : Field) (fits : (texts dom user pass field).length < 32768) :
    packed.text abi field = texts dom user pass field := by
  have stored := filled.fields field
  have length : (UInt16.ofNat ((texts dom user pass field).length * 2)).toNat =
      2 * (texts dom user pass field).length := by
    rw [UInt16.toNat_ofNat', Nat.mod_eq_of_lt (by omega), Nat.mul_comm]
  have whole := filled.readAt_string field 0 (2 * (texts dom user pass field).length)
    (by rw [byteCount]; omega)
  rw [Nat.add_zero, cStr_units] at whole
  rw [Packed.text, Packed.field, stored, length, whole, ofUnitBytes_unitBytes]

/-- LSA can take the string from the field: its bounds agree and it is complete. -/
def Packed.Carries (abi : Abi) (packed : Packed) (field : Field) (s : WString) : Prop :=
  (packed.field abi field).length ≤ (packed.field abi field).maximumLength ∧
    packed.text abi field = s

/-- A field carries its string exactly when the string and its terminator fit the two
16-bit lengths. -/
theorem Filled.carries_iff (filled : Filled abi packed.blob.bytes (start cbH dom user) cbH dom user pass)
    (field : Field) :
    packed.Carries abi field (texts dom user pass field) ↔
      (texts dom user pass field).length ≤ 32766 := by
  have stored := filled.fields field
  have bounds : (packed.field abi field).length ≤ (packed.field abi field).maximumLength ↔
      (texts dom user pass field).length * 2 % 65536 ≤
        byteCount (texts dom user pass field) % 65536 := by
    rw [Packed.field, stored, UInt16.le_iff_toNat_le, UInt16.toNat_ofNat', UInt16.toNat_ofNat']
  rw [Packed.Carries, bounds]
  unfold byteCount
  constructor
  -- A complete text is no longer than the stored length allows, which is below 65536 bytes;
  -- at 32767 units the maximum length has wrapped to 0.
  · rintro ⟨ordered, complete⟩
    have units := length_ofUnitBytes_le (readAt packed.blob.bytes (packed.field abi field).buffer
      (packed.field abi field).length.toNat)
    have read := length_readAt_le packed.blob.bytes (packed.field abi field).buffer
      (packed.field abi field).length.toNat
    have short := (packed.field abi field).length.toNat_lt
    have count := congrArg List.length complete
    rw [Packed.text] at count
    omega
  · intro fits
    exact ⟨by omega, filled.text field (by omega)⟩

end Filled

/-- An MSV1_0 logon buffer as LSA reads it. -/
structure MsvLayout (abi : Abi) (scen : Scenario) (packed : Packed) (dom user pass : WString) : Prop where
  size : packed.blob.bytes.length = packed.size.toNat
  even : ∀ field, 2 ∣ (packed.field abi field).buffer
  behindHeader : ∀ field, headerSize abi scen ≤ (packed.field abi field).buffer
  disjoint : ∀ first second, first ≠ second →
    (packed.field abi first).buffer + (packed.field abi first).maximumLength.toNat ≤
        (packed.field abi second).buffer ∨
      (packed.field abi second).buffer + (packed.field abi second).maximumLength.toNat ≤
        (packed.field abi first).buffer
  tiled : ∀ i, (headerSize abi scen ≤ i ∧ i < packed.size.toNat) ↔
    ∃ field, (packed.field abi field).buffer ≤ i ∧
      i < (packed.field abi field).buffer + (packed.field abi field).maximumLength.toNat
  maximum : ∀ field,
    (packed.field abi field).maximumLength.toNat = (packed.field abi field).length.toNat + 2
  terminated : ∀ field, readAt packed.blob.bytes
    ((packed.field abi field).buffer + (packed.field abi field).length.toNat) 2 = [0, 0]
  text : ∀ field, packed.text abi field = texts dom user pass field

theorem headerSize_even (abi : Abi) (scen : Scenario) : 2 ∣ headerSize abi scen := by
  cases abi <;> cases scen <;> decide

theorem headerSize_le (abi : Abi) (scen : Scenario) : headerSize abi scen ≤ 64 := by
  cases abi <;> cases scen <;> decide

section Fits
variable {abi : Abi} {packed : Packed} {scen : Scenario} {dom user pass : WString}

theorem Filled.buffer_eq {cbH : Nat}
    (filled : Filled abi packed.blob.bytes (start cbH dom user) cbH dom user pass) (field : Field) :
    (packed.field abi field).buffer = start cbH dom user field := by
  rw [Packed.field, filled.fields field]

theorem Filled.lengths_eq {buffer : Field → Nat} {cbH : Nat}
    (filled : Filled abi packed.blob.bytes buffer cbH dom user pass) (field : Field)
    (fits : (texts dom user pass field).length ≤ 32766) :
    (packed.field abi field).length.toNat = 2 * (texts dom user pass field).length ∧
      (packed.field abi field).maximumLength.toNat = byteCount (texts dom user pass field) := by
  rw [Packed.field, filled.fields field, UInt16.toNat_ofNat', UInt16.toNat_ofNat']
  unfold byteCount
  omega

/-- The fields of a filled blob describe its strings, one behind the other. -/
theorem Filled.layout
    (filled : Filled abi packed.blob.bytes (start (headerSize abi scen) dom user)
      (headerSize abi scen) dom user pass)
    (size : packed.size.toNat = blobSize abi scen dom user pass)
    (fits : ∀ field, (texts dom user pass field).length ≤ 32766) :
    MsvLayout abi scen packed dom user pass := by
  have buffer := filled.buffer_eq
  have length (field : Field) := (filled.lengths_eq field (fits field)).1
  have maximum (field : Field) := (filled.lengths_eq field (fits field)).2
  have parity := headerSize_even abi scen
  constructor
  · rw [filled.length, size, blobSize]
  · intro field
    rw [buffer]
    cases field <;> simp only [start, byteCount] <;> omega
  · intro field
    rw [buffer]
    cases field <;> simp only [start] <;> omega
  · intro first second different
    rw [buffer, buffer, maximum, maximum]
    cases first <;> cases second <;> simp only [start, texts, ne_eq, not_true_eq_false] at different ⊢ <;>
      omega
  · intro i
    simp only [buffer, maximum, size, blobSize]
    constructor
    -- a byte behind the header lies in the first string that ends after it
    · rintro ⟨low, high⟩
      by_cases domain : i < headerSize abi scen + byteCount dom
      · exact ⟨.logonDomainName, low, domain⟩
      · by_cases name : i < headerSize abi scen + byteCount dom + byteCount user
        · exact ⟨.userName, Nat.le_of_not_lt domain, name⟩
        · exact ⟨.password, Nat.le_of_not_lt name, high⟩
    · rintro ⟨field, low, high⟩
      cases field <;> simp only [start, texts] at low high <;> omega
  · intro field
    rw [maximum, length, byteCount]
    omega
  · intro field
    rw [buffer, length, filled.readAt_string field _ 2 (by rw [byteCount]; omega), cStr_terminator]
  · intro field
    exact filled.text field (Nat.lt_of_le_of_lt (fits field) (by decide))

end Fits

theorem packMsv_layout (abi : Abi) (os : AuthOs) (domain user password : WString) (scen : Scenario)
    (packed : Packed) (domainFits : domain.length ≤ 32766) (userFits : user.length ≤ 32766)
    (passwordFits : password.length ≤ 32766)
    (packs : packMsv abi os domain user password scen = some packed) :
    MsvLayout abi scen packed (effectiveDomain domain) user password := by
  have domFits : (effectiveDomain domain).length ≤ 32766 := by
    unfold effectiveDomain
    split
    · decide
    · exact domainFits
  have header := headerSize_le abi scen
  have total : blobSize abi scen (effectiveDomain domain) user password < 2 ^ 32 := by
    unfold blobSize byteCount
    omega
  obtain ⟨_, size, filled⟩ :=
    packMsv_filled packs (Nat.le_of_lt (Nat.lt_of_lt_of_le total (four_gib_le abi)))
  refine filled.layout ?_ fun field => ?_
  · rw [size, UInt32.toNat_ofNat', Nat.mod_eq_of_lt total]
  · cases field with
    | logonDomainName => exact domFits
    | userName => exact userFits
    | password => exact passwordFits

def sampleOs : AuthOs where
  resolveNegotiate := none
  resolveMsv := some 2
  activeConsoleSessionId := 1
  tokenLogonId := some ⟨0x3E7, 0⟩
  computerName := none
  coTaskMemAlloc _ := some 0x10000

theorem packMsv_layout_sample :
    ∃ packed, packMsv .x64 sampleOs [] [0x61] [0x62, 0] .unlock = some packed ∧
      MsvLayout .x64 .unlock packed dot [0x61] [0x62, 0] := by
  have succeeds : (packMsv .x64 sampleOs [] [0x61] [0x62, 0] .unlock).isSome := by decide +kernel
  obtain ⟨packed, packs⟩ := Option.isSome_iff_exists.mp succeeds
  exact ⟨packed, packs, packMsv_layout .x64 sampleOs [] [0x61] [0x62, 0] .unlock packed
    (by decide) (by decide) (by decide) packs⟩

theorem packMsv_isSome (abi : Abi) (os : AuthOs) (domainIn user pass : WString) (scen : Scenario) :
    (packMsv abi os domainIn user pass scen).isSome ↔
      user ≠ [] ∧ os.resolveMsv.isSome ∧ (scen = .unlock → (getConsoleLogonId os).isSome) ∧
        (os.coTaskMemAlloc (blobSize abi scen (effectiveDomain domainIn) user pass)).isSome := by
  cases user with
  | nil => exact iff_of_false Bool.false_ne_true fun named => named.1 rfl
  | cons u user =>
    dsimp only [packMsv, guard]
    cases package : os.resolveMsv with
    | none => simp
    | some pkg =>
      cases scen with
      | logon =>
        simp only [blobSize, headerSize, effectiveDomain, coAllocZero]
        cases os.coTaskMemAlloc _ <;> simp
      | unlock =>
        cases luid : getConsoleLogonId os with
        | none => simp
        | some lid =>
          simp only [blobSize, headerSize, effectiveDomain, coAllocZero]
          cases os.coTaskMemAlloc _ <;> simp

end Dot1xCP.Auth
