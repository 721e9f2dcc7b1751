import Dot1xCP.Lib.Bytes

/-! Credential blobs, as `Serialization.cpp` builds them.

A `std::wstring` is a list of UTF-16 units. A blob is the block that
`CoTaskMemAlloc` returned, its address included: the Kerberos layout stores
addresses, the MSV1_0 layout offsets from the start. `size_t` sums of string
lengths stay below the address space, so they are natural numbers; the casts to
`USHORT` and `DWORD` truncate.
-/

set_option autoImplicit false

namespace Dot1xCP.Auth

abbrev WString := List UInt16

inductive Scenario where
  | logon
  | unlock
  deriving DecidableEq, Repr

inductive Abi where
  | x86
  | x64
  deriving DecidableEq, Repr

def Abi.pointer : Abi → Nat
  | .x86 => 4
  | .x64 => 8

structure Luid where
  lowPart : UInt32
  highPart : UInt32
  deriving DecidableEq, Repr

def Luid.bytes (luid : Luid) : List UInt8 :=
  Bytes.littleEndian 4 luid.lowPart.toNat ++ Bytes.littleEndian 4 luid.highPart.toNat

/-- What the calls out of the file answer. -/
structure AuthOs where
  resolveNegotiate : Option UInt32
  resolveMsv : Option UInt32
  activeConsoleSessionId : UInt32
  tokenLogonId : Option Luid
  computerName : Option WString
  coTaskMemAlloc : Nat → Option Nat

structure Blob where
  address : Nat
  bytes : List UInt8
  deriving DecidableEq, Repr

structure Packed where
  blob : Blob
  size : UInt32
  authPkg : UInt32
  deriving DecidableEq, Repr

def coAllocZero (os : AuthOs) (cb : Nat) : Option Blob :=
  (os.coTaskMemAlloc cb).map fun address => ⟨address, List.replicate cb 0⟩

def Blob.memcpy (blob : Blob) (dest : Nat) (data : List UInt8) : Blob :=
  { blob with bytes := Bytes.writeAt blob.bytes (dest - blob.address) data }

structure UnicodeString where
  length : UInt16
  maximumLength : UInt16
  buffer : Nat
  deriving DecidableEq, Repr

def sizeofUnicodeString (abi : Abi) : Nat := 2 * abi.pointer

/-- The fields of `KERB_INTERACTIVE_LOGON` and `MSV1_0_INTERACTIVE_LOGON`, which
agree: a message type padded to a pointer, then three strings. -/
inductive Field where
  | logonDomainName
  | userName
  | password
  deriving DecidableEq, Repr

def Field.offset (abi : Abi) : Field → Nat
  | .logonDomainName => abi.pointer
  | .userName => 3 * abi.pointer
  | .password => 5 * abi.pointer

def sizeofInteractiveLogon (abi : Abi) : Nat := 7 * abi.pointer

def sizeofUnlockLogon (abi : Abi) : Nat := 7 * abi.pointer + 8

def headerSize (abi : Abi) : Scenario → Nat
  | .logon => sizeofInteractiveLogon abi
  | .unlock => sizeofUnlockLogon abi

def fillUS (abi : Abi) (blob : Blob) (us : Nat) (buf : Nat) (bytesNoNull bytesWithNull : UInt16) :
    Blob :=
  let blob := blob.memcpy (us + abi.pointer) (Bytes.littleEndian abi.pointer buf)
  let blob := blob.memcpy us (Bytes.littleEndian 2 bytesNoNull.toNat)
  blob.memcpy (us + 2) (Bytes.littleEndian 2 bytesWithNull.toNat)

def getConsoleLogonId (os : AuthOs) : Option Luid :=
  if os.activeConsoleSessionId = 0xFFFFFFFF then none else os.tokenLogonId

def dot : WString := [0x2E]

def localMachineName (os : AuthOs) : WString := os.computerName.getD dot

def kerbInteractiveLogon : Nat := 2
def kerbWorkstationUnlockLogon : Nat := 7
def msV1_0InteractiveLogon : Nat := 2
def msV1_0WorkstationUnlockLogon : Nat := 7

def byteCount (s : WString) : Nat := (s.length + 1) * 2

def cStr (s : WString) : List UInt8 := Bytes.unitBytes (s ++ [0])

def copyStrings (blob : Blob) (cbH : Nat) (dom user pass : WString) : Blob :=
  let p := blob.address + cbH
  let blob := blob.memcpy p (cStr dom)
  let p := p + byteCount dom
  let blob := blob.memcpy p (cStr user)
  let p := p + byteCount user
  blob.memcpy p (cStr pass)

def fillHeader (abi : Abi) (blob : Blob) (messageType d u w : Nat) (dom user pass : WString) : Blob :=
  let bD_no := UInt16.ofNat (dom.length * 2)
  let bU_no := UInt16.ofNat (user.length * 2)
  let bP_no := UInt16.ofNat (pass.length * 2)
  let bD_w := UInt16.ofNat (byteCount dom)
  let bU_w := UInt16.ofNat (byteCount user)
  let bP_w := UInt16.ofNat (byteCount pass)
  let blob := blob.memcpy blob.address (Bytes.littleEndian 4 messageType)
  let blob := fillUS abi blob (blob.address + Field.logonDomainName.offset abi) d bD_no bD_w
  let blob := fillUS abi blob (blob.address + Field.userName.offset abi) u bU_no bU_w
  fillUS abi blob (blob.address + Field.password.offset abi) w bP_no bP_w

/-- What the four branches share, where `pointer` turns the address of a copy into
what is stored in its `Buffer`. -/
def fillLogon (abi : Abi) (blob : Blob) (cbH messageType : Nat) (pointer : Nat → Nat)
    (dom user pass : WString) : Blob :=
  let d := blob.address + cbH
  let u := d + byteCount dom
  let w := u + byteCount user
  fillHeader abi (copyStrings blob cbH dom user pass) messageType (pointer d) (pointer u) (pointer w)
    dom user pass

def packKerb (abi : Abi) (os : AuthOs) (domainIn user pass : WString) (scen : Scenario) :
    Option Packed := do
  guard (!user.isEmpty)
  let pkg ← os.resolveNegotiate
  let dom := if domainIn.isEmpty || domainIn == dot then localMachineName os else domainIn
  match scen with
  | .logon =>
    let cbH := sizeofInteractiveLogon abi
    let cbT := cbH + byteCount dom + byteCount user + byteCount pass
    let blob ← coAllocZero os cbT
    let blob := fillLogon abi blob cbH kerbInteractiveLogon id dom user pass
    return { blob := blob, size := UInt32.ofNat cbT, authPkg := pkg }
  | .unlock =>
    let lid ← getConsoleLogonId os
    let cbH := sizeofUnlockLogon abi
    let cbT := cbH + byteCount dom + byteCount user + byteCount pass
    let blob ← coAllocZero os cbT
    let blob := fillLogon abi blob cbH kerbWorkstationUnlockLogon id dom user pass
    let blob := blob.memcpy (blob.address + sizeofInteractiveLogon abi) lid.bytes
    return { blob := blob, size := UInt32.ofNat cbT, authPkg := pkg }

def packMsv (abi : Abi) (os : AuthOs) (domainIn user pass : WString) (scen : Scenario) :
    Option Packed := do
  guard (!user.isEmpty)
  let pkg ← os.resolveMsv
  let dom := if domainIn.isEmpty then dot else domainIn
  match scen with
  | .logon =>
    let cbH := sizeofInteractiveLogon abi
    let cbT := cbH + byteCount dom + byteCount user + byteCount pass
    let blob ← coAllocZero os cbT
    let blob := fillLogon abi blob cbH msV1_0InteractiveLogon (· - blob.address) dom user pass
    return { blob := blob, size := UInt32.ofNat cbT, authPkg := pkg }
  | .unlock =>
    let lid ← getConsoleLogonId os
    let cbH := sizeofUnlockLogon abi
    let cbT := cbH + byteCount dom + byteCount user + byteCount pass
    let blob ← coAllocZero os cbT
    let blob := fillLogon abi blob cbH msV1_0WorkstationUnlockLogon (· - blob.address) dom user pass
    let blob := blob.memcpy (blob.address + sizeofInteractiveLogon abi) lid.bytes
    return { blob := blob, size := UInt32.ofNat cbT, authPkg := pkg }

def packAutoEx (abi : Abi) (os : AuthOs) (domain user password : WString) (scen : Scenario) :
    Option Packed :=
  if domain.isEmpty || domain == dot then packMsv abi os domain user password scen
  else packKerb abi os domain user password scen

end Dot1xCP.Auth
