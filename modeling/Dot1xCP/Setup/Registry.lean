import Dot1xCP.Lib.Footprint
import Dot1xCP.Setup.Strings

/-! The registry and the support functions of the script that read and write it.

A value has one place, whichever of its spellings is used. Every call may fail, which
leaves the registry as it is; the script checks no result.
-/

set_option autoImplicit false

namespace Dot1xCP.Setup
open Footprint

inductive View where
  | bits32 | bits64
  deriving DecidableEq, Repr

inductive RootKey where
  | hklm64 | hklm
  deriving DecidableEq, Repr

/-- `ArchitecturesInstallIn64BitMode=x64os`: without a suffix the root is the 64-bit view too. -/
def RootKey.view : RootKey → View
  | .hklm64 => .bits64
  | .hklm => .bits64

structure Location where
  view : View
  subKey : PascalString
  valueName : PascalString
  deriving DecidableEq, Repr

/-- Names of keys and of values are compared without regard to case. -/
def location (rootKey : RootKey) (subKey valueName : PascalString) : Location :=
  ⟨rootKey.view, lowerCase subKey, lowerCase valueName⟩

inductive Value where
  | dword (value : UInt32)
  | string (value : PascalString)
  | other (kind : Nat) (data : List UInt8)
  deriving DecidableEq, Repr

abbrev Registry := Location → Option Value

/-- Whether the call that writes or deletes the value at a location succeeds. -/
abbrev Outcome := Location → Bool

def allSucceed : Outcome := fun _ => true

def put (succeeds : Outcome) (place : Location) (content : Option Value) (registry : Registry) :
    Registry :=
  if succeeds place then Function.update registry place content else registry

section Calls
variable (rootKey : RootKey) (subKey valueName : PascalString)

def regQueryDWordValue (registry : Registry) : Option UInt32 :=
  match registry (location rootKey subKey valueName) with
  | some (.dword value) => some value
  | _ => none

def regQueryStringValue (registry : Registry) : Option PascalString :=
  match registry (location rootKey subKey valueName) with
  | some (.string value) => some value
  | _ => none

def regWriteDWordValue (succeeds : Outcome) (value : UInt32) (registry : Registry) : Registry :=
  put succeeds (location rootKey subKey valueName) (some (.dword value)) registry

def regDeleteValue (succeeds : Outcome) (registry : Registry) : Registry :=
  put succeeds (location rootKey subKey valueName) none registry

end Calls

/-- A key goes with its values and with the keys below it. -/
def deleteKey (rootKey : RootKey) (subKey : PascalString) (registry : Registry) : Registry :=
  fun place =>
    if place.view = rootKey.view ∧
        (place.subKey = lowerCase subKey ∨ lowerCase subKey ++ [0x5C] <+: place.subKey) then none
    else registry place

theorem put_within (succeeds : Outcome) (place : Location) (content : Option Value) :
    Within {place} (put succeeds place content) where
  frame registry other outside := by
    unfold put
    split
    · exact Function.update_of_ne outside _ _
    · rfl
  reads := by
    intro first second same other inside
    cases Set.mem_singleton_iff.mp inside
    unfold put
    split
    · rw [Function.update_self, Function.update_self]
    · exact same inside

@[simp] theorem put_allSucceed (place : Location) (content : Option Value) (registry : Registry) :
    put allSucceed place content registry = Function.update registry place content := rfl

theorem regQueryDWordValue_map {rootKey : RootKey} {subKey valueName : PascalString}
    {registry : Registry} {content : Option UInt32}
    (held : registry (location rootKey subKey valueName) = content.map .dword) :
    regQueryDWordValue rootKey subKey valueName registry = content := by
  rw [regQueryDWordValue, held]
  cases content <;> rfl

theorem regQueryDWordValue_congr {rootKey : RootKey} {subKey valueName : PascalString}
    {first second : Registry}
    (same : first (location rootKey subKey valueName) = second (location rootKey subKey valueName)) :
    regQueryDWordValue rootKey subKey valueName first =
      regQueryDWordValue rootKey subKey valueName second := by
  rw [regQueryDWordValue, same]
  rfl

theorem regQueryStringValue_congr {rootKey : RootKey} {subKey valueName : PascalString}
    {first second : Registry}
    (same : first (location rootKey subKey valueName) = second (location rootKey subKey valueName)) :
    regQueryStringValue rootKey subKey valueName first =
      regQueryStringValue rootKey subKey valueName second := by
  rw [regQueryStringValue, same]
  rfl

theorem deleteKey_frame {rootKey : RootKey} {subKey : PascalString} {place : Location}
    (elsewhere : place.subKey ≠ lowerCase subKey)
    (notBelow : ¬ lowerCase subKey ++ [0x5C] <+: place.subKey) (registry : Registry) :
    deleteKey rootKey subKey registry place = registry place :=
  if_neg fun deleted => deleted.2.elim elsewhere notBelow

theorem deleteKey_own (rootKey : RootKey) (subKey valueName : PascalString) (registry : Registry) :
    deleteKey rootKey subKey registry (location rootKey subKey valueName) = none :=
  if_pos ⟨rfl, .inl rfl⟩

end Dot1xCP.Setup
