import Mathlib.Algebra.Group.Nat.Defs
import Mathlib.Data.List.Basic
import Mathlib.Tactic.Common

/-! Flat memory: a list of bytes, written and read in ranges.

A write inside the memory keeps its length, is read back from its own range, and
is invisible to every range disjoint from it. Numbers and UTF-16 units are stored
in little-endian order.
-/

set_option autoImplicit false

namespace Bytes

def readAt (mem : List UInt8) (offset count : Nat) : List UInt8 := (mem.drop offset).take count

def writeAt (mem : List UInt8) (offset : Nat) (data : List UInt8) : List UInt8 :=
  mem.take offset ++ (data ++ mem.drop (offset + data.length))

section Ranges
variable {mem data : List UInt8} {offset : Nat}

theorem length_writeAt (fits : offset + data.length ≤ mem.length) :
    (writeAt mem offset data).length = mem.length := by
  simp only [writeAt, List.length_append, List.length_take, List.length_drop]
  omega

theorem length_readAt_le (mem : List UInt8) (offset count : Nat) :
    (readAt mem offset count).length ≤ count := by
  rw [readAt, List.length_take]
  exact Nat.min_le_left _ _

theorem getElem?_readAt (mem : List UInt8) (offset count i : Nat) :
    (readAt mem offset count)[i]? = if i < count then mem[offset + i]? else none := by
  rw [readAt, List.getElem?_take, List.getElem?_drop]

theorem getElem?_writeAt (fits : offset + data.length ≤ mem.length) (i : Nat) :
    (writeAt mem offset data)[i]? =
      if offset ≤ i ∧ i < offset + data.length then data[i - offset]? else mem[i]? := by
  have taken : (mem.take offset).length = offset := List.length_take_of_le (by omega)
  rw [writeAt, List.getElem?_append, taken, List.getElem?_append]
  split
  next before => rw [List.getElem?_take_of_lt before, if_neg (by omega)]
  next reached =>
    split
    next inside => rw [if_pos (by omega)]
    next behind =>
      rw [List.getElem?_drop, if_neg (by omega)]
      congr 1
      omega

theorem readAt_writeAt_inside (fits : offset + data.length ≤ mem.length) (start count : Nat)
    (inside : start + count ≤ data.length) :
    readAt (writeAt mem offset data) (offset + start) count = readAt data start count := by
  apply List.ext_getElem?
  intro i
  rw [getElem?_readAt, getElem?_readAt, getElem?_writeAt fits]
  split
  next short =>
    rw [if_pos (by omega)]
    congr 1
    omega
  next => rfl

theorem readAt_writeAt_self (fits : offset + data.length ≤ mem.length) :
    readAt (writeAt mem offset data) offset data.length = data := by
  have whole := readAt_writeAt_inside fits 0 data.length (by omega)
  simpa [readAt] using whole

/-- A range disjoint from a write reads what it read before. -/
theorem readAt_writeAt_disjoint (fits : offset + data.length ≤ mem.length) {start count : Nat}
    (disjoint : start + count ≤ offset ∨ offset + data.length ≤ start) :
    readAt (writeAt mem offset data) start count = readAt mem start count := by
  apply List.ext_getElem?
  intro i
  rw [getElem?_readAt, getElem?_readAt, getElem?_writeAt fits]
  split
  next short => rw [if_neg (by omega)]
  next => rfl

theorem readAt_readAt (mem : List UInt8) {offset count start inner : Nat}
    (inside : start + inner ≤ count) :
    readAt (readAt mem offset count) start inner = readAt mem (offset + start) inner := by
  apply List.ext_getElem?
  intro i
  simp only [getElem?_readAt]
  split
  next short => rw [if_pos (by omega), Nat.add_assoc]
  next => rfl

end Ranges

/-! ## Numbers -/

/-- The low `width` bytes of a number, least significant first. -/
def littleEndian : Nat → Nat → List UInt8
  | 0, _ => []
  | width + 1, value => UInt8.ofNat value :: littleEndian width (value / 256)

def ofLittleEndian : List UInt8 → Nat
  | [] => 0
  | byte :: bytes => byte.toNat + 256 * ofLittleEndian bytes

@[simp] theorem length_littleEndian (width value : Nat) :
    (littleEndian width value).length = width := by
  induction width generalizing value with
  | zero => rfl
  | succ width ih => simp [littleEndian, ih]

theorem ofLittleEndian_littleEndian (width value : Nat) :
    ofLittleEndian (littleEndian width value) = value % 256 ^ width := by
  induction width generalizing value with
  | zero => simp [littleEndian, ofLittleEndian, Nat.mod_one]
  | succ width ih =>
    have head : (UInt8.ofNat value).toNat = value % 256 := UInt8.toNat_ofNat'
    rw [littleEndian, ofLittleEndian, ih, head, Nat.pow_succ', Nat.mod_mul]

theorem ofLittleEndian_of_lt {width value : Nat} (small : value < 256 ^ width) :
    ofLittleEndian (littleEndian width value) = value := by
  rw [ofLittleEndian_littleEndian, Nat.mod_eq_of_lt small]

def unitBytes (units : List UInt16) : List UInt8 := units.flatMap fun unit => littleEndian 2 unit.toNat

def ofUnitBytes : List UInt8 → List UInt16
  | low :: high :: rest => UInt16.ofNat (ofLittleEndian [low, high]) :: ofUnitBytes rest
  | _ => []

@[simp] theorem unitBytes_cons (unit : UInt16) (units : List UInt16) :
    unitBytes (unit :: units) = littleEndian 2 unit.toNat ++ unitBytes units := rfl

@[simp] theorem unitBytes_append (first rest : List UInt16) :
    unitBytes (first ++ rest) = unitBytes first ++ unitBytes rest := List.flatMap_append

@[simp] theorem length_unitBytes (units : List UInt16) :
    (unitBytes units).length = 2 * units.length := by
  induction units with
  | nil => rfl
  | cons unit units ih =>
    rw [unitBytes_cons, List.length_append, length_littleEndian, ih, List.length_cons]
    omega

@[simp] theorem ofUnitBytes_unitBytes (units : List UInt16) : ofUnitBytes (unitBytes units) = units := by
  induction units with
  | nil => rfl
  | cons unit units ih =>
    have value : ofLittleEndian (littleEndian 2 unit.toNat) = unit.toNat :=
      ofLittleEndian_of_lt unit.toNat_lt
    change UInt16.ofNat (ofLittleEndian (littleEndian 2 unit.toNat)) :: ofUnitBytes (unitBytes units) =
      unit :: units
    rw [value, ih, UInt16.ofNat_toNat]

theorem length_ofUnitBytes_le (bytes : List UInt8) : 2 * (ofUnitBytes bytes).length ≤ bytes.length := by
  fun_induction ofUnitBytes bytes with
  | case1 low high rest ih =>
    simp only [List.length_cons]
    omega
  | case2 => simp

end Bytes
