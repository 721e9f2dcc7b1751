import Mathlib.Algebra.Order.Ring.Nat
import Mathlib.Data.List.Basic
import Mathlib.Tactic.Common

/-! Numbers and texts as the `printf` family writes them, in UTF-16 units.

A format is the list of what it writes. Its bound is the number of units that no values of
the given sizes exceed; a buffer has to be larger by one, for the terminator.
-/

set_option autoImplicit false

namespace Format

abbrev Text := List UInt16

def units (literal : String) : Text := literal.toList.map fun c => UInt16.ofNat c.toNat

def hexDigit (n : Nat) : UInt16 := UInt16.ofNat (if n < 10 then 0x30 + n else 0x41 + (n - 10))

def hex : Nat → Nat → Text
  | 0, _ => []
  | digits + 1, n => hex digits (n / 16) ++ [hexDigit (n % 16)]

@[simp] theorem length_hex (digits n : Nat) : (hex digits n).length = digits := by
  induction digits generalizing n with
  | zero => rfl
  | succ digits ih => rw [hex, List.length_append, ih, List.length_singleton]

theorem hexDigit_toNat {n : Nat} (small : n < 16) :
    (hexDigit n).toNat = if n < 10 then 0x30 + n else 0x41 + (n - 10) := by
  rw [hexDigit, UInt16.toNat_ofNat']
  split <;> omega

theorem hexDigit_inj {m n : Nat} (small : m < 16) (small' : n < 16) (same : hexDigit m = hexDigit n) :
    m = n := by
  have codes := congrArg UInt16.toNat same
  rw [hexDigit_toNat small, hexDigit_toNat small'] at codes
  split at codes <;> split at codes <;> omega

theorem hex_inj {digits m n : Nat} (fits : m < 16 ^ digits) (fits' : n < 16 ^ digits)
    (same : hex digits m = hex digits n) : m = n := by
  induction digits generalizing m n with
  | zero => omega
  | succ digits ih =>
    obtain ⟨front, last⟩ := List.append_inj' same rfl
    rw [Nat.pow_succ'] at fits fits'
    have high := ih (Nat.div_lt_of_lt_mul fits) (Nat.div_lt_of_lt_mul fits') front
    have low := hexDigit_inj (Nat.mod_lt m (by decide)) (Nat.mod_lt n (by decide))
      (List.singleton_inj.mp last)
    omega

theorem hex_code (digits n : Nat) : ∀ c ∈ hex digits n, 0x30 ≤ c.toNat ∧ c.toNat ≤ 0x46 := by
  induction digits generalizing n with
  | zero => intro c inside; cases inside
  | succ digits ih =>
    intro c inside
    rcases List.mem_append.mp inside with front | last
    · exact ih _ c front
    · cases List.mem_singleton.mp last
      have small := Nat.mod_lt n (show 0 < 16 by decide)
      rw [hexDigit_toNat small]
      split <;> omega

def decimal (n : Nat) : Text := (Nat.toDigits 10 n).map fun c => UInt16.ofNat c.toNat

theorem length_decimal_le {n digits : Nat} (fits : n < 10 ^ digits) (some : 0 < digits) :
    (decimal n).length ≤ digits := by
  rw [decimal, List.length_map]
  exact (Nat.length_toDigits_le_iff (by decide) some).mpr fits

theorem digit_unit {c : Char} (digit : c.isDigit = true) : (UInt16.ofNat c.toNat).toNat = c.toNat := by
  rw [UInt16.toNat_ofNat']
  refine Nat.mod_eq_of_lt (Nat.lt_of_le_of_lt (Char.isDigit_iff_toNat.mp digit).2 ?_)
  decide

/-! ## Formats -/

/-- What a format writes in one place. -/
inductive Piece where
  /-- a literal part, or `%s` -/
  | string (s : Text)
  /-- `%u`, `%lu` -/
  | unsigned (n : UInt32)
  /-- `%d` -/
  | signed (z : Int32)
  /-- `%0<digits>X` of a number of so many digits -/
  | hex (digits n : Nat)
  /-- `%0<width>d` of a `WORD` -/
  | zeros (width : Nat) (n : UInt16)
  deriving DecidableEq, Repr

def Piece.write : Piece → Text
  | .string s => s
  | .unsigned n => decimal n.toNat
  | .signed z => if z.toInt < 0 then 0x2D :: decimal z.toInt.natAbs else decimal z.toInt.natAbs
  | .hex digits n => Format.hex digits n
  | .zeros width n => List.replicate (width - (decimal n.toNat).length) 0x30 ++ decimal n.toNat

def literal (s : String) : Piece := .string (units s)

def write (format : List Piece) : Text := format.flatMap Piece.write

/-- `swprintf_s` into a buffer of so many units; none where it ends the process. -/
def swprintf (size : Nat) (format : List Piece) : Option Text :=
  if (write format).length < size then some (write format) else none

theorem write_append (first second : List Piece) : write (first ++ second) = write first ++ write second :=
  List.flatMap_append

/-- No value makes the piece longer. -/
def Piece.bound : Piece → Nat
  | .string s => s.length
  | .unsigned _ => 10
  | .signed _ => 11
  | .hex digits _ => digits
  | .zeros width _ => max width 5

def bound (format : List Piece) : Nat := (format.map Piece.bound).sum

@[simp] theorem bound_cons (piece : Piece) (format : List Piece) :
    bound (piece :: format) = piece.bound + bound format := List.sum_cons

@[simp] theorem bound_append (first second : List Piece) :
    bound (first ++ second) = bound first + bound second := by
  rw [bound, List.map_append, List.sum_append, ← bound, ← bound]

theorem Piece.length_write_le (piece : Piece) : piece.write.length ≤ piece.bound := by
  cases piece with
  | string s => exact Nat.le_refl _
  | unsigned n =>
    exact @length_decimal_le n.toNat 10 (Nat.lt_trans n.toNat_lt (by decide)) (by decide)
  | signed z =>
    have small : z.toInt.natAbs < 10 ^ 10 := by
      have low := z.le_toInt
      have high := z.toInt_lt
      omega
    have digits := length_decimal_le small (by decide)
    simp only [Piece.write, Piece.bound]
    split
    · rw [List.length_cons]
      omega
    · omega
  | hex digits n => exact Nat.le_of_eq (length_hex digits n)
  | zeros width n =>
    have digits := @length_decimal_le n.toNat 5 (Nat.lt_trans n.toNat_lt (by decide)) (by decide)
    simp only [Piece.write, Piece.bound, List.length_append, List.length_replicate]
    omega

theorem length_write_le (format : List Piece) : (write format).length ≤ bound format := by
  induction format with
  | nil => exact Nat.le_refl _
  | cons piece format ih =>
    rw [write, List.flatMap_cons, List.length_append, bound_cons]
    exact Nat.add_le_add piece.length_write_le ih

def figure (c : UInt16) : Bool := c == 0x2D || (0x30 ≤ c && c ≤ 0x46)

theorem figure_of_code {c : UInt16} (low : 0x30 ≤ c.toNat) (high : c.toNat ≤ 0x46) :
    figure c = true := by
  simp only [figure, Bool.or_eq_true, Bool.and_eq_true, decide_eq_true_eq]
  exact Or.inr ⟨UInt16.le_iff_toNat_le.mpr low, UInt16.le_iff_toNat_le.mpr high⟩

theorem decimal_figure (n : Nat) : ∀ c ∈ decimal n, figure c = true := by
  refine List.forall_mem_map.mpr fun digit inside => ?_
  have isDigit : digit.isDigit = true := Nat.isDigit_of_mem_toDigits (by decide) (by decide) inside
  obtain ⟨low, high⟩ := Char.isDigit_iff_toNat.mp isDigit
  rw [← digit_unit isDigit] at low high
  exact figure_of_code low (Nat.le_trans high (by decide))

section Characters
variable {clean : UInt16 → Bool} (figures : ∀ c, figure c = true → clean c = true)
include figures

theorem Piece.write_clean {piece : Piece} (texts : ∀ s, piece = .string s → s.all clean = true) :
    ∀ c ∈ piece.write, clean c = true := by
  cases piece with
  | string s => exact List.all_eq_true.mp (texts s rfl)
  | unsigned n => exact fun c inside => figures c (decimal_figure _ c inside)
  | signed z =>
    intro c inside
    simp only [Piece.write] at inside
    split at inside
    · rcases List.mem_cons.mp inside with rfl | inside
      · exact figures _ rfl
      · exact figures c (decimal_figure _ c inside)
    · exact figures c (decimal_figure _ c inside)
  | hex digits n =>
    intro c inside
    obtain ⟨low, high⟩ := hex_code digits n c inside
    exact figures c (figure_of_code low high)
  | zeros width n =>
    intro c inside
    rcases List.mem_append.mp inside with zero | inside
    · cases List.eq_of_mem_replicate zero
      exact figures _ rfl
    · exact figures c (decimal_figure _ c inside)

/-- The text parts decide which characters there are besides figures. -/
theorem write_clean {format : List Piece}
    (texts : ∀ s, .string s ∈ format → s.all clean = true) : ∀ c ∈ write format, clean c = true := by
  intro c inside
  obtain ⟨piece, listed, inside⟩ := List.mem_flatMap.mp inside
  exact Piece.write_clean figures (fun s same => texts s (same ▸ listed)) c inside

end Characters

end Format
