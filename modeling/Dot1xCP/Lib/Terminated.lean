import Mathlib.Data.List.Basic
import Mathlib.Tactic.Common

/-! Sequences of terminated texts that end with an empty one.

The layout is that of an environment block: each text is followed by the terminator, and
a further terminator ends the block. A text is not empty and does not contain the
terminator, so a block is read back in one way.
-/

set_option autoImplicit false

namespace Terminated

structure Entry {α : Type} (nul : α) where
  text : List α
  nonempty : text ≠ []
  free : nul ∉ text

section Block
variable {α : Type} {nul : α}

def strings (entries : List (Entry nul)) : List α := entries.flatMap fun entry => entry.text ++ [nul]

def block (entries : List (Entry nul)) : List α := strings entries ++ [nul]

@[simp] theorem strings_nil : strings ([] : List (Entry nul)) = [] := rfl

@[simp] theorem strings_cons (entry : Entry nul) (entries : List (Entry nul)) :
    strings (entry :: entries) = entry.text ++ nul :: strings entries := by
  simp [strings]

@[simp] theorem strings_append (first second : List (Entry nul)) :
    strings (first ++ second) = strings first ++ strings second := List.flatMap_append

theorem block_cons (entry : Entry nul) (entries : List (Entry nul)) :
    block (entry :: entries) = entry.text ++ nul :: block entries := by
  simp [block]

theorem block_ends (entries : List (Entry nul)) (last : Entry nul) :
    [nul, nul] <:+ block (entries ++ [last]) := by
  refine ⟨strings entries ++ last.text, ?_⟩
  simp [block]

variable [DecidableEq α]

/-- Reads a block, the text begun so far in hand. Nothing may follow the empty text. -/
def decodeFrom (nul : α) (text : List α) : List α → Option (List (List α))
  | [] => none
  | c :: s =>
    if c = nul then
      if text = [] then if s = [] then some [] else none
      else (decodeFrom nul [] s).map (text :: ·)
    else decodeFrom nul (text ++ [c]) s

def decode (nul : α) (s : List α) : Option (List (List α)) := decodeFrom nul [] s

theorem decodeFrom_text {text : List α} (free : nul ∉ text) (before s : List α) :
    decodeFrom nul before (text ++ s) = decodeFrom nul (before ++ text) s := by
  induction text generalizing before with
  | nil => rw [List.nil_append, List.append_nil]
  | cons c text ih =>
    have other : c ≠ nul := fun same => free (same ▸ List.mem_cons_self)
    rw [List.cons_append, decodeFrom, if_neg other,
      ih fun inside => free (List.mem_cons_of_mem c inside), List.append_assoc, List.singleton_append]

/-- What was written as a block is read back. -/
theorem decode_block (entries : List (Entry nul)) :
    decode nul (block entries) = some (entries.map Entry.text) := by
  unfold decode
  induction entries with
  | nil => simp [block, decodeFrom]
  | cons entry entries ih =>
    rw [block_cons, decodeFrom_text entry.free, List.nil_append, decodeFrom, if_pos rfl,
      if_neg entry.nonempty, ih]
    rfl

end Block

end Terminated
