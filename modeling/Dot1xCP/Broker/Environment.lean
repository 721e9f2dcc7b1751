import Dot1xCP.Lib.Terminated

/-! The environment of the broker, as `ProviderPipe.cpp` builds it.

A pointer into the parent's block is the suffix of the block that starts there. The
comparison is that of the C locale, where letter case is that of ASCII letters.
-/

set_option autoImplicit false

namespace Dot1xCP.Broker.Environment
open Terminated

def toLower (c : UInt16) : UInt16 := if 0x41 ≤ c ∧ c ≤ 0x5A then c + 0x20 else c

def deref (p : List UInt16) : UInt16 := p.headD 0

def wcslen (p : List UInt16) : Nat := (p.takeWhile (· ≠ 0)).length

/-- The difference of the first characters that differ, letter case aside. -/
def wcsnicmp (p q : List UInt16) : Nat → Int
  | 0 => 0
  | count + 1 =>
    let c := toLower (deref p)
    let d := toLower (deref q)
    if c = 0 ∨ c ≠ d then c.toNat - d.toNat else wcsnicmp p.tail q.tail count

def cpPipe : List UInt16 := [0x43, 0x50, 0x5F, 0x50, 0x49, 0x50, 0x45, 0x3D]

def copyEntries (p envBlock : List UInt16) : List UInt16 :=
  match p with
  | [] => envBlock
  | c :: s =>
    if c = 0 then envBlock
    else
      let len := wcslen (c :: s)
      if wcsnicmp (c :: s) cpPipe 8 = 0 then copyEntries (s.drop len) envBlock
      else copyEntries (s.drop len) (envBlock ++ (c :: s).take (len + 1))
termination_by p.length
decreasing_by all_goals simp only [List.length_cons, List.length_drop]; omega

/-- `none` for `baseEnv` is a failure of `GetEnvironmentStringsW`. -/
def buildChildEnvironmentWithPipe (baseEnv : Option (List UInt16)) (pipeName : List UInt16) :
    Option (List UInt16) :=
  baseEnv.map fun baseEnv =>
    let envBlock := copyEntries baseEnv []
    let envBlock := envBlock ++ (cpPipe ++ pipeName)
    let envBlock := envBlock ++ [0]
    envBlock ++ [0]

def SameLetter (c letter : UInt16) : Prop :=
  c = letter ∨ (0x41 ≤ letter ∧ letter ≤ 0x5A ∧ c = letter + 0x20)

instance (c letter : UInt16) : Decidable (SameLetter c letter) :=
  inferInstanceAs (Decidable (_ ∨ _))

/-- The text starts with `CP_PIPE=` in any letter case. -/
def NamesPipe (text : List UInt16) : Prop := List.Forall₂ SameLetter (text.take 8) cpPipe

instance (text : List UInt16) : Decidable (NamesPipe text) :=
  inferInstanceAs (Decidable (List.Forall₂ _ _ _))

theorem toLower_ne_zero {c : UInt16} (text : c ≠ 0) : toLower c ≠ 0 := by
  unfold toLower
  split
  next upper =>
    rw [UInt16.le_iff_toNat_le, UInt16.le_iff_toNat_le] at upper
    rw [ne_eq, ← UInt16.toNat_inj, UInt16.toNat_add]
    simp only [UInt16.reduceToNat] at upper ⊢
    omega
  next => exact text

theorem toLower_eq_iff {c letter : UInt16} (capital : ¬ (0x61 ≤ letter ∧ letter ≤ 0x7A)) :
    toLower c = toLower letter ↔ SameLetter c letter := by
  unfold toLower SameLetter
  simp only [UInt16.le_iff_toNat_le, UInt16.reduceToNat] at capital ⊢
  split <;> split <;>
    simp only [← UInt16.toNat_inj, UInt16.toNat_add, UInt16.reduceToNat] <;>
    omega

/-- The comparison of a text in a block with capital letters. -/
theorem wcsnicmp_eq_zero {text q : List UInt16} (free : 0 ∉ text)
    (capitals : ∀ letter ∈ q, letter ≠ 0 ∧ ¬ (0x61 ≤ letter ∧ letter ≤ 0x7A)) (s : List UInt16) :
    wcsnicmp (text ++ 0 :: s) q q.length = 0 ↔ List.Forall₂ SameLetter (text.take q.length) q := by
  induction q generalizing text with
  | nil => simp [wcsnicmp]
  | cons letter q ih =>
    obtain ⟨nonzero, capital⟩ := capitals letter List.mem_cons_self
    cases text with
    | nil =>
      -- The text ends before the letters do.
      refine iff_of_false (fun same => ?_) fun all => by cases all
      have ended : wcsnicmp (0 :: s) (letter :: q) (q.length + 1) = 0 - (toLower letter).toNat := rfl
      rw [List.nil_append, List.length_cons, ended] at same
      have positive : (toLower letter).toNat ≠ 0 :=
        fun zero => toLower_ne_zero nonzero (UInt16.toNat_inj.mp zero)
      omega
    | cons c text =>
      have text' : c ≠ 0 := fun zero => free (zero ▸ List.mem_cons_self)
      rw [List.cons_append, List.length_cons, List.take_succ_cons, List.forall₂_cons,
        ← toLower_eq_iff capital]
      by_cases same : toLower c = toLower letter
      · have goesOn : wcsnicmp (c :: (text ++ 0 :: s)) (letter :: q) (q.length + 1) =
            wcsnicmp (text ++ 0 :: s) q q.length := by
          refine if_neg ?_
          rintro (zero | differs)
          · exact toLower_ne_zero text' zero
          · exact differs same
        rw [goesOn, ih (fun inside => free (List.mem_cons_of_mem c inside))
          fun other inside => capitals other (List.mem_cons_of_mem letter inside)]
        exact (and_iff_right same).symm
      · refine iff_of_false (fun zero => ?_) fun both => same both.1
        have ended : wcsnicmp (c :: (text ++ 0 :: s)) (letter :: q) (q.length + 1) =
            (toLower c).toNat - (toLower letter).toNat := if_pos (Or.inr same)
        rw [ended] at zero
        exact same (UInt16.toNat_inj.mp (by omega))

/-! ## The block -/

theorem wcslen_text {text : List UInt16} (free : 0 ∉ text) (s : List UInt16) :
    wcslen (text ++ 0 :: s) = text.length := by
  unfold wcslen
  rw [List.takeWhile_append_of_pos]
  · simp
  · intro c inside
    exact decide_eq_true fun zero => free (zero ▸ inside)

def kept (entries : List (Entry (0 : UInt16))) : List (Entry (0 : UInt16)) :=
  entries.filter fun entry => !decide (NamesPipe entry.text)

theorem cpPipe_capitals : ∀ letter ∈ cpPipe, letter ≠ 0 ∧ ¬ (0x61 ≤ letter ∧ letter ≤ 0x7A) := by
  intro letter listed
  simp only [cpPipe, List.mem_cons, List.not_mem_nil, or_false] at listed
  rcases listed with rfl | rfl | rfl | rfl | rfl | rfl | rfl | rfl <;> decide

theorem copyEntries_entry (entry : Entry (0 : UInt16)) (s envBlock : List UInt16) :
    copyEntries (entry.text ++ 0 :: s) envBlock =
      copyEntries s (if NamesPipe entry.text then envBlock else envBlock ++ (entry.text ++ [0])) := by
  obtain ⟨text, nonempty, free⟩ := entry
  dsimp only
  have compared : wcsnicmp (text ++ 0 :: s) cpPipe 8 = 0 ↔ NamesPipe text :=
    wcsnicmp_eq_zero free cpPipe_capitals s
  have length := wcslen_text free s
  have copied : (text ++ 0 :: s).take (text.length + 1) = text ++ [0] := by
    rw [List.take_append, List.take_of_length_le (Nat.le_succ _), Nat.add_sub_cancel_left]
    rfl
  cases text with
  | nil => exact absurd rfl nonempty
  | cons c text =>
    have visible : c ≠ 0 := fun zero => free (zero ▸ List.mem_cons_self)
    -- The first character has been taken off by the pattern.
    have rest : (text ++ 0 :: s).drop (c :: text).length = s := by
      rw [List.length_cons, ← List.drop_drop, List.drop_left]
      rfl
    rw [List.cons_append] at compared length copied ⊢
    rw [copyEntries, if_neg visible]
    dsimp only
    rw [length, copied, rest]
    by_cases names : NamesPipe (c :: text)
    · rw [if_pos (compared.mpr names), if_pos names]
    · rw [if_neg (mt compared.mp names), if_neg names]

theorem copyEntries_block (entries : List (Entry (0 : UInt16))) (envBlock : List UInt16) :
    copyEntries (block entries) envBlock = envBlock ++ strings (kept entries) := by
  induction entries generalizing envBlock with
  | nil => simp [block, copyEntries, kept]
  | cons entry entries ih =>
    rw [block_cons, copyEntries_entry, ih]
    unfold kept
    by_cases names : NamesPipe entry.text
    · rw [if_pos names, List.filter_cons_of_neg (by simp [names])]
    · rw [if_neg names, List.filter_cons_of_pos (by simp [names]), strings_cons]
      simp

def pipeEntry (pipeName : List UInt16) (free : 0 ∉ pipeName) : Entry (0 : UInt16) where
  text := cpPipe ++ pipeName
  nonempty := List.cons_ne_nil _ _
  free := by
    rw [List.mem_append]
    rintro (inside | inside)
    · exact absurd inside (by decide)
    · exact free inside

theorem buildChildEnvironment_block (entries : List (Entry (0 : UInt16))) {pipeName : List UInt16}
    (free : 0 ∉ pipeName) :
    buildChildEnvironmentWithPipe (some (block entries)) pipeName =
      some (block (kept entries ++ [pipeEntry pipeName free])) := by
  unfold buildChildEnvironmentWithPipe
  rw [Option.map_some, copyEntries_block]
  simp [block, pipeEntry]

theorem decode_kept (entries : List (Entry (0 : UInt16))) {pipeName : List UInt16}
    (free : 0 ∉ pipeName) :
    decode 0 (block (kept entries ++ [pipeEntry pipeName free])) =
      some ((entries.map Entry.text).filter (fun text => !decide (NamesPipe text)) ++
        [cpPipe ++ pipeName]) := by
  rw [decode_block, List.map_append, kept, List.filter_map]
  rfl

/-- The child's block is well formed, and its entries are those of the parent that do not
name the pipe, followed by the one that does. -/
theorem childEnvironment_exact (entries : List (Entry (0 : UInt16))) (pipeName : List UInt16)
    (free : 0 ∉ pipeName) :
    ∃ built : List (Entry (0 : UInt16)),
      buildChildEnvironmentWithPipe (some (block entries)) pipeName = some (block built) ∧
      [0, 0] <:+ block built ∧
      decode 0 (block built) =
        some ((entries.map Entry.text).filter (fun text => !decide (NamesPipe text)) ++
          [cpPipe ++ pipeName]) :=
  ⟨kept entries ++ [pipeEntry pipeName free], buildChildEnvironment_block entries free,
    block_ends _ _, decode_kept entries free⟩

/-- Stale variables in two spellings, around one that only looks like them. -/
theorem childEnvironment_exact_stale :
    ∃ built : List (Entry (0 : UInt16)),
      buildChildEnvironmentWithPipe
          (some ([0x63, 0x70, 0x5F, 0x70, 0x69, 0x70, 0x65, 0x3D, 0x78, 0] ++
            ([0x43, 0x50, 0x5F, 0x50, 0x49, 0x50, 0x45, 0] ++
              ([0x43, 0x50, 0x5F, 0x50, 0x49, 0x50, 0x45, 0x3D, 0] ++ [0])))) [0x70] =
        some (block built) ∧
      decode 0 (block built) = some [[0x43, 0x50, 0x5F, 0x50, 0x49, 0x50, 0x45], cpPipe ++ [0x70]] := by
  obtain ⟨built, same, _, parsed⟩ := childEnvironment_exact
    [⟨[0x63, 0x70, 0x5F, 0x70, 0x69, 0x70, 0x65, 0x3D, 0x78], by decide, by decide⟩,
      ⟨[0x43, 0x50, 0x5F, 0x50, 0x49, 0x50, 0x45], by decide, by decide⟩,
      ⟨cpPipe, by decide, by decide⟩] [0x70] (by decide)
  exact ⟨built, same, parsed⟩

end Dot1xCP.Broker.Environment
