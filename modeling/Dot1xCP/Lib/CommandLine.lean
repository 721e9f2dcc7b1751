import Mathlib.Data.List.Basic
import Mathlib.Tactic.Common

/-! Command lines, and the arguments that the start-up code of a program finds in them.

The rules are those of the C run-time library. The name of the program ends at a blank
outside quotation marks and knows no backslashes. Of the other arguments, 2n backslashes
before a quotation mark stand for n of them, an odd one more for the mark itself; other
backslashes stand for themselves, and inside quotation marks two marks stand for one.
-/

set_option autoImplicit false

namespace CommandLine

/-- The characters with a meaning of their own. -/
structure Signs (α : Type) where
  blank : α → Bool
  quote : α
  backslash : α
  quote_visible : blank quote = false
  backslash_visible : blank backslash = false
  quote_ne : quote ≠ backslash

section Parse
variable {α : Type} [DecidableEq α] (signs : Signs α)

def ended (begun : Option (List α)) (slashes : Nat) : List (List α) :=
  (begun.map (· ++ List.replicate slashes signs.backslash)).toList

def arguments (quoted : Bool) (slashes : Nat) (begun : Option (List α)) : List α → List (List α)
  | [] => ended signs begun slashes
  | c :: s =>
    let text := begun.getD []
    if c = signs.backslash then arguments quoted (slashes + 1) (some text) s
    else if c = signs.quote then
      let text := text ++ List.replicate (slashes / 2) signs.backslash
      if slashes % 2 = 1 then arguments quoted 0 (some (text ++ [signs.quote])) s
      else
        match quoted, s with
        | false, s => arguments true 0 (some text) s
        | true, [] => [text]
        | true, d :: s =>
          if d = signs.quote then arguments true 0 (some (text ++ [signs.quote])) s
          else arguments false 0 (some text) (d :: s)
    else if signs.blank c && !quoted then ended signs begun slashes ++ arguments false 0 none s
    else arguments quoted 0 (some (text ++ List.replicate slashes signs.backslash ++ [c])) s

/-- The name of the program and what is left of the line. -/
def programName (quoted : Bool) : List α → List α × List α
  | [] => ([], [])
  | c :: s =>
    if c = signs.quote then programName (!quoted) s
    else if signs.blank c && !quoted then ([], s)
    else ((c :: (programName quoted s).1), (programName quoted s).2)

def parse (line : List α) : List (List α) :=
  (programName signs false line).1 :: arguments signs false 0 none (programName signs false line).2

variable {signs} {s text word : List α} {quoted : Bool}

theorem arguments_end (quoted : Bool) (text : List α) :
    arguments signs quoted 0 (some text) [] = [text] := by
  rw [arguments, ended, List.replicate_zero, Option.map_some, List.append_nil]
  rfl

theorem programName_quoted (free : signs.quote ∉ text) {b : α} (blank : signs.blank b = true) :
    programName signs false (signs.quote :: (text ++ signs.quote :: b :: s)) = (text, s) := by
  have inside (rest : List α) : programName signs true (text ++ rest) =
      (text ++ (programName signs true rest).1, (programName signs true rest).2) := by
    induction text with
    | nil => rfl
    | cons c text ih =>
      have other : c ≠ signs.quote := fun same => free (same ▸ List.mem_cons_self)
      rw [List.cons_append, programName, if_neg other, Bool.not_true, Bool.and_false,
        if_neg Bool.false_ne_true, ih fun inside => free (List.mem_cons_of_mem c inside)]
      rfl
  have visible : b ≠ signs.quote := by
    rintro rfl
    rw [signs.quote_visible] at blank
    cases blank
  rw [programName, if_pos rfl, Bool.not_false, inside, programName, if_pos rfl, Bool.not_true,
    programName, if_neg visible, blank, Bool.not_false, Bool.and_true, if_pos rfl, List.append_nil]

/-- The text ends with no backslash, so the backslashes after it are all that end it. -/
def Tidy (signs : Signs α) (text : List α) : Prop := text.getLast? ≠ some signs.backslash

theorem arguments_word (free : signs.quote ∉ word)
    (solid : ∀ c ∈ word, (signs.blank c && !quoted) = false) (slashes : Nat)
    (tidy : Tidy signs text) :
    ∃ text' slashes', Tidy signs text' ∧
      text' ++ List.replicate slashes' signs.backslash =
        text ++ List.replicate slashes signs.backslash ++ word ∧
      arguments signs quoted slashes (some text) (word ++ s) =
        arguments signs quoted slashes' (some text') s := by
  induction word generalizing text slashes with
  | nil => exact ⟨text, slashes, tidy, (List.append_nil _).symm, rfl⟩
  | cons c word ih =>
    have free' : signs.quote ∉ word := fun inside => free (List.mem_cons_of_mem c inside)
    have solid' := fun d (inside : d ∈ word) => solid d (List.mem_cons_of_mem c inside)
    by_cases slash : c = signs.backslash
    · obtain ⟨text', slashes', tidy', same, read⟩ := ih free' solid' (slashes + 1) tidy
      refine ⟨text', slashes', tidy', ?_, ?_⟩
      · rw [same, List.replicate_succ', slash]
        simp only [List.append_assoc, List.singleton_append]
      · rw [← read, List.cons_append, arguments, if_pos slash, Option.getD_some]
    · have other : c ≠ signs.quote := fun same => free (same ▸ List.mem_cons_self)
      have tidy' : Tidy signs (text ++ List.replicate slashes signs.backslash ++ [c]) := by
        rw [Tidy, List.getLast?_concat]
        exact fun same => slash (Option.some_inj.mp same)
      obtain ⟨text', slashes', tidy'', same, read⟩ := ih free' solid' 0 tidy'
      refine ⟨text', slashes', tidy'', ?_, ?_⟩
      · rw [same]
        simp only [List.replicate_zero, List.append_nil, List.append_assoc, List.singleton_append]
      · rw [← read, List.cons_append, arguments, if_neg slash, if_neg other,
          solid c List.mem_cons_self, if_neg Bool.false_ne_true, Option.getD_some]

theorem arguments_begin {c : α} (visible : signs.blank c = false) :
    arguments signs false 0 none (c :: s) = arguments signs false 0 (some []) (c :: s) := by
  rw [arguments, arguments]
  simp only [visible, Bool.false_and, Bool.false_eq_true, if_false, Option.getD_none, Option.getD_some]

omit [DecidableEq α] in
theorem tidy_nil : Tidy signs ([] : List α) := by simp [Tidy]

omit [DecidableEq α] in
theorem solid_of_all (visible : (word.all fun c => !signs.blank c) = true) :
    ∀ c ∈ word, signs.blank c = false := by
  intro c inside
  exact Bool.not_eq_true' _ |>.mp (List.all_eq_true.mp visible c inside)

/-- A word without blanks and quotation marks, up to the blank or the end behind it, is one
argument, whatever backslashes it has. -/
theorem arguments_plain (filled : word ≠ []) (free : signs.quote ∉ word)
    (solid : ∀ c ∈ word, signs.blank c = false) :
    arguments signs false 0 none word = [word] ∧
      ∀ b s, signs.blank b = true →
        arguments signs false 0 none (word ++ b :: s) = word :: arguments signs false 0 none s := by
  have solid' : ∀ c ∈ word, (signs.blank c && !false) = false := by
    intro c inside
    rw [solid c inside, Bool.false_and]
  have read (s : List α) : ∃ text' slashes',
      text' ++ List.replicate slashes' signs.backslash = word ∧
        arguments signs false 0 none (word ++ s) = arguments signs false slashes' (some text') s := by
    obtain ⟨text', slashes', _, same, read⟩ :=
      @arguments_word _ _ signs s [] word false free solid' 0 tidy_nil
    refine ⟨text', slashes', same, ?_⟩
    rw [← read]
    obtain ⟨c, rest, rfl⟩ := List.exists_cons_of_ne_nil filled
    exact arguments_begin (solid c List.mem_cons_self)
  refine ⟨?_, fun b s blank => ?_⟩
  · obtain ⟨text', slashes', same, read⟩ := read []
    rw [List.append_nil] at read
    rw [read, arguments, ended, Option.map_some, same]
    rfl
  · obtain ⟨text', slashes', same, read⟩ := read (b :: s)
    have unquoted : b ≠ signs.quote := by
      rintro rfl
      rw [signs.quote_visible] at blank
      cases blank
    have unslashed : b ≠ signs.backslash := by
      rintro rfl
      rw [signs.backslash_visible] at blank
      cases blank
    rw [read, arguments, if_neg unslashed, if_neg unquoted, blank, Bool.not_false, Bool.and_true,
      if_pos rfl, ended, Option.map_some, same]
    rfl

omit [DecidableEq α] in
/-- A tidy text is what is left of one without the backslashes at its end. -/
theorem slashes_eq_zero {text' : List α} {slashes : Nat} (tidy : Tidy signs text')
    (same : text' ++ List.replicate slashes signs.backslash = word) :
    slashes = 0 ↔ Tidy signs word := by
  cases slashes with
  | zero =>
    rw [List.replicate_zero, List.append_nil] at same
    exact iff_of_true rfl (same ▸ tidy)
  | succ n =>
    refine iff_of_false (Nat.succ_ne_zero n) ?_
    rw [← same, List.replicate_succ', ← List.append_assoc, Tidy, List.getLast?_concat]
    exact fun other => other rfl

omit [DecidableEq α] in
theorem halved_ne {text' : List α} {slashes : Nat} (nonzero : slashes ≠ 0) :
    text' ++ List.replicate (slashes / 2) signs.backslash ≠
      text' ++ List.replicate slashes signs.backslash := by
  intro same
  have length := congrArg List.length same
  simp only [List.length_append, List.length_replicate] at length
  omega

/-- A text without quotation marks that is put between two of them, behind `lead`, is read
back exactly if no backslash stands before the second mark. -/
theorem arguments_quoted {lead : List α} (filled : lead ≠ []) (leadFree : signs.quote ∉ lead)
    (solid : ∀ c ∈ lead, signs.blank c = false) (leadTidy : Tidy signs lead)
    (free : signs.quote ∉ text) :
    arguments signs false 0 none (lead ++ signs.quote :: (text ++ [signs.quote])) = [lead ++ text] ↔
      text.getLast? ≠ some signs.backslash := by
  have opened : arguments signs false 0 none (lead ++ signs.quote :: (text ++ [signs.quote])) =
      arguments signs true 0 (some lead) (text ++ [signs.quote]) := by
    obtain ⟨text', slashes', tidy', same, read⟩ :=
      @arguments_word _ _ signs (signs.quote :: (text ++ [signs.quote])) [] lead false leadFree
        (fun c inside => by rw [solid c inside, Bool.false_and]) 0 tidy_nil
    have zero := (slashes_eq_zero tidy' same).mpr leadTidy
    rw [zero, List.replicate_zero, List.append_nil] at same
    change text' = lead at same
    rw [zero, same] at read
    obtain ⟨c, rest, rfl⟩ := List.exists_cons_of_ne_nil filled
    rw [List.cons_append, arguments_begin (solid c List.mem_cons_self), ← List.cons_append, read, arguments,
      if_neg signs.quote_ne, if_pos rfl, Option.getD_some, List.replicate_zero, List.append_nil]
    rfl
  obtain ⟨text', slashes', tidy', same, read⟩ :=
    @arguments_word _ _ signs [signs.quote] lead text true free
      (fun c _ => by rw [Bool.not_true, Bool.and_false]) 0 leadTidy
  rw [List.replicate_zero, List.append_nil] at same
  have last : Tidy signs (lead ++ text) ↔ text.getLast? ≠ some signs.backslash := by
    rcases List.eq_nil_or_concat text with rfl | ⟨front, c, rfl⟩
    · rw [List.append_nil]
      exact iff_of_true leadTidy (by simp)
    · rw [Tidy, List.concat_eq_append, ← List.append_assoc, List.getLast?_concat, List.getLast?_concat]
  rw [opened, read, ← last, ← slashes_eq_zero tidy' same, arguments, if_neg signs.quote_ne, if_pos rfl,
    Option.getD_some]
  constructor
  · intro parsed
    by_contra nonzero
    split at parsed
    next odd =>
      -- The mark is the last character of the argument, where the text ends with a backslash.
      dsimp only at parsed
      rw [arguments_end] at parsed
      have equal := congrArg List.getLast? ((List.singleton_inj.mp parsed).trans same.symm)
      obtain ⟨n, rfl⟩ := Nat.exists_eq_succ_of_ne_zero nonzero
      rw [@List.replicate_succ' n, ← List.append_assoc, List.getLast?_concat,
        List.getLast?_concat] at equal
      exact signs.quote_ne (Option.some_inj.mp equal)
    next even =>
      exact halved_ne nonzero ((List.singleton_inj.mp parsed).trans same.symm)
  · intro zero
    rw [zero, List.replicate_zero, List.append_nil] at same
    rw [zero, same]
    simp

end Parse

theorem mark_ne : (0x22 : UInt16) ≠ 0x5C := by decide

def windows : Signs UInt16 where
  blank c := c == 0x20 || c == 0x09
  quote := 0x22
  backslash := 0x5C
  quote_visible := rfl
  backslash_visible := rfl
  quote_ne := mark_ne

end CommandLine
