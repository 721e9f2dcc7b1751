import Dot1xCP.Broker.Environment
import Dot1xCP.Lib.CommandLine
import Dot1xCP.Lib.Format
import Mathlib.Data.List.Forall2

/-! The name of the pipe, and the two ways by which `LaunchBroker` tells it to the broker.

Strings are lists of UTF-16 units. The start-up code of the broker reads the command line by
the rules of the C run-time library, and the environment as the block it is given.
-/

set_option autoImplicit false

namespace Dot1xCP.Broker.PipeName
open CommandLine Environment Format Terminated

@[ext] structure Guid where
  data1 : UInt32
  data2 : UInt16
  data3 : UInt16
  data4 : Vector UInt8 8
  deriving DecidableEq, Repr

def hexBytes (bytes : List UInt8) : List UInt16 := bytes.flatMap fun b => hex 2 b.toNat

/-- `StringFromGUID2`: `{8-4-4-4-12}` -/
def stringFromGUID2 (g : Guid) : List UInt16 :=
  [0x7B] ++ hex 8 g.data1.toNat ++ [0x2D] ++ hex 4 g.data2.toNat ++ [0x2D] ++ hex 4 g.data3.toNat ++
    [0x2D] ++ hexBytes (g.data4.toList.take 2) ++ [0x2D] ++ hexBytes (g.data4.toList.drop 2) ++ [0x7D]

def pipeRoot : List UInt16 := [0x5C, 0x5C, 0x2E, 0x5C, 0x70, 0x69, 0x70, 0x65, 0x5C]

def family : List UInt16 := [0x63, 0x70, 0x2E, 0x64, 0x6F, 0x74, 0x31, 0x78, 0x2E]

/-- What the system answers: a GUID unless `CoCreateGuid` fails, whether it is written as a
text, and the tick counts that stand in for it. -/
structure PipeNameOs where
  coCreateGuid : Option Guid
  stringFromGUID2 : Bool
  tickCount : UInt64

/-- The loop over the suffix: `{`, `}` and `-` become `_`. -/
def replaced (ch : UInt16) : UInt16 :=
  if ch = 0x7B ∨ ch = 0x7D ∨ ch = 0x2D then 0x5F else ch

def fallbackName (t : UInt64) : List UInt16 := pipeRoot ++ family ++ hex 16 t.toNat

def makePipeName (os : PipeNameOs) : List UInt16 :=
  match os.coCreateGuid with
  | none => fallbackName os.tickCount
  | some g =>
    if os.stringFromGUID2 then pipeRoot ++ family ++ (stringFromGUID2 g).map replaced
    else fallbackName os.tickCount

def brokerPath : List UInt16 :=
  [0x43, 0x3A, 0x5C, 0x50, 0x72, 0x6F, 0x67, 0x72, 0x61, 0x6D, 0x20, 0x46, 0x69, 0x6C, 0x65, 0x73, 0x5C,
    0x44, 0x6F, 0x74, 0x31, 0x78, 0x43, 0x50, 0x5C, 0x42, 0x72, 0x6F, 0x6B, 0x65, 0x72, 0x5C,
    0x44, 0x6F, 0x74, 0x31, 0x78, 0x42, 0x72, 0x6F, 0x6B, 0x65, 0x72, 0x2E, 0x65, 0x78, 0x65]

def pipeOption : List UInt16 := [0x2D, 0x2D, 0x70, 0x69, 0x70, 0x65]

def launchCommand (pipeName : List UInt16) : List UInt16 :=
  [0x22] ++ brokerPath ++ [0x22, 0x20] ++ pipeOption ++ [0x20] ++ pipeName

/-- A character without a meaning to the pipe file system, to the environment and to the
command line. -/
def Ordinary (c : UInt16) : Prop := 0x2E ≤ c.toNat ∧ c ≠ 0x5C

instance (c : UInt16) : Decidable (Ordinary c) := inferInstanceAs (Decidable (_ ∧ _))

theorem hex_ordinary (digits n : Nat) : ∀ c ∈ hex digits n, Ordinary c := by
  intro c inside
  obtain ⟨low, high⟩ := hex_code digits n c inside
  refine ⟨Nat.le_trans (by decide) low, ?_⟩
  rintro rfl
  exact absurd high (by decide)

theorem hexBytes_ordinary (bytes : List UInt8) : ∀ c ∈ hexBytes bytes, Ordinary c := by
  intro c inside
  obtain ⟨b, _, inside⟩ := List.mem_flatMap.mp inside
  exact hex_ordinary 2 _ c inside

theorem replaced_ordinary {c : UInt16} (ordinary : Ordinary c) : Ordinary (replaced c) := by
  unfold replaced
  split
  · decide
  · exact ordinary

theorem suffix_ordinary (g : Guid) : ∀ c ∈ (stringFromGUID2 g).map replaced, Ordinary c := by
  intro c inside
  obtain ⟨d, listed, rfl⟩ := List.mem_map.mp inside
  clear inside
  simp only [stringFromGUID2, List.mem_append, List.mem_singleton] at listed
  rcases listed with (((((((((rfl | inside) | rfl) | inside) | rfl) | inside) | rfl) | inside) | rfl) |
    inside) | rfl
  all_goals first
    | exact replaced_ordinary (hex_ordinary _ _ _ inside)
    | exact replaced_ordinary (hexBytes_ordinary _ _ inside)
    | decide

theorem length_hexBytes (bytes : List UInt8) : (hexBytes bytes).length = 2 * bytes.length := by
  induction bytes with
  | nil => rfl
  | cons b bytes ih =>
    rw [hexBytes, List.flatMap_cons, List.length_append, length_hex, ← hexBytes, ih, List.length_cons]
    omega

theorem length_stringFromGUID2 (g : Guid) : (stringFromGUID2 g).length = 38 := by
  simp [stringFromGUID2, length_hexBytes]

/-- What a caller of `CreateNamedPipeW` has to see to, and what keeps the name in one piece
on its way to the broker. -/
structure Valid (name : List UInt16) : Prop where
  rooted : ∃ tail, name = pipeRoot ++ tail ∧ tail ≠ [] ∧ ∀ c ∈ tail, Ordinary c
  short : name.length ≤ 256

theorem valid_of_makePipeName {os : PipeNameOs} {name : List UInt16} (made : makePipeName os = name) :
    Valid name := by
  have family_ordinary : ∀ c ∈ family, Ordinary c := by
    intro c inside
    simp only [family, List.mem_cons, List.not_mem_nil, or_false] at inside
    rcases inside with rfl | rfl | rfl | rfl | rfl | rfl | rfl | rfl | rfl <;> decide
  have valid {suffix : List UInt16} (ordinary : ∀ c ∈ suffix, Ordinary c) (short : suffix.length ≤ 38) :
      Valid (pipeRoot ++ family ++ suffix) := by
    refine ⟨⟨family ++ suffix, List.append_assoc _ _ _, by simp [family], ?_⟩, ?_⟩
    · intro c inside
      exact (List.mem_append.mp inside).elim (family_ordinary c) (ordinary c)
    · simp only [List.length_append, pipeRoot, family, List.length_cons, List.length_nil]
      omega
  have fallback (t : UInt64) : Valid (fallbackName t) := valid (hex_ordinary 16 _) (by simp)
  rw [← made, makePipeName]
  split
  · exact fallback os.tickCount
  next g _ =>
    split
    · exact valid (suffix_ordinary g) (by simp [length_stringFromGUID2])
    · exact fallback os.tickCount

theorem makePipeName_valid (os : PipeNameOs) : Valid (makePipeName os) := valid_of_makePipeName rfl

theorem replaced_code {c : UInt16} (low : 0x30 ≤ c.toNat) (high : c.toNat ≤ 0x46) : replaced c = c := by
  refine if_neg ?_
  rintro (rfl | rfl | rfl)
  · exact absurd high (by decide)
  · exact absurd high (by decide)
  · exact absurd low (by decide)

theorem map_replaced_hex (digits n : Nat) : (hex digits n).map replaced = hex digits n := by
  refine (List.map_congr_left fun c inside => ?_).trans (List.map_id _)
  exact replaced_code (hex_code digits n c inside).1 (hex_code digits n c inside).2

theorem map_replaced_hexBytes (bytes : List UInt8) : (hexBytes bytes).map replaced = hexBytes bytes := by
  induction bytes with
  | nil => rfl
  | cons b bytes ih =>
    rw [hexBytes, List.flatMap_cons, List.map_append, map_replaced_hex, ← hexBytes, ih]

theorem hexBytes_inj {first second : List UInt8} (same : hexBytes first = hexBytes second) :
    first = second := by
  induction first generalizing second with
  | nil =>
    have length := congrArg List.length same
    rw [length_hexBytes, length_hexBytes, List.length_nil] at length
    exact (List.length_eq_zero_iff.mp (by omega)).symm
  | cons b first ih =>
    cases second with
    | nil =>
      have length := congrArg List.length same
      rw [length_hexBytes, length_hexBytes, List.length_cons, List.length_nil] at length
      omega
    | cons c second =>
      rw [hexBytes, hexBytes, List.flatMap_cons, List.flatMap_cons] at same
      obtain ⟨byte, rest⟩ := List.append_inj same (by rw [length_hex, length_hex])
      have head := UInt8.toNat_inj.mp (hex_inj b.toNat_lt c.toNat_lt byte)
      rw [head, ih rest]

theorem suffix_inj {g h : Guid}
    (same : (stringFromGUID2 g).map replaced = (stringFromGUID2 h).map replaced) : g = h := by
  simp only [stringFromGUID2, List.map_append, map_replaced_hex, map_replaced_hexBytes] at same
  obtain ⟨same, _⟩ := List.append_inj' same rfl
  obtain ⟨same, tail⟩ := List.append_inj' same (by simp [length_hexBytes])
  obtain ⟨same, _⟩ := List.append_inj' same rfl
  obtain ⟨same, head⟩ := List.append_inj' same (by simp [length_hexBytes])
  obtain ⟨same, _⟩ := List.append_inj' same rfl
  obtain ⟨same, third⟩ := List.append_inj' same (by rw [length_hex, length_hex])
  obtain ⟨same, _⟩ := List.append_inj' same rfl
  obtain ⟨same, second⟩ := List.append_inj' same (by rw [length_hex, length_hex])
  obtain ⟨same, _⟩ := List.append_inj' same rfl
  obtain ⟨_, first⟩ := List.append_inj' same (by rw [length_hex, length_hex])
  have bytes : g.data4.toList = h.data4.toList := by
    rw [← List.take_append_drop 2 g.data4.toList, hexBytes_inj head, hexBytes_inj tail,
      List.take_append_drop]
  apply Guid.ext
  · exact UInt32.toNat_inj.mp (hex_inj g.data1.toNat_lt h.data1.toNat_lt first)
  · exact UInt16.toNat_inj.mp (hex_inj g.data2.toNat_lt h.data2.toNat_lt second)
  · exact UInt16.toNat_inj.mp (hex_inj g.data3.toNat_lt h.data3.toNat_lt third)
  · exact Vector.toList_inj.mp bytes

def PipeNameOs.guid (os : PipeNameOs) : Option Guid :=
  os.coCreateGuid.filter fun _ => os.stringFromGUID2

theorem makePipeName_eq (os : PipeNameOs) : makePipeName os = pipeRoot ++ family ++
    (match os.guid with
      | none => hex 16 os.tickCount.toNat
      | some g => (stringFromGUID2 g).map replaced) := by
  unfold makePipeName PipeNameOs.guid
  cases os.coCreateGuid with
  | none => rfl
  | some g =>
    cases written : os.stringFromGUID2 with
    | false => simp [Option.filter, fallbackName]
    | true => simp [Option.filter]

/-- Two sessions share a pipe name exactly if they were given one GUID, or if neither name
shows a GUID and both were made in one tick. -/
theorem makePipeName_eq_iff (first second : PipeNameOs) :
    makePipeName first = makePipeName second ↔
      first.guid = second.guid ∧ (first.guid = none → first.tickCount = second.tickCount) := by
  rw [makePipeName_eq, makePipeName_eq, List.append_right_inj]
  cases first.guid with
  | none =>
    cases second.guid with
    | none =>
      refine ⟨fun same => ⟨rfl, fun _ => ?_⟩, fun both => by rw [both.2 rfl]⟩
      exact UInt64.toNat_inj.mp
        (hex_inj first.tickCount.toNat_lt second.tickCount.toNat_lt same)
    | some h =>
      refine iff_of_false (fun same => ?_) fun both => by cases both.1
      have length := congrArg List.length same
      rw [length_hex, List.length_map, length_stringFromGUID2] at length
      cases length
  | some g =>
    cases second.guid with
    | none =>
      refine iff_of_false (fun same => ?_) fun both => by cases both.1
      have length := congrArg List.length same
      rw [length_hex, List.length_map, length_stringFromGUID2] at length
      cases length
    | some h =>
      refine ⟨fun same => ⟨congrArg some (suffix_inj same), fun none => by cases none⟩, fun both => ?_⟩
      cases both.1
      rfl

/-! ## What the broker is told -/

/-- The text a program finds in its environment block under `CP_PIPE`, in any letter case. -/
def lookups (environment : List UInt16) : List (List UInt16) :=
  ((decode 0 environment).getD []).filter fun text => NamesPipe text

theorem valid_free {name : List UInt16} (valid : Valid name) : 0 ∉ name := by
  obtain ⟨tail, rfl, _, ordinary⟩ := valid.rooted
  intro inside
  rcases List.mem_append.mp inside with root | inside
  · exact absurd root (by decide)
  · exact absurd (ordinary 0 inside).1 (by decide)

theorem ordinary_visible {c : UInt16} (ordinary : Ordinary c) : windows.blank c = false := by
  rw [← Bool.not_eq_true]
  intro blank
  rcases Bool.or_eq_true_iff.mp blank with space | tab
  · rw [beq_iff_eq.mp space] at ordinary
    exact absurd ordinary.1 (by decide)
  · rw [beq_iff_eq.mp tab] at ordinary
    exact absurd ordinary.1 (by decide)

theorem valid_plain {name : List UInt16} (valid : Valid name) :
    name ≠ [] ∧ windows.quote ∉ name ∧ ∀ c ∈ name, windows.blank c = false := by
  obtain ⟨tail, rfl, _, ordinary⟩ := valid.rooted
  refine ⟨List.cons_ne_nil _ _, fun inside => ?_, fun c inside => ?_⟩
  · rcases List.mem_append.mp inside with root | inside
    · exact absurd root (by decide)
    · exact absurd (ordinary _ inside).1 (by decide)
  · rcases List.mem_append.mp inside with root | inside
    · exact @solid_of_all _ windows pipeRoot rfl c root
    · exact ordinary_visible (ordinary c inside)

/-- What `CreateProcessW` gives the broker: the block that was built, or where
`GetEnvironmentStringsW` fails and there is none, that of the process. -/
def brokerEnvironment (getEnvironmentStrings : Bool) (environment pipeName : List UInt16) :
    List UInt16 :=
  let baseEnv := if getEnvironmentStrings then some environment else none
  (buildChildEnvironmentWithPipe baseEnv pipeName).getD environment

/-- By its command line the broker is told the name of the pipe that was created. Its
environment, whatever that of the process held, tells it this name and nothing else; only
where `GetEnvironmentStringsW` fails it tells what that of the process does. -/
structure Told (os : PipeNameOs) (entries : List (Entry (0 : UInt16))) : Prop where
  arguments : parse windows (launchCommand (makePipeName os)) = [brokerPath, pipeOption, makePipeName os]
  environment :
    lookups (brokerEnvironment true (block entries) (makePipeName os)) = [cpPipe ++ makePipeName os]
  inherited : lookups (brokerEnvironment false (block entries) (makePipeName os)) =
    (entries.map Entry.text).filter fun text => NamesPipe text

theorem brokerPath_quotable : windows.quote ∉ brokerPath := by decide

theorem parse_launchCommand {name : List UInt16} (valid : Valid name) :
    parse windows (launchCommand name) = [brokerPath, pipeOption, name] := by
  have line : launchCommand name = windows.quote :: (brokerPath ++ windows.quote :: 0x20 ::
      (pipeOption ++ 0x20 :: name)) := by
    simp only [launchCommand, windows, List.append_assoc, List.cons_append, List.nil_append]
  obtain ⟨filled, free, solid⟩ := valid_plain valid
  have option : arguments windows false 0 none (pipeOption ++ 0x20 :: name) =
      pipeOption :: arguments windows false 0 none name :=
    (arguments_plain (List.cons_ne_nil _ _) (by decide) (solid_of_all (by decide))).2 0x20 name rfl
  rw [parse, line, programName_quoted brokerPath_quotable rfl, option,
    (arguments_plain filled free solid).1]

theorem broker_told (os : PipeNameOs) (entries : List (Entry (0 : UInt16))) : Told os entries where
  arguments := parse_launchCommand (valid_of_makePipeName rfl)
  environment := by
    have free : 0 ∉ makePipeName os := valid_free (valid_of_makePipeName rfl)
    have own : decide (NamesPipe (cpPipe ++ makePipeName os)) = true := by
      refine decide_eq_true ?_
      change List.Forall₂ SameLetter cpPipe cpPipe
      exact List.forall₂_same.mpr fun _ _ => Or.inl rfl
    rw [brokerEnvironment, if_pos rfl, buildChildEnvironment_block entries free, Option.getD_some,
      lookups, decode_kept entries free, Option.getD_some, List.filter_append, List.filter_filter]
    simp [own]
  inherited := by
    have kept : brokerEnvironment false (block entries) (makePipeName os) = block entries := rfl
    rw [kept, lookups, decode_block, Option.getD_some]

/-- The name made from a GUID, of which nothing but the punctuation is replaced. -/
example : makePipeName ⟨some ⟨0x12, 0xAB, 0, ⟨#[1, 2, 3, 4, 5, 6, 7, 0xFE], rfl⟩⟩, true, 0⟩ =
    pipeRoot ++ family ++
      [0x5F, 0x30, 0x30, 0x30, 0x30, 0x30, 0x30, 0x31, 0x32, 0x5F, 0x30, 0x30, 0x41, 0x42, 0x5F,
        0x30, 0x30, 0x30, 0x30, 0x5F, 0x30, 0x31, 0x30, 0x32, 0x5F, 0x30, 0x33, 0x30, 0x34, 0x30, 0x35,
        0x30, 0x36, 0x30, 0x37, 0x46, 0x45, 0x5F] := by decide

end Dot1xCP.Broker.PipeName
