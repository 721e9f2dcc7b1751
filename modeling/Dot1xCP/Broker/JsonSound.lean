import Mathlib.Data.Set.List
import Dot1xCP.Lib.FlatJson.Unique
import Dot1xCP.Broker.JsonLine

/-! Where the decoder accepts only JSON.

The grammar of the loop is unambiguous, so a line is read in one way at most. The
decoder departs from RFC 8259 on exactly two kinds of readable lines: those with a
comma before the closing brace, and those with a raw control byte in a string.
-/

set_option autoImplicit false

namespace Dot1xCP.Broker
open FlatJson

section Unique
variable {α : Type} [Literal α]

theorem byte_ne_black {c : UInt8} (black : isWs c = false) (w : Ws) : w.byte ≠ c := by
  rintro rfl
  exact absurd ((isWs_byte w).symm.trans black) (by decide)

theorem Member.bytes_ne_close (member : Member α) (ws : List Ws) (s t : List UInt8) :
    member.bytes ++ s ≠ blank ws ++ rightBrace :: t := by
  intro same
  rw [Member.bytes_eq, memberTokens, quoted, List.cons_append, List.cons_append] at same
  have heads := (blank_unique (Ws.cons_ne (byte_ne_black rfl) _) (Ws.cons_ne (byte_ne_black rfl) _) same).2
  exact absurd (List.cons.inj heads).1 (by decide)

theorem Tail.bytes_unique (free : PrefixFree α) {first second : Tail α} {s t : List UInt8}
    (same : first.bytes ++ s = second.bytes ++ t) : first = second ∧ s = t := by
  have braceEnds := @Ws.cons_ne rightBrace (byte_ne_black rfl)
  have commaEnds := @Ws.cons_ne comma (byte_ne_black rfl)
  -- A head reads as a brace or a member, and a member is followed by a comma or a brace:
  -- the first byte that is not white space decides each time.
  induction first generalizing second with
  | close ws =>
    cases second with
    | close ws' =>
      simp only [Tail.bytes, List.append_assoc, List.singleton_append] at same
      obtain ⟨rfl, rest⟩ := blank_unique (braceEnds s) (braceEnds t) same
      exact ⟨rfl, (List.cons.inj rest).2⟩
    | last member | more member rest =>
      simp only [Tail.bytes, List.append_assoc, List.singleton_append] at same
      exact absurd same.symm (Member.bytes_ne_close member ws _ _)
  | last member =>
    simp only [Tail.bytes, List.append_assoc, List.singleton_append] at same
    cases second with
    | close ws =>
      simp only [Tail.bytes, List.append_assoc, List.singleton_append] at same
      exact absurd same (Member.bytes_ne_close member ws _ _)
    | last other =>
      simp only [Tail.bytes, List.append_assoc, List.singleton_append] at same
      obtain ⟨rfl, rest⟩ := Member.bytes_unique free (braceEnds s) (braceEnds t) same
      exact ⟨rfl, (List.cons.inj rest).2⟩
    | more other rest =>
      simp only [Tail.bytes, List.append_assoc, List.cons_append] at same
      have heads := (Member.bytes_unique free (braceEnds s) (commaEnds _) same).2
      exact absurd (List.cons.inj heads).1 (by decide)
  | more member rest ih =>
    simp only [Tail.bytes, List.append_assoc, List.cons_append] at same
    cases second with
    | close ws =>
      simp only [Tail.bytes, List.append_assoc, List.singleton_append] at same
      exact absurd same (Member.bytes_ne_close member ws _ _)
    | last other =>
      simp only [Tail.bytes, List.append_assoc, List.singleton_append] at same
      have heads := (Member.bytes_unique free (commaEnds _) (braceEnds t) same).2
      exact absurd (List.cons.inj heads).1 (by decide)
    | more other tail =>
      simp only [Tail.bytes, List.append_assoc, List.cons_append] at same
      obtain ⟨rfl, behind⟩ := Member.bytes_unique free (commaEnds _) (commaEnds _) same
      obtain ⟨rfl, rfl⟩ := ih (List.cons.inj behind).2
      exact ⟨rfl, rfl⟩

theorem Lenient.bytes_injective (free : PrefixFree α) {first second : Lenient α}
    (same : first.bytes = second.bytes) : first = second := by
  obtain ⟨sameBefore, fromBrace⟩ := blank_unique (Ws.cons_ne (byte_ne_black rfl) _)
    (Ws.cons_ne (byte_ne_black rfl) _) same
  obtain ⟨sameTail, behind⟩ := Tail.bytes_unique free (List.cons.inj fromBrace).2
  cases first with
  | mk before tail after =>
    cases second with
    | mk before' tail' after' =>
      rw [Lenient.mk.injEq]
      exact ⟨sameBefore, sameTail, blank_unique_nil behind⟩

end Unique

/-- A raw byte that RFC 8259 requires to be escaped. -/
def Item.Control : Item RawByte → Prop
  | .literal raw => raw.byte.toNat < 0x20
  | _ => False

def Member.Control (member : Member RawByte) : Prop :=
  ∃ item ∈ member.key ++ member.value, Item.Control item

def Tail.Control (tail : Tail RawByte) : Prop := ∃ member ∈ tail.members, Member.Control member

/-- The decoder can read the object: its escapes are paired and its last `type` is
not empty. -/
def Lenient.Readable {α : Type} [Literal α] (object : Lenient α) : Prop :=
  ∃ pairs type, decodeMembers object.tail.members = some pairs ∧
    lastValue pairs (ascii "type") = some type ∧ type ≠ []

def unescapedRaw (literal : UnescapedByte) : RawByte := ⟨literal.byte, literal.plain⟩

theorem unescapedRaw_bytes (literal : UnescapedByte) :
    Literal.bytes (unescapedRaw literal) = Literal.bytes literal := rfl

theorem unescapedRaw_visible (literal : UnescapedByte) :
    ¬ (unescapedRaw literal).byte.toNat < 0x20 := Nat.not_lt.mpr literal.visible

theorem not_control_map (member : Member UnescapedByte) :
    ¬ Member.Control (member.map unescapedRaw) := by
  rintro ⟨item, inside, control⟩
  simp only [Member.map, ← List.map_append, List.mem_map] at inside
  obtain ⟨source, _, rfl⟩ := inside
  cases source with
  | literal a => exact unescapedRaw_visible a control
  | short | unicode => exact control

theorem items_range {items : List (Item RawByte)} (visible : ∀ item ∈ items, ¬ Item.Control item) :
    items ∈ Set.range (List.map (Item.map unescapedRaw)) := by
  rw [Set.range_list_map]
  intro item inside
  apply Item.map_range item
  intro raw same
  subst same
  exact ⟨⟨raw.byte, Nat.not_lt.mp (visible _ inside), raw.plain⟩, rfl⟩

theorem member_range {member : Member RawByte} (visible : ¬ Member.Control member) :
    member ∈ Set.range (Member.map unescapedRaw) := by
  have each (item : Item RawByte) (inside : item ∈ member.key ++ member.value) :
      ¬ Item.Control item := fun control => visible ⟨item, inside, control⟩
  obtain ⟨key, keyMapped⟩ := items_range fun item inside => each item (List.mem_append_left _ inside)
  obtain ⟨value, valueMapped⟩ :=
    items_range fun item inside => each item (List.mem_append_right _ inside)
  refine ⟨⟨member.before, key, member.beforeColon, member.afterColon, value, member.after⟩, ?_⟩
  simp only [Member.map, keyMapped, valueMapped]

theorem Tail.not_dangling_ofMembers {α : Type} (first : Member α) (rest : List (Member α)) :
    ¬ (Tail.ofMembers first rest).Dangling := by
  induction rest generalizing first with
  | nil => exact id
  | cons second rest ih =>
    cases rest with
    | nil => exact id
    | cons third rest => exact ih second

theorem not_dangling_lenient {α : Type} (document : Document α) :
    ¬ (lenient document).tail.Dangling := by
  obtain ⟨before, body, after⟩ := document
  cases body with
  | empty ws => exact id
  | members first rest => exact Tail.not_dangling_ofMembers first rest

theorem Tail.eq_ofMembers {α : Type} {tail : Tail α} (strict : ¬ tail.Dangling) :
    (∃ ws, tail = .close ws) ∨ ∃ first rest, tail = .ofMembers first rest := by
  induction tail with
  | close ws => exact Or.inl ⟨ws, rfl⟩
  | last member => exact Or.inr ⟨member, [], rfl⟩
  | more member rest ih =>
    cases rest with
    | close ws => exact absurd trivial strict
    | last other => exact Or.inr ⟨member, [other], rfl⟩
    | more other tail =>
      obtain ⟨ws, same⟩ | ⟨first, others, same⟩ := ih strict
      · cases same
      · exact Or.inr ⟨member, first :: others, by rw [same]; rfl⟩

/-- An object without a dangling comma and without raw control bytes is RFC 8259. -/
theorem exists_document {object : Lenient RawByte} (strict : ¬ object.tail.Dangling)
    (visible : ¬ object.tail.Control) :
    ∃ document : Document UnescapedByte, lenient (document.map unescapedRaw) = object := by
  obtain ⟨before, tail, after⟩ := object
  obtain ⟨ws, rfl⟩ | ⟨first, rest, rfl⟩ := Tail.eq_ofMembers strict
  · exact ⟨⟨before, .empty ws, after⟩, rfl⟩
  · have each (member : Member RawByte) (inside : member ∈ first :: rest) :
        member ∈ Set.range (Member.map unescapedRaw) := by
      refine member_range fun control => visible ⟨member, ?_, control⟩
      rwa [Tail.members_ofMembers]
    obtain ⟨head, rfl⟩ := each first List.mem_cons_self
    have others : rest ∈ Set.range (List.map (Member.map unescapedRaw)) := by
      rw [Set.range_list_map]
      exact fun member inside => each member (List.mem_cons_of_mem _ inside)
    obtain ⟨members, rfl⟩ := others
    exact ⟨⟨before, .members head members, after⟩, rfl⟩

/-! ## Soundness, and where it fails -/

/-- An RFC 8259 object of strings with white space around it. Its text encoding is
left open: a byte from 0x20 on may stand in a string unless it delimits. -/
def WellFormed (line : List UInt8) : Prop :=
  ∃ document : Document UnescapedByte, ¬ document.Unpaired ∧ document.bytes = line

/-- An accepted line is well formed; a line that is not accepted leaves no field. -/
def SoundOn (line : List UInt8) (out : Msg) : Prop :=
  ((parseJsonLine line out).1 = true → WellFormed line) ∧
    ((parseJsonLine line out).1 = false → (parseJsonLine line out).2 = emptyMsg)

theorem accepted_iff_readable (object : Lenient RawByte) (out : Msg) :
    (parseJsonLine object.bytes out).1 = true ↔ object.Readable := by
  cases decoded : decodeMembers object.tail.members with
  | none => simp [parseJsonLine_undecoded object decoded, Lenient.Readable, decoded]
  | some pairs =>
    rw [parseJsonLine_decoded object decoded, Lenient.Readable, decoded]
    cases last : lastValue pairs (ascii "type") with
    | none => simp [last]
    | some type => by_cases empty : type = [] <;> simp [last, empty]

/-- What the loop reads from a well-formed line has neither defect. -/
theorem strict_of_wellFormed {object : Lenient RawByte} (formed : WellFormed object.bytes) :
    ¬ object.tail.Dangling ∧ ¬ object.tail.Control := by
  obtain ⟨document, _, written⟩ := formed
  have same : lenient (document.map unescapedRaw) = object := by
    apply Lenient.bytes_injective prefixFree_rawByte
    rw [lenient_bytes, Document.bytes_map unescapedRaw_bytes, written]
  subst same
  refine ⟨not_dangling_lenient _, ?_⟩
  rintro ⟨member, inside, control⟩
  rw [lenient_members, Document.map_members] at inside
  obtain ⟨source, _, rfl⟩ := List.mem_map.mp inside
  exact not_control_map source control

theorem wellFormed_of_strict {object : Lenient RawByte} (readable : object.Readable)
    (strict : ¬ object.tail.Dangling) (visible : ¬ object.tail.Control) :
    WellFormed object.bytes := by
  obtain ⟨document, same⟩ := exists_document strict visible
  refine ⟨document, fun unpaired => ?_, ?_⟩
  · obtain ⟨pairs, _, decoded, _⟩ := readable
    have undecoded := (unpaired_iff _).mp (unpaired.map unescapedRaw)
    rw [← lenient_members, same, decoded] at undecoded
    cases undecoded
  · rw [← same, lenient_bytes, Document.bytes_map unescapedRaw_bytes]

/-- The decoder is sound on a line unless the line is a readable object with a comma
before its closing brace or a raw control byte in one of its strings. -/
theorem parseJsonLine_sound_iff (line : List UInt8) (out : Msg) :
    SoundOn line out ↔
      ¬ ∃ object : Lenient RawByte, object.bytes = line ∧ object.Readable ∧
        (object.tail.Dangling ∨ object.tail.Control) := by
  constructor
  · rintro ⟨sound, _⟩ ⟨object, rfl, readable, defect⟩
    -- By uniqueness, the object with the defect is the one the well-formed line was read as.
    obtain ⟨strict, visible⟩ :=
      strict_of_wellFormed (sound ((accepted_iff_readable object out).mpr readable))
    exact defect.elim strict visible
  · intro clean
    refine ⟨?_, parseJsonLine_rejected⟩
    intro accepted
    obtain ⟨object, rfl⟩ := parseJsonLine_sound accepted
    have readable := (accepted_iff_readable object out).mp accepted
    exact wellFormed_of_strict readable (fun dangling => clean ⟨object, rfl, readable, Or.inl dangling⟩)
      fun control => clean ⟨object, rfl, readable, Or.inr control⟩

def trailingComma : Lenient RawByte where
  before := []
  tail := .more
    { before := []
      key := [.literal ⟨0x74, by decide⟩, .literal ⟨0x79, by decide⟩, .literal ⟨0x70, by decide⟩,
        .literal ⟨0x65, by decide⟩]
      beforeColon := []
      afterColon := []
      value := [.literal ⟨0x61, by decide⟩]
      after := [] }
    (.close [])
  after := []

/-- `{"type":"a",}` is accepted. -/
theorem parseJsonLine_trailing_comma : ¬ SoundOn (ascii "\x7b\"type\":\"a\",\x7d") emptyMsg := by
  have written : trailingComma.bytes = ascii "\x7b\"type\":\"a\",\x7d" := by decide
  have accepted : (parseJsonLine (ascii "\x7b\"type\":\"a\",\x7d") emptyMsg).1 = true := by
    decide +kernel
  rintro ⟨sound, _⟩
  have formed := sound accepted
  rw [← written] at formed
  exact (strict_of_wellFormed formed).1 trivial

end Dot1xCP.Broker
