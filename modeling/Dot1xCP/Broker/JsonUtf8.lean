import Dot1xCP.Lib.FlatJson.Text
import Dot1xCP.Broker.JsonLine

/-! Broker messages in UTF-8.

The decoder works on bytes: it cuts tokens at quotation marks and backslashes and
copies the bytes between them. On a line of well-formed UTF-8 the objects it accepts
can be read by whole characters instead, so its fields are UTF-8 again.
-/

set_option autoImplicit false

namespace Dot1xCP.Broker
open FlatJson

theorem exists_tail {tail : Tail RawByte} {s : List UInt8}
    (formed : Utf.WellFormed (tail.bytes ++ s)) :
    (∃ whole : Tail RawChar, whole.bytes = tail.bytes) ∧ Utf.WellFormed s := by
  induction tail with
  | close ws =>
    rw [Tail.bytes, List.append_assoc] at formed
    have behind := Utf.WellFormed.tail (by decide) (formed.behind (blank_low ws))
    exact ⟨⟨.close ws, rfl⟩, behind⟩
  | last member =>
    rw [Tail.bytes, List.append_assoc] at formed
    obtain ⟨⟨whole, same⟩, brace⟩ := exists_member formed
    have behind := Utf.WellFormed.tail (by decide) brace
    exact ⟨⟨.last whole, by rw [Tail.bytes, same, Tail.bytes]⟩, behind⟩
  | more member rest ih =>
    rw [Tail.bytes, List.append_assoc] at formed
    obtain ⟨⟨whole, same⟩, comma⟩ := exists_member formed
    have behind := Utf.WellFormed.tail (by decide) comma
    obtain ⟨⟨others, sameRest⟩, behind⟩ := ih behind
    exact ⟨⟨.more whole others, by rw [Tail.bytes, same, sameRest, Tail.bytes]⟩, behind⟩

/-- The token boundaries of a readable line split no character. -/
theorem exists_lenient {object : Lenient RawByte} (formed : Utf.WellFormed object.bytes) :
    ∃ whole : Lenient RawChar, whole.bytes = object.bytes := by
  rw [Lenient.bytes] at formed
  obtain ⟨_, behind⟩ := formed.cut (by decide)
  obtain ⟨⟨tail, same⟩, _⟩ := exists_tail behind
  exact ⟨⟨object.before, tail, object.after⟩, by rw [Lenient.bytes, same, Lenient.bytes]⟩

section Written
variable {α : Type} [Literal α]

theorem decodeMember_eq_some {member : Member α} {pair : Pair} :
    decodeMember member = some pair ↔
      decodeBytes member.key = some pair.1 ∧ decodeBytes member.value = some pair.2 := by
  obtain ⟨key, value⟩ := pair
  unfold decodeMember
  cases decodeBytes member.key <;> cases decodeBytes member.value <;> simp

theorem decodeMembers_mem {members : List (Member α)} {pairs : List Pair}
    (decoded : decodeMembers members = some pairs) {pair : Pair} (inside : pair ∈ pairs) :
    ∃ member ∈ members, decodeMember member = some pair := by
  induction members generalizing pairs with
  | nil =>
    cases decoded
    cases inside
  | cons member rest ih =>
    obtain ⟨first, tail, same, others, rfl⟩ := decodeMembers_cons.mp decoded
    rcases List.mem_cons.mp inside with rfl | inside
    · exact ⟨member, List.mem_cons_self, same⟩
    · obtain ⟨found, later, meaning⟩ := ih others inside
      exact ⟨found, List.mem_cons_of_mem _ later, meaning⟩

theorem decodeMembers_each {members : List (Member α)} {pairs : List Pair}
    (decoded : decodeMembers members = some pairs) {member : Member α} (inside : member ∈ members) :
    ∃ pair, decodeMember member = some pair := by
  apply Option.ne_none_iff_exists'.mp
  intro undecoded
  have failed := (decodeMembers_eq_none members).mpr ⟨member, inside, undecoded⟩
  rw [decoded] at failed
  cases failed

end Written

theorem decodeBytes_wellFormed {items : List (Item RawChar)} {bytes : List UInt8}
    (decoded : decodeBytes items = some bytes) : Utf.WellFormed bytes := by
  rw [decodeBytes_rawChar] at decoded
  obtain ⟨text, _, rfl⟩ := Option.map_eq_some_iff.mp decoded
  exact Utf.wellFormed_utf8 text

/-- The last value of a key is well formed, and so is a field that no member sets. -/
theorem lastValue_wellFormed {members : List (Member RawChar)} {pairs : List Pair}
    (decoded : decodeMembers members = some pairs) (key : List UInt8) :
    Utf.WellFormed ((lastValue pairs key).getD []) := by
  cases last : lastValue pairs key with
  | none => exact Utf.wellFormed_nil
  | some value =>
    obtain ⟨member, _, meaning⟩ := decodeMembers_mem decoded (lastValue_mem last)
    exact decodeBytes_wellFormed (decodeMember_eq_some.mp meaning).2

/-- The line is an object of whole characters and the fields are what it says: every
string decodes to a text, and an escaped code point is a scalar value that `AppendUtf8`
writes in the form of its character. -/
structure ReadAsText (object : Lenient RawChar) (line : List UInt8) (msg : Msg) : Prop where
  written : object.bytes = line
  stored : ∃ pairs, decodeMembers object.tail.members = some pairs ∧ msg = storeAll emptyMsg pairs
  token : ∀ member ∈ object.tail.members, ∀ items ∈ [member.key, member.value],
    ∃ text, decode RawChar.char id items = some text ∧
      unescapeJsonString (itemBytes items) = (true, Utf.utf8 text)
  scalar : ∀ member ∈ object.tail.members, ∀ items ∈ [member.key, member.value],
    ∀ value ∈ codePoints items, value.isValidChar ∧
      ∀ out, appendUtf8 out value = out ++ String.utf8EncodeChar (Char.ofNat value)

theorem readAsText_of_decoded {object : Lenient RawChar} {pairs : List Pair}
    (decoded : decodeMembers object.tail.members = some pairs) :
    ReadAsText object object.bytes (storeAll emptyMsg pairs) := by
  have text {member : Member RawChar} (inside : member ∈ object.tail.members)
      {items : List (Item RawChar)} (string : items ∈ [member.key, member.value]) :
      ∃ text, decode RawChar.char id items = some text ∧
        unescapeJsonString (itemBytes items) = (true, Utf.utf8 text) := by
    obtain ⟨pair, meaning⟩ := decodeMembers_each decoded inside
    have bytes : ∃ bytes, decodeBytes items = some bytes := by
      obtain ⟨key, value⟩ := decodeMember_eq_some.mp meaning
      simp only [List.mem_cons, List.not_mem_nil, or_false] at string
      rcases string with rfl | rfl
      · exact ⟨_, key⟩
      · exact ⟨_, value⟩
    obtain ⟨bytes, meaning⟩ := bytes
    have unescaped := unescapeJsonString_items meaning
    rw [decodeBytes_rawChar] at meaning
    obtain ⟨text, found, rfl⟩ := Option.map_eq_some_iff.mp meaning
    exact ⟨text, found, unescaped⟩
  refine ⟨rfl, ⟨pairs, decoded, rfl⟩, fun member inside items string => text inside string, ?_⟩
  intro member inside items string value escaped
  obtain ⟨_, found, _⟩ := text inside string
  have valid := codePoints_valid found value escaped
  exact ⟨valid, fun out => appendUtf8_eq out valid⟩

/-- An accepted line of well-formed UTF-8 is read as text, and its fields are well-formed
UTF-8. -/
theorem parseJsonLine_utf8 {line : List UInt8} (formed : Utf.WellFormed line) {out : Msg}
    (accepted : (parseJsonLine line out).1 = true) :
    (∃ object, ReadAsText object line (parseJsonLine line out).2) ∧
      Utf.WellFormed (parseJsonLine line out).2.type ∧
      Utf.WellFormed (parseJsonLine line out).2.sam ∧
      Utf.WellFormed (parseJsonLine line out).2.password ∧
      Utf.WellFormed (parseJsonLine line out).2.reason := by
  obtain ⟨bytes, rfl⟩ := parseJsonLine_sound accepted
  obtain ⟨object, same⟩ := exists_lenient formed
  rw [← same] at accepted ⊢
  cases decoded : decodeMembers object.tail.members with
  | none =>
    rw [parseJsonLine_undecoded object decoded] at accepted
    cases accepted
  | some pairs =>
    have fields : (parseJsonLine object.bytes out).2 = storeAll emptyMsg pairs := by
      rw [parseJsonLine_decoded object decoded] at accepted ⊢
      split at accepted
      · cases accepted
      next filled => rw [if_neg filled]
    have wellFormed := lastValue_wellFormed decoded
    rw [fields]
    refine ⟨⟨object, readAsText_of_decoded decoded⟩, ?_⟩
    rw [storeAll_empty]
    exact ⟨wellFormed _, wellFormed _, wellFormed _, wellFormed _⟩

/-- `{"type":"ä","password":"\ud83d\ude00",}`: a copied two-byte character and an escaped
pair, in a line that is no JSON. -/
theorem parseJsonLine_utf8_lenient :
    Utf.WellFormed (parseJsonLine (Utf.utf8
      "\x7b\"type\":\"ä\",\"password\":\"\\ud83d\\ude00\",\x7d".toList) emptyMsg).2.password :=
  (parseJsonLine_utf8 (Utf.wellFormed_utf8 _) (by decide +kernel)).2.2.2.1

end Dot1xCP.Broker
