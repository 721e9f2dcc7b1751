import Mathlib.Algebra.Group.Nat.Defs
import Dot1xCP.Broker.Json

/-! Tokens and escapes against the grammar of strings.

The scanner finds the end of exactly the strings the grammar writes, and the
escape decoder computes their meaning: it fails on a string without one.
-/

set_option autoImplicit false

namespace Dot1xCP.Broker
open FlatJson

theorem shift_or (high low bits : Nat) (small : low < 2 ^ bits) :
    (high <<< bits) ||| low = high * 2 ^ bits + low := by
  rw [← Nat.shiftLeft_add_eq_or_of_lt small, Nat.shiftLeft_eq]

theorem hexValue_byte (digit : HexDigit) : hexValue digit.byte = some digit.value := by
  cases digit with
  | decimal digit => revert digit; decide
  | lower digit => revert digit; decide
  | upper digit => revert digit; decide

theorem parseHex4_bytes (quad : HexQuad) (s : List UInt8) :
    parseHex4 (quad.bytes ++ s) = some quad.value := by
  have third := quad.third.value_lt
  have second := quad.second.value_lt
  have fourth := quad.fourth.value_lt
  simp [parseHex4, HexQuad.bytes, List.foldlM, hexValue_byte, HexQuad.value,
    shift_or _ _ 4 second, shift_or _ _ 4 third, shift_or _ _ 4 fourth]

theorem low_byte (value : Nat) : 0x80 ||| (value &&& 0x3F) = value % 64 + 128 := by
  have masked : value &&& 0x3F = value % 64 := Nat.and_two_pow_sub_one_eq_mod value 6
  rw [masked, show 0x80 = 2 <<< 6 from rfl, shift_or _ _ 6 (by omega)]
  omega

theorem toNat_ofNat {cp : Nat} (valid : cp.isValidChar) : (Char.ofNat cp).val.toNat = cp := by
  rw [show Char.ofNat cp = Char.ofNatAux cp valid from dif_pos valid]
  rfl

theorem appendUtf8_eq {cp : Nat} (out : List UInt8) (valid : cp.isValidChar) :
    appendUtf8 out cp = out ++ String.utf8EncodeChar (Char.ofNat cp) := by
  have bound : cp < 0x110000 := by
    rcases valid with small | ⟨_, large⟩ <;> omega
  unfold appendUtf8 String.utf8EncodeChar
  simp only [toNat_ofNat valid, low_byte, Nat.shiftRight_eq_div_pow]
  -- Each branch differs from the library encoder by its marker bits only.
  split
  · rfl
  split
  · rw [show 0xC0 = 6 <<< 5 from rfl, shift_or _ _ 5 (by omega)]
    congr 3
    omega
  split
  · rw [show 0xE0 = 14 <<< 4 from rfl, shift_or _ _ 4 (by omega)]
    congr 3
    omega
  · rw [show 0xF0 = 30 <<< 3 from rfl, shift_or _ _ 3 (by omega)]
    congr 3
    omega

theorem tokenLoop_plain {plain : List UInt8}
    (free : ∀ byte ∈ plain, byte ≠ doubleQuote ∧ byte ≠ backslash) (s : List UInt8) :
    tokenLoop false (plain ++ s) =
      (tokenLoop false s).map fun (raw, rest) => (plain ++ raw, rest) := by
  induction plain with
  | nil => simp
  | cons c plain ih =>
    obtain ⟨notQuote, notSolidus⟩ := free c List.mem_cons_self
    have ih := ih fun byte member => free byte (List.mem_cons_of_mem c member)
    simp [tokenLoop, notQuote, notSolidus, ih, Function.comp_def]

theorem HexQuad.bytes_plain (quad : HexQuad) :
    ∀ byte ∈ quad.bytes, byte ≠ doubleQuote ∧ byte ≠ backslash := by
  intro byte member
  simp only [HexQuad.bytes, List.mem_cons, List.not_mem_nil, or_false] at member
  rcases member with rfl | rfl | rfl | rfl <;> exact HexDigit.byte_plain _

section Written
variable {α : Type} [Literal α]

theorem tokenLoop_item (item : Item α) (s : List UInt8) :
    tokenLoop false (item.bytes ++ s) =
      (tokenLoop false s).map fun (raw, rest) => (item.bytes ++ raw, rest) := by
  cases item with
  | literal a => exact tokenLoop_plain (Literal.plain a) s
  | short escape => simp [Item.bytes, tokenLoop, Function.comp_def]
  | unicode quad =>
    simp [Item.bytes, tokenLoop, tokenLoop_plain (HexQuad.bytes_plain quad) s, Function.comp_def]

theorem tokenLoop_items (items : List (Item α)) (s : List UInt8) :
    tokenLoop false (itemBytes items ++ doubleQuote :: s) = some (itemBytes items, s) := by
  induction items with
  | nil => simp [tokenLoop]
  | cons item items ih => simp [tokenLoop_item, ih]

theorem parseJsonQuotedToken_quoted (items : List (Item α)) (s : List UInt8) :
    parseJsonQuotedToken (quoted items ++ s) = some (itemBytes items, s) := by
  simp [parseJsonQuotedToken, quoted, tokenLoop_items]

end Written

theorem unescapeLoop_plain {plain : List UInt8}
    (free : ∀ byte ∈ plain, byte ≠ doubleQuote ∧ byte ≠ backslash) (s out : List UInt8) :
    unescapeLoop (plain ++ s) out = unescapeLoop s (out ++ plain) := by
  induction plain generalizing out with
  | nil => simp
  | cons c plain ih =>
    have notSolidus := (free c List.mem_cons_self).2
    have ih := ih fun byte member => free byte (List.mem_cons_of_mem c member)
    rw [List.cons_append, unescapeLoop.eq_def]
    simp [notSolidus, ih]

theorem unescapeLoop_short (escape : Short) (s out : List UInt8) :
    unescapeLoop (backslash :: escape.letter :: s) out =
      unescapeLoop s (out ++ String.utf8EncodeChar escape.char) := by
  have found : shortEscape escape.letter = some (UInt8.ofNat escape.char.toNat) := by
    cases escape <;> rfl
  have encoded : String.utf8EncodeChar escape.char = [UInt8.ofNat escape.char.toNat] := by
    cases escape <;> rfl
  rw [unescapeLoop]
  simp [found, encoded]

theorem unescapeLoop_unicode (quad : HexQuad) (s out : List UInt8) :
    unescapeLoop (backslash :: letterU :: (quad.bytes ++ s)) out =
      if quad.isHigh then
        if 6 ≤ s.length ∧ s[0]? = some backslash ∧ s[1]? = some letterU then
          match parseHex4 (s.drop 2) with
          | none => (false, out)
          | some low =>
            if 0xDC00 ≤ low ∧ low ≤ 0xDFFF then
              unescapeLoop (s.drop 6)
                (appendUtf8 out (0x10000 + (((quad.value - 0xD800) <<< 10) ||| (low - 0xDC00))))
            else (false, out)
        else (false, out)
      else if quad.isLow then (false, out)
      else unescapeLoop s (appendUtf8 out quad.value) := by
  have notShort : shortEscape letterU = none := rfl
  have dropped : (quad.bytes ++ s).drop 4 = s := rfl
  rw [unescapeLoop]
  cases second : parseHex4 (s.drop 2) with
  | none => simp [notShort, dropped, parseHex4_bytes, HexQuad.isHigh, HexQuad.isLow, second]
  | some low => simp [notShort, dropped, parseHex4_bytes, HexQuad.isHigh, HexQuad.isLow, second]

theorem pairValue_eq {high low : HexQuad} (closes : low.isLow) :
    0x10000 + (((high.value - 0xD800) <<< 10) ||| (low.value - 0xDC00)) =
      pairValue high.value low.value := by
  simp only [HexQuad.isLow, Bool.and_eq_true, decide_eq_true_eq] at closes
  exact congrArg (0x10000 + ·) (shift_or (high.value - 0xD800) (low.value - 0xDC00) 10 (by omega))

section Written
variable {α : Type} [Literal α]

/-- What follows a high surrogate escape continues the pair only if it is
another escape of the same form. -/
theorem not_opened_pair {items : List (Item α)}
    (other : ∀ low rest, items ≠ Item.unicode low :: rest) :
    ¬ ((itemBytes items)[0]? = some backslash ∧ (itemBytes items)[1]? = some letterU) := by
  cases items with
  | nil => simp
  | cons item items =>
    cases item with
    | literal a =>
      cases written : Literal.bytes a with
      | nil => exact absurd written (Literal.nonempty a)
      | cons c tail =>
        have plain := (Literal.plain a c (by simp [written])).2
        simp [Item.bytes, written, plain]
    | short escape => cases escape <;> simp [Item.bytes, Short.letter, letterU]
    | unicode quad => exact absurd rfl (other quad items)

theorem unescapeLoop_pair {high low : HexQuad} (opens : high.isHigh) (s out : List UInt8) :
    unescapeLoop ((Item.unicode high : Item α).bytes ++ ((Item.unicode low : Item α).bytes ++ s)) out =
      if low.isLow then
        unescapeLoop s (out ++ String.utf8EncodeChar (Char.ofNat (pairValue high.value low.value)))
      else (false, out) := by
  have bytes : (Item.unicode low : Item α).bytes ++ s = backslash :: letterU :: (low.bytes ++ s) := rfl
  have long : 6 ≤ ((Item.unicode low : Item α).bytes ++ s).length := by
    simp [bytes, HexQuad.bytes]
  have skipped : (low.bytes ++ s).drop 4 = s := rfl
  have range : (0xDC00 ≤ low.value ∧ low.value ≤ 0xDFFF) ↔ low.isLow := by simp [HexQuad.isLow]
  -- The written low surrogate passes the source's test for its first two bytes.
  rw [Item.bytes.eq_def (.unicode high), List.cons_append, List.cons_append, unescapeLoop_unicode]
  simp only [opens, if_true, long, true_and]
  simp only [bytes, List.getElem?_cons_zero, List.getElem?_cons_succ, and_self, if_true,
    List.drop_succ_cons, List.drop_zero, parseHex4_bytes, range, skipped]
  by_cases closes : low.isLow
  · rw [if_pos closes, if_pos closes, pairValue_eq closes,
      appendUtf8_eq _ (pairValue_valid opens closes)]
  · rw [if_neg closes, if_neg closes]

theorem unescapeLoop_scalar {quad : HexQuad} (notHigh : ¬ quad.isHigh) (notLow : ¬ quad.isLow)
    (s out : List UInt8) :
    unescapeLoop ((Item.unicode quad : Item α).bytes ++ s) out =
      unescapeLoop s (out ++ String.utf8EncodeChar (Char.ofNat quad.value)) := by
  rw [Item.bytes, List.cons_append, List.cons_append, unescapeLoop_unicode,
    if_neg notHigh, if_neg notLow, appendUtf8_eq _ (scalar_valid quad notHigh notLow)]

theorem unescapeLoop_items {items : List (Item α)} {decoded : List (List UInt8)}
    (meaning : decode Literal.bytes String.utf8EncodeChar items = some decoded)
    (s out : List UInt8) :
    unescapeLoop (itemBytes items ++ s) out = unescapeLoop s (out ++ decoded.flatten) := by
  -- Along the grammar's own decoder; the loop appends what that decoder puts in front.
  fun_induction decode Literal.bytes String.utf8EncodeChar items generalizing out decoded with
  | case1 =>
    cases meaning
    simp
  | case2 a rest ih =>
    obtain ⟨tail, found, rfl⟩ := Option.map_eq_some_iff.mp meaning
    rw [itemBytes_cons, List.append_assoc, Item.bytes, unescapeLoop_plain (Literal.plain a), ih found]
    simp
  | case3 escape rest ih =>
    obtain ⟨tail, found, rfl⟩ := Option.map_eq_some_iff.mp meaning
    rw [itemBytes_cons, List.append_assoc, Item.bytes, List.cons_append, List.cons_append,
      List.nil_append, unescapeLoop_short, ih found]
    simp
  | case4 quad opens low rest closes ih =>
    obtain ⟨tail, found, rfl⟩ := Option.map_eq_some_iff.mp meaning
    rw [itemBytes_cons, itemBytes_cons, List.append_assoc, List.append_assoc, unescapeLoop_pair opens,
      if_pos closes, ih found]
    simp
  -- The strings with an unpaired surrogate have no meaning.
  | case5 | case6 | case7 => cases meaning
  | case8 quad rest notHigh notLow ih =>
    obtain ⟨tail, found, rfl⟩ := Option.map_eq_some_iff.mp meaning
    rw [itemBytes_cons, List.append_assoc, unescapeLoop_scalar notHigh notLow, ih found]
    simp

theorem unescapeLoop_undecodable {items : List (Item α)}
    (meaning : decode Literal.bytes String.utf8EncodeChar items = none) (out : List UInt8) :
    (unescapeLoop (itemBytes items) out).1 = false := by
  fun_induction decode Literal.bytes String.utf8EncodeChar items generalizing out with
  | case1 => cases meaning
  | case2 a rest ih =>
    rw [itemBytes_cons, Item.bytes, unescapeLoop_plain (Literal.plain a)]
    exact ih (Option.map_eq_none_iff.mp meaning) _
  | case3 escape rest ih =>
    rw [itemBytes_cons, Item.bytes, List.cons_append, List.cons_append, List.nil_append,
      unescapeLoop_short]
    exact ih (Option.map_eq_none_iff.mp meaning) _
  | case4 quad opens low rest closes ih =>
    rw [itemBytes_cons, itemBytes_cons, unescapeLoop_pair opens, if_pos closes]
    exact ih (Option.map_eq_none_iff.mp meaning) _
  -- A high surrogate followed by an escape that is no low one, then by no escape at all.
  | case5 quad opens low rest notLow =>
    rw [itemBytes_cons, itemBytes_cons, unescapeLoop_pair opens, if_neg notLow]
  | case6 rest quad opens other =>
    rw [itemBytes_cons, Item.bytes, List.cons_append, List.cons_append, unescapeLoop_unicode,
      if_pos opens, if_neg fun guard => not_opened_pair other guard.2]
  | case7 quad rest notHigh low =>
    rw [itemBytes_cons, Item.bytes, List.cons_append, List.cons_append, unescapeLoop_unicode,
      if_neg notHigh, if_pos low]
  | case8 quad rest notHigh notLow ih =>
    rw [itemBytes_cons, unescapeLoop_scalar notHigh notLow]
    exact ih (Option.map_eq_none_iff.mp meaning) _

theorem unescapeJsonString_items {items : List (Item α)} {bytes : List UInt8}
    (meaning : decodeBytes items = some bytes) :
    unescapeJsonString (itemBytes items) = (true, bytes) := by
  obtain ⟨decoded, found, rfl⟩ := Option.map_eq_some_iff.mp meaning
  rw [unescapeJsonString, ← List.append_nil (itemBytes items), unescapeLoop_items found, unescapeLoop]
  rfl

theorem unescapeJsonString_undecodable {items : List (Item α)}
    (meaning : decodeBytes items = none) : (unescapeJsonString (itemBytes items)).1 = false :=
  unescapeLoop_undecodable (Option.map_eq_none_iff.mp meaning) []

end Written

/-! ## Every decoded token is a written string -/

/-- What the scanner takes for a token: a backslash always takes a byte with it. -/
inductive Scanned : List UInt8 → Prop where
  | nil : Scanned []
  | plain {c : UInt8} {s : List UInt8} :
      c ≠ doubleQuote → c ≠ backslash → Scanned s → Scanned (c :: s)
  | escaped {c : UInt8} {s : List UInt8} : Scanned s → Scanned (backslash :: c :: s)

theorem Scanned.of_plain {c : UInt8} {s : List UInt8} (scanned : Scanned (c :: s))
    (notSolidus : c ≠ backslash) : c ≠ doubleQuote ∧ Scanned s := by
  cases scanned with
  | plain notQuote _ rest => exact ⟨notQuote, rest⟩
  | escaped rest => exact absurd rfl notSolidus

theorem Scanned.of_escaped {c : UInt8} {s : List UInt8} (scanned : Scanned (backslash :: c :: s)) :
    Scanned s := by
  cases scanned with
  | plain _ notSolidus rest => exact absurd rfl notSolidus
  | escaped rest => exact rest

theorem Scanned.of_quad {quad : HexQuad} {s : List UInt8} (scanned : Scanned (quad.bytes ++ s)) :
    Scanned s := by
  have first := (Scanned.of_plain scanned (HexDigit.byte_plain quad.first).2).2
  have second := (Scanned.of_plain first (HexDigit.byte_plain quad.second).2).2
  have third := (Scanned.of_plain second (HexDigit.byte_plain quad.third).2).2
  exact (Scanned.of_plain third (HexDigit.byte_plain quad.fourth).2).2

theorem tokenLoop_scanned {escaped : Bool} {s raw rest : List UInt8}
    (found : tokenLoop escaped s = some (raw, rest)) :
    if escaped then ∃ c tail, raw = c :: tail ∧ Scanned tail else Scanned raw := by
  induction s generalizing escaped raw with
  | nil => simp [tokenLoop] at found
  | cons c s ih =>
    cases escaped with
    | true =>
      simp only [tokenLoop, if_true] at found
      obtain ⟨⟨inner, tail⟩, inside, same⟩ := Option.map_eq_some_iff.mp found
      cases same
      exact ⟨c, inner, rfl, by simpa using ih inside⟩
    | false =>
      simp only [tokenLoop, Bool.false_eq_true, if_false] at found
      split at found
      next solidus =>
        obtain ⟨⟨inner, tail⟩, inside, same⟩ := Option.map_eq_some_iff.mp found
        cases same
        obtain ⟨d, tail, rfl, scanned⟩ : ∃ d tail, inner = d :: tail ∧ Scanned tail := by
          simpa using ih inside
        subst solidus
        exact Scanned.escaped scanned
      next notSolidus =>
        split at found
        next quote =>
          cases found
          exact Scanned.nil
        next notQuote =>
          obtain ⟨⟨inner, tail⟩, inside, same⟩ := Option.map_eq_some_iff.mp found
          cases same
          exact Scanned.plain notQuote notSolidus (by simpa using ih inside)

theorem hexValue_some {c : UInt8} {value : Nat} (found : hexValue c = some value) :
    ∃ digit : HexDigit, digit.byte = c ∧ digit.value = value := by
  have written {n : Nat} (same : n = c.toNat) : UInt8.ofNat n = c := by
    rw [same, UInt8.ofNat_toNat]
  unfold hexValue at found
  simp only [UInt8.le_iff_toNat_le, UInt8.reduceToNat] at found
  split at found
  next range =>
    cases found
    exact ⟨.decimal ⟨c.toNat - 0x30, by omega⟩, written (by simp only; omega), rfl⟩
  next =>
    split at found
    next range =>
      cases found
      exact ⟨.lower ⟨c.toNat - 0x61, by omega⟩, written (by simp only; omega), Nat.add_comm _ _⟩
    next =>
      split at found
      next range =>
        cases found
        exact ⟨.upper ⟨c.toNat - 0x41, by omega⟩, written (by simp only; omega), Nat.add_comm _ _⟩
      next => cases found

theorem parseHex4_some {s : List UInt8} {value : Nat} (found : parseHex4 s = some value) :
    ∃ quad : HexQuad, s = quad.bytes ++ s.drop 4 ∧ quad.value = value := by
  match s with
  | [] | [_] | [_, _] | [_, _, _] => simp [parseHex4] at found
  | a :: b :: c :: d :: s =>
    cases first : hexValue a with
    | none => simp [parseHex4, List.foldlM, first] at found
    | some va =>
      cases second : hexValue b with
      | none => simp [parseHex4, List.foldlM, first, second] at found
      | some vb =>
        cases third : hexValue c with
        | none => simp [parseHex4, List.foldlM, first, second, third] at found
        | some vc =>
          cases fourth : hexValue d with
          | none => simp [parseHex4, List.foldlM, first, second, third, fourth] at found
          | some vd =>
            obtain ⟨da, rfl, rfl⟩ := hexValue_some first
            obtain ⟨db, rfl, rfl⟩ := hexValue_some second
            obtain ⟨dc, rfl, rfl⟩ := hexValue_some third
            obtain ⟨dd, rfl, rfl⟩ := hexValue_some fourth
            have written := parseHex4_bytes ⟨da, db, dc, dd⟩ s
            exact ⟨⟨da, db, dc, dd⟩, rfl, Option.some.inj (written.symm.trans found)⟩

theorem shortEscape_some {e b : UInt8} (found : shortEscape e = some b) :
    ∃ escape : Short, escape.letter = e ∧ String.utf8EncodeChar escape.char = [b] := by
  unfold shortEscape at found
  split at found
  next same => exact ⟨.quotation, same.symm, by cases found; rfl⟩
  split at found
  next same => exact ⟨.reverseSolidus, same.symm, by cases found; rfl⟩
  split at found
  next same => exact ⟨.solidus, same.symm, by cases found; rfl⟩
  split at found
  next same => exact ⟨.backspace, same.symm, by cases found; rfl⟩
  split at found
  next same => exact ⟨.formFeed, same.symm, by cases found; rfl⟩
  split at found
  next same => exact ⟨.lineFeed, same.symm, by cases found; rfl⟩
  split at found
  next same => exact ⟨.carriageReturn, same.symm, by cases found; rfl⟩
  split at found
  next same => exact ⟨.tab, same.symm, by cases found; rfl⟩
  cases found

theorem low_escape {s : List UInt8} {value : Nat} (solidus : s[0]? = some backslash)
    (letter : s[1]? = some letterU) (found : parseHex4 (s.drop 2) = some value) :
    ∃ low : HexQuad, s = backslash :: letterU :: (low.bytes ++ s.drop 6) ∧ low.value = value := by
  -- The source guards these positions by a length of six, which the digits imply.
  match s with
  | [] | [_] => simp at letter
  | a :: b :: s =>
    obtain ⟨low, written, value⟩ := parseHex4_some found
    simp only [List.getElem?_cons_zero, List.getElem?_cons_succ, Option.some.injEq] at solidus letter
    subst solidus letter
    exact ⟨low, congrArg (fun tail => backslash :: letterU :: tail) written, value⟩

theorem Scanned.of_hex {s : List UInt8} {value : Nat} (scanned : Scanned s)
    (found : parseHex4 s = some value) : Scanned (s.drop 4) := by
  obtain ⟨quad, written, _⟩ := parseHex4_some found
  rw [written] at scanned
  exact scanned.of_quad

/-- The loop writes the meaning of the items it has read, up to the end of the token or to
the first one without a meaning. -/
theorem unescapeLoop_reads {raw : List UInt8} (scanned : Scanned raw) (out : List UInt8) :
    ∃ (items : List (Item RawByte)) (segments : List (List UInt8)) (tail : List UInt8),
      raw = itemBytes items ++ tail ∧
      decode Literal.bytes String.utf8EncodeChar items = some segments ∧
      (unescapeLoop raw out).2 = out ++ segments.flatten ∧
      ((unescapeLoop raw out).1 = true → tail = []) := by
  -- Along the loop, since the string that was written is not known yet. The cases
  -- without a name are its failing exits.
  fun_induction unescapeLoop raw out with
  | case1 out => exact ⟨[], [], [], rfl, rfl, by simp, fun _ => rfl⟩
  | case2 out c s notSolidus ih =>
    obtain ⟨notQuote, rest⟩ := scanned.of_plain notSolidus
    obtain ⟨items, segments, tail, rfl, meaning, written, ends⟩ := ih rest
    refine ⟨.literal ⟨c, notQuote, notSolidus⟩ :: items, [c] :: segments, tail, rfl, ?_, ?_, ends⟩
    · rw [decode_literal, meaning]
      rfl
    · rw [written]
      simp
  | case4 out c solidus e s b found ih =>
    obtain ⟨escape, rfl, encoded⟩ := shortEscape_some found
    have solidus := of_not_not solidus
    subst solidus
    obtain ⟨items, segments, tail, rfl, meaning, written, ends⟩ := ih scanned.of_escaped
    refine ⟨.short escape :: items, [b] :: segments, tail, rfl, ?_, ?_, ends⟩
    · rw [decode_short, meaning, encoded]
      rfl
    · rw [written]
      simp
  -- A surrogate pair takes twelve bytes of the token.
  | case8 out c solidus e s notShort letter cp1 hex1 rest high guard cp2 hex2 low ih =>
    have solidus := of_not_not solidus
    have letter := of_not_not letter
    subst solidus letter
    obtain ⟨first, firstBytes, rfl⟩ := parseHex4_some hex1
    obtain ⟨second, secondBytes, rfl⟩ := low_escape guard.2.1 guard.2.2 hex2
    have opens : first.isHigh := by simpa [HexQuad.isHigh] using high
    have closes : second.isLow := by simpa [HexQuad.isLow] using low
    have behind : Scanned rest := scanned.of_escaped.of_hex hex1
    rw [secondBytes] at behind
    obtain ⟨items, segments, tail, remaining, meaning, written, ends⟩ := ih behind.of_escaped.of_quad
    refine ⟨.unicode first :: .unicode second :: items,
      String.utf8EncodeChar (Char.ofNat (pairValue first.value second.value)) :: segments, tail,
      ?_, ?_, ?_, ends⟩
    · rw [firstBytes]
      change _ :: _ :: (_ ++ rest) = _
      rw [secondBytes, remaining]
      simp [Item.bytes]
    · rw [decode_pair _ _ _ opens closes, meaning]
      rfl
    · rw [written, pairValue_eq closes, appendUtf8_eq _ (pairValue_valid opens closes)]
      simp
  | case12 out c solidus e s notShort letter cp1 hex1 rest notHigh notLow ih =>
    have solidus := of_not_not solidus
    have letter := of_not_not letter
    subst solidus letter
    obtain ⟨quad, quadBytes, rfl⟩ := parseHex4_some hex1
    have notHigh : ¬ quad.isHigh := by simpa [HexQuad.isHigh] using notHigh
    have notLow : ¬ quad.isLow := by simpa [HexQuad.isLow] using notLow
    obtain ⟨items, segments, tail, remaining, meaning, written, ends⟩ :=
      ih (scanned.of_escaped.of_hex hex1)
    refine ⟨.unicode quad :: items, String.utf8EncodeChar (Char.ofNat quad.value) :: segments, tail,
      ?_, ?_, ?_, ends⟩
    · rw [quadBytes]
      change _ :: _ :: (_ ++ rest) = _
      rw [remaining]
      simp [Item.bytes]
    · rw [decode_scalar _ _ _ notHigh notLow, meaning]
      rfl
    · rw [written, appendUtf8_eq _ (scalar_valid quad notHigh notLow)]
      simp
  | _ => exact ⟨[], [], _, rfl, rfl, by simp, fun ok => absurd ok Bool.false_ne_true⟩

theorem unescapeLoop_sound {raw out final : List UInt8} (scanned : Scanned raw)
    (decoded : unescapeLoop raw out = (true, final)) :
    ∃ (items : List (Item RawByte)) (segments : List (List UInt8)), raw = itemBytes items ∧
      decode Literal.bytes String.utf8EncodeChar items = some segments ∧
      final = out ++ segments.flatten := by
  obtain ⟨items, segments, tail, rfl, meaning, written, ends⟩ := unescapeLoop_reads scanned out
  rw [decoded] at written ends
  obtain rfl := ends rfl
  exact ⟨items, segments, List.append_nil _, meaning, written⟩

theorem parseJsonQuotedToken_scanned {s raw rest : List UInt8}
    (found : parseJsonQuotedToken s = some (raw, rest)) : Scanned raw := by
  unfold parseJsonQuotedToken at found
  split at found
  · cases found
  · split at found
    · cases found
    · simpa using tokenLoop_scanned found

/-- A token that decodes is a string of the grammar, with the decoded meaning. -/
theorem token_sound {s raw rest bytes : List UInt8}
    (found : parseJsonQuotedToken s = some (raw, rest))
    (decoded : unescapeJsonString raw = (true, bytes)) :
    ∃ items : List (Item RawByte), s = quoted items ++ rest ∧ decodeBytes items = some bytes := by
  have written := parseJsonQuotedToken_split found
  have scanned := parseJsonQuotedToken_scanned found
  obtain ⟨items, segments, rfl, meaning, rfl⟩ := unescapeLoop_sound scanned decoded
  exact ⟨items, by simp [written, quoted], by simp [decodeBytes, meaning]⟩

end Dot1xCP.Broker
