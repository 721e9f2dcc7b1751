import Mathlib.Data.List.DropRight
import Dot1xCP.Lib.FlatJson

/-! The broker message decoder of `ProviderJson.cpp`.

A `std::string` is a list of bytes, and an index into one is the suffix that
starts there: `s[i]` is its head and `i >= s.size()` holds when it is empty.
Functions that report failure through a `bool` and fill an output by reference
return both, since the caller can see what a failed call has written.
-/

set_option autoImplicit false

namespace Dot1xCP.Broker
open FlatJson (doubleQuote backslash leftBrace rightBrace colon comma letterU)

structure Msg where
  type : List UInt8
  sam : List UInt8
  password : List UInt8
  reason : List UInt8
  deriving DecidableEq, Repr

def ascii (text : String) : List UInt8 := text.toList.map fun c => UInt8.ofNat c.toNat

def secureClearString (_ : List UInt8) : List UInt8 := []

def secureClearMsg (m : Msg) : Msg where
  type := secureClearString m.type
  sam := secureClearString m.sam
  password := secureClearString m.password
  reason := secureClearString m.reason

def isWs (c : UInt8) : Bool := c == 0x20 || c == 0x09 || c == 0x0D || c == 0x0A

def trim (s : List UInt8) : List UInt8 := (s.dropWhile isWs).rdropWhile isWs

/-- `none` stands for the result -1. -/
def hexValue (c : UInt8) : Option Nat :=
  if 0x30 ≤ c ∧ c ≤ 0x39 then some (c.toNat - 0x30)
  else if 0x61 ≤ c ∧ c ≤ 0x66 then some (c.toNat - 0x61 + 10)
  else if 0x41 ≤ c ∧ c ≤ 0x46 then some (c.toNat - 0x41 + 10)
  else none

def appendUtf8 (out : List UInt8) (cp : Nat) : List UInt8 :=
  if cp ≤ 0x7F then
    out ++ [UInt8.ofNat cp]
  else if cp ≤ 0x7FF then
    out ++ [UInt8.ofNat (0xC0 ||| (cp >>> 6)), UInt8.ofNat (0x80 ||| (cp &&& 0x3F))]
  else if cp ≤ 0xFFFF then
    out ++ [UInt8.ofNat (0xE0 ||| (cp >>> 12)), UInt8.ofNat (0x80 ||| ((cp >>> 6) &&& 0x3F)),
      UInt8.ofNat (0x80 ||| (cp &&& 0x3F))]
  else
    out ++ [UInt8.ofNat (0xF0 ||| (cp >>> 18)), UInt8.ofNat (0x80 ||| ((cp >>> 12) &&& 0x3F)),
      UInt8.ofNat (0x80 ||| ((cp >>> 6) &&& 0x3F)), UInt8.ofNat (0x80 ||| (cp &&& 0x3F))]

/-- Four digits of at most four bits each, so the shifts never overflow. -/
def parseHex4 (s : List UInt8) : Option Nat :=
  if s.length < 4 then none
  else (s.take 4).foldlM (fun codepoint c => (hexValue c).map fun v => (codepoint <<< 4) ||| v) 0

def shortEscape (e : UInt8) : Option UInt8 :=
  if e = 0x22 then some 0x22
  else if e = 0x5C then some 0x5C
  else if e = 0x2F then some 0x2F
  else if e = 0x62 then some 0x08
  else if e = 0x66 then some 0x0C
  else if e = 0x6E then some 0x0A
  else if e = 0x72 then some 0x0D
  else if e = 0x74 then some 0x09
  else none

def unescapeLoop (s out : List UInt8) : Bool × List UInt8 :=
  match s with
  | [] => (true, out)
  | c :: s =>
    if c ≠ backslash then unescapeLoop s (out ++ [c])
    else
      match s with
      | [] => (false, out)
      | e :: s =>
        match shortEscape e with
        | some b => unescapeLoop s (out ++ [b])
        | none =>
          if e ≠ letterU then (false, out)
          else
            match parseHex4 s with
            | none => (false, out)
            | some cp1 =>
              let s := s.drop 4
              if 0xD800 ≤ cp1 ∧ cp1 ≤ 0xDBFF then
                -- A high surrogate: the low one must follow at once, as an escape of its own.
                if 6 ≤ s.length ∧ s[0]? = some backslash ∧ s[1]? = some letterU then
                  match parseHex4 (s.drop 2) with
                  | none => (false, out)
                  | some cp2 =>
                    if 0xDC00 ≤ cp2 ∧ cp2 ≤ 0xDFFF then
                      unescapeLoop (s.drop 6)
                        (appendUtf8 out (0x10000 + (((cp1 - 0xD800) <<< 10) ||| (cp2 - 0xDC00))))
                    else (false, out)
                else (false, out)
              -- A low surrogate with no high one before it.
              else if 0xDC00 ≤ cp1 ∧ cp1 ≤ 0xDFFF then (false, out)
              else unescapeLoop s (appendUtf8 out cp1)
termination_by s.length
decreasing_by all_goals simp only [List.length_cons, List.length_drop]; omega

def unescapeJsonString (s : List UInt8) : Bool × List UInt8 := unescapeLoop s []

def skipWs (s : List UInt8) : List UInt8 := s.dropWhile isWs

/-- The scan after the opening quote: the raw token and what follows its closing
quote. A byte after a backslash is taken as it is. -/
def tokenLoop (escaped : Bool) : List UInt8 → Option (List UInt8 × List UInt8)
  | [] => none
  | c :: s =>
    -- Neither a quote nor another backslash ends the token here.
    if escaped then (tokenLoop false s).map fun (raw, rest) => (c :: raw, rest)
    else if c = backslash then (tokenLoop true s).map fun (raw, rest) => (c :: raw, rest)
    else if c = doubleQuote then some ([], s)
    else (tokenLoop false s).map fun (raw, rest) => (c :: raw, rest)

def parseJsonQuotedToken (s : List UInt8) : Option (List UInt8 × List UInt8) :=
  match s with
  | [] => none
  | c :: s => if c ≠ doubleQuote then none else tokenLoop false s

/-- One member: the key token, its decoding, the colon, the value token and its
decoding. Every failure in between makes the whole message fail. -/
def parseMember (s : List UInt8) : Option (List UInt8 × List UInt8 × List UInt8) :=
  match parseJsonQuotedToken s with
  | none => none
  | some (keyRaw, s) =>
    match unescapeJsonString keyRaw with
    | (false, _) => none
    | (true, key) =>
      match skipWs s with
      | [] => none
      | c :: s =>
        if c ≠ colon then none
        else
          match parseJsonQuotedToken (skipWs s) with
          | none => none
          | some (valueRaw, s) =>
            match unescapeJsonString valueRaw with
            | (false, _) => none
            | (true, value) => some (key, value, s)

def storeMember (out : Msg) (key value : List UInt8) : Msg :=
  if key = ascii "type" then { out with type := value }
  else if key = ascii "sam" then { out with sam := value }
  else if key = ascii "password" then { out with password := value }
  else if key = ascii "reason" then { out with reason := value }
  else out

theorem skipWs_length (s : List UInt8) : (skipWs s).length ≤ s.length :=
  (List.dropWhile_suffix isWs).length_le

theorem tokenLoop_split {escaped : Bool} {s raw rest : List UInt8}
    (found : tokenLoop escaped s = some (raw, rest)) : s = raw ++ doubleQuote :: rest := by
  induction s generalizing escaped raw with
  | nil => simp [tokenLoop] at found
  | cons c s ih =>
    -- All three branches that go on put the byte into the token.
    have step {flag : Bool} (found : (tokenLoop flag s).map (fun (raw, rest) => (c :: raw, rest)) =
        some (raw, rest)) : c :: s = raw ++ doubleQuote :: rest := by
      obtain ⟨⟨inner, tail⟩, inside, same⟩ := Option.map_eq_some_iff.mp found
      cases same
      exact congrArg (c :: ·) (ih inside)
    unfold tokenLoop at found
    split at found
    · exact step found
    · split at found
      · exact step found
      · split at found
        next quote =>
          cases found
          rw [quote, List.nil_append]
        next => exact step found

theorem parseJsonQuotedToken_split {s raw rest : List UInt8}
    (found : parseJsonQuotedToken s = some (raw, rest)) :
    s = doubleQuote :: (raw ++ doubleQuote :: rest) := by
  unfold parseJsonQuotedToken at found
  split at found
  · cases found
  · split at found
    · cases found
    next quote =>
      rw [← tokenLoop_split found, of_not_not quote]

theorem parseMember_eq_some {s key value rest : List UInt8} :
    parseMember s = some (key, value, rest) ↔
      ∃ keyRaw valueRaw beforeColon afterColon,
        parseJsonQuotedToken s = some (keyRaw, beforeColon) ∧
        unescapeJsonString keyRaw = (true, key) ∧
        skipWs beforeColon = colon :: afterColon ∧
        parseJsonQuotedToken (skipWs afterColon) = some (valueRaw, rest) ∧
        unescapeJsonString valueRaw = (true, value) := by
  constructor
  · intro found
    unfold parseMember at found
    split at found
    · cases found
    next keyRaw beforeColon keyToken =>
      split at found
      · cases found
      next decodedKey =>
        split at found
        · cases found
        next c afterColon head =>
          split at found
          · cases found
          next isColon =>
            split at found
            · cases found
            next valueRaw tail valueToken =>
              split at found
              · cases found
              next decodedValue =>
                cases found
                exact ⟨keyRaw, valueRaw, beforeColon, afterColon, keyToken, decodedKey,
                  of_not_not isColon ▸ head, valueToken, decodedValue⟩
  · rintro ⟨keyRaw, valueRaw, beforeColon, afterColon, keyToken, decodedKey, head, valueToken,
      decodedValue⟩
    simp [parseMember, keyToken, decodedKey, head, valueToken, decodedValue]

theorem parseMember_length {s key value rest : List UInt8}
    (found : parseMember s = some (key, value, rest)) : rest.length < s.length := by
  obtain ⟨keyRaw, valueRaw, beforeColon, afterColon, keyToken, _, head, valueToken, _⟩ :=
    parseMember_eq_some.mp found
  have first := congrArg List.length (parseJsonQuotedToken_split keyToken)
  have second := congrArg List.length (parseJsonQuotedToken_split valueToken)
  have third := congrArg List.length head
  have before := skipWs_length beforeColon
  have after := skipWs_length afterColon
  simp only [List.length_cons, List.length_append] at first second third
  omega

def finishObject (s : List UInt8) (out : Msg) (hasType : Bool) : Bool × Msg :=
  if skipWs s ≠ [] then (false, out) else (hasType, out)

/-- The member loop, entered after the opening brace and after every comma. -/
def memberLoop (s : List UInt8) (out : Msg) (hasType : Bool) : Bool × Msg :=
  match _head : skipWs s with
  | [] => (false, out)
  | c :: s1 =>
    -- The source tests for the brace here to accept the empty object.
    if c = rightBrace then finishObject s1 out hasType
    else
      match _found : parseMember (c :: s1) with
      | none => (false, out)
      | some (key, value, s2) =>
        let out := storeMember out key value
        let hasType := hasType || key == ascii "type"
        match _next : skipWs s2 with
        | [] => (false, out)
        | c :: s3 =>
          -- Back to the head, where a brace still closes the object.
          if c = comma then memberLoop s3 out hasType
          else if c = rightBrace then finishObject s3 out hasType
          else (false, out)
termination_by s.length
decreasing_by
  have member := parseMember_length _found
  have before := skipWs_length s
  have after := skipWs_length s2
  rw [_head] at before
  rw [_next] at after
  simp only [List.length_cons] at before after member
  omega

def parseFlatBrokerMessage (obj : List UInt8) (out : Msg) : Bool × Msg :=
  match skipWs obj with
  | [] => (false, out)
  | c :: s => if c ≠ leftBrace then (false, out) else memberLoop s out false

def parseJsonLine (line : List UInt8) (out : Msg) : Bool × Msg :=
  let out := secureClearMsg out
  let s := trim line
  if s.isEmpty then (false, out)
  else
    let (ok, out) := parseFlatBrokerMessage s out
    -- A member may have set its field before the parse failed, so the fields are cleared again.
    if !ok || out.type.isEmpty then (false, secureClearMsg out) else (true, out)

end Dot1xCP.Broker
