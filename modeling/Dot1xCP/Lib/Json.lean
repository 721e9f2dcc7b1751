import Dot1xCP.Lib.FlatJson

/-! RFC 8259 texts in UTF-16, as written and as read.

A text is a syntax tree that keeps the white space and the escapes of its writer. A string
stands for code units, one for each character or escape, so surrogates need no partner. The
decoder is a recursive descent; it reads every text of the grammar as its tree says.
-/

set_option autoImplicit false

namespace Json
open FlatJson (Ws Short HexDigit HexQuad)

abbrev quote : UInt16 := 0x22
abbrev backslash : UInt16 := 0x5C
abbrev leftBrace : UInt16 := 0x7B
abbrev rightBrace : UInt16 := 0x7D
abbrev leftBracket : UInt16 := 0x5B
abbrev rightBracket : UInt16 := 0x5D
abbrev colon : UInt16 := 0x3A
abbrev comma : UInt16 := 0x2C
abbrev letterU : UInt16 := 0x75

@[simp] theorem leftBracket_ne_quote : leftBracket ≠ quote := by decide
@[simp] theorem leftBrace_ne_quote : leftBrace ≠ quote := by decide
@[simp] theorem leftBrace_ne_leftBracket : leftBrace ≠ leftBracket := by decide

def blank (ws : List Ws) : List UInt16 := ws.map fun w => w.byte.toUInt16

structure Plain where
  unit : UInt16
  visible : 0x20 ≤ unit
  plain : unit ≠ quote ∧ unit ≠ backslash

inductive Item where
  | plain (p : Plain)
  | short (escape : Short)
  | unicode (quad : HexQuad)

def Item.units : Item → List UInt16
  | .plain p => [p.unit]
  | .short escape => [backslash, escape.letter.toUInt16]
  | .unicode quad => backslash :: letterU :: quad.bytes.map UInt8.toUInt16

/-- The code unit that an item stands for. -/
def Item.value : Item → UInt16
  | .plain p => p.unit
  | .short escape => UInt16.ofNat escape.char.toNat
  | .unicode quad => UInt16.ofNat quad.value

def itemUnits (items : List Item) : List UInt16 := items.flatMap Item.units

def quoted (items : List Item) : List UInt16 := quote :: (itemUnits items ++ [quote])

def isDigit (c : UInt16) : Bool := 0x30 ≤ c && c ≤ 0x39

/-- How much of `[ minus ] int [ frac ] [ exp ]` has been read. -/
inductive NumberState where
  | start
  | minus
  | zero
  | int
  | point
  | frac
  | exp
  | sign
  | expDigits
  deriving DecidableEq, Repr

def afterInt (c : UInt16) : Option NumberState :=
  if c = 0x2E then some .point
  else if c = 0x65 ∨ c = 0x45 then some .exp
  else none

def NumberState.step (state : NumberState) (c : UInt16) : Option NumberState :=
  match state with
  | .start =>
    if c = 0x2D then some .minus
    else if c = 0x30 then some .zero
    else if isDigit c then some .int
    else none
  -- No other digit follows a leading zero.
  | .minus => if c = 0x30 then some .zero else if isDigit c then some .int else none
  | .zero => afterInt c
  | .int => if isDigit c then some .int else afterInt c
  | .point => if isDigit c then some .frac else none
  | .frac => if isDigit c then some .frac else if c = 0x65 ∨ c = 0x45 then some .exp else none
  | .exp =>
    if isDigit c then some .expDigits
    else if c = 0x2B ∨ c = 0x2D then some .sign
    else none
  | .sign | .expDigits => if isDigit c then some .expDigits else none

def NumberState.accepts : NumberState → Bool
  | .zero | .int | .frac | .expDigits => true
  | _ => false

def NumberState.run (state : NumberState) : List UInt16 → Option NumberState
  | [] => some state
  | c :: s =>
    match state.step c with
    | none => none
    | some next => next.run s

def isNumber (units : List UInt16) : Bool :=
  match NumberState.start.run units with
  | some state => state.accepts
  | none => false

structure Number where
  units : List UInt16
  valid : isNumber units = true

inductive Word where
  | null
  | bool (value : Bool)
  deriving DecidableEq, Repr

def Word.units : Word → List UInt16
  | .null => [0x6E, 0x75, 0x6C, 0x6C]
  | .bool true => [0x74, 0x72, 0x75, 0x65]
  | .bool false => [0x66, 0x61, 0x6C, 0x73, 0x65]

mutual

inductive Tree where
  | word (word : Word)
  | number (number : Number)
  | string (items : List Item)
  | emptyArray (ws : List Ws)
  | array (elements : Elements)
  | emptyObject (ws : List Ws)
  | object (members : Members)

inductive Elements where
  | last (before : List Ws) (value : Tree) (after : List Ws)
  | more (before : List Ws) (value : Tree) (after : List Ws) (rest : Elements)

/-- `before "key" beforeColon : afterColon value after`, then a comma or the end. -/
inductive Members where
  | last (before : List Ws) (key : List Item) (beforeColon afterColon : List Ws) (value : Tree)
      (after : List Ws)
  | more (before : List Ws) (key : List Item) (beforeColon afterColon : List Ws) (value : Tree)
      (after : List Ws) (rest : Members)

end

mutual

def Tree.units : Tree → List UInt16
  | .word word => word.units
  | .number number => number.units
  | .string items => quoted items
  | .emptyArray ws => leftBracket :: (blank ws ++ [rightBracket])
  | .array elements => leftBracket :: (elements.units ++ [rightBracket])
  | .emptyObject ws => leftBrace :: (blank ws ++ [rightBrace])
  | .object members => leftBrace :: (members.units ++ [rightBrace])

def Elements.units : Elements → List UInt16
  | .last before value after => blank before ++ value.units ++ blank after
  | .more before value after rest =>
    blank before ++ value.units ++ blank after ++ comma :: rest.units

def Members.units : Members → List UInt16
  | .last before key beforeColon afterColon value after =>
    blank before ++ quoted key ++ blank beforeColon ++
      colon :: (blank afterColon ++ value.units ++ blank after)
  | .more before key beforeColon afterColon value after rest =>
    blank before ++ quoted key ++ blank beforeColon ++
      colon :: (blank afterColon ++ value.units ++ blank after ++ comma :: rest.units)

end

structure Text where
  before : List Ws
  tree : Tree
  after : List Ws

def Text.units (text : Text) : List UInt16 := blank text.before ++ text.tree.units ++ blank text.after

/-- What a text stands for. Members keep their order, and numbers their digits. -/
inductive Value where
  | null
  | bool (value : Bool)
  | number (units : List UInt16)
  | string (units : List UInt16)
  | array (values : List Value)
  | object (members : List (List UInt16 × Value))

def Word.value : Word → Value
  | .null => .null
  | .bool value => .bool value

mutual

def Tree.value : Tree → Value
  | .word word => word.value
  | .number number => .number number.units
  | .string items => .string (items.map Item.value)
  | .emptyArray _ => .array []
  | .array elements => .array elements.values
  | .emptyObject _ => .object []
  | .object members => .object members.values

def Elements.values : Elements → List Value
  | .last _ value _ => [value.value]
  | .more _ value _ rest => value.value :: rest.values

def Members.values : Members → List (List UInt16 × Value)
  | .last _ key _ _ value _ => [(key.map Item.value, value.value)]
  | .more _ key _ _ value _ rest => (key.map Item.value, value.value) :: rest.values

end

/-! ## The decoder -/

def isWs (c : UInt16) : Bool := c == 0x20 || c == 0x09 || c == 0x0A || c == 0x0D

def skipWs (s : List UInt16) : List UInt16 := s.dropWhile isWs

def hexValue (c : UInt16) : Option Nat :=
  if 0x30 ≤ c ∧ c ≤ 0x39 then some (c.toNat - 0x30)
  else if 0x61 ≤ c ∧ c ≤ 0x66 then some (c.toNat - 0x61 + 10)
  else if 0x41 ≤ c ∧ c ≤ 0x46 then some (c.toNat - 0x41 + 10)
  else none

def shortEscapes : List Short :=
  [.quotation, .reverseSolidus, .solidus, .backspace, .formFeed, .lineFeed, .carriageReturn, .tab]

def shortValue (e : UInt16) : Option UInt16 :=
  (shortEscapes.find? fun escape => escape.letter.toUInt16 == e).map fun escape =>
    UInt16.ofNat escape.char.toNat

def parseString : List UInt16 → Option (List UInt16 × List UInt16)
  | [] => none
  | c :: s =>
    if c = quote then some ([], s)
    else if c = backslash then
      match s with
      | [] => none
      | e :: s =>
        if e = letterU then
          match s with
          | c1 :: c2 :: c3 :: c4 :: s =>
            match hexValue c1, hexValue c2, hexValue c3, hexValue c4 with
            | some v1, some v2, some v3, some v4 =>
              (parseString s).map fun (text, rest) =>
                (UInt16.ofNat (((v1 * 16 + v2) * 16 + v3) * 16 + v4) :: text, rest)
            | _, _, _, _ => none
          | _ => none
        else
          match shortValue e with
          | some value => (parseString s).map fun (text, rest) => (value :: text, rest)
          | none => none
    else if c < 0x20 then none
    else (parseString s).map fun (text, rest) => (c :: text, rest)

def parseWord (s : List UInt16) : Option (Value × List UInt16) :=
  if Word.null.units <+: s then some (.null, s.drop 4)
  else if (Word.bool true).units <+: s then some (.bool true, s.drop 4)
  else if (Word.bool false).units <+: s then some (.bool false, s.drop 5)
  else none

def isNumberUnit (c : UInt16) : Bool :=
  isDigit c || c == 0x2D || c == 0x2B || c == 0x2E || c == 0x65 || c == 0x45

def parseNumber (s : List UInt16) : Option (Value × List UInt16) :=
  if isNumber (s.takeWhile isNumberUnit) then
    some (.number (s.takeWhile isNumberUnit), s.dropWhile isNumberUnit)
  else none

mutual

/-- One value at the head; `fuel` bounds the nesting and the number of members. -/
def parseValue : Nat → List UInt16 → Option (Value × List UInt16)
  | 0, _ => none
  | _ + 1, [] => none
  | fuel + 1, c :: s =>
    if c = quote then (parseString s).map fun (text, rest) => (.string text, rest)
    else if c = leftBracket then
      if (skipWs s).head? = some rightBracket then some (.array [], (skipWs s).tail)
      else (parseElements fuel (skipWs s)).map fun (values, rest) => (.array values, rest)
    else if c = leftBrace then
      if (skipWs s).head? = some rightBrace then some (.object [], (skipWs s).tail)
      else (parseMembers fuel (skipWs s)).map fun (members, rest) => (.object members, rest)
    else (parseWord (c :: s)).or (parseNumber (c :: s))

def parseElements : Nat → List UInt16 → Option (List Value × List UInt16)
  | 0, _ => none
  | fuel + 1, s =>
    match parseValue fuel s with
    | none => none
    | some (value, s) =>
      match skipWs s with
      | [] => none
      | c :: s =>
        if c = comma then
          (parseElements fuel (skipWs s)).map fun (values, rest) => (value :: values, rest)
        else if c = rightBracket then some ([value], s)
        else none

def parseMembers : Nat → List UInt16 → Option (List (List UInt16 × Value) × List UInt16)
  | 0, _ => none
  | fuel + 1, s =>
    match s with
    | [] => none
    | c :: s =>
      if c ≠ quote then none
      else
        match parseString s with
        | none => none
        | some (key, s) =>
          match skipWs s with
          | [] => none
          | c :: s =>
            if c ≠ colon then none
            else
              match parseValue fuel (skipWs s) with
              | none => none
              | some (value, s) =>
                match skipWs s with
                | [] => none
                | c :: s =>
                  if c = comma then
                    (parseMembers fuel (skipWs s)).map fun (members, rest) =>
                      ((key, value) :: members, rest)
                  else if c = rightBrace then some ([(key, value)], s)
                  else none

end

/-- The value of a text; every value takes at least one unit, so its length is fuel enough. -/
def decode (s : List UInt16) : Option Value :=
  match parseValue (s.length + 1) (skipWs s) with
  | some (value, rest) => if skipWs rest = [] then some value else none
  | none => none

end Json
