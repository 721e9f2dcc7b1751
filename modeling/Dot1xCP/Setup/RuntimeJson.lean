import Dot1xCP.Lib.Json.Strings
import Dot1xCP.Setup.Registry

/-! How the uninstaller reads `broker-runtime.json`.

`JsonExtractStringValue` searches the text: for the key between quotation marks, from there
for a colon, and behind it for a string. On a JSON text the first search stops at the first
string that shows the key, whatever that string is.
-/

set_option autoImplicit false

namespace Dot1xCP.Setup
open Json (quote colon)

/-- The part behind the token: up to a colon, over blanks and, at a quotation mark, up to
the next one. -/
def valueBehind (s : PascalString) : PascalString :=
  match s.dropWhile (· ≠ colon) with
  | [] => []
  | _ :: s =>
    match s.dropWhile fun c => c = 0x20 ∨ c = 9 ∨ c = 13 ∨ c = 10 with
    | [] => []
    | c :: s =>
      if c ≠ quote then []
      else if s.dropWhile (· ≠ quote) = [] then []
      else s.takeWhile (· ≠ quote)

def jsonExtractStringValue (jsonText key : PascalString) : PascalString :=
  let token := quote :: (key ++ [quote])
  let p := pos token jsonText
  if p = 0 then []
  else valueBehind (jsonText.drop (p - 1 + token.length))

def removeAll (c : UInt16) (s : PascalString) : PascalString := s.filter (· ≠ c)

def normalizeGuidBraced (guidText : PascalString) : PascalString :=
  let result := trim guidText
  let result := removeAll Json.leftBrace result
  let result := removeAll Json.rightBrace result
  let result := upperCase result
  if result ≠ [] then Json.leftBrace :: (result ++ [Json.rightBrace]) else result

def tryResolveInterfaceNameFromGuid (guidBraced : PascalString) (registry : Registry) :
    Option PascalString :=
  if guidBraced = [] then none
  else
    let keyPath :=
      text "SYSTEM\\CurrentControlSet\\Control\\Network\\" ++
        text "\x7b4D36E972-E325-11CE-BFC1-08002BE10318\x7d\\" ++ guidBraced ++ text "\\Connection"
    let interfaceName :=
      regQueryStringValue .hklm64 keyPath (text "Name") registry <|>
      regQueryStringValue .hklm keyPath (text "Name") registry
    (interfaceName.map trim).filter (· ≠ [])

structure Command where
  fileName : PascalString
  params : PascalString
  deriving DecidableEq, Repr

/-- The commands that are run; `sys` and `cmd` are what these constants expand to, and there
is no runtime text where the file cannot be read. -/
def removeLanProfilesOnUninstall (sys cmd : PascalString) (jsonText : Option PascalString)
    (registry : Registry) : List Command :=
  match jsonText with
  | none => []
  | some jsonText =>
    let guidRaw := jsonExtractStringValue jsonText (text "WiredInterfaceGuid")
    let guidBraced := normalizeGuidBraced guidRaw
    if guidBraced = [] then []
    else
      match tryResolveInterfaceNameFromGuid guidBraced registry with
      | none => []
      | some interfaceName =>
        let interfaceName := removeAll quote interfaceName
        [⟨sys ++ text "\\netsh.exe",
            text "lan delete profile interface=\"" ++ interfaceName ++ text "\""⟩,
          ⟨cmd, text "/C netsh lan delete profile interface=\"" ++ interfaceName ++ text "\""⟩]

/-! ## The search as the strings of the text -/

theorem pos_cons (token : PascalString) (c : UInt16) (s : PascalString) :
    pos token (c :: s) =
      if token.isPrefixOf (c :: s) then 1 else if pos token s = 0 then 0 else pos token s + 1 := by
  unfold pos
  rw [List.tails, List.findIdx?_cons]
  cases token.isPrefixOf (c :: s) with
  | true => rfl
  | false => cases s.tails.findIdx? fun rest => token.isPrefixOf rest <;> rfl

theorem afterFirst_pos {token : PascalString} (filled : token ≠ []) (s : PascalString) :
    Json.afterFirst token s =
      if pos token s = 0 then none else some (s.drop (pos token s - 1 + token.length)) := by
  induction s with
  | nil =>
    cases token with
    | nil => exact absurd rfl filled
    | cons => rfl
  | cons c s ih =>
    rw [Json.afterFirst, ih, pos_cons]
    cases token.isPrefixOf (c :: s) with
    | true =>
      rw [if_pos rfl, if_pos rfl, if_neg Nat.one_ne_zero, Nat.sub_self, Nat.zero_add]
    | false =>
      simp only [Bool.false_eq_true, if_false]
      by_cases missing : pos token s = 0
      · rw [if_pos missing, if_pos missing, if_pos rfl]
      · have next : pos token s + 1 - 1 + token.length = pos token s - 1 + token.length + 1 := by
          omega
        rw [if_neg missing, if_neg missing, if_neg (Nat.succ_ne_zero _), next, List.drop_succ_cons]

theorem jsonExtractStringValue_eq (jsonText key : PascalString) :
    jsonExtractStringValue jsonText key =
      match Json.afterFirst (Json.nameToken key) jsonText with
      | none => []
      | some s => valueBehind s := by
  have filled : Json.nameToken key ≠ [] := List.cons_ne_nil _ _
  rw [afterFirst_pos filled, jsonExtractStringValue, ← Json.nameToken]
  split <;> rfl

/-- A string as it is written, up to its first quotation mark; nothing for other values. -/
def rawString : Json.Tree → PascalString
  | .string items => (Json.itemUnits items).takeWhile (· ≠ quote)
  | _ => []

theorem blank_iff (c : UInt16) :
    decide (c = 0x20 ∨ c = 9 ∨ c = 13 ∨ c = 10) = Json.isWs c := by
  rw [Bool.eq_iff_iff]
  simp only [Json.isWs, decide_eq_true_eq, Bool.or_eq_true, beq_iff_eq]
  tauto

theorem dropWhile_blank (ws : List FlatJson.Ws) (tree : Json.Tree) (s : PascalString) :
    (Json.blank ws ++ (tree.units ++ s)).dropWhile (fun c => c = 0x20 ∨ c = 9 ∨ c = 13 ∨ c = 10) =
      tree.units ++ s := by
  have same : (fun c : UInt16 => decide (c = 0x20 ∨ c = 9 ∨ c = 13 ∨ c = 10)) = Json.isWs :=
    funext blank_iff
  rw [same, ← Json.skipWs, Json.skipWs_blank, Json.skipWs_tree]

theorem dropWhile_colon (ws : List FlatJson.Ws) (s : PascalString) :
    (Json.blank ws ++ colon :: s).dropWhile (· ≠ colon) = colon :: s := by
  induction ws with
  | nil => simp
  | cons w ws ih =>
    have other : w.byte.toUInt16 ≠ colon := by cases w <;> decide
    simpa [other] using ih

theorem takeWhile_mark (s rest : PascalString) :
    (s ++ quote :: rest).takeWhile (· ≠ quote) = s.takeWhile (· ≠ quote) := by
  induction s with
  | nil => simp
  | cons c s ih =>
    rw [List.cons_append, List.takeWhile_cons, List.takeWhile_cons, ih]

theorem tree_head {tree : Json.Tree} (other : ∀ items, tree ≠ .string items) :
    ∃ c s, tree.units = c :: s ∧ c ≠ quote := by
  cases tree with
  | word word => rcases word with _ | _ | _ <;> exact ⟨_, _, rfl, by decide⟩
  | number number =>
    cases units : number.units with
    | nil => exact absurd units number.units_ne_nil
    | cons c s =>
      have free := number.units_free c (by rw [units]; exact List.mem_cons_self)
      exact ⟨c, s, units, free⟩
  | string items => exact absurd rfl (other items)
  | emptyArray | array => exact ⟨_, _, rfl, Json.leftBracket_ne_quote⟩
  | emptyObject | object => exact ⟨_, _, rfl, Json.leftBrace_ne_quote⟩

theorem rawString_other {tree : Json.Tree} (other : ∀ items, tree ≠ .string items) :
    rawString tree = [] := by
  cases tree with
  | string items => exact absurd rfl (other items)
  | _ => rfl

theorem valueBehind_name (key : List Json.Item) (beforeColon afterColon : List FlatJson.Ws)
    (tree : Json.Tree) (rest : PascalString) :
    valueBehind (Json.Spot.name key beforeColon afterColon tree rest).behind = rawString tree := by
  rw [Json.Spot.behind, valueBehind, dropWhile_colon]
  dsimp only
  rw [dropWhile_blank]
  by_cases string : ∃ items, tree = .string items
  · obtain ⟨items, rfl⟩ := string
    have closed : (Json.itemUnits items ++ quote :: rest).dropWhile (· ≠ quote) ≠ [] := by
      intro none
      have all := List.dropWhile_eq_nil_iff.mp none quote (by simp)
      simp at all
    have written : (Json.Tree.string items).units ++ rest =
        quote :: (Json.itemUnits items ++ quote :: rest) := by
      simp [Json.Tree.units, Json.quoted]
    rw [written]
    dsimp only
    rw [if_neg (not_not_intro rfl), if_neg closed, takeWhile_mark, rawString]
  · have other := not_exists.mp string
    obtain ⟨c, s, units, notQuote⟩ := tree_head other
    rw [units, List.cons_append, rawString_other other]
    exact if_pos notQuote

def isPlain : Json.Item → Bool
  | .plain _ => true
  | _ => false

theorem length_units (item : Json.Item) :
    1 ≤ item.units.length ∧ (item.units.length = 1 → isPlain item = true) := by
  cases item with
  | plain => exact ⟨Nat.le_refl 1, fun _ => rfl⟩
  | short | unicode => exact ⟨Nat.le_add_left 1 _, fun one => absurd one (by simp [Json.Item.units])⟩

theorem length_itemUnits (items : List Json.Item) :
    items.length ≤ (Json.itemUnits items).length ∧
      ((Json.itemUnits items).length = items.length → ∀ item ∈ items, isPlain item = true) := by
  induction items with
  | nil => exact ⟨Nat.le_refl 0, fun _ _ inside => absurd inside List.not_mem_nil⟩
  | cons item items ih =>
    obtain ⟨positive, single⟩ := length_units item
    have both : (Json.itemUnits (item :: items)).length =
        item.units.length + (Json.itemUnits items).length := List.length_append
    rw [both, List.length_cons]
    refine ⟨by omega, fun same => List.forall_mem_cons.mpr ⟨single (by omega), ih.2 (by omega)⟩⟩

/-- Without an escaped quotation mark the whole string is read. -/
theorem rawString_whole {items : List Json.Item} (free : ∀ item ∈ items, item ≠ .short .quotation) :
    rawString (.string items) = Json.itemUnits items := by
  refine List.takeWhile_eq_self_iff.mpr fun c inside => ?_
  obtain ⟨item, member, unit⟩ := List.mem_flatMap.mp inside
  exact decide_eq_true (Json.Item.units_free (free item member) c unit)

theorem itemUnits_plain {items : List Json.Item} (plain : ∀ item ∈ items, isPlain item = true) :
    Json.itemUnits items = items.map Json.Item.value := by
  induction items with
  | nil => rfl
  | cons item items ih =>
    obtain ⟨first, rest⟩ := List.forall_mem_cons.mp plain
    rw [List.map_cons, ← ih rest]
    cases item with
    | plain p => rfl
    | short | unicode => cases first

/-- What is written is what is meant exactly if the string has no escapes. -/
theorem rawString_eq_iff (items : List Json.Item) :
    rawString (.string items) = items.map Json.Item.value ↔ ∀ item ∈ items, isPlain item = true := by
  constructor
  · intro same
    have free : ∀ item ∈ items, item ≠ .short .quotation := by
      rintro _ member rfl
      have meant : quote ∈ items.map Json.Item.value := List.mem_map.mpr ⟨_, member, rfl⟩
      rw [← same, rawString] at meant
      have other := List.mem_takeWhile_imp meant
      exact of_decide_eq_true other rfl
    rw [rawString_whole free] at same
    have lengths := congrArg List.length same
    rw [List.length_map] at lengths
    exact (length_itemUnits items).2 lengths
  · intro plain
    have free : ∀ item ∈ items, item ≠ .short .quotation := by
      rintro _ member rfl
      cases plain _ member
    rw [rawString_whole free, itemUnits_plain plain]

def membersOf : Json.Members → List (List Json.Item × Json.Tree)
  | .last _ key _ _ value _ => [(key, value)]
  | .more _ key _ _ value _ rest => (key, value) :: membersOf rest

def memberOf (tree : Json.Tree) (key : PascalString) : Option (List Json.Item × Json.Tree) :=
  match tree with
  | .object members => (membersOf members).find? fun member => member.1.map Json.Item.value = key
  | _ => none

/-- The decoded value of the top-level member with this name, if it is a string. -/
def memberString (tree : Json.Tree) (key : PascalString) : PascalString :=
  match memberOf tree key with
  | some (_, .string items) => items.map Json.Item.value
  | _ => []

def ReadsMember (text : Json.Text) (key : PascalString) : Prop :=
  jsonExtractStringValue text.units key = memberString text.tree key

theorem memberString_other {text : Json.Text} {key : PascalString} {name : List Json.Item}
    {tree : Json.Tree} (member : memberOf text.tree key = some (name, tree))
    (other : ∀ items, tree ≠ .string items) : memberString text.tree key = [] := by
  rw [memberString, member]
  cases tree with
  | string items => exact absurd rfl (other items)
  | _ => rfl

theorem extract_at {text : Json.Text} {key : PascalString} (letters : ∀ c ∈ key, Json.isLetter c = true)
    {spot : Json.Spot} (shown : text.spots.find? (Json.Spot.shows key) = some spot) :
    jsonExtractStringValue text.units key = valueBehind spot.behind := by
  rw [jsonExtractStringValue_eq, Json.afterFirst_text letters, shown]
  rfl

theorem extract_hidden {text : Json.Text} {key : PascalString}
    (letters : ∀ c ∈ key, Json.isLetter c = true)
    (hidden : ∀ spot ∈ text.spots, spot.shows key = false) :
    jsonExtractStringValue text.units key = [] := by
  have missing : text.spots.find? (Json.Spot.shows key) = none :=
    List.find?_eq_none.mpr fun spot member => by simp [hidden spot member]
  rw [jsonExtractStringValue_eq, Json.afterFirst_text letters, missing]
  rfl

/-- On every text the first string that shows the key decides. Without one nothing is read.
If it names a member, at whatever depth, that member's string is read as it is written up to
its first quotation mark. So the top-level member with the key is read if its name is that
first string, and its value is not a string or has no escapes. -/
theorem jsonExtractStringValue_first (text : Json.Text) (key : PascalString)
    (letters : ∀ c ∈ key, Json.isLetter c = true) :
    ((∀ spot ∈ text.spots, spot.shows key = false) →
      jsonExtractStringValue text.units key = []) ∧
    (∀ spot, text.spots.find? (Json.Spot.shows key) = some spot →
      jsonExtractStringValue text.units key = valueBehind spot.behind) ∧
    ∀ name beforeColon afterColon tree rest,
      text.spots.find? (Json.Spot.shows key) = some (.name name beforeColon afterColon tree rest) →
      ((∀ items, tree ≠ .string items) → jsonExtractStringValue text.units key = []) ∧
      (∀ items, tree = .string items →
        jsonExtractStringValue text.units key = (Json.itemUnits items).takeWhile (· ≠ quote)) ∧
      (memberOf text.tree key = some (name, tree) →
        (ReadsMember text key ↔
          ∀ items, tree = .string items → ∀ item ∈ items, isPlain item = true)) := by
  refine ⟨extract_hidden letters, fun spot => extract_at letters, ?_⟩
  intro name beforeColon afterColon tree rest shown
  have read : jsonExtractStringValue text.units key = rawString tree := by
    rw [extract_at letters shown, valueBehind_name]
  refine ⟨fun other => read.trans (rawString_other other), ?_, fun member => ?_⟩
  · rintro items rfl
    exact read
  · rw [ReadsMember, read]
    by_cases string : ∃ items, tree = .string items
    · obtain ⟨items, rfl⟩ := string
      have meant : memberString text.tree key = items.map Json.Item.value := by
        rw [memberString, member]
      rw [meant, rawString_eq_iff]
      refine ⟨fun plain => ?_, fun plain => plain items rfl⟩
      rintro _ ⟨⟩
      exact plain
    · have other := not_exists.mp string
      rw [rawString_other other, memberString_other member other]
      exact iff_of_true rfl fun items same => absurd same (other items)

def plainItems (s : PascalString) : List Json.Item :=
  s.filterMap fun c =>
    if plain : 0x20 ≤ c ∧ c ≠ quote ∧ c ≠ Json.backslash then some (.plain ⟨c, plain.1, plain.2⟩)
    else none

def textOf (members : Json.Members) : Json.Text := ⟨[], .object members, []⟩

def only (key : List Json.Item) (value : Json.Tree) : Json.Members := .last [] key [] [] value []

def keyText : PascalString := [0x4B, 0x65, 0x79]

/-- `{"a":"b","o":{"c":"d","Key":"v"},"Key":"w"}` -/
def memberText : Json.Text :=
  textOf (.more [] (plainItems [0x61]) [] [] (.string (plainItems [0x62])) []
    (.more [] (plainItems [0x6F]) [] []
      (.object (.more [] (plainItems [0x63]) [] [] (.string (plainItems [0x64])) []
        (only (plainItems keyText) (.string (plainItems [0x76]))))) []
      (only (plainItems keyText) (.string (plainItems [0x77])))))

/-- `{"o":{"Key":"n"},"Key":"v"}` -/
def nestedText : Json.Text :=
  textOf (.more [] (plainItems [0x6F]) [] []
    (.object (only (plainItems keyText) (.string (plainItems [0x6E])))) []
    (only (plainItems keyText) (.string (plainItems [0x76]))))

def valueText : Json.Text :=
  textOf (.more [] (plainItems [0x61]) [] [] (.string (plainItems keyText)) []
    (only (plainItems [0x62]) (.string (plainItems [0x76]))))

def escapedText : Json.Text :=
  textOf (only (plainItems keyText)
    (.string (plainItems [0x61] ++ .short .quotation :: plainItems [0x62])))

def escapedName : Json.Text :=
  textOf (only
    (plainItems [0x4B] ++ .unicode ⟨.decimal 0, .decimal 0, .decimal 6, .decimal 5⟩ ::
      plainItems [0x79])
    (.string (plainItems [0x76])))

theorem jsonExtractStringValue_first_member :
    jsonExtractStringValue memberText.units keyText = [0x76] := by
  have letters : ∀ c ∈ keyText, Json.isLetter c = true := List.all_eq_true.mp (by decide)
  have read := (jsonExtractStringValue_first memberText keyText letters).2.2 (plainItems keyText) [] []
    (.string (plainItems [0x76])) _ rfl
  exact (read.2.1 _ rfl).trans (by decide)

theorem jsonExtractStringValue_misled :
    ¬ ReadsMember nestedText keyText ∧ ¬ ReadsMember valueText keyText ∧
      ¬ ReadsMember escapedText keyText ∧ ¬ ReadsMember escapedName keyText := by
  unfold ReadsMember
  decide +kernel

/-! ## The profiles that are removed -/

theorem wiredInterfaceGuid_letters : ∀ c ∈ text "WiredInterfaceGuid", Json.isLetter c = true := by
  rw [text_ofList]
  exact List.all_eq_true.mp (by decide)

theorem removeLanProfilesOnUninstall_hidden (sys cmd : PascalString) (registry : Registry)
    {runtime : Json.Text}
    (hidden : ∀ spot ∈ runtime.spots, spot.shows (text "WiredInterfaceGuid") = false) :
    removeLanProfilesOnUninstall sys cmd (some runtime.units) registry = [] := by
  rw [removeLanProfilesOnUninstall, extract_hidden wiredInterfaceGuid_letters hidden]
  rfl

theorem removeAll_free (c : UInt16) (s : PascalString) : c ∉ removeAll c s := fun inside =>
  of_decide_eq_true (List.mem_filter.mp inside).2 rfl

/-- Every command names an interface that is registered under the GUID that was read, and no
quotation mark of its name ends the parameter. -/
theorem removeLanProfilesOnUninstall_named {sys cmd jsonText : PascalString} {registry : Registry}
    {command : Command}
    (run : command ∈ removeLanProfilesOnUninstall sys cmd (some jsonText) registry) :
    ∃ lead interfaceName registered, command.params = lead ++ interfaceName ++ text "\"" ∧
      quote ∉ interfaceName ∧ interfaceName = removeAll quote registered ∧
      tryResolveInterfaceNameFromGuid
        (normalizeGuidBraced (jsonExtractStringValue jsonText (text "WiredInterfaceGuid")))
        registry = some registered := by
  unfold removeLanProfilesOnUninstall at run
  dsimp only at run
  split at run
  · cases run
  · split at run
    · cases run
    next registered found =>
      rcases List.mem_cons.mp run with rfl | run
      · exact ⟨_, _, registered, rfl, removeAll_free quote registered, rfl, found⟩
      · cases List.mem_singleton.mp run
        exact ⟨_, _, registered, rfl, removeAll_free quote registered, rfl, found⟩

end Dot1xCP.Setup
