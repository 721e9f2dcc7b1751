import Dot1xCP.Auth.Layout
import Dot1xCP.Broker.Transport
import Dot1xCP.Core.ProtocolTable

/-! A credential on its way from the broker's message to the logon buffer.

The message is read by the decoder, widened to UTF-16, packed, and read back by LSA.
Only the last format has a limit of its own: its lengths are 16-bit byte counts, and
`PackMsv` does not check that a string fits them.
-/

set_option autoImplicit false

namespace Dot1xCP.Core
open Broker Auth FlatJson
open Broker.Transport (kMaxMsgBytes)

/-- The blob format can carry the two texts, with their terminators. -/
def Carriable (sam password : List Char) : Prop :=
  (Utf.utf16 sam).length ≤ 32766 ∧ (Utf.utf16 password).length ≤ 32766

def ReadsBack (abi : Abi) (packed : Packed) (sam password : List Char) : Prop :=
  packed.Carries abi .userName (Utf.utf16 sam) ∧ packed.Carries abi .password (Utf.utf16 password)

/-- A credential that is handed out is the one of the message, and a message that the
blob format cannot carry yields none. -/
def Faithful (abi : Abi) (out : SerializationOut) (sam password : List Char) : Prop :=
  (out.response = some .returnCredentialFinished →
    ∃ packed, out.credential = some (credentialOf packed) ∧ ReadsBack abi packed sam password) ∧
  (¬ Carriable sam password →
    out.response = some .noCredentialNotFinished ∧ out.credential = some .zero)

/-- What the call relies on outside the file: the conversion, the package and the memory. -/
structure Relies (machine : Machine) (auth : AuthOs) : Prop where
  converts : ∀ text, text ≠ [] → machine.multiByteToWideChar (Utf.utf8 text) = Utf.utf16 text
  package : auth.resolveMsv.isSome = true
  allocates : ∀ cb, (auth.coTaskMemAlloc cb).isSome = true

def scenarioOf (cpus : UsageScenario) : Scenario :=
  if cpus = .unlockWorkstation then .unlock else .logon

def Unpackable (auth : AuthOs) (cpus : UsageScenario) (sam : List Char) : Prop :=
  sam = [] ∨ (cpus = .unlockWorkstation ∧ getConsoleLogonId auth = none)

section Pack
variable {machine : Machine} {os : SerializationOs} {cpus : UsageScenario}
  {sam password : List Char} {m : Msg}

theorem widen_utf8 (relies : Relies machine os.auth) (text : List Char) :
    widen machine (Utf.utf8 text) = Utf.utf16 text := by
  cases text with
  | nil => rfl
  | cons c text =>
    have written : (Utf.utf8 (c :: text)).isEmpty = false := by
      rw [List.isEmpty_eq_false_iff, ne_eq, Utf.utf8_eq_nil]
      simp
    rw [widen, written]
    exact relies.converts _ (List.cons_ne_nil c text)

/-- The domain of every message is local, so every message takes the MSV1_0 layout. -/
theorem packMessage_eq (relies : Relies machine os.auth) (samText : m.sam = Utf.utf8 sam)
    (passwordText : m.password = Utf.utf8 password) :
    packMessage machine os m cpus =
      packMsv machine.abi os.auth dot (Utf.utf16 sam) (Utf.utf16 password) (scenarioOf cpus) := by
  rw [packMessage, samText, passwordText, widen_utf8 relies, widen_utf8 relies, packAutoEx]
  rfl

theorem packMessage_eq_none (relies : Relies machine os.auth) (samText : m.sam = Utf.utf8 sam)
    (passwordText : m.password = Utf.utf8 password) :
    packMessage machine os m cpus = none ↔ Unpackable os.auth cpus sam := by
  have succeeds := packMsv_isSome machine.abi os.auth dot (Utf.utf16 sam) (Utf.utf16 password)
    (scenarioOf cpus)
  rw [packMessage_eq relies samText passwordText, ← Option.not_isSome_iff_eq_none, succeeds]
  simp only [relies.package, relies.allocates, ne_eq, Utf.utf16_eq_nil, true_and, and_true,
    scenarioOf, Unpackable]
  by_cases unlock : cpus = .unlockWorkstation
  · cases getConsoleLogonId os.auth <;> simp [unlock]
  · simp [unlock]

/-- A blob reads back what was packed exactly when the format can carry it. -/
theorem packMessage_readsBack (relies : Relies machine os.auth) (samText : m.sam = Utf.utf8 sam)
    (passwordText : m.password = Utf.utf8 password) {packed : Packed}
    (packs : packMessage machine os m cpus = some packed)
    (samShort : sam.length ≤ kMaxMsgBytes) (passwordShort : password.length ≤ kMaxMsgBytes) :
    ReadsBack machine.abi packed sam password ↔ Carriable sam password := by
  rw [packMessage_eq relies samText passwordText] at packs
  have samUnits := Utf.length_utf16_le sam
  have passwordUnits := Utf.length_utf16_le password
  have header := headerSize_le machine.abi (scenarioOf cpus)
  -- The transport bounds the texts, so the size of the blob does not wrap.
  have total : blobSize machine.abi (scenarioOf cpus) (effectiveDomain dot) (Utf.utf16 sam)
      (Utf.utf16 password) < 2 ^ 32 := by
    have domain : (effectiveDomain dot).length = 1 := rfl
    unfold blobSize byteCount
    rw [domain]
    unfold kMaxMsgBytes at samShort passwordShort
    omega
  obtain ⟨_, _, filled⟩ :=
    packMsv_filled packs (Nat.le_of_lt (Nat.lt_of_lt_of_le total (four_gib_le _)))
  exact and_congr (filled.carries_iff .userName) (filled.carries_iff .password)

end Pack

section Call
variable {machine : Machine} {pointers : OutPointers} {os : SerializationOs}

theorem answer_success {m : Msg} {cpus : UsageScenario} (type : m.type = ascii "AUTH_SUCCESS")
    (out : SerializationOut) :
    answer machine pointers os out cpus (.final m) =
      match packMessage machine os m cpus with
      | none => notFinished pointers os out (some kMsgSerializeNA)
      | some packed =>
        { out with
          credential := some (credentialOf packed)
          response := some .returnCredentialFinished } := by
  have notFail : m.type ≠ ascii "AUTH_FAIL" := by rw [type]; decide
  have notFallback : m.type ≠ ascii "AUTH_FALLBACK" := by rw [type]; decide
  change finalAnswer machine pointers os out m cpus = _
  unfold finalAnswer
  exact (if_neg notFail).trans ((if_neg notFallback).trans (if_pos type))

theorem faithful_notFinished (abi : Abi) (text : Option String) (sam password : List Char) :
    Faithful abi (notFinished pointers os (clearedOut pointers) text) sam password := by
  have answers := answers_notFinished pointers os text
  refine ⟨fun returned => ?_, fun _ => ⟨answers.response, ?_⟩⟩
  · rw [answers.response] at returned
    cases returned
  · by_contra handedOut
    cases answers.credential.mp handedOut

theorem credentialOf_injective {first second : Packed}
    (same : credentialOf first = credentialOf second) : first = second := by
  obtain ⟨blob, size, authPkg⟩ := first
  obtain ⟨otherBlob, otherSize, otherPkg⟩ := second
  simp only [credentialOf, CredentialSerialization.mk.injEq, Option.some_inj, true_and] at same
  obtain ⟨rfl, rfl, rfl⟩ := same
  rfl

theorem faithful_packed (abi : Abi) (out : SerializationOut) (packed : Packed)
    (sam password : List Char) :
    Faithful abi
        { out with
          credential := some (credentialOf packed)
          response := some .returnCredentialFinished } sam password ↔
      ReadsBack abi packed sam password ∧ Carriable sam password := by
  constructor
  · rintro ⟨returned, refused⟩
    obtain ⟨other, same, reads⟩ := returned rfl
    obtain rfl := credentialOf_injective (Option.some_inj.mp same)
    refine ⟨reads, ?_⟩
    -- A credential that was handed out was not refused.
    by_contra tooLong
    cases (refused tooLong).1
  · rintro ⟨reads, carriable⟩
    exact ⟨fun _ => ⟨packed, rfl, reads⟩, fun tooLong => absurd carriable tooLong⟩

theorem faithful_answer {m : Msg} {cpus : UsageScenario} {sam password : List Char}
    (relies : Relies machine os.auth) (type : m.type = ascii "AUTH_SUCCESS")
    (samText : m.sam = Utf.utf8 sam) (passwordText : m.password = Utf.utf8 password)
    (samShort : sam.length ≤ kMaxMsgBytes) (passwordShort : password.length ≤ kMaxMsgBytes) :
    Faithful machine.abi (answer machine pointers os (clearedOut pointers) cpus (.final m))
        sam password ↔
      Unpackable os.auth cpus sam ∨ Carriable sam password := by
  rw [answer_success type, ← packMessage_eq_none relies samText passwordText]
  cases packs : packMessage machine os m cpus with
  | none => exact iff_of_true (faithful_notFinished _ _ _ _) (Or.inl rfl)
  | some packed =>
    dsimp only
    rw [faithful_packed, packMessage_readsBack relies samText passwordText packs samShort passwordShort,
      and_self]
    simp

section Document
variable {document : Document Unescaped}

theorem verdict_unpaired (ok : os.read = .ok) (message : os.message = document.bytes)
    (unpaired : document.Unpaired) : verdict os.read os.message = .malformed := by
  have nonempty : document.bytes.isEmpty = false := by simp [Document.bytes]
  rw [ok, message]
  simp only [verdict, nonempty, parseJsonLine_unpaired document unpaired]
  rfl

theorem meaning_success (type : document.valueOf "type".toList = some "AUTH_SUCCESS".toList) :
    (meaning document).type = ascii "AUTH_SUCCESS" := by
  simp only [meaning, type, Option.getD_some]
  decide

theorem verdict_success (ok : os.read = .ok) (message : os.message = document.bytes)
    (type : document.valueOf "type".toList = some "AUTH_SUCCESS".toList)
    (paired : ¬ document.Unpaired) : verdict os.read os.message = .final (meaning document) := by
  have parsed : parseJsonLine os.message emptyMsg = (true, meaning document) := by
    rw [message, parseJsonLine_document document paired, type]
    rfl
  have received : Received os (meaning document) := ⟨ok, parsed⟩
  have success := meaning_success type
  have notPending : (meaning document).type ≠ ascii "AUTH_PENDING" := by rw [success]; decide
  have notIdle : (meaning document).type ≠ ascii "AUTH_IDLE" := by rw [success]; decide
  rw [received.verdict, if_neg notPending, if_neg notIdle]

end Document

/-- A message that the decoder accepts is handed out faithfully exactly when nothing is
packed or the format can carry it. -/
theorem faithful_accepted {s : World} {cpus : UsageScenario} {document : Document Unescaped}
    {sam password : List Char} (coherent : Coherent s) (relies : Relies machine os.auth)
    (response : pointers.pcpgsr = true) (credential : pointers.pcpcs = true)
    (reads : atRead pointers os s ≠ none) (ok : os.read = .ok) (message : os.message = document.bytes)
    (short : document.bytes.length ≤ kMaxMsgBytes) (paired : ¬ document.Unpaired)
    (type : document.valueOf "type".toList = some "AUTH_SUCCESS".toList)
    (samValue : document.valueOf "sam".toList = some sam)
    (passwordValue : document.valueOf "password".toList = some password) :
    Faithful machine.abi (getSerialization machine pointers os s cpus).2 sam password ↔
      Unpackable os.auth cpus sam ∨ Carriable sam password := by
  have samText : (meaning document).sam = Utf.utf8 sam := by
    simp only [meaning, samValue, Option.getD_some]
  have passwordText : (meaning document).password = Utf.utf8 password := by
    simp only [meaning, passwordValue, Option.getD_some]
  have samShort := (Document.length_valueOf_le samValue).trans short
  have passwordShort := (Document.length_valueOf_le passwordValue).trans short
  rcases call_cases machine coherent response credential os cpus with
    ⟨s₁, _, _, same⟩ | ⟨unread, _⟩
  · rw [same, verdict_success ok message type paired]
    exact faithful_answer relies (meaning_success type) samText passwordText samShort passwordShort
  · exact absurd unread reads

/-- A credential reaches LSA as the broker sent it, exactly when the message is not
refused and the blob format can carry it. -/
theorem credential_fidelity_iff (machine : Machine) (pointers : OutPointers) (os : SerializationOs)
    (s : World) (cpus : UsageScenario) (document : Document Unescaped) (sam password : List Char)
    (reached : Reachable machine s) (relies : Relies machine os.auth)
    (response : pointers.pcpgsr = true) (credential : pointers.pcpcs = true)
    (reads : atRead pointers os s ≠ none) (ok : os.read = .ok) (message : os.message = document.bytes)
    (short : document.bytes.length ≤ kMaxMsgBytes)
    (type : document.valueOf "type".toList = some "AUTH_SUCCESS".toList)
    (samValue : document.valueOf "sam".toList = some sam)
    (passwordValue : document.valueOf "password".toList = some password) :
    Faithful machine.abi (getSerialization machine pointers os s cpus).2 sam password ↔
      document.Unpaired ∨ Unpackable os.auth cpus sam ∨ Carriable sam password := by
  by_cases unpaired : document.Unpaired
  · rcases call_cases machine reached.coherent response credential os cpus with
      ⟨s₁, _, _, same⟩ | ⟨unread, _⟩
    -- The decoder rejects the message, whatever else it says.
    · rw [same, verdict_unpaired ok message unpaired]
      exact iff_of_true (faithful_notFinished _ _ _ _) (Or.inl unpaired)
    · exact absurd unread reads
  · rw [or_iff_right unpaired]
    exact faithful_accepted reached.coherent relies response credential reads ok message short unpaired
      type samValue passwordValue

end Call

def unescaped (text : List Char) : List Unescaped :=
  text.filterMap fun c =>
    if plain : 0x20 ≤ c.toNat ∧ c ≠ '"' ∧ c ≠ '\\' then some ⟨c, plain.1, plain.2⟩ else none

def literals (text : List Unescaped) : List (Item Unescaped) := text.map .literal

theorem decodeText_literals (text : List Unescaped) :
    decodeText (literals text) = some (text.map Unescaped.char) := by
  induction text with
  | nil => rfl
  | cons c text ih =>
    unfold decodeText literals at ih ⊢
    rw [List.map_cons, decode_literal, ih]
    rfl

theorem itemBytes_literals (text : List Unescaped) :
    itemBytes (literals text) = Utf.utf8 (text.map Unescaped.char) := by
  induction text with
  | nil => rfl
  | cons c text ih =>
    unfold literals at ih ⊢
    rw [List.map_cons, itemBytes_cons, ih]
    rfl

def memberOf (key : String) (value : List Unescaped) : Member Unescaped :=
  ⟨[], literals (unescaped key.toList), [], [], literals value, []⟩

def successDocument (sam password : List Unescaped) : Document Unescaped :=
  ⟨[], .members (memberOf "type" (unescaped "AUTH_SUCCESS".toList))
    [memberOf "sam" sam, memberOf "password" password], []⟩

section Sample
variable (sam password : List Unescaped)

theorem successDocument_valueOf :
    (successDocument sam password).valueOf "type".toList = some "AUTH_SUCCESS".toList ∧
      (successDocument sam password).valueOf "sam".toList = some (sam.map Unescaped.char) ∧
      (successDocument sam password).valueOf "password".toList =
        some (password.map Unescaped.char) := by
  refine ⟨rfl, ?_, ?_⟩
  · exact decodeText_literals sam
  · exact decodeText_literals password

theorem successDocument_paired : ¬ (successDocument sam password).Unpaired := by
  have paired (text : List Unescaped) : ¬ UnpairedSurrogate (literals text) := by
    rw [← decode_eq_none_iff Unescaped.char id]
    exact fun undecoded => by cases (decodeText_literals text).symm.trans undecoded
  rintro ⟨member, inside, unpaired⟩
  simp only [Document.members, successDocument, Body.list, List.mem_cons, List.not_mem_nil,
    or_false] at inside
  rcases inside with rfl | rfl | rfl <;> exact unpaired.elim (paired _) (paired _)

theorem length_successDocument : (successDocument sam password).bytes.length =
    46 + (Utf.utf8 (sam.map Unescaped.char)).length +
      (Utf.utf8 (password.map Unescaped.char)).length := by
  have keys : (Utf.utf8 ((unescaped "type".toList).map Unescaped.char)).length = 4 ∧
      (Utf.utf8 ((unescaped "AUTH_SUCCESS".toList).map Unescaped.char)).length = 12 ∧
      (Utf.utf8 ((unescaped "sam".toList).map Unescaped.char)).length = 3 ∧
      (Utf.utf8 ((unescaped "password".toList).map Unescaped.char)).length = 8 := by
    decide +kernel
  simp only [successDocument, Document.bytes, Body.bytes, Member.bytes, memberOf, quoted, blank_nil,
    itemBytes_literals, List.flatMap_cons, List.flatMap_nil, List.length_append, List.length_cons,
    List.length_nil, keys]
  omega

end Sample

theorem relies_sample (read : PipeReadResult) (message : List UInt8) :
    Relies sampleMachine (sampleSystem read message).auth where
  converts text _ := congrArg Utf.utf16 (Utf.decodeUtf8_utf8 text)
  package := rfl
  allocates _ := rfl

def letter : Unescaped := ⟨'a', by decide, by decide⟩

theorem credential_fidelity_letters :
    Faithful .x64 (getSerialization sampleMachine allPointers
      (sampleSystem .ok (successDocument [letter] [letter, letter]).bytes) World.initial .logon).2
      ['a'] ['a', 'a'] := by
  obtain ⟨type, sam, password⟩ := successDocument_valueOf [letter] [letter, letter]
  refine (credential_fidelity_iff sampleMachine allPointers _ World.initial .logon _ ['a'] ['a', 'a']
    (Transition.Reachable.refl _) (relies_sample _ _) rfl rfl (Option.some_ne_none _) rfl rfl ?_ type sam
    password).mpr (Or.inr (Or.inr ⟨by decide, by decide⟩))
  rw [length_successDocument]
  decide +kernel

/-- A password whose length in bytes is 0 modulo 2^16. -/
def longPassword : List Unescaped := List.replicate 32768 letter

def longText : List Char := List.replicate 32768 'a'

theorem longPassword_char : longPassword.map Unescaped.char = longText := List.map_replicate

theorem length_encoded (n : Nat) : (Utf.utf8 (List.replicate n 'a')).length = n ∧
    (Utf.utf16 (List.replicate n 'a')).length = n := by
  induction n with
  | zero => exact ⟨rfl, rfl⟩
  | succ n ih => exact ⟨congrArg Nat.succ ih.1, congrArg Nat.succ ih.2⟩

theorem credential_truncated :
    let document := successDocument [letter] longPassword
    document.bytes.length ≤ kMaxMsgBytes ∧
      document.valueOf "type".toList = some "AUTH_SUCCESS".toList ∧
      document.valueOf "sam".toList = some ['a'] ∧ document.valueOf "password".toList = some longText ∧
      ¬ Faithful .x64 (getSerialization sampleMachine allPointers
        (sampleSystem .ok document.bytes) World.initial .logon).2 ['a'] longText := by
  intro document
  obtain ⟨type, sam, password⟩ := successDocument_valueOf [letter] longPassword
  rw [longPassword_char] at password
  have short : document.bytes.length ≤ kMaxMsgBytes := by
    rw [length_successDocument, longPassword_char, longText, (length_encoded 32768).1]
    decide +kernel
  have accepted : Faithful .x64 (getSerialization sampleMachine allPointers
        (sampleSystem .ok document.bytes) World.initial .logon).2 ['a'] longText ↔
      Unpackable (sampleSystem .ok document.bytes).auth .logon ['a'] ∨ Carriable ['a'] longText :=
    faithful_accepted coherent_initial (relies_sample .ok document.bytes) rfl rfl
      (Option.some_ne_none _) rfl rfl short (successDocument_paired [letter] longPassword) type sam
      password
  refine ⟨short, type, sam, password, ?_⟩
  intro faithful
  rcases accepted.mp faithful with (empty | ⟨unlock, _⟩) | ⟨_, fits⟩
  · cases empty
  · cases unlock
  · rw [longText, (length_encoded 32768).2] at fits
    exact absurd fits (by decide)

end Dot1xCP.Core
