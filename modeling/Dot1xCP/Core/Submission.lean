import Dot1xCP.Auth.Layout
import Dot1xCP.Broker.JsonSound
import Dot1xCP.Core.ProtocolTable

/-! From the members of a message to a submitted credential.

The decoder remembers of one member only, the type, that it was there; the other fields
are empty when they are absent. `PackMsv` refuses an empty user and takes an empty
password.
-/

set_option autoImplicit false

namespace Dot1xCP.Core
open Broker Auth FlatJson

def Members (message : List UInt8) (pairs : List Pair) : Prop :=
  ∃ object : Lenient RawByte, object.bytes = message ∧ decodeMembers object.tail.members = some pairs

/-- An `AUTH_SUCCESS` message with everything that it carries in the protocol. -/
def Complete (message : List UInt8) : Prop :=
  ∃ pairs, Members message pairs ∧ (ascii "type", ascii "AUTH_SUCCESS") ∈ pairs ∧
    (∃ sam, (ascii "sam", sam) ∈ pairs) ∧ ∃ password, (ascii "password", password) ∈ pairs

def Passwordless (message sam : List UInt8) : Prop :=
  ∃ pairs, Members message pairs ∧
    lastValue pairs (ascii "type") = some (ascii "AUTH_SUCCESS") ∧
    lastValue pairs (ascii "sam") = some sam ∧ ∀ password, (ascii "password", password) ∉ pairs

/-- A logon of the user with an empty password can be packed. -/
def PackableEmpty (machine : Machine) (auth : AuthOs) (cpus : UsageScenario) (user : WString) : Prop :=
  let scen := if cpus = .unlockWorkstation then Scenario.unlock else .logon
  user ≠ [] ∧ auth.resolveMsv.isSome = true ∧
    (scen = .unlock → (getConsoleLogonId auth).isSome = true) ∧
    (auth.coTaskMemAlloc (blobSize machine.abi scen dot user [])).isSome = true

/-- The call reads a message that names a user without a password, and nothing else is in
the way of its submission. -/
structure SubmitsPasswordless (machine : Machine) (pointers : OutPointers) (os : SerializationOs)
    (s : World) (cpus : UsageScenario) : Prop where
  response : pointers.pcpgsr = true
  credential : pointers.pcpcs = true
  present : atRead pointers os s ≠ none
  ok : os.read = .ok
  message : ∃ sam, Passwordless os.message sam ∧ PackableEmpty machine os.auth cpus (widen machine sam)

theorem Members.unique {message : List UInt8} {pairs others : List Pair}
    (first : Members message pairs) (second : Members message others) : pairs = others := by
  obtain ⟨object, written, decoded⟩ := first
  obtain ⟨other, written', decoded'⟩ := second
  obtain rfl := Lenient.bytes_injective prefixFree_rawByte (written.trans written'.symm)
  exact Option.some_inj.mp (decoded.symm.trans decoded')

/-- What the decoder stores are the last values, and nothing for what is absent. -/
theorem received_iff {os : SerializationOs} {m : Msg} :
    Received os m ↔ os.read = .ok ∧ ∃ pairs, Members os.message pairs ∧
      (lastValue pairs (ascii "type")).getD [] ≠ [] ∧ m = storeAll emptyMsg pairs := by
  refine and_congr_right fun _ => ?_
  constructor
  · intro parsed
    obtain ⟨object, written⟩ := parseJsonLine_sound (congrArg Prod.fst parsed)
    rw [written] at parsed
    cases decoded : decodeMembers object.tail.members with
    | none =>
      rw [parseJsonLine_undecoded object decoded] at parsed
      cases parsed
    | some pairs =>
      rw [parseJsonLine_decoded object decoded] at parsed
      split at parsed
      · cases parsed
      next named => exact ⟨pairs, ⟨object, written.symm, decoded⟩, named, (Prod.mk.inj parsed).2.symm⟩
  · rintro ⟨pairs, ⟨object, written, decoded⟩, named, rfl⟩
    rw [← written, parseJsonLine_decoded object decoded, if_neg named]

section Pack
variable {machine : Machine} {os : SerializationOs} {cpus : UsageScenario} {m : Msg}

theorem packMessage_isSome : (packMessage machine os m cpus).isSome = true ↔
    let scen := if cpus = .unlockWorkstation then Scenario.unlock else .logon
    widen machine m.sam ≠ [] ∧ os.auth.resolveMsv.isSome = true ∧
      (scen = .unlock → (getConsoleLogonId os.auth).isSome = true) ∧
      (os.auth.coTaskMemAlloc
        (blobSize machine.abi scen dot (widen machine m.sam) (widen machine m.password))).isSome = true := by
  have domain : (dot.isEmpty || dot == dot) = true := rfl
  rw [packMessage, packAutoEx, if_pos domain]
  exact packMsv_isSome machine.abi os.auth dot (widen machine m.sam) (widen machine m.password) _

theorem packMessage_passwordless (absent : m.password = []) :
    packMessage machine os m cpus ≠ none ↔
      PackableEmpty machine os.auth cpus (widen machine m.sam) := by
  rw [← Option.isSome_iff_ne_none, packMessage_isSome, absent]
  rfl

theorem sam_of_packed (packed : packMessage machine os m cpus ≠ none) : m.sam ≠ [] := by
  intro absent
  have named := (packMessage_isSome.mp (Option.isSome_iff_ne_none.mpr packed)).1
  rw [absent] at named
  exact named rfl

end Pack

/-! ## The call -/

section Call
variable {machine : Machine} {pointers : OutPointers} {os : SerializationOs} {s : World}
  {cpus : UsageScenario}

theorem finished_iff (coherent : Coherent s) :
    (getSerialization machine pointers os s cpus).2.response = some .returnCredentialFinished ↔
      pointers.pcpgsr = true ∧ pointers.pcpcs = true ∧ Succeeds machine pointers os s cpus := by
  by_cases null : pointers.pcpgsr = false ∨ pointers.pcpcs = false
  · have refused : (!pointers.pcpgsr || !pointers.pcpcs) = true := by simpa using null
    rw [getSerialization, if_pos refused]
    refine iff_of_false (fun finished => by cases finished) ?_
    rintro ⟨response, credential, _⟩
    rcases null with missing | missing
    · cases response.symm.trans missing
    · cases credential.symm.trans missing
  · simp only [not_or, Bool.not_eq_false] at null
    obtain ⟨expected, answers, returned, _⟩ :=
      call_answers machine coherent null.1 null.2 os cpus
    rw [answers.response, Option.some_inj, returned]
    exact ⟨fun succeeds => ⟨null.1, null.2, succeeds⟩, fun all => all.2.2⟩

/-- What was submitted without a password was submitted from a message that has none. -/
theorem complete_of_submitted (coherent : Coherent s)
    (sound : ¬ SubmitsPasswordless machine pointers os s cpus)
    (finished : (getSerialization machine pointers os s cpus).2.response =
      some .returnCredentialFinished) : Complete os.message := by
  obtain ⟨response, credential, present, m, received, success, packed⟩ :=
    (finished_iff coherent).mp finished
  obtain ⟨ok, pairs, members, named, rfl⟩ := received_iff.mp received
  have fields := storeAll_empty pairs
  have type : lastValue pairs (ascii "type") = some (ascii "AUTH_SUCCESS") := by
    rw [fields] at success
    cases last : lastValue pairs (ascii "type") with
    | none => exact absurd (last ▸ rfl) named
    | some value =>
      rw [last] at success
      exact congrArg some success
  -- The user is there because an empty one is not packed.
  have user := sam_of_packed packed
  rw [fields] at user
  cases sam : lastValue pairs (ascii "sam") with
  | none => exact absurd (sam ▸ rfl) user
  | some value =>
    refine ⟨pairs, members, lastValue_mem type, ⟨value, lastValue_mem sam⟩, ?_⟩
    by_contra absent
    rw [not_exists] at absent
    have empty : (storeAll emptyMsg pairs).password = [] := by
      rw [fields, lastValue_eq_none.mpr absent]
      rfl
    have named : (storeAll emptyMsg pairs).sam = value := by
      rw [fields, sam]
      rfl
    have packable := (packMessage_passwordless empty).mp packed
    rw [named] at packable
    exact sound ⟨response, credential, present, ok, value, ⟨pairs, members, type, sam, absent⟩, packable⟩

theorem submits_passwordless (coherent : Coherent s)
    (submits : SubmitsPasswordless machine pointers os s cpus) :
    (getSerialization machine pointers os s cpus).2.response = some .returnCredentialFinished ∧
      ¬ Complete os.message := by
  obtain ⟨sam, ⟨pairs, members, type, user, absent⟩, packable⟩ := submits.message
  have fields := storeAll_empty pairs
  have named : (storeAll emptyMsg pairs).sam = sam := by
    rw [fields, user]
    rfl
  have empty : (storeAll emptyMsg pairs).password = [] := by
    rw [fields, lastValue_eq_none.mpr absent]
    rfl
  have success : (storeAll emptyMsg pairs).type = ascii "AUTH_SUCCESS" := by
    rw [fields, type]
    rfl
  constructor
  · refine (finished_iff coherent).mpr ⟨submits.response, submits.credential, submits.present,
      storeAll emptyMsg pairs, ?_, success, ?_⟩
    · refine received_iff.mpr ⟨submits.ok, pairs, members, ?_, rfl⟩
      rw [type]
      decide
    · exact (packMessage_passwordless empty).mpr (named.symm ▸ packable)
  · rintro ⟨others, written, _, _, password, inside⟩
    obtain rfl := members.unique written
    exact absent password inside

end Call

/-- A credential is submitted from complete messages only, exactly unless the call reads
an `AUTH_SUCCESS` message without a password and can pack an empty one. -/
theorem submission_complete_iff (machine : Machine) (pointers : OutPointers) (os : SerializationOs)
    (s : World) (cpus : UsageScenario) (reached : Reachable machine s) :
    ((getSerialization machine pointers os s cpus).2.response = some .returnCredentialFinished →
        Complete os.message) ↔
      ¬ SubmitsPasswordless machine pointers os s cpus := by
  constructor
  · intro complete submits
    obtain ⟨finished, incomplete⟩ := submits_passwordless reached.coherent submits
    exact incomplete (complete finished)
  · exact complete_of_submitted reached.coherent

def rawText (text : List UInt8) : List (Item RawByte) :=
  text.filterMap fun byte =>
    if plain : byte ≠ doubleQuote ∧ byte ≠ backslash then some (.literal ⟨byte, plain⟩) else none

def rawMember (pair : Pair) : Member RawByte := ⟨[], rawText pair.1, [], [], rawText pair.2, []⟩

def rawObject (first : Pair) (rest : List Pair) : Lenient RawByte :=
  ⟨[], .ofMembers (rawMember first) (rest.map rawMember), []⟩

def successType : Pair := (ascii "type", ascii "AUTH_SUCCESS")

def samMember : Pair := (ascii "sam", ascii "a")

def passwordMember : Pair := (ascii "password", ascii "b")

def completeObject : List UInt8 := (rawObject successType [samMember, passwordMember]).bytes

def passwordlessObject : List UInt8 := (rawObject successType [samMember]).bytes

theorem submission_complete_sample :
    (getSerialization sampleMachine allPointers (sampleSystem .ok completeObject) World.initial
        .logon).2.response = some .returnCredentialFinished ∧ Complete completeObject := by
  have finished : (getSerialization sampleMachine allPointers (sampleSystem .ok completeObject)
      World.initial .logon).2.response = some .returnCredentialFinished := by decide +kernel
  refine ⟨finished, (submission_complete_iff sampleMachine allPointers (sampleSystem .ok completeObject)
    World.initial .logon (Transition.Reachable.refl _)).mpr ?_ finished⟩
  intro submits
  obtain ⟨sam, ⟨pairs, members, _, _, absent⟩, _⟩ := submits.message
  have written : Members completeObject [successType, samMember, passwordMember] :=
    ⟨_, rfl, by decide +kernel⟩
  obtain rfl := members.unique written
  exact absent (ascii "b") (by decide +kernel)

theorem passwordless_submitted :
    (getSerialization sampleMachine allPointers (sampleSystem .ok passwordlessObject) World.initial
        .logon).2.response = some .returnCredentialFinished ∧ ¬ Complete passwordlessObject := by
  have finished : (getSerialization sampleMachine allPointers (sampleSystem .ok passwordlessObject)
      World.initial .logon).2.response = some .returnCredentialFinished := by decide +kernel
  refine ⟨finished, ?_⟩
  rintro ⟨pairs, members, _, _, password, inside⟩
  have written : Members passwordlessObject [successType, samMember] := ⟨_, rfl, by decide +kernel⟩
  obtain rfl := members.unique written
  have keys : ∀ pair ∈ [successType, samMember], pair.1 ≠ ascii "password" := by decide +kernel
  exact keys _ inside rfl

end Dot1xCP.Core
