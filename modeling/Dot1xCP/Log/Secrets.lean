import Dot1xCP.Core.Recovery
import Dot1xCP.Log.Runs

/-! What a broker message leaves behind.

Two messages that look alike have the same effect on the session, the log and the answers;
only the bytes of the returned blob tell them apart.
-/

set_option autoImplicit false

namespace Dot1xCP.Log
open Dot1xCP.Core Broker Auth Transition

/-- What is to be seen of a message: its kind, and of the credentials whether there is a user
and the length of both names together. -/
inductive Shown where
  | empty
  | unparsable
  | pending
  | idle
  | fail
  | fallback
  | success (userEmpty : Bool) (units : Nat)
  | unknown
  deriving DecidableEq, Repr

def kind (machine : Machine) (m : Msg) : Shown :=
  if m.type = ascii "AUTH_PENDING" then .pending
  else if m.type = ascii "AUTH_IDLE" then .idle
  else if m.type = ascii "AUTH_FAIL" then .fail
  else if m.type = ascii "AUTH_FALLBACK" then .fallback
  else if m.type = ascii "AUTH_SUCCESS" then
    .success (widen machine m.sam).isEmpty
      ((widen machine m.sam).length + (widen machine m.password).length)
  else .unknown

def shown (machine : Machine) (message : List UInt8) : Shown :=
  if message.isEmpty then .empty
  else
    match parseJsonLine message ⟨[], [], [], []⟩ with
    | (false, _) => .unparsable
    | (true, m) => kind machine m

def Shown.type : Shown → Option (List UInt8)
  | .pending => some (ascii "AUTH_PENDING")
  | .idle => some (ascii "AUTH_IDLE")
  | .fail => some (ascii "AUTH_FAIL")
  | .fallback => some (ascii "AUTH_FALLBACK")
  | .success _ _ => some (ascii "AUTH_SUCCESS")
  | .empty | .unparsable | .unknown => none

section Kind
variable (machine : Machine) (m : Msg)

theorem kind_type {name : List UInt8} (known : name ∈ messageTypes) :
    (kind machine m).type = some name ↔ m.type = name := by
  fun_cases kind machine m with
  | case1 same | case2 _ same | case3 _ _ same | case4 _ _ _ same | case5 _ _ _ _ same =>
    rw [same]
    exact Option.some_inj
  | case6 pending idle fail fallback success =>
    refine iff_of_false (by rintro ⟨⟩) ?_
    rintro rfl
    simp [messageTypes, pending, idle, fail, fallback, success] at known

theorem types_agree {m m' : Msg} (same : kind machine m = kind machine m') {name : List UInt8}
    (known : name ∈ messageTypes) : m.type = name ↔ m'.type = name := by
  rw [← kind_type machine m known, ← kind_type machine m' known, same]

theorem kind_success {userEmpty : Bool} {units : Nat} :
    kind machine m = .success userEmpty units ↔ m.type = ascii "AUTH_SUCCESS" ∧
      (widen machine m.sam).isEmpty = userEmpty ∧
      (widen machine m.sam).length + (widen machine m.password).length = units := by
  fun_cases kind machine m with
  | case1 same | case2 _ same | case3 _ _ same | case4 _ _ _ same =>
    rw [same]
    exact iff_of_false (by simp) fun success => absurd success.1 (by decide)
  | case5 _ _ _ _ same =>
    rw [Shown.success.injEq]
    exact ⟨fun both => ⟨same, both⟩, And.right⟩
  | case6 _ _ _ _ other => exact iff_of_false (by simp) fun success => other success.1

theorem kind_ne : kind machine m ≠ .empty ∧ kind machine m ≠ .unparsable := by
  unfold kind
  split_ifs <;> simp

end Kind

theorem packMsv_size (abi : Abi) (os : AuthOs) (domain : WString) (scen : Scenario)
    {user pass user' pass' : WString} (empty : user.isEmpty = user'.isEmpty)
    (units : user.length + pass.length = user'.length + pass'.length) :
    (Auth.packMsv abi os domain user pass scen).map (fun pk => (pk.authPkg, pk.size)) =
      (Auth.packMsv abi os domain user' pass' scen).map fun pk => (pk.authPkg, pk.size) := by
  have bytes (cbH : Nat) (dom : WString) : cbH + byteCount dom + byteCount user + byteCount pass =
      cbH + byteCount dom + byteCount user' + byteCount pass' := by
    simp only [byteCount]
    omega
  unfold Auth.packMsv
  rw [empty]
  cases user'.isEmpty with
  | true => rfl
  | false =>
    have passes : (guard ((!false) = true) : Option Unit) = some () := rfl
    rw [passes]
    cases os.resolveMsv with
    | none => rfl
    | some pkg =>
      cases scen with
      | logon =>
        simp only [coAllocZero, bytes]
        cases os.coTaskMemAlloc _ <;> simp
      | unlock =>
        cases getConsoleLogonId os with
        | none => rfl
        | some lid =>
          simp only [coAllocZero, bytes]
          cases os.coTaskMemAlloc _ <;> simp

/-- The same to everyone who does not look into the blob. -/
def Alike (first second : World × SerializationOut) : Prop :=
  first.1 = second.1 ∧ Answer.of first.2 = Answer.of second.2

theorem Alike.refl (done : World × SerializationOut) : Alike done done := ⟨rfl, rfl⟩

section Messages
variable (lo : LogOs) (machine : Machine) (pointers : OutPointers) (os : SerializationOs) (lsa : Lsa)
  (s : World) (out : SerializationOut) (cpus : UsageScenario) (pi : ProcessInformation) {m m' : Msg}

theorem handleAuthSuccessMessage_alike
    (empty : (widen machine m.sam).isEmpty = (widen machine m'.sam).isEmpty)
    (units : (widen machine m.sam).length + (widen machine m.password).length =
      (widen machine m'.sam).length + (widen machine m'.password).length) :
    Alike (Broker.handleAuthSuccessMessage machine pointers os s out m cpus pi)
      (Broker.handleAuthSuccessMessage machine pointers os s out m' cpus pi) ∧
    handleAuthSuccessMessage lo machine os lsa m cpus pi =
      handleAuthSuccessMessage lo machine os lsa m' cpus pi := by
  have size := packMsv_size machine.abi os.auth dot
    (if cpus = .unlockWorkstation then .unlock else .logon) empty units
  have packs (user pass : WString) (scen : Scenario) : Auth.packAutoEx machine.abi os.auth dot user pass scen =
      Auth.packMsv machine.abi os.auth dot user pass scen := if_pos (by decide)
  have caches : packAutoEx lo lsa dot (widen machine m.sam) = packAutoEx lo lsa dot (widen machine m'.sam) := by
    simp only [packAutoEx, packMsv, packKerb, empty]
  unfold Broker.handleAuthSuccessMessage handleAuthSuccessMessage
  dsimp only
  rw [caches, packs, packs]
  generalize Auth.packMsv _ _ _ (widen machine m.sam) _ _ = packed at size ⊢
  generalize Auth.packMsv _ _ _ (widen machine m'.sam) _ _ = packed' at size ⊢
  cases packed with
  | none =>
    cases packed' with
    | none => exact ⟨.refl _, rfl⟩
    | some pk' => cases size
  | some pk =>
    cases packed' with
    | none => cases size
    | some pk' =>
      rw [Option.map_some, Option.map_some, Option.some_inj, Prod.mk.injEq] at size
      refine ⟨⟨rfl, ?_⟩, ?_⟩
      · simp only [Answer.of, size.1, size.2]
        rfl
      · simp only [size.1, size.2]

theorem handleParsedBrokerMessage_alike (same : kind machine m = kind machine m') :
    Alike (Broker.handleParsedBrokerMessage machine pointers os s out m cpus pi)
      (Broker.handleParsedBrokerMessage machine pointers os s out m' cpus pi) ∧
    handleParsedBrokerMessage lo machine os lsa m cpus pi =
      handleParsedBrokerMessage lo machine os lsa m' cpus pi := by
  have fail : m.type = ascii "AUTH_FAIL" ↔ m'.type = ascii "AUTH_FAIL" :=
    types_agree machine same (by simp [messageTypes])
  have fallback : m.type = ascii "AUTH_FALLBACK" ↔ m'.type = ascii "AUTH_FALLBACK" :=
    types_agree machine same (by simp [messageTypes])
  unfold Broker.handleParsedBrokerMessage handleParsedBrokerMessage
  dsimp only
  by_cases failed : m'.type = ascii "AUTH_FAIL"
  · simp only [if_pos failed, if_pos (fail.mpr failed)]
    exact ⟨.refl _, trivial⟩
  · simp only [if_neg failed, if_neg (mt fail.mp failed)]
    by_cases back : m'.type = ascii "AUTH_FALLBACK"
    · simp only [if_pos back, if_pos (fallback.mpr back)]
      exact ⟨.refl _, trivial⟩
    · simp only [if_neg back, if_neg (mt fallback.mp back)]
      by_cases success : m'.type = ascii "AUTH_SUCCESS"
      · obtain ⟨success', empty, units⟩ :=
          (kind_success machine m).mp (same.trans ((kind_success machine m').mpr ⟨success, rfl, rfl⟩))
        simp only [if_pos success, if_pos success']
        exact handleAuthSuccessMessage_alike lo machine pointers os lsa s out cpus pi empty units
      · have other : m.type ≠ ascii "AUTH_SUCCESS" := fun success' => success
          ((kind_success machine m').mp (same.symm.trans
            ((kind_success machine m).mpr ⟨success', rfl, rfl⟩))).1
        simp only [if_neg success, if_neg other]
        exact ⟨.refl _, trivial⟩

theorem shown_empty (message : List UInt8) : shown machine message = .empty ↔ message.isEmpty = true := by
  fun_cases shown machine message with
  | case1 empty => exact iff_of_true rfl empty
  | case2 nonempty => exact iff_of_false (by simp) nonempty
  | case3 nonempty m => exact iff_of_false (kind_ne machine m).1 nonempty

theorem shown_parsed {message : List UInt8} (nonempty : ¬ message.isEmpty = true) {ok : Bool} {m : Msg}
    (parsed : parseJsonLine message ⟨[], [], [], []⟩ = (ok, m)) :
    shown machine message = if ok then kind machine m else .unparsable := by
  rw [shown, if_neg nonempty, parsed]
  cases ok <;> rfl

theorem readBrokerMessage_alike {message : List UInt8}
    (same : shown machine os.message = shown machine message) :
    Alike (Broker.readBrokerMessage machine pointers os s out cpus)
      (Broker.readBrokerMessage machine pointers { os with message := message } s out cpus) ∧
    readBrokerMessage lo machine os lsa s cpus =
      readBrokerMessage lo machine { os with message := message } lsa s cpus := by
  have empty : os.message.isEmpty = message.isEmpty := by
    rw [Bool.eq_iff_iff, ← shown_empty machine, ← shown_empty machine, same]
  unfold Broker.readBrokerMessage readBrokerMessage
  dsimp only
  rw [empty]
  by_cases timeout : os.read = .timeout
  · simp only [if_pos timeout]
    exact ⟨.refl _, trivial⟩
  · simp only [if_neg timeout]
    by_cases broken : os.read ≠ .ok ∨ message.isEmpty = true
    · simp only [if_pos broken]
      exact ⟨.refl _, trivial⟩
    · simp only [if_neg broken]
      have nonempty : ¬ message.isEmpty = true := fun empty => broken (Or.inr empty)
      have nonempty' : ¬ os.message.isEmpty = true := fun now => nonempty (empty.symm.trans now)
      cases parsed : parseJsonLine os.message ⟨[], [], [], []⟩ with | mk ok m =>
      cases parsed' : parseJsonLine message ⟨[], [], [], []⟩ with | mk ok' m' =>
      rw [shown_parsed machine nonempty' parsed, shown_parsed machine nonempty parsed'] at same
      cases ok <;> cases ok'
      · exact ⟨.refl _, rfl⟩
      · exact absurd same.symm (kind_ne machine m').2
      · exact absurd same (kind_ne machine m).2
      · have same : kind machine m = kind machine m' := same
        have pending : m.type = ascii "AUTH_PENDING" ↔ m'.type = ascii "AUTH_PENDING" :=
          types_agree machine same (by simp [messageTypes])
        have idle : m.type = ascii "AUTH_IDLE" ↔ m'.type = ascii "AUTH_IDLE" :=
          types_agree machine same (by simp [messageTypes])
        dsimp only
        by_cases awaiting : m'.type = ascii "AUTH_PENDING"
        · simp only [if_pos awaiting, if_pos (pending.mpr awaiting)]
          exact ⟨.refl _, trivial⟩
        · simp only [if_neg awaiting, if_neg (mt pending.mp awaiting)]
          by_cases resting : m'.type = ascii "AUTH_IDLE"
          · simp only [if_pos resting, if_pos (idle.mpr resting)]
            exact ⟨.refl _, trivial⟩
          · simp only [if_neg resting, if_neg (mt idle.mp resting)]
            obtain ⟨alike, calls⟩ := handleParsedBrokerMessage_alike lo machine pointers os lsa
              (Broker.updateBrokerFlowState (setBrokerAwaitingFinal (detachBrokerSession s).1 false) .none)
              out cpus s.session.pi same
            exact ⟨alike, congrArg (fun after => (after.1, lo.readFailures.map LogCall.read ++ after.2)) calls⟩

theorem getSerialization_alike {message : List UInt8}
    (same : shown machine os.message = shown machine message) :
    Alike (Broker.getSerialization machine pointers os s cpus)
      (Broker.getSerialization machine pointers { os with message := message } s cpus) ∧
    getSerialization lo machine pointers os lsa s cpus =
      getSerialization lo machine pointers { os with message := message } lsa s cpus := by
  have read (s : World) (out : SerializationOut) :=
    readBrokerMessage_alike lo machine pointers os lsa s out cpus same
  have started : Broker.startBrokerSession pointers { os with message := message } s (clearedOut pointers) =
      Broker.startBrokerSession pointers os s (clearedOut pointers) := rfl
  have logged : startBrokerSession lo { os with message := message } s = startBrokerSession lo os s := rfl
  unfold Broker.getSerialization getSerialization
  dsimp only
  rw [started, logged]
  by_cases null : (!pointers.pcpgsr || !pointers.pcpcs) = true
  · simp only [if_pos null]
    exact ⟨.refl _, trivial⟩
  · simp only [if_neg null]
    by_cases none : (s.session.hPipe.isNone || s.session.pi.hProcess.isNone) = true
    · simp only [if_pos none]
      rcases Broker.startBrokerSession pointers os s (clearedOut pointers) with ⟨s, _ | out⟩
      · refine ⟨(read s _).1, ?_⟩
        dsimp only
        rw [(read s (clearedOut pointers)).2]
      · exact ⟨.refl _, rfl⟩
    · simp only [if_neg none]
      exact read s _

end Messages

/-! ## Whole runs -/

inductive SameToSee (machine : Machine) : Event → Event → Prop
  | same (event : Event) : SameToSee machine event event
  | message (cpus : UsageScenario) (pointers : OutPointers) (os : SerializationOs) (lo : LogOs)
      (message : List UInt8) (same : shown machine os.message = shown machine message) :
      SameToSee machine (.call (.getSerialization cpus pointers os) lo)
        (.call (.getSerialization cpus pointers { os with message := message }) lo)

theorem step_sameToSee {machine : Machine} {first second : Event} (same : SameToSee machine first second)
    (s : Logged) : step machine s first = step machine s second := by
  cases same with
  | same => rfl
  | message cpus pointers os lo message same =>
    obtain ⟨⟨world, answer⟩, calls⟩ :=
      getSerialization_alike lo machine pointers (answered lo s.lsa os) s.lsa s.world cpus same
    change some (report machine s lo _ (.getSerialization cpus pointers (answered lo s.lsa os))) =
      some (report machine s lo _ (.getSerialization cpus pointers
        { answered lo s.lsa os with message := message }))
    simp only [report, calls, answer, world]
    rfl

/-- Runs that differ in messages that look the same end in the same state, the log and the
answers of `GetSerialization` included: nothing but the blob shows a credential, except for
whether there is a user and how long it is. -/
theorem run_sameToSee (machine : Machine) {first second : List Event}
    (same : List.Forall₂ (SameToSee machine) first second) (s : Logged) :
    run (step machine) s first = run (step machine) s second := by
  induction same generalizing s with
  | nil => rfl
  | cons event _ ih =>
    rw [run, run, step_sameToSee event]
    exact congrArg _ (funext ih)

def firstSecret : List UInt8 :=
  ascii "\x7b\"type\":\"AUTH_SUCCESS\",\"sam\":\"ab\",\"password\":\"cde\"\x7d"

def secondSecret : List UInt8 :=
  ascii "\x7b \"password\":\"\\u0020z\",\"sam\":\"xyz\",\"type\":\"AUTH_SUCCESS\"\x7d"

theorem run_sameToSee_secrets :
    run (step sampleMachine) .initial (sampleEvents firstSecret) =
      run (step sampleMachine) .initial (sampleEvents secondSecret) ∧
    (run (step sampleMachine) .initial (sampleEvents firstSecret)).map (fun s => s.answers.map Answer.response) =
      some [some .returnCredentialFinished] := by
  have alike : shown sampleMachine firstSecret = shown sampleMachine secondSecret := by decide +kernel
  refine ⟨run_sameToSee sampleMachine (.cons ?_ (.cons (.same _) .nil)) _, by decide +kernel⟩
  exact .message .logon allPointers (sampleSystem .ok firstSecret) sampleLogOs secondSecret alike

end Dot1xCP.Log
