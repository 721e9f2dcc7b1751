import Dot1xCP.Core.Coherence

/-! `GetSerialization` against the protocol table.

The table says which response a message calls for and whether the session goes on.
It speaks of what was received only; the theorem at the end compares it with the call
in every reachable state.
-/

set_option autoImplicit false

namespace Dot1xCP.Core
open Broker Auth

def Received (os : SerializationOs) (m : Msg) : Prop :=
  os.read = .ok ∧ parseJsonLine os.message emptyMsg = (true, m)

/-- The outcomes of a read after which the session goes on. -/
def Stays (os : SerializationOs) : Prop :=
  os.read = .timeout ∨
    ∃ m, Received os m ∧ (m.type = ascii "AUTH_PENDING" ∨ m.type = ascii "AUTH_IDLE")

section Table
variable (machine : Machine) (pointers : OutPointers) (os : SerializationOs)

/-- The state in which the call reads from the pipe, if it comes to that. -/
def atRead (s : World) : Option World :=
  if s.session.hPipe.isNone || s.session.pi.hProcess.isNone then
    match startBrokerSession pointers os s (clearedOut pointers) with
    | (s, none) => some s
    | (_, some _) => none
  else some s

def Succeeds (s : World) (cpus : UsageScenario) : Prop :=
  atRead pointers os s ≠ none ∧
    ∃ m, Received os m ∧ m.type = ascii "AUTH_SUCCESS" ∧ packMessage machine os m cpus ≠ none

def FallsBack (s : World) : Prop :=
  atRead pointers os s ≠ none ∧ ∃ m, Received os m ∧ m.type = ascii "AUTH_FALLBACK"

variable {os}

theorem Received.not_empty {m : Msg} (received : Received os m) : os.message.isEmpty = false := by
  cases empty : os.message with
  | cons => rfl
  | nil =>
    have read := received.2
    rw [empty] at read
    cases read

theorem Received.verdict {m : Msg} (received : Received os m) :
    verdict os.read os.message =
      if m.type = ascii "AUTH_PENDING" then .pending
      else if m.type = ascii "AUTH_IDLE" then .idle
      else .final m := by
  simp only [Broker.verdict, received.1, received.2, received.not_empty]
  rfl

theorem verdict_final {m : Msg} (final : verdict os.read os.message = .final m) :
    Received os m ∧ m.type ≠ ascii "AUTH_PENDING" ∧ m.type ≠ ascii "AUTH_IDLE" := by
  -- Only a message that was read, parsed, and is neither of the two holding answers.
  unfold verdict at final
  split at final
  · cases final
  · cases final
  · cases final
  next ok =>
    split at final
    · cases final
    · split at final
      · cases final
      next parsed =>
        split_ifs at final with pending idle
        cases final
        exact ⟨⟨ok, parsed⟩, pending, idle⟩

theorem verdict_lost (lost : os.read = .brokerExited ∨ os.read = .failed) :
    verdict os.read os.message = .lost := by
  rcases lost with lost | lost <;> rw [lost] <;> rfl

theorem continues_iff : (verdict os.read os.message).Continues ↔ Stays os := by
  constructor
  · intro continues
    unfold verdict at continues
    split at continues
    next timeout => exact Or.inl timeout
    · exact continues.elim
    · exact continues.elim
    next ok =>
      split at continues
      · exact continues.elim
      · split at continues
        · exact continues.elim
        next m parsed =>
          split_ifs at continues with pending idle
          · exact Or.inr ⟨m, ⟨ok, parsed⟩, Or.inl pending⟩
          · exact Or.inr ⟨m, ⟨ok, parsed⟩, Or.inr idle⟩
          · exact continues.elim
  · rintro (timeout | ⟨m, received, pending | idle⟩)
    · rw [timeout]
      trivial
    · rw [received.verdict, if_pos pending]
      trivial
    · have other : m.type ≠ ascii "AUTH_PENDING" := by
        rw [idle]
        decide
      rw [received.verdict, if_neg other, if_pos idle]
      trivial

/-- The response that the table assigns to a verdict. -/
def responseOf (os : SerializationOs) (cpus : UsageScenario) : Verdict → Response
  | .final m =>
    if m.type = ascii "AUTH_FALLBACK" then .noCredentialFinished
    else if m.type = ascii "AUTH_SUCCESS" ∧ packMessage machine os m cpus ≠ none then
      .returnCredentialFinished
    else .noCredentialNotFinished
  | _ => .noCredentialNotFinished

/-- What an answer to the caller looks like: one response, and a credential with a blob
exactly with the response that promises one. -/
structure Answers (out : SerializationOut) (expected : Response) : Prop where
  hr : out.hr = .sOk
  response : out.response = some expected
  credential : out.credential ≠ some .zero ↔ expected = .returnCredentialFinished
  blob : (∃ credential, out.credential = some credential ∧ credential.rgbSerialization ≠ none) ↔
    expected = .returnCredentialFinished

theorem answers_notFinished (os : SerializationOs) (text : Option String) :
    Answers (notFinished pointers os (clearedOut pointers) text) .noCredentialNotFinished := by
  unfold notFinished setOptionalStatusText
  split <;> exact ⟨rfl, rfl, by simp [clearedOut], by simp [clearedOut, CredentialSerialization.zero]⟩

theorem answers_answer (os : SerializationOs) (cpus : UsageScenario) (verdict : Verdict) :
    Answers (answer machine pointers os (clearedOut pointers) cpus verdict)
      (responseOf machine os cpus verdict) := by
  cases verdict with
  | timeout | lost | empty | malformed | pending | idle => exact answers_notFinished pointers os _
  | final m =>
    simp only [answer, finalAnswer, responseOf]
    by_cases fallback : m.type = ascii "AUTH_FALLBACK"
    · have other : m.type ≠ ascii "AUTH_FAIL" := by
        rw [fallback]
        decide
      rw [if_neg other, if_pos fallback, if_pos fallback]
      exact ⟨rfl, rfl, by simp [clearedOut], by simp [clearedOut, CredentialSerialization.zero]⟩
    · by_cases success : m.type = ascii "AUTH_SUCCESS"
      · have other : m.type ≠ ascii "AUTH_FAIL" := by
          rw [success]
          decide
        rw [if_neg other, if_neg fallback, if_pos success, if_neg fallback]
        cases packed : packMessage machine os m cpus with
        | none =>
          rw [if_neg (by simp)]
          exact answers_notFinished pointers os _
        | some pk =>
          rw [if_pos ⟨success, by simp⟩]
          exact ⟨rfl, rfl, by simp [credentialOf, CredentialSerialization.zero],
            by simp [credentialOf]⟩
      -- A failure and an unknown type differ in the status text only.
      · simp only [fallback, success, if_false, false_and]
        split_ifs <;> exact answers_notFinished pointers os _

section After
variable {s : World}

theorem request_session (os : RefreshOs) (s : World) (delayMs : Nat) (generation : BitVec 32) :
    (requestCredentialsChangedAsync os s delayMs generation).session = s.session ∧
    (requestCredentialsChangedAsync os s delayMs generation).brokerSessionActive =
      s.brokerSessionActive ∧
    (requestCredentialsChangedAsync os s delayMs generation).brokerAwaitingFinal =
      s.brokerAwaitingFinal ∧
    (requestCredentialsChangedAsync os s delayMs generation).lastBrokerFlowState =
      s.lastBrokerFlowState ∧
    (requestCredentialsChangedAsync os s delayMs generation).sessionGeneration =
      s.sessionGeneration := by
  obtain ⟨pending, outstanding, effects, same, _⟩ :=
    requestCredentialsChangedAsync_frame os s delayMs generation
  rw [same]
  exact ⟨rfl, rfl, rfl, rfl, rfl⟩

theorem afterRead_continues (os : SerializationOs) (s : World) {verdict : Verdict}
    (continues : verdict.Continues) :
    (afterRead os s verdict).session = s.session ∧
      (afterRead os s verdict).brokerSessionActive = s.brokerSessionActive ∧
      (afterRead os s verdict).sessionGeneration = s.sessionGeneration := by
  cases verdict with
  | timeout | pending | idle =>
    obtain ⟨session, active, _, _, generation⟩ := request_session os.refresh _ _ _
    exact ⟨session, active, generation⟩
  | lost | empty | malformed | final => exact continues.elim

/-- Every other verdict ends it. -/
theorem afterRead_ends (os : SerializationOs) (s : World) {verdict : Verdict}
    (ends : ¬ verdict.Continues) :
    (afterRead os s verdict).session = .closed ∧
      (afterRead os s verdict).brokerSessionActive = false ∧
      (afterRead os s verdict).brokerAwaitingFinal = false ∧
      (afterRead os s verdict).lastBrokerFlowState = .none ∧
      (afterRead os s verdict).sessionGeneration = s.sessionGeneration + 1 := by
  cases verdict with
  | timeout | pending | idle => exact absurd trivial ends
  | lost => exact request_session os.refresh _ _ _
  | empty | malformed | final => exact ⟨rfl, rfl, rfl, rfl, rfl⟩

theorem succ_ne (generation : BitVec 32) : generation + 1 ≠ generation := by
  intro same
  simp at same

end After

/-! ## The call -/

theorem responseOf_returned (os : SerializationOs) (cpus : UsageScenario) :
    responseOf machine os cpus (verdict os.read os.message) = .returnCredentialFinished ↔
      ∃ m, Received os m ∧ m.type = ascii "AUTH_SUCCESS" ∧ packMessage machine os m cpus ≠ none := by
  constructor
  · intro returned
    cases read : verdict os.read os.message with
    | timeout | lost | empty | malformed | pending | idle =>
      rw [read] at returned
      cases returned
    | final m =>
      rw [read, responseOf] at returned
      split_ifs at returned with fallback success
      exact ⟨m, (verdict_final read).1, success.1, success.2⟩
  · rintro ⟨m, received, success, packed⟩
    have notPending : m.type ≠ ascii "AUTH_PENDING" := by rw [success]; decide
    have notIdle : m.type ≠ ascii "AUTH_IDLE" := by rw [success]; decide
    have notFallback : m.type ≠ ascii "AUTH_FALLBACK" := by rw [success]; decide
    rw [received.verdict, if_neg notPending, if_neg notIdle, responseOf, if_neg notFallback,
      if_pos ⟨success, packed⟩]

theorem responseOf_finished (os : SerializationOs) (cpus : UsageScenario) :
    responseOf machine os cpus (verdict os.read os.message) = .noCredentialFinished ↔
      ∃ m, Received os m ∧ m.type = ascii "AUTH_FALLBACK" := by
  constructor
  · intro finished
    cases read : verdict os.read os.message with
    | timeout | lost | empty | malformed | pending | idle =>
      rw [read] at finished
      cases finished
    | final m =>
      rw [read, responseOf] at finished
      split_ifs at finished with fallback
      exact ⟨m, (verdict_final read).1, fallback⟩
  · rintro ⟨m, received, fallback⟩
    have notPending : m.type ≠ ascii "AUTH_PENDING" := by rw [fallback]; decide
    have notIdle : m.type ≠ ascii "AUTH_IDLE" := by rw [fallback]; decide
    rw [received.verdict, if_neg notPending, if_neg notIdle, responseOf, if_pos fallback]

variable {pointers}

/-- A call either reads from a session, old or new, or fails to start one. -/
theorem call_cases {s : World} (coherent : Coherent s) (response : pointers.pcpgsr = true)
    (credential : pointers.pcpcs = true) (os : SerializationOs) (cpus : UsageScenario) :
    (∃ s₁, atRead pointers os s = some s₁ ∧
      (s₁ = s ∧ s.brokerSessionActive = true ∨ s₁ = World.started s) ∧
      getSerialization machine pointers os s cpus =
        (afterRead os s₁ (verdict os.read os.message),
          answer machine pointers os (clearedOut pointers) cpus (verdict os.read os.message))) ∨
    (atRead pointers os s = none ∧
      s.brokerSessionActive = false ∧ startVerdict os ≠ .started ∧ ∃ text,
      getSerialization machine pointers os s cpus =
        (afterStart os s (startVerdict os), notFinished pointers os (clearedOut pointers) text)) := by
  cases active : s.brokerSessionActive with
  | true =>
    have pipe := coherent.pipe.trans active
    have process := coherent.process.trans active
    refine Or.inl ⟨s, ?_, Or.inl ⟨rfl, rfl⟩,
      getSerialization_live machine os response credential pipe process cpus⟩
    simp [atRead, Option.isNone_eq_false_iff.mpr pipe, Option.isNone_eq_false_iff.mpr process]
  | false =>
    have closed := coherent.closed active
    have absent : (s.session.hPipe.isNone || s.session.pi.hProcess.isNone) = true := by
      rw [closed.1]
      rfl
    rw [getSerialization_closed machine os response credential closed, atRead, if_pos absent,
      startBrokerSession_eq pointers os closed]
    by_cases started : startVerdict os = .started
    · rw [if_pos started, if_pos started]
      exact Or.inl ⟨World.started s, by rw [started]; rfl, Or.inr rfl, rfl⟩
    · rw [if_neg started, if_neg started]
      exact Or.inr ⟨rfl, rfl, started, _, rfl⟩

/-- The response is the one that the table assigns to what was received. -/
theorem call_answers {s : World} (coherent : Coherent s) (response : pointers.pcpgsr = true)
    (credential : pointers.pcpcs = true) (os : SerializationOs) (cpus : UsageScenario) :
    ∃ expected, Answers (getSerialization machine pointers os s cpus).2 expected ∧
      (expected = .returnCredentialFinished ↔ Succeeds machine pointers os s cpus) ∧
      (expected = .noCredentialFinished ↔ FallsBack pointers os s) := by
  rcases call_cases machine coherent response credential os cpus with
    ⟨s₁, read, _, same⟩ | ⟨unread, _, _, text, same⟩
  · have present : atRead pointers os s ≠ none := by simp [read]
    refine ⟨responseOf machine os cpus (verdict os.read os.message), ?_, ?_, ?_⟩
    · rw [same]
      exact answers_answer machine pointers os cpus _
    · rw [responseOf_returned, Succeeds, and_iff_right present]
    · rw [responseOf_finished, FallsBack, and_iff_right present]
  · refine ⟨.noCredentialNotFinished, ?_, ?_, ?_⟩
    · rw [same]
      exact answers_notFinished pointers os text
    · exact iff_of_false Response.noConfusion fun succeeds => succeeds.1 unread
    · exact iff_of_false Response.noConfusion fun fallsBack => fallsBack.1 unread

/-- The session goes on as it was exactly after the outcomes that say so; otherwise
nothing is left of it. -/
theorem call_session {s s₁ : World} (coherent : Coherent s) (response : pointers.pcpgsr = true)
    (credential : pointers.pcpcs = true) (os : SerializationOs) (cpus : UsageScenario)
    (read : atRead pointers os s = some s₁) :
    let after := (getSerialization machine pointers os s cpus).1
    ((after.session = s₁.session ∧ after.brokerSessionActive = s₁.brokerSessionActive ∧
        after.sessionGeneration = s₁.sessionGeneration) ↔ Stays os) ∧
      (¬ Stays os →
        after.session = .closed ∧ after.brokerSessionActive = false ∧
          after.brokerAwaitingFinal = false ∧ after.lastBrokerFlowState = .none ∧
          after.sessionGeneration ≠ s.sessionGeneration) := by
  rcases call_cases machine coherent response credential os cpus with
    ⟨s₂, read', origin, same⟩ | ⟨unread, _⟩
  · have generation : s₂.sessionGeneration = s.sessionGeneration := by
      rcases origin with ⟨rfl, _⟩ | rfl <;> rfl
    have agree : s₂ = s₁ := Option.some_inj.mp (read'.symm.trans read)
    subst agree
    rw [same, ← continues_iff]
    dsimp only
    constructor
    · constructor
      · rintro ⟨_, _, kept⟩
        -- The generation alone tells a session that ended from one that was kept.
        by_contra ends
        exact succ_ne _ ((afterRead_ends os s₂ ends).2.2.2.2.symm.trans kept)
      · exact afterRead_continues os s₂
    · intro ends
      obtain ⟨session, active, awaiting, flow, next⟩ := afterRead_ends os s₂ ends
      refine ⟨session, active, awaiting, flow, ?_⟩
      rw [next, generation]
      exact succ_ne _
  · rw [read] at unread
    cases unread

/-- The call refines the protocol table, in every reachable state and whatever the
system answers. -/
theorem getSerialization_table (machine : Machine) (pointers : OutPointers) (os : SerializationOs)
    (s : World) (cpus : UsageScenario) (reached : Reachable machine s)
    (response : pointers.pcpgsr = true) (credential : pointers.pcpcs = true) :
    let call := getSerialization machine pointers os s cpus
    call.2.hr = .sOk ∧
    (call.2.response = some .returnCredentialFinished ↔ Succeeds machine pointers os s cpus) ∧
    (call.2.response = some .noCredentialFinished ↔ FallsBack pointers os s) ∧
    (call.2.response = some .noCredentialNotFinished ↔
      ¬ Succeeds machine pointers os s cpus ∧ ¬ FallsBack pointers os s) ∧
    (call.2.credential ≠ some .zero ↔ Succeeds machine pointers os s cpus) ∧
    ((∃ credential, call.2.credential = some credential ∧ credential.rgbSerialization ≠ none) ↔
      Succeeds machine pointers os s cpus) ∧
    ∀ s₁, atRead pointers os s = some s₁ →
      ((call.1.session = s₁.session ∧ call.1.brokerSessionActive = s₁.brokerSessionActive ∧
          call.1.sessionGeneration = s₁.sessionGeneration) ↔ Stays os) ∧
      (¬ Stays os →
        call.1.session = .closed ∧ call.1.brokerSessionActive = false ∧
          call.1.brokerAwaitingFinal = false ∧ call.1.lastBrokerFlowState = .none ∧
          call.1.sessionGeneration ≠ s.sessionGeneration) := by
  intro call
  have coherent := reached.coherent
  obtain ⟨expected, answers, returned, finished⟩ :=
    call_answers machine coherent response credential os cpus
  have chosen (r : Response) : call.2.response = some r ↔ expected = r := by
    rw [answers.response, Option.some_inj]
  refine ⟨answers.hr, (chosen _).trans returned, (chosen _).trans finished, ?_,
    answers.credential.trans returned, answers.blob.trans returned,
    fun s₁ read => call_session machine coherent response credential os cpus read⟩
  rw [chosen, ← returned, ← finished]
  cases expected <;> decide

end Table

theorem getSerialization_table_timeout :
    let os := sampleSystem .timeout []
    let call := getSerialization sampleMachine allPointers os World.initial .logon
    call.2.response = some .noCredentialNotFinished ∧ call.1.brokerSessionActive = true := by
  intro os call
  obtain ⟨_, _, _, response, _, _, session⟩ :=
    getSerialization_table sampleMachine allPointers os World.initial .logon
      (Transition.Reachable.refl _) rfl rfl
  have silent (m : Msg) : ¬ Received os m := fun received => by cases received.1
  have kept := (session (World.started World.initial) rfl).1.mpr (Or.inl rfl)
  exact ⟨response.mpr ⟨fun ⟨_, m, received, _⟩ => silent m received,
    fun ⟨_, m, received, _⟩ => silent m received⟩, kept.2.1⟩

end Dot1xCP.Core
