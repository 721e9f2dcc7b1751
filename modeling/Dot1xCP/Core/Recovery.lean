import Dot1xCP.Core.Polling

/-! What is left behind by a call that ends a session.

A broker that failed is meant to be started again without the user, so a refresh has to
be outstanding after the call; only the branch for a broker that is lost at the read asks
for one. A broker that succeeded is not meant to be started again, but the end of its
session opens the auto-submit window.
-/

set_option autoImplicit false

namespace Dot1xCP.Core
open Broker Auth

/-! ## After a failure -/

def messageTypes : List (List UInt8) :=
  [ascii "AUTH_PENDING", ascii "AUTH_IDLE", ascii "AUTH_SUCCESS", ascii "AUTH_FAIL",
    ascii "AUTH_FALLBACK"]

/-- The ways in which a broker fails a call. -/
inductive Failure (machine : Machine) (pointers : OutPointers) (os : SerializationOs) (s : World)
    (cpus : UsageScenario) : Prop where
  /-- No pipe, no process, or no connection. -/
  | start (unread : atRead pointers os s = none)
  | read (present : atRead pointers os s ≠ none) (lost : os.read = .brokerExited ∨ os.read = .failed)
  | parse (present : atRead pointers os s ≠ none) (ok : os.read = .ok)
      (unparsable : ∀ m, ¬ Received os m)
  | type (present : atRead pointers os s ≠ none) (m : Msg) (received : Received os m)
      (unknown : m.type ∉ messageTypes)
  | pack (present : atRead pointers os s ≠ none) (m : Msg) (received : Received os m)
      (success : m.type = ascii "AUTH_SUCCESS") (unpacked : packMessage machine os m cpus = none)

def BrokerFailed (machine : Machine) (s : World) : Call → Prop
  | .getSerialization cpus pointers os =>
    pointers.pcpgsr = true ∧ pointers.pcpcs = true ∧ Failure machine pointers os s cpus
  | _ => False

def CanRequest (s : World) : Call → Prop
  | .getSerialization _ _ os =>
    s.cpEvents.isSome = true ∧ s.refreshPending = false ∧ os.refresh.newCtx = true ∧
      os.refresh.createThreadpoolTimer = true
  | _ => False

/-- The broker exited or could not be read from, in a session that was there or had just
been started. -/
def LostAtRead (s : World) : Call → Prop
  | .getSerialization _ pointers os =>
    atRead pointers os s ≠ none ∧ (os.read = .brokerExited ∨ os.read = .failed)
  | _ => False

section Failures
variable {machine : Machine} {pointers : OutPointers} {os : SerializationOs} {s : World}
  {cpus : UsageScenario}

theorem Received.unique {m other : Msg} (first : Received os m) (second : Received os other) :
    m = other :=
  (Prod.mk.inj (first.2.symm.trans second.2)).2

theorem Received.not_stays {m : Msg} (received : Received os m)
    (notPending : m.type ≠ ascii "AUTH_PENDING") (notIdle : m.type ≠ ascii "AUTH_IDLE") :
    ¬ Stays os := by
  rintro (timeout | ⟨other, second, holds⟩)
  · cases received.1.symm.trans timeout
  · rw [received.unique second] at notPending notIdle
    exact holds.elim notPending notIdle

theorem afterRead_unrequested (ok : os.read = .ok) (ends : ¬ Stays os) (s : World) :
    (afterRead os s (verdict os.read os.message)).outstanding = s.outstanding := by
  have stops := mt continues_iff.mp ends
  cases read : verdict os.read os.message with
  | timeout | pending | idle =>
    rw [read] at stops
    exact absurd trivial stops
  | lost =>
    rw [ok, verdict] at read
    -- A read that succeeded is not a lost broker, whatever it delivered.
    split at read
    · cases read
    · split at read
      · cases read
      · split_ifs at read
  | empty | malformed | final => rfl

theorem Failure.ends (failure : Failure machine pointers os s cpus)
    (present : atRead pointers os s ≠ none) (kept : ¬ (os.read = .brokerExited ∨ os.read = .failed)) :
    os.read = .ok ∧ ¬ Stays os := by
  cases failure with
  | start unread => exact absurd unread present
  | read _ lost => exact absurd lost kept
  | parse _ ok unparsable =>
    refine ⟨ok, ?_⟩
    rintro (timeout | ⟨m, received, _⟩)
    · cases ok.symm.trans timeout
    · exact unparsable m received
  | type _ m received unknown =>
    refine ⟨received.1, received.not_stays ?_ ?_⟩
    · intro pending
      exact unknown (pending ▸ List.mem_cons_self)
    · intro idle
      exact unknown (idle ▸ List.mem_cons_of_mem _ List.mem_cons_self)
  | pack _ m received success _ =>
    refine ⟨received.1, received.not_stays ?_ ?_⟩
    · rw [success]
      decide
    · rw [success]
      decide

/-- With no refresh pending, a failure leaves one exactly when the broker was lost at the
read. -/
theorem failure_awaited (sound : Sound s) (response : pointers.pcpgsr = true)
    (credential : pointers.pcpcs = true) (advised : s.cpEvents.isSome = true)
    (idle : s.refreshPending = false) (newCtx : os.refresh.newCtx = true)
    (created : os.refresh.createThreadpoolTimer = true)
    (failure : Failure machine pointers os s cpus) :
    Awaited (getSerialization machine pointers os s cpus).1 ↔
      atRead pointers os s ≠ none ∧ (os.read = .brokerExited ∨ os.read = .failed) := by
  have single := sound.single
  unfold Single at single
  rw [idle] at single
  have none : s.outstanding = [] := List.eq_nil_of_length_eq_zero single
  rcases call_cases machine sound.coherent response credential os cpus with
    ⟨s₁, read, origin, same⟩ | ⟨unread, _, _, text, same⟩
  · have present : atRead pointers os s ≠ Option.none := by simp [read]
    have begun : Single s₁ ∧ s₁.cpEvents = s.cpEvents ∧ s₁.outstanding = [] := by
      rcases origin with ⟨rfl, _⟩ | rfl
      · exact ⟨sound.single, rfl, none⟩
      · exact ⟨sound.single, rfl, none⟩
    rw [same, and_iff_right present]
    by_cases lost : os.read = .brokerExited ∨ os.read = .failed
    · refine iff_of_true ?_ lost
      rw [verdict_lost lost]
      refine (lost_awaited begun.1 (begun.2.1 ▸ advised) newCtx created).mpr ?_
      intro ctx armed
      rw [begun.2.2] at armed
      cases armed
    · refine iff_of_false ?_ lost
      obtain ⟨ok, ends⟩ := failure.ends present lost
      rintro ⟨ctx, armed, _⟩
      dsimp only at armed
      rw [afterRead_unrequested ok ends, begun.2.2] at armed
      cases armed
  -- A call that started no session made no request either.
  · refine iff_of_false ?_ fun lost => lost.1 unread
    rintro ⟨ctx, armed, _⟩
    have kept : (afterStart os s (startVerdict os)).outstanding = s.outstanding := by
      cases startVerdict os <;> rfl
    rw [same, kept, none] at armed
    cases armed

theorem Failure.received (failure : Failure machine pointers os s cpus)
    (present : atRead pointers os s ≠ none) {m : Msg} (received : Received os m) :
    m.type ∉ messageTypes ∨
      (m.type = ascii "AUTH_SUCCESS" ∧ packMessage machine os m cpus = none) := by
  cases failure with
  | start unread => exact absurd unread present
  | read _ lost => rcases lost with lost | lost <;> cases received.1.symm.trans lost
  | parse _ _ unparsable => exact absurd received (unparsable m)
  | type _ other second unknown =>
    rw [received.unique second]
    exact Or.inl unknown
  | pack _ other second success unpacked =>
    rw [received.unique second]
    exact Or.inr ⟨success, unpacked⟩

theorem failure_answers (coherent : Coherent s) (response : pointers.pcpgsr = true)
    (credential : pointers.pcpcs = true) (failure : Failure machine pointers os s cpus) :
    (getSerialization machine pointers os s cpus).2.response = some .noCredentialNotFinished := by
  obtain ⟨expected, answers, returned, fellBack⟩ :=
    call_answers machine coherent response credential os cpus
  rw [answers.response]
  cases expected with
  | noCredentialNotFinished => rfl
  | returnCredentialFinished =>
    obtain ⟨present, m, received, success, packed⟩ := returned.mp rfl
    rcases failure.received present received with unknown | ⟨_, unpacked⟩
    · exact absurd (success ▸ by decide) unknown
    · exact absurd unpacked packed
  | noCredentialFinished =>
    obtain ⟨present, m, received, fallback⟩ := fellBack.mp rfl
    rcases failure.received present received with unknown | ⟨success, _⟩
    · exact absurd (fallback ▸ by decide) unknown
    · cases fallback.symm.trans success

theorem failed_iff (sound : Sound s) {call : Call} :
    (CanRequest s call → BrokerFailed machine s call →
        ∀ next, step machine s call = some next → Awaited next) ↔
      (CanRequest s call → BrokerFailed machine s call → LostAtRead s call) := by
  refine forall₂_congr ?_
  intro can failed
  cases call with
  | getSerialization cpus pointers os =>
    obtain ⟨advised, idle, newCtx, created⟩ := can
    obtain ⟨response, credential, failure⟩ := failed
    have awaited := failure_awaited sound response credential advised idle newCtx created failure
    constructor
    · intro all
      exact awaited.mp (all _ rfl)
    · intro lost next stepped
      cases stepped
      exact awaited.mpr lost
  | setUsageScenario | advise | unAdvise | setSelected | setDeselected | refreshTimer | elapse =>
    exact failed.elim

end Failures

/-- Along every run, the failures leave a refresh outstanding with the current generation
exactly when each of them is a broker lost at the read. -/
theorem failure_rearms_iff (machine : Machine) (calls : List Call) :
    Transition.Meets (step machine)
        (fun s call => CanRequest s call → BrokerFailed machine s call →
          ∀ next, step machine s call = some next → Awaited next) World.initial calls ↔
      Transition.Meets (step machine)
        (fun s call => CanRequest s call → BrokerFailed machine s call → LostAtRead s call)
        World.initial calls :=
  Transition.meets_iff Sound (fun s call next sound _ stepped => Sound.step s call next sound stepped)
    (fun _ _ sound _ => failed_iff sound) sound_initial (Transition.meets_true _ _ _)

def unparsableCall : Call := sampleCall .ok (ascii "\x7b\x7d")

def pipelessSystem : SerializationOs :=
  { sampleSystem .timeout [] with createPipe := ⟨false, false, false⟩ }

theorem failure_not_rearmed :
    ¬ Transition.Meets (step sampleMachine)
        (fun s call => CanRequest s call → BrokerFailed sampleMachine s call →
          ∀ next, step sampleMachine s call = some next → Awaited next)
        World.initial [.advise (some 7) 0, unparsableCall] ∧
      ¬ Transition.Meets (step sampleMachine)
        (fun s call => CanRequest s call → BrokerFailed sampleMachine s call →
          ∀ next, step sampleMachine s call = some next → Awaited next)
        World.initial [.advise (some 7) 0, .getSerialization .logon allPointers pipelessSystem] := by
  let advised := setProviderEvents World.initial (some 7) 0
  have can (os : SerializationOs) (refresh : os.refresh = ⟨true, true⟩) :
      CanRequest advised (.getSerialization .logon allPointers os) := by
    refine ⟨rfl, rfl, ?_, ?_⟩ <;> rw [refresh]
  constructor
  · intro meets
    have rejected : (parseJsonLine (ascii "\x7b\x7d") emptyMsg).1 = false := by decide +kernel
    have failed : BrokerFailed sampleMachine advised unparsableCall := by
      refine ⟨rfl, rfl, .parse (by decide +kernel) rfl ?_⟩
      intro m received
      have accepted := congrArg Prod.fst received.2
      cases accepted.symm.trans rejected
    obtain ⟨ctx, armed, _⟩ := (meets.2 advised rfl).1 (can _ rfl) failed _ rfl
    have none : (getSerialization sampleMachine allPointers (sampleSystem .ok (ascii "\x7b\x7d"))
        advised .logon).1.outstanding = [] := by decide +kernel
    exact absurd (none ▸ armed) List.not_mem_nil
  · intro meets
    have failed : BrokerFailed sampleMachine advised
        (.getSerialization .logon allPointers pipelessSystem) :=
      ⟨rfl, rfl, .start (by decide +kernel)⟩
    obtain ⟨ctx, armed, _⟩ := (meets.2 advised rfl).1 (can _ rfl) failed _ rfl
    have none : (getSerialization sampleMachine allPointers pipelessSystem
        advised .logon).1.outstanding = [] := by decide +kernel
    exact absurd (none ▸ armed) List.not_mem_nil

/-! ## After a success -/

/-- What LogonUI and the timers do with a logon credential that they hold. -/
inductive Afterwards : Call → Prop where
  | setSelected : Afterwards (.setSelected .logon)
  | setDeselected (os : CloseOs) : Afterwards (.setDeselected .logon os)
  | refreshTimer (ctx : CredRefreshAsyncCtx) : Afterwards (.refreshTimer ctx)
  | elapse (milliseconds : Nat) : Afterwards (.elapse milliseconds)

def Submits (s : World) : Call → Prop
  | .setSelected cpus => (setSelected s cpus).2 = true
  | _ => False

/-- No session, and an auto-submit window that was never used. -/
structure Spent (s : World) : Prop where
  inactive : s.brokerSessionActive = false
  unused : s.autoSubmitTick = 0

section Successes
variable {machine : Machine} {s : World}

theorem Spent.submits (spent : Spent s) : (setSelected s .logon).2 = true := by
  have inactive : ¬ s.brokerSessionActive = true := by simp [spent.inactive]
  rw [setSelected, if_pos rfl, if_neg inactive]
  dsimp only
  cases forced : (consumeForceNextAutoSubmit s).2 with
  | true => rfl
  | false =>
    have first : (consumeForceNextAutoSubmit s).1.autoSubmitTick = 0 := spent.unused
    rw [if_neg Bool.false_ne_true, tryAcquireAutoSubmitWindow, if_pos (Or.inl first)]

theorem Spent.step {call : Call} {next : World} (spent : Spent s) (afterwards : Afterwards call)
    (other : call ≠ .setSelected .logon) (stepped : step machine s call = some next) :
    Spent next := by
  cases afterwards with
  | setSelected => exact absurd rfl other
  | setDeselected os =>
    cases stepped
    rw [setDeselected_world, if_neg fun both => by cases spent.inactive.symm.trans both.2]
    exact spent
  | refreshTimer ctx =>
    obtain ⟨_, rfl⟩ := fireTimer_eq_some.mp stepped
    obtain ⟨effects, same, _⟩ :=
      credRefreshTimerCallback_frame { s with outstanding := s.outstanding.erase ctx } ctx
    rw [same]
    exact ⟨spent.inactive, spent.unused⟩
  | elapse milliseconds =>
    cases stepped
    exact ⟨spent.inactive, spent.unused⟩

theorem spent_finished {pointers : OutPointers} {os : SerializationOs} {cpus : UsageScenario}
    (coherent : Coherent s)
    (finished : (getSerialization machine pointers os s cpus).2.response =
      some .returnCredentialFinished) :
    Spent (getSerialization machine pointers os s cpus).1 := by
  by_cases null : pointers.pcpgsr = false ∨ pointers.pcpcs = false
  · have none : (!pointers.pcpgsr || !pointers.pcpcs) = true := by simpa using null
    rw [getSerialization, if_pos none] at finished
    cases finished
  · simp only [not_or, Bool.not_eq_false] at null
    rcases call_cases machine coherent null.1 null.2 os cpus with
      ⟨s₁, _, _, same⟩ | ⟨_, _, _, text, same⟩
    · rw [same, (answers_answer machine pointers os cpus _).response, Option.some_inj] at finished
      rw [same]
      -- Only a final message is answered with a credential.
      cases read : verdict os.read os.message with
      | timeout | lost | empty | malformed | pending | idle =>
        rw [read] at finished
        cases finished
      | final m => exact ⟨rfl, rfl⟩
    · rw [same, (answers_notFinished pointers os text).response] at finished
      cases finished

theorem spent_never_submits_iff (spent : Spent s) {calls : List Call}
    (afterwards : ∀ call ∈ calls, Afterwards call) {final : World}
    (ran : Transition.run (step machine) s calls = some final) :
    Transition.Meets (step machine) (fun s call => ¬ Submits s call) s calls ↔
      ∀ call ∈ calls, call ≠ .setSelected .logon := by
  induction calls generalizing s with
  | nil => exact iff_of_true trivial fun call inside => by cases inside
  | cons call calls ih =>
    obtain ⟨next, stepped, rest⟩ := Transition.run_cons.mp ran
    by_cases selects : call = .setSelected .logon
    -- The first selection after the end submits.
    · subst selects
      refine iff_of_false ?_ fun none => none _ List.mem_cons_self rfl
      intro meets
      exact meets.1 spent.submits
    · have kept := spent.step (afterwards call List.mem_cons_self) selects stepped
      have tail := ih kept (fun other inside => afterwards other (List.mem_cons_of_mem _ inside)) rest
      constructor
      · intro meets
        exact List.forall_mem_cons.mpr ⟨selects, tail.mp (meets.2 next stepped)⟩
      · intro none
        refine ⟨?_, ?_⟩
        · intro submits
          cases afterwards call List.mem_cons_self with
          | setSelected => exact selects rfl
          | setDeselected | refreshTimer | elapse => exact submits
        · intro other again
          obtain rfl := Option.some_inj.mp (stepped.symm.trans again)
          exact tail.mpr (List.forall_mem_cons.mp none).2

end Successes

/-- After a credential was handed out, nothing that LogonUI and the timers do leads to
another submit exactly when the tile is not selected again. -/
theorem no_relaunch_iff (machine : Machine) (s final : World) (cpus : UsageScenario)
    (pointers : OutPointers) (os : SerializationOs) (calls : List Call) (reached : Reachable machine s)
    (finished : (getSerialization machine pointers os s cpus).2.response =
      some .returnCredentialFinished)
    (afterwards : ∀ call ∈ calls, Afterwards call)
    (ran : Transition.run (step machine) (getSerialization machine pointers os s cpus).1 calls =
      some final) :
    Transition.Meets (step machine) (fun s call => ¬ Submits s call)
        (getSerialization machine pointers os s cpus).1 calls ↔
      ∀ call ∈ calls, call ≠ .setSelected .logon :=
  spent_never_submits_iff (spent_finished reached.coherent finished) afterwards ran

def successMessage : List UInt8 :=
  ascii "\x7b\"type\":\"AUTH_SUCCESS\",\"sam\":\"a\",\"password\":\"b\"\x7d"

def loggedOn : World :=
  (getSerialization sampleMachine allPointers (sampleSystem .ok successMessage) World.initial .logon).1

theorem no_relaunch_unselected :
    (getSerialization sampleMachine allPointers (sampleSystem .ok successMessage) World.initial
        .logon).2.response = some .returnCredentialFinished ∧
      Transition.Meets (step sampleMachine) (fun s call => ¬ Submits s call) loggedOn
        [.setDeselected .logon ⟨.object0, true, .object0⟩, .elapse 60000] := by
  have finished : (getSerialization sampleMachine allPointers (sampleSystem .ok successMessage)
      World.initial .logon).2.response = some .returnCredentialFinished := by decide +kernel
  have afterwards : ∀ call ∈ [Call.setDeselected .logon ⟨.object0, true, .object0⟩, .elapse 60000],
      Afterwards call := by
    intro call inside
    rcases List.mem_pair.mp inside with rfl | rfl
    · exact .setDeselected _
    · exact .elapse _
  refine ⟨finished, (no_relaunch_iff sampleMachine World.initial _ .logon allPointers _ _
    (Transition.Reachable.refl _) finished afterwards rfl).mpr ?_⟩
  intro call inside
  rcases List.mem_pair.mp inside with rfl | rfl <;> nofun

/-- The tile is selected a minute after the logon. -/
theorem relaunched_after_logon :
    (getSerialization sampleMachine allPointers (sampleSystem .ok successMessage) World.initial
        .logon).2.response = some .returnCredentialFinished ∧
      ¬ Transition.Meets (step sampleMachine) (fun s call => ¬ Submits s call) loggedOn
        [.elapse 60000, .setSelected .logon] := by
  have finished : (getSerialization sampleMachine allPointers (sampleSystem .ok successMessage)
      World.initial .logon).2.response = some .returnCredentialFinished := by decide +kernel
  refine ⟨finished, ?_⟩
  intro meets
  have spent := spent_finished coherent_initial finished
  have later : Spent { loggedOn with now := loggedOn.now + 60000 } := ⟨spent.inactive, spent.unused⟩
  exact (meets.2 _ rfl).1 later.submits

end Dot1xCP.Core
