import Dot1xCP.Core.Refresh

/-! The polling loop, closed with the logon user interface.

LogonUI answers every `CredentialsChanged` by one `SetSelected`, may call it besides at
any time, and calls `GetSerialization` next exactly when `SetSelected` asked for it. An
active session is never left without something that leads to its next read, unless
a refresh request was dropped in favour of a stale one, or the auto-submit window refused
the last wake-up.
-/

set_option autoImplicit false

namespace Dot1xCP.Core
open Broker Auth

structure Logon where
  world : World
  /-- The notifications that no `SetSelected` has answered yet. -/
  unanswered : Nat
  /-- `SetSelected` asked for a submit: the next call is `GetSerialization`. -/
  owed : Bool
  deriving DecidableEq, Repr

def Logon.initial : Logon := ⟨World.initial, 0, false⟩

inductive Act where
  /-- The `SetSelected` that answers a notification. -/
  | answer
  | other (call : Call)

def Act.toCall : Act → Call
  | .answer => .setSelected .logon
  | .other call => call

/-- What LogonUI and the system may do next. Events stay advised once they are. -/
def allowed (l : Logon) : Act → Bool
  | .answer => !l.owed && l.unanswered != 0
  | .other (.setSelected cpus) => !l.owed && decide (cpus = .logon)
  | .other (.getSerialization cpus pointers os) =>
    l.owed && decide (cpus = .logon) && pointers.pcpgsr && pointers.pcpcs &&
      l.world.cpEvents.isSome && os.refresh.newCtx && os.refresh.createThreadpoolTimer
  | .other (.setDeselected _ _) | .other (.setUsageScenario _ _) => !l.owed
  | .other (.advise events _) => !l.owed && events.isSome
  -- The polling loop is about a provider that can notify.
  | .other .unAdvise => false
  | .other (.refreshTimer _) | .other (.elapse _) => true

def unansweredAfter (l : Logon) : Act → Nat
  | .answer => l.unanswered - 1
  | .other (.refreshTimer ctx) =>
    if isCurrentSessionGeneration l.world ctx.sessionGeneration then l.unanswered + 1
    else l.unanswered
  | .other _ => l.unanswered

def owedAfter (l : Logon) : Act → Bool
  | .answer => (setSelected l.world .logon).2
  | .other (.setSelected cpus) => (setSelected l.world cpus).2
  | .other (.getSerialization _ _ _) => false
  | .other _ => l.owed

def act (machine : Machine) (l : Logon) (a : Act) : Option Logon :=
  if allowed l a then
    (step machine l.world a.toCall).map fun next => ⟨next, unansweredAfter l a, owedAfter l a⟩
  else none

/-- Something is still going to lead to the next read of an active session. -/
def NeverStalls (l : Logon) : Prop :=
  l.world.brokerSessionActive = true → Awaited l.world ∨ l.unanswered ≠ 0 ∨ l.owed = true

def WindowOpen (s : World) : Prop :=
  s.brokerAwaitingFinal = true ∨ s.autoSubmitTick = 0 ∨
    kMinSubmitIntervalMs ≤ getTickCount s - s.autoSubmitTick

/-- The two things that must not happen. A read after which the session goes on finds,
with no notification unanswered, a stale callback in the way of its request; and the
answer to the last wake-up of an active session finds the window closed. -/
def StaysAwake (l : Logon) : Act → Prop
  | .answer =>
    l.world.brokerSessionActive = true → l.unanswered = 1 → ¬ Awaited l.world → WindowOpen l.world
  | .other (.getSerialization _ pointers os) =>
    atRead pointers os l.world ≠ none → Stays os → l.unanswered = 0 →
      ∀ ctx ∈ l.world.outstanding, ctx.sessionGeneration = l.world.sessionGeneration
  | .other _ => True

theorem setSelected_kept (s : World) (cpus : UsageScenario) :
    (setSelected s cpus).1.brokerSessionActive = s.brokerSessionActive ∧
      (Awaited (setSelected s cpus).1 ↔ Awaited s) := by
  obtain ⟨tick, force, same⟩ := setSelected_frame s cpus
  rw [same]
  exact ⟨rfl, Iff.rfl⟩

theorem setSelected_submits {s : World} (active : s.brokerSessionActive = true) :
    (setSelected s .logon).2 = true ↔ WindowOpen s := by
  unfold setSelected WindowOpen
  rw [if_pos rfl, if_pos active]
  by_cases awaiting : s.brokerAwaitingFinal = true
  · simp [awaiting]
  · rw [if_neg awaiting, tryAcquireAutoSubmitWindow]
    by_cases free : s.autoSubmitTick = 0 ∨ kMinSubmitIntervalMs ≤ getTickCount s - s.autoSubmitTick
    · rw [if_pos free]
      exact iff_of_true rfl (Or.inr free)
    · rw [if_neg free]
      exact iff_of_false Bool.false_ne_true (not_or.mpr ⟨awaiting, free⟩)

/-- A read after which the session goes on leaves its request awaited, unless a stale
callback was in the way. -/
theorem continues_awaited {os : SerializationOs} {s : World} (single : Single s)
    (advised : s.cpEvents.isSome = true) (newCtx : os.refresh.newCtx = true)
    (created : os.refresh.createThreadpoolTimer = true) {verdict : Verdict}
    (continues : verdict.Continues) :
    Awaited (afterRead os s verdict) ↔
      ∀ ctx ∈ s.outstanding, ctx.sessionGeneration = s.sessionGeneration := by
  cases verdict with
  | timeout => exact request_awaited single advised newCtx created _
  | pending =>
    have marked : Single
        { s with brokerAwaitingFinal := true, autoSubmitTick := 0, lastBrokerFlowState := .pending } :=
      single
    exact request_awaited marked advised newCtx created 300
  | idle =>
    have marked : Single { s with brokerAwaitingFinal := false, lastBrokerFlowState := .idle } := single
    exact request_awaited marked advised newCtx created 2500
  | lost | empty | malformed | final => exact continues.elim

theorem afterStart_inactive (os : SerializationOs) {s : World}
    (inactive : s.brokerSessionActive = false) {verdict : StartVerdict} (failed : verdict ≠ .started) :
    (afterStart os s verdict).brokerSessionActive = false := by
  cases verdict with
  | noPipe => exact inactive
  | noBroker | notConnected => rfl
  | started => exact absurd rfl failed

theorem setUsageScenario_ends (os : CloseOs) (s : World) (cpus : UsageScenario) :
    (setUsageScenario os s cpus).1 = s ∨
      (setUsageScenario os s cpus).1.brokerSessionActive = false := by
  unfold setUsageScenario
  split
  · dsimp only
    split
    · exact Or.inr rfl
    · exact Or.inl rfl
  · exact Or.inr rfl

theorem setDeselected_ends (os : CloseOs) (s : World) (cpus : UsageScenario) :
    setDeselected os s cpus = s ∨ (setDeselected os s cpus).brokerSessionActive = false := by
  unfold setDeselected
  split
  · rw [closeBrokerSessionNow_eq]
    exact Or.inr rfl
  · exact Or.inl rfl

/-! ## One act -/

section Step
variable {machine : Machine} {l next : Logon}

theorem act_eq_some {a : Act} :
    act machine l a = some next ↔ allowed l a = true ∧
      ∃ world, step machine l.world a.toCall = some world ∧
        next = ⟨world, unansweredAfter l a, owedAfter l a⟩ := by
  rw [act, Option.ite_none_right_eq_some, Option.map_eq_some_iff]
  exact and_congr_right fun _ => exists_congr fun _ => and_congr_right fun _ => eq_comm

theorem sound_act (l : Logon) (a : Act) (next : Logon) (sound : Sound l.world)
    (acted : act machine l a = some next) : Sound next.world := by
  obtain ⟨_, world, stepped, rfl⟩ := act_eq_some.mp acted
  exact Sound.step l.world a.toCall world sound stepped

theorem answer_exact (acted : act machine l .answer = some next) :
    NeverStalls next ↔ StaysAwake l .answer := by
  obtain ⟨may, world, stepped, rfl⟩ := act_eq_some.mp acted
  dsimp only [Act.toCall] at stepped
  cases stepped
  obtain ⟨active, awaited⟩ := setSelected_kept l.world .logon
  simp only [allowed, Bool.and_eq_true, Bool.not_eq_true', bne_iff_ne] at may
  unfold NeverStalls StaysAwake
  dsimp only [unansweredAfter, owedAfter]
  rw [active, awaited]
  apply forall_congr'
  intro active
  rw [setSelected_submits active]
  -- Only the answer to the last notification, with no callback armed, has to submit.
  by_cases waits : Awaited l.world
  · exact iff_of_true (Or.inl waits) fun _ not => absurd waits not
  · by_cases last : l.unanswered = 1
    · simp [waits, last]
    · have more : l.unanswered - 1 ≠ 0 := by omega
      simp [waits, last, more]

theorem getSerialization_exact (sound : Sound l.world) {cpus : UsageScenario}
    {pointers : OutPointers} {os : SerializationOs}
    (acted : act machine l (.other (.getSerialization cpus pointers os)) = some next) :
    NeverStalls next ↔ StaysAwake l (.other (.getSerialization cpus pointers os)) := by
  obtain ⟨may, world, stepped, rfl⟩ := act_eq_some.mp acted
  dsimp only [Act.toCall] at stepped
  cases stepped
  simp only [allowed, Bool.and_eq_true, decide_eq_true_eq, and_assoc] at may
  obtain ⟨_, rfl, response, credential, advised, newCtx, created⟩ := may
  unfold NeverStalls StaysAwake
  dsimp only [unansweredAfter, owedAfter]
  rcases call_cases machine sound.coherent response credential os .logon with
    ⟨s₁, read, origin, same⟩ | ⟨unread, inactive, failed, _, same⟩
  · rw [same]
    have present : atRead pointers os l.world ≠ none := by simp [read]
    -- A call that ends the session cannot stall it; one that keeps it makes a request.
    by_cases stays : Stays os
    · have continues := continues_iff.mpr stays
      have active : (afterRead os s₁ (verdict os.read os.message)).brokerSessionActive = true := by
        rw [(afterRead_continues os s₁ continues).2.1]
        rcases origin with ⟨rfl, active⟩ | rfl
        · exact active
        · rfl
      have awaited : Awaited (afterRead os s₁ (verdict os.read os.message)) ↔
          ∀ ctx ∈ l.world.outstanding, ctx.sessionGeneration = l.world.sessionGeneration := by
        rcases origin with ⟨rfl, _⟩ | rfl
        · exact continues_awaited sound.single advised newCtx created continues
        · have started : Single (World.started l.world) := sound.single
          exact continues_awaited started advised newCtx created continues
      rw [active, awaited]
      by_cases none : l.unanswered = 0
      · simp [present, stays, none]
      · simp [none]
    · have ended := (afterRead_ends os s₁ (mt continues_iff.mp stays)).2.1
      rw [ended]
      exact iff_of_true (fun active => by cases active) fun _ goesOn => absurd goesOn stays
  · rw [same, afterStart_inactive os inactive failed]
    exact iff_of_true (fun active => by cases active) fun present => absurd unread present

theorem call_awake {call : Call} (awake : NeverStalls l)
    (notRead : ∀ cpus pointers os, call ≠ .getSerialization cpus pointers os)
    (acted : act machine l (.other call) = some next) : NeverStalls next := by
  obtain ⟨may, world, stepped, rfl⟩ := act_eq_some.mp acted
  dsimp only [Act.toCall] at stepped
  cases call with
  | setUsageScenario cpus os =>
    cases stepped
    rcases setUsageScenario_ends os l.world cpus with same | inactive
    · rw [same]
      exact awake
    · exact fun active => by cases inactive.symm.trans active
  | advise events context =>
    cases stepped
    obtain ⟨effects, same, _⟩ := setProviderEvents_frame l.world events context
    rw [same]
    exact awake
  | unAdvise => cases may
  | setSelected cpus =>
    cases stepped
    obtain ⟨active, awaited⟩ := setSelected_kept l.world cpus
    simp only [allowed, Bool.and_eq_true, Bool.not_eq_true'] at may
    unfold NeverStalls at awake ⊢
    dsimp only [unansweredAfter]
    rw [active, awaited]
    intro isActive
    rcases awake isActive with waits | left | owed
    · exact Or.inl waits
    · exact Or.inr (Or.inl left)
    -- A `SetSelected` of the user does not come between one that submits and its submit.
    · cases may.1.symm.trans owed
  -- An ended session needs no further wake-up.
  | setDeselected cpus os =>
    cases stepped
    rcases setDeselected_ends os l.world cpus with same | inactive
    · rw [same]
      exact awake
    · exact fun active => by cases inactive.symm.trans active
  | getSerialization cpus pointers os => exact absurd rfl (notRead cpus pointers os)
  | refreshTimer ctx =>
    obtain ⟨_, rfl⟩ := fireTimer_eq_some.mp stepped
    obtain ⟨effects, same, _⟩ := credRefreshTimerCallback_frame
      { l.world with outstanding := l.world.outstanding.erase ctx } ctx
    rw [same]
    intro active
    dsimp only [unansweredAfter, owedAfter]
    by_cases current : isCurrentSessionGeneration l.world ctx.sessionGeneration
    · exact Or.inr (Or.inl (by simp [current]))
    -- A stale callback takes nothing away: the current one is another.
    · rw [if_neg current]
      refine (awake active).imp_left fun ⟨waiting, armed, fresh⟩ => ⟨waiting, ?_, fresh⟩
      have other : waiting ≠ ctx := by
        rintro rfl
        exact current (by simp [isCurrentSessionGeneration, fresh])
      exact (List.mem_erase_of_ne other).mpr armed
  | elapse milliseconds =>
    cases stepped
    exact awake

theorem act_exact (l : Logon) (a : Act) (next : Logon) (sound : Sound l.world)
    (awake : NeverStalls l) (acted : act machine l a = some next) :
    NeverStalls next ↔ StaysAwake l a := by
  cases a with
  | answer => exact answer_exact acted
  | other call =>
    cases call with
    | getSerialization cpus pointers os => exact getSerialization_exact sound acted
    | setUsageScenario | advise | unAdvise | setSelected | setDeselected | refreshTimer | elapse =>
      exact iff_of_true (call_awake awake (by simp) acted) trivial

end Step

/-- The loop never stalls along a run exactly when every act of the run stays awake. -/
theorem polling_never_stalls_iff (machine : Machine) (acts : List Act) (final : Logon)
    (ran : Transition.run (act machine) Logon.initial acts = some final) :
    (∀ l, Transition.Visits (act machine) Logon.initial acts l → NeverStalls l) ↔
      Transition.Meets (act machine) StaysAwake Logon.initial acts :=
  Transition.visits_iff_meets (fun l => Sound l.world) NeverStalls sound_act act_exact
    sound_initial (fun active => by cases active) ran

instance (s : World) : Decidable (Awaited s) :=
  inferInstanceAs (Decidable (∃ ctx ∈ s.outstanding, ctx.sessionGeneration = s.sessionGeneration))

instance (l : Logon) : Decidable (NeverStalls l) :=
  inferInstanceAs (Decidable (_ → _ ∨ _ ∨ _))

instance (os : SerializationOs) : Decidable (Stays os) := decidable_of_iff _ (@continues_iff os)

instance (s : World) : Decidable (WindowOpen s) := inferInstanceAs (Decidable (_ ∨ _ ∨ _))

instance (l : Logon) : (a : Act) → Decidable (StaysAwake l a)
  | .answer => inferInstanceAs (Decidable (_ → _ → ¬ _ → _))
  | .other (.getSerialization _ pointers os) =>
    inferInstanceAs (Decidable (atRead pointers os l.world ≠ none → Stays os → _ → ∀ _ ∈ _, _))
  | .other (.setUsageScenario _ _) | .other (.advise _ _) | .other .unAdvise
  | .other (.setSelected _) | .other (.setDeselected _ _) | .other (.refreshTimer _)
  | .other (.elapse _) => .isTrue trivial

def selectTile : Act := .other (.setSelected .logon)

def submit (read : PipeReadResult) (message : List UInt8) : Act := .other (sampleCall read message)

def idleRound : List Act :=
  [.other (.advise (some 7) 0), .other (.elapse 10000), selectTile, submit .ok idleMessage,
    .other (.elapse 2500)]

def idleRounds : List Act :=
  idleRound ++ [.other (.refreshTimer ⟨7, 0, 1, 12500⟩), .answer, submit .ok idleMessage]

theorem polling_never_stalls_idle :
    ((Transition.run (act sampleMachine) Logon.initial idleRounds).map fun l =>
        (l.world.brokerSessionActive, l.world.outstanding)) = some (true, [⟨7, 0, 1, 15000⟩]) ∧
      ∀ l, Transition.Visits (act sampleMachine) Logon.initial idleRounds l → NeverStalls l := by
  have armed : ((Transition.run (act sampleMachine) Logon.initial idleRounds).map fun l =>
      (l.world.brokerSessionActive, l.world.outstanding)) = some (true, [⟨7, 0, 1, 15000⟩]) := by
    decide +kernel
  obtain ⟨final, ran, _⟩ := Option.map_eq_some_iff.mp armed
  refine ⟨armed, (polling_never_stalls_iff sampleMachine idleRounds final ran).mpr ?_⟩
  decide +kernel

def failMessage : List UInt8 := ascii "\x7b\"type\":\"AUTH_FAIL\"\x7d"

/-- The tile is selected just before the timer fires; the answer to the timer then finds
the window closed by that selection. -/
def throttledRun : List Act :=
  idleRound ++ [selectTile, submit .ok idleMessage, .other (.refreshTimer ⟨7, 0, 1, 12500⟩), .answer]

/-- The session ends while its timer is armed, and the request of the next session is
dropped. -/
def staleRun : List Act :=
  idleRound ++ [selectTile, submit .ok failMessage, selectTile, submit .ok idleMessage]

theorem polling_stalls :
    (∃ l, Transition.run (act sampleMachine) Logon.initial throttledRun = some l ∧ ¬ NeverStalls l) ∧
      ∃ l, Transition.run (act sampleMachine) Logon.initial staleRun = some l ∧ ¬ NeverStalls l := by
  have throttled : ((Transition.run (act sampleMachine) Logon.initial throttledRun).map fun l =>
      decide (NeverStalls l)) = some false := by decide +kernel
  have stale : ((Transition.run (act sampleMachine) Logon.initial staleRun).map fun l =>
      decide (NeverStalls l)) = some false := by decide +kernel
  obtain ⟨l, ran, stalls⟩ := Option.map_eq_some_iff.mp throttled
  obtain ⟨l', ran', stalls'⟩ := Option.map_eq_some_iff.mp stale
  exact ⟨⟨l, ran, of_decide_eq_false stalls⟩, ⟨l', ran', of_decide_eq_false stalls'⟩⟩

end Dot1xCP.Core
