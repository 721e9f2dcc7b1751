import Dot1xCP.Core.ProtocolTable

/-! The refresh request, which is one for the whole provider.

`RequestCredentialsChangedAsync` drops a request while an earlier one is outstanding,
whatever session that one belongs to. The recovery after a lost broker asks for a
refresh right after it ended the session, so its request is dropped when the dead
session left one behind, and the one left behind no longer notifies.
-/

set_option autoImplicit false

namespace Dot1xCP.Core
open Broker Auth

/-- A callback that will still be heard when it fires. -/
def Awaited (s : World) : Prop := ∃ ctx ∈ s.outstanding, ctx.sessionGeneration = s.sessionGeneration

/-- The pending flag counts the outstanding callbacks. -/
def Single (s : World) : Prop := s.outstanding.length = s.refreshPending.toNat

def Asks (s next : World) : Prop :=
  (∃ effects, next.trace = effects ++ s.trace) ∧
    ((next.outstanding = s.outstanding ∧ next.refreshPending = s.refreshPending) ∨
      ∃ ctx, s.refreshPending = false ∧ next.outstanding = ctx :: s.outstanding ∧
        next.refreshPending = true)

section Calls
variable {s : World}

theorem asks_refl (s : World) : Asks s s := ⟨⟨[], rfl⟩, Or.inl ⟨rfl, rfl⟩⟩

theorem asks_ended (s : World) (effects : List Effect) : Asks s (s.ended.emits effects) :=
  ⟨⟨effects, rfl⟩, Or.inl ⟨rfl, rfl⟩⟩

theorem Asks.after {middle next : World} (asks : Asks middle next)
    (effects : List Effect) (trace : middle.trace = effects ++ s.trace)
    (outstanding : middle.outstanding = s.outstanding)
    (pending : middle.refreshPending = s.refreshPending) : Asks s next := by
  obtain ⟨⟨more, grows⟩, request⟩ := asks
  rw [outstanding, pending] at request
  refine ⟨⟨more ++ effects, ?_⟩, request⟩
  rw [grows, trace, List.append_assoc]

theorem asks_request (os : RefreshOs) (s : World) (delayMs : Nat) (generation : BitVec 32) :
    Asks s (requestCredentialsChangedAsync os s delayMs generation) := by
  rcases requestCredentialsChangedAsync_cases os s delayMs generation with
    same | ⟨events, _, same⟩ | ⟨events, idle, _, same⟩
  · rw [same]
    exact asks_refl s
  · rw [same]
    exact ⟨⟨[.release events, .addRef events], rfl⟩, Or.inl ⟨rfl, rfl⟩⟩
  · rw [same]
    exact ⟨⟨[.addRef events], rfl⟩, Or.inr ⟨_, idle, rfl, rfl⟩⟩

theorem asks_afterRead (os : SerializationOs) (s : World) (verdict : Verdict) :
    Asks s (afterRead os s verdict) := by
  cases verdict with
  | timeout => exact asks_request _ _ _ _
  | lost => exact (asks_request _ _ _ _).after (closingSession os.close s.session 0) rfl rfl rfl
  | empty | malformed | final => exact asks_ended s _
  | pending | idle => exact (asks_request _ _ _ _).after [] rfl rfl rfl

theorem asks_afterStart (os : SerializationOs) (s : World) (verdict : StartVerdict) :
    Asks s (afterStart os s verdict) := by
  cases verdict with
  | noPipe => exact asks_refl s
  | noBroker => exact ⟨⟨[_, _, _], rfl⟩, Or.inl ⟨rfl, rfl⟩⟩
  | notConnected =>
    refine ⟨⟨closingProcess os.close ⟨some (s.nextHandle + 1), some (s.nextHandle + 2)⟩ 500 ++
      [.closed s.nextHandle, .processCreated (s.nextHandle + 1) (s.nextHandle + 2), .launchBroker,
        .pipeCreated s.nextHandle], ?_⟩, Or.inl ⟨rfl, rfl⟩⟩
    simp [afterStart]
  | started => exact ⟨⟨[_, _, _], rfl⟩, Or.inl ⟨rfl, rfl⟩⟩

theorem asks_getSerialization (coherent : Coherent s) (machine : Machine) (pointers : OutPointers)
    (os : SerializationOs) (cpus : UsageScenario) :
    Asks s (getSerialization machine pointers os s cpus).1 := by
  refine coherent.getSerialization_ways machine pointers os cpus (asks_refl s) ?_ ?_ ?_
  · intro _ verdict
    exact asks_afterRead os s verdict
  · intro _ verdict
    exact (asks_afterRead os _ verdict).after [_, _, _] rfl rfl rfl
  · intro _ verdict
    exact asks_afterStart os s verdict

theorem asks_setUsageScenario (os : CloseOs) (s : World) (cpus : UsageScenario) :
    Asks s (setUsageScenario os s cpus).1 := by
  unfold setUsageScenario
  split
  · dsimp only
    split
    · rw [closeBrokerSessionNow_eq]
      exact ⟨⟨closingSession os s.session 0, rfl⟩, Or.inl ⟨rfl, rfl⟩⟩
    · exact asks_refl s
  · dsimp only
    rw [closeBrokerSessionNow_eq]
    exact ⟨⟨closingSession os s.session 0, rfl⟩, Or.inl ⟨rfl, rfl⟩⟩

theorem asks_setDeselected (os : CloseOs) (s : World) (cpus : UsageScenario) :
    Asks s (setDeselected os s cpus) := by
  unfold setDeselected
  split
  · rw [closeBrokerSessionNow_eq]
    exact asks_ended s _
  · exact asks_refl s

theorem step_asks (coherent : Coherent s) {machine : Machine} {call : Call} {next : World}
    (stepped : step machine s call = some next) :
    Asks s next ∨ ∃ ctx ∈ s.outstanding, call = .refreshTimer ctx ∧
      next = credRefreshTimerCallback { s with outstanding := s.outstanding.erase ctx } ctx := by
  cases call with
  | setUsageScenario cpus os =>
    cases stepped
    exact Or.inl (asks_setUsageScenario os s cpus)
  | setDeselected cpus os =>
    cases stepped
    exact Or.inl (asks_setDeselected os s cpus)
  | getSerialization cpus pointers os =>
    cases stepped
    exact Or.inl (asks_getSerialization coherent machine pointers os cpus)
  | refreshTimer ctx =>
    obtain ⟨⟨armed, _⟩, fired⟩ := fireTimer_eq_some.mp stepped
    exact Or.inr ⟨ctx, armed, rfl, fired⟩
  | advise | unAdvise | setSelected | elapse =>
    obtain ⟨effects, grows, _⟩ := (step_aside stepped trivial).trace
    exact Or.inl ⟨⟨effects, grows⟩, Or.inl (step_unfired stepped trivial)⟩

end Calls

theorem single_initial : Single World.initial := rfl

theorem Single.asks {s next : World} (single : Single s) (asks : Asks s next) : Single next := by
  unfold Single at *
  rcases asks.2 with ⟨outstanding, pending⟩ | ⟨ctx, idle, outstanding, pending⟩
  · rw [outstanding, pending]
    exact single
  · rw [idle] at single
    rw [outstanding, pending, List.length_cons, single]
    rfl

theorem Single.fired {s : World} (single : Single s) {ctx : CredRefreshAsyncCtx}
    (armed : ctx ∈ s.outstanding) :
    Single (credRefreshTimerCallback { s with outstanding := s.outstanding.erase ctx } ctx) := by
  obtain ⟨effects, same, _⟩ :=
    credRefreshTimerCallback_frame { s with outstanding := s.outstanding.erase ctx } ctx
  -- The one callback that the flag stands for is the one that fires.
  have atMost := Bool.toNat_le s.refreshPending
  have some := List.length_pos_of_mem armed
  have less := List.length_erase_of_mem armed
  unfold Single at *
  rw [same]
  simp only [Bool.toNat_false]
  omega

theorem Single.step {s : World} (single : Single s) (coherent : Coherent s) {machine : Machine}
    {call : Call} {next : World} (stepped : step machine s call = some next) : Single next := by
  rcases step_asks coherent stepped with asks | ⟨ctx, armed, _, rfl⟩
  · exact single.asks asks
  · exact single.fired armed

structure Sound (s : World) : Prop where
  coherent : Coherent s
  single : Single s

theorem sound_initial : Sound World.initial := ⟨coherent_initial, single_initial⟩

theorem Sound.step {machine : Machine} (s : World) (call : Call) (next : World) (sound : Sound s)
    (stepped : step machine s call = some next) : Sound next :=
  ⟨sound.coherent.step stepped, sound.single.step sound.coherent stepped⟩

/-- With events advised and the system willing, a request with the current generation is
awaited unless it was dropped in favour of one with another. -/
theorem request_awaited {os : RefreshOs} {s : World} (single : Single s)
    (advised : s.cpEvents.isSome = true) (newCtx : os.newCtx = true)
    (created : os.createThreadpoolTimer = true) (delayMs : Nat) :
    Awaited (requestCredentialsChangedAsync os s delayMs s.sessionGeneration) ↔
      ∀ ctx ∈ s.outstanding, ctx.sessionGeneration = s.sessionGeneration := by
  obtain ⟨events, advised⟩ := Option.isSome_iff_exists.mp advised
  cases pending : s.refreshPending with
  | true =>
    rw [requestCredentialsChangedAsync_coalesced pending]
    unfold Single at single
    rw [pending] at single
    obtain ⟨ctx, only⟩ := List.length_eq_one_iff.mp single
    -- The request is dropped, and it is heard if the callback before it is.
    simp [Awaited, only]
  | false =>
    rw [requestCredentialsChangedAsync_armed pending advised newCtx created]
    unfold Single at single
    rw [pending] at single
    have none : s.outstanding = [] := List.eq_nil_of_length_eq_zero single
    simp [Awaited, none]

def Notified (s final : World) (ctx : CredRefreshAsyncCtx) : Prop :=
  ∃ effects, final.trace = effects ++ s.trace ∧ .credentialsChanged ctx.events ctx.context ∈ effects

/-- Along every run in which the session is not ended again, the callback stays
outstanding until it notifies. -/
def WillNotify (machine : Machine) (s : World) (ctx : CredRefreshAsyncCtx) : Prop :=
  ∀ calls final, Transition.run (step machine) s calls = some final →
    Transition.Meets (step machine)
      (fun before call => ∀ next, step machine before call = some next →
        next.sessionGeneration = before.sessionGeneration) s calls →
    ctx ∈ final.outstanding ∨ Notified s final ctx

theorem Notified.mono {s middle final : World} {ctx : CredRefreshAsyncCtx}
    (notified : Notified s middle ctx) {effects : List Effect}
    (grows : final.trace = effects ++ middle.trace) : Notified s final ctx := by
  obtain ⟨earlier, trace, inside⟩ := notified
  exact ⟨effects ++ earlier, by rw [grows, trace, List.append_assoc],
    List.mem_append_right effects inside⟩

theorem Notified.before {s middle final : World} {ctx : CredRefreshAsyncCtx}
    (notified : Notified middle final ctx) {effects : List Effect}
    (grows : middle.trace = effects ++ s.trace) : Notified s final ctx := by
  obtain ⟨later, trace, inside⟩ := notified
  exact ⟨later ++ effects, by rw [trace, grows, List.append_assoc],
    List.mem_append_left effects inside⟩

/-- A callback that carries the current generation notifies when it fires. -/
theorem fired_notified {s : World} {ctx : CredRefreshAsyncCtx}
    (current : ctx.sessionGeneration = s.sessionGeneration) :
    Notified s (credRefreshTimerCallback { s with outstanding := s.outstanding.erase ctx } ctx) ctx := by
  refine ⟨[.release ctx.events, .credentialsChanged ctx.events ctx.context], ?_, by simp⟩
  simp [credRefreshTimerCallback, isCurrentSessionGeneration, current, World.emit]

theorem step_grows {machine : Machine} {s next : World} (coherent : Coherent s) {call : Call}
    (stepped : step machine s call = some next) : ∃ effects, next.trace = effects ++ s.trace := by
  rcases step_asks coherent stepped with asks | ⟨ctx, _, _, rfl⟩
  · exact asks.1
  · obtain ⟨effects, same, _⟩ :=
      credRefreshTimerCallback_frame { s with outstanding := s.outstanding.erase ctx } ctx
    rw [same]
    exact ⟨effects, rfl⟩

theorem run_grows {machine : Machine} {s final : World} {calls : List Call} (coherent : Coherent s)
    (ran : Transition.run (step machine) s calls = some final) :
    ∃ effects, final.trace = effects ++ s.trace := by
  induction calls generalizing s with
  | nil =>
    cases ran
    exact ⟨[], rfl⟩
  | cons call calls ih =>
    obtain ⟨next, stepped, rest⟩ := Transition.run_cons.mp ran
    obtain ⟨effects, grows⟩ := step_grows coherent stepped
    obtain ⟨more, growsMore⟩ := ih (coherent.step stepped) rest
    exact ⟨more ++ effects, by rw [growsMore, grows, List.append_assoc]⟩

theorem step_notifies {machine : Machine} {s next : World} (coherent : Coherent s)
    {ctx : CredRefreshAsyncCtx} (armed : ctx ∈ s.outstanding)
    (current : ctx.sessionGeneration = s.sessionGeneration) {call : Call}
    (stepped : step machine s call = some next) :
    ctx ∈ next.outstanding ∨ Notified s next ctx := by
  rcases step_asks coherent stepped with asks | ⟨fired, _, _, rfl⟩
  · rcases asks.2 with ⟨outstanding, _⟩ | ⟨added, _, outstanding, _⟩
    · exact Or.inl (outstanding ▸ armed)
    · exact Or.inl (outstanding ▸ List.mem_cons_of_mem added armed)
  · by_cases itself : ctx = fired
    · subst itself
      exact Or.inr (fired_notified current)
    · obtain ⟨effects, same, _⟩ :=
        credRefreshTimerCallback_frame { s with outstanding := s.outstanding.erase fired } fired
      rw [same]
      exact Or.inl ((List.mem_erase_of_ne itself).mpr armed)

theorem willNotify {machine : Machine} {s : World} (coherent : Coherent s) {ctx : CredRefreshAsyncCtx}
    (armed : ctx ∈ s.outstanding) (current : ctx.sessionGeneration = s.sessionGeneration) :
    WillNotify machine s ctx := by
  intro calls final ran steady
  induction calls generalizing s with
  | nil =>
    cases ran
    exact Or.inl armed
  | cons call calls ih =>
    obtain ⟨next, stepped, rest⟩ := Transition.run_cons.mp ran
    -- The condition on the run keeps the callback current, so its firing would notify.
    have kept := current.trans (steady.1 next stepped).symm
    rcases step_notifies coherent armed current stepped with still | notified
    · obtain ⟨effects, grows⟩ := step_grows coherent stepped
      exact (ih (coherent.step stepped) still kept rest (steady.2 next stepped)).imp_right
        fun notified => notified.before grows
    · obtain ⟨effects, grows⟩ := run_grows (coherent.step stepped) rest
      exact Or.inr (notified.mono grows)

/-! ## The recovery -/

def Recovers (s : World) : Call → Prop
  | .getSerialization _ pointers os =>
    pointers.pcpgsr = true ∧ pointers.pcpcs = true ∧ atRead pointers os s ≠ none ∧
      (os.read = .brokerExited ∨ os.read = .failed)
  | _ => False

def Provided (s : World) : Call → Prop
  | .getSerialization _ _ os =>
    s.cpEvents.isSome = true ∧ os.refresh.newCtx = true ∧ os.refresh.createThreadpoolTimer = true
  | _ => True

/-- The recovery request is outstanding with the current generation, and is going to
notify. -/
def Promised (machine : Machine) (s : World) : Prop :=
  ∃ ctx ∈ s.outstanding, ctx.sessionGeneration = s.sessionGeneration ∧ WillNotify machine s ctx

/-- No callback is left of the session that ends. The generation is a counter that wraps:
one that was armed a whole turn ago would do as well. -/
def NoneStale (s : World) : Prop :=
  ∀ ctx ∈ s.outstanding, ctx.sessionGeneration = s.sessionGeneration + 1

theorem promised_iff {machine : Machine} {s : World} (coherent : Coherent s) :
    Promised machine s ↔ Awaited s := by
  constructor
  · rintro ⟨ctx, armed, current, _⟩
    exact ⟨ctx, armed, current⟩
  · rintro ⟨ctx, armed, current⟩
    exact ⟨ctx, armed, current, willNotify coherent armed current⟩

theorem lost_awaited {os : SerializationOs} {s : World} (single : Single s)
    (advised : s.cpEvents.isSome = true) (newCtx : os.refresh.newCtx = true)
    (created : os.refresh.createThreadpoolTimer = true) :
    Awaited (afterRead os s .lost) ↔ NoneStale s := by
  have ended : Single (armForceNextAutoSubmit (s.ended.emits (closingSession os.close s.session 0))) :=
    single
  exact request_awaited ended advised newCtx created 50

theorem recovers_iff {machine : Machine} {s : World} (sound : Sound s) {call : Call}
    (provided : Provided s call) :
    (Recovers s call → ∀ next, step machine s call = some next → Promised machine next) ↔
      (Recovers s call → NoneStale s) := by
  apply forall_congr'
  intro recovers
  cases call with
  | getSerialization cpus pointers os =>
    obtain ⟨response, credential, present, lost⟩ := recovers
    obtain ⟨advised, newCtx, created⟩ := provided
    have final (next : World)
        (stepped : step machine s (.getSerialization cpus pointers os) = some next) :
        Promised machine next ↔ Awaited next :=
      promised_iff (sound.coherent.step stepped)
    rcases call_cases machine sound.coherent response credential os cpus with
      ⟨s₁, _, origin, same⟩ | ⟨unread, _⟩
    · have after :
          step machine s (.getSerialization cpus pointers os) = some (afterRead os s₁ .lost) := by
        rw [step, same, verdict_lost lost]
      have awaited : Awaited (afterRead os s₁ .lost) ↔ NoneStale s := by
        rcases origin with ⟨rfl, _⟩ | rfl
        · exact lost_awaited sound.single advised newCtx created
        -- A broker may be lost in the call that launched it.
        · have started : Single (World.started s) := sound.single
          exact lost_awaited started advised newCtx created
      rw [← awaited, ← final _ after]
      exact ⟨fun all => all _ after, fun promised next stepped =>
        Option.some_inj.mp (after.symm.trans stepped) ▸ promised⟩
    · exact absurd unread present
  | setUsageScenario | advise | unAdvise | setSelected | setDeselected | refreshTimer | elapse =>
    exact recovers.elim

/-- In every run in which events are advised and timers can be created, every recovery is
going to notify exactly when every recovery finds no callback of a dead session. -/
theorem recovery_notifies_iff (machine : Machine) (calls : List Call)
    (provided : Transition.Meets (step machine) Provided World.initial calls) :
    Transition.Meets (step machine)
        (fun s call => Recovers s call → ∀ next, step machine s call = some next →
          Promised machine next) World.initial calls ↔
      Transition.Meets (step machine) (fun s call => Recovers s call → NoneStale s)
        World.initial calls :=
  Transition.meets_iff Sound (fun s call next sound _ stepped => Sound.step s call next sound stepped)
    (fun _ _ sound provided => recovers_iff sound provided) sound_initial provided

/-- A broker that is lost in the first call, with no callback left of an earlier one. -/
theorem recovery_notifies_first :
    Transition.Meets (step sampleMachine)
      (fun s call => Recovers s call → ∀ next, step sampleMachine s call = some next →
        Promised sampleMachine next) World.initial
      [.advise (some 7) 0, sampleCall .brokerExited []] := by
  have provided : Transition.Meets (step sampleMachine) Provided World.initial
      [.advise (some 7) 0, sampleCall .brokerExited []] := by
    refine ⟨trivial, ?_⟩
    intro advised stepped
    cases stepped
    exact ⟨⟨rfl, rfl, rfl⟩, fun _ _ => trivial⟩
  refine (recovery_notifies_iff sampleMachine _ provided).mpr ⟨False.elim, ?_⟩
  intro advised stepped
  cases stepped
  exact ⟨fun _ ctx armed => (by cases armed), fun _ _ => trivial⟩

def idleMessage : List UInt8 := ascii "\x7b\"type\":\"AUTH_IDLE\"\x7d"

def idling : World :=
  (getSerialization sampleMachine allPointers (sampleSystem .ok idleMessage)
    (setProviderEvents World.initial (some 7) 0) .logon).1

def lost : World :=
  (getSerialization sampleMachine allPointers (sampleSystem .brokerExited []) idling .logon).1

def lostWhileIdle : List Call :=
  [.advise (some 7) 0, sampleCall .ok idleMessage, sampleCall .brokerExited []]

theorem recovery_dropped :
    Transition.Meets (step sampleMachine) Provided World.initial lostWhileIdle ∧
      ¬ Transition.Meets (step sampleMachine)
        (fun s call => Recovers s call → ∀ next, step sampleMachine s call = some next →
          Promised sampleMachine next) World.initial lostWhileIdle := by
  constructor
  · refine ⟨trivial, ?_⟩
    intro advised stepped
    cases stepped
    refine ⟨⟨rfl, rfl, rfl⟩, ?_⟩
    intro s stepped
    have reached : s = idling := (Option.some_inj.mp stepped).symm
    subst reached
    exact ⟨⟨by decide +kernel, rfl, rfl⟩, fun _ _ => trivial⟩
  · intro meets
    have recovers : Recovers idling (sampleCall .brokerExited []) :=
      ⟨rfl, rfl, by decide +kernel, Or.inl rfl⟩
    obtain ⟨ctx, armed, current, _⟩ : Promised sampleMachine lost :=
      ((meets.2 _ rfl).2 idling rfl).1 recovers lost rfl
    -- What is outstanding was armed in the first session, and the second ended it.
    have stale : ∀ ctx ∈ lost.outstanding, ctx.sessionGeneration = 1 := by decide +kernel
    have ended : lost.sessionGeneration = 2 := by decide +kernel
    rw [stale ctx armed, ended] at current
    cases current

end Dot1xCP.Core
