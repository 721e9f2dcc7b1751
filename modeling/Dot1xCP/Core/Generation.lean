import Dot1xCP.Core.Polling
import Mathlib.Algebra.Group.Nat.Defs

/-! The session generation.

`SetBrokerSessionActive(false)` is the only writer of the generation, and it advances it
by one. Here the calls of it are counted, call by call and over runs. A refresh request
carries the generation of its moment, so a timer that fires after the next session end
finds another one, until the counter has gone round.
-/

set_option autoImplicit false

namespace Dot1xCP.Core
open Broker Auth

def startEnds : StartVerdict → Nat
  | .noPipe | .started => 0
  | .noBroker | .notConnected _ => 1

def readEnds : Verdict → Nat
  | .timeout | .pending | .idle => 0
  | .lost | .empty | .malformed | .final _ => 1

/-- How often one call reaches `SetBrokerSessionActive(false)`. -/
def sessionEnds (s : World) : Call → Nat
  -- `CloseBrokerSessionNow` makes one of the two whether it finds a session or not.
  | .setUsageScenario cpus _ => if cpus = .logon ∧ s.brokerSessionActive then 0 else 2
  | .setDeselected cpus _ => if cpus = .logon ∧ s.brokerSessionActive then 1 else 0
  | .getSerialization _ pointers os =>
    if !pointers.pcpgsr || !pointers.pcpcs then 0
    else if (atRead pointers os s).isSome then readEnds (verdict os.read os.message)
    else startEnds (startVerdict os)
  | .advise _ _ | .unAdvise | .setSelected _ | .refreshTimer _ | .elapse _ => 0

theorem readEnds_pos {verdict : Verdict} (ends : ¬ verdict.Continues) : 0 < readEnds verdict := by
  cases verdict with
  | timeout | pending | idle => exact absurd trivial ends
  | lost | empty | malformed | final => exact Nat.zero_lt_one

def advance (ends : Nat) (generation : BitVec 32) : BitVec 32 := generation + BitVec.ofNat 32 ends

theorem advance_zero (generation : BitVec 32) : advance 0 generation = generation := by
  simp [advance]

theorem advance_add (m n : Nat) (generation : BitVec 32) :
    advance (m + n) generation = advance n (advance m generation) := by
  rw [advance, advance, advance, BitVec.ofNat_add, BitVec.add_assoc]

theorem advance_ne {ends : Nat} (some : 0 < ends) (few : ends < 2 ^ 32) (generation : BitVec 32) :
    advance ends generation ≠ generation := by
  intro same
  have zero : BitVec.ofNat 32 ends = 0 := by simpa [advance] using same
  have value := congrArg BitVec.toNat zero
  rw [BitVec.toNat_ofNat, Nat.mod_eq_of_lt few] at value
  exact absurd value (Nat.ne_of_gt some)

section Calls
variable {s : World}

theorem afterRead_advances (os : SerializationOs) (s : World) (verdict : Verdict) :
    (afterRead os s verdict).sessionGeneration =
      advance (readEnds verdict) s.sessionGeneration := by
  cases verdict with
  | timeout | pending | idle =>
    rw [readEnds, advance_zero]
    refine (afterRead_continues os s ?_).2.2
    trivial
  | lost | empty | malformed | final => exact (afterRead_ends os s id).2.2.2.2

theorem afterStart_advances (os : SerializationOs) (s : World) (verdict : StartVerdict) :
    (afterStart os s verdict).sessionGeneration =
      advance (startEnds verdict) s.sessionGeneration := by
  cases verdict with
  | noPipe | started => exact (advance_zero _).symm
  | noBroker | notConnected => rfl

theorem getSerialization_advances (coherent : Coherent s) (machine : Machine)
    (pointers : OutPointers) (os : SerializationOs) (cpus : UsageScenario) :
    (getSerialization machine pointers os s cpus).1.sessionGeneration =
      advance (sessionEnds s (.getSerialization cpus pointers os)) s.sessionGeneration := by
  by_cases null : pointers.pcpgsr = false ∨ pointers.pcpcs = false
  · have none : (!pointers.pcpgsr || !pointers.pcpcs) = true := by simpa using null
    rw [getSerialization_null machine pointers os s cpus null, sessionEnds, if_pos none, advance_zero]
  · simp only [not_or, Bool.not_eq_false] at null
    have both : ¬ (!pointers.pcpgsr || !pointers.pcpcs) = true := by simp [null]
    rw [sessionEnds, if_neg both]
    rcases call_cases machine coherent null.1 null.2 os cpus with
      ⟨s₁, read, origin, same⟩ | ⟨unread, _, _, text, same⟩
    -- A session that is new has not ended before.
    · have begun : s₁.sessionGeneration = s.sessionGeneration := by
        rcases origin with ⟨rfl, _⟩ | rfl <;> rfl
      rw [same, afterRead_advances, begun, read, if_pos Option.isSome_some]
    · rw [same, afterStart_advances, unread, if_neg (by simp)]

theorem setUsageScenario_advances (os : CloseOs) (s : World) (cpus : UsageScenario) :
    (setUsageScenario os s cpus).1.sessionGeneration =
      advance (sessionEnds s (.setUsageScenario cpus os)) s.sessionGeneration := by
  rw [setUsageScenario_world, sessionEnds]
  split
  · exact (advance_zero _).symm
  · exact BitVec.add_assoc _ 1 1

theorem setDeselected_advances (os : CloseOs) (s : World) (cpus : UsageScenario) :
    (setDeselected os s cpus).sessionGeneration =
      advance (sessionEnds s (.setDeselected cpus os)) s.sessionGeneration := by
  rw [setDeselected_world, sessionEnds]
  split
  · rfl
  · exact (advance_zero _).symm

/-- The generation counts the calls of `SetBrokerSessionActive(false)`. -/
theorem step_advances {machine : Machine} {call : Call} {next : World} (coherent : Coherent s)
    (stepped : step machine s call = some next) :
    next.sessionGeneration = advance (sessionEnds s call) s.sessionGeneration := by
  cases call with
  | setUsageScenario cpus os =>
    cases stepped
    exact setUsageScenario_advances os s cpus
  | setDeselected cpus os =>
    cases stepped
    exact setDeselected_advances os s cpus
  | getSerialization cpus pointers os =>
    cases stepped
    exact getSerialization_advances coherent machine pointers os cpus
  | advise | unAdvise | setSelected | refreshTimer | elapse =>
    rw [(step_aside stepped trivial).generation]
    exact (advance_zero _).symm

theorem step_ends {machine : Machine} {call : Call} {next : World} (coherent : Coherent s)
    (stepped : step machine s call = some next) (active : s.brokerSessionActive = true)
    (inactive : next.brokerSessionActive = false) : 0 < sessionEnds s call := by
  cases call with
  | setUsageScenario cpus os =>
    cases stepped
    rw [setUsageScenario_world] at inactive
    split at inactive
    · cases active.symm.trans inactive
    next notBoth =>
      rw [sessionEnds, if_neg notBoth]
      exact Nat.zero_lt_two
  | setDeselected cpus os =>
    cases stepped
    rw [setDeselected_world] at inactive
    split at inactive
    next both =>
      rw [sessionEnds, if_pos both]
      exact Nat.zero_lt_one
    · cases active.symm.trans inactive
  | getSerialization cpus pointers os =>
    cases stepped
    by_cases null : pointers.pcpgsr = false ∨ pointers.pcpcs = false
    · rw [getSerialization_null machine pointers os s cpus null] at inactive
      cases active.symm.trans inactive
    · simp only [not_or, Bool.not_eq_false] at null
      rcases call_cases machine coherent null.1 null.2 os cpus with
        ⟨s₁, read, origin, same⟩ | ⟨_, idle, _⟩
      · have running : s₁.brokerSessionActive = true := by
          rcases origin with ⟨rfl, _⟩ | rfl
          · exact active
          · rfl
        rw [same] at inactive
        -- A verdict that lets the session go on would have left it active.
        have ends : ¬ (verdict os.read os.message).Continues := by
          intro continues
          rw [(afterRead_continues os s₁ continues).2.1, running] at inactive
          cases inactive
        have both : ¬ (!pointers.pcpgsr || !pointers.pcpcs) = true := by simp [null]
        rw [sessionEnds, if_neg both, read, if_pos Option.isSome_some]
        exact readEnds_pos ends
      · cases active.symm.trans idle
  | advise | unAdvise | setSelected | refreshTimer | elapse =>
    rw [(step_aside stepped trivial).active, active] at inactive
    cases inactive

/-- A session that is gone at the end of a run was ended by a call that counts. -/
theorem run_ends {machine : Machine} {final : World} {calls : List Call} (coherent : Coherent s)
    (ran : Transition.run (step machine) s calls = some final) (active : s.brokerSessionActive = true)
    (inactive : final.brokerSessionActive = false) :
    0 < Transition.tally (step machine) sessionEnds s calls := by
  induction calls generalizing s with
  | nil =>
    cases ran
    cases active.symm.trans inactive
  | cons call calls ih =>
    obtain ⟨next, stepped, rest⟩ := Transition.run_cons.mp ran
    rw [Transition.tally_cons stepped]
    cases left : next.brokerSessionActive with
    | true => exact Nat.add_pos_right _ (ih (coherent.step stepped) rest left)
    | false => exact Nat.add_pos_left (step_ends coherent stepped active left) _

end Calls

/-! ## What a request carries -/

/-- A callback as it is armed: for the events advised, with the generation of the moment. -/
structure Fresh (s : World) (ctx : CredRefreshAsyncCtx) : Prop where
  generation : ctx.sessionGeneration = s.sessionGeneration
  events : s.cpEvents = some ctx.events
  context : s.cpEventsContext = ctx.context

def ArmsFresh (s next : World) : Prop :=
  next.outstanding = s.outstanding ∨ ∃ ctx, next.outstanding = ctx :: s.outstanding ∧ Fresh next ctx

section Requests
variable {s : World}

theorem armsFresh_request (os : RefreshOs) (s : World) (delayMs : Nat) :
    ArmsFresh s (requestCredentialsChangedAsync os s delayMs s.sessionGeneration) := by
  rcases requestCredentialsChangedAsync_cases os s delayMs s.sessionGeneration with
    same | ⟨events, _, same⟩ | ⟨events, _, advised, same⟩
  · rw [same]
    exact Or.inl rfl
  · rw [same]
    exact Or.inl rfl
  · rw [same]
    exact Or.inr ⟨_, rfl, ite_self _, advised, rfl⟩

theorem armsFresh_afterRead (os : SerializationOs) (s : World) (verdict : Verdict) :
    ArmsFresh s (afterRead os s verdict) := by
  cases verdict with
  | timeout => exact armsFresh_request _ _ _
  | pending =>
    exact armsFresh_request os.refresh
      { s with brokerAwaitingFinal := true, autoSubmitTick := 0, lastBrokerFlowState := .pending } 300
  | idle =>
    exact armsFresh_request os.refresh
      { s with brokerAwaitingFinal := false, lastBrokerFlowState := .idle } 2500
  | lost =>
    exact armsFresh_request os.refresh
      (armForceNextAutoSubmit (s.ended.emits (closingSession os.close s.session 0))) 50
  | empty | malformed | final => exact Or.inl rfl

theorem armsFresh_getSerialization (coherent : Coherent s) (machine : Machine)
    (pointers : OutPointers) (os : SerializationOs) (cpus : UsageScenario) :
    ArmsFresh s (getSerialization machine pointers os s cpus).1 := by
  refine coherent.getSerialization_ways machine pointers os cpus (Or.inl rfl) ?_ ?_ ?_
  · intro _ verdict
    exact armsFresh_afterRead os s verdict
  · intro _ verdict
    exact armsFresh_afterRead os (World.started s) verdict
  · intro _ verdict
    cases verdict <;> exact Or.inl rfl

/-- Only `GetSerialization` arms a callback, and only the callback itself takes it away. -/
theorem step_outstanding {machine : Machine} {call : Call} {next : World} (coherent : Coherent s)
    (stepped : step machine s call = some next) :
    ArmsFresh s next ∨ ∃ ctx ∈ s.outstanding, call = .refreshTimer ctx ∧
      next.outstanding = s.outstanding.erase ctx := by
  cases call with
  | setUsageScenario cpus os =>
    cases stepped
    rw [setUsageScenario_world]
    split <;> exact Or.inl (Or.inl rfl)
  | setDeselected cpus os =>
    cases stepped
    rw [setDeselected_world]
    split <;> exact Or.inl (Or.inl rfl)
  | getSerialization cpus pointers os =>
    cases stepped
    exact Or.inl (armsFresh_getSerialization coherent machine pointers os cpus)
  | refreshTimer ctx =>
    obtain ⟨⟨armed, _⟩, rfl⟩ := fireTimer_eq_some.mp stepped
    obtain ⟨effects, same, _⟩ :=
      credRefreshTimerCallback_frame { s with outstanding := s.outstanding.erase ctx } ctx
    rw [same]
    exact Or.inr ⟨ctx, armed, rfl, rfl⟩
  | advise | unAdvise | setSelected | elapse =>
    exact Or.inl (Or.inl (step_unfired stepped trivial).1)

theorem step_fresh {machine : Machine} {call : Call} {next : World} {ctx : CredRefreshAsyncCtx}
    (coherent : Coherent s) (stepped : step machine s call = some next)
    (arms : next.outstanding = ctx :: s.outstanding) : Fresh next ctx := by
  rcases step_outstanding coherent stepped with (kept | ⟨other, grown, fresh⟩) | ⟨fired, armed, _, fewer⟩
  · exact absurd (arms.symm.trans kept) (List.cons_ne_self ctx s.outstanding)
  · obtain ⟨rfl, _⟩ := List.cons.inj (arms.symm.trans grown)
    exact fresh
  · have longer := congrArg List.length (arms.symm.trans fewer)
    have shorter := List.length_erase_of_mem armed
    rw [List.length_cons] at longer
    omega

/-- A callback that is stale when it fires only gives back its reference. -/
theorem fired_stale {ctx : CredRefreshAsyncCtx} {next : World}
    (stale : ctx.sessionGeneration ≠ s.sessionGeneration) (fired : fireTimer s ctx = some next) :
    next.trace = .release ctx.events :: s.trace := by
  obtain ⟨_, rfl⟩ := fireTimer_eq_some.mp fired
  have current : isCurrentSessionGeneration s ctx.sessionGeneration = false :=
    beq_eq_false_iff_ne.mpr stale
  have erased : isCurrentSessionGeneration { s with outstanding := s.outstanding.erase ctx }
      ctx.sessionGeneration = false := current
  simp only [credRefreshTimerCallback, erased, World.emit]
  rfl

end Requests

def World.initialAt (generation : BitVec 32) : World :=
  { World.initial with sessionGeneration := generation }

theorem coherent_initialAt (generation : BitVec 32) : Coherent (World.initialAt generation) :=
  coherent_initial.congr rfl rfl rfl rfl

/-- A callback that was armed before a session ended does not notify after it, whatever
the generation was at the start, as long as fewer sessions end in between than the
counter has values. -/
theorem stale_refresh_silent (machine : Machine) (generation : BitVec 32) (earlier : List Call)
    (request : Call) (calls : List Call) (ctx : CredRefreshAsyncCtx) (s armed final next : World)
    (ran : Transition.run (step machine) (World.initialAt generation) earlier = some s)
    (requested : step machine s request = some armed)
    (arms : armed.outstanding = ctx :: s.outstanding)
    (continued : Transition.run (step machine) armed calls = some final)
    (ended : 0 < Transition.tally (step machine) sessionEnds armed calls)
    (few : Transition.tally (step machine) sessionEnds armed calls < 2 ^ 32)
    (fired : step machine final (.refreshTimer ctx) = some next) :
    next.trace = .release ctx.events :: final.trace := by
  have kept (s : World) (call : Call) (next : World) (coherent : Coherent s)
      (stepped : step machine s call = some next) : Coherent next := coherent.step stepped
  have reached : Transition.Reachable (step machine) (World.initialAt generation) s := ⟨earlier, ran⟩
  have coherent : Coherent s := reached.invariant kept (coherent_initialAt generation)
  have fresh := step_fresh coherent requested arms
  -- The generation moves on by one with every end.
  have moved : final.sessionGeneration =
      advance (Transition.tally (step machine) sessionEnds armed calls) armed.sessionGeneration :=
    Transition.run_tally Coherent sessionEnds World.sessionGeneration advance advance_zero advance_add
      kept (fun _ _ _ coherent stepped => step_advances coherent stepped) (coherent.step requested)
      continued
  apply fired_stale _ fired
  rw [fresh.generation, moved]
  exact (advance_ne ended few _).symm

/-- The generation is -1 when the broker says that it idles, and 0 after the tile was
deselected. -/
theorem stale_refresh_silent_wrap :
    ∃ s armed final next ctx,
      Transition.run (step sampleMachine) (World.initialAt (-1)) [.advise (some 7) 0] = some s ∧
      step sampleMachine s (sampleCall .ok idleMessage) = some armed ∧
      Transition.run (step sampleMachine) armed
        [.setDeselected .logon ⟨.object0, true, .object0⟩, .elapse 2500] = some final ∧
      step sampleMachine final (.refreshTimer ctx) = some next ∧
      final.sessionGeneration = 0 ∧ next.trace = .release ctx.events :: final.trace := by
  let s := setProviderEvents (World.initialAt (-1)) (some 7) 0
  let armed := (getSerialization sampleMachine allPointers (sampleSystem .ok idleMessage) s .logon).1
  let deselected := setDeselected ⟨.object0, true, .object0⟩ armed .logon
  let final : World := { deselected with now := deselected.now + 2500 }
  let ctx : CredRefreshAsyncCtx := ⟨7, 0, -1, 2500⟩
  let next := credRefreshTimerCallback { final with outstanding := final.outstanding.erase ctx } ctx
  have arms : armed.outstanding = ctx :: s.outstanding := by decide +kernel
  have due : ctx ∈ final.outstanding ∧ ctx.due ≤ final.now := by decide +kernel
  have fired : step sampleMachine final (.refreshTimer ctx) = some next :=
    fireTimer_eq_some.mpr ⟨due, rfl⟩
  have one : Transition.tally (step sampleMachine) sessionEnds armed
      [.setDeselected .logon ⟨.object0, true, .object0⟩, .elapse 2500] = 1 := by decide +kernel
  exact ⟨s, armed, final, next, ctx, rfl, rfl, rfl, fired, by decide +kernel,
    stale_refresh_silent sampleMachine (-1) [.advise (some 7) 0] (sampleCall .ok idleMessage)
      [.setDeselected .logon ⟨.object0, true, .object0⟩, .elapse 2500] ctx s armed final next rfl rfl
      arms rfl (one ▸ Nat.zero_lt_one) (one ▸ by decide) fired⟩

end Dot1xCP.Core
