import Dot1xCP.Core.Events
import Dot1xCP.Lib.Fair

/-! The refresh callback on its own thread.

`CredRefreshTimerCallback` clears the pending flag last. While it is past its
`CredentialsChanged` call and has not cleared the flag, a poll on another thread still
finds a request pending, and leaves without one; nothing is left then that would notify,
unless a later poll asks again.
-/

set_option autoImplicit false

namespace Dot1xCP.Core
open Broker Auth Transition

/-- What a callback that runs does next. -/
inductive Stage where
  | credentialsChanged
  | release
  | clear
  deriving DecidableEq, Repr

/-- The shared state and the callback that runs, if one does. -/
structure Threads where
  world : World
  callback : Option (CredRefreshAsyncCtx × Stage)
  deriving DecidableEq, Repr

inductive Move where
  /-- A timer fires: the callback starts and compares the generations. -/
  | check (ctx : CredRefreshAsyncCtx)
  | credentialsChanged
  | release
  | clear
  | getSerialization (cpus : UsageScenario) (pointers : OutPointers) (os : SerializationOs)
  | elapse (milliseconds : Nat)

def Move.Callback : Move → Prop
  | .check _ | .credentialsChanged | .release | .clear => True
  | .getSerialization _ _ _ | .elapse _ => False

def Threads.check (t : Threads) (ctx : CredRefreshAsyncCtx) : Option Threads :=
  if t.callback = none ∧ ctx ∈ t.world.outstanding ∧ ctx.due ≤ t.world.now then
    some
      { world := { t.world with outstanding := t.world.outstanding.erase ctx }
        callback :=
          if isCurrentSessionGeneration t.world ctx.sessionGeneration then
            some (ctx, .credentialsChanged)
          else some (ctx, .release) }
  else none

def Threads.credentialsChanged (t : Threads) : Option Threads :=
  match t.callback with
  | some (ctx, .credentialsChanged) =>
    some ⟨t.world.emit (.credentialsChanged ctx.events ctx.context), some (ctx, .release)⟩
  | _ => none

def Threads.release (t : Threads) : Option Threads :=
  match t.callback with
  | some (ctx, .release) => some ⟨t.world.emit (.release ctx.events), some (ctx, .clear)⟩
  | _ => none

def Threads.clear (t : Threads) : Option Threads :=
  match t.callback with
  | some (_, .clear) => some ⟨{ t.world with refreshPending := false }, none⟩
  | _ => none

def move (machine : Machine) (t : Threads) : Move → Option Threads
  | .check ctx => t.check ctx
  | .credentialsChanged => t.credentialsChanged
  | .release => t.release
  | .clear => t.clear
  | .getSerialization cpus pointers os =>
    some { t with world := (getSerialization machine pointers os t.world cpus).1 }
  | .elapse milliseconds =>
    some { t with world := { t.world with now := t.world.now + milliseconds } }

def callbackMoves (s : World) (ctx : CredRefreshAsyncCtx) : List Move :=
  if isCurrentSessionGeneration s ctx.sessionGeneration then
    [.check ctx, .credentialsChanged, .release, .clear]
  else [.check ctx, .release, .clear]

/-- Undisturbed, the moves are the callback of the sequential model. -/
theorem run_callbackMoves (machine : Machine) {s next : World} {ctx : CredRefreshAsyncCtx}
    (fired : fireTimer s ctx = some next) :
    run (move machine) ⟨s, none⟩ (callbackMoves s ctx) = some ⟨next, none⟩ := by
  obtain ⟨may, rfl⟩ := fireTimer_eq_some.mp fired
  have first : move machine ⟨s, none⟩ (.check ctx) = some
      ⟨{ s with outstanding := s.outstanding.erase ctx },
        if isCurrentSessionGeneration s ctx.sessionGeneration then some (ctx, .credentialsChanged)
        else some (ctx, .release)⟩ := if_pos ⟨rfl, may⟩
  unfold callbackMoves credRefreshTimerCallback
  have same : isCurrentSessionGeneration { s with outstanding := s.outstanding.erase ctx }
      ctx.sessionGeneration = isCurrentSessionGeneration s ctx.sessionGeneration := rfl
  rw [same]
  cases current : isCurrentSessionGeneration s ctx.sessionGeneration with
  | true =>
    rw [current] at first
    exact run_cons.mpr ⟨_, first, rfl⟩
  | false =>
    rw [current] at first
    exact run_cons.mpr ⟨_, first, rfl⟩

def Polls (s : World) : Move → Prop
  | .getSerialization _ pointers os =>
    pointers.pcpgsr = true ∧ pointers.pcpcs = true ∧ atRead pointers os s ≠ none ∧ Stays os
  | _ => True

/-- The request of the poll is dropped in favour of the one that is pending. -/
def Coalesces (s : World) : Move → Prop
  | .getSerialization _ _ _ => s.refreshPending = true
  | _ => False

def Unhindered (os : RefreshOs) (s : World) : Prop :=
  s.refreshPending = false ∧ os.newCtx = true ∧ os.createThreadpoolTimer = true

def Arms (s : World) : Move → Prop
  | .getSerialization _ _ os => Unhindered os.refresh s
  | _ => False

def Busy (t : Threads) : Prop := t.world.outstanding ≠ [] ∨ t.callback ≠ none

/-- `CredentialsChanged` has been called by the callback that runs, or was skipped. -/
def Past (t : Threads) : Prop :=
  ∃ ctx, t.callback = some (ctx, .release) ∨ t.callback = some (ctx, .clear)

/-- Events are advised, and what is armed carries the generation that never changes. -/
structure Steady (t : Threads) : Prop where
  coherent : Coherent t.world
  advised : t.world.cpEvents.isSome = true
  single : t.world.outstanding.length + t.callback.toList.length = t.world.refreshPending.toNat
  current : ∀ ctx ∈ t.world.outstanding, ctx.sessionGeneration = t.world.sessionGeneration

section Moves
variable {machine : Machine} {t next : Threads}

def Requested (os : RefreshOs) (s after : World) : Prop :=
  after.sessionGeneration = s.sessionGeneration ∧
    ((Unhindered os s ∧ after.refreshPending = true ∧
        ∃ ctx, after.outstanding = ctx :: s.outstanding ∧
          ctx.sessionGeneration = s.sessionGeneration) ∨
      (¬ Unhindered os s ∧ after.refreshPending = s.refreshPending ∧
        after.outstanding = s.outstanding))

theorem requested_request (os : RefreshOs) {s : World} (advised : s.cpEvents.isSome = true)
    (delayMs : Nat) :
    Requested os s (requestCredentialsChangedAsync os s delayMs s.sessionGeneration) := by
  obtain ⟨events, advised⟩ := Option.isSome_iff_exists.mp advised
  by_cases unhindered : Unhindered os s
  · obtain ⟨idle, newCtx, created⟩ := unhindered
    rw [requestCredentialsChangedAsync_armed idle advised newCtx created]
    exact ⟨rfl, Or.inl ⟨⟨idle, newCtx, created⟩, rfl, _, rfl, rfl⟩⟩
  · rcases s.refreshPending.eq_false_or_eq_true with pending | idle
    · rw [requestCredentialsChangedAsync_coalesced pending]
      exact ⟨rfl, Or.inr ⟨unhindered, rfl, rfl⟩⟩
    -- The flag was taken, but there was no memory or no timer: it is given back.
    · have failed : os.newCtx = false ∨ os.createThreadpoolTimer = false := by
        by_contra succeeded
        simp only [not_or, Bool.not_eq_false] at succeeded
        exact unhindered ⟨idle, succeeded.1, succeeded.2⟩
      rw [requestCredentialsChangedAsync_dropped idle advised failed]
      exact ⟨rfl, Or.inr ⟨unhindered, idle.symm, rfl⟩⟩

theorem requested_afterRead {os : SerializationOs} {s : World} (advised : s.cpEvents.isSome = true)
    {verdict : Verdict} (continues : verdict.Continues) :
    Requested os.refresh s (afterRead os s verdict) := by
  cases verdict with
  | timeout => exact requested_request os.refresh advised _
  | pending =>
    let marked : World :=
      { s with brokerAwaitingFinal := true, autoSubmitTick := 0, lastBrokerFlowState := .pending }
    have kept : marked.cpEvents.isSome = true := advised
    exact requested_request os.refresh kept 300
  | idle =>
    let marked : World := { s with brokerAwaitingFinal := false, lastBrokerFlowState := .idle }
    have kept : marked.cpEvents.isSome = true := advised
    exact requested_request os.refresh kept 2500
  | lost | empty | malformed | final => exact continues.elim

/-- A poll keeps the generation, and arms a timer exactly when nothing is in its way. -/
theorem requested_poll {s : World} (coherent : Coherent s) (advised : s.cpEvents.isSome = true)
    {cpus : UsageScenario} {pointers : OutPointers} {os : SerializationOs}
    (polls : Polls s (.getSerialization cpus pointers os)) (machine : Machine) :
    Requested os.refresh s (getSerialization machine pointers os s cpus).1 := by
  obtain ⟨response, credential, present, stays⟩ := polls
  have continues := continues_iff.mpr stays
  rcases call_cases machine coherent response credential os cpus with
    ⟨s₁, _, origin, same⟩ | ⟨unread, _⟩
  · rw [same]
    rcases origin with ⟨rfl, _⟩ | rfl
    · exact requested_afterRead advised continues
    · have started : (World.started s).cpEvents.isSome = true := advised
      exact requested_afterRead started continues
  · exact absurd unread present

theorem move_check {ctx : CredRefreshAsyncCtx} (steady : Steady t)
    (moved : move machine t (.check ctx) = some next) :
    t.callback = none ∧ ctx ∈ t.world.outstanding ∧
      next = ⟨{ t.world with outstanding := t.world.outstanding.erase ctx },
        some (ctx, .credentialsChanged)⟩ := by
  obtain ⟨⟨idle, armed, _⟩, same⟩ := Option.ite_none_right_eq_some.mp moved
  have current : isCurrentSessionGeneration t.world ctx.sessionGeneration = true :=
    beq_iff_eq.mpr (steady.current ctx armed)
  rw [current, if_pos rfl, Option.some_inj] at same
  exact ⟨idle, armed, same.symm⟩

theorem move_credentialsChanged (moved : move machine t .credentialsChanged = some next) :
    ∃ ctx, t.callback = some (ctx, .credentialsChanged) ∧
      next = ⟨t.world.emit (.credentialsChanged ctx.events ctx.context), some (ctx, .release)⟩ := by
  dsimp only [move, Threads.credentialsChanged] at moved
  split at moved
  next ctx running => exact ⟨ctx, running, (Option.some_inj.mp moved).symm⟩
  · cases moved

theorem move_release (moved : move machine t .release = some next) :
    ∃ ctx, t.callback = some (ctx, .release) ∧
      next = ⟨t.world.emit (.release ctx.events), some (ctx, .clear)⟩ := by
  dsimp only [move, Threads.release] at moved
  split at moved
  next ctx running => exact ⟨ctx, running, (Option.some_inj.mp moved).symm⟩
  · cases moved

theorem move_clear (moved : move machine t .clear = some next) :
    ∃ ctx, t.callback = some (ctx, .clear) ∧
      next = ⟨{ t.world with refreshPending := false }, none⟩ := by
  dsimp only [move, Threads.clear] at moved
  split at moved
  next ctx running => exact ⟨ctx, running, (Option.some_inj.mp moved).symm⟩
  · cases moved

theorem Steady.move {m : Move} (steady : Steady t) (polls : Polls t.world m)
    (moved : move machine t m = some next) : Steady next := by
  have single := steady.single
  cases m with
  | check ctx =>
    obtain ⟨idle, armed, rfl⟩ := move_check steady moved
    refine ⟨steady.coherent.congr rfl rfl rfl rfl, steady.advised, ?_, ?_⟩
    · have some := List.length_pos_of_mem armed
      have less := List.length_erase_of_mem armed
      rw [idle] at single
      simp only [Option.toList_none, Option.toList_some, List.length_nil,
        List.length_singleton] at single ⊢
      omega
    · intro other left
      exact steady.current other (List.mem_of_mem_erase left)
  | credentialsChanged =>
    obtain ⟨ctx, running, rfl⟩ := move_credentialsChanged moved
    rw [running] at single
    exact ⟨steady.coherent.congr rfl rfl rfl rfl, steady.advised, single, steady.current⟩
  | release =>
    obtain ⟨ctx, running, rfl⟩ := move_release moved
    rw [running] at single
    exact ⟨steady.coherent.congr rfl rfl rfl rfl, steady.advised, single, steady.current⟩
  | clear =>
    obtain ⟨ctx, running, rfl⟩ := move_clear moved
    refine ⟨steady.coherent.congr rfl rfl rfl rfl, steady.advised, ?_, steady.current⟩
    -- The flag stood for the callback that ends, so no timer is armed.
    have atMost := Bool.toNat_le t.world.refreshPending
    rw [running] at single
    simp only [Option.toList_none, Option.toList_some, List.length_nil, List.length_singleton,
      Bool.toNat_false] at single ⊢
    omega
  | getSerialization cpus pointers os =>
    cases moved
    obtain ⟨generation, requested⟩ := requested_poll steady.coherent steady.advised polls machine
    have kept := getSerialization_events steady.coherent machine pointers os cpus
    refine ⟨steady.coherent.getSerialization machine pointers os cpus, ?_, ?_, ?_⟩
    · exact kept.symm ▸ steady.advised
    · rcases requested with ⟨⟨idle, _⟩, pending, ctx, grown, _⟩ | ⟨_, pending, same⟩
      · rw [idle] at single
        dsimp only
        rw [pending, grown, List.length_cons, Bool.toNat_true]
        rw [Bool.toNat_false] at single
        omega
      · dsimp only
        rw [pending, same]
        exact single
    · intro ctx armed
      dsimp only at armed ⊢
      rw [generation]
      rcases requested with ⟨_, _, added, grown, fresh⟩ | ⟨_, _, same⟩
      · rw [grown] at armed
        rcases List.mem_cons.mp armed with rfl | armed
        · exact fresh
        · exact steady.current ctx armed
      · exact steady.current ctx (same ▸ armed)
  | elapse milliseconds =>
    cases moved
    exact ⟨steady.coherent.congr rfl rfl rfl rfl, steady.advised, single, steady.current⟩

theorem move_other {m : Move} (steady : Steady t) (polls : Polls t.world m) (other : ¬ m.Callback)
    (moved : move machine t m = some next) :
    next.callback = t.callback ∧
      (next.world.outstanding = t.world.outstanding ∨
        Arms t.world m ∧ next.world.outstanding ≠ []) := by
  cases m with
  | check | credentialsChanged | release | clear => exact absurd trivial other
  | getSerialization cpus pointers os =>
    cases moved
    obtain ⟨_, ⟨unhindered, _, ctx, grown, _⟩ | ⟨_, _, same⟩⟩ :=
      requested_poll steady.coherent steady.advised polls machine
    · refine ⟨rfl, Or.inr ⟨unhindered, ?_⟩⟩
      dsimp only
      rw [grown]
      exact List.cons_ne_nil ctx _
    · exact ⟨rfl, Or.inl same⟩
  | elapse milliseconds =>
    cases moved
    exact ⟨rfl, Or.inl rfl⟩

theorem move_arms {m : Move} (steady : Steady t) (polls : Polls t.world m) (arms : Arms t.world m)
    (moved : move machine t m = some next) : next.world.outstanding ≠ [] := by
  cases m with
  | check | credentialsChanged | release | clear | elapse => exact arms.elim
  | getSerialization cpus pointers os =>
    cases moved
    obtain ⟨_, ⟨_, _, ctx, grown, _⟩ | ⟨hindered, _⟩⟩ :=
      requested_poll steady.coherent steady.advised polls machine
    · dsimp only
      rw [grown]
      exact List.cons_ne_nil ctx _
    · exact absurd arms hindered

/-- While a timer is armed no callback runs. -/
theorem Steady.one (steady : Steady t) (armed : t.world.outstanding ≠ []) : t.callback = none := by
  have some := List.length_pos_of_ne_nil armed
  have atMost := Bool.toNat_le t.world.refreshPending
  have single := steady.single
  cases running : t.callback with
  | none => rfl
  | some callback =>
    rw [running, Option.toList_some, List.length_singleton] at single
    omega

end Moves

/-! ## Behaviours -/

/-- Nothing is left that would notify. -/
structure Exhausted (t : Threads) : Prop where
  disarmed : t.world.outstanding = []
  past : ∀ ctx, t.callback ≠ some (ctx, .credentialsChanged)

section Behaviours
variable {machine : Machine} {b : Behaviour (Core.move machine)}

structure Polling (b : Behaviour (move machine)) : Prop where
  start : Steady (b.state 0)
  polls : ∀ n m, b.label n = some m → Polls (b.state n).world m

theorem Polling.steady (polling : Polling b) (n : Nat) : Steady (b.state n) := by
  apply b.forever polling.start _ n (Nat.zero_le n)
  intro m l _ taken steady
  exact steady.move (polling.polls m l taken) (b.steps m l taken)

theorem calling_notifies (polling : Polling b) (fair : b.WeaklyFair Busy Move.Callback) {n : Nat}
    {ctx : CredRefreshAsyncCtx} (calling : (b.state n).callback = some (ctx, .credentialsChanged)) :
    ∃ m, n ≤ m ∧ b.label m = some .credentialsChanged := by
  have waiting (t : Threads) (running : t.callback = some (ctx, .credentialsChanged)) : Busy t := by
    apply Or.inr
    rw [running]
    exact Option.some_ne_none _
  obtain ⟨m, later, running, l, taken, acts⟩ := fair.acted waiting calling (by
    intro m l _ taken other running
    have kept := move_other (polling.steady m) (polling.polls m l taken) other (b.steps m l taken)
    exact kept.1.trans running)
  have moved := b.steps m l taken
  cases l with
  | check other =>
    have idle := (move_check (polling.steady m) moved).1
    cases running.symm.trans idle
  | credentialsChanged => exact ⟨m, later, taken⟩
  | release =>
    obtain ⟨other, releasing, _⟩ := move_release moved
    cases running.symm.trans releasing
  | clear =>
    obtain ⟨other, clearing, _⟩ := move_clear moved
    cases running.symm.trans clearing
  | getSerialization | elapse => exact acts.elim

theorem armed_notifies (polling : Polling b) (fair : b.WeaklyFair Busy Move.Callback) {n : Nat}
    (armed : (b.state n).world.outstanding ≠ []) :
    ∃ m, n ≤ m ∧ b.label m = some .credentialsChanged := by
  obtain ⟨m, later, armed, l, taken, acts⟩ := fair.acted
    (fun t (armed : t.world.outstanding ≠ []) => Or.inl armed) armed (by
      intro m l _ taken other armed
      have kept := move_other (polling.steady m) (polling.polls m l taken) other (b.steps m l taken)
      rcases kept.2 with same | ⟨_, grown⟩
      · exact same ▸ armed
      · exact grown)
  have moved := b.steps m l taken
  have idle := (polling.steady m).one armed
  cases l with
  | check ctx =>
    obtain ⟨_, _, next⟩ := move_check (polling.steady m) moved
    obtain ⟨last, after, notified⟩ :=
      calling_notifies polling fair (congrArg Threads.callback next)
    exact ⟨last, Nat.le_trans later (Nat.le_of_succ_le after), notified⟩
  | credentialsChanged => exact ⟨m, later, taken⟩
  | release =>
    obtain ⟨other, releasing, _⟩ := move_release moved
    cases idle.symm.trans releasing
  | clear =>
    obtain ⟨other, clearing, _⟩ := move_clear moved
    cases idle.symm.trans clearing
  | getSerialization | elapse => exact acts.elim

theorem Exhausted.move {t next : Threads} {m : Move} (exhausted : Exhausted t) (steady : Steady t)
    (polls : Polls t.world m) (notArms : ¬ Arms t.world m)
    (moved : Core.move machine t m = some next) : Exhausted next := by
  obtain ⟨disarmed, past⟩ := exhausted
  by_cases other : m.Callback
  · cases m with
    | check ctx =>
      have armed := (move_check steady moved).2.1
      rw [disarmed] at armed
      cases armed
    | credentialsChanged =>
      obtain ⟨ctx, calling, _⟩ := move_credentialsChanged moved
      exact absurd calling (past ctx)
    | release =>
      obtain ⟨ctx, _, rfl⟩ := move_release moved
      exact ⟨disarmed, fun other same => by cases same⟩
    | clear =>
      obtain ⟨ctx, _, rfl⟩ := move_clear moved
      exact ⟨disarmed, fun other same => by cases same⟩
    | getSerialization | elapse => exact other.elim
  · obtain ⟨callback, outstanding⟩ := move_other steady polls other moved
    refine ⟨?_, ?_⟩
    · rcases outstanding with same | ⟨arms, _⟩
      · exact same.trans disarmed
      · exact absurd arms notArms
    · rw [callback]
      exact past

theorem armed_before (polling : Polling b) {n m : Nat} (exhausted : Exhausted (b.state n))
    (later : n ≤ m) (notified : b.label m = some .credentialsChanged) :
    ∃ k l, n ≤ k ∧ b.label k = some l ∧ Arms (b.state k).world l := by
  by_contra never
  simp only [not_exists, not_and] at never
  have always := b.forever exhausted fun k l after taken exhausted =>
    exhausted.move (polling.steady k) (polling.polls k l taken) (never k l after taken)
      (b.steps k l taken)
  obtain ⟨ctx, calling, _⟩ := move_credentialsChanged (b.steps m _ notified)
  exact (always m later).past ctx calling

theorem coalesced_next (polling : Polling b) {n : Nat} {m : Move} (taken : b.label n = some m)
    (coalesces : Coalesces (b.state n).world m) :
    ¬ m.Callback ∧ (b.state (n + 1)).callback = (b.state n).callback ∧
      (b.state (n + 1)).world.outstanding = (b.state n).world.outstanding := by
  have other : ¬ m.Callback := by
    cases m with
    | getSerialization => exact id
    | check | credentialsChanged | release | clear | elapse => exact coalesces.elim
  obtain ⟨callback, outstanding⟩ :=
    move_other (polling.steady n) (polling.polls n m taken) other (b.steps n m taken)
  refine ⟨other, callback, ?_⟩
  rcases outstanding with same | ⟨arms, _⟩
  · exact same
  · cases m with
    | getSerialization cpus pointers os => cases coalesces.symm.trans arms.1
    | check | credentialsChanged | release | clear | elapse => exact arms.elim

/-- What is pending is armed, or about to notify, or past that. -/
theorem Steady.pending {t : Threads} (steady : Steady t) (pending : t.world.refreshPending = true) :
    t.world.outstanding ≠ [] ∨ (∃ ctx, t.callback = some (ctx, .credentialsChanged)) ∨ Past t := by
  cases running : t.callback with
  | none =>
    apply Or.inl
    intro disarmed
    have single := steady.single
    rw [pending, disarmed, running] at single
    cases single
  | some callback =>
    obtain ⟨ctx, stage⟩ := callback
    cases stage with
    | credentialsChanged => exact Or.inr (Or.inl ⟨ctx, rfl⟩)
    | release => exact Or.inr (Or.inr ⟨ctx, Or.inl running⟩)
    | clear => exact Or.inr (Or.inr ⟨ctx, Or.inr running⟩)

theorem Past.exhausted {t : Threads} (steady : Steady t) (past : Past t) : Exhausted t := by
  obtain ⟨ctx, running⟩ := past
  refine ⟨?_, ?_⟩
  · by_contra armed
    have idle := steady.one armed
    rcases running with running | running
    · cases idle.symm.trans running
    · cases idle.symm.trans running
  · intro other calling
    rcases running with running | running
    · cases running.symm.trans calling
    · cases running.symm.trans calling

/-- One request that is dropped is followed by a notification, unless it is dropped in
favour of a callback that has notified and no later poll arms another. -/
theorem notified_iff (polling : Polling b) (fair : b.WeaklyFair Busy Move.Callback) {n : Nat}
    {m : Move} (taken : b.label n = some m) (coalesces : Coalesces (b.state n).world m) :
    (∃ later, n < later ∧ b.label later = some .credentialsChanged) ↔
      (Past (b.state n) → ∃ later l, n < later ∧ b.label later = some l ∧
        Arms (b.state later).world l) := by
  obtain ⟨_, callback, outstanding⟩ := coalesced_next polling taken coalesces
  constructor
  · rintro ⟨later, after, notified⟩ past
    have exhausted := past.exhausted (polling.steady n)
    have next : Exhausted (b.state (n + 1)) := by
      refine ⟨outstanding.trans exhausted.disarmed, ?_⟩
      rw [callback]
      exact exhausted.past
    exact armed_before polling next after notified
  · intro armsAgain
    have pending : (b.state n).world.refreshPending = true := by
      cases m with
      | getSerialization => exact coalesces
      | check | credentialsChanged | release | clear | elapse => exact coalesces.elim
    rcases (polling.steady n).pending pending with armed | ⟨ctx, calling⟩ | past
    · rw [← outstanding] at armed
      exact armed_notifies polling fair armed
    · rw [← callback] at calling
      exact calling_notifies polling fair calling
    · obtain ⟨later, l, after, again, arms⟩ := armsAgain past
      have armed := move_arms (polling.steady later) (polling.polls later l again) arms
        (b.steps later l again)
      obtain ⟨last, final, notified⟩ := armed_notifies polling fair armed
      exact ⟨last, Nat.lt_trans after final, notified⟩

end Behaviours

theorem steady_start {machine : Machine} {s : World} (reached : Reachable machine s)
    (advised : s.cpEvents.isSome = true)
    (current : ∀ ctx ∈ s.outstanding, ctx.sessionGeneration = s.sessionGeneration) :
    Steady ⟨s, none⟩ := by
  have sound : Sound s := Transition.Reachable.invariant Sound.step sound_initial reached
  exact ⟨sound.coherent, advised, sound.single, current⟩

/-- Within a session that goes on, every request that is dropped is followed by a
notification, exactly when every request that is dropped in favour of a callback past its
`CredentialsChanged` call is followed by a poll that arms a timer. -/
theorem coalesced_notified_iff (machine : Machine) (b : Behaviour (move machine)) (s : World)
    (start : b.state 0 = ⟨s, none⟩) (reached : Reachable machine s)
    (advised : s.cpEvents.isSome = true)
    (current : ∀ ctx ∈ s.outstanding, ctx.sessionGeneration = s.sessionGeneration)
    (polls : ∀ n m, b.label n = some m → Polls (b.state n).world m)
    (fair : b.WeaklyFair Busy Move.Callback) :
    (∀ n m, b.label n = some m → Coalesces (b.state n).world m →
        ∃ later, n < later ∧ b.label later = some .credentialsChanged) ↔
      ∀ n m, b.label n = some m → Coalesces (b.state n).world m → Past (b.state n) →
        ∃ later l, n < later ∧ b.label later = some l ∧ Arms (b.state later).world l := by
  have polling : Polling b := ⟨start ▸ steady_start reached advised current, polls⟩
  apply forall₂_congr
  intro n m
  apply forall₂_congr
  intro taken coalesces
  exact notified_iff polling fair taken coalesces

def quietPoll : Move := .getSerialization .logon allPointers (sampleSystem .timeout [])

def idleRequest : CredRefreshAsyncCtx := ⟨7, 0, 1, 2500⟩

theorem quietPoll_polls (s : World) : Polls s quietPoll := by
  refine ⟨rfl, rfl, ?_, Or.inl rfl⟩
  unfold atRead
  split
  · exact Option.some_ne_none _
  · exact Option.some_ne_none _

theorem not_busy {t : Threads} (rests : (t.world.outstanding, t.callback) = ([], none)) :
    ¬ Busy t := by
  rw [Prod.mk.injEq] at rests
  intro busy
  rcases busy with armed | running
  · exact armed rests.1
  · exact running rests.2

theorem idling_current :
    ∀ ctx ∈ idling.outstanding, ctx.sessionGeneration = idling.sessionGeneration := by
  decide +kernel

/-- The poll comes while the timer is armed. -/
theorem coalesced_notified_armed :
    ∃ b : Behaviour (move sampleMachine), ∃ n m,
      b.label n = some m ∧ Coalesces (b.state n).world m ∧
      ∃ later, n < later ∧ b.label later = some .credentialsChanged := by
  let moves : List Move :=
    [quietPoll, .elapse 2500, .check idleRequest, .credentialsChanged, .release, .clear]
  have ends : (run (move sampleMachine) ⟨idling, none⟩ moves).map
      (fun t => (t.world.outstanding, t.callback)) = some ([], none) := by decide +kernel
  obtain ⟨final, ran, rests⟩ := Option.map_eq_some_iff.mp ends
  have idle := not_busy rests
  have polls : ∀ m ∈ moves, ∀ s, Polls s m := by
    intro m inside s
    rcases List.mem_cons.mp inside with rfl | inside
    · exact quietPoll_polls s
    · simp only [List.mem_cons, List.not_mem_nil, or_false] at inside
      rcases inside with rfl | rfl | rfl | rfl | rfl <;> trivial
  have meets : Meets (move sampleMachine) (fun t m => Coalesces t.world m → ¬ Past t) ⟨idling, none⟩
      moves := by
    refine ⟨fun _ past => ?_, fun _ _ => ⟨False.elim, fun _ _ => ⟨False.elim, fun _ _ =>
      ⟨False.elim, fun _ _ => ⟨False.elim, fun _ _ => ⟨False.elim, fun _ _ => trivial⟩⟩⟩⟩⟩⟩
    obtain ⟨ctx, running | running⟩ := past
    · cases running
    · cases running
  have dropped : Coalesces ((Behaviour.ofRun ran).state 0).world quietPoll := by
    change idling.refreshPending = true
    decide +kernel
  refine ⟨Behaviour.ofRun ran, 0, quietPoll, rfl, dropped, ?_⟩
  refine (coalesced_notified_iff sampleMachine (Behaviour.ofRun ran) idling rfl
    ⟨[.advise (some 7) 0, sampleCall .ok idleMessage], rfl⟩ (by decide +kernel) idling_current ?_
    (Behaviour.ofRun_weaklyFair ran idle Move.Callback)).mpr ?_ 0 quietPoll rfl dropped
  · intro n m taken
    exact Behaviour.ofRun_meets ran (meets_of_forall (move sampleMachine) polls _) n m taken _
  · intro n m taken coalesces past
    exact absurd past (Behaviour.ofRun_meets ran meets n m taken coalesces)

/-- The poll comes between the callback's call of `CredentialsChanged` and the moment when
it clears the flag. -/
theorem coalesced_unnotified :
    ¬ ∀ b : Behaviour (move sampleMachine), b.state 0 = ⟨idling, none⟩ →
      (∀ n m, b.label n = some m → Polls (b.state n).world m) →
      b.WeaklyFair Busy Move.Callback →
      ∀ n m, b.label n = some m → Coalesces (b.state n).world m →
        ∃ later, n < later ∧ b.label later = some .credentialsChanged := by
  intro all
  let moves : List Move :=
    [.elapse 2500, .check idleRequest, .credentialsChanged, quietPoll, .release, .clear]
  have ends : (run (move sampleMachine) ⟨idling, none⟩ moves).map
      (fun t => (t.world.outstanding, t.callback)) = some ([], none) := by decide +kernel
  obtain ⟨final, ran, rests⟩ := Option.map_eq_some_iff.mp ends
  have idle := not_busy rests
  have polls : ∀ m ∈ moves, ∀ s, Polls s m := by
    intro m inside s
    simp only [moves, List.mem_cons, List.not_mem_nil, or_false] at inside
    rcases inside with rfl | rfl | rfl | rfl | rfl | rfl
    case inr.inr.inr.inl => exact quietPoll_polls s
    all_goals trivial
  have dropped : Coalesces ((Behaviour.ofRun ran).state 3).world quietPoll := by
    change (stateAt (move sampleMachine) ⟨idling, none⟩ moves 3).world.refreshPending = true
    decide +kernel
  obtain ⟨later, after, notified⟩ := all (Behaviour.ofRun ran) rfl
    (fun n m taken =>
      Behaviour.ofRun_meets ran (meets_of_forall (move sampleMachine) polls _) n m taken _)
    (Behaviour.ofRun_weaklyFair ran idle Move.Callback) 3 quietPoll rfl dropped
  obtain rfl | rfl | after : later = 4 ∨ later = 5 ∨ moves.length ≤ later := by
    have six : moves.length = 6 := rfl
    omega
  · cases notified
  · cases notified
  · cases notified.symm.trans (List.getElem?_eq_none after)

end Dot1xCP.Core
