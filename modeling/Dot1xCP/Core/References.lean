import Dot1xCP.Core.Refresh
import Dot1xCP.Lib.Ledger

/-! The references to events objects that `Provider.cpp` takes and releases.

One is held for the advised object and one for each armed callback. Here the functions
that move references are called in any order, and an armed timer fires at any time.
-/

set_option autoImplicit false

namespace Dot1xCP.Core
open Ledger

inductive EventsCall where
  | advise (events : Option Events) (context : Nat)
  | unAdvise
  | requestCredentialsChangedAsync (os : RefreshOs) (delayMs : Nat) (generation : BitVec 32)
  | refreshTimer (ctx : CredRefreshAsyncCtx)
  deriving DecidableEq, Repr

def EventsCall.serve (s : World) : EventsCall → Option World
  | .advise events context => some (setProviderEvents s events context)
  | .unAdvise => some (clearProviderEvents s)
  | .requestCredentialsChangedAsync os delayMs generation =>
    some (Core.requestCredentialsChangedAsync os s delayMs generation)
  | .refreshTimer ctx =>
    if ctx ∈ s.outstanding then
      some (credRefreshTimerCallback { s with outstanding := s.outstanding.erase ctx } ctx)
    else none

def Effect.takes : Effect → List Events
  | .addRef events => [events]
  | _ => []

def Effect.gives : Effect → List Events
  | .release events => [events]
  | _ => []

def World.references (s : World) : List Events :=
  s.cpEvents.toList ++ s.outstanding.map CredRefreshAsyncCtx.events

section Count
variable (trace : List Effect) (events : Events)

theorem count_moved {moved : Effect → List Events} {effect : Effect}
    (one : ∀ other, (moved other).count events = if other = effect then 1 else 0) :
    (trace.flatMap moved).count events = trace.count effect := by
  induction trace with
  | nil => rfl
  | cons other trace ih =>
    rw [List.flatMap_cons, List.count_append, ih, one, List.count_cons, Nat.add_comm]
    simp

theorem count_takes : (trace.flatMap Effect.takes).count events = trace.count (.addRef events) := by
  refine count_moved trace events fun other => ?_
  cases other with
  | addRef other => simp [Effect.takes, List.count_singleton]
  | _ => simp [Effect.takes]

theorem count_gives : (trace.flatMap Effect.gives).count events = trace.count (.release events) := by
  refine count_moved trace events fun other => ?_
  cases other with
  | release other => simp [Effect.gives, List.count_singleton]
  | _ => simp [Effect.gives]

end Count

/-- The references taken and not released are those held. -/
def World.Holds (s : World) : Prop := Counted Effect.takes Effect.gives s.references s.trace

section Calls
variable {s : World}

theorem World.Holds.releaseEvents (holds : s.Holds) : (releaseEvents s).Holds := by
  unfold Core.releaseEvents
  split
  next => exact holds
  next events advised =>
    unfold World.Holds World.references at holds
    rw [advised] at holds
    -- The reference to the stored object is the first of those held.
    exact Counted.cons (Effect.release events) holds

theorem World.Holds.setProviderEvents (holds : s.Holds) (events : Option Events) (context : Nat) :
    (setProviderEvents s events context).Holds := by
  have released := holds.releaseEvents
  have none : (Core.releaseEvents s).cpEvents = none := by
    obtain ⟨effects, same, _⟩ := releaseEvents_frame s
    rw [same]
  unfold World.Holds World.references at released
  rw [none] at released
  cases events with
  | none => exact released
  | some events => exact Counted.cons (Effect.addRef events) released

theorem World.Holds.clearProviderEvents (holds : s.Holds) : (clearProviderEvents s).Holds :=
  holds.releaseEvents

theorem World.Holds.requestCredentialsChangedAsync (holds : s.Holds) (os : RefreshOs) (delayMs : Nat)
    (generation : BitVec 32) :
    (requestCredentialsChangedAsync os s delayMs generation).Holds := by
  have taken (events : Events) : Counted Effect.takes Effect.gives (events :: s.references)
      (.addRef events :: s.trace) := Counted.cons (Effect.addRef events) holds
  rcases requestCredentialsChangedAsync_cases os s delayMs generation with
    same | ⟨events, _, same⟩ | ⟨events, _, _, same⟩
  · rw [same]
    exact holds
  · rw [same]
    exact Counted.cons (Effect.release events) (taken events)
  · rw [same]
    apply (taken events).reorder
    unfold World.references
    rw [List.map_cons]
    exact List.perm_middle.symm

theorem World.Holds.credRefreshTimerCallback (holds : s.Holds) {ctx : CredRefreshAsyncCtx}
    (armed : ctx ∈ s.outstanding) :
    (credRefreshTimerCallback { s with outstanding := s.outstanding.erase ctx } ctx).Holds := by
  have moved : (s.outstanding.map CredRefreshAsyncCtx.events).Perm
      (ctx.events :: (s.outstanding.erase ctx).map CredRefreshAsyncCtx.events) :=
    (List.perm_cons_erase armed).map CredRefreshAsyncCtx.events
  have left : Counted Effect.takes Effect.gives
      (ctx.events :: (s.cpEvents.toList ++ (s.outstanding.erase ctx).map CredRefreshAsyncCtx.events))
      s.trace := by
    apply Counted.reorder holds
    exact (moved.append_left _).trans List.perm_middle
  unfold Core.credRefreshTimerCallback
  dsimp only
  split
  next =>
    have notified := Counted.cons (Effect.credentialsChanged ctx.events ctx.context) left
    exact Counted.cons (Effect.release ctx.events) notified
  next => exact Counted.cons (Effect.release ctx.events) left

/-- What a whole run of these calls carries along. -/
structure Accounted (s : World) : Prop where
  single : Single s
  holds : s.Holds

theorem accounted_initial : Accounted World.initial := ⟨single_initial, counted_nil⟩

theorem Accounted.serve {call : EventsCall} {next : World} (accounted : Accounted s)
    (served : call.serve s = some next) : Accounted next := by
  obtain ⟨single, holds⟩ := accounted
  cases call with
  | advise events context =>
    cases served
    obtain ⟨effects, same, _⟩ := setProviderEvents_frame s events context
    refine ⟨?_, holds.setProviderEvents events context⟩
    rw [same]
    exact single
  | unAdvise =>
    cases served
    obtain ⟨effects, same, _⟩ := clearProviderEvents_frame s
    refine ⟨?_, holds.clearProviderEvents⟩
    rw [same]
    exact single
  | requestCredentialsChangedAsync os delayMs generation =>
    cases served
    exact ⟨single.asks (asks_request os s delayMs generation),
      holds.requestCredentialsChangedAsync os delayMs generation⟩
  | refreshTimer ctx =>
    obtain ⟨armed, same⟩ := Option.ite_none_right_eq_some.mp served
    obtain rfl := Option.some_inj.mp same
    exact ⟨single.fired armed, holds.credRefreshTimerCallback armed⟩

end Calls

def World.taken (s : World) (events : Events) : Nat := s.trace.count (.addRef events)

def World.released (s : World) (events : Events) : Nat := s.trace.count (.release events)

structure Accounts (s : World) : Prop where
  atMostOne : s.outstanding.length ≤ 1
  pending : s.refreshPending = true ↔ s.outstanding.length = 1
  held : ∀ events, s.taken events = s.released events +
    ((if s.cpEvents = some events then 1 else 0) +
      s.outstanding.countP fun ctx => ctx.events = events)
  rightful : ∀ later earlier events, s.trace = later ++ .release events :: earlier →
    earlier.count (.release events) < earlier.count (.addRef events)
  returned : ∀ events, s.cpEvents ≠ some events → (∀ ctx ∈ s.outstanding, ctx.events ≠ events) →
    s.taken events = s.released events

theorem Accounted.accounts {s : World} (accounted : Accounted s) : Accounts s := by
  obtain ⟨single, holds⟩ := accounted
  unfold Single at single
  have atMost := Bool.toNat_le s.refreshPending
  have held (events : Events) : s.taken events = s.released events +
      ((if s.cpEvents = some events then 1 else 0) +
        s.outstanding.countP fun ctx => ctx.events = events) := by
    have counted := holds.count_eq events
    rw [count_takes, count_gives, World.references, List.count_append] at counted
    have stored : s.cpEvents.toList.count events = if s.cpEvents = some events then 1 else 0 := by
      cases s.cpEvents with
      | none => rfl
      | some advised => simp [List.count_singleton]
    have armed : (s.outstanding.map CredRefreshAsyncCtx.events).count events =
        s.outstanding.countP fun ctx => ctx.events = events := by
      rw [List.count, List.countP_map]
      rfl
    rw [stored, armed] at counted
    exact counted.trans (Nat.add_comm _ _)
  constructor
  case atMostOne => omega
  case pending =>
    rw [single]
    cases s.refreshPending <;> decide
  case held => exact held
  case rightful =>
    intro later earlier events split
    have owed := holds.owed
    rw [split] at owed
    have before := owed.split events
    rw [count_takes, count_gives, List.count_cons_self] at before
    exact before
  case returned =>
    intro events unadvised unarmed
    have none : (s.outstanding.countP fun ctx => ctx.events = events) = 0 := by
      rw [List.countP_eq_zero]
      intro ctx armed
      exact decide_eq_true_iff.not.mpr (unarmed ctx armed)
    have count := held events
    rw [if_neg unadvised, none] at count
    exact count

/-- In every state of every run the references are accounted for. -/
theorem references_accounted (calls : List EventsCall) (final : World)
    (ran : Transition.run EventsCall.serve World.initial calls = some final) : Accounts final :=
  (Transition.Reachable.invariant (fun _ _ _ accounted served => accounted.serve served)
    accounted_initial ⟨calls, ran⟩).accounts

def replacedWhileArmed : List EventsCall :=
  [.advise (some 7) 0, .requestCredentialsChangedAsync ⟨true, true⟩ 50 1, .advise (some 8) 1,
    .refreshTimer ⟨7, 0, 1, 50⟩, .requestCredentialsChangedAsync ⟨true, false⟩ 50 1, .unAdvise]

theorem references_accounted_replaced :
    ∃ final, Transition.run EventsCall.serve World.initial replacedWhileArmed = some final ∧
      final.taken 7 = 2 ∧ final.taken 8 = 2 ∧ Accounts final :=
  ⟨_, rfl, by decide, by decide, references_accounted replacedWhileArmed _ rfl⟩

end Dot1xCP.Core
