import Dot1xCP.Core.References
import Dot1xCP.Lib.Interleaving

/-! `RequestCredentialsChangedAsync`, the refresh callback, `SetProviderEvents` and
`ClearProviderEvents` on any number of threads.

A call stops before every access to a global that another call may write, and every call
of a method on an events object. `g_cpEventsLock` is a lock that many may share and one may
hold alone. Undisturbed, a call is the function of the sequential model.
-/

set_option autoImplicit false

namespace Dot1xCP.Core
open Ledger Interleaving

/-- What the threads share: the globals, and who holds `g_cpEventsLock`. -/
structure Threaded where
  world : World
  readers : Nat
  writer : Bool
  deriving DecidableEq, Repr

structure RefreshRequest where
  delayMs : Nat
  generation : BitVec 32
  deriving DecidableEq, Repr

structure Advised where
  events : Events
  context : Nat
  deriving DecidableEq, Repr

inductive SlotCall where
  | setProviderEvents (events : Option Events) (context : Nat)
  | clearProviderEvents
  deriving DecidableEq, Repr

inductive Access where
  -- `RequestCredentialsChangedAsync`
  | getGeneration (request : RefreshRequest)
  | comparePending (request : RefreshRequest)
  | acquireShared (request : RefreshRequest)
  | loadEvents (request : RefreshRequest)
  | loadContext (request : RefreshRequest) (events : Option Events)
  | addRef (request : RefreshRequest) (advised : Advised)
  | releaseShared (request : RefreshRequest) (advised : Option Advised)
  | newCtx (request : RefreshRequest) (advised : Advised)
  | createTimer (request : RefreshRequest) (advised : Advised)
  | setTimer (request : RefreshRequest) (advised : Advised)
  | giveUp (events : Events)
  -- `CredRefreshTimerCallback`
  | check (ctx : CredRefreshAsyncCtx)
  | credentialsChanged (ctx : CredRefreshAsyncCtx)
  | releaseCtx (ctx : CredRefreshAsyncCtx)
  -- the last access of both
  | clearPending
  -- `SetProviderEvents` and `ClearProviderEvents`
  | acquireExclusive (call : SlotCall)
  | releaseStored (call : SlotCall)
  | forget (call : SlotCall)
  | storeContext (call : SlotCall)
  | storeEvents (events : Option Events) (context : Nat)
  | addRefStored
  | releaseExclusive
  deriving DecidableEq, Repr

inductive EventsEntry where
  | requestCredentialsChangedAsync (delayMs : Nat) (generation : BitVec 32)
  | refreshTimer (ctx : CredRefreshAsyncCtx)
  | slot (call : SlotCall)
  /-- A session ends: `InterlockedIncrement(&g_brokerSessionGeneration)`. -/
  | nextGeneration
  | elapse (milliseconds : Nat)
  deriving DecidableEq, Repr

def Threaded.change (t : Threaded) (f : World → World) : Threaded := { t with world := f t.world }

def EventsEntry.enter (t : Threaded) : EventsEntry → Option (Threaded × Option Access)
  | .requestCredentialsChangedAsync delayMs generation =>
    some (t, some (.getGeneration ⟨delayMs, generation⟩))
  | .refreshTimer ctx =>
    if ctx ∈ t.world.outstanding ∧ ctx.due ≤ t.world.now then
      some (t.change fun s => { s with outstanding := s.outstanding.erase ctx }, some (.check ctx))
    else none
  | .slot call => some (t, some (.acquireExclusive call))
  | .nextGeneration =>
    some (t.change fun s => { s with sessionGeneration := s.sessionGeneration + 1 }, none)
  | .elapse milliseconds => some (t.change fun s => { s with now := s.now + milliseconds }, none)

/-- The choice tells whether an allocation succeeds. -/
def Access.advance (t : Threaded) : Access → Bool → Option (Threaded × Option Access)
  | .getGeneration request, _ =>
    let generation :=
      if request.generation.toInt ≤ 0 then t.world.sessionGeneration else request.generation
    some (t, some (.comparePending { request with generation := generation }))
  | .comparePending request, _ =>
    if t.world.refreshPending then some (t, none)
    else some (t.change fun s => { s with refreshPending := true }, some (.acquireShared request))
  | .acquireShared request, _ =>
    if t.writer then none
    else some ({ t with readers := t.readers + 1 }, some (.loadEvents request))
  | .loadEvents request, _ => some (t, some (.loadContext request t.world.cpEvents))
  | .loadContext request none, _ => some (t, some (.releaseShared request none))
  | .loadContext request (some events), _ =>
    some (t, some (.addRef request ⟨events, t.world.cpEventsContext⟩))
  | .addRef request advised, _ =>
    some (t.change (·.emit (.addRef advised.events)), some (.releaseShared request (some advised)))
  | .releaseShared _ none, _ => some ({ t with readers := t.readers - 1 }, some .clearPending)
  | .releaseShared request (some advised), _ =>
    some ({ t with readers := t.readers - 1 }, some (.newCtx request advised))
  | .newCtx request advised, allocated =>
    if allocated then some (t, some (.createTimer request advised))
    else some (t, some (.giveUp advised.events))
  | .createTimer request advised, created =>
    if created then some (t, some (.setTimer request advised))
    else some (t, some (.giveUp advised.events))
  | .setTimer request advised, _ =>
    some
      (t.change fun s =>
        { s with
          outstanding :=
            ⟨advised.events, advised.context, request.generation, s.now + request.delayMs⟩ ::
              s.outstanding },
        none)
  | .giveUp events, _ => some (t.change (·.emit (.release events)), some .clearPending)
  | .check ctx, _ =>
    if isCurrentSessionGeneration t.world ctx.sessionGeneration then
      some (t, some (.credentialsChanged ctx))
    else some (t, some (.releaseCtx ctx))
  | .credentialsChanged ctx, _ =>
    some (t.change (·.emit (.credentialsChanged ctx.events ctx.context)), some (.releaseCtx ctx))
  | .releaseCtx ctx, _ => some (t.change (·.emit (.release ctx.events)), some .clearPending)
  | .clearPending, _ => some (t.change fun s => { s with refreshPending := false }, none)
  | .acquireExclusive call, _ =>
    if t.writer ∨ t.readers ≠ 0 then none
    else some ({ t with writer := true }, some (.releaseStored call))
  | .releaseStored call, _ =>
    match t.world.cpEvents with
    | none => some (t, some (.storeContext call))
    | some events => some (t.change (·.emit (.release events)), some (.forget call))
  | .forget call, _ =>
    some (t.change fun s => { s with cpEvents := none }, some (.storeContext call))
  | .storeContext (.setProviderEvents events context), _ =>
    some (t.change fun s => { s with cpEventsContext := context }, some (.storeEvents events context))
  | .storeContext .clearProviderEvents, _ =>
    some (t.change fun s => { s with cpEventsContext := 0 }, some .releaseExclusive)
  | .storeEvents events _, _ =>
    some (t.change fun s => { s with cpEvents := events }, some .addRefStored)
  | .addRefStored, _ =>
    match t.world.cpEvents with
    | none => some (t, some .releaseExclusive)
    | some events => some (t.change (·.emit (.addRef events)), some .releaseExclusive)
  | .releaseExclusive, _ => some ({ t with writer := false }, none)

abbrev eventsProgram : Program Threaded EventsEntry Access Bool where
  enter := EventsEntry.enter
  advance := Access.advance

def free (s : World) : Threaded := ⟨s, 0, false⟩

theorem requestCredentialsChangedAsync_alone (os : RefreshOs) (s : World) (delayMs : Nat)
    (generation : BitVec 32) :
    ∃ choices, eventsProgram.alone (free s) (.getGeneration ⟨delayMs, generation⟩) choices =
      some (free (requestCredentialsChangedAsync os s delayMs generation)) := by
  obtain ⟨newCtx, created⟩ := os
  cases pending : s.refreshPending with
  | true =>
    refine ⟨[true, true], ?_⟩
    rw [requestCredentialsChangedAsync_coalesced pending]
    simp [Program.alone, Access.advance, free, pending]
  | false =>
    cases advised : s.cpEvents with
    | none =>
      refine ⟨List.replicate 7 true, ?_⟩
      simp [Program.alone, Access.advance, free, pending, advised, Threaded.change,
        requestCredentialsChangedAsync, List.replicate]
    | some events =>
      cases newCtx with
      | false =>
        refine ⟨List.replicate 7 true ++ [false, true, true], ?_⟩
        simp [Program.alone, Access.advance, free, pending, advised, Threaded.change,
          requestCredentialsChangedAsync, List.replicate, World.emit]
      | true =>
        cases created with
        | false =>
          refine ⟨List.replicate 8 true ++ [false, true, true], ?_⟩
          simp [Program.alone, Access.advance, free, pending, advised, Threaded.change,
            requestCredentialsChangedAsync, List.replicate, World.emit]
        | true =>
          refine ⟨List.replicate 10 true, ?_⟩
          simp [Program.alone, Access.advance, free, pending, advised, Threaded.change,
            requestCredentialsChangedAsync, List.replicate, World.emit]

theorem setProviderEvents_alone (s : World) (events : Option Events) (context : Nat) :
    ∃ choices, eventsProgram.alone (free s) (.acquireExclusive (.setProviderEvents events context))
      choices = some (free (setProviderEvents s events context)) := by
  cases stored : s.cpEvents with
  | none =>
    refine ⟨List.replicate 6 true, ?_⟩
    cases events <;>
      simp [Program.alone, Access.advance, free, stored, Threaded.change, setProviderEvents,
        releaseEvents, List.replicate, World.emit]
  | some old =>
    refine ⟨List.replicate 7 true, ?_⟩
    cases events <;>
      simp [Program.alone, Access.advance, free, stored, Threaded.change, setProviderEvents,
        releaseEvents, List.replicate, World.emit]

theorem clearProviderEvents_alone (s : World) :
    ∃ choices, eventsProgram.alone (free s) (.acquireExclusive .clearProviderEvents) choices =
      some (free (clearProviderEvents s)) := by
  cases stored : s.cpEvents with
  | none =>
    refine ⟨List.replicate 4 true, ?_⟩
    simp [Program.alone, Access.advance, free, stored, Threaded.change, clearProviderEvents,
      releaseEvents, List.replicate]
  | some old =>
    refine ⟨List.replicate 5 true, ?_⟩
    simp [Program.alone, Access.advance, free, stored, Threaded.change, clearProviderEvents,
      releaseEvents, List.replicate, World.emit]

theorem credRefreshTimerCallback_alone (s : World) (ctx : CredRefreshAsyncCtx) :
    ∃ choices, eventsProgram.alone (free s) (.check ctx) choices =
      some (free (credRefreshTimerCallback s ctx)) := by
  cases current : isCurrentSessionGeneration s ctx.sessionGeneration with
  | true =>
    refine ⟨List.replicate 4 true, ?_⟩
    simp [Program.alone, Access.advance, free, current, Threaded.change, credRefreshTimerCallback,
      List.replicate, World.emit]
  | false =>
    refine ⟨List.replicate 3 true, ?_⟩
    simp [Program.alone, Access.advance, free, current, Threaded.change, credRefreshTimerCallback,
      List.replicate, World.emit]

def EventsCall.Due (s : World) : EventsCall → Prop
  | .refreshTimer ctx => ctx.due ≤ s.now
  | _ => True

/-- A step of the sequential model is a run of the threads in which one call is alone. -/
theorem EventsCall.undisturbed {call : EventsCall} {s next : World} (due : call.Due s)
    (served : call.serve s = some next) :
    ∃ labels, Transition.run eventsProgram.step ⟨free s, []⟩ labels = some ⟨free next, []⟩ := by
  have alone {entry : EventsEntry} {start : World} {point : Access}
      (entered : entry.enter (free s) = some (free start, some point))
      (ended : ∃ choices, eventsProgram.alone (free start) point choices = some (free next)) :
      ∃ labels, Transition.run eventsProgram.step ⟨free s, []⟩ labels = some ⟨free next, []⟩ := by
    obtain ⟨choices, ended⟩ := ended
    obtain ⟨labels, ran⟩ := Program.alone_run ended
    have first : eventsProgram.step ⟨free s, []⟩ (.enter entry) = some ⟨free start, [point]⟩ :=
      Option.map_eq_some_iff.mpr ⟨_, entered, rfl⟩
    exact ⟨.enter entry :: labels, Transition.run_cons.mpr ⟨_, first, ran⟩⟩
  cases call with
  | advise events context =>
    cases served
    exact @alone (.slot _) _ _ rfl (setProviderEvents_alone s events context)
  | unAdvise =>
    cases served
    exact @alone (.slot _) _ _ rfl (clearProviderEvents_alone s)
  | requestCredentialsChangedAsync os delayMs generation =>
    cases served
    exact @alone (.requestCredentialsChangedAsync delayMs generation) _ _ rfl
      (requestCredentialsChangedAsync_alone os s delayMs generation)
  | refreshTimer ctx =>
    obtain ⟨armed, same⟩ := Option.ite_none_right_eq_some.mp served
    cases same
    exact @alone (.refreshTimer ctx) _ _ (if_pos ⟨armed, due⟩) (credRefreshTimerCallback_alone _ ctx)

/-! ## What a call in progress holds -/

def Access.pending : Access → Nat
  | .acquireShared _ | .loadEvents _ | .loadContext _ _ | .addRef _ _ | .releaseShared _ _
  | .newCtx _ _ | .createTimer _ _ | .setTimer _ _ | .giveUp _
  | .check _ | .credentialsChanged _ | .releaseCtx _ | .clearPending => 1
  | _ => 0

def Access.shares : Access → Nat
  | .loadEvents _ | .loadContext _ _ | .addRef _ _ | .releaseShared _ _ => 1
  | _ => 0

def Access.excludes : Access → Nat
  | .releaseStored _ | .forget _ | .storeContext _ | .storeEvents _ _ | .addRefStored
  | .releaseExclusive => 1
  | _ => 0

/-- The reference for `g_cpEvents` is given up, or not taken yet. -/
def Access.unsettled : Access → Nat
  | .forget _ | .storeContext _ | .storeEvents _ _ | .addRefStored => 1
  | _ => 0

def Access.held : Access → List Events
  | .releaseShared _ (some advised) | .newCtx _ advised | .createTimer _ advised
  | .setTimer _ advised => [advised.events]
  | .giveUp events => [events]
  | .check ctx | .credentialsChanged ctx | .releaseCtx ctx => [ctx.events]
  | _ => []

/-- What it has read or stored under the lock is still so. -/
def Access.Knows (s : World) : Access → Prop
  | .loadContext _ (some events) => s.cpEvents = some events
  | .addRef _ advised => s.cpEvents = some advised.events ∧ s.cpEventsContext = advised.context
  | .storeContext _ => s.cpEvents = none
  | .storeEvents _ context => s.cpEvents = none ∧ s.cpEventsContext = context
  | _ => True

def Access.calls (s : World) : Access → Option Events
  | .addRef _ advised => some advised.events
  | .giveUp events => some events
  | .credentialsChanged ctx | .releaseCtx ctx => some ctx.events
  | .releaseStored _ => s.cpEvents
  | _ => none

theorem Access.unsettled_le (point : Access) : point.unsettled ≤ point.excludes := by
  cases point <;> simp [Access.unsettled, Access.excludes]

theorem Access.knows_outside (s : World) {point : Access} (unshared : point.shares = 0)
    (outside : point.excludes = 0) : point.Knows s := by
  cases point with
  | loadContext => cases unshared
  | addRef => cases unshared
  | storeContext => cases outside
  | storeEvents => cases outside
  | _ => trivial

/-- The reference that `g_cpEvents` stands for, while no writer is between giving up the
old one and taking the new one. -/
def slotHeld (s : World) (running : List Access) : List Events :=
  if total Access.unsettled running = 0 then s.cpEvents.toList else []

def heldBy (s : World) (running : List Access) : List Events :=
  slotHeld s running ++
    (s.outstanding.map CredRefreshAsyncCtx.events ++ running.flatMap Access.held)

/-- The lock is held by the calls that passed its acquisition, and by no others. -/
structure Locked (t : Threaded) (running : List Access) : Prop where
  readers : total Access.shares running = t.readers
  writers : total Access.excludes running = t.writer.toNat
  apart : t.writer = true → t.readers = 0

/-- What holds at any time of the globals, the lock and the calls in progress. -/
structure Orderly (t : Threaded) (running : List Access) : Prop where
  single : total Access.pending running + t.world.outstanding.length = t.world.refreshPending.toNat
  locked : Locked t running
  known : ∀ point ∈ running, point.Knows t.world
  counted : Counted Effect.takes Effect.gives (heldBy t.world running) t.world.trace

section Advance
variable {t next : Threaded} {point : Access} {rest : List Access} {choice : Bool}
  {after : Option Access}

theorem single_advance
    (single : total Access.pending (point :: rest) + t.world.outstanding.length =
      t.world.refreshPending.toNat)
    (advanced : point.advance t choice = some (next, after)) :
    total Access.pending (after.toList ++ rest) + next.world.outstanding.length =
      next.world.refreshPending.toNat := by
  have atMost := Bool.toNat_le t.world.refreshPending
  rw [total_cons] at single
  rw [total_advance]
  cases point with
  | comparePending request =>
    simp only [Access.advance] at advanced
    split at advanced
    · cases advanced
      simp only [Access.pending, Option.map_none, Option.getD_none] at single ⊢
      omega
    next pending =>
      cases advanced
      rw [Bool.not_eq_true] at pending
      simp only [Access.pending, pending, Threaded.change, Bool.toNat_false, Bool.toNat_true,
        Option.map_some, Option.getD_some] at single ⊢
      omega
  | loadContext request events =>
    cases events <;> cases advanced <;>
      simp only [Access.pending, Option.map_some, Option.getD_some] at single ⊢ <;> omega
  | releaseShared request advised =>
    cases advised <;> cases advanced <;>
      simp only [Access.pending, Option.map_some, Option.getD_some] at single ⊢ <;> omega
  | storeContext call =>
    cases call <;> cases advanced <;>
      simp only [Access.pending, Threaded.change, Option.map_some, Option.getD_some] at single ⊢ <;>
      omega
  | acquireShared | newCtx | createTimer | check | acquireExclusive | releaseStored | addRefStored =>
    simp only [Access.advance] at advanced
    split at advanced <;> cases advanced <;>
      simp only [Access.pending, Threaded.change, World.emit, Option.map_some, Option.getD_some]
        at single ⊢ <;>
      omega
  | getGeneration | loadEvents | addRef | setTimer | giveUp | credentialsChanged | releaseCtx
  | clearPending | forget | storeEvents | releaseExclusive =>
    cases advanced
    simp only [Access.pending, Threaded.change, World.emit, List.length_cons, Bool.toNat_false,
      Option.map_some, Option.map_none, Option.getD_some, Option.getD_none] at single ⊢
    omega

theorem Locked.advance (locked : Locked t (point :: rest))
    (advanced : point.advance t choice = some (next, after)) :
    Locked next (after.toList ++ rest) := by
  obtain ⟨readers, writers, apart⟩ := locked
  have atMost := Bool.toNat_le t.writer
  rw [total_cons] at readers writers
  suffices total Access.shares (after.toList ++ rest) = next.readers ∧
      total Access.excludes (after.toList ++ rest) = next.writer.toNat ∧
      (next.writer = true → next.readers = 0) from ⟨this.1, this.2.1, this.2.2⟩
  rw [total_advance, total_advance]
  cases point with
  | acquireShared request =>
    simp only [Access.advance] at advanced
    split at advanced
    · cases advanced
    next unlocked =>
      cases advanced
      rw [Bool.not_eq_true] at unlocked
      simp only [Access.shares, Access.excludes, unlocked, Option.map_some, Option.getD_some] at *
      exact ⟨by omega, writers, fun locked => by cases locked⟩
  | acquireExclusive call =>
    simp only [Access.advance] at advanced
    split at advanced
    · cases advanced
    next unlocked =>
      cases advanced
      simp only [not_or, Bool.not_eq_true, not_not] at unlocked
      simp only [Access.shares, Access.excludes, unlocked.1, Bool.toNat_false, Bool.toNat_true,
        Option.map_some, Option.getD_some] at *
      exact ⟨readers, by omega, fun _ => unlocked.2⟩
  | releaseShared request advised =>
    cases advised <;> cases advanced <;>
      simp only [Access.shares, Access.excludes, Option.map_some, Option.getD_some]
        at readers writers ⊢ <;>
      refine ⟨by omega, by omega, fun locked => ?_⟩ <;>
      have none := apart locked <;>
      omega
  | releaseExclusive =>
    cases advanced
    simp only [Access.shares, Access.excludes, Bool.toNat_false, Option.map_none, Option.getD_none]
      at readers writers ⊢
    exact ⟨by omega, by omega, fun locked => by cases locked⟩
  | loadContext request events =>
    cases events <;> cases advanced <;> exact ⟨readers, writers, apart⟩
  | storeContext call =>
    cases call <;> cases advanced <;> exact ⟨readers, writers, apart⟩
  | comparePending | newCtx | createTimer | check | releaseStored | addRefStored =>
    simp only [Access.advance] at advanced
    split at advanced <;> cases advanced <;> exact ⟨readers, writers, apart⟩
  | getGeneration | loadEvents | addRef | setTimer | giveUp | credentialsChanged | releaseCtx
  | clearPending | forget | storeEvents =>
    cases advanced
    exact ⟨readers, writers, apart⟩

theorem Locked.outside (locked : Locked t (point :: rest)) (writes : point.excludes = 1) :
    total Access.shares rest = 0 ∧ total Access.excludes rest = 0 := by
  obtain ⟨readers, writers, apart⟩ := locked
  rw [total_cons] at readers writers
  have atMost := Bool.toNat_le t.writer
  have held : t.writer = true := by
    cases free : t.writer with
    | false =>
      rw [free, Bool.toNat_false] at writers
      omega
    | true => rfl
  have none := apart held
  omega

theorem slot_kept (advanced : point.advance t choice = some (next, after))
    (reads : point.excludes = 0) : next.world.cpEvents = t.world.cpEvents ∧
      next.world.cpEventsContext = t.world.cpEventsContext := by
  cases point with
  | releaseStored | forget | storeContext | storeEvents | addRefStored | releaseExclusive => cases reads
  | loadContext request events => cases events <;> cases advanced <;> exact ⟨rfl, rfl⟩
  | releaseShared request advised => cases advised <;> cases advanced <;> exact ⟨rfl, rfl⟩
  | comparePending | acquireShared | newCtx | createTimer | check | acquireExclusive =>
    simp only [Access.advance] at advanced
    split at advanced <;> cases advanced <;> exact ⟨rfl, rfl⟩
  | getGeneration | loadEvents | addRef | setTimer | giveUp | credentialsChanged | releaseCtx
  | clearPending =>
    cases advanced
    exact ⟨rfl, rfl⟩

theorem Access.Knows.same {s s' : World} (events : s'.cpEvents = s.cpEvents)
    (context : s'.cpEventsContext = s.cpEventsContext) (known : point.Knows s) : point.Knows s' := by
  unfold Access.Knows
  rw [events, context]
  exact known

theorem known_rest (locked : Locked t (point :: rest))
    (known : ∀ other ∈ point :: rest, other.Knows t.world)
    (advanced : point.advance t choice = some (next, after)) :
    ∀ other ∈ rest, other.Knows next.world := by
  intro other inside
  rcases Nat.eq_zero_or_pos point.excludes with reads | writes
  · obtain ⟨events, context⟩ := slot_kept advanced reads
    exact (known other (List.mem_cons_of_mem _ inside)).same events context
  · have one : point.excludes = 1 := by
      revert writes
      cases point <;> simp [Access.excludes]
    obtain ⟨noReader, noWriter⟩ := locked.outside one
    exact Access.knows_outside _ (weight_eq_zero noReader inside) (weight_eq_zero noWriter inside)

theorem known_advance (locked : Locked t (point :: rest))
    (known : ∀ other ∈ point :: rest, other.Knows t.world)
    (advanced : point.advance t choice = some (next, after)) :
    ∀ other ∈ after.toList ++ rest, other.Knows next.world := by
  have others := known_rest locked known advanced
  have own := known point List.mem_cons_self
  suffices ∀ other ∈ after, other.Knows next.world by
    intro other inside
    rcases List.mem_append.mp inside with first | inside
    · exact this other (Option.mem_toList.mp first)
    · exact others other inside
  clear others known locked
  cases point with
  | loadEvents request =>
    cases advanced
    rintro other ⟨⟩
    cases stored : t.world.cpEvents with
    | none => trivial
    | some events => exact stored
  | loadContext request events =>
    cases events with
    | none =>
      cases advanced
      rintro other ⟨⟩
      trivial
    | some events =>
      cases advanced
      rintro other ⟨⟩
      exact ⟨own, rfl⟩
  | releaseStored call =>
    cases stored : t.world.cpEvents with
    | none =>
      simp only [Access.advance, stored] at advanced
      cases advanced
      rintro other ⟨⟩
      exact stored
    | some events =>
      simp only [Access.advance, stored] at advanced
      cases advanced
      rintro other ⟨⟩
      trivial
  | forget call =>
    cases advanced
    rintro other ⟨⟩
    exact rfl
  | storeContext call =>
    cases call with
    | setProviderEvents events context =>
      cases advanced
      rintro other ⟨⟩
      exact ⟨own, rfl⟩
    | clearProviderEvents =>
      cases advanced
      rintro other ⟨⟩
      trivial
  | releaseShared request advised =>
    cases advised <;> cases advanced <;> rintro other ⟨⟩ <;> trivial
  | comparePending | acquireShared | newCtx | createTimer | check | acquireExclusive | addRefStored =>
    simp only [Access.advance] at advanced
    split at advanced <;> cases advanced <;> rintro other ⟨⟩ <;> trivial
  | getGeneration | addRef | setTimer | giveUp | credentialsChanged | releaseCtx | clearPending
  | storeEvents | releaseExclusive =>
    cases advanced
    rintro other ⟨⟩ <;> trivial

theorem slotHeld_none {s : World} (empty : s.cpEvents = none) (running : List Access) :
    slotHeld s running = [] := by
  rw [slotHeld, empty]
  exact ite_self _

theorem slotHeld_unsettled {s : World} (midway : point.unsettled = 1) :
    slotHeld s (point :: rest) = [] := by
  rw [slotHeld, total_cons, midway, if_neg (Nat.ne_of_gt (Nat.lt_of_lt_of_le Nat.one_pos
    (Nat.le_add_right 1 _)))]

theorem slotHeld_cons {s : World} (own : point.unsettled = 0) :
    slotHeld s (point :: rest) = slotHeld s rest := by
  rw [slotHeld, slotHeld, total_cons, own, Nat.zero_add]

theorem slotHeld_settled {s : World} (own : point.unsettled = 0)
    (others : total Access.unsettled rest = 0) : slotHeld s (point :: rest) = s.cpEvents.toList := by
  rw [slotHeld_cons own, slotHeld, if_pos others]

theorem heldBy_perm (s : World) (after : Option Access) (rest : List Access) :
    (heldBy s (after.toList ++ rest)).Perm (after.toList.flatMap Access.held ++
      (slotHeld s (after.toList ++ rest) ++
        (s.outstanding.map CredRefreshAsyncCtx.events ++ rest.flatMap Access.held))) := by
  rw [heldBy, List.flatMap_append]
  exact ((List.perm_append_comm_assoc _ _ _).append_left _).trans (List.perm_append_comm_assoc _ _ _)

theorem counted_before {s : World} {slot : List Events} (same : slotHeld s (point :: rest) = slot)
    (counted : Counted Effect.takes Effect.gives (heldBy s (point :: rest)) s.trace) :
    Counted Effect.takes Effect.gives (point.held ++ (slot ++
      (s.outstanding.map CredRefreshAsyncCtx.events ++ rest.flatMap Access.held))) s.trace := by
  have moved := counted.reorder (heldBy_perm s (some point) rest)
  rw [← same]
  exact moved.reorder (List.Perm.of_eq (congrArg (· ++ _) (List.append_nil point.held)))

theorem counted_after {s : World} {slot : List Events}
    (same : slotHeld s (after.toList ++ rest) = slot)
    (counted : Counted Effect.takes Effect.gives (after.toList.flatMap Access.held ++ (slot ++
      (s.outstanding.map CredRefreshAsyncCtx.events ++ rest.flatMap Access.held))) s.trace) :
    Counted Effect.takes Effect.gives (heldBy s (after.toList ++ rest)) s.trace := by
  rw [← same] at counted
  exact counted.reorder (heldBy_perm s after rest).symm

theorem counted_advance (locked : Locked t (point :: rest)) (known : point.Knows t.world)
    (counted : Counted Effect.takes Effect.gives (heldBy t.world (point :: rest)) t.world.trace)
    (advanced : point.advance t choice = some (next, after)) :
    Counted Effect.takes Effect.gives (heldBy next.world (after.toList ++ rest)) next.world.trace := by
  have settled (writes : point.excludes = 1) : total Access.unsettled rest = 0 :=
    Nat.le_zero.mp ((locked.outside writes).2 ▸ total_mono Access.unsettled_le rest)
  clear locked
  cases point with
  | addRef request advised =>
    cases advanced
    exact counted_after rfl (Counted.cons (Effect.addRef advised.events) (counted_before rfl counted))
  | setTimer request advised =>
    cases advanced
    -- The reference of the call becomes that of the timer.
    have before := counted_before (slotHeld_cons rfl) counted
    exact counted_after rfl (before.reorder (@List.perm_middle _ advised.events
      (slotHeld t.world rest) _).symm)
  | giveUp events =>
    cases advanced
    exact counted_after rfl (Counted.cons (Effect.release events) (counted_before rfl counted))
  | credentialsChanged ctx =>
    cases advanced
    have notified := Counted.cons (Effect.credentialsChanged ctx.events ctx.context)
      (counted_before rfl counted)
    exact counted_after rfl notified
  | releaseCtx ctx =>
    cases advanced
    exact counted_after rfl (Counted.cons (Effect.release ctx.events) (counted_before rfl counted))
  | releaseStored call =>
    cases stored : t.world.cpEvents with
    | none =>
      simp only [Access.advance, stored] at advanced
      cases advanced
      exact counted_after (slotHeld_none stored _) (counted_before (slotHeld_none stored _) counted)
    | some events =>
      simp only [Access.advance, stored] at advanced
      cases advanced
      have before := counted_before (slotHeld_settled rfl (settled rfl)) counted
      rw [stored] at before
      exact counted_after (slotHeld_unsettled rfl) (Counted.cons (Effect.release events) before)
  | storeContext call =>
    cases call with
    | setProviderEvents events context =>
      cases advanced
      exact counted_after (slotHeld_unsettled rfl) (counted_before (slotHeld_unsettled rfl) counted)
    | clearProviderEvents =>
      cases advanced
      exact counted_after (slotHeld_none known _) (counted_before (slotHeld_none known _) counted)
  | addRefStored =>
    have before := counted_before (slotHeld_unsettled rfl) counted
    cases stored : t.world.cpEvents with
    | none =>
      simp only [Access.advance, stored] at advanced
      cases advanced
      exact counted_after (slotHeld_none stored _) before
    | some events =>
      simp only [Access.advance, stored] at advanced
      cases advanced
      refine counted_after (slotHeld_settled rfl (settled rfl)) ?_
      rw [show (t.change (·.emit (.addRef events))).world.cpEvents = some events from stored]
      exact Counted.cons (Effect.addRef events) before
  | clearPending | releaseExclusive =>
    cases advanced
    exact counted_after rfl (counted_before (slotHeld_cons rfl) counted)
  | forget | storeEvents =>
    cases advanced
    exact counted_after (slotHeld_unsettled rfl) (counted_before (slotHeld_unsettled rfl) counted)
  | comparePending request =>
    simp only [Access.advance] at advanced
    split at advanced
    · cases advanced
      exact counted_after rfl (counted_before (slotHeld_cons rfl) counted)
    · cases advanced
      exact counted_after rfl (counted_before rfl counted)
  | loadContext request events =>
    cases events <;> cases advanced <;> exact counted_after rfl (counted_before rfl counted)
  | releaseShared request advised =>
    cases advised <;> cases advanced <;> exact counted_after rfl (counted_before rfl counted)
  | acquireShared | newCtx | createTimer | check | acquireExclusive =>
    simp only [Access.advance] at advanced
    split at advanced <;> cases advanced <;> exact counted_after rfl (counted_before rfl counted)
  | getGeneration | loadEvents =>
    cases advanced
    exact counted_after rfl (counted_before rfl counted)

theorem Orderly.advance (orderly : Orderly t (point :: rest))
    (advanced : point.advance t choice = some (next, after)) :
    Orderly next (after.toList ++ rest) where
  single := single_advance orderly.single advanced
  locked := orderly.locked.advance advanced
  known := known_advance orderly.locked orderly.known advanced
  counted := counted_advance orderly.locked (orderly.known point List.mem_cons_self)
    orderly.counted advanced

end Advance

section Enter
variable {t next : Threaded} {running : List Access}

theorem Orderly.reorder {running' : List Access} (same : running.Perm running')
    (orderly : Orderly t running) : Orderly t running' where
  single := by
    rw [← total_perm Access.pending same]
    exact orderly.single
  locked :=
    { readers := (total_perm Access.shares same).symm.trans orderly.locked.readers
      writers := (total_perm Access.excludes same).symm.trans orderly.locked.writers
      apart := orderly.locked.apart }
  known := fun point inside => orderly.known point (same.mem_iff.mpr inside)
  counted := by
    apply orderly.counted.reorder
    rw [heldBy, heldBy, slotHeld, slotHeld, total_perm Access.unsettled same]
    exact ((same.flatMap_right Access.held).append_left _).append_left _

theorem Orderly.begin (orderly : Orderly t running) {point : Access} (idle : point.pending = 0)
    (unshared : point.shares = 0) (outside : point.excludes = 0) (none : point.held = []) :
    Orderly t (point :: running) where
  single := by
    rw [total_cons, idle, Nat.zero_add]
    exact orderly.single
  locked :=
    { readers := by rw [total_cons, unshared, Nat.zero_add, orderly.locked.readers]
      writers := by rw [total_cons, outside, Nat.zero_add, orderly.locked.writers]
      apart := orderly.locked.apart }
  known := by
    intro other inside
    rcases List.mem_cons.mp inside with rfl | inside
    · exact Access.knows_outside _ unshared outside
    · exact orderly.known other inside
  counted := by
    have settled := Nat.le_zero.mp (outside ▸ point.unsettled_le)
    rw [heldBy, slotHeld_cons settled, List.flatMap_cons, none, List.nil_append]
    exact orderly.counted

theorem Orderly.fired (orderly : Orderly t running) {ctx : CredRefreshAsyncCtx}
    (armed : ctx ∈ t.world.outstanding) :
    Orderly (t.change fun s => { s with outstanding := s.outstanding.erase ctx })
      (.check ctx :: running) where
  single := by
    have moved := List.length_erase_of_mem armed
    have some := List.length_pos_of_mem armed
    have single := orderly.single
    rw [total_cons]
    simp only [Access.pending, Threaded.change]
    omega
  locked :=
    { readers := (Nat.zero_add _).trans orderly.locked.readers
      writers := (Nat.zero_add _).trans orderly.locked.writers
      apart := orderly.locked.apart }
  known := by
    intro other inside
    rcases List.mem_cons.mp inside with rfl | inside
    · trivial
    · exact (orderly.known other inside).same rfl rfl
  counted := by
    apply orderly.counted.reorder
    have moved := (List.perm_cons_erase armed).map CredRefreshAsyncCtx.events
    rw [heldBy, heldBy, slotHeld_cons rfl]
    refine List.Perm.append_left _ ((moved.append_right _).trans ?_)
    exact List.perm_middle.symm

theorem Orderly.enter {entry : EventsEntry} {point : Option Access} (orderly : Orderly t running)
    (entered : entry.enter t = some (next, point)) : Orderly next (point.toList ++ running) := by
  cases entry with
  | requestCredentialsChangedAsync delayMs generation =>
    cases entered
    exact orderly.begin rfl rfl rfl rfl
  | slot call =>
    cases entered
    exact orderly.begin rfl rfl rfl rfl
  | refreshTimer ctx =>
    obtain ⟨⟨armed, _⟩, same⟩ := Option.ite_none_right_eq_some.mp entered
    cases same
    exact orderly.fired armed
  | nextGeneration | elapse milliseconds =>
    cases entered
    exact
      { single := orderly.single
        locked := ⟨orderly.locked.readers, orderly.locked.writers, orderly.locked.apart⟩
        known := fun other inside => (orderly.known other inside).same rfl rfl
        counted := orderly.counted }

end Enter

theorem orderly_invariant : eventsProgram.Invariant (fun _ => True) Orderly where
  reorder := fun same orderly => orderly.reorder same
  enter := fun _ orderly entered => orderly.enter entered
  advance := fun orderly advanced => orderly.advance advanced

theorem orderly_initial : Orderly (free .initial) [] where
  single := rfl
  locked := ⟨rfl, rfl, fun _ => rfl⟩
  known := fun _ inside => by cases inside
  counted := counted_nil

/-- What a maintainer relies on, whatever runs beside what. -/
structure ThreadSafe (t : Threaded) (running : List Access) : Prop where
  atMostOne : total Access.pending running + t.world.outstanding.length ≤ 1
  pending : t.world.refreshPending = true ↔
    total Access.pending running + t.world.outstanding.length = 1
  exclusive : ∀ point ∈ running, point.excludes = 1 →
    ∀ other ∈ running.erase point, other.shares = 0 ∧ other.excludes = 0
  alive : ∀ point ∈ running, ∀ events ∈ point.calls t.world,
    t.world.released events < t.world.taken events
  rightful : ∀ later earlier events, t.world.trace = later ++ .release events :: earlier →
    earlier.count (.release events) < earlier.count (.addRef events)
  quiet : running = [] → t = free t.world ∧ Accounts t.world

section Safe
variable {t : Threaded} {running : List Access}

theorem Orderly.mem_held (orderly : Orderly t running) {point : Access} (inside : point ∈ running)
    {events : Events} (calls : point.calls t.world = some events) :
    events ∈ heldBy t.world running := by
  have first := orderly.reorder (List.perm_cons_erase inside)
  have own (held : events ∈ point.held) : events ∈ heldBy t.world running :=
    List.mem_append_right _ (List.mem_append_right _ (List.mem_flatMap.mpr ⟨point, inside, held⟩))
  have stored (settled : total Access.unsettled running = 0) (same : t.world.cpEvents = some events) :
      events ∈ heldBy t.world running := by
    apply List.mem_append_left
    rw [slotHeld, if_pos settled, same]
    exact List.mem_singleton_self events
  cases point with
  | addRef request advised =>
    cases calls
    refine stored ?_ (orderly.known _ inside).1
    -- A reader is inside, so no writer is.
    have readers := weight_le_total Access.shares inside
    rw [orderly.locked.readers] at readers
    have writers := orderly.locked.writers
    have below := total_mono Access.unsettled_le running
    cases locked : t.writer with
    | false =>
      rw [writers, locked] at below
      exact Nat.le_zero.mp below
    | true =>
      rw [orderly.locked.apart locked] at readers
      cases readers
  | releaseStored call =>
    refine stored ?_ calls
    have others := (first.locked.outside rfl).2
    rw [total_perm Access.unsettled (List.perm_cons_erase inside), total_cons]
    exact (Nat.zero_add _).trans (Nat.le_zero.mp (others ▸ total_mono Access.unsettled_le _))
  | giveUp events | credentialsChanged ctx | releaseCtx ctx =>
    cases calls
    exact own (List.mem_singleton_self _)
  | _ => cases calls

theorem Orderly.safe (orderly : Orderly t running) : ThreadSafe t running := by
  have single := orderly.single
  have atMost := Bool.toNat_le t.world.refreshPending
  constructor
  case atMostOne => omega
  case pending =>
    rw [single]
    cases t.world.refreshPending <;> decide
  case exclusive =>
    intro point inside writes other also
    obtain ⟨unshared, outside⟩ :=
      (orderly.reorder (List.perm_cons_erase inside)).locked.outside writes
    exact ⟨weight_eq_zero unshared also, weight_eq_zero outside also⟩
  case alive =>
    intro point inside events calls
    have held := List.count_pos_iff.mpr (orderly.mem_held inside calls)
    have counted := orderly.counted.count_eq events
    rw [count_takes, count_gives] at counted
    unfold World.taken World.released
    omega
  case rightful =>
    intro later earlier events split
    have owed := orderly.counted.owed
    rw [split] at owed
    have before := owed.split events
    rw [count_takes, count_gives, List.count_cons_self] at before
    exact before
  case quiet =>
    rintro rfl
    refine ⟨?_, Accounted.accounts ⟨?_, ?_⟩⟩
    · have readers := orderly.locked.readers
      have writers := orderly.locked.writers
      obtain ⟨world, readers', writer⟩ := t
      cases writer with
      | false => exact congrArg (Threaded.mk world · false) readers.symm
      | true => cases writers
    · exact (Nat.zero_add _).symm.trans single
    · have counted := orderly.counted
      rw [heldBy, List.flatMap_nil, List.append_nil] at counted
      exact counted

end Safe

/-- Whatever calls run beside each other, on however many threads. -/
theorem refresh_threadSafe (s : State Threaded Access)
    (reached : eventsProgram.Reachable (free .initial) s) : ThreadSafe s.shared s.running :=
  (orderly_invariant.reachable orderly_initial reached).safe

def replacedMeanwhile : List (Label EventsEntry Access Bool) :=
  let set (events : Events) (context : Nat) : SlotCall := .setProviderEvents (some events) context
  let request : RefreshRequest := ⟨50, 1⟩
  [.enter (.slot (set 7 70)), .advance (.acquireExclusive (set 7 70)) true,
    .advance (.releaseStored (set 7 70)) true, .advance (.storeContext (set 7 70)) true,
    .advance (.storeEvents (some 7) 70) true, .advance .addRefStored true,
    .advance .releaseExclusive true, .enter (.requestCredentialsChangedAsync 50 0),
    .advance (.getGeneration ⟨50, 0⟩) true, .advance (.comparePending request) true,
    .advance (.acquireShared request) true, .advance (.loadEvents request) true,
    .enter (.requestCredentialsChangedAsync 50 0), .advance (.getGeneration ⟨50, 0⟩) true,
    .enter (.slot (set 8 80)), .advance (.comparePending request) true,
    .advance (.loadContext request (some 7)) true, .advance (.addRef request ⟨7, 70⟩) true,
    .advance (.releaseShared request (some ⟨7, 70⟩)) true,
    .advance (.acquireExclusive (set 8 80)) true, .advance (.releaseStored (set 8 80)) true,
    .advance (.newCtx request ⟨7, 70⟩) true]

theorem refresh_threadSafe_replaced : ∃ s,
    Transition.run eventsProgram.step ⟨free .initial, []⟩ replacedMeanwhile = some s ∧
      s.shared.world.released 7 = 1 ∧ s.shared.world.taken 7 = 2 ∧
      ThreadSafe s.shared s.running :=
  ⟨_, rfl, by decide, by decide, refresh_threadSafe _ ⟨replacedMeanwhile, rfl⟩⟩

/-! ## What a callback hands over -/

section Together
variable (together : Events → Nat → Prop)

def SlotCall.Together : SlotCall → Prop
  | .setProviderEvents (some events) context => together events context
  | _ => True

/-- The object and the context a call carries belong together. -/
def Access.Together : Access → Prop
  | .addRef _ advised | .releaseShared _ (some advised) | .newCtx _ advised
  | .createTimer _ advised | .setTimer _ advised => together advised.events advised.context
  | .check ctx | .credentialsChanged ctx | .releaseCtx ctx => together ctx.events ctx.context
  | .acquireExclusive call | .releaseStored call | .forget call | .storeContext call =>
    call.Together together
  | .storeEvents (some events) context => together events context
  | _ => True

def EventsEntry.Together : EventsEntry → Prop
  | .slot call => call.Together together
  | _ => True

structure Paired (t : Threaded) (running : List Access) : Prop where
  orderly : Orderly t running
  slot : ∀ events, t.world.cpEvents = some events → together events t.world.cpEventsContext
  armed : ∀ ctx ∈ t.world.outstanding, together ctx.events ctx.context
  calls : ∀ point ∈ running, point.Together together
  notified : ∀ events context, .credentialsChanged events context ∈ t.world.trace →
    together events context

variable {together} {t next : Threaded}

theorem paired_advance {point : Access} {rest : List Access} {choice : Bool} {after : Option Access}
    (paired : Paired together t (point :: rest))
    (advanced : point.advance t choice = some (next, after)) :
    Paired together next (after.toList ++ rest) := by
  have orderly := paired.orderly.advance advanced
  have known := paired.orderly.known point List.mem_cons_self
  obtain ⟨-, slot, armed, calls, notified⟩ := paired
  have own := calls point List.mem_cons_self
  suffices (∀ events, next.world.cpEvents = some events →
        together events next.world.cpEventsContext) ∧
      (∀ ctx ∈ next.world.outstanding, together ctx.events ctx.context) ∧
      (∀ other ∈ after, other.Together together) ∧
      ∀ events context, .credentialsChanged events context ∈ next.world.trace →
        together events context by
    obtain ⟨slot', armed', after', notified'⟩ := this
    refine ⟨orderly, slot', armed', ?_, notified'⟩
    intro other inside
    rcases List.mem_append.mp inside with first | inside
    · exact after' other (Option.mem_toList.mp first)
    · exact calls other (List.mem_cons_of_mem _ inside)
  -- An effect that notifies nobody.
  have quiet (effect : Effect) (silent : ∀ events context, effect ≠ .credentialsChanged events context)
      (events : Events) (context : Nat)
      (inside : Effect.credentialsChanged events context ∈ effect :: t.world.trace) :
      together events context := by
    rcases List.mem_cons.mp inside with same | before
    · exact absurd same.symm (silent events context)
    · exact notified events context before
  clear orderly calls
  cases point with
  | loadContext request events =>
    cases events with
    | none =>
      cases advanced
      refine ⟨slot, armed, ?_, notified⟩
      rintro other ⟨⟩
      trivial
    | some events =>
      cases advanced
      refine ⟨slot, armed, ?_, notified⟩
      rintro other ⟨⟩
      exact slot events known
  | addRef request advised =>
    cases advanced
    refine ⟨slot, armed, ?_, quiet _ (by simp)⟩
    rintro other ⟨⟩
    exact own
  | setTimer request advised =>
    cases advanced
    refine ⟨slot, ?_, ?_, notified⟩
    · intro ctx inside
      rcases List.mem_cons.mp inside with rfl | inside
      · exact own
      · exact armed ctx inside
    · rintro other ⟨⟩
  | giveUp | releaseCtx =>
    cases advanced
    refine ⟨slot, armed, ?_, quiet _ (by simp)⟩
    rintro other ⟨⟩
    trivial
  | credentialsChanged ctx =>
    cases advanced
    refine ⟨slot, armed, ?_, ?_⟩
    · rintro other ⟨⟩
      exact own
    · intro events context inside
      rcases List.mem_cons.mp inside with same | before
      · cases same
        exact own
      · exact notified events context before
  | releaseStored call =>
    simp only [Access.advance] at advanced
    split at advanced
    · cases advanced
      refine ⟨slot, armed, ?_, notified⟩
      rintro other ⟨⟩
      exact own
    · cases advanced
      refine ⟨slot, armed, ?_, quiet _ (by simp)⟩
      rintro other ⟨⟩
      exact own
  | forget call =>
    cases advanced
    refine ⟨?_, armed, ?_, notified⟩
    · rintro events ⟨⟩
    · rintro other ⟨⟩
      exact own
  | storeContext call =>
    cases call with
    | setProviderEvents events context =>
      cases advanced
      refine ⟨?_, armed, ?_, notified⟩
      · intro stored same
        cases known.symm.trans same
      · rintro other ⟨⟩
        cases events with
        | none => trivial
        | some events => exact own
    | clearProviderEvents =>
      cases advanced
      refine ⟨?_, armed, ?_, notified⟩
      · intro stored same
        cases known.symm.trans same
      · rintro other ⟨⟩
        trivial
  | storeEvents events context =>
    cases advanced
    refine ⟨?_, armed, ?_, notified⟩
    · rintro stored rfl
      obtain ⟨_, rfl⟩ := known
      exact own
    · rintro other ⟨⟩
      trivial
  | addRefStored =>
    simp only [Access.advance] at advanced
    split at advanced
    · cases advanced
      refine ⟨slot, armed, ?_, notified⟩
      rintro other ⟨⟩
      trivial
    · cases advanced
      refine ⟨slot, armed, ?_, quiet _ (by simp)⟩
      rintro other ⟨⟩
      trivial
  | releaseShared request advised =>
    cases advised <;> cases advanced <;> refine ⟨slot, armed, ?_, notified⟩ <;> rintro other ⟨⟩
    · trivial
    · exact own
  | newCtx request advised | createTimer request advised =>
    simp only [Access.advance] at advanced
    split at advanced <;> cases advanced <;> refine ⟨slot, armed, ?_, notified⟩ <;> rintro other ⟨⟩
    · exact own
    · trivial
  | check ctx =>
    simp only [Access.advance] at advanced
    split at advanced <;> cases advanced <;> refine ⟨slot, armed, ?_, notified⟩ <;> rintro other ⟨⟩ <;>
      exact own
  | acquireExclusive call =>
    obtain ⟨_, same⟩ := Option.ite_none_left_eq_some.mp advanced
    cases same
    refine ⟨slot, armed, ?_, notified⟩
    rintro other ⟨⟩
    exact own
  | acquireShared request =>
    obtain ⟨_, same⟩ := Option.ite_none_left_eq_some.mp advanced
    cases same
    refine ⟨slot, armed, ?_, notified⟩
    rintro other ⟨⟩
    trivial
  | comparePending request =>
    simp only [Access.advance] at advanced
    split at advanced <;> cases advanced <;> refine ⟨slot, armed, ?_, notified⟩ <;> rintro other ⟨⟩
    trivial
  | getGeneration | loadEvents | clearPending | releaseExclusive =>
    cases advanced
    refine ⟨slot, armed, ?_, notified⟩
    rintro other ⟨⟩ <;> trivial

theorem paired_enter {running : List Access} {entry : EventsEntry} {point : Option Access}
    (allowed : entry.Together together) (paired : Paired together t running)
    (entered : entry.enter t = some (next, point)) :
    Paired together next (point.toList ++ running) := by
  have orderly := paired.orderly.enter entered
  obtain ⟨-, slot, armed, calls, notified⟩ := paired
  have first {point : Access} (own : point.Together together) :
      ∀ other ∈ point :: running, other.Together together := by
    intro other inside
    rcases List.mem_cons.mp inside with rfl | inside
    · exact own
    · exact calls other inside
  cases entry with
  | requestCredentialsChangedAsync delayMs generation =>
    cases entered
    exact ⟨orderly, slot, armed, first trivial, notified⟩
  | slot call =>
    cases entered
    exact ⟨orderly, slot, armed, first allowed, notified⟩
  | refreshTimer ctx =>
    obtain ⟨⟨inside, _⟩, same⟩ := Option.ite_none_right_eq_some.mp entered
    cases same
    exact ⟨orderly, slot, fun other left => armed other (List.mem_of_mem_erase left),
      first (armed ctx inside), notified⟩
  | nextGeneration | elapse milliseconds =>
    cases entered
    exact ⟨orderly, slot, armed, calls, notified⟩

theorem paired_invariant :
    eventsProgram.Invariant (EventsEntry.Together together) (Paired together) where
  reorder := fun same paired =>
    { orderly := paired.orderly.reorder same
      slot := paired.slot
      armed := paired.armed
      calls := fun point inside => paired.calls point (same.mem_iff.mpr inside)
      notified := paired.notified }
  enter := paired_enter
  advance := paired_advance

theorem paired_initial : Paired together (free .initial) [] where
  orderly := orderly_initial
  slot := fun _ none => by cases none
  armed := fun _ inside => by cases inside
  calls := fun _ inside => by cases inside
  notified := fun _ _ inside => by cases inside

end Together

/-- An object is never handed the context that was advised with another one. -/
theorem credentialsChanged_advised (labels : List (Label EventsEntry Access Bool))
    (s : State Threaded Access)
    (ran : Transition.run eventsProgram.step ⟨free .initial, []⟩ labels = some s) (events : Events)
    (context : Nat) (notified : .credentialsChanged events context ∈ s.shared.world.trace) :
    .enter (.slot (.setProviderEvents (some events) context)) ∈ labels := by
  let together (events : Events) (context : Nat) : Prop :=
    .enter (.slot (.setProviderEvents (some events) context)) ∈ labels
  have each : ∀ label ∈ labels, label.Allowed (EventsEntry.Together together) := by
    intro label inside
    match label with
    | .enter (.slot (.setProviderEvents (some events) context)) => exact inside
    | .enter (.slot (.setProviderEvents none _)) | .enter (.slot .clearProviderEvents)
    | .enter (.requestCredentialsChangedAsync _ _) | .enter (.refreshTimer _)
    | .enter .nextGeneration | .enter (.elapse _) | .advance _ _ => trivial
  exact (paired_invariant.run paired_initial each ran).notified events context notified

def notifiedAfterReplacement : List (Label EventsEntry Access Bool) :=
  let ctx : CredRefreshAsyncCtx := ⟨7, 70, 1, 50⟩
  replacedMeanwhile ++
    [.advance (.createTimer ⟨50, 1⟩ ⟨7, 70⟩) true, .advance (.setTimer ⟨50, 1⟩ ⟨7, 70⟩) true,
      .enter (.elapse 50), .enter (.refreshTimer ctx),
      .advance (.forget (.setProviderEvents (some 8) 80)) true, .advance (.check ctx) true,
      .advance (.credentialsChanged ctx) true]

theorem credentialsChanged_advised_replaced :
    .enter (.slot (.setProviderEvents (some 7) 70)) ∈ notifiedAfterReplacement :=
  credentialsChanged_advised notifiedAfterReplacement _ rfl 7 70 (by decide)

end Dot1xCP.Core
