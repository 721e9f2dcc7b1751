import Dot1xCP.Core.ProtocolTable

/-! `SetUsageScenario` and `SetDeselected` on one thread, `GetSerialization` on another.

The session is used under its lock only. But both calls look at the active flag before
they take the lock, and `SetUsageScenario` writes the flags once more after it has let go
of it; whole `GetSerialization` calls may come in between.
-/

set_option autoImplicit false

namespace Dot1xCP.Core
open Broker Auth Transition

/-- `SetUsageScenario` in the logon scenario, or `SetDeselected` of a credential. -/
inductive Party where
  | setUsageScenario
  | setDeselected (cpus : UsageScenario)
  deriving DecidableEq, Repr

inductive Point where
  | isBrokerSessionActive
  | closeBrokerSessionNow
  | resetForceNextAutoSubmit
  | clearActive
  | clearAwaitingFinal
  | clearAutoSubmitTick
  | nextGeneration
  | setBrokerAwaitingFinal
  | armForceNextAutoSubmit
  | finished
  deriving DecidableEq, Repr

structure Race where
  world : World
  point : Point
  /-- The session that is open was established after the party looked at the flag. -/
  fresh : Bool
  /-- The party observed no session, and has closed one that was established since. -/
  closedFresh : Bool
  deriving DecidableEq, Repr

def Race.start (s : World) : Race := ⟨s, .isBrokerSessionActive, false, false⟩

/-- The next access of the party, or the body of `CloseBrokerSessionNow` as a whole. -/
def Race.proceed (party : Party) (os : CloseOs) (r : Race) : Option Race :=
  match party, r.point with
  | .setUsageScenario, .isBrokerSessionActive =>
    some
      { r with
        point := if r.world.brokerSessionActive then .finished else .closeBrokerSessionNow
        fresh := false }
  | .setUsageScenario, .closeBrokerSessionNow =>
    some ⟨closeBrokerSessionNow os r.world 0, .resetForceNextAutoSubmit, false,
      r.closedFresh || r.fresh⟩
  | .setUsageScenario, .resetForceNextAutoSubmit =>
    some { r with world := resetForceNextAutoSubmit r.world, point := .clearActive }
  | .setUsageScenario, .clearActive =>
    some { r with world := { r.world with brokerSessionActive := false }, point := .clearAwaitingFinal }
  | .setUsageScenario, .clearAwaitingFinal =>
    some { r with world := { r.world with brokerAwaitingFinal := false }, point := .clearAutoSubmitTick }
  | .setUsageScenario, .clearAutoSubmitTick =>
    some { r with world := { r.world with autoSubmitTick := 0 }, point := .nextGeneration }
  | .setUsageScenario, .nextGeneration =>
    some
      { r with
        world := { r.world with sessionGeneration := r.world.sessionGeneration + 1 }
        point := .setBrokerAwaitingFinal }
  | .setUsageScenario, .setBrokerAwaitingFinal =>
    some { r with world := setBrokerAwaitingFinal r.world false, point := .finished }
  | .setDeselected cpus, .isBrokerSessionActive =>
    some
      { r with
        point :=
          if cpus = .logon ∧ r.world.brokerSessionActive then .closeBrokerSessionNow else .finished
        fresh := false }
  | .setDeselected _, .closeBrokerSessionNow =>
    some { r with world := closeBrokerSessionNow os r.world 0, point := .armForceNextAutoSubmit }
  | .setDeselected _, .armForceNextAutoSubmit =>
    some { r with world := armForceNextAutoSubmit r.world, point := .finished }
  | _, _ => none

def Race.getSerialization (machine : Machine) (pointers : OutPointers) (os : SerializationOs)
    (cpus : UsageScenario) (r : Race) : Race :=
  let world := (Broker.getSerialization machine pointers os r.world cpus).1
  { r with
    world := world
    fresh := world.session.hPipe.isSome && (r.fresh || r.world.session.hPipe.isNone) }

inductive Turn where
  | proceed (os : CloseOs)
  | getSerialization (cpus : UsageScenario) (pointers : OutPointers) (os : SerializationOs)
  | elapse (milliseconds : Nat)

def turn (machine : Machine) (party : Party) (r : Race) : Turn → Option Race
  | .proceed os => r.proceed party os
  | .getSerialization cpus pointers os => some (r.getSerialization machine pointers os cpus)
  | .elapse milliseconds =>
    some { r with world := { r.world with now := r.world.now + milliseconds } }

def callOf (party : Party) (os : CloseOs) (s : World) : World :=
  match party with
  | .setUsageScenario => (setUsageScenario os s .logon).1
  | .setDeselected cpus => setDeselected os s cpus

/-- Undisturbed, the turns of a party are the call of the sequential model. -/
theorem run_alone (machine : Machine) (party : Party) (os : CloseOs) (s : World) :
    ∃ turns final, (∀ t ∈ turns, t = .proceed os) ∧
      run (turn machine party) (Race.start s) turns = some final ∧
      final.point = .finished ∧ final.world = callOf party os s := by
  cases party with
  | setUsageScenario =>
    cases active : s.brokerSessionActive with
    | true =>
      have observed : turn machine .setUsageScenario (Race.start s) (.proceed os) =
          some ⟨s, .finished, false, false⟩ := by
        simp [turn, Race.proceed, Race.start, active]
      refine ⟨[.proceed os], _, by simp, run_cons.mpr ⟨_, observed, rfl⟩, rfl, ?_⟩
      simp [callOf, setUsageScenario, active]
    | false =>
      have observed : turn machine .setUsageScenario (Race.start s) (.proceed os) =
          some ⟨s, .closeBrokerSessionNow, false, false⟩ := by
        simp [turn, Race.proceed, Race.start, active]
      refine ⟨List.replicate 8 (.proceed os), _, fun t inside => List.eq_of_mem_replicate inside,
        run_cons.mpr ⟨_, observed, rfl⟩, rfl, ?_⟩
      simp only [callOf, setUsageScenario, active]
      rfl
  | setDeselected cpus =>
    by_cases ends : cpus = .logon ∧ s.brokerSessionActive = true
    · have observed : turn machine (.setDeselected cpus) (Race.start s) (.proceed os) =
          some ⟨s, .closeBrokerSessionNow, false, false⟩ := by
        simp [turn, Race.proceed, Race.start, ends]
      refine ⟨List.replicate 3 (.proceed os), _, fun t inside => List.eq_of_mem_replicate inside,
        run_cons.mpr ⟨_, observed, rfl⟩, rfl, ?_⟩
      rw [callOf, setDeselected, if_pos ends]
    · have observed : turn machine (.setDeselected cpus) (Race.start s) (.proceed os) =
          some ⟨s, .finished, false, false⟩ :=
        congrArg (fun point => some (⟨s, point, false, false⟩ : Race)) (if_neg ends)
      refine ⟨[.proceed os], _, by simp, run_cons.mpr ⟨_, observed, rfl⟩, rfl, ?_⟩
      rw [callOf, setDeselected, if_neg ends]

def Open (s : World) : Prop :=
  s.session.hPipe.isSome = true ∧ s.session.pi.hProcess.isSome = true

instance (s : World) : Decidable (Open s) := inferInstanceAs (Decidable (_ ∧ _))

def Agrees (s : World) : Prop := s.brokerSessionActive = true ↔ Open s

/-- A session runs that the flag denies. -/
def Torn (s : World) : Prop := Open s ∧ s.brokerSessionActive = false

def Settled (s : World) : Prop := (World.Closed s ∧ s.brokerSessionActive = false) ∨ Open s

def Ends (pointers : OutPointers) (os : SerializationOs) : Prop :=
  pointers.pcpgsr = true ∧ pointers.pcpcs = true ∧ ¬ Stays os

section Session
variable {s : World}

theorem not_open_of_closed (closed : World.Closed s) : ¬ Open s := by
  intro isOpen
  unfold Open at isOpen
  rw [closed.1] at isOpen
  cases isOpen.1

theorem Coherent.settled (coherent : Coherent s) : Settled s := by
  cases active : s.brokerSessionActive with
  | true => exact Or.inr ⟨coherent.pipe.trans active, coherent.process.trans active⟩
  | false => exact Or.inl ⟨coherent.closed active, active⟩

theorem Coherent.not_torn (coherent : Coherent s) : ¬ Torn s := by
  rintro ⟨isOpen, inactive⟩
  exact not_open_of_closed (coherent.closed inactive) isOpen

theorem Settled.agrees_iff (settled : Settled s) : Agrees s ↔ ¬ Torn s := by
  rcases settled with ⟨closed, inactive⟩ | isOpen
  · have shut := not_open_of_closed closed
    refine iff_of_true (iff_of_false ?_ shut) fun torn => shut torn.1
    rw [inactive]
    exact Bool.false_ne_true
  · unfold Agrees Torn
    rw [and_iff_right isOpen, iff_true_right isOpen, Bool.not_eq_false]

theorem torn_afterRead (isOpen : Open s) (os : SerializationOs) :
    Settled (afterRead os s (verdict os.read os.message)) ∧
      (Torn (afterRead os s (verdict os.read os.message)) ↔
        s.brokerSessionActive = false ∧ Stays os) := by
  rw [← continues_iff]
  by_cases continues : (verdict os.read os.message).Continues
  · obtain ⟨session, active, _⟩ := afterRead_continues os s continues
    have still : Open (afterRead os s (verdict os.read os.message)) := by
      rw [Open, session]
      exact isOpen
    refine ⟨Or.inr still, ?_⟩
    rw [Torn, active, and_iff_right still, and_iff_left continues]
  · obtain ⟨session, active, _, flow, _⟩ := afterRead_ends os s continues
    have closed : World.Closed (afterRead os s (verdict os.read os.message)) := ⟨session, flow⟩
    exact ⟨Or.inl ⟨closed, active⟩,
      iff_of_false (fun torn => not_open_of_closed closed torn.1) fun both => continues both.2⟩

theorem closed_afterStart (closed : World.Closed s) (inactive : s.brokerSessionActive = false)
    (os : SerializationOs) (failed : startVerdict os ≠ .started) :
    World.Closed (afterStart os s (startVerdict os)) ∧
      (afterStart os s (startVerdict os)).brokerSessionActive = false := by
  cases start : startVerdict os with
  | noPipe => exact ⟨closed, inactive⟩
  | noBroker => exact ⟨⟨rfl, rfl⟩, rfl⟩
  | notConnected result => exact ⟨⟨rfl, rfl⟩, rfl⟩
  | started => exact absurd start failed

/-- A call reads from the session that is open, whatever the flag says; one that ends the
session leaves the flag in agreement. -/
theorem torn_getSerialization (settled : Settled s) (machine : Machine) (pointers : OutPointers)
    (os : SerializationOs) (cpus : UsageScenario) :
    Settled (getSerialization machine pointers os s cpus).1 ∧
      (Torn (getSerialization machine pointers os s cpus).1 ↔ Torn s ∧ ¬ Ends pointers os) := by
  by_cases null : pointers.pcpgsr = false ∨ pointers.pcpcs = false
  · rw [getSerialization_null machine pointers os s cpus null]
    refine ⟨settled, (and_iff_left ?_).symm⟩
    rintro ⟨response, credential, _⟩
    rcases null with null | null
    · cases response.symm.trans null
    · cases credential.symm.trans null
  · simp only [not_or, Bool.not_eq_false] at null
    obtain ⟨response, credential⟩ := null
    have ends : ¬ Ends pointers os ↔ Stays os := by
      rw [Ends, and_iff_right response, and_iff_right credential, not_not]
    rw [ends]
    rcases settled with ⟨closed, inactive⟩ | isOpen
    · have shut := not_open_of_closed closed
      rw [getSerialization_closed machine os response credential closed]
      split
      next started =>
        obtain ⟨settled, torn⟩ := torn_afterRead (s := World.started s) ⟨rfl, rfl⟩ os
        refine ⟨settled, torn.trans ?_⟩
        exact iff_of_false (fun both => by cases both.1) fun both => shut both.1.1
      next failed =>
        obtain ⟨closed', inactive'⟩ := closed_afterStart closed inactive os failed
        refine ⟨Or.inl ⟨closed', inactive'⟩, ?_⟩
        exact iff_of_false (fun torn => not_open_of_closed closed' torn.1) fun both => shut both.1.1
    · rw [getSerialization_live machine os response credential isOpen.1 isOpen.2]
      obtain ⟨settled, torn⟩ := torn_afterRead isOpen os
      refine ⟨settled, torn.trans ?_⟩
      rw [Torn, and_iff_right isOpen]

end Session

/-! ## One turn -/

/-- Up to here the party has written to no flag, or under the lock only. -/
def Early : Party → Point → Prop
  | .setDeselected _, _ => True
  | .setUsageScenario, .isBrokerSessionActive | .setUsageScenario, .closeBrokerSessionNow
  | .setUsageScenario, .resetForceNextAutoSubmit | .setUsageScenario, .clearActive => True
  | .setUsageScenario, _ => False

def ClosesOpen (party : Party) (r : Race) : Turn → Prop
  | .proceed _ => party = .setUsageScenario ∧ r.point = .closeBrokerSessionNow ∧
      r.world.session.hPipe.isSome = true
  | _ => False

instance (party : Party) (r : Race) (t : Turn) : Decidable (ClosesOpen party r t) :=
  match t with
  | .proceed _ => inferInstanceAs (Decidable (_ ∧ _))
  | .getSerialization _ _ _ | .elapse _ => isFalse id

def ClearsOpen (party : Party) (r : Race) : Turn → Prop
  | .proceed _ => party = .setUsageScenario ∧ r.point = .clearActive ∧ Open r.world
  | _ => False

instance (party : Party) (r : Race) (t : Turn) : Decidable (ClearsOpen party r t) :=
  match t with
  | .proceed _ => inferInstanceAs (Decidable (_ ∧ _))
  | .getSerialization _ _ _ | .elapse _ => isFalse id

def EndsSession (_ : Race) : Turn → Prop
  | .getSerialization _ pointers os => Ends pointers os
  | _ => False

structure Racing (party : Party) (r : Race) : Prop where
  settled : Settled r.world
  coherent : Early party r.point → Coherent r.world
  fresh : party = .setUsageScenario → r.point = .closeBrokerSessionNow →
    r.fresh = r.world.session.hPipe.isSome

inductive Proceeds (party : Party) (os : CloseOs) (r next : Race) : Prop where
  | observed (point : r.point = .isBrokerSessionActive) (world : next.world = r.world)
      (fresh : next.fresh = false) (closedFresh : next.closedFresh = r.closedFresh)
      (inactive : party = .setUsageScenario → next.point = .closeBrokerSessionNow →
        r.world.brokerSessionActive = false)
  | closed (point : r.point = .closeBrokerSessionNow)
      (world : next.world = closeBrokerSessionNow os r.world 0)
      (later : next.point ≠ .closeBrokerSessionNow)
      (closedFresh : next.closedFresh = true ↔
        r.closedFresh = true ∨ party = .setUsageScenario ∧ r.fresh = true)
  | cleared (party : party = .setUsageScenario) (point : r.point = .clearActive)
      (world : next.world = { r.world with brokerSessionActive := false })
      (late : next.point = .clearAwaitingFinal) (closedFresh : next.closedFresh = r.closedFresh)
  | kept (point : r.point ≠ .closeBrokerSessionNow ∧ (party = .setUsageScenario → r.point ≠ .clearActive))
      (session : next.world.session = r.world.session)
      (active : next.world.brokerSessionActive = r.world.brokerSessionActive)
      (flow : next.world.lastBrokerFlowState = r.world.lastBrokerFlowState)
      (early : Early party next.point →
        Early party r.point ∧ next.world.brokerAwaitingFinal = r.world.brokerAwaitingFinal)
      (later : next.point ≠ .closeBrokerSessionNow) (closedFresh : next.closedFresh = r.closedFresh)

section Turns
variable {machine : Machine} {party : Party} {r next : Race}

theorem proceed_cases {os : CloseOs} (proceeded : r.proceed party os = some next) :
    Proceeds party os r next := by
  obtain ⟨world, point, fresh, closedFresh⟩ := r
  cases party with
  | setUsageScenario =>
    cases point with
    | isBrokerSessionActive =>
      cases proceeded
      refine .observed rfl rfl rfl rfl fun _ later => ?_
      simpa using later
    | closeBrokerSessionNow =>
      cases proceeded
      exact .closed rfl rfl (by simp) (by simp)
    | clearActive =>
      cases proceeded
      exact .cleared rfl rfl rfl rfl rfl
    | resetForceNextAutoSubmit =>
      cases proceeded
      exact .kept (by simp) rfl rfl rfl (fun _ => ⟨trivial, rfl⟩) (by simp) rfl
    | clearAwaitingFinal | clearAutoSubmitTick | nextGeneration | setBrokerAwaitingFinal =>
      cases proceeded
      exact .kept (by simp) rfl rfl rfl False.elim (by simp) rfl
    | armForceNextAutoSubmit | finished => cases proceeded
  | setDeselected cpus =>
    cases point with
    | isBrokerSessionActive =>
      cases proceeded
      exact .observed rfl rfl rfl rfl fun other => by cases other
    | closeBrokerSessionNow =>
      cases proceeded
      exact .closed rfl rfl (by simp) (by simp)
    | armForceNextAutoSubmit =>
      cases proceeded
      exact .kept (by simp) rfl rfl rfl (fun _ => ⟨trivial, rfl⟩) (by simp) rfl
    | resetForceNextAutoSubmit | clearActive | clearAwaitingFinal | clearAutoSubmitTick
    | nextGeneration | setBrokerAwaitingFinal | finished => cases proceeded

theorem open_congr {s t : World} (session : t.session = s.session) : Open t ↔ Open s := by
  rw [Open, session]
  exact Iff.rfl

theorem torn_congr {s t : World} (session : t.session = s.session)
    (active : t.brokerSessionActive = s.brokerSessionActive) : Torn t ↔ Torn s := by
  rw [Torn, open_congr session, active]
  exact Iff.rfl

theorem Settled.congr {s t : World} (settled : Settled s) (session : t.session = s.session)
    (active : t.brokerSessionActive = s.brokerSessionActive)
    (flow : t.lastBrokerFlowState = s.lastBrokerFlowState) : Settled t := by
  unfold Settled World.Closed
  rw [session, active, flow, open_congr session]
  exact settled

theorem Racing.turn (r : Race) (t : Turn) (next : Race) (racing : Racing party r)
    (taken : turn machine party r t = some next) : Racing party next := by
  cases t with
  | proceed os =>
    cases proceed_cases taken with
    | observed point world fresh _ inactive =>
      have coherent : Coherent r.world := racing.coherent (by
        rw [point]
        cases party <;> trivial)
      refine ⟨world ▸ racing.settled, fun _ => world ▸ coherent, fun usage later => ?_⟩
      rw [fresh, world, (coherent.closed (inactive usage later)).1]
      rfl
    | closed point world later _ =>
      have coherent := coherent_closeBrokerSessionNow os r.world 0
      exact ⟨world ▸ coherent.settled, fun _ => world ▸ coherent,
        fun _ again => absurd again later⟩
    | cleared usage point world late _ =>
      refine ⟨?_, fun early => ?_, fun _ again => ?_⟩
      · rw [world]
        exact racing.settled.imp_left fun closed => ⟨closed.1, rfl⟩
      · rw [usage, late] at early
        exact early.elim
      · rw [late] at again
        cases again
    | kept _ session active flow early later _ =>
      refine ⟨racing.settled.congr session active flow, fun early' => ?_,
        fun _ again => absurd again later⟩
      obtain ⟨before, awaiting⟩ := early early'
      exact (racing.coherent before).congr session active awaiting flow
  | getSerialization cpus pointers os =>
    cases taken
    obtain ⟨settled, _⟩ := torn_getSerialization racing.settled machine pointers os cpus
    refine ⟨settled, fun early => ?_, fun usage point => ?_⟩
    · exact (racing.coherent early).getSerialization machine pointers os cpus
    · have either : (r.fresh || r.world.session.hPipe.isNone) = true := by
        rw [racing.fresh usage point]
        cases r.world.session.hPipe <;> rfl
      change (_ && (r.fresh || r.world.session.hPipe.isNone)) = _
      rw [either, Bool.and_true]
      rfl
  | elapse milliseconds =>
    cases taken
    exact ⟨racing.settled, fun early => (racing.coherent early).congr rfl rfl rfl rfl, racing.fresh⟩

/-- Only the write to the active flag tears, and only the end of a session mends. -/
theorem torn_exact (racing : Racing party r) {t : Turn}
    (taken : turn machine party r t = some next) :
    Torn next.world ↔ ClearsOpen party r t ∨ Torn r.world ∧ ¬ EndsSession r t := by
  cases t with
  | proceed os =>
    have goesOn : Torn r.world ∧ ¬ EndsSession r (.proceed os) ↔ Torn r.world := and_iff_left id
    rw [goesOn]
    cases proceed_cases taken with
    | observed point world _ _ _ =>
      rw [world, or_iff_right]
      rintro ⟨_, elsewhere, _⟩
      cases point.symm.trans elsewhere
    | closed point world _ _ =>
      have before : Coherent r.world := racing.coherent (by
        rw [point]
        cases party <;> trivial)
      rw [world]
      refine iff_of_false (coherent_closeBrokerSessionNow os r.world 0).not_torn ?_
      rintro (⟨_, elsewhere, _⟩ | torn)
      · cases point.symm.trans elsewhere
      · exact before.not_torn torn
    | cleared usage point world _ _ =>
      rw [world]
      constructor
      · intro torn
        exact Or.inl ⟨usage, point, torn.1⟩
      · rintro (⟨_, _, isOpen⟩ | torn)
        · exact ⟨isOpen, rfl⟩
        · exact ⟨torn.1, rfl⟩
    | kept point session active _ _ _ _ =>
      rw [torn_congr session active, or_iff_right]
      rintro ⟨usage, here, _⟩
      exact point.2 usage here
  | getSerialization cpus pointers os =>
    cases taken
    have same := (torn_getSerialization racing.settled machine pointers os cpus).2
    exact same.trans (or_iff_right id).symm
  | elapse milliseconds =>
    cases taken
    have same : Torn r.world ↔ Torn r.world ∧ ¬ EndsSession r (.elapse milliseconds) :=
      (and_iff_left id).symm
    exact same.trans (or_iff_right id).symm

theorem closedFresh_exact (racing : Racing party r) {t : Turn}
    (taken : turn machine party r t = some next) :
    next.closedFresh = true ↔ ClosesOpen party r t ∨ r.closedFresh = true ∧ ¬ False := by
  rw [and_iff_left id]
  cases t with
  | proceed os =>
    have elsewhere (point : r.point ≠ .closeBrokerSessionNow) :
        ¬ ClosesOpen party r (.proceed os) := fun closes => point closes.2.1
    cases proceed_cases taken with
    | observed point _ _ same _ =>
      rw [same, or_iff_right (elsewhere (by rw [point]; simp))]
    | closed point _ _ closes =>
      rw [closes, or_comm]
      apply or_congr_left
      constructor
      · rintro ⟨usage, fresh⟩
        exact ⟨usage, point, racing.fresh usage point ▸ fresh⟩
      · rintro ⟨usage, _, isOpen⟩
        exact ⟨usage, (racing.fresh usage point).trans isOpen⟩
    | cleared _ point _ _ same =>
      rw [same, or_iff_right (elsewhere (by rw [point]; simp))]
    | kept point _ _ _ _ _ same =>
      rw [same, or_iff_right (elsewhere point.1)]
  | getSerialization | elapse =>
    cases taken
    exact (or_iff_right id).symm

end Turns

/-- In whatever state a run ends, so also when both parties are finished: the flag agrees
with the session, and no session was closed that the party had not seen, exactly when no
session is open at a close of the party that has observed none, and a session that is open
when the party clears the flag is ended by a later call. -/
theorem race_agrees_iff (machine : Machine) (party : Party) (s : World)
    (reached : Reachable machine s) (turns : List Turn) (final : Race)
    (ran : run (turn machine party) (Race.start s) turns = some final) :
    (Agrees final.world ∧ final.closedFresh = false) ↔
      Meets (turn machine party) (fun r t => ¬ ClosesOpen party r t) (Race.start s) turns ∧
      LeadsTo (turn machine party) (ClearsOpen party) EndsSession (Race.start s) turns := by
  have start : Racing party (Race.start s) :=
    ⟨reached.coherent.settled, fun _ => reached.coherent, fun _ point => by cases point⟩
  have untorn : ¬ Torn (Race.start s).world := reached.coherent.not_torn
  have flag := discharged_iff (Racing party) (fun r => Torn r.world) Racing.turn
    (fun _ _ _ racing taken => torn_exact racing taken) start ran
  have mark := discharged_iff (Racing party) (fun r => r.closedFresh = true) Racing.turn
    (fun _ _ _ racing taken => closedFresh_exact racing taken) start ran
  have settled : Settled final.world := by
    have racing : Racing party final :=
      Reachable.invariant Racing.turn start ⟨turns, ran⟩
    exact racing.settled
  rw [and_iff_left fun torn => absurd torn untorn] at flag
  have unmarked : ¬ (Race.start s).closedFresh = true := Bool.false_ne_true
  rw [and_iff_left fun closed => absurd closed unmarked, leadsTo_never ran,
    Bool.not_eq_true] at mark
  rw [settled.agrees_iff, flag, mark]
  exact And.comm

/-- A deselected tile does no harm: the call closes what it finds under the lock, and
writes no flag of the session after that. -/
theorem setDeselected_agrees (machine : Machine) (cpus : UsageScenario) (s : World)
    (reached : Reachable machine s) (turns : List Turn) (final : Race)
    (ran : run (turn machine (.setDeselected cpus)) (Race.start s) turns = some final) :
    Agrees final.world := by
  have racing : Racing (.setDeselected cpus) final :=
    Reachable.invariant Racing.turn
      ⟨reached.coherent.settled, fun _ => reached.coherent, fun other => by cases other⟩ ⟨turns, ran⟩
  exact racing.settled.agrees_iff.mpr (racing.coherent trivial).not_torn

def reliableClose : CloseOs := ⟨.object0, true, .object0⟩

def quietCall : Turn := .getSerialization .logon allPointers (sampleSystem .timeout [])

def lateSession : List Turn :=
  List.replicate 4 (.proceed reliableClose) ++ quietCall ::
    List.replicate 4 (.proceed reliableClose)

theorem race_agrees_late :
    ∃ final, run (turn sampleMachine .setUsageScenario) (Race.start World.initial) lateSession =
        some final ∧
      final.point = .finished ∧ Open final.world ∧
      Agrees final.world ∧ final.closedFresh = false := by
  refine ⟨_, rfl, rfl, ⟨rfl, rfl⟩, ?_⟩
  refine (race_agrees_iff sampleMachine .setUsageScenario World.initial (Reachable.refl _)
    lateSession _ rfl).mpr ⟨?_, leadsTo_of_meets ?_⟩
  · decide +kernel
  · decide +kernel

def staleClose : List Turn :=
  .proceed reliableClose :: quietCall :: List.replicate 7 (.proceed reliableClose)

def tornFlag : List Turn :=
  List.replicate 2 (.proceed reliableClose) ++ quietCall ::
    List.replicate 6 (.proceed reliableClose)

theorem race_tears :
    (∃ final, run (turn sampleMachine .setUsageScenario) (Race.start World.initial) staleClose =
        some final ∧ final.point = .finished ∧ final.closedFresh = true) ∧
      ∃ final, run (turn sampleMachine .setUsageScenario) (Race.start World.initial) tornFlag =
        some final ∧ final.point = .finished ∧ ¬ Agrees final.world := by
  refine ⟨⟨_, rfl, rfl, rfl⟩, _, rfl, rfl, ?_⟩
  intro agrees
  have inactive := agrees.mpr ⟨rfl, rfl⟩
  cases inactive

end Dot1xCP.Core
