import Dot1xCP.Broker.Transport

/-! Messages that arrive in fragments.

How much of a message a read brings is left to the system here, so the broker's messages
arrive as any sequences of fragments. Beside the reader the state keeps which message is
being delivered and whether a slice timed out in the middle of it.
-/

set_option autoImplicit false

namespace Dot1xCP.Broker.Fragments
open Transport

structure Delivery where
  reader : State
  /-- The message of which the last fragment was taken. -/
  source : Message
  /-- A slice has timed out after a fragment of `source` had been taken. -/
  interrupted : Bool
  /-- The messages whose last fragment ended a read with `Ok`. -/
  completed : List Message
  deriving DecidableEq, Repr

def Delivery.initial : Delivery := ⟨State.initial, [], false, []⟩

/-- An event, and the most that the system delivers, should the event deliver anything. -/
structure Move where
  bytes : Nat
  positive : 0 < bytes
  event : Event
  deriving DecidableEq, Repr

def Delivery.taking (d : Delivery) (reader : State) : Delivery :=
  match d.reader.remainder, d.reader.queue with
  | none, m :: _ => { d with reader := reader, source := m, interrupted := false }
  | _, _ => { d with reader := reader }

def Delivery.transfer (d : Delivery) (bytes : Nat) : Option (List UInt8 × Bool × Delivery) :=
  (d.reader.transferUpTo bytes).map fun taken => (taken.1, taken.2.1, d.taking taken.2.2)

def Delivery.receive (d : Delivery) (chunk : List UInt8) (more : Bool) : Delivery :=
  let reader := d.reader.receive chunk more
  { d with
    reader := reader
    completed :=
      if reader.phase = .returned (some .ok) then d.completed ++ [d.source] else d.completed }

def Delivery.interrupt (d : Delivery) : Delivery :=
  { d with
    interrupted := d.interrupted ||
      d.reader.phase = .timedOut && (d.reader.outMsg ≠ [] || d.reader.io.isDone) }

def Delivery.follow (d : Delivery) (event : Event) : Option Delivery :=
  (Transport.step d.reader event).map fun reader => { d with reader := reader }

def step (d : Delivery) (move : Move) : Option Delivery :=
  match move.event with
  | .issue .atOnce =>
    match d.transfer move.bytes with
    | some (chunk, more, next) =>
      if d.reader.phase = .issue then some (next.receive chunk more) else none
    | none => d.follow (.issue .atOnce)
  | .complete =>
    match d.transfer move.bytes with
    | some (chunk, more, next) =>
      if d.reader.io = .pending then
        some { next with reader := { next.reader with io := .done chunk more } }
      else none
    | none => d.follow .complete
  | .wait .object0 =>
    match d.reader.io with
    | .done chunk more =>
      if d.reader.phase = .waiting then some (d.receive chunk more) else none
    | _ => d.follow (.wait .object0)
  | .cancelIoEx => d.interrupt.follow .cancelIoEx
  | event => d.follow event

theorem taking_reader (d : Delivery) (reader : State) : (d.taking reader).reader = reader := by
  unfold Delivery.taking
  split <;> rfl

theorem step_buffer (d : Delivery) (event : Event) :
    (step d ⟨kBufferBytes, by decide, event⟩).map Delivery.reader =
      Transport.step d.reader event := by
  have follows (d : Delivery) (event : Event) :
      (d.follow event).map Delivery.reader = Transport.step d.reader event := by
    unfold Delivery.follow
    cases Transport.step d.reader event <;> rfl
  cases event with
  | write | closeEnd | exit | call | completeFailed | cancelIoEx | poll => exact follows _ _
  | issue outcome =>
    cases outcome with
    | noEvent | error | pends => exact follows _ _
    | atOnce =>
      cases left : d.reader.transferUpTo kBufferBytes with
      | none =>
        unfold step Delivery.transfer
        rw [left]
        exact follows _ _
      | some taken =>
        unfold step Delivery.transfer Transport.step State.issueRead
        rw [transfer_eq, left]
        dsimp only [Option.map_some]
        split
        · exact congrArg (fun reader => some (State.receive reader _ _)) (taking_reader _ _)
        · rfl
  | complete =>
    cases left : d.reader.transferUpTo kBufferBytes with
    | none =>
      unfold step Delivery.transfer
      rw [left]
      exact follows _ _
    | some taken =>
      unfold step Delivery.transfer Transport.step State.complete
      rw [transfer_eq, left]
      dsimp only [Option.map_some]
      split
      · simp only [Option.map_some, taking_reader]
      · rfl
  | wait outcome =>
    cases outcome with
    | object1 | timeout | failed => exact follows _ _
    | object0 =>
      unfold step
      dsimp only
      split
      next chunk more io =>
        unfold Transport.step State.waitOver
        dsimp only
        rw [io]
        split <;> rfl
      next => exact follows _ _

section Steps
variable {d next : Delivery} {chunk : List UInt8} {more : Bool}

theorem transfer_spec {bytes : Nat} (positive : 0 < bytes)
    (moved : d.transfer bytes = some (chunk, more, next)) :
    d.reader.Takes chunk more next.reader ∧ next.completed = d.completed ∧
      ((d.reader.remainder = some (chunk ++ next.reader.remainder.getD []) ∧
          next.reader.queue = d.reader.queue ∧ next.source = d.source ∧
          next.interrupted = d.interrupted) ∨
        (d.reader.remainder = none ∧ d.reader.queue = next.source :: next.reader.queue ∧
          next.source = chunk ++ next.reader.remainder.getD [] ∧ next.interrupted = false)) := by
  obtain ⟨⟨taken, isMore, reader⟩, left, same⟩ := Option.map_eq_some_iff.mp moved
  have takes := transferUpTo_spec positive left
  obtain ⟨queue, remainder, rest, _, _, _, origin⟩ := takes
  rcases origin with ⟨begun, queued⟩ | ⟨fresh, queued⟩
  · unfold Delivery.taking at same
    rw [begun] at same
    cases same
    subst rest
    exact ⟨transferUpTo_spec positive left, rfl, Or.inl ⟨begun, queued, rfl, rfl⟩⟩
  · unfold Delivery.taking at same
    rw [fresh, queued] at same
    cases same
    subst rest
    exact ⟨transferUpTo_spec positive left, rfl, Or.inr ⟨fresh, queued, rfl, rfl⟩⟩

theorem transfer_none {bytes : Nat} (empty : d.transfer bytes = none) : d.reader.Drained :=
  transferUpTo_none.mp (Option.map_eq_none_iff.mp empty)

theorem follow_eq_some {event : Event} :
    d.follow event = some next ↔
      ∃ reader, Transport.step d.reader event = some reader ∧ next = { d with reader := reader } := by
  rw [Delivery.follow, Option.map_eq_some_iff]
  exact exists_congr fun _ => and_congr_right fun _ => eq_comm

/-- What follows a read that brought bytes: they are refused, or the message goes on, or
it is complete. -/
theorem receive_cases (s : State) (chunk : List UInt8) (more : Bool) :
    (¬ s.Accepts chunk ∧ s.receive chunk more = s.finish .failed) ∨
      (s.Accepts chunk ∧ more = true ∧
        s.receive chunk more =
          { s with phase := .issue, outMsg := s.outMsg ++ chunk, io := .none }) ∨
      (s.Accepts chunk ∧ more = false ∧
        s.receive chunk more =
          { s.finish .ok with returned := s.returned ++ [s.outMsg ++ chunk] }) := by
  unfold State.receive State.Accepts
  by_cases empty : chunk = []
  · exact Or.inl ⟨fun accepts => accepts.1 empty, if_pos empty⟩
  · rw [if_neg empty]
    dsimp only
    by_cases large : kMaxMsgBytes < (s.outMsg ++ chunk).length
    · exact Or.inl ⟨fun accepts => Nat.not_lt_of_le accepts.2 large, if_pos large⟩
    · have accepts := And.intro empty (Nat.le_of_not_lt large)
      rw [if_neg large]
      cases more with
      | true => exact Or.inr (Or.inl ⟨accepts, rfl, rfl⟩)
      | false => exact Or.inr (Or.inr ⟨accepts, rfl, rfl⟩)

/-- What a step can do: a read ends with what it brought, a read completes, a slice is
given up, or the step is one of the transport. -/
theorem step_cases {move : Move} (stepped : step d move = some next) :
    (∃ chunk more taken, move.event = .issue .atOnce ∧ d.reader.phase = .issue ∧
        d.transfer move.bytes = some (chunk, more, taken) ∧ next = taken.receive chunk more) ∨
      (∃ chunk more, move.event = .wait .object0 ∧ d.reader.phase = .waiting ∧
        d.reader.io = .done chunk more ∧ next = d.receive chunk more) ∨
      (∃ chunk more taken, move.event = .complete ∧ d.reader.io = .pending ∧
        d.transfer move.bytes = some (chunk, more, taken) ∧
        next = { taken with reader := { taken.reader with io := .done chunk more } }) ∨
      (move.event = .cancelIoEx ∧ d.interrupt.follow .cancelIoEx = some next) ∨
      (move.event ≠ .cancelIoEx ∧ d.follow move.event = some next ∧
        (move.event = .issue .atOnce ∨ move.event = .complete → d.reader.Drained) ∧
        (move.event = .wait .object0 → d.reader.io.isDone = false)) := by
  obtain ⟨bytes, positive, event⟩ := move
  unfold step at stepped
  dsimp only at stepped ⊢
  split at stepped
  · split at stepped
    next chunk more taken moved =>
      obtain ⟨phase, same⟩ := Option.ite_none_right_eq_some.mp stepped
      exact Or.inl ⟨chunk, more, taken, rfl, phase, moved, (Option.some_inj.mp same).symm⟩
    next empty =>
      exact Or.inr (Or.inr (Or.inr (Or.inr ⟨by simp, stepped, fun _ => transfer_none empty, by simp⟩)))
  · split at stepped
    next chunk more taken moved =>
      obtain ⟨pending, same⟩ := Option.ite_none_right_eq_some.mp stepped
      exact Or.inr (Or.inr (Or.inl
        ⟨chunk, more, taken, rfl, pending, moved, (Option.some_inj.mp same).symm⟩))
    next empty =>
      exact Or.inr (Or.inr (Or.inr (Or.inr ⟨by simp, stepped, fun _ => transfer_none empty, by simp⟩)))
  · split at stepped
    next chunk more io =>
      obtain ⟨phase, same⟩ := Option.ite_none_right_eq_some.mp stepped
      exact Or.inr (Or.inl ⟨chunk, more, rfl, phase, io, (Option.some_inj.mp same).symm⟩)
    next other =>
      refine Or.inr (Or.inr (Or.inr (Or.inr ⟨by simp, stepped, by simp, fun _ => ?_⟩)))
      cases io : d.reader.io with
      | done chunk more => exact absurd io (other chunk more)
      | none | pending | broken | failed => rfl
  · exact Or.inr (Or.inr (Or.inr (Or.inl ⟨rfl, stepped⟩)))
  next atOnce complete object0 cancel =>
    exact Or.inr (Or.inr (Or.inr (Or.inr
      ⟨cancel, stepped, fun same => absurd same (not_or.mpr ⟨atOnce, complete⟩),
        fun same => absurd same object0⟩)))

end Steps

/-! ## Where the bytes of a message are -/

/-- A session that was lost is not read any more. -/
def Lost (phase : Phase) : Prop :=
  phase = .returned (some .brokerExited) ∨ phase = .returned (some .failed)

def InTransit (s : State) : Prop := s.io.isDone = true ∨ s.remainder ≠ none

/-- What the reader can still return of the message. When a slice has timed out, nothing of
what the reader holds is among it. -/
def held (s : State) : List UInt8 :=
  (if s.phase = .polling then [] else s.outMsg ++ s.io.bytes) ++ s.remainder.getD []

def Whole (source : Message) (interrupted : Bool) (held : List UInt8) : Prop :=
  ∃ dropped, source = dropped ++ held ∧ (interrupted = true ↔ dropped ≠ [])

structure Follows (d : Delivery) : Prop where
  sound : Sound d.reader
  whole : InTransit d.reader → ¬ Lost d.reader.phase →
    Whole d.source d.interrupted (held d.reader)
  begun : InTransit d.reader → d.source ∈ d.reader.written
  queued : ∀ m ∈ d.reader.queue, m ∈ d.reader.written
  completed : ∀ m ∈ d.completed, m ∈ d.reader.written

/-- Every read that returned `Ok` returned a whole message of the broker. -/
def Intact (d : Delivery) : Prop :=
  d.reader.returned = d.completed ∧ ∀ m ∈ d.completed, m ∈ d.reader.written

/-- A step of the transport that brings nothing and drops nothing. -/
structure Plain (s next : State) : Prop where
  returned : next.returned = s.returned
  remainder : next.remainder = s.remainder
  io : next.io.isDone = true → s.io.isDone = true
  written : ∀ m ∈ s.written, m ∈ next.written
  queue : ∀ m ∈ next.queue, m ∈ s.queue ∨ m ∈ next.written
  carries : ¬ Lost next.phase → ¬ Lost s.phase ∧ held next = held s

section Plain
variable {s next : State}

theorem plain_finish {result : PipeReadResult} (lost : Lost (.returned (some result))) :
    Plain s (s.finish result) where
  returned := rfl
  remainder := rfl
  io done := by cases done
  written _ inside := inside
  queue _ inside := Or.inl inside
  carries remains := absurd lost remains

theorem plain_phase {phase : Phase} {io : Io} (before : s.io.isDone = false)
    (after : io.isDone = false) (live : ¬ Lost s.phase) (reading : s.phase ≠ .polling)
    (stays : phase ≠ .polling) : Plain s { s with phase := phase, io := io } where
  returned := rfl
  remainder := rfl
  io done := by cases after.symm.trans done
  written _ inside := inside
  queue _ inside := Or.inl inside
  carries _ := by
    refine ⟨live, ?_⟩
    rw [held, held, if_neg reading, if_neg stays, bytes_of_not_done before, bytes_of_not_done after]

theorem plain_cleared {phase : Phase} (idle : s.io = .none) (live : ¬ Lost s.phase)
    (dead : s.phase = .polling ∨ s.outMsg = []) (stays : phase ≠ .polling) :
    Plain s { s with phase := phase, outMsg := [] } where
  returned := rfl
  remainder := rfl
  io done := done
  written _ inside := inside
  queue _ inside := Or.inl inside
  carries _ := by
    refine ⟨live, ?_⟩
    have none : s.io.bytes = [] := bytes_of_not_done (by rw [idle]; rfl)
    rw [held, held, if_neg stays]
    rcases dead with polling | empty
    · rw [if_pos polling, none]
      rfl
    · rw [empty, none, List.nil_append, ite_self]

theorem busy_live (sound : Sound s) (busy : s.io ≠ .none) :
    ¬ Lost s.phase ∧ s.phase ≠ .polling := by
  rcases sound.quiet busy with phase | phase | phase | phase <;> rw [phase] <;> simp [Lost]

theorem Plain.of_step {event : Event} (sound : Sound s)
    (stepped : Transport.step s event = some next) (notCancel : event ≠ .cancelIoEx)
    (drained : event = .issue .atOnce ∨ event = .complete → s.Drained)
    (notDone : event = .wait .object0 → s.io.isDone = false) : Plain s next := by
  cases event with
  | write m =>
    obtain ⟨_, same⟩ := Option.ite_none_right_eq_some.mp stepped
    cases same
    exact
      { returned := rfl
        remainder := rfl
        io := id
        written := fun _ inside => List.mem_append_left _ inside
        queue := fun _ inside => (List.mem_append.mp inside).imp_right (List.mem_append_right _)
        carries := fun live => ⟨live, rfl⟩ }
  | closeEnd | exit =>
    cases stepped
    exact ⟨rfl, rfl, id, fun _ => id, fun _ => Or.inl, fun live => ⟨live, rfl⟩⟩
  | call =>
    unfold Transport.step at stepped
    dsimp only at stepped
    split at stepped
    next result phase =>
      obtain ⟨may, same⟩ := Option.ite_none_right_eq_some.mp stepped
      cases same
      have live : ¬ Lost s.phase := by
        rw [phase]
        rintro (lost | lost)
        · cases lost
          cases may
        · cases lost
          cases may
      exact plain_cleared (sound.idle (Or.inr (Or.inr ⟨result, phase⟩))) live
        (Or.inr (sound.outside result phase)) (by simp)
    next => cases stepped
  | issue outcome =>
    obtain ⟨phase, stepped⟩ := Option.ite_none_right_eq_some.mp stepped
    cases outcome with
    | noEvent | error =>
      cases stepped
      exact plain_finish (Or.inr rfl)
    | atOnce =>
      have empty : s.transfer = none := transferUpTo_none.mpr (drained (Or.inl rfl))
      unfold State.issueRead at stepped
      dsimp only at stepped
      rw [empty] at stepped
      obtain ⟨_, same⟩ := Option.ite_none_left_eq_some.mp stepped
      cases same
      exact plain_finish (Or.inl rfl)
    | pends =>
      cases stepped
      exact plain_phase (by rw [sound.idle (Or.inl phase)]; rfl) rfl (by simp [phase, Lost])
        (by simp [phase]) (by simp)
  | complete =>
    obtain ⟨pending, stepped⟩ := Option.ite_none_right_eq_some.mp stepped
    have empty : s.transfer = none := transferUpTo_none.mpr (drained (Or.inr rfl))
    unfold State.complete at stepped
    rw [empty] at stepped
    obtain ⟨_, same⟩ := Option.ite_none_left_eq_some.mp stepped
    cases same
    obtain ⟨live, reading⟩ := busy_live sound (by rw [pending]; simp)
    exact plain_phase (by rw [pending]; rfl) rfl live reading reading
  | completeFailed =>
    obtain ⟨pending, same⟩ := Option.ite_none_right_eq_some.mp stepped
    cases same
    obtain ⟨live, reading⟩ := busy_live sound (by rw [pending]; simp)
    exact plain_phase (by rw [pending]; rfl) rfl live reading reading
  | wait outcome =>
    obtain ⟨phase, stepped⟩ := Option.ite_none_right_eq_some.mp stepped
    have live : ¬ Lost s.phase := by simp [phase, Lost]
    have reading : s.phase ≠ .polling := by simp [phase]
    cases outcome with
    | object0 =>
      have none := notDone rfl
      unfold State.waitOver at stepped
      dsimp only at stepped
      split at stepped
      next chunk more io =>
        rw [io] at none
        cases none
      next =>
        cases stepped
        exact plain_finish (Or.inl rfl)
      next =>
        cases stepped
        exact plain_finish (Or.inr rfl)
      next => cases stepped
      next => cases stepped
    | object1 =>
      obtain ⟨⟨pending, _⟩, same⟩ := Option.ite_none_right_eq_some.mp stepped
      cases same
      have idle : s.io.isDone = false := by rw [pending]; rfl
      exact plain_phase idle idle live reading (by simp)
    | timeout =>
      obtain ⟨⟨pending, _⟩, same⟩ := Option.ite_none_right_eq_some.mp stepped
      cases same
      have idle : s.io.isDone = false := by rw [pending]; rfl
      exact plain_phase idle idle live reading (by simp)
    | failed =>
      cases stepped
      exact
        { returned := rfl
          remainder := rfl
          io := id
          written := fun _ => id
          queue := fun _ => Or.inl
          carries := fun _ => ⟨live, by rw [held, held, if_neg reading, if_neg (by simp)]⟩ }
  | cancelIoEx => exact absurd rfl notCancel
  | poll elapsed =>
    obtain ⟨phase, same⟩ := Option.ite_none_right_eq_some.mp stepped
    cases same
    have idle := sound.idle (Or.inr (Or.inl phase))
    have live : ¬ Lost s.phase := by simp [phase, Lost]
    unfold State.poll
    split_ifs with dead late
    · exact plain_finish (Or.inl rfl)
    · have cleared : Plain s { s with phase := .returned (some .timeout), outMsg := [] } :=
        plain_cleared idle live (Or.inl phase) (by simp)
      have same : s.finish .timeout = { s with phase := .returned (some .timeout), outMsg := [] } := by
        rw [State.finish, idle]
      exact same ▸ cleared
    · exact plain_cleared idle live (Or.inl phase) (by simp)

end Plain

section Follows
variable {d next : Delivery} {chunk : List UInt8} {more : Bool}

theorem whole_taken (follows : Follows d) (live : ¬ Lost d.reader.phase)
    (reading : d.reader.phase ≠ .polling) (idle : d.reader.io.isDone = false) {bytes : Nat}
    (positive : 0 < bytes) (moved : d.transfer bytes = some (chunk, more, next)) :
    Whole next.source next.interrupted
      (next.reader.outMsg ++ chunk ++ next.reader.remainder.getD []) := by
  obtain ⟨takes, _, origin⟩ := transfer_spec positive moved
  have same : next.reader.outMsg = d.reader.outMsg := by
    obtain ⟨_, _, rest, _⟩ := takes
    rw [rest]
  rcases origin with ⟨begun, _, source, interrupted⟩ | ⟨fresh, _, source, interrupted⟩
  · obtain ⟨dropped, whole, lost⟩ := follows.whole (Or.inr (by rw [begun]; simp)) live
    refine ⟨dropped, ?_, interrupted ▸ lost⟩
    rw [held, if_neg reading, bytes_of_not_done idle, begun] at whole
    rw [source, whole, same]
    simp
  · have empty : d.reader.outMsg = [] := by
      by_contra begun
      exact follows.sound.begun reading begun idle fresh
    refine ⟨[], ?_, by simp [interrupted]⟩
    rw [source, same, empty]
    rfl

theorem follows_taken (follows : Follows d) (live : ¬ Lost d.reader.phase)
    (reading : d.reader.phase ≠ .polling) (idle : d.reader.io.isDone = false) {bytes : Nat}
    (positive : 0 < bytes) (moved : d.transfer bytes = some (chunk, more, next)) {phase : Phase}
    (stays : phase ≠ .polling)
    (sound : Sound { next.reader with phase := phase, io := .done chunk more }) :
    Follows
      { next with reader := { next.reader with phase := phase, io := .done chunk more } } := by
  have whole := whole_taken follows live reading idle positive moved
  obtain ⟨takes, completed, origin⟩ := transfer_spec positive moved
  have written : next.reader.written = d.reader.written := by
    obtain ⟨_, _, rest, _⟩ := takes
    rw [rest]
  refine ⟨sound, fun _ _ => ?_, fun _ => ?_, ?_, ?_⟩
  · rw [held, if_neg stays]
    exact whole
  · change next.source ∈ next.reader.written
    rw [written]
    rcases origin with ⟨begun, _, source, _⟩ | ⟨_, queued, _, _⟩
    · rw [source]
      exact follows.begun (Or.inr (by rw [begun]; simp))
    · exact follows.queued _ (by rw [queued]; exact List.mem_cons_self)
  · change ∀ m ∈ next.reader.queue, m ∈ next.reader.written
    rw [written]
    intro m inside
    rcases origin with ⟨_, queued, _, _⟩ | ⟨_, queued, _, _⟩
    · exact follows.queued m (queued ▸ inside)
    · exact follows.queued m (by rw [queued]; exact List.mem_cons_of_mem _ inside)
  · change ∀ m ∈ next.completed, m ∈ next.reader.written
    rw [written, completed]
    exact follows.completed

theorem follows_receive (follows : Follows d) (io : d.reader.io = .done chunk more) :
    Follows (d.receive chunk more) := by
  have sound := sound_receive follows.sound io
  have transit : InTransit d.reader := Or.inl (by rw [io]; rfl)
  obtain ⟨live, reading⟩ := busy_live follows.sound (by rw [io]; simp)
  unfold Delivery.receive
  rcases receive_cases d.reader chunk more with ⟨_, same⟩ | ⟨_, rfl, same⟩ | ⟨_, rfl, same⟩
  · rw [same] at sound ⊢
    exact
      { sound := sound
        whole := fun _ live => absurd (Or.inr rfl) live
        begun := fun _ => follows.begun transit
        queued := follows.queued
        completed := follows.completed }
  · rw [same] at sound ⊢
    refine ⟨sound, fun _ _ => ?_, fun _ => follows.begun transit, follows.queued, follows.completed⟩
    have whole := follows.whole transit live
    rw [held, if_neg reading, io] at whole
    rw [held, if_neg (by simp)]
    simpa [Io.bytes] using whole
  -- The message is complete, so nothing of it is in transit any more.
  · rw [same] at sound ⊢
    obtain ⟨left, _⟩ := follows.sound.done chunk false io
    rw [Option.isSome_eq_false_iff, Option.isNone_iff_eq_none] at left
    have complete : ¬ InTransit { d.reader.finish .ok with
        returned := d.reader.returned ++ [d.reader.outMsg ++ chunk] } := by
      rintro (done | remains)
      · cases done
      · exact remains left
    refine ⟨sound, fun transit => absurd transit complete, fun transit => absurd transit complete,
      follows.queued, ?_⟩
    intro m inside
    rcases List.mem_append.mp inside with old | new
    · exact follows.completed m old
    · rw [List.mem_singleton.mp new]
      exact follows.begun transit

/-- A message is returned whole exactly when no slice timed out in the middle of it. -/
theorem receive_exact (follows : Follows d) (intact : d.reader.returned = d.completed)
    (io : d.reader.io = .done chunk more) :
    (d.receive chunk more).reader.returned = (d.receive chunk more).completed ↔
      (more = false → d.reader.Accepts chunk → d.interrupted = false) := by
  obtain ⟨live, reading⟩ := busy_live follows.sound (by rw [io]; simp)
  unfold Delivery.receive
  rcases receive_cases d.reader chunk more with
    ⟨refused, same⟩ | ⟨_, rfl, same⟩ | ⟨accepts, rfl, same⟩
  · rw [same]
    exact iff_of_true intact fun _ accepts => absurd accepts refused
  · rw [same]
    exact iff_of_true intact fun more => by cases more
  · rw [same]
    obtain ⟨left, _⟩ := follows.sound.done chunk false io
    rw [Option.isSome_eq_false_iff, Option.isNone_iff_eq_none] at left
    obtain ⟨dropped, whole, lost⟩ := follows.whole (Or.inl (by rw [io]; rfl)) live
    rw [held, if_neg reading, io, left] at whole
    change d.reader.returned ++ [d.reader.outMsg ++ chunk] = d.completed ++ [d.source] ↔ _
    rw [intact, List.append_cancel_left_eq, List.cons.injEq]
    have whole : d.source = dropped ++ (d.reader.outMsg ++ chunk) := by
      simpa [Io.bytes] using whole
    rw [whole, List.self_eq_append_left]
    constructor
    · rintro ⟨none, _⟩ _ _
      rw [← Bool.not_eq_true, lost, none]
      exact not_not_intro rfl
    · intro uninterrupted
      have none := uninterrupted rfl accepts
      rw [← Bool.not_eq_true, lost, not_not] at none
      exact ⟨none, rfl⟩

theorem done_iff {s : State} (sound : Sound s) (remains : s.remainder ≠ none) :
    s.io.isDone = true ↔ s.io.bytes ≠ [] := by
  cases io : s.io with
  | done chunk more =>
    obtain ⟨isMore, short⟩ := sound.done chunk more io
    refine iff_of_true rfl fun empty => ?_
    rw [(short empty).2, Option.isSome_eq_false_iff, Option.isNone_iff_eq_none] at isMore
    exact remains isMore
  | none | pending | broken | failed => exact iff_of_false (by simp [Io.isDone]) (by simp [Io.bytes])

theorem follows_cancel (follows : Follows d)
    (stepped : d.interrupt.follow .cancelIoEx = some next) : Follows next := by
  obtain ⟨reader, cancelled, rfl⟩ := follow_eq_some.mp stepped
  have sound := sound_cancelIoEx follows.sound cancelled
  have lost {result : PipeReadResult} (lost : Lost (.returned (some result)))
      (sound : Sound (d.reader.finish result)) :
      Follows { d.interrupt with reader := d.reader.finish result } :=
    { sound := sound
      whole := fun _ live => absurd lost live
      begun := fun transit => follows.begun (transit.imp_left fun done => by cases done)
      queued := follows.queued
      completed := follows.completed }
  change d.reader.cancelIoEx = some reader at cancelled
  unfold State.cancelIoEx at cancelled
  split at cancelled
  next phase =>
    cases cancelled
    refine ⟨sound, fun transit _ => ?_, fun transit => ?_, follows.queued, follows.completed⟩
    · have remains := transit.resolve_left Bool.false_ne_true
      obtain ⟨dropped, whole, lost⟩ := follows.whole (Or.inr remains) (by simp [phase, Lost])
      rw [held, if_neg (by simp [phase])] at whole
      refine ⟨dropped ++ (d.reader.outMsg ++ d.reader.io.bytes), ?_, ?_⟩
      · change d.source = _
        rw [whole, held, if_pos rfl, List.nil_append]
        exact (List.append_assoc _ _ _).symm
      · have done := done_iff follows.sound remains
        simp only [Delivery.interrupt, phase, Bool.or_eq_true, Bool.and_eq_true, decide_true,
          true_and, decide_eq_true_eq, ne_eq, List.append_eq_nil_iff, not_and_or, lost, done]
    · exact follows.begun (Or.inr (transit.resolve_left Bool.false_ne_true))
  next =>
    cases cancelled
    exact lost (Or.inl rfl) sound
  next =>
    cases cancelled
    exact lost (Or.inr rfl) sound
  next => cases cancelled

theorem cancel_returned {s next : State} (stepped : s.cancelIoEx = some next) :
    next.returned = s.returned := by
  unfold State.cancelIoEx at stepped
  split at stepped
  next => cases stepped; rfl
  next => cases stepped; rfl
  next => cases stepped; rfl
  next => cases stepped

theorem follows_plain (follows : Follows d) {reader : State} (sound : Sound reader)
    (plain : Plain d.reader reader) : Follows { d with reader := reader } := by
  have before (transit : InTransit reader) : InTransit d.reader :=
    transit.imp plain.io fun remains => plain.remainder ▸ remains
  refine ⟨sound, fun transit live => ?_, fun transit => ?_, fun m inside => ?_, fun m inside => ?_⟩
  · obtain ⟨live, same⟩ := plain.carries live
    rw [same]
    exact follows.whole (before transit) live
  · exact plain.written _ (follows.begun (before transit))
  · rcases plain.queue m inside with old | new
    · exact plain.written m (follows.queued m old)
    · exact new
  · exact plain.written m (follows.completed m inside)

theorem follows_atOnce (follows : Follows d) (phase : d.reader.phase = .issue) {bytes : Nat}
    (positive : 0 < bytes) (moved : d.transfer bytes = some (chunk, more, next)) :
    Follows { next with reader := next.reader.arrived chunk more } ∧
      { next with reader := next.reader.arrived chunk more }.receive chunk more =
        next.receive chunk more := by
  have idle : d.reader.io.isDone = false := by rw [follows.sound.idle (Or.inl phase)]; rfl
  have live : ¬ Lost d.reader.phase := by simp [phase, Lost]
  have reading : d.reader.phase ≠ .polling := by simp [phase]
  obtain ⟨takes, _⟩ := transfer_spec positive moved
  refine ⟨?_, ?_⟩
  · exact follows_taken follows live reading idle positive moved (by simp)
      (sound_arrived follows.sound reading idle takes)
  · simp only [Delivery.receive, receive_arrived]

theorem Follows.step (d : Delivery) (move : Move) (next : Delivery) (follows : Follows d)
    (stepped : step d move = some next) : Follows next := by
  rcases step_cases stepped with ⟨chunk, more, taken, _, phase, moved, rfl⟩ |
    ⟨chunk, more, _, _, io, rfl⟩ | ⟨chunk, more, taken, _, pending, moved, rfl⟩ |
    ⟨_, cancelled⟩ | ⟨notCancel, followed, drained, notDone⟩
  · obtain ⟨arrived, same⟩ := follows_atOnce follows phase move.positive moved
    rw [← same]
    exact follows_receive arrived rfl
  · exact follows_receive follows io
  · obtain ⟨live, reading⟩ := busy_live follows.sound (by rw [pending]; simp)
    obtain ⟨takes, _⟩ := transfer_spec move.positive moved
    have sound := sound_taken follows.sound pending takes
    have stays : taken.reader.phase ≠ .polling := by
      obtain ⟨_, _, rest, _⟩ := takes
      rw [rest]
      exact reading
    exact follows_taken follows live reading (by rw [pending]; rfl) move.positive moved stays sound
  · exact follows_cancel follows cancelled
  · obtain ⟨reader, plainly, rfl⟩ := follow_eq_some.mp followed
    exact follows_plain follows (Sound.step d.reader move.event reader follows.sound plainly)
      (Plain.of_step follows.sound plainly notCancel drained notDone)

/-- The condition on one step: where it returns a message, no slice has timed out since
the first fragment of the message was taken. -/
def Uninterrupted (d : Delivery) (move : Move) : Prop :=
  match move.event with
  | .issue .atOnce => ∀ chunk taken, d.transfer move.bytes = some (chunk, false, taken) →
      d.reader.Accepts chunk → taken.interrupted = false
  | .wait .object0 => ∀ chunk, d.reader.io = .done chunk false →
      d.reader.Accepts chunk → d.interrupted = false
  | _ => True

theorem uninterrupted_of {move : Move} (notOnce : move.event ≠ .issue .atOnce)
    (notWait : move.event ≠ .wait .object0) : Uninterrupted d move := by
  unfold Uninterrupted
  split
  next once => exact absurd once notOnce
  next wait => exact absurd wait notWait
  next => trivial

/-- What a step takes from the pipe, no step before the read's end returns. -/
theorem returned_exact (follows : Follows d) (intact : d.reader.returned = d.completed)
    {move : Move} (stepped : step d move = some next) :
    next.reader.returned = next.completed ↔ Uninterrupted d move := by
  rcases step_cases stepped with ⟨chunk, more, taken, once, phase, moved, rfl⟩ |
    ⟨chunk, more, wait, _, io, rfl⟩ | ⟨chunk, more, taken, event, pending, moved, rfl⟩ |
    ⟨event, cancelled⟩ | ⟨notCancel, followed, drained, notDone⟩
  · obtain ⟨arrived, same⟩ := follows_atOnce follows phase move.positive moved
    obtain ⟨takes, completed, _⟩ := transfer_spec move.positive moved
    obtain ⟨queue, remainder, rest, _⟩ := takes
    have intact : taken.reader.returned = taken.completed := by
      rw [completed, ← intact, rest]
    have room : (taken.reader.arrived chunk more).Accepts chunk ↔ d.reader.Accepts chunk := by
      rw [rest]
      exact Iff.rfl
    rw [← same, receive_exact arrived intact rfl, room, Uninterrupted, once]
    dsimp only
    rw [moved]
    constructor
    · intro whole chunk taken same accepts
      cases same
      exact whole rfl accepts
    · rintro whole rfl accepts
      exact whole chunk taken rfl accepts
  · rw [receive_exact follows intact io, Uninterrupted, wait]
    dsimp only
    rw [io]
    constructor
    · intro whole chunk same accepts
      cases same
      exact whole rfl accepts
    · rintro whole rfl accepts
      exact whole chunk rfl accepts
  · obtain ⟨takes, completed, _⟩ := transfer_spec move.positive moved
    obtain ⟨queue, remainder, rest, _⟩ := takes
    refine iff_of_true ?_ (uninterrupted_of (by simp [event]) (by simp [event]))
    change taken.reader.returned = taken.completed
    rw [completed, ← intact, rest]
  · obtain ⟨reader, givenUp, rfl⟩ := follow_eq_some.mp cancelled
    refine iff_of_true ?_ (uninterrupted_of (by simp [event]) (by simp [event]))
    have same : d.reader.cancelIoEx = some reader := givenUp
    exact (cancel_returned same).trans intact
  · obtain ⟨reader, plainly, rfl⟩ := follow_eq_some.mp followed
    have plain := Plain.of_step follows.sound plainly notCancel drained notDone
    refine iff_of_true (plain.returned.trans intact) ?_
    unfold Uninterrupted
    split
    -- Nothing is left to deliver, or the read that is waited for has brought nothing.
    next once =>
      intro chunk taken moved
      obtain ⟨_, some, _⟩ := Option.map_eq_some_iff.mp moved
      cases (transferUpTo_none.mpr (drained (Or.inl once))).symm.trans some
    next wait =>
      intro chunk io
      have none := notDone wait
      rw [io] at none
      cases none
    next => trivial

end Follows

theorem follows_initial : Follows Delivery.initial where
  sound := sound_initial
  whole transit := by simp [InTransit, Delivery.initial, State.initial, Io.isDone] at transit
  begun transit := by simp [InTransit, Delivery.initial, State.initial, Io.isDone] at transit
  queued _ inside := by cases inside
  completed _ inside := by cases inside

/-- However the messages are cut into fragments, every read that returns `Ok` returns a
whole message, exactly when no read ends a message in the middle of which a slice has
timed out. -/
theorem message_intact_iff (moves : List Move) (final : Delivery)
    (ran : Transition.run step Delivery.initial moves = some final) :
    (∀ d, Transition.Visits step Delivery.initial moves d → Intact d) ↔
      Transition.Meets step Uninterrupted Delivery.initial moves := by
  refine Transition.visits_iff_meets Follows Intact Follows.step ?_ follows_initial
    ⟨rfl, fun _ inside => by cases inside⟩ ran
  intro d move next follows intact stepped
  have exact := returned_exact follows intact.1 stepped
  exact ⟨fun whole => exact.mp whole.1,
    fun uninterrupted => ⟨exact.mpr uninterrupted, (follows.step d move next stepped).completed⟩⟩

def byteWise (event : Event) : Move := ⟨1, Nat.one_pos, event⟩

def steadyMoves : List Move :=
  [byteWise .call, byteWise (.issue .pends), byteWise (.write sampleMessage), byteWise .complete,
    byteWise (.wait .object0), byteWise (.issue .atOnce)]

theorem message_intact_steady :
    (Transition.run step Delivery.initial steadyMoves).map (fun d => d.reader.returned) =
        some [sampleMessage] ∧
      ∀ d, Transition.Visits step Delivery.initial steadyMoves d → Intact d := by
  have returned : (Transition.run step Delivery.initial steadyMoves).map
      (fun d => d.reader.returned) = some [sampleMessage] := by decide
  obtain ⟨final, ran, _⟩ := Option.map_eq_some_iff.mp returned
  refine ⟨returned, (message_intact_iff steadyMoves final ran).mpr ?_⟩
  iterate 4 apply Transition.meets_cons trivial rfl
  -- The first fragment ends no message; the second ends one that was not interrupted.
  apply Transition.meets_cons _ rfl
  apply Transition.meets_cons _ rfl
  · trivial
  · intro chunk taken moved _
    cases moved
    rfl
  · intro chunk io
    cases io

def tornMoves : List Move :=
  [byteWise .call, byteWise (.issue .pends), byteWise (.write sampleMessage), byteWise .complete,
    byteWise (.wait .object0), byteWise (.issue .pends), byteWise (.wait .timeout),
    byteWise .cancelIoEx, byteWise (.poll false), byteWise (.issue .atOnce)]

/-- The second fragment alone is returned. -/
theorem message_torn :
    ∃ d, Transition.run step Delivery.initial tornMoves = some d ∧
      d.reader.written = [sampleMessage] ∧ d.reader.phase = .returned (some .ok) ∧
      d.reader.returned = [sampleMessage.drop 1] ∧ ¬ Intact d := by
  refine ⟨_, rfl, rfl, rfl, rfl, ?_⟩
  intro intact
  have torn : [sampleMessage.drop 1] = [sampleMessage] := intact.1
  cases torn

end Dot1xCP.Broker.Fragments
