import Dot1xCP.Broker.Pipe
import Dot1xCP.Lib.Transition

/-! The broker's end of the pipe and `ReadPipeMessageUntilDone` at the other.

The two are joined by the queue of a message-mode pipe. A read is issued, completed by
the system, waited for and cancelled in separate steps, and the broker may write or exit
between any two of them. The reader is called again while the session goes on, always with
a process handle. How long a step takes is left open, so a slice may time out at any point.
-/

set_option autoImplicit false

namespace Dot1xCP.Broker.Transport

abbrev Message := List UInt8

def kBufferBytes : Nat := 8192

def kMaxMsgBytes : Nat := 256 * 1024

/-- What the system knows of the overlapped read. -/
inductive Io where
  | none
  | pending
  | done (chunk : List UInt8) (more : Bool)
  | broken
  | failed
  deriving DecidableEq, Repr

inductive Phase where
  /-- Not inside the function; what it returned last. -/
  | returned (result : Option PipeReadResult)
  | issue
  | waiting
  /-- The wait is over, `CancelIoEx` comes next. -/
  | timedOut
  | exitSeen
  | waitFailed
  /-- A slice has timed out, the exit poll comes next. -/
  | polling
  deriving DecidableEq, Repr

structure State where
  writerOpen : Bool
  alive : Bool
  queue : List Message
  /-- What is left in the pipe of a message that has been read in part. -/
  remainder : Option Message
  phase : Phase
  outMsg : List UInt8
  io : Io
  /-- All messages written so far, and all returned with `Ok`. -/
  written : List Message
  returned : List Message
  deriving DecidableEq, Repr

def State.initial : State where
  writerOpen := true
  alive := true
  queue := []
  remainder := none
  phase := .returned none
  outMsg := []
  io := .none
  written := []
  returned := []

def State.deliver (s : State) (m : Message) : List UInt8 × Bool × State :=
  if m.length ≤ kBufferBytes then (m, false, { s with remainder := none })
  else (m.take kBufferBytes, true, { s with remainder := some (m.drop kBufferBytes) })

def State.transfer (s : State) : Option (List UInt8 × Bool × State) :=
  match s.remainder, s.queue with
  | some rest, _ => some (s.deliver rest)
  | none, m :: queue => some ({ s with queue := queue }.deliver m)
  | none, [] => none

def State.finish (s : State) (result : PipeReadResult) : State :=
  { s with phase := .returned (some result), outMsg := [], io := .none }

/-- What follows a read that brought bytes, at once or after a wait. -/
def State.receive (s : State) (chunk : List UInt8) (more : Bool) : State :=
  if chunk = [] then s.finish .failed
  else
    let outMsg := s.outMsg ++ chunk
    -- The limit is checked after the chunk has been appended.
    if kMaxMsgBytes < outMsg.length then s.finish .failed
    else if more then { s with phase := .issue, outMsg := outMsg, io := .none }
    else { s.finish .ok with returned := s.returned ++ [outMsg] }

inductive Issue where
  | noEvent
  | error
  | atOnce
  | pends
  deriving DecidableEq, Repr

inductive Wait where
  | object0
  | object1
  | timeout
  | failed
  deriving DecidableEq, Repr

inductive Event where
  | write (m : Message)
  | closeEnd
  | exit
  | call
  | issue (outcome : Issue)
  | complete
  | completeFailed
  | wait (outcome : Wait)
  | cancelIoEx
  /-- The exit poll and the check of the overall time. -/
  | poll (elapsed : Bool)
  deriving DecidableEq, Repr

def mayCall : Option PipeReadResult → Bool
  | some .brokerExited | some .failed => false
  | _ => true

def State.issueRead (s : State) : Issue → Option State
  | .noEvent | .error => some (s.finish .failed)
  | .atOnce =>
    match s.transfer with
    | some (chunk, more, next) => some (next.receive chunk more)
    -- An empty pipe that cannot be written to is broken; one that can, makes the read wait.
    | none => if s.writerOpen then none else some (s.finish .brokerExited)
  | .pends => some { s with phase := .waiting, io := .pending }

def State.complete (s : State) : Option State :=
  match s.transfer with
  | some (chunk, more, next) => some { next with io := .done chunk more }
  | none => if s.writerOpen then none else some { s with io := .broken }

/-- `WaitForMultipleObjects`: the read counts before the process, and both before the
timeout. -/
def State.waitOver (s : State) : Wait → Option State
  | .object0 =>
    match s.io with
    | .done chunk more => some (s.receive chunk more)
    | .broken => some (s.finish .brokerExited)
    | .failed => some (s.finish .failed)
    | .none | .pending => none
  | .object1 => if s.io = .pending ∧ s.alive = false then some { s with phase := .exitSeen } else none
  | .timeout => if s.io = .pending ∧ s.alive = true then some { s with phase := .timedOut } else none
  | .failed => some { s with phase := .waitFailed }

def State.cancelIoEx (s : State) : Option State :=
  match s.phase with
  -- The result of the read is not asked for, whether it was cancelled or had completed.
  | .timedOut => some { s with phase := .polling, io := .none }
  | .exitSeen => some (s.finish .brokerExited)
  | .waitFailed => some (s.finish .failed)
  | _ => none

def State.poll (s : State) (elapsed : Bool) : State :=
  if s.alive = false then s.finish .brokerExited
  else if elapsed then s.finish .timeout
  -- The next slice clears `outMsg`, also when a part of a message is in it.
  else { s with phase := .issue, outMsg := [] }

def step (s : State) : Event → Option State
  | .write m =>
    if s.writerOpen then some { s with queue := s.queue ++ [m], written := s.written ++ [m] } else none
  | .closeEnd => some { s with writerOpen := false }
  | .exit => some { s with writerOpen := false, alive := false }
  | .call =>
    match s.phase with
    | .returned result => if mayCall result then some { s with phase := .issue, outMsg := [] } else none
    | _ => none
  | .issue outcome => if s.phase = .issue then s.issueRead outcome else none
  | .complete => if s.io = .pending then s.complete else none
  | .completeFailed => if s.io = .pending then some { s with io := .failed } else none
  | .wait outcome => if s.phase = .waiting then s.waitOver outcome else none
  | .cancelIoEx => s.cancelIoEx
  | .poll elapsed => if s.phase = .polling then some (s.poll elapsed) else none

def Io.bytes : Io → List UInt8
  | .done chunk _ => chunk
  | _ => []

def Io.isDone : Io → Bool
  | .done _ _ => true
  | _ => false

/-- The message of which the reader holds a part, if there is one. -/
def State.inFlight (s : State) : List Message :=
  if s.outMsg = [] ∧ s.remainder = none ∧ s.io.isDone = false then []
  else [s.outMsg ++ s.io.bytes ++ s.remainder.getD []]

/-- Every message written was returned, is being read or is queued, in the order of
writing. -/
def State.Kept (s : State) : Prop := s.written = s.returned ++ s.inFlight ++ s.queue

/-- Nothing is lost, and the exit is reported only when nothing is left to read. -/
structure NothingLost (s : State) : Prop where
  kept : s.Kept
  drained : s.phase = .returned (some .brokerExited) → s.returned = s.written

def State.Untouched (s : State) : Prop := s.outMsg = [] ∧ s.io.isDone = false

def State.Drained (s : State) : Prop := s.remainder = none ∧ s.queue = []

def State.Accepts (s : State) (chunk : List UInt8) : Prop :=
  chunk ≠ [] ∧ (s.outMsg ++ chunk).length ≤ kMaxMsgBytes

/-- The condition on one step: a read that the reader gives up has not brought anything,
an exit is seen only when the pipe is empty, and what was read fits. -/
def Careful (s : State) : Event → Prop
  | .issue .noEvent | .issue .error => s.Untouched
  | .issue .atOnce => ∀ chunk more next, s.transfer = some (chunk, more, next) → s.Accepts chunk
  | .wait .object0 =>
    (∀ chunk more, s.io = .done chunk more → s.Accepts chunk) ∧ (s.io = .failed → s.Untouched)
  | .cancelIoEx =>
    (s.phase = .timedOut → s.io.isDone = false) ∧ (s.phase = .exitSeen → s.Untouched ∧ s.Drained) ∧
      (s.phase = .waitFailed → s.Untouched)
  | .poll _ => s.Untouched ∧ (s.alive = false → s.Drained)
  | _ => True

/-! ## What holds in every state -/

structure Sound (s : State) : Prop where
  remainder : s.remainder ≠ some []
  begun : s.phase ≠ .polling → s.outMsg ≠ [] → s.io.isDone = false → s.remainder ≠ none
  done : ∀ chunk more, s.io = .done chunk more →
    s.remainder.isSome = more ∧ (chunk = [] → s.outMsg = [] ∧ more = false)
  broken : s.io = .broken → s.Drained ∧ s.writerOpen = false
  quiet : s.io ≠ .none → s.phase = .waiting ∨ s.phase = .timedOut ∨ s.phase = .exitSeen ∨
    s.phase = .waitFailed
  outside : ∀ result, s.phase = .returned result → s.outMsg = []
  exited : s.alive = false → s.writerOpen = false
  ended : s.phase = .exitSeen ∨ s.phase = .returned (some .brokerExited) → s.writerOpen = false
  bounded : ∀ m ∈ s.returned, m ≠ [] ∧ m.length ≤ kMaxMsgBytes

theorem sound_initial : Sound State.initial where
  remainder := by decide
  begun _ outMsg := absurd rfl outMsg
  done _ _ io := by cases io
  broken io := by cases io
  quiet io := absurd rfl io
  outside _ _ := rfl
  exited alive := by cases alive
  ended := by decide
  bounded := by simp [State.initial]

section Transfer
variable {s next : State} {chunk : List UInt8} {more : Bool}

/-- A system that delivers at most so many bytes at a time. -/
def State.deliverUpTo (bytes : Nat) (s : State) (m : Message) : List UInt8 × Bool × State :=
  if m.length ≤ bytes then (m, false, { s with remainder := none })
  else (m.take bytes, true, { s with remainder := some (m.drop bytes) })

def State.transferUpTo (bytes : Nat) (s : State) : Option (List UInt8 × Bool × State) :=
  match s.remainder, s.queue with
  | some rest, _ => some (s.deliverUpTo bytes rest)
  | none, m :: queue => some ({ s with queue := queue }.deliverUpTo bytes m)
  | none, [] => none

theorem transfer_eq (s : State) : s.transfer = s.transferUpTo kBufferBytes := rfl

theorem deliverUpTo_spec {bytes : Nat} (positive : 0 < bytes) {m : Message}
    (same : s.deliverUpTo bytes m = (chunk, more, next)) :
    ∃ remainder, next = { s with remainder := remainder } ∧ remainder.isSome = more ∧
      remainder ≠ some [] ∧ (more = true → chunk ≠ []) ∧ chunk ++ remainder.getD [] = m := by
  unfold State.deliverUpTo at same
  split at same
  next short =>
    cases same
    exact ⟨none, rfl, rfl, by simp, by simp, by simp⟩
  next long =>
    cases same
    have exceeds : bytes < m.length := Nat.lt_of_not_le long
    refine ⟨some (m.drop bytes), rfl, rfl, ?_, fun _ => ?_, List.take_append_drop _ m⟩
    · rw [ne_eq, Option.some_inj, List.drop_eq_nil_iff]
      exact long
    · rw [ne_eq, List.take_eq_nil_iff]
      rintro (zero | rfl)
      · exact absurd zero (Nat.ne_of_gt positive)
      · cases exceeds

def State.Takes (s : State) (chunk : List UInt8) (more : Bool) (next : State) : Prop :=
  ∃ queue remainder, next = { s with queue := queue, remainder := remainder } ∧
    remainder.isSome = more ∧ remainder ≠ some [] ∧ (more = true → chunk ≠ []) ∧
    ((s.remainder = some (chunk ++ remainder.getD []) ∧ queue = s.queue) ∨
      (s.remainder = none ∧ s.queue = (chunk ++ remainder.getD []) :: queue))

theorem transferUpTo_spec {bytes : Nat} (positive : 0 < bytes)
    (moved : s.transferUpTo bytes = some (chunk, more, next)) : s.Takes chunk more next := by
  unfold State.transferUpTo at moved
  split at moved
  next _ rest left =>
    obtain ⟨remainder, same, isMore, nonempty, some, whole⟩ :=
      deliverUpTo_spec positive (Option.some_inj.mp moved)
    exact ⟨s.queue, remainder, same, isMore, nonempty, some, Or.inl ⟨by rw [left, whole], rfl⟩⟩
  next m queue left queued =>
    obtain ⟨remainder, same, isMore, nonempty, some, whole⟩ :=
      deliverUpTo_spec positive (Option.some_inj.mp moved)
    exact ⟨queue, remainder, same, isMore, nonempty, some, Or.inr ⟨left, by rw [queued, whole]⟩⟩
  next => cases moved

theorem transfer_spec (moved : s.transfer = some (chunk, more, next)) :
    s.Takes chunk more next := by
  rw [transfer_eq] at moved
  exact transferUpTo_spec (by decide) moved

theorem transferUpTo_none {bytes : Nat} : s.transferUpTo bytes = none ↔ s.Drained := by
  unfold State.transferUpTo
  split
  next left => exact iff_of_false (by simp) fun drained => by cases left.symm.trans drained.1
  next left queued => exact iff_of_false (by simp) fun drained => by cases queued.symm.trans drained.2
  next left queued => exact iff_of_true rfl ⟨left, queued⟩

theorem transfer_none (empty : s.transfer = none) : s.Drained :=
  transferUpTo_none.mp empty

def State.arrived (next : State) (chunk : List UInt8) (more : Bool) : State :=
  { next with phase := .waiting, io := .done chunk more }

theorem receive_arrived (next : State) (chunk : List UInt8) (more : Bool) :
    (next.arrived chunk more).receive chunk more = next.receive chunk more := by
  unfold State.receive
  split_ifs <;> rfl

/-- A chunk that has arrived is the front of the message that was next. -/
theorem sound_arrived (sound : Sound s) (phase : s.phase ≠ .polling) (idle : s.io.isDone = false)
    (moved : s.Takes chunk more next) : Sound (next.arrived chunk more) := by
  obtain ⟨queue, remainder, rfl, isMore, nonempty, bytes, origin⟩ := moved
  have short (empty : chunk = []) : more = false := by
    cases more with
    | false => rfl
    | true => exact absurd empty (bytes rfl)
  -- An empty chunk is a whole empty message, so nothing of it was read before.
  have fresh (empty : chunk = []) : s.outMsg = [] := by
    by_contra begun
    rw [short empty, Option.isSome_eq_false_iff, Option.isNone_iff_eq_none] at isMore
    rcases origin with ⟨left, _⟩ | ⟨left, _⟩
    · rw [empty, isMore] at left
      exact sound.remainder left
    · exact sound.begun phase begun idle left
  exact
    { remainder := nonempty
      begun := fun _ _ other => by cases other
      done := fun _ _ io => by
        cases io
        exact ⟨isMore, fun empty => ⟨fresh empty, short empty⟩⟩
      broken := fun io => by cases io
      quiet := fun _ => Or.inl rfl
      outside := fun _ phase => by cases phase
      exited := sound.exited
      ended := by simp [State.arrived]
      bounded := sound.bounded }

end Transfer

section Reader
variable {s : State} {chunk : List UInt8} {more : Bool}

theorem sound_finish (sound : Sound s) {result : PipeReadResult}
    (lost : result = .brokerExited → s.writerOpen = false) : Sound (s.finish result) where
  remainder := sound.remainder
  begun _ outMsg := absurd rfl outMsg
  done _ _ io := by cases io
  broken io := by cases io
  quiet io := absurd rfl io
  outside _ _ := rfl
  exited := sound.exited
  ended := by
    rintro (seen | returned)
    · cases seen
    · cases returned
      exact lost rfl
  bounded := sound.bounded

theorem sound_receive (sound : Sound s) (io : s.io = .done chunk more) :
    Sound (s.receive chunk more) := by
  obtain ⟨isMore, _⟩ := sound.done chunk more io
  unfold State.receive
  by_cases empty : chunk = []
  · rw [if_pos empty]
    exact sound_finish sound (by simp)
  · rw [if_neg empty]
    dsimp only
    split_ifs with large rest
    · exact sound_finish sound (by simp)
    · exact
        { remainder := sound.remainder
          begun := fun _ _ _ left => by
            rw [rest, Option.isSome_iff_ne_none] at isMore
            exact isMore left
          done := fun _ _ io => by cases io
          broken := fun io => by cases io
          quiet := fun io => absurd rfl io
          outside := fun _ phase => by cases phase
          exited := sound.exited
          ended := by simp
          bounded := sound.bounded }
    · have finished := sound_finish sound (show PipeReadResult.ok = .brokerExited → _ by simp)
      refine { finished with bounded := ?_ }
      intro m inside
      rcases List.mem_append.mp inside with old | new
      · exact sound.bounded m old
      · rw [List.mem_singleton] at new
        subst new
        exact ⟨by simp [empty], Nat.le_of_not_lt large⟩

/-- There is a read only while the reader waits for it or is about to cancel it. -/
theorem Sound.idle (sound : Sound s)
    (outside : s.phase = .issue ∨ s.phase = .polling ∨ ∃ result, s.phase = .returned result) :
    s.io = .none := by
  by_contra busy
  rcases outside with phase | phase | ⟨result, phase⟩ <;>
    rcases sound.quiet busy with other | other | other | other <;> cases phase.symm.trans other

theorem sound_issueRead (sound : Sound s) (phase : s.phase = .issue) {outcome : Issue}
    {next : State} (stepped : s.issueRead outcome = some next) : Sound next := by
  have idle := sound.idle (Or.inl phase)
  cases outcome with
  | noEvent | error =>
    cases stepped
    exact sound_finish sound (by simp)
  | atOnce =>
    unfold State.issueRead at stepped
    dsimp only at stepped
    split at stepped
    next chunk more moved transferred =>
      cases stepped
      have arrived := sound_arrived sound (by rw [phase]; simp) (by rw [idle]; rfl)
        (transfer_spec transferred)
      rw [← receive_arrived]
      exact sound_receive arrived rfl
    next =>
      split at stepped
      next => cases stepped
      next closed =>
        cases stepped
        exact sound_finish sound fun _ => eq_false_of_ne_true closed
  | pends =>
    cases stepped
    exact
      { remainder := sound.remainder
        begun := fun _ begun _ => sound.begun (by rw [phase]; simp) begun (by rw [idle]; rfl)
        done := fun _ _ io => by cases io
        broken := fun io => by cases io
        quiet := fun _ => Or.inl rfl
        outside := fun _ phase => by cases phase
        exited := sound.exited
        ended := by simp
        bounded := sound.bounded }

theorem Sound.reading (sound : Sound s) (pending : s.io = .pending) : s.phase ≠ .polling := by
  rcases sound.quiet (by rw [pending]; simp) with phase | phase | phase | phase <;>
    rw [phase] <;> simp

theorem sound_taken (sound : Sound s) (pending : s.io = .pending) {next : State}
    (moved : s.Takes chunk more next) : Sound { next with io := .done chunk more } := by
  have arrived := sound_arrived sound (sound.reading pending) (by rw [pending]; rfl) moved
  obtain ⟨queue, remainder, rfl, _⟩ := moved
  exact { arrived with
    begun := fun _ _ other => by cases other
    quiet := fun _ => sound.quiet (by rw [pending]; simp)
    outside := sound.outside
    ended := sound.ended }

theorem sound_complete (sound : Sound s) (pending : s.io = .pending) {next : State}
    (stepped : s.complete = some next) : Sound next := by
  unfold State.complete at stepped
  split at stepped
  next chunk more moved transferred =>
    cases stepped
    exact sound_taken sound pending (transfer_spec transferred)
  next empty =>
    split at stepped
    next => cases stepped
    next closed =>
      cases stepped
      exact
        { sound with
          begun := fun reading begun _ => sound.begun reading begun (by rw [pending]; rfl)
          done := fun _ _ io => by cases io
          broken := fun _ => ⟨(transfer_none empty : s.Drained), eq_false_of_ne_true closed⟩
          quiet := fun _ => sound.quiet (by rw [pending]; simp) }

theorem sound_waitOver (sound : Sound s) (phase : s.phase = .waiting) {outcome : Wait} {next : State}
    (stepped : s.waitOver outcome = some next) : Sound next := by
  have waiting : s.phase ≠ .polling := by rw [phase]; simp
  cases outcome with
  | object0 =>
    unfold State.waitOver at stepped
    dsimp only at stepped
    split at stepped
    next chunk more io =>
      cases stepped
      exact sound_receive sound io
    next io =>
      cases stepped
      exact sound_finish sound fun _ => (sound.broken io).2
    next io =>
      cases stepped
      exact sound_finish sound (by simp)
    next => cases stepped
    next => cases stepped
  | object1 =>
    obtain ⟨⟨pending, dead⟩, same⟩ := Option.ite_none_right_eq_some.mp stepped
    cases same
    exact
      { sound with
        begun := fun _ => sound.begun waiting
        quiet := fun _ => Or.inr (Or.inr (Or.inl rfl))
        outside := fun _ phase => by cases phase
        ended := fun _ => sound.exited dead }
  | timeout =>
    obtain ⟨⟨pending, running⟩, same⟩ := Option.ite_none_right_eq_some.mp stepped
    cases same
    exact
      { sound with
        begun := fun _ => sound.begun waiting
        quiet := fun _ => Or.inr (Or.inl rfl)
        outside := fun _ phase => by cases phase
        ended := by simp }
  | failed =>
    cases stepped
    exact
      { sound with
        begun := fun _ => sound.begun waiting
        quiet := fun _ => Or.inr (Or.inr (Or.inr rfl))
        outside := fun _ phase => by cases phase
        ended := by simp }

theorem sound_cancelIoEx (sound : Sound s) {next : State} (stepped : s.cancelIoEx = some next) :
    Sound next := by
  unfold State.cancelIoEx at stepped
  split at stepped
  next phase =>
    cases stepped
    exact
      { sound with
        begun := fun reading => absurd rfl reading
        done := fun _ _ io => by cases io
        broken := fun io => by cases io
        quiet := fun io => absurd rfl io
        outside := fun _ phase => by cases phase
        ended := by simp }
  next phase =>
    cases stepped
    exact sound_finish sound fun _ => sound.ended (Or.inl phase)
  next phase =>
    cases stepped
    exact sound_finish sound (by simp)
  next => cases stepped

theorem sound_poll (sound : Sound s) (phase : s.phase = .polling) (elapsed : Bool) :
    Sound (s.poll elapsed) := by
  have idle := sound.idle (Or.inr (Or.inl phase))
  unfold State.poll
  split_ifs with dead late
  · exact sound_finish sound fun _ => sound.exited dead
  · exact sound_finish sound (by simp)
  · exact
      { sound with
        begun := fun _ outMsg => absurd rfl outMsg
        done := fun _ _ io => by cases idle.symm.trans io
        quiet := fun busy => absurd idle busy
        outside := fun _ _ => rfl
        ended := by simp }

theorem Sound.step (s : State) (event : Event) (next : State) (sound : Sound s)
    (stepped : step s event = some next) : Sound next := by
  cases event with
  -- A broken pipe has no writer, so a write cannot undo that the pipe is empty.
  | write m =>
    obtain ⟨writable, same⟩ := Option.ite_none_right_eq_some.mp stepped
    cases same
    exact
      { sound with
        broken := fun io => by cases (sound.broken io).2.symm.trans writable }
  | closeEnd =>
    cases stepped
    exact
      { sound with
        broken := fun io => ⟨(sound.broken io).1, rfl⟩
        exited := fun _ => rfl
        ended := fun _ => rfl }
  | exit =>
    cases stepped
    exact
      { sound with
        broken := fun io => ⟨(sound.broken io).1, rfl⟩
        exited := fun _ => rfl
        ended := fun _ => rfl }
  | call =>
    unfold Transport.step at stepped
    dsimp only at stepped
    split at stepped
    next result phase =>
      obtain ⟨_, same⟩ := Option.ite_none_right_eq_some.mp stepped
      cases same
      have idle := sound.idle (Or.inr (Or.inr ⟨result, phase⟩))
      exact
        { sound with
          begun := fun _ outMsg => absurd rfl outMsg
          done := fun _ _ io => by cases idle.symm.trans io
          quiet := fun busy => absurd idle busy
          outside := fun _ _ => rfl
          ended := by simp }
    next => cases stepped
  | issue outcome =>
    obtain ⟨phase, stepped⟩ := Option.ite_none_right_eq_some.mp stepped
    exact sound_issueRead sound phase stepped
  | complete =>
    obtain ⟨pending, stepped⟩ := Option.ite_none_right_eq_some.mp stepped
    exact sound_complete sound pending stepped
  | completeFailed =>
    obtain ⟨pending, same⟩ := Option.ite_none_right_eq_some.mp stepped
    cases same
    exact
      { sound with
        begun := fun reading begun _ => sound.begun reading begun (by rw [pending]; rfl)
        done := fun _ _ io => by cases io
        broken := fun io => by cases io
        quiet := fun _ => sound.quiet (by rw [pending]; simp) }
  | wait outcome =>
    obtain ⟨phase, stepped⟩ := Option.ite_none_right_eq_some.mp stepped
    exact sound_waitOver sound phase stepped
  | cancelIoEx => exact sound_cancelIoEx sound stepped
  | poll elapsed =>
    obtain ⟨phase, same⟩ := Option.ite_none_right_eq_some.mp stepped
    cases same
    exact sound_poll sound phase elapsed

end Reader

/-- What a read returns is a message that the decoder may be given: not empty, and not
longer than the transport allows. -/
theorem returned_fits {events : List Event} {final : State}
    (ran : Transition.run step State.initial events = some final) :
    ∀ m ∈ final.returned, m ≠ [] ∧ m.length ≤ kMaxMsgBytes :=
  (Transition.Reachable.invariant Sound.step sound_initial ⟨events, ran⟩).bounded

/-! ## Exactly the careful steps lose nothing -/

section Exact
variable {s : State} {chunk : List UInt8} {more : Bool}

theorem bytes_of_not_done {io : Io} (other : io.isDone = false) : io.bytes = [] := by
  cases io with
  | done chunk more => cases other
  | none | pending | broken | failed => rfl

theorem inFlight_finish (s : State) (result : PipeReadResult) :
    (s.finish result).inFlight = s.remainder.toList := by
  cases left : s.remainder with
  | none => simp [State.inFlight, State.finish, left, Io.isDone]
  | some rest => simp [State.inFlight, State.finish, left, Io.bytes]

theorem inFlight_untouched (untouched : s.Untouched) : s.inFlight = s.remainder.toList := by
  obtain ⟨outMsg, other⟩ := untouched
  cases left : s.remainder with
  | none => simp [State.inFlight, outMsg, left, other]
  | some rest => simp [State.inFlight, outMsg, left, bytes_of_not_done other]

theorem inFlight_eq_remainder (sound : Sound s) :
    s.inFlight = s.remainder.toList ↔ s.Untouched := by
  refine ⟨?_, inFlight_untouched⟩
  intro same
  by_contra touched
  have held : ¬ (s.outMsg = [] ∧ s.remainder = none ∧ s.io.isDone = false) :=
    fun ⟨outMsg, _, other⟩ => touched ⟨outMsg, other⟩
  rw [State.inFlight, if_neg held] at same
  cases left : s.remainder with
  | none => simp [left] at same
  | some rest =>
    rw [left] at same
    simp only [Option.getD_some, Option.toList_some, List.cons.injEq, and_true,
      List.append_left_eq_self, List.append_eq_nil_iff] at same
    refine touched ⟨same.1, ?_⟩
    cases io : s.io with
    -- An empty chunk in front of a remainder would have to be the whole message.
    | done chunk more =>
      have empty : chunk = [] := by simpa [io, Io.bytes] using same.2
      obtain ⟨isMore, short⟩ := sound.done chunk more io
      rw [left, (short empty).2] at isMore
      cases isMore
    | none | pending | broken | failed => rfl

theorem append_congr (front back : List Message) {first second : List Message} :
    front ++ first ++ back = front ++ second ++ back ↔ first = second := by
  rw [List.append_left_inj, List.append_right_inj]

/-- A return other than with a message drops nothing exactly when nothing was taken. -/
theorem finish_exact (sound : Sound s) (kept : s.Kept) (result : PipeReadResult) :
    NothingLost (s.finish result) ↔ s.Untouched ∧ (result = .brokerExited → s.Drained) := by
  have same : (s.finish result).Kept ↔ s.Untouched := by
    rw [← inFlight_eq_remainder sound, ← append_congr s.returned s.queue, ← kept, State.Kept,
      inFlight_finish]
    rfl
  constructor
  · rintro ⟨keptNow, drained⟩
    refine ⟨same.mp keptNow, ?_⟩
    intro exited
    subst exited
    have all : s.returned = s.written := drained rfl
    rw [kept, inFlight_untouched (same.mp keptNow), List.append_assoc, List.self_eq_append_right,
      List.append_eq_nil_iff, Option.toList_eq_nil_iff] at all
    exact all
  · rintro ⟨untouched, drained⟩
    refine ⟨same.mpr untouched, ?_⟩
    intro exited
    obtain ⟨left, queued⟩ := drained (by cases exited; rfl)
    change s.returned = s.written
    rw [kept, inFlight_untouched untouched, left, queued]
    simp

/-- A chunk that has arrived is lost exactly when it is refused. -/
theorem receive_exact (sound : Sound s) (kept : s.Kept) (io : s.io = .done chunk more) :
    NothingLost (s.receive chunk more) ↔ s.Accepts chunk := by
  have done : s.io.isDone = true := by rw [io]; rfl
  have refused (result : PipeReadResult) : ¬ NothingLost (s.finish result) := by
    rw [finish_exact sound kept]
    rintro ⟨⟨_, other⟩, _⟩
    rw [done] at other
    cases other
  obtain ⟨isMore, _⟩ := sound.done chunk more io
  have held : s.inFlight = [s.outMsg ++ chunk ++ s.remainder.getD []] := by
    simp [State.inFlight, io, Io.bytes, Io.isDone]
  unfold State.receive State.Accepts
  by_cases empty : chunk = []
  · rw [if_pos empty]
    exact iff_of_false (refused _) fun accepts => accepts.1 empty
  · rw [if_neg empty]
    dsimp only
    by_cases large : kMaxMsgBytes < (s.outMsg ++ chunk).length
    · rw [if_pos large]
      exact iff_of_false (refused _) fun accepts => Nat.not_lt_of_le accepts.2 large
    · rw [if_neg large]
      refine iff_of_true ⟨?_, ?_⟩ ⟨empty, Nat.le_of_not_lt large⟩
      · cases more with
        -- The chunk joins `outMsg`; it is still the front of the message in flight.
        | true =>
          unfold State.Kept at kept ⊢
          rw [kept, held]
          simp [State.inFlight, empty, Io.bytes]
        -- The message is complete and moves to what was returned.
        | false =>
          rw [Option.isSome_eq_false_iff, Option.isNone_iff_eq_none] at isMore
          unfold State.Kept at kept ⊢
          rw [held, isMore] at kept
          simp [State.inFlight, State.finish, isMore, kept, Io.isDone]
      · cases more <;> simp [State.finish]

theorem kept_arrived {next : State} (sound : Sound s) (phase : s.phase ≠ .polling)
    (idle : s.io.isDone = false) (kept : s.Kept) (moved : s.Takes chunk more next) :
    (next.arrived chunk more).Kept := by
  obtain ⟨queue, remainder, rfl, _, _, _, origin⟩ := moved
  have arrived : (State.arrived { s with queue := queue, remainder := remainder } chunk more).inFlight =
      [s.outMsg ++ (chunk ++ remainder.getD [])] := by
    simp [State.inFlight, State.arrived, Io.isDone, Io.bytes]
  unfold State.Kept at kept ⊢
  rw [arrived]
  change s.written = s.returned ++ _ ++ queue
  -- The rest of the message in flight, or the next one of the queue.
  rcases origin with ⟨left, rfl⟩ | ⟨left, queued⟩
  · rw [kept, State.inFlight, left, bytes_of_not_done idle]
    simp
  · have fresh : s.outMsg = [] := by
      by_contra begun
      exact sound.begun phase begun idle left
    rw [kept, queued, State.inFlight, if_pos ⟨fresh, left, idle⟩, fresh]
    simp

theorem inFlight_reading (phase : Phase) {io : Io} (before : s.io.isDone = false)
    (after : io.isDone = false) : { s with phase := phase, io := io }.inFlight = s.inFlight := by
  simp [State.inFlight, before, after, bytes_of_not_done before, bytes_of_not_done after]

theorem restart_exact (sound : Sound s) (kept : s.Kept) (idle : s.io = .none) :
    NothingLost { s with phase := .issue, outMsg := [] } ↔ s.Untouched := by
  have cleared : { s with phase := .issue, outMsg := [] }.inFlight = s.remainder.toList :=
    inFlight_untouched ⟨rfl, by rw [idle]; rfl⟩
  rw [← inFlight_eq_remainder sound, ← append_congr s.returned s.queue, ← kept, ← cleared]
  exact ⟨fun lost => lost.kept, fun keptNow => ⟨keptNow, by simp⟩⟩

theorem issueRead_exact {outcome : Issue} {next : State} (sound : Sound s) (kept : s.Kept)
    (phase : s.phase = .issue) (stepped : s.issueRead outcome = some next) :
    NothingLost next ↔ Careful s (.issue outcome) := by
  have idle := sound.idle (Or.inl phase)
  have reading : s.phase ≠ .polling := by rw [phase]; simp
  have notDone : s.io.isDone = false := by rw [idle]; rfl
  cases outcome with
  | noEvent | error =>
    cases stepped
    rw [finish_exact sound kept]
    simp [Careful]
  | atOnce =>
    unfold State.issueRead at stepped
    dsimp only at stepped
    split at stepped
    next chunk more moved transferred =>
      cases stepped
      have takes := transfer_spec transferred
      have outMsg : moved.outMsg = s.outMsg := by
        obtain ⟨_, _, rfl, _⟩ := takes
        rfl
      rw [← receive_arrived, receive_exact (sound_arrived sound reading notDone takes)
        (kept_arrived sound reading notDone kept takes) rfl]
      simp [Careful, transferred, State.Accepts, State.arrived, outMsg]
    -- A broken pipe was read to its end, and a part of a message would have left a rest.
    next empty =>
      split at stepped
      next => cases stepped
      next =>
        cases stepped
        have drained := transfer_none empty
        have untouched : s.Untouched := by
          refine ⟨?_, notDone⟩
          by_contra begun
          exact sound.begun reading begun notDone drained.1
        rw [finish_exact sound kept]
        refine iff_of_true ⟨untouched, fun _ => drained⟩ ?_
        intro chunk more next moved
        cases empty.symm.trans moved
  | pends =>
    cases stepped
    refine iff_of_true ⟨?_, by simp⟩ trivial
    unfold State.Kept
    rw [inFlight_reading .waiting notDone rfl]
    exact kept

theorem waitOver_exact {outcome : Wait} {next : State} (sound : Sound s) (kept : s.Kept)
    (phase : s.phase = .waiting) (stepped : s.waitOver outcome = some next) :
    NothingLost next ↔ Careful s (.wait outcome) := by
  have reading : s.phase ≠ .polling := by rw [phase]; simp
  cases outcome with
  | object0 =>
    unfold State.waitOver at stepped
    dsimp only at stepped
    split at stepped
    next chunk more io =>
      cases stepped
      rw [receive_exact sound kept io]
      simp [Careful, io]
    next io =>
      cases stepped
      have drained := (sound.broken io).1
      have notDone : s.io.isDone = false := by rw [io]; rfl
      have untouched : s.Untouched := by
        refine ⟨?_, notDone⟩
        by_contra begun
        exact sound.begun reading begun notDone drained.1
      rw [finish_exact sound kept]
      refine iff_of_true ⟨untouched, fun _ => drained⟩ ?_
      simp [Careful, io]
    next io =>
      cases stepped
      rw [finish_exact sound kept]
      simp [Careful, io]
    next => cases stepped
    next => cases stepped
  | object1 =>
    obtain ⟨_, same⟩ := Option.ite_none_right_eq_some.mp stepped
    cases same
    exact iff_of_true ⟨kept, by simp⟩ trivial
  | timeout =>
    obtain ⟨_, same⟩ := Option.ite_none_right_eq_some.mp stepped
    cases same
    exact iff_of_true ⟨kept, by simp⟩ trivial
  | failed =>
    cases stepped
    exact iff_of_true ⟨kept, by simp⟩ trivial

theorem cancel_exact (sound : Sound s) (kept : s.Kept) :
    NothingLost { s with phase := .polling, io := .none } ↔ s.io.isDone = false := by
  constructor
  · rintro ⟨keptNow, _⟩
    cases io : s.io with
    | none | pending | broken | failed => rfl
    | done chunk more =>
      obtain ⟨isMore, short⟩ := sound.done chunk more io
      have same : s.inFlight = { s with phase := .polling, io := .none }.inFlight :=
        (append_congr s.returned s.queue).mp (kept.symm.trans keptNow)
      simp only [State.inFlight, io, Io.isDone, Io.bytes] at same
      -- Bytes in the read are dropped unless there are none, which no completed read leaves.
      by_cases fresh : s.outMsg = [] ∧ s.remainder = none
      · simp [fresh] at same
      · have empty : chunk = [] := by simpa [fresh] using same
        obtain ⟨outMsg, noMore⟩ := short empty
        rw [noMore, Option.isSome_eq_false_iff, Option.isNone_iff_eq_none] at isMore
        exact absurd ⟨outMsg, isMore⟩ fresh
  · intro notDone
    refine ⟨?_, by simp⟩
    unfold State.Kept
    rw [inFlight_reading .polling notDone rfl]
    exact kept

theorem cancelIoEx_exact {next : State} (sound : Sound s) (kept : s.Kept)
    (stepped : s.cancelIoEx = some next) : NothingLost next ↔ Careful s .cancelIoEx := by
  unfold State.cancelIoEx at stepped
  split at stepped
  next phase =>
    cases stepped
    rw [cancel_exact sound kept]
    simp [Careful, phase]
  next phase =>
    cases stepped
    rw [finish_exact sound kept]
    simp [Careful, phase]
  next phase =>
    cases stepped
    rw [finish_exact sound kept]
    simp [Careful, phase]
  next => cases stepped

theorem poll_exact (sound : Sound s) (kept : s.Kept) (phase : s.phase = .polling) (elapsed : Bool) :
    NothingLost (s.poll elapsed) ↔ Careful s (.poll elapsed) := by
  unfold State.poll
  split_ifs with dead late
  · rw [finish_exact sound kept]
    simp [Careful, dead]
  · rw [finish_exact sound kept]
    simp [Careful, dead]
  · rw [restart_exact sound kept (sound.idle (Or.inr (Or.inl phase)))]
    simp [Careful, dead]

theorem complete_kept {next : State} (sound : Sound s) (kept : s.Kept) (pending : s.io = .pending)
    (stepped : s.complete = some next) : next.Kept ∧ next.phase = s.phase := by
  have notDone : s.io.isDone = false := by rw [pending]; rfl
  unfold State.complete at stepped
  split at stepped
  next chunk more moved transferred =>
    cases stepped
    have takes := transfer_spec transferred
    have arrived := kept_arrived sound (sound.reading pending) notDone kept takes
    obtain ⟨_, _, rfl, _⟩ := takes
    exact ⟨arrived, rfl⟩
  next =>
    split at stepped
    next => cases stepped
    next =>
      cases stepped
      refine ⟨?_, rfl⟩
      unfold State.Kept
      rw [inFlight_reading s.phase notDone rfl]
      exact kept

theorem step_exact (s : State) (event : Event) (next : State) (sound : Sound s)
    (fine : NothingLost s) (stepped : step s event = some next) :
    NothingLost next ↔ Careful s event := by
  obtain ⟨kept, drained⟩ := fine
  cases event with
  -- After an exit was reported the writer is gone, so no write makes that report wrong.
  | write m =>
    obtain ⟨writable, same⟩ := Option.ite_none_right_eq_some.mp stepped
    cases same
    refine iff_of_true ⟨?_, fun exited => ?_⟩ trivial
    · change s.written ++ [m] = s.returned ++ s.inFlight ++ (s.queue ++ [m])
      rw [kept, List.append_assoc]
    · cases (sound.ended (Or.inr exited)).symm.trans writable
  | closeEnd | exit =>
    cases stepped
    exact iff_of_true ⟨kept, drained⟩ trivial
  | call =>
    unfold step at stepped
    dsimp only at stepped
    split at stepped
    next result phase =>
      obtain ⟨_, same⟩ := Option.ite_none_right_eq_some.mp stepped
      cases same
      have idle := sound.idle (Or.inr (Or.inr ⟨result, phase⟩))
      rw [restart_exact sound kept idle]
      exact iff_of_true ⟨sound.outside result phase, by rw [idle]; rfl⟩ trivial
    next => cases stepped
  | issue outcome =>
    obtain ⟨phase, stepped⟩ := Option.ite_none_right_eq_some.mp stepped
    exact issueRead_exact sound kept phase stepped
  | complete =>
    obtain ⟨pending, stepped⟩ := Option.ite_none_right_eq_some.mp stepped
    obtain ⟨keptNow, phase⟩ := complete_kept sound kept pending stepped
    refine iff_of_true ⟨keptNow, ?_⟩ trivial
    intro exited
    have outside := sound.quiet (by rw [pending]; simp)
    rw [phase] at exited
    simp [exited] at outside
  | completeFailed =>
    obtain ⟨pending, same⟩ := Option.ite_none_right_eq_some.mp stepped
    cases same
    refine iff_of_true ⟨?_, drained⟩ trivial
    unfold State.Kept
    rw [inFlight_reading s.phase (by rw [pending]; rfl) rfl]
    exact kept
  | wait outcome =>
    obtain ⟨phase, stepped⟩ := Option.ite_none_right_eq_some.mp stepped
    exact waitOver_exact sound kept phase stepped
  | cancelIoEx => exact cancelIoEx_exact sound kept stepped
  | poll elapsed =>
    obtain ⟨phase, same⟩ := Option.ite_none_right_eq_some.mp stepped
    cases same
    exact poll_exact sound kept phase elapsed

end Exact

/-- Along a run nothing is lost exactly when every step of it is careful. -/
theorem pipe_nothing_lost_iff (events : List Event) (final : State)
    (ran : Transition.run step State.initial events = some final) :
    (∀ s, Transition.Visits step State.initial events s → NothingLost s) ↔
      Transition.Meets step Careful State.initial events :=
  Transition.visits_iff_meets Sound NothingLost Sound.step step_exact sound_initial
    ⟨rfl, by simp [State.initial]⟩ ran

def sampleMessage : Message := [0x7B, 0x7D]

def promptRun : List Event :=
  [.call, .issue .pends, .write sampleMessage, .complete, .wait .object0]

theorem pipe_nothing_lost_prompt :
    (Transition.run step State.initial promptRun).map State.returned = some [sampleMessage] ∧
      ∀ s, Transition.Visits step State.initial promptRun s → NothingLost s := by
  have returned : (Transition.run step State.initial promptRun).map State.returned =
      some [sampleMessage] := by decide
  obtain ⟨final, ran, _⟩ := Option.map_eq_some_iff.mp returned
  refine ⟨returned, (pipe_nothing_lost_iff promptRun final ran).mpr ?_⟩
  refine ⟨trivial, fun called stepped => ⟨trivial, fun issued stepped' => ⟨trivial,
    fun written stepped'' => ⟨trivial, fun completed stepped''' => ⟨?_, fun _ _ => trivial⟩⟩⟩⟩⟩
  cases stepped
  cases stepped'
  cases stepped''
  cases stepped'''
  refine ⟨fun chunk more io => ?_, fun io => by cases io⟩
  cases io
  exact ⟨by decide, by decide⟩

/-- The read completes between the timeout of its slice and `CancelIoEx`. -/
def cancelledRun : List Event :=
  [.call, .issue .pends, .wait .timeout, .write sampleMessage, .complete, .cancelIoEx]

/-- The broker writes after the cancellation and exits before the exit poll. -/
def polledRun : List Event :=
  [.call, .issue .pends, .wait .timeout, .cancelIoEx, .write sampleMessage, .exit, .poll false]

theorem pipe_message_lost :
    (∃ s, Transition.run step State.initial cancelledRun = some s ∧ s.written = [sampleMessage] ∧
      s.returned = [] ∧ s.queue = [] ∧ ¬ NothingLost s) ∧
    ∃ s, Transition.run step State.initial polledRun = some s ∧ s.queue = [sampleMessage] ∧
      s.phase = .returned (some .brokerExited) ∧ ¬ NothingLost s := by
  constructor
  · refine ⟨_, rfl, rfl, rfl, rfl, ?_⟩
    intro lost
    cases lost.kept
  · refine ⟨_, rfl, rfl, rfl, ?_⟩
    intro lost
    cases lost.drained rfl

end Dot1xCP.Broker.Transport
