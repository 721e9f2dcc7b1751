import Dot1xCP.Broker.GetSerialization
import Dot1xCP.Broker.ReadLoop

/-! How long the reading loops can go on.

The answers are infinite streams here. A slice goes on only after it has appended a byte
and found the message within its limit, on either way through the loop, so the limit bounds
its passes. What bounds the attempts is the time.
-/

set_option autoImplicit false

namespace Dot1xCP.Broker.ReadLoop
open Transport (kBufferBytes kMaxMsgBytes)

/-- What a pass does to the events and to the size of the message. -/
structure PassBounds (s : Slice) (pass : Pass) : Prop where
  events : pass.slice.events = s.events ∨ pass.slice.events = s.events ++ [1]
  goesOn : ∀ next, pass = .again next →
    s.outMsg.size < next.outMsg.size ∧ next.outMsg.size ≤ kMaxMsgBytes
  ok : ∀ final, pass = .returned .ok final →
    s.outMsg.size < final.outMsg.size ∧ final.outMsg.size ≤ kMaxMsgBytes
  small : s.outMsg.size ≤ kMaxMsgBytes → pass.slice.outMsg.size ≤ kMaxMsgBytes

section Bounds
variable {s : Slice}

theorem closed_events (s : Slice) : s.createEvent.closeEvent.events = s.events ++ [1] := by
  rw [Slice.closeEvent, Slice.createEvent, List.length_append, List.length_singleton,
    Nat.add_sub_cancel]
  exact List.modifyTailIdx_add (List.modifyHead (· + 1)) 0 s.events [0]

theorem returned_bounds {next : Slice} {result : PipeReadResult} (failed : result ≠ .ok)
    (events : next.events = s.events ∨ next.events = s.events ++ [1])
    (shorter : next.outMsg.size ≤ s.outMsg.size) : PassBounds s (.returned result next) where
  events := events
  goesOn _ again := by cases again
  ok _ returned := by
    cases returned
    exact absurd rfl failed
  small := Nat.le_trans shorter

/-- The loop is only left with `Ok`, or gone through again, behind a read that is within
the limit. -/
theorem take_bounds (filled : Slice) (events : filled.events = s.events ++ [1])
    (outMsg : filled.outMsg = s.outMsg) (chunk : Chunk) (more : Bool) :
    PassBounds s (filled.take chunk more) := by
  unfold Slice.take
  split
  next => exact returned_bounds (by decide) (Or.inr events) (Nat.le_of_eq (congrArg _ outMsg))
  next filledBytes =>
    have grows : s.outMsg.size < (filled.outMsg.append chunk.bytes).size := by
      rw [outMsg, Residue.Str.size_append]
      exact Nat.lt_add_of_pos_right (List.length_pos_iff.mpr filledBytes)
    dsimp only
    split
    next => exact returned_bounds (by decide) (Or.inr events) (Nat.zero_le _)
    next within =>
      have fits := Nat.not_lt.mp within
      cases more with
      | true =>
        refine ⟨Or.inr events, fun next again => ?_, fun _ returned => ?_, fun _ => fits⟩
        · cases again
          exact ⟨grows, fits⟩
        · cases returned
      | false =>
        refine ⟨Or.inr events, fun _ again => ?_, fun final returned => ?_, fun _ => fits⟩
        · cases again
        · cases returned
          exact ⟨grows, fits⟩

theorem pass_bounds (s : Slice) (outcome : ReadOutcome) : PassBounds s (s.pass outcome) := by
  have closed := closed_events s
  have same : s.outMsg.size ≤ s.outMsg.size := Nat.le_refl _
  cases outcome with
  | noEvent => exact returned_bounds (by decide) (Or.inl rfl) same
  | brokenPipe | error => exact returned_bounds (by decide) (Or.inr closed) same
  | ok chunk | moreData chunk =>
    exact take_bounds ((s.createEvent.fill chunk).closeEvent) closed rfl chunk _
  | pending wait =>
    cases wait with
    | object0 result =>
      cases result with
      | done chunk | moreData chunk =>
        exact take_bounds ((s.createEvent.fill chunk).closeEvent) closed rfl chunk _
      | brokenPipe | error => exact returned_bounds (by decide) (Or.inr closed) same
    | object1 late | timeout late | other late =>
      exact returned_bounds (by decide) (Or.inr closed) same

theorem appended_length_le (outcome : ReadOutcome) : outcome.appended.length ≤ kBufferBytes := by
  cases outcome with
  | ok chunk | moreData chunk => exact chunk.fits
  | pending wait =>
    cases wait with
    | object0 result =>
      cases result with
      | done chunk | moreData chunk => exact chunk.fits
      | brokenPipe | error => exact Nat.zero_le _
    | object1 | timeout | other => exact Nat.zero_le _
  | noEvent | brokenPipe | error => exact Nat.zero_le _

end Bounds

def first {α : Type} (n : Nat) (stream : Nat → α) : List α := (List.range n).map stream

theorem first_succ {α : Type} (n : Nat) (stream : Nat → α) :
    first (n + 1) stream = stream 0 :: first n fun k => stream (k + 1) := by
  rw [first, List.range_succ_eq_map, List.map_cons, List.map_map]
  rfl

theorem length_first {α : Type} (n : Nat) (stream : Nat → α) : (first n stream).length = n := by
  rw [first, List.length_map, List.length_range]

/-- Every size that the message takes: at the head of each pass, after its append, and when
the function returns. -/
def Slice.sizes (s : Slice) : List ReadOutcome → List Nat
  | [] => []
  | outcome :: rest =>
    s.outMsg.size :: (s.outMsg.append outcome.appended).size ::
      match s.pass outcome with
      | .again next => next.sizes rest
      | .returned _ final => [final.outMsg.size]

def Slice.EventsClosed (s : Slice) : Prop := ∀ count ∈ s.events, count = 1

section Loop
variable {s : Slice}

theorem Slice.EventsClosed.after {t : Slice} (closed : s.EventsClosed)
    (events : t.events = s.events ∨ t.events = s.events ++ [1]) : t.EventsClosed := by
  intro count inside
  rcases events with same | added
  · exact closed count (same ▸ inside)
  · rw [added] at inside
    rcases List.mem_append.mp inside with old | new
    · exact closed count old
    · exact List.mem_singleton.mp new

/-- What is left of the limit bounds the passes. -/
theorem loop_ends {left : Nat} (enough : kMaxMsgBytes ≤ s.outMsg.size + left)
    (reads : Nat → ReadOutcome) :
    ∃ n answer, n ≤ left + 1 ∧ s.loop (first n reads) = some answer := by
  induction left generalizing s reads with
  | zero =>
    have bounds := pass_bounds s (reads 0)
    cases pass : s.pass (reads 0) with
    | again next =>
      obtain ⟨grows, within⟩ := bounds.goesOn next pass
      omega
    | returned result final =>
      refine ⟨1, (result, final), Nat.le_refl 1, ?_⟩
      rw [first_succ, Slice.loop, pass]
      rfl
  | succ left ih =>
    have bounds := pass_bounds s (reads 0)
    cases pass : s.pass (reads 0) with
    | again next =>
      obtain ⟨grows, _⟩ := bounds.goesOn next pass
      obtain ⟨n, answer, few, ran⟩ := ih (s := next) (by omega) fun k => reads (k + 1)
      refine ⟨n + 1, answer, Nat.succ_le_succ few, ?_⟩
      rw [first_succ, Slice.loop, pass]
      exact ran
    | returned result final =>
      refine ⟨1, (result, final), Nat.le_add_left 1 _, ?_⟩
      rw [first_succ, Slice.loop, pass]
      rfl

theorem loop_unique {reads : Nat → ReadOutcome} {n m : Nat} {one other : PipeReadResult × Slice}
    (ran : s.loop (first n reads) = some one) (again : s.loop (first m reads) = some other) :
    m = n := by
  induction n generalizing s reads m with
  | zero => cases ran
  | succ n ih =>
    cases m with
    | zero => cases again
    | succ m =>
      rw [first_succ, Slice.loop] at ran again
      cases pass : s.pass (reads 0) with
      | again next =>
        rw [pass] at ran again
        rw [ih ran again]
      | returned result final =>
        rw [pass] at ran again
        have ends {k : Nat} {answer : PipeReadResult × Slice}
            (ended : (if (first k fun k => reads (k + 1)).isEmpty then some (result, final) else none) =
              some answer) : k = 0 := by
          split at ended
          next empty => rw [← length_first k fun k => reads (k + 1), List.isEmpty_iff.mp empty]; rfl
          next => cases ended
        rw [ends ran, ends again]

structure LoopBounds (s : Slice) (reads : List ReadOutcome) (result : PipeReadResult)
    (final : Slice) : Prop where
  iterations : reads.length + s.outMsg.size ≤ kMaxMsgBytes + 1
  sizes : ∀ size ∈ s.sizes reads, size ≤ kMaxMsgBytes + kBufferBytes
  closed : final.EventsClosed
  ok : result = .ok → 0 < final.outMsg.size ∧ final.outMsg.size ≤ kMaxMsgBytes

theorem loop_bounds {reads : List ReadOutcome} {result : PipeReadResult} {final : Slice}
    (closed : s.EventsClosed) (small : s.outMsg.size ≤ kMaxMsgBytes)
    (ran : s.loop reads = some (result, final)) : LoopBounds s reads result final := by
  induction reads generalizing s with
  | nil => cases ran
  | cons outcome rest ih =>
    have bounds := pass_bounds s outcome
    have chunk := appended_length_le outcome
    have appended := Residue.Str.size_append s.outMsg outcome.appended
    rw [Slice.loop] at ran
    cases pass : s.pass outcome with
    | again next =>
      rw [pass] at ran bounds
      obtain ⟨grows, within⟩ := bounds.goesOn next rfl
      have closedNext : next.EventsClosed := closed.after bounds.events
      have later := ih closedNext within ran
      refine ⟨?_, ?_, later.closed, later.ok⟩
      · have few := later.iterations
        rw [List.length_cons]
        omega
      · rw [Slice.sizes, pass]
        intro size inside
        rcases List.mem_cons.mp inside with rfl | inside
        · omega
        rcases List.mem_cons.mp inside with rfl | inside
        · omega
        · exact later.sizes size inside
    | returned answer next =>
      rw [pass] at ran bounds
      cases rest with
      | cons => cases ran
      | nil =>
        cases ran
        have kept := bounds.small small
        refine ⟨?_, ?_, closed.after bounds.events, fun ok => ?_⟩
        · rw [List.length_singleton]
          omega
        · rw [Slice.sizes, pass]
          intro size inside
          rcases List.mem_cons.mp inside with rfl | inside
          · omega
          rcases List.mem_cons.mp inside with rfl | inside
          · omega
          · rw [List.mem_singleton.mp inside]
            exact Nat.le_trans kept (Nat.le_add_right _ _)
        · subst ok
          obtain ⟨grows, within⟩ := bounds.ok final rfl
          exact ⟨Nat.zero_lt_of_lt grows, within⟩

end Loop

theorem slice_ends (outMsg : StdString) (reads : Nat → ReadOutcome) :
    ∃ n answer, n ≤ kMaxMsgBytes + 1 ∧
      readPipeMessageWithTimeout outMsg (first n reads) = some answer :=
  loop_ends (Nat.le_add_left _ _) reads

theorem slice_bounds {outMsg : StdString} {reads : List ReadOutcome} {result : PipeReadResult}
    {slice : Slice} (ran : readPipeMessageWithTimeout outMsg reads = some (result, slice)) :
    LoopBounds (Slice.entered outMsg) reads result slice :=
  loop_bounds (fun _ inside => absurd inside List.not_mem_nil) (Nat.zero_le _) ran

/-- What holds of a whole call that came to its end. -/
structure Finished.Bounded (finished : Finished) : Prop where
  closed : ∀ slice ∈ finished.slices, slice.EventsClosed
  ok : finished.result = .ok →
    0 < finished.outMsg.size ∧ finished.outMsg.size ≤ kMaxMsgBytes

/-- An attempt as the system offers it, with all reads that it would answer. -/
structure Offer where
  reads : Nat → ReadOutcome
  exited : Bool
  tick : UInt64

def Offer.cut (offer : Offer) (n : Nat) : Attempt := ⟨first n offer.reads, offer.exited, offer.tick⟩

def cuts (offers : Nat → Offer) : List Nat → List Attempt
  | [] => []
  | n :: rest => (offers 0).cut n :: cuts (fun k => offers (k + 1)) rest

theorem length_cuts (offers : Nat → Offer) (ns : List Nat) : (cuts offers ns).length = ns.length := by
  induction ns generalizing offers with
  | nil => rfl
  | cons n ns ih => exact congrArg Nat.succ (ih _)

section UntilDone
variable (hBrokerProcess : Bool) (overallTimeoutMs : UInt32) (startTick : UInt64)

/-- The call tries again after each of these attempts. -/
def TriesAgain (outMsg : StdString) : List Attempt → Prop
  | [] => True
  | attempt :: rest =>
    ∃ slice, readPipeMessageWithTimeout outMsg attempt.reads = some (.timeout, slice) ∧
      afterSlice hBrokerProcess overallTimeoutMs startTick .timeout attempt = none ∧
      TriesAgain slice.outMsg rest

def Advances (attempts : List Attempt) : Prop :=
  List.IsChain (· < ·) (startTick :: attempts.map Attempt.tick)

variable {hBrokerProcess overallTimeoutMs startTick}

theorem afterSlice_ok {rr : PipeReadResult} {attempt : Attempt}
    (ok : afterSlice hBrokerProcess overallTimeoutMs startTick rr attempt = some .ok) : rr = .ok := by
  unfold afterSlice at ok
  split at ok
  · exact Option.some.inj ok
  -- Behind a time-out the result is another one.
  split at ok
  · cases ok
  split at ok
  · cases ok
  split at ok <;> cases ok

theorem afterSlice_none {rr : PipeReadResult} {attempt : Attempt}
    (again : afterSlice hBrokerProcess overallTimeoutMs startTick rr attempt = none) :
    rr = .timeout ∧
      (overallTimeoutMs ≠ INFINITE → attempt.tick - startTick < overallTimeoutMs.toUInt64) := by
  unfold afterSlice at again
  split at again
  · cases again
  next timeout =>
    split at again
    · cases again
    split at again
    · cases again
    split at again
    · cases again
    next early =>
      refine ⟨of_not_not timeout, fun finite => ?_⟩
      exact UInt64.not_le.mp fun late => early ⟨finite, late⟩

theorem untilDone_bounded {outMsg : StdString} {slices : List Slice} {attempts : List Attempt}
    {finished : Finished} (closed : ∀ slice ∈ slices, slice.EventsClosed)
    (ran : readPipeMessageUntilDone hBrokerProcess overallTimeoutMs startTick outMsg slices attempts =
      some finished) : finished.Bounded := by
  induction attempts generalizing outMsg slices with
  | nil => cases ran
  | cons attempt rest ih =>
    rw [readPipeMessageUntilDone] at ran
    split at ran
    · cases ran
    next rr slice sliceRan =>
      have bounds := slice_bounds sliceRan
      have added : ∀ each ∈ slices ++ [slice], each.EventsClosed := by
        intro each inside
        rcases List.mem_append.mp inside with old | new
        · exact closed each old
        · rw [List.mem_singleton.mp new]
          exact bounds.closed
      split at ran
      next result after =>
        cases rest with
        | cons => cases ran
        | nil =>
          cases ran
          exact ⟨added, fun ok => bounds.ok (afterSlice_ok (after.trans (congrArg some ok)))⟩
      next => exact ih added ran

/-- However many attempts are offered, the call ends within them or tries again after each. -/
theorem untilDone_or_triesAgain (m : Nat) (offers : Nat → Offer) (outMsg : StdString)
    (slices : List Slice) :
    (∃ ns finished, ns.length ≤ m ∧
        readPipeMessageUntilDone hBrokerProcess overallTimeoutMs startTick outMsg slices
          (cuts offers ns) = some finished) ∨
      ∃ ns, ns.length = m ∧
        TriesAgain hBrokerProcess overallTimeoutMs startTick outMsg (cuts offers ns) := by
  induction m generalizing offers outMsg slices with
  | zero => exact Or.inr ⟨[], rfl, trivial⟩
  | succ m ih =>
    obtain ⟨n, ⟨rr, slice⟩, _, ran⟩ := slice_ends outMsg (offers 0).reads
    cases after : afterSlice hBrokerProcess overallTimeoutMs startTick rr ((offers 0).cut n) with
    | some result =>
      refine Or.inl ⟨[n], ⟨result, slice.outMsg, slices ++ [slice]⟩, Nat.le_add_left 1 m, ?_⟩
      rw [cuts, readPipeMessageUntilDone, Offer.cut, ran]
      dsimp only
      rw [← Offer.cut, after]
      rfl
    | none =>
      obtain ⟨rfl, _⟩ := afterSlice_none after
      rcases ih (fun k => offers (k + 1)) slice.outMsg (slices ++ [slice]) with
        ⟨ns, finished, few, ended⟩ | ⟨ns, all, again⟩
      · refine Or.inl ⟨n :: ns, finished, Nat.succ_le_succ few, ?_⟩
        rw [cuts, readPipeMessageUntilDone, Offer.cut, ran]
        dsimp only
        rw [← Offer.cut, after]
        exact ended
      · exact Or.inr ⟨n :: ns, congrArg Nat.succ all, slice, ran, after, again⟩

/-- The time that has passed is at least the number of attempts, and less than the overall
time as long as the call tries again. -/
theorem triesAgain_length {outMsg : StdString} {attempts : List Attempt} {previous : UInt64} {j : Nat}
    (finite : overallTimeoutMs ≠ INFINITE)
    (again : TriesAgain hBrokerProcess overallTimeoutMs startTick outMsg attempts)
    (advances : Advances previous attempts) (passed : startTick.toNat + j ≤ previous.toNat)
    (some : attempts ≠ []) : j + attempts.length < overallTimeoutMs.toNat := by
  induction attempts generalizing outMsg previous j with
  | nil => exact absurd rfl some
  | cons attempt rest ih =>
    obtain ⟨slice, _, after, later⟩ := again
    rw [Advances, List.map_cons, List.isChain_cons_cons, UInt64.lt_iff_toNat_lt] at advances
    obtain ⟨advanced, chain⟩ := advances
    cases rest with
    | nil =>
      have early := (afterSlice_none after).2 finite
      have forward : startTick ≤ attempt.tick := by
        rw [UInt64.le_iff_toNat_le]
        omega
      rw [UInt64.lt_iff_toNat_lt, UInt64.toNat_sub_of_le _ _ forward, UInt32.toNat_toUInt64] at early
      rw [List.length_singleton]
      omega
    | cons next rest =>
      have longer := ih (j := j + 1) later chain (by omega) (List.cons_ne_nil _ _)
      rw [List.length_cons]
      omega

theorem untilDone_ends {offers : Nat → Offer} {outMsg : StdString}
    (finite : overallTimeoutMs ≠ INFINITE)
    (advances : ∀ ns, TriesAgain hBrokerProcess overallTimeoutMs startTick outMsg (cuts offers ns) →
      Advances startTick (cuts offers ns)) :
    ∃ ns finished, ns.length ≤ max 1 overallTimeoutMs.toNat ∧
      readPipeMessageUntilDone hBrokerProcess overallTimeoutMs startTick outMsg [] (cuts offers ns) =
        some finished := by
  rcases untilDone_or_triesAgain (max 1 overallTimeoutMs.toNat) offers outMsg [] with
    ended | ⟨ns, all, again⟩
  · exact ended
  · have length := length_cuts offers ns
    have nonempty : cuts offers ns ≠ [] := by
      rw [ne_eq, ← List.length_eq_zero_iff]
      omega
    have short := triesAgain_length (j := 0) finite again (advances ns again) (Nat.le_refl _) nonempty
    omega

end UntilDone

def PastAutoRecover (os : SerializationOs) : Prop :=
  os.read ≠ .timeout ∧ (os.read ≠ .ok ∨ os.message.isEmpty = true) ∧
    ¬ (os.read = .brokerExited ∨ os.read = .failed)

theorem readBrokerMessage_pastAutoRecover {os : SerializationOs} (past : PastAutoRecover os)
    (machine : Machine) (pointers : OutPointers) (s : Core.World) (out : SerializationOut)
    (cpus : UsageScenario) :
    readBrokerMessage machine pointers os s out cpus =
      let (s, failedPi) := detachBrokerSession s
      let s := Core.setBrokerAwaitingFinal s false
      let s := updateBrokerFlowState s .none
      returnNoCredentialNotFinished pointers os s out failedPi
        (some (readFailureStatusText os.read)) 1000 := by
  obtain ⟨noTimeout, failed, notRecovered⟩ := past
  rw [readBrokerMessage, if_neg noTimeout, if_pos failed]
  simp only [if_neg notRecovered]

theorem pastAutoRecover_iff (os : SerializationOs) :
    PastAutoRecover os ↔ os.read = .ok ∧ os.message = [] := by
  unfold PastAutoRecover
  cases os.read <;> simp

/-- The reading loops against any stream of answers: a slice ends within its limit of
reads, its message stays within the limit and one buffer, its events are closed once, and
`Ok` comes with a message that is neither empty nor too long, so the return behind the
automatic recovery is never reached. The call ends as long as time passes. -/
theorem readPipeMessage_bounded :
    (∀ (outMsg : StdString) (reads : Nat → ReadOutcome), ∃ n result slice, n ≤ 262145 ∧
      readPipeMessageWithTimeout outMsg (first n reads) = some (result, slice) ∧
      (∀ m answer, readPipeMessageWithTimeout outMsg (first m reads) = some answer → m = n) ∧
      (∀ size ∈ (Slice.entered outMsg).sizes (first n reads), size ≤ 262144 + 8192) ∧
      (∀ count ∈ slice.events, count = 1) ∧
      (result = .ok → 1 ≤ slice.outMsg.size ∧ slice.outMsg.size ≤ 262144)) ∧
    (∀ (hBrokerProcess : Bool) (overallTimeoutMs : UInt32) (startTick : UInt64)
        (outMsg : StdString) (attempts : List Attempt) (finished : Finished),
      readPipeMessageUntilDone hBrokerProcess overallTimeoutMs startTick outMsg [] attempts =
        some finished →
      (finished.result = .ok → 1 ≤ finished.outMsg.size ∧ finished.outMsg.size ≤ 262144) ∧
      (∀ slice ∈ finished.slices, ∀ count ∈ slice.events, count = 1) ∧
      ∀ os : SerializationOs, os.read = finished.result → os.message = finished.outMsg.contents →
        ¬ PastAutoRecover os) ∧
    ∀ (hBrokerProcess : Bool) (overallTimeoutMs : UInt32) (startTick : UInt64)
        (outMsg : StdString) (offers : Nat → Offer), overallTimeoutMs ≠ INFINITE →
      (∀ ns, TriesAgain hBrokerProcess overallTimeoutMs startTick outMsg (cuts offers ns) →
        Advances startTick (cuts offers ns)) →
      ∃ ns finished, ns.length ≤ max 1 overallTimeoutMs.toNat ∧
        readPipeMessageUntilDone hBrokerProcess overallTimeoutMs startTick outMsg []
          (cuts offers ns) = some finished := by
  refine ⟨fun outMsg reads => ?_, fun hBrokerProcess overallTimeoutMs startTick outMsg attempts
    finished ran => ?_, fun _ _ _ _ _ finite advances => untilDone_ends finite advances⟩
  · obtain ⟨n, ⟨result, slice⟩, few, ran⟩ := slice_ends outMsg reads
    have bounds := slice_bounds ran
    exact ⟨n, result, slice, few, ran, fun m answer again => loop_unique ran again, bounds.sizes,
      bounds.closed, bounds.ok⟩
  · have bounded := untilDone_bounded (fun _ inside => absurd inside List.not_mem_nil) ran
    refine ⟨bounded.ok, bounded.closed, fun os read message past => ?_⟩
    obtain ⟨ok, empty⟩ := (pastAutoRecover_iff os).mp past
    have positive := (bounded.ok (read.symm.trans ok)).1
    rw [Residue.Str.size, ← message, empty] at positive
    exact absurd positive (Nat.lt_irrefl 0)

def slowOffers : Nat → Offer
  | 0 => ⟨fun _ => .pending (.timeout ⟨[], Nat.zero_le kBufferBytes⟩), false, 250⟩
  | _ + 1 => ⟨fun _ => .brokenPipe, false, 500⟩

theorem readPipeMessage_bounded_slow :
    ∃ ns finished, ns.length ≤ max 1 (1200 : UInt32).toNat ∧
      readPipeMessageUntilDone true 1200 0 Residue.Str.empty [] (cuts slowOffers ns) =
        some finished := by
  refine readPipeMessage_bounded.2.2 true 1200 0 Residue.Str.empty slowOffers (by decide) ?_
  intro ns again
  match ns with
  | [] => exact List.IsChain.singleton _
  | [n] =>
    exact List.isChain_cons_cons.mpr ⟨show (0 : UInt64) < 250 by decide, List.IsChain.singleton _⟩
  | n :: m :: rest =>
    -- The second slice does not time out.
    obtain ⟨_, _, _, _, ran, _⟩ := again
    cases m with
    | zero => cases ran
    | succ m =>
      dsimp only [Offer.cut, slowOffers] at ran
      rw [first_succ, readPipeMessageWithTimeout, Slice.loop, Slice.pass] at ran
      split at ran
      next again => cases again
      next result _ returned =>
        cases returned
        split at ran <;> cases ran

end Dot1xCP.Broker.ReadLoop
