import Dot1xCP.Lib.Residue
import Dot1xCP.Broker.Json
import Dot1xCP.Broker.Transport

/-! `ReadPipeMessageWithTimeout` and `ReadPipeMessageUntilDone` with their memory.

The answers of the system are given as lists, one for each slice, and a run exists when the
loops come to an end exactly where the lists do. Beside its message the reader has the read
buffer of each slice, the storage behind the message and the events it created.
-/

set_option autoImplicit false

namespace Dot1xCP.Broker.ReadLoop
open Transport (kBufferBytes kMaxMsgBytes)

abbrev StdString := Residue.Str (0 : UInt8)

/-- `SecureClearString` overwrites `size()` bytes and clears the string. -/
def secureClearString (s : StdString) : StdString := s.wipe

structure Chunk where
  bytes : List UInt8
  fits : bytes.length ≤ kBufferBytes
  deriving DecidableEq, Repr

inductive OverlappedResult where
  | done (chunk : Chunk)
  | moreData (chunk : Chunk)
  | brokenPipe
  | error
  deriving DecidableEq, Repr

/-- `WaitForMultipleObjects`. Where the read is given up, it may have put bytes into the
buffer before `CancelIoEx`. -/
inductive WaitResult where
  | object0 (result : OverlappedResult)
  | object1 (late : Chunk)
  | timeout (late : Chunk)
  | other (late : Chunk)
  deriving DecidableEq, Repr

/-- One pass through the loop: `CreateEventW`, `ReadFile` and what follows a pending read. -/
inductive ReadOutcome where
  | noEvent
  | ok (chunk : Chunk)
  | moreData (chunk : Chunk)
  | brokenPipe
  | error
  | pending (wait : WaitResult)
  deriving DecidableEq, Repr

/-- The locals of a slice and the caller's string. `events` holds, for each event that was
created, how often it was closed. -/
structure Slice where
  buf : List UInt8
  outMsg : StdString
  events : List Nat
  deriving DecidableEq, Repr

inductive Pass where
  | again (s : Slice)
  | returned (result : PipeReadResult) (s : Slice)
  deriving DecidableEq, Repr

namespace Slice

def entered (outMsg : StdString) : Slice := ⟨List.replicate kBufferBytes 0, outMsg.clear, []⟩

def createEvent (s : Slice) : Slice := { s with events := s.events ++ [0] }

def closeEvent (s : Slice) : Slice :=
  { s with events := s.events.modify (s.events.length - 1) (· + 1) }

def fill (s : Slice) (chunk : Chunk) : Slice := { s with buf := Residue.overlay s.buf chunk.bytes }

def secureZeroVector (s : Slice) : Slice := { s with buf := List.replicate s.buf.length 0 }

/-- The bytes of the read are appended and zeroed in the buffer; `more` stands for
`ERROR_MORE_DATA`. -/
def take (s : Slice) (chunk : Chunk) (more : Bool) : Pass :=
  if chunk.bytes = [] then .returned .failed s.secureZeroVector
  else
    let s := { s with outMsg := s.outMsg.append chunk.bytes }
    let s := { s with buf := Residue.overlay s.buf (List.replicate chunk.bytes.length 0) }
    if kMaxMsgBytes < s.outMsg.size then
      let s := s.secureZeroVector
      .returned .failed { s with outMsg := s.outMsg.clear }
    else if more then .again s
    else .returned .ok s

def overlapped (s : Slice) : OverlappedResult → Pass
  | .done chunk => ((s.fill chunk).closeEvent).take chunk false
  | .moreData chunk => ((s.fill chunk).closeEvent).take chunk true
  | .brokenPipe => .returned .brokerExited s.closeEvent.secureZeroVector
  | .error => .returned .failed s.closeEvent.secureZeroVector

def waited (s : Slice) : WaitResult → Pass
  | .object0 result => s.overlapped result
  | .object1 late => .returned .brokerExited ((s.fill late).closeEvent).secureZeroVector
  | .timeout late => .returned .timeout ((s.fill late).closeEvent).secureZeroVector
  | .other late => .returned .failed ((s.fill late).closeEvent).secureZeroVector

def pass (s : Slice) : ReadOutcome → Pass
  | .noEvent => .returned .failed s.secureZeroVector
  | .ok chunk => ((s.createEvent.fill chunk).closeEvent).take chunk false
  | .moreData chunk => ((s.createEvent.fill chunk).closeEvent).take chunk true
  | .brokenPipe => .returned .brokerExited s.createEvent.closeEvent.secureZeroVector
  | .error => .returned .failed s.createEvent.closeEvent.secureZeroVector
  | .pending wait => s.createEvent.waited wait

/-- The loop; none unless it returns at the last of the outcomes. -/
def loop (s : Slice) : List ReadOutcome → Option (PipeReadResult × Slice)
  | [] => none
  | outcome :: rest =>
    match s.pass outcome with
    | .again s => s.loop rest
    | .returned result s => if rest.isEmpty then some (result, s) else none

end Slice

def readPipeMessageWithTimeout (outMsg : StdString) (reads : List ReadOutcome) :
    Option (PipeReadResult × Slice) := (Slice.entered outMsg).loop reads

/-- What a slice reads, and what is asked after it has timed out: whether the process has
exited, and the time. -/
structure Attempt where
  reads : List ReadOutcome
  exited : Bool
  tick : UInt64
  deriving DecidableEq, Repr

def INFINITE : UInt32 := 0xFFFFFFFF

structure Finished where
  result : PipeReadResult
  outMsg : StdString
  slices : List Slice
  deriving DecidableEq, Repr

section UntilDone
variable (hBrokerProcess : Bool) (overallTimeoutMs : UInt32) (startTick : UInt64)

def afterSlice (rr : PipeReadResult) (attempt : Attempt) : Option PipeReadResult :=
  if rr ≠ .timeout then some rr
  else if !hBrokerProcess then some .timeout
  else if attempt.exited then some .brokerExited
  else if overallTimeoutMs ≠ INFINITE ∧ overallTimeoutMs.toUInt64 ≤ attempt.tick - startTick then
    some .timeout
  else none

def readPipeMessageUntilDone (outMsg : StdString) (slices : List Slice) :
    List Attempt → Option Finished
  | [] => none
  | attempt :: rest =>
    match readPipeMessageWithTimeout outMsg attempt.reads with
    | none => none
    | some (rr, slice) =>
      match afterSlice hBrokerProcess overallTimeoutMs startTick rr attempt with
      | some result =>
        if rest.isEmpty then some ⟨result, slice.outMsg, slices ++ [slice]⟩ else none
      | none => readPipeMessageUntilDone slice.outMsg (slices ++ [slice]) rest

end UntilDone

/-- `GetSerialization` reads with an overall time of 1200 ms into a new string, which its
guard clears on every path out of the function. -/
def readAndGuard (startTick : UInt64) (attempts : List Attempt) : Option Finished :=
  (readPipeMessageUntilDone true 1200 startTick Residue.Str.empty [] attempts).map fun finished =>
    { finished with outMsg := secureClearString finished.outMsg }

def ReadOutcome.appended : ReadOutcome → List UInt8
  | .ok chunk | .moreData chunk | .pending (.object0 (.done chunk))
  | .pending (.object0 (.moreData chunk)) => chunk.bytes
  | _ => []

def received (reads : List ReadOutcome) : List UInt8 := reads.flatMap ReadOutcome.appended

def settle (outMsg : StdString) : StdString :=
  if kMaxMsgBytes < outMsg.size then outMsg.clear else outMsg

def Zeroed (bytes : List UInt8) : Prop := ∀ byte ∈ bytes, byte = 0

theorem zeroed_replicate (n : Nat) : Zeroed (List.replicate n 0) :=
  fun _ inside => List.eq_of_mem_replicate inside

theorem zeroed_refilled {buf : List UInt8} (clean : Zeroed buf) (chunk : List UInt8) :
    Zeroed (Residue.overlay (Residue.overlay buf chunk) (List.replicate chunk.length 0)) := by
  intro byte inside
  simp only [Residue.overlay, List.length_replicate, List.drop_left, List.mem_append] at inside
  rcases inside with inside | inside
  · exact List.eq_of_mem_replicate inside
  · exact clean byte (List.mem_of_mem_drop inside)

theorem settle_of_le {outMsg : StdString} (small : outMsg.size ≤ kMaxMsgBytes) :
    settle outMsg = outMsg := if_neg (Nat.not_lt.mpr small)

def Pass.slice : Pass → Slice
  | .again s => s
  | .returned _ s => s

/-- What a pass does with the bytes it received: they are appended, the buffer is clean
again, and the loop goes on only within the limit. -/
structure PassSpec (s : Slice) (appended : List UInt8) (pass : Pass) : Prop where
  clean : Zeroed pass.slice.buf
  outMsg : pass.slice.outMsg = settle (s.outMsg.append appended)
  goesOn : ∀ next, pass = .again next →
    next.outMsg = s.outMsg.append appended ∧ next.outMsg.size ≤ kMaxMsgBytes

section Spec
variable {s : Slice}

theorem passSpec_wiped (small : s.outMsg.size ≤ kMaxMsgBytes) (next : Slice)
    (same : next.outMsg = s.outMsg) (result : PipeReadResult) :
    PassSpec s [] (.returned result next.secureZeroVector) where
  clean := zeroed_replicate _
  outMsg := by
    rw [Residue.Str.append_nil, settle_of_le small]
    exact same
  goesOn _ again := by cases again

theorem take_spec (clean : Zeroed s.buf) (small : s.outMsg.size ≤ kMaxMsgBytes) (filled : Slice)
    {chunk : Chunk} (buf : filled.buf = Residue.overlay s.buf chunk.bytes)
    (outMsg : filled.outMsg = s.outMsg) (more : Bool) :
    PassSpec s chunk.bytes (filled.take chunk more) := by
  unfold Slice.take
  split
  next empty =>
    rw [empty]
    exact passSpec_wiped small filled outMsg .failed
  next filledBytes =>
    have zeroed := zeroed_refilled clean chunk.bytes
    dsimp only
    rw [outMsg, buf]
    split
    next large =>
      refine ⟨zeroed_replicate _, ?_, fun _ again => by cases again⟩
      rw [settle, if_pos large]
      rfl
    next within =>
      have kept := settle_of_le (Nat.not_lt.mp within)
      split
      · refine ⟨zeroed, kept.symm, fun next again => ?_⟩
        cases again
        exact ⟨rfl, Nat.not_lt.mp within⟩
      · exact ⟨zeroed, kept.symm, fun _ again => by cases again⟩

theorem pass_spec (clean : Zeroed s.buf) (small : s.outMsg.size ≤ kMaxMsgBytes)
    (outcome : ReadOutcome) : PassSpec s outcome.appended (s.pass outcome) := by
  cases outcome with
  | noEvent => exact passSpec_wiped small s rfl _
  | brokenPipe | error => exact passSpec_wiped small s.createEvent.closeEvent rfl _
  | ok chunk | moreData chunk =>
    exact take_spec clean small ((s.createEvent.fill chunk).closeEvent) rfl rfl _
  | pending wait =>
    cases wait with
    | object0 result =>
      cases result with
      | done chunk | moreData chunk =>
        exact take_spec clean small ((s.createEvent.fill chunk).closeEvent) rfl rfl _
      | brokenPipe | error => exact passSpec_wiped small s.createEvent.closeEvent rfl _
    | object1 late | timeout late | other late =>
      exact passSpec_wiped small ((s.createEvent.fill late).closeEvent) rfl _

/-- A slice appends what it received to its message and leaves its buffer clean. -/
theorem loop_spec {reads : List ReadOutcome} {result : PipeReadResult} {final : Slice}
    (clean : Zeroed s.buf) (small : s.outMsg.size ≤ kMaxMsgBytes)
    (ran : s.loop reads = some (result, final)) :
    Zeroed final.buf ∧ final.outMsg = settle (s.outMsg.append (received reads)) := by
  induction reads generalizing s with
  | nil => cases ran
  | cons outcome rest ih =>
    have spec := pass_spec clean small outcome
    rw [Slice.loop] at ran
    split at ran
    next next again =>
      obtain ⟨appended, within⟩ := spec.goesOn next again
      have cleanNext : Zeroed next.buf := by
        have clean := spec.clean
        rwa [again] at clean
      obtain ⟨cleanEnd, outMsg⟩ := ih cleanNext within ran
      rw [outMsg, appended, Residue.Str.append_append]
      exact ⟨cleanEnd, rfl⟩
    next answer next returned =>
      rw [returned] at spec
      cases rest with
      | nil =>
        cases ran
        rw [received, List.flatMap_singleton]
        exact ⟨spec.clean, spec.outMsg⟩
      | cons => cases ran

end Spec

/-! ## Whole calls -/

def Attempt.received (attempt : Attempt) : List UInt8 := ReadLoop.received attempt.reads

def afterAttempt (outMsg : StdString) (attempt : Attempt) : StdString :=
  settle (outMsg.clear.append attempt.received)

theorem slice_spec {outMsg : StdString} {reads : List ReadOutcome} {result : PipeReadResult}
    {slice : Slice} (ran : readPipeMessageWithTimeout outMsg reads = some (result, slice)) :
    Zeroed slice.buf ∧ slice.outMsg = settle (outMsg.clear.append (received reads)) :=
  loop_spec (zeroed_replicate _) (Nat.zero_le _) ran

theorem untilDone_spec {hBrokerProcess : Bool} {overallTimeoutMs : UInt32} {startTick : UInt64}
    {outMsg : StdString} {slices : List Slice} {attempts : List Attempt} {finished : Finished}
    (ran : readPipeMessageUntilDone hBrokerProcess overallTimeoutMs startTick outMsg slices attempts =
      some finished) :
    (∀ slice ∈ finished.slices, slice ∈ slices ∨ Zeroed slice.buf) ∧
      finished.outMsg = attempts.foldl afterAttempt outMsg := by
  induction attempts generalizing outMsg slices with
  | nil => cases ran
  | cons attempt rest ih =>
    rw [readPipeMessageUntilDone] at ran
    split at ran
    · cases ran
    next rr slice sliceRan =>
      obtain ⟨clean, written⟩ := slice_spec sliceRan
      have added : ∀ each ∈ slices ++ [slice], each ∈ slices ∨ Zeroed each.buf := by
        intro each inside
        rcases List.mem_append.mp inside with inside | inside
        · exact Or.inl inside
        · exact Or.inr (List.mem_singleton.mp inside ▸ clean)
      split at ran
      next result _ =>
        cases rest with
        | nil =>
          cases ran
          exact ⟨added, written⟩
        | cons => cases ran
      next =>
        obtain ⟨each, outMsg⟩ := ih ran
        refine ⟨fun other inside => (each other inside).elim (added other) Or.inr, ?_⟩
        rw [outMsg, written]
        rfl

/-- What an attempt leaves at the start of the storage: its text with the terminator, which
is at the start where the text was given up. -/
def Attempt.left (attempt : Attempt) : List UInt8 :=
  if kMaxMsgBytes < attempt.received.length then 0 :: (attempt.received ++ [0]).tail
  else attempt.received ++ [0]

theorem length_left (attempt : Attempt) : attempt.left.length = attempt.received.length + 1 := by
  unfold Attempt.left
  split <;> simp

theorem storage_afterAttempt (outMsg : StdString) (attempt : Attempt) :
    (afterAttempt outMsg attempt).storage = Residue.overlay outMsg.storage attempt.left := by
  have written := Residue.Str.storage_written outMsg attempt.received
  unfold afterAttempt settle Attempt.left
  rw [Residue.Str.size_append, Residue.Str.size_clear, Nat.zero_add]
  split
  · rw [Residue.Str.storage_clear, written]
    exact Residue.overlay_first _ 0 (List.append_ne_nil_of_right_ne_nil _ (List.cons_ne_nil 0 []))
  · exact written

theorem storage_attempts (outMsg : StdString) (attempts : List Attempt) :
    (attempts.foldl afterAttempt outMsg).storage =
      (attempts.map Attempt.left).foldl Residue.overlay outMsg.storage := by
  induction attempts generalizing outMsg with
  | nil => rfl
  | cons attempt rest ih =>
    rw [List.foldl_cons, ih, storage_afterAttempt]
    rfl

/-- What the guard overwrites of the last attempt: the whole message, or nothing of one
that was given up. -/
def guarded (last : Attempt) : Nat :=
  if kMaxMsgBytes < last.received.length then 0 else last.received.length

theorem size_attempts (outMsg : StdString) (front : List Attempt) (last : Attempt) :
    ((front ++ [last]).foldl afterAttempt outMsg).size = guarded last := by
  rw [List.foldl_concat, afterAttempt, settle, guarded, Residue.Str.size_append,
    Residue.Str.size_clear, Nat.zero_add]
  split
  · rfl
  · rw [Residue.Str.size_append, Residue.Str.size_clear, Nat.zero_add]

/-- Whatever is received in an attempt that another one follows, or that exceeds the limit,
is zero, or lies at the start or where a later attempt writes its text or the terminator. -/
def PartsCovered : List Attempt → Prop
  | [] => True
  | attempt :: later =>
    (later ≠ [] ∨ kMaxMsgBytes < attempt.received.length →
      ∀ (i : Nat) byte, attempt.received[i]? = some byte → byte ≠ 0 →
        i = 0 ∨ ∃ next ∈ later, i ≤ next.received.length) ∧ PartsCovered later

theorem guarded_le (last : Attempt) : guarded last ≤ last.received.length := by
  unfold guarded
  split
  · exact Nat.zero_le _
  · exact Nat.le_refl _

theorem zeros_covered (n : Nat) : Residue.Covered (0 : UInt8) [List.replicate n 0] := by
  refine ⟨fun i byte found nonzero => ?_, trivial⟩
  exact absurd (List.eq_of_mem_replicate (List.mem_of_getElem? found)) nonzero

theorem left_behind (attempt : Attempt) {reached : Nat → Prop} (start : reached 0) :
    (∀ (i : Nat) byte, attempt.left[i]? = some byte → byte ≠ 0 → reached i) ↔
      ∀ (i : Nat) byte, attempt.received[i]? = some byte → byte ≠ 0 → reached i := by
  have behind (i : Nat) : attempt.left[i + 1]? = (attempt.received ++ [0])[i + 1]? := by
    unfold Attempt.left
    split
    · rw [List.getElem?_cons_succ, List.getElem?_tail]
    · rfl
  constructor
  · intro covered i byte found nonzero
    cases i with
    | zero => exact start
    | succ i =>
      refine covered (i + 1) byte ?_ nonzero
      rw [behind, List.getElem?_append_left (List.getElem?_eq_some_iff.mp found).1]
      exact found
  · intro covered i byte found nonzero
    cases i with
    | zero => exact start
    | succ i =>
      rw [behind] at found
      by_cases inside : i + 1 < attempt.received.length
      · rw [List.getElem?_append_left inside] at found
        exact covered (i + 1) byte found nonzero
      · rw [List.getElem?_append_right (Nat.le_of_not_lt inside)] at found
        exact absurd (List.mem_singleton.mp (List.mem_of_getElem? found)) nonzero

theorem covered_iff (front : List Attempt) (last : Attempt) :
    Residue.Covered 0 ((front ++ [last]).map Attempt.left ++
      [List.replicate (guarded last + 1) 0]) ↔ PartsCovered (front ++ [last]) := by
  induction front with
  | nil =>
    have zeros := zeros_covered (guarded last + 1)
    have reached (i : Nat) :
        (∃ next ∈ [List.replicate (guarded last + 1) (0 : UInt8)], i < next.length) ↔
          i ≤ guarded last := by simp [Nat.lt_succ_iff]
    simp only [List.nil_append, List.map_singleton, List.singleton_append, Residue.Covered.eq_2 _ _ [_],
      PartsCovered, and_true, iff_true_intro zeros, reached, ne_self_iff_false, false_or,
      List.not_mem_nil, false_and, exists_false, or_false]
    refine (@left_behind last (· ≤ guarded last) (Nat.zero_le _)).trans ?_
    by_cases large : kMaxMsgBytes < last.received.length
    · simp [guarded, large]
    · rw [guarded, if_neg large]
      exact iff_of_true (fun i byte found _ => Nat.le_of_lt (List.getElem?_eq_some_iff.mp found).1)
        fun exceeds => absurd exceeds large
  | cons attempt front ih =>
    -- The zeros of the guard reach no further than the last attempt.
    have reached (i : Nat) : (∃ next ∈ (front ++ [last]).map Attempt.left ++
        [List.replicate (guarded last + 1) 0], i < next.length) ↔
        i = 0 ∨ ∃ next ∈ front ++ [last], i ≤ next.received.length := by
      constructor
      · rintro ⟨next, inside, long⟩
        refine Or.inr ?_
        rcases List.mem_append.mp inside with inside | inside
        · obtain ⟨other, later, rfl⟩ := List.mem_map.mp inside
          rw [length_left] at long
          exact ⟨other, later, Nat.le_of_lt_succ long⟩
        · rw [List.mem_singleton.mp inside, List.length_replicate] at long
          exact ⟨last, by simp, Nat.le_trans (Nat.le_of_lt_succ long) (guarded_le last)⟩
      · rintro (rfl | ⟨other, later, long⟩)
        · exact ⟨_, List.mem_append_right _ (List.mem_singleton_self _), by simp⟩
        · refine ⟨_, List.mem_append_left _ (List.mem_map_of_mem later), ?_⟩
          rw [length_left]
          exact Nat.lt_succ_of_le long
    have followed : front ++ [last] ≠ [] := by simp
    rw [List.cons_append, List.map_cons, List.cons_append, Residue.Covered, PartsCovered, ih]
    simp only [reached, iff_true_intro followed, true_or, true_imp_iff]
    exact and_congr_left fun _ => left_behind attempt (Or.inl rfl)

def Finished.Clean (finished : Finished) : Prop :=
  (∀ slice ∈ finished.slices, Zeroed slice.buf) ∧ Zeroed finished.outMsg.storage

/-- After the guard has run nothing is left, exactly when every part of a message that was
given up is covered by what was read after it. -/
theorem readAndGuard_clean_iff {startTick : UInt64} {attempts : List Attempt} {finished : Finished}
    (ran : readAndGuard startTick attempts = some finished) :
    finished.Clean ↔ PartsCovered attempts := by
  obtain ⟨read, readRan, rfl⟩ := Option.map_eq_some_iff.mp ran
  obtain ⟨clean, outMsg⟩ := untilDone_spec readRan
  have buffers : ∀ slice ∈ read.slices, Zeroed slice.buf := fun slice inside =>
    (clean slice inside).resolve_left List.not_mem_nil
  rw [Finished.Clean, and_iff_right buffers]
  rcases List.eq_nil_or_concat' attempts with rfl | ⟨front, last, rfl⟩
  · cases readRan
  · rw [← covered_iff, ← @Residue.foldl_overlay_zero_iff _ 0 [0] (by simp), List.foldl_concat]
    dsimp only
    rw [secureClearString, Residue.Str.storage_wipe, outMsg, storage_attempts, size_attempts]
    rfl

def coveredAttempts : List Attempt :=
  [⟨[.moreData ⟨[0x70, 0x77], by decide⟩, .pending (.timeout ⟨[], by decide⟩)], false, 0⟩,
    ⟨[.ok ⟨[0x7B], by decide⟩], false, 0⟩]

theorem readAndGuard_clean_covered :
    ∃ finished, readAndGuard 0 coveredAttempts = some finished ∧ finished.Clean := by
  have covered : PartsCovered coveredAttempts := by
    refine ⟨fun _ i byte found _ => ?_, fun last => absurd last (by decide), trivial⟩
    have reached : i < 2 := (List.getElem?_eq_some_iff.mp found).1
    exact Or.inr ⟨_, List.mem_cons_self, Nat.le_of_lt_succ reached⟩
  obtain ⟨finished, ran⟩ : ∃ finished, readAndGuard 0 coveredAttempts = some finished := ⟨_, rfl⟩
  exact ⟨finished, ran, (readAndGuard_clean_iff ran).mpr covered⟩

/-- Three bytes, a time-out and a message of one: the third byte stays. -/
theorem readAndGuard_leaves_fragment :
    ¬ ∀ (startTick : UInt64) (attempts : List Attempt) (finished : Finished),
      readAndGuard startTick attempts = some finished → finished.Clean := by
  intro clean
  have left := clean 0 [⟨[.moreData ⟨[0x70, 0x77, 0x78], by decide⟩,
      .pending (.timeout ⟨[], by decide⟩)], false, 0⟩,
    ⟨[.ok ⟨[0x7B], by decide⟩], false, 0⟩] _ rfl
  exact absurd (left.2 0x78 (by decide)) (by decide)

/-! ## The reader of the transport -/

/-- Without its storage the message is the one that the transport keeps. -/
theorem take_receive (t : Transport.State) (s : Slice) (same : s.outMsg.contents = t.outMsg)
    (chunk : Chunk) (more : Bool) :
    t.receive chunk.bytes more =
      match s.take chunk more with
      | .again next => { t with phase := .issue, outMsg := next.outMsg.contents, io := .none }
      | .returned .ok next => { t.finish .ok with returned := t.returned ++ [next.outMsg.contents] }
      | .returned result _ => t.finish result := by
  unfold Transport.State.receive Slice.take
  split
  · rfl
  · rw [← same]
    dsimp only
    rw [Residue.Str.size, Residue.Str.contents_append]
    split
    · rfl
    · cases more <;> rfl

end Dot1xCP.Broker.ReadLoop
