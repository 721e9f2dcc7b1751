import Dot1xCP.Broker.ReadBounds
import Mathlib.Algebra.Group.Action.Defs
import Mathlib.Algebra.Order.BigOperators.Group.List
import Mathlib.Algebra.Order.Ring.Nat

/-! How long `ReadPipeMessageUntilDone` keeps its caller waiting.

Time passes only in `WaitForMultipleObjects`. The overall time-out is looked at when a slice
has timed out, so a message that keeps arriving in fragments is waited for again and again.
-/

set_option autoImplicit false

namespace Dot1xCP.Broker.ReadLoop
open Transport (kBufferBytes kMaxMsgBytes)

/-- A pass through the loop, and for how many milliseconds it waits if the read is pending. -/
structure TimedRead where
  outcome : ReadOutcome
  blocked : Nat
  deriving DecidableEq, Repr

def TimedRead.lasts (read : TimedRead) : Nat :=
  match read.outcome with
  | .pending _ => read.blocked
  | _ => 0

structure TimedAttempt where
  reads : List TimedRead
  exited : Bool
  deriving DecidableEq, Repr

def TimedAttempt.lasts (attempt : TimedAttempt) : Nat := (attempt.reads.map TimedRead.lasts).sum

/-- `GetTickCount64`: the time in milliseconds at the last clock interrupt. -/
def getTickCount64 (period now : Nat) : UInt64 := .ofNat (now - now % period)

def TimedAttempt.stamped (period now : Nat) (attempt : TimedAttempt) : Attempt :=
  ⟨attempt.reads.map TimedRead.outcome, attempt.exited, getTickCount64 period (now + attempt.lasts)⟩

def stampedFrom (period now : Nat) : List TimedAttempt → List Attempt
  | [] => []
  | attempt :: rest =>
    attempt.stamped period now :: stampedFrom period (now + attempt.lasts) rest

/-- No wait outlasts its time-out. -/
def Punctual (sliceMs : Nat) (attempts : List TimedAttempt) : Prop :=
  ∀ attempt ∈ attempts, ∀ read ∈ attempt.reads, read.blocked ≤ sliceMs

def lasting (attempts : List TimedAttempt) : Nat := (attempts.map TimedAttempt.lasts).sum

section Time
variable {sliceMs period : Nat}

theorem lasts_le {attempt : TimedAttempt} (punctual : ∀ read ∈ attempt.reads, read.blocked ≤ sliceMs) :
    attempt.lasts ≤ sliceMs * attempt.reads.length := by
  have each : ∀ n ∈ attempt.reads.map TimedRead.lasts, n ≤ sliceMs := by
    refine List.forall_mem_map.mpr fun read inside => ?_
    unfold TimedRead.lasts
    split
    · exact punctual read inside
    · exact Nat.zero_le _
  have bound := List.sum_le_card_nsmul _ _ each
  rwa [List.length_map, smul_eq_mul, Nat.mul_comm] at bound

theorem sub_lt_of_ticks {start now : Nat} {overallMs : UInt32} (ticks : 0 < period)
    (later : start ≤ now) (soon : now - start < 2 ^ 63)
    (early : getTickCount64 period now - getTickCount64 period start < overallMs.toUInt64) :
    now - start < overallMs.toNat + period := by
  have small := overallMs.toNat_lt
  have startPart := Nat.mod_lt start ticks
  have nowPart := Nat.mod_lt now ticks
  have startWhole := Nat.mod_le start period
  have nowWhole := Nat.mod_le now period
  rw [UInt64.lt_iff_toNat_lt, UInt64.toNat_sub] at early
  simp only [getTickCount64, UInt64.toNat_ofNat', UInt32.toNat_toUInt64] at early
  generalize now % period = a at *
  generalize start % period = b at *
  omega

/-- When a call ends, only its last slice can have begun within the overall time and still go
on after it: before it the overall time was not over. -/
theorem lasting_split {hBrokerProcess : Bool} {overallTimeoutMs : UInt32} {start now : Nat}
    {outMsg : StdString} {slices : List Slice} {attempts : List TimedAttempt} {finished : Finished}
    (finite : overallTimeoutMs ≠ INFINITE) (ticks : 0 < period) (fine : period < 2 ^ 32)
    (sliceFits : sliceMs < 2 ^ 32) (punctual : Punctual sliceMs attempts) (later : start ≤ now)
    (within : now = start ∨ now - start < overallTimeoutMs.toNat + period)
    (ran : readPipeMessageUntilDone hBrokerProcess overallTimeoutMs (getTickCount64 period start) outMsg
      slices (stampedFrom period now attempts) = some finished) :
    ∃ earlier last, attempts = earlier ++ [last] ∧
      (now + lasting earlier = start ∨
        now + lasting earlier - start < overallTimeoutMs.toNat + period) ∧
      last.lasts ≤ sliceMs * last.reads.length ∧ last.reads.length ≤ kMaxMsgBytes + 1 := by
  induction attempts generalizing now outMsg slices with
  | nil => cases ran
  | cons attempt rest ih =>
    have slow := lasts_le (punctual attempt List.mem_cons_self)
    rw [stampedFrom, readPipeMessageUntilDone] at ran
    split at ran
    · cases ran
    next rr slice sliceRan =>
      have few : attempt.reads.length ≤ kMaxMsgBytes + 1 := by
        have bounds := (slice_bounds sliceRan).iterations
        rw [TimedAttempt.stamped, List.length_map] at bounds
        exact Nat.le_trans (Nat.le_add_right _ _) bounds
      split at ran
      next result after =>
        have none : rest = [] := by
          cases rest with
          | nil => rfl
          | cons next rest => cases ran
        subst none
        exact ⟨[], attempt, rfl, within, slow, few⟩
      next again =>
        have early := (afterSlice_none again).2 finite
        have soon : now + attempt.lasts - start < 2 ^ 63 := by
          have slice := Nat.le_trans slow (Nat.mul_le_mul (Nat.le_of_lt sliceFits) few)
          have overall := overallTimeoutMs.toNat_lt
          unfold kMaxMsgBytes at slice
          omega
        have stillWithin := sub_lt_of_ticks ticks (Nat.le_trans later (Nat.le_add_right _ _)) soon
          early
        obtain ⟨earlier, last, same, before, rest⟩ :=
          ih (fun other inside => punctual other (List.mem_cons_of_mem _ inside))
            (Nat.le_trans later (Nat.le_add_right _ _)) (Or.inr stillWithin) ran
        refine ⟨attempt :: earlier, last, by rw [same, List.cons_append], ?_, rest⟩
        rw [lasting, List.map_cons, List.sum_cons, ← Nat.add_assoc]
        exact before

/-- The read of `GetSerialization` is over within the overall time and one slice for each
pass of the last slice, however the message arrives. -/
theorem read_lasting {start : Nat} {outMsg : StdString} {attempts : List TimedAttempt}
    {finished : Finished} (ticks : 0 < period) (fine : period ≤ 16) (punctual : Punctual 250 attempts)
    (ran : readPipeMessageUntilDone true 1200 (getTickCount64 period start) outMsg []
      (stampedFrom period start attempts) = some finished) :
    ∃ last, attempts.getLast? = some last ∧ last.reads.length ≤ 262145 ∧
      lasting attempts ≤ 1216 + 250 * last.reads.length := by
  obtain ⟨earlier, last, rfl, before, slow, few⟩ := lasting_split (by decide) ticks
    (Nat.lt_of_le_of_lt fine (by decide)) (by decide) punctual (Nat.le_refl start) (Or.inl rfl) ran
  have overall : (1200 : UInt32).toNat = 1200 := rfl
  refine ⟨last, List.getLast?_concat, few, ?_⟩
  rw [lasting, List.map_append, List.sum_append, ← lasting, List.map_singleton, List.sum_singleton]
  omega

end Time

/-! ## A message that keeps arriving -/

def oneByte : Chunk := ⟨[0x20], by decide⟩

def lateByte (more : Bool) : TimedRead :=
  ⟨.pending (.object0 (if more then .moreData oneByte else .done oneByte)), 250⟩

def trickle (n : Nat) : TimedAttempt := ⟨List.replicate n (lateByte true) ++ [lateByte false], false⟩

theorem pass_lateByte {s : Slice} (room : s.outMsg.size < kMaxMsgBytes) (more : Bool) :
    ∃ next, next.outMsg.size = s.outMsg.size + 1 ∧
      s.pass (lateByte more).outcome = if more then .again next else .returned .ok next := by
  have grown := Residue.Str.size_append s.outMsg oneByte.bytes
  have within : ¬ kMaxMsgBytes < (s.outMsg.append oneByte.bytes).size := by
    rw [grown]
    exact Nat.not_lt.mpr room
  cases more with
  | true => exact ⟨_, grown, if_neg within⟩
  | false => exact ⟨_, grown, if_neg within⟩

theorem loop_trickle {n : Nat} {s : Slice} (room : s.outMsg.size + n < kMaxMsgBytes) :
    ∃ final, s.loop ((trickle n).reads.map TimedRead.outcome) = some (.ok, final) := by
  have first := pass_lateByte (Nat.lt_of_le_of_lt (Nat.le_add_right _ n) room)
  induction n generalizing s with
  | zero =>
    obtain ⟨final, _, passed⟩ := first false
    change ∃ final, s.loop [(lateByte false).outcome] = some (.ok, final)
    rw [Slice.loop, passed]
    exact ⟨final, rfl⟩
  | succ n ih =>
    obtain ⟨next, grown, passed⟩ := first true
    have roomNext : next.outMsg.size + n < kMaxMsgBytes := by omega
    obtain ⟨final, ran⟩ := ih roomNext
      (pass_lateByte (Nat.lt_of_le_of_lt (Nat.le_add_right _ n) roomNext))
    refine ⟨final, ?_⟩
    change s.loop ((lateByte true).outcome :: (trickle n).reads.map TimedRead.outcome) = _
    rw [Slice.loop, passed]
    exact ran

theorem lasts_trickle (n : Nat) : (trickle n).lasts = 250 * (n + 1) := by
  have more : (lateByte true).lasts = 250 := rfl
  have last : (lateByte false).lasts = 250 := rfl
  rw [TimedAttempt.lasts, trickle, List.map_append, List.map_replicate, List.sum_append, more,
    List.map_singleton, List.sum_singleton, last, List.sum_replicate, smul_eq_mul]
  omega

/-- A client can make the call last for a slice for each byte that a message may have. -/
theorem read_lasting_trickle (n : Nat) (short : n < 262144) (period start : Nat) :
    Punctual 250 [trickle n] ∧ lasting [trickle n] = 250 * (n + 1) ∧
      ∃ finished, readPipeMessageUntilDone true 1200 (getTickCount64 period start) Residue.Str.empty []
        (stampedFrom period start [trickle n]) = some finished ∧ finished.result = .ok := by
  refine ⟨?_, ?_, ?_⟩
  · intro attempt inside read listed
    cases List.mem_singleton.mp inside
    rcases List.mem_append.mp listed with early | last
    · cases List.eq_of_mem_replicate early
      exact Nat.le_refl 250
    · cases List.mem_singleton.mp last
      exact Nat.le_refl 250
  · rw [lasting, List.map_singleton, List.sum_singleton, lasts_trickle]
  · obtain ⟨final, ran⟩ := @loop_trickle n (Slice.entered Residue.Str.empty) (by
      rw [show (Slice.entered Residue.Str.empty).outMsg.size = 0 from rfl, Nat.zero_add]
      exact short)
    refine ⟨⟨.ok, final.outMsg, [final]⟩, ?_, rfl⟩
    rw [stampedFrom, readPipeMessageUntilDone, readPipeMessageWithTimeout, TimedAttempt.stamped, ran]
    rfl

end Dot1xCP.Broker.ReadLoop
