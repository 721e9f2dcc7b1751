import Dot1xCP.Broker.Blocking
import Dot1xCP.Core.ProtocolTable

/-! How long a call keeps LogonUI and the session lock.

A call waits for the client, for the message, and for a broker that is to exit; a wait for a
process is in the trace with its time-out. Nothing else in a call waits.
-/

set_option autoImplicit false

namespace Dot1xCP.Core
open Broker ReadLoop

def Effect.waits : Effect → Nat
  | .waited _ milliseconds _ => milliseconds
  | _ => 0

def waits (effects : List Effect) : Nat := (effects.map Effect.waits).sum

@[simp] theorem waits_nil : waits [] = 0 := rfl

@[simp] theorem waits_cons (effect : Effect) (effects : List Effect) :
    waits (effect :: effects) = effect.waits + waits effects := List.sum_cons

@[simp] theorem waits_append (first second : List Effect) :
    waits (first ++ second) = waits first + waits second := by
  rw [waits, List.map_append, List.sum_append, ← waits, ← waits]

/-- A step waits for processes at most so long. -/
def WaitsAtMost (milliseconds : Nat) (s next : World) : Prop :=
  ∃ effects, next.trace = effects ++ s.trace ∧ waits effects ≤ milliseconds

section Waits
variable {s next last : World} {m n : Nat}

theorem WaitsAtMost.of_trace (same : next.trace = s.trace) : WaitsAtMost n s next :=
  ⟨[], same, Nat.zero_le n⟩

theorem WaitsAtMost.trans (first : WaitsAtMost m s next) (second : WaitsAtMost n next last) :
    WaitsAtMost (m + n) s last := by
  obtain ⟨earlier, before, few⟩ := first
  obtain ⟨later, after, more⟩ := second
  refine ⟨later ++ earlier, ?_, ?_⟩
  · rw [after, before, List.append_assoc]
  · rw [waits_append, Nat.add_comm]
    exact Nat.add_le_add few more

theorem WaitsAtMost.mono (atMost : WaitsAtMost m s next) (le : m ≤ n) : WaitsAtMost n s next :=
  atMost.imp fun _ both => ⟨both.1, Nat.le_trans both.2 le⟩

/-- A broker that does not exit in time is given half a second after its termination. -/
theorem waits_closingProcess (os : CloseOs) (pi : ProcessInformation) (waitMs : Nat) :
    waits (closingProcess os pi waitMs) ≤ waitMs + 500 := by
  obtain ⟨process, thread⟩ := pi
  obtain ⟨result, terminated, after⟩ := os
  cases process <;> cases thread <;> cases result <;> cases terminated <;>
    simp [closingProcess, Effect.waits]
  all_goals omega

theorem waits_closingSession (os : CloseOs) (session : BrokerSessionState) (waitMs : Nat) :
    waits (closingSession os session waitMs) ≤ waitMs + 500 := by
  have pipe : waits (closingPipe session.hPipe) = 0 := by
    cases h : session.hPipe <;> simp [closingPipe, Effect.waits]
  rw [closingSession, waits_append, pipe, Nat.add_zero]
  exact waits_closingProcess os session.pi waitMs

theorem waits_request (os : RefreshOs) (s : World) (delayMs : Nat) (generation : BitVec 32) :
    WaitsAtMost 0 s (requestCredentialsChangedAsync os s delayMs generation) := by
  rcases requestCredentialsChangedAsync_cases os s delayMs generation with
    same | ⟨events, _, same⟩ | ⟨events, _, _, same⟩
  · exact .of_trace (congrArg World.trace same)
  · exact ⟨[.release events, .addRef events], congrArg World.trace same, Nat.le_refl 0⟩
  · exact ⟨[.addRef events], congrArg World.trace same, Nat.le_refl 0⟩

theorem waits_ended (os : CloseOs) (s : World) (waitMs : Nat) :
    WaitsAtMost (waitMs + 500) s (s.ended.emits (closingSession os s.session waitMs)) :=
  ⟨_, rfl, waits_closingSession os s.session waitMs⟩

theorem waits_afterRead (os : SerializationOs) (s : World) (verdict : Verdict) :
    WaitsAtMost 1500 s (afterRead os s verdict) := by
  cases verdict with
  | timeout => exact (waits_request os.refresh s _ _).mono (Nat.zero_le _)
  | pending | idle =>
    exact ((WaitsAtMost.of_trace rfl).trans (waits_request os.refresh _ _ _)).mono
      (show 0 + 0 ≤ 1500 by decide)
  | lost =>
    have armed : WaitsAtMost 500 s
        (armForceNextAutoSubmit (s.ended.emits (closingSession os.close s.session 0))) :=
      waits_ended os.close s 0
    exact (armed.trans (waits_request os.refresh _ _ _)).mono (by decide)
  | malformed => exact (waits_ended os.close s 0).mono (by decide)
  | empty | final m => exact waits_ended os.close s 1000

theorem waits_started (s : World) : WaitsAtMost 0 s (World.started s) :=
  ⟨[.processCreated _ _, .launchBroker, .pipeCreated _], rfl, Nat.le_refl 0⟩

theorem waits_afterStart (os : SerializationOs) (s : World) (verdict : StartVerdict) :
    WaitsAtMost 1000 s (afterStart os s verdict) := by
  cases verdict with
  | noPipe => exact .of_trace rfl
  | noBroker => exact ⟨[.closed _, .launchBroker, .pipeCreated _], rfl, Nat.zero_le 1000⟩
  | notConnected result =>
    refine ⟨closingProcess os.close ⟨some (s.nextHandle + 1), some (s.nextHandle + 2)⟩ 500 ++
      [.closed s.nextHandle, .processCreated (s.nextHandle + 1) (s.nextHandle + 2), .launchBroker,
        .pipeCreated s.nextHandle], ?_, ?_⟩
    · rw [List.append_assoc]
      rfl
    · rw [waits_append]
      exact waits_closingProcess os.close _ 500
  | started => exact (waits_started s).mono (Nat.zero_le _)

end Waits

def Reads (pointers : OutPointers) (os : SerializationOs) (s : World) : Prop :=
  pointers.pcpgsr = true ∧ pointers.pcpcs = true ∧ atRead pointers os s ≠ none

structure CallTime where
  connect : Nat
  attempts : List TimedAttempt

def CallTime.passes (time : CallTime) : Nat :=
  (time.attempts.getLast?.map fun last => last.reads.length).getD 0

/-- The times are those of a call: the client is waited for within its time-out, and what is
read is what the system answers. -/
structure CallTime.Of (time : CallTime) (pointers : OutPointers) (os : SerializationOs) (s : World) :
    Prop where
  connect : time.connect ≤ 2000
  punctual : Punctual 250 time.attempts
  unread : ¬ Reads pointers os s → time.attempts = []
  read : Reads pointers os s → ∃ period start finished, 0 < period ∧ period ≤ 16 ∧
    readPipeMessageUntilDone true 1200 (getTickCount64 period start) Residue.Str.empty []
      (stampedFrom period start time.attempts) = some finished ∧
    os.read = finished.result ∧ os.message = finished.outMsg.contents

section Call
variable {machine : Machine} {pointers : OutPointers} {os : SerializationOs} {s : World}
variable {time : CallTime}

theorem CallTime.Of.lasting_le (timed : time.Of pointers os s) :
    time.passes ≤ 262145 ∧ lasting time.attempts ≤ 1216 + 250 * time.passes := by
  by_cases reads : Reads pointers os s
  · obtain ⟨period, start, finished, ticks, fine, ran, _, _⟩ := timed.read reads
    obtain ⟨last, same, few, within⟩ := read_lasting ticks fine timed.punctual ran
    have passes : time.passes = last.reads.length := by
      rw [CallTime.passes, same]
      rfl
    rw [passes]
    exact ⟨few, within⟩
  · have none := timed.unread reads
    rw [CallTime.passes, none]
    exact ⟨Nat.zero_le _, Nat.zero_le _⟩

theorem waits_getSerialization (coherent : Coherent s) (cpus : UsageScenario) :
    WaitsAtMost 1500 s (getSerialization machine pointers os s cpus).1 := by
  refine coherent.getSerialization_ways machine pointers os cpus (.of_trace rfl) ?_ ?_ ?_
  · intro _ verdict
    exact waits_afterRead os s verdict
  · intro _ verdict
    exact ((waits_started s).trans (waits_afterRead os _ verdict)).mono (by decide)
  · intro _ verdict
    exact (waits_afterStart os s verdict).mono (by decide)

end Call

/-- A call is over within 4716 ms and one slice for each pass of the last slice, and the
passes are bounded by the largest message. -/
theorem getSerialization_waits (machine : Machine) (pointers : OutPointers) (os : SerializationOs)
    (s : World) (cpus : UsageScenario) (reached : Reachable machine s) (time : CallTime)
    (timed : time.Of pointers os s) :
    time.passes ≤ 262145 ∧ ∃ effects,
      (getSerialization machine pointers os s cpus).1.trace = effects ++ s.trace ∧
      time.connect + lasting time.attempts + waits effects ≤ 4716 + 250 * time.passes := by
  have connect := timed.connect
  obtain ⟨few, read⟩ := timed.lasting_le
  obtain ⟨effects, after, others⟩ :=
    @waits_getSerialization machine pointers os s reached.coherent cpus
  refine ⟨few, effects, after, ?_⟩
  omega

def slowTime : CallTime where
  connect := 40
  attempts :=
    [⟨[⟨.pending (.timeout oneByte), 250⟩], false⟩, ⟨[lateByte true, ⟨.ok oneByte, 0⟩], false⟩]

theorem getSerialization_waits_slow :
    ∃ effects, (getSerialization sampleMachine allPointers (sampleSystem .ok [0x20, 0x20])
        World.initial .logon).1.trace = effects ++ World.initial.trace ∧
      slowTime.connect + lasting slowTime.attempts + waits effects ≤ 5216 := by
  have punctual : Punctual 250 slowTime.attempts := by unfold Punctual; decide
  have ran : ((readPipeMessageUntilDone true 1200 (getTickCount64 16 1000) Residue.Str.empty []
      (stampedFrom 16 1000 slowTime.attempts)).map fun finished =>
        (finished.result, finished.outMsg.contents)) = some (.ok, [0x20, 0x20]) := by
    decide +kernel
  obtain ⟨finished, ended, same⟩ := Option.map_eq_some_iff.mp ran
  rw [Prod.mk.injEq] at same
  have timed : slowTime.Of allPointers (sampleSystem .ok [0x20, 0x20]) World.initial :=
    { connect := by decide
      punctual
      unread := fun reads => absurd ⟨rfl, rfl, by decide +kernel⟩ reads
      read := fun _ => ⟨16, 1000, finished, by decide, by decide, ended, same.1.symm, same.2.symm⟩ }
  exact (getSerialization_waits sampleMachine allPointers _ World.initial .logon ⟨[], rfl⟩ slowTime
    timed).2

end Dot1xCP.Core
