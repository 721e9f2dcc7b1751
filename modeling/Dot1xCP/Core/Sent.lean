import Dot1xCP.Broker.Untorn
import Dot1xCP.Core.Coherence

/-! A call acts on a message that the broker sent, or refuses what it read.

The read may lose messages and parts of messages. What is left of a part is refused, so
whatever was lost, the call ends as it would end had it read one of the messages.
-/

set_option autoImplicit false

namespace Dot1xCP.Core
open Broker Broker.Fragments FlatJson

section Call
variable (machine : Machine) (pointers : OutPointers) (os : SerializationOs)

theorem afterRead_message (message : List UInt8) (s : World) (verdict : Verdict) :
    afterRead os s verdict = afterRead { os with message := message } s verdict := by
  cases verdict <;> rfl

theorem answer_message (message : List UInt8) (out : SerializationOut) (cpus : UsageScenario)
    (verdict : Verdict) : answer machine pointers os out cpus verdict =
      answer machine pointers { os with message := message } out cpus verdict := by
  cases verdict <;> rfl

theorem getSerialization_verdict {message : List UInt8}
    (same : verdict os.read os.message = verdict os.read message) (s : World) (cpus : UsageScenario) :
    getSerialization machine pointers os s cpus =
      getSerialization machine pointers { os with message := message } s cpus := by
  have read (s : World) (out : SerializationOut) :
      readBrokerMessage machine pointers os s out cpus =
        readBrokerMessage machine pointers { os with message := message } s out cpus := by
    rw [readBrokerMessage_eq, readBrokerMessage_eq, same]
    exact congrArg₂ Prod.mk (afterRead_message os message s _)
      (answer_message machine pointers os message out cpus _)
  have started : startBrokerSession pointers { os with message := message } s (clearedOut pointers) =
      startBrokerSession pointers os s (clearedOut pointers) := rfl
  unfold getSerialization
  simp only [read, started]

end Call

theorem verdict_untorn {text : List UInt8} {m : Transport.Message} (untorn : Untorn text m)
    {object : Lenient RawByte} (written : object.bytes = m) (filled : text ≠ [])
    (accepted : (parseJsonLine text emptyMsg).1 = true) : verdict .ok text = verdict .ok m := by
  have whole : m ≠ [] := by
    rw [← written, Lenient.bytes]
    simp
  have same := untorn.read object written emptyMsg accepted
  rw [verdict, verdict, List.isEmpty_eq_false_iff.mpr filled, List.isEmpty_eq_false_iff.mpr whole, same]

/-- Whatever a slice has torn or lost, a call whose text the decoder does not refuse is the
call that reads a message of the broker whole. -/
theorem getSerialization_sent (machine : Machine) (pointers : OutPointers) (os : SerializationOs)
    (s : World) (cpus : UsageScenario) (moves : List Fragments.Move) (d : Delivery)
    (ran : Transition.run Fragments.step Delivery.initial moves = some d)
    (objects : ∀ m ∈ d.reader.written, ∃ object : Lenient RawByte, object.bytes = m)
    (ok : os.read = .ok) (received : os.message ∈ d.reader.returned) :
    (parseJsonLine os.message emptyMsg).1 = false ∨ ∃ m ∈ d.reader.written,
      getSerialization machine pointers os s cpus =
        getSerialization machine pointers { os with message := m } s cpus := by
  have delivered := delivered_of_run ran
  have filled := (delivered.follows.sound.bounded _ received).1
  obtain ⟨m, sent, untorn⟩ := delivered.origin received
  cases accepted : (parseJsonLine os.message emptyMsg).1 with
  | false => exact Or.inl rfl
  | true =>
    obtain ⟨object, written⟩ := objects m sent
    refine Or.inr ⟨m, sent, getSerialization_verdict machine pointers os ?_ s cpus⟩
    rw [ok]
    exact verdict_untorn untorn written filled accepted

def waitingMessage : List UInt8 := ascii "\x7b\"type\":\"AUTH_IDLE\"\x7d"

def blankMoves : List Fragments.Move :=
  [byteWise .call, byteWise (.issue .pends), byteWise (.write (0x20 :: waitingMessage)),
    byteWise .complete, byteWise (.wait .object0), byteWise (.issue .pends), byteWise (.wait .timeout),
    byteWise .cancelIoEx, byteWise (.poll false), ⟨100, by decide, .issue .atOnce⟩]

theorem getSerialization_sent_blank :
    ∃ d, Transition.run Fragments.step Delivery.initial blankMoves = some d ∧
      d.reader.written = [0x20 :: waitingMessage] ∧ d.reader.returned = [waitingMessage] ∧
      ((parseJsonLine waitingMessage emptyMsg).1 = false ∨ ∃ m ∈ d.reader.written,
        getSerialization sampleMachine allPointers (sampleSystem .ok waitingMessage) World.initial .logon =
          getSerialization sampleMachine allPointers
            { sampleSystem .ok waitingMessage with message := m } World.initial .logon) := by
  have ran : (Transition.run Fragments.step Delivery.initial blankMoves).map
      (fun d => (d.reader.written, d.reader.returned)) =
        some ([0x20 :: waitingMessage], [waitingMessage]) := by decide +kernel
  obtain ⟨d, ended, same⟩ := Option.map_eq_some_iff.mp ran
  obtain ⟨written, returned⟩ := Prod.mk.inj same
  have accepted : (parseJsonLine (0x20 :: waitingMessage) emptyMsg).1 = true := by decide +kernel
  refine ⟨d, ended, written, returned, ?_⟩
  apply getSerialization_sent sampleMachine allPointers (sampleSystem .ok waitingMessage) World.initial
    .logon blankMoves d ended
  · intro m inside
    rw [written, List.mem_singleton] at inside
    rw [inside]
    obtain ⟨object, same⟩ := parseJsonLine_sound accepted
    exact ⟨object, same.symm⟩
  · rfl
  · rw [returned]
    exact List.mem_singleton_self waitingMessage

end Dot1xCP.Core
