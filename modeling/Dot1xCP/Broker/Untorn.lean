import Dot1xCP.Broker.Fragments
import Dot1xCP.Broker.JsonLine
import Dot1xCP.Lib.FlatJson.Scan
import Mathlib.Data.List.Forall2

/-! What the decoder makes of a torn message.

A slice that times out in the middle of a message drops what it has read, and the rest is
returned as if it were a message. The rest of an object is not an object, so the decoder
refuses it. What it accepts are messages of the broker, each at most once and in the order
in which they were written.
-/

set_option autoImplicit false

namespace Dot1xCP.Broker
open FlatJson

section Written
variable {α : Type} [Literal α]

theorem scan_tail (tail : Tail α) : scan .outside tail.bytes = some .outside := by
  induction tail with
  | close ws =>
    rw [Tail.bytes, scan_append, scan_outside_blank]
    rfl
  | last member =>
    rw [Tail.bytes, scan_append, scan_member]
    rfl
  | more member rest ih =>
    rw [Tail.bytes, scan_append, scan_member, Option.bind_some, scan_cons]
    exact ih

theorem scan_object (object : Lenient α) : scan .before object.bytes = some .outside := by
  rw [Lenient.bytes, scan_append, scan_blank object.before (by rintro (_ | _ | _ | _) <;> rfl),
    Option.bind_some, scan_cons]
  change scan .outside (object.tail.bytes ++ blank object.after) = some .outside
  rw [scan_append, scan_tail, Option.bind_some, scan_outside_blank]

end Written

theorem parseJsonLine_blank (ws : List Ws) (line : List UInt8) (out : Msg) :
    parseJsonLine (blank ws ++ line) out = parseJsonLine line out := by
  have same : trim (blank ws ++ line) = trim line := by rw [trim, trim, dropWhile_blank]
  rw [parseJsonLine, parseJsonLine, same]

/-- The rest of an object is read as the whole or not at all. -/
theorem parseJsonLine_rest {object : Lenient RawByte} {cut rest : List UInt8} {out : Msg}
    (same : object.bytes = cut ++ rest) (accepted : (parseJsonLine rest out).1 = true) :
    parseJsonLine object.bytes out = parseJsonLine rest out := by
  obtain ⟨other, rfl⟩ := parseJsonLine_sound accepted
  obtain ⟨ws, rfl⟩ := blank_of_objects (same ▸ scan_object object) (scan_object other)
  rw [same, parseJsonLine_blank]

end Dot1xCP.Broker

namespace Dot1xCP.Broker.Fragments
open Transport FlatJson

/-- A returned text, and the message of which it is the end. -/
structure Untorn (text : List UInt8) (m : Message) : Prop where
  suffix : text <:+ m
  read : ∀ object : Lenient RawByte, object.bytes = m → ∀ out,
    (parseJsonLine text out).1 = true → parseJsonLine text out = parseJsonLine m out

theorem untorn_of_suffix {text : List UInt8} {m : Message} (suffix : text <:+ m) : Untorn text m where
  suffix := suffix
  read := by
    rintro object rfl out accepted
    obtain ⟨cut, same⟩ := suffix
    exact (parseJsonLine_rest same.symm accepted).symm

def Delivery.current (d : Delivery) : List Message :=
  if d.reader.io.isDone || d.reader.remainder.isSome then [d.source] else []

/-- What was completed, what is being delivered and what waits was written in this order. -/
structure Delivered (d : Delivery) : Prop where
  follows : Follows d
  ends : List.Forall₂ (fun text m => text <:+ m) d.reader.returned d.completed
  order : (d.completed ++ d.current ++ d.reader.queue).Sublist d.reader.written

section Steps
variable {d next : Delivery} {chunk : List UInt8} {more : Bool}

theorem delivered_initial : Delivered Delivery.initial where
  follows := follows_initial
  ends := .nil
  order := .slnil

theorem delivered_taken (delivered : Delivered d) (idle : d.reader.io.isDone = false) {bytes : Nat}
    (positive : 0 < bytes) (moved : d.transfer bytes = some (chunk, more, next)) {phase : Phase}
    (follows : Follows
      { next with reader := { next.reader with phase := phase, io := .done chunk more } }) :
    Delivered { next with reader := { next.reader with phase := phase, io := .done chunk more } } := by
  obtain ⟨⟨queue, remainder, rest, _⟩, completed, origin⟩ := transfer_spec positive moved
  have returned : next.reader.returned = d.reader.returned := by rw [rest]
  have written : next.reader.written = d.reader.written := by rw [rest]
  refine ⟨follows, ?_, ?_⟩
  · change List.Forall₂ _ next.reader.returned next.completed
    rw [returned, completed]
    exact delivered.ends
  · change (next.completed ++ [next.source] ++ next.reader.queue).Sublist next.reader.written
    have order := delivered.order
    rw [written, completed]
    rcases origin with ⟨begun, queued, source, _⟩ | ⟨fresh, queued, _, _⟩
    · have current : d.current = [d.source] := by simp [Delivery.current, begun]
      rw [source, queued, ← current]
      exact order
    · have current : d.current = [] := by simp [Delivery.current, idle, fresh]
      rw [current, queued, List.append_nil] at order
      rw [List.append_assoc]
      exact order

theorem Delivered.keep (delivered : Delivered d) (follows : Follows next)
    (returned : next.reader.returned = d.reader.returned) (completed : next.completed = d.completed)
    (current : next.current.Sublist d.current) {later : List Message}
    (queue : next.reader.queue = d.reader.queue ++ later)
    (written : next.reader.written = d.reader.written ++ later) : Delivered next where
  follows := follows
  ends := by
    rw [returned, completed]
    exact delivered.ends
  order := by
    rw [completed, queue, written, ← List.append_assoc]
    exact List.Sublist.append
      ((((List.Sublist.refl _).append current).append (List.Sublist.refl _)).trans delivered.order)
      (List.Sublist.refl _)

theorem current_sublist (source : next.source = d.source)
    (stays : next.reader.io.isDone = true ∨ next.reader.remainder.isSome = true →
      d.reader.io.isDone = true ∨ d.reader.remainder.isSome = true) :
    next.current.Sublist d.current := by
  unfold Delivery.current
  rw [← Bool.or_eq_true, ← Bool.or_eq_true] at stays
  split
  next done =>
    rw [if_pos (stays done), source]
  next => exact List.nil_sublist _

theorem delivered_receive (delivered : Delivered d) (io : d.reader.io = .done chunk more) :
    Delivered (d.receive chunk more) := by
  have follows := follows_receive delivered.follows io
  have done : d.reader.io.isDone = true := by rw [io]; rfl
  obtain ⟨isMore, _⟩ := delivered.follows.sound.done chunk more io
  obtain ⟨live, reading⟩ := busy_live delivered.follows.sound (by rw [io]; simp)
  obtain ⟨dropped, whole, _⟩ := delivered.follows.whole (Or.inl done) live
  unfold Delivery.receive at follows ⊢
  rcases receive_cases d.reader chunk more with ⟨_, same⟩ | ⟨_, rfl, same⟩ | ⟨_, rfl, same⟩
  · rw [same] at follows ⊢
    exact delivered.keep follows rfl rfl (current_sublist rfl fun _ => Or.inl done)
      (List.append_nil _).symm (List.append_nil _).symm
  · rw [same] at follows ⊢
    exact delivered.keep follows rfl rfl (current_sublist rfl fun _ => Or.inl done)
      (List.append_nil _).symm (List.append_nil _).symm
  -- The message is complete: what was returned is the end of it.
  · rw [Option.isSome_eq_false_iff, Option.isNone_iff_eq_none] at isMore
    have suffix : d.reader.outMsg ++ chunk <:+ d.source := by
      rw [held, if_neg reading, io, isMore] at whole
      exact ⟨dropped, by simpa [Io.bytes] using whole.symm⟩
    have current : d.current = [d.source] := by simp [Delivery.current, done]
    rw [same] at follows ⊢
    refine ⟨follows, List.rel_append delivered.ends (.cons suffix .nil), ?_⟩
    have order := delivered.order
    rw [current] at order
    change (d.completed ++ [d.source] ++ Delivery.current _ ++ d.reader.queue).Sublist d.reader.written
    rw [Delivery.current, if_neg (by simp [State.finish, Io.isDone, isMore]), List.append_nil]
    exact order

theorem receive_feeds (s : State) (chunk : List UInt8) (more : Bool) :
    (s.receive chunk more).queue = s.queue ∧ (s.receive chunk more).written = s.written := by
  rcases receive_cases s chunk more with ⟨_, same⟩ | ⟨_, _, same⟩ | ⟨_, _, same⟩
  all_goals
    rw [same]
    exact ⟨rfl, rfl⟩

theorem step_feeds {s after : State} {event : Event} (stepped : Transport.step s event = some after)
    (drained : event = .issue .atOnce ∨ event = .complete → s.Drained) :
    ∃ later, after.queue = s.queue ++ later ∧ after.written = s.written ++ later := by
  have idle {after : State} (queue : after.queue = s.queue) (written : after.written = s.written) :
      ∃ later, after.queue = s.queue ++ later ∧ after.written = s.written ++ later :=
    ⟨[], by rw [queue, List.append_nil], by rw [written, List.append_nil]⟩
  cases event with
  | write m =>
    obtain ⟨_, same⟩ := Option.ite_none_right_eq_some.mp stepped
    cases same
    exact ⟨[m], rfl, rfl⟩
  | closeEnd | exit =>
    cases stepped
    exact idle rfl rfl
  | call =>
    unfold Transport.step at stepped
    dsimp only at stepped
    split at stepped
    · obtain ⟨_, same⟩ := Option.ite_none_right_eq_some.mp stepped
      cases same
      exact idle rfl rfl
    · cases stepped
  | issue outcome =>
    obtain ⟨_, stepped⟩ := Option.ite_none_right_eq_some.mp stepped
    cases outcome with
    | noEvent | error | pends =>
      cases stepped
      exact idle rfl rfl
    | atOnce =>
      have empty : s.transfer = none := transferUpTo_none.mpr (drained (Or.inl rfl))
      unfold State.issueRead at stepped
      dsimp only at stepped
      rw [empty] at stepped
      obtain ⟨_, same⟩ := Option.ite_none_left_eq_some.mp stepped
      cases same
      exact idle rfl rfl
  | complete =>
    obtain ⟨_, stepped⟩ := Option.ite_none_right_eq_some.mp stepped
    have empty : s.transfer = none := transferUpTo_none.mpr (drained (Or.inr rfl))
    unfold State.complete at stepped
    rw [empty] at stepped
    obtain ⟨_, same⟩ := Option.ite_none_left_eq_some.mp stepped
    cases same
    exact idle rfl rfl
  | completeFailed =>
    obtain ⟨_, same⟩ := Option.ite_none_right_eq_some.mp stepped
    cases same
    exact idle rfl rfl
  | wait outcome =>
    obtain ⟨_, stepped⟩ := Option.ite_none_right_eq_some.mp stepped
    cases outcome with
    | object0 =>
      unfold State.waitOver at stepped
      dsimp only at stepped
      split at stepped <;> cases stepped
      · obtain ⟨queue, written⟩ := receive_feeds s _ _
        exact idle queue written
      · exact idle rfl rfl
      · exact idle rfl rfl
    | object1 | timeout =>
      obtain ⟨_, same⟩ := Option.ite_none_right_eq_some.mp stepped
      cases same
      exact idle rfl rfl
    | failed =>
      cases stepped
      exact idle rfl rfl
  | cancelIoEx =>
    change s.cancelIoEx = some after at stepped
    unfold State.cancelIoEx at stepped
    split at stepped <;> cases stepped <;> exact idle rfl rfl
  | poll elapsed =>
    obtain ⟨_, same⟩ := Option.ite_none_right_eq_some.mp stepped
    cases same
    unfold State.poll
    split_ifs <;> exact idle rfl rfl

theorem cancel_drops {s after : State} (stepped : s.cancelIoEx = some after) :
    after.io = .none ∧ after.remainder = s.remainder := by
  unfold State.cancelIoEx at stepped
  split at stepped <;> cases stepped <;> exact ⟨rfl, rfl⟩

theorem Delivered.step (d : Delivery) (move : Move) (next : Delivery) (delivered : Delivered d)
    (stepped : step d move = some next) : Delivered next := by
  have follows := Follows.step d move next delivered.follows stepped
  rcases step_cases stepped with ⟨chunk, more, taken, _, phase, moved, rfl⟩ |
    ⟨chunk, more, _, _, io, rfl⟩ | ⟨chunk, more, taken, _, pending, moved, rfl⟩ |
    ⟨_, cancelled⟩ | ⟨notCancel, followed, drained, notDone⟩
  · have idle : d.reader.io.isDone = false := by
      rw [delivered.follows.sound.idle (Or.inl phase)]
      rfl
    obtain ⟨arrived, same⟩ := follows_atOnce delivered.follows phase move.positive moved
    rw [← same]
    exact delivered_receive (delivered_taken delivered idle move.positive moved arrived) rfl
  · exact delivered_receive delivered io
  · have idle : d.reader.io.isDone = false := by rw [pending]; rfl
    exact delivered_taken delivered idle move.positive moved follows
  · obtain ⟨reader, givenUp, rfl⟩ := follow_eq_some.mp cancelled
    obtain ⟨later, queue, written⟩ := step_feeds givenUp (by simp)
    obtain ⟨io, remainder⟩ := cancel_drops givenUp
    refine delivered.keep follows (cancel_returned givenUp) rfl (current_sublist rfl ?_) queue written
    rintro (done | remains)
    · rw [io] at done
      cases done
    · exact Or.inr (remainder ▸ remains)
  · obtain ⟨reader, plainly, rfl⟩ := follow_eq_some.mp followed
    have plain := Plain.of_step delivered.follows.sound plainly notCancel drained notDone
    obtain ⟨later, queue, written⟩ := step_feeds plainly drained
    refine delivered.keep follows plain.returned rfl (current_sublist rfl ?_) queue written
    rintro (done | remains)
    · exact Or.inl (plain.io done)
    · exact Or.inr (plain.remainder ▸ remains)

end Steps

theorem delivered_of_run {moves : List Move} {d : Delivery}
    (ran : Transition.run step Delivery.initial moves = some d) : Delivered d :=
  Transition.Reachable.invariant Delivered.step delivered_initial ⟨moves, ran⟩

theorem Delivered.origin {d : Delivery} (delivered : Delivered d) {text : List UInt8}
    (returned : text ∈ d.reader.returned) : ∃ m ∈ d.reader.written, Untorn text m := by
  obtain ⟨i, small, rfl⟩ := List.getElem_of_mem returned
  have small' : i < d.completed.length := delivered.ends.length_eq ▸ small
  refine ⟨d.completed[i], delivered.follows.completed _ (List.getElem_mem small'), ?_⟩
  exact untorn_of_suffix (delivered.ends.get small small')

/-- The texts that are returned are ends of messages of the broker, of each at most one and
in the order of writing, and what the decoder accepts among them it reads as the message. -/
theorem returned_untorn (moves : List Move) (d : Delivery)
    (ran : Transition.run step Delivery.initial moves = some d) :
    ∃ sources, sources.Sublist d.reader.written ∧ List.Forall₂ Untorn d.reader.returned sources := by
  have delivered := delivered_of_run ran
  refine ⟨d.completed, ?_, delivered.ends.imp fun _ _ => untorn_of_suffix⟩
  have order := delivered.order
  rw [List.append_assoc] at order
  exact (List.sublist_append_left _ _).trans order

/-- The message is torn after its brace, and its end is refused. -/
theorem returned_untorn_torn :
    ∃ d, Transition.run step Delivery.initial tornMoves = some d ∧
      d.reader.returned = [sampleMessage.drop 1] ∧
      ∃ sources, sources.Sublist d.reader.written ∧
        List.Forall₂ Untorn d.reader.returned sources := by
  refine ⟨_, rfl, rfl, returned_untorn tornMoves _ rfl⟩

end Dot1xCP.Broker.Fragments
