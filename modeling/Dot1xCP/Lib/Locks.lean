import Dot1xCP.Lib.Interleaving
import Mathlib.Algebra.Order.Ring.Nat
import Mathlib.Data.List.Count
import Mathlib.Logic.Function.Basic

/-! Threads that take locks, shared or exclusive, and a discipline under which no set of
them can block each other.

What a thread does is a tree with every branch the code has. A discipline ranks the locks
and says which data may be used under which locks; a tree that follows it is recognised by
going through it once. A thread that follows it acquires upwards, so of several threads
that wait the one that waits for the highest lock waits for a lock nobody holds.
-/

set_option autoImplicit false

namespace Locks
open Interleaving

inductive Mode where
  | shared
  | exclusive
  deriving DecidableEq, Repr

structure Hold (Lock : Type) where
  lock : Lock
  mode : Mode
  deriving DecidableEq, Repr

/-- Programs as far as locks are concerned. The branch that is taken and the number of
rounds of a loop are left open. -/
inductive Code (Lock Datum : Type) where
  | skip
  | acquire (hold : Hold Lock)
  | release (hold : Hold Lock)
  | use (datum : Datum)
  | seq (first second : Code Lock Datum)
  | branch (first second : Code Lock Datum)
  | loop (body : Code Lock Datum)
  deriving DecidableEq, Repr

structure Thread (Lock Datum : Type) where
  held : List (Hold Lock)
  rest : List (Code Lock Datum)
  deriving DecidableEq, Repr

structure LockState where
  readers : Nat
  writer : Bool
  deriving DecidableEq, Repr

def LockState.free : LockState := ⟨0, false⟩

def LockState.admits (s : LockState) : Mode → Bool
  | .shared => !s.writer
  | .exclusive => !s.writer && s.readers == 0

def LockState.taken (s : LockState) : Mode → LockState
  | .shared => { s with readers := s.readers + 1 }
  | .exclusive => { s with writer := true }

def LockState.returned (s : LockState) : Mode → LockState
  | .shared => { s with readers := s.readers - 1 }
  | .exclusive => { s with writer := false }

def LockState.count (s : LockState) : Mode → Nat
  | .shared => s.readers
  | .exclusive => s.writer.toNat

def LockState.Apart (s : LockState) : Prop := s.writer = true → s.readers = 0

theorem LockState.admits_of_free {s : LockState} (unshared : s.count .shared = 0)
    (outside : s.count .exclusive = 0) (mode : Mode) : s.admits mode = true := by
  obtain ⟨readers, writer⟩ := s
  cases writer with
  | true => cases outside
  | false =>
    cases mode with
    | shared => rfl
    | exclusive => exact beq_iff_eq.mpr unshared

theorem LockState.taken_count {s : LockState} {mode : Mode} (admitted : s.admits mode = true)
    (other : Mode) : (s.taken mode).count other = (if mode = other then 1 else 0) + s.count other := by
  obtain ⟨readers, writer⟩ := s
  cases mode with
  | shared =>
    cases other with
    | shared => exact Nat.add_comm _ _
    | exclusive => exact (Nat.zero_add _).symm
  | exclusive =>
    cases writer with
    | true => cases admitted
    | false =>
      cases other with
      | shared => exact (Nat.zero_add _).symm
      | exclusive => rfl

theorem LockState.returned_count {s : LockState} {mode : Mode} (held : 0 < s.count mode)
    (other : Mode) : (if mode = other then 1 else 0) + (s.returned mode).count other = s.count other := by
  obtain ⟨readers, writer⟩ := s
  cases mode with
  | shared =>
    cases other with
    | shared => exact Nat.add_sub_cancel' held
    | exclusive => exact Nat.zero_add _
  | exclusive =>
    cases other with
    | shared => exact Nat.zero_add _
    | exclusive =>
      cases writer with
      | true => rfl
      | false => cases held

theorem LockState.Apart.taken {s : LockState} (apart : s.Apart) {mode : Mode}
    (admitted : s.admits mode = true) : (s.taken mode).Apart := by
  obtain ⟨readers, writer⟩ := s
  cases mode with
  | shared =>
    cases writer with
    | true => cases admitted
    | false => exact fun locked => by cases locked
  | exclusive =>
    cases writer with
    | true => cases admitted
    | false => exact fun _ => beq_iff_eq.mp admitted

theorem LockState.Apart.returned {s : LockState} (apart : s.Apart) (mode : Mode) :
    (s.returned mode).Apart := by
  cases mode with
  | shared => exact fun locked => by rw [LockState.returned, apart locked]
  | exclusive => exact fun locked => by cases locked

variable {Lock Datum : Type} [DecidableEq Lock]

def Thread.advance (table : Lock → LockState) (thread : Thread Lock Datum) (choice : Bool) :
    Option ((Lock → LockState) × Option (Thread Lock Datum)) :=
  match thread.rest with
  | [] => some (table, none)
  | .skip :: rest => some (table, some { thread with rest := rest })
  | .acquire hold :: rest =>
    if (table hold.lock).admits hold.mode then
      some (Function.update table hold.lock ((table hold.lock).taken hold.mode),
        some ⟨hold :: thread.held, rest⟩)
    else none
  | .release hold :: rest =>
    some (Function.update table hold.lock ((table hold.lock).returned hold.mode),
      some ⟨thread.held.erase hold, rest⟩)
  | .use _ :: rest => some (table, some { thread with rest := rest })
  | .seq first second :: rest => some (table, some { thread with rest := first :: second :: rest })
  | .branch first second :: rest =>
    some (table, some { thread with rest := (if choice then first else second) :: rest })
  | .loop body :: rest =>
    some (table, some { thread with rest := if choice then body :: .loop body :: rest else rest })

abbrev threads {Entry : Type} (programs : Entry → Code Lock Datum) :
    Program (Lock → LockState) Entry (Thread Lock Datum) Bool where
  enter table entry := some (table, some ⟨[], [programs entry]⟩)
  advance := Thread.advance

/-! ## Discipline -/

/-- The order in which locks are taken, and the locks under which a datum may be used. -/
structure Discipline (Lock Datum : Type) where
  rank : Lock → Nat
  permits : Datum → List (Hold Lock) → Bool

/-- The locks held when the code is through, where it follows the discipline on every
branch. -/
def Code.check (discipline : Discipline Lock Datum) (held : List (Hold Lock)) :
    Code Lock Datum → Option (List (Hold Lock))
  | .skip => some held
  | .acquire hold =>
    if ∀ other ∈ held, discipline.rank other.lock < discipline.rank hold.lock then some (hold :: held)
    else none
  | .release hold => if hold ∈ held then some (held.erase hold) else none
  | .use datum => if discipline.permits datum held then some held else none
  | .seq first second => (first.check discipline held).bind fun held => second.check discipline held
  | .branch first second =>
    if first.check discipline held = second.check discipline held then first.check discipline held
    else none
  | .loop body => if body.check discipline held = some held then some held else none

def Finishes (discipline : Discipline Lock Datum) :
    List (Hold Lock) → List (Code Lock Datum) → Prop
  | held, [] => held = []
  | held, code :: rest => ∃ after, code.check discipline held = some after ∧
      Finishes discipline after rest

/-- The locks of a thread were taken upwards, and the rest of it keeps to that. -/
structure Disciplined (discipline : Discipline Lock Datum) (thread : Thread Lock Datum) : Prop where
  upwards : thread.held.Pairwise fun newer older => discipline.rank older.lock <
    discipline.rank newer.lock
  finishes : Finishes discipline thread.held thread.rest

section Step
variable {discipline : Discipline Lock Datum} {table next : Lock → LockState}
  {thread : Thread Lock Datum} {choice : Bool} {after : Option (Thread Lock Datum)}

theorem Disciplined.advance (disciplined : Disciplined discipline thread)
    (advanced : thread.advance table choice = some (next, after)) :
    ∀ left ∈ after, Disciplined discipline left := by
  obtain ⟨held, rest⟩ := thread
  obtain ⟨upwards, finishes⟩ := disciplined
  dsimp only at upwards finishes
  cases rest with
  | nil =>
    cases advanced
    rintro left ⟨⟩
  | cons code rest =>
    obtain ⟨through, checked, finishes⟩ := finishes
    cases code with
    | skip =>
      cases advanced
      cases checked
      rintro left ⟨⟩
      exact ⟨upwards, finishes⟩
    | acquire hold =>
      obtain ⟨admitted, advanced⟩ := Option.ite_none_right_eq_some.mp advanced
      obtain ⟨above, ⟨⟩⟩ := Option.ite_none_right_eq_some.mp checked
      cases advanced
      rintro left ⟨⟩
      exact ⟨List.pairwise_cons.mpr ⟨above, upwards⟩, finishes⟩
    | release hold =>
      obtain ⟨inside, ⟨⟩⟩ := Option.ite_none_right_eq_some.mp checked
      cases advanced
      rintro left ⟨⟩
      exact ⟨upwards.sublist List.erase_sublist, finishes⟩
    | use datum =>
      obtain ⟨permitted, ⟨⟩⟩ := Option.ite_none_right_eq_some.mp checked
      cases advanced
      rintro left ⟨⟩
      exact ⟨upwards, finishes⟩
    | seq first second =>
      obtain ⟨between, first, second⟩ := Option.bind_eq_some_iff.mp checked
      cases advanced
      rintro left ⟨⟩
      exact ⟨upwards, between, first, through, second, finishes⟩
    | branch first second =>
      obtain ⟨agree, checked⟩ := Option.ite_none_right_eq_some.mp checked
      cases advanced
      rintro left ⟨⟩
      refine ⟨upwards, through, ?_, finishes⟩
      cases choice with
      | true => exact checked
      | false => exact agree.symm.trans checked
    | loop body =>
      obtain ⟨kept, ⟨⟩⟩ := Option.ite_none_right_eq_some.mp checked
      cases advanced
      rintro left ⟨⟩
      cases choice with
      | true => exact ⟨upwards, held, kept, held, checked, finishes⟩
      | false => exact ⟨upwards, finishes⟩

end Step

def Thread.count (hold : Hold Lock) (thread : Thread Lock Datum) : Nat := thread.held.count hold

/-- The table says who holds what, and nobody shares a lock that one holds alone. -/
structure Agrees (table : Lock → LockState) (running : List (Thread Lock Datum)) : Prop where
  counts : ∀ hold, total (Thread.count hold) running = (table hold.lock).count hold.mode
  apart : ∀ lock, (table lock).Apart

section Table
variable {table next : Lock → LockState} {thread : Thread Lock Datum}
  {rest : List (Thread Lock Datum)} {choice : Bool} {after : Option (Thread Lock Datum)}

theorem Agrees.reorder {running running' : List (Thread Lock Datum)} (same : running.Perm running')
    (agrees : Agrees table running) : Agrees table running' where
  counts := fun hold => (total_perm _ same).symm.trans (agrees.counts hold)
  apart := agrees.apart

theorem Agrees.kept {held : List (Hold Lock)} {before left : List (Code Lock Datum)}
    (agrees : Agrees table (⟨held, before⟩ :: rest)) : Agrees table (⟨held, left⟩ :: rest) where
  counts := agrees.counts
  apart := agrees.apart

theorem Agrees.acquired {hold : Hold Lock} {held : List (Hold Lock)} {before left : List (Code Lock Datum)}
    (admitted : (table hold.lock).admits hold.mode = true)
    (agrees : Agrees table (⟨held, before⟩ :: rest)) :
    Agrees (Function.update table hold.lock ((table hold.lock).taken hold.mode))
      (⟨hold :: held, left⟩ :: rest) where
  counts := by
    intro other
    have count := agrees.counts other
    rw [total_cons, Thread.count] at count ⊢
    rw [List.count_cons, Nat.add_right_comm, count]
    obtain ⟨lock, mode⟩ := other
    rcases eq_or_ne lock hold.lock with rfl | different
    · rw [Function.update_self, LockState.taken_count admitted, Nat.add_comm]
      congr 1
      obtain ⟨lock, own⟩ := hold
      simp
    · rw [Function.update_of_ne different, if_neg, Nat.add_zero]
      intro same
      exact different (congrArg Hold.lock (beq_iff_eq.mp same)).symm
  apart := by
    intro lock
    rcases eq_or_ne lock hold.lock with rfl | different
    · rw [Function.update_self]
      exact (agrees.apart _).taken admitted
    · rw [Function.update_of_ne different]
      exact agrees.apart lock

theorem Agrees.released {hold : Hold Lock} {held : List (Hold Lock)} {before left : List (Code Lock Datum)}
    (inside : hold ∈ held) (agrees : Agrees table (⟨held, before⟩ :: rest)) :
    Agrees (Function.update table hold.lock ((table hold.lock).returned hold.mode))
      (⟨held.erase hold, left⟩ :: rest) where
  counts := by
    intro other
    have count := agrees.counts other
    rw [total_cons, Thread.count] at count ⊢
    obtain ⟨lock, mode⟩ := other
    rcases eq_or_ne lock hold.lock with rfl | different
    · rw [Function.update_self]
      have own := agrees.counts hold
      have positive := List.count_pos_iff.mpr inside
      rw [total_cons, Thread.count] at own
      dsimp only at own count
      have back := @LockState.returned_count (table hold.lock) hold.mode (by omega) mode
      dsimp only
      rw [List.count_erase]
      obtain ⟨lock, own'⟩ := hold
      rcases eq_or_ne own' mode with rfl | apart
      · rw [if_pos rfl] at back
        simp only [beq_self_eq_true, if_true]
        dsimp only at positive back count
        omega
      · rw [if_neg apart] at back
        have differs : ((⟨lock, own'⟩ : Hold Lock) == ⟨lock, mode⟩) = false := by simp [apart]
        rw [differs]
        simp only [Bool.false_eq_true, if_false]
        dsimp only at back count
        omega
    · rw [Function.update_of_ne different, List.count_erase_of_ne]
      · exact count
      · intro same
        exact different (congrArg Hold.lock same)
  apart := by
    intro lock
    rcases eq_or_ne lock hold.lock with rfl | different
    · rw [Function.update_self]
      exact (agrees.apart _).returned _
    · rw [Function.update_of_ne different]
      exact agrees.apart lock

end Table

structure Sound (discipline : Discipline Lock Datum) (table : Lock → LockState)
    (running : List (Thread Lock Datum)) : Prop where
  agrees : Agrees table running
  disciplined : ∀ thread ∈ running, Disciplined discipline thread

section Run
variable {discipline : Discipline Lock Datum} {table next : Lock → LockState}
  {thread : Thread Lock Datum} {rest running : List (Thread Lock Datum)} {choice : Bool}
  {after : Option (Thread Lock Datum)}

theorem Agrees.advance (disciplined : Disciplined discipline thread)
    (agrees : Agrees table (thread :: rest))
    (advanced : thread.advance table choice = some (next, after)) :
    Agrees next (after.toList ++ rest) := by
  obtain ⟨held, code⟩ := thread
  have finishes := disciplined.finishes
  dsimp only at finishes
  cases code with
  | nil =>
    cases advanced
    cases finishes
    refine ⟨fun hold => ?_, agrees.apart⟩
    have count := agrees.counts hold
    rw [total_cons] at count
    exact (Nat.zero_add _).symm.trans count
  | cons code left =>
    cases code with
    | acquire hold =>
      obtain ⟨admitted, advanced⟩ := Option.ite_none_right_eq_some.mp advanced
      cases advanced
      exact agrees.acquired admitted
    | release hold =>
      obtain ⟨_, checked, _⟩ := finishes
      obtain ⟨inside, _⟩ := Option.ite_none_right_eq_some.mp checked
      cases advanced
      exact agrees.released inside
    | skip | use | seq | branch | loop =>
      cases advanced
      exact agrees.kept

theorem Sound.advance (sound : Sound discipline table (thread :: rest))
    (advanced : thread.advance table choice = some (next, after)) :
    Sound discipline next (after.toList ++ rest) where
  agrees := sound.agrees.advance (sound.disciplined thread List.mem_cons_self) advanced
  disciplined := by
    intro other inside
    rcases List.mem_append.mp inside with first | inside
    · exact (sound.disciplined thread List.mem_cons_self).advance advanced other
        (Option.mem_toList.mp first)
    · exact sound.disciplined other (List.mem_cons_of_mem _ inside)

theorem Sound.reorder {running' : List (Thread Lock Datum)} (same : running.Perm running')
    (sound : Sound discipline table running) : Sound discipline table running' :=
  ⟨sound.agrees.reorder same, fun thread inside => sound.disciplined thread (same.mem_iff.mpr inside)⟩

/-- A program may be run beside others when it follows the discipline from no locks to no
locks. -/
def Code.Follows (discipline : Discipline Lock Datum) (code : Code Lock Datum) : Prop :=
  code.check discipline [] = some []

instance (discipline : Discipline Lock Datum) (code : Code Lock Datum) :
    Decidable (code.Follows discipline) :=
  inferInstanceAs (Decidable (code.check discipline [] = some []))

theorem Sound.enter {code : Code Lock Datum} (follows : code.Follows discipline)
    (sound : Sound discipline table running) : Sound discipline table (⟨[], [code]⟩ :: running) where
  agrees :=
    { counts := fun hold => by
        rw [total_cons, Thread.count, List.count_nil, Nat.zero_add]
        exact sound.agrees.counts hold
      apart := sound.agrees.apart }
  disciplined := by
    intro thread inside
    rcases List.mem_cons.mp inside with rfl | inside
    · exact ⟨List.Pairwise.nil, [], follows, rfl⟩
    · exact sound.disciplined thread inside

theorem sound_invariant {Entry : Type} {programs : Entry → Code Lock Datum}
    (follow : ∀ entry, (programs entry).Follows discipline) :
    (threads programs).Invariant (fun _ => True) (Sound discipline) where
  reorder := fun same sound => sound.reorder same
  enter := by
    rintro table running entry next point _ sound ⟨⟩
    exact sound.enter (follow entry)
  advance := fun sound advanced => sound.advance advanced

theorem sound_initial (discipline : Discipline Lock Datum) :
    Sound discipline (fun _ => .free) [] where
  agrees :=
    { counts := fun hold => by cases hold.mode <;> rfl
      apart := fun _ locked => by cases locked }
  disciplined := fun _ inside => by cases inside

def Thread.uses (thread : Thread Lock Datum) : Option Datum :=
  match thread.rest with
  | .use datum :: _ => some datum
  | _ => none

theorem Sound.permitted (sound : Sound discipline table running) (inside : thread ∈ running)
    {datum : Datum} (uses : thread.uses = some datum) :
    discipline.permits datum thread.held = true := by
  have finishes := (sound.disciplined thread inside).finishes
  obtain ⟨held, code⟩ := thread
  match code, uses with
  | .use datum :: rest, rfl =>
    obtain ⟨_, checked, _⟩ := finishes
    exact (Option.ite_none_right_eq_some.mp checked).1

/-- While one thread holds a lock alone, no other holds it. -/
theorem Sound.alone {other : Thread Lock Datum} (sound : Sound discipline table (thread :: other :: rest))
    {lock : Lock} (own : ⟨lock, .exclusive⟩ ∈ thread.held) (mode : Mode) :
    (⟨lock, mode⟩ : Hold Lock) ∉ other.held := by
  intro also
  have first := List.count_pos_iff.mpr own
  have second := List.count_pos_iff.mpr also
  have writers := sound.agrees.counts ⟨lock, .exclusive⟩
  have others := sound.agrees.counts ⟨lock, mode⟩
  have atMost := Bool.toNat_le (table lock).writer
  rw [total_cons, total_cons, Thread.count, Thread.count] at writers others
  simp only [LockState.count] at writers
  cases mode with
  | exclusive => omega
  | shared =>
    have locked : (table lock).writer = true := by
      cases writer : (table lock).writer with
      | true => rfl
      | false =>
        rw [writer, Bool.toNat_false] at writers
        omega
    have none := sound.agrees.apart lock locked
    simp only [LockState.count] at others
    omega

/-! ## No deadlock -/

def Thread.waits (table : Lock → LockState) (thread : Thread Lock Datum) : Option (Hold Lock) :=
  match thread.rest with
  | .acquire hold :: _ => if (table hold.lock).admits hold.mode then none else some hold
  | _ => none

theorem LockState.held_of_refused {s : LockState} {mode : Mode} (refused : s.admits mode = false) :
    ∃ other, 0 < s.count other := by
  by_contra none
  simp only [not_exists, Nat.not_lt, Nat.le_zero] at none
  cases refused.symm.trans (LockState.admits_of_free (none .shared) (none .exclusive) mode)

theorem exists_holder (agrees : Agrees table running) {lock : Lock} {mode : Mode}
    (held : 0 < (table lock).count mode) :
    ∃ thread ∈ running, (⟨lock, mode⟩ : Hold Lock) ∈ thread.held := by
  by_contra none
  simp only [not_exists, not_and] at none
  have count := agrees.counts ⟨lock, mode⟩
  have zero : total (Thread.count ⟨lock, mode⟩) running = 0 := by
    apply List.sum_eq_zero
    intro n inside
    obtain ⟨thread, member, rfl⟩ := List.mem_map.mp inside
    exact List.count_eq_zero.mpr (none thread member)
  rw [zero] at count
  exact Nat.lt_irrefl 0 (count ▸ held)

theorem Disciplined.above (disciplined : Disciplined discipline thread) {hold : Hold Lock}
    (waits : thread.waits table = some hold) :
    ∀ other ∈ thread.held, discipline.rank other.lock < discipline.rank hold.lock := by
  have finishes := disciplined.finishes
  obtain ⟨held, code⟩ := thread
  match code, waits with
  | .acquire hold' :: rest, waits =>
    obtain ⟨_, checked, _⟩ := finishes
    have above := (Option.ite_none_right_eq_some.mp checked).1
    simp only [Thread.waits] at waits
    split at waits
    · cases waits
    · cases waits
      exact above

theorem advance_of_not_waits (free : thread.waits table = none) (choice : Bool) :
    ∃ next after, thread.advance table choice = some (next, after) := by
  obtain ⟨held, code⟩ := thread
  match code with
  | .acquire hold :: rest =>
    simp only [Thread.waits] at free
    split at free
    next admitted => exact ⟨_, _, if_pos admitted⟩
    next => cases free
  | [] | .skip :: _ | .release _ :: _ | .use _ :: _ | .seq _ _ :: _ | .branch _ _ :: _
  | .loop _ :: _ => exact ⟨_, _, rfl⟩

omit [DecidableEq Lock] in
theorem refused_of_waits {hold : Hold Lock} (waits : thread.waits table = some hold) :
    (table hold.lock).admits hold.mode = false := by
  obtain ⟨held, code⟩ := thread
  match code, waits with
  | .acquire hold' :: rest, waits =>
    simp only [Thread.waits] at waits
    split at waits
    · cases waits
    next refused =>
      cases waits
      exact (Bool.not_eq_true _).mp refused

/-- Where every thread waits, some thread waits for a higher lock. -/
theorem Sound.higher (sound : Sound discipline table running)
    (all : ∀ thread ∈ running, thread.waits table ≠ none) {hold : Hold Lock}
    (refused : (table hold.lock).admits hold.mode = false) :
    ∃ thread ∈ running, ∃ other, thread.waits table = some other ∧
      discipline.rank hold.lock < discipline.rank other.lock := by
  obtain ⟨mode, held⟩ := LockState.held_of_refused refused
  obtain ⟨holder, inside, holds⟩ := exists_holder sound.agrees held
  obtain ⟨other, waits⟩ := Option.ne_none_iff_exists'.mp (all holder inside)
  exact ⟨holder, inside, other, waits, (sound.disciplined holder inside).above waits ⟨hold.lock, mode⟩ holds⟩

/-- Not every thread waits, for the ranks of the locks waited for would grow without end. -/
theorem Sound.some_free (sound : Sound discipline table running) (busy : running ≠ []) :
    ∃ thread ∈ running, thread.waits table = none := by
  by_contra all
  simp only [not_exists, not_and] at all
  have rise (n : Nat) : ∃ thread ∈ running, ∃ hold, thread.waits table = some hold ∧
      n ≤ discipline.rank hold.lock := by
    induction n with
    | zero =>
      obtain ⟨thread, inside⟩ := List.exists_mem_of_ne_nil running busy
      obtain ⟨hold, waits⟩ := Option.ne_none_iff_exists'.mp (all thread inside)
      exact ⟨thread, inside, hold, waits, Nat.zero_le _⟩
    | succ n ih =>
      obtain ⟨thread, inside, hold, waits, high⟩ := ih
      obtain ⟨thread', inside', other, waits', above⟩ := sound.higher all (refused_of_waits waits)
      exact ⟨thread', inside', other, waits', Nat.lt_of_le_of_lt high above⟩
  let weight (thread : Thread Lock Datum) : Nat :=
    (thread.waits table).elim 0 fun hold => discipline.rank hold.lock
  obtain ⟨thread, inside, hold, waits, high⟩ := rise (total weight running + 1)
  have bounded := weight_le_total weight inside
  simp only [weight, waits, Option.elim_some] at bounded
  exact Nat.lt_irrefl _ (Nat.lt_of_lt_of_le high bounded)

def Code.size : Code Lock Datum → Nat
  | .skip | .acquire _ | .release _ | .use _ | .loop _ => 1
  | .seq first second | .branch first second => 1 + (first.size + second.size)

def Thread.size (thread : Thread Lock Datum) : Nat := 1 + (thread.rest.map Code.size).sum

theorem size_advance (advanced : thread.advance table false = some (next, after)) :
    (after.map Thread.size).getD 0 < thread.size := by
  obtain ⟨held, code⟩ := thread
  cases code with
  | nil =>
    cases advanced
    exact Nat.lt_of_lt_of_le Nat.one_pos (Nat.le_add_right 1 _)
  | cons code left =>
    cases code with
    | acquire hold =>
      obtain ⟨admitted, advanced⟩ := Option.ite_none_right_eq_some.mp advanced
      cases advanced
      simp only [Thread.size, Code.size, Option.map_some, Option.getD_some, List.map_cons,
        List.sum_cons]
      omega
    | skip | release | use | seq | branch | loop =>
      cases advanced
      simp only [Thread.size, Code.size, Option.map_some, Option.getD_some, List.map_cons,
        List.sum_cons, Bool.false_eq_true, if_false]
      omega

theorem Agrees.all_free (agrees : Agrees table ([] : List (Thread Lock Datum))) (lock : Lock) :
    table lock = .free := by
  have readers := agrees.counts ⟨lock, .shared⟩
  have writer := agrees.counts ⟨lock, .exclusive⟩
  simp only [total_nil, LockState.count] at readers writer
  revert readers writer
  generalize table lock = s
  intro readers writer
  obtain ⟨n, locked⟩ := s
  cases locked with
  | true => cases writer
  | false => exact congrArg (LockState.mk · false) readers.symm

/-- No deadlock, and more: from wherever the threads are, all of them can be run to their
ends, after which every lock is free. -/
theorem Sound.completes [DecidableEq Datum] {Entry : Type} {programs : Entry → Code Lock Datum}
    (sound : Sound discipline table running) : ∃ labels final,
      Transition.run (threads programs).step ⟨table, running⟩ labels = some ⟨final, []⟩ ∧
        ∀ lock, final lock = .free := by
  induction size : total Thread.size running using Nat.strongRecOn generalizing table running with
  | ind n ih =>
    rcases eq_or_ne running [] with rfl | busy
    · exact ⟨[], table, rfl, sound.agrees.all_free⟩
    · obtain ⟨thread, inside, goes⟩ := sound.some_free busy
      obtain ⟨next, after, advanced⟩ := advance_of_not_waits goes false
      have first := List.perm_cons_erase inside
      have less := size_advance advanced
      have sound' := (sound.reorder first).advance advanced
      rw [total_perm Thread.size first, total_cons] at size
      have smaller : total Thread.size (after.toList ++ running.erase thread) < n := by
        rw [total_advance]
        omega
      obtain ⟨labels, final, ran, unlocked⟩ := ih _ smaller sound' rfl
      refine ⟨.advance thread false :: labels, final, Transition.run_cons.mpr ⟨_, ?_, ran⟩, unlocked⟩
      rw [Program.step, if_pos inside]
      exact Option.map_eq_some_iff.mpr ⟨_, advanced, rfl⟩

end Run

end Locks
