import Dot1xCP.Auth.Serialization
import Dot1xCP.Lib.Interleaving
import Dot1xCP.Lib.Ledger

/-! The lookup of authentication packages, as `SerializationAuth.cpp` does it.

Both caches are read and filled by `InterlockedCompareExchange` without a lock, so any
number of threads may look a package up at once. Undisturbed, a lookup is the function
`resolvePkgCached`.
-/

set_option autoImplicit false

namespace Dot1xCP.Auth
open Interleaving Ledger

inductive Package where
  /-- `"Kerberos"` -/
  | kerberos
  /-- `MICROSOFT_AUTHENTICATION_PACKAGE_V1_0` -/
  | msv
  deriving DecidableEq, Repr

abbrev LsaHandle := Nat

inductive LsaEffect where
  | connected (h : LsaHandle)
  | lookedUp (h : LsaHandle) (package : Package) (answer : Option UInt32)
  | deregistered (h : LsaHandle) (succeeded : Bool)
  | returned (package : Package) (id : Option UInt32)
  deriving DecidableEq, Repr

/-- The two caches, and what the calls have done so far, newest first. -/
structure Lsa where
  cachedKerberosPkg : BitVec 32
  cachedMsvPkg : BitVec 32
  nextHandle : LsaHandle
  trace : List LsaEffect
  deriving DecidableEq, Repr

def Lsa.initial : Lsa := ⟨0, 0, 1, []⟩

def Lsa.slot (s : Lsa) : Package → BitVec 32
  | .kerberos => s.cachedKerberosPkg
  | .msv => s.cachedMsvPkg

def Lsa.store (s : Lsa) (value : BitVec 32) : Package → Lsa
  | .kerberos => { s with cachedKerberosPkg := value }
  | .msv => { s with cachedMsvPkg := value }

def Lsa.emit (s : Lsa) (effect : LsaEffect) : Lsa := { s with trace := effect :: s.trace }

def Lsa.connect (s : Lsa) : Lsa :=
  { s with nextHandle := s.nextHandle + 1, trace := .connected s.nextHandle :: s.trace }

@[simp] theorem Lsa.slot_emit (s : Lsa) (effect : LsaEffect) (package : Package) :
    (s.emit effect).slot package = s.slot package := by cases package <;> rfl

@[simp] theorem Lsa.slot_connect (s : Lsa) (package : Package) :
    s.connect.slot package = s.slot package := by cases package <;> rfl

@[simp] theorem Lsa.slot_store (s : Lsa) (value : BitVec 32) (package : Package) :
    (s.store value package).slot package = value := by cases package <;> rfl

theorem Lsa.slot_store_of_ne (s : Lsa) (value : BitVec 32) {package other : Package}
    (different : other ≠ package) : (s.store value package).slot other = s.slot other := by
  cases package <;> cases other <;> first | rfl | exact absurd rfl different

@[simp] theorem Lsa.trace_store (s : Lsa) (value : BitVec 32) (package : Package) :
    (s.store value package).trace = s.trace := by cases package <;> rfl

@[simp] theorem Lsa.nextHandle_store (s : Lsa) (value : BitVec 32) (package : Package) :
    (s.store value package).nextHandle = s.nextHandle := by cases package <;> rfl

/-- What the LSA answers: whether it connects, the package id if the status is no error, and
whether it closes the connection. -/
structure LsaOs where
  connectUntrusted : Bool
  lookupAuthenticationPackage : Option UInt32
  deregisterLogonProcess : Bool
  deriving DecidableEq, Repr

/-- `InterlockedCompareExchange(&cacheSlot, (LONG)resolved, 0)` and the choice after it. -/
def Lsa.exchange (s : Lsa) (package : Package) (resolved : UInt32) : Lsa × UInt32 :=
  let prior := s.slot package
  let s := if prior = 0 then s.store resolved.toBitVec package else s
  (s, if 0 < prior.toInt then ⟨prior⟩ else resolved)

theorem Lsa.exchange_empty {s : Lsa} {package : Package} (empty : s.slot package = 0)
    (resolved : UInt32) :
    s.exchange package resolved = (s.store resolved.toBitVec package, resolved) := by
  simp [exchange, empty]

theorem Lsa.exchange_full {s : Lsa} {package : Package} (full : s.slot package ≠ 0)
    (resolved : UInt32) : s.exchange package resolved =
      (s, if 0 < (s.slot package).toInt then ⟨s.slot package⟩ else resolved) := by
  simp only [exchange, if_neg full]

def resolvePkgA (os : LsaOs) (s : Lsa) (package : Package) : Lsa × Option UInt32 :=
  if !os.connectUntrusted then (s, none)
  else
    let h := s.nextHandle
    let s := s.connect
    let s := s.emit (.lookedUp h package os.lookupAuthenticationPackage)
    let s := s.emit (.deregistered h os.deregisterLogonProcess)
    match os.lookupAuthenticationPackage with
    | none => (s, none)
    | some t => if t = 0 then (s, none) else (s, some t)

def resolvePkgCached (os : LsaOs) (s : Lsa) (package : Package) : Lsa × Option UInt32 :=
  let cached := s.slot package
  if 0 < cached.toInt then (s, some ⟨cached⟩)
  else
    match resolvePkgA os s package with
    | (s, none) => (s, none)
    | (s, some resolved) => ((s.exchange package resolved).1, some (s.exchange package resolved).2)

def resolveNegotiate (os : LsaOs) (s : Lsa) : Lsa × Option UInt32 := resolvePkgCached os s .kerberos

def resolveMsv (os : LsaOs) (s : Lsa) : Lsa × Option UInt32 := resolvePkgCached os s .msv

inductive LookupPoint where
  | readCache (package : Package)
  | connect (package : Package)
  | lookup (package : Package) (h : LsaHandle)
  | closeLsa (package : Package) (h : LsaHandle) (resolved : Option UInt32)
  | exchange (package : Package) (resolved : UInt32)
  deriving DecidableEq, Repr

def LookupPoint.advance (s : Lsa) : LookupPoint → LsaOs → Option (Lsa × Option LookupPoint)
  | .readCache package, _ =>
    if 0 < (s.slot package).toInt then
      some (s.emit (.returned package (some ⟨s.slot package⟩)), none)
    else some (s, some (.connect package))
  | .connect package, os =>
    if os.connectUntrusted then some (s.connect, some (.lookup package s.nextHandle))
    else some (s.emit (.returned package none), none)
  | .lookup package h, os =>
    some (s.emit (.lookedUp h package os.lookupAuthenticationPackage),
      some (.closeLsa package h (os.lookupAuthenticationPackage.filter (· ≠ 0))))
  | .closeLsa package h none, os =>
    some ((s.emit (.deregistered h os.deregisterLogonProcess)).emit (.returned package none), none)
  | .closeLsa package h (some resolved), os =>
    some (s.emit (.deregistered h os.deregisterLogonProcess), some (.exchange package resolved))
  | .exchange package resolved, _ =>
    some ((s.exchange package resolved).1.emit
      (.returned package (some (s.exchange package resolved).2)), none)

abbrev lookups : Program Lsa Package LookupPoint LsaOs where
  enter s package := some (s, some (.readCache package))
  advance := LookupPoint.advance

/-- On its own a lookup is `resolvePkgCached`, whose result it returns. -/
theorem resolvePkgCached_alone (os : LsaOs) (s : Lsa) (package : Package) :
    ∃ choices, lookups.alone s (.readCache package) choices = some
      ((resolvePkgCached os s package).1.emit (.returned package (resolvePkgCached os s package).2)) := by
  by_cases cached : 0 < (s.slot package).toInt
  · refine ⟨[os], ?_⟩
    simp [Program.alone, LookupPoint.advance, resolvePkgCached, cached]
  · cases connected : os.connectUntrusted with
    | false =>
      refine ⟨[os, os], ?_⟩
      simp [Program.alone, LookupPoint.advance, resolvePkgCached, resolvePkgA, cached, connected]
    | true =>
      cases answer : os.lookupAuthenticationPackage with
      | none =>
        refine ⟨List.replicate 4 os, ?_⟩
        simp [Program.alone, LookupPoint.advance, resolvePkgCached, resolvePkgA, cached, connected,
          answer, List.replicate]
      | some t =>
        by_cases zero : t = 0
        · refine ⟨List.replicate 4 os, ?_⟩
          simp [Program.alone, LookupPoint.advance, resolvePkgCached, resolvePkgA, cached, connected,
            answer, zero, List.replicate, Option.filter]
        · refine ⟨List.replicate 5 os, ?_⟩
          simp [Program.alone, LookupPoint.advance, resolvePkgCached, resolvePkgA, cached, connected,
            answer, zero, List.replicate, Option.filter]

/-! ## What every interleaving keeps -/

def LsaEffect.opens : LsaEffect → List LsaHandle
  | .connected h => [h]
  | _ => []

def LsaEffect.closes : LsaEffect → List LsaHandle
  | .deregistered h _ => [h]
  | _ => []

def LookupPoint.handles : LookupPoint → List LsaHandle
  | .lookup _ h | .closeLsa _ h _ => [h]
  | _ => []

def LookupPoint.resolved : LookupPoint → Option (Package × UInt32)
  | .closeLsa package _ (some resolved) | .exchange package resolved => some (package, resolved)
  | _ => none

theorem resolved_closeLsa (package : Package) (h : LsaHandle) (answer : Option UInt32) :
    (LookupPoint.closeLsa package h answer).resolved = answer.map (package, ·) := by
  cases answer <;> rfl

def Lsa.Answered (s : Lsa) (package : Package) (id : UInt32) : Prop :=
  ∃ h, .lookedUp h package (some id) ∈ s.trace

/-- What may be said of an id that a lookup returned. -/
structure Lsa.Agrees (s : Lsa) (package : Package) (id : UInt32) : Prop where
  nonzero : id ≠ 0
  answered : s.Answered package id
  full : s.slot package ≠ 0
  same : 0 < (s.slot package).toInt → id.toBitVec = s.slot package

structure Cached (s : Lsa) (running : List LookupPoint) : Prop where
  pending : ∀ point ∈ running, ∀ found ∈ point.resolved, found.2 ≠ 0 ∧ s.Answered found.1 found.2
  filled : ∀ package, s.slot package ≠ 0 → s.Answered package ⟨s.slot package⟩
  returned : ∀ package id, .returned package (some id) ∈ s.trace → s.Agrees package id

section Cache
variable {s next : Lsa} {point : LookupPoint} {rest running : List LookupPoint} {os : LsaOs}
  {after : Option LookupPoint} {package : Package} {id : UInt32}

theorem Lsa.Answered.grow (later : s.trace ⊆ next.trace) (answered : s.Answered package id) :
    next.Answered package id :=
  answered.imp fun _ inside => later inside

theorem Cached.grow (cached : Cached s (point :: rest))
    (slots : ∀ package, next.slot package = s.slot package) (later : s.trace ⊆ next.trace)
    (own : ∀ left ∈ after, ∀ found ∈ left.resolved, found.2 ≠ 0 ∧ next.Answered found.1 found.2)
    (fresh : ∀ package id, .returned package (some id) ∈ next.trace →
      .returned package (some id) ∈ s.trace ∨ s.Agrees package id) :
    Cached next (after.toList ++ rest) where
  pending := by
    intro other inside found resolved
    rcases List.mem_append.mp inside with first | inside
    · exact own other (Option.mem_toList.mp first) found resolved
    · obtain ⟨nonzero, answered⟩ :=
        cached.pending other (List.mem_cons_of_mem _ inside) found resolved
      exact ⟨nonzero, answered.grow later⟩
  filled := by
    intro package full
    rw [slots] at full ⊢
    exact (cached.filled package full).grow later
  returned := by
    intro package id inside
    have agrees : s.Agrees package id := by
      rcases fresh package id inside with before | agrees
      · exact cached.returned package id before
      · exact agrees
    exact
      { nonzero := agrees.nonzero
        answered := agrees.answered.grow later
        full := slots package ▸ agrees.full
        same := slots package ▸ agrees.same }

theorem mem_of_silent {effect : LsaEffect} (silent : ∀ package id, effect ≠ .returned package (some id))
    (inside : .returned package (some id) ∈ effect :: s.trace) :
    .returned package (some id) ∈ s.trace := by
  rcases List.mem_cons.mp inside with same | before
  · exact absurd same.symm (silent package id)
  · exact before

theorem subset_emit (s : Lsa) (effect : LsaEffect) : s.trace ⊆ (s.emit effect).trace :=
  List.subset_cons_self effect s.trace

theorem Cached.emit (cached : Cached s (point :: rest)) {effect : LsaEffect}
    (silent : ∀ package id, effect ≠ .returned package (some id))
    (own : ∀ left ∈ after, ∀ found ∈ left.resolved,
      found.2 ≠ 0 ∧ (s.emit effect).Answered found.1 found.2) :
    Cached (s.emit effect) (after.toList ++ rest) :=
  cached.grow (fun _ => Lsa.slot_emit _ _ _) (subset_emit s effect) own
    fun _ _ inside => Or.inl (mem_of_silent silent inside)

theorem Cached.hands (cached : Cached s (point :: rest)) (agrees : s.Agrees package id) :
    Cached (s.emit (.returned package (some id))) rest := by
  change Cached _ ((none : Option LookupPoint).toList ++ rest)
  refine cached.grow (fun _ => Lsa.slot_emit _ _ _) (subset_emit s _) (fun _ none => by cases none)
    fun other found inside => ?_
  rcases List.mem_cons.mp inside with same | before
  · cases same
    exact Or.inr agrees
  · exact Or.inl before

theorem toBitVec_ne_zero (nonzero : id ≠ 0) : id.toBitVec ≠ 0 :=
  fun zero => nonzero (UInt32.toBitVec_inj.mp zero)

theorem Cached.fill (cached : Cached s running) (empty : s.slot package = 0)
    (answered : s.Answered package id) :
    Cached (s.store id.toBitVec package) running := by
  have kept {other : Package} {found : UInt32} (given : s.Answered other found) :
      (s.store id.toBitVec package).Answered other found :=
    given.grow (Lsa.trace_store s _ package ▸ fun _ inside => inside)
  refine ⟨fun other inside found resolved => ?_, fun other full => ?_, fun other found inside => ?_⟩
  · exact (cached.pending other inside found resolved).imp_right kept
  · rcases eq_or_ne other package with rfl | different
    · rw [Lsa.slot_store]
      exact kept answered
    · rw [Lsa.slot_store_of_ne _ _ different] at full ⊢
      exact kept (cached.filled other full)
  · rw [Lsa.trace_store] at inside
    have agrees := cached.returned other found inside
    have different : other ≠ package := by
      rintro rfl
      exact agrees.full empty
    have same := Lsa.slot_store_of_ne s id.toBitVec different
    exact ⟨agrees.nonzero, kept agrees.answered, same ▸ agrees.full, same ▸ agrees.same⟩

theorem Cached.exchange (cached : Cached s (.exchange package id :: rest)) :
    Cached ((s.exchange package id).1.emit (.returned package (some (s.exchange package id).2))) rest := by
  obtain ⟨nonzero, answered⟩ := cached.pending _ List.mem_cons_self (package, id) rfl
  by_cases empty : s.slot package = 0
  · rw [Lsa.exchange_empty empty]
    refine (cached.fill empty answered).hands ⟨nonzero, ?_, ?_, fun _ => ?_⟩
    · exact answered.grow (Lsa.trace_store s _ package ▸ fun _ inside => inside)
    · rw [Lsa.slot_store]
      exact toBitVec_ne_zero nonzero
    · exact (Lsa.slot_store s _ package).symm
  · rw [Lsa.exchange_full empty]
    by_cases positive : 0 < (s.slot package).toInt
    · rw [if_pos positive]
      exact cached.hands ⟨fun zero => empty (congrArg UInt32.toBitVec zero), cached.filled package empty,
        empty, fun _ => rfl⟩
    · rw [if_neg positive]
      exact cached.hands ⟨nonzero, answered, empty, fun other => absurd other positive⟩

theorem Cached.advance (cached : Cached s (point :: rest))
    (advanced : point.advance s os = some (next, after)) : Cached next (after.toList ++ rest) := by
  have pending := cached.pending point List.mem_cons_self
  cases point with
  | readCache package =>
    simp only [LookupPoint.advance] at advanced
    split at advanced
    next hit =>
      cases advanced
      have full : s.slot package ≠ 0 := by
        intro zero
        rw [zero] at hit
        cases hit
      exact cached.hands ⟨fun zero => full (congrArg UInt32.toBitVec zero), cached.filled package full,
        full, fun _ => rfl⟩
    · cases advanced
      exact cached.grow (fun _ => rfl) (fun _ inside => inside) (by rintro _ ⟨⟩ _ ⟨⟩) fun _ _ => Or.inl
  | connect package =>
    simp only [LookupPoint.advance] at advanced
    split at advanced
    · cases advanced
      exact cached.grow (fun _ => Lsa.slot_connect _ _) (List.subset_cons_self _ _)
        (by rintro _ ⟨⟩ _ ⟨⟩) fun _ _ inside => Or.inl (mem_of_silent (by simp) inside)
    · cases advanced
      exact cached.emit (by simp) (by rintro _ ⟨⟩)
  | lookup package h =>
    cases advanced
    refine cached.emit (by simp) ?_
    rintro _ ⟨⟩ found resolved
    rw [resolved_closeLsa] at resolved
    obtain ⟨id, answer, rfl⟩ := Option.map_eq_some_iff.mp resolved
    obtain ⟨answer, nonzero⟩ := Option.filter_eq_some_iff.mp answer
    refine ⟨of_decide_eq_true nonzero, h, ?_⟩
    rw [answer]
    exact List.mem_cons_self
  | closeLsa package h resolved =>
    cases resolved with
    | none =>
      cases advanced
      refine cached.grow (fun _ => by simp) (fun _ inside => ?_) (by rintro _ ⟨⟩) fun _ _ inside => ?_
      · exact List.mem_cons_of_mem _ (List.mem_cons_of_mem _ inside)
      · have first := mem_of_silent (s := s.emit _) (by simp) inside
        exact Or.inl (mem_of_silent (by simp) first)
    | some resolved =>
      cases advanced
      refine cached.emit (by simp) ?_
      rintro _ ⟨⟩ found same
      exact (pending found same).imp_right fun answered => answered.grow (subset_emit s _)
  | exchange package resolved =>
    cases advanced
    exact cached.exchange

/-- The connections opened are those closed and those the lookups hold. -/
def Connections (s : Lsa) (running : List LookupPoint) : Prop :=
  Balanced LsaEffect.opens LsaEffect.closes (running.flatMap LookupPoint.handles) s.nextHandle s.trace

theorem Connections.advance (connections : Connections s (point :: rest))
    (advanced : point.advance s os = some (next, after)) : Connections next (after.toList ++ rest) := by
  unfold Connections at connections ⊢
  cases point with
  | readCache package =>
    simp only [LookupPoint.advance] at advanced
    split at advanced
    · cases advanced
      exact connections.quiet rfl rfl
    · cases advanced
      exact connections
  | connect package =>
    simp only [LookupPoint.advance] at advanced
    split at advanced
    · cases advanced
      refine connections.acquire rfl rfl (List.nodup_singleton _) ?_ (Nat.le_succ _)
      intro h inside
      cases List.mem_singleton.mp inside
      exact ⟨Nat.le_refl _, Nat.lt_succ_self _⟩
    · cases advanced
      exact connections.quiet rfl rfl
  | lookup package h =>
    cases advanced
    exact connections.quiet rfl rfl
  | closeLsa package h resolved =>
    cases resolved with
    | none =>
      cases advanced
      exact (connections.release rfl rfl).quiet rfl rfl
    | some resolved =>
      cases advanced
      exact connections.release rfl rfl
  | exchange package resolved =>
    cases advanced
    refine Balanced.quiet ?_ rfl rfl
    by_cases empty : s.slot package = 0
    · rw [Lsa.exchange_empty empty, Lsa.trace_store, Lsa.emit, Lsa.nextHandle_store]
      exact connections
    · rw [Lsa.exchange_full empty]
      exact connections

theorem slot_advance (advanced : point.advance s os = some (next, after))
    (full : s.slot package ≠ 0) : next.slot package = s.slot package := by
  cases point with
  | readCache | connect =>
    simp only [LookupPoint.advance] at advanced
    split at advanced <;> cases advanced <;> simp
  | lookup =>
    cases advanced
    simp
  | closeLsa other h resolved => cases resolved <;> cases advanced <;> simp
  | exchange other resolved =>
    cases advanced
    rw [Lsa.slot_emit]
    by_cases empty : s.slot other = 0
    · rw [Lsa.exchange_empty empty]
      refine Lsa.slot_store_of_ne _ _ ?_
      rintro rfl
      exact full empty
    · rw [Lsa.exchange_full empty]

end Cache

theorem cached_invariant : lookups.Invariant (fun _ => True) Cached where
  reorder := fun same cached =>
    ⟨fun point inside => cached.pending point (same.mem_iff.mpr inside), cached.filled, cached.returned⟩
  enter := by
    rintro s running package next point _ cached ⟨⟩
    refine ⟨fun other inside found resolved => ?_, cached.filled, cached.returned⟩
    rcases List.mem_cons.mp inside with rfl | inside
    · cases resolved
    · exact cached.pending other inside found resolved
  advance := fun cached advanced => cached.advance advanced

theorem connections_invariant : lookups.Invariant (fun _ => True) Connections where
  reorder := fun same connections => Balanced.reorder connections (same.flatMap_right _)
  enter := by
    rintro s running package next point _ connections ⟨⟩
    exact connections
  advance := fun connections advanced => connections.advance advanced

theorem cached_initial : Cached .initial [] where
  pending := fun _ inside => by cases inside
  filled := fun package full => by cases package <;> exact absurd rfl full
  returned := fun _ _ inside => by cases inside

theorem connections_initial : Connections .initial [] := balanced_nil 1

/-- What the ids that lookups return have in common, whatever the threads do and whatever
the LSA answers. -/
structure PackageAgreement (s : Lsa) : Prop where
  answered : ∀ package id, .returned package (some id) ∈ s.trace →
    id ≠ 0 ∧ ∃ h, .lookedUp h package (some id) ∈ s.trace
  unanimous : ∀ package first second, .returned package (some first) ∈ s.trace →
    .returned package (some second) ∈ s.trace → 0 < (s.slot package).toInt → first = second
  unfilled : ∀ package id, s.slot package = 0 → .returned package (some id) ∉ s.trace

theorem packages_agree (s : State Lsa LookupPoint) (reached : lookups.Reachable .initial s) :
    PackageAgreement s.shared := by
  have cached := cached_invariant.reachable cached_initial reached
  refine ⟨fun package id inside => ?_, fun package first second one other positive => ?_,
    fun package id empty inside => (cached.returned package id inside).full empty⟩
  · exact ⟨(cached.returned package id inside).nonzero, (cached.returned package id inside).answered⟩
  · apply UInt32.toBitVec_inj.mp
    rw [(cached.returned package first one).same positive, (cached.returned package second other).same positive]

/-- Once filled, a cache never changes. -/
theorem slot_permanent (s final : State Lsa LookupPoint) (labels : List (Label Package LookupPoint LsaOs))
    (ran : Transition.run lookups.step s labels = some final) (package : Package)
    (full : s.shared.slot package ≠ 0) : final.shared.slot package = s.shared.slot package := by
  have kept : lookups.Invariant (fun _ => True)
      fun now _ => now.slot package = s.shared.slot package :=
    { reorder := fun _ same => same
      enter := by
        rintro now running entry next point _ same ⟨⟩
        exact same
      advance := fun same advanced => (slot_advance advanced (same ▸ full)).trans same }
  exact kept.run rfl (fun label _ => label.allowed_true) ran

/-- Every connection to the LSA is closed once, by the lookup that opened it. -/
structure LsaReleased (s : Lsa) (running : List LookupPoint) : Prop where
  once : ∀ h, .connected h ∈ s.trace →
    (running.flatMap LookupPoint.handles).count h + (s.trace.flatMap LsaEffect.closes).count h = 1
  owned : ∀ point ∈ running, ∀ h ∈ point.handles,
    .connected h ∈ s.trace ∧ ∀ succeeded, .deregistered h succeeded ∉ s.trace
  finished : running = [] → ∀ h, .connected h ∈ s.trace →
    (s.trace.flatMap LsaEffect.closes).count h = 1

theorem mem_opens {trace : List LsaEffect} {h : LsaHandle} :
    h ∈ trace.flatMap LsaEffect.opens ↔ .connected h ∈ trace := by
  rw [List.mem_flatMap]
  constructor
  · rintro ⟨effect, inside, opened⟩
    cases effect with
    | connected other =>
      cases List.mem_singleton.mp opened
      exact inside
    | _ => cases opened
  · exact fun inside => ⟨_, inside, List.mem_singleton_self h⟩

theorem connections_released (s : State Lsa LookupPoint) (reached : lookups.Reachable .initial s) :
    LsaReleased s.shared s.running := by
  have connections := connections_invariant.reachable connections_initial reached
  have once (h : LsaHandle) (inside : .connected h ∈ s.shared.trace) :=
    connections.count_eq_one (mem_opens.mpr inside)
  refine ⟨once, fun point inside h held => ?_, fun none h inside => ?_⟩
  · have also : h ∈ s.running.flatMap LookupPoint.handles := List.mem_flatMap.mpr ⟨point, inside, held⟩
    have opened := mem_opens.mp (connections.mem_acquired (Or.inl also))
    refine ⟨opened, fun succeeded closed => ?_⟩
    have returned : h ∈ s.shared.trace.flatMap LsaEffect.closes :=
      List.mem_flatMap.mpr ⟨_, closed, List.mem_singleton_self h⟩
    have total := once h opened
    have first := List.count_pos_iff.mpr also
    have second := List.count_pos_iff.mpr returned
    omega
  · have total := once h inside
    rw [none, List.flatMap_nil, List.count_nil, Nat.zero_add] at total
    exact total

/-- Two threads miss the cache, and the LSA tells them different ids; the one whose exchange
comes later returns the id of the other. -/
def missedTwice : List (Label Package LookupPoint LsaOs) :=
  let answering (id : UInt32) : LsaOs := ⟨true, some id, true⟩
  [.enter .msv, .enter .msv, .advance (.readCache .msv) (answering 2),
    .advance (.readCache .msv) (answering 2), .advance (.connect .msv) (answering 2),
    .advance (.connect .msv) (answering 2), .advance (.lookup .msv 1) (answering 2),
    .advance (.lookup .msv 2) (answering 5), .advance (.closeLsa .msv 2 (some 5)) (answering 5),
    .advance (.exchange .msv 5) (answering 5), .advance (.closeLsa .msv 1 (some 2)) (answering 2),
    .advance (.exchange .msv 2) (answering 2)]

theorem packages_agree_missedTwice : ∃ s,
    Transition.run lookups.step ⟨.initial, []⟩ missedTwice = some s ∧ s.shared.cachedMsvPkg = 5 ∧
      s.shared.trace.count (.returned .msv (some 5)) = 2 ∧ PackageAgreement s.shared :=
  ⟨_, rfl, rfl, by decide, packages_agree _ ⟨missedTwice, rfl⟩⟩

theorem connections_released_missedTwice : ∃ s,
    Transition.run lookups.step ⟨.initial, []⟩ missedTwice = some s ∧
      s.shared.trace.flatMap LsaEffect.closes = [1, 2] ∧ LsaReleased s.shared s.running :=
  ⟨_, rfl, by decide, connections_released _ ⟨missedTwice, rfl⟩⟩

/-! ## The packages of the credentials -/

structure PackCall where
  abi : Abi
  os : AuthOs
  lsa : LsaOs
  domain : WString
  user : WString
  password : WString
  scen : Scenario

def PackCall.package (call : PackCall) : Package :=
  if call.domain.isEmpty || call.domain == dot then .msv else .kerberos

def AuthOs.resolving (os : AuthOs) (id : Option UInt32) : Package → AuthOs
  | .kerberos => { os with resolveNegotiate := id }
  | .msv => { os with resolveMsv := id }

structure Packing where
  lsa : Lsa
  packed : List (Package × UInt32)

/-- An empty user name is refused before anything is looked up. -/
def PackCall.serve (s : Packing) (call : PackCall) : Option Packing :=
  if call.user.isEmpty then some s
  else
    let (lsa, id) := resolvePkgCached call.lsa s.lsa call.package
    let packed := packAutoEx call.abi (call.os.resolving id call.package) call.domain call.user
      call.password call.scen
    some ⟨lsa, (packed.map fun packed => (call.package, packed.authPkg)).toList ++ s.packed⟩

section Packing
variable {abi : Abi} {os : AuthOs} {domain user password : WString} {scen : Scenario} {packed : Packed}

theorem packMsv_authPkg (built : packMsv abi os domain user password scen = some packed) :
    os.resolveMsv = some packed.authPkg := by
  obtain ⟨_, _, built⟩ := Option.bind_eq_some_iff.mp built
  obtain ⟨pkg, resolved, built⟩ := Option.bind_eq_some_iff.mp built
  rw [resolved]
  cases scen with
  | logon =>
    obtain ⟨_, _, built⟩ := Option.bind_eq_some_iff.mp built
    cases built
    rfl
  | unlock =>
    obtain ⟨_, _, built⟩ := Option.bind_eq_some_iff.mp built
    obtain ⟨_, _, built⟩ := Option.bind_eq_some_iff.mp built
    cases built
    rfl

theorem packKerb_authPkg (built : packKerb abi os domain user password scen = some packed) :
    os.resolveNegotiate = some packed.authPkg := by
  obtain ⟨_, _, built⟩ := Option.bind_eq_some_iff.mp built
  obtain ⟨pkg, resolved, built⟩ := Option.bind_eq_some_iff.mp built
  rw [resolved]
  cases scen with
  | logon =>
    obtain ⟨_, _, built⟩ := Option.bind_eq_some_iff.mp built
    cases built
    rfl
  | unlock =>
    obtain ⟨_, _, built⟩ := Option.bind_eq_some_iff.mp built
    obtain ⟨_, _, built⟩ := Option.bind_eq_some_iff.mp built
    cases built
    rfl

theorem PackCall.authPkg {call : PackCall} {id : Option UInt32}
    (built : packAutoEx call.abi (call.os.resolving id call.package) call.domain call.user
      call.password call.scen = some packed) : id = some packed.authPkg := by
  unfold packAutoEx at built
  unfold PackCall.package at built
  split at built
  · exact packMsv_authPkg built
  · exact packKerb_authPkg built

end Packing

/-- An id that fits the sign of the cache. -/
def LsaOs.Small (os : LsaOs) : Prop :=
  ∀ id, os.lookupAuthenticationPackage = some id → id.toNat < 2 ^ 31

def Lsa.Clean (s : Lsa) : Prop := ∀ package, s.slot package ≠ 0 → 0 < (s.slot package).toInt

theorem toInt_pos {id : UInt32} (nonzero : id ≠ 0) (small : id.toNat < 2 ^ 31) :
    0 < id.toBitVec.toInt := by
  have positive : id.toNat ≠ 0 := fun zero => nonzero (UInt32.toNat_inj.mp zero)
  rw [BitVec.toInt_eq_toNat_of_lt]
  · exact Int.natCast_pos.mpr (Nat.pos_of_ne_zero positive)
  · change 2 * id.toNat < 2 ^ 32
    omega

theorem resolvePkgA_spec (os : LsaOs) (s : Lsa) (package : Package) :
    (∀ other, (resolvePkgA os s package).1.slot other = s.slot other) ∧
      ∀ id, (resolvePkgA os s package).2 = some id →
        id ≠ 0 ∧ os.lookupAuthenticationPackage = some id := by
  fun_cases resolvePkgA os s package with
  | case1 refused => exact ⟨fun _ => rfl, by rintro id ⟨⟩⟩
  | case2 | case3 =>
    refine ⟨fun other => ?_, by rintro id ⟨⟩⟩
    rw [Lsa.slot_emit, Lsa.slot_emit, Lsa.slot_connect]
  | case4 connected h s₁ s₂ s₃ t answer nonzero =>
    refine ⟨fun other => ?_, ?_⟩
    · rw [Lsa.slot_emit, Lsa.slot_emit, Lsa.slot_connect]
    · rintro id ⟨⟩
      exact ⟨nonzero, answer⟩

/-- While every id is small, a lookup that returns one leaves it in the cache, and never
changes a cache that is filled. -/
structure Caches (s next : Lsa) (package : Package) (result : Option UInt32) : Prop where
  clean : next.Clean
  kept : ∀ other, s.slot other ≠ 0 → next.slot other = s.slot other
  cached : ∀ id, result = some id → id ≠ 0 ∧ next.slot package = id.toBitVec

theorem resolvePkgCached_caches {os : LsaOs} {s : Lsa} (clean : s.Clean) (small : os.Small)
    (package : Package) :
    Caches s (resolvePkgCached os s package).1 package (resolvePkgCached os s package).2 := by
  obtain ⟨slots, answered⟩ := resolvePkgA_spec os s package
  unfold resolvePkgCached
  dsimp only
  by_cases hit : 0 < (s.slot package).toInt
  · rw [if_pos hit]
    refine ⟨clean, fun _ _ => rfl, ?_⟩
    rintro id ⟨⟩
    refine ⟨fun zero => ?_, rfl⟩
    rw [show s.slot package = 0 from congrArg UInt32.toBitVec zero] at hit
    cases hit
  · have empty : s.slot package = 0 := by
      by_contra full
      exact hit (clean package full)
    rw [if_neg hit]
    rcases looked : resolvePkgA os s package with ⟨s', _ | resolved⟩
    · rw [looked] at slots
      exact ⟨fun other full => slots other ▸ clean other (slots other ▸ full),
        fun other _ => slots other, by rintro id ⟨⟩⟩
    · rw [looked] at slots answered
      obtain ⟨nonzero, answer⟩ := answered resolved rfl
      dsimp only
      rw [Lsa.exchange_empty ((slots package).trans empty)]
      refine ⟨fun other full => ?_, fun other full => ?_, ?_⟩
      · rcases eq_or_ne other package with rfl | different
        · rw [Lsa.slot_store]
          exact toInt_pos nonzero (small resolved answer)
        · rw [Lsa.slot_store_of_ne _ _ different] at full ⊢
          exact slots other ▸ clean other (slots other ▸ full)
      · have different : other ≠ package := by
          rintro rfl
          exact full empty
        rw [Lsa.slot_store_of_ne _ _ different]
        exact slots other
      · rintro id ⟨⟩
        exact ⟨nonzero, Lsa.slot_store _ _ _⟩

structure Built (s : Packing) : Prop where
  clean : s.lsa.Clean
  packed : ∀ entry ∈ s.packed, entry.2 ≠ 0 ∧ s.lsa.slot entry.1 = entry.2.toBitVec

theorem Built.serve {s next : Packing} {call : PackCall} (built : Built s) (small : call.lsa.Small)
    (served : call.serve s = some next) : Built next := by
  unfold PackCall.serve at served
  split at served
  · cases served
    exact built
  · have caches := resolvePkgCached_caches built.clean small call.package
    have named {packed : Packed} := @PackCall.authPkg packed call
      (resolvePkgCached call.lsa s.lsa call.package).2
    obtain rfl := Option.some_inj.mp served
    refine ⟨caches.clean, fun entry inside => ?_⟩
    rcases List.mem_append.mp inside with first | before
    · obtain ⟨packed, built, rfl⟩ := Option.map_eq_some_iff.mp (Option.mem_toList.mp first)
      exact caches.cached _ (named built)
    · obtain ⟨nonzero, same⟩ := built.packed entry before
      refine ⟨nonzero, (caches.kept entry.1 ?_).trans same⟩
      rw [same]
      exact toBitVec_ne_zero nonzero

/-- The credentials of one process that are built the same way name one package, even if
the LSA changes its answers. -/
theorem packages_constant (calls : List PackCall) (small : ∀ call ∈ calls, call.lsa.Small)
    (final : Packing)
    (ran : Transition.run PackCall.serve ⟨.initial, []⟩ calls = some final) :
    ∀ package first second, (package, first) ∈ final.packed → (package, second) ∈ final.packed →
      first = second := by
  have initial : Built ⟨.initial, []⟩ :=
    ⟨fun package full => by cases package <;> exact absurd rfl full, fun _ inside => by cases inside⟩
  have built : Built final :=
    (Transition.meets_of_forall PackCall.serve small _).invariant Built
      (fun _ _ _ built small served => built.serve small served) initial ran
  intro package first second one other
  apply UInt32.toBitVec_inj.mp
  rw [← (built.packed _ one).2, ← (built.packed _ other).2]

def packedTwice : List PackCall :=
  let os : AuthOs := ⟨none, none, 1, none, none, fun _ => some 0x1000⟩
  let call (id : UInt32) : PackCall := ⟨.x64, os, ⟨true, some id, true⟩, dot, [0x61], [0x62], .logon⟩
  [call 2, call 5]

theorem packages_constant_twice : ∃ final,
    Transition.run PackCall.serve ⟨.initial, []⟩ packedTwice = some final ∧
      final.packed = [(.msv, 2), (.msv, 2)] ∧
      ∀ package first second, (package, first) ∈ final.packed → (package, second) ∈ final.packed →
        first = second := by
  refine ⟨_, rfl, rfl, packages_constant packedTwice ?_ _ rfl⟩
  simp [packedTwice, LsaOs.Small]

end Dot1xCP.Auth
