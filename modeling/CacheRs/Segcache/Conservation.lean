/-
**Where every segment is.**

* `InOrder`: the chain of a bucket;
* `chains_in_order`: **the chains are in order, and hold the segments in service**;
* `Place`, `Lies`: the places a segment may be in;
* `segments_conserved`: **every segment is in exactly one place**.
-/

import CacheRs.Lists.Walks
import CacheRs.Segcache.Ceilings

set_option linter.unusedSectionVars false

namespace CacheRs.Segcache

open DoublyLinked
open Segments (SegId State totalBuckets bucketTtl getBucketIndex IsBucket)

variable {config : Config} {cache : Cache} {chain : Nat → List SegId} {id : SegId} {b c : Nat}

/-! ### The chains -/

/-- The members of a bucket's chain, from its head to its tail. -/
structure InOrder (cache : Cache) (b : Nat) (members : List SegId) : Prop where
  forth : Walks (fun i => (cache.segment i).next) (cache.bucket b).head members
  back : Walks (fun i => (cache.segment i).prev) (cache.bucket b).tail members.reverse
  unique : members.Nodup
  /-- The last member is live and the others are sealed, but for what was left claimed. -/
  states : ∀ i ∈ members, (cache.segment i).state ≠ .draining →
    (cache.segment i).state = if members.getLast? = some i then .live else .sealed
  ttl : ∀ i ∈ members, (cache.segment i).ttl = bucketTtl b ∧ getBucketIndex (cache.segment i).ttl = b
  sorted : members.Pairwise fun i j => (cache.segment i).createAt ≤ (cache.segment j).createAt
  past : ∀ i ∈ members, (cache.segment i).createAt ≤ cache.now

theorem Orderly.inOrder (orderly : Orderly config Hand.empty chain cache.shape)
    (dated : Dated chain cache) (b : Nat) : InOrder cache b (chain b) where
  forth := by
    have head : (cache.bucket b).head = (chain b).head? := orderly.head b
    rw [head]
    exact (orderly.strung b).walks
  back := by
    have tail : (cache.bucket b).tail = (chain b).getLast? := orderly.tail b
    rw [tail]
    exact (orderly.strung b).walks_back
  unique := orderly.unique b
  states i inside awake := by
    have held := (orderly.member i).mpr ⟨b, inside⟩
    have last := orderly.last b i inside awake
    have settled := (orderly.settled held).resolve_right awake
    split
    · exact last.mpr ‹_›
    · exact settled.resolve_right fun live => ‹¬ _› (last.mp live)
  ttl i inside := by
    have ttl : (cache.segment i).ttl = bucketTtl b := orderly.ttl b i inside
    rw [ttl]
    exact ⟨rfl, (orderly.bucket b (List.ne_nil_of_mem inside)).1⟩
  sorted := dated.sorted b
  past := dated.past b

/-- **The chains are in order**: each is walked in both directions, is sorted by its members' age and has
its bucket's lifetime; a segment is in one at most, and in one exactly when it holds items. -/
theorem chains_in_order (reachable : Reachable config cache) : ∃ chain : Nat → List SegId,
    (∀ b, InOrder cache b (chain b)) ∧
    (∀ b c i, i ∈ chain b → i ∈ chain c → b = c) ∧
    (∀ i, holds (cache.segment i).state = true ↔ ∃ b < totalBuckets, i ∈ chain b) ∧
    (config.Merges → ∀ i, (cache.segment i).state ≠ .draining) := by
  obtain ⟨⟨chain, sane⟩, -⟩ := reachable.good
  have dated := reachable.timely.dated sane.orderly
  refine ⟨chain, sane.orderly.inOrder dated, fun b c i => sane.orderly.eq_of_mem, fun i => ?_,
    fun merges => sane.orderly.not_draining merges⟩
  refine (sane.orderly.member i).trans ⟨fun ⟨b, inside⟩ => ?_, fun ⟨b, _, inside⟩ => ⟨b, inside⟩⟩
  exact ⟨b, (sane.orderly.bucket b (List.ne_nil_of_mem inside)).2, inside⟩

/-- The first segment is sealed and the second is live. -/
def sealedFirst (cache : Cache) : Bool :=
  decide ((cache.segment 1).state = .sealed) && decide ((cache.segment 2).state = .live)

theorem exists_sealedFirst : ∃ cache, Reachable (Config.small false .fifo 3) cache ∧
    sealedFirst cache = true :=
  exists_reachable (Config.small false .fifo 3) 10
    [.insert (smallKey 1) (smallValue 8) Optional.none 60,
      .insert (smallKey 2) (smallValue 8) Optional.none 60,
      .insert (smallKey 3) (smallValue 8) Optional.none 60] sealedFirst (by decide +kernel)

theorem chains_in_order_sealed : ∃ cache, sealedFirst cache = true ∧ ∃ chain : Nat → List SegId,
    (∀ b, InOrder cache b (chain b)) ∧
    (∀ b c i, i ∈ chain b → i ∈ chain c → b = c) ∧
    (∀ i, holds (cache.segment i).state = true ↔ ∃ b < totalBuckets, i ∈ chain b) ∧
    ((Config.small false .fifo 3).Merges → ∀ i, (cache.segment i).state ≠ .draining) := by
  obtain ⟨cache, reachable, first⟩ := exists_sealedFirst
  exact ⟨cache, first, chains_in_order reachable⟩

/-! ### The places -/

inductive Place where
  | free
  | spare
  | chain (b : Nat)
  | waiting

/-- A segment lies in a place. -/
def Lies (cache : Cache) (id : SegId) : Place → Prop
  | .free => id ∈ cache.freeQueue
  | .spare => id ∈ cache.spareQueue
  | .chain b => ∃ members, InOrder cache b members ∧ id ∈ members
  | .waiting => (cache.segment id).state = .awaitingRelease ∧ 0 < (cache.segment id).refCount

/-- The states of the segments in a place. -/
def Place.Expects (state : State) : Place → Prop
  | .free | .spare => state = .free
  | .chain _ => holds state = true
  | .waiting => state = .awaitingRelease

theorem Orderly.mem_of_lies (orderly : Orderly config Hand.empty chain cache.shape)
    (lies : Lies cache id (.chain b)) : id ∈ chain b := by
  obtain ⟨members, inOrder, inside⟩ := lies
  have walks := (orderly.strung b).walks
  have head : (cache.bucket b).head = (chain b).head? := orderly.head b
  rw [← head] at walks
  rwa [inOrder.forth.unique walks] at inside

theorem Orderly.expects (orderly : Orderly config Hand.empty chain cache.shape) {place : Place}
    (lies : Lies cache id place) : place.Expects (cache.segment id).state := by
  cases place with
  | free => exact ((orderly.queues.queued id).mp (List.mem_append_left _ lies)).2
  | spare => exact ((orderly.queues.queued id).mp (List.mem_append_right _ lies)).2
  | waiting => exact lies.1
  | chain b => exact (orderly.member id).mpr ⟨b, orderly.mem_of_lies lies⟩

/-- No segment lies in two places. -/
theorem Orderly.place_unique (orderly : Orderly config Hand.empty chain cache.shape) {place other : Place}
    (lies : Lies cache id place) (lies' : Lies cache id other) : place = other := by
  have apart := (List.nodup_append.mp orderly.queues.unique).2.2
  have expects := orderly.expects lies
  have expects' := orderly.expects lies'
  generalize (cache.segment id).state = state at expects expects'
  cases place with
  | free =>
    cases other with
    | free => rfl
    | spare => exact absurd rfl (apart id lies id lies')
    | chain _ | waiting =>
      cases (show state = .free from expects)
      cases expects'
  | spare =>
    cases other with
    | free => exact absurd rfl (apart id lies' id lies)
    | spare => rfl
    | chain _ | waiting =>
      cases (show state = .free from expects)
      cases expects'
  | chain b =>
    cases other with
    | chain c => rw [orderly.eq_of_mem (orderly.mem_of_lies lies) (orderly.mem_of_lies lies')]
    | free | spare | waiting =>
      cases expects'
      cases expects
  | waiting =>
    cases other with
    | waiting => rfl
    | free | spare | chain _ =>
      cases (show state = .awaitingRelease from expects)
      cases expects'

/-- Every segment lies somewhere. -/
theorem Orderly.exists_place (orderly : Orderly config Hand.empty chain cache.shape)
    (dated : Dated chain cache) (range : InRange config id) : ∃ place, Lies cache id place := by
  have member := orderly.member id
  have fresh := orderly.fresh id
  have waiting := orderly.waiting id
  have unlocked := orderly.unlocked id
  have inChain : holds (cache.segment id).state = true → ∃ place, Lies cache id place := by
    intro held
    obtain ⟨b, inside⟩ := member.mp held
    exact ⟨.chain b, chain b, orderly.inOrder dated b, inside⟩
  cases state : (cache.segment id).state with
  | free =>
    rcases List.mem_append.mp ((orderly.queues.queued id).mpr ⟨range, state⟩) with inside | inside
    · exact ⟨.free, inside⟩
    · exact ⟨.spare, inside⟩
  | reserved | linking =>
    have taken := fresh.mp (show isFresh (cache.segment id).state = true by rw [state]; rfl)
    cases taken
  | locked => exact absurd state unlocked
  | awaitingRelease => exact ⟨.waiting, state, waiting state⟩
  | live | «sealed» | relinking | draining => exact inChain (by rw [state]; rfl)

/-- **Every segment is in exactly one place**: on the free queue once, on the spare queue once, in one
bucket's chain, or waiting for its readers; the spare queue is as long as its counter says, and not
longer than its capacity. -/
theorem segments_conserved (reachable : Reachable config cache) :
    (∀ id, 1 ≤ id → id ≤ config.cap → ∃! place, Lies cache id place) ∧
    (∀ id place, Lies cache id place → 1 ≤ id ∧ id ≤ config.cap) ∧
    cache.freeQueue.Nodup ∧ cache.spareQueue.Nodup ∧
    cache.spareQueue.length = cache.spareCount ∧ cache.spareCount ≤ config.spareCapacity := by
  obtain ⟨⟨chain, sane⟩, -⟩ := reachable.good
  have orderly := sane.orderly
  have dated := reachable.timely.dated orderly
  have apart := List.nodup_append.mp orderly.queues.unique
  refine ⟨fun id one most => ?_, fun id place lies => ?_, apart.1, apart.2.1, orderly.queues.spare.symm,
    orderly.queues.bounded⟩
  · obtain ⟨place, lies⟩ := orderly.exists_place dated ⟨one, most⟩
    exact ⟨place, lies, fun other lies' => orderly.place_unique lies' lies⟩
  · have expects := orderly.expects lies
    cases place with
    | free => exact ((orderly.queues.queued id).mp (List.mem_append_left _ lies)).1
    | spare => exact ((orderly.queues.queued id).mp (List.mem_append_right _ lies)).1
    | chain b =>
      refine orderly.range id fun free => ?_
      rw [show (cache.segment id).state = .free from free] at expects
      cases expects
    | waiting =>
      refine orderly.range id fun free => ?_
      cases (show (cache.segment id).state = .awaitingRelease from expects).symm.trans free

theorem segments_conserved_sealed : ∃ cache, sealedFirst cache = true ∧
    (∀ id, 1 ≤ id → id ≤ (Config.small false .fifo 3).cap → ∃! place, Lies cache id place) ∧
    (∀ id place, Lies cache id place → 1 ≤ id ∧ id ≤ (Config.small false .fifo 3).cap) ∧
    cache.freeQueue.Nodup ∧ cache.spareQueue.Nodup ∧
    cache.spareQueue.length = cache.spareCount ∧
    cache.spareCount ≤ (Config.small false .fifo 3).spareCapacity := by
  obtain ⟨cache, reachable, first⟩ := exists_sealedFirst
  exact ⟨cache, first, segments_conserved reachable⟩

end CacheRs.Segcache
