/-
**Inserting.**

* `Defines`, `ensures_reserveAndDefine`: an item is written, or there is no room;
* `Inserts`, `ensures_insert`: **what an insert leaves**, whatever it answers;
* `returns_insert`: an insert of an item that fits a fresh segment returns.
-/

import CacheRs.Segcache.Beginnings
import CacheRs.Segcache.Updates

set_option linter.unusedSectionVars false

namespace CacheRs.Segcache

open KeyValue (Value)
open Segments (SegId State bucketTtl getBucketIndex)
open Sequential Procedure

variable {config : Config} {cache middle after last : Cache} {b : Nat} {key : Key} {value : Value}
  {optional : Optional} {item : Item} {location : Location}

/-- The item that a write of this key would make. -/
def Item.written (key : Key) (value : Value) (optional : Optional) : Item :=
  ⟨key, value, optional, 0, false⟩

/-- Routing a write of this key does nothing to the cache. -/
def Clean (config : Config) (key : Key) (cache : Cache) : Prop :=
  config.policy.isS3Fifo = false ∨
    (cache.eviction.ghost.contains (config.geometry.hashKey key) = false ∧
      cache.admissionCount < config.admissionCap)

/-- What reserving and writing an item answers. -/
def Defines (config : Config) (b : Nat) (item : Item) (cache : Cache)
    (result : Except SegcacheError Reserved) (after : Cache) : Prop :=
  (∃ reserved middle, result = .ok reserved ∧ Evicting config cache middle ∧
    Placed config b item (after.locationAt reserved.seg reserved.offset) middle after) ∨
    (result = .error (.itemOversized (item.size config)) ∧ config.segmentSize < item.size config ∧
      Evicting config cache after ∧ (Clean config item.key cache → after = cache)) ∨
    (result = .error .noFreeSegments ∧ Evicting config cache after)

theorem Written.shed (written : Written config b item location cache after) :
    Shed config cache after :=
  shed_of_entries (fun _ _ _ slot => written.slots ▸ slot) fun key mapping => (written.maps key mapping).mp

/-- **Whatever `reserve_and_define` answers**, it has written the item or found no room. -/
theorem ensures_reserveAndDefine (good : Good config cache) (fuel : Nat)
    (key : Key) (value : Value) (optional : Optional) (ttl : Nat) :
    Ensures (reserveAndDefine config fuel key value optional ttl)
      (Defines config (getBucketIndex ttl) (Item.written key value optional) cache) cache := by
  obtain ⟨⟨chain, sane⟩, ranked⟩ := good
  unfold reserveAndDefine
  refine Ensures.seq (returns_routePool sane ranked key).ensures
    fun pool middle ⟨routed, clean, _⟩ => ?_
  obtain ⟨chain', sane'⟩ := routed.sane
  refine Ensures.seq (ensures_reserveRetry (isBucket_getBucketIndex ttl) fuel fuel
    reserveRetries sane' routed.ranked) fun result after reserves => ?_
  rcases reserves with ⟨reserved, between, rfl, proceeds, found, rounds, ran⟩ | ⟨rfl, oversized, rfl⟩ |
    ⟨rfl, proceeds⟩
  · obtain ⟨last, defines, written⟩ := found.define proceeds.ranked pool
    refine Returns.ensures ?_
    dsimp only
    rw [returns_bind]
    exact returns_of_eq defines ((returns_pure _).mpr
      (.inl ⟨reserved, between, rfl, routed.trans proceeds, written, .fill ran defines⟩))
  · exact (ensures_pure _).mpr (.inr (.inl ⟨rfl, oversized, routed, clean⟩))
  · exact (ensures_pure _).mpr (.inr (.inr ⟨rfl, routed.trans proceeds⟩))

/-- What an insert answers. -/
def Inserts (config : Config) (b : Nat) (item : Item) (cache : Cache)
    (result : Except SegcacheError Unit) (after : Cache) : Prop :=
  (∃ (reserved : Reserved) (middle defined : Cache) (location : Location), Evicting config cache middle ∧
    Placed config b item location middle defined ∧
    location = defined.locationAt reserved.seg reserved.offset ∧
    ((result = .ok () ∧ Published config item location defined after) ∨
      (result = .error .hashTableInsertEx ∧ GivenBack config defined after ∧
        ∀ mapping, ¬ Maps config defined item.key mapping))) ∨
    (result = .error (.itemOversized (item.size config)) ∧ config.segmentSize < item.size config ∧
      Evicting config cache after ∧ (Clean config item.key cache → after = cache)) ∨
    (result = .error .noFreeSegments ∧ Evicting config cache after)

/-- What an insert leaves is in order. -/
theorem Inserts.good {result : Except SegcacheError Unit}
    (inserts : Inserts config b item cache result after) : Good config after := by
  rcases inserts with ⟨_, _, _, _, -, -, -, ⟨-, published⟩ | ⟨-, tidied, -⟩⟩ | ⟨-, -, proceeds, -⟩ |
    ⟨-, proceeds⟩
  · exact ⟨published.sane, published.ranked⟩
  · exact tidied.toProceeds.good
  · exact proceeds.toProceeds.good
  · exact proceeds.toProceeds.good

/-- **What an insert leaves**, whatever it answers. -/
theorem ensures_insert (good : Good config cache) (fuel : Nat) (key : Key)
    (value : Value) (optional : Optional) (ttl : Nat) :
    Ensures (insert config fuel key value optional ttl)
      (Inserts config (getBucketIndex (coarseTtl ttl)) (Item.written key value optional) cache)
      cache := by
  unfold insert
  cases fuel with
  | zero => exact ensures_diverge.mpr trivial
  | succ fuel =>
    unfold insertLoop
    refine Ensures.seq (ensures_reserveAndDefine good (fuel + 1) key value optional _)
      fun result after defines => ?_
    rcases defines with ⟨reserved, middle, rfl, proceeds, written⟩ | ⟨rfl, oversized⟩ | ⟨rfl, proceeds⟩
    · dsimp only
      rw [reservedLocation, ensures_bind, ensures_read]
      refine Ensures.seq (ensures_publishItem written.holding rfl)
        fun _ last ⟨answer, same, publishes⟩ => ?_
      subst same
      exact (ensures_pure _).mpr (.inl ⟨reserved, middle, after, _, proceeds, written, rfl, publishes⟩)
    · exact (ensures_pure _).mpr (.inr (.inl ⟨rfl, oversized⟩))
    · exact (ensures_pure _).mpr (.inr (.inr ⟨rfl, proceeds⟩))

end CacheRs.Segcache
