/-
**An item leaves its segment.**

* `returns_freeEmpty`: an empty segment is freed, and no key notices;
* `returns_compactAfter`: two sparse segments are compacted;
* `returns_removeAt`: **an item in hand is accounted for as gone**, and its segment is freed or
  compacted.
-/

import CacheRs.Segcache.Reservations

set_option linter.unusedSectionVars false

namespace CacheRs.Segcache

open Segments (SegId State totalBuckets bucketTtl IsBucket getBucketIndex holdsTtl)
open Sequential Procedure

variable {config : Config} {chain : Nat → List SegId} {cache middle after : Cache}
  {id : SegId} {b : Nat} {location : Location} {item : Item}

/-- What is left when an item has been taken away. -/
structure Tidied (config : Config) (cache after : Cache) : Prop extends
    Proceeds config cache after where
  live : LiveKept config cache after
  /-- Without the merge policy no mapping changes. -/
  kept : config.policy.isMerge = false → ∀ key mapping,
    Maps config after key mapping ↔ Maps config cache key mapping

theorem Tidied.refl (sane : Sane config Hand.empty chain cache) (ranked : Ranked config cache) :
    Tidied config cache cache :=
  ⟨Proceeds.refl sane ranked, LiveKept.refl cache, fun _ _ _ => Iff.rfl⟩

/-- Nothing is mapped into a segment that has no live item. -/
theorem Consistent.vacant_of_none (consistent : Consistent config none cache)
    (held : holds (cache.segment id).state = true) (empty : (cache.segment id).liveItems = 0)
    {key : Key} {mapping : Mapping} (maps : Maps config cache key mapping) :
    mapping.location.segment ≠ id := by
  rintro rfl
  have count := consistent.items held
  have present := (consistent.present_of_maps maps).1
  have location := locationAt_of_tag present.tag
  have inside : (mapping.location.offset, mapping.item) ∈
      cache.laidOut config mapping.location.segment :=
    Cache.itemAt_locationAt.mp (location.symm ▸ present.item)
  have counted : Counts cache none mapping.location.segment mapping.location.offset :=
    .inl (location.symm ▸ maps.named)
  have one : total (Counts cache none mapping.location.segment) (fun _ => 1)
      (cache.laidOut config mapping.location.segment) =
      total (fun offset => Counts cache none mapping.location.segment offset ∧
        offset ≠ mapping.location.offset) (fun _ => 1)
        (cache.laidOut config mapping.location.segment) + 1 := by
    refine total_drop (Segment.layOut_nodup _ _) inside counted (fun both => both.2 rfl) ?_
    intro offset different
    exact ⟨fun counts => ⟨counts, different⟩, fun both => both.1⟩
  have positive : 0 ≤ total (fun offset => Counts cache none mapping.location.segment offset ∧
      offset ≠ mapping.location.offset) (fun _ => 1)
      (cache.laidOut config mapping.location.segment) := total_nonneg fun _ => by omega
  omega

/-- **An empty segment is freed**, and no key notices. -/
theorem returns_freeEmpty (sane : Sane config Hand.empty chain cache) (ranked : Ranked config cache)
    (evictable : (cache.segment id).canEvict = true) (empty : (cache.segment id).liveItems = 0) :
    Returns (freeEmpty config id) (fun _ after => Tidied config cache after) cache := by
  obtain ⟨b, locked, clears⟩ := returns_dropSegment sane evictable
  have held : holds (cache.segment id).state = true := by
    rw [(sealed_of_canEvict evictable).1]
    rfl
  unfold freeEmpty
  rw [returns_bind]
  refine returns_of_eq locked ?_
  dsimp only
  rw [segmentOf, returns_bind, returns_read, returns_bind]
  refine clears.mono fun outcome middle known => ?_
  obtain ⟨freed, evicted⟩ := known
  subst freed
  dsimp only
  refine returns_of_eq (headPatched_apply _ _) ?_
  have maps : ∀ key mapping, Maps config (middle.headPatched b (cache.segment id).prev
      (cache.segment id).next) key mapping ↔ Maps config cache key mapping := by
    intro key mapping
    rw [evicted.maps]
    exact ⟨And.left, fun was => ⟨was, sane.consistent.vacant_of_none held empty was⟩⟩
  refine ⟨(evicted.evicts (sealed_of_canEvict evictable).1 ranked).proceeds, fun key mapping was _ => ⟨(maps _ _).mpr was,
    (evicted.others _ (sane.consistent.vacant_of_none held empty was)).sameAge⟩, fun _ => maps⟩

/-- **Two sparse segments are compacted.** -/
theorem returns_compactAfter (merge : config.policy.isMerge = true)
    (sane : Sane config Hand.empty chain cache) (ranked : Ranked config cache)
    (held : holds (cache.segment id).state = true) :
    Returns (compactAfter config id) (fun _ after => Tidied config cache after) cache := by
  have refl := Tidied.refl sane ranked
  obtain ⟨b, front, back, inside⟩ := sane.orderly.split (i := id) held
  have here : id ∈ chain b := by
    rw [inside]
    simp
  have ttl : (cache.segment id).ttl = bucketTtl b := sane.orderly.ttl b id here
  have isBucket := (sane.orderly.bucket b (List.ne_nil_of_mem here)).1
  have bucket : getBucketIndex (cache.segment id).ttl = b := by
    rw [ttl]
    exact isBucket
  unfold compactAfter
  dsimp only
  rw [segmentOf, returns_bind, returns_read]
  refine Returns.ite (fun _ => (returns_pure _).mpr refl) fun _ => ?_
  cases next : (cache.segment id).next with
  | none => exact (returns_pure _).mpr refl
  | some other =>
    dsimp only
    rw [segmentOf, returns_bind, returns_read]
    refine Returns.ite (fun _ => (returns_pure _).mpr refl) fun _ => ?_
    rw [returns_bind, returns_read]
    refine Returns.ite (fun _ => ?_) fun _ => (returns_pure _).mpr refl
    rw [bucket]
    refine (returns_mergeCompact sane isBucket (not_merges merge)).seq
      fun _ middle known => ?_
    obtain ⟨settles, live, _, _⟩ := known
    refine returns_of_eq (setNextToMerge_apply b none) ?_
    have kept := live (decide_eq_true ttl)
    have aimed := (settles.evicts ranked).aimed b none
    refine ⟨aimed.proceeds, fun key mapping maps isLive => ?_, fun no => by cases merge.symm.trans no⟩
    obtain ⟨now, same⟩ := kept key mapping maps isLive
    exact ⟨((aimed_frame b none).maps_iff).mpr now, same⟩

/-- One item less in a segment's accounts. -/
def Cache.accounted (config : Config) (cache : Cache) (location : Location) (item : Item) : Cache :=
  cache.setSegment location.segment
    ((cache.segment location.segment).recount (-1) (-item.size config))

section Remove

variable (settled : Settled config (some location) cache)
  (item_ : cache.itemAt config location = some item)

include settled item_

theorem removeItemAt_accounted : removeItemAt config location.segment location.offset cache =
    some ((), cache.accounted config location item) := by
  obtain ⟨items, bytes⟩ := counters_positive settled.consistent item_
  exact removeItemAt_apply item_ items bytes

/-- The accounts are in order again. -/
theorem Settled.accounted : (∃ chain, Sane config Hand.empty chain (cache.accounted config location item)) ∧
    ∀ key mapping, Maps config (cache.accounted config location item) key mapping ↔
      Maps config cache key mapping := by
  obtain ⟨chain, orderly⟩ := settled.orderly
  have slots : (cache.accounted config location item).table.slot = cache.table.slot := rfl
  have segments : (cache.accounted config location item).segment =
      Function.update cache.segment location.segment
        ((cache.segment location.segment).recount (-1) (-item.size config)) := rfl
  refine ⟨⟨chain, consistent_accounted settled.consistent item_ slots segments, ?_⟩, fun key mapping =>
    maps_recount slots segments⟩
  have shape : (cache.accounted config location item).shape = cache.shape := by
    refine Shape.ext (funext fun i => ?_) rfl rfl rfl rfl rfl
    show (Function.update cache.segment _ _ i).node = (cache.segment i).node
    by_cases same : i = location.segment
    · subst same
      rw [Function.update_self]
      rfl
    · rw [Function.update_of_ne same]
  rw [shape]
  exact orderly

/-- **An item in hand is taken away.** -/
theorem returns_removeAt (ranked : Ranked config cache) :
    Returns (removeAt config location) (fun _ after => Tidied config cache after) cache := by
  obtain ⟨⟨chain, sane⟩, maps⟩ := settled.accounted item_
  obtain ⟨-, held, present⟩ := settled.consistent.inHand rfl
  cases present.item.symm.trans item_
  have resolves : cache.resolves config location = true := by
    unfold Cache.resolves
    simp [present.range, present.tag]
  have sameAge : ∀ i, SameAge (cache.segment i) ((cache.accounted config location item).segment i) := by
    intro i
    show SameAge _ (Function.update cache.segment location.segment _ i)
    by_cases same : i = location.segment
    · subst same
      rw [Function.update_self]
      exact ⟨rfl, rfl, rfl⟩
    · rw [Function.update_of_ne same]
      exact SameAge.refl _
  have step : Tidied config cache (cache.accounted config location item) :=
    ⟨⟨⟨chain, sane⟩, shed_of_entries (fun _ _ _ slot => slot) (fun key mapping => (maps key mapping).mp),
      wanes_of_maps (fun key mapping => (maps key mapping).mp) (fun i asleep =>
        (sameAge i).state.trans asleep), rfl, ranked.congr rfl⟩,
      fun key mapping was _ => ⟨(maps _ _).mpr was, sameAge _⟩, fun _ => maps⟩
  have whole : ∀ after, Tidied config (cache.accounted config location item) after →
      Tidied config cache after := fun after later =>
    ⟨step.toProceeds.trans later.toProceeds, step.live.trans later.live, fun no key mapping =>
      (later.kept no key mapping).trans (step.kept no key mapping)⟩
  unfold removeAt
  rw [returns_bind, returns_read, resolves, if_neg (by simp), returns_bind]
  refine returns_of_eq (removeItemAt_accounted settled item_) ?_
  rw [segmentOf, returns_bind, returns_read]
  refine Returns.ite (fun empty => ?_) fun _ => Returns.ite (fun merge => ?_) fun _ => ?_
  · simp only [Bool.and_eq_true, decide_eq_true_eq] at empty
    exact (returns_freeEmpty sane step.ranked empty.2 empty.1).mono fun _ => whole
  · refine (returns_compactAfter merge sane step.ranked ?_).mono fun _ => whole
    rw [(sameAge _).state]
    exact present.state
  · exact (returns_pure _).mpr step

/-- In a live segment the rest is as it was: it has no successor to be compacted into. -/
theorem removeAt_live (live : (cache.segment location.segment).state = .live) :
    removeAt config location cache = some ((), cache.accounted config location item) := by
  obtain ⟨⟨chain, sane⟩, -⟩ := settled.accounted item_
  obtain ⟨-, held, present⟩ := settled.consistent.inHand rfl
  cases present.item.symm.trans item_
  have resolves : cache.resolves config location = true := by
    unfold Cache.resolves
    simp [present.range, present.tag]
  have here : (cache.accounted config location item).segment location.segment =
      (cache.segment location.segment).recount (-1) (-item.size config) := setSegment_self ..
  have state : ((cache.accounted config location item).segment location.segment).state = .live := by
    rw [here]
    exact live
  obtain ⟨b, front, back, inside⟩ := sane.orderly.split (i := location.segment) (by
    show holds ((cache.accounted config location item).segment location.segment).state = true
    rw [state]
    rfl)
  have last := (sane.orderly.last b location.segment (by rw [inside]; simp) (by
    show ((cache.accounted config location item).segment location.segment).state ≠ .draining
    rw [state]
    simp)).mp state
  have next : ((cache.accounted config location item).segment location.segment).next = none := by
    have isTail := (sane.orderly.tail b).trans last
    exact (sane.orderly.tail_iff inside).mp isTail
  unfold removeAt
  rw [read_bind, resolves, if_neg (by simp), bind_apply_of_some (removeItemAt_accounted settled item_),
    segmentOf, read_bind, if_neg (by simp [Segment.canEvict, State.isEvictable, state])]
  split
  · unfold compactAfter
    rw [segmentOf, read_bind, next]
    dsimp only
    split <;> rfl
  · rfl

end Remove

end CacheRs.Segcache
