/-
**What an S3-FIFO eviction keeps.**

An eviction with a target copies the touched items and drops the rest, but an item is copied only if a
byte is left behind it.

* `KeepsTouched`: every touched item of the segment is in the target, the others are gone, and no
  other key's mapping changed;
* `Remembers`: the hashes of what was dropped have been put on the ghost queue;
* `keepsTouched_iff`: **an eviction keeps every touched item exactly when the touched items leave a
  byte of a segment free**;
* `secondChance_run`: a full segment of touched items.
-/

import CacheRs.Segcache.Runs

set_option linter.unusedSectionVars false

namespace CacheRs.Segcache

open CacheRs.Eviction (GhostQueue)
open Hashtable (RelinkFreq)
open Segments (SegId)
open Sequential Procedure

variable {config : Config} {chain : Nat → List SegId} {cache after : Cache} {id target : SegId}
  {relink : RelinkFreq} {ghosted moved : List (Nat × Item)} {key : Key} {mapping : Mapping}

/-- The touched items of a segment are in the target, the others are gone, and every other key keeps
its mapping. -/
structure KeepsTouched (config : Config) (relink : RelinkFreq) (id target : SegId)
    (cache after : Cache) : Prop where
  touched : ∀ key mapping, Maps config cache key mapping → mapping.location.segment = id →
    mapping.freq ≠ 0 → ∃ location, location.segment = target ∧
      Maps config after key ⟨mapping.item, relinkFreq relink mapping.freq, location⟩
  untouched : ∀ key mapping, Maps config cache key mapping → mapping.location.segment = id →
    mapping.freq = 0 → ∀ other, ¬ Maps config after key other
  others : ∀ key mapping, Maps config cache key mapping → mapping.location.segment ≠ id →
    Maps config after key mapping
  only : ∀ key mapping, Maps config after key mapping → ∃ old, Maps config cache key old

/-- The hashes of what was dropped from a segment have been put on the ghost queue, one after the
other; each of them stays there while the queue's capacity takes the later ones. -/
structure Remembers (config : Config) (id : SegId) (hashes : List UInt64) (cache after : Cache) :
    Prop where
  ghost : after.eviction.ghost = hashes.foldl GhostQueue.insert cache.eviction.ghost
  dropped : ∀ hash, hash ∈ hashes ↔ ∃ key mapping, Maps config cache key mapping ∧
    mapping.location.segment = id ∧ config.geometry.hashKey key = hash ∧
      ∀ other, ¬ Maps config after key other
  member : ∀ front hash back, hashes = front ++ hash :: back →
    let inserted := (front ++ [hash]).foldl GhostQueue.insert cache.eviction.ghost
    inserted.contains hash = true ∧ (inserted.set.card + back.length ≤ inserted.capacity →
      after.eviction.ghost.contains hash = true)

/-- The bytes of the touched items of a segment. -/
def touchedBytes (config : Config) (cache : Cache) (id : SegId) : Nat :=
  wantedSize config (promoteWanted config cache id) (cache.laidOut config id)

/-! ### What is promoted -/

/-- An item that a key is mapped to lies in its segment. -/
theorem Consistent.placed_of_maps {pending : Option Location}
    (consistent : Consistent config pending cache) (maps : Maps config cache key mapping)
    (here : mapping.location.segment = id) :
    cache.locationAt id mapping.location.offset = mapping.location ∧
      (mapping.location.offset, mapping.item) ∈ cache.laidOut config id := by
  obtain ⟨present, -⟩ := consistent.present_of_maps maps
  have location := locationAt_of_tag present.tag
  rw [here] at location
  refine ⟨location, Cache.itemAt_locationAt.mp ?_⟩
  rw [location]
  exact present.item

/-- A mapping's frequency is the one a scan of its segment sees. -/
theorem Consistent.frequencyAt_maps (consistent : Consistent config none cache)
    (maps : Maps config cache key mapping) (here : mapping.location.segment = id) :
    frequencyAt config cache id (mapping.location.offset, mapping.item) = some mapping.freq := by
  obtain ⟨location, -⟩ := consistent.placed_of_maps maps here
  unfold frequencyAt
  rw [location]
  refine (consistent.getItemFrequency_eq maps.item _).mpr ?_
  rw [maps.key]
  exact maps

theorem Consistent.promoteWanted_maps (consistent : Consistent config none cache)
    (maps : Maps config cache key mapping) (here : mapping.location.segment = id) :
    promoteWanted config cache id (mapping.location.offset, mapping.item) = true ↔
      mapping.freq ≠ 0 := by
  obtain ⟨-, alive⟩ := consistent.present_of_maps maps
  unfold promoteWanted
  rw [consistent.frequencyAt_maps maps here, alive]
  simp

/-- What is promoted lies at the offset of a touched item. -/
theorem Consistent.promoted_maps (consistent : Consistent config none cache)
    (maps : Maps config cache key mapping) (here : mapping.location.segment = id) :
    mapping.location.offset ∈ (promoted config cache id).map Prod.fst ↔
      (mapping.location.offset, mapping.item) ∈ promoted config cache id := by
  obtain ⟨-, placed⟩ := consistent.placed_of_maps maps here
  refine ⟨fun inside => ?_, fun inside => List.mem_map.mpr ⟨_, inside, rfl⟩⟩
  obtain ⟨⟨offset, item⟩, moved, same⟩ := List.mem_map.mp inside
  have offset_ : offset = mapping.location.offset := same
  subst offset_
  have item_ : item = mapping.item :=
    Segment.layOut_offset_unique (mem_movedItems moved).1 placed
  rwa [← item_]

/-- A promoted item was touched. -/
theorem Consistent.touched_of_promoted (consistent : Consistent config none cache)
    (maps : Maps config cache key mapping) (here : mapping.location.segment = id)
    (inside : mapping.location.offset ∈ (promoted config cache id).map Prod.fst) :
    mapping.freq ≠ 0 :=
  (consistent.promoteWanted_maps maps here).mp
    (mem_movedItems ((consistent.promoted_maps maps here).mp inside)).2

/-- **With a byte to spare, every touched item is promoted.** -/
theorem Consistent.promoted_of_touched (consistent : Consistent config none cache)
    (room : config.initialOffset + touchedBytes config cache id < config.segmentSize)
    (maps : Maps config cache key mapping) (here : mapping.location.segment = id)
    (touched : mapping.freq ≠ 0) :
    mapping.location.offset ∈ (promoted config cache id).map Prod.fst := by
  obtain ⟨-, placed⟩ := consistent.placed_of_maps maps here
  have wants := (consistent.promoteWanted_maps maps here).mpr touched
  refine (consistent.promoted_maps maps here).mpr ?_
  unfold promoted
  rw [movedItems_of_room room]
  exact List.mem_filter.mpr ⟨placed, wants⟩

/-- **Touched items that fill a segment lose one of them.** -/
theorem Consistent.touched_not_promoted (consistent : Consistent config none cache)
    (full : config.segmentSize ≤ config.initialOffset + touchedBytes config cache id) :
    ∃ key mapping, Maps config cache key mapping ∧ mapping.location.segment = id ∧
      mapping.freq ≠ 0 ∧ mapping.location.offset ∉ (promoted config cache id).map Prod.fst := by
  obtain ⟨⟨offset, item⟩, placed, wants, notMoved⟩ := @exists_not_moved config
    (promoteWanted config cache id) _ _ (Segment.layOut_nodup _ _) initialOffset_lt full
  have item_ : cache.itemAt config (cache.locationAt id offset) = some item :=
    Cache.itemAt_locationAt.mpr placed
  have live : (frequencyAt config cache id (offset, item)).isSome = true := by
    unfold promoteWanted at wants
    cases found : frequencyAt config cache id (offset, item) with
    | none => simp [found] at wants
    | some freq => rfl
  obtain ⟨freq, maps⟩ := consistent.maps_of_named
    ((consistent.getItemFrequency_isSome item_).mp live) item_
  refine ⟨item.key, _, maps, rfl, (consistent.promoteWanted_maps maps rfl).mp wants, fun moved => ?_⟩
  exact notMoved ((consistent.promoted_maps maps rfl).mp moved)

/-! ### What is kept -/

section Evicted

variable (consistent : Consistent config none cache)
  (evicted : S3Evicted config relink id (some target) ghosted cache after)

include consistent evicted

/-- What the eviction did, with its target. -/
theorem S3Evicted.target_sifted :
    Sifted config relink (promoted config cache id) id target cache after := by
  obtain ⟨dest, isTarget, sifted⟩ := evicted.sifted
  rcases isTarget with none_ | same
  · cases none_
  · cases same
    rwa [if_neg (by simp)] at sifted

theorem S3Evicted.keepsTouched
    (room : config.initialOffset + touchedBytes config cache id < config.segmentSize) :
    KeepsTouched config relink id target cache after := by
  have sifted := evicted.target_sifted consistent
  refine ⟨fun key mapping maps here touched => ?_, fun key mapping maps here untouched => ?_,
    sifted.stays, sifted.only⟩
  · exact sifted.kept key mapping maps here (consistent.promoted_of_touched room maps here touched)
  · refine sifted.dropped key mapping maps here fun inside => ?_
    exact consistent.touched_of_promoted maps here inside untouched

/-- **An eviction keeps what was touched exactly when that leaves a byte free.** -/
theorem S3Evicted.keeps_iff : KeepsTouched config relink id target cache after ↔
    config.initialOffset + touchedBytes config cache id < config.segmentSize := by
  refine ⟨fun keeps => ?_, evicted.keepsTouched consistent⟩
  by_contra full
  have sifted := evicted.target_sifted consistent
  obtain ⟨key, mapping, maps, here, touched, notMoved⟩ :=
    consistent.touched_not_promoted (not_lt.mp full)
  obtain ⟨location, -, now⟩ := keeps.touched key mapping maps here touched
  exact sifted.dropped key mapping maps here notMoved _ now

end Evicted

/-! ### What is remembered -/

/-- An item is left behind if its key is mapped to it and it has not moved. -/
theorem Consistent.mem_leftBehind (consistent : Consistent config none cache) {offset : Nat}
    {item : Item} : (offset, item) ∈ leftBehind config cache id moved ↔
      ∃ mapping, Maps config cache item.key mapping ∧ mapping.location = cache.locationAt id offset ∧
        mapping.item = item ∧ offset ∉ moved.map Prod.fst := by
  unfold leftBehind
  rw [List.mem_filter, Bool.and_eq_true, copyWanted_iff, decide_eq_true_eq]
  constructor
  · rintro ⟨placed, ⟨-, live⟩, notMoved⟩
    have item_ : cache.itemAt config (cache.locationAt id offset) = some item :=
      Cache.itemAt_locationAt.mpr placed
    obtain ⟨freq, maps⟩ := consistent.maps_of_named
      ((consistent.getItemFrequency_isSome item_).mp live) item_
    exact ⟨_, maps, rfl, rfl, notMoved⟩
  · rintro ⟨mapping, maps, location, rfl, notMoved⟩
    have here : mapping.location.segment = id := congrArg Location.segment location
    have offset_ : mapping.location.offset = offset := congrArg Location.offset location
    subst offset_
    refine ⟨(consistent.placed_of_maps maps here).2, ⟨(consistent.present_of_maps maps).2, ?_⟩,
      notMoved⟩
    rw [consistent.frequencyAt_maps maps here]
    rfl

/-- The keys whose hashes an eviction remembers are those it drops. -/
theorem Sifted.mem_hashes (sifted : Sifted config relink moved id target cache after)
    (consistent : Consistent config none cache) (hash : UInt64) :
    hash ∈ (leftBehind config cache id moved).map (fun placed => config.geometry.hashKey placed.2.key) ↔
      ∃ key mapping, Maps config cache key mapping ∧ mapping.location.segment = id ∧
        config.geometry.hashKey key = hash ∧ ∀ other, ¬ Maps config after key other := by
  rw [List.mem_map]
  constructor
  · rintro ⟨⟨offset, item⟩, left, rfl⟩
    obtain ⟨mapping, maps, location, -, notMoved⟩ := consistent.mem_leftBehind.mp left
    have here : mapping.location.segment = id := congrArg Location.segment location
    refine ⟨item.key, mapping, maps, here, rfl, sifted.dropped _ _ maps here ?_⟩
    rw [location]
    exact notMoved
  · rintro ⟨key, mapping, maps, here, rfl, gone⟩
    obtain ⟨location, -⟩ := consistent.placed_of_maps maps here
    refine ⟨(mapping.location.offset, mapping.item), consistent.mem_leftBehind.mpr
      ⟨mapping, maps.key.symm ▸ maps, location.symm, rfl, fun inside => ?_⟩, by rw [maps.key]⟩
    obtain ⟨_, -, now⟩ := sifted.kept key mapping maps here inside
    exact gone _ now

/-- **The ghost queue remembers what an admission segment loses.** -/
theorem S3Evicted.remembers {target : Option SegId} (consistent : Consistent config none cache)
    (evicted : S3Evicted config relink id target
      (leftBehind config cache id (if target = none then [] else promoted config cache id)) cache
      after) : ∃ hashes, Remembers config id hashes cache after := by
  obtain ⟨dest, -, sifted⟩ := evicted.sifted
  have ghost := congrArg Eviction.ghost evicted.eviction
  refine ⟨_, ghost, sifted.mem_hashes consistent, fun front hash back split => ?_⟩
  have inserted : ((front ++ [hash]).foldl GhostQueue.insert cache.eviction.ghost).contains hash =
      true := by
    rw [List.foldl_append]
    exact GhostQueue.contains_insert
  refine ⟨inserted, fun room => ?_⟩
  have ghost : after.eviction.ghost = _ := ghost
  rw [ghost, split, ← List.singleton_append, ← List.append_assoc, List.foldl_append]
  exact GhostQueue.contains_foldl_insert back inserted room

/-- **The evictions with a target keep every touched item exactly when the touched items leave a byte
of a segment free**; an admission segment's other items are remembered in any case. -/
theorem keepsTouched_iff {rest : List SegId} (sane : Sane config Hand.empty chain cache)
    (state : (cache.segment id).state = .sealed) (queue : cache.freeQueue = target :: rest) :
    Returns (s3fifoEvictAdmission config id) (fun _ after =>
        (∃ hashes, Remembers config id hashes cache after) ∧
        (KeepsTouched config .preserve id target cache after ↔
          config.initialOffset + touchedBytes config cache id < config.segmentSize)) cache ∧
      Returns (s3fifoEvictMain config id) (fun _ after =>
        KeepsTouched config .decrement id target cache after ↔
          config.initialOffset + touchedBytes config cache id < config.segmentSize) cache := by
  have head : cache.freeQueue.head? = some target := by
    rw [queue]
    rfl
  have admission := returns_s3fifoEvictAdmission sane state
  have main := returns_s3fifoEvictMain sane state
  rw [head] at admission
  rw [head] at main
  refine ⟨admission.mono fun _ after ⟨evicted, _⟩ => ?_, main.mono fun _ after ⟨evicted, _⟩ => ?_⟩
  · exact ⟨evicted.remembers sane.consistent, evicted.keeps_iff sane.consistent⟩
  · exact evicted.keeps_iff sane.consistent

/-! ### A full segment -/

/-- Two items that fill a segment, and one behind them. -/
def filledCalls : List Call :=
  [.insert (smallKey 1) (smallValue 8) Optional.none 0,
    .insert (smallKey 2) (smallValue 8) Optional.none 0,
    .insert (smallKey 3) (smallValue 8) Optional.none 0]

def filledConfig : Config := Config.small false (.s3Fifo (1 / 4)) 3

theorem filledConfig_merges : filledConfig.Merges := fun merges => by cases merges

/-- The first segment is sealed, and the third is next on the free queue. -/
def filledFirst (cache : Cache) : Bool :=
  decide ((cache.segment 1).state = .sealed) && decide (cache.freeQueue = [3, 4])

theorem filled_of_filledFirst (filled : filledFirst cache = true) :
    (cache.segment 1).state = .sealed ∧ cache.freeQueue = [3, 4] := by
  simpa [filledFirst] using filled

/-- The evictions of the full segment. -/
theorem keepsTouched_iff_filled : ∃ cache, Reachable filledConfig cache ∧
    Returns (s3fifoEvictAdmission filledConfig 1) (fun _ after =>
        (∃ hashes, Remembers filledConfig 1 hashes cache after) ∧
        (KeepsTouched filledConfig .preserve 1 3 cache after ↔
          filledConfig.initialOffset + touchedBytes filledConfig cache 1 <
            filledConfig.segmentSize)) cache ∧
      Returns (s3fifoEvictMain filledConfig 1) (fun _ after =>
        KeepsTouched filledConfig .decrement 1 3 cache after ↔
          filledConfig.initialOffset + touchedBytes filledConfig cache 1 <
            filledConfig.segmentSize) cache := by
  obtain ⟨cache, reachable, filled⟩ := exists_reachable filledConfig 10 filledCalls filledFirst
    (by decide +kernel)
  obtain ⟨state, queue⟩ := filled_of_filledFirst filled
  obtain ⟨⟨chain, sane⟩, -⟩ := reachable.good
  exact ⟨cache, reachable, keepsTouched_iff sane state queue⟩

/-- The second key lies in the first segment, touched, and cannot be located behind its eviction. -/
def losesSecond (cache : Cache) : Bool :=
  filledFirst cache && decide ((cache.segment 1).pool = .admission) &&
    (cache.locate filledConfig (smallKey 2)).any (fun location => decide (location.segment = 1) &&
      decide (cache.table.getItemFrequency filledConfig.geometry (smallKey 2) location = some 1)) &&
    (s3fifoEvictAdmission filledConfig 1 cache).any fun ended =>
      decide (ended.2.locate filledConfig (smallKey 2) = none)

/-- **Touched items that fill a segment to its last byte**: the eviction has a target, and loses the
second one. -/
theorem secondChance_run : ∃ cache result after mapping, Reachable filledConfig cache ∧
    (cache.segment 1).state = .sealed ∧ (cache.segment 1).pool = .admission ∧
    cache.freeQueue = [3, 4] ∧ s3fifoEvictAdmission filledConfig 1 cache = some (result, after) ∧
    Maps filledConfig cache (smallKey 2) mapping ∧ mapping.location.segment = 1 ∧ mapping.freq = 1 ∧
    ∀ other, ¬ Maps filledConfig after (smallKey 2) other := by
  obtain ⟨cache, reachable, loses⟩ := exists_reachable filledConfig 10 filledCalls losesSecond
    (by decide +kernel)
  simp only [losesSecond, Bool.and_eq_true] at loses
  obtain ⟨⟨⟨filled, pool⟩, located⟩, lost⟩ := loses
  obtain ⟨state, queue⟩ := filled_of_filledFirst filled
  obtain ⟨location, found, there⟩ := (Option.any_eq_true _ _).mp located
  obtain ⟨⟨result, after⟩, ran, gone⟩ := (Option.any_eq_true _ _).mp lost
  simp only [Bool.and_eq_true, decide_eq_true_eq] at there
  have good := reachable.good
  obtain ⟨item, freq, maps, -⟩ := good.settled.locate_some found
  obtain ⟨⟨chain, sane⟩, -⟩ := good
  have frequency := (sane.consistent.getItemFrequency_eq maps.item freq).mpr (maps.key ▸ maps)
  rw [maps.key, there.2] at frequency
  obtain ⟨evicted, -⟩ := (returns_s3fifoEvictAdmission sane state).ensures _ _ ran
  obtain ⟨chain', sane'⟩ := evicted.sane
  exact ⟨cache, result, after, _, reachable, state, of_decide_eq_true pool, queue, ran, maps, there.1,
    (Option.some.inj frequency).symm, sane'.settled.locate_none filledConfig_merges (of_decide_eq_true gone)⟩

end CacheRs.Segcache
