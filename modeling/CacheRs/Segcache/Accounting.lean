/-
**The segments' counters.**

* `checkIntegrity`: what the cache checks of itself;
* `integrity_holds`: **the check never fails, and the counters are exact**;
* `Cache.keysIn`: the keys that are mapped into a segment;
* `keys_counted`: **the counters of the segments in service add up to the number of keys**.
-/

import CacheRs.Segcache.Conservation
import CacheRs.Segcache.Expiry
import CacheRs.Segcache.FailedWrites

set_option linter.unusedSectionVars false

namespace CacheRs.Segcache

open Segments (SegId State)

/-! ### The check -/

section Check

variable (config : Config) (cache : Cache)

/-- What the scan of `Segment::check_integrity` counts: it stops in front of the last offset at which a
header may begin. -/
def resolvingItems (id : SegId) : Nat :=
  let segment := cache.segment id
  ((Segment.layOut config config.initialOffset segment.items).takeWhile fun placed =>
    placed.1 < segment.maxItemOffset config).countP fun placed =>
      !placed.2.deleted && (cache.table.getItemFrequency config.geometry placed.2.key
        (cache.locationAt id placed.1)).isSome

/-- `Segment::check_integrity`: not more items resolve than the header counts. -/
def checkSegment (id : SegId) : Bool := !decide ((cache.segment id).liveItems < resolvingItems config cache id)

/-- `Segments::check_integrity`, and `Segcache::check_integrity`, which answers an error else. -/
def checkIntegrity : Bool :=
  (List.range config.cap).all fun idx =>
    match (cache.segment (idx + 1)).state with
    | .live | .sealed | .relinking => checkSegment config cache (idx + 1)
    | _ => true

end Check

variable {config : Config} {cache : Cache} {id : SegId} {key : Key}

/-! ### Sums -/

section Sums

variable {counts : Nat → Prop} {weight : Item → Int} {laid : List (Nat × Item)}

open Classical in
/-- As many items count as pass the filter. -/
theorem total_one : total counts (fun _ => 1) laid =
    (laid.filter fun placed => decide (counts placed.1)).length := by
  induction laid with
  | nil => rfl
  | cons placed rest ih =>
    rw [total_cons, ih, List.filter_cons]
    by_cases counted : counts placed.1
    · rw [if_pos counted, if_pos (decide_eq_true counted), List.length_cons]
      push_cast
      ring
    · rw [if_neg counted, if_neg (by simpa using counted), zero_add]

/-- The items that count are not larger than all of them. -/
theorem total_size_le (start : Nat) (items : List Item) :
    total counts (fun item => item.size config) (Segment.layOut config start items) ≤
      totalSize config items := by
  induction items generalizing start with
  | nil => simp [Segment.layOut]
  | cons item items ih =>
    have rest := ih (start + item.size config)
    rw [Segment.layOut, total_cons, totalSize_cons]
    push_cast
    split <;> omega

end Sums

/-! ### The check holds -/

theorem checked_walk {segment : Segment} (laid : segment.Laid config) :
    ((Segment.layOut config config.initialOffset segment.items).takeWhile fun placed =>
      placed.1 < segment.maxItemOffset config) =
        Segment.layOut config config.initialOffset segment.items := by
  rw [List.takeWhile_eq_self_iff]
  intro placed inside
  obtain ⟨offset, item⟩ := placed
  have bounds := (Segment.mem_layOut_bounds inside).2
  have size : config.layout.headerSize + 1 ≤ item.size config := item.size_ge
  have fits := laid.fits
  rw [← laid.writeOffset] at bounds
  rw [decide_eq_true_eq, Segment.maxItemOffset, if_pos (by omega)]
  omega

/-- An item resolves when the table names it. -/
theorem Consistent.resolves_iff (consistent : Consistent config none cache)
    {placed : Nat × Item}
    (inside : placed ∈ cache.laidOut config id) :
    (!placed.2.deleted && (cache.table.getItemFrequency config.geometry placed.2.key
      (cache.locationAt id placed.1)).isSome) = true ↔
        cache.table.Named (cache.locationAt id placed.1) := by
  obtain ⟨offset, item⟩ := placed
  have here : cache.itemAt config (cache.locationAt id offset) = some item :=
    Cache.itemAt_locationAt.mpr inside
  have found := consistent.getItemFrequency_isSome here
  rw [Bool.and_eq_true, found, and_iff_right_iff_imp]
  rintro ⟨b, i, entry, slot, same⟩
  obtain ⟨other, present, alive, -⟩ := consistent.sound slot
  rw [same] at present
  cases present.item.symm.trans here
  rw [alive]
  rfl

/-- A segment's counters. -/
structure Counted (config : Config) (cache : Cache) (id : SegId) : Prop where
  /-- As many items resolve as the header counts. -/
  items : (cache.segment id).liveItems = resolvingItems config cache id
  bytes : (cache.segment id).liveBytes = config.initialOffset +
    total (fun offset => cache.table.Named (cache.locationAt id offset))
      (fun item => item.size config) (cache.laidOut config id)
  /-- What is not live is dead. -/
  within : (cache.segment id).liveBytes ≤ (cache.segment id).writeOffset
  fits : (cache.segment id).writeOffset ≤ config.segmentSize

open Classical in
theorem Consistent.counted (consistent : Consistent config none cache)
    (laid : isLaid (cache.segment id).state = true) : Counted config cache id := by
  have held := holds_of_isLaid laid
  obtain ⟨items, bytes⟩ := consistent.accounted id held
  have isLaid := consistent.laid laid
  refine ⟨?_, bytes, ?_, isLaid.fits⟩
  · unfold resolvingItems
    dsimp only
    rw [items, total_one, checked_walk isLaid, List.countP_eq_length_filter]
    congr 2
    refine List.filter_congr fun placed inside => ?_
    rw [Bool.eq_iff_iff, decide_eq_true_iff]
    exact (consistent.resolves_iff inside).symm
  · rw [bytes, isLaid.writeOffset]
    have most := @total_size_le config (fun offset => cache.table.Named (cache.locationAt id offset))
      config.initialOffset (cache.segment id).items
    push_cast
    unfold Cache.laidOut
    omega

/-- **The cache's check of itself never fails**, and the counters of every segment in service are exact. -/
theorem integrity_holds (reachable : Reachable config cache) : checkIntegrity config cache = true ∧
    ∀ id, isLaid (cache.segment id).state = true → Counted config cache id := by
  have counted : ∀ id, isLaid (cache.segment id).state = true → Counted config cache id :=
    fun id => reachable.good.settled.consistent.counted
  refine ⟨List.all_eq_true.mpr fun idx _ => ?_, counted⟩
  have checks : isLaid (cache.segment (idx + 1)).state = true → checkSegment config cache (idx + 1) = true := by
    intro laid
    unfold checkSegment
    rw [(counted _ laid).items]
    simp
  split
  all_goals first | rfl | exact checks (by rw [‹(cache.segment (idx + 1)).state = _›]; rfl)

theorem integrity_holds_sealed : ∃ cache, sealedFirst cache = true ∧
    checkIntegrity (Config.small false .fifo 3) cache = true ∧
    ∀ id, isLaid (cache.segment id).state = true → Counted (Config.small false .fifo 3) cache id := by
  obtain ⟨cache, reachable, first⟩ := exists_sealedFirst
  exact ⟨cache, first, integrity_holds reachable⟩

/-! ### The keys -/

/-- The keys that are mapped into a segment. -/
def Cache.keysIn (config : Config) (cache : Cache) (id : SegId) : Set Key :=
  { key | ∃ mapping, Maps config cache key mapping ∧ mapping.location.segment = id }

open Classical in
/-- The items of a segment that the table names. -/
noncomputable def Cache.namedItems (config : Config) (cache : Cache) (id : SegId) : List (Nat × Item) :=
  (cache.laidOut config id).filter fun placed =>
    decide (cache.table.Named (cache.locationAt id placed.1))

open Classical in
theorem mem_namedItems {offset : Nat} {item : Item} :
    (offset, item) ∈ cache.namedItems config id ↔ (offset, item) ∈ cache.laidOut config id ∧
      cache.table.Named (cache.locationAt id offset) := by
  unfold Cache.namedItems
  rw [List.mem_filter, decide_eq_true_iff]

/-- No two items that the table names have one key. -/
theorem Consistent.keys_nodup (consistent : Consistent config none cache) (id : SegId) :
    ((cache.namedItems config id).map fun placed => placed.2.key).Nodup := by
  have offsets : ((cache.namedItems config id).map Prod.fst).Nodup :=
    (List.filter_sublist.map Prod.fst).nodup (Segment.layOut_nodup ..)
  refine List.Nodup.map_on ?_ offsets.of_map
  rintro ⟨offset, item⟩ inside ⟨offset', item'⟩ inside' same
  obtain ⟨laid, b, i, entry, slot, here⟩ := mem_namedItems.mp inside
  obtain ⟨laid', b', i', entry', slot', here'⟩ := mem_namedItems.mp inside'
  have item_ : cache.itemAt config entry.location = some item :=
    here ▸ Cache.itemAt_locationAt.mpr laid
  have item_' : cache.itemAt config entry'.location = some item' :=
    here' ▸ Cache.itemAt_locationAt.mpr laid'
  cases consistent.unique slot slot' item_ item_' same
  cases slot.symm.trans slot'
  cases item_.symm.trans item_'
  rw [show offset = offset' from congrArg Location.offset (here.symm.trans here')]

theorem Consistent.keysIn_eq (consistent : Consistent config none cache) (id : SegId) :
    cache.keysIn config id = ((cache.namedItems config id).map fun placed => placed.2.key).toFinset := by
  ext key
  simp only [Cache.keysIn, Set.mem_ofPred_eq, List.coe_toFinset, List.mem_map, Prod.exists]
  constructor
  · rintro ⟨mapping, maps, rfl⟩
    have tag := (consistent.present_of_maps maps).1.tag
    have here := locationAt_of_tag tag
    refine ⟨mapping.location.offset, mapping.item, mem_namedItems.mpr ⟨?_, ?_⟩, maps.key⟩
    · rw [← Cache.itemAt_locationAt, here]
      exact maps.item
    · rw [here]
      exact maps.named
  · rintro ⟨offset, item, inside, rfl⟩
    obtain ⟨laid, named⟩ := mem_namedItems.mp inside
    obtain ⟨freq, maps⟩ := consistent.maps_of_named named (Cache.itemAt_locationAt.mpr laid)
    exact ⟨_, maps, rfl⟩

/-- The segments that hold items. -/
def Cache.holding (config : Config) (cache : Cache) : Finset SegId :=
  (Finset.Icc 1 config.cap).filter fun id => holds (cache.segment id).state = true

/-- **The segments' counters add up to the number of keys**: each counts the keys that are mapped into
it, and every mapped key into exactly one. -/
theorem keys_counted (reachable : Reachable config cache) :
    (∀ id ∈ cache.holding config, (cache.segment id).liveItems = (cache.keysIn config id).ncard) ∧
      { key | ∃ mapping, Maps config cache key mapping }.Finite ∧
      ({ key | ∃ mapping, Maps config cache key mapping }.ncard : Int) =
        ∑ id ∈ cache.holding config, (cache.segment id).liveItems := by
  classical
  have consistent := reachable.good.settled.consistent
  let keys (id : SegId) : Finset Key := ((cache.namedItems config id).map fun placed => placed.2.key).toFinset
  have keysIn : ∀ id, cache.keysIn config id = keys id := fun id => consistent.keysIn_eq id
  have counts : ∀ id ∈ cache.holding config, (cache.segment id).liveItems = (keys id).card := by
    intro id inside
    have held := (Finset.mem_filter.mp inside).2
    rw [List.toFinset_card_of_nodup (consistent.keys_nodup id), List.length_map,
      (consistent.accounted id held).1, total_one]
    rfl
  -- A mapped key lies in exactly one of the segments.
  have together : { key | ∃ mapping, Maps config cache key mapping } =
      ((cache.holding config).biUnion keys : Finset Key) := by
    ext key
    rw [Finset.coe_biUnion]
    simp only [Set.mem_ofPred_eq, Set.mem_iUnion, ← keysIn]
    constructor
    · rintro ⟨mapping, maps⟩
      obtain ⟨present, -⟩ := consistent.present_of_maps maps
      exact ⟨mapping.location.segment,
        Finset.mem_filter.mpr ⟨Finset.mem_Icc.mpr present.range, present.state⟩, mapping, maps, rfl⟩
    · rintro ⟨id, -, mapping, maps, -⟩
      exact ⟨mapping, maps⟩
  have apart : ∀ one ∈ cache.holding config, ∀ two ∈ cache.holding config, one ≠ two →
      Disjoint (keys one) (keys two) := by
    intro one _ two _ different
    rw [← Finset.disjoint_coe, ← keysIn, ← keysIn, Set.disjoint_left]
    rintro key ⟨mapping, maps, rfl⟩ ⟨other, maps', rfl⟩
    exact different (by rw [consistent.maps_unique maps maps'])
  refine ⟨fun id inside => ?_, ?_, ?_⟩
  · rw [keysIn, Set.ncard_coe_finset]
    exact counts id inside
  · rw [together]
    exact Finset.finite_toSet _
  · rw [together, Set.ncard_coe_finset, Finset.card_biUnion apart, Nat.cast_sum]
    exact Finset.sum_congr rfl fun id inside => (counts id inside).symm

theorem keys_counted_sealed : ∃ cache, sealedFirst cache = true ∧
    (∀ id ∈ cache.holding (Config.small false .fifo 3),
      (cache.segment id).liveItems = (cache.keysIn (Config.small false .fifo 3) id).ncard) ∧
    { key | ∃ mapping, Maps (Config.small false .fifo 3) cache key mapping }.Finite ∧
    ({ key | ∃ mapping, Maps (Config.small false .fifo 3) cache key mapping }.ncard : Int) =
      ∑ id ∈ cache.holding (Config.small false .fifo 3), (cache.segment id).liveItems := by
  obtain ⟨cache, reachable, first⟩ := exists_sealedFirst
  exact ⟨cache, first, keys_counted reachable⟩

end CacheRs.Segcache
