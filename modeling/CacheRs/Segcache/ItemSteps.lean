/-
**Steps on single items.**

* `ensures_unlinkItem`: an item's entry is removed and the item accounted for as gone;
* `Cleared`, `returns_clearItems`, `returns_clear`: the scan that empties a segment;
* `ensures_finalizeDrained`: **a drained segment loses its items, and nothing else changes**.
-/

import CacheRs.Segcache.HeaderSteps

set_option linter.unusedSectionVars false

namespace CacheRs.Segcache

open Segments (SegId State)
open Sequential Procedure

variable {config : Config} {cache middle after : Cache}

/-- A step on the table and the segments only. -/
def SameRest (cache after : Cache) : Prop :=
  after = { cache with table := after.table, segment := after.segment }

theorem SameRest.refl (cache : Cache) : SameRest cache cache := rfl

theorem SameRest.trans (first : SameRest cache middle) (second : SameRest middle after) :
    SameRest cache after := by
  refine Eq.trans second ?_
  rw [first]

/-! ### What is shed -/

/-- Some slots have lost their entries, and no slot has got another item. -/
def Shed (config : Config) (cache after : Cache) : Prop :=
  ∀ b i entry item, after.table.slot b i = some entry →
    after.itemAt config entry.location = some item →
      ∃ old, cache.table.slot b i = some old ∧ cache.itemAt config old.location = some item

theorem Shed.refl (cache : Cache) : Shed config cache cache :=
  fun _ _ entry _ slot item => ⟨entry, slot, item⟩

theorem Shed.trans (first : Shed config cache middle) (second : Shed config middle after) :
    Shed config cache after := by
  intro b i entry item slot here
  obtain ⟨between, slot', here'⟩ := second b i entry item slot here
  exact first b i between item slot' here'

/-- No key has got another item. -/
theorem Shed.maps (shed : Shed config cache after) {key : Key} {mapping : Mapping}
    (maps : Maps config after key mapping) :
    ∃ old, Maps config cache key old ∧ old.item = mapping.item := by
  obtain ⟨b, i, tag, slot, item, same⟩ := maps
  obtain ⟨old, was, here⟩ := shed b i _ _ slot item
  exact ⟨⟨mapping.item, old.freq, old.location⟩, ⟨b, i, old.tag, was, here, same⟩, rfl⟩

/-- Entries are lost, and those that are left name what they named. -/
theorem shed_of_entries
    (entries : ∀ b i entry, after.table.slot b i = some entry → cache.table.slot b i = some entry)
    (maps : ∀ key mapping, Maps config after key mapping → Maps config cache key mapping) :
    Shed config cache after := by
  intro b i entry item slot here
  have was := maps item.key ⟨item, entry.freq, entry.location⟩ ⟨b, i, entry.tag, slot, here, rfl⟩
  exact ⟨entry, entries b i entry slot, was.item⟩

theorem Calm.shed {pending : Option Location} (calm : Calm config pending cache after) :
    Shed config cache after :=
  shed_of_entries (fun _ _ _ slot => calm.slots ▸ slot) fun key mapping => (calm.maps key mapping).mp

/-! ### One item -/

/-- What an unlinked item leaves. -/
structure Unlinked (config : Config) (location : Location) (cache after : Cache) : Prop where
  consistent : Consistent config none after
  named : ∀ other, after.table.Named other ↔ cache.table.Named other ∧ other ≠ location
  maps : ∀ key mapping, Maps config after key mapping ↔
    Maps config cache key mapping ∧ mapping.location ≠ location
  segment : ∃ items bytes, after.segment = Function.update cache.segment location.segment
    ((cache.segment location.segment).recount items bytes)
  rest : SameRest cache after
  shed : Shed config cache after

theorem setSlot_none_named (consistent : Consistent config none cache) {b i : Nat}
    {entry : Entry Location} (slot : cache.table.slot b i = some entry) (other : Location) :
    (cache.table.setSlot (b, i) none).Named other ↔
      cache.table.Named other ∧ other ≠ entry.location := by
  constructor
  · rintro ⟨b', i', held, slot', rfl⟩
    rw [Table.setSlot_slot] at slot'
    split at slot'
    · cases slot'
    · rename_i apart
      exact ⟨⟨b', i', held, slot', rfl⟩, fun same => apart (consistent.slot_unique slot' slot same)⟩
  · rintro ⟨⟨b', i', held, slot', rfl⟩, apart⟩
    refine ⟨b', i', held, ?_, rfl⟩
    rw [Table.setSlot_slot, if_neg]
    · exact slot'
    · intro same
      cases same
      cases slot.symm.trans slot'
      exact apart rfl

/-- The accounting of an item whose segment's counters still count it. -/
theorem removeItemAt_apply {id : SegId} {offset : Nat} {item : Item}
    (placed : (cache.segment id).itemAt config offset = some item)
    (items : 1 ≤ (cache.segment id).liveItems)
    (bytes : (item.size config : Int) ≤ (cache.segment id).liveBytes) :
    removeItemAt config id offset cache =
      some ((), cache.setSegment id ((cache.segment id).recount (-1) (-item.size config))) := by
  unfold removeItemAt segmentOf modifySegment
  rw [read_bind, placed]
  simp only [change_bind, read_bind, Cache.setSegment, Function.update_self]
  have items : (0 : Int) ≤ (cache.segment id).liveItems - 1 := by omega
  have bytes : (0 : Int) ≤ (cache.segment id).liveBytes - item.size config := by omega
  simp only [items, bytes, decide_true, Bool.and_self, Procedure.assertThat, if_true]
  rfl

/-- The accounting of an item in hand. -/
theorem ensures_removeItemAt {location : Location} {item : Item}
    (consistent : Consistent config (some location) cache)
    (item_ : cache.itemAt config location = some item) :
    Returns (removeItemAt config location.segment location.offset)
      (fun _ after => Consistent config none after ∧ after.table = cache.table ∧
        after = cache.setSegment location.segment ((cache.segment location.segment).recount (-1)
          (-item.size config))) cache := by
  have positive := counters_positive consistent item_
  exact ⟨(), _, removeItemAt_apply item_ positive.1 positive.2,
    consistent_accounted consistent item_ rfl rfl, rfl, rfl⟩

/-- The unlink of an item that an entry names. -/
theorem returns_unlinkItem {location : Location} {item : Item}
    (consistent : Consistent config none cache) (named : cache.table.Named location)
    (item_ : cache.itemAt config location = some item) :
    ∃ table, (cache.table.remove config.geometry item.key location) = (true, table) ∧
      Returns (removeItemAt config location.segment location.offset)
        (fun _ after => Unlinked config location cache after) { cache with table := table } := by
  obtain ⟨b, i, entry, slot, rfl⟩ := named
  refine ⟨cache.table.setSlot (b, i) none, ?_, ?_⟩
  · have found : cache.table.publishing config.geometry item.key entry.location = some (b, i) :=
      consistent.publishing slot item_
    rw [Table.remove, found]
  · have unlinked : Consistent config (some entry.location)
        { cache with table := cache.table.setSlot (b, i) none } :=
      consistent_unlinked consistent slot rfl rfl
    obtain ⟨value, after, ran, done, table, rfl⟩ := ensures_removeItemAt unlinked item_
    have maps : ∀ key mapping, Maps config (Cache.setSegment
        { cache with table := cache.table.setSlot (b, i) none } entry.location.segment
          ((cache.segment entry.location.segment).recount (-1) (-item.size config))) key mapping ↔
        Maps config cache key mapping ∧ mapping.location ≠ entry.location := by
      intro key mapping
      have gone : Maps config { cache with table := cache.table.setSlot (b, i) none } key mapping ↔
          Maps config cache key mapping ∧ mapping.location ≠ entry.location := by
        refine maps_unlinked consistent slot ?_ ?_ <;> rfl
      rw [← gone]
      exact maps_setSegment_recount _ _ _ _ _
    refine ⟨value, _, ran, done, fun other => ?_, maps, ⟨_, _, rfl⟩, rfl, ?_⟩
    · exact setSlot_none_named consistent slot other
    · refine shed_of_entries (fun b' i' other slot' => ?_) fun key mapping now => ((maps _ _).mp now).1
      change (cache.table.setSlot (b, i) none).slot b' i' = some other at slot'
      rw [Table.setSlot_slot] at slot'
      split at slot'
      · cases slot'
      · exact slot'

/-! ### Emptying a segment -/

/-- Two states of a segment that differ in its counters at most. -/
def SameButCounters (before after : Segment) : Prop :=
  ∃ items bytes, after = before.recount items bytes

theorem SameButCounters.refl (segment : Segment) : SameButCounters segment segment :=
  ⟨0, 0, by simp [Segment.recount]⟩

theorem SameButCounters.trans {one two three : Segment} (first : SameButCounters one two)
    (second : SameButCounters two three) : SameButCounters one three := by
  obtain ⟨items, bytes, rfl⟩ := first
  obtain ⟨items', bytes', rfl⟩ := second
  exact ⟨items + items', bytes + bytes', by simp [Segment.recount, add_assoc]⟩

/-- The items at some offsets of a segment are gone, and nothing else. -/
structure Cleared (config : Config) (id : SegId) (offsets : List Nat) (cache after : Cache) : Prop where
  consistent : Consistent config none after
  named : ∀ location, after.table.Named location ↔
    cache.table.Named location ∧ ¬ (location.segment = id ∧ location.offset ∈ offsets)
  maps : ∀ key mapping, Maps config after key mapping ↔ Maps config cache key mapping ∧
    ¬ (mapping.location.segment = id ∧ mapping.location.offset ∈ offsets)
  self : SameButCounters (cache.segment id) (after.segment id)
  others : ∀ other, other ≠ id → after.segment other = cache.segment other
  rest : SameRest cache after
  shed : Shed config cache after

theorem SameButCounters.items {before after : Segment} (same : SameButCounters before after) :
    after.items = before.items := by
  obtain ⟨items, bytes, rfl⟩ := same
  rfl

theorem SameButCounters.tag {before after : Segment} (same : SameButCounters before after) :
    after.tag = before.tag := by
  obtain ⟨items, bytes, rfl⟩ := same
  rfl

theorem SameButCounters.state {before after : Segment} (same : SameButCounters before after) :
    after.state = before.state := by
  obtain ⟨items, bytes, rfl⟩ := same
  rfl

theorem Cleared.nothing {id : SegId} (consistent : Consistent config none cache) :
    Cleared config id [] cache cache where
  consistent := consistent
  named location := by simp
  maps key mapping := by simp
  self := SameButCounters.refl _
  others _ _ := rfl
  rest := rfl
  shed := Shed.refl cache

/-- An item that is named has its segment's present tag. -/
theorem Consistent.locationAt_of_named {pending : Option Location}
    (consistent : Consistent config pending cache) {location : Location}
    (named : cache.table.Named location) :
    cache.locationAt location.segment location.offset = location := by
  obtain ⟨b, i, entry, slot, rfl⟩ := named
  obtain ⟨item, present, -⟩ := consistent.sound slot
  exact locationAt_of_tag present.tag

theorem Cleared.step {id : SegId} {offset : Nat} {offsets : List Nat}
    (consistent : Consistent config none cache)
    (unlinked : Unlinked config (cache.locationAt id offset) cache middle)
    (rest : Cleared config id offsets middle after) :
    Cleared config id (offset :: offsets) cache after := by
  obtain ⟨items, bytes, segment⟩ := unlinked.segment
  -- A named location is the one unlinked exactly when it lies at this offset of the segment.
  have here : ∀ location, cache.table.Named location →
      (location = cache.locationAt id offset ↔ location.segment = id ∧ location.offset = offset) := by
    intro location named
    constructor
    · rintro rfl
      exact ⟨rfl, rfl⟩
    · rintro ⟨rfl, rfl⟩
      exact (consistent.locationAt_of_named named).symm
  refine ⟨rest.consistent, fun location => ?_, fun key mapping => ?_, ?_, fun other apart => ?_,
    unlinked.rest.trans rest.rest, unlinked.shed.trans rest.shed⟩
  · rw [rest.named, unlinked.named, List.mem_cons]
    constructor
    · rintro ⟨⟨named, apart⟩, outside⟩
      exact ⟨named, fun ⟨same, at_⟩ => at_.elim
        (fun first => apart ((here _ named).mpr ⟨same, first⟩)) fun later => outside ⟨same, later⟩⟩
    · rintro ⟨named, outside⟩
      exact ⟨⟨named, fun same => outside ⟨((here _ named).mp same).1,
        .inl ((here _ named).mp same).2⟩⟩, fun ⟨same, later⟩ => outside ⟨same, .inr later⟩⟩
  · rw [rest.maps, unlinked.maps, List.mem_cons]
    constructor
    · rintro ⟨⟨maps, apart⟩, outside⟩
      exact ⟨maps, fun ⟨same, at_⟩ => at_.elim
        (fun first => apart ((here _ maps.named).mpr ⟨same, first⟩))
        fun later => outside ⟨same, later⟩⟩
    · rintro ⟨maps, outside⟩
      exact ⟨⟨maps, fun same => outside ⟨((here _ maps.named).mp same).1,
        .inl ((here _ maps.named).mp same).2⟩⟩, fun ⟨same, later⟩ => outside ⟨same, .inr later⟩⟩
  · have first : SameButCounters (cache.segment id) (middle.segment id) := by
      rw [segment, Cache.locationAt_segment, Function.update_self]
      exact ⟨items, bytes, rfl⟩
    exact first.trans rest.self
  · rw [rest.others other apart, segment, Cache.locationAt_segment, Function.update_of_ne apart]

/-- An item that nothing names is passed over. -/
theorem Cleared.skip {id : SegId} {offset : Nat} {offsets : List Nat}
    (consistent : Consistent config none cache)
    (unnamed : ¬ cache.table.Named (cache.locationAt id offset))
    (rest : Cleared config id offsets cache after) :
    Cleared config id (offset :: offsets) cache after := by
  have never : ∀ location, cache.table.Named location →
      ¬ (location.segment = id ∧ location.offset = offset) := by
    rintro location named ⟨rfl, rfl⟩
    rw [consistent.locationAt_of_named named] at unnamed
    exact unnamed named
  refine ⟨rest.consistent, fun location => ?_, fun key mapping => ?_, rest.self, rest.others,
    rest.rest, rest.shed⟩
  · rw [rest.named, List.mem_cons]
    constructor
    · rintro ⟨named, outside⟩
      exact ⟨named, fun ⟨same, at_⟩ => at_.elim (fun first => never _ named ⟨same, first⟩)
        fun later => outside ⟨same, later⟩⟩
    · rintro ⟨named, outside⟩
      exact ⟨named, fun ⟨same, later⟩ => outside ⟨same, .inr later⟩⟩
  · rw [rest.maps, List.mem_cons]
    constructor
    · rintro ⟨maps, outside⟩
      exact ⟨maps, fun ⟨same, at_⟩ => at_.elim (fun first => never _ maps.named ⟨same, first⟩)
        fun later => outside ⟨same, later⟩⟩
    · rintro ⟨maps, outside⟩
      exact ⟨maps, fun ⟨same, later⟩ => outside ⟨same, .inr later⟩⟩

/-- The scan that empties a segment, from some item on. -/
theorem returns_clearItems {id : SegId} (placed : List (Nat × Item))
    (consistent : Consistent config none cache)
    (inside : ∀ offset item, (offset, item) ∈ placed → (offset, item) ∈ cache.laidOut config id) :
    Returns (clearItems config id placed)
      (fun _ after => Cleared config id (placed.map Prod.fst) cache after) cache := by
  induction placed generalizing cache with
  | nil => exact (returns_pure ()).mpr (Cleared.nothing consistent)
  | cons first rest ih =>
    obtain ⟨offset, item⟩ := first
    have item_ : cache.itemAt config (cache.locationAt id offset) = some item :=
      Cache.itemAt_locationAt.mpr (inside offset item (List.mem_cons_self ..))
    unfold clearItems getItemFrequency
    simp only [returns_bind, returns_read]
    by_cases named : cache.table.Named (cache.locationAt id offset)
    · rw [if_pos ((consistent.getItemFrequency_isSome item_).mpr named)]
      obtain ⟨table, removed, returned⟩ := returns_unlinkItem consistent named item_
      simp only [onTable, returns_bind, returns_exchange, removed, if_true]
      refine returned.mono fun _ middle unlinked => ?_
      refine (ih unlinked.consistent fun at_ held later => ?_).mono fun _ after cleared =>
        cleared.step consistent unlinked
      obtain ⟨items, bytes, segment⟩ := unlinked.segment
      unfold Cache.laidOut
      rw [segment, Cache.locationAt_segment, Function.update_self]
      exact inside at_ held (List.mem_cons_of_mem _ later)
    · rw [if_neg fun found => named ((consistent.getItemFrequency_isSome item_).mp found)]
      exact (ih consistent fun at_ held later => inside at_ held (List.mem_cons_of_mem _ later)).mono
        fun _ after cleared => cleared.skip consistent named

/-- A segment's items are gone, and every other item is where it was. -/
structure Dropped (config : Config) (id : SegId) (cache after : Cache) : Prop where
  consistent : Consistent config none after
  named : ∀ location, after.table.Named location ↔
    cache.table.Named location ∧ location.segment ≠ id
  maps : ∀ key mapping, Maps config after key mapping ↔
    Maps config cache key mapping ∧ mapping.location.segment ≠ id
  shed : Shed config cache after

theorem Dropped.vacant {id : SegId} (dropped : Dropped config id cache after) :
    Vacant after none id where
  named location named := ((dropped.named location).mp named).2
  inHand := fun _ inHand => by cases inHand

theorem Dropped.calm {id : SegId} (dropped : Dropped config id cache middle)
    (calm : Calm config none middle after) : Dropped config id cache after where
  consistent := calm.consistent
  named location := by
    rw [← dropped.named]
    unfold Table.Named
    rw [calm.slots]
  maps key mapping := (calm.maps key mapping).trans (dropped.maps key mapping)
  shed := dropped.shed.trans calm.shed

/-- A named item lies in its segment's layout. -/
theorem Consistent.placed_of_named {pending : Option Location}
    (consistent : Consistent config pending cache) {location : Location}
    (named : cache.table.Named location) :
    ∃ item, (location.offset, item) ∈ cache.laidOut config location.segment := by
  obtain ⟨b, i, entry, slot, rfl⟩ := named
  obtain ⟨item, present, -⟩ := consistent.sound slot
  exact ⟨item, Segment.itemAt_iff.mp present.item⟩

/-- What `Segment::clear` leaves of a claimed segment. -/
structure Wiped (config : Config) (id : SegId) (cache after : Cache) : Prop
    extends Dropped config id cache after where
  self : ∃ writeOffset liveBytes liveItems, after.segment id =
    { cache.segment id with
      writeOffset := writeOffset, liveBytes := liveBytes, liveItems := liveItems }
  others : ∀ other, other ≠ id → after.segment other = cache.segment other
  rest : SameRest cache after

/-- `Segment::clear`, on a claimed segment. -/
theorem returns_clear {id : SegId} (consistent : Consistent config none cache)
    (laid : (cache.segment id).Laid config) (state : (cache.segment id).state = .draining) :
    Returns (clear config id) (fun _ after => Wiped config id cache after) cache := by
  unfold clear segmentOf
  rw [returns_bind, returns_read, Segment.walk_of_laid laid]
  refine Returns.seq (returns_clearItems _ consistent fun offset item placed => placed)
    fun _ middle cleared => ?_
  -- Every named item of the segment was visited.
  have visited : ∀ location, cache.table.Named location → location.segment = id →
      location.offset ∈ (cache.laidOut config id).map Prod.fst := by
    rintro location named rfl
    obtain ⟨item, placed⟩ := consistent.placed_of_named named
    exact List.mem_map.mpr ⟨_, placed, rfl⟩
  have dropped : Dropped config id cache middle := by
    refine ⟨cleared.consistent, fun location => ?_, fun key mapping => ?_, cleared.shed⟩
    · rw [cleared.named]
      constructor
      · rintro ⟨named, outside⟩
        exact ⟨named, fun same => outside ⟨same, visited _ named same⟩⟩
      · rintro ⟨named, apart⟩
        exact ⟨named, fun inside => apart inside.1⟩
    · rw [cleared.maps]
      constructor
      · rintro ⟨maps, outside⟩
        exact ⟨maps, fun same => outside ⟨same, visited _ maps.named same⟩⟩
      · rintro ⟨maps, apart⟩
        exact ⟨maps, fun inside => apart inside.1⟩
  have draining : (middle.segment id).state = .draining := cleared.self.state.trans state
  refine (returns_change _).mpr ⟨dropped.calm (Frame.calm (frame_setSegment ?_)
    cleared.consistent), ?_, fun other apart => ?_, cleared.rest.trans rfl⟩
  · refine ⟨rfl, rfl, rfl, rfl, fun busy => ?_, fun was => was, .inl, .inl, fun was => was⟩
    simp [draining, isLaid, isFresh] at busy
  · obtain ⟨items, bytes, same⟩ := cleared.self
    refine ⟨((cache.segment id).liveBytes + bytes).toNat, (cache.segment id).liveBytes + bytes,
      (cache.segment id).liveItems + items, (Function.update_self ..).trans ?_⟩
    rw [same]
    rfl
  · rw [← cleared.others other apart]
    exact Function.update_of_ne apart ..

/-! ### Moving an item -/

theorem setSlot_setSlot (table : Table Location) (ref : Nat × Nat)
    (first second : Option (Entry Location)) :
    ((table.setSlot ref first).setSlot ref second).slot = (table.setSlot ref second).slot := by
  funext b i
  rw [Table.setSlot_slot, Table.setSlot_slot, Table.setSlot_slot]
  split <;> rfl

/-- An item has moved behind the target's last one, and its entry with it. -/
structure Moved (config : Config) (source target : SegId) (offset : Nat) (item : Item)
    (relink : Hashtable.RelinkFreq) (cache after : Cache) : Prop where
  consistent : Consistent config none after
  maps : ∀ key mapping, Maps config after key mapping ↔
    (key = item.key ∧ ∃ freq, Maps config cache key ⟨item, freq, cache.locationAt source offset⟩ ∧
      mapping = ⟨item, relinkFreq relink freq,
        cache.locationAt target (cache.segment target).writeOffset⟩) ∨
    (key ≠ item.key ∧ Maps config cache key mapping)
  sourceSegment : after.segment source =
    (cache.segment source).recount (-1) (-item.size config)
  targetSegment : after.segment target =
    ((cache.segment target).extend config item).recount 1 (item.size config)
  others : ∀ id, id ≠ source → id ≠ target → after.segment id = cache.segment id
  rest : SameRest cache after
  shed : Shed config cache after

/-- **The copy of one item**: with room in the target it always succeeds. -/
theorem returns_relinkItem {source target : SegId} {offset : Nat} {item : Item}
    (relink : Hashtable.RelinkFreq) (consistent : Consistent config none cache)
    (named : cache.table.Named (cache.locationAt source offset))
    (item_ : cache.itemAt config (cache.locationAt source offset) = some item)
    (apart : source ≠ target) (state : isLaid (cache.segment target).state = true)
    (range : 1 ≤ target ∧ target ≤ config.cap)
    (room : (cache.segment target).writeOffset + item.size config ≤ config.segmentSize) :
    Returns (relinkItem config source target offset item relink)
      (fun moved after => moved = true ∧ Moved config source target offset item relink cache after)
      cache := by
  obtain ⟨b, i, entry, slot, here⟩ := named
  obtain ⟨held, present, alive, candidate, tag⟩ := consistent.sound slot
  rw [← here] at item_
  cases present.item.symm.trans item_
  -- First the entry is taken away, and the item accounted for as gone.
  let gone : Cache := { cache with table := cache.table.setSlot (b, i) none }
  have unlinked : Consistent config (some entry.location) gone :=
    consistent_unlinked consistent slot rfl rfl
  have positive := counters_positive unlinked item_
  have segmentHere : entry.location.segment = source := by rw [here]; rfl
  rw [segmentHere] at positive
  let accounted : Cache := gone.setSegment source
    ((cache.segment source).recount (-1) (-item.size config))
  have isAccounted : Consistent config none accounted := by
    refine consistent_accounted unlinked item_ rfl ?_
    rw [segmentHere]
    rfl
  have targetThere : accounted.segment target = cache.segment target :=
    Function.update_of_ne apart.symm _ _
  -- Then it is written behind the target's last item and counted there.
  let copied : Cache := accounted.setSegment target ((cache.segment target).extend config item)
  have copiedSegments : copied.segment = Function.update accounted.segment target
      ((accounted.segment target).extend config item) := by
    rw [targetThere]
    rfl
  have laidThere : (accounted.segment target).Laid config := by
    rw [targetThere]
    exact consistent.laid state
  have isCopied : Consistent config none copied := by
    refine consistent_appended copiedSegments isAccounted ?_ ?_ rfl
    · rw [targetThere]
      exact state
    · rw [targetThere]
      exact room
  let new : Location := cache.locationAt target (cache.segment target).writeOffset
  have newHere : accounted.locationAt target (accounted.segment target).writeOffset = new := by
    rw [targetThere, Cache.locationAt, targetThere]
    rfl
  have newPresent : Present config copied new item := by
    rw [← newHere]
    refine present_new copiedSegments laidThere ?_ range
    rw [targetThere]
    exact holds_of_isLaid state
  have newUnnamed : ¬ copied.table.Named new := by
    rw [← newHere]
    exact unnamed_new isAccounted laidThere
  let counted : Cache := copied.setSegment target
    (((cache.segment target).extend config item).recount 1 (item.size config))
  have copiedTarget : copied.segment target = (cache.segment target).extend config item :=
    Function.update_self ..
  have isCounted : Consistent config (some new) counted := by
    refine consistent_taken isCopied newUnnamed newPresent rfl ?_
    show _ = Function.update copied.segment target ((copied.segment target).recount _ _)
    rw [copiedTarget]
    rfl
  -- Last its entry is written where the old one was.
  let entry' : Entry Location := ⟨config.geometry.tag item.key, relinkFreq relink entry.freq, new⟩
  let after : Cache := (Cache.setSegment
    { cache with table := cache.table.setSlot (b, i) (some entry') } source
    ((cache.segment source).recount (-1) (-item.size config))).setSegment target
    (((cache.segment target).extend config item).recount 1 (item.size config))
  have segments : after.segment = counted.segment := (Function.update_idem ..).symm
  have slots : after.table.slot = (counted.table.setSlot (b, i) (some entry')).slot :=
    (setSlot_setSlot _ _ _ _).symm
  have mapsCounted : ∀ key mapping, Maps config counted key mapping ↔
      Maps config cache key mapping ∧ mapping.location ≠ entry.location := by
    intro key mapping
    have one : Maps config gone key mapping ↔
        Maps config cache key mapping ∧ mapping.location ≠ entry.location := by
      refine maps_unlinked consistent slot ?_ ?_ <;> rfl
    have two : Maps config accounted key mapping ↔ Maps config gone key mapping :=
      maps_setSegment_recount _ _ _ _ _
    have three : Maps config copied key mapping ↔ Maps config accounted key mapping :=
      maps_appended copiedSegments isAccounted laidThere rfl
    have four : Maps config counted key mapping ↔ Maps config copied key mapping := by
      have : counted = copied.setSegment target
          ((copied.segment target).recount 1 (item.size config)) := by
        rw [copiedTarget]
      rw [this]
      exact maps_setSegment_recount _ _ _ _ _
    rw [four, three, two, one]
  have countedItem : counted.itemAt config entry'.location = some item := by
    have : copied.itemAt config new = counted.itemAt config new := by
      unfold Cache.itemAt
      show (copied.segment target).itemAt config _ = (counted.segment target).itemAt config _
      rw [copiedTarget]
      show _ = (Function.update copied.segment target _ target).itemAt config _
      rw [Function.update_self]
      rfl
    rw [← this]
    exact newPresent.item
  have unmapped : ∀ mapping, ¬ Maps config counted item.key mapping := by
    intro mapping maps
    obtain ⟨maps, elsewhere⟩ := (mapsCounted _ _).mp maps
    have := consistent.maps_unique maps (consistent.maps_of_slot slot item_)
    exact elsewhere (congrArg Mapping.location this)
  have emptySlot : counted.table.slot b i = none := by
    show (cache.table.setSlot (b, i) none).slot b i = none
    rw [Table.setSlot_slot, if_pos rfl]
  have isAfter : Consistent config none after := by
    refine consistent_published slots segments isCounted countedItem alive candidate rfl ?_ ?_
    · rw [emptySlot]
      rfl
    · exact fun mapping maps => absurd maps (unmapped mapping)
  have ran : relinkItem config source target offset item relink cache = some (true, after) := by
    unfold relinkItem segmentOf onTable
    simp only [read_bind, exchange_bind]
    have cas : cache.table.casLocation config.geometry item.key (cache.locationAt source offset) new
        relink = (true, cache.table.setSlot (b, i) (some entry')) := by
      have found : cache.table.publishing config.geometry item.key entry.location = some (b, i) :=
        consistent.publishing slot item_
      rw [Table.casLocation, ← here, found]
      simp only [slot, Option.map_some]
      rfl
    rw [show cache.locationAt target (cache.segment target).writeOffset = new from rfl, cas]
    simp only [if_true]
    have placed : (cache.segment source).itemAt config offset = some item := by
      have := item_
      rw [here] at this
      exact this
    have accounting : removeItemAt config source offset
        { cache with table := cache.table.setSlot (b, i) (some entry') } =
        some ((), _) := removeItemAt_apply placed positive.1 positive.2
    rw [bind_apply_of_some accounting, modifySegment, change_bind, pure_apply]
    simp only [Cache.setSegment, Function.update_of_ne apart.symm]
    rfl
  have published : ∀ key mapping, Maps config after key mapping ↔
      (key = item.key ∧ mapping = ⟨item, entry'.freq, entry'.location⟩) ∨
        (key ≠ item.key ∧ Maps config counted key mapping) := by
    intro key mapping
    refine maps_published slots segments isCounted countedItem ?_ ?_
    · intro old slot'
      cases emptySlot.symm.trans slot'
    · exact fun mapping maps => absurd maps (unmapped mapping)
  refine ⟨true, after, ran, rfl, isAfter, fun key mapping => ?_, ?_, ?_,
    fun id notSource notTarget => ?_, rfl, fun b' i' other held slot' there => ?_⟩
  · rw [published, mapsCounted]
    have mapsHere := consistent.maps_of_slot slot item_
    constructor
    · rintro (⟨rfl, rfl⟩ | ⟨other, maps, -⟩)
      · rw [here] at mapsHere
        exact .inl ⟨rfl, entry.freq, mapsHere, rfl⟩
      · exact .inr ⟨other, maps⟩
    · rintro (⟨rfl, freq, maps, rfl⟩ | ⟨other, maps⟩)
      · have same := consistent.maps_unique mapsHere maps
        rw [Mapping.mk.injEq] at same
        exact .inl ⟨rfl, by rw [← same.2.1]⟩
      · refine .inr ⟨other, maps, fun same => other ?_⟩
        have item' := maps.item
        rw [same, item_] at item'
        rw [← maps.key, ← Option.some.inj item']
  · show Function.update _ target _ source = _
    rw [Function.update_of_ne apart]
    exact Function.update_self ..
  · exact Function.update_self ..
  · show Function.update _ target _ id = _
    rw [Function.update_of_ne notTarget]
    exact Function.update_of_ne notSource _ _
  · have now : Maps config after held.key ⟨held, other.freq, other.location⟩ :=
      ⟨b', i', other.tag, slot', there, rfl⟩
    change (cache.table.setSlot (b, i) (some entry')).slot b' i' = some other at slot'
    rw [Table.setSlot_slot] at slot'
    rcases (published _ _).mp now with ⟨-, same⟩ | ⟨different, was⟩
    · rw [Mapping.mk.injEq] at same
      by_cases here' : (b', i') = (b, i)
      · cases here'
        exact ⟨entry, slot, by rw [same.1]; exact item_⟩
      · -- No other slot names the new location.
        rw [if_neg here'] at slot'
        refine absurd ⟨b', i', other, ?_, same.2.2⟩ newUnnamed
        show (cache.table.setSlot (b, i) none).slot b' i' = _
        rw [Table.setSlot_slot, if_neg here']
        exact slot'
    · have was' := ((mapsCounted _ _).mp was).1
      by_cases here' : (b', i') = (b, i)
      · rw [if_pos here'] at slot'
        cases slot'
        exact absurd ((published _ _).mp now) (by
          rintro (⟨same, -⟩ | ⟨-, maps⟩)
          · exact different same
          · exact newUnnamed maps.named)
      · rw [if_neg here'] at slot'
        exact ⟨other, slot', was'.item⟩

end CacheRs.Segcache
