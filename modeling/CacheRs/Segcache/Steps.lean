/-
**What the cache's elementary steps keep.**

* `Frame`: steps on the headers that leave the stored items alone, `Frame.consistent`,
  `Frame.maps_iff`;
* `consistent_unlinked`: an entry is removed, its item stays in hand;
* `consistent_accounted`: an item in hand is accounted for as gone;
* `consistent_appended`, `consistent_taken`: an item is written behind the last one and counted;
* `consistent_published`, `consistent_replaced`: an item in hand gets an entry.
-/

import CacheRs.Segcache.Consistent

set_option linter.unusedSectionVars false

namespace CacheRs.Segcache

open Segments (SegId State)

variable {config : Config} {cache after : Cache} {pending : Option Location}

/-! ### Frames -/

/-- A step on a segment's header. -/
structure Quiet (before after : Segment) : Prop where
  items : after.items = before.items
  generation : after.generation = before.generation
  liveItems : after.liveItems = before.liveItems
  liveBytes : after.liveBytes = before.liveBytes
  writeOffset : isLaid after.state = true ∨ isFresh after.state = true →
    after.writeOffset = before.writeOffset
  held : holds before.state = true → holds after.state = true
  holds : holds after.state = true → holds before.state = true ∨ isFresh before.state = true
  laid : isLaid after.state = true → isLaid before.state = true ∨ isFresh before.state = true
  fresh : isFresh after.state = true → isFresh before.state = true

theorem Quiet.refl (segment : Segment) : Quiet segment segment :=
  ⟨rfl, rfl, rfl, rfl, fun _ => rfl, id, .inl, .inl, id⟩

/-- No entry and no call names an item of the segment. -/
structure Vacant (cache : Cache) (pending : Option Location) (id : SegId) : Prop where
  named : ∀ location, cache.table.Named location → location.segment ≠ id
  inHand : ∀ location, pending = some location → location.segment ≠ id

/-- The segment holds nothing. -/
def Emptied (config : Config) (segment : Segment) : Prop :=
  holds segment.state = true ∨ isFresh segment.state = true → Blank config segment

/-- A step on headers, and on segments that nothing names. -/
structure Frame (config : Config) (pending : Option Location) (cache after : Cache) : Prop where
  slots : after.table.slot = cache.table.slot
  segments : ∀ id, Quiet (cache.segment id) (after.segment id) ∨
    (Vacant cache pending id ∧ Emptied config (after.segment id))

namespace Consistent

/-- Nothing names a segment that holds nothing. -/
theorem vacant (consistent : Consistent config pending cache) {id : SegId}
    (state : holds (cache.segment id).state = false) : Vacant cache pending id where
  named := by
    rintro location ⟨b, i, entry, slot, rfl⟩ rfl
    obtain ⟨item, present, -⟩ := consistent.sound slot
    cases state.symm.trans present.state
  inHand := by
    rintro location inHand rfl
    obtain ⟨-, item, present⟩ := consistent.inHand inHand
    cases state.symm.trans present.state

end Consistent

namespace Frame

variable (frame : Frame config pending cache after)

include frame

theorem named {location : Location} :
    after.table.Named location ↔ cache.table.Named location := by
  unfold Table.Named
  rw [frame.slots]

theorem quiet_of_named {location : Location} (named : cache.table.Named location) :
    Quiet (cache.segment location.segment) (after.segment location.segment) :=
  (frame.segments _).resolve_right fun vacated => vacated.1.named _ named rfl

theorem quiet_of_inHand {location : Location} (inHand : pending = some location) :
    Quiet (cache.segment location.segment) (after.segment location.segment) :=
  (frame.segments _).resolve_right fun vacated => vacated.1.inHand _ inHand rfl

end Frame

theorem Quiet.itemAt {location : Location}
    (quiet : Quiet (cache.segment location.segment) (after.segment location.segment)) :
    after.itemAt config location = cache.itemAt config location := by
  unfold Cache.itemAt Segment.itemAt
  rw [quiet.items]

theorem Quiet.tag {before after : Segment} (quiet : Quiet before after) : after.tag = before.tag := by
  unfold Segment.tag
  rw [quiet.generation]

theorem Quiet.present {location : Location} {item : Item}
    (quiet : Quiet (cache.segment location.segment) (after.segment location.segment))
    (present : Present config cache location item) : Present config after location item :=
  ⟨quiet.itemAt.trans present.item, quiet.held present.state, present.range,
    present.tag.trans quiet.tag.symm⟩

namespace Frame

variable (frame : Frame config pending cache after)

include frame

theorem itemAt_of_named {location : Location} (named : cache.table.Named location) :
    after.itemAt config location = cache.itemAt config location :=
  (frame.quiet_of_named named).itemAt

/-- **A step on headers keeps every mapping.** -/
theorem maps_iff {key : Key} {mapping : Mapping} :
    Maps config after key mapping ↔ Maps config cache key mapping := by
  unfold Maps
  rw [frame.slots]
  constructor
  · rintro ⟨b, i, tag, slot, item, same⟩
    rw [frame.itemAt_of_named ⟨b, i, _, slot, rfl⟩] at item
    exact ⟨b, i, tag, slot, item, same⟩
  · rintro ⟨b, i, tag, slot, item, same⟩
    rw [← frame.itemAt_of_named ⟨b, i, _, slot, rfl⟩] at item
    exact ⟨b, i, tag, slot, item, same⟩

theorem counts {id : SegId} (quiet : Quiet (cache.segment id) (after.segment id)) (offset : Nat) :
    Counts after pending id offset ↔ Counts cache pending id offset := by
  have same : after.locationAt id offset = cache.locationAt id offset := by
    unfold Cache.locationAt
    rw [quiet.tag]
  unfold Counts
  rw [same, frame.named]

theorem total_eq {id : SegId} {weight : Item → Int}
    (quiet : Quiet (cache.segment id) (after.segment id)) :
    total (Counts after pending id) weight (after.laidOut config id) =
      total (Counts cache pending id) weight (cache.laidOut config id) := by
  have laidOut : after.laidOut config id = cache.laidOut config id := by
    unfold Cache.laidOut
    rw [quiet.items]
  rw [laidOut]
  exact total_congr fun placed _ => frame.counts quiet placed.1

/-- **A step on headers keeps the table and the segments in agreement.** -/
theorem consistent (consistent : Consistent config pending cache) :
    Consistent config pending after where
  sound := by
    intro b i entry slot
    rw [frame.slots] at slot
    obtain ⟨item, present, rest⟩ := consistent.sound slot
    exact ⟨item, (frame.quiet_of_named ⟨b, i, entry, slot, rfl⟩).present present, rest⟩
  unique := by
    intro b i b' i' entry entry' item item' slot slot' here there same
    rw [frame.slots] at slot slot'
    rw [frame.itemAt_of_named ⟨b, i, entry, slot, rfl⟩] at here
    rw [frame.itemAt_of_named ⟨b', i', entry', slot', rfl⟩] at there
    exact consistent.unique slot slot' here there same
  inHand := by
    intro location inHand
    obtain ⟨unnamed, item, present⟩ := consistent.inHand inHand
    exact ⟨fun named => unnamed (frame.named.mp named), item,
      (frame.quiet_of_inHand inHand).present present⟩
  items := by
    intro id state
    rcases frame.segments id with quiet | ⟨-, emptied⟩
    · rw [quiet.liveItems, frame.total_eq quiet]
      rcases quiet.holds state with held | fresh
      · exact consistent.items held
      · rw [consistent.blank_zero fresh, (consistent.fresh fresh).liveItems, total_nil]
    · have blank := emptied (.inl state)
      rw [blank.liveItems, Cache.laidOut, blank.items]
      rfl
  bytes := by
    intro id state
    rcases frame.segments id with quiet | ⟨-, emptied⟩
    · rw [quiet.liveBytes, frame.total_eq quiet]
      rcases quiet.holds state with held | fresh
      · exact consistent.bytes held
      · rw [consistent.blank_zero fresh, (consistent.fresh fresh).liveBytes, total_nil]
        simp
    · have blank := emptied (.inl state)
      rw [blank.liveBytes, Cache.laidOut, blank.items]
      simp [Segment.layOut]
  laid := by
    intro id state
    rcases frame.segments id with quiet | ⟨-, emptied⟩
    · have laid : (cache.segment id).Laid config := by
        rcases quiet.laid state with held | fresh
        · exact consistent.laid held
        · exact (consistent.fresh fresh).laid
      refine ⟨?_, ?_⟩
      · rw [quiet.writeOffset (.inl state), quiet.items]
        exact laid.writeOffset
      · rw [quiet.writeOffset (.inl state)]
        exact laid.fits
    · exact (emptied (.inl (holds_of_isLaid state))).laid
  fresh := by
    intro id state
    rcases frame.segments id with quiet | ⟨-, emptied⟩
    · obtain ⟨items, liveItems, liveBytes, writeOffset⟩ := consistent.fresh (quiet.fresh state)
      exact ⟨quiet.items.trans items, quiet.liveItems.trans liveItems,
        quiet.liveBytes.trans liveBytes, (quiet.writeOffset (.inr state)).trans writeOffset⟩
    · exact emptied (.inr state)

end Frame

/-- A step on one segment's header. -/
theorem frame_setSegment {id : SegId} {segment : Segment}
    (quiet : Quiet (cache.segment id) segment) :
    Frame config pending cache (cache.setSegment id segment) where
  slots := rfl
  segments := by
    intro other
    left
    by_cases here : other = id
    · subst here
      simpa [Cache.setSegment] using quiet
    · simpa [Cache.setSegment, here] using Quiet.refl _

/-- A step on a segment that nothing names. -/
theorem frame_vacate {id : SegId} {segment : Segment} (vacant : Vacant cache pending id)
    (emptied : Emptied config segment) :
    Frame config pending cache (cache.setSegment id segment) where
  slots := rfl
  segments := by
    intro other
    by_cases here : other = id
    · subst here
      right
      simpa [Cache.setSegment] using ⟨vacant, emptied⟩
    · left
      simpa [Cache.setSegment, here] using Quiet.refl _

/-- A step that touches neither the slots nor the segments. -/
theorem frame_of_same (slots : after.table.slot = cache.table.slot)
    (segments : after.segment = cache.segment) : Frame config pending cache after where
  slots := slots
  segments := fun id => .inl (by rw [segments]; exact Quiet.refl _)

/-! ### Entries and counters -/

/-- **An entry is removed**: its item counts as in hand. -/
theorem consistent_unlinked (consistent : Consistent config none cache) {b i : Nat}
    {entry : Entry Location} (slot : cache.table.slot b i = some entry)
    (slots : after.table.slot = (cache.table.setSlot (b, i) none).slot)
    (segments : after.segment = cache.segment) :
    Consistent config (some entry.location) after := by
  have kept : ∀ {b' i' : Nat} {other : Entry Location}, after.table.slot b' i' = some other →
      cache.table.slot b' i' = some other ∧ (b', i') ≠ (b, i) := by
    intro b' i' other slot'
    rw [slots, Table.setSlot_slot] at slot'
    split at slot'
    · cases slot'
    · exact ⟨slot', ‹_›⟩
  have itemAt : ∀ location, after.itemAt config location = cache.itemAt config location := by
    intro location
    unfold Cache.itemAt
    rw [segments]
  have present : ∀ {location item}, Present config cache location item →
      Present config after location item := fun {location item} held =>
    ⟨(itemAt location).trans held.item, by rw [segments]; exact held.state, held.range,
      by rw [segments]; exact held.tag⟩
  have counts : ∀ id offset, Counts after (some entry.location) id offset ↔
      Counts cache none id offset := by
    intro id offset
    have same : after.locationAt id offset = cache.locationAt id offset := by
      unfold Cache.locationAt
      rw [segments]
    unfold Counts
    rw [same]
    constructor
    · rintro (⟨b', i', other, slot', here⟩ | here)
      · exact .inl ⟨b', i', other, (kept slot').1, here⟩
      · exact .inl ⟨b, i, entry, slot, Option.some.inj here⟩
    · rintro (⟨b', i', other, slot', here⟩ | here)
      · by_cases same : (b', i') = (b, i)
        · cases same
          cases slot.symm.trans slot'
          exact .inr (congrArg some here)
        · refine .inl ⟨b', i', other, ?_, here⟩
          rw [slots, Table.setSlot_slot, if_neg same]
          exact slot'
      · cases here
  have sums : ∀ id weight, total (Counts after (some entry.location) id) weight
      (after.laidOut config id) = total (Counts cache none id) weight (cache.laidOut config id) := by
    intro id weight
    have laidOut : after.laidOut config id = cache.laidOut config id := by
      unfold Cache.laidOut
      rw [segments]
    rw [laidOut]
    exact total_congr fun placed _ => counts id placed.1
  exact {
    sound := fun slot' => by
      obtain ⟨item, held, rest⟩ := consistent.sound (kept slot').1
      exact ⟨item, present held, rest⟩
    unique := fun slot' slot'' here there same =>
      consistent.unique (kept slot').1 (kept slot'').1 ((itemAt _).symm.trans here)
        ((itemAt _).symm.trans there) same
    inHand := by
      rintro location inHand
      cases inHand
      refine ⟨?_, ?_⟩
      · rintro ⟨b', i', other, slot', here⟩
        have := consistent.slot_unique (kept slot').1 slot here
        exact (kept slot').2 this
      · obtain ⟨item, held, -⟩ := consistent.sound slot
        exact ⟨item, present held⟩
    items := fun {id} state => by
      rw [segments] at state ⊢
      rw [sums]
      exact consistent.items state
    bytes := fun {id} state => by
      rw [segments] at state ⊢
      rw [sums]
      exact consistent.bytes state
    laid := fun {id} state => by
      rw [segments] at state ⊢
      exact consistent.laid state
    fresh := fun {id} state => by
      rw [segments] at state ⊢
      exact consistent.fresh state }

/-- What is left of a table without one of its entries. -/
theorem maps_unlinked (consistent : Consistent config pending cache) {b i : Nat}
    {entry : Entry Location} (slot : cache.table.slot b i = some entry)
    (slots : after.table.slot = (cache.table.setSlot (b, i) none).slot)
    (segments : after.segment = cache.segment) {key : Key} {mapping : Mapping} :
    Maps config after key mapping ↔
      Maps config cache key mapping ∧ mapping.location ≠ entry.location := by
  unfold Maps Cache.itemAt
  rw [segments]
  constructor
  · rintro ⟨b', i', tag, slot', item, same⟩
    rw [slots, Table.setSlot_slot] at slot'
    split at slot'
    · cases slot'
    · rename_i apart
      refine ⟨⟨b', i', tag, slot', item, same⟩, fun here => apart ?_⟩
      exact consistent.slot_unique slot' slot here
  · rintro ⟨⟨b', i', tag, slot', item, same⟩, apart⟩
    refine ⟨b', i', tag, ?_, item, same⟩
    rw [slots, Table.setSlot_slot, if_neg ?_]
    · exact slot'
    · intro here
      cases here
      cases slot.symm.trans slot'
      exact apart rfl

/-- Change a segment's counters. -/
def Segment.recount (segment : Segment) (items bytes : Int) : Segment :=
  { segment with liveItems := segment.liveItems + items, liveBytes := segment.liveBytes + bytes }

/-- A change of a segment's counters changes no item. -/
theorem itemAt_recount {id : SegId} {items bytes : Int}
    (segments : after.segment =
      Function.update cache.segment id ((cache.segment id).recount items bytes))
    (location : Location) : after.itemAt config location = cache.itemAt config location := by
  unfold Cache.itemAt
  rw [segments]
  by_cases here : location.segment = id
  · subst here
    rw [Function.update_self]
    rfl
  · rw [Function.update_of_ne here]

theorem maps_recount {id : SegId} {items bytes : Int}
    (slots : after.table.slot = cache.table.slot)
    (segments : after.segment =
      Function.update cache.segment id ((cache.segment id).recount items bytes))
    {key : Key} {mapping : Mapping} :
    Maps config after key mapping ↔ Maps config cache key mapping := by
  unfold Maps
  rw [slots, itemAt_recount segments]

theorem maps_setSegment_recount (id : SegId) (items bytes : Int) (key : Key) (mapping : Mapping) :
    Maps config (cache.setSegment id ((cache.segment id).recount items bytes)) key mapping ↔
      Maps config cache key mapping := by
  refine @maps_recount _ cache _ id items bytes ?_ ?_ key mapping <;> rfl

/-- The counters follow what is named and in hand. -/
theorem consistent_recount {before : Option Location} (consistent : Consistent config before cache)
    {id : SegId} {items bytes : Int} (slots : after.table.slot = cache.table.slot)
    (segments : after.segment =
      Function.update cache.segment id ((cache.segment id).recount items bytes))
    (inHand : ∀ {location}, pending = some location →
      ¬ cache.table.Named location ∧ ∃ item, Present config cache location item)
    (others : ∀ other, other ≠ id → ∀ offset,
      Counts cache pending other offset ↔ Counts cache before other offset)
    (countItems : total (Counts cache pending id) (fun _ => 1) (cache.laidOut config id) =
      total (Counts cache before id) (fun _ => 1) (cache.laidOut config id) + items)
    (countBytes : total (Counts cache pending id) (fun item => item.size config)
        (cache.laidOut config id) =
      total (Counts cache before id) (fun item => item.size config) (cache.laidOut config id) +
        bytes) :
    Consistent config pending after := by
  have itemAt : ∀ location, after.itemAt config location = cache.itemAt config location :=
    itemAt_recount segments
  have state : ∀ other, (after.segment other).state = (cache.segment other).state := by
    intro other
    rw [segments]
    by_cases here : other = id
    · subst here
      rw [Function.update_self]
      rfl
    · rw [Function.update_of_ne here]
  have tag : ∀ other, (after.segment other).tag = (cache.segment other).tag := by
    intro other
    rw [segments]
    by_cases here : other = id
    · subst here
      rw [Function.update_self]
      rfl
    · rw [Function.update_of_ne here]
  have itemsOf : ∀ other, (after.segment other).items = (cache.segment other).items := by
    intro other
    rw [segments]
    by_cases here : other = id
    · subst here
      rw [Function.update_self]
      rfl
    · rw [Function.update_of_ne here]
  have present : ∀ {location item}, Present config cache location item →
      Present config after location item := fun {location item} held =>
    ⟨(itemAt location).trans held.item, by rw [state]; exact held.state, held.range,
      by rw [tag]; exact held.tag⟩
  have named : ∀ {location}, after.table.Named location ↔ cache.table.Named location := by
    intro location
    unfold Table.Named
    rw [slots]
  have counts : ∀ other offset, Counts after pending other offset ↔
      Counts cache pending other offset := by
    intro other offset
    have same : after.locationAt other offset = cache.locationAt other offset := by
      unfold Cache.locationAt
      rw [tag]
    unfold Counts
    rw [same, named]
  have sums : ∀ other weight, total (Counts after pending other) weight (after.laidOut config other) =
      total (Counts cache pending other) weight (cache.laidOut config other) := by
    intro other weight
    have laidOut : after.laidOut config other = cache.laidOut config other := by
      unfold Cache.laidOut
      rw [itemsOf]
    rw [laidOut]
    exact total_congr fun placed _ => counts other placed.1
  exact {
    sound := fun slot => by
      rw [slots] at slot
      obtain ⟨item, held, rest⟩ := consistent.sound slot
      exact ⟨item, present held, rest⟩
    unique := fun slot slot' here there same => by
      rw [slots] at slot slot'
      exact consistent.unique slot slot' ((itemAt _).symm.trans here) ((itemAt _).symm.trans there)
        same
    inHand := fun {location} held => by
      obtain ⟨unnamed, item, here⟩ := inHand held
      exact ⟨fun named' => unnamed (named.mp named'), item, present here⟩
    items := fun {other} held => by
      rw [state] at held
      rw [sums, segments]
      by_cases here : other = id
      · subst here
        rw [Function.update_self, countItems, ← consistent.items held]
        rfl
      · rw [Function.update_of_ne here, consistent.items held]
        exact (total_congr fun placed _ => others other here placed.1).symm
    bytes := fun {other} held => by
      rw [state] at held
      rw [sums, segments]
      by_cases here : other = id
      · subst here
        rw [Function.update_self, countBytes, ← add_assoc, ← consistent.bytes held]
        rfl
      · rw [Function.update_of_ne here, consistent.bytes held]
        congr 1
        exact (total_congr fun placed _ => others other here placed.1).symm
    laid := fun {other} held => by
      rw [state] at held
      have laid := consistent.laid held
      rw [segments]
      by_cases here : other = id
      · subst here
        rw [Function.update_self]
        exact ⟨laid.writeOffset, laid.fits⟩
      · rw [Function.update_of_ne here]
        exact laid
    fresh := fun {other} held => by
      rw [state] at held
      have blank := consistent.fresh held
      rw [segments]
      by_cases here : other = id
      · subst here
        -- A fresh segment has no item whose counting could change.
        have none_ := consistent.blank_zero held
        rw [none_, total_nil, total_nil] at countItems countBytes
        rw [Function.update_self]
        refine ⟨blank.items, ?_, ?_, blank.writeOffset⟩
        · show (cache.segment other).liveItems + items = 0
          rw [blank.liveItems]
          omega
        · show (cache.segment other).liveBytes + bytes = config.initialOffset
          rw [blank.liveBytes]
          omega
      · rw [Function.update_of_ne here]
        exact blank }

/-- What counts, with an item in hand and without. -/
theorem total_inHand {location : Location} {item : Item} (weight : Item → Int)
    (unnamed : ¬ cache.table.Named location) (present : Present config cache location item) :
    total (Counts cache (some location) location.segment) weight
        (cache.laidOut config location.segment) =
      total (Counts cache none location.segment) weight
        (cache.laidOut config location.segment) + weight item := by
  have here := locationAt_of_tag present.tag
  refine total_drop (Segment.layOut_nodup _ _) (Segment.itemAt_iff.mp present.item)
    (.inr (congrArg some here.symm)) ?_ ?_
  · rintro (named | inHand)
    · rw [here] at named
      exact unnamed named
    · cases inHand
  · intro offset apart
    unfold Counts
    constructor
    · rintro (named | inHand)
      · exact .inl named
      · exact absurd (congrArg Location.offset (Option.some.inj inHand)).symm apart
    · rintro (named | inHand)
      · exact .inl named
      · cases inHand

theorem counts_elsewhere {location : Location} {other : SegId} (apart : other ≠ location.segment)
    (offset : Nat) : Counts cache (some location) other offset ↔ Counts cache none other offset := by
  unfold Counts
  constructor
  · rintro (named | inHand)
    · exact .inl named
    · exact absurd (congrArg Location.segment (Option.some.inj inHand)).symm apart
  · rintro (named | inHand)
    · exact .inl named
    · cases inHand

/-- **An item in hand is accounted for as gone.** -/
theorem consistent_accounted {location : Location} {item : Item}
    (consistent : Consistent config (some location) cache)
    (item_ : cache.itemAt config location = some item)
    (slots : after.table.slot = cache.table.slot)
    (segments : after.segment = Function.update cache.segment location.segment
      ((cache.segment location.segment).recount (-1) (-item.size config))) :
    Consistent config none after := by
  obtain ⟨unnamed, held, present⟩ := consistent.inHand rfl
  cases present.item.symm.trans item_
  refine consistent_recount consistent slots segments (fun inHand => by cases inHand) ?_ ?_ ?_
  · exact fun other apart offset => (counts_elsewhere apart offset).symm
  · rw [total_inHand (fun _ => 1) unnamed present]
    omega
  · rw [total_inHand (fun item => item.size config) unnamed present]
    omega

/-- **An item is taken in hand.** -/
theorem consistent_taken {location : Location} {item : Item}
    (consistent : Consistent config none cache) (unnamed : ¬ cache.table.Named location)
    (present : Present config cache location item)
    (slots : after.table.slot = cache.table.slot)
    (segments : after.segment = Function.update cache.segment location.segment
      ((cache.segment location.segment).recount 1 (item.size config))) :
    Consistent config (some location) after := by
  refine consistent_recount consistent slots segments ?_ ?_ ?_ ?_
  · rintro other inHand
    cases inHand
    exact ⟨unnamed, item, present⟩
  · exact fun other apart offset => counts_elsewhere apart offset
  · exact total_inHand (fun _ => 1) unnamed present
  · exact total_inHand (fun item => item.size config) unnamed present

/-- The counters of a segment with an item in hand are positive. -/
theorem counters_positive {location : Location} {item : Item}
    (consistent : Consistent config (some location) cache)
    (item_ : cache.itemAt config location = some item) :
    1 ≤ (cache.segment location.segment).liveItems ∧
      (item.size config : Int) ≤ (cache.segment location.segment).liveBytes := by
  obtain ⟨unnamed, held, present⟩ := consistent.inHand rfl
  cases present.item.symm.trans item_
  rw [consistent.items present.state, consistent.bytes present.state,
    total_inHand (fun _ => 1) unnamed present,
    total_inHand (fun item => item.size config) unnamed present]
  have items : 0 ≤ total (Counts cache none location.segment) (fun _ => 1)
      (cache.laidOut config location.segment) := total_nonneg fun _ => by omega
  have bytes : 0 ≤ total (Counts cache none location.segment) (fun item => item.size config)
      (cache.laidOut config location.segment) := total_nonneg fun _ => by omega
  constructor <;> omega

/-! ### New items -/

/-- A segment with an item written behind its last one. -/
def Segment.extend (config : Config) (segment : Segment) (item : Item) : Segment :=
  { segment with
    items := segment.items ++ [item]
    writeOffset := segment.writeOffset + item.size config }

section Append

variable {id : SegId} {item : Item}
  (segments : after.segment =
    Function.update cache.segment id ((cache.segment id).extend config item))

include segments

theorem laidOut_appended (laid : (cache.segment id).Laid config) :
    after.laidOut config id =
      cache.laidOut config id ++ [((cache.segment id).writeOffset, item)] := by
  unfold Cache.laidOut
  rw [segments, Function.update_self, Segment.extend, Segment.layOut_append, laid.writeOffset]
  rfl

theorem itemAt_appended (laid : (cache.segment id).Laid config) {location : Location} {held : Item}
    (item_ : cache.itemAt config location = some held) :
    after.itemAt config location = some held := by
  by_cases here : location.segment = id
  · subst here
    have placed := Segment.itemAt_iff.mp item_
    refine Segment.itemAt_iff.mpr ?_
    have := laidOut_appended segments laid
    unfold Cache.laidOut at this
    rw [this]
    exact List.mem_append_left _ placed
  · unfold Cache.itemAt at item_ ⊢
    rw [segments, Function.update_of_ne here]
    exact item_

theorem state_appended (other : SegId) :
    (after.segment other).state = (cache.segment other).state := by
  rw [segments]
  by_cases here : other = id
  · subst here
    rw [Function.update_self]
    rfl
  · rw [Function.update_of_ne here]

theorem tag_appended (other : SegId) : (after.segment other).tag = (cache.segment other).tag := by
  rw [segments]
  by_cases here : other = id
  · subst here
    rw [Function.update_self]
    rfl
  · rw [Function.update_of_ne here]

theorem present_appended (laid : (cache.segment id).Laid config) {location : Location} {held : Item}
    (present : Present config cache location held) : Present config after location held :=
  ⟨itemAt_appended segments laid present.item, by rw [state_appended segments]; exact present.state,
    present.range, by rw [tag_appended segments]; exact present.tag⟩

/-- The new item is present, and nothing names it. -/
theorem present_new (laid : (cache.segment id).Laid config)
    (state : holds (cache.segment id).state = true) (range : 1 ≤ id ∧ id ≤ config.cap) :
    Present config after (cache.locationAt id (cache.segment id).writeOffset) item where
  item := by
    refine Segment.itemAt_iff.mpr ?_
    have := laidOut_appended segments laid
    unfold Cache.laidOut at this
    rw [Cache.locationAt_segment, this]
    exact List.mem_append_right _ (List.mem_singleton.mpr rfl)
  state := by
    rw [state_appended segments]
    exact state
  range := range
  tag := (tag_appended segments id).symm

omit segments in
/-- No item begins at the write offset. -/
theorem unnamed_new (consistent : Consistent config pending cache)
    (laid : (cache.segment id).Laid config) :
    ¬ cache.table.Named (cache.locationAt id (cache.segment id).writeOffset) := by
  rintro ⟨b, i, entry, slot, here⟩
  obtain ⟨held, present, -⟩ := consistent.sound slot
  have placed := Segment.itemAt_iff.mp present.item
  rw [here] at placed
  have bounds := (Segment.mem_layOut_bounds placed).2
  have positive : 0 < held.size config := held.size_pos
  have fits := laid.writeOffset
  simp only [Cache.locationAt] at bounds
  omega

/-- A new item that is not counted yet changes no mapping. -/
theorem maps_appended (consistent : Consistent config pending cache)
    (laid : (cache.segment id).Laid config) (slots : after.table.slot = cache.table.slot)
    {key : Key} {mapping : Mapping} :
    Maps config after key mapping ↔ Maps config cache key mapping := by
  unfold Maps
  rw [slots]
  constructor
  · rintro ⟨b, i, tag, slot, item', same⟩
    obtain ⟨held, present, -⟩ := consistent.sound slot
    have := itemAt_appended segments laid present.item
    cases this.symm.trans item'
    exact ⟨b, i, tag, slot, present.item, same⟩
  · rintro ⟨b, i, tag, slot, item', same⟩
    exact ⟨b, i, tag, slot, itemAt_appended segments laid item', same⟩

/-- **An item is written behind the last one**, and does not count yet. -/
theorem consistent_appended (consistent : Consistent config none cache)
    (state : isLaid (cache.segment id).state = true)
    (room : (cache.segment id).writeOffset + item.size config ≤ config.segmentSize)
    (slots : after.table.slot = cache.table.slot) : Consistent config none after := by
  have laid := consistent.laid state
  have named : ∀ {location}, after.table.Named location ↔ cache.table.Named location := by
    intro location
    unfold Table.Named
    rw [slots]
  have counts : ∀ other offset, Counts after none other offset ↔ Counts cache none other offset := by
    intro other offset
    have same : after.locationAt other offset = cache.locationAt other offset := by
      unfold Cache.locationAt
      rw [tag_appended segments]
    unfold Counts
    rw [same, named]
  have uncounted : ¬ Counts cache none id (cache.segment id).writeOffset := by
    rintro (here | here)
    · exact unnamed_new consistent laid here
    · cases here
  have sums : ∀ other weight, total (Counts after none other) weight (after.laidOut config other) =
      total (Counts cache none other) weight (cache.laidOut config other) := by
    intro other weight
    rw [total_congr fun placed _ => counts other placed.1]
    by_cases here : other = id
    · subst here
      rw [laidOut_appended segments laid, total_append, total_cons, total_nil, if_neg uncounted]
      ring
    · unfold Cache.laidOut
      rw [segments, Function.update_of_ne here]
  have counters : ∀ other, (after.segment other).liveItems = (cache.segment other).liveItems ∧
      (after.segment other).liveBytes = (cache.segment other).liveBytes := by
    intro other
    rw [segments]
    by_cases here : other = id
    · subst here
      rw [Function.update_self]
      exact ⟨rfl, rfl⟩
    · rw [Function.update_of_ne here]
      exact ⟨rfl, rfl⟩
  exact {
    sound := fun slot => by
      rw [slots] at slot
      obtain ⟨held, present, rest⟩ := consistent.sound slot
      exact ⟨held, present_appended segments laid present, rest⟩
    unique := fun slot slot' here there same => by
      rw [slots] at slot slot'
      obtain ⟨held, present, -⟩ := consistent.sound slot
      obtain ⟨held', present', -⟩ := consistent.sound slot'
      cases (itemAt_appended segments laid present.item).symm.trans here
      cases (itemAt_appended segments laid present'.item).symm.trans there
      exact consistent.unique slot slot' present.item present'.item same
    inHand := fun inHand => by cases inHand
    items := fun {other} held => by
      rw [state_appended segments] at held
      rw [sums, (counters other).1]
      exact consistent.items held
    bytes := fun {other} held => by
      rw [state_appended segments] at held
      rw [sums, (counters other).2]
      exact consistent.bytes held
    laid := fun {other} held => by
      rw [state_appended segments] at held
      have laid' := consistent.laid held
      rw [segments]
      by_cases here : other = id
      · subst here
        rw [Function.update_self]
        refine ⟨?_, room⟩
        rw [Segment.extend, totalSize_append, laid'.writeOffset]
        simp [Nat.add_assoc]
      · rw [Function.update_of_ne here]
        exact laid'
    fresh := fun {other} held => by
      rw [state_appended segments] at held
      have blank := consistent.fresh held
      rw [segments]
      by_cases here : other = id
      · subst here
        have holding := holds_of_isLaid state
        rw [not_holds_of_isFresh held] at holding
        cases holding
      · rw [Function.update_of_ne here]
        exact blank }

end Append

/-! ### New entries -/

section Publish

variable {b i : Nat} {entry : Entry Location} {item : Item}
  (slots : after.table.slot = (cache.table.setSlot (b, i) (some entry)).slot)
  (segments : after.segment = cache.segment)

include segments in
theorem itemAt_of_segments (location : Location) :
    after.itemAt config location = cache.itemAt config location := by
  unfold Cache.itemAt
  rw [segments]

include segments in
theorem present_of_segments {location : Location} {held : Item}
    (present : Present config cache location held) : Present config after location held :=
  ⟨(itemAt_of_segments segments location).trans present.item, by rw [segments]; exact present.state,
    present.range, by rw [segments]; exact present.tag⟩

include slots in
/-- A slot of the new table. -/
theorem slot_published {b' i' : Nat} {other : Entry Location}
    (slot : after.table.slot b' i' = some other) :
    ((b', i') = (b, i) ∧ other = entry) ∨
      ((b', i') ≠ (b, i) ∧ cache.table.slot b' i' = some other) := by
  rw [slots, Table.setSlot_slot] at slot
  split at slot
  · exact .inl ⟨‹_›, (Option.some.inj slot).symm⟩
  · exact .inr ⟨‹_›, slot⟩

include slots in
theorem slot_of_published {b' i' : Nat} (apart : (b', i') ≠ (b, i)) :
    after.table.slot b' i' = cache.table.slot b' i' := by
  rw [slots, Table.setSlot_slot, if_neg apart]

include slots in
theorem slot_new : after.table.slot b i = some entry := by
  rw [slots, Table.setSlot_slot, if_pos rfl]

include slots segments in
/-- **An item in hand takes a slot**: the slot was empty, or held another item of the key, which is
then in hand. -/
theorem consistent_published {left : Option Location}
    (consistent : Consistent config (some entry.location) cache)
    (item_ : cache.itemAt config entry.location = some item) (alive : item.deleted = false)
    (candidate : (b, i) ∈ Table.candidates config.geometry item.key)
    (tag : entry.tag = config.geometry.tag item.key)
    (was : left = (cache.table.slot b i).map Entry.location)
    (only : ∀ mapping, Maps config cache item.key mapping → left = some mapping.location) :
    Consistent config left after := by
  obtain ⟨unnamed, held, present⟩ := consistent.inHand rfl
  cases present.item.symm.trans item_
  have itemAt : ∀ location, after.itemAt config location = cache.itemAt config location :=
    itemAt_of_segments segments
  -- No other slot holds an item of this key.
  have lone : ∀ {b' i' : Nat} {other : Entry Location} {item' : Item}, (b', i') ≠ (b, i) →
      cache.table.slot b' i' = some other → cache.itemAt config other.location = some item' →
      item'.key ≠ item.key := by
    intro b' i' other item' apart slot' there same
    have maps := consistent.maps_of_slot slot' there
    rw [same] at maps
    rw [only _ maps] at was
    obtain ⟨old, slot, here⟩ := Option.map_eq_some_iff.mp was.symm
    exact apart (consistent.slot_unique slot' slot here.symm)
  have counts : ∀ id offset, Counts after left id offset ↔
      Counts cache (some entry.location) id offset := by
    intro id offset
    have same : after.locationAt id offset = cache.locationAt id offset := by
      unfold Cache.locationAt
      rw [segments]
    unfold Counts
    rw [same]
    constructor
    · rintro (⟨b', i', other, slot', here⟩ | here)
      · rcases slot_published slots slot' with ⟨-, rfl⟩ | ⟨-, slot''⟩
        · exact .inr (congrArg some here)
        · exact .inl ⟨b', i', other, slot'', here⟩
      · rw [was] at here
        obtain ⟨old, slot, here⟩ := Option.map_eq_some_iff.mp here
        exact .inl ⟨b, i, old, slot, here⟩
    · rintro (⟨b', i', other, slot', here⟩ | here)
      · by_cases same : (b', i') = (b, i)
        · cases same
          rw [was, slot']
          exact .inr (congrArg some here)
        · exact .inl ⟨b', i', other, (slot_of_published slots same).trans slot', here⟩
      · exact .inl ⟨b, i, entry, slot_new slots, Option.some.inj here⟩
  have sums : ∀ id weight, total (Counts after left id) weight (after.laidOut config id) =
      total (Counts cache (some entry.location) id) weight (cache.laidOut config id) := by
    intro id weight
    have laidOut : after.laidOut config id = cache.laidOut config id := by
      unfold Cache.laidOut
      rw [segments]
    rw [laidOut]
    exact total_congr fun placed _ => counts id placed.1
  exact {
    sound := fun {b' i' other} slot' => by
      rcases slot_published slots slot' with ⟨same, rfl⟩ | ⟨-, slot''⟩
      · cases same
        exact ⟨item, present_of_segments segments present, alive, candidate, tag⟩
      · obtain ⟨held, here, rest⟩ := consistent.sound slot''
        exact ⟨held, present_of_segments segments here, rest⟩
    unique := fun {b' i' b'' i'' other other' item' item''} slot' slot'' here there same => by
      rw [itemAt] at here there
      rcases slot_published slots slot' with ⟨at_, rfl⟩ | ⟨apart, was'⟩
      · cases item_.symm.trans here
        rcases slot_published slots slot'' with ⟨at_', rfl⟩ | ⟨apart', was''⟩
        · exact at_.trans at_'.symm
        · exact absurd same.symm (lone apart' was'' there)
      · rcases slot_published slots slot'' with ⟨at_', rfl⟩ | ⟨apart', was''⟩
        · cases item_.symm.trans there
          exact absurd same (lone apart was' here)
        · exact consistent.unique was' was'' here there same
    inHand := fun {location} held => by
      rw [was] at held
      obtain ⟨old, slot, rfl⟩ := Option.map_eq_some_iff.mp held
      refine ⟨?_, ?_⟩
      · rintro ⟨b', i', other, slot', here⟩
        rcases slot_published slots slot' with ⟨-, rfl⟩ | ⟨apart, slot''⟩
        · exact unnamed ⟨b, i, old, slot, here.symm⟩
        · exact apart (consistent.slot_unique slot'' slot here)
      · obtain ⟨held, here, -⟩ := consistent.sound slot
        exact ⟨held, present_of_segments segments here⟩
    items := fun {id} state => by
      rw [segments] at state ⊢
      rw [sums]
      exact consistent.items state
    bytes := fun {id} state => by
      rw [segments] at state ⊢
      rw [sums]
      exact consistent.bytes state
    laid := fun {id} state => by
      rw [segments] at state ⊢
      exact consistent.laid state
    fresh := fun {id} state => by
      rw [segments] at state ⊢
      exact consistent.fresh state }

include slots segments in
/-- What the new table maps keys to. -/
theorem maps_published (consistent : Consistent config pending cache)
    (item_ : cache.itemAt config entry.location = some item)
    (was : ∀ old, cache.table.slot b i = some old →
      ∀ held, cache.itemAt config old.location = some held → held.key = item.key)
    (only : ∀ mapping, Maps config cache item.key mapping →
      ∃ old, cache.table.slot b i = some old ∧ old.location = mapping.location)
    {key : Key} {mapping : Mapping} :
    Maps config after key mapping ↔
      (key = item.key ∧ mapping = ⟨item, entry.freq, entry.location⟩) ∨
        (key ≠ item.key ∧ Maps config cache key mapping) := by
  have itemAt : ∀ location, after.itemAt config location = cache.itemAt config location :=
    itemAt_of_segments segments
  constructor
  · rintro ⟨b', i', tag, slot', item', rfl⟩
    rw [itemAt] at item'
    rcases slot_published slots slot' with ⟨same, rfl⟩ | ⟨apart, slot''⟩
    · left
      cases item_.symm.trans item'
      exact ⟨rfl, rfl⟩
    · right
      refine ⟨fun same => ?_, b', i', tag, slot'', item', rfl⟩
      obtain ⟨old, slot, here⟩ := only mapping ⟨b', i', tag, slot'', item', same⟩
      exact apart (consistent.slot_unique slot'' slot here.symm)
  · rintro (⟨rfl, rfl⟩ | ⟨apart, b', i', tag, slot', item', rfl⟩)
    · exact ⟨b, i, entry.tag, slot_new slots, (itemAt _).trans item_, rfl⟩
    · refine ⟨b', i', tag, ?_, (itemAt _).trans item', rfl⟩
      rw [slot_of_published slots]
      · exact slot'
      · intro same
        cases same
        exact apart (was _ slot' _ item')

end Publish

end CacheRs.Segcache
