/-
**Publishing an item.**

* `Published`: the key is mapped to the item in hand;
* `returns_publishItem`: **an item in hand is published**, or taken away again when the table is full.
-/

import CacheRs.Segcache.Removals

set_option linter.unusedSectionVars false

namespace CacheRs.Segcache

open Hashtable (SlotRef)
open Segments (SegId State)
open Sequential Procedure

variable {config : Config} {chain : Nat → List SegId} {cache middle after : Cache}
  {location new : Location} {item : Item} {key : Key}

/-- The key is mapped to the item that was in hand. -/
structure Published (config : Config) (item : Item) (new : Location) (cache after : Cache) : Prop where
  sane : ∃ chain, Sane config Hand.empty chain after
  now : after.now = cache.now
  ranked : Ranked config after
  own : ∃ freq, Maps config after item.key ⟨item, freq, new⟩ ∧
    ((∀ mapping, ¬ Maps config cache item.key mapping) → freq = 1)
  age : SameAge (cache.segment new.segment) (after.segment new.segment)
  others : ∀ other, other ≠ item.key → ∀ mapping, Maps config after other mapping →
    ∃ old, Maps config cache other old ∧ old.item = mapping.item
  awake : ∀ other, other ≠ item.key → ∀ mapping, Awake config after other mapping →
    ∃ old, Awake config cache other old ∧ old.item = mapping.item
  asleep : ∀ i, (cache.segment i).state = .draining → (after.segment i).state = .draining
  kept : config.policy.isMerge = false → ∀ other, other ≠ item.key → ∀ mapping,
    Maps config after other mapping ↔ Maps config cache other mapping

/-- The table with the new entry. -/
def Cache.entered (cache : Cache) (ref : Nat × Nat) (entry : Entry Location) : Cache :=
  { cache with table := cache.table.setSlot ref (some entry) }

section Publish

variable (holding : Holding config new item cache) (alive : item.deleted = false)

include holding

/-- The new entry is in order: what it has replaced is in hand. -/
theorem Holding.entered (alive : item.deleted = false) {ref : Nat × Nat} {freq : BitVec 8}
    (candidate : ref ∈ Table.candidates config.geometry item.key) {left : Option Location}
    (was : left = (cache.table.slot ref.1 ref.2).map Entry.location)
    (only : ∀ mapping, Maps config cache item.key mapping → left = some mapping.location) :
    Settled config left (cache.entered ref ⟨config.geometry.tag item.key, freq, new⟩) := by
  obtain ⟨b, i⟩ := ref
  obtain ⟨chain, orderly⟩ := holding.settled.orderly
  have slots : (cache.entered (b, i) ⟨config.geometry.tag item.key, freq, new⟩).table.slot =
      (cache.table.setSlot (b, i) (some ⟨config.geometry.tag item.key, freq, new⟩)).slot := rfl
  have segments : (cache.entered (b, i) ⟨config.geometry.tag item.key, freq, new⟩).segment =
      cache.segment := rfl
  exact ⟨consistent_published slots segments holding.settled.consistent holding.item alive candidate
    rfl was only, chain, orderly⟩

/-- What the keys are mapped to behind the new entry. -/
theorem Holding.maps_entered {ref : Nat × Nat} {freq : BitVec 8}
    (was : ∀ old, cache.table.slot ref.1 ref.2 = some old →
      ∀ held, cache.itemAt config old.location = some held → held.key = item.key)
    (only : ∀ mapping, Maps config cache item.key mapping →
      ∃ old, cache.table.slot ref.1 ref.2 = some old ∧ old.location = mapping.location)
    (other : Key) (mapping : Mapping) :
    Maps config (cache.entered ref ⟨config.geometry.tag item.key, freq, new⟩) other mapping ↔
      (other = item.key ∧ mapping = ⟨item, freq, new⟩) ∨
        (other ≠ item.key ∧ Maps config cache other mapping) := by
  obtain ⟨b, i⟩ := ref
  have slots : (cache.entered (b, i) ⟨config.geometry.tag item.key, freq, new⟩).table.slot =
      (cache.table.setSlot (b, i) (some ⟨config.geometry.tag item.key, freq, new⟩)).slot := rfl
  have segments : (cache.entered (b, i) ⟨config.geometry.tag item.key, freq, new⟩).segment =
      cache.segment := rfl
  exact maps_published slots segments holding.settled.consistent holding.item was only

/-- A new entry and what tidies up behind it. -/
theorem Holding.published {ref : Nat × Nat} {freq : BitVec 8}
    (maps : ∀ other mapping,
      Maps config (cache.entered ref ⟨config.geometry.tag item.key, freq, new⟩) other mapping ↔
        (other = item.key ∧ mapping = ⟨item, freq, new⟩) ∨
          (other ≠ item.key ∧ Maps config cache other mapping))
    (fresh : (∀ mapping, ¬ Maps config cache item.key mapping) → freq = 1)
    (tidied : Tidied config (cache.entered ref ⟨config.geometry.tag item.key, freq, new⟩) after) :
    Published config item new cache after where
  sane := tidied.sane
  now := tidied.now
  ranked := tidied.ranked
  own := ⟨freq, (tidied.live _ _ ((maps _ _).mpr (.inl ⟨rfl, rfl⟩)) holding.state).1, fresh⟩
  age := (tidied.live _ _ ((maps _ _).mpr (.inl ⟨rfl, rfl⟩)) holding.state).2
  others other different mapping now := by
    obtain ⟨old, was, same⟩ := tidied.shed.maps now
    rcases (maps _ _).mp was with ⟨again, -⟩ | ⟨-, was'⟩
    · exact absurd again different
    · exact ⟨old, was', same⟩
  awake other different mapping now := by
    obtain ⟨old, was, same⟩ := tidied.wanes.awake other mapping now
    rcases (maps _ _).mp was.1 with ⟨again, -⟩ | ⟨-, was'⟩
    · exact absurd again different
    · exact ⟨old, ⟨was', was.2⟩, same⟩
  asleep := tidied.wanes.asleep
  kept no other different mapping := by
    rw [tidied.kept no, maps]
    simp [different]

end Publish

/-- What is left when an item in hand is given back: no key notices. -/
structure GivenBack (config : Config) (cache after : Cache) : Prop extends Tidied config cache after where
  maps : ∀ key mapping, Maps config after key mapping ↔ Maps config cache key mapping
  step : RoomStep config cache after

/-- What publishing answers: the key is mapped to the item, or the table was full. -/
def Publishes (config : Config) (item : Item) (new : Location) (cache : Cache)
    (result : Except SegcacheError Unit) (after : Cache) : Prop :=
  (result = .ok () ∧ Published config item new cache after) ∨
    (result = .error .hashTableInsertEx ∧ GivenBack config cache after ∧
      ∀ mapping, ¬ Maps config cache item.key mapping)

section Publish

variable (holding : Holding config new item cache)

include holding

/-- A reservation that is given back leaves its bytes written, and nothing counts them. -/
theorem rollbackReservation_apply :
    rollbackReservation config new cache = some ((), cache.accounted config new item) := by
  unfold rollbackReservation
  rw [segmentOf, read_bind, holding.state, if_pos (by rfl)]
  exact removeAt_live holding.settled holding.item holding.state

theorem returns_rollbackReservation :
    Returns (rollbackReservation config new) (fun _ after => GivenBack config cache after) cache := by
  have apply := rollbackReservation_apply holding
  refine returns_of_eq apply ⟨?_, (holding.settled.accounted holding.item).2, .giveBack apply⟩
  obtain ⟨_, after, ran, tidied⟩ := returns_removeAt holding.settled holding.item holding.ranked
  rw [removeAt_live holding.settled holding.item holding.state] at ran
  cases ran
  exact tidied

/-- Behind a candidate whose segment was left claimed, a call waits for ever. -/
theorem waits_asleep {location : Location} (asleep : Asleep config cache location) :
    waitWhileDrainingOrFilling config location (cache.accounted config new item) = none := by
  have same : (cache.accounted config new item).segment location.segment =
        (cache.segment new.segment).recount (-1) (-item.size config) ∧
      location.segment = new.segment ∨
      (cache.accounted config new item).segment location.segment = cache.segment location.segment := by
    by_cases here : location.segment = new.segment
    · refine .inl ⟨?_, here⟩
      rw [here]
      exact setSegment_self ..
    · exact .inr (setSegment_of_ne here _)
  have resolves := asleep.resolves
  have state := asleep.state
  rcases same with ⟨-, here⟩ | same
  · rw [here] at state
    cases holding.state.symm.trans state
  · unfold waitWhileDrainingOrFilling
    rw [read_bind]
    unfold Cache.resolves at resolves ⊢
    rw [same, resolves, state]
    rfl

/-- The entry of a key that is mapped takes the item in hand, and the old item is taken away. -/
theorem returns_replace (alive : item.deleted = false) {mapping : Mapping}
    {slot : SlotRef} (maps : Maps config cache item.key mapping)
    (candidate : (slot.bucket, slot.slot) ∈ Table.candidates config.geometry item.key)
    (tag : slot.tag = config.geometry.tag item.key)
    (entry : cache.table.slot slot.bucket slot.slot =
      some ⟨slot.tag, mapping.freq, mapping.location⟩) :
    ∃ middle, onTable (fun table => table.casLocationAt slot mapping.location new true) cache =
        some (true, middle) ∧
      Returns (removeAt config mapping.location) (fun _ after =>
        Published config item new cache after) middle := by
  have swapped : onTable (fun table => table.casLocationAt slot mapping.location new true) cache =
      some (true, cache.entered (slot.bucket, slot.slot)
        ⟨config.geometry.tag item.key, mapping.freq, new⟩) := by
    have swaps : cache.table.casLocationAt slot mapping.location new true =
        (true, cache.table.setSlot (slot.bucket, slot.slot)
          (some ⟨config.geometry.tag item.key, mapping.freq, new⟩)) := by
      unfold Table.casLocationAt
      rw [entry]
      simp [tag]
    unfold onTable
    rw [exchange_apply]
    dsimp only
    rw [swaps]
    rfl
  refine ⟨_, swapped, ?_⟩
  have settled := @Holding.entered _ _ _ _ holding alive (slot.bucket, slot.slot) mapping.freq
    candidate (some mapping.location) (by rw [entry]; rfl) fun other was => by
      rw [holding.settled.consistent.maps_unique was maps]
  have item_ : (cache.entered (slot.bucket, slot.slot)
      ⟨config.geometry.tag item.key, mapping.freq, new⟩).itemAt config mapping.location =
      some mapping.item := maps.item
  have mapped := @Holding.maps_entered _ _ _ _ holding (slot.bucket, slot.slot) mapping.freq
    (fun old was held here => by
      cases entry.symm.trans was
      cases maps.item.symm.trans here
      exact maps.key) fun other was => ⟨_, entry, by
        rw [holding.settled.consistent.maps_unique was maps]⟩
  refine (returns_removeAt settled item_ (holding.ranked.congr rfl)).mono fun _ after tidied =>
    holding.published mapped (fun none => absurd maps (none mapping)) tidied

/-- **An item in hand is published**, or taken away again when the table is full; behind a candidate
whose segment was left claimed the call does not return. -/
theorem publishItem_spec (alive : item.deleted = false) :
    Returns (publish config item.key new) (fun result after => ∃ answer, result = some answer ∧
      Publishes config item new cache answer after) cache ∨
    ((∃ location, Asleep config cache location) ∧ publish config item.key new cache = none) := by
  unfold publish
  rcases holding.settled.lookup_apply item.key with
    ⟨mapping, slot, maps, found, candidate, tag, entry, awake⟩ | ⟨none, absent⟩ | ⟨location, asleep, unknown⟩
  rotate_right
  · refine .inr ⟨⟨location, asleep⟩, ?_⟩
    rw [bind_apply_of_some unknown]
    dsimp only
    rw [bind_apply_of_some (rollbackReservation_apply holding),
      bind_apply_of_none (waits_asleep holding asleep)]
  all_goals left
  · have unnamed := (holding.settled.consistent.inHand rfl).1
    have different : mapping.location ≠ new := fun same => unnamed (same ▸ maps.named)
    have removable : (cache.segment mapping.location.segment).state.isRemovable = true := by
      rcases awake with same | same <;> rw [same] <;> rfl
    obtain ⟨middle, swapped, removes⟩ := returns_replace holding alive maps candidate tag entry
    rw [returns_bind]
    refine returns_of_eq found ?_
    dsimp only
    rw [if_neg different, segmentOf, returns_bind, returns_read, removable, if_neg (by simp),
      returns_bind]
    refine returns_of_eq swapped ?_
    rw [if_neg (by simp), returns_bind]
    exact removes.mono fun _ after published => (returns_pure _).mpr ⟨_, rfl, .inl ⟨rfl, published⟩⟩
  · rw [returns_bind]
    refine returns_of_eq absent ?_
    dsimp only
    rw [returns_bind]
    have scan : cache.table.scan (cache.verify config item.key) (config.geometry.tag item.key)
        Option.none (Table.candidates config.geometry item.key) = .absent := by
      rcases holding.settled.scan item.key with ⟨_, mapping, _, _, _, maps, _⟩ | ⟨scan, -⟩ |
        ⟨location, scan, -⟩
      · exact absurd maps (none mapping)
      · exact scan
      · have ran : lookupNoFreqUpdate config item.key cache = some
            (cache.table.lookupNoFreqUpdate config.geometry (cache.verify config item.key) item.key,
              cache) := rfl
        rw [absent, Table.lookupNoFreqUpdate, scan] at ran
        cases ran
    cases slot : cache.table.emptySlot config.geometry item.key with
    | none =>
      have full : insertEntry config item.key new cache = some (.full, cache) := by
        unfold insertEntry
        rw [exchange_apply]
        dsimp only
        rw [Table.insert, scan]
        dsimp only
        rw [slot]
      refine returns_of_eq full ?_
      dsimp only
      rw [returns_bind]
      exact (returns_rollbackReservation holding).mono fun _ after tidied =>
        (returns_pure _).mpr ⟨_, rfl, .inr ⟨rfl, tidied, none⟩⟩
    | some ref =>
      have candidate := List.mem_of_find?_eq_some slot
      have empty : cache.table.slot ref.1 ref.2 = Option.none := by
        have := List.find?_some slot
        simpa using this
      have created : insertEntry config item.key new cache =
          some (.created, cache.entered ref ⟨config.geometry.tag item.key, 1, new⟩) := by
        unfold insertEntry
        rw [exchange_apply]
        dsimp only
        rw [Table.insert, scan]
        dsimp only
        rw [slot]
        rfl
      refine returns_of_eq created ((returns_pure _).mpr ⟨_, rfl, .inl ⟨rfl, ?_⟩⟩)
      obtain ⟨chain, orderly⟩ := holding.settled.orderly
      have settled := @Holding.entered _ _ _ _ holding alive ref 1 candidate Option.none
        (by rw [empty]; rfl) fun mapping maps => absurd maps (none mapping)
      have mapped := @Holding.maps_entered _ _ _ _ holding ref 1
        (fun old was => by cases empty.symm.trans was) fun mapping maps => absurd maps (none mapping)
      obtain ⟨chain', orderly'⟩ := settled.orderly
      exact holding.published mapped (fun _ => rfl)
        (Tidied.refl ⟨settled.consistent, orderly'⟩ (holding.ranked.congr rfl))

theorem returns_publishItem (merges : config.Merges) (alive : item.deleted = false) :
    Returns (publish config item.key new) (fun result after => ∃ answer, result = some answer ∧
      Publishes config item new cache answer after) cache :=
  (publishItem_spec holding alive).resolve_right fun ⟨⟨location, asleep⟩, _⟩ =>
    holding.settled.not_asleep merges location asleep

theorem ensures_publishItem (alive : item.deleted = false) :
    Ensures (publish config item.key new) (fun result after => ∃ answer, result = some answer ∧
      Publishes config item new cache answer after) cache := by
  rcases publishItem_spec holding alive with returns | ⟨-, waits⟩
  · exact returns.ensures
  · intro result after ran
    cases waits.symm.trans ran

end Publish

end CacheRs.Segcache
