/-
**The calls.**

* `lookup_apply`: a counted lookup finds what an uncounted one finds, and changes a frequency at most;
* `ensures_replaceAt`: an item in hand takes the place of the one that was looked up, or is given back;
* `ensures_get`, `ensures_delete`, `ensures_cas`, `ensures_numericUpdate`, `ensures_tryIntoNumeric`:
  **what each call leaves**;
* `Reachable.good`: every reachable cache is in order.
-/

import CacheRs.Segcache.Inserts

set_option linter.unusedSectionVars false

namespace CacheRs.Segcache

open Hashtable (SlotRef)
open KeyValue (Value)
open Segments (SegId State bucketTtl getBucketIndex)
open Sequential Procedure

variable {config : Config} {cache middle after last : Cache} {b : Nat} {id : SegId} {key : Key}
  {value : Value} {optional : Optional} {item : Item} {location new old : Location}
  {pending : Option Location}

/-! ### Lookups -/

theorem bumpFreq_slot (table : Table Location) (ref : Nat × Nat) :
    (table.bumpFreq ref).slot = table.slot ∨ ∃ entry freq, table.slot ref.1 ref.2 = some entry ∧
      (table.bumpFreq ref).slot = (table.setSlot ref (some { entry with freq := freq })).slot := by
  unfold Table.bumpFreq
  cases slot : table.slot ref.1 ref.2 with
  | none => exact .inl rfl
  | some entry =>
    dsimp only
    split
    · exact .inr ⟨entry, nextFreq entry.freq (Hashtable.splitMix table.random), rfl, rfl⟩
    · exact .inl rfl

/-- A bump leaves the entries' tags and locations alone. -/
theorem sameEntries_bumpFreq (cache : Cache) (ref : Nat × Nat) :
    SameEntries cache { cache with table := cache.table.bumpFreq ref } := by
  intro b i
  dsimp only
  rcases bumpFreq_slot cache.table ref with same | ⟨entry, freq, slot, same⟩
  · rw [same]
  · rw [same, Table.setSlot_slot]
    by_cases here : (b, i) = ref
    · subst here
      rw [if_pos rfl, slot]
      rfl
    · rw [if_neg here]

/-- **A counted lookup finds what an uncounted one finds.** -/
theorem lookup_apply (config : Config) (key : Key) (cache : Cache) : ∃ found table,
    lookup config key cache = some (found, { cache with table := table }) ∧
      lookupNoFreqUpdate config key cache = some (found, cache) ∧
      SameEntries cache { cache with table := table } := by
  unfold lookup lookupNoFreqUpdate
  rw [exchange_apply, read_apply]
  unfold Table.lookup Table.lookupNoFreqUpdate
  cases scan : cache.table.scan (cache.verify config key) (config.geometry.tag key) none
    (Table.candidates config.geometry key) with
  | found ref => exact ⟨_, _, rfl, rfl, sameEntries_bumpFreq cache ref⟩
  | absent => exact ⟨_, _, rfl, rfl, fun _ _ => rfl⟩
  | unknown location => exact ⟨_, _, rfl, rfl, fun _ _ => rfl⟩

theorem Good.settled (good : Good config cache) : Settled config none cache := by
  obtain ⟨⟨chain, sane⟩, -⟩ := good
  exact sane.settled

theorem Settled.good (settled : Settled config none cache) (ranked : Ranked config cache) :
    Good config cache := by
  obtain ⟨chain, orderly⟩ := settled.orderly
  exact ⟨⟨chain, settled.consistent, orderly⟩, ranked⟩

/-- A cache in order stays so when frequencies change. -/
theorem Good.refreq (good : Good config cache) {table : Table Location}
    (same : SameEntries cache { cache with table := table }) :
    Good config { cache with table := table } := by
  obtain ⟨⟨chain, sane⟩, ranked⟩ := good
  exact ⟨⟨chain, sane.consistent.refreq same rfl, sane.orderly⟩, ranked.congr rfl⟩

theorem awake_of_readable {state : State} (awake : state = .sealed ∨ state = .live) :
    state ≠ .draining := by
  rcases awake with rfl | rfl <;> simp

/-- What a lookup has found can be written to. -/
theorem removable_of_awake {state : State} (awake : state = .sealed ∨ state = .live) :
    state.isRemovable = true := by
  rcases awake with rfl | rfl <;> rfl

/-- **What reading leaves**, and that it sees what the key is mapped to. -/
theorem ensures_get (good : Good config cache) (key : Key) (updateFreq : Bool) :
    Ensures (get config key updateFreq) (fun view after => Good config after ∧
      after.now = cache.now ∧ Wanes config cache after ∧
      ∀ seen, view = some seen → ∃ mapping, Awake config cache key mapping ∧
        mapping.item = seen.item) cache := by
  obtain ⟨found, table, counted, uncounted, same⟩ := lookup_apply config key cache
  -- Both lookups leave the cache in order, and find the same.
  have looked : ∃ table,
      (if updateFreq then lookup config key else lookupNoFreqUpdate config key) cache =
        some (found, { cache with table := table }) ∧
      SameEntries cache { cache with table := table } := by
    by_cases update : updateFreq = true
    · rw [if_pos update]
      exact ⟨table, counted, same⟩
    · rw [if_neg update]
      exact ⟨cache.table, uncounted, fun _ _ => rfl⟩
  obtain ⟨table, ran, same⟩ := looked
  have good' := good.refreq same
  have wanes : Wanes config cache { cache with table := table } := same.wanes rfl
  have sees : ∀ hit item, found = .found hit → cache.itemAt config hit.location = some item →
      ∃ mapping, Awake config cache key mapping ∧ mapping.item = item := by
    rintro hit item rfl there
    rcases good.settled.lookup_apply key with ⟨mapping, slot, maps, looked, -, -, -, awake⟩ |
      ⟨-, looked⟩ | ⟨_, -, looked⟩
    · cases uncounted.symm.trans looked
      refine ⟨mapping, ⟨maps, awake_of_readable awake⟩, ?_⟩
      exact Option.some.inj (maps.item.symm.trans there)
    · cases uncounted.symm.trans looked
    · cases uncounted.symm.trans looked
  generalize afterwards : ({ cache with table := table } : Cache) = middle at ran good' wanes
  have now : middle.now = cache.now := by rw [← afterwards]
  have items : ∀ location, middle.itemAt config location = cache.itemAt config location := by
    rw [← afterwards]
    exact fun _ => rfl
  unfold get
  dsimp only
  split at ran
  all_goals
    rename_i update
    first | rw [if_pos update] | rw [if_neg update]
    rw [ensures_bind]
    refine (returns_of_eq ran ?_).ensures
    cases found with
    | absent => exact (ensures_pure _).mpr ⟨good', now, wanes, fun _ no => by cases no⟩
    | unknown _ => exact ensures_diverge.mpr trivial
    | found hit =>
      dsimp only
      rw [ensures_bind, ensures_read]
      refine Ensures.ite (fun _ => (ensures_pure _).mpr ⟨good', now, wanes, fun _ no => by cases no⟩)
        fun _ => ?_
      rw [ensures_bind, ensures_read]
      cases there : middle.itemAt config hit.location with
      | none => exact ensures_diverge.mpr trivial
      | some item =>
        dsimp only
        rw [modifySegment, ensures_bind, ensures_change, segmentOf, ensures_bind, ensures_read]
        refine (ensures_pure _).mpr ⟨?_, now, wanes.trans (counted_wanes _), fun seen same => ?_⟩
        · obtain ⟨⟨chain, sane⟩, ranked⟩ := good'
          exact ⟨⟨chain, sane.counted _ fun _ => Nat.succ_pos _⟩, ranked.congr rfl⟩
        · cases same
          exact sees hit item rfl ((items _).symm.trans there)

/-! ### Items that change where they lie -/

/-- The cache with an item changed where it lies. -/
def Cache.altered (config : Config) (cache : Cache) (change : Item → Item) (location : Location) :
    Cache :=
  cache.setSegment location.segment
    ((cache.segment location.segment).altered config change location.offset)

theorem altered_shape {change : Item → Item} :
    (cache.altered config change location).shape = cache.shape := by
  refine Shape.ext (funext fun i => ?_) rfl rfl rfl rfl rfl
  show (Function.update cache.segment _ _ i).node = (cache.segment i).node
  by_cases same : i = location.segment
  · subst same
    rw [Function.update_self]
    rfl
  · rw [Function.update_of_ne same]

/-- What a key is mapped to changes where it lies. -/
theorem Good.altered {change : Item → Item} (good : Good config cache) {freq : BitVec 8}
    (maps : Maps config cache key ⟨item, freq, location⟩)
    (keeps : (change item).key = item.key ∧ (change item).size config = item.size config)
    (alive : (change item).deleted = item.deleted) :
    Good config (cache.altered config change location) := by
  obtain ⟨⟨chain, sane⟩, ranked⟩ := good
  have tag := (sane.consistent.present_of_maps maps).1.tag
  refine ⟨⟨chain, sane.consistent.altered rfl rfl maps.item keeps tag fun _ => alive, ?_⟩,
    ranked.congr rfl⟩
  rw [altered_shape]
  exact sane.orderly

/-- What a user reads of an item. -/
abbrev Content := Value × Optional

def Item.content (item : Item) : Content := (item.value, item.optional)

/-- What can be read for the key is this, and for any other key what could be. -/
structure Sets (config : Config) (key : Key) (content : Option Content) (cache after : Cache) : Prop where
  own : ∀ mapping, Awake config after key mapping → content = some mapping.item.content
  others : ∀ other, other ≠ key → ∀ mapping, Awake config after other mapping →
    ∃ old, Awake config cache other old ∧ old.item = mapping.item

theorem Sets.before {content : Option Content} (wanes : Wanes config cache middle)
    (sets : Sets config key content middle after) : Sets config key content cache after where
  own := sets.own
  others other different mapping awake := by
    obtain ⟨old, was, same⟩ := sets.others other different mapping awake
    obtain ⟨older, wasOlder, sameOlder⟩ := wanes.awake other old was
    exact ⟨older, wasOlder, sameOlder.trans same⟩

theorem Sets.behind {content : Option Content} (sets : Sets config key content cache middle)
    (wanes : Wanes config middle after) : Sets config key content cache after where
  own mapping awake := by
    obtain ⟨old, was, same⟩ := wanes.awake key mapping awake
    rw [sets.own old was, same]
  others other different mapping awake := by
    obtain ⟨old, was, same⟩ := wanes.awake other mapping awake
    obtain ⟨older, wasOlder, sameOlder⟩ := sets.others other different old was
    exact ⟨older, wasOlder, sameOlder.trans same⟩

theorem altered_state {change : Item → Item} (i : SegId) :
    ((cache.altered config change location).segment i).state = (cache.segment i).state := by
  show (Function.update cache.segment _ _ i).state = _
  by_cases same : i = location.segment
  · subst same
    rw [Function.update_self]
    rfl
  · rw [Function.update_of_ne same]

/-- What the keys are mapped to behind the change of an item where it lies. -/
theorem Consistent.maps_altered {change : Item → Item} (consistent : Consistent config pending cache)
    (sizes : ∀ held, cache.itemAt config location = some held →
      (change held).size config = held.size config)
    (tag : location.tag = (cache.segment location.segment).tag) {mapping : Mapping}
    (maps : Maps config (cache.altered config change location) key mapping) :
    (mapping.location = location ∧ ∃ held, cache.itemAt config location = some held ∧
      mapping.item = change held) ∨
    (mapping.location ≠ location ∧ Maps config cache key mapping) := by
  have segments : (cache.altered config change location).segment =
      Function.update cache.segment location.segment
        ((cache.segment location.segment).altered config change location.offset) := rfl
  exact Segcache.maps_altered segments sizes consistent rfl tag maps

/-- What a key is mapped to changes where it lies, and is read so. -/
theorem sets_altered {change : Item → Item} (settled : Settled config none cache) {freq : BitVec 8}
    (maps : Maps config cache key ⟨item, freq, location⟩)
    (keeps : (change item).key = item.key ∧ (change item).size config = item.size config) :
    Sets config key (some (change item).content) cache (cache.altered config change location) := by
  have tag := (settled.consistent.present_of_maps maps).1.tag
  have sizes : ∀ held, cache.itemAt config location = some held →
      (change held).size config = held.size config := by
    intro held here
    cases maps.item.symm.trans here
    exact keeps.2
  refine ⟨fun mapping awake => ?_, fun other different mapping awake => ?_⟩
  · rcases settled.consistent.maps_altered sizes tag awake.1 with
      ⟨-, held, here, same⟩ | ⟨apart, was⟩
    · cases maps.item.symm.trans here
      rw [same]
    · cases settled.consistent.maps_unique maps was
      exact absurd rfl apart
  · rcases settled.consistent.maps_altered sizes tag awake.1 with
      ⟨-, held, here, same⟩ | ⟨-, was⟩
    · cases maps.item.symm.trans here
      refine absurd ?_ different
      rw [← awake.1.key, same, keeps.1, maps.key]
    · exact ⟨mapping, ⟨was, fun asleep => awake.2 ((altered_state _).trans asleep)⟩, rfl⟩

/-- What an update of a number answers: the key's number is changed, or nothing is. -/
def Updates (config : Config) (key : Key) (op : UInt64 → UInt64) (cache : Cache)
    (result : Except SegcacheError UInt64) (after : Cache) : Prop :=
  ((∃ error, result = .error error) ∧ Wanes config cache after) ∨
    ∃ mapping number, Awake config cache key mapping ∧ mapping.item.value = .u64 number ∧
      result = .ok (op number) ∧
      Sets config key (some (.u64 (op number), mapping.item.optional)) cache after

/-- **What an update of a number leaves.** -/
theorem ensures_numericUpdate (good : Good config cache) (key : Key) (op : UInt64 → UInt64) :
    Ensures (numericUpdate config key op) (fun result after => Good config after ∧
      after.now = cache.now ∧ Updates config key op cache result after) cache := by
  obtain ⟨found, table, counted, uncounted, same⟩ := lookup_apply config key cache
  have good' := good.refreq same
  have wanes : Wanes config cache { cache with table := table } := same.wanes rfl
  have refused : ∀ error, Updates config key op cache (.error error) { cache with table := table } :=
    fun error => .inl ⟨⟨error, rfl⟩, wanes⟩
  unfold numericUpdate
  rw [ensures_bind]
  refine (returns_of_eq counted ?_).ensures
  rcases good.settled.lookup_apply key with ⟨mapping, slot, maps, ran, -, tag, entry, awake⟩ |
    ⟨-, ran⟩ |
    ⟨_, -, ran⟩
  · obtain ⟨rfl, -⟩ := Prod.mk.inj (Option.some.inj (uncounted.symm.trans ran))
    dsimp only
    rw [ensures_bind, ensures_read]
    refine Ensures.ite (fun _ => (ensures_pure _).mpr ⟨good', rfl, refused _⟩) fun _ => ?_
    -- The key is mapped to the same item behind the bump.
    have item : ({ cache with table := table } : Cache).itemAt config mapping.location =
        some mapping.item := maps.item
    have bumped : ∃ freq, Maps config { cache with table := table } key
        ⟨mapping.item, freq, mapping.location⟩ := by
      obtain ⟨now, slot', -, here⟩ := same.symm.slot entry
      have slot' : ({ cache with table := table } : Cache).table.slot slot.bucket slot.slot =
          some ⟨now.tag, now.freq, mapping.location⟩ := by
        have location : now.location = mapping.location := here
        rw [slot', ← location]
      exact ⟨now.freq, _, _, _, slot', item, maps.key⟩
    obtain ⟨freq, maps'⟩ := bumped
    rw [ensures_bind, ensures_read, item]
    dsimp only
    cases value : mapping.item.value with
    | bytes _ => exact (ensures_pure _).mpr ⟨good', rfl, refused _⟩
    | u64 number =>
      dsimp only
      rw [modifySegment, ensures_bind, ensures_change]
      let change (item : Item) : Item :=
        { item with value := .u64 (op number), version := item.version + 2 }
      have sizes : (change mapping.item).size config = mapping.item.size config := by
        show config.itemSize mapping.item.key (.u64 (op number)) mapping.item.optional =
          config.itemSize mapping.item.key mapping.item.value mapping.item.optional
        rw [value]
        rfl
      have changed : Good config (({ cache with table := table } : Cache).altered config change
          mapping.location) := good'.altered maps' ⟨rfl, sizes⟩ rfl
      have sets : Sets config key (some (.u64 (op number), mapping.item.optional))
          { cache with table := table } (({ cache with table := table } : Cache).altered config change
            mapping.location) := sets_altered good'.settled maps' ⟨rfl, sizes⟩
      exact (ensures_pure _).mpr ⟨changed, rfl, .inr ⟨mapping, number,
        ⟨maps, awake_of_readable awake⟩, value, rfl, sets.before wanes⟩⟩
  · obtain ⟨rfl, -⟩ := Prod.mk.inj (Option.some.inj (uncounted.symm.trans ran))
    exact (ensures_pure _).mpr ⟨good', rfl, refused _⟩
  · obtain ⟨rfl, -⟩ := Prod.mk.inj (Option.some.inj (uncounted.symm.trans ran))
    exact ensures_diverge.mpr trivial

/-! ### Deleting -/

/-- **What a delete leaves.** -/
theorem ensures_delete (good : Good config cache) (key : Key) :
    Ensures (delete config key) (fun found after => Good config after ∧ after.now = cache.now ∧
      ((found = false ∧ after = cache) ∨ (found = true ∧ Sets config key none cache after))) cache := by
  have settled := good.settled
  unfold delete
  rw [ensures_bind]
  rcases settled.lookup_apply key with ⟨mapping, slot, maps, ran, -, tag, entry, awake⟩ | ⟨-, ran⟩ |
    ⟨_, -, ran⟩
  case inr.inl => exact (returns_of_eq ran ((ensures_pure _).mpr ⟨good, rfl, .inl ⟨rfl, rfl⟩⟩)).ensures
  case inr.inr => exact (returns_of_eq ran (ensures_diverge.mpr trivial)).ensures
  refine (returns_of_eq ran ?_).ensures
  dsimp only
  rw [ensures_bind, ensures_read]
  refine Ensures.ite (fun _ => (ensures_pure _).mpr ⟨good, rfl, .inl ⟨rfl, rfl⟩⟩) fun _ => ?_
  rw [segmentOf, ensures_bind, ensures_read, removable_of_awake awake, if_neg (by simp), ensures_bind]
  -- The entry is taken away, and the item is in hand.
  have found : cache.table.publishing config.geometry key mapping.location =
      some (slot.bucket, slot.slot) := by
    rw [← maps.key]
    exact @Consistent.publishing config cache none settled.consistent (slot.bucket, slot.slot) _ _
      entry maps.item
  have removed : onTable (fun table => table.remove config.geometry key mapping.location) cache =
      some (true, { cache with table := cache.table.setSlot (slot.bucket, slot.slot) none }) := by
    unfold onTable
    rw [exchange_apply]
    dsimp only
    rw [Table.remove, found]
  refine (returns_of_eq removed ?_).ensures
  rw [if_neg (by simp)]
  generalize emptied : ({ cache with table := cache.table.setSlot (slot.bucket, slot.slot) none } :
    Cache) = one
  have inHand : Consistent config (some mapping.location) one := by
    rw [← emptied]
    exact consistent_unlinked settled.consistent entry rfl rfl
  obtain ⟨chain, orderly⟩ := settled.orderly
  have resolves : one.resolves config mapping.location = true := by
    have present := (settled.consistent.present_of_maps maps).1
    rw [← emptied]
    unfold Cache.resolves
    simp [present.range, present.tag]
  rw [ensures_bind, ensures_read, if_pos resolves, modifySegment, ensures_bind, ensures_change,
    ensures_bind]
  -- Then it is flagged as deleted where it lies.
  have item : one.itemAt config mapping.location = some mapping.item := by
    rw [← emptied]
    exact maps.item
  have tag' : mapping.location.tag = (one.segment mapping.location.segment).tag := by
    rw [← emptied]
    exact (settled.consistent.present_of_maps maps).1.tag
  let delete (item : Item) : Item := { item with deleted := true }
  have flagged : Consistent config (some mapping.location)
      (one.altered config delete mapping.location) :=
    inHand.altered rfl rfl item ⟨rfl, rfl⟩ tag' fun named => absurd named (inHand.inHand rfl).1
  have settled' : Settled config (some mapping.location)
      (one.altered config delete mapping.location) := by
    refine ⟨flagged, chain, ?_⟩
    rw [altered_shape, ← emptied]
    exact orderly
  have item' : (one.altered config delete mapping.location).itemAt config mapping.location =
      some (delete mapping.item) := by
    rw [itemAt_altered rfl fun held here => by rfl, item]
    simp
  have ranked : Ranked config (one.altered config delete mapping.location) := by
    rw [← emptied]
    exact good.ranked.congr rfl
  -- No other key's item is flagged.
  have unmapped : Sets config key none cache (one.altered config delete mapping.location) := by
    have slots : one.table.slot = (cache.table.setSlot (slot.bucket, slot.slot) none).slot := by
      rw [← emptied]
    have segments : one.segment = cache.segment := by rw [← emptied]
    have sizes : ∀ held, one.itemAt config mapping.location = some held →
        (delete held).size config = held.size config := fun _ _ => rfl
    have left : ∀ other mapped, Awake config (one.altered config delete mapping.location) other mapped →
        Awake config cache other mapped ∧ mapped.location ≠ mapping.location := by
      intro other mapped still
      have named := still.1.named
      rcases inHand.maps_altered sizes tag' still.1 with ⟨same, -⟩ | ⟨apart, was⟩
      · rw [same] at named
        exact absurd named (flagged.inHand rfl).1
      · refine ⟨⟨((maps_unlinked settled.consistent entry slots segments).mp was).1, fun asleep =>
          still.2 ((altered_state _).trans ?_)⟩, apart⟩
        rw [segments]
        exact asleep
    refine ⟨fun mapped still => ?_, fun other _ mapped still => ⟨mapped, (left _ _ still).1, rfl⟩⟩
    obtain ⟨was, apart⟩ := left _ _ still
    exact absurd (congrArg Mapping.location (settled.consistent.maps_unique was.1 maps)) apart
  refine ((returns_removeAt settled' item' ranked).mono fun _ after tidied => ?_).ensures
  refine (ensures_pure _).mpr ⟨tidied.toProceeds.good, ?_, .inr ⟨rfl, unmapped.behind tidied.wanes⟩⟩
  rw [tidied.now, ← emptied]
  rfl

/-! ### Replacing what was looked up -/

/-- What replacing a looked-up item answers: it was still there with its token, or the item in hand is
given back. -/
def Replaces (config : Config) (item : Item) (old new : Location) (expected : Option UInt64)
    (cache : Cache) (result : Except SegcacheError Unit) (after : Cache) : Prop :=
  (result = .ok () ∧ Published config item new cache after ∧
    ∃ held freq, Maps config cache item.key ⟨held, freq, old⟩ ∧ ∀ token, expected = some token →
      tokenFor held old (cache.segment old.segment).generation = token) ∨
    (result = .error .exists_ ∧ GivenBack config cache after)

/-- **An item in hand takes the place of the one that was looked up**, or is given back. -/
theorem returns_replaceAt (holding : Holding config new item cache)
    (alive : item.deleted = false) {slot : SlotRef}
    (candidate : (slot.bucket, slot.slot) ∈ Table.candidates config.geometry item.key)
    (tag : slot.tag = config.geometry.tag item.key)
    (own : ∀ entry held, cache.table.slot slot.bucket slot.slot = some entry →
      cache.itemAt config entry.location = some held → held.key = item.key)
    (expected : Option UInt64) :
    Returns (replaceAt config item.key old slot new expected)
      (Replaces config item old new expected cache) cache := by
  have givenBack : ∀ {rest : Unit → Proc (Except SegcacheError Unit)},
      (∀ value state, rest value state = some (.error .exists_, state)) →
      Returns (rollbackReservation config new >>= rest) (Replaces config item old new expected cache)
        cache := by
    intro rest same
    refine (returns_rollbackReservation holding).seq fun value after tidied => ?_
    exact returns_of_eq (same value after) (.inr ⟨rfl, tidied⟩)
  unfold replaceAt segmentOf
  rw [returns_bind, returns_read]
  refine Returns.ite (fun _ => givenBack fun _ _ => rfl) fun _ => ?_
  rw [returns_bind, returns_read]
  refine Returns.ite (fun _ => givenBack fun _ _ => rfl) fun resolves => ?_
  rw [returns_bind, returns_read]
  dsimp only
  rw [returns_bind, returns_read]
  refine Returns.ite (fun _ => givenBack fun _ _ => rfl) fun unchanged => ?_
  -- The swap finds the entry that was looked up, or another.
  by_cases there : ∃ freq, cache.table.slot slot.bucket slot.slot = some ⟨slot.tag, freq, old⟩
  · obtain ⟨freq, entry⟩ := there
    obtain ⟨held, present, -⟩ := holding.settled.consistent.sound entry
    have maps : Maps config cache item.key ⟨held, freq, old⟩ :=
      ⟨_, _, _, entry, present.item, own _ held entry present.item⟩
    obtain ⟨middle, swapped, removes⟩ := returns_replace holding alive maps candidate tag entry
    rw [returns_bind]
    refine returns_of_eq swapped ?_
    rw [if_neg (by simp), returns_bind]
    refine removes.mono fun _ after published =>
      (returns_pure _).mpr (.inl ⟨rfl, published, held, freq, maps, fun token same => ?_⟩)
    subst same
    have item_ : cache.itemAt config old = some held := present.item
    simp only [Option.any_some, item_, Option.all_some, Bool.or_eq_true, decide_eq_true_eq,
      not_or, not_not] at unchanged
    exact unchanged.2
  · have refused : onTable (fun table => table.casLocationAt slot old new true) cache =
        some (false, cache) := by
      have refuses : cache.table.casLocationAt slot old new true = (false, cache.table) := by
        unfold Table.casLocationAt
        cases entry : cache.table.slot slot.bucket slot.slot with
        | none => rfl
        | some found =>
          dsimp only
          refine if_neg fun both => there ⟨found.freq, ?_⟩
          simp only [Bool.and_eq_true, decide_eq_true_eq] at both
          rw [entry, ← both.1, ← both.2]
      unfold onTable
      rw [exchange_apply]
      dsimp only
      rw [refuses]
    rw [returns_bind]
    refine returns_of_eq refused ?_
    rw [if_pos (by simp)]
    exact givenBack fun _ _ => rfl

/-- What a write over a looked-up item answers. -/
def Overwrites (config : Config) (b : Nat) (item : Item) (old : Location) (expected : Option UInt64)
    (cache : Cache) (result : Except SegcacheError Unit) (after : Cache) : Prop :=
  (∃ (reserved : Reserved) (middle defined : Cache) (new : Location), Evicting config cache middle ∧
    Placed config b item new middle defined ∧
    new = defined.locationAt reserved.seg reserved.offset ∧
    Replaces config item old new expected defined result after) ∨
    (result = .error (.itemOversized (item.size config)) ∧ config.segmentSize < item.size config ∧
      Evicting config cache after ∧ (Clean config item.key cache → after = cache)) ∨
    (result = .error .noFreeSegments ∧ Evicting config cache after)

theorem Overwrites.good {expected : Option UInt64} {result : Except SegcacheError Unit}
    (overwrites : Overwrites config b item old expected cache result after) : Good config after := by
  rcases overwrites with ⟨_, _, _, _, -, -, -, ⟨-, published, -⟩ | ⟨-, tidied⟩⟩ | ⟨-, -, proceeds, -⟩ |
    ⟨-, proceeds⟩
  · exact ⟨published.sane, published.ranked⟩
  · exact tidied.toProceeds.good
  · exact proceeds.toProceeds.good
  · exact proceeds.toProceeds.good

/-- The slot of a key is the key's own behind steps that shed items only. -/
theorem Maps.own (shed : Shed config cache after) {mapping : Mapping} {slot : SlotRef}
    (maps : Maps config cache key mapping)
    (entry : cache.table.slot slot.bucket slot.slot =
      some ⟨slot.tag, mapping.freq, mapping.location⟩) {now : Entry Location} {held : Item}
    (slot' : after.table.slot slot.bucket slot.slot = some now)
    (item' : after.itemAt config now.location = some held) : held.key = key := by
  obtain ⟨before, was, here⟩ := shed _ _ now held slot' item'
  cases entry.symm.trans was
  cases maps.item.symm.trans here
  exact maps.key

/-- The write over a looked-up item, behind what was checked of it. -/
theorem ensures_overwrite (good : Good config cache) (fuel : Nat) (key : Key)
    (value : Value) (optional : Optional) (ttl : Nat) (expected : Option UInt64) {mapping : Mapping}
    {slot : SlotRef} (maps : Maps config cache key mapping)
    (candidate : (slot.bucket, slot.slot) ∈ Table.candidates config.geometry key)
    (tag : slot.tag = config.geometry.tag key)
    (entry : cache.table.slot slot.bucket slot.slot =
      some ⟨slot.tag, mapping.freq, mapping.location⟩)
    {rest : Except SegcacheError Reserved → Proc (Except SegcacheError Unit)}
    (failed : ∀ error state, rest (.error error) state = some (.error error, state))
    (done : ∀ reserved state, rest (.ok reserved) state =
      replaceAt config key mapping.location slot (state.locationAt reserved.seg reserved.offset)
        expected state) :
    Ensures (reserveAndDefine config fuel key value optional ttl >>= rest)
      (Overwrites config (getBucketIndex ttl) (Item.written key value optional) mapping.location
        expected cache) cache := by
  refine Ensures.seq (ensures_reserveAndDefine good fuel key value optional ttl)
    fun result after defines => ?_
  rcases defines with ⟨reserved, middle, rfl, proceeds, written⟩ | ⟨rfl, oversized⟩ | ⟨rfl, proceeds⟩
  · have replaced := @returns_replaceAt _ _ _ _ mapping.location written.holding rfl slot candidate tag
      (fun now held slot' item' => maps.own (proceeds.shed.trans written.shed) entry slot' item') expected
    intro answer last ran
    rw [done] at ran
    exact .inl ⟨reserved, middle, after, _, proceeds, written, rfl,
      replaced.ensures answer last ran⟩
  · exact (returns_of_eq (failed _ after) (.inr (.inl ⟨rfl, oversized⟩))).ensures
  · exact (returns_of_eq (failed _ after) (.inr (.inr ⟨rfl, proceeds⟩))).ensures

/-- What a cas answers. -/
def Swaps (config : Config) (b : Nat) (item : Item) (token : UInt64) (cache : Cache)
    (result : Except SegcacheError Unit) (after : Cache) : Prop :=
  (after = cache ∧ (result = .error .notFound ∨ result = .error .exists_)) ∨
    ∃ mapping, Maps config cache item.key mapping ∧
      ((remainingTtl cache mapping.location.segment).isSome = true ∧ tokenFor mapping.item
        mapping.location (cache.segment mapping.location.segment).generation = token) ∧
      Overwrites config b item mapping.location (some token) cache result after

theorem Swaps.good {token : UInt64} {result : Except SegcacheError Unit}
    (swaps : Swaps config b item token cache result after) (good : Good config cache) :
    Good config after := by
  rcases swaps with ⟨rfl, -⟩ | ⟨mapping, -, -, overwrites⟩
  · exact good
  · exact overwrites.good

/-- **What a cas leaves**, whatever it answers. -/
theorem ensures_cas (good : Good config cache) (fuel : Nat) (key : Key)
    (value : Value) (optional : Optional) (ttl : Nat) (token : UInt64) :
    Ensures (cas config fuel key value optional ttl token)
      (Swaps config (getBucketIndex (coarseTtl ttl)) (Item.written key value optional) token cache)
      cache := by
  unfold cas segmentOf
  rw [ensures_bind]
  rcases good.settled.lookup_apply key with ⟨mapping, slot, maps, ran, candidate, tag, entry, -⟩ |
    ⟨-, ran⟩ | ⟨_, -, ran⟩
  case inr.inl => exact (returns_of_eq ran ((ensures_pure _).mpr (.inl ⟨rfl, .inl rfl⟩))).ensures
  case inr.inr => exact (returns_of_eq ran (ensures_diverge.mpr trivial)).ensures
  refine (returns_of_eq ran ?_).ensures
  dsimp only
  rw [ensures_bind, ensures_read]
  refine Ensures.ite (fun _ => (ensures_pure _).mpr (.inl ⟨rfl, .inl rfl⟩)) fun unexpired => ?_
  rw [ensures_bind, ensures_read, ensures_bind, ensures_read, maps.item]
  dsimp only
  refine Ensures.ite (fun _ => (ensures_pure _).mpr (.inl ⟨rfl, .inr rfl⟩)) fun same => ?_
  refine (ensures_overwrite good fuel key value optional _ (some token) maps candidate tag entry
    (fun _ _ => rfl) fun _ _ => rfl).mono fun result after overwrites =>
      .inr ⟨mapping, maps, ⟨?_, not_not.mp same⟩, overwrites⟩
  simpa [← Option.isSome_iff_ne_none] using unexpired

/-- What a conversion answers. -/
def Converts (config : Config) (key : Key) (initial : UInt64) (ttl : Nat) (cache : Cache)
    (result : Except SegcacheError Unit) (after : Cache) : Prop :=
  ((∀ mapping, ¬ Maps config cache key mapping) ∧
    Inserts config (getBucketIndex (coarseTtl ttl)) (Item.written key (.u64 initial) Optional.none)
      cache result after) ∨
  ∃ mapping, Awake config cache key mapping ∧
    ((∃ number, mapping.item.value = .u64 number ∧ result = .ok () ∧ after = cache) ∨
      ∃ text, mapping.item.value = .bytes text ∧
        ((parseSimpleNumeric text = none ∧ result = .error .notNumeric ∧ after = cache) ∨
          ∃ number, parseSimpleNumeric text = some number ∧
            ((remainingTtl cache mapping.location.segment = none ∧ result = .error .notFound ∧
                after = cache) ∨
              ∃ remaining, remainingTtl cache mapping.location.segment = some remaining ∧
                Overwrites config (getBucketIndex remaining)
                  (Item.written key (.u64 number) mapping.item.optional) mapping.location none
                  cache result after)))

theorem Converts.good {initial : UInt64} {ttl : Nat} {result : Except SegcacheError Unit}
    (converts : Converts config key initial ttl cache result after) (good : Good config cache) :
    Good config after := by
  rcases converts with ⟨-, inserts⟩ | ⟨mapping, -, ⟨_, -, -, rfl⟩ | ⟨_, -, ⟨-, -, rfl⟩ | ⟨_, -,
    ⟨-, -, rfl⟩ | ⟨_, -, overwrites⟩⟩⟩⟩
  · exact inserts.good
  · exact good
  · exact good
  · exact good
  · exact overwrites.good

/-- **What a conversion leaves**, whatever it answers. -/
theorem ensures_tryIntoNumeric (good : Good config cache) (fuel : Nat)
    (key : Key) (initial : UInt64) (ttl : Nat) :
    Ensures (tryIntoNumeric config fuel key initial ttl) (Converts config key initial ttl cache)
      cache := by
  unfold tryIntoNumeric
  rw [ensures_bind]
  rcases good.settled.lookup_apply key with ⟨mapping, slot, maps, ran, candidate, tag, entry, awake⟩ |
    ⟨none, ran⟩ | ⟨_, -, ran⟩
  case inr.inr => exact (returns_of_eq ran (ensures_diverge.mpr trivial)).ensures
  case inr.inl =>
    refine (returns_of_eq ran ?_).ensures
    exact (ensures_insert good fuel key _ _ ttl).mono fun result after inserts =>
      .inl ⟨none, inserts⟩
  have there : Awake config cache key mapping := ⟨maps, awake_of_readable awake⟩
  refine (returns_of_eq ran ?_).ensures
  dsimp only
  rw [ensures_bind, ensures_read, maps.item]
  dsimp only
  cases value : mapping.item.value with
  | u64 number => exact (ensures_pure _).mpr (.inr ⟨mapping, there, .inl ⟨number, value, rfl, rfl⟩⟩)
  | bytes text =>
    dsimp only
    cases parsed : parseSimpleNumeric text with
    | none =>
      exact (ensures_pure _).mpr (.inr ⟨mapping, there, .inr ⟨text, value, .inl ⟨parsed, rfl, rfl⟩⟩⟩)
    | some number =>
      dsimp only
      rw [ensures_bind, ensures_read]
      cases left : remainingTtl cache mapping.location.segment with
      | none =>
        exact (ensures_pure _).mpr (.inr ⟨mapping, there, .inr ⟨text, value, .inr ⟨number, parsed,
          .inl ⟨left, rfl, rfl⟩⟩⟩⟩)
      | some remaining =>
        dsimp only
        refine (ensures_overwrite good fuel key _ _ _ none maps candidate tag entry
          (fun _ _ => rfl) fun _ _ => rfl).mono fun result after overwrites => ?_
        exact .inr ⟨mapping, there, .inr ⟨text, value, .inr ⟨number, parsed, .inr ⟨remaining, left,
          overwrites⟩⟩⟩⟩

end CacheRs.Segcache
