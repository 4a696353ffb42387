/-
**A TTL is a ceiling.**

* `Stores`: the calls that store a key;
* `Call.expedites`: no other call postpones what a key is mapped to;
* `Reachable.timely`: every reachable cache is timely;
* `Due`: what a key is mapped to falls due by an instant;
* `due_of_run`: it does, until the key is stored again.
-/

import CacheRs.Segcache.Contents
import CacheRs.Segcache.Deadlines

set_option linter.unusedSectionVars false

namespace CacheRs.Segcache

open KeyValue (Value)
open Segments (SegId State bucketTtl getBucketIndex)
open Sequential Procedure

variable {config : Config} {cache middle after : Cache} {id : SegId} {key : Key} {item : Item}
  {location : Location} {keys : Key → Prop}

/-! ### Steps on the table and on an item -/

theorem Timely.congr (timely : Timely config cache) {table : Table Location} :
    Timely config { cache with table := table } := by
  obtain ⟨chain, orderly, dated⟩ := timely
  exact ⟨chain, orderly, dated.sorted, dated.past, dated.undue, dated.expired⟩

theorem refreq_expedites {table : Table Location} (same : SameEntries cache { cache with table := table }) :
    Expedites config keys cache { cache with table := table } where
  timely timely := timely.congr
  sooner _ other _ mapping maps := by
    obtain ⟨b, i, tag, slot, item, isKey⟩ := maps
    obtain ⟨⟨oldTag, freq, location⟩, was, -, here⟩ := same.slot slot
    dsimp only at here
    subst here
    exact ⟨⟨mapping.item, freq, mapping.location⟩, ⟨b, i, oldTag, was, item, isKey⟩, le_rfl⟩

/-- What a key is mapped to changes where it lies. -/
theorem altered_expedites {change : Item → Item} {pending : Option Location}
    (consistent : Consistent config pending cache) (item_ : cache.itemAt config location = some item)
    (keeps : (change item).key = item.key ∧ (change item).size config = item.size config)
    (tag : location.tag = (cache.segment location.segment).tag)
    (own : ∀ mapping, Maps config (cache.altered config change location) item.key mapping →
      mapping.location = location → ∃ old, Maps config cache item.key old ∧ old.location = location) :
    Expedites config keys cache (cache.altered config change location) where
  timely := Timed.timely (by
    unfold Cache.altered
    exact setSegment_timed rfl rfl)
  sooner _ other _ mapping maps := by
    have dates : ∀ i, (cache.altered config change location).deadline i = cache.deadline i := by
      intro i
      unfold Cache.deadline Cache.altered
      by_cases same : i = location.segment
      · subst same
        rw [setSegment_self]
        rfl
      · rw [setSegment_of_ne same]
    have sizes : ∀ held, cache.itemAt config location = some held →
        (change held).size config = held.size config := by
      intro held here
      cases item_.symm.trans here
      exact keeps.2
    rcases consistent.maps_altered sizes tag maps with ⟨same, held, here, changed⟩ | ⟨-, was⟩
    · cases item_.symm.trans here
      have isKey : other = item.key := by
        rw [← maps.key, changed, keeps.1]
      subst isKey
      obtain ⟨old, was, there⟩ := own mapping maps same
      exact ⟨old, was, by rw [dates, same, there]⟩
    · exact ⟨mapping, was, (dates _).le⟩

theorem counted_timed {chain : Nat → List SegId} (sane : Sane config Hand.empty chain cache)
    (refCount : Nat) (busy : (cache.segment id).state = .awaitingRelease → 0 < refCount) :
    Timed config cache (cache.counted id refCount) := by
  have thins : Thins cache (cache.counted id refCount) := thins_setSegment rfl rfl fun laid => laid
  exact thins.ages_self.timed sane.orderly (sane.counted refCount busy).orderly

/-! ### Reading -/

theorem ensures_get_expedites (good : Good config cache) (key : Key) (updateFreq : Bool) :
    Ensures (get config key updateFreq) (fun _ after => Expedites config keys cache after) cache := by
  obtain ⟨⟨chain, sane⟩, -⟩ := id good
  obtain ⟨found, table, counted, uncounted, same⟩ := lookup_apply config key cache
  have looked : ∃ table,
      (if updateFreq then lookup config key else lookupNoFreqUpdate config key) cache =
        some (found, { cache with table := table }) ∧
      SameEntries cache { cache with table := table } := by
    by_cases update : updateFreq = true
    · rw [if_pos update]
      exact ⟨table, counted, same⟩
    · rw [if_neg update]
      exact ⟨cache.table, uncounted, fun _ _ => rfl⟩
  obtain ⟨table, ran, same⟩ := looked
  have first : Expedites config keys cache { cache with table := table } := refreq_expedites same
  have sane' : Sane config Hand.empty chain { cache with table := table } :=
    ⟨sane.consistent.refreq same rfl, sane.orderly⟩
  have pinned : ∀ id, Expedites config keys { cache with table := table }
      (({ cache with table := table } : Cache).counted id ((cache.segment id).refCount + 1)) :=
    fun id => (counted_timed sane' _ fun _ => Nat.succ_pos _).expedites
      (shed_of_entries (fun _ _ _ slot => slot) fun _ _ => (counted_frame _).maps_iff.mp)
  unfold get
  dsimp only
  split at ran
  all_goals
    rename_i update
    first | rw [if_pos update] | rw [if_neg update]
    rw [ensures_bind]
    refine (returns_of_eq ran ?_).ensures
    cases found with
    | absent => exact (ensures_pure _).mpr first
    | unknown _ => exact ensures_diverge.mpr trivial
    | found hit =>
      dsimp only
      rw [ensures_bind, ensures_read]
      refine Ensures.ite (fun _ => (ensures_pure _).mpr first) fun _ => ?_
      rw [ensures_bind, ensures_read]
      generalize Cache.itemAt config { cache with table := table } hit.location = there
      cases there with
      | none => exact ensures_diverge.mpr trivial
      | some item =>
        dsimp only
        rw [modifySegment, ensures_bind, ensures_change, segmentOf, ensures_bind, ensures_read]
        exact (ensures_pure _).mpr (first.trans (pinned _))

/-! ### Deleting -/

/-- **What a delete does before it takes the item away**: its entry is gone, and it is flagged where it
lies. -/
structure Unlinks (config : Config) (key : Key) (mapping : Mapping) (cache middle : Cache) : Prop where
  settled : Settled config (some mapping.location) middle
  item : middle.itemAt config mapping.location = some { mapping.item with deleted := true }
  ranked : Ranked config middle
  expedites : ∀ keys, Expedites config keys cache middle
  apply : delete config key cache = (do
    removeAt config mapping.location
    return true : Proc Bool) middle

/-- **A mapped item whose deadline has not passed is deleted.** -/
theorem delete_unlinks (good : Good config cache) {mapping : Mapping} {slot : Hashtable.SlotRef}
    (maps : Maps config cache key mapping)
    (ran : lookupNoFreqUpdate config key cache = some (.found ⟨mapping.location, slot⟩, cache))
    (entry : cache.table.slot slot.bucket slot.slot =
      some ⟨slot.tag, mapping.freq, mapping.location⟩)
    (awake : (cache.segment mapping.location.segment).state = .sealed ∨
      (cache.segment mapping.location.segment).state = .live)
    (fresh : (remainingTtl cache mapping.location.segment).isNone = false) :
    ∃ middle, Unlinks config key mapping cache middle := by
  have settled := good.settled
  have found : cache.table.publishing config.geometry key mapping.location =
      some (slot.bucket, slot.slot) := by
    rw [← maps.key]
    exact @Consistent.publishing config cache none settled.consistent (slot.bucket, slot.slot) _ _
      entry maps.item
  have removed : onTable (fun table => table.remove config.geometry key mapping.location) cache =
      some (true, { cache with table := cache.table.setSlot (slot.bucket, slot.slot) none }) := by
    unfold onTable
    rw [exchange_apply]
    dsimp only
    rw [Table.remove, found]
  generalize emptied : ({ cache with table := cache.table.setSlot (slot.bucket, slot.slot) none } :
    Cache) = one at removed
  -- The entry is gone, and the item is in hand.
  have inHand : Consistent config (some mapping.location) one := by
    rw [← emptied]
    exact consistent_unlinked settled.consistent entry rfl rfl
  have unlinked : ∀ keys, Expedites config keys cache one := by
    intro keys
    rw [← emptied]
    refine ⟨fun timely => timely.congr, fun _ other _ mapped still => ?_⟩
    have unlinks := @maps_unlinked config cache
      { cache with table := cache.table.setSlot (slot.bucket, slot.slot) none } _ settled.consistent
      _ _ _ entry rfl rfl other mapped
    exact ⟨mapped, (unlinks.mp still).1, le_rfl⟩
  obtain ⟨chain, orderly⟩ := settled.orderly
  have resolves : one.resolves config mapping.location = true := by
    have present := (settled.consistent.present_of_maps maps).1
    rw [← emptied]
    unfold Cache.resolves
    simp [present.range, present.tag]
  have item : one.itemAt config mapping.location = some mapping.item := by
    rw [← emptied]
    exact maps.item
  have tag : mapping.location.tag = (one.segment mapping.location.segment).tag := by
    rw [← emptied]
    exact (settled.consistent.present_of_maps maps).1.tag
  let delete (item : Item) : Item := { item with deleted := true }
  have flagged : Consistent config (some mapping.location)
      (one.altered config delete mapping.location) :=
    inHand.altered rfl rfl item ⟨rfl, rfl⟩ tag fun named => absurd named (inHand.inHand rfl).1
  -- Nobody is mapped to the flagged item.
  have flags : ∀ keys, Expedites config keys one (one.altered config delete mapping.location) := by
    intro keys
    refine altered_expedites inHand item ⟨rfl, rfl⟩ tag fun mapped still same => ?_
    have named := still.named
    rw [same] at named
    exact absurd named (flagged.inHand rfl).1
  refine ⟨one.altered config delete mapping.location, ⟨flagged, chain, ?_⟩, ?_, ?_,
    fun keys => (unlinked keys).trans (flags keys), ?_⟩
  · rw [altered_shape, ← emptied]
    exact orderly
  · rw [itemAt_altered rfl fun held here => by rfl, item]
    simp [delete]
  · rw [← emptied]
    exact good.ranked.congr rfl
  · unfold Segcache.delete
    rw [bind_apply_of_some ran]
    dsimp only
    rw [read_bind, fresh, if_neg (by simp), segmentOf, read_bind, removable_of_awake awake,
      if_neg (by simp), bind_apply_of_some removed, if_neg (by simp), read_bind, if_pos resolves,
      modifySegment, change_bind]
    rfl

theorem ensures_delete_expedites (good : Good config cache) (key : Key) :
    Ensures (delete config key) (fun _ after => Expedites config keys cache after) cache := by
  rcases good.settled.lookup_apply key with ⟨mapping, slot, maps, ran, -, -, entry, awake⟩ | ⟨-, ran⟩ |
    ⟨_, -, ran⟩
  case inr.inl =>
    unfold delete
    rw [ensures_bind]
    exact (returns_of_eq ran ((ensures_pure _).mpr (.refl _))).ensures
  case inr.inr =>
    unfold delete
    rw [ensures_bind]
    exact (returns_of_eq ran (ensures_diverge.mpr trivial)).ensures
  cases fresh : (remainingTtl cache mapping.location.segment).isNone with
  | true =>
    unfold delete
    rw [ensures_bind]
    refine (returns_of_eq ran ?_).ensures
    dsimp only
    rw [ensures_bind, ensures_read, if_pos fresh]
    exact (ensures_pure _).mpr (.refl _)
  | false =>
    obtain ⟨middle, unlinks⟩ := delete_unlinks good maps ran entry awake fresh
    intro result after deletes
    rw [unlinks.apply] at deletes
    obtain ⟨_, last, removes, done⟩ := bind_eq_some.mp deletes
    cases done
    have timed := ensures_removeAt_timed unlinks.settled unlinks.item _ _ removes
    have tidied := (returns_removeAt unlinks.settled unlinks.item unlinks.ranked).ensures _ _ removes
    exact (unlinks.expedites keys).trans (timed.expedites tidied.shed)

/-! ### Counting -/

theorem ensures_numericUpdate_expedites (good : Good config cache) (key : Key)
    (op : UInt64 → UInt64) : Ensures (numericUpdate config key op)
      (fun _ after => Expedites config keys cache after) cache := by
  obtain ⟨found, table, counted, uncounted, same⟩ := lookup_apply config key cache
  have good' := good.refreq same
  have first : Expedites config keys cache { cache with table := table } := refreq_expedites same
  unfold numericUpdate
  rw [ensures_bind]
  refine (returns_of_eq counted ?_).ensures
  rcases good.settled.lookup_apply key with ⟨mapping, slot, maps, ran, -, tag, entry, awake⟩ |
    ⟨-, ran⟩ | ⟨_, -, ran⟩
  · obtain ⟨rfl, -⟩ := Prod.mk.inj (Option.some.inj (uncounted.symm.trans ran))
    dsimp only
    rw [ensures_bind, ensures_read]
    refine Ensures.ite (fun _ => (ensures_pure _).mpr first) fun _ => ?_
    have item : ({ cache with table := table } : Cache).itemAt config mapping.location =
        some mapping.item := maps.item
    have bumped : ∃ freq, Maps config { cache with table := table } key
        ⟨mapping.item, freq, mapping.location⟩ := by
      obtain ⟨now, slot', -, here⟩ := same.symm.slot entry
      have location : now.location = mapping.location := here
      exact ⟨now.freq, _, _, now.tag, by rw [slot', ← location], item, maps.key⟩
    obtain ⟨freq, maps'⟩ := bumped
    rw [ensures_bind, ensures_read, item]
    dsimp only
    cases value : mapping.item.value with
    | bytes _ => exact (ensures_pure _).mpr first
    | u64 number =>
      dsimp only
      rw [modifySegment, ensures_bind, ensures_change]
      let change (item : Item) : Item :=
        { item with value := .u64 (op number), version := item.version + 2 }
      have sizes : (change mapping.item).size config = mapping.item.size config := by
        show config.itemSize mapping.item.key (.u64 (op number)) mapping.item.optional =
          config.itemSize mapping.item.key mapping.item.value mapping.item.optional
        rw [value]
        rfl
      have isKey : mapping.item.key = key := maps.key
      have tag := (good'.settled.consistent.present_of_maps maps').1.tag
      have keeps : (change mapping.item).key = mapping.item.key ∧
          (change mapping.item).size config = mapping.item.size config := ⟨rfl, sizes⟩
      refine (ensures_pure _).mpr (first.trans
        (altered_expedites good'.settled.consistent item keeps tag fun _ _ _ => ?_))
      exact ⟨⟨mapping.item, freq, mapping.location⟩, isKey.symm ▸ maps', rfl⟩
  · obtain ⟨rfl, -⟩ := Prod.mk.inj (Option.some.inj (uncounted.symm.trans ran))
    exact (ensures_pure _).mpr first
  · obtain ⟨rfl, -⟩ := Prod.mk.inj (Option.some.inj (uncounted.symm.trans ran))
    exact ensures_diverge.mpr trivial

/-! ### Writing -/

/-- What a key is mapped to falls due by an instant. -/
def Due (config : Config) (cache : Cache) (key : Key) (instant : Nat) : Prop :=
  ∀ mapping, Maps config cache key mapping → cache.deadline mapping.location.segment ≤ instant

theorem Expedites.due {instant : Nat} (expedites : Expedites config keys cache after)
    (timely : Timely config cache) (spared : keys key) (due : Due config cache key instant) :
    Due config after key instant := by
  intro mapping maps
  obtain ⟨old, was, sooner⟩ := expedites.sooner timely key spared mapping maps
  exact sooner.trans (due old was)

/-- **An item that is written with a TTL falls due when that has passed.** -/
theorem Written.deadline_le {secs : Nat}
    (written : Written config (getBucketIndex secs) item location cache after)
    (timely : Timely config after) (positive : 1 ≤ secs) (bound : secs < 2 ^ 32) :
    after.deadline location.segment ≤ cache.now + secs := by
  obtain ⟨chain, orderly, dated⟩ := timely
  have toNat : (BitVec.ofNat 32 secs).toNat = secs := by
    rw [BitVec.toNat_ofNat, Nat.mod_eq_of_lt bound]
  have rounded := (Segments.bucketTtl_bucketIndex_le (toNat.symm ▸ positive)).2
  rw [toNat] at rounded
  have ttl : (after.segment location.segment).ttl ≤ secs := written.ttl.trans_le rounded
  have held : holds (after.segment location.segment).state = true := by
    rw [written.holding.state]
    rfl
  obtain ⟨b, inside⟩ := (orderly.member location.segment).mp held
  have created := dated.past b _ inside
  rw [written.now] at created
  unfold Cache.deadline
  omega

theorem Published.due {instant : Nat} (published : Published config item location cache after)
    (due : cache.deadline location.segment ≤ instant) : Due config after item.key instant := by
  intro mapping maps
  obtain ⟨chain, sane⟩ := published.sane
  obtain ⟨freq, own, -⟩ := published.own
  cases sane.consistent.maps_unique maps own
  unfold Cache.deadline at due ⊢
  rw [published.age.createAt, published.age.ttl]
  exact due

/-- What a write with a TTL leaves: the other keys' items fall due no later, and the key's when its
TTL has passed. -/
structure Limits (config : Config) (key : Key) (secs : Nat) (cache : Cache)
    (result : Except SegcacheError Unit) (after : Cache) : Prop where
  others : Expedites config (fun other => other ≠ key ∨ ∃ error, result = .error error) cache after
  own : Timely config cache → 1 ≤ secs → secs < 2 ^ 32 → result = .ok () →
    Due config after key (cache.now + secs)

theorem Defines.shed {b : Nat} {result : Except SegcacheError Reserved}
    (defines : Defines config b item cache result after) : Shed config cache after := by
  rcases defines with ⟨reserved, middle, -, evicting, placed⟩ | ⟨-, -, evicting, -⟩ | ⟨-, evicting⟩
  · exact evicting.shed.trans placed.shed
  · exact evicting.shed
  · exact evicting.shed

/-- A written item is published, or nothing is stored. -/
theorem Placed.limits {secs : Nat} {defined : Cache} {result : Except SegcacheError Unit}
    (placed : Placed config (getBucketIndex secs) item location middle defined)
    (now : middle.now = cache.now) (defines : ∀ {keys}, Expedites config keys cache defined)
    (publishes : Expedites config (fun other => other ≠ item.key ∨ ∃ error, result = .error error)
      defined after)
    (done : result = .ok () → Published config item location defined after) :
    Limits config item.key secs cache result after where
  others := defines.trans publishes
  own timely positive bound ok := by
    rw [← now]
    have timely' : Timely config defined := (@defines fun _ => True).timely timely
    exact (done ok).due (placed.deadline_le timely' positive bound)

theorem Limits.failed {secs : Nat} {error : SegcacheError}
    (expedites : Expedites config (fun other => other ≠ key ∨
      ∃ failure, (.error error : Except SegcacheError Unit) = .error failure) cache after) :
    Limits config key secs cache (.error error) after :=
  ⟨expedites, fun _ _ _ no => by cases no⟩

/-- **What an insert leaves of the deadlines.** -/
theorem ensures_insert_limits (good : Good config cache) (fuel : Nat) (key : Key) (value : Value)
    (optional : Optional) (ttl : Nat) : Ensures (insert config fuel key value optional ttl)
      (fun result after => Limits config key (coarseTtl ttl) cache result after) cache := by
  unfold insert
  cases fuel with
  | zero => exact ensures_diverge.mpr trivial
  | succ fuel =>
    unfold insertLoop
    refine Ensures.seq (ensures_reserveAndDefine good (fuel + 1) key value optional _ |>.and
      (ensures_reserveAndDefine_timed good (fuel + 1) key value optional _))
      fun result defined known => ?_
    obtain ⟨defines, timed⟩ := known
    have expedites : ∀ {keys}, Expedites config keys cache defined := timed.expedites defines.shed
    rcases defines with ⟨reserved, middle, rfl, evicting, placed⟩ | ⟨rfl, -⟩ | ⟨rfl, -⟩
    · dsimp only
      rw [reservedLocation, ensures_bind, ensures_read]
      refine Ensures.seq ((ensures_publishItem placed.holding rfl).and
        (ensures_publish_expedites placed.holding rfl)) fun _ after known => ?_
      obtain ⟨⟨answer, same, publishes⟩, others⟩ := known
      subst same
      refine (ensures_pure _).mpr (placed.limits evicting.now expedites
        (others.mono fun other => Or.imp_right ?_) ?_)
      · rintro ⟨error, failed⟩
        exact ⟨error, by rw [failed]⟩
      rintro rfl
      rcases publishes with ⟨-, published⟩ | ⟨no, -⟩
      · exact published
      · cases no
    · exact (ensures_pure _).mpr (.failed expedites)
    · exact (ensures_pure _).mpr (.failed expedites)

/-- **What a write over a looked-up item leaves of the deadlines.** -/
theorem ensures_overwrite_limits (good : Good config cache) (fuel : Nat) (key : Key)
    (value : Value) (optional : Optional) (ttl : Nat) (expected : Option UInt64) {mapping : Mapping}
    {slot : Hashtable.SlotRef} (maps : Maps config cache key mapping)
    (candidate : (slot.bucket, slot.slot) ∈ Table.candidates config.geometry key)
    (tag : slot.tag = config.geometry.tag key)
    (entry : cache.table.slot slot.bucket slot.slot =
      some ⟨slot.tag, mapping.freq, mapping.location⟩)
    {rest : Except SegcacheError Reserved → Proc (Except SegcacheError Unit)}
    (failed : ∀ error state, rest (.error error) state = some (.error error, state))
    (done : ∀ reserved state, rest (.ok reserved) state =
      replaceAt config key mapping.location slot (state.locationAt reserved.seg reserved.offset)
        expected state) :
    Ensures (reserveAndDefine config fuel key value optional ttl >>= rest)
      (fun result after => Limits config key ttl cache result after) cache := by
  refine Ensures.seq (ensures_reserveAndDefine good fuel key value optional ttl |>.and
    (ensures_reserveAndDefine_timed good fuel key value optional ttl))
    fun result defined known => ?_
  obtain ⟨defines, timed⟩ := known
  have expedites : ∀ {keys}, Expedites config keys cache defined := timed.expedites defines.shed
  rcases defines with ⟨reserved, middle, rfl, evicting, placed⟩ | ⟨rfl, -⟩ | ⟨rfl, -⟩
  · have own : ∀ now held, defined.table.slot slot.bucket slot.slot = some now →
        defined.itemAt config now.location = some held → held.key = key :=
      fun now held => maps.own (evicting.shed.trans placed.shed) entry
    have replaced := (@returns_replaceAt _ _ _ _ mapping.location placed.holding rfl slot candidate tag
      own expected).ensures.and (ensures_replaceAt_expedites placed.holding rfl candidate tag own expected)
    intro answer after ran
    rw [done] at ran
    obtain ⟨replaces, others⟩ := replaced answer after ran
    refine placed.limits evicting.now expedites others ?_
    rintro rfl
    rcases replaces with ⟨-, published, -⟩ | ⟨no, -⟩
    · exact published
    · cases no
  · exact (returns_of_eq (failed _ defined) (Limits.failed expedites)).ensures
  · exact (returns_of_eq (failed _ defined) (Limits.failed expedites)).ensures

/-- **What a cas leaves of the deadlines.** -/
theorem ensures_cas_limits (good : Good config cache) (fuel : Nat) (key : Key) (value : Value)
    (optional : Optional) (ttl : Nat) (token : UInt64) :
    Ensures (cas config fuel key value optional ttl token)
      (fun result after => Limits config key (coarseTtl ttl) cache result after) cache := by
  unfold cas segmentOf
  rw [ensures_bind]
  rcases good.settled.lookup_apply key with ⟨mapping, slot, maps, ran, candidate, tag, entry, -⟩ |
    ⟨-, ran⟩ | ⟨_, -, ran⟩
  case inr.inl => exact (returns_of_eq ran ((ensures_pure _).mpr (.failed (.refl _)))).ensures
  case inr.inr => exact (returns_of_eq ran (ensures_diverge.mpr trivial)).ensures
  refine (returns_of_eq ran ?_).ensures
  dsimp only
  rw [ensures_bind, ensures_read]
  refine Ensures.ite (fun _ => (ensures_pure _).mpr (.failed (.refl _))) fun _ => ?_
  rw [ensures_bind, ensures_read, ensures_bind, ensures_read, maps.item]
  dsimp only
  refine Ensures.ite (fun _ => (ensures_pure _).mpr (.failed (.refl _))) fun _ => ?_
  exact ensures_overwrite_limits good fuel key value optional _ (some token) maps candidate tag entry
    (fun _ _ => rfl) fun _ _ => rfl

theorem bucketTtl_lt {b : Nat} (bound : b < Segments.totalBuckets) : bucketTtl b < 2 ^ 32 := by
  have tier : b / 256 < 4 := Nat.div_lt_of_lt_mul bound
  have place : b % 256 < 256 := Nat.mod_lt _ (by omega)
  have split : b = b % 256 + 256 * (b / 256) := (Nat.mod_add_div b 256).symm
  obtain ⟨one, two, three, four⟩ := Segments.bucketTtl_tier (b % 256) place
  rw [split]
  interval_cases b / 256
  · rw [Nat.mul_zero, Nat.add_zero, one]
    omega
  · rw [Nat.mul_one, two]
    omega
  · rw [three]
    omega
  · rw [four]
    omega

/-- What is left of a mapped item's TTL is a TTL that can be written. -/
theorem remaining_of_maps {mapping : Mapping} {remaining : Nat} (good : Good config cache)
    (timely : Timely config cache) (maps : Maps config cache key mapping)
    (left : remainingTtl cache mapping.location.segment = some remaining) :
    cache.now + remaining = cache.deadline mapping.location.segment ∧ 1 ≤ remaining ∧
      remaining < 2 ^ 32 := by
  obtain ⟨⟨chain, sane⟩, -⟩ := good
  have dated := timely.dated sane.orderly
  have held := (sane.consistent.present_of_maps maps).1.state
  obtain ⟨b, inside⟩ := (sane.orderly.member mapping.location.segment).mp held
  have ttl : (cache.segment mapping.location.segment).ttl = bucketTtl b := sane.orderly.ttl b _ inside
  have positive := bucketTtl_pos b
  have bound := bucketTtl_lt (sane.orderly.bucket b (List.ne_nil_of_mem inside)).2
  have created := dated.past b _ inside
  unfold remainingTtl at left
  dsimp only at left
  rw [if_neg (by omega)] at left
  split at left
  · cases left
  · cases left
    unfold Cache.deadline
    omega

/-- **A conversion keeps the deadline of what it converts.** -/
theorem Limits.converts {mapping : Mapping} {remaining : Nat} {result : Except SegcacheError Unit}
    (limits : Limits config key remaining cache result after) (good : Good config cache)
    (maps : Maps config cache key mapping)
    (left : remainingTtl cache mapping.location.segment = some remaining) :
    Expedites config keys cache after where
  timely := limits.others.timely
  sooner timely other _ mapped now := by
    cases result with
    | error error => exact limits.others.sooner timely other (.inr ⟨error, rfl⟩) mapped now
    | ok done =>
      by_cases same : other = key
      · subst same
        obtain ⟨deadline, positive, bound⟩ := remaining_of_maps good timely maps left
        exact ⟨mapping, maps, deadline ▸ limits.own timely positive bound rfl mapped now⟩
      · exact limits.others.sooner timely other (.inl same) mapped now

/-- **A conversion stores a key that is not mapped**, and postpones nothing else. -/
theorem ensures_tryIntoNumeric_limits (good : Good config cache) (fuel : Nat) (key : Key)
    (initial : UInt64) (ttl : Nat) : Ensures (tryIntoNumeric config fuel key initial ttl)
      (fun result after => ((∀ mapping, ¬ Maps config cache key mapping) ∧
          Limits config key (coarseTtl ttl) cache result after) ∨
        ∀ keys, Expedites config keys cache after) cache := by
  have unchanged : ∀ keys, Expedites config keys cache cache := fun _ => .refl cache
  unfold tryIntoNumeric
  rw [ensures_bind]
  rcases good.settled.lookup_apply key with ⟨mapping, slot, maps, ran, candidate, tag, entry, awake⟩ |
    ⟨none, ran⟩ | ⟨_, -, ran⟩
  case inr.inr => exact (returns_of_eq ran (ensures_diverge.mpr trivial)).ensures
  case inr.inl =>
    refine (returns_of_eq ran ?_).ensures
    exact (ensures_insert_limits good fuel key _ _ ttl).mono fun result after limits =>
      .inl ⟨none, limits⟩
  refine (returns_of_eq ran ?_).ensures
  dsimp only
  rw [ensures_bind, ensures_read, maps.item]
  dsimp only
  cases value : mapping.item.value with
  | u64 number => exact (ensures_pure _).mpr (.inr unchanged)
  | bytes text =>
    dsimp only
    cases parsed : parseSimpleNumeric text with
    | none => exact (ensures_pure _).mpr (.inr unchanged)
    | some number =>
      dsimp only
      rw [ensures_bind, ensures_read]
      cases left : remainingTtl cache mapping.location.segment with
      | none => exact (ensures_pure _).mpr (.inr unchanged)
      | some remaining =>
        dsimp only
        exact (ensures_overwrite_limits good fuel key _ _ _ none maps candidate tag entry
          (fun _ _ => rfl) fun _ _ => rfl).mono fun result after limits =>
            .inr fun _ => limits.converts good maps left

/-! ### Sweeping, dropping and waiting -/

theorem ensures_expire_expedites (good : Good config cache) :
    Ensures (expire config) (fun _ after => Expedites config keys cache after) cache := by
  obtain ⟨⟨chain, sane⟩, -⟩ := good
  refine ((returns_expireBuckets sane).ensures.and (ensures_expireBuckets_ages sane)).mono
    fun _ after ⟨⟨swept, _⟩, aging⟩ => ?_
  exact (aging.timed sane.orderly).expedites swept.shed

theorem ensures_clearCache_expedites (good : Good config cache) :
    Ensures (clearCache config) (fun _ after => Expedites config keys cache after) cache := by
  obtain ⟨⟨chain, sane⟩, -⟩ := good
  intro drained after ran
  have swept := (returns_clearBuckets sane).ensures drained after ran
  have thins := (thins_drainBuckets _ _).ensures _ _ _ ran
  exact ((thins.ages fun b => sweptChain_sublist ..).timed sane.orderly swept.sane.orderly).expedites
    swept.shed

theorem dropItem_thins (id : SegId) : Relates Thins (dropItem config id) := by
  have counts : Relates Thins (modifySegment id fun segment =>
      { segment with refCount := segment.refCount - 1 }) := by
    refine thins_modifySegment id ?_ ?_ ?_
    all_goals exact fun _ => rfl
  have releases : Relates Thins (tryReleaseCondemned id) := by
    refine .bind (thins_casMetadata _ (by decide) ..) fun released => .ite (.bind ?_ fun _ => .pure _) (.pure _)
    refine thins_modifySegment id ?_ ?_ ?_
    all_goals exact fun _ => rfl
  refine .bind (.read _) fun segment => .bind counts fun _ => .ite (.bind releases fun released => ?_) (.pure _)
  exact .ite (.bind (thins_reset id) fun _ => thins_pushFreed id) (.pure _)

/-- A held item is dropped: its segment has one reader less, or is free. -/
theorem ensures_dropItem_outcome (held : 0 < (cache.segment id).refCount) :
    Ensures (dropItem config id) (fun _ after =>
      (after = cache.counted id ((cache.segment id).refCount - 1) ∧
        ((cache.segment id).state = .awaitingRelease → 0 < (cache.segment id).refCount - 1)) ∨
      ((cache.segment id).state = .awaitingRelease ∧ after = cache.uncondemned config id)) cache := by
  have counted : ∀ state, ((cache.counted id ((cache.segment id).refCount - 1)).segment id).state =
      state ↔ (cache.segment id).state = state := by
    intro state
    unfold Cache.counted
    rw [setSegment_self]
  unfold dropItem
  rw [segmentOf, ensures_bind, ensures_read, modifySegment, ensures_bind, ensures_change]
  by_cases last : (cache.segment id).refCount = 1
  case neg =>
    rw [if_neg last]
    exact (ensures_pure _).mpr (.inl ⟨rfl, fun _ => by omega⟩)
  rw [if_pos last, ensures_bind]
  by_cases waits : (cache.segment id).state = .awaitingRelease
  · have released : tryReleaseCondemned id (cache.counted id ((cache.segment id).refCount - 1)) =
        some (true, (cache.counted id ((cache.segment id).refCount - 1)).setSegment id
          { cache.segment id with
            refCount := 0, state := .free, next := none, prev := none
            generation := (cache.segment id).generation + 1 }) := by
      unfold tryReleaseCondemned
      rw [bind_apply_of_some (casMetadata_apply _ _ ((counted _).mpr waits)), if_pos rfl]
      simp only [modifySegment, change_bind, setSegment_self, setSegment_setSegment, Cache.counted,
        last]
      rfl
    refine (returns_of_eq released ?_).ensures
    rw [if_pos rfl]
    simp only [modifySegment, pushFreed, ensures_bind, ensures_change, setSegment_self,
      setSegment_setSegment, Cache.counted]
    exact .inr ⟨waits, rfl⟩
  · have refused : tryReleaseCondemned id (cache.counted id ((cache.segment id).refCount - 1)) =
        some (false, cache.counted id ((cache.segment id).refCount - 1)) := by
      unfold tryReleaseCondemned
      rw [bind_apply_of_some (casMetadata_lost _ _ fun same => waits ((counted _).mp same))]
      rfl
    refine (returns_of_eq refused ?_).ensures
    rw [if_neg (by simp)]
    exact (ensures_pure _).mpr (.inl ⟨rfl, fun same => absurd same waits⟩)

/-- **Dropping a held item** leaves the chains as they are. -/
theorem ensures_dropItem_expedites (good : Good config cache)
    (held : 0 < (cache.segment id).refCount) :
    Ensures (dropItem config id) (fun _ after => Expedites config keys cache after) cache := by
  obtain ⟨⟨chain, sane⟩, -⟩ := good
  refine (((@dropItem_thins config id).ensures cache).and (ensures_dropItem_outcome held)).mono
    fun _ after ⟨thins, outcome⟩ => ?_
  rcases outcome with ⟨rfl, busy⟩ | ⟨waits, rfl⟩
  · exact (thins.ages_self.timed sane.orderly (sane.counted _ busy).orderly).expedites
      (shed_of_entries (fun _ _ _ slot => slot) fun _ _ => (counted_frame _).maps_iff.mp)
  · obtain ⟨sane', calm⟩ := sane.uncondemned waits
    exact (thins.ages_self.timed sane.orderly sane'.orderly).expedites calm.shed

theorem tick_expedites {now : Nat} (later : cache.now ≤ now) :
    Expedites config keys cache { cache with now := now } where
  timely := fun ⟨chain, orderly, dated⟩ =>
    ⟨chain, orderly, dated.sorted, fun b i inside => (dated.past b i inside).trans later, dated.undue,
      dated.expired.trans later⟩
  sooner _ _ _ mapping maps := ⟨mapping, maps, le_rfl⟩

theorem timely_new (config : Config) (random : UInt64) (now : Nat) :
    Timely config (Cache.new config random now) := by
  refine ⟨fun _ => [], orderly_new config random now, fun _ => .nil, fun _ _ no => (by cases no),
    fun i laid => ?_, le_rfl⟩
  have free : ((Cache.new config random now).segment i).state = .free := rfl
  rw [free] at laid
  cases laid

/-! ### Runs -/

/-- A call that has stored a key. -/
def Stores (config : Config) (cache : Cache) (key : Key) : Call → Answer → Prop
  | .insert stored _ _ _, .written (.ok _) => stored = key
  | .cas stored _ _ _ _, .written (.ok _) => stored = key
  | .tryIntoNumeric stored _ _, .written (.ok _) => stored = key ∧ cache.content config key = none
  | _, _ => False

/-- **A call postpones nothing of a key that it does not store.** -/
theorem Call.expedites (good : Good config cache) (fuel : Nat) (call : Call) :
    Ensures (call.answer config fuel) (fun answer after =>
      Expedites config (fun key => ¬ Stores config cache key call answer) cache after) cache := by
  have whatever : ∀ {α : Type} {procedure : Proc α} {make : α → Answer},
      Ensures procedure (fun _ after => ∀ keys, Expedites config keys cache after) cache →
      Ensures (do return make (← procedure) : Proc Answer) (fun answer after =>
        Expedites config (fun key => ¬ Stores config cache key call answer) cache after) cache :=
    fun ensured => Ensures.seq ensured fun _ _ expedites => (ensures_pure _).mpr (expedites _)
  cases call with
  | insert key value optional ttl =>
    refine Ensures.seq (ensures_insert_limits good fuel key value optional ttl) fun result after limits =>
      (ensures_pure _).mpr (limits.others.mono fun other unstored => ?_)
    cases result with
    | ok _ => exact .inl fun same => unstored same.symm
    | error error => exact .inr ⟨error, rfl⟩
  | get key updateFreq => exact whatever fun _ _ ran _ => ensures_get_expedites good key updateFreq _ _ ran
  | delete key => exact whatever fun _ _ ran _ => ensures_delete_expedites good key _ _ ran
  | cas key value optional ttl token =>
    refine Ensures.seq (ensures_cas_limits good fuel key value optional ttl token)
      fun result after limits => (ensures_pure _).mpr (limits.others.mono fun other unstored => ?_)
    cases result with
    | ok _ => exact .inl fun same => unstored same.symm
    | error error => exact .inr ⟨error, rfl⟩
  | wrappingAdd key rhs =>
    exact whatever fun _ _ ran _ => ensures_numericUpdate_expedites good key _ _ _ ran
  | saturatingSub key rhs =>
    exact whatever fun _ _ ran _ => ensures_numericUpdate_expedites good key _ _ _ ran
  | tryIntoNumeric key initial ttl =>
    refine Ensures.seq (ensures_tryIntoNumeric_limits good fuel key initial ttl)
      fun result after outcome => (ensures_pure _).mpr ?_
    rcases outcome with ⟨unmapped, limits⟩ | expedites
    · refine limits.others.mono fun other unstored => ?_
      cases result with
      | ok _ =>
        refine .inl fun same => unstored ⟨same.symm, ?_⟩
        rw [same]
        exact good.settled.content_none fun mapping awake => unmapped mapping awake.1
      | error error => exact .inr ⟨error, rfl⟩
    · exact expedites _
  | expire => exact whatever fun _ _ ran _ => ensures_expire_expedites good _ _ ran
  | clear =>
    rw [Call.answer]
    exact whatever fun _ _ ran _ => ensures_clearCache_expedites good _ _ ran

theorem answered {α : Type} {procedure : Proc α} (make : α → Answer)
    (ran : (do
      let _ ← procedure : Proc Unit) cache = some ((), after)) :
    ∃ answer, (do return make (← procedure) : Proc Answer) cache = some (answer, after) := by
  obtain ⟨result, middle, called, rested⟩ := bind_eq_some.mp ran
  cases rested
  exact ⟨make result, bind_apply_of_some called⟩

/-- A call that has been performed has answered. -/
theorem Call.answer_of_perform {fuel : Nat} {call : Call}
    (ran : call.perform config fuel cache = some ((), after)) :
    ∃ answer, call.answer config fuel cache = some (answer, after) := by
  cases call with
  | insert => exact answered .written ran
  | get => exact answered .viewed ran
  | delete => exact answered .deleted ran
  | cas => exact answered .written ran
  | wrappingAdd => exact answered .counted ran
  | saturatingSub => exact answered .counted ran
  | tryIntoNumeric => exact answered .written ran
  | expire => exact answered .swept ran
  | clear =>
    rw [Call.perform] at ran
    rw [Call.answer]
    generalize Segcache.clearCache config = sweep at ran ⊢
    exact answered .swept ran

theorem Step.timely (step : Step config cache after) (good : Good config cache)
    (timely : Timely config cache) : Timely config after := by
  cases step with
  | call fuel call ran =>
    obtain ⟨answer, answers⟩ := Call.answer_of_perform ran
    exact (Call.expedites good fuel call _ _ answers).timely timely
  | dropItem id held ran =>
    have expedites : Expedites config (fun _ => True) cache after :=
      ensures_dropItem_expedites good held _ _ ran
    exact expedites.timely timely
  | tick now later =>
    have expedites : Expedites config (fun _ => True) cache { cache with now := now } :=
      tick_expedites later
    exact expedites.timely timely

/-- **The chains of every reachable cache are in order.** -/
theorem Reachable.timely (reachable : Reachable config cache) : Timely config cache := by
  obtain ⟨random, now, run⟩ := reachable
  induction run with
  | refl => exact timely_new config random now
  | tail run step ih => exact step.timely (Reachable.good ⟨random, now, run⟩) ih

/-- A step of a thread that does not store a key. -/
inductive Spares (config : Config) (key : Key) : Cache → Cache → Prop
  | call {cache after : Cache} (fuel : Nat) (call : Call) (answer : Answer)
      (ran : call.answer config fuel cache = some (answer, after))
      (unstored : ¬ Stores config cache key call answer) : Spares config key cache after
  | dropItem {cache after : Cache} (id : SegId) (held : 0 < (cache.segment id).refCount)
      (ran : dropItem config id cache = some ((), after)) : Spares config key cache after
  | tick {cache : Cache} (now : Nat) (later : cache.now ≤ now) :
      Spares config key cache { cache with now := now }

theorem Spares.step (spares : Spares config key cache after) : Step config cache after := by
  cases spares with
  | call fuel call answer ran unstored => exact .call fuel call (Call.perform_of_answer ran)
  | dropItem id held ran => exact .dropItem id held ran
  | tick now later => exact .tick now later

theorem Spares.due {instant : Nat} (spares : Spares config key cache after)
    (reachable : Reachable config cache) (due : Due config cache key instant) :
    Due config after key instant := by
  have timely := reachable.timely
  have expedites : Expedites config (fun other => other = key) cache after := by
    cases spares with
    | call fuel call answer ran unstored =>
      refine (Call.expedites reachable.good fuel call _ _ ran).mono fun other same => ?_
      rw [same]
      exact unstored
    | dropItem id held ran => exact ensures_dropItem_expedites reachable.good held _ _ ran
    | tick now later => exact tick_expedites later
  exact expedites.due timely rfl due

/-- **Until it is stored again**, what a key is mapped to falls due by then. -/
theorem due_of_run {instant : Nat} {later : Cache}
    (run : Relation.ReflTransGen (Spares config key) cache later) (reachable : Reachable config cache)
    (due : Due config cache key instant) : Reachable config later ∧ Due config later key instant := by
  induction run with
  | refl => exact ⟨reachable, due⟩
  | tail _ spares ih => exact ⟨ih.1.step spares.step, spares.due ih.1 ih.2⟩

end CacheRs.Segcache
