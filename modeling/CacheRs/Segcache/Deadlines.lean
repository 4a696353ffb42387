/-
**No step of a call postpones a deadline.**

* `Timely`: the chains of a cache are in the order their members were created in;
* `Timed`: a step keeps a cache so, and no entry's item falls due later;
* `ensures_reserveLoop_timed`, `ensures_removeAt_timed`: the steps of the calls do;
* `Expedites`: what the keys are mapped to falls due no later;
* `ensures_publish_expedites`: **a publication does so for the other keys**.
-/

import CacheRs.Segcache.Ages
import CacheRs.Segcache.Calls

set_option linter.unusedSectionVars false

namespace CacheRs.Segcache

open DoublyLinked
open Segments (SegId State totalBuckets bucketTtl IsBucket getBucketIndex)
open Sequential Procedure

variable {config : Config} {hand hand' : Hand} {chain chain' : Nat → List SegId}
  {cache middle after : Cache} {id : SegId} {b size : Nat} {key : Key} {item : Item}
  {location new : Location}

/-- A cache has one list of chains at most. -/
theorem chain_unique (one : Orderly config hand chain cache.shape)
    (other : Orderly config hand' chain' cache.shape) : chain = chain' := by
  funext b
  exact Option.some.inj ((chainFrom_head one b).symm.trans (chainFrom_head other b))

/-- The chains are in order, and nothing in service was due when expiry was last looked for. -/
def Timely (config : Config) (cache : Cache) : Prop :=
  ∃ chain, Orderly config Hand.empty chain cache.shape ∧ Dated chain cache

theorem Timely.dated (timely : Timely config cache)
    (orderly : Orderly config Hand.empty chain cache.shape) : Dated chain cache := by
  obtain ⟨other, orderly', dated⟩ := timely
  exact chain_unique orderly' orderly ▸ dated

/-- A step keeps a cache timely, and no entry's item falls due later. -/
structure Timed (config : Config) (cache after : Cache) : Prop where
  timely : Timely config cache → Timely config after
  hastens : Timely config cache → Hastens cache after

theorem Timed.refl (cache : Cache) : Timed config cache cache := ⟨id, fun _ => .refl cache⟩

theorem Timed.trans (first : Timed config cache middle) (second : Timed config middle after) :
    Timed config cache after where
  timely timely := second.timely (first.timely timely)
  hastens timely := (first.hastens timely).trans (second.hastens (first.timely timely))

theorem Ages.timed (ages : Ages chain chain' cache after)
    (orderly : Orderly config Hand.empty chain cache.shape)
    (orderly' : Orderly config Hand.empty chain' after.shape) : Timed config cache after where
  timely timely := ⟨chain', orderly', ages.dated (timely.dated orderly)⟩
  hastens timely := ages.hastens (timely.dated orderly)

theorem Aging.timed (aging : Aging config Hand.empty chain cache after)
    (orderly : Orderly config Hand.empty chain cache.shape) : Timed config cache after := by
  obtain ⟨chain', sane, ages⟩ := aging
  exact ages.timed orderly sane.orderly

/-- What leaves the chains as they are. -/
theorem Thins.timed (thins : Thins cache after) (shape : after.shape = cache.shape) :
    Timed config cache after where
  timely := fun ⟨chain, orderly, dated⟩ =>
    ⟨chain, shape ▸ orderly, thins.ages_self.dated dated⟩
  hastens _ := thins.hastens

theorem ensures_evict_timed (sane : Sane config Hand.empty chain cache) (ranked : Ranked config cache) :
    Ensures (evict config) (fun _ after => Timed config cache after) cache :=
  (ensures_evict_ages sane ranked).mono fun _ _ aging => aging.1.timed sane.orderly

/-- When the items of a segment fall due. -/
def Cache.deadline (cache : Cache) (id : SegId) : Nat :=
  (cache.segment id).createAt + (cache.segment id).ttl

/-- **After an eviction nothing in service is due.** -/
theorem ensures_evict_undue (sane : Sane config Hand.empty chain cache) (ranked : Ranked config cache)
    (timely : Timely config cache) : Ensures (evict config) (fun _ after =>
      ∀ i, isLaid (after.segment i).state = true → cache.now < after.deadline i) cache := by
  intro result after ran
  obtain ⟨⟨chain', sane', ages⟩, swept⟩ := ensures_evict_ages sane ranked _ _ ran
  have dated := timely.dated sane.orderly
  intro i laid
  have undue := (ages.dated dated).undue i laid
  have := swept dated
  unfold Cache.deadline
  omega

/-! ### Room at the end of a chain -/

/-- A free segment is put at the end of a chain; nothing else gets another date. -/
theorem ensures_tryExpand_opens (queue : cache.freeQueue.head? = some id)
    (sane : Sane config Hand.empty chain cache) (seen : Option (SegId × BitVec 16)) :
    Ensures (tryExpand config b seen) (fun _ after => Opens id cache after) cache := by
  unfold tryExpand
  refine Ensures.seq (returns_reserveFree sane).ensures fun result one outcome => ?_
  rcases outcome with ⟨rfl, empty, rfl⟩ | ⟨other, rest, rfl, free, -, taken⟩
  · rw [empty] at queue
    cases queue
  rw [free, List.head?_cons] at queue
  cases queue
  have rest : Relates (Opens id) (do
      modifySegment id fun segment => { segment with ttl := bucketTtl b }
      let tail ← .read fun cache => (cache.bucket b).tail
      let stale ← .read fun cache => seen.any fun seen =>
        tail ≠ some seen.1 || (cache.segment seen.1).generation ≠ seen.2
      if stale then
        releaseUnused config id
        return true
      if ← linkTail b (seen.map Prod.fst) id then
        let _ ← casMetadata id .linking .live none none
        return true
      if tail = seen.map Prod.fst then .diverge
      releaseUnused config id
      return true : Proc Bool) := by
    have gives : Relates (Opens id) (do
        releaseUnused config id
        return true : Proc Bool) :=
      .bind ((thins_releaseUnused id).mono fun _ _ => Thins.opens) fun _ => .pure _
    refine .bind (opens_modifySegment ..) fun _ => .bind (.read _) fun tail =>
      .bind (.read _) fun stale => .ite gives (.bind (opens_linkTail ..) fun linked => ?_)
    refine .ite (.bind (opens_casMetadata ..) fun _ => .pure _) (.ite ?_ gives)
    exact .bind .diverge fun _ => gives
  exact (rest.ensures one).mono fun _ after later => trans_of (Opens id) taken.opens later

theorem bucketTtl_pos (b : Nat) : 0 < bucketTtl b := by
  unfold bucketTtl
  exact lt_max_of_lt_right one_pos

theorem Expanded.timed (expanded : Expanded config chain b id cache after)
    (opens : Opens id cache after) (sane : Sane config Hand.empty chain cache) :
    Timed config cache after := by
  have unheld := holds_of_free expanded.was
  have ages : Ages chain (Function.update chain b (chain b ++ [id])) cache after :=
    ⟨opens.append sane.orderly unheld expanded.createAt
      (by rw [expanded.ttl]; exact bucketTtl_pos b),
      fun _ => opens.hastens sane.consistent unheld⟩
  exact ages.timed sane.orderly expanded.sane.orderly

/-- A change of a segment that is no part of the chains, and not of its dates. -/
theorem setSegment_timed {segment : Segment} (node : segment.node = (cache.segment id).node)
    (createAt : segment.createAt = (cache.segment id).createAt) :
    Timed config cache (cache.setSegment id segment) := by
  have state : segment.state = (cache.segment id).state := congrArg Node.state node
  have ttl : segment.ttl = (cache.segment id).ttl := congrArg Node.ttl node
  have thins : Thins cache (cache.setSegment id segment) :=
    thins_setSegment createAt ttl fun laid => state ▸ laid
  refine thins.timed ?_
  rw [setSegment_shape, node]
  refine Shape.ext (funext fun i => ?_) rfl rfl rfl rfl rfl
  rw [Shape.setNode_node]
  split
  · rename_i same
    rw [same]
    rfl
  · rfl

theorem allocated_timed (cache : Cache) (id : SegId) (size : Nat) :
    Timed config cache (cache.allocated id size) := by
  unfold Cache.allocated
  exact setSegment_timed rfl rfl

/-- **The reserve loop grows chains in order.** -/
theorem ensures_reserveLoop_timed (isBucket : IsBucket b ∧ b < totalBuckets) (fuel : Nat)
    (sane : Sane config Hand.empty chain cache) :
    Ensures (reserveLoop config b size fuel) (fun _ after => Timed config cache after) cache := by
  induction fuel generalizing cache chain with
  | zero => exact ensures_diverge.mpr trivial
  | succ fuel ih =>
    by_cases asleep : ∃ id, (cache.bucket b).tail = some id ∧ (cache.segment id).state = .draining
    · obtain ⟨id, tail, state⟩ := asleep
      intro result after ran
      rw [reserveLoop_asleep fuel tail state] at ran
      exact ih sane result after ran
    have tailLive : TailLive cache b := fun t tail =>
      (sane.live_of_tail tail).2 fun state => asleep ⟨t, tail, state⟩
    by_cases room : ∃ id, HasRoom config b size cache id
    · obtain ⟨id, room⟩ := room
      exact (returns_of_eq (reserveLoop_room fuel room) (allocated_timed ..)).ensures
    · intro result after ran
      rw [reserveLoop_full fuel tailLive (not_exists.mp room)] at ran
      obtain ⟨grown, middle, expands, rest⟩ := bind_eq_some.mp ran
      rcases (returns_tryExpand sane isBucket tailLive).ensures grown middle expands with
        ⟨rfl, empty, rfl⟩ | ⟨rfl, id, queue, free, -, -, expanded⟩
      · cases rest
        exact .refl _
      · have opens := ensures_tryExpand_opens (by rw [free]; rfl) sane _ true middle expands
        exact (expanded.timed opens sane).trans (ih expanded.sane result after rest)

/-- **Reserving** grows chains and evicts. -/
theorem ensures_reserveRetry_timed (isBucket : IsBucket b ∧ b < totalBuckets)
    (fuel rounds retries : Nat) (sane : Sane config Hand.empty chain cache)
    (ranked : Ranked config cache) :
    Ensures (reserveRetry config fuel b size rounds retries)
      (fun _ after => Timed config cache after) cache := by
  induction rounds generalizing cache chain retries with
  | zero => exact ensures_diverge.mpr trivial
  | succ rounds ih =>
    unfold reserveRetry reserve
    by_cases oversized : config.segmentSize < size
    · rw [if_pos oversized]
      exact (ensures_pure _).mpr (.refl _)
    rw [if_neg oversized]
    refine Ensures.seq ((ensures_reserveLoop isBucket fuel sane).and
      (ensures_reserveLoop_timed isBucket fuel sane)) fun result middle known => ?_
    obtain ⟨answers, timed⟩ := known
    rcases answers with ⟨reserved, rfl, -⟩ | ⟨rfl, grown, -, chain', sane'⟩
    · exact (ensures_pure _).mpr timed
    dsimp only
    have ranked' : Ranked config middle := ranked.congr (by rw [grown.clock.eviction])
    rw [ensures_bind, ensures_read]
    refine Ensures.seq ((returns_evict sane' ranked').ensures.and (ensures_evict_timed sane' ranked'))
      fun _ last known => ?_
    obtain ⟨⟨evicts, -, -⟩, later⟩ := known
    obtain ⟨chain'', sane''⟩ := evicts.sane
    have again : ∀ retries, Ensures (reserveRetry config fuel b size rounds retries)
        (fun _ after => Timed config cache after) last := fun retries =>
      (ih retries sane'' evicts.ranked).mono fun _ after more => (timed.trans later).trans more
    rw [ensures_bind, ensures_read]
    refine Ensures.ite (fun _ => again retries) fun _ => ?_
    exact Ensures.ite (fun _ => (ensures_pure _).mpr (timed.trans later)) fun _ => again (retries - 1)

theorem ensures_routePool_timed (sane : Sane config Hand.empty chain cache)
    (ranked : Ranked config cache) (key : Key) : Ensures (routePool config key)
      (fun _ after => Timed config cache after) cache := by
  unfold routePool
  refine Ensures.ite (fun _ => (ensures_pure _).mpr (.refl _)) fun _ => ?_
  rw [ensures_bind, ensures_read]
  refine Ensures.ite (fun _ => ?_) fun _ => ?_
  · rw [ensures_bind, ensures_change]
    have same : Thins cache { cache with
        eviction := { cache.eviction with
          ghost := cache.eviction.ghost.remove (config.geometry.hashKey key) } } :=
      thins_of_same rfl rfl rfl rfl
    exact (ensures_pure _).mpr (same.timed rfl)
  · rw [ensures_bind, ensures_read]
    refine Ensures.ite (fun _ => ?_) fun _ => (ensures_pure _).mpr (.refl _)
    exact Ensures.seq (ensures_evict_timed sane ranked) fun _ _ timed => (ensures_pure _).mpr timed

theorem pooled_timed (pool : SegmentPool) : Timed config cache (cache.pooled id pool) := by
  refine Thins.timed ?_ (pooled_shape pool)
  unfold Cache.pooled
  split
  · have labels : Thins cache (cache.setSegment id { cache.segment id with pool := .admission }) :=
      thins_setSegment rfl rfl fun laid => laid
    refine trans_of Thins labels ?_
    exact thins_of_same rfl rfl rfl rfl
  · exact refl_of Thins cache

theorem ensures_define_timed (reserved : Reserved) (pool : SegmentPool) (key : Key)
    (value : KeyValue.Value) (optional : Optional) :
    Ensures (define reserved pool key value optional) (fun _ after => Timed config cache after)
      cache := by
  have writes : Timed config cache (cache.setSegment reserved.seg
      { cache.segment reserved.seg with
        items := (cache.segment reserved.seg).items ++ [⟨key, value, optional, 0, false⟩] }) :=
    setSegment_timed rfl rfl
  exact (returns_of_eq (define_apply reserved pool) (writes.trans (pooled_timed pool))).ensures

/-- **An item is written, or there is no room.** -/
theorem ensures_reserveAndDefine_timed (good : Good config cache) (fuel : Nat) (key : Key)
    (value : KeyValue.Value) (optional : Optional) (ttl : Nat) :
    Ensures (reserveAndDefine config fuel key value optional ttl)
      (fun _ after => Timed config cache after) cache := by
  obtain ⟨⟨chain, sane⟩, ranked⟩ := good
  unfold reserveAndDefine
  refine Ensures.seq ((returns_routePool sane ranked key).ensures.and
    (ensures_routePool_timed sane ranked key)) fun pool middle ⟨⟨routed, _, _⟩, first⟩ => ?_
  obtain ⟨chain', sane'⟩ := routed.sane
  refine Ensures.seq (ensures_reserveRetry_timed (isBucket_getBucketIndex ttl) fuel fuel
    reserveRetries sane' routed.ranked) fun result after second => ?_
  cases result with
  | error error => exact (ensures_pure _).mpr (first.trans second)
  | ok reserved =>
    exact Ensures.seq (ensures_define_timed reserved pool key value optional) fun _ last third =>
      (ensures_pure _).mpr ((first.trans second).trans third)

/-! ### An item leaves its segment -/

/-- An empty segment is freed. -/
theorem ensures_freeEmpty_timed (sane : Sane config Hand.empty chain cache)
    (evictable : (cache.segment id).canEvict = true) :
    Ensures (freeEmpty config id) (fun _ after => Timed config cache after) cache := by
  have state := (sealed_of_canEvict evictable).1
  obtain ⟨b, front, back, inside, -, locked⟩ := lockSealedInBucket_apply sane state
  unfold freeEmpty
  rw [ensures_bind]
  refine (returns_of_eq locked ?_).ensures
  dsimp only
  rw [segmentOf, ensures_bind, ensures_read]
  refine Ensures.seq (ensures_clearSegment_ages sane state inside) fun outcome middle known => ?_
  obtain ⟨⟨done, rfl⟩, aging⟩ := known
  dsimp only
  exact (returns_of_eq (headPatched_apply _ _) (aging.timed sane.orderly)).ensures

/-- Two sparse segments are compacted. -/
theorem ensures_compactAfter_timed (merge : config.policy.isMerge = true)
    (sane : Sane config Hand.empty chain cache) (held : holds (cache.segment id).state = true) :
    Ensures (compactAfter config id) (fun _ after => Timed config cache after) cache := by
  obtain ⟨b, front, back, inside⟩ := sane.orderly.split (i := id) held
  have here : id ∈ chain b := by
    rw [inside]
    simp
  have ttl : (cache.segment id).ttl = bucketTtl b := sane.orderly.ttl b id here
  have isBucket := (sane.orderly.bucket b (List.ne_nil_of_mem here)).1
  have bucket : getBucketIndex (cache.segment id).ttl = b := by
    rw [ttl]
    exact isBucket
  unfold compactAfter
  dsimp only
  rw [segmentOf, ensures_bind, ensures_read]
  refine Ensures.ite (fun _ => (ensures_pure _).mpr (.refl _)) fun _ => ?_
  cases next : (cache.segment id).next with
  | none => exact (ensures_pure _).mpr (.refl _)
  | some other =>
    dsimp only
    rw [segmentOf, ensures_bind, ensures_read]
    refine Ensures.ite (fun _ => (ensures_pure _).mpr (.refl _)) fun _ => ?_
    rw [ensures_bind, ensures_read]
    refine Ensures.ite (fun _ => ?_) fun _ => (ensures_pure _).mpr (.refl _)
    rw [bucket]
    refine Ensures.seq (ensures_mergeCompact_ages sane isBucket (not_merges merge))
      fun _ middle aging => ?_
    have same : Thins middle (middle.aimed b none) := thins_of_same rfl rfl rfl rfl
    exact (returns_of_eq (setNextToMerge_apply b none)
      ((aging.timed sane.orderly).trans (same.timed (aimed_shape b none)))).ensures

/-- **An item in hand is taken away.** -/
theorem ensures_removeAt_timed (settled : Settled config (some location) cache)
    (item_ : cache.itemAt config location = some item) :
    Ensures (removeAt config location) (fun _ after => Timed config cache after) cache := by
  obtain ⟨⟨chain, sane⟩, -⟩ := settled.accounted item_
  have step : Timed config cache (cache.accounted config location item) := by
    unfold Cache.accounted
    exact setSegment_timed rfl rfl
  obtain ⟨-, held, present⟩ := settled.consistent.inHand rfl
  have held' : holds ((cache.accounted config location item).segment location.segment).state =
      true := by
    unfold Cache.accounted
    rw [setSegment_self]
    exact present.state
  unfold removeAt
  rw [ensures_bind, ensures_read]
  refine Ensures.ite (fun _ => (ensures_pure _).mpr (.refl _)) fun _ => ?_
  rw [ensures_bind]
  refine (returns_of_eq (removeItemAt_accounted settled item_) ?_).ensures
  rw [segmentOf, ensures_bind, ensures_read]
  refine Ensures.ite (fun empty => ?_) fun _ => Ensures.ite (fun merge => ?_) fun _ => ?_
  · simp only [Bool.and_eq_true, decide_eq_true_eq] at empty
    exact (ensures_freeEmpty_timed sane empty.2).mono fun _ _ => step.trans
  · exact (ensures_compactAfter_timed merge sane held').mono fun _ _ => step.trans
  · exact (ensures_pure _).mpr step

/-! ### What the keys are mapped to -/

theorem NoLater.deadline {i : SegId} (sooner : NoLater (cache.segment id) (after.segment i)) :
    after.deadline i ≤ cache.deadline id := by
  unfold Cache.deadline
  have := sooner.createAt
  rw [sooner.ttl]
  omega

/-- A step keeps a cache timely, and the items of these keys fall due no later. -/
structure Expedites (config : Config) (keys : Key → Prop) (cache after : Cache) : Prop where
  timely : Timely config cache → Timely config after
  sooner : Timely config cache → ∀ key, keys key → ∀ mapping, Maps config after key mapping →
    ∃ old, Maps config cache key old ∧
      after.deadline mapping.location.segment ≤ cache.deadline old.location.segment

section Keys

variable {keys others : Key → Prop}

theorem Expedites.refl (cache : Cache) : Expedites config keys cache cache :=
  ⟨id, fun _ _ _ mapping maps => ⟨mapping, maps, le_rfl⟩⟩

theorem Expedites.trans (first : Expedites config keys cache middle)
    (second : Expedites config keys middle after) : Expedites config keys cache after where
  timely timely := second.timely (first.timely timely)
  sooner timely key spared mapping maps := by
    obtain ⟨between, was, sooner⟩ := second.sooner (first.timely timely) key spared mapping maps
    obtain ⟨old, wasOld, soonerStill⟩ := first.sooner timely key spared between was
    exact ⟨old, wasOld, sooner.trans soonerStill⟩

theorem Expedites.mono (expedites : Expedites config keys cache after)
    (fewer : ∀ key, others key → keys key) : Expedites config others cache after :=
  ⟨expedites.timely, fun timely key spared => expedites.sooner timely key (fewer key spared)⟩

/-- A step that loses items only, and postpones none. -/
theorem Timed.expedites (timed : Timed config cache after) (shed : Shed config cache after) :
    Expedites config keys cache after where
  timely := timed.timely
  sooner timely key _ mapping maps := by
    obtain ⟨b, i, tag, slot, item, same⟩ := maps
    obtain ⟨old, was, sooner⟩ := (timed.hastens timely).entries b i _ slot
    obtain ⟨again, was', here⟩ := shed b i _ _ slot item
    cases was.symm.trans was'
    exact ⟨⟨mapping.item, old.freq, old.location⟩, ⟨b, i, old.tag, was, here, same⟩, sooner.deadline⟩

end Keys

section Publish

variable (holding : Holding config new item cache)

include holding

theorem ensures_rollbackReservation_timed : Ensures (rollbackReservation config new)
    (fun _ after => Timed config cache after ∧ Shed config cache after) cache := by
  have apply := rollbackReservation_apply holding
  refine (returns_of_eq apply ⟨?_, ?_⟩).ensures
  · unfold Cache.accounted
    exact setSegment_timed rfl rfl
  · exact shed_of_entries (fun _ _ _ slot => slot)
      fun key mapping => ((holding.settled.accounted holding.item).2 key mapping).mp

/-- The other keys are mapped to what they were behind the new entry. -/
theorem Holding.entered_expedites {ref : Nat × Nat} {freq : BitVec 8}
    (was : ∀ old, cache.table.slot ref.1 ref.2 = some old →
      ∀ held, cache.itemAt config old.location = some held → held.key = item.key)
    (only : ∀ mapping, Maps config cache item.key mapping →
      ∃ old, cache.table.slot ref.1 ref.2 = some old ∧ old.location = mapping.location) :
    Expedites config (fun other => other ≠ item.key) cache
      (cache.entered ref ⟨config.geometry.tag item.key, freq, new⟩) where
  timely := fun ⟨chain, orderly, dated⟩ =>
    ⟨chain, orderly, dated.sorted, dated.past, dated.undue, dated.expired⟩
  sooner _ other different mapping maps := by
    rcases (holding.maps_entered was only other mapping).mp maps with ⟨same, -⟩ | ⟨-, maps'⟩
    · exact absurd same different
    · exact ⟨mapping, maps', le_rfl⟩

/-- **The entry of a key takes the item in hand**, and the old item is taken away. -/
theorem ensures_replace_expedites (alive : item.deleted = false) {mapping : Mapping}
    {slot : Hashtable.SlotRef} (maps : Maps config cache item.key mapping)
    (candidate : (slot.bucket, slot.slot) ∈ Table.candidates config.geometry item.key)
    (tag : slot.tag = config.geometry.tag item.key)
    (entry : cache.table.slot slot.bucket slot.slot =
      some ⟨slot.tag, mapping.freq, mapping.location⟩) :
    Ensures (onTable fun table => table.casLocationAt slot mapping.location new true)
      (fun swapped middle => swapped = true ∧ Ensures (removeAt config mapping.location)
        (fun _ after => Expedites config (fun other => other ≠ item.key) cache after) middle)
      cache := by
  have swaps : cache.table.casLocationAt slot mapping.location new true =
      (true, cache.table.setSlot (slot.bucket, slot.slot)
        (some ⟨config.geometry.tag item.key, mapping.freq, new⟩)) := by
    unfold Table.casLocationAt
    rw [entry]
    simp [tag]
  unfold onTable
  rw [ensures_exchange]
  dsimp only
  rw [swaps]
  refine ⟨rfl, ?_⟩
  have settled := @Holding.entered _ _ _ _ holding alive (slot.bucket, slot.slot) mapping.freq
    candidate (some mapping.location) (by rw [entry]; rfl) fun other was => by
      rw [holding.settled.consistent.maps_unique was maps]
  have expedites := @Holding.entered_expedites _ _ _ _ holding (slot.bucket, slot.slot) mapping.freq
    (fun old was held here => by
      cases entry.symm.trans was
      cases maps.item.symm.trans here
      exact maps.key) fun other was => ⟨_, entry, by
        rw [holding.settled.consistent.maps_unique was maps]⟩
  have item_ : (cache.entered (slot.bucket, slot.slot)
      ⟨config.geometry.tag item.key, mapping.freq, new⟩).itemAt config mapping.location =
      some mapping.item := maps.item
  refine ((ensures_removeAt_timed settled item_).and (returns_removeAt settled item_
    (holding.ranked.congr rfl)).ensures).mono fun _ after ⟨timed, tidied⟩ => ?_
  exact expedites.trans (timed.expedites tidied.shed)

/-- **A publication postpones nothing of the other keys**, and a refused one of no key. -/
theorem ensures_publish_expedites (alive : item.deleted = false) :
    Ensures (publish config item.key new) (fun result after => Expedites config
      (fun other => other ≠ item.key ∨ ∃ error, result = some (.error error)) cache after) cache := by
  have spared : ∀ {after : Cache} {error : Prop}, ¬ error →
      Expedites config (fun other => other ≠ item.key) cache after →
      Expedites config (fun other => other ≠ item.key ∨ error) cache after :=
    fun no expedites => expedites.mono fun _ => (Or.resolve_right · no)
  unfold publish
  rcases holding.settled.lookup_apply item.key with
    ⟨mapping, slot, maps, found, candidate, tag, entry, awake⟩ | ⟨none, absent⟩ | ⟨location, asleep, unknown⟩
  rotate_right
  · intro result after ran
    rw [bind_apply_of_some unknown] at ran
    dsimp only at ran
    rw [bind_apply_of_some (rollbackReservation_apply holding),
      bind_apply_of_none (waits_asleep holding asleep)] at ran
    cases ran
  · have unnamed := (holding.settled.consistent.inHand rfl).1
    have different : mapping.location ≠ new := fun same => unnamed (same ▸ maps.named)
    rw [ensures_bind]
    refine (returns_of_eq found ?_).ensures
    dsimp only
    rw [if_neg different, segmentOf, ensures_bind, ensures_read,
      removable_of_awake awake, if_neg (by simp)]
    refine Ensures.seq (ensures_replace_expedites holding alive maps candidate tag entry)
      fun swapped middle known => ?_
    obtain ⟨same, removes⟩ := known
    subst same
    rw [if_neg (by simp)]
    exact Ensures.seq removes fun _ after expedites =>
      (ensures_pure _).mpr (spared (by rintro ⟨_, no⟩; cases no) expedites)
  · rw [ensures_bind]
    refine (returns_of_eq absent ?_).ensures
    dsimp only
    have scan : cache.table.scan (cache.verify config item.key) (config.geometry.tag item.key)
        Option.none (Table.candidates config.geometry item.key) = .absent := by
      rcases holding.settled.scan item.key with ⟨_, mapping, _, _, _, maps, _⟩ | ⟨scan, -⟩ |
        ⟨location, scan, -⟩
      · exact absurd maps (none mapping)
      · exact scan
      · have ran : lookupNoFreqUpdate config item.key cache = some
            (cache.table.lookupNoFreqUpdate config.geometry (cache.verify config item.key) item.key,
              cache) := rfl
        rw [absent, Table.lookupNoFreqUpdate, scan] at ran
        cases ran
    rw [ensures_bind]
    unfold insertEntry
    rw [ensures_exchange]
    dsimp only
    rw [Table.insert, scan]
    dsimp only
    cases slot : cache.table.emptySlot config.geometry item.key with
    | none =>
      refine Ensures.seq (ensures_rollbackReservation_timed holding) fun _ after known => ?_
      exact (ensures_pure _).mpr (known.1.expedites known.2)
    | some ref =>
      have empty : cache.table.slot ref.1 ref.2 = Option.none := by
        have := List.find?_some slot
        simpa using this
      refine (ensures_pure _).mpr (spared (by rintro ⟨_, no⟩; cases no) ?_)
      exact holding.entered_expedites (fun old was => by cases empty.symm.trans was)
        fun mapping maps => absurd maps (none mapping)

/-- **A replacement postpones nothing of the other keys**, and a refused one of no key. -/
theorem ensures_replaceAt_expedites (alive : item.deleted = false) {old : Location}
    {slot : Hashtable.SlotRef}
    (candidate : (slot.bucket, slot.slot) ∈ Table.candidates config.geometry item.key)
    (tag : slot.tag = config.geometry.tag item.key)
    (own : ∀ entry held, cache.table.slot slot.bucket slot.slot = some entry →
      cache.itemAt config entry.location = some held → held.key = item.key)
    (expected : Option UInt64) : Ensures (replaceAt config item.key old slot new expected)
      (fun result after => Expedites config
        (fun other => other ≠ item.key ∨ ∃ error, result = .error error) cache after) cache := by
  have givenBack : ∀ {rest : Unit → Proc (Except SegcacheError Unit)},
      (∀ value state, rest value state = some (.error .exists_, state)) →
      Ensures (rollbackReservation config new >>= rest) (fun result after => Expedites config
        (fun other => other ≠ item.key ∨ ∃ error, result = .error error) cache after) cache := by
    intro rest same
    refine Ensures.seq (ensures_rollbackReservation_timed holding) fun value after ⟨timed, shed⟩ => ?_
    exact (returns_of_eq (same value after) (timed.expedites shed)).ensures
  unfold replaceAt segmentOf
  rw [ensures_bind, ensures_read]
  refine Ensures.ite (fun _ => givenBack fun _ _ => rfl) fun _ => ?_
  rw [ensures_bind, ensures_read]
  refine Ensures.ite (fun _ => givenBack fun _ _ => rfl) fun _ => ?_
  rw [ensures_bind, ensures_read]
  dsimp only
  rw [ensures_bind, ensures_read]
  refine Ensures.ite (fun _ => givenBack fun _ _ => rfl) fun _ => ?_
  by_cases there : ∃ freq, cache.table.slot slot.bucket slot.slot = some ⟨slot.tag, freq, old⟩
  · obtain ⟨freq, entry⟩ := there
    obtain ⟨held, present, -⟩ := holding.settled.consistent.sound entry
    have maps : Maps config cache item.key ⟨held, freq, old⟩ :=
      ⟨_, _, _, entry, present.item, own _ held entry present.item⟩
    refine Ensures.seq (ensures_replace_expedites holding alive maps candidate tag entry)
      fun swapped middle ⟨same, removes⟩ => ?_
    subst same
    rw [if_neg (by simp)]
    refine Ensures.seq removes fun _ after expedites => (ensures_pure _).mpr ?_
    refine expedites.mono fun other spared => spared.resolve_right ?_
    rintro ⟨_, no⟩
    cases no
  · have refuses : cache.table.casLocationAt slot old new true = (false, cache.table) := by
      unfold Table.casLocationAt
      cases entry : cache.table.slot slot.bucket slot.slot with
      | none => rfl
      | some found =>
        dsimp only
        refine if_neg fun both => there ⟨found.freq, ?_⟩
        simp only [Bool.and_eq_true, decide_eq_true_eq] at both
        rw [entry, ← both.1, ← both.2]
    have refused : onTable (fun table => table.casLocationAt slot old new true) cache =
        some (false, cache) := by
      unfold onTable
      rw [exchange_apply]
      dsimp only
      rw [refuses]
    rw [ensures_bind]
    refine (returns_of_eq refused ?_).ensures
    rw [if_pos (by simp)]
    exact givenBack fun _ _ => rfl

end Publish

end CacheRs.Segcache
