/-
**Room for an item.**

* `Proceeds`: what a call leaves between two of its steps;
* `ByEviction`, `Evicting`: only its evictions change what the keys are mapped to;
* `ensures_reserveRetry`, `returns_reserveRetry`: **reserving finds room or gives up**, and does so in
  a few rounds for an item that fits a fresh segment;
* `Holding`, `returns_define`: a reserved item is written, and is in hand.
-/

import CacheRs.Segcache.Lookups

set_option linter.unusedSectionVars false

namespace CacheRs.Segcache

open KeyValue (Value)
open Segments (SegId State totalBuckets bucketTtl IsBucket getBucketIndex)
open Sequential Procedure

variable {config : Config} {chain : Nat → List SegId} {cache middle after : Cache}
  {id : SegId} {b size : Nat} {key : Key} {value : Value} {optional : Optional}

/-- What a call leaves between two of its steps: keys have lost their items at most. -/
structure Proceeds (config : Config) (cache after : Cache) : Prop where
  sane : ∃ chain, Sane config Hand.empty chain after
  shed : Shed config cache after
  wanes : Wanes config cache after
  now : after.now = cache.now
  ranked : Ranked config after

theorem Proceeds.refl (sane : Sane config Hand.empty chain cache) (ranked : Ranked config cache) :
    Proceeds config cache cache :=
  ⟨⟨chain, sane⟩, Shed.refl cache, Wanes.refl cache, rfl, ranked⟩

theorem Proceeds.trans (first : Proceeds config cache middle) (second : Proceeds config middle after) :
    Proceeds config cache after :=
  ⟨second.sane, first.shed.trans second.shed, first.wanes.trans second.wanes,
    second.now.trans first.now, second.ranked⟩

theorem Evicts.proceeds (evicts : Evicts config cache after) : Proceeds config cache after :=
  ⟨evicts.sane, evicts.shed, evicts.wanes, evicts.now, evicts.ranked⟩

theorem Grown.proceeds (grown : Grown config cache after) (sane : Sane config Hand.empty chain after)
    (ranked : Ranked config cache) : Proceeds config cache after :=
  ⟨⟨chain, sane⟩, grown.calm.shed,
    wanes_of_maps (fun key mapping => (grown.calm.maps key mapping).mp) grown.asleep, grown.clock.now,
    ranked.congr (by rw [grown.clock.eviction])⟩

/-- What a write does between its evictions: it forgets a ghost, grows a chain in vain, fills room it
has found, or gives that back. -/
inductive RoomStep (config : Config) : Cache → Cache → Prop
  | unghost {cache : Cache} (hash : UInt64) : RoomStep config cache
      { cache with eviction := { cache.eviction with ghost := cache.eviction.ghost.remove hash } }
  | grow {cache after : Cache} {b size fuel : Nat} {error : TtlBucketsError}
      (ran : reserveLoop config b size fuel cache = some (.error error, after)) :
      RoomStep config cache after
  | fill {cache middle after : Cache} {b fuel : Nat} {reserved : Reserved} {pool : SegmentPool}
      {key : Key} {value : Value} {optional : Optional}
      (found : reserveLoop config b (config.itemSize key value optional) fuel cache =
        some (.ok reserved, middle))
      (filled : Segcache.define reserved pool key value optional middle = some ((), after)) :
      RoomStep config cache after
  | giveBack {cache after : Cache} {location : Location}
      (ran : rollbackReservation config location cache = some ((), after)) : RoomStep config cache after

/-- A step of a write: an eviction, or one on its room that changes no mapping. -/
def EvictionStep (config : Config) (cache after : Cache) : Prop :=
  (∃ result, evict config cache = some (result, after)) ∨
    (RoomStep config cache after ∧
      ∀ key mapping, Maps config after key mapping ↔ Maps config cache key mapping)

/-- Only evictions change what the keys are mapped to. -/
def ByEviction (config : Config) : Cache → Cache → Prop := Relation.ReflTransGen (EvictionStep config)

/-- What a call leaves between two of its steps, when only evictions have taken items. -/
structure Evicting (config : Config) (cache after : Cache) : Prop extends Proceeds config cache after where
  trace : ByEviction config cache after

theorem Evicting.refl (sane : Sane config Hand.empty chain cache) (ranked : Ranked config cache) :
    Evicting config cache cache :=
  ⟨Proceeds.refl sane ranked, .refl⟩

theorem Evicting.trans (first : Evicting config cache middle) (second : Evicting config middle after) :
    Evicting config cache after :=
  ⟨first.toProceeds.trans second.toProceeds, first.trace.trans second.trace⟩

theorem Evicts.evicting {result : Except SegmentsError Unit} (evicts : Evicts config cache after)
    (ran : evict config cache = some (result, after)) : Evicting config cache after :=
  ⟨evicts.proceeds, .single (.inl ⟨result, ran⟩)⟩

theorem Grown.evicting (grown : Grown config cache after) (sane : Sane config Hand.empty chain after)
    (ranked : Ranked config cache) (step : RoomStep config cache after) : Evicting config cache after :=
  ⟨grown.proceeds sane ranked, .single (.inr ⟨step, grown.calm.maps⟩)⟩

/-! ### Reserving -/

theorem isBucket_getBucketIndex (ttl : Nat) :
    IsBucket (getBucketIndex ttl) ∧ getBucketIndex ttl < totalBuckets :=
  ⟨Segments.isBucket_bucketIndex _, Segments.bucketIndex_lt _⟩

/-- What reserving answers. -/
def Reserves (config : Config) (b size : Nat) (cache : Cache)
    (result : Except SegcacheError Reserved) (after : Cache) : Prop :=
  (∃ reserved middle, result = .ok reserved ∧ Evicting config cache middle ∧
    RoomFound config b size middle reserved after ∧
    ∃ fuel, reserveLoop config b size fuel middle = some (.ok reserved, after)) ∨
    (result = .error (.itemOversized size) ∧ config.segmentSize < size ∧ after = cache) ∨
    (result = .error .noFreeSegments ∧ Evicting config cache after)

/-- **Whatever the retry loop returns**, it has found room, refused the size or given up. -/
theorem ensures_reserveRetry (isBucket : IsBucket b ∧ b < totalBuckets)
    (fuel rounds retries : Nat) (sane : Sane config Hand.empty chain cache)
    (ranked : Ranked config cache) :
    Ensures (reserveRetry config fuel b size rounds retries) (Reserves config b size cache) cache := by
  induction rounds generalizing cache chain retries with
  | zero => exact ensures_diverge.mpr trivial
  | succ rounds ih =>
    unfold reserveRetry reserve
    by_cases oversized : config.segmentSize < size
    · rw [if_pos oversized]
      exact (ensures_pure _).mpr (.inr (.inl ⟨rfl, oversized, rfl⟩))
    rw [if_neg oversized]
    refine Ensures.seq (ensures_reserveLoop isBucket fuel sane).ran fun result middle ⟨ran, answers⟩ => ?_
    rcases answers with ⟨reserved, rfl, found⟩ | ⟨rfl, grown, -, chain', sane'⟩
    · exact (ensures_pure _).mpr
        (.inl ⟨reserved, cache, rfl, Evicting.refl sane ranked, found, fuel, ran⟩)
    dsimp only
    have first := grown.evicting sane' ranked (.grow ran)
    rw [ensures_bind, ensures_read]
    refine Ensures.seq (returns_evict sane' first.ranked).ensures.ran fun _ last ⟨evicted, evicts, _, _⟩ => ?_
    have second := first.trans (evicts.evicting evicted)
    obtain ⟨chain'', sane''⟩ := second.sane
    have again : ∀ retries, Ensures (reserveRetry config fuel b size rounds retries)
        (Reserves config b size cache) last := by
      intro retries
      refine (ih retries sane'' second.ranked).mono fun result after answers => ?_
      rcases answers with ⟨reserved, between, rfl, proceeds, found⟩ | ⟨_, oversized', _⟩ | ⟨rfl, proceeds⟩
      · exact .inl ⟨reserved, between, rfl, second.trans proceeds, found⟩
      · exact absurd oversized' oversized
      · exact .inr (.inr ⟨rfl, second.trans proceeds⟩)
    rw [ensures_bind, ensures_read]
    refine Ensures.ite (fun _ => again retries) fun _ => ?_
    refine Ensures.ite (fun _ => ?_) fun _ => again (retries - 1)
    exact (ensures_pure _).mpr (.inr (.inr ⟨rfl, second⟩))

section Fits

variable (isBucket : IsBucket b ∧ b < totalBuckets)
  (fits : config.initialOffset + size ≤ config.segmentSize)

include isBucket fits

/-- One round for an item that fits a fresh segment: without a free segment there is an eviction. -/
theorem reserveRetry_round (merges : config.Merges) (sane : Sane config Hand.empty chain cache)
    (ranked : Ranked config cache) (fuel rounds retries : Nat) :
    (∃ reserved after, RoomFound config b size cache reserved after ∧
      reserveRetry config (fuel + 2) b size (rounds + 1) retries cache = some (.ok reserved, after)) ∨
    (cache.freeQueue = [] ∧ ∃ result last, evict config cache = some (result, last) ∧
      Evicts config cache last ∧
      (config.policy.searches = true ∨ config.policy.isS3Fifo = true → Unpinned cache →
        (∃ i, (cache.segment i).canEvict = true) → Yields cache last) ∧
      reserveRetry config (fuel + 2) b size (rounds + 1) retries cache =
        if last.freed ≠ cache.freed then
          reserveRetry config (fuel + 2) b size rounds retries last
        else if retries ≤ 1 then some (.error .noFreeSegments, last)
        else reserveRetry config (fuel + 2) b size rounds (retries - 1) last) := by
  obtain ⟨answer, middle, loops, outcome⟩ := returns_reserveLoop merges isBucket fits fuel sane
  have reserves : reserve config (fuel + 2) b size cache = some (answer, middle) := by
    unfold reserve
    rw [if_neg (by omega)]
    exact loops
  rcases outcome with ⟨reserved, rfl, found⟩ | ⟨rfl, empty, rfl⟩
  · refine .inl ⟨reserved, middle, found, ?_⟩
    rw [reserveRetry, bind_apply_of_some reserves]
    rfl
  · obtain ⟨result, last, evicted, evicts, yields, -⟩ := returns_evict sane ranked
    refine .inr ⟨empty, result, last, evicted, evicts, yields, ?_⟩
    rw [reserveRetry, bind_apply_of_some reserves]
    dsimp only
    rw [read_bind, bind_apply_of_some evicted, read_bind]
    split
    · rfl
    · split <;> rfl

/-- With a free segment room is found at once. -/
theorem reserveRetry_free (merges : config.Merges) (sane : Sane config Hand.empty chain cache)
    (ranked : Ranked config cache) (some_ : cache.freeQueue ≠ []) (fuel rounds retries : Nat) :
    ∃ reserved after, RoomFound config b size cache reserved after ∧
      reserveRetry config (fuel + 2) b size (rounds + 1) retries cache = some (.ok reserved, after) :=
  (reserveRetry_round isBucket fits merges sane ranked fuel rounds retries).resolve_right
    fun ⟨empty, _⟩ => some_ empty

/-- **Reserving ends** for an item that fits a fresh segment. -/
theorem returns_reserveRetry (merges : config.Merges) (fuel rounds retries : Nat)
    (sane : Sane config Hand.empty chain cache) (ranked : Ranked config cache) :
    Returns (reserveRetry config (fuel + 2) b size (rounds + retries + 2) retries)
      (Reserves config b size cache) cache := by
  have returned : ∃ result after,
      reserveRetry config (fuel + 2) b size (rounds + retries + 2) retries cache =
        some (result, after) := by
    induction retries generalizing cache chain with
    | zero =>
      rcases reserveRetry_round isBucket fits merges sane ranked fuel (rounds + 0 + 1) 0 with
        ⟨reserved, after, -, ran⟩ | ⟨empty, result, last, -, evicts, -, ran⟩
      · exact ⟨_, _, ran⟩
      · obtain ⟨chain', sane'⟩ := evicts.sane
        by_cases same : last.freed = cache.freed
        · rw [if_neg (not_not.mpr same), if_pos (Nat.zero_le _)] at ran
          exact ⟨_, _, ran⟩
        · rw [if_pos same] at ran
          have length := (evicts.flows empty).length
          have some_ : last.freeQueue ≠ [] := by
            intro none
            rw [empty, none] at length
            exact same (by simpa using length)
          obtain ⟨reserved, after, -, again⟩ := reserveRetry_free isBucket fits merges sane'
            evicts.ranked some_ fuel (rounds + 0) 0
          exact ⟨_, _, ran.trans again⟩
    | succ retries ih =>
      rcases reserveRetry_round isBucket fits merges sane ranked fuel (rounds + retries + 2)
        (retries + 1) with ⟨reserved, after, -, ran⟩ | ⟨empty, result, last, -, evicts, -, ran⟩
      · exact ⟨_, _, ran⟩
      · obtain ⟨chain', sane'⟩ := evicts.sane
        by_cases same : last.freed = cache.freed
        · rw [if_neg (not_not.mpr same)] at ran
          by_cases few : retries + 1 ≤ 1
          · rw [if_pos few] at ran
            exact ⟨_, _, ran⟩
          · rw [if_neg few, Nat.add_sub_cancel] at ran
            obtain ⟨result, after, again⟩ := ih sane' evicts.ranked
            exact ⟨result, after, ran.trans again⟩
        · rw [if_pos same] at ran
          have length := (evicts.flows empty).length
          have some_ : last.freeQueue ≠ [] := by
            intro none
            rw [empty, none] at length
            exact same (by simpa using length)
          obtain ⟨reserved, after, -, again⟩ := reserveRetry_free isBucket fits merges sane'
            evicts.ranked some_ fuel (rounds + retries + 1) (retries + 1)
          exact ⟨_, _, ran.trans again⟩
  obtain ⟨result, after, ran⟩ := returned
  exact ⟨result, after, ran, ensures_reserveRetry isBucket _ _ _ sane ranked _ _ ran⟩

end Fits

/-! ### The pool -/

/-- **The pool an item is written to**; the admission pool may have been relieved. -/
theorem returns_routePool (sane : Sane config Hand.empty chain cache)
    (ranked : Ranked config cache) (key : Key) : Returns (routePool config key) (fun _ after =>
      Evicting config cache after ∧
      (config.policy.isS3Fifo = false ∨
        (cache.eviction.ghost.contains (config.geometry.hashKey key) = false ∧
          cache.admissionCount < config.admissionCap) → after = cache) ∧
      (Unpinned cache → (∃ i, (cache.segment i).canEvict = true) →
        after.segment = cache.segment ∨ after.freeQueue ≠ [])) cache := by
  have refl := Evicting.refl sane ranked
  unfold routePool
  dsimp only
  by_cases s3 : config.policy.isS3Fifo = true
  case neg =>
    rw [if_pos (by simp [s3])]
    exact (returns_pure _).mpr ⟨refl, fun _ => rfl, fun _ _ => .inl rfl⟩
  rw [if_neg (by simp [s3]), returns_bind, returns_read]
  by_cases ghost : cache.eviction.ghost.contains (config.geometry.hashKey key) = true
  · rw [if_pos ghost, returns_bind, returns_change]
    have removed := sane.withEviction
      { cache.eviction with
        ghost := cache.eviction.ghost.remove (config.geometry.hashKey key) }
    refine (returns_pure _).mpr ⟨⟨⟨⟨chain, removed.1⟩, removed.2.shed,
      ⟨fun _ mapping awake => ⟨mapping, awake, rfl⟩, fun _ => id⟩, rfl, ranked.congr rfl⟩,
      .single (.inr ⟨.unghost _, removed.2.maps⟩)⟩, fun clean => ?_, fun _ _ => .inl rfl⟩
    rcases clean with no | ⟨no, -⟩
    · cases s3.symm.trans no
    · cases ghost.symm.trans no
  · rw [if_neg ghost, returns_bind, returns_read]
    by_cases full : config.admissionCap ≤ cache.admissionCount
    · rw [if_pos full]
      refine (returns_evict sane ranked).ran.seq fun _ after ⟨evicted, evicts, yields, _⟩ => ?_
      refine (returns_pure _).mpr ⟨evicts.evicting evicted, fun clean => ?_,
        fun unpinned evictable => ?_⟩
      · rcases clean with no | ⟨-, below⟩
        · cases s3.symm.trans no
        · omega
      · rcases yields (.inr s3) unpinned evictable with ⟨-, some_⟩ | ⟨-, -, same, -⟩
        · exact .inr some_
        · exact .inl same
    · rw [if_neg full]
      exact (returns_pure _).mpr ⟨refl, fun _ => rfl, fun _ _ => .inl rfl⟩

/-! ### Writing an item -/

/-- A call has an item in hand: it is written and counted, and no entry names it. -/
structure Holding (config : Config) (location : Location) (item : Item) (cache : Cache) : Prop where
  settled : Settled config (some location) cache
  item : cache.itemAt config location = some item
  state : (cache.segment location.segment).state = .live
  ranked : Ranked config cache

/-- A segment with an item written behind its last one, and counted. -/
theorem allocated_extended (cache : Cache) (id : SegId) (item : Item) :
    (cache.allocated id (item.size config)).setSegment id
        { (cache.allocated id (item.size config)).segment id with
          items := ((cache.allocated id (item.size config)).segment id).items ++ [item] } =
      cache.setSegment id
        (((cache.segment id).extend config item).recount 1 (item.size config)) := by
  unfold Cache.allocated
  dsimp only
  rw [setSegment_self, setSegment_setSegment]
  rfl

/-- The two steps of `define` on the pool. -/
def Cache.pooled (cache : Cache) (id : SegId) (pool : SegmentPool) : Cache :=
  if pool = .admission ∧ (cache.segment id).pool = .main then
    { cache.setSegment id { cache.segment id with pool := .admission } with
      admissionCount := cache.admissionCount + 1 }
  else cache

theorem pooled_frame {pending : Option Location} (pool : SegmentPool) :
    Frame config pending cache (cache.pooled id pool) := by
  unfold Cache.pooled
  split
  · refine ⟨rfl, fun i => .inl ?_⟩
    show Quiet (cache.segment i) (Function.update cache.segment id _ i)
    by_cases same : i = id
    · subst same
      rw [Function.update_self]
      exact ⟨rfl, rfl, rfl, rfl, fun _ => rfl, fun was => was, .inl, .inl, fun was => was⟩
    · rw [Function.update_of_ne same]
      exact Quiet.refl _
  · exact frame_of_same rfl rfl

theorem pooled_shape (pool : SegmentPool) : (cache.pooled id pool).shape = cache.shape := by
  unfold Cache.pooled
  split
  · refine Shape.ext (funext fun i => ?_) rfl rfl rfl rfl rfl
    show (Function.update cache.segment id _ i).node = (cache.segment i).node
    by_cases same : i = id
    · subst same
      rw [Function.update_self]
      rfl
    · rw [Function.update_of_ne same]
  · rfl

theorem define_apply (reserved : Reserved) (pool : SegmentPool) :
    define reserved pool key value optional cache =
      some ((), (cache.setSegment reserved.seg
        { cache.segment reserved.seg with
          items := (cache.segment reserved.seg).items ++ [⟨key, value, optional, 0, false⟩] }).pooled
            reserved.seg pool) := by
  unfold define Cache.pooled
  rw [modifySegment, change_bind, segmentOf, read_bind]
  by_cases labels : pool = .admission ∧ ((cache.setSegment reserved.seg
      { cache.segment reserved.seg with
        items := (cache.segment reserved.seg).items ++ [⟨key, value, optional, 0, false⟩] }).segment
          reserved.seg).pool = .main
  · rw [if_pos labels, if_pos (by simp [labels])]
    rfl
  · rw [if_neg labels, if_neg (by simpa using labels)]
    rfl

/-- What writing an item into found room leaves: the item is in hand, in the chain's old last member or
in a new one. -/
structure Written (config : Config) (b : Nat) (item : Item) (location : Location)
    (cache after : Cache) : Prop where
  holding : Holding config location item after
  maps : ∀ key mapping, Maps config after key mapping ↔ Maps config cache key mapping
  slots : after.table.slot = cache.table.slot
  asleep : ∀ i, (cache.segment i).state = .draining → (after.segment i).state = .draining
  now : after.now = cache.now
  ttl : (after.segment location.segment).ttl = bucketTtl b
  landing : (HasRoom config b (item.size config) cache location.segment ∧
      (after.segment location.segment).createAt = (cache.segment location.segment).createAt) ∨
    (after.segment location.segment).createAt = cache.now

/-- An item is written into room that a write has found. -/
structure Placed (config : Config) (b : Nat) (item : Item) (location : Location)
    (cache after : Cache) : Prop extends Written config b item location cache after where
  step : RoomStep config cache after

theorem Placed.trace {item : Item} {location : Location}
    (placed : Placed config b item location middle after) (trace : ByEviction config cache middle) :
    ByEviction config cache after := trace.tail (.inr ⟨placed.step, placed.maps⟩)

theorem extended_shape (item : Item) (items bytes : Int) :
    (cache.setSegment id (((cache.segment id).extend config item).recount items bytes)).shape =
      cache.shape := by
  refine Shape.ext (funext fun i => ?_) rfl rfl rfl rfl rfl
  show (Function.update cache.segment id _ i).node = (cache.segment i).node
  by_cases same : i = id
  · subst same
    rw [Function.update_self]
    rfl
  · rw [Function.update_of_ne same]

theorem pooled_rest (pool : SegmentPool) (i : SegId) :
    ((cache.pooled id pool).segment i).createAt = (cache.segment i).createAt ∧
      ((cache.pooled id pool).segment i).ttl = (cache.segment i).ttl ∧
      ((cache.pooled id pool).segment i).state = (cache.segment i).state ∧
      ((cache.pooled id pool).segment i).tag = (cache.segment i).tag := by
  unfold Cache.pooled
  split
  · show (Function.update cache.segment id _ i).createAt = _ ∧
      (Function.update cache.segment id _ i).ttl = _ ∧
      (Function.update cache.segment id _ i).state = _ ∧ (Function.update cache.segment id _ i).tag = _
    by_cases same : i = id
    · subst same
      rw [Function.update_self]
      exact ⟨rfl, rfl, rfl, rfl⟩
    · rw [Function.update_of_ne same]
      exact ⟨rfl, rfl, rfl, rfl⟩
  · exact ⟨rfl, rfl, rfl, rfl⟩

theorem pooled_clock (pool : SegmentPool) : SameClock cache (cache.pooled id pool) := by
  unfold Cache.pooled
  split <;> exact ⟨rfl, rfl, rfl⟩

/-- An item is written behind the last one of a live segment, and is in hand. -/
theorem Sane.extended (sane : Sane config Hand.empty chain cache) (item : Item)
    (state : (cache.segment id).state = .live)
    (fits : (cache.segment id).writeOffset + item.size config ≤ config.segmentSize) :
    let extended := cache.setSegment id
      (((cache.segment id).extend config item).recount 1 (item.size config))
    Consistent config (some (cache.locationAt id (cache.segment id).writeOffset)) extended ∧
      extended.itemAt config (cache.locationAt id (cache.segment id).writeOffset) = some item ∧
      ∀ key mapping, Maps config extended key mapping ↔ Maps config cache key mapping := by
  have laid : isLaid (cache.segment id).state = true := by
    rw [state]
    rfl
  have held := holds_of_isLaid laid
  have range : InRange config id := sane.orderly.range id (by
    show (cache.segment id).state ≠ .free
    rw [state]
    simp)
  have isLaid' := sane.consistent.laid laid
  have appended : (cache.setSegment id ((cache.segment id).extend config item)).segment =
      Function.update cache.segment id ((cache.segment id).extend config item) := rfl
  have consistent := consistent_appended appended sane.consistent laid fits rfl
  have present := present_new appended isLaid' held range
  have unnamed := unnamed_new sane.consistent isLaid'
  have counted : (cache.setSegment id
      (((cache.segment id).extend config item).recount 1 (item.size config))).segment =
      Function.update (cache.setSegment id ((cache.segment id).extend config item)).segment id
        (((cache.setSegment id ((cache.segment id).extend config item)).segment id).recount 1
          (item.size config)) := by
    rw [setSegment_self]
    show Function.update _ _ _ = Function.update (Function.update _ _ _) _ _
    rw [Function.update_idem]
  have slots : (cache.setSegment id
      (((cache.segment id).extend config item).recount 1 (item.size config))).table.slot =
      (cache.setSegment id ((cache.segment id).extend config item)).table.slot := rfl
  refine ⟨consistent_taken consistent unnamed present slots counted, ?_, fun key mapping => ?_⟩
  · rw [itemAt_recount counted]
    exact present.item
  · rw [maps_recount slots counted]
    exact maps_appended appended sane.consistent isLaid' rfl

/-- **An item is written into found room.** -/
theorem RoomFound.define {reserved : Reserved}
    (found : RoomFound config b (config.itemSize key value optional) cache reserved middle)
    (ranked : Ranked config cache) (pool : SegmentPool) : ∃ after,
      Segcache.define reserved pool key value optional middle = some ((), after) ∧
      Written config b ⟨key, value, optional, 0, false⟩ (after.locationAt reserved.seg reserved.offset)
        cache after := by
  obtain ⟨chain, before, sane, grown, room, offset, landing, rfl⟩ := found.before
  have here := (sane.live_of_tail room.tail).1
  have state := room.state
  have written := @allocated_extended config before reserved.seg ⟨key, value, optional, 0, false⟩
  have sizes : (⟨key, value, optional, 0, false⟩ : Item).size config =
      config.itemSize key value optional := rfl
  rw [sizes] at written
  have extended := sane.extended ⟨key, value, optional, 0, false⟩ state (by rw [sizes]; exact room.fits)
  rw [sizes] at extended
  obtain ⟨consistent, item, maps⟩ := extended
  refine ⟨_, define_apply reserved pool, ?_⟩
  rw [written]
  generalize same : before.setSegment reserved.seg (((before.segment reserved.seg).extend config
    ⟨key, value, optional, 0, false⟩).recount 1 (config.itemSize key value optional)) = extended
    at consistent item maps
  have shape : extended.shape = before.shape := by
    rw [← same]
    exact extended_shape _ _ _
  have segment : extended.segment reserved.seg = ((before.segment reserved.seg).extend config
      ⟨key, value, optional, 0, false⟩).recount 1 (config.itemSize key value optional) := by
    rw [← same, setSegment_self]
  have clock : SameClock cache extended := by
    rw [← same]
    exact grown.clock.trans ⟨rfl, rfl, rfl⟩
  have frame := @pooled_frame config extended reserved.seg
    (some (before.locationAt reserved.seg (before.segment reserved.seg).writeOffset)) pool
  obtain ⟨createAt, ttl, state', tag⟩ := @pooled_rest extended reserved.seg pool reserved.seg
  have clock' := clock.trans (@pooled_clock extended reserved.seg pool)
  have location : (extended.pooled reserved.seg pool).locationAt reserved.seg reserved.offset =
      before.locationAt reserved.seg (before.segment reserved.seg).writeOffset := by
    unfold Cache.locationAt
    rw [tag, segment, offset]
    rfl
  rw [location]
  refine ⟨⟨⟨frame.consistent consistent, chain, ?_⟩, ?_, ?_, ?_⟩, fun k mapping => ?_,
    ?_, fun i asleep => ?_, clock'.now, ?_, ?_⟩
  · rw [pooled_shape, shape]
    exact sane.orderly
  · rw [Quiet.itemAt (frame.quiet_of_inHand rfl)]
    exact item
  · show ((extended.pooled reserved.seg pool).segment reserved.seg).state = .live
    rw [state', segment]
    exact state
  · exact ranked.congr (by rw [clock'.eviction])
  · rw [frame.maps_iff, maps, grown.calm.maps]
  · rw [frame.slots, ← grown.calm.slots, ← same]
    rfl
  · rw [(@pooled_rest extended reserved.seg pool i).2.2.1]
    exact (congrArg (fun shape => (shape.node i).state) shape).trans (grown.asleep i asleep)
  · show ((extended.pooled reserved.seg pool).segment reserved.seg).ttl = bucketTtl b
    rw [ttl, segment]
    exact sane.orderly.ttl b reserved.seg here
  · show (HasRoom config b _ cache reserved.seg ∧
      ((extended.pooled reserved.seg pool).segment reserved.seg).createAt = _) ∨
      ((extended.pooled reserved.seg pool).segment reserved.seg).createAt = cache.now
    rw [createAt, segment]
    rcases landing with rfl | fresh
    · exact .inl ⟨room, rfl⟩
    · exact .inr fresh

end CacheRs.Segcache
