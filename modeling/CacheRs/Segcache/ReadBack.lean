/-
**What is written can be read, unless it lands among what is due.**

A write that finds room in a bucket's live tail puts its item there, whatever the tail's age. Only an
eviction looks for what is due first.

* `StaleTail`: a bucket's tail has room for an item, and has fallen due;
* `RelievesPool`: a write of the key evicts before it looks for room;
* `ensures_reserveAndDefine_lands`: an item lands in a segment that is due exactly in a stale tail;
* `read_your_write`: **an acknowledged write is read back exactly when it has not landed there**.
-/

import CacheRs.Segcache.Presence

set_option linter.unusedSectionVars false

namespace CacheRs.Segcache

open KeyValue (Value)
open Segments (SegId totalBuckets bucketTtl IsBucket getBucketIndex)
open Sequential Procedure

variable {config : Config} {cache middle after : Cache} {chain : Nat → List SegId} {id : SegId}
  {b size : Nat} {key : Key} {value : Value} {optional : Optional} {item : Item} {location : Location}

/-- A bucket's tail has room for an item, and has fallen due. -/
def StaleTail (config : Config) (b size : Nat) (cache : Cache) : Prop :=
  ∃ id, HasRoom config b size cache id ∧ cache.deadline id ≤ cache.now

/-- A write of the key evicts before it looks for room. -/
def RelievesPool (config : Config) (key : Key) (cache : Cache) : Prop :=
  config.policy.isS3Fifo = true ∧
    cache.eviction.ghost.contains (config.geometry.hashKey key) = false ∧
    config.admissionCap ≤ cache.admissionCount

/-! ### Reserving -/

theorem allocated_deadline (i : SegId) : (cache.allocated id size).deadline i = cache.deadline i := by
  unfold Cache.allocated Cache.deadline
  by_cases same : i = id
  · subst same
    rw [setSegment_self]
  · rw [setSegment_of_ne same]

theorem RoomFound.deadline {reserved : Reserved}
    (found : RoomFound config b size cache reserved after) :
    HasRoom config b size cache reserved.seg ∨ cache.now < after.deadline reserved.seg := by
  obtain ⟨chain, middle, sane, -, room, -, landing, rfl⟩ := found.before
  rcases landing with rfl | created
  · exact .inl room
  · refine .inr ?_
    rw [allocated_deadline]
    have inside := (sane.live_of_tail room.tail).1
    have ttl : (middle.segment reserved.seg).ttl = bucketTtl b := sane.orderly.ttl b _ inside
    have positive := bucketTtl_pos b
    unfold Cache.deadline
    omega

/-- **An item is reserved in a segment that is due exactly in a stale tail.** -/
theorem ensures_reserveRetry_lands (isBucket : IsBucket b ∧ b < totalBuckets)
    (fuel rounds retries : Nat) (sane : Sane config Hand.empty chain cache)
    (ranked : Ranked config cache) (timely : Timely config cache) :
    Ensures (reserveRetry config fuel b size rounds retries) (fun result after =>
      ∀ reserved, result = .ok reserved →
        (after.deadline reserved.seg ≤ cache.now ↔ StaleTail config b size cache)) cache := by
  induction rounds generalizing cache chain retries with
  | zero => exact ensures_diverge.mpr trivial
  | succ rounds ih =>
    unfold reserveRetry reserve
    by_cases oversized : config.segmentSize < size
    · rw [if_pos oversized]
      exact (ensures_pure _).mpr fun _ no => by cases no
    rw [if_neg oversized]
    by_cases room : ∃ id, HasRoom config b size cache id
    · -- The tail takes the item, whatever its age.
      obtain ⟨id, room⟩ := room
      cases fuel with
      | zero => exact ensures_bind.mpr (ensures_diverge.mpr trivial)
      | succ fuel =>
        rw [ensures_bind]
        refine (returns_of_eq (reserveLoop_room fuel room) ?_).ensures
        refine (ensures_pure _).mpr fun reserved same => ?_
        cases same
        rw [allocated_deadline]
        refine ⟨fun due => ⟨id, room, due⟩, fun stale => ?_⟩
        obtain ⟨other, room', due⟩ := stale
        cases room.tail.symm.trans room'.tail
        exact due
    have unstale : ¬ StaleTail config b size cache := by
      rintro ⟨id, has, -⟩
      exact room ⟨id, has⟩
    refine Ensures.seq ((ensures_reserveLoop isBucket fuel sane).and
      (ensures_reserveLoop_timed isBucket fuel sane)) fun result middle known => ?_
    obtain ⟨answers, timed⟩ := known
    rcases answers with ⟨reserved, rfl, found⟩ | ⟨rfl, grown, -, chain', sane'⟩
    · refine (ensures_pure _).mpr fun other same => ?_
      cases same
      have fresh := found.deadline.resolve_left fun has => room ⟨_, has⟩
      exact iff_of_false (not_le.mpr fresh) unstale
    dsimp only
    have ranked' : Ranked config middle := ranked.congr (by rw [grown.clock.eviction])
    have timely' := timed.timely timely
    rw [ensures_bind, ensures_read]
    refine Ensures.seq (((returns_evict sane' ranked').ensures.and (ensures_evict_timed sane' ranked')).and
      (ensures_evict_undue sane' ranked' timely')) fun _ last known => ?_
    obtain ⟨⟨⟨evicts, -, -⟩, later⟩, undue⟩ := known
    obtain ⟨chain'', sane''⟩ := evicts.sane
    have now : last.now = cache.now := evicts.now.trans grown.clock.now
    have unstale' : ¬ StaleTail config b size last := by
      rintro ⟨id, has, due⟩
      have fresh := undue id (by rw [has.state]; rfl)
      rw [now, ← grown.clock.now] at due
      omega
    have again : ∀ retries, Ensures (reserveRetry config fuel b size rounds retries)
        (fun result after => ∀ reserved, result = .ok reserved →
          (after.deadline reserved.seg ≤ cache.now ↔ StaleTail config b size cache)) last := by
      intro retries
      refine (ih retries sane'' evicts.ranked (later.timely timely')).mono fun _ after lands reserved same => ?_
      have landed := lands reserved same
      rw [now] at landed
      exact landed.trans (iff_of_false unstale' unstale)
    rw [ensures_bind, ensures_read]
    refine Ensures.ite (fun _ => again retries) fun _ => ?_
    refine Ensures.ite (fun _ => ?_) fun _ => again (retries - 1)
    exact (ensures_pure _).mpr fun _ no => by cases no

/-- The tail is looked at behind the relief of the admission pool, which leaves nothing that is due. -/
theorem ensures_routePool_stale (sane : Sane config Hand.empty chain cache)
    (ranked : Ranked config cache) (timely : Timely config cache) (b size : Nat) (key : Key) :
    Ensures (routePool config key) (fun _ after => StaleTail config b size after ↔
      StaleTail config b size cache ∧ ¬ RelievesPool config key cache) cache := by
  unfold routePool
  dsimp only
  by_cases s3 : config.policy.isS3Fifo = true
  case neg =>
    rw [if_pos (by simp [s3])]
    exact (ensures_pure _).mpr (iff_self_and.mpr fun _ relieves => s3 relieves.1)
  rw [if_neg (by simp [s3]), ensures_bind, ensures_read]
  by_cases ghost : cache.eviction.ghost.contains (config.geometry.hashKey key) = true
  · rw [if_pos ghost, ensures_bind, ensures_change]
    have same : StaleTail config b size { cache with
        eviction := { cache.eviction with
          ghost := cache.eviction.ghost.remove (config.geometry.hashKey key) } } ↔
        StaleTail config b size cache :=
      exists_congr fun id => and_congr_left fun _ =>
        ⟨fun has => ⟨has.tail, has.state, has.fits⟩, fun has => ⟨has.tail, has.state, has.fits⟩⟩
    refine (ensures_pure _).mpr (same.trans (iff_self_and.mpr fun _ relieves => ?_))
    cases ghost.symm.trans relieves.2.1
  have absent : cache.eviction.ghost.contains (config.geometry.hashKey key) = false := by simpa using ghost
  rw [if_neg ghost, ensures_bind, ensures_read]
  by_cases full : config.admissionCap ≤ cache.admissionCount
  · rw [if_pos full]
    refine Ensures.seq ((returns_evict sane ranked).ensures.and
      (ensures_evict_undue sane ranked timely)) fun _ after known => (ensures_pure _).mpr ?_
    obtain ⟨⟨evicts, -, -⟩, undue⟩ := known
    refine iff_of_false ?_ fun stale => stale.2 ⟨s3, absent, full⟩
    rintro ⟨id, has, due⟩
    have fresh := undue id (by rw [has.state]; rfl)
    rw [evicts.now] at due
    omega
  · rw [if_neg full]
    exact (ensures_pure _).mpr (iff_self_and.mpr fun _ relieves => full relieves.2.2)

/-- A write of the key puts its item into a stale tail. -/
def LandsStale (config : Config) (key : Key) (value : Value) (optional : Optional) (ttl : Nat)
    (cache : Cache) : Prop :=
  StaleTail config (getBucketIndex ttl) (config.itemSize key value optional) cache ∧
    ¬ RelievesPool config key cache

theorem pooled_deadline (pool : SegmentPool) (i : SegId) :
    (cache.pooled id pool).deadline i = cache.deadline i := by
  obtain ⟨createAt, ttl, -⟩ := @pooled_rest cache id pool i
  unfold Cache.deadline
  rw [createAt, ttl]

/-- **An item is written to a segment that is due exactly in a stale tail.** -/
theorem ensures_reserveAndDefine_lands (good : Good config cache) (timely : Timely config cache)
    (fuel : Nat) (key : Key) (value : Value) (optional : Optional) (ttl : Nat) :
    Ensures (reserveAndDefine config fuel key value optional ttl) (fun result after =>
      ∀ reserved, result = .ok reserved →
        (after.deadline reserved.seg ≤ cache.now ↔
          LandsStale config key value optional ttl cache)) cache := by
  obtain ⟨⟨chain, sane⟩, ranked⟩ := good
  unfold reserveAndDefine
  refine Ensures.seq (((returns_routePool sane ranked key).ensures.and
    (ensures_routePool_timed sane ranked key)).and (ensures_routePool_stale sane ranked timely
      (getBucketIndex ttl) (config.itemSize key value optional) key)) fun pool middle known => ?_
  obtain ⟨⟨⟨routed, -, -⟩, timed⟩, stale⟩ := known
  obtain ⟨chain', sane'⟩ := routed.sane
  refine Ensures.seq (ensures_reserveRetry_lands (isBucket_getBucketIndex ttl) fuel fuel
    reserveRetries sane' routed.ranked (timed.timely timely)) fun result last lands => ?_
  cases result with
  | error error => exact (ensures_pure _).mpr fun _ no => by cases no
  | ok reserved =>
    dsimp only
    rw [ensures_bind]
    refine (returns_of_eq (define_apply reserved pool) ((ensures_pure _).mpr fun other same => ?_)).ensures
    cases same
    have landed := lands reserved rfl
    rw [routed.now] at landed
    rw [pooled_deadline]
    unfold Cache.deadline at landed ⊢
    rw [setSegment_self]
    exact landed.trans stale

/-! ### Writing -/

/-- What an acknowledged write leaves: its item is mapped, and due exactly if it has landed so. -/
def Acknowledged (config : Config) (item : Item) (stale : Prop) (result : Except SegcacheError Unit)
    (after : Cache) : Prop :=
  result = .ok () → ∃ freq location, Maps config after item.key ⟨item, freq, location⟩ ∧
    (after.deadline location.segment ≤ after.now ↔ stale)

theorem Published.acknowledged {stale : Prop} {defined : Cache} {result : Except SegcacheError Unit}
    (published : Published config item location defined after) (now : defined.now = cache.now)
    (lands : defined.deadline location.segment ≤ cache.now ↔ stale) :
    Acknowledged config item stale result after := by
  intro _
  obtain ⟨freq, own, -⟩ := published.own
  refine ⟨freq, location, own, ?_⟩
  unfold Cache.deadline at lands ⊢
  rw [published.now, now, published.age.createAt, published.age.ttl]
  exact lands

theorem ensures_insert_acknowledged (good : Good config cache) (timely : Timely config cache) (fuel : Nat)
    (key : Key) (value : Value) (optional : Optional) (ttl : Nat) :
    Ensures (insert config fuel key value optional ttl) (Acknowledged config
      (Item.written key value optional) (LandsStale config key value optional (coarseTtl ttl) cache))
      cache := by
  unfold insert
  cases fuel with
  | zero => exact ensures_diverge.mpr trivial
  | succ fuel =>
    unfold insertLoop
    refine Ensures.seq ((ensures_reserveAndDefine good (fuel + 1) key value optional _).and
      (ensures_reserveAndDefine_lands good timely (fuel + 1) key value optional _))
      fun result defined known => ?_
    obtain ⟨defines, lands⟩ := known
    rcases defines with ⟨reserved, middle, rfl, evicting, placed⟩ | ⟨rfl, -⟩ | ⟨rfl, -⟩
    case inr.inl | inr.inr => exact (ensures_pure _).mpr fun no => by cases no
    dsimp only
    rw [reservedLocation, ensures_bind, ensures_read]
    refine Ensures.seq (ensures_publishItem placed.holding rfl) fun _ after known => ?_
    obtain ⟨answer, rfl, publishes⟩ := known
    refine (ensures_pure _).mpr ?_
    rcases publishes with ⟨-, published⟩ | ⟨rfl, -⟩
    · exact published.acknowledged (placed.now.trans evicting.now) (lands reserved rfl)
    · exact fun no => by cases no

theorem ensures_overwrite_acknowledged (good : Good config cache) (timely : Timely config cache)
    (fuel : Nat) (key : Key) (value : Value) (optional : Optional) (ttl : Nat)
    (expected : Option UInt64) {mapping : Mapping} {slot : Hashtable.SlotRef}
    (maps : Maps config cache key mapping)
    (candidate : (slot.bucket, slot.slot) ∈ Table.candidates config.geometry key)
    (tag : slot.tag = config.geometry.tag key)
    (entry : cache.table.slot slot.bucket slot.slot =
      some ⟨slot.tag, mapping.freq, mapping.location⟩)
    {rest : Except SegcacheError Reserved → Proc (Except SegcacheError Unit)}
    (failed : ∀ error state, rest (.error error) state = some (.error error, state))
    (done : ∀ reserved state, rest (.ok reserved) state =
      replaceAt config key mapping.location slot (state.locationAt reserved.seg reserved.offset)
        expected state) :
    Ensures (reserveAndDefine config fuel key value optional ttl >>= rest) (Acknowledged config
      (Item.written key value optional) (LandsStale config key value optional ttl cache))
      cache := by
  refine Ensures.seq ((ensures_reserveAndDefine good fuel key value optional ttl).and
    (ensures_reserveAndDefine_lands good timely fuel key value optional ttl))
    fun result defined known => ?_
  obtain ⟨defines, lands⟩ := known
  rcases defines with ⟨reserved, middle, rfl, evicting, placed⟩ | ⟨rfl, -⟩ | ⟨rfl, -⟩
  case inr.inl | inr.inr =>
    exact (returns_of_eq (failed _ defined) fun no => by cases no).ensures
  have own : ∀ now held, defined.table.slot slot.bucket slot.slot = some now →
      defined.itemAt config now.location = some held → held.key = key :=
    fun now held => maps.own (evicting.shed.trans placed.shed) entry
  intro answer after ran
  rw [done] at ran
  have replaces := (@returns_replaceAt _ _ _ _ mapping.location placed.holding rfl slot candidate tag
    own expected).ensures answer after ran
  rcases replaces with ⟨-, published, -⟩ | ⟨rfl, -⟩
  · exact published.acknowledged (placed.now.trans evicting.now) (lands reserved rfl)
  · exact fun no => by cases no

theorem ensures_cas_acknowledged (good : Good config cache) (timely : Timely config cache) (fuel : Nat)
    (key : Key) (value : Value) (optional : Optional) (ttl : Nat) (token : UInt64) :
    Ensures (cas config fuel key value optional ttl token) (Acknowledged config
      (Item.written key value optional) (LandsStale config key value optional (coarseTtl ttl) cache))
      cache := by
  unfold cas segmentOf
  rw [ensures_bind]
  rcases good.settled.lookup_apply key with ⟨mapping, slot, maps, ran, candidate, tag, entry, -⟩ |
    ⟨-, ran⟩ | ⟨_, -, ran⟩
  case inr.inl => exact (returns_of_eq ran ((ensures_pure _).mpr fun no => by cases no)).ensures
  case inr.inr => exact (returns_of_eq ran (ensures_diverge.mpr trivial)).ensures
  refine (returns_of_eq ran ?_).ensures
  dsimp only
  rw [ensures_bind, ensures_read]
  refine Ensures.ite (fun _ => (ensures_pure _).mpr fun no => by cases no) fun _ => ?_
  rw [ensures_bind, ensures_read, ensures_bind, ensures_read, maps.item]
  dsimp only
  refine Ensures.ite (fun _ => (ensures_pure _).mpr fun no => by cases no) fun _ => ?_
  exact ensures_overwrite_acknowledged good timely fuel key value optional _ (some token) maps candidate
    tag entry (fun _ _ => rfl) fun _ _ => rfl

/-! ### Reading back -/

/-- What a write stores, and for how long. -/
def Call.storing : Call → Option (Key × Value × Optional × Nat)
  | .insert key value optional ttl => some (key, value, optional, ttl)
  | .cas key value optional ttl _ => some (key, value, optional, ttl)
  | _ => none

theorem Call.acknowledged (good : Good config cache) (timely : Timely config cache) {fuel ttl : Nat}
    {call : Call} (storing : call.storing = some (key, value, optional, ttl))
    {result : Except SegcacheError Unit}
    (ran : call.answer config fuel cache = some (.written result, after)) :
    Acknowledged config (Item.written key value optional)
      (LandsStale config key value optional (coarseTtl ttl) cache) result after := by
  cases call with
  | insert =>
    cases storing
    obtain ⟨answer, middle, inserts, done⟩ := bind_eq_some.mp ran
    cases done
    exact ensures_insert_acknowledged good timely fuel key value optional ttl _ _ inserts
  | cas _ _ _ _ token =>
    cases storing
    obtain ⟨answer, middle, swaps, done⟩ := bind_eq_some.mp ran
    cases done
    exact ensures_cas_acknowledged good timely fuel key value optional ttl token _ _ swaps
  | _ => cases storing

end CacheRs.Segcache
