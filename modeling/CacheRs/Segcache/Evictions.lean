/-
**One eviction pass.**

* `Evicts`: what an eviction leaves between two steps of a call;
* `Yields`: it has freed a segment, or used its ranking up in vain;
* `returns_evict`: **every policy's eviction returns**, keeps the cache in order, and frees a segment
  when there is one to free.
-/

import CacheRs.Segcache.Victims

set_option linter.unusedSectionVars false

namespace CacheRs.Segcache

open Hashtable (RelinkFreq)
open Segments (SegId State totalBuckets bucketTtl IsBucket getBucketIndex)
open Sequential Procedure

variable {config : Config} {hand : Hand} {chain : Nat → List SegId} {cache middle after : Cache}
  {id : SegId} {b : Nat}

/-- What an eviction leaves between two steps of a call. -/
structure Evicts (config : Config) (cache after : Cache) : Prop where
  sane : ∃ chain, Sane config Hand.empty chain after
  shed : Shed config cache after
  wanes : Wanes config cache after
  now : after.now = cache.now
  flows : cache.freeQueue = [] → Flows cache after
  ranked : Ranked config after

/-- No segment is pinned. -/
def Unpinned (cache : Cache) : Prop := ∀ i, (cache.segment i).refCount = 0

/-- An eviction has freed a segment, or has used its ranking up and changed nothing else. -/
def Yields (cache after : Cache) : Prop :=
  (after.freed ≠ cache.freed ∧ after.freeQueue ≠ []) ∨
    (¬ Exhausted cache ∧ Exhausted after ∧ after.segment = cache.segment ∧
      after.freeQueue = cache.freeQueue)

/-- The first member of a chain that can be evicted. -/
def IsFirstEvictable (config : Config) (cache : Cache) (id : SegId) : Prop :=
  ∃ b front back, chainFrom cache config.cap (cache.bucket b).head = some (front ++ id :: back) ∧
    (cache.segment id).canEvict = true ∧ ∀ i ∈ front, (cache.segment i).canEvict = false

/-- A segment is dropped, and nothing else. -/
structure Drops (config : Config) (id : SegId) (cache after : Cache) : Prop where
  evictable : (cache.segment id).canEvict = true
  maps : ∀ key mapping, Maps config after key mapping ↔
    Maps config cache key mapping ∧ mapping.location.segment ≠ id
  others : ∀ i, i ≠ id → holds (cache.segment i).state = true → holds (after.segment i).state = true

/-! ### One segment -/

/-- **A sealed segment is dropped.** -/
theorem returns_dropSegment (sane : Sane config Hand.empty chain cache)
    (evictable : (cache.segment id).canEvict = true) :
    ∃ b, lockSealedInBucket id cache = some (some b, cache) ∧
      Returns (clearSegment config id) (fun outcome middle => outcome = some .freed ∧
        Evicted config id cache
          (middle.headPatched b (cache.segment id).prev (cache.segment id).next)) cache := by
  obtain ⟨state, unpinned⟩ := sealed_of_canEvict evictable
  obtain ⟨b, front, back, inside, -, locked⟩ := lockSealedInBucket_apply sane state
  refine ⟨b, locked, (returns_clearSegment sane state inside).mono
    fun outcome middle ⟨done, same, freed, retired, _⟩ => ?_⟩
  have claimed := sane.claim (.inl state)
  have calm := calm_claimed sane.consistent (.inl state)
  have evicted := retired.evicted claimed.orderly inside (sane.orderly.not_last inside (.inl state))
  rw [claimed_self] at evicted
  refine ⟨by rw [same, freed.mpr unpinned], evicted.sane, fun key mapping => ?_,
    calm.shed.trans evicted.shed, fun i different => ?_,
    ⟨evicted.clock.eviction, evicted.clock.now, evicted.clock.lastExpired⟩,
    ⟨evicted.flows.le, evicted.flows.length⟩, fun none _ => ?_, evicted.gone⟩
  · rw [evicted.maps, calm.maps]
  · rw [← @claimed_of_ne cache _ _ different]
    exact evicted.others i different
  · exact evicted.freed none (by rw [claimed_self]; exact unpinned)

theorem Evicted.evicts (evicted : Evicted config id cache after)
    (state : (cache.segment id).state = .sealed) (ranked : Ranked config cache) :
    Evicts config cache after where
  sane := evicted.sane
  shed := evicted.shed
  wanes := by
    refine wanes_of_maps (fun key mapping maps => ((evicted.maps key mapping).mp maps).1)
      fun i asleep => ?_
    have different : i ≠ id := by
      rintro rfl
      cases asleep.symm.trans state
    rw [(evicted.others i different).state, asleep]
  now := evicted.clock.now
  flows _ := evicted.flows
  ranked := ranked.congr (by rw [evicted.clock.eviction])

/-- A step on the eviction state alone. -/
theorem Evicts.ofEviction {eviction : Eviction} (sane : Sane config Hand.empty chain cache)
    (ranked : Ranked config { cache with eviction := eviction }) :
    Evicts config cache { cache with eviction := eviction } where
  sane := ⟨chain, (sane.withEviction eviction).1⟩
  shed := (sane.withEviction eviction).2.shed
  wanes := ⟨fun _ mapping awake => ⟨mapping, awake, rfl⟩, fun _ asleep => asleep⟩
  now := rfl
  flows _ := ⟨le_rfl, rfl⟩
  ranked := ranked

theorem Evicts.trans (first : Evicts config cache middle) (second : Evicts config middle after)
    (empty : cache.freeQueue = [] → middle.freeQueue = []) : Evicts config cache after :=
  ⟨second.sane, first.shed.trans second.shed, first.wanes.trans second.wanes,
    second.now.trans first.now, fun none => (first.flows none).trans (second.flows (empty none)), second.ranked⟩

theorem Evicts.refl (sane : Sane config Hand.empty chain cache) (ranked : Ranked config cache) :
    Evicts config cache cache :=
  ⟨⟨chain, sane⟩, Shed.refl cache, Wanes.refl cache, rfl, fun _ => Flows.refl cache, ranked⟩

theorem Settles.evicts (settles : Settles config cache after) (ranked : Ranked config cache) :
    Evicts config cache after :=
  ⟨settles.sane, settles.shed, settles.wanes, settles.clock.now, settles.flows,
    ranked.congr (by rw [settles.clock.eviction])⟩

/-- **The policies that drop one segment.** -/
theorem returns_evictOne (sane : Sane config Hand.empty chain cache) (ranked : Ranked config cache) :
    Returns (evictOne config) (fun _ after => Evicts config cache after ∧
      (config.policy.searches = true → config.spareCapacity = 0 →
        (∃ i, (cache.segment i).canEvict = true) → Yields cache after) ∧
      ((∃ eviction, after = { cache with eviction := eviction }) ∨
        ∃ id, Drops config id cache after ∧
          (config.policy = .randomFifo → IsFirstEvictable config cache id))) cache := by
  unfold evictOne
  refine (returns_leastValuableSeg sane.orderly ranked).seq
    fun victim middle known => ?_
  obtain ⟨selected, first, complete⟩ := known
  obtain ⟨eviction, rfl, -⟩ := selected.same
  have evicts := Evicts.ofEviction sane selected.ranked
  obtain ⟨here, calm⟩ := sane.withEviction eviction
  cases victim with
  | none =>
    refine (returns_pure _).mpr ⟨evicts, fun searches _ some => .inr ?_, .inl ⟨_, rfl⟩⟩
    obtain ⟨i, evictable⟩ := some
    rcases complete searches rfl with never | ⟨left, used⟩
    · rw [never i] at evictable
      cases evictable
    · exact ⟨left, used, rfl, rfl⟩
  | some id =>
    have evictable := selected.evictable id rfl
    obtain ⟨b, locked, clears⟩ := returns_dropSegment here evictable
    dsimp only
    rw [returns_bind]
    refine returns_of_eq locked ?_
    dsimp only
    rw [segmentOf, returns_bind, returns_read, returns_bind]
    refine clears.mono fun outcome middle known => ?_
    obtain ⟨freed, evicted⟩ := known
    subst freed
    dsimp only
    have after' : Evicts config cache (middle.headPatched b (cache.segment id).prev
        (cache.segment id).next) :=
      evicts.trans (evicted.evicts (sealed_of_canEvict evictable).1 selected.ranked) fun empty => empty
    have yields : config.spareCapacity = 0 → Yields cache (middle.headPatched b
        (cache.segment id).prev (cache.segment id).next) := by
      intro none
      have unpinned := (sealed_of_canEvict evictable).2
      have freed := evicted.freed none unpinned
      refine .inl ⟨fun same => ?_, evicted.stocked none unpinned⟩
      rw [same] at freed
      exact absurd freed (Nat.ne_of_lt (Nat.lt_succ_self _))
    have drops : Drops config id cache (middle.headPatched b (cache.segment id).prev
        (cache.segment id).next) := by
      refine ⟨evictable, fun key mapping => ?_, fun i different held => evicted.held different held⟩
      rw [evicted.maps, calm.maps]
    have isFirst : config.policy = .randomFifo → IsFirstEvictable config cache id := by
      intro policy
      obtain ⟨c, found⟩ := first policy id rfl
      obtain ⟨can, front, back, split, before⟩ := List.find?_eq_some_iff_append.mp found
      refine ⟨c, front, back, ?_, can, fun i inside => ?_⟩
      · rw [← split]
        exact chainFrom_head sane.orderly c
      · simpa using before i inside
    have outcome := @headPatched_apply middle b (cache.segment id).prev
      (cache.segment id).next
    by_cases atHead : (cache.segment id).prev = none
    · rw [if_pos atHead] at outcome ⊢
      rw [returns_bind]
      refine returns_of_eq outcome ((returns_pure _).mpr ?_)
      exact ⟨after', fun _ none _ => yields none, .inr ⟨id, drops, isFirst⟩⟩
    · rw [if_neg atHead] at outcome ⊢
      obtain ⟨-, same⟩ := Prod.mk.inj (Option.some.inj outcome)
      refine (returns_pure _).mpr ?_
      rw [same]
      exact ⟨after', fun _ none _ => yields none, .inr ⟨id, drops, isFirst⟩⟩

/-! ### S3-FIFO -/

/-- A segment of a pool that can be evicted. -/
def Candidate (cache : Cache) (pool : SegmentPool) (id : SegId) : Prop :=
  (cache.segment id).pool = pool ∧ (cache.segment id).canEvict = true

/-- The oldest candidate among the segments seen. -/
structure Oldest (cache : Cache) (pool : SegmentPool) (seen : List SegId) (best : Option SegId) :
    Prop where
  never : best = none → ∀ i ∈ seen, ¬ Candidate cache pool i
  chosen : ∀ id, best = some id → Candidate cache pool id ∧ ∀ i ∈ seen, Candidate cache pool i →
    segmentAge (cache.segment id) ≤ segmentAge (cache.segment i)

theorem Oldest.step {pool : SegmentPool} {seen : List SegId} {best : Option SegId}
    (oldest : Oldest cache pool seen best) (id : SegId) :
    Oldest cache pool (seen ++ [id]) (olderSeg cache pool best id) := by
  have split : ∀ i ∈ seen ++ [id], i ∈ seen ∨ i = id := fun i inside => by simpa using inside
  unfold olderSeg
  by_cases candidate : Candidate cache pool id
  · rw [if_pos (by simpa [Candidate] using candidate)]
    cases best with
    | none =>
      refine ⟨fun no => (by cases no), fun other same => ?_⟩
      cases same
      refine ⟨candidate, fun i inside isCandidate => ?_⟩
      rcases split i inside with before | rfl
      · exact absurd isCandidate (oldest.never rfl i before)
      · exact le_rfl
    | some best =>
      obtain ⟨isBest, least⟩ := oldest.chosen best rfl
      dsimp only
      split
      · rename_i older
        refine ⟨fun no => (by cases no), fun other same => ?_⟩
        cases same
        refine ⟨candidate, fun i inside isCandidate => ?_⟩
        rcases split i inside with before | rfl
        · exact le_of_lt (lt_of_lt_of_le older (least i before isCandidate))
        · exact le_rfl
      · rename_i newer
        refine ⟨fun no => (by cases no), fun other same => ?_⟩
        cases same
        refine ⟨isBest, fun i inside isCandidate => ?_⟩
        rcases split i inside with before | rfl
        · exact least i before isCandidate
        · exact not_lt.mp newer
  · rw [if_neg (by simpa [Candidate] using candidate)]
    refine ⟨fun no i inside => ?_, fun other same => ⟨(oldest.chosen other same).1, fun i inside isCandidate => ?_⟩⟩
    · rcases split i inside with before | rfl
      · exact oldest.never no i before
      · exact candidate
    · rcases split i inside with before | rfl
      · exact (oldest.chosen other same).2 i before isCandidate
      · exact absurd isCandidate candidate

theorem Oldest.fold {pool : SegmentPool} {seen : List SegId} {best : Option SegId}
    (oldest : Oldest cache pool seen best) (ids : List SegId) :
    Oldest cache pool (seen ++ ids) (ids.foldl (olderSeg cache pool) best) := by
  induction ids generalizing seen best with
  | nil => simpa using oldest
  | cons id ids ih =>
    have later := ih (oldest.step id)
    rwa [List.append_assoc] at later

theorem oldestInBuckets_eq (orderly : Orderly config hand chain cache.shape) {pool : SegmentPool}
    {seen : List SegId} {best : Option SegId} (oldest : Oldest cache pool seen best)
    (buckets : List Nat) : ∃ last, oldestInBuckets config cache pool best buckets = some last ∧
      Oldest cache pool (seen ++ buckets.flatMap chain) last := by
  induction buckets generalizing seen best with
  | nil => exact ⟨best, rfl, by simpa using oldest⟩
  | cons b buckets ih =>
    obtain ⟨last, found, isOldest⟩ := ih (oldest.fold (chain b))
    refine ⟨last, ?_, ?_⟩
    · rw [oldestInBuckets, chainFrom_head orderly b]
      exact found
    · rw [List.flatMap_cons, ← List.append_assoc]
      exact isOldest

/-- The oldest evictable segment of a pool. -/
structure IsOldest (cache : Cache) (pool : SegmentPool) (id : SegId) : Prop where
  candidate : Candidate cache pool id
  least : ∀ i, Candidate cache pool i →
    segmentAge (cache.segment id) ≤ segmentAge (cache.segment i)

/-- **The scan of a pool finds its oldest evictable segment.** -/
theorem findOldestSegInPool_apply (orderly : Orderly config hand chain cache.shape)
    (pool : SegmentPool) : ∃ best, findOldestSegInPool config pool cache = some (best, cache) ∧
      (best = none → ∀ i, ¬ Candidate cache pool i) ∧
      ∀ id, best = some id → IsOldest cache pool id := by
  have start : Oldest cache pool [] none :=
    ⟨fun _ _ inside => absurd inside List.not_mem_nil, fun _ found => (by cases found)⟩
  have all : ∀ b, b < totalBuckets → b ∈ List.range totalBuckets := fun b => List.mem_range.mpr
  unfold findOldestSegInPool
  generalize List.range totalBuckets = buckets at all
  obtain ⟨best, found, oldest⟩ := oldestInBuckets_eq orderly start buckets
  rw [List.nil_append] at oldest
  have every : ∀ i, Candidate cache pool i → i ∈ buckets.flatMap chain := by
    intro i candidate
    have here := (mem_bucket orderly candidate.2).2
    exact List.mem_flatMap.mpr ⟨_, all _ (orderly.bucket _ (List.ne_nil_of_mem here)).2, here⟩
  refine ⟨best, ?_, fun no i candidate => oldest.never no i (every i candidate) candidate,
    fun id some => ⟨(oldest.chosen id some).1, fun i candidate =>
      (oldest.chosen id some).2 i (every i candidate) candidate⟩⟩
  rw [found]
  rfl

theorem S3Evicted.evicts {relink : RelinkFreq} {ghosted : List (Nat × Item)}
    (evicted : S3Evicted config relink id cache.freeQueue.head? ghosted cache after)
    (merges : config.Merges) (sane : Sane config Hand.empty chain cache)
    (ranked : Ranked config cache) : Evicts config cache after := by
  obtain ⟨dest, -, sifted⟩ := evicted.sifted
  refine ⟨evicted.sane, sifted.shed, sifted.shed.wanes sane.orderly merges, evicted.now, fun empty => evicted.flows ?_,
    ranked.congr ?_⟩
  · rw [empty]
    rfl
  · rw [evicted.eviction]

theorem S3Evicted.yields {relink : RelinkFreq} {target : Option SegId} {ghosted : List (Nat × Item)}
    (evicted : S3Evicted config relink id target ghosted cache after)
    (none : config.spareCapacity = 0) (unpinned : (cache.segment id).refCount = 0) :
    Yields cache after := by
  have freed := evicted.freed none unpinned
  refine .inl ⟨fun same => ?_, evicted.stocked none unpinned⟩
  rw [same] at freed
  exact absurd freed (Nat.ne_of_lt (Nat.lt_succ_self _))

/-- What an S3-FIFO eviction chooses: the oldest admission segment, else the oldest main one. -/
def IsS3Victim (cache : Cache) (id : SegId) : Prop :=
  IsOldest cache .admission id ∨
    ((∀ i, ¬ Candidate cache .admission i) ∧ IsOldest cache .main id)

/-- A segment is emptied: its items are gone, or they have moved to another one. -/
structure Empties (config : Config) (id : SegId) (cache after : Cache) : Prop where
  was : (cache.segment id).state = .sealed
  gone : holds (after.segment id).state = false
  emptied : ∀ key mapping, Maps config cache key mapping → mapping.location.segment = id →
    ∀ other, Maps config after key other → other.location.segment ≠ id
  stays : ∀ key mapping, Maps config cache key mapping → mapping.location.segment ≠ id →
    Maps config after key mapping
  others : ∀ i, i ≠ id → holds (cache.segment i).state = true → holds (after.segment i).state = true

theorem Sifted.emptied {relink : RelinkFreq} {moved : List (Nat × Item)} {dest : SegId}
    (sifted : Sifted config relink moved id dest cache after)
    (consistent : Consistent config none after) (apart : id ≠ dest) {key : Key} {mapping other : Mapping}
    (maps : Maps config cache key mapping) (here : mapping.location.segment = id)
    (now : Maps config after key other) : other.location.segment ≠ id := by
  by_cases inside : mapping.location.offset ∈ moved.map Prod.fst
  · obtain ⟨location, there, moves⟩ := sifted.kept key mapping maps here inside
    cases consistent.maps_unique now moves
    exact fun same => apart (same.symm.trans there)
  · exact absurd now (sifted.dropped key mapping maps here inside other)

theorem S3Evicted.empties {relink : RelinkFreq} {ghosted : List (Nat × Item)}
    (evicted : S3Evicted config relink id cache.freeQueue.head? ghosted cache after)
    (sane : Sane config Hand.empty chain cache) (state : (cache.segment id).state = .sealed) :
    Empties config id cache after := by
  obtain ⟨_, sane'⟩ := evicted.sane
  obtain ⟨dest, target, sifted⟩ := evicted.sifted
  by_cases none : cache.freeQueue.head? = none
  · rw [if_pos none] at sifted
    exact ⟨state, evicted.gone, fun key mapping maps here other now =>
      absurd now (sifted.dropped key mapping maps here (by simp) other), sifted.stays,
      evicted.others⟩
  · have queued : dest ∈ cache.freeQueue ++ cache.spareQueue :=
      List.mem_append_left _ (List.mem_of_head? (target.resolve_left none))
    have free : (cache.segment dest).state = .free :=
      ((sane.orderly.queues.queued dest).mp queued).2
    refine ⟨state, evicted.gone, fun key mapping maps here other now =>
      sifted.emptied sane'.consistent ?_ maps here now, sifted.stays, evicted.others⟩
    rintro rfl
    rw [free] at state
    cases state

/-- **S3-FIFO's eviction.** -/
theorem returns_s3fifoEvict (merges : config.Merges) (sane : Sane config Hand.empty chain cache)
    (ranked : Ranked config cache) : Returns (s3fifoEvict config) (fun _ after =>
      Evicts config cache after ∧
      (config.spareCapacity = 0 → (∃ i, (cache.segment i).canEvict = true) → Yields cache after) ∧
      ((after = cache ∧ ∀ i, (cache.segment i).canEvict = false) ∨
        ∃ id, IsS3Victim cache id ∧ Empties config id cache after)) cache := by
  obtain ⟨admission, ranAdmission, noAdmission, isAdmission⟩ :=
    findOldestSegInPool_apply sane.orderly .admission
  obtain ⟨main, ranMain, noMain, isMain⟩ := findOldestSegInPool_apply sane.orderly .main
  have refl := Evicts.refl sane ranked
  unfold s3fifoEvict
  rw [returns_bind]
  refine returns_of_eq ranAdmission ?_
  cases admission with
  | some id =>
    have oldest := isAdmission id rfl
    obtain ⟨state, unpinned⟩ := sealed_of_canEvict oldest.candidate.2
    exact (returns_s3fifoEvictAdmission sane state).mono fun _ after ⟨evicted, _⟩ =>
      ⟨evicted.evicts merges sane ranked, fun none _ => evicted.yields none unpinned,
        .inr ⟨id, .inl oldest, evicted.empties sane state⟩⟩
  | none =>
    dsimp only
    rw [returns_bind]
    refine returns_of_eq ranMain ?_
    cases main with
    | some id =>
      have oldest := isMain id rfl
      obtain ⟨state, unpinned⟩ := sealed_of_canEvict oldest.candidate.2
      exact (returns_s3fifoEvictMain sane state).mono fun _ after ⟨evicted, _⟩ =>
        ⟨evicted.evicts merges sane ranked, fun none _ => evicted.yields none unpinned,
          .inr ⟨id, .inr ⟨noAdmission rfl, oldest⟩, evicted.empties sane state⟩⟩
    | none =>
      have never : ∀ i, (cache.segment i).canEvict = false := by
        intro i
        rw [← Bool.not_eq_true]
        intro evictable
        cases pool : (cache.segment i).pool with
        | admission => exact noAdmission rfl i ⟨pool, evictable⟩
        | main => exact noMain rfl i ⟨pool, evictable⟩
      refine (returns_pure _).mpr ⟨refl, fun _ ⟨i, evictable⟩ => ?_, .inl ⟨rfl, never⟩⟩
      cases evictable.symm.trans (never i)

/-! ### The merge policy -/

/-- A bucket's next merge is to begin at this segment. -/
def Cache.aimed (cache : Cache) (b : Nat) (next : Option SegId) : Cache :=
  let bucket := { cache.bucket b with nextToMerge := next }
  { cache with bucket := Function.update cache.bucket b bucket }

theorem aimed_frame (b : Nat) (next : Option SegId) :
    Frame config none cache (cache.aimed b next) := frame_of_same rfl rfl

theorem aimed_shape (b : Nat) (next : Option SegId) : (cache.aimed b next).shape = cache.shape := by
  refine Shape.ext rfl (funext fun c => ?_) (funext fun c => ?_) rfl rfl rfl
  · show (Function.update cache.bucket b _ c).head = (cache.bucket c).head
    rw [Function.update_apply]
    split
    · rename_i same
      rw [same]
    · rfl
  · show (Function.update cache.bucket b _ c).tail = (cache.bucket c).tail
    rw [Function.update_apply]
    split
    · rename_i same
      rw [same]
    · rfl

theorem setNextToMerge_apply (b : Nat) (next : Option SegId) :
    setNextToMerge b next cache = some ((), cache.aimed b next) := rfl

/-- A bucket's merge position is no part of the chains. -/
theorem Sane.aimed (sane : Sane config hand chain cache) (b : Nat) (next : Option SegId) :
    Sane config hand chain (cache.aimed b next) ∧ Calm config none cache (cache.aimed b next) := by
  have calm := (@aimed_frame config cache b next).calm sane.consistent
  refine ⟨⟨calm.consistent, ?_⟩, calm⟩
  rw [aimed_shape]
  exact sane.orderly

theorem Evicts.aimed (evicts : Evicts config cache middle) (b : Nat) (next : Option SegId) :
    Evicts config cache (middle.aimed b next) := by
  obtain ⟨chain, sane⟩ := evicts.sane
  obtain ⟨sane', calm⟩ := sane.aimed b next
  refine ⟨⟨chain, sane'⟩, evicts.shed.trans calm.shed, ⟨evicts.wanes.awake, evicts.wanes.asleep⟩,
    evicts.now, fun empty => ?_, evicts.ranked.congr rfl⟩
  exact (evicts.flows empty).trans ⟨le_rfl, rfl⟩

/-- **The buckets are tried for a merge.** -/
theorem returns_mergeBuckets (isMerge : config.policy.isMerge = true)
    (buckets : List Nat) (sane : Sane config Hand.empty chain cache) (ranked : Ranked config cache) :
    Returns (mergeBuckets config buckets) (fun _ after => Evicts config cache after) cache := by
  induction buckets generalizing cache chain with
  | nil => exact (returns_pure _).mpr (Evicts.refl sane ranked)
  | cons b buckets ih =>
    unfold mergeBuckets
    rw [returns_bind, returns_read]
    have head : (cache.bucket b).head = (chain b).head? := sane.orderly.head b
    cases first : (cache.bucket b).head with
    | none => exact ih sane ranked
    | some id =>
      have isBucket : IsBucket b := by
        refine (sane.orderly.bucket b fun empty => ?_).1
        rw [head, empty] at first
        cases first
      dsimp only
      rw [returns_bind, returns_read]
      refine (returns_mergeEvict sane isBucket isMerge).seq fun result middle ⟨settles, empty⟩ => ?_
      have evicts := settles.evicts ranked
      cases result with
      | some next =>
        rw [returns_bind]
        exact returns_of_eq (setNextToMerge_apply b next) ((returns_pure _).mpr (evicts.aimed b next))
      | none =>
        rw [returns_bind]
        refine returns_of_eq (setNextToMerge_apply b none) ?_
        have aimed := evicts.aimed b none
        obtain ⟨chain', sane'⟩ := aimed.sane
        exact (ih sane' aimed.ranked).mono fun _ after later => aimed.trans later (empty rfl)

/-! ### The pass -/

theorem merges_of_not_merge (other : config.policy.isMerge = false) : config.Merges := by
  intro isMerge
  rw [other] at isMerge
  cases isMerge

theorem Swept.evicts {cutoff : Option Nat} {buckets : List Nat} {drained : Nat}
    (swept : Swept config cutoff buckets chain drained cache after) (ranked : Ranked config cache) :
    Evicts config cache after :=
  ⟨⟨_, swept.sane⟩, swept.shed, swept.wanes, swept.now, fun _ => swept.flows,
    ranked.congr (by rw [swept.eviction])⟩

/-- What an eviction pass has dropped: what had expired, if that freed a segment; else nothing, or its
policy's victim. -/
def Victimized (config : Config) (cache after : Cache) : Prop :=
  ∃ chain drained middle, expireBuckets config cache = some (drained, middle) ∧
    Swept config (some cache.now) cache.expiring chain drained cache middle ∧ ((0 < drained ∧ after = middle) ∨
      (drained = 0 ∧ ((∃ eviction, after = { middle with eviction := eviction }) ∨
        (config.policy.searches = true ∧ ∃ id, Drops config id middle after ∧
          (config.policy = .randomFifo → IsFirstEvictable config middle id)) ∨
        (config.policy.isS3Fifo = true ∧ ∃ id, IsS3Victim middle id ∧
          Empties config id middle after))))

/-- **An eviction pass.** -/
theorem returns_evict (sane : Sane config Hand.empty chain cache)
    (ranked : Ranked config cache) : Returns (evict config) (fun _ after =>
      Evicts config cache after ∧
      (config.policy.searches = true ∨ config.policy.isS3Fifo = true → Unpinned cache →
        (∃ i, (cache.segment i).canEvict = true) → Yields cache after) ∧
      (config.policy.isMerge = false → Victimized config cache after)) cache := by
  unfold evict
  obtain ⟨drained, middle, ran, swept, _⟩ := returns_expireBuckets sane
  rw [returns_bind]
  refine returns_of_eq ran ?_
  have evicts := swept.evicts ranked
  have sane' := swept.sane
  have spare : config.policy.searches = true ∨ config.policy.isS3Fifo = true →
      config.spareCapacity = 0 := by
    unfold Config.spareCapacity
    cases config.policy <;> simp [Policy.searches, Policy.isS3Fifo, Policy.isMerge]
  by_cases some : 0 < drained
  · rw [if_pos some]
    refine (returns_pure _).mpr ⟨evicts, fun policy _ _ => ?_,
      fun _ => ⟨chain, drained, middle, ran, swept, .inl ⟨some, rfl⟩⟩⟩
    have freed := swept.freed (spare policy)
    have length := swept.flows.length
    refine .inl ⟨by omega, fun empty => ?_⟩
    rw [empty, List.length_nil] at length
    omega
  rw [if_neg some]
  obtain rfl : drained = 0 := by omega
  have empty : cache.freeQueue = [] → middle.freeQueue = [] := by
    intro none
    have := swept.counted
    have := swept.flows.le
    have length := swept.flows.length
    rw [none, List.length_nil] at length
    exact List.eq_nil_of_length_eq_zero (by omega)
  -- Nothing had expired: without pins the segments are those of the beginning.
  have idle : Unpinned cache → middle = { cache with lastExpired := middle.lastExpired } :=
    swept.idle rfl
  have wholly : ∀ after, Evicts config middle after → (config.policy.searches = true ∨
        config.policy.isS3Fifo = true → (∃ i, (middle.segment i).canEvict = true) →
          Yields middle after) →
      Evicts config cache after ∧ (config.policy.searches = true ∨ config.policy.isS3Fifo = true →
        Unpinned cache → (∃ i, (cache.segment i).canEvict = true) → Yields cache after) := by
    intro after later yields
    refine ⟨evicts.trans later empty, fun policy unpinned evictable => ?_⟩
    have same := idle unpinned
    have segment : middle.segment = cache.segment := by rw [same]
    have freed : middle.freed = cache.freed := by rw [same]
    have queue : middle.freeQueue = cache.freeQueue := by rw [same]
    have eviction : middle.eviction = cache.eviction := by rw [same]
    have yielded := yields policy (by rw [segment]; exact evictable)
    unfold Yields Exhausted at yielded ⊢
    rwa [segment, freed, queue, eviction] at yielded
  cases policy : config.policy with
  | none =>
    refine (returns_pure _).mpr ?_
    have same := wholly middle (Evicts.refl sane' evicts.ranked) fun searches =>
      absurd searches (by simp [policy, Policy.searches, Policy.isS3Fifo])
    rw [policy] at same
    exact ⟨same.1, same.2, fun _ => ⟨chain, 0, middle, ran, swept, .inr ⟨rfl, .inl ⟨middle.eviction, rfl⟩⟩⟩⟩
  | merge most merge_ compact =>
    dsimp only
    unfold drawRandom
    rw [returns_bind, returns_exchange]
    dsimp only
    rw [segmentOf, returns_bind, returns_read]
    have drawn := sane'.withEviction { middle.eviction with drawn := middle.eviction.drawn + 1 }
    have ranked' : Ranked config { middle with
        eviction := { middle.eviction with drawn := middle.eviction.drawn + 1 } } :=
      evicts.ranked.congr rfl
    refine (returns_mergeBuckets (by rw [policy]; rfl) _ drawn.1 ranked').mono
      fun _ after later => ?_
    have step : Evicts config middle after :=
      (Evicts.ofEviction sane' ranked').trans later fun none => none
    have same := wholly after step fun searches =>
      absurd searches (by simp [policy, Policy.searches, Policy.isS3Fifo])
    rw [policy] at same
    exact ⟨same.1, same.2, fun no => by cases no⟩
  | s3Fifo ratio =>
    have merges : config.Merges := merges_of_not_merge (by rw [policy]; rfl)
    refine (returns_s3fifoEvict merges sane' evicts.ranked).mono fun _ after known => ?_
    obtain ⟨later, yields, victim⟩ := known
    have same := wholly after later fun searches => yields (spare searches)
    rw [policy] at same
    refine ⟨same.1, same.2, fun _ => ⟨chain, 0, middle, ran, swept, .inr ⟨rfl, ?_⟩⟩⟩
    rcases victim with ⟨rfl, -⟩ | found
    · exact .inl ⟨_, rfl⟩
    · exact .inr (.inr ⟨by rw [policy]; rfl, found⟩)
  | random | randomFifo | fifo | cte | util =>
    refine (returns_evictOne sane' evicts.ranked).mono fun _ after known => ?_
    obtain ⟨later, yields, victim⟩ := known
    have searches : config.policy.searches = true := by
      rw [policy]
      rfl
    have same := wholly after later fun _ => yields searches (spare (.inl searches))
    rw [policy] at same
    refine ⟨same.1, same.2, fun _ => ⟨chain, 0, middle, ran, swept, .inr ⟨rfl, ?_⟩⟩⟩
    exact victim.imp_right fun found => .inl ⟨by rw [policy]; rfl, found⟩

end CacheRs.Segcache
