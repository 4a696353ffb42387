/-
**Draining segments.**

* `Sane`: the table agrees with the segments, and chains, queues and states are in order;
* `Shed`: some keys have lost their items, and no key has got another;
* `returns_finalizeDrained`: a claimed segment loses its items and leaves its chain;
* `returns_clearSegment`, `returns_drainChain`: **one sealed segment, and whole chains, are
  drained**.
-/

import CacheRs.Segcache.LifecycleSteps

set_option linter.unusedSectionVars false

namespace CacheRs.Segcache

open DoublyLinked
open Segments (SegId State totalBuckets bucketTtl IsBucket)
open Sequential Procedure

/-- The table agrees with the segments, and chains, queues and states are in order. -/
structure Sane (config : Config) (hand : Hand) (chain : Nat → List SegId) (cache : Cache) : Prop where
  consistent : Consistent config none cache
  orderly : Orderly config hand chain cache.shape

variable {config : Config} {hand : Hand} {chain : Nat → List SegId} {cache middle after : Cache}
  {id : SegId} {b : Nat}

/-- A claim, as a step of the cache. -/
def Cache.claimed (cache : Cache) (id : SegId) : Cache :=
  cache.setSegment id { cache.segment id with state := .draining }

theorem claim_apply {expected : State} (state : (cache.segment id).state = expected) :
    casMetadata id expected .draining none none cache = some (true, cache.claimed id) :=
  casMetadata_apply none none state

theorem claimed_shape : (cache.claimed id).shape =
    cache.shape.setNode id { cache.shape.node id with state := .draining } := setSegment_shape _

theorem claimed_self : (cache.claimed id).segment id = { cache.segment id with state := .draining } :=
  setSegment_self ..

theorem claimed_of_ne {i : SegId} (different : i ≠ id) :
    (cache.claimed id).segment i = cache.segment i := setSegment_of_ne different _

/-- A claimed segment keeps its items. -/
theorem calm_claimed (consistent : Consistent config none cache)
    (state : (cache.segment id).state = .sealed ∨ (cache.segment id).state = .live) :
    Calm config none cache (cache.claimed id) := by
  refine (frame_setSegment ?_).calm consistent
  refine ⟨rfl, rfl, rfl, rfl, fun busy => ?_, fun _ => rfl, fun _ => ?_, fun busy => ?_,
    fun busy => ?_⟩
  · simp [isLaid, isFresh] at busy
  · rcases state with same | same <;> simp [same, holds]
  · simp [isLaid] at busy
  · simp [isFresh] at busy

theorem Sane.laid (sane : Sane config hand chain cache)
    (state : (cache.segment id).state = .sealed ∨ (cache.segment id).state = .live) :
    ((cache.claimed id).segment id).Laid config := by
  rw [claimed_self]
  have laid := @Consistent.laid _ _ _ sane.consistent id (by rcases state with same | same <;> simp [same, isLaid])
  exact ⟨laid.writeOffset, laid.fits⟩

theorem Sane.claim {f d : Option SegId} (sane : Sane config ⟨f, d, none⟩ chain cache)
    (state : (cache.segment id).state = .sealed ∨ (cache.segment id).state = .live) :
    Sane config ⟨f, d, some id⟩ chain (cache.claimed id) where
  consistent := (calm_claimed sane.consistent state).consistent
  orderly := by
    rw [claimed_shape]
    exact sane.orderly.claim state

/-! ### What can be read -/

/-- A key's item lies in a segment that is not drained. -/
def Awake (config : Config) (cache : Cache) (key : Key) (mapping : Mapping) : Prop :=
  Maps config cache key mapping ∧ (cache.segment mapping.location.segment).state ≠ .draining

/-- What can be read could be read before, and the segments left claimed stay so. -/
structure Wanes (config : Config) (cache after : Cache) : Prop where
  awake : ∀ key mapping, Awake config after key mapping →
    ∃ old, Awake config cache key old ∧ old.item = mapping.item
  asleep : ∀ i, (cache.segment i).state = .draining → (after.segment i).state = .draining

theorem Wanes.refl (cache : Cache) : Wanes config cache cache :=
  ⟨fun _ mapping awake => ⟨mapping, awake, rfl⟩, fun _ => id⟩

theorem Wanes.trans (first : Wanes config cache middle) (second : Wanes config middle after) :
    Wanes config cache after where
  awake key mapping awake := by
    obtain ⟨between, was, same⟩ := second.awake key mapping awake
    obtain ⟨old, wasOld, sameOld⟩ := first.awake key between was
    exact ⟨old, wasOld, sameOld.trans same⟩
  asleep i state := second.asleep i (first.asleep i state)

/-- Entries are lost, and no segment that was left claimed is given back. -/
theorem wanes_of_maps
    (maps : ∀ key mapping, Maps config after key mapping → Maps config cache key mapping)
    (asleep : ∀ i, (cache.segment i).state = .draining → (after.segment i).state = .draining) :
    Wanes config cache after :=
  ⟨fun key mapping awake => ⟨mapping, ⟨maps key mapping awake.1, fun was => awake.2 (asleep _ was)⟩, rfl⟩,
    asleep⟩

/-- Where a merge takes its first candidate, no segment is left claimed. -/
theorem Shed.wanes {f d : Option SegId} (shed : Shed config cache after)
    (orderly : Orderly config ⟨f, d, none⟩ chain cache.shape) (merges : config.Merges) :
    Wanes config cache after where
  awake key mapping awake := by
    obtain ⟨old, was, same⟩ := shed.maps awake.1
    exact ⟨old, ⟨was, orderly.not_draining merges _⟩, same⟩
  asleep i state := absurd state (orderly.not_draining merges i)

theorem OnlyLinks.state {before after : Segment} (links : OnlyLinks before after) :
    after.state = before.state := by
  obtain ⟨next, prev, rfl⟩ := links
  rfl

/-! ### One segment -/

/-- A claimed segment has lost its items and left its chain, whose ends are not patched yet. -/
structure Retired (config : Config) (id : SegId) (cache after : Cache) : Prop
    extends Dropped config id cache after where
  shape : after.shape = cache.shape.left config id
  others : ∀ i, i ≠ id → after.segment i = (cache.patched id).segment i
  bucket : after.bucket = cache.bucket
  eviction : after.eviction = cache.eviction
  now : after.now = cache.now
  lastExpired : after.lastExpired = cache.lastExpired
  freed : after.freed = cache.freed +
    if (cache.segment id).refCount = 0 ∧ config.spareCapacity ≤ cache.spareCount then 1 else 0

theorem retired_lastExpired : (cache.retired config id).lastExpired = cache.lastExpired := by
  unfold Cache.retired
  split
  · rw [Cache.recycled, returned_lastExpired]
    rfl
  · rfl

theorem retired_freed : (cache.retired config id).freed = cache.freed +
    if (cache.segment id).refCount = 0 ∧ config.spareCapacity ≤ cache.spareCount then 1 else 0 := by
  unfold Cache.retired
  by_cases unpinned : (cache.segment id).refCount = 0
  · rw [if_pos unpinned, Cache.recycled, returned_freed]
    simp only [unpinned, true_and]
    rfl
  · rw [if_neg unpinned, if_neg fun both => unpinned both.1]
    rfl

/-- A drained segment that nothing names leaves its chain. -/
theorem retire_apply (state : (cache.segment id).state = .draining)
    (next : (cache.segment id).next ≠ some id) (prev : (cache.segment id).prev ≠ some id) :
    retire config id (cache.segment id).next (cache.segment id).prev cache =
      some (if (cache.segment id).refCount = 0 then .freed else .deferred,
        cache.retired config id) := by
  unfold retire segmentOf Cache.retired
  rw [read_bind]
  by_cases unpinned : (cache.segment id).refCount = 0
  · rw [if_pos unpinned, if_pos unpinned, if_pos unpinned, bind_apply_of_some (recycle_apply state next)]
    rfl
  · rw [if_neg unpinned, if_neg unpinned, if_neg unpinned]
    exact condemn_apply state unpinned next prev

theorem calm_retired (consistent : Consistent config none cache) (vacant : Vacant cache none id)
    (state : (cache.segment id).state = .draining) (next : (cache.segment id).next ≠ some id)
    (prev : (cache.segment id).prev ≠ some id) :
    Calm config none cache (cache.retired config id) := by
  unfold Cache.retired
  by_cases unpinned : (cache.segment id).refCount = 0
  · rw [if_pos unpinned]
    exact calm_recycle consistent vacant _ _ (recycle_apply state next)
  · rw [if_neg unpinned]
    exact calm_condemn consistent vacant _ _ _ _ (condemn_apply state unpinned next prev)

theorem Wiped.shape (wiped : Wiped config id cache after) : after.shape = cache.shape := by
  have rest := wiped.rest
  unfold SameRest at rest
  refine Shape.ext (funext fun i => ?_) ?_ ?_ ?_ ?_ ?_
  · show (after.segment i).node = (cache.segment i).node
    by_cases same : i = id
    · obtain ⟨writeOffset, liveBytes, liveItems, self⟩ := wiped.self
      rw [same, self]
      rfl
    · rw [wiped.others i same]
  all_goals rw [rest]; rfl

/-- **A claimed segment loses its items and leaves its chain.** -/
theorem returns_finalizeDrained (consistent : Consistent config none cache)
    (laid : (cache.segment id).Laid config) (state : (cache.segment id).state = .draining)
    (next : (cache.segment id).next ≠ some id) (prev : (cache.segment id).prev ≠ some id) :
    Returns (finalizeDrained config id)
      (fun outcome after => (outcome = .freed ↔ (cache.segment id).refCount = 0) ∧
        Retired config id cache after) cache := by
  unfold finalizeDrained
  rw [segmentOf, returns_bind, returns_read]
  refine Returns.seq (returns_clear consistent laid state) fun _ middle wiped => ?_
  have node : (middle.segment id).node = (cache.segment id).node := congrFun (congrArg Shape.node wiped.shape) id
  have state' : (middle.segment id).state = .draining := (congrArg Node.state node).trans state
  have next' : (middle.segment id).next = (cache.segment id).next := congrArg Node.next node
  have prev' : (middle.segment id).prev = (cache.segment id).prev := congrArg Node.prev node
  have refCount : (middle.segment id).refCount = (cache.segment id).refCount :=
    congrArg Node.refCount node
  have ran := @retire_apply config _ _ state' (next' ▸ next) (prev' ▸ prev)
  rw [next', prev'] at ran
  refine returns_of_eq ran ⟨?_, ?_⟩
  · rw [refCount]
    split <;> simp_all
  · have rest := wiped.rest
    unfold SameRest at rest
    refine ⟨wiped.toDropped.calm (calm_retired wiped.consistent wiped.toDropped.vacant state'
      (next' ▸ next) (prev' ▸ prev)), ?_, fun i different => ?_, ?_, ?_, ?_, ?_, ?_⟩
    · rw [retired_shape, wiped.shape]
    · rw [retired_others different]
      simp only [Cache.patched, next', prev', wiped.others i different]
    · rw [retired_bucket, rest]
    · rw [retired_eviction, rest]
    · rw [retired_now, rest]
    · rw [retired_lastExpired, rest]
    · rw [retired_freed, refCount, rest]

/-- What a drain puts on the free queue is counted. -/
structure Flows (cache after : Cache) : Prop where
  le : cache.freed ≤ after.freed
  length : after.freed + cache.freeQueue.length = cache.freed + after.freeQueue.length

theorem Flows.refl (cache : Cache) : Flows cache cache := ⟨le_rfl, rfl⟩

theorem Flows.trans (first : Flows cache middle) (second : Flows middle after) :
    Flows cache after := by
  have := first.length
  have := second.length
  exact ⟨first.le.trans second.le, by omega⟩

theorem left_freeQueue (shape : Shape) : (shape.left config id).freeQueue.length =
    shape.freeQueue.length +
      if (shape.node id).refCount = 0 ∧ config.spareCapacity ≤ shape.spareCount then 1 else 0 := by
  unfold Shape.left
  by_cases unpinned : (shape.node id).refCount = 0
  · simp only [unpinned, true_and, if_true]
    unfold Shape.returned
    show (if config.spareCapacity ≤ shape.spareCount then _ else _ : Shape).freeQueue.length = _
    by_cases full : config.spareCapacity ≤ shape.spareCount
    · rw [if_pos full, if_pos full]
      exact List.length_append
    · rw [if_neg full, if_neg full]
      rfl
  · simp only [unpinned, false_and, if_false]
    rfl

theorem Retired.flows (retired : Retired config id cache after) : Flows cache after := by
  have length := @left_freeQueue config id cache.shape
  rw [← retired.shape] at length
  have freed := retired.freed
  have here : after.freeQueue.length = cache.freeQueue.length +
      if (cache.segment id).refCount = 0 ∧ config.spareCapacity ≤ cache.spareCount then 1 else 0 :=
    length
  refine ⟨by omega, by omega⟩

/-- A bucket's head is patched if the segment was first. -/
def Cache.headPatched (cache : Cache) (b : Nat) (prev next : Option SegId) : Cache :=
  if prev = none then
    { cache with bucket := Function.update cache.bucket b { cache.bucket b with head := next } }
  else cache

theorem headPatched_frame (prev next : Option SegId) :
    Frame config none cache (cache.headPatched b prev next) := by
  unfold Cache.headPatched
  split
  · exact frame_of_same rfl rfl
  · exact frame_of_same rfl rfl

theorem headPatched_segment (prev next : Option SegId) :
    (cache.headPatched b prev next).segment = cache.segment := by
  unfold Cache.headPatched
  split
  · rfl
  · rfl

/-- The patch of a head changes nothing that can be read. -/
theorem headPatched_wanes (prev next : Option SegId) :
    Wanes config cache (cache.headPatched b prev next) := by
  refine wanes_of_maps (fun key mapping => (headPatched_frame prev next).maps_iff.mp) fun i asleep => ?_
  rw [headPatched_segment, asleep]

theorem headPatched_shape (prev next : Option SegId) :
    (cache.headPatched b prev next).shape =
      { cache.shape with
        head := if prev = none then Function.update cache.shape.head b next else cache.shape.head } := by
  unfold Cache.headPatched
  by_cases first : prev = none
  · rw [if_pos first, if_pos first]
    refine Shape.ext rfl (funext fun c => ?_) (funext fun c => ?_) rfl rfl rfl
    · show (Function.update cache.bucket b _ c).head = Function.update cache.shape.head b next c
      rw [Function.update_apply, Function.update_apply]
      split <;> rfl
    · show (Function.update cache.bucket b _ c).tail = (cache.bucket c).tail
      rw [Function.update_apply]
      split
      · rename_i same
        rw [same]
      · rfl
  · rw [if_neg first, if_neg first]

/-- The cache after a segment has left its chain and the head that named it is patched. -/
theorem Retired.sane {f d : Option SegId} {front back : List SegId}
    (retired : Retired config id cache after)
    (orderly : Orderly config ⟨f, d, some id⟩ chain cache.shape)
    (inside : chain b = front ++ id :: back) (notLast : back ≠ []) :
    Sane config ⟨f, d, none⟩ (Function.update chain b (front ++ back))
      (after.headPatched b (cache.segment id).prev (cache.segment id).next) where
  consistent := (headPatched_frame _ _).consistent retired.consistent
  orderly := by
    have left := orderly.leave_head inside notLast
    rw [headPatched_shape]
    have heads : after.shape.head = cache.shape.head := by
      funext c
      exact congrArg TtlBucket.head (congrFun retired.bucket c)
    have tails : after.shape.tail = cache.shape.tail := by
      funext c
      exact congrArg TtlBucket.tail (congrFun retired.bucket c)
    rw [heads]
    convert left using 1
    refine Shape.ext ?_ rfl tails ?_ ?_ ?_
    all_goals rw [retired.shape]

/-- A claimed segment is the only one to lose what it holds. -/
theorem Retired.wanes (retired : Retired config id (cache.claimed id) after)
    (consistent : Consistent config none cache)
    (state : (cache.segment id).state = .sealed ∨ (cache.segment id).state = .live) :
    Wanes config cache after := by
  have calm := calm_claimed consistent state
  refine wanes_of_maps (fun key mapping maps => ?_) fun i asleep => ?_
  · exact (calm.maps key mapping).mp ((retired.maps key mapping).mp maps).1
  · have different : i ≠ id := by
      rintro rfl
      rcases state with same | same <;> cases asleep.symm.trans same
    have links : OnlyLinks ((cache.claimed id).segment i)
        (((cache.claimed id).patched id).segment i) := onlyLinks_patched i
    rw [retired.others i different, links.state, claimed_of_ne different, asleep]

/-- **A sealed member is cleared.** -/
theorem returns_clearSegment {f d : Option SegId} {front back : List SegId}
    (sane : Sane config ⟨f, d, none⟩ chain cache) (state : (cache.segment id).state = .sealed)
    (inside : chain b = front ++ id :: back) :
    Returns (clearSegment config id) (fun outcome after => ∃ done, outcome = some done ∧
      (done = .freed ↔ (cache.segment id).refCount = 0) ∧ Retired config id (cache.claimed id) after ∧
      Shed config cache after ∧ Wanes config cache after ∧
      Sane config ⟨f, d, none⟩ (Function.update chain b (front ++ back))
        (after.headPatched b (cache.segment id).prev (cache.segment id).next)) cache := by
  have claimed := sane.claim (.inl state)
  have own := claimed.orderly.not_own inside
  have notLast := sane.orderly.not_last inside (.inl state)
  unfold clearSegment claimForDrain
  rw [returns_bind]
  refine returns_of_eq (claim_apply state) ?_
  rw [if_pos rfl]
  refine (returns_finalizeDrained claimed.consistent (sane.laid (.inl state))
    (by rw [claimed_self]) own.2 own.1).seq fun done after ⟨freed, retired⟩ => ?_
  rw [claimed_self] at freed
  refine (returns_pure _).mpr ⟨done, rfl, freed, retired, ?_, retired.wanes sane.consistent (.inl state), ?_⟩
  · exact (calm_claimed sane.consistent (.inl state)).shed.trans retired.toDropped.shed
  · have sane' := retired.sane claimed.orderly inside notLast
    rw [claimed_self] at sane'
    exact sane'

/-! ### Whole chains -/

/-- A bucket's ends are patched past a segment. -/
def Cache.endsPatched (cache : Cache) (b : Nat) (id : SegId) : Cache :=
  { cache with
    bucket := Function.update cache.bucket b
      { cache.bucket b with
        head := if (cache.bucket b).head = some id then (cache.segment id).next
          else (cache.bucket b).head
        tail := if (cache.bucket b).tail = some id then (cache.segment id).prev
          else (cache.bucket b).tail } }

theorem endsPatched_frame : Frame config none cache (cache.endsPatched b id) :=
  frame_of_same rfl rfl

theorem endsPatched_shape : (cache.endsPatched b id).shape = cache.shape.patchEnds b id := by
  refine Shape.ext rfl (funext fun c => ?_) (funext fun c => ?_) rfl rfl rfl
  · show (Function.update cache.bucket b _ c).head = _
    simp only [Shape.patchEnds, Function.update_apply]
    split <;> rfl
  · show (Function.update cache.bucket b _ c).tail = _
    simp only [Shape.patchEnds, Function.update_apply]
    split <;> rfl

theorem left_patchEnds (shape : Shape) : (shape.patchEnds b id).left config id =
    { shape.left config id with
      head := (shape.patchEnds b id).head
      tail := (shape.patchEnds b id).tail } := by
  obtain ⟨node, head, tail, freeQueue, spareQueue, spareCount⟩ := shape
  simp only [Shape.left, Shape.patchEnds, Shape.patched, Shape.returned, Shape.setNode]
  split
  · split <;> rfl
  · rfl

theorem patchEnds_apply :
    patchEnds b id (cache.segment id).next (cache.segment id).prev cache =
      some ((), cache.endsPatched b id) := by
  have buckets : ∀ bucket : TtlBucket, Function.update cache.bucket b bucket =
      (cache.endsPatched b id).bucket →
      some ((), { cache with bucket := Function.update cache.bucket b bucket }) =
        some ((), cache.endsPatched b id) := by
    intro bucket same
    rw [same]
    rfl
  unfold patchEnds setHead setTail modifyBucket
  rw [read_bind]
  by_cases first : (cache.bucket b).head = some id
  · rw [if_pos first, change_bind]
    simp only [read_bind, Function.update_self]
    by_cases last : (cache.bucket b).tail = some id
    · rw [if_pos last, change_apply]
      simp only [Function.update_self, Function.update_idem]
      exact buckets _ (by simp [Cache.endsPatched, first, last])
    · rw [if_neg last, pure_apply]
      exact buckets _ (by simp [Cache.endsPatched, first, last])
  · rw [if_neg first]
    simp only [read_bind]
    by_cases last : (cache.bucket b).tail = some id
    · rw [if_pos last, change_apply]
      exact buckets _ (by simp [Cache.endsPatched, first, last])
    · rw [if_neg last, pure_apply]
      have same : cache.bucket = (cache.endsPatched b id).bucket := by
        simp [Cache.endsPatched, first, last]
      have here := buckets (cache.bucket b) (by rw [Function.update_eq_self, same])
      rwa [Function.update_eq_self] at here

/-- Whether a drain goes past a segment: without a cutoff always, else if its deadline has passed. -/
def Cache.due (cache : Cache) (cutoff : Option Nat) (id : SegId) : Bool :=
  !cutoff.any fun now => now < (cache.segment id).createAt + (cache.segment id).ttl

/-- The members of a chain that a drain leaves: those left claimed, and all from the first on that is
not due. -/
def Cache.undrained (cache : Cache) (cutoff : Option Nat) : List SegId → List SegId
  | [] => []
  | id :: rest =>
    if cache.due cutoff id then
      if (cache.segment id).state = .draining then id :: cache.undrained cutoff rest
      else cache.undrained cutoff rest
    else id :: rest

theorem undrained_subset (cutoff : Option Nat) (members : List SegId) :
    ∀ i ∈ cache.undrained cutoff members, i ∈ members := by
  induction members with
  | nil => exact fun _ => id
  | cons id rest ih =>
    intro i there
    rw [Cache.undrained] at there
    split at there
    · split at there
      · rcases List.mem_cons.mp there with rfl | later
        · exact List.mem_cons_self ..
        · exact List.mem_cons_of_mem _ (ih i later)
      · exact List.mem_cons_of_mem _ (ih i there)
    · exact there

theorem undrained_congr (cutoff : Option Nat) {members : List SegId}
    (others : ∀ i ∈ members, OnlyLinks (cache.segment i) (after.segment i)) :
    after.undrained cutoff members = cache.undrained cutoff members := by
  induction members with
  | nil => rfl
  | cons id rest ih =>
    obtain ⟨next, prev, same⟩ := others id (List.mem_cons_self ..)
    rw [Cache.undrained, Cache.undrained, ih fun i there => others i (List.mem_cons_of_mem _ there),
      Cache.due, Cache.due, same]

/-- The members behind the front of a chain are drained up to the cutoff, and `drained` of them are
free. -/
structure Drained (config : Config) (cutoff : Option Nat) (chain : Nat → List SegId) (b : Nat)
    (front members : List SegId) (drained : Nat) (cache after : Cache) : Prop where
  sane : Sane config Hand.empty
    (Function.update chain b (front ++ cache.undrained cutoff members)) after
  others : ∀ i, (i ∈ members → i ∈ cache.undrained cutoff members) →
    OnlyLinks (cache.segment i) (after.segment i)
  shed : Shed config cache after
  wanes : Wanes config cache after
  flows : Flows cache after
  freed : config.spareCapacity = 0 → after.freed = cache.freed + drained
  counted : after.freed ≤ cache.freed + drained
  now : after.now = cache.now
  lastExpired : after.lastExpired = cache.lastExpired
  eviction : after.eviction = cache.eviction
  idle : drained = 0 → (∀ i, (cache.segment i).refCount = 0) → after = cache
  still : cache.undrained cutoff members = members → after = cache

/-- A member of a chain is drained. -/
structure RoundDone (config : Config) (chain : Nat → List SegId) (b : Nat) (id : SegId)
    (members : List SegId) (drained : Nat) (cache after : Cache) : Prop where
  sane : Sane config Hand.empty (Function.update chain b members) after
  others : ∀ i, i ≠ id → OnlyLinks (cache.segment i) (after.segment i)
  shed : Shed config cache after
  maps : ∀ key mapping, Maps config after key mapping → Maps config cache key mapping ∧
    mapping.location.segment ≠ id
  flows : Flows cache after
  freed : config.spareCapacity = 0 → after.freed = cache.freed + drained
  counted : after.freed ≤ cache.freed + drained
  now : after.now = cache.now
  lastExpired : after.lastExpired = cache.lastExpired
  eviction : after.eviction = cache.eviction

/-- A member that is not claimed yet takes nothing along that a claimed one holds. -/
theorem RoundDone.wanes {members : List SegId} {drained : Nat}
    (round : RoundDone config chain b id members drained cache after)
    (state : (cache.segment id).state ≠ .draining) : Wanes config cache after := by
  refine wanes_of_maps (fun key mapping maps => (round.maps key mapping maps).1) fun i asleep => ?_
  rw [(round.others i fun same => state (same ▸ asleep)).state, asleep]

/-- The end of a chain, or a member that is not due. -/
theorem Drained.nothing {cutoff : Option Nat} {front members : List SegId}
    (sane : Sane config Hand.empty chain cache) (inside : chain b = front ++ members)
    (left : cache.undrained cutoff members = members) :
    Drained config cutoff chain b front members 0 cache cache where
  sane := by
    rw [left, ← inside, Function.update_eq_self]
    exact sane
  others _ _ := OnlyLinks.refl _
  shed := Shed.refl cache
  wanes := Wanes.refl cache
  flows := Flows.refl cache
  freed _ := rfl
  counted := le_rfl
  now := rfl
  lastExpired := rfl
  eviction := rfl
  idle _ _ := rfl
  still _ := rfl

/-- A member that was left claimed is skipped. -/
theorem Drained.skip {cutoff : Option Nat} {front rest : List SegId} {drained : Nat}
    (apart : id ∉ rest) (due : cache.due cutoff id = true)
    (state : (cache.segment id).state = .draining)
    (later : Drained config cutoff chain b (front ++ [id]) rest drained cache after) :
    Drained config cutoff chain b front (id :: rest) drained cache after := by
  have left : cache.undrained cutoff (id :: rest) = id :: cache.undrained cutoff rest := by
    rw [Cache.undrained, if_pos due, if_pos state]
  refine { later with sane := ?_, others := fun i kept => later.others i fun there => ?_, still := ?_ }
  · rw [left, List.append_cons]
    exact later.sane
  · have kept := kept (List.mem_cons_of_mem _ there)
    rw [left] at kept
    exact (List.mem_cons.mp kept).resolve_left fun same => apart (same ▸ there)
  · rw [left]
    exact fun same => later.still (List.cons.inj same).2

theorem Drained.step {cutoff : Option Nat} {front rest : List SegId} {first later : Nat}
    (unique : (id :: rest).Nodup) (due : cache.due cutoff id = true)
    (state : (cache.segment id).state ≠ .draining)
    (round : RoundDone config chain b id (front ++ rest) first cache middle)
    (counted : first = if (cache.segment id).refCount = 0 then 1 else 0)
    (drained : Drained config cutoff (Function.update chain b (front ++ rest)) b front rest later
      middle after) :
    Drained config cutoff chain b front (id :: rest) (first + later) cache after := by
  have apart := (List.nodup_cons.mp unique).1
  have same : middle.undrained cutoff rest = cache.undrained cutoff rest :=
    undrained_congr cutoff fun i there => round.others i fun here => apart (here ▸ there)
  have left : cache.undrained cutoff (id :: rest) = cache.undrained cutoff rest := by
    rw [Cache.undrained, if_pos due, if_neg state]
  exact {
    sane := by
      have sane := drained.sane
      rwa [Function.update_idem, same, ← left] at sane
    others := fun i kept => by
      have other : i ≠ id := by
        rintro rfl
        have there := kept (List.mem_cons_self ..)
        rw [left] at there
        exact apart (undrained_subset cutoff rest i there)
      refine (round.others i other).trans (drained.others i fun there => ?_)
      rw [same, ← left]
      exact kept (List.mem_cons_of_mem _ there)
    shed := round.shed.trans drained.shed
    wanes := (round.wanes state).trans drained.wanes
    flows := round.flows.trans drained.flows
    freed := fun none => by rw [drained.freed none, round.freed none]; omega
    counted := by
      have := drained.counted
      have := round.counted
      omega
    now := drained.now.trans round.now
    lastExpired := drained.lastExpired.trans round.lastExpired
    eviction := drained.eviction.trans round.eviction
    idle := fun none unpinned => by
      rw [if_pos (unpinned id)] at counted
      omega
    still := fun same => by
      have there : id ∈ cache.undrained cutoff (id :: rest) := by
        rw [same]
        exact List.mem_cons_self ..
      rw [left] at there
      exact absurd (undrained_subset cutoff rest id there) apart }

/-- The end of a round, behind the clear. -/
theorem roundDone {front rest : List SegId}
    (sane : Sane config ⟨none, none, some id⟩ chain cache) (inside : chain b = front ++ id :: rest)
    (asleep : ∀ i ∈ front, (cache.segment i).state = .draining)
    (wiped : Wiped config id cache middle) :
    RoundDone config chain b id (front ++ rest)
      (if (cache.segment id).refCount = 0 then 1 else 0) cache
      ((middle.endsPatched b id).retired config id) := by
  have state : (cache.segment id).state = .draining := sane.orderly.claimed id rfl
  have own := sane.orderly.not_own inside
  have node : (middle.segment id).node = (cache.segment id).node :=
    congrFun (congrArg Shape.node wiped.shape) id
  have next : (middle.segment id).next = (cache.segment id).next := congrArg Node.next node
  have prev : (middle.segment id).prev = (cache.segment id).prev := congrArg Node.prev node
  have refCount : (middle.segment id).refCount = (cache.segment id).refCount :=
    congrArg Node.refCount node
  have patched : Calm config none middle (middle.endsPatched b id) :=
    endsPatched_frame.calm wiped.consistent
  have rest' := wiped.rest
  unfold SameRest at rest'
  have calm : Calm config none (middle.endsPatched b id) ((middle.endsPatched b id).retired config id) :=
    calm_retired patched.consistent (wiped.toDropped.vacant.calm patched)
      ((congrArg Node.state node).trans state) (by
        show (middle.segment id).next ≠ some id
        rw [next]
        exact own.2) (by
        show (middle.segment id).prev ≠ some id
        rw [prev]
        exact own.1)
  have shape : (middle.endsPatched b id).shape = cache.shape.patchEnds b id := by
    rw [endsPatched_shape, wiped.shape]
  have lengths := @left_freeQueue config id (cache.shape.patchEnds b id)
  have freed := @retired_freed config (middle.endsPatched b id) id
  have freedHere : (middle.endsPatched b id).freed = cache.freed := by
    show middle.freed = cache.freed
    rw [rest']
  have spareHere : (middle.endsPatched b id).spareCount = cache.spareCount := by
    show middle.spareCount = cache.spareCount
    rw [rest']
  have refHere : ((middle.endsPatched b id).segment id).refCount = (cache.segment id).refCount :=
    refCount
  rw [freedHere, spareHere, refHere] at freed
  refine ⟨⟨calm.consistent, ?_⟩, fun i different => ?_, ?_, fun key mapping maps => ?_,
    ⟨by omega, ?_⟩, fun none => ?_, ?_, ?_, ?_, ?_⟩
  · have left := sane.orderly.leave_ends inside fun _ => asleep
    rw [retired_shape, shape, left_patchEnds]
    exact left
  · rw [retired_others different, ← wiped.others i different]
    exact ⟨_, _, rfl⟩
  · exact (wiped.toDropped.shed.trans patched.shed).trans calm.shed
  · exact (wiped.toDropped.maps key mapping).mp
      ((patched.maps key mapping).mp ((calm.maps key mapping).mp maps))
  · have here : ((middle.endsPatched b id).retired config id).freeQueue.length =
        cache.freeQueue.length +
          if (cache.segment id).refCount = 0 ∧ config.spareCapacity ≤ cache.spareCount then 1
          else 0 := by
      show ((middle.endsPatched b id).retired config id).shape.freeQueue.length = _
      rw [retired_shape, shape]
      exact lengths
    omega
  · rw [freed, none]
    simp
  · rw [freed]
    by_cases unpinned : (cache.segment id).refCount = 0
    · rw [if_pos unpinned]
      split <;> omega
    · rw [if_neg unpinned, if_neg fun both => unpinned both.1]
  · rw [retired_now]
    show middle.now = cache.now
    rw [rest']
  · rw [retired_lastExpired]
    show middle.lastExpired = cache.lastExpired
    rw [rest']
  · rw [retired_eviction]
    show middle.eviction = cache.eviction
    rw [rest']

theorem drainChainFrom_apply {front rest : List SegId} (sane : Sane config Hand.empty chain cache)
    (inside : chain b = front ++ id :: rest)
    (asleep : ∀ i ∈ front, (cache.segment i).state = .draining)
    (state : (cache.segment id).state = .sealed ∨ (cache.segment id).state = .live)
    (cutoff : Option Nat) (fuel freed : Nat) (due : cache.due cutoff id = true) :
    ∃ middle, RoundDone config chain b id (front ++ rest)
        (if (cache.segment id).refCount = 0 then 1 else 0) cache middle ∧
      drainChainFrom config b cutoff (fuel + 1) (some id) freed cache =
        drainChainFrom config b cutoff fuel rest.head?
          (freed + if (cache.segment id).refCount = 0 then 1 else 0) middle := by
  have claimed := sane.claim state
  have notFront : id ∉ front := fun there => by
    rcases state with same | same <;> rw [asleep id there] at same <;> cases same
  obtain ⟨_, middle, cleared, wiped⟩ := returns_clear claimed.consistent (sane.laid state)
    (by rw [claimed_self])
  have node : (middle.segment id).node = ((cache.claimed id).segment id).node :=
    congrFun (congrArg Shape.node wiped.shape) id
  rw [claimed_self] at node
  have next : (middle.segment id).next = (cache.segment id).next := congrArg Node.next node
  have prev : (middle.segment id).prev = (cache.segment id).prev := congrArg Node.prev node
  have own := sane.orderly.not_own inside
  have round := roundDone claimed inside (fun i there => by
    rw [claimed_of_ne (by rintro rfl; exact notFront there)]
    exact asleep i there) wiped
  rw [claimed_self] at round
  have calm := calm_claimed sane.consistent state
  refine ⟨_, ⟨round.sane, fun i different => ?_, calm.shed.trans round.shed,
    fun key mapping maps => ?_, ⟨round.flows.le, round.flows.length⟩,
    round.freed, round.counted, round.now, round.lastExpired, round.eviction⟩, ?_⟩
  · have others := round.others i different
    rwa [claimed_of_ne different] at others
  · have was := round.maps key mapping maps
    exact ⟨(calm.maps key mapping).mp was.1, was.2⟩
  have takes : claimMember id cache = some (true, cache.claimed id) := by
    unfold claimMember
    rcases state with same | same
    · rw [bind_apply_of_some (claim_apply same)]
      rfl
    · have lost : casMetadata id .sealed .draining none none cache = some (false, cache) :=
        casMetadata_lost _ _ (by rw [same]; simp)
      rw [bind_apply_of_some lost]
      exact claim_apply same
  have patches : patchEnds b id (cache.segment id).next (cache.segment id).prev middle =
      some ((), middle.endsPatched b id) := by
    rw [← next, ← prev]
    exact patchEnds_apply
  have retires : retire config id (cache.segment id).next (cache.segment id).prev
      (middle.endsPatched b id) = some (if (cache.segment id).refCount = 0 then .freed else .deferred,
        (middle.endsPatched b id).retired config id) := by
    have refCount : (middle.segment id).refCount = (cache.segment id).refCount :=
      congrArg Node.refCount node
    have ran := @retire_apply config (middle.endsPatched b id) id (congrArg Node.state node)
      (next ▸ own.2) (prev ▸ own.1)
    have refHere : ((middle.endsPatched b id).segment id).refCount = (cache.segment id).refCount :=
      refCount
    have nextHere : ((middle.endsPatched b id).segment id).next = (cache.segment id).next := next
    have prevHere : ((middle.endsPatched b id).segment id).prev = (cache.segment id).prev := prev
    rwa [refHere, nextHere, prevHere] at ran
  have behind : (cache.segment id).next = rest.head? :=
    (sane.orderly.links inside).2
  have later : cutoff.any
      (fun now => now < (cache.segment id).createAt + (cache.segment id).ttl) = false := by
    rwa [Cache.due, Bool.not_eq_true'] at due
  rw [drainChainFrom]
  unfold segmentOf
  rw [read_bind, later, if_neg (by simp), bind_apply_of_some takes, if_pos rfl, bind_apply_of_some cleared,
    bind_apply_of_some patches, bind_apply_of_some retires, behind]
  by_cases unpinned : (cache.segment id).refCount = 0
  · simp only [unpinned, if_true]
  · simp only [unpinned, if_false, Nat.add_zero]

theorem Orderly.length_le {shape : Shape} (orderly : Orderly config hand chain shape) (b : Nat) :
    (chain b).length ≤ config.cap := by
  have inside : (chain b).toFinset ⊆ Finset.Icc 1 config.cap := by
    intro i there
    rw [List.mem_toFinset] at there
    have held := (orderly.member i).mpr ⟨b, there⟩
    have range := orderly.range i fun free => by simp [free, holds] at held
    exact Finset.mem_Icc.mpr range
  have card := Finset.card_le_card inside
  rwa [List.toFinset_card_of_nodup (orderly.unique b), Nat.card_Icc, Nat.add_sub_cancel] at card

/-- A member that is left claimed is not taken. -/
theorem drainChainFrom_skip {front rest : List SegId} (sane : Sane config Hand.empty chain cache)
    (inside : chain b = front ++ id :: rest) (state : (cache.segment id).state = .draining)
    (cutoff : Option Nat) (fuel freed : Nat) (due : cache.due cutoff id = true) :
    drainChainFrom config b cutoff (fuel + 1) (some id) freed cache =
      drainChainFrom config b cutoff fuel rest.head? freed cache := by
  have behind : (cache.segment id).next = rest.head? := (sane.orderly.links inside).2
  have later : cutoff.any
      (fun now => now < (cache.segment id).createAt + (cache.segment id).ttl) = false := by
    rwa [Cache.due, Bool.not_eq_true'] at due
  have lost : claimMember id cache = some (false, cache) := by
    have one : casMetadata id .sealed .draining none none cache = some (false, cache) :=
      casMetadata_lost _ _ (by rw [state]; simp)
    have other : casMetadata id .live .draining none none cache = some (false, cache) :=
      casMetadata_lost _ _ (by rw [state]; simp)
    unfold claimMember
    rw [bind_apply_of_some one]
    exact other
  rw [drainChainFrom]
  unfold segmentOf
  rw [read_bind, later, if_neg (by simp), bind_apply_of_some lost, if_neg (by simp), behind]

/-- The loop of `drain_chain`, behind the members that it has left. -/
theorem returns_drainChainFrom (cutoff : Option Nat) (front members : List SegId) {fuel : Nat}
    (sane : Sane config Hand.empty chain cache) (inside : chain b = front ++ members)
    (asleep : ∀ i ∈ front, (cache.segment i).state = .draining)
    (enough : members.length ≤ fuel) (freed : Nat) :
    Returns (drainChainFrom config b cutoff fuel members.head? freed)
      (fun count after => ∃ drained, count = freed + drained ∧
        Drained config cutoff chain b front members drained cache after) cache := by
  induction members generalizing cache chain fuel freed front with
  | nil =>
    cases fuel <;>
      exact (returns_pure freed).mpr ⟨0, rfl, Drained.nothing sane inside rfl⟩
  | cons id rest ih =>
    obtain ⟨fuel, rfl⟩ : ∃ rounds, fuel = rounds + 1 :=
      ⟨fuel - 1, by rw [List.length_cons] at enough; omega⟩
    have enough' : rest.length ≤ fuel := by
      rw [List.length_cons] at enough
      omega
    have held : holds (cache.segment id).state = true :=
      (sane.orderly.member id).mpr ⟨b, by rw [inside]; simp⟩
    have unique : (id :: rest).Nodup :=
      List.Nodup.of_append_right (inside ▸ sane.orderly.unique b)
    cases due : cache.due cutoff id with
    | false =>
      refine @returns_of_eq _ _ _ _ _ freed cache ?_
        ⟨0, rfl, Drained.nothing sane inside (by rw [Cache.undrained, due]; rfl)⟩
      rw [Cache.due, Bool.not_eq_false'] at due
      rw [List.head?_cons, drainChainFrom]
      unfold segmentOf
      rw [read_bind, due, if_pos rfl]
      rfl
    | true =>
      rcases sane.orderly.settled held with state | state
      · obtain ⟨middle, round, same⟩ := drainChainFrom_apply sane inside asleep state cutoff fuel freed due
        have awake : (cache.segment id).state ≠ .draining := by
          intro there
          rcases state with here | here <;> cases here.symm.trans there
        have still : ∀ i ∈ front, (middle.segment i).state = .draining := by
          intro i there
          rw [(round.others i fun same => awake (same ▸ asleep i there)).state, asleep i there]
        obtain ⟨count, after, ran, drained, counted, isDrained⟩ := ih front round.sane
          (Function.update_self ..) still enough'
          (freed + if (cache.segment id).refCount = 0 then 1 else 0)
        refine ⟨count, after, same.trans ran, _, ?_, isDrained.step unique due awake round rfl⟩
        omega
      · obtain ⟨count, after, ran, drained, counted, isDrained⟩ := ih (front ++ [id]) sane
          (by rw [inside]; simp) (fun i there => by
            rcases List.mem_append.mp there with before | here
            · exact asleep i before
            · rw [List.mem_singleton.mp here]
              exact state) enough' freed
        exact ⟨count, after, (drainChainFrom_skip sane inside state cutoff fuel freed due).trans ran,
          drained, counted, isDrained.skip (List.nodup_cons.mp unique).1 due state⟩

theorem returns_drainChain (cutoff : Option Nat) (sane : Sane config Hand.empty chain cache)
    (b : Nat) : Returns (drainChain config b cutoff)
      (fun drained after => Drained config cutoff chain b [] (chain b) drained cache after) cache := by
  unfold drainChain
  rw [returns_bind, returns_read]
  have head : (cache.bucket b).head = (chain b).head? := sane.orderly.head b
  rw [head]
  refine (returns_drainChainFrom cutoff [] (chain b) sane rfl (fun i there => by cases there)
    (sane.orderly.length_le b) 0).mono fun count after ⟨drained, counted, isDrained⟩ => ?_
  rw [counted, Nat.zero_add]
  exact isDrained

/-- What a sweep of some buckets leaves of the chains. -/
def Cache.sweptChain (cache : Cache) (cutoff : Option Nat) (buckets : List Nat)
    (chain : Nat → List SegId) (b : Nat) : List SegId :=
  if b ∈ buckets then cache.undrained cutoff (chain b) else chain b

/-- The members of some chains are drained up to the cutoff. -/
structure Swept (config : Config) (cutoff : Option Nat) (buckets : List Nat)
    (chain : Nat → List SegId) (drained : Nat) (cache after : Cache) : Prop where
  sane : Sane config Hand.empty (cache.sweptChain cutoff buckets chain) after
  others : ∀ i, (∀ b ∈ buckets, i ∈ chain b → i ∈ cache.undrained cutoff (chain b)) →
    OnlyLinks (cache.segment i) (after.segment i)
  shed : Shed config cache after
  wanes : Wanes config cache after
  flows : Flows cache after
  freed : config.spareCapacity = 0 → after.freed = cache.freed + drained
  counted : after.freed ≤ cache.freed + drained
  now : after.now = cache.now
  eviction : after.eviction = cache.eviction
  idle : drained = 0 → (∀ i, (cache.segment i).refCount = 0) →
    after = { cache with lastExpired := after.lastExpired }
  still : (∀ b ∈ buckets, cache.undrained cutoff (chain b) = chain b) →
    after = { cache with lastExpired := after.lastExpired }

theorem Swept.nothing {cutoff : Option Nat} (sane : Sane config Hand.empty chain cache) :
    Swept config cutoff [] chain 0 cache cache where
  sane := sane
  others _ _ := OnlyLinks.refl _
  shed := Shed.refl cache
  wanes := Wanes.refl cache
  flows := Flows.refl cache
  freed _ := rfl
  counted := le_rfl
  now := rfl
  eviction := rfl
  idle _ _ := rfl
  still _ := rfl

theorem Swept.step {cutoff : Option Nat} {buckets : List Nat} {first later : Nat}
    (sane : Sane config Hand.empty chain cache) (apart : b ∉ buckets)
    (drained : Drained config cutoff chain b [] (chain b) first cache middle)
    (swept : Swept config cutoff buckets
      (Function.update chain b (cache.undrained cutoff (chain b))) later middle after) :
    Swept config cutoff (b :: buckets) chain (first + later) cache after := by
  -- The chains that come later are as they were.
  have elsewhere : ∀ c ∈ buckets, ∀ i ∈ chain c, OnlyLinks (cache.segment i) (middle.segment i) := by
    intro c there i inside
    refine drained.others i fun here => absurd ?_ apart
    rw [sane.orderly.eq_of_mem here inside]
    exact there
  have different : ∀ c ∈ buckets, c ≠ b := fun c there same => apart (same ▸ there)
  have undrained : ∀ c ∈ buckets, middle.undrained cutoff
      (Function.update chain b (cache.undrained cutoff (chain b)) c) =
        cache.undrained cutoff (chain c) := by
    intro c there
    rw [Function.update_of_ne (different c there), undrained_congr cutoff (elsewhere c there)]
  exact {
    sane := by
      have chains : middle.sweptChain cutoff buckets
          (Function.update chain b (cache.undrained cutoff (chain b))) =
            cache.sweptChain cutoff (b :: buckets) chain := by
        funext c
        unfold Cache.sweptChain
        by_cases there : c ∈ buckets
        · rw [if_pos there, if_pos (List.mem_cons_of_mem _ there), undrained c there]
        · rw [if_neg there]
          by_cases same : c = b
          · rw [same, Function.update_self, if_pos (List.mem_cons_self ..)]
          · rw [Function.update_of_ne same, if_neg (by simp [same, there])]
      rw [← chains]
      exact swept.sane
    others := fun i kept => by
      refine (drained.others i (kept b (List.mem_cons_self ..))).trans
        (swept.others i fun c there inside => ?_)
      rw [Function.update_of_ne (different c there)] at inside
      rw [undrained c there]
      exact kept c (List.mem_cons_of_mem _ there) inside
    shed := drained.shed.trans swept.shed
    wanes := drained.wanes.trans swept.wanes
    flows := drained.flows.trans swept.flows
    freed := fun none => by
      rw [swept.freed none, drained.freed none]
      omega
    counted := by
      have := swept.counted
      have := drained.counted
      omega
    now := swept.now.trans drained.now
    eviction := swept.eviction.trans drained.eviction
    idle := fun none unpinned => by
      have same := drained.idle (by omega) unpinned
      have := swept.idle (by omega) (by rw [same]; exact unpinned)
      rwa [same] at this
    still := fun kept => by
      have same := drained.still (kept b (List.mem_cons_self ..))
      have := swept.still fun c there => by
        rw [undrained c there, Function.update_of_ne (different c there)]
        exact kept c (List.mem_cons_of_mem _ there)
      rwa [same] at this }

theorem returns_drainBuckets (cutoff : Option Nat) (buckets : List Nat) (unique : buckets.Nodup)
    (sane : Sane config Hand.empty chain cache) : Returns (drainBuckets config cutoff buckets)
      (fun drained after => Swept config cutoff buckets chain drained cache after ∧
        after.lastExpired = cache.lastExpired) cache := by
  induction buckets generalizing cache chain with
  | nil => exact (returns_pure 0).mpr ⟨Swept.nothing sane, rfl⟩
  | cons b rest ih =>
    rw [List.nodup_cons] at unique
    unfold drainBuckets
    refine (returns_drainChain cutoff sane b).seq fun first middle drained => ?_
    refine (ih unique.2 drained.sane).seq fun later after ⟨swept, lastExpired⟩ =>
      (returns_pure _).mpr ⟨swept.step sane unique.1 drained, lastExpired.trans drained.lastExpired⟩

theorem Swept.congr {cutoff : Option Nat} {buckets : List Nat} {drained : Nat}
    (swept : Swept config cutoff buckets chain drained { cache with lastExpired := cache.now } after)
    (consistent : Consistent config none cache) :
    Swept config cutoff buckets chain drained cache after := by
  have frame : Frame config none cache { cache with lastExpired := cache.now } :=
    frame_of_same rfl rfl
  have undrained : ∀ members, Cache.undrained { cache with lastExpired := cache.now } cutoff members =
      cache.undrained cutoff members := fun members => undrained_congr cutoff fun _ _ => OnlyLinks.refl _
  have chains : Cache.sweptChain { cache with lastExpired := cache.now } cutoff buckets chain =
      cache.sweptChain cutoff buckets chain := by
    funext b
    unfold Cache.sweptChain
    rw [undrained]
  exact {
    sane := chains ▸ swept.sane
    others := fun i kept => swept.others i fun b there inside => by
      rw [undrained]
      exact kept b there inside
    shed := (frame.calm consistent).shed.trans swept.shed
    wanes := ⟨swept.wanes.awake, swept.wanes.asleep⟩
    flows := ⟨swept.flows.le, swept.flows.length⟩
    freed := swept.freed
    counted := swept.counted
    now := swept.now
    eviction := swept.eviction
    idle := swept.idle
    still := fun kept => swept.still fun b there => by
      rw [undrained]
      exact kept b there }

/-- The buckets that `expire` drains, once for each second. -/
def Cache.expiring (cache : Cache) : List Nat :=
  if cache.lastExpired = cache.now then [] else List.range totalBuckets

/-- **`expire`.** -/
theorem returns_expireBuckets (sane : Sane config Hand.empty chain cache) :
    Returns (expireBuckets config) (fun drained after =>
      Swept config (some cache.now) cache.expiring chain drained cache after ∧
        after.lastExpired = cache.now) cache := by
  unfold expireBuckets
  rw [returns_bind, returns_read, returns_bind, returns_exchange]
  have frame : Frame config none cache { cache with lastExpired := cache.now } :=
    frame_of_same rfl rfl
  have here : Sane config Hand.empty chain { cache with lastExpired := cache.now } :=
    ⟨frame.consistent sane.consistent, sane.orderly⟩
  refine Returns.ite (fun done => ?_) fun due => ?_
  · have expiring : cache.expiring = [] := if_pos done
    rw [expiring]
    exact (returns_pure 0).mpr ⟨(Swept.nothing here).congr sane.consistent, rfl⟩
  · have expiring : cache.expiring = List.range totalBuckets := if_neg due
    rw [expiring]
    exact (returns_drainBuckets _ _ List.nodup_range here).mono
      fun drained after ⟨swept, lastExpired⟩ => ⟨swept.congr sane.consistent, lastExpired⟩

/-- **`clear`.** -/
theorem returns_clearBuckets (sane : Sane config Hand.empty chain cache) :
    Returns (clearBuckets config) (fun drained after =>
      Swept config none (List.range totalBuckets) chain drained cache after) cache :=
  (returns_drainBuckets none _ List.nodup_range sane).mono fun _ _ swept => swept.1

end CacheRs.Segcache
