/-
**Room at the end of a chain.**

* `Cache.expanded`, `returns_tryExpand`: a free segment becomes a chain's last member;
* `returns_reserveLoop`: **room for an item is found in the last member**, or in a fresh one.
-/

import CacheRs.Segcache.Evictions

set_option linter.unusedSectionVars false

namespace CacheRs.Segcache

open Segments (SegId State totalBuckets bucketTtl IsBucket getBucketIndex)
open Sequential Procedure

variable {config : Config} {hand : Hand} {chain : Nat → List SegId} {cache middle after : Cache}
  {id : SegId} {b : Nat}

/-! ### One more segment -/

/-- A reserved segment is a chain's new last member, and the old one is sealed. -/
def Cache.expanded (cache : Cache) (b : Nat) (id : SegId) : Cache :=
  let tail := (cache.bucket b).tail
  let ends : TtlBucket :=
    ⟨if tail = none then some id else (cache.bucket b).head, some id, (cache.bucket b).nextToMerge⟩
  { cache with
    segment := fun i =>
      if i = id then { cache.segment i with state := .live, next := none, prev := tail }
      else if tail = some i then { cache.segment i with state := .sealed, next := some id }
      else cache.segment i
    bucket := Function.update cache.bucket b ends }

theorem expanded_self : (cache.expanded b id).segment id =
    { cache.segment id with state := .live, next := none, prev := (cache.bucket b).tail } := by
  simp only [Cache.expanded, if_true]

theorem expanded_frame (reserved : (cache.segment id).state = .reserved)
    (live : ∀ t, (cache.bucket b).tail = some t → (cache.segment t).state = .live) :
    Frame config none cache (cache.expanded b id) := by
  refine ⟨rfl, fun i => .inl ?_⟩
  simp only [Cache.expanded]
  by_cases isNew : i = id
  · subst isNew
    rw [if_pos rfl]
    exact quiet_of_change rfl reserved
  · rw [if_neg isNew]
    by_cases isTail : (cache.bucket b).tail = some i
    · rw [if_pos isTail]
      exact quiet_of_change rfl (live i isTail)
    · rw [if_neg isTail]
      exact Quiet.refl _

theorem expanded_shape : (cache.expanded b id).shape = cache.shape.appended b id := by
  refine Shape.ext (funext fun i => ?_) (funext fun c => ?_) (funext fun c => ?_) rfl rfl rfl
  · show ((cache.expanded b id).segment i).node = _
    simp only [Cache.expanded, Shape.appended]
    by_cases isNew : i = id
    · rw [if_pos isNew, if_pos isNew]
      rfl
    · rw [if_neg isNew, if_neg isNew]
      by_cases isTail : (cache.bucket b).tail = some i
      · rw [if_pos isTail, if_pos (show cache.shape.tail b = some i from isTail)]
        rfl
      · rw [if_neg isTail, if_neg (show ¬ cache.shape.tail b = some i from isTail)]
        rfl
  · show ((cache.expanded b id).bucket c).head = _
    simp only [Cache.expanded, Shape.appended]
    by_cases same : c = b
    · subst same
      rw [Function.update_self]
      by_cases none : (cache.bucket c).tail = none
      · rw [if_pos none, if_pos (show cache.shape.tail c = _ from none), Function.update_self]
      · rw [if_neg none, if_neg (show ¬ cache.shape.tail c = _ from none)]
        rfl
    · rw [Function.update_of_ne same]
      split
      · rw [Function.update_of_ne same]
        rfl
      · rfl
  · show ((cache.expanded b id).bucket c).tail = _
    simp only [Cache.expanded, Shape.appended]
    by_cases same : c = b
    · subst same
      rw [Function.update_self, Function.update_self]
    · rw [Function.update_of_ne same, Function.update_of_ne same]
      rfl

/-- A reserved segment is linked behind the last member. -/
theorem linkTail_apply (reserved : (cache.segment id).state = .reserved)
    (live : ∀ t, (cache.bucket b).tail = some t → (cache.segment t).state = .live) :
    ∃ middle, linkTail b (cache.bucket b).tail id cache = some (true, middle) ∧
      casMetadata id .linking .live none none middle = some (true, cache.expanded b id) := by
  have caches : ∀ (segment : SegId → Segment) (bucket : Nat → TtlBucket),
      (∀ i, segment i = (cache.expanded b id).segment i) →
      (∀ c, bucket c = (cache.expanded b id).bucket c) →
      some (true, { cache with segment := segment, bucket := bucket }) =
        some (true, cache.expanded b id) := by
    intro segment bucket same sameBucket
    rw [funext same, funext sameBucket]
    rfl
  unfold linkTail
  cases tail : (cache.bucket b).tail with
  | none =>
    dsimp only
    rw [read_bind, if_pos tail]
    simp only [setTail, setHead, modifyBucket, change_bind]
    rw [bind_apply_of_some (casMetadata_apply _ _ ?here)]
    case here => exact reserved
    refine ⟨_, rfl, ?_⟩
    rw [casMetadata_apply none none (by simp [Cache.setSegment])]
    refine caches _ _ (fun i => ?_) fun c => ?_
    · simp only [Cache.setSegment, Cache.expanded, tail, Function.update_apply]
      by_cases isNew : i = id
      · subst isNew
        simp
      · simp [isNew]
    · simp only [Cache.setSegment, Cache.expanded, tail, Function.update_apply]
      by_cases same : c = b
      · subst same
        simp
      · simp [same]
  | some t =>
    have apart : t ≠ id := by
      rintro rfl
      have := live t tail
      rw [reserved] at this
      cases this
    dsimp only
    rw [bind_apply_of_some (casMetadata_apply _ _ (live t tail)), if_pos rfl,
      bind_apply_of_some (casMetadata_apply _ _ ?reserved)]
    case reserved => simpa [Cache.setSegment, apart.symm] using reserved
    simp only [setTail, modifyBucket, change_bind]
    refine ⟨_, rfl, ?_⟩
    rw [casMetadata_apply none none (by simp [Cache.setSegment])]
    refine caches _ _ (fun i => ?_) fun c => ?_
    · simp only [Cache.setSegment, Cache.expanded, tail, Function.update_apply]
      by_cases isNew : i = id
      · subst isNew
        simp [apart.symm]
      · by_cases isTail : i = t
        · subst isTail
          simp [isNew]
        · simp [isNew, isTail, Ne.symm isTail]
    · simp only [Cache.setSegment, Cache.expanded, tail, Function.update_apply]
      by_cases same : c = b
      · subst same
        simp
      · simp [same]

/-- A free segment has become a chain's last member. -/
structure Expanded (config : Config) (chain : Nat → List SegId) (b : Nat) (id : SegId)
    (cache after : Cache) : Prop where
  sane : Sane config Hand.empty (Function.update chain b (chain b ++ [id])) after
  calm : Calm config none cache after
  was : (cache.segment id).state = .free
  state : (after.segment id).state = .live
  asleep : ∀ i, (cache.segment i).state = .draining → (after.segment i).state = .draining
  blank : Blank config (after.segment id)
  createAt : (after.segment id).createAt = cache.now
  ttl : (after.segment id).ttl = bucketTtl b
  clock : SameClock cache after
  freed : after.freed = cache.freed

/-- What the reserve loop has seen of a bucket's last member. -/
def observed (cache : Cache) (b : Nat) : Option (SegId × BitVec 16) :=
  (cache.bucket b).tail.map fun tail => (tail, (cache.segment tail).generation)

/-- A bucket's last member takes items. -/
def TailLive (cache : Cache) (b : Nat) : Prop :=
  ∀ t, (cache.bucket b).tail = some t → (cache.segment t).state = .live

section Expansion

variable (sane : Sane config Hand.empty chain cache)

include sane

/-- The last member of a chain is live, unless it was left claimed. -/
theorem Sane.live_of_tail {t : SegId} (tail : (cache.bucket b).tail = some t) :
    t ∈ chain b ∧ ((cache.segment t).state ≠ .draining → (cache.segment t).state = .live) := by
  have last : (chain b).getLast? = some t := (sane.orderly.tail b).symm.trans tail
  have here := List.mem_of_getLast? last
  exact ⟨here, fun awake => (sane.orderly.last b t here awake).mpr last⟩

theorem Sane.tailLive (merges : config.Merges) (b : Nat) : TailLive cache b :=
  fun _ tail => (sane.live_of_tail tail).2 (sane.orderly.not_draining merges _)

/-- **A free segment is put at the end of a chain.** -/
theorem returns_tryExpand (isBucket : IsBucket b ∧ b < totalBuckets) (tailLive : TailLive cache b) :
    Returns (tryExpand config b (observed cache b)) (fun grown after =>
      (grown = false ∧ cache.freeQueue = [] ∧ after = cache) ∨
      (grown = true ∧ ∃ id rest, cache.freeQueue = id :: rest ∧ after.freeQueue = rest ∧
        (after.bucket b).tail = some id ∧ Expanded config chain b id cache after)) cache := by
  unfold tryExpand
  refine (returns_reserveFree sane).seq fun result one outcome => ?_
  rcases outcome with ⟨rfl, empty, rfl⟩ | ⟨id, rest, rfl, queue, queue', taken⟩
  · exact (returns_pure _).mpr (.inl ⟨rfl, empty, rfl⟩)
  dsimp only
  have labelled := @Sane.label _ _ _ _ _ _ taken.sane (fun segment => { segment with ttl := bucketTtl b })
    (fun _ => ⟨rfl, rfl, rfl, rfl, fun _ => rfl, fun was => was, .inl, .inl, fun was => was⟩)
    fun _ => rfl
  have was := taken.was
  have apart : ∀ t, (cache.bucket b).tail = some t → t ≠ id := by
    rintro t tail rfl
    have := tailLive t tail
    rw [was] at this
    cases this
  have reserved : ((one.setSegment id { one.segment id with ttl := bucketTtl b }).segment id).state =
      .reserved := by
    rw [setSegment_self]
    exact taken.state
  have live : ∀ t, ((one.setSegment id { one.segment id with ttl := bucketTtl b }).bucket b).tail =
      some t → ((one.setSegment id { one.segment id with ttl := bucketTtl b }).segment t).state =
        .live := by
    intro t tail
    have tail' : (cache.bucket b).tail = some t := by rw [← taken.bucket]; exact tail
    rw [setSegment_of_ne (apart t tail'), taken.others t (apart t tail')]
    exact tailLive t tail'
  obtain ⟨linking, links, publishes⟩ := linkTail_apply (b := b) reserved live
  have bucket : (one.setSegment id { one.segment id with ttl := bucketTtl b }).bucket = cache.bucket :=
    taken.bucket
  have tails : (observed cache b).map Prod.fst = (cache.bucket b).tail := by
    unfold observed
    cases (cache.bucket b).tail <;> rfl
  rw [bucket] at links
  -- Nobody else has touched the last member.
  have fresh : ((observed cache b).any fun seen =>
      decide ((cache.bucket b).tail ≠ some seen.1) ||
        decide (((one.setSegment id { one.segment id with ttl := bucketTtl b }).segment seen.1).generation ≠
          seen.2)) = false := by
    unfold observed
    cases tail : (cache.bucket b).tail with
    | none => rfl
    | some t =>
      rw [Option.map_some, Option.any_some, setSegment_of_ne (apart t tail),
        taken.others t (apart t tail)]
      simp
  simp only [modifySegment, returns_bind, returns_change, returns_read, bucket]
  rw [fresh, if_neg (by simp), tails]
  rw [returns_bind]
  refine returns_of_eq links ?_
  rw [if_pos rfl, returns_bind]
  refine returns_of_eq publishes ((returns_pure _).mpr (.inr ⟨rfl, id, rest, queue, queue', ?_, ?_⟩))
  · simp only [Cache.expanded, Function.update_self]
  have frame := @expanded_frame config _ _ _ reserved live
  have calm := frame.calm labelled.1.consistent
  have orderly := labelled.1.orderly.append (b := b) (by
    show ((one.setSegment id { one.segment id with ttl := bucketTtl b }).segment id).ttl = _
    rw [setSegment_self]) isBucket live
  refine ⟨⟨calm.consistent, ?_⟩, (taken.calm.trans labelled.2).trans calm, was, ?_, fun i asleep => ?_,
    ?_, ?_, ?_, ?_, ?_⟩
  · rw [expanded_shape]
    exact orderly
  · rw [expanded_self]
  · have notNew : i ≠ id := by
      rintro rfl
      cases asleep.symm.trans was
    have notTail : (cache.bucket b).tail ≠ some i := fun tail => by
      cases asleep.symm.trans (tailLive i tail)
    simp only [Cache.expanded, bucket]
    rw [if_neg notNew, if_neg notTail, setSegment_of_ne notNew, taken.others i notNew, asleep]
  · have blank := taken.blank
    rw [expanded_self, setSegment_self]
    exact ⟨blank.items, blank.liveItems, blank.liveBytes, blank.writeOffset⟩
  · rw [expanded_self, setSegment_self]
    exact taken.createAt
  · rw [expanded_self, setSegment_self]
  · exact taken.clock.trans ⟨rfl, rfl, rfl⟩
  · exact taken.freed

end Expansion

/-! ### The reserve loop -/

/-- The last member of a bucket's chain is live and has this many bytes left. -/
structure HasRoom (config : Config) (b size : Nat) (cache : Cache) (id : SegId) : Prop where
  tail : (cache.bucket b).tail = some id
  state : (cache.segment id).state = .live
  fits : (cache.segment id).writeOffset + size ≤ config.segmentSize

/-- A segment's write offset has moved on, and the item behind it counts already. -/
def Cache.allocated (cache : Cache) (id : SegId) (size : Nat) : Cache :=
  let segment := cache.segment id
  let allocated := { segment with
    writeOffset := segment.writeOffset + size
    liveItems := segment.liveItems + 1
    liveBytes := segment.liveBytes + size }
  cache.setSegment id allocated

section Loop

variable {size : Nat}

theorem reserveLoop_room (fuel : Nat) (room : HasRoom config b size cache id) :
    reserveLoop config b size (fuel + 1) cache =
      some (.ok ⟨id, (cache.segment id).writeOffset⟩, cache.allocated id size) := by
  have state := room.state
  unfold reserveLoop
  rw [read_bind, room.tail]
  dsimp only
  rw [segmentOf, read_bind]
  have allocates : tryAllocItem config id size cache =
      some (.reserved ⟨id, (cache.segment id).writeOffset⟩, cache.allocated id size) := by
    unfold tryAllocItem
    rw [exchange_apply]
    dsimp only
    rw [if_neg (by simp [state, State.isWritable]), if_neg (not_lt.mpr room.fits)]
    rfl
  rw [bind_apply_of_some allocates]
  rfl

theorem reserveLoop_full (fuel : Nat) (tailLive : TailLive cache b) (full : ∀ id, ¬ HasRoom config b size cache id) :
    reserveLoop config b size (fuel + 1) cache =
      (do
        if ← tryExpand config b (observed cache b) then reserveLoop config b size fuel
        else return .error .noFreeSegments : Proc (Except TtlBucketsError Reserved)) cache := by
  rw [reserveLoop, read_bind]
  cases tail : (cache.bucket b).tail with
  | none =>
    unfold observed
    rw [tail]
    rfl
  | some id =>
    have state := tailLive id tail
    have short : config.segmentSize < (cache.segment id).writeOffset + size :=
      not_le.mp fun fits => full id ⟨tail, state, fits⟩
    have refused : tryAllocItem config id size cache = some (.full, cache) := by
      unfold tryAllocItem
      rw [exchange_apply]
      dsimp only
      rw [if_neg (by simp [state, State.isWritable]), if_pos short]
    dsimp only
    rw [segmentOf, read_bind, bind_apply_of_some refused]
    unfold observed
    rw [tail]
    rfl

/-- Behind a member that was left claimed the loop goes on for nothing. -/
theorem reserveLoop_asleep (fuel : Nat) (tail : (cache.bucket b).tail = some id)
    (state : (cache.segment id).state = .draining) :
    reserveLoop config b size (fuel + 1) cache = reserveLoop config b size fuel cache := by
  have refused : tryAllocItem config id size cache = some (.notWritable, cache) := by
    unfold tryAllocItem
    rw [exchange_apply]
    dsimp only
    rw [if_pos (by simp [state, State.isWritable])]
  rw [reserveLoop, read_bind, tail]
  dsimp only
  rw [segmentOf, read_bind, bind_apply_of_some refused]

end Loop

/-- Chains have grown, and nothing else has happened. -/
structure Grown (config : Config) (cache after : Cache) : Prop where
  calm : Calm config none cache after
  asleep : ∀ i, (cache.segment i).state = .draining → (after.segment i).state = .draining
  clock : SameClock cache after
  freed : after.freed = cache.freed

theorem Grown.refl (sane : Sane config Hand.empty chain cache) : Grown config cache cache :=
  ⟨Calm.refl sane.consistent, fun _ => id, SameClock.refl cache, rfl⟩

theorem Grown.trans (first : Grown config cache middle) (second : Grown config middle after) :
    Grown config cache after :=
  ⟨first.calm.trans second.calm, fun i => second.asleep i ∘ first.asleep i,
    first.clock.trans second.clock, second.freed.trans first.freed⟩

/-- Room for an item was found in a chain's last member, which had it or is new. -/
structure RoomFound (config : Config) (b size : Nat) (cache : Cache) (reserved : Reserved)
    (after : Cache) : Prop where
  before : ∃ chain middle, Sane config Hand.empty chain middle ∧ Grown config cache middle ∧
    HasRoom config b size middle reserved.seg ∧
    reserved.offset = (middle.segment reserved.seg).writeOffset ∧
    (middle = cache ∨ (middle.segment reserved.seg).createAt = cache.now) ∧
    after = middle.allocated reserved.seg size

/-- What the reserve loop answers. -/
def Answers (config : Config) (b size : Nat) (cache : Cache)
    (result : Except TtlBucketsError Reserved) (after : Cache) : Prop :=
  (∃ reserved, result = .ok reserved ∧ RoomFound config b size cache reserved after) ∨
    (result = .error .noFreeSegments ∧ Grown config cache after ∧ after.freeQueue = [] ∧
      ∃ chain, Sane config Hand.empty chain after)

theorem RoomFound.behind {size : Nat} {reserved : Reserved} (grown : Grown config cache middle)
    (created : ∀ id, HasRoom config b size middle id → (middle.segment id).createAt = cache.now)
    (found : RoomFound config b size middle reserved after) :
    RoomFound config b size cache reserved after := by
  obtain ⟨chain, last, sane, more, room, offset, landing, same⟩ := found.before
  refine ⟨chain, last, sane, grown.trans more, room, offset, .inr ?_, same⟩
  rcases landing with rfl | fresh
  · exact created _ room
  · rw [fresh, grown.clock.now]

section Loop

variable {size : Nat}

/-- **Whatever the reserve loop returns**, it has found room or run out of free segments. -/
theorem ensures_reserveLoop (isBucket : IsBucket b ∧ b < totalBuckets) (fuel : Nat)
    (sane : Sane config Hand.empty chain cache) :
    Ensures (reserveLoop config b size fuel) (Answers config b size cache) cache := by
  induction fuel generalizing cache chain with
  | zero => exact ensures_diverge.mpr trivial
  | succ fuel ih =>
    by_cases asleep : ∃ id, (cache.bucket b).tail = some id ∧ (cache.segment id).state = .draining
    · obtain ⟨id, tail, state⟩ := asleep
      intro result after ran
      rw [reserveLoop_asleep fuel tail state] at ran
      exact ih sane result after ran
    have tailLive : TailLive cache b := fun t tail =>
      (sane.live_of_tail tail).2 fun state => asleep ⟨t, tail, state⟩
    by_cases room : ∃ id, HasRoom config b size cache id
    · obtain ⟨id, room⟩ := room
      exact (returns_of_eq (reserveLoop_room fuel room) (.inl ⟨_, rfl, chain, cache, sane,
        Grown.refl sane, room, rfl, .inl rfl, rfl⟩)).ensures
    · intro result after ran
      rw [reserveLoop_full fuel tailLive (not_exists.mp room)] at ran
      obtain ⟨grown, middle, expands, rest⟩ := bind_eq_some.mp ran
      have outcome := (returns_tryExpand sane isBucket tailLive).ensures grown middle expands
      rcases outcome with ⟨rfl, empty, rfl⟩ | ⟨rfl, id, queue, _, _, tail, expanded⟩
      · cases rest
        exact .inr ⟨rfl, Grown.refl sane, empty, chain, sane⟩
      · have step : Grown config cache middle := ⟨expanded.calm, expanded.asleep, expanded.clock, expanded.freed⟩
        rcases ih expanded.sane result after rest with ⟨reserved, rfl, found⟩ | ⟨rfl, more, empty, sane'⟩
        · refine .inl ⟨reserved, rfl, found.behind step fun other room => ?_⟩
          cases room.tail.symm.trans tail
          exact expanded.createAt
        · exact .inr ⟨rfl, step.trans more, empty, sane'⟩

/-- **An item that fits a fresh segment finds room within two rounds**, unless there is no free
segment. -/
theorem returns_reserveLoop (merges : config.Merges) (isBucket : IsBucket b ∧ b < totalBuckets)
    (fits : config.initialOffset + size ≤ config.segmentSize) (fuel : Nat)
    (sane : Sane config Hand.empty chain cache) :
    Returns (reserveLoop config b size (fuel + 2)) (fun result after =>
      (∃ reserved, result = .ok reserved ∧ RoomFound config b size cache reserved after) ∨
        (result = .error .noFreeSegments ∧ cache.freeQueue = [] ∧ after = cache)) cache := by
  have tailLive := sane.tailLive merges b
  by_cases room : ∃ id, HasRoom config b size cache id
  · obtain ⟨id, room⟩ := room
    exact returns_of_eq (reserveLoop_room (fuel + 1) room) (.inl ⟨_, rfl, chain, cache, sane,
      Grown.refl sane, room, rfl, .inl rfl, rfl⟩)
  · obtain ⟨grown, middle, expands, outcome⟩ := returns_tryExpand sane isBucket tailLive
    have rounds := reserveLoop_full (fuel + 1) tailLive (not_exists.mp room)
    rw [bind_apply_of_some expands] at rounds
    rcases outcome with ⟨rfl, empty, rfl⟩ | ⟨rfl, id, queue, _, _, tail, expanded⟩
    · exact returns_of_eq rounds (.inr ⟨rfl, empty, rfl⟩)
    · have room' : HasRoom config b size middle id := by
        refine ⟨tail, expanded.state, ?_⟩
        rw [expanded.blank.writeOffset]
        exact fits
      refine returns_of_eq (rounds.trans (reserveLoop_room fuel room'))
        (.inl ⟨_, rfl, _, middle, expanded.sane, ?_, room', rfl, .inr expanded.createAt, rfl⟩)
      exact ⟨expanded.calm, expanded.asleep, expanded.clock, expanded.freed⟩

end Loop

end CacheRs.Segcache
