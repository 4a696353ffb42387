/-
**S3-FIFO evictions.**

An eviction copies the items that were touched to a free segment, if there is one, and drops the rest.

* `Carried`: some items of a segment have moved to another, and every other mapping stayed;
* `returns_promoteToTarget`: the promotion; `returns_finishEviction`: the drop;
* `returns_s3fifoEvictAdmission`, `returns_s3fifoEvictMain`: **what an eviction leaves of a segment**.
-/

import CacheRs.Segcache.Destinations

set_option linter.unusedSectionVars false

namespace CacheRs.Segcache

open DoublyLinked
open Hashtable (RelinkFreq)
open Segments (SegId State totalBuckets bucketTtl IsBucket getBucketIndex holdsTtl)
open Sequential Procedure

variable {config : Config} {hand : Hand} {chain : Nat → List SegId} {cache middle after last : Cache}
  {id source dest : SegId} {b : Nat} {relink : RelinkFreq} {moved : List (Nat × Item)}

/-- Some items of the source have moved to the destination, and every other mapping stayed. -/
structure Carried (config : Config) (source dest : SegId) (relink : RelinkFreq)
    (moved : List (Nat × Item)) (cache after : Cache) : Prop where
  stays : ∀ key mapping, Maps config cache key mapping →
    ¬ (mapping.location.segment = source ∧ mapping.location.offset ∈ moved.map Prod.fst) →
    Maps config after key mapping
  moves : ∀ key mapping, Maps config cache key mapping → mapping.location.segment = source →
    mapping.location.offset ∈ moved.map Prod.fst →
    ∃ location, location.segment = dest ∧
      Maps config after key ⟨mapping.item, relinkFreq relink mapping.freq, location⟩
  only : ∀ key mapping, Maps config after key mapping → ∃ old, Maps config cache key old
  shed : Shed config cache after

theorem Relocated.carried (relocated : Relocated config source dest relink moved cache after) :
    Carried config source dest relink moved cache after :=
  ⟨relocated.stays, relocated.moves, relocated.only, relocated.shed⟩

theorem Calm.carried {pending pending' : Option Location} (before : Calm config pending cache middle)
    (carried : Carried config source dest relink moved middle after)
    (behind : Calm config pending' after last) : Carried config source dest relink moved cache last where
  stays key mapping maps outside :=
    (behind.maps _ _).mpr (carried.stays key mapping ((before.maps _ _).mpr maps) outside)
  moves key mapping maps here inside := by
    obtain ⟨location, there, now⟩ :=
      carried.moves key mapping ((before.maps _ _).mpr maps) here inside
    exact ⟨location, there, (behind.maps _ _).mpr now⟩
  only key mapping maps := by
    obtain ⟨old, was⟩ := carried.only key mapping ((behind.maps _ _).mp maps)
    exact ⟨old, (before.maps _ _).mp was⟩
  shed := (before.shed.trans carried.shed).trans behind.shed

/-- Filling a destination leaves chains and queues alone. -/
theorem Relocated.shape (relocated : Relocated config source dest relink moved cache after) :
    after.shape = cache.shape := by
  have rest := relocated.rest
  unfold SameRest at rest
  refine Shape.ext (funext fun i => ?_) ?_ ?_ ?_ ?_ ?_
  · show (after.segment i).node = (cache.segment i).node
    by_cases isSource : i = source
    · obtain ⟨items, bytes, same⟩ := relocated.sourceSegment
      rw [isSource, same]
      rfl
    · by_cases isDest : i = dest
      · rw [isDest]
        exact relocated.targetHeader
      · rw [relocated.others i isSource isDest]
  all_goals rw [rest]; rfl

theorem Relocated.clock (relocated : Relocated config source dest relink moved cache after) :
    SameClock cache after := by
  have rest := relocated.rest
  unfold SameRest at rest
  refine ⟨?_, ?_, ?_⟩
  all_goals rw [rest]

/-- A step that leaves the slots and a segment's items alone leaves the frequencies alone. -/
theorem frequencyAt_congr (slots : after.table.slot = cache.table.slot)
    (tag : (after.segment id).tag = (cache.segment id).tag) (placed : Nat × Item) :
    frequencyAt config after id placed = frequencyAt config cache id placed := by
  unfold frequencyAt Cache.locationAt Table.getItemFrequency Table.publishing
  rw [tag, slots]

theorem OnlyLinks.laidOut (same : OnlyLinks (cache.segment id) (after.segment id)) :
    after.laidOut config id = cache.laidOut config id := by
  obtain ⟨next, prev, here⟩ := same
  unfold Cache.laidOut
  rw [here]

theorem OnlyLinks.tag (same : OnlyLinks (cache.segment id) (after.segment id)) :
    (after.segment id).tag = (cache.segment id).tag := by
  obtain ⟨next, prev, here⟩ := same
  rw [here]
  rfl

theorem OnlyLinks.laid {before after : Segment} (same : OnlyLinks before after)
    (laid : before.Laid config) : after.Laid config := by
  obtain ⟨next, prev, here⟩ := same
  rw [here]
  exact ⟨laid.writeOffset, laid.fits⟩

/-- A destination that is ready can take the source's items. -/
theorem Ready.fillable {c : Option SegId} (ready : Ready config c chain dest cache after)
    (state : holds (cache.segment source).state = true) : Fillable config after source dest where
  apart := by
    rintro rfl
    rw [ready.was] at state
    cases state
  state := by
    rw [ready.state]
    rfl
  range := ready.range

/-! ### The promotion -/

/-- What an S3-FIFO eviction promotes, if it has a target. -/
def promoted (config : Config) (cache : Cache) (id : SegId) : List (Nat × Item) :=
  movedItems config (promoteWanted config cache id) config.initialOffset (cache.laidOut config id)

/-- The target is filled and sealed. -/
structure Promoted (config : Config) (relink : RelinkFreq) (chain : Nat → List SegId)
    (id target : SegId) (cache after : Cache) : Prop where
  sane : Sane config ⟨none, none, some id⟩ chain after
  carried : Carried config id target relink (promoted config cache id) cache after
  apart : id ≠ target
  clock : SameClock cache after
  freed : after.freed = cache.freed
  laid : (after.segment id).Laid config
  laidOut : after.laidOut config id = cache.laidOut config id
  tag : (after.segment id).tag = (cache.segment id).tag
  refCount : (after.segment id).refCount = (cache.segment id).refCount

theorem returns_promoteToTarget {front back : List SegId}
    (sane : Sane config ⟨none, none, some id⟩ chain cache) (inside : chain b = front ++ id :: back)
    (laid : (cache.segment id).Laid config) :
    Returns (promoteToTarget config id b relink) (fun result after =>
      (result = none ∧ cache.freeQueue = [] ∧ after = cache) ∨
        ∃ target rest, result = some target ∧ cache.freeQueue = target :: rest ∧
          Promoted config relink (Function.update chain b (front ++ target :: id :: back)) id target
            cache after) cache := by
  have held : holds (cache.segment id).state = true := by
    have : (cache.segment id).state = .draining := sane.orderly.claimed id rfl
    rw [this]
    rfl
  have ttl : (cache.segment id).ttl = bucketTtl b := by
    have here : id ∈ chain b := by
      rw [inside]
      simp
    exact sane.orderly.ttl b id here
  unfold promoteToTarget inheritCreated
  rw [segmentOf, returns_bind, returns_read]
  refine (returns_reserveFree sane).seq fun result one outcome => ?_
  rcases outcome with ⟨rfl, empty, rfl⟩ | ⟨target, rest, rfl, queue, -, taken⟩
  · exact (returns_pure _).mpr (.inl ⟨rfl, empty, rfl⟩)
  have apart : id ≠ target := by
    rintro rfl
    rw [taken.was] at held
    cases held
  -- The target is labelled, and linked before the source.
  simp only [modifySegment, returns_bind, returns_change, returns_read, setSegment_self,
    setSegment_of_ne apart, setSegment_setSegment]
  rw [ttl]
  have linking := taken.ready inside .main (one.segment id).createAt (one.segment target).mergeAt
  refine linking.mono fun _ two known => ?_
  obtain ⟨ready, _⟩ := known
  have same := ready.others id apart
  have laid' : (two.segment id).Laid config := same.laid laid
  have laidOut : two.laidOut config id = cache.laidOut config id := same.laidOut
  -- The source is scanned into it.
  unfold s3fifoPromoteFrom
  rw [returns_bind, segmentOf, returns_read, Segment.walk_of_laid laid']
  refine (returns_promoteItems relink _ ready.sane.consistent (ready.fillable held)
    (fun one there => there) (Segment.layOut_nodup _ _)).mono fun _ three relocated => ?_
  have items : movedItems config (promoteWanted config two id) (two.segment target).writeOffset
      (two.laidOut config id) = promoted config cache id := by
    rw [laidOut, ready.blank.writeOffset, promoted]
    refine movedItems_congr fun placed _ => ?_
    unfold promoteWanted
    rw [frequencyAt_congr ready.calm.slots same.tag]
  rw [items] at relocated
  have sane' : Sane config ⟨none, some target, some id⟩
      (Function.update chain b (front ++ target :: id :: back)) three :=
    ⟨relocated.consistent, by rw [relocated.shape]; exact ready.sane.orderly⟩
  refine (returns_publish sane').mono fun _ four known => ?_
  obtain ⟨published, calm, there⟩ := known
  have source : SameButCounters (two.segment id) (four.segment id) := by
    rw [there, setSegment_of_ne apart]
    exact relocated.sourceSegment
  refine (returns_pure _).mpr (.inr ⟨target, rest, rfl, queue, published,
    ready.calm.carried relocated.carried calm, apart, ?_, ?_, ?_, ?_, ?_, ?_⟩)
  · rw [there]
    exact (ready.clock.trans relocated.clock).trans ⟨rfl, rfl, rfl⟩
  · have rest := relocated.rest
    unfold SameRest at rest
    rw [there]
    show three.freed = cache.freed
    rw [rest]
    exact ready.freed
  · obtain ⟨items, bytes, counted⟩ := source
    rw [counted]
    exact ⟨laid'.writeOffset, laid'.fits⟩
  · rw [← laidOut]
    obtain ⟨items, bytes, counted⟩ := source
    unfold Cache.laidOut
    rw [counted]
    rfl
  · rw [source.tag, same.tag]
  · obtain ⟨items, bytes, counted⟩ := source
    obtain ⟨next, prev, linked⟩ := same
    rw [counted, linked]
    rfl

/-! ### The evictions -/

/-- A claimed segment is dropped by an eviction. -/
structure Evicted (config : Config) (id : SegId) (cache after : Cache) : Prop where
  sane : ∃ chain, Sane config Hand.empty chain after
  maps : ∀ key mapping, Maps config after key mapping ↔
    Maps config cache key mapping ∧ mapping.location.segment ≠ id
  shed : Shed config cache after
  others : ∀ i, i ≠ id → OnlyLinks (cache.segment i) (after.segment i)
  clock : SameClock cache after
  flows : Flows cache after
  freed : config.spareCapacity = 0 → (cache.segment id).refCount = 0 →
    after.freed = cache.freed + 1
  gone : holds (after.segment id).state = false

theorem headPatched_clock (prev next : Option SegId) :
    SameClock cache (cache.headPatched b prev next) := by
  unfold Cache.headPatched
  split <;> exact ⟨rfl, rfl, rfl⟩

theorem headPatched_flows (prev next : Option SegId) :
    Flows cache (cache.headPatched b prev next) := by
  unfold Cache.headPatched
  split <;> exact ⟨le_rfl, rfl⟩

theorem headPatched_shed (prev next : Option SegId) :
    Shed config cache (cache.headPatched b prev next) := by
  unfold Cache.headPatched
  split <;> exact fun _ _ entry _ slot item => ⟨entry, slot, item⟩

theorem headPatched_freed (prev next : Option SegId) :
    (cache.headPatched b prev next).freed = cache.freed := by
  unfold Cache.headPatched
  split <;> rfl

/-- An eviction that frees its segment leaves a free one. -/
theorem Evicted.stocked (evicted : Evicted config id cache after) (none : config.spareCapacity = 0)
    (unpinned : (cache.segment id).refCount = 0) : after.freeQueue ≠ [] := by
  have freed := evicted.freed none unpinned
  have length := evicted.flows.length
  intro empty
  rw [empty, List.length_nil] at length
  omega

/-- The end of every eviction of a segment. -/
theorem Retired.evicted {front back : List SegId} (retired : Retired config id cache after)
    (orderly : Orderly config ⟨none, none, some id⟩ chain cache.shape)
    (inside : chain b = front ++ id :: back) (notLast : back ≠ []) :
    Evicted config id cache
      (after.headPatched b (cache.segment id).prev (cache.segment id).next) where
  sane := ⟨_, retired.sane orderly inside notLast⟩
  maps key mapping := by
    rw [(headPatched_frame _ _).maps_iff]
    exact retired.maps key mapping
  shed := retired.toDropped.shed.trans (headPatched_shed _ _)
  others i different := by
    rw [headPatched_segment, retired.others i different]
    exact onlyLinks_patched i
  clock := SameClock.trans ⟨retired.eviction, retired.now, retired.lastExpired⟩
    (headPatched_clock _ _)
  flows := retired.flows.trans (headPatched_flows _ _)
  freed none unpinned := by
    rw [headPatched_freed, retired.freed, if_pos ⟨unpinned, by omega⟩]
  gone := by
    have state : (after.segment id).state = ((cache.shape.left config id).node id).state :=
      congrArg (fun shape => (shape.node id).state) retired.shape
    rw [headPatched_segment, state]
    rcases @Shape.left_state config cache.shape id with same | ⟨same, -⟩ <;> rw [same] <;> rfl

theorem headPatched_apply (prev next : Option SegId) :
    (if prev = none then setHead b next else pure () : Proc Unit) cache =
      some ((), cache.headPatched b prev next) := by
  unfold Cache.headPatched setHead modifyBucket
  by_cases first : prev = none
  · rw [if_pos first, if_pos first]
    rfl
  · rw [if_neg first, if_neg first]
    rfl

theorem returns_finishEviction {front back : List SegId}
    (sane : Sane config ⟨none, none, some id⟩ chain cache) (inside : chain b = front ++ id :: back)
    (notLast : back ≠ []) (laid : (cache.segment id).Laid config) :
    Returns (finishEviction config id b) (fun result after => Evicted config id cache after ∧
      ((cache.segment id).refCount = 0 → result = .ok ())) cache := by
  have state : (cache.segment id).state = .draining := sane.orderly.claimed id rfl
  have own := sane.orderly.not_own inside
  unfold finishEviction
  rw [segmentOf, returns_bind, returns_read]
  refine (returns_finalizeDrained sane.consistent laid state own.2 own.1).seq
    fun outcome middle known => ?_
  obtain ⟨freed, retired⟩ := known
  have evicted := retired.evicted sane.orderly inside notLast
  unfold Cache.headPatched at evicted
  have result : ∀ unpinned : (cache.segment id).refCount = 0, outcome = .freed := freed.mpr
  cases outcome with
  | freed =>
    by_cases first : (cache.segment id).prev = none
    · rw [if_pos first] at evicted ⊢
      exact ⟨_, _, rfl, evicted, fun _ => rfl⟩
    · rw [if_neg first] at evicted ⊢
      exact ⟨_, _, rfl, evicted, fun _ => rfl⟩
  | deferred =>
    by_cases first : (cache.segment id).prev = none
    · rw [if_pos first] at evicted ⊢
      exact ⟨_, _, rfl, evicted, fun unpinned => by cases result unpinned⟩
    · rw [if_neg first] at evicted ⊢
      exact ⟨_, _, rfl, evicted, fun unpinned => by cases result unpinned⟩

/-- A sealed segment is locked and claimed by an eviction. -/
theorem lockSealedInBucket_apply (sane : Sane config hand chain cache)
    (state : (cache.segment id).state = .sealed) : ∃ b front back, chain b = front ++ id :: back ∧
      getBucketIndex (cache.segment id).ttl = b ∧
      lockSealedInBucket id cache = some (some b, cache) := by
  obtain ⟨b, front, back, inside⟩ := sane.orderly.split (i := id) (by
    show holds (cache.segment id).state = true
    rw [state]
    rfl)
  have here : id ∈ chain b := by
    rw [inside]
    simp
  have ttl : (cache.segment id).ttl = bucketTtl b := sane.orderly.ttl b id here
  have bucket : getBucketIndex (cache.segment id).ttl = b := by
    rw [ttl]
    exact (sane.orderly.bucket b (List.ne_nil_of_mem here)).1
  refine ⟨b, front, back, inside, bucket, ?_⟩
  unfold lockSealedInBucket isSealedMember segmentOf
  rw [read_bind, read_bind, bucket]
  simp [state, holdsTtl, ttl]

/-- What an S3-FIFO eviction leaves of a segment: some items have moved, and the rest is gone. -/
structure Sifted (config : Config) (relink : RelinkFreq) (moved : List (Nat × Item))
    (source dest : SegId) (cache after : Cache) : Prop where
  stays : ∀ key mapping, Maps config cache key mapping → mapping.location.segment ≠ source →
    Maps config after key mapping
  kept : ∀ key mapping, Maps config cache key mapping → mapping.location.segment = source →
    mapping.location.offset ∈ moved.map Prod.fst → ∃ location, location.segment = dest ∧
      Maps config after key ⟨mapping.item, relinkFreq relink mapping.freq, location⟩
  dropped : ∀ key mapping, Maps config cache key mapping → mapping.location.segment = source →
    mapping.location.offset ∉ moved.map Prod.fst → ∀ other, ¬ Maps config after key other
  only : ∀ key mapping, Maps config after key mapping → ∃ old, Maps config cache key old
  shed : Shed config cache after

theorem Carried.nothing (source dest : SegId) (relink : RelinkFreq) (cache : Cache) :
    Carried config source dest relink [] cache cache :=
  ⟨fun _ _ maps _ => maps, fun _ _ _ _ inside => absurd inside List.not_mem_nil, fun _ mapping maps => ⟨mapping, maps⟩,
    Shed.refl cache⟩

theorem Carried.sifted (carried : Carried config source dest relink moved cache middle)
    (consistent : Consistent config none middle) (apart : source ≠ dest)
    (shed : Shed config middle after) (maps : ∀ key mapping, Maps config after key mapping ↔
      Maps config middle key mapping ∧ mapping.location.segment ≠ source) :
    Sifted config relink moved source dest cache after where
  stays key mapping was elsewhere :=
    (maps _ _).mpr ⟨carried.stays key mapping was fun inside => elsewhere inside.1, elsewhere⟩
  kept key mapping was here inside := by
    obtain ⟨location, there, now⟩ := carried.moves key mapping was here inside
    exact ⟨location, there, (maps _ _).mpr ⟨now, fun same => apart (same.symm.trans there)⟩⟩
  dropped key mapping was here outside other now := by
    obtain ⟨between, elsewhere⟩ := (maps _ _).mp now
    have stayed := carried.stays key mapping was fun inside => outside inside.2
    cases consistent.maps_unique between stayed
    exact elsewhere here
  only key mapping now := carried.only key mapping ((maps _ _).mp now).1
  shed := carried.shed.trans shed

/-- The items of a segment that are named and have not moved. -/
def leftBehind (config : Config) (cache : Cache) (id : SegId) (moved : List (Nat × Item)) :
    List (Nat × Item) :=
  (cache.laidOut config id).filter fun placed =>
    copyWanted config cache id placed && placed.1 ∉ moved.map Prod.fst

/-- After a promotion an item of the source is named if it was, and has not moved. -/
theorem Carried.frequencyAt (carried : Carried config source dest relink moved cache after)
    (before : Consistent config none cache) (consistent : Consistent config none after)
    (apart : source ≠ dest) (laidOut : after.laidOut config source = cache.laidOut config source)
    (tag : (after.segment source).tag = (cache.segment source).tag) {placed : Nat × Item}
    (inside : placed ∈ cache.laidOut config source) :
    (frequencyAt config after source placed).isSome =
      ((frequencyAt config cache source placed).isSome && placed.1 ∉ moved.map Prod.fst) := by
  obtain ⟨offset, item⟩ := placed
  have location : after.locationAt source offset = cache.locationAt source offset := by
    unfold Cache.locationAt
    rw [tag]
  have was : cache.itemAt config (cache.locationAt source offset) = some item :=
    Cache.itemAt_locationAt.mpr inside
  have now : after.itemAt config (cache.locationAt source offset) = some item := by
    rw [← location]
    exact Cache.itemAt_locationAt.mpr (laidOut ▸ inside)
  unfold Segcache.frequencyAt
  rw [location, Bool.eq_iff_iff, Bool.and_eq_true, decide_eq_true_eq]
  simp only [Option.isSome_iff_exists, consistent.getItemFrequency_eq now,
    before.getItemFrequency_eq was]
  constructor
  · rintro ⟨freq, maps⟩
    obtain ⟨old, mapped⟩ := carried.only _ _ maps
    by_cases gone : old.location.segment = source ∧ old.location.offset ∈ moved.map Prod.fst
    · obtain ⟨elsewhere, there, moves⟩ := carried.moves _ _ mapped gone.1 gone.2
      have same := congrArg (fun mapping => mapping.location.segment)
        (consistent.maps_unique maps moves)
      exact absurd (same.trans there) apart
    · cases consistent.maps_unique maps (carried.stays _ _ mapped gone)
      exact ⟨⟨freq, mapped⟩, fun inside => gone ⟨rfl, inside⟩⟩
  · rintro ⟨⟨freq, maps⟩, outside⟩
    exact ⟨freq, carried.stays _ _ maps fun gone => outside gone.2⟩

theorem remainingHashes_carried (carried : Carried config source dest relink moved cache after)
    (before : Consistent config none cache) (consistent : Consistent config none after)
    (apart : source ≠ dest) (laid : (after.segment source).Laid config)
    (laidOut : after.laidOut config source = cache.laidOut config source)
    (tag : (after.segment source).tag = (cache.segment source).tag) :
    remainingHashes config after source =
      (leftBehind config cache source moved).map fun placed =>
        config.geometry.hashKey placed.2.key := by
  unfold remainingHashes leftBehind
  have walk : (after.segment source).walk config = cache.laidOut config source := by
    rw [Segment.walk_of_laid laid]
    exact laidOut
  rw [walk]
  refine congrArg _ (List.filter_congr fun placed inside => ?_)
  have here := carried.frequencyAt before consistent apart laidOut tag inside
  unfold frequencyAt at here
  rw [here]
  unfold copyWanted frequencyAt
  cases placed.2.deleted <;>
    cases cache.table.getItemFrequency config.geometry placed.2.key (cache.locationAt source placed.1) <;>
      rfl

theorem ghostInsertAll_apply (hashes : List UInt64) (cache : Cache) :
    ghostInsertAll hashes cache = some ((), { cache with
      eviction := { cache.eviction with
        ghost := hashes.foldl Eviction.GhostQueue.insert cache.eviction.ghost } }) := by
  induction hashes generalizing cache with
  | nil => rfl
  | cons hash rest ih =>
    unfold ghostInsertAll ghostInsert
    rw [change_bind, ih]
    rfl

/-- What an S3-FIFO eviction with this relink does; `target` is the free segment it gets. -/
structure S3Evicted (config : Config) (relink : RelinkFreq) (id : SegId) (target : Option SegId)
    (ghosted : List (Nat × Item)) (cache after : Cache) : Prop where
  sane : ∃ chain, Sane config Hand.empty chain after
  now : after.now = cache.now
  sifted : ∃ dest, (target = none ∨ target = some dest) ∧
    Sifted config relink (if target = none then [] else promoted config cache id) id dest cache after
  others : ∀ i, i ≠ id → holds (cache.segment i).state = true → holds (after.segment i).state = true
  flows : target = none → Flows cache after
  freed : config.spareCapacity = 0 → (cache.segment id).refCount = 0 → after.freed = cache.freed + 1
  stocked : config.spareCapacity = 0 → (cache.segment id).refCount = 0 → after.freeQueue ≠ []
  gone : holds (after.segment id).state = false
  eviction : after.eviction = { cache.eviction with
    ghost := (ghosted.map fun placed => config.geometry.hashKey placed.2.key).foldl
      Eviction.GhostQueue.insert cache.eviction.ghost }

/-- A promotion takes no segment out of service. -/
theorem Promoted.held {front back : List SegId} {hand : Hand} {target : SegId}
    (sane : Sane config hand chain cache) (inside : chain b = front ++ id :: back)
    (promotes : Promoted config relink (Function.update chain b (front ++ target :: id :: back)) id
      target cache after) {i : SegId} (held : holds (cache.segment i).state = true) :
    holds (after.segment i).state = true := by
  obtain ⟨c, here⟩ := (sane.orderly.member i).mp held
  refine (promotes.sane.orderly.member i).mpr ⟨c, ?_⟩
  by_cases same : c = b
  · subst same
    rw [inside, List.mem_append, List.mem_cons] at here
    rw [Function.update_self, List.mem_append, List.mem_cons, List.mem_cons]
    exact here.imp_right .inr
  · rw [Function.update_of_ne same]
    exact here

theorem Evicted.held (evicted : Evicted config id cache after) {i : SegId} (different : i ≠ id)
    (held : holds (cache.segment i).state = true) : holds (after.segment i).state = true := by
  rw [(evicted.others i different).state]
  exact held

theorem claimed_held {i : SegId} (different : i ≠ id) (held : holds (cache.segment i).state = true) :
    holds ((cache.claimed id).segment i).state = true := by
  rw [claimed_of_ne different]
  exact held

theorem frequencyAt_claimed (placed : Nat × Item) :
    frequencyAt config (cache.claimed id) id placed = frequencyAt config cache id placed := by
  refine frequencyAt_congr ?_ ?_ placed
  · rfl
  · rw [claimed_self]
    rfl

/-- What is promoted does not depend on the claim. -/
theorem promoted_claimed : promoted config (cache.claimed id) id = promoted config cache id := by
  unfold promoted
  have laidOut : (cache.claimed id).laidOut config id = cache.laidOut config id := by
    unfold Cache.laidOut
    rw [claimed_self]
  rw [laidOut]
  refine movedItems_congr fun placed _ => ?_
  unfold promoteWanted
  rw [frequencyAt_claimed]

theorem leftBehind_claimed :
    leftBehind config (cache.claimed id) id moved = leftBehind config cache id moved := by
  unfold leftBehind
  have laidOut : (cache.claimed id).laidOut config id = cache.laidOut config id := by
    unfold Cache.laidOut
    rw [claimed_self]
  rw [laidOut]
  refine List.filter_congr fun placed _ => ?_
  unfold copyWanted
  rw [frequencyAt_claimed]

theorem Calm.sifted {pending : Option Location} {dest : SegId}
    (calm : Calm config pending cache middle)
    (sifted : Sifted config relink moved source dest middle after) :
    Sifted config relink moved source dest cache after where
  stays key mapping maps := sifted.stays key mapping ((calm.maps _ _).mpr maps)
  kept key mapping maps := sifted.kept key mapping ((calm.maps _ _).mpr maps)
  dropped key mapping maps := sifted.dropped key mapping ((calm.maps _ _).mpr maps)
  only key mapping maps := by
    obtain ⟨old, was⟩ := sifted.only key mapping maps
    exact ⟨old, (calm.maps _ _).mp was⟩
  shed := calm.shed.trans sifted.shed

/-- A step on the eviction state alone. -/
theorem Sane.withEviction (sane : Sane config hand chain cache) (eviction : Eviction) :
    Sane config hand chain { cache with eviction := eviction } ∧
      Calm config none cache { cache with eviction := eviction } := by
  have frame : Frame config none cache { cache with eviction := eviction } := frame_of_same rfl rfl
  exact ⟨⟨frame.consistent sane.consistent, sane.orderly⟩, frame.calm sane.consistent⟩

/-- The hashes of what is left of a segment are put on the ghost queue. -/
def Cache.ghosted (config : Config) (cache : Cache) (id : SegId) : Cache :=
  { cache with
    eviction := { cache.eviction with
      ghost := (remainingHashes config cache id).foldl Eviction.GhostQueue.insert
        cache.eviction.ghost } }

theorem s3fifoGhostRemaining_apply :
    s3fifoGhostRemaining config id cache = some ((), cache.ghosted config id) := by
  unfold s3fifoGhostRemaining
  rw [read_bind, ghostInsertAll_apply]
  rfl

section Eviction

variable (sane : Sane config Hand.empty chain cache) (state : (cache.segment id).state = .sealed)

include sane state

/-- Where an S3-FIFO eviction begins: the segment is claimed, and its chain goes on behind it. -/
theorem claimed_for_eviction : ∃ b front back, chain b = front ++ id :: back ∧ back ≠ [] ∧
    lockSealedInBucket id cache = some (some b, cache) ∧
    claimForDrain id cache = some (true, cache.claimed id) ∧
    Sane config ⟨none, none, some id⟩ chain (cache.claimed id) ∧
    ((cache.claimed id).segment id).Laid config := by
  obtain ⟨b, front, back, inside, -, locked⟩ := lockSealedInBucket_apply sane state
  exact ⟨b, front, back, inside, sane.orderly.not_last inside (.inl state), locked, claim_apply state,
    sane.claim (.inl state), sane.laid (.inl state)⟩

/-- **The eviction of a main segment.** -/
theorem returns_s3fifoEvictMain : Returns (s3fifoEvictMain config id) (fun result after =>
    S3Evicted config .decrement id cache.freeQueue.head? [] cache after ∧
      ((cache.segment id).refCount = 0 → result = .ok ())) cache := by
  obtain ⟨b, front, back, inside, notLast, locked, claims, claimed, laid⟩ :=
    claimed_for_eviction sane state
  have calm := calm_claimed sane.consistent (.inl state)
  have refCount : ((cache.claimed id).segment id).refCount = (cache.segment id).refCount := by
    rw [claimed_self]
  unfold s3fifoEvictMain
  rw [returns_bind]
  refine returns_of_eq locked ?_
  rw [returns_bind]
  refine returns_of_eq claims ?_
  rw [if_neg (by simp)]
  refine (returns_promoteToTarget claimed inside laid).seq fun target middle outcome => ?_
  rcases outcome with ⟨rfl, empty, rfl⟩ | ⟨target, rest, rfl, queue, promotes⟩
  · refine (returns_finishEviction claimed inside notLast laid).mono
      fun result after ⟨evicted, done⟩ => ⟨?_, fun unpinned => done (refCount.trans unpinned)⟩
    have empty' : cache.freeQueue = [] := empty
    rw [empty', List.head?_nil]
    refine ⟨evicted.sane, evicted.clock.now, ⟨id + 1, .inl rfl, ?_⟩,
      fun i different held => evicted.held different (claimed_held different held),
      fun _ => ⟨evicted.flows.le, evicted.flows.length⟩,
      fun none unpinned => evicted.freed none (refCount.trans unpinned),
      fun none unpinned => evicted.stocked none (refCount.trans unpinned), evicted.gone,
      evicted.clock.eviction⟩
    rw [if_pos rfl]
    exact calm.sifted ((Carried.nothing id (id + 1) .decrement _).sifted claimed.consistent
      (Nat.ne_of_lt (Nat.lt_succ_self id)) evicted.shed evicted.maps)
  · have inside' : Function.update chain b (front ++ target :: id :: back) b =
        (front ++ [target]) ++ id :: back := by
      rw [Function.update_self]
      simp
    refine (returns_finishEviction promotes.sane inside' notLast promotes.laid).mono
      fun result after ⟨evicted, done⟩ =>
        ⟨?_, fun unpinned => done (promotes.refCount.trans (refCount.trans unpinned))⟩
    have queue' : cache.freeQueue = target :: rest := queue
    rw [queue', List.head?_cons]
    refine ⟨evicted.sane, evicted.clock.now.trans promotes.clock.now, ⟨target, .inr rfl, ?_⟩,
      fun i different held => evicted.held different
        (promotes.held claimed inside (claimed_held different held)),
      fun none => absurd none (by simp), fun none unpinned => ?_,
      fun none unpinned => evicted.stocked none (promotes.refCount.trans (refCount.trans unpinned)),
      evicted.gone, ?_⟩
    · rw [if_neg (by simp), ← promoted_claimed]
      exact calm.sifted (promotes.carried.sifted promotes.sane.consistent promotes.apart evicted.shed evicted.maps)
    · rw [evicted.freed none (promotes.refCount.trans (refCount.trans unpinned)), promotes.freed]
      rfl
    · rw [evicted.clock.eviction, promotes.clock.eviction]
      rfl

/-- **The eviction of an admission segment.** -/
theorem returns_s3fifoEvictAdmission :
    Returns (s3fifoEvictAdmission config id) (fun result after =>
      S3Evicted config .preserve id cache.freeQueue.head?
        (leftBehind config cache id
          (if cache.freeQueue.head? = none then [] else promoted config cache id)) cache after ∧
      ((cache.segment id).refCount = 0 → result = .ok ())) cache := by
  obtain ⟨b, front, back, inside, notLast, locked, claims, claimed, laid⟩ :=
    claimed_for_eviction sane state
  have calm := calm_claimed sane.consistent (.inl state)
  have refCount : ((cache.claimed id).segment id).refCount = (cache.segment id).refCount := by
    rw [claimed_self]
  have fresh : id ≠ id + 1 := Nat.ne_of_lt (Nat.lt_succ_self id)
  unfold s3fifoEvictAdmission
  rw [returns_bind]
  refine returns_of_eq locked ?_
  rw [returns_bind]
  refine returns_of_eq claims ?_
  rw [if_neg (by simp)]
  refine (returns_promoteToTarget claimed inside laid).seq fun target middle outcome => ?_
  rw [returns_bind]
  refine returns_of_eq s3fifoGhostRemaining_apply ?_
  rcases outcome with ⟨rfl, empty, rfl⟩ | ⟨target, rest, rfl, queue, promotes⟩
  · have ghosted := claimed.withEviction ((cache.claimed id).ghosted config id).eviction
    refine (returns_finishEviction ghosted.1 inside notLast laid).mono
      fun result after ⟨evicted, done⟩ => ⟨?_, fun unpinned => done (refCount.trans unpinned)⟩
    have empty' : cache.freeQueue = [] := empty
    rw [empty', List.head?_nil, if_pos rfl]
    have carried : Carried config id (id + 1) .preserve [] (cache.claimed id) (cache.claimed id) :=
      Carried.nothing ..
    refine ⟨evicted.sane, evicted.clock.now, ⟨id + 1, .inl rfl, ?_⟩,
      fun i different held => evicted.held different (claimed_held different held),
      fun _ => ⟨evicted.flows.le, evicted.flows.length⟩,
      fun none unpinned => evicted.freed none (refCount.trans unpinned),
      fun none unpinned => evicted.stocked none (refCount.trans unpinned), evicted.gone, ?_⟩
    · rw [if_pos rfl]
      exact calm.sifted (ghosted.2.sifted ((Carried.nothing id (id + 1) .preserve _).sifted
        ghosted.1.consistent fresh evicted.shed evicted.maps))
    · rw [evicted.clock.eviction, ← leftBehind_claimed,
        ← remainingHashes_carried carried claimed.consistent claimed.consistent fresh laid rfl rfl]
      rfl
  · have inside' : Function.update chain b (front ++ target :: id :: back) b =
        (front ++ [target]) ++ id :: back := by
      rw [Function.update_self]
      simp
    have ghosted := promotes.sane.withEviction (middle.ghosted config id).eviction
    refine (returns_finishEviction ghosted.1 inside' notLast promotes.laid).mono
      fun result after ⟨evicted, done⟩ =>
        ⟨?_, fun unpinned => done (promotes.refCount.trans (refCount.trans unpinned))⟩
    have queue' : cache.freeQueue = target :: rest := queue
    rw [queue', List.head?_cons, if_neg (by simp)]
    refine ⟨evicted.sane, evicted.clock.now.trans promotes.clock.now, ⟨target, .inr rfl, ?_⟩,
      fun i different held => evicted.held different
        (promotes.held claimed inside (claimed_held different held)),
      fun none => absurd none (by simp), fun none unpinned => ?_,
      fun none unpinned => evicted.stocked none (promotes.refCount.trans (refCount.trans unpinned)),
      evicted.gone, ?_⟩
    · rw [if_neg (by simp), ← promoted_claimed]
      refine calm.sifted ?_
      have carried := (Calm.refl claimed.consistent).carried promotes.carried ghosted.2
      exact carried.sifted ghosted.1.consistent promotes.apart evicted.shed evicted.maps
    · rw [evicted.freed none (promotes.refCount.trans (refCount.trans unpinned))]
      show middle.freed + 1 = _
      rw [promotes.freed]
      rfl
    · have eviction : middle.eviction = cache.eviction := promotes.clock.eviction
      rw [evicted.clock.eviction, ← promoted_claimed, ← leftBehind_claimed,
        ← remainingHashes_carried promotes.carried claimed.consistent promotes.sane.consistent
          promotes.apart promotes.laid promotes.laidOut promotes.tag, ← eviction]
      rfl

end Eviction

end CacheRs.Segcache
