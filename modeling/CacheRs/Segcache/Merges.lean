/-
**Merges.**

A merge links a spare segment before a run of sealed ones, and empties these into it one after the
other; a merge eviction prunes each of them first.

* `Consumed`, `returns_consume`: **one candidate is copied into the destination and dropped**;
* `returns_mergeEvict`, `returns_mergeCompact`: what the merges leave.
-/

import CacheRs.Segcache.Promotions

set_option linter.unusedSectionVars false

namespace CacheRs.Segcache

open DoublyLinked
open Hashtable (RelinkFreq)
open Segments (SegId State totalBuckets bucketTtl IsBucket getBucketIndex holdsTtl)
open Sequential Procedure

variable {config : Config} {hand : Hand} {chain : Nat → List SegId} {cache middle after last : Cache}
  {id source dest spare start candidate : SegId} {b : Nat}

/-! ### One candidate -/

/-- What is copied of a candidate. -/
def copied (config : Config) (cache : Cache) (candidate dest : SegId) : List (Nat × Item) :=
  movedItems config (copyWanted config cache candidate) (cache.segment dest).writeOffset
    (cache.laidOut config candidate)

/-- A candidate was copied into the destination and dropped. -/
structure Consumed (config : Config) (candidate dest : SegId) (cache after : Cache) : Prop where
  consistent : Consistent config none after
  sifted : Sifted config .preserve (copied config cache candidate dest) candidate dest cache after
  others : ∀ i, i ≠ candidate → i ≠ dest → OnlyLinks (cache.segment i) (after.segment i)
  filled : (after.segment dest).writeOffset = (cache.segment dest).writeOffset +
      totalSize config ((copied config cache candidate dest).map Prod.snd) ∧
    (after.segment dest).liveBytes = (cache.segment dest).liveBytes +
      totalSize config ((copied config cache candidate dest).map Prod.snd)
  clock : SameClock cache after
  flows : Flows cache after

/-- **A claimed candidate behind the destination is copied into it and dropped.** -/
theorem returns_consume {front back : List SegId}
    (sane : Sane config ⟨none, some spare, some candidate⟩ chain cache)
    (inside : chain b = front ++ spare :: candidate :: back) (notLast : back ≠ [])
    (laid : (cache.segment candidate).Laid config) :
    Returns (copyInto config candidate spare) (fun _ middle =>
      Returns (finalizeDrained config candidate) (fun _ after =>
        Sane config ⟨none, some spare, none⟩ (Function.update chain b (front ++ spare :: back)) after ∧
          Consumed config candidate spare cache after) middle) cache := by
  have draining : (cache.segment candidate).state = .draining := sane.orderly.claimed candidate rfl
  have relinking : (cache.segment spare).state = .relinking := (sane.orderly.dest spare).mpr rfl
  have apart : candidate ≠ spare := by
    rintro rfl
    rw [draining] at relinking
    cases relinking
  have fillable : Fillable config cache candidate spare := by
    refine ⟨apart, ?_, sane.orderly.range spare ?_⟩
    · rw [relinking]
      rfl
    · show (cache.segment spare).state ≠ .free
      rw [relinking]
      simp
  have inside' : chain b = (front ++ [spare]) ++ candidate :: back := by
    rw [inside]
    simp
  unfold copyInto
  rw [segmentOf, returns_bind, returns_read, Segment.walk_of_laid laid]
  refine (returns_copyItems _ sane.consistent fillable (fun one there => there)
    (Segment.layOut_nodup _ _)).mono fun _ middle relocated => ?_
  have sane' : Sane config ⟨none, some spare, some candidate⟩ chain middle :=
    ⟨relocated.consistent, by rw [relocated.shape]; exact sane.orderly⟩
  have laid' : (middle.segment candidate).Laid config := by
    obtain ⟨items, bytes, same⟩ := relocated.sourceSegment
    rw [same]
    exact ⟨laid.writeOffset, laid.fits⟩
  have own := sane'.orderly.not_own inside'
  refine (returns_finalizeDrained relocated.consistent laid'
    (sane'.orderly.claimed candidate rfl) own.2 own.1).mono fun _ after known => ?_
  obtain ⟨_, retired⟩ := known
  have sane'' := retired.sane sane'.orderly inside' notLast
  have prev : (middle.segment candidate).prev ≠ none := by
    have links := (sane'.orderly.links inside').1
    change (middle.segment candidate).prev = _ at links
    rw [links]
    simp
  rw [Cache.headPatched, if_neg prev] at sane''
  have rest := relocated.rest
  unfold SameRest at rest
  refine ⟨by simpa using sane'', sane''.consistent, ?_, fun i notCandidate notSpare => ?_, ?_, ?_, ?_⟩
  · exact relocated.carried.sifted relocated.consistent apart retired.toDropped.shed retired.maps
  · rw [retired.others i notCandidate, ← relocated.others i notCandidate notSpare]
    exact onlyLinks_patched i
  · obtain ⟨items, -, writeOffset, liveBytes⟩ := relocated.targetSegment
    rw [retired.others spare apart.symm]
    exact ⟨writeOffset, liveBytes⟩
  · exact relocated.clock.trans ⟨retired.eviction, retired.now, retired.lastExpired⟩
  · refine Flows.trans ⟨?_, ?_⟩ retired.flows
    · rw [rest]
    · rw [rest]

/-! ### Pruning -/

/-- The scan of `prune` unlinks some items. -/
theorem returns_pruneItems (targetRatio meanSize : ℚ) (toDrop : Int) (placed : List (Nat × Item))
    (pruning : Pruning) (consistent : Consistent config none cache)
    (inside : ∀ offset item, (offset, item) ∈ placed → (offset, item) ∈ cache.laidOut config id) :
    Returns (pruneItems config id targetRatio meanSize toDrop placed pruning)
      (fun _ after => ∃ offsets, Cleared config id offsets cache after) cache := by
  induction placed generalizing cache pruning with
  | nil => exact (returns_pure _).mpr ⟨[], Cleared.nothing consistent⟩
  | cons first rest ih =>
    obtain ⟨offset, item⟩ := first
    have item_ : cache.itemAt config (cache.locationAt id offset) = some item :=
      Cache.itemAt_locationAt.mpr (inside offset item (List.mem_cons_self ..))
    have later : ∀ at_ held, (at_, held) ∈ rest → (at_, held) ∈ cache.laidOut config id :=
      fun at_ held there => inside at_ held (List.mem_cons_of_mem _ there)
    unfold pruneItems getItemFrequency
    rw [returns_bind, returns_read, returns_bind, returns_read]
    refine Returns.ite (fun _ => ih pruning consistent later) fun live => ?_
    refine Returns.ite (fun _ => ?_) fun _ => ih _ consistent later
    have named : cache.table.Named (cache.locationAt id offset) := by
      refine (consistent.getItemFrequency_isSome item_).mp ?_
      simp only [Bool.or_eq_true, not_or] at live
      exact Option.isSome_iff_ne_none.mpr (by simpa using live.2)
    obtain ⟨table, removed, returned⟩ := returns_unlinkItem consistent named item_
    simp only [onTable, returns_bind, returns_exchange, removed, if_true]
    refine returned.mono fun _ middle unlinked => ?_
    refine (ih _ unlinked.consistent fun at_ held there => ?_).mono fun _ after ⟨offsets, cleared⟩ =>
      ⟨offset :: offsets, cleared.step consistent unlinked⟩
    obtain ⟨items, bytes, segment⟩ := unlinked.segment
    unfold Cache.laidOut
    rw [segment, Cache.locationAt_segment, Function.update_self]
    exact later at_ held there

theorem returns_prune (cutoffFreq targetRatio : ℚ) (consistent : Consistent config none cache)
    (laid : (cache.segment id).Laid config) : Returns (prune config id cutoffFreq targetRatio)
      (fun _ after => ∃ offsets, Cleared config id offsets cache after) cache := by
  unfold prune
  rw [segmentOf, returns_bind, returns_read, Segment.walk_of_laid laid]
  exact returns_pruneItems _ _ _ _ _ consistent fun _ _ there => there

theorem Cleared.shape {offsets : List Nat} (cleared : Cleared config id offsets cache after) :
    after.shape = cache.shape := by
  have rest := cleared.rest
  unfold SameRest at rest
  refine Shape.ext (funext fun i => ?_) ?_ ?_ ?_ ?_ ?_
  · show (after.segment i).node = (cache.segment i).node
    by_cases same : i = id
    · obtain ⟨items, bytes, self⟩ := cleared.self
      rw [same, self]
      rfl
    · rw [cleared.others i same]
  all_goals rw [rest]; rfl

theorem SameRest.clock (same : SameRest cache after) : SameClock cache after := by
  unfold SameRest at same
  refine ⟨?_, ?_, ?_⟩
  all_goals rw [same]

theorem SameRest.flows (same : SameRest cache after) : Flows cache after := by
  unfold SameRest at same
  refine ⟨?_, ?_⟩
  all_goals rw [same]

theorem Cleared.laid {offsets : List Nat} (cleared : Cleared config id offsets cache after)
    (laid : (cache.segment id).Laid config) : (after.segment id).Laid config := by
  obtain ⟨items, bytes, same⟩ := cleared.self
  rw [same]
  exact ⟨laid.writeOffset, laid.fits⟩

/-! ### The start of a merge -/

/-- The source is claimed behind a segment taken from a queue. -/
theorem Taken.claim (taken : Taken config none none chain spare cache middle)
    (sane : Sane config Hand.empty chain cache) (state : (cache.segment start).state = .sealed) :
    Taken config none (some start) chain spare (cache.claimed start) (middle.claimed start) := by
  have apart : start ≠ spare := by
    rintro rfl
    rw [taken.was] at state
    cases state
  have here : (middle.segment start).state = .sealed := by
    rw [taken.others start apart]
    exact state
  have claimed := taken.sane.claim (.inl here)
  have calmThere := calm_claimed taken.sane.consistent (.inl here)
  have calmHere := calm_claimed sane.consistent (.inl state)
  refine ⟨claimed, ⟨claimed.consistent, taken.calm.slots, fun key mapping => ?_⟩, taken.range, ?_, ?_,
    ?_, ?_, fun i different => ?_, taken.bucket, ⟨taken.clock.eviction, taken.clock.now,
      taken.clock.lastExpired⟩, taken.freed⟩
  · rw [calmThere.maps, taken.calm.maps, calmHere.maps]
  · rw [claimed_of_ne apart.symm]
    exact taken.was
  · rw [claimed_of_ne apart.symm]
    exact taken.state
  · rw [claimed_of_ne apart.symm]
    exact taken.blank
  · rw [claimed_of_ne apart.symm]
    exact taken.createAt
  · by_cases same : i = start
    · rw [same, claimed_self, claimed_self, taken.others start apart]
    · rw [claimed_of_ne same, claimed_of_ne same, taken.others i different]

/-- A merge has claimed its first candidate and linked the destination before it. -/
structure Begun (config : Config) (chain : Nat → List SegId) (b : Nat) (start spare : SegId)
    (cache after : Cache) : Prop where
  split : ∃ front back, chain b = front ++ start :: back ∧ back ≠ [] ∧
    Ready config (some start) (Function.update chain b (front ++ spare :: start :: back)) spare
      (cache.claimed start) after
  laid : (after.segment start).Laid config

/-- A segment in hand is given back. -/
theorem returns_releaseUnused {f : SegId} {d c : Option SegId}
    (sane : Sane config ⟨some f, d, c⟩ chain cache) (state : (cache.segment f).state = .reserved) :
    Returns (releaseUnused config f) (fun _ after => Sane config ⟨none, d, c⟩ chain after ∧
      Calm config none cache after ∧ (∀ i, i ≠ f → after.segment i = cache.segment i) ∧
      SameClock cache after ∧ Flows cache after ∧
      (cache.spareCount < config.spareCapacity → after.freeQueue = cache.freeQueue)) cache := by
  have ran := @releaseUnused_apply config cache f state
  have calm := keeps_releaseUnused f _ _ sane.consistent _ _ ran
  refine returns_of_eq ran ⟨⟨calm.consistent, ?_⟩, calm, fun i different => ?_, ⟨?_, ?_, ?_⟩, ?_,
    fun room => ?_⟩
  · rw [returned_shape, setSegment_shape]
    exact sane.orderly.give rfl
  · rw [returned_segment, setSegment_of_ne different]
  · rw [returned_eviction]
    rfl
  · rw [returned_now]
    rfl
  · rw [returned_lastExpired]
    rfl
  · unfold Cache.returned
    split
    · refine ⟨Nat.le_succ _, ?_⟩
      show cache.freed + 1 + cache.freeQueue.length = cache.freed + (cache.freeQueue ++ [f]).length
      rw [List.length_append, List.length_singleton]
      omega
    · exact ⟨le_rfl, rfl⟩
  · have full : ¬ config.spareCapacity ≤ (cache.setSegment f (cache.segment f).released).spareCount :=
      Nat.not_le.mpr room
    unfold Cache.returned
    rw [if_neg full]
    rfl

theorem returns_beginMerge (sane : Sane config Hand.empty chain cache)
    (taken : Taken config none none chain spare cache middle)
    (evictable : (cache.segment start).canEvict = true) (isBucket : IsBucket b) :
    Returns (beginMerge config start spare b) (fun begun after =>
      (begun = false ∧ holdsTtl b (cache.segment start).ttl = false ∧
        Sane config Hand.empty chain after ∧ Calm config none cache after ∧ Wanes config cache after ∧
        SameClock cache after ∧ Flows middle after ∧
        (middle.spareCount < config.spareCapacity → after.freeQueue = middle.freeQueue)) ∨
      (begun = true ∧ Begun config chain b start spare cache after ∧
        after.freeQueue = middle.freeQueue)) middle := by
  have state : (cache.segment start).state = .sealed := by
    unfold Segment.canEvict State.isEvictable at evictable
    simp only [Bool.and_eq_true, decide_eq_true_eq] at evictable
    exact evictable.1
  have apart : start ≠ spare := by
    rintro rfl
    rw [taken.was] at state
    cases state
  have there : middle.segment start = cache.segment start := taken.others start apart
  unfold beginMerge isSealedMember
  rw [returns_bind, returns_read, there, state]
  by_cases member : holdsTtl b (cache.segment start).ttl = true
  · rw [if_neg (by simp [member]), segmentOf, returns_bind, returns_read, there, evictable,
      if_neg (by simp), returns_bind]
    have claims : claimForDrain start middle = some (true, middle.claimed start) :=
      claim_apply (by rw [there]; exact state)
    refine returns_of_eq claims ?_
    rw [if_neg (by simp)]
    have taken' := taken.claim sane state
    -- A sealed segment with a bucket's TTL is a member of its chain.
    obtain ⟨c, front, back, inside, bucket, -⟩ := lockSealedInBucket_apply sane state
    have ttl : (cache.segment start).ttl = bucketTtl b := by simpa [holdsTtl] using member
    have startHere : start ∈ chain c := by
      rw [inside]
      simp
    have same : c = b := (sane.orderly.bucket c (List.ne_nil_of_mem startHere)).1.eq_of_ttl isBucket
      ((sane.orderly.ttl c start startHere).symm.trans ttl)
    subst same
    have startThere : (middle.claimed start).segment start =
        { cache.segment start with state := .draining } := by
      rw [claimed_self, there]
    unfold configureSpare inheritCreated
    simp only [segmentOf, modifySegment, returns_bind, returns_read, returns_change, startThere,
      setSegment_self, setSegment_of_ne apart, setSegment_setSegment]
    rw [ttl]
    refine (taken'.ready inside .main (cache.segment start).createAt (middle.claimed start).now).mono
      fun _ after ⟨ready, queue⟩ => (returns_pure _).mpr (.inr ⟨rfl, ⟨⟨front, back, inside,
        sane.orderly.not_last inside (.inl state), ready⟩, ?_⟩, queue⟩)
    exact (ready.others start apart).laid (sane.laid (.inl state))
  · rw [if_pos (by simp [member])]
    refine (returns_releaseUnused taken.sane taken.state).seq
      fun _ after ⟨sane', calm, others, clock, flows⟩ => (returns_pure _).mpr
        (.inl ⟨rfl, by simpa using member, sane', taken.calm.trans calm, ?_, taken.clock.trans clock, flows⟩)
    refine wanes_of_maps (fun key mapping => ((taken.calm.trans calm).maps key mapping).mp)
      fun i asleep => ?_
    have different : i ≠ spare := by
      rintro rfl
      cases asleep.symm.trans taken.was
    rw [others i different, taken.others i different, asleep]

/-! ### The loops -/

/-- What a merge's loop leaves: the destination is still to be sealed. -/
structure Merging (config : Config) (spare : SegId) (cache after : Cache) : Prop where
  sane : ∃ chain, Sane config ⟨none, some spare, none⟩ chain after
  shed : Shed config cache after
  clock : SameClock cache after
  flows : Flows cache after

theorem Merging.trans (first : Merging config spare cache middle)
    (second : Merging config spare middle after) : Merging config spare cache after :=
  ⟨second.sane, first.shed.trans second.shed, first.clock.trans second.clock,
    first.flows.trans second.flows⟩

/-- One round of a merge eviction, behind the claim. -/
theorem returns_mergeRound {front back : List SegId} (cutoff targetRatio : ℚ)
    (sane : Sane config ⟨none, some spare, some candidate⟩ chain cache)
    (inside : chain b = front ++ spare :: candidate :: back) (notLast : back ≠ [])
    (laid : (cache.segment candidate).Laid config) :
    Returns (prune config candidate cutoff targetRatio) (fun _ one =>
      Returns (copyInto config candidate spare) (fun _ two =>
        Returns (finalizeDrained config candidate) (fun _ after =>
          Sane config ⟨none, some spare, none⟩ (Function.update chain b (front ++ spare :: back))
            after ∧ Shed config cache after ∧ SameClock cache after ∧ Flows cache after) two) one)
      cache := by
  refine (returns_prune cutoff targetRatio sane.consistent laid).mono fun _ one ⟨offsets, cleared⟩ => ?_
  have sane' : Sane config ⟨none, some spare, some candidate⟩ chain one :=
    ⟨cleared.consistent, by rw [cleared.shape]; exact sane.orderly⟩
  refine (returns_consume sane' inside notLast (cleared.laid laid)).mono fun _ two returned => ?_
  refine returned.mono fun _ after ⟨sane'', consumed⟩ => ⟨sane'', cleared.shed.trans consumed.sifted.shed,
    cleared.rest.clock.trans consumed.clock, cleared.rest.flows.trans consumed.flows⟩

/-- A later candidate is claimed if it can be evicted. -/
theorem claimCandidate_apply (different : candidate ≠ start) (evictable : (cache.segment candidate).canEvict = true) :
    claimCandidate start candidate cache = some (true, cache.claimed candidate) := by
  have state : (cache.segment candidate).state = .sealed := by
    unfold Segment.canEvict State.isEvictable at evictable
    simp only [Bool.and_eq_true, decide_eq_true_eq] at evictable
    exact evictable.1
  unfold claimCandidate
  rw [if_neg different, segmentOf, read_bind, evictable, if_neg (by simp)]
  exact claim_apply state

theorem claimCandidate_refused (different : candidate ≠ start)
    (busy : (cache.segment candidate).canEvict = false) :
    claimCandidate start candidate cache = some (false, cache) := by
  unfold claimCandidate
  rw [if_neg different, segmentOf, read_bind, busy]
  rfl

theorem sealed_of_canEvict {segment : Segment} (evictable : segment.canEvict = true) :
    segment.state = .sealed ∧ segment.refCount = 0 := by
  unfold Segment.canEvict State.isEvictable at evictable
  simpa using evictable

/-- The rest of a merge eviction's loop, behind its first round. -/
theorem returns_mergeEvictFrom (targetRatio : ℚ) (fuel : Nat) (cutoff : ℚ) (rest : List SegId)
    {front : List SegId} (sane : Sane config ⟨none, some spare, none⟩ chain cache)
    (inside : chain b = front ++ spare :: rest) (gone : start ∉ rest) :
    Returns (mergeEvictFrom config start spare targetRatio fuel cutoff rest.head?)
      (fun _ after => Merging config spare cache after) cache := by
  have stop : Merging config spare cache cache :=
    ⟨⟨chain, sane⟩, Shed.refl cache, SameClock.refl cache, Flows.refl cache⟩
  induction fuel generalizing cache chain cutoff rest with
  | zero =>
    cases rest with
    | nil => exact (returns_pure _).mpr stop
    | cons candidate rest => exact (returns_pure _).mpr stop
  | succ fuel ih =>
    cases rest with
    | nil => exact (returns_pure _).mpr stop
    | cons candidate rest =>
      rw [List.head?_cons]
      unfold mergeEvictFrom
      rw [segmentOf, returns_bind, returns_read]
      refine Returns.ite (fun _ => (returns_pure _).mpr stop) fun _ => ?_
      have different : candidate ≠ start := fun same => gone (same ▸ List.mem_cons_self ..)
      rw [returns_bind]
      cases evictable : (cache.segment candidate).canEvict with
      | false =>
        refine returns_of_eq (claimCandidate_refused different evictable) ?_
        rw [if_pos (by simp)]
        exact (returns_pure _).mpr stop
      | true =>
        have state := (sealed_of_canEvict evictable).1
        refine returns_of_eq (claimCandidate_apply different evictable) ?_
        have claimed := sane.claim (.inl state)
        have inside' : chain b = (front ++ [spare]) ++ candidate :: rest := by
          rw [inside]
          simp
        have notLast := sane.orderly.not_last inside' (.inl state)
        have links : ((cache.claimed candidate).segment candidate).next = rest.head? :=
          (claimed.orderly.links inside').2
        rw [if_neg (by simp), segmentOf, returns_bind, returns_read, returns_bind, links]
        refine (returns_mergeRound cutoff targetRatio claimed inside notLast
          (sane.laid (.inl state))).mono fun cutoff' one pruned => ?_
        rw [returns_bind]
        refine pruned.mono fun _ two copies => ?_
        rw [returns_bind]
        refine copies.mono fun _ three known => ?_
        obtain ⟨sane', shed, clock, flows⟩ := known
        have round : Merging config spare cache three :=
          ⟨⟨_, sane'⟩, (calm_claimed sane.consistent (.inl state)).shed.trans shed,
            ⟨clock.eviction, clock.now, clock.lastExpired⟩, ⟨flows.le, flows.length⟩⟩
        refine (ih cutoff' rest sane' (Function.update_self ..)
          (fun there => gone (List.mem_cons_of_mem _ there)) ⟨⟨_, sane'⟩, Shed.refl _,
            SameClock.refl _, Flows.refl _⟩).mono fun _ after more => round.trans more

/-- What a merge leaves between two steps of a call. -/
structure Settles (config : Config) (cache after : Cache) : Prop where
  sane : ∃ chain, Sane config Hand.empty chain after
  shed : Shed config cache after
  wanes : Wanes config cache after
  clock : SameClock cache after
  flows : cache.freeQueue = [] → Flows cache after

theorem Settles.refl (sane : Sane config Hand.empty chain cache) : Settles config cache cache :=
  ⟨⟨chain, sane⟩, Shed.refl cache, Wanes.refl cache, SameClock.refl cache, fun _ => Flows.refl cache⟩

theorem Settles.trans (first : Settles config cache middle) (second : Settles config middle after)
    (empty : cache.freeQueue = [] → middle.freeQueue = []) : Settles config cache after :=
  ⟨second.sane, first.shed.trans second.shed, first.wanes.trans second.wanes,
    first.clock.trans second.clock, fun none =>
    (first.flows none).trans (second.flows (empty none))⟩

/-- A filled destination is sealed at the end of a merge. -/
theorem Merging.publish (merging : Merging config spare cache middle) :
    Returns (publishDestSealed spare) (fun _ after => (∃ chain, Sane config Hand.empty chain after) ∧
      Shed config cache after ∧ SameClock cache after ∧ Flows cache after ∧
      Calm config none middle after ∧ ∀ i, i ≠ spare → after.segment i = middle.segment i) middle := by
  obtain ⟨chain, sane⟩ := merging.sane
  refine (returns_publish sane).mono fun _ after ⟨sane', calm, same⟩ =>
    ⟨⟨chain, sane'⟩, merging.shed.trans calm.shed, merging.clock.trans ?_, merging.flows.trans ?_,
      calm, fun i different => ?_⟩
  · rw [same]
    exact ⟨rfl, rfl, rfl⟩
  · rw [same]
    exact ⟨le_rfl, rfl⟩
  · rw [same]
    exact setSegment_of_ne different _

/-- A merge whose empty destination is full enough stops at once, and leaves its first candidate
claimed. -/
theorem Begun.abandoned (begun : Begun config chain b start spare cache middle)
    (stops : ¬ config.Merges) : Merging config spare middle middle := by
  obtain ⟨front, back, inside, notLast, ready⟩ := begun.split
  exact ⟨⟨_, ready.sane.consistent, ready.sane.orderly.abandon stops⟩, Shed.refl middle,
    SameClock.refl middle, Flows.refl middle⟩

theorem not_merges (isMerge : config.policy.isMerge = true)
    (full : stopBytes config ≤ config.initialOffset) : ¬ config.Merges :=
  fun merges => absurd (merges isMerge) (not_lt.mpr full)

/-- The loop of a merge eviction, from its start. -/
theorem Begun.mergeEvictFrom (begun : Begun config chain b start spare cache middle)
    (stops : stopBytes config ≤ config.initialOffset → ¬ config.Merges) (targetRatio : ℚ) (fuel : Nat)
    (cutoff : ℚ) : Returns (mergeEvictFrom config start spare targetRatio (fuel + 1) cutoff (some start))
      (fun _ after => Merging config spare middle after ∧ (config.Merges ∨ after = middle)) middle := by
  by_cases full : stopBytes config ≤ config.initialOffset
  · have liveBytes : (middle.segment spare).liveBytes = config.initialOffset := by
      obtain ⟨front, back, inside, notLast, ready⟩ := begun.split
      exact ready.blank.liveBytes
    unfold Segcache.mergeEvictFrom
    rw [segmentOf, returns_bind, returns_read, if_pos (by rw [liveBytes]; exact full)]
    exact (returns_pure _).mpr ⟨begun.abandoned (stops full), .inr rfl⟩
  obtain ⟨front, back, inside, notLast, ready⟩ := begun.split
  have here : Function.update chain b (front ++ spare :: start :: back) b =
      front ++ spare :: start :: back := Function.update_self ..
  have here' : Function.update chain b (front ++ spare :: start :: back) b =
      (front ++ [spare]) ++ start :: back := by
    rw [here]
    simp
  have unique := ready.sane.orderly.unique b
  rw [here'] at unique
  obtain ⟨-, -, -, gone, -⟩ := nodup_middle unique
  have links : (middle.segment start).next = back.head? := (ready.sane.orderly.links here').2
  have room : ¬ stopBytes config ≤ (middle.segment spare).liveBytes := by
    rw [ready.blank.liveBytes]
    exact full
  unfold Segcache.mergeEvictFrom claimCandidate
  rw [segmentOf, returns_bind, returns_read, if_neg room, if_pos rfl, returns_bind, returns_pure,
    if_neg (by simp), segmentOf, returns_bind, returns_read, returns_bind, links]
  refine (returns_mergeRound cutoff targetRatio ready.sane here notLast begun.laid).mono
    fun cutoff' one pruned => ?_
  rw [returns_bind]
  refine pruned.mono fun _ two copies => ?_
  rw [returns_bind]
  refine copies.mono fun _ three known => ?_
  obtain ⟨sane', shed, clock, flows⟩ := known
  exact (returns_mergeEvictFrom targetRatio fuel cutoff' back sane' (Function.update_self ..) gone).mono
    fun _ after more =>
      ⟨Merging.trans ⟨⟨_, sane'⟩, shed, clock, flows⟩ more, .inl fun _ => not_le.mp full⟩

/-- A sealed segment of a bucket is dropped. -/
theorem returns_mergeEvictFallbackDrop (sane : Sane config Hand.empty chain cache)
    (isBucket : IsBucket b) : Returns (mergeEvictFallbackDrop config start b) (fun result after =>
      Settles config cache after ∧ (result = none → after = cache)) cache := by
  unfold mergeEvictFallbackDrop isSealedMember
  rw [returns_bind, returns_read]
  by_cases member : (cache.segment start).state = .sealed ∧ holdsTtl b (cache.segment start).ttl = true
  · obtain ⟨state, ttl⟩ := member
    obtain ⟨c, front, back, inside, -, -⟩ := lockSealedInBucket_apply sane state
    have here : start ∈ chain c := by
      rw [inside]
      simp
    have same : c = b := (sane.orderly.bucket c (List.ne_nil_of_mem here)).1.eq_of_ttl isBucket
      ((sane.orderly.ttl c start here).symm.trans (of_decide_eq_true ttl))
    subst same
    rw [if_neg (by simp [state, ttl]), segmentOf, returns_bind, returns_read]
    refine (returns_clearSegment sane state inside).seq fun outcome middle known => ?_
    obtain ⟨done, isSome, _, retired, shed, wanes, sane'⟩ := known
    subst isSome
    have settles : Settles config cache (middle.headPatched c (cache.segment start).prev
        (cache.segment start).next) := by
      refine ⟨⟨_, sane'⟩, shed.trans ((headPatched_frame _ _).calm retired.consistent).shed,
        wanes.trans (headPatched_wanes _ _), ?_, fun _ => Flows.trans ⟨retired.flows.le, retired.flows.length⟩ (headPatched_flows _ _)⟩
      exact SameClock.trans ⟨retired.eviction, retired.now, retired.lastExpired⟩
        (headPatched_clock _ _)
    unfold Cache.headPatched at settles
    by_cases first : (cache.segment start).prev = none
    · rw [if_pos first] at settles ⊢
      exact ⟨_, _, rfl, settles, fun none => by cases none⟩
    · rw [if_neg first] at settles ⊢
      exact ⟨_, _, rfl, settles, fun none => by cases none⟩
  · rw [if_pos]
    · exact (returns_pure _).mpr ⟨Settles.refl sane, fun _ => rfl⟩
    · rw [not_and_or] at member
      rcases member with no | no <;> simp [no]

theorem canEvict_of_chainLen {fuel : Nat} (long : ¬ mergeEvictChainLen cache fuel start < 3) :
    (cache.segment start).canEvict = true := by
  cases fuel with
  | zero =>
    unfold mergeEvictChainLen at long
    omega
  | succ fuel =>
    unfold mergeEvictChainLen at long
    split at long
    · assumption
    · omega

/-- Where a merge takes its first candidate, what it leaves could be read before; where it does not,
nothing has moved. -/
theorem Begun.wanes (begun : Begun config chain b start spare cache middle)
    (sane : Sane config Hand.empty chain cache) (state : (cache.segment start).state = .sealed)
    (shed : Shed config cache after)
    (stopped : config.Merges ∨ last = middle) (calm : Calm config none last after)
    (others : ∀ i, i ≠ spare → after.segment i = last.segment i) : Wanes config cache after := by
  rcases stopped with merges | rfl
  · exact shed.wanes sane.orderly merges
  obtain ⟨front, back, inside, notLast, ready⟩ := begun.split
  have claimed := calm_claimed sane.consistent (.inl state)
  refine wanes_of_maps (fun key mapping maps => ?_) fun i asleep => ?_
  · exact (claimed.maps key mapping).mp ((ready.calm.maps key mapping).mp ((calm.maps key mapping).mp maps))
  · have notStart : i ≠ start := by
      rintro rfl
      cases asleep.symm.trans state
    have notSpare : i ≠ spare := by
      rintro rfl
      have was := ready.was
      rw [claimed_of_ne notStart] at was
      cases asleep.symm.trans was
    rw [others i notSpare, (ready.others i notSpare).state, claimed_of_ne notStart, asleep]

/-- **A merge eviction.** -/
theorem returns_mergeEvict (sane : Sane config Hand.empty chain cache) (isBucket : IsBucket b)
    (isMerge : config.policy.isMerge = true) :
    Returns (mergeEvict config start b) (fun result after => Settles config cache after ∧
      (result = none → cache.freeQueue = [] → after.freeQueue = [])) cache := by
  unfold mergeEvict
  dsimp only
  rw [returns_bind, returns_read]
  refine Returns.ite (fun _ => (returns_pure _).mpr ⟨Settles.refl sane, fun _ empty => empty⟩)
    fun long => ?_
  have evictable := canEvict_of_chainLen long
  refine (returns_reserveSpare sane).seq fun taken middle outcome => ?_
  rcases outcome with ⟨rfl, -, -, rfl⟩ | ⟨spare, rfl, queues, taken⟩
  · exact (returns_mergeEvictFallbackDrop sane isBucket).mono fun result after ⟨settles, same⟩ =>
      ⟨settles, fun none empty => by rw [same none]; exact empty⟩
  refine (returns_beginMerge sane taken evictable isBucket).seq fun begun one outcome => ?_
  rcases outcome with ⟨rfl, -, sane', calm, wanes, clock, flows, queue⟩ | ⟨rfl, begun, queue⟩
  · rw [if_pos (by simp)]
    refine (returns_pure _).mpr ⟨⟨⟨chain, sane'⟩, calm.shed, wanes, clock, fun empty => ?_⟩,
      fun _ empty => ?_⟩
    · have := flows.length
      have := flows.le
      rw [taken.freed, (queues empty).1] at *
      rw [← empty] at *
      exact ⟨by omega, by omega⟩
    · rw [queue (queues empty).2, (queues empty).1]
  · rw [if_neg (by simp)]
    obtain ⟨front, back, inside, notLast, ready⟩ := begun.split
    refine (begun.mergeEvictFrom (not_merges isMerge) _ _ _).seq fun next two ⟨merging, stopped⟩ => ?_
    refine merging.publish.seq fun _ three ⟨sane', shed, clock, flows, calm, others⟩ => ?_
    have state := (sealed_of_canEvict evictable).1
    have shed' : Shed config cache three :=
      ((calm_claimed sane.consistent (.inl state)).shed.trans ready.calm.shed).trans shed
    refine (returns_pure _).mpr ⟨⟨sane', shed', begun.wanes sane state shed' stopped calm others,
      SameClock.trans ⟨ready.clock.eviction, ready.clock.now, ready.clock.lastExpired⟩ clock,
      fun empty => ?_⟩, fun none => by cases none⟩
    refine Flows.trans ⟨?_, ?_⟩ flows
    · rw [ready.freed]
      rfl
    · rw [ready.freed, queue, (queues empty).1, empty]
      rfl

end CacheRs.Segcache
