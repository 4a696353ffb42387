/-
**Destinations of moved items.**

A merge and a promotion fill a segment taken from a queue. It is labelled with the source's TTL and
linked before the source, so that its items can be found while it fills.

* `Taken`, `returns_reserveFree`, `returns_reserveSpare`: a segment is taken from a queue;
* `Ready`, `returns_linkDest`: **it is linked, and can be filled**;
* `Still`: filling it leaves the chains and the queues alone.
-/

import CacheRs.Segcache.Drains

set_option linter.unusedSectionVars false

namespace CacheRs.Segcache

open DoublyLinked
open Segments (SegId State totalBuckets bucketTtl IsBucket)
open Sequential Procedure

variable {config : Config} {hand : Hand} {chain : Nat → List SegId} {cache middle after : Cache}
  {id : SegId} {b : Nat}

/-- A step that leaves the clocks and the eviction state alone. -/
structure SameClock (cache after : Cache) : Prop where
  eviction : after.eviction = cache.eviction
  now : after.now = cache.now
  lastExpired : after.lastExpired = cache.lastExpired

theorem SameClock.refl (cache : Cache) : SameClock cache cache := ⟨rfl, rfl, rfl⟩

theorem SameClock.trans (first : SameClock cache middle) (second : SameClock middle after) :
    SameClock cache after :=
  ⟨second.eviction.trans first.eviction, second.now.trans first.now,
    second.lastExpired.trans first.lastExpired⟩

/-- A free segment was taken from a queue. -/
structure Taken (config : Config) (d c : Option SegId) (chain : Nat → List SegId) (id : SegId)
    (cache after : Cache) : Prop where
  sane : Sane config ⟨some id, d, c⟩ chain after
  calm : Calm config none cache after
  range : InRange config id
  was : (cache.segment id).state = .free
  state : (after.segment id).state = .reserved
  blank : Blank config (after.segment id)
  createAt : (after.segment id).createAt = cache.now
  others : ∀ i, i ≠ id → after.segment i = cache.segment i
  bucket : after.bucket = cache.bucket
  clock : SameClock cache after
  freed : after.freed = cache.freed

section Taken

variable {d c : Option SegId} (sane : Sane config ⟨none, d, c⟩ chain cache)

include sane

/-- What reserving a queue's first segment does. -/
theorem taken {freeQueue spareQueue : List SegId} {spareCount : Nat}
    (perm : (id :: (freeQueue ++ spareQueue)).Perm (cache.freeQueue ++ cache.spareQueue))
    (counted : spareCount = spareQueue.length) (bounded : spareCount ≤ cache.spareCount)
    (calm : Calm config none cache
      ({ cache with
          freeQueue := freeQueue, spareQueue := spareQueue, spareCount := spareCount }.setSegment id
        ((cache.segment id).reserved config cache.now))) :
    Taken config d c chain id cache
      ({ cache with
          freeQueue := freeQueue, spareQueue := spareQueue, spareCount := spareCount }.setSegment id
        ((cache.segment id).reserved config cache.now)) := by
  have queued := (sane.orderly.queues.queued id).mp (perm.mem_iff.mp (List.mem_cons_self ..))
  refine ⟨⟨calm.consistent, ?_⟩, calm, queued.1, queued.2, ?_, ?_, ?_, fun i different => ?_, rfl,
    ⟨rfl, rfl, rfl⟩, rfl⟩
  · rw [setSegment_shape]
    exact sane.orderly.take rfl rfl rfl perm counted (bounded.trans sane.orderly.queues.bounded)
  · rw [setSegment_self]
    rfl
  · rw [setSegment_self]
    exact ⟨rfl, rfl, rfl, rfl⟩
  · rw [setSegment_self]
    rfl
  · exact setSegment_of_ne different _

theorem returns_reserveFree : Returns (reserveFree config) (fun result after =>
    (result = none ∧ cache.freeQueue = [] ∧ after = cache) ∨
      ∃ id rest, result = some id ∧ cache.freeQueue = id :: rest ∧ after.freeQueue = rest ∧
        Taken config d c chain id cache after) cache := by
  cases queue : cache.freeQueue with
  | nil => exact returns_of_eq (reserveFree_nil queue) (.inl ⟨rfl, rfl, rfl⟩)
  | cons id rest =>
    have free : (cache.segment id).state = .free :=
      ((sane.orderly.queues.queued id).mp (by
        show id ∈ cache.freeQueue ++ _
        rw [queue]
        exact List.mem_cons_self ..)).2
    have ran := @reserveFree_cons config _ _ _ queue free
    refine returns_of_eq ran (.inr ⟨id, rest, rfl, rfl, rfl, ?_⟩)
    refine taken sane ?_ sane.orderly.queues.spare le_rfl
      (keeps_reserveFree _ _ sane.consistent _ _ ran)
    show (id :: (rest ++ cache.spareQueue)).Perm (cache.freeQueue ++ cache.spareQueue)
    rw [queue]
    exact List.Perm.refl _

theorem returns_reserveSpare : Returns (reserveSpare config) (fun result after =>
    (result = none ∧ cache.spareQueue = [] ∧ cache.freeQueue = [] ∧ after = cache) ∨
      ∃ id, result = some id ∧
        (cache.freeQueue = [] → after.freeQueue = [] ∧ after.spareCount < config.spareCapacity) ∧
        Taken config d c chain id cache after) cache := by
  cases queue : cache.spareQueue with
  | nil =>
    have same := @reserveSpare_nil config _ queue
    obtain ⟨result, after, ran, outcome⟩ := returns_reserveFree sane
    refine returns_of_eq (same.trans ran) ?_
    rcases outcome with ⟨none, empty, unchanged⟩ | ⟨id, rest, some, free, freeQueue, taken⟩
    · exact .inl ⟨none, rfl, empty, unchanged⟩
    · refine .inr ⟨id, some, fun empty => ?_, taken⟩
      cases free.symm.trans empty
  | cons id rest =>
    have free : (cache.segment id).state = .free :=
      ((sane.orderly.queues.queued id).mp (List.mem_append_right _ (by
        show id ∈ cache.spareQueue
        rw [queue]
        exact List.mem_cons_self ..))).2
    have ran := @reserveSpare_cons config _ _ _ queue free
    have spare : cache.spareCount = cache.spareQueue.length := sane.orderly.queues.spare
    have bounded : cache.spareCount ≤ config.spareCapacity := sane.orderly.queues.bounded
    refine returns_of_eq ran (.inr ⟨id, rfl, fun empty => ⟨empty, ?_⟩, ?_⟩)
    · show cache.spareCount - 1 < config.spareCapacity
      rw [queue, List.length_cons] at spare
      omega
    refine taken sane ?_ ?_ (Nat.sub_le _ _) (keeps_reserveSpare _ _ sane.consistent _ _ ran)
    · rw [queue]
      exact List.perm_middle.symm
    · rw [spare, queue]
      rfl

end Taken

/-- A labelled segment is still fresh. -/
theorem Sane.label {f : SegId} {d c : Option SegId} (sane : Sane config ⟨some f, d, c⟩ chain cache)
    {update : Segment → Segment} (quiet : ∀ segment, Quiet segment (update segment))
    (state : ∀ segment, (update segment).state = segment.state) :
    Sane config ⟨some f, d, c⟩ chain (cache.setSegment f (update (cache.segment f))) ∧
      Calm config none cache (cache.setSegment f (update (cache.segment f))) := by
  have calm : Calm config none cache (cache.setSegment f (update (cache.segment f))) :=
    (frame_setSegment (quiet _)).calm sane.consistent
  refine ⟨⟨calm.consistent, ?_⟩, calm⟩
  rw [setSegment_shape]
  refine sane.orderly.relabel ?_ rfl rfl rfl rfl rfl rfl
  have fresh := (sane.orderly.fresh f).mpr rfl
  show isFresh (update (cache.segment f)).state = true
  rw [state]
  exact fresh

/-- A destination is linked before a member, and nothing else changed. -/
structure Ready (config : Config) (c : Option SegId) (chain : Nat → List SegId) (dest : SegId)
    (cache after : Cache) : Prop where
  sane : Sane config ⟨none, some dest, c⟩ chain after
  calm : Calm config none cache after
  range : InRange config dest
  was : (cache.segment dest).state = .free
  blank : Blank config (after.segment dest)
  others : ∀ i, i ≠ dest → OnlyLinks (cache.segment i) (after.segment i)
  clock : SameClock cache after
  freed : after.freed = cache.freed

theorem Ready.state {c : Option SegId} {dest : SegId} (ready : Ready config c chain dest cache after) :
    (after.segment dest).state = .relinking := (ready.sane.orderly.dest dest).mpr rfl

/-- **A fresh segment is linked before a member, and can be filled.** -/
theorem returns_linkDest {dest member : SegId} {c : Option SegId} {front back : List SegId}
    (sane : Sane config ⟨some dest, none, c⟩ chain cache) (state : (cache.segment dest).state = .reserved)
    (blank : Blank config (cache.segment dest)) (inside : chain b = front ++ member :: back)
    (ttl : (cache.segment dest).ttl = bucketTtl b) :
    Returns (linkDestBefore dest member b) (fun _ after =>
      Sane config ⟨none, some dest, c⟩
        (Function.update chain b (front ++ dest :: member :: back)) after ∧
      Calm config none cache after ∧ after = cache.linked dest member b) cache := by
  have outside : ∀ i ∈ chain b, i ≠ dest := by
    rintro i there rfl
    have held : holds (cache.segment i).state = true := (sane.orderly.member i).mpr ⟨b, there⟩
    rw [state] at held
    cases held
  have memberHere : member ∈ chain b := by
    rw [inside]
    simp
  have prev : (cache.segment member).prev ≠ some dest := by
    have links := (sane.orderly.links inside).1
    change (cache.segment member).prev = _ at links
    rw [links]
    intro last
    refine outside dest ?_ rfl
    rw [inside]
    exact List.mem_append_left _ (List.mem_of_getLast? last)
  have ran := linkDestBefore_apply (b := b) (outside member memberHere).symm state prev
  have calm := keeps_linkDestBefore dest member b _ _ sane.consistent _ _ ran
  refine returns_of_eq ran ⟨⟨calm.consistent, ?_⟩, calm, rfl⟩
  rw [linked_shape]
  exact sane.orderly.insert inside ttl

/-- **A segment taken from a queue is labelled and linked before a member.** -/
theorem Taken.ready {dest member : SegId} {c : Option SegId} {front back : List SegId}
    (taken : Taken config none c chain dest cache middle) (inside : chain b = front ++ member :: back)
    (pool : SegmentPool) (createAt mergeAt : Nat) :
    Returns (linkDestBefore dest member b)
      (fun _ after => Ready config c (Function.update chain b (front ++ dest :: member :: back)) dest
        cache after ∧ after.freeQueue = middle.freeQueue)
      (middle.setSegment dest { middle.segment dest with
        pool := pool, ttl := bucketTtl b, createAt := createAt, mergeAt := mergeAt }) := by
  have labelled := @Sane.label _ _ _ _ _ _ taken.sane
    (fun segment =>
      { segment with pool := pool, ttl := bucketTtl b, createAt := createAt, mergeAt := mergeAt })
    (fun _ => ⟨rfl, rfl, rfl, rfl, fun _ => rfl, fun was => was, .inl, .inl, fun was => was⟩)
    fun _ => rfl
  have blank := taken.blank
  refine (returns_linkDest labelled.1 ?_ ?_ inside ?_).mono fun _ after ⟨sane, calm, same⟩ => ?_
  · rw [setSegment_self]
    exact taken.state
  · rw [setSegment_self]
    exact ⟨blank.items, blank.liveItems, blank.liveBytes, blank.writeOffset⟩
  · rw [setSegment_self]
  · refine ⟨⟨sane, (taken.calm.trans labelled.2).trans calm, taken.range, taken.was, ?_,
      fun i different => ?_, ?_, ?_⟩, by rw [same]; rfl⟩
    · rw [same, linked_self, setSegment_self]
      exact ⟨blank.items, blank.liveItems, blank.liveBytes, blank.writeOffset⟩
    · rw [same, ← taken.others i different]
      refine OnlyLinks.trans ?_ (linked_others different b)
      rw [setSegment_of_ne different]
      exact OnlyLinks.refl _
    · rw [same]
      exact taken.clock.trans ⟨rfl, rfl, rfl⟩
    · rw [same, ← taken.freed]
      rfl

/-- A filled destination is sealed. -/
theorem returns_publish {dest : SegId} {c : Option SegId}
    (sane : Sane config ⟨none, some dest, c⟩ chain cache) :
    Returns (publishDestSealed dest) (fun _ after => Sane config ⟨none, none, c⟩ chain after ∧
      Calm config none cache after ∧
      after = cache.setSegment dest { cache.segment dest with state := .sealed }) cache := by
  have state : (cache.segment dest).state = .relinking := (sane.orderly.dest dest).mpr rfl
  have ran : publishDestSealed dest cache =
      some ((), cache.setSegment dest { cache.segment dest with state := .sealed }) := by
    unfold publishDestSealed
    rw [bind_apply_of_some (casMetadata_apply none none state)]
    rfl
  have calm := keeps_publishDestSealed dest _ _ sane.consistent _ _ ran
  refine returns_of_eq ran ⟨⟨calm.consistent, ?_⟩, calm, rfl⟩
  rw [setSegment_shape]
  exact sane.orderly.publish

end CacheRs.Segcache
