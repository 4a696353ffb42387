/-
**Items held by a reader.**

* `Sane.pin`: a segment in service is pinned;
* `returns_dropItem`: **a held item is dropped**, and the last reader of a condemned segment frees it.
-/

import CacheRs.Segcache.Publications

set_option linter.unusedSectionVars false

namespace CacheRs.Segcache

open Segments (SegId State)
open Sequential Procedure

variable {config : Config} {chain : Nat → List SegId} {cache middle after : Cache} {id : SegId}

/-- The cache is in order between two calls. -/
structure Good (config : Config) (cache : Cache) : Prop where
  sane : ∃ chain, Sane config Hand.empty chain cache
  ranked : Ranked config cache

theorem Proceeds.good (proceeds : Proceeds config cache after) : Good config after :=
  ⟨proceeds.sane, proceeds.ranked⟩

/-- A segment with another number of readers. -/
def Cache.counted (cache : Cache) (id : SegId) (refCount : Nat) : Cache :=
  cache.setSegment id { cache.segment id with refCount := refCount }

theorem counted_frame (refCount : Nat) : Frame config none cache (cache.counted id refCount) :=
  frame_setSegment ⟨rfl, rfl, rfl, rfl, fun _ => rfl, fun was => was, .inl, .inl, fun was => was⟩

theorem counted_node (refCount : Nat) (i : SegId) :
    let node := (cache.counted id refCount).shape.node i
    node.state = (cache.segment i).state ∧ node.next = (cache.segment i).next ∧
      node.prev = (cache.segment i).prev ∧ node.ttl = (cache.segment i).ttl ∧
      node.refCount = if i = id then refCount else (cache.segment i).refCount := by
  unfold Cache.counted
  dsimp only
  rw [setSegment_shape, Shape.setNode_node]
  by_cases same : i = id
  · subst same
    rw [if_pos rfl, if_pos rfl]
    exact ⟨rfl, rfl, rfl, rfl, rfl⟩
  · rw [if_neg same, if_neg same]
    exact ⟨rfl, rfl, rfl, rfl, rfl⟩

theorem counted_wanes (refCount : Nat) : Wanes config cache (cache.counted id refCount) :=
  wanes_of_maps (fun _ _ => (counted_frame refCount).maps_iff.mp) fun i asleep =>
    (@counted_node cache id refCount i).1.trans asleep

/-- A segment's readers are counted, and it is not waiting for the last one. -/
theorem Sane.counted (sane : Sane config Hand.empty chain cache) (refCount : Nat)
    (busy : (cache.segment id).state = .awaitingRelease → 0 < refCount) :
    Sane config Hand.empty chain (cache.counted id refCount) where
  consistent := (counted_frame refCount).consistent sane.consistent
  orderly := by
    have node := @counted_node cache id refCount
    have orderly := sane.orderly
    refine ⟨orderly.toChained.congr (fun b i _ => ⟨(node i).2.1, (node i).2.2.1, (node i).2.2.2.1⟩)
      rfl rfl, ?_, orderly.queues.congr (fun i => by rw [(node i).1]; rfl) rfl rfl rfl⟩
    refine ⟨fun i => ?_, fun b i inside => ?_, fun i => ?_, fun i => ?_, fun i => ?_,
      fun merges i => ?_, fun i => ?_, fun i => ?_, fun i => ?_⟩
    · rw [(node i).1]
      exact orderly.member i
    · rw [(node i).1]
      exact orderly.last b i inside
    · rw [(node i).1]
      exact orderly.fresh i
    · rw [(node i).1]
      exact orderly.dest i
    · rw [(node i).1]
      exact orderly.claimed i
    · rw [(node i).1]
      exact orderly.unclaimed merges i
    · rw [(node i).1]
      exact orderly.unlocked i
    · rw [(node i).1]
      exact orderly.range i
    · rw [(node i).1, (node i).2.2.2.2]
      intro waits
      by_cases same : i = id
      · subst same
        rw [if_pos rfl]
        exact busy waits
      · rw [if_neg same]
        exact orderly.waiting i waits

/-- A condemned segment is free. -/
def Cache.uncondemned (config : Config) (cache : Cache) (id : SegId) : Cache :=
  let segment := cache.segment id
  let freed := ({ segment with
    state := .free, next := none, prev := none
    generation := segment.generation + 1, refCount := 0 }).resetWriteStats config
  { cache.setSegment id freed with
    freeQueue := cache.freeQueue ++ [id]
    freed := cache.freed + 1 }

theorem Sane.uncondemned (sane : Sane config Hand.empty chain cache)
    (state : (cache.segment id).state = .awaitingRelease) :
    Sane config Hand.empty chain (cache.uncondemned config id) ∧
      Calm config none cache (cache.uncondemned config id) := by
  have orderly := sane.orderly
  have state' : (cache.shape.node id).state = .awaitingRelease := state
  have idle : holds (cache.segment id).state = false := by
    rw [state]
    rfl
  have vacant := sane.consistent.vacant idle
  have calm : Calm config none cache (cache.uncondemned config id) := by
    refine Frame.calm ⟨rfl, fun i => ?_⟩ sane.consistent
    show Quiet (cache.segment i) (Function.update cache.segment id _ i) ∨
      (Vacant cache none i ∧ Emptied config (Function.update cache.segment id _ i))
    by_cases same : i = id
    · subst same
      rw [Function.update_self]
      exact .inr ⟨vacant, fun busy => by simp [Segment.resetWriteStats, holds, isFresh] at busy⟩
    · rw [Function.update_of_ne same]
      exact .inl (Quiet.refl _)
  have node : ∀ i, (cache.uncondemned config id).shape.node i =
      if i = id then ⟨.free, none, none, (cache.segment id).ttl, 0⟩ else cache.shape.node i := by
    intro i
    show (Function.update cache.segment id _ i).node = _
    by_cases same : i = id
    · subst same
      rw [Function.update_self, if_pos rfl]
      rfl
    · rw [Function.update_of_ne same, if_neg same]
      rfl
  have outside : ∀ b, id ∉ chain b := orderly.not_mem (by
    rw [state']
    rfl)
  have apart : ∀ b, ∀ i ∈ chain b, i ≠ id := fun b i here same => outside b (same ▸ here)
  have range := orderly.range id (by rw [state']; simp)
  have queued := orderly.queues
  have absent : id ∉ cache.shape.freeQueue ++ cache.shape.spareQueue := fun inside => by
    have := ((queued.queued id).mp inside).2
    rw [state'] at this
    cases this
  refine ⟨⟨calm.consistent, ?_, ?_, ?_⟩, calm⟩
  · refine orderly.toChained.congr (fun b i here => ?_) rfl rfl
    rw [node, if_neg (apart b i here)]
    exact ⟨rfl, rfl, rfl⟩
  · refine orderly.toStated.step id (fun i different => ?_) (fun _ _ => Iff.rfl)
      (fun _ _ => ⟨Iff.rfl, Iff.rfl, Iff.rfl⟩) ?_ (fun b i here busy => ?_) ?_ ?_ ?_ ?_ ?_ ?_
    · rw [node, if_neg different]
      exact ⟨rfl, rfl⟩
    · rw [node, if_pos rfl]
      exact ⟨fun no => (by cases no), fun inside => inside.elim fun b here => absurd here (outside b)⟩
    · rw [node, if_neg (apart b i here)] at busy ⊢
      exact orderly.last b i here busy
    all_goals rw [node, if_pos rfl]
    · exact ⟨fun no => (by cases no), fun no => by cases no⟩
    · exact ⟨fun no => (by cases no), fun no => by cases no⟩
    · exact ⟨fun no => (by cases no), fun no => by cases no⟩
    · simp
    · exact fun no => absurd rfl no
    · exact fun no => by cases no
  · refine ⟨fun i => ?_, ?_, queued.spare, queued.bounded⟩
    · have here := queued.queued i
      show i ∈ (cache.freeQueue ++ [id]) ++ cache.spareQueue ↔ _
      rw [node]
      by_cases same : i = id
      · subst same
        rw [if_pos rfl]
        simp [range]
      · rw [if_neg same, ← here]
        show _ ↔ i ∈ cache.freeQueue ++ cache.spareQueue
        simp [same]
    · have unique := queued.unique
      change ((cache.freeQueue ++ [id]) ++ cache.spareQueue).Nodup
      change (cache.freeQueue ++ cache.spareQueue).Nodup at unique
      change id ∉ cache.freeQueue ++ cache.spareQueue at absent
      rw [List.append_assoc, List.singleton_append]
      exact List.nodup_middle.mpr (List.nodup_cons.mpr ⟨absent, unique⟩)

/-- **A held item is dropped.** -/
theorem returns_dropItem (good : Good config cache) (held : 0 < (cache.segment id).refCount) :
    Returns (dropItem config id) (fun _ after => Good config after ∧
      (∀ key mapping, Maps config after key mapping ↔ Maps config cache key mapping) ∧
      (∀ i, (cache.segment i).state = .draining → (after.segment i).state = .draining) ∧
      after.now = cache.now) cache := by
  obtain ⟨⟨chain, sane⟩, ranked⟩ := good
  have frame := @counted_frame config cache id ((cache.segment id).refCount - 1)
  have asleep : ∀ i, (cache.segment i).state = .draining →
      ((cache.counted id ((cache.segment id).refCount - 1)).segment i).state = .draining :=
    fun i asleep => (@counted_node cache id ((cache.segment id).refCount - 1) i).1.trans asleep
  unfold dropItem
  rw [segmentOf, returns_bind, returns_read, modifySegment, returns_bind, returns_change]
  by_cases last : (cache.segment id).refCount = 1
  case neg =>
    rw [if_neg last]
    have sane' := @Sane.counted _ _ _ id sane ((cache.segment id).refCount - 1) fun _ => by omega
    exact (returns_pure _).mpr ⟨⟨⟨chain, sane'⟩, ranked.congr rfl⟩,
      fun key mapping => frame.maps_iff, asleep, rfl⟩
  rw [if_pos last, returns_bind]
  have counted : ∀ state, ((cache.counted id ((cache.segment id).refCount - 1)).segment id).state =
      state ↔ (cache.segment id).state = state := by
    intro state
    unfold Cache.counted
    rw [setSegment_self]
  by_cases waits : (cache.segment id).state = .awaitingRelease
  · have released : tryReleaseCondemned id (cache.counted id ((cache.segment id).refCount - 1)) =
        some (true, (cache.counted id ((cache.segment id).refCount - 1)).setSegment id
          { cache.segment id with
            refCount := 0, state := .free, next := none, prev := none
            generation := (cache.segment id).generation + 1 }) := by
      unfold tryReleaseCondemned
      rw [bind_apply_of_some (casMetadata_apply _ _ ((counted _).mpr waits)), if_pos rfl]
      simp only [modifySegment, change_bind, setSegment_self, setSegment_setSegment, Cache.counted,
        last]
      rfl
    refine returns_of_eq released ?_
    rw [if_pos rfl]
    simp only [modifySegment, pushFreed, returns_bind, returns_change, setSegment_self,
      setSegment_setSegment, Cache.counted]
    obtain ⟨sane', calm⟩ := sane.uncondemned waits
    refine ⟨⟨⟨chain, sane'⟩, ranked.congr rfl⟩, fun key mapping => calm.maps key mapping,
      fun i draining => ?_, rfl⟩
    have different : i ≠ id := by
      rintro rfl
      cases draining.symm.trans waits
    exact (congrArg Segment.state (Function.update_of_ne different _ _)).trans draining
  · have refused : tryReleaseCondemned id (cache.counted id ((cache.segment id).refCount - 1)) =
        some (false, cache.counted id ((cache.segment id).refCount - 1)) := by
      unfold tryReleaseCondemned
      rw [bind_apply_of_some (casMetadata_lost _ _ fun same => waits ((counted _).mp same))]
      rfl
    refine returns_of_eq refused ?_
    rw [if_neg (by simp)]
    have sane' := @Sane.counted _ _ _ id sane ((cache.segment id).refCount - 1) fun same =>
      absurd same waits
    exact (returns_pure _).mpr ⟨⟨⟨chain, sane'⟩, ranked.congr rfl⟩,
      fun key mapping => frame.maps_iff, asleep, rfl⟩

end CacheRs.Segcache
