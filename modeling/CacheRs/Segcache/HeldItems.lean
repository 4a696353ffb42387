/-
**An item that is held stays what it was.**

A `get` answers with an item whose bytes the reader borrows from the segment they lie in. Whatever calls
follow, and whatever they evict, expire, clear, merge or compact, the bytes are there until the item is
dropped.

* `respects_insert`, `respects_delete`, `respects_cas` and the like: every call but a lookup respects
  readers;
* `Step.endures`: a step leaves a used segment that is read before and after it;
* `Holding`: a run of steps during which a segment is read;
* `held_stays`: **an item that `get` answered stays while it is held**, at its place, in a segment that no
  queue has.
-/

import CacheRs.Segcache.Presence
import CacheRs.Segcache.Readers

set_option linter.unusedSectionVars false

namespace CacheRs.Segcache

open Hashtable (SlotRef)
open KeyValue (Bytes Value)
open Segments (SegId State)
open Sequential Procedure

variable {config : Config} {cache middle after : Cache} {id : SegId}

/-! ### Removing an item -/

theorem respects_freeEmpty (id : SegId) : Relates Respects (freeEmpty config id) := by
  refine .bind (respects_lockSealedInBucket id) fun bucket => ?_
  split
  · exact .pure _
  · refine .bind (.read _) fun segment => .bind (respects_clearSegment id) fun outcome => ?_
    split
    · exact .ite (respects_modifyBucket ..) (.pure _)
    · exact .pure _

theorem respects_compactAfter (id : SegId) : Relates Respects (compactAfter config id) := by
  refine .bind (.read _) fun segment => .ite (.pure _) ?_
  split
  · exact .pure _
  · refine .bind (.read _) fun next => .ite (.pure _) (.bind (.read _) fun next => .ite ?_ (.pure _))
    exact .bind (respects_mergeCompact ..) fun _ => respects_modifyBucket ..

theorem respects_removeAt (location : Location) : Relates Respects (removeAt config location) := by
  refine .bind (.read _) fun resolves => .ite (.pure _) ?_
  refine .bind (respects_removeItemAt ..) fun _ => .bind (.read _) fun segment => ?_
  exact .ite (respects_freeEmpty _) (.ite (respects_compactAfter _) (.pure _))

theorem respects_rollbackReservation (location : Location) :
    Relates Respects (rollbackReservation config location) :=
  .bind (.read _) fun _ => .ite (respects_removeAt location) (.pure _)

theorem respects_waitWhileDrainingOrFilling (location : Location) :
    Relates Respects (waitWhileDrainingOrFilling config location) :=
  .bind (.read _) fun _ => .ite .diverge (.pure _)

/-! ### Room for an item -/

theorem respects_tryAllocItem (id : SegId) (size : Nat) :
    Relates Respects (tryAllocItem config id size) := by
  refine .exchange fun cache => ?_
  dsimp only
  split
  · exact refl_of Respects cache
  · split
    · exact refl_of Respects cache
    · exact respects_setSegment (minds_header rfl rfl rfl rfl)

theorem respects_linkTail (b : Nat) (observed : Option SegId) (id : SegId) :
    Relates Respects (linkTail b observed id) := by
  unfold linkTail
  split
  · refine .bind (respects_casMetadata _ (fun _ => rfl) ..) fun sealed_ => .ite ?_ (.pure _)
    refine .bind (respects_casMetadata _ (fun used => by cases used) ..) fun _ => ?_
    exact .bind (respects_modifyBucket ..) fun _ => .pure _
  · refine .bind (.read _) fun tail => .ite ?_ (.pure _)
    refine .bind (respects_modifyBucket ..) fun _ => ?_
    refine .bind (respects_casMetadata _ (fun used => by cases used) ..) fun _ => ?_
    exact .bind (respects_modifyBucket ..) fun _ => .pure _

theorem respects_tryExpand (b : Nat) (observed : Option (SegId × BitVec 16)) :
    Relates Respects (tryExpand config b observed) := by
  have given : ∀ id, Relates Respects (do
      releaseUnused config id
      return true) := fun id => .bind (respects_releaseUnused id) fun _ => .pure _
  refine .bind respects_reserveFree fun taken => ?_
  split
  · exact .pure _
  · refine .bind (respects_modifySegment _ fun _ => minds_header rfl rfl rfl rfl) fun _ => ?_
    refine .bind (.read _) fun tail => .bind (.read _) fun stale => .ite (given _) ?_
    refine .bind (respects_linkTail ..) fun linked => .ite ?_ ?_
    · exact .bind (respects_casMetadata _ (fun used => by cases used) ..) fun _ => .pure _
    · dsimp only
      exact .ite (.bind .diverge fun _ => given _) (given _)

theorem respects_reserve (fuel b size : Nat) : Relates Respects (reserve config fuel b size) := by
  have loop : Relates Respects (reserveLoop config b size fuel) := by
    induction fuel with
    | zero => exact .diverge
    | succ fuel ih =>
      refine .bind (.read _) fun tail => ?_
      split
      · refine .bind (.read _) fun segment => .bind (respects_tryAllocItem ..) fun outcome => ?_
        split
        · exact .pure _
        · exact ih
        · exact .bind (respects_tryExpand ..) fun grown => .ite ih (.pure _)
      · exact .bind (respects_tryExpand ..) fun grown => .ite ih (.pure _)
  exact .ite (.pure _) loop

theorem respects_routePool (key : Key) : Relates Respects (routePool config key) := by
  refine .ite (.pure _) (.bind (.read _) fun ghost => .ite ?_ ?_)
  · exact .bind (.change fun _ => respects_of_same rfl) fun _ => .pure _
  · exact .bind (.read _) fun count => .ite (.bind respects_evict fun _ => .pure _) (.pure _)

/-- A new item is written behind the others. -/
theorem respects_define (reserved : Reserved) (pool : SegmentPool) (key : Key) (value : Value)
    (optional : Optional) : Relates Respects (define reserved pool key value optional) := by
  refine .bind (respects_modifySegment _ fun segment => ?_) fun _ => ?_
  · exact ⟨rfl, fun _ used => ⟨used, rfl, extends_append ..⟩⟩
  · refine .bind (.read _) fun segment => .ite ?_ (.pure _)
    refine .bind (respects_modifySegment _ fun _ => minds_header rfl rfl rfl rfl) fun _ => ?_
    exact .change fun _ => respects_of_same rfl

theorem respects_reserveRetry (fuel b size rounds retries : Nat) :
    Relates Respects (reserveRetry config fuel b size rounds retries) := by
  induction rounds generalizing retries with
  | zero => exact .diverge
  | succ rounds ih =>
    refine .bind (respects_reserve ..) fun answer => ?_
    split
    · exact .pure _
    · exact .pure _
    · refine .bind (.read _) fun before => .bind respects_evict fun _ => .bind (.read _) fun freed => ?_
      exact .ite (ih _) (.ite (.pure _) (ih _))

theorem respects_reserveAndDefine (fuel : Nat) (key : Key) (value : Value) (optional : Optional)
    (ttl : Nat) : Relates Respects (reserveAndDefine config fuel key value optional ttl) := by
  refine .bind (respects_routePool key) fun pool => .bind (respects_reserveRetry ..) fun answer => ?_
  split
  · exact .bind (respects_define ..) fun _ => .pure _
  · exact .pure _

/-! ### The calls -/

theorem respects_lookup (key : Key) : Relates Respects (lookup config key) :=
  .exchange fun _ => respects_of_same rfl

theorem respects_publish (key : Key) (new : Location) : Relates Respects (publish config key new) := by
  have again : ∀ location, Relates Respects (do
      rollbackReservation config new
      waitWhileDrainingOrFilling config location
      return none : Proc (Option (Except SegcacheError Unit))) := fun location =>
    .bind (respects_rollbackReservation new) fun _ =>
      .bind (respects_waitWhileDrainingOrFilling location) fun _ => .pure _
  refine .bind (.read _) fun found => ?_
  split
  · exact again _
  · refine .ite (.pure _) (.bind (.read _) fun segment => .ite (again _) ?_)
    have removed : ∀ location, Relates Respects (do
        removeAt config location
        return some (.ok ()) : Proc (Option (Except SegcacheError Unit))) := fun location =>
      .bind (respects_removeAt location) fun _ => .pure _
    refine .bind (respects_onTable _) fun swapped => ?_
    dsimp only
    exact .ite (.bind .diverge fun _ => removed _) (removed _)
  · refine .bind (.exchange fun _ => respects_of_same rfl) fun inserted => ?_
    split
    · exact again _
    · exact .pure _
    · refine .bind (.read _) fun segment => ?_
      dsimp only
      exact .ite (.bind (respects_removeAt _) fun _ => .pure _) (.pure _)
    · exact .bind (respects_rollbackReservation new) fun _ => .pure _

theorem respects_insert (fuel : Nat) (key : Key) (value : Value) (optional : Optional) (ttl : Nat) :
    Relates Respects (insert config fuel key value optional ttl) := by
  have loop : ∀ rounds, Relates Respects
      (insertLoop config fuel key value optional (coarseTtl ttl) rounds) := by
    intro rounds
    induction rounds with
    | zero => exact .diverge
    | succ rounds ih =>
      refine .bind (respects_reserveAndDefine ..) fun answer => ?_
      split
      · exact .pure _
      · refine .bind (.read _) fun location => .bind (respects_publish ..) fun published => ?_
        split
        · exact .pure _
        · exact ih
  exact loop fuel

/-- An item is marked deleted in place. -/
theorem respects_delete (key : Key) : Relates Respects (delete config key) := by
  have marked : ∀ location : Location, Relates Respects (modifySegment location.segment
      fun segment =>
        { segment with
          items := Segment.modifyItem config (fun item => { item with deleted := true })
            location.offset config.initialOffset segment.items }) := by
    refine fun location => respects_modifySegment _ fun segment => ⟨rfl, fun _ used => ⟨used, rfl, ?_⟩⟩
    exact extends_modifyItem _ _ fun item _ =>
      ⟨rfl, rfl, fun _ => rfl, fun _ text => ⟨text, rfl⟩, fun number same => ⟨number, same⟩⟩
  have removed : ∀ location, Relates Respects (do
      removeAt config location
      return true) := fun location => .bind (respects_removeAt location) fun _ => .pure _
  refine .bind (.read _) fun found => ?_
  split
  · exact .pure _
  · exact .diverge
  · refine .bind (.read _) fun remaining => .ite (.pure _) (.bind (.read _) fun segment => ?_)
    refine .ite (.bind .diverge fun _ => ?_) ?_
    all_goals
      refine .bind (respects_onTable _) fun unlinked => .ite (.pure _) (.bind (.read _) fun there => ?_)
      exact .ite (.bind (marked _) fun _ => removed _) (removed _)

theorem respects_replaceAt (key : Key) (old : Location) (slot : SlotRef) (new : Location)
    (expected : Option UInt64) : Relates Respects (replaceAt config key old slot new expected) := by
  have refused : Relates Respects (do
      rollbackReservation config new
      return .error .exists_ : Proc (Except SegcacheError Unit)) :=
    .bind (respects_rollbackReservation new) fun _ => .pure _
  refine .bind (.read _) fun segment => .ite refused ?_
  refine .bind (.read _) fun there => .ite refused ?_
  refine .bind (.read _) fun segment => .bind (.read _) fun changed => .ite refused ?_
  refine .bind (respects_onTable _) fun swapped => .ite refused ?_
  exact .bind (respects_removeAt old) fun _ => .pure _

theorem respects_cas (fuel : Nat) (key : Key) (value : Value) (optional : Optional) (ttl : Nat)
    (token : UInt64) : Relates Respects (cas config fuel key value optional ttl token) := by
  refine .bind (.read _) fun found => ?_
  split
  · exact .pure _
  · exact .diverge
  · refine .bind (.read _) fun remaining => .ite (.pure _) (.bind (.read _) fun segment => ?_)
    refine .bind (.read _) fun there => ?_
    split
    · exact .diverge
    · refine .ite (.pure _) (.bind (respects_reserveAndDefine ..) fun answer => ?_)
      split
      · exact .pure _
      · exact .bind (.read _) fun location => respects_replaceAt ..

/-- A number is counted in place. -/
theorem respects_numericUpdate (key : Key) (op : UInt64 → UInt64) :
    Relates Respects (numericUpdate config key op) := by
  refine .bind (respects_lookup key) fun found => ?_
  split
  · exact .pure _
  · exact .diverge
  rename_i hit
  refine .bind (.read _) fun remaining => .ite (.pure _) ⟨fun cache => ?_⟩
  rw [ensures_bind, ensures_read]
  split
  · exact ensures_diverge.mpr trivial
  rename_i item there
  split
  · exact (ensures_pure _).mpr (refl_of Respects cache)
  rename_i number isNumber
  have counts : Revised item { item with value := .u64 (op number), version := item.version + 2 } := by
    refine ⟨rfl, rfl, fun gone => gone, fun bytes text => ?_, fun _ _ => ⟨_, rfl⟩⟩
    cases isNumber.symm.trans text
  unfold modifySegment
  rw [ensures_bind, ensures_change, ensures_pure]
  refine respects_setSegment ⟨rfl, fun _ used => ⟨used, rfl, extends_modifyItem _ _ fun other placed => ?_⟩⟩
  rw [Segment.layOut_offset_unique placed (Segment.itemAt_iff.mp there)]
  exact counts

theorem respects_tryIntoNumeric (fuel : Nat) (key : Key) (initial : UInt64) (ttl : Nat) :
    Relates Respects (tryIntoNumeric config fuel key initial ttl) := by
  refine .bind (.read _) fun found => ?_
  split
  · exact respects_insert ..
  · exact .diverge
  refine .bind (.read _) fun there => ?_
  split
  · exact .diverge
  split
  · exact .pure _
  split
  · exact .pure _
  refine .bind (.read _) fun remaining => ?_
  split
  · exact .pure _
  refine .bind (respects_reserveAndDefine ..) fun answer => ?_
  split
  · exact .pure _
  · exact .bind (.read _) fun location => respects_replaceAt ..

theorem respects_clearCache : Relates Respects (clearCache config) := respects_drainBuckets ..

/-! ### Readers come and go -/

/-- What a reader of the key has been given: an item of a segment that now has one reader more. -/
structure Pinned (config : Config) (key : Key) (view : View) (location : Location)
    (cache after : Cache) : Prop where
  key : view.item.key = key
  used : isUsed (cache.segment location.segment).state = true
  item : cache.itemAt config location = some view.item
  cas : view.cas = tokenFor view.item location (cache.segment location.segment).generation
  segment : after.segment =
    (cache.counted location.segment ((cache.segment location.segment).refCount + 1)).segment

/-- **A `get` pins the segment of what it answers.** -/
theorem ensures_get_pinned (good : Good config cache) (key : Key) (updateFreq : Bool) :
    Ensures (get config key updateFreq) (fun answer after =>
      (answer = none ∧ after.segment = cache.segment) ∨
        ∃ view location, answer = some view ∧ Pinned config key view location cache after) cache := by
  obtain ⟨found, table, counted, uncounted, -⟩ := lookup_apply config key cache
  have looked : ∃ table,
      (if updateFreq then lookup config key else lookupNoFreqUpdate config key) cache =
        some (found, { cache with table := table }) := by
    by_cases update : updateFreq = true
    · rw [if_pos update]
      exact ⟨table, counted⟩
    · rw [if_neg update]
      exact ⟨cache.table, uncounted⟩
  obtain ⟨table, ran⟩ := looked
  have sees : ∀ hit, found = .found hit → ∃ item, cache.itemAt config hit.location = some item ∧
      item.key = key ∧ isUsed (cache.segment hit.location.segment).state = true := by
    rintro hit rfl
    rcases good.settled.lookup_apply key with ⟨mapping, slot, maps, looked, -, -, -, awake⟩ |
      ⟨-, looked⟩ | ⟨_, -, looked⟩
    · cases uncounted.symm.trans looked
      obtain ⟨b, i, tag, -, item, same⟩ := maps
      refine ⟨mapping.item, item, same, ?_⟩
      rcases awake with state | state <;> rw [state] <;> rfl
    · cases uncounted.symm.trans looked
    · cases uncounted.symm.trans looked
  unfold get
  dsimp only
  split at ran
  all_goals
    rename_i update
    first | rw [if_pos update] | rw [if_neg update]
    rw [ensures_bind]
    refine (returns_of_eq ran ?_).ensures
    cases found with
    | absent => exact (ensures_pure _).mpr (.inl ⟨rfl, rfl⟩)
    | unknown _ => exact ensures_diverge.mpr trivial
    | found hit =>
      obtain ⟨item, there, same, used⟩ := sees hit rfl
      have there' : ({ cache with table := table } : Cache).itemAt config hit.location = some item := there
      dsimp only
      rw [ensures_bind, ensures_read]
      refine Ensures.ite (fun _ => (ensures_pure _).mpr (.inl ⟨rfl, rfl⟩)) fun _ => ?_
      rw [ensures_bind, ensures_read, there']
      dsimp only
      rw [modifySegment, ensures_bind, ensures_change, segmentOf, ensures_bind, ensures_read]
      refine (ensures_pure _).mpr (.inr ⟨_, hit.location, rfl, same, used, there, ?_, rfl⟩)
      rw [setSegment_self]

/-- A step that takes no reader away leaves a used segment that is read. -/
structure Retains (segment after : Segment) : Prop where
  readers : segment.refCount ≤ after.refCount
  stays : 0 < segment.refCount → isUsed segment.state = true → Stays segment after

theorem Minds.retains {segment after : Segment} (minds : Minds segment after) : Retains segment after :=
  ⟨minds.refCount.ge, minds.stays⟩

theorem Pinned.retains {key : Key} {view : View} {location : Location}
    (pinned : Pinned config key view location cache after) (i : SegId) :
    Retains (cache.segment i) (after.segment i) := by
  rw [pinned.segment]
  unfold Cache.counted
  by_cases same : i = location.segment
  · subst same
    rw [setSegment_self]
    exact ⟨Nat.le_succ _, fun _ used => ⟨used, rfl, .refl _⟩⟩
  · rw [setSegment_of_ne same]
    exact (Minds.refl _).retains

/-- **No call takes anything from a reader.** -/
theorem Call.retains (good : Good config cache) (fuel : Nat) (call : Call) :
    Ensures (call.perform config fuel) (fun _ after =>
      ∀ i, Retains (cache.segment i) (after.segment i)) cache := by
  have whatever : ∀ {α : Type} {procedure : Proc α}, Relates Respects procedure →
      Ensures (do
        let _ ← procedure : Proc Unit)
        (fun _ after => ∀ i, Retains (cache.segment i) (after.segment i)) cache :=
    fun respects => Ensures.seq (respects.ensures cache) fun _ _ respects =>
      (ensures_pure ()).mpr fun i => (respects i).retains
  cases call with
  | insert key value optional ttl => exact whatever (respects_insert ..)
  | get key updateFreq =>
    refine Ensures.seq (ensures_get_pinned good key updateFreq) fun _ after known =>
      (ensures_pure ()).mpr fun i => ?_
    rcases known with ⟨-, same⟩ | ⟨view, location, -, pinned⟩
    · rw [same]
      exact (Minds.refl _).retains
    · exact pinned.retains i
  | delete key => exact whatever (respects_delete key)
  | cas key value optional ttl token => exact whatever (respects_cas ..)
  | wrappingAdd key rhs => exact whatever (respects_numericUpdate ..)
  | saturatingSub key rhs => exact whatever (respects_numericUpdate ..)
  | tryIntoNumeric key initial ttl => exact whatever (respects_tryIntoNumeric ..)
  | expire => exact whatever respects_expireBuckets
  | clear => exact whatever respects_clearCache

/-- A used segment that is read before and after stays. -/
def Endures (cache after : Cache) : Prop :=
  ∀ i, 0 < (cache.segment i).refCount → 0 < (after.segment i).refCount →
    isUsed (cache.segment i).state = true → Stays (cache.segment i) (after.segment i)

/-- **A dropped item takes the segment from nobody else.** -/
theorem ensures_dropItem_endures (id : SegId) (cache : Cache) :
    Ensures (dropItem config id) (fun _ after => Endures cache after) cache := by
  have others : ∀ refCount i, i ≠ id → (cache.counted id refCount).segment i = cache.segment i :=
    fun refCount i apart => setSegment_of_ne apart _
  have own : ∀ refCount, (cache.counted id refCount).segment id =
      { cache.segment id with refCount := refCount } := fun refCount => setSegment_self ..
  unfold dropItem
  rw [segmentOf, ensures_bind, ensures_read, modifySegment, ensures_bind, ensures_change]
  by_cases last : (cache.segment id).refCount = 1
  swap
  · rw [if_neg last]
    refine (ensures_pure _).mpr fun i _ _ used => ?_
    by_cases same : i = id
    · subst same
      exact (own _).symm ▸ ⟨used, rfl, .refl _⟩
    · exact (others _ i same).symm ▸ ⟨used, rfl, .refl _⟩
  rw [if_pos last]
  have unread : ((cache.counted id ((cache.segment id).refCount - 1)).segment id).refCount = 0 := by
    rw [own, last]
  have endures : ∀ after, Respects (cache.counted id ((cache.segment id).refCount - 1)) after →
      Endures cache after := by
    intro after respects i read still used
    have apart : i ≠ id := by
      rintro rfl
      exact still.ne' (respects.unread unread)
    have stays := (respects i).stays
    rw [others _ i apart] at stays
    exact stays read used
  refine Ensures.seq (ensures_release_unread .awaitingRelease unread) fun _ first released => ?_
  refine Ensures.ite (fun _ => ?_) fun _ => (ensures_pure _).mpr (endures _ released)
  refine Ensures.seq (ensures_modifySegment_unread (released.unread unread) fun _ => rfl)
    fun _ second reset => (ensures_change _).mpr (endures _ ?_)
  exact trans_of Respects (trans_of Respects released reset) (respects_of_same rfl)

/-! ### Runs -/

theorem Step.endures (step : Step config cache after) (good : Good config cache) :
    Endures cache after := by
  cases step with
  | call fuel call ran => exact fun i read _ used => (Call.retains good fuel call _ _ ran i).stays read used
  | dropItem id held ran => exact ensures_dropItem_endures id cache _ _ ran
  | tick now later => exact fun i _ _ used => ⟨used, rfl, .refl _⟩

/-- A run of steps after each of which the segment has a reader. -/
def WhileHeld (config : Config) (id : SegId) : Cache → Cache → Prop :=
  Relation.ReflTransGen fun cache after => Step config cache after ∧ 0 < (after.segment id).refCount

/-- **A used segment stays while it is read.** -/
theorem WhileHeld.stays (run : WhileHeld config id cache after) (reachable : Reachable config cache)
    (read : 0 < (cache.segment id).refCount) (used : isUsed (cache.segment id).state = true) :
    Reachable config after ∧ 0 < (after.segment id).refCount ∧
      Stays (cache.segment id) (after.segment id) := by
  induction run with
  | refl => exact ⟨reachable, read, used, rfl, .refl _⟩
  | tail _ step ih =>
    obtain ⟨reachable', read', stays⟩ := ih
    have stays' := step.1.endures reachable'.good id read' step.2 stays.used
    exact ⟨reachable'.step step.1, step.2, stays'.used, stays'.generation.trans stays.generation,
      stays.items.trans stays'.items⟩

/-- Calls leave a reader what it holds. -/
theorem WhileHeld.performAll (fuel : Nat) (calls : List Call) (reachable : Reachable config cache)
    (read : 0 < (cache.segment id).refCount)
    (ran : Segcache.performAll config fuel calls cache = some ((), after)) :
    WhileHeld config id cache after := by
  induction calls generalizing cache with
  | nil =>
    cases ran
    exact .refl
  | cons call rest ih =>
    obtain ⟨_, middle, first, later⟩ := bind_eq_some.mp ran
    have read' := read.trans_le (Call.retains reachable.good fuel call _ _ first id).readers
    exact .head ⟨.call fuel call first, read'⟩ (ih (reachable.step (.call fuel call first)) read' later)

theorem isUsed_not_free {state : State} (used : isUsed state = true) : state ≠ .free := by
  rintro rfl
  cases used

/-- **An item that a `get` answered stays while it is held.** Whatever is called, and whatever expires or
is evicted, cleared, merged or compacted, the item lies where it lay: its key, its optional data and a
text stay as they were, a number stays a number, and its segment is in no queue. -/
theorem held_stays (reachable : Reachable config cache) {key : Key} {updateFreq : Bool} {view : View}
    {first : Cache} (answered : get config key updateFreq cache = some (some view, first)) :
    ∃ location, view.item.key = key ∧
      view.cas = tokenFor view.item location (first.segment location.segment).generation ∧
      0 < (first.segment location.segment).refCount ∧
      ∀ after, WhileHeld config location.segment first after →
        (∃ item, after.itemAt config location = some item ∧ Revised view.item item) ∧
        (after.segment location.segment).generation = (first.segment location.segment).generation ∧
        location.segment ∉ after.freeQueue ∧ location.segment ∉ after.spareQueue := by
  have reachable' : Reachable config first := by
    refine reachable.step (.call 0 (.get key updateFreq) ?_)
    exact bind_apply_of_some answered
  rcases ensures_get_pinned reachable.good key updateFreq _ _ answered with
    ⟨no, -⟩ | ⟨other, location, same, pinned⟩
  · cases no
  cases same
  have own : first.segment location.segment =
      { cache.segment location.segment with
        refCount := (cache.segment location.segment).refCount + 1 } := by
    rw [pinned.segment]
    exact setSegment_self ..
  have read : 0 < (first.segment location.segment).refCount := by
    rw [own]
    exact Nat.succ_pos _
  refine ⟨location, pinned.key, ?_, read, fun after run => ?_⟩
  · rw [own]
    exact pinned.cas
  obtain ⟨reached, -, stays⟩ := run.stays reachable' read (by rw [own]; exact pinned.used)
  refine ⟨?_, stays.generation, ?_⟩
  · have items := stays.items
    rw [own] at items
    obtain ⟨item, there, revised⟩ := items.layOut (Segment.itemAt_iff.mp pinned.item)
    exact ⟨item, Segment.itemAt_iff.mpr there, revised⟩
  · obtain ⟨⟨chain, sane⟩, -⟩ := reached.good
    have queued := sane.orderly.queues.queued location.segment
    have outside : location.segment ∉ after.freeQueue ++ after.spareQueue := fun inside =>
      isUsed_not_free stays.used (queued.mp inside).2
    rw [List.mem_append, not_or] at outside
    exact outside

/-- What follows the read: the key is deleted, everything is cleared, and the key is written again. -/
def clearingCalls : List Call := [.delete (smallKey 1), .clear, minuteInsert]

/-- A read is answered, and at the end of what follows the key is mapped to another place. -/
def outlivesClear (config : Config) (cache : Cache) : Bool :=
  (get config (smallKey 1) true cache).any fun answered =>
    answered.1.any fun _ =>
      (performAll config 6 clearingCalls answered.2).any fun ended =>
        decide (ended.2.locate config (smallKey 1) ≠ cache.locate config (smallKey 1))

theorem held_stays_cleared : ∃ cache first after view location,
    get (Config.small false .fifo 3) (smallKey 1) true cache = some (some view, first) ∧
      performAll (Config.small false .fifo 3) 6 clearingCalls first = some ((), after) ∧
      after.locate (Config.small false .fifo 3) (smallKey 1) ≠
        cache.locate (Config.small false .fifo 3) (smallKey 1) ∧
      ∃ item, after.itemAt (Config.small false .fifo 3) location = some item ∧
        Revised view.item item := by
  obtain ⟨cache, reachable, checked⟩ := exists_reachable (Config.small false .fifo 3) 6 [minuteInsert]
    (outlivesClear (Config.small false .fifo 3)) (by decide +kernel)
  obtain ⟨⟨answer, first⟩, answered, checked⟩ := (Option.any_eq_true _ _).mp checked
  obtain ⟨view, rfl, checked⟩ := (Option.any_eq_true _ _).mp checked
  obtain ⟨⟨_, after⟩, ran, moved⟩ := (Option.any_eq_true _ _).mp checked
  obtain ⟨location, -, -, read, stays⟩ := held_stays reachable answered
  have reachable' : Reachable (Config.small false .fifo 3) first :=
    reachable.step (.call 0 (.get (smallKey 1) true) (bind_apply_of_some answered))
  have run := WhileHeld.performAll 6 clearingCalls reachable' read ran
  obtain ⟨there, -⟩ := stays after run
  exact ⟨cache, first, after, view, location, answered, ran, of_decide_eq_true moved, there⟩

end CacheRs.Segcache
