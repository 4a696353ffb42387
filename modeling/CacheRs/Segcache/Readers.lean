/-
**What no step does to a segment that is read.**

A reader pins the segment of its item by the segment's reader count, and it reads the item's bytes where
they lie. Nothing else that the cache does may take them away.

* `isUsed`: a segment that was linked and not given back since;
* `Revised`: an item that is marked deleted, or a number that is counted, in place;
* `Stays`: a segment of the same incarnation, with its items where they were;
* `Respects`: no segment gains or loses a reader, and every used segment with readers stays;
* `respects_tryReserve`, `respects_retire`: the procedures that look at the state or the readers first;
* `respects_expireBuckets`, `respects_evict`: **a sweep and an eviction respect readers**, whatever the
  policy.
-/

import CacheRs.Segcache.LifecycleSteps
import CacheRs.Segcache.Operations
import CacheRs.Sequential.Relations

set_option linter.unusedSectionVars false

namespace CacheRs.Segcache

open Hashtable (RelinkFreq)
open Segments (SegId State)
open Sequential Procedure

variable {config : Config} {cache middle after : Cache} {id : SegId}

/-! ### Items and segments that are read -/

/-- The states of a segment that was linked and not given back since. -/
def isUsed (state : State) : Bool := holds state || state = .awaitingRelease

/-- What may happen to an item in place: it is marked deleted, and a number is counted. -/
structure Revised (item after : Item) : Prop where
  key : after.key = item.key
  optional : after.optional = item.optional
  deleted : item.deleted = true → after.deleted = true
  text : ∀ bytes, item.value = .bytes bytes →
    after.value = .bytes bytes ∧ after.version = item.version
  number : ∀ number, item.value = .u64 number → ∃ other, after.value = .u64 other

theorem Revised.refl (item : Item) : Revised item item :=
  ⟨rfl, rfl, id, fun _ text => ⟨text, rfl⟩, fun number same => ⟨number, same⟩⟩

theorem Revised.trans {item between last : Item} (first : Revised item between)
    (second : Revised between last) : Revised item last where
  key := second.key.trans first.key
  optional := second.optional.trans first.optional
  deleted gone := second.deleted (first.deleted gone)
  text bytes text := by
    obtain ⟨same, version⟩ := first.text bytes text
    obtain ⟨same', version'⟩ := second.text bytes same
    exact ⟨same', version'.trans version⟩
  number number same := by
    obtain ⟨other, changed⟩ := first.number number same
    exact second.number other changed

/-- A revised item takes the same room. -/
theorem Revised.size {item after : Item} (revised : Revised item after) :
    after.size config = item.size config := by
  unfold Item.size Config.itemSize KeyValue.Layout.itemSize
  rw [revised.key, revised.optional]
  cases value : item.value with
  | bytes bytes => rw [(revised.text bytes value).1]
  | u64 number =>
    obtain ⟨other, same⟩ := revised.number number value
    rw [same]
    rfl

/-- Items that are revised, and others behind them. -/
inductive Extends : List Item → List Item → Prop
  | nil (added : List Item) : Extends [] added
  | cons {item item' : Item} {items after : List Item} (revised : Revised item item')
      (rest : Extends items after) : Extends (item :: items) (item' :: after)

theorem extends_append (items added : List Item) : Extends items (items ++ added) := by
  induction items with
  | nil => exact .nil added
  | cons item items ih => exact .cons (.refl item) ih

theorem Extends.refl (items : List Item) : Extends items items := by
  have appended := extends_append items []
  rwa [List.append_nil] at appended

theorem Extends.trans {items between last : List Item} (first : Extends items between)
    (second : Extends between last) : Extends items last := by
  induction first generalizing last with
  | nil => exact .nil last
  | cons revised rest ih =>
    cases second with
    | cons revised' rest' => exact .cons (revised.trans revised') (ih rest')

/-- **Items stay where they are.** -/
theorem Extends.layOut {items after : List Item} (extended : Extends items after) {start offset : Nat}
    {item : Item} (placed : (offset, item) ∈ Segment.layOut config start items) :
    ∃ item', (offset, item') ∈ Segment.layOut config start after ∧ Revised item item' := by
  induction extended generalizing start with
  | nil => cases placed
  | cons revised rest ih =>
    rw [Segment.layOut] at placed ⊢
    rcases List.mem_cons.mp placed with same | later
    · cases same
      exact ⟨_, List.mem_cons_self .., revised⟩
    · obtain ⟨item', there, revised'⟩ := ih later
      rw [revised.size]
      exact ⟨item', List.mem_cons_of_mem _ there, revised'⟩

/-- A change of the items at an offset is a revision if it revises them. -/
theorem extends_modifyItem {change : Item → Item} {target : Nat} (start : Nat) (items : List Item)
    (revises : ∀ item, (target, item) ∈ Segment.layOut config start items →
      Revised item (change item)) :
    Extends items (Segment.modifyItem config change target start items) := by
  induction items generalizing start with
  | nil => exact .nil _
  | cons item items ih =>
    rw [Segment.modifyItem]
    refine .cons ?_ (ih _ fun other placed => revises other (List.mem_cons_of_mem _ placed))
    split
    · rename_i here
      exact revises item (here ▸ List.mem_cons_self ..)
    · exact .refl item

/-- A segment of the same incarnation, with its items where they were. -/
structure Stays (segment after : Segment) : Prop where
  used : isUsed after.state = true
  generation : after.generation = segment.generation
  items : Extends segment.items after.items

/-- No readers come or go, and a used segment with readers stays. -/
structure Minds (segment after : Segment) : Prop where
  refCount : after.refCount = segment.refCount
  stays : 0 < segment.refCount → isUsed segment.state = true → Stays segment after

theorem Minds.refl (segment : Segment) : Minds segment segment :=
  ⟨rfl, fun _ used => ⟨used, rfl, .refl _⟩⟩

theorem Minds.trans {segment between last : Segment} (first : Minds segment between)
    (second : Minds between last) : Minds segment last := by
  refine ⟨second.refCount.trans first.refCount, fun read used => ?_⟩
  have stays := first.stays read used
  have stays' := second.stays (first.refCount ▸ read) stays.used
  exact ⟨stays'.used, stays'.generation.trans stays.generation, stays.items.trans stays'.items⟩

/-- A segment's header is written. -/
theorem minds_header {segment after : Segment} (state : after.state = segment.state)
    (generation : after.generation = segment.generation) (refCount : after.refCount = segment.refCount)
    (items : after.items = segment.items) : Minds segment after :=
  ⟨refCount, fun _ used => ⟨state ▸ used, generation, items ▸ .refl _⟩⟩

/-- An unread segment may be anything next. -/
theorem minds_unread {segment after : Segment} (unread : segment.refCount = 0)
    (refCount : after.refCount = segment.refCount) : Minds segment after :=
  ⟨refCount, fun read => absurd unread read.ne'⟩

/-! ### Caches -/

/-- Every segment minds its readers. -/
def Respects (cache after : Cache) : Prop := ∀ i, Minds (cache.segment i) (after.segment i)

instance : Std.Refl Respects where
  refl _ _ := .refl _

instance : IsTrans Cache Respects where
  trans _ _ _ first second i := (first i).trans (second i)

theorem Respects.unread (respects : Respects cache after) (unread : (cache.segment id).refCount = 0) :
    (after.segment id).refCount = 0 := (respects id).refCount.trans unread

theorem respects_of_same (segment : after.segment = cache.segment) : Respects cache after := by
  intro i
  rw [segment]
  exact .refl _

theorem respects_setSegment {segment : Segment} (minds : Minds (cache.segment id) segment) :
    Respects cache (cache.setSegment id segment) := by
  intro i
  by_cases same : i = id
  · subst same
    rwa [setSegment_self]
  · rw [setSegment_of_ne same]
    exact .refl _

/-! ### Accesses -/

theorem respects_segmentOf (id : SegId) : Relates Respects (segmentOf id) := .read _

theorem respects_modifySegment (id : SegId) {update : Segment → Segment}
    (minds : ∀ segment, Minds segment (update segment)) : Relates Respects (modifySegment id update) :=
  .change fun _ => respects_setSegment (minds _)

theorem respects_casMetadata (id : SegId) {expected new : State}
    (used : isUsed expected = true → isUsed new = true) (next prev : Option (Option SegId)) :
    Relates Respects (casMetadata id expected new next prev) := by
  refine .exchange fun cache => ?_
  dsimp only
  split
  · rename_i here
    exact respects_setSegment ⟨rfl, fun _ was => ⟨used (here ▸ was), rfl, .refl _⟩⟩
  · exact refl_of Respects cache

theorem respects_updateLinks (id : SegId) (next prev : Option (Option SegId)) :
    Relates Respects (updateLinks id next prev) :=
  respects_modifySegment id fun _ => minds_header rfl rfl rfl rfl

theorem respects_modifyBucket (b : Nat) (update : TtlBucket → TtlBucket) :
    Relates Respects (modifyBucket b update) :=
  .change fun _ => respects_of_same rfl

theorem respects_onTable {α : Type} (update : Table Location → α × Table Location) :
    Relates Respects (onTable update) :=
  .exchange fun _ => respects_of_same rfl

/-! ### Segments that nobody reads -/

theorem ensures_modifySegment_unread {update : Segment → Segment}
    (unread : (cache.segment id).refCount = 0)
    (refCount : ∀ segment, (update segment).refCount = segment.refCount) :
    Ensures (modifySegment id update) (fun _ after => Respects cache after) cache :=
  (ensures_change _).mpr (respects_setSegment (minds_unread unread (refCount _)))

theorem ensures_casMetadata_unread (expected new : State) (next prev : Option (Option SegId))
    (unread : (cache.segment id).refCount = 0) : Ensures (casMetadata id expected new next prev)
      (fun _ after => Respects cache after) cache := by
  refine (ensures_exchange _).mpr ?_
  dsimp only
  split
  · exact respects_setSegment (minds_unread unread rfl)
  · exact refl_of Respects cache

/-- A segment without readers is freed, and its next incarnation begins. -/
theorem ensures_release_unread (expected : State) (unread : (cache.segment id).refCount = 0) :
    Ensures (do
      if ← casMetadata id expected .free (some none) (some none) then
        modifySegment id fun segment => { segment with generation := segment.generation + 1 }
        return true
      return false) (fun _ after => Respects cache after) cache := by
  refine Ensures.seq (ensures_casMetadata_unread _ _ _ _ unread) fun released middle freed => ?_
  refine Ensures.ite (fun _ => ?_) fun _ => (ensures_pure _).mpr freed
  refine Ensures.seq (ensures_modifySegment_unread (freed.unread unread) fun _ => rfl)
    fun _ after renewed => (ensures_pure _).mpr (trans_of Respects freed renewed)

/-! ### Queues -/

theorem respects_tryReserve (id : SegId) : Relates Respects (tryReserve config id) := by
  refine ⟨fun cache => ?_⟩
  by_cases free : (cache.segment id).state = .free
  · refine (returns_of_eq (tryReserve_apply free) ?_).ensures
    refine respects_setSegment ⟨rfl, fun _ used => ?_⟩
    rw [free] at used
    cases used
  · have ran : tryReserve config id cache = some (false, cache) :=
      bind_apply_of_some (casMetadata_lost _ _ free)
    exact (returns_of_eq ran (refl_of Respects cache)).ensures

theorem respects_reserveFree : Relates Respects (reserveFree config) := by
  refine .bind (.exchange fun _ => respects_of_same rfl) fun id => ?_
  split
  · exact .pure _
  · refine .bind (respects_tryReserve _) fun taken => .ite (.pure _) ?_
    exact .bind (.change fun _ => respects_of_same rfl) fun _ => .pure _

theorem respects_reserveSpare : Relates Respects (reserveSpare config) := by
  refine .bind (.exchange fun _ => respects_of_same rfl) fun id => ?_
  split
  · exact respects_reserveFree
  · refine .bind (respects_tryReserve _) fun taken => .ite ?_ ?_
    · exact .bind (.change fun _ => respects_of_same rfl) fun _ => .pure _
    · exact .bind (.change fun _ => respects_of_same rfl) fun _ => .pure _

theorem respects_returnSegment (id : SegId) : Relates Respects (returnSegment config id) := by
  refine .bind (.read _) fun count => .ite (.change fun _ => respects_of_same rfl) ?_
  exact .bind (.change fun _ => respects_of_same rfl) fun _ => .change fun _ => respects_of_same rfl

theorem respects_releaseUnused (id : SegId) : Relates Respects (releaseUnused config id) := by
  refine .bind ?_ fun released => .bind (.assertThat _) fun _ => respects_returnSegment id
  refine .bind (respects_casMetadata _ (fun used => by cases used) ..) fun free => ?_
  exact .ite (.pure _) (respects_casMetadata _ (fun used => by cases used) ..)

/-! ### Chains -/

theorem respects_unlink (id : SegId) : Relates Respects (unlink id) := by
  refine .bind (respects_segmentOf id) fun segment => ?_
  dsimp only
  split
  · refine .bind (respects_segmentOf id) fun _ => .bind (respects_updateLinks ..) fun _ =>
      .bind (respects_segmentOf id) fun segment => ?_
    split
    · exact .bind (respects_segmentOf id) fun _ => respects_updateLinks ..
    · exact .pure _
  · refine .bind (respects_segmentOf id) fun segment => ?_
    split
    · exact .bind (respects_segmentOf id) fun _ => respects_updateLinks ..
    · exact .pure _

theorem respects_linkDestBefore (this member : SegId) (b : Nat) :
    Relates Respects (linkDestBefore this member b) := by
  have behind : Relates Respects (do
      updateLinks member none (some (some this))
      let _ ← casMetadata this .linking .relinking none none
      return ()) :=
    .bind (respects_updateLinks ..) fun _ =>
      .bind (respects_casMetadata _ (fun _ => rfl) ..) fun _ => .pure _
  refine .bind (.read _) fun segment =>
    .bind (respects_casMetadata _ (fun used => by cases used) ..) fun _ => ?_
  dsimp only
  split
  · exact .bind (respects_updateLinks ..) fun _ => behind
  · exact .bind (respects_modifyBucket ..) fun _ => behind

theorem respects_publishDestSealed (id : SegId) : Relates Respects (publishDestSealed id) :=
  .bind (respects_casMetadata _ (fun _ => rfl) ..) fun _ => .pure _

theorem respects_leavePool (id : SegId) : Relates Respects (leavePool id) := by
  have moved : Relates Respects (modifySegment id fun segment => { segment with pool := .main }) :=
    respects_modifySegment id fun _ => minds_header rfl rfl rfl rfl
  refine .bind (respects_segmentOf id) fun segment => ?_
  dsimp only
  exact .ite (.bind (.change fun _ => respects_of_same rfl) fun _ => moved) moved

theorem ensures_recycle_unread (unread : (cache.segment id).refCount = 0) :
    Ensures (recycle config id) (fun _ after => Respects cache after) cache := by
  refine Ensures.seq ((respects_unlink id).ensures cache) fun _ outside unlinked => ?_
  refine Ensures.seq ((respects_leavePool id).ensures outside) fun _ first moved => ?_
  have left : Respects cache first := trans_of Respects unlinked moved
  refine Ensures.seq (ensures_modifySegment_unread (left.unread unread) fun _ => rfl)
    fun _ second reset => ?_
  have before : Respects cache second := trans_of Respects left reset
  refine Ensures.seq (ensures_release_unread .draining (before.unread unread)) fun _ third freed => ?_
  exact ((respects_returnSegment id).ensures third).mono fun _ after returned =>
    trans_of Respects (trans_of Respects before freed) returned

theorem respects_condemn (id : SegId) (next prev : Option SegId) :
    Relates Respects (condemn config id next prev) := by
  have released : Relates Respects (do
      if (← segmentOf id).refCount = 0 then
        if ← tryReleaseCondemned id then
          modifySegment id (Segment.resetWriteStats config)
          returnSegment config id
          return ClearOutcome.freed
      return .deferred) := by
    refine ⟨fun cache => ?_⟩
    unfold segmentOf
    rw [ensures_bind, ensures_read]
    refine Ensures.ite (fun unread => ?_) fun _ => (ensures_pure _).mpr (refl_of Respects cache)
    refine Ensures.seq (ensures_release_unread .awaitingRelease unread) fun freed first released => ?_
    refine Ensures.ite (fun _ => ?_) fun _ => (ensures_pure _).mpr released
    refine Ensures.seq (ensures_modifySegment_unread (released.unread unread) fun _ => rfl)
      fun _ second reset => ?_
    refine Ensures.seq ((respects_returnSegment id).ensures second) fun _ third returned => ?_
    exact (ensures_pure _).mpr (trans_of Respects (trans_of Respects released reset) returned)
  refine .bind (respects_leavePool id) fun _ =>
    .bind (respects_casMetadata _ (fun _ => rfl) ..) fun _ => ?_
  dsimp only
  split
  all_goals
    first | refine .bind (respects_updateLinks ..) fun _ => ?_ | skip
    split
    · exact .bind (respects_updateLinks ..) fun _ => released
    · exact released

/-- **A drained segment is recycled only while nobody reads it.** -/
theorem respects_retire (id : SegId) (next prev : Option SegId) :
    Relates Respects (retire config id next prev) := by
  refine ⟨fun cache => ?_⟩
  unfold retire segmentOf
  rw [ensures_bind, ensures_read]
  refine Ensures.ite (fun unread => ?_) fun _ => (respects_condemn id next prev).ensures cache
  exact Ensures.seq (ensures_recycle_unread unread) fun _ _ respects => (ensures_pure _).mpr respects

/-! ### Emptying segments -/

theorem respects_removeItemAt (id : SegId) (offset : Nat) :
    Relates Respects (removeItemAt config id offset) := by
  refine .bind (respects_segmentOf id) fun segment => ?_
  split
  · exact .bind (respects_modifySegment id fun _ => minds_header rfl rfl rfl rfl) fun _ =>
      .bind (respects_segmentOf id) fun _ => .assertThat _
  · exact .diverge

theorem respects_clearItems (id : SegId) (placed : List (Nat × Item)) :
    Relates Respects (clearItems config id placed) := by
  induction placed with
  | nil => exact .pure _
  | cons first rest ih =>
    refine .bind (.read _) fun location => .bind (.read _) fun frequency => ?_
    dsimp only
    refine .ite (.bind (respects_onTable _) fun removed => ?_) ih
    exact .ite (.bind (respects_removeItemAt ..) fun _ => ih) ih

theorem respects_clear (id : SegId) : Relates Respects (clear config id) :=
  .bind (respects_segmentOf id) fun _ => .bind (respects_clearItems ..) fun _ =>
    respects_modifySegment id fun _ => minds_header rfl rfl rfl rfl

theorem respects_finalizeDrained (id : SegId) : Relates Respects (finalizeDrained config id) :=
  .bind (respects_segmentOf id) fun _ => .bind (respects_clear id) fun _ => respects_retire ..

theorem respects_claimForDrain (id : SegId) : Relates Respects (claimForDrain id) :=
  respects_casMetadata _ (fun _ => rfl) ..

theorem respects_clearSegment (id : SegId) : Relates Respects (clearSegment config id) :=
  .bind (respects_claimForDrain id) fun _ =>
    .ite (.bind (respects_finalizeDrained id) fun _ => .pure _) (.pure _)

theorem respects_lockSealedInBucket (id : SegId) : Relates Respects (lockSealedInBucket id) :=
  .bind (respects_segmentOf id) fun _ => .bind (.read _) fun _ => .pure _

theorem respects_patchEnds (b : Nat) (id : SegId) (next prev : Option SegId) :
    Relates Respects (patchEnds b id next prev) := by
  have tail : Relates Respects (do
      if (← .read fun cache => (cache.bucket b).tail) = some id then setTail b prev) :=
    .bind (.read _) fun _ => .ite (respects_modifyBucket ..) (.pure _)
  refine .bind (.read _) fun head => ?_
  dsimp only
  exact .ite (.bind (respects_modifyBucket ..) fun _ => tail) tail

theorem respects_drainChainFrom (b : Nat) (cutoff : Option Nat) (fuel : Nat) (id : Option SegId)
    (freed : Nat) : Relates Respects (drainChainFrom config b cutoff fuel id freed) := by
  induction fuel generalizing id freed with
  | zero =>
    cases id with
    | none => exact .pure _
    | some id => exact .diverge
  | succ fuel ih =>
    cases id with
    | none => exact .pure _
    | some id =>
      refine .bind (respects_segmentOf id) fun segment => .ite (.pure _) (.bind ?_ fun claimed =>
        .ite (.bind (respects_clear id) fun _ => .bind (respects_patchEnds ..) fun _ =>
          .bind (respects_retire ..) fun outcome => ?_) (ih ..))
      · refine .bind (respects_claimForDrain id) fun sealed_ => ?_
        exact .ite (.pure _) (respects_casMetadata _ (fun _ => rfl) ..)
      · split
        · exact ih ..
        · exact ih ..

theorem respects_drainBuckets (cutoff : Option Nat) (buckets : List Nat) :
    Relates Respects (drainBuckets config cutoff buckets) := by
  induction buckets with
  | nil => exact .pure _
  | cons b rest ih =>
    refine .bind (.bind (.read _) fun head => respects_drainChainFrom ..) fun freed => ?_
    exact .bind ih fun more => .pure _

theorem respects_expireBuckets : Relates Respects (expireBuckets config) :=
  .bind (.read _) fun _ => .bind (.exchange fun _ => respects_of_same rfl) fun _ =>
    .ite (.pure _) (respects_drainBuckets ..)

/-! ### Copying and pruning -/

/-- A copy is written behind the target's items. -/
theorem respects_relinkItem (source target : SegId) (offset : Nat) (item : Item) (relink : RelinkFreq) :
    Relates Respects (relinkItem config source target offset item relink) := by
  refine .bind (respects_segmentOf target) fun segment => .bind (.read _) fun old =>
    .bind (.read _) fun new => .bind (respects_onTable _) fun relinked => .ite ?_ (.pure _)
  refine .bind (respects_removeItemAt ..) fun _ => .bind ?_ fun _ => .pure _
  refine respects_modifySegment target fun segment => ⟨rfl, fun _ used => ⟨used, rfl, ?_⟩⟩
  exact extends_append ..

theorem respects_copyInto (source target : SegId) : Relates Respects (copyInto config source target) := by
  have items : ∀ placed, Relates Respects (copyItems config source target placed) := by
    intro placed
    induction placed with
    | nil => exact .pure _
    | cons first rest ih =>
      refine .bind (.read _) fun location => .bind (.read _) fun frequency =>
        .bind (.read _) fun segment => .ite ih (.bind (respects_relinkItem ..) fun relinked => ?_)
      exact .ite ih (.pure _)
  exact .bind (.read _) fun _ => items _

theorem respects_prune (id : SegId) (cutoff targetRatio : ℚ) :
    Relates Respects (prune config id cutoff targetRatio) := by
  have items : ∀ meanSize toDrop placed pruning,
      Relates Respects (pruneItems config id targetRatio meanSize toDrop placed pruning) := by
    intro meanSize toDrop placed
    induction placed with
    | nil => exact fun _ => .pure _
    | cons first rest ih =>
      refine fun pruning => .bind (.read _) fun location => .bind (.read _) fun frequency =>
        .ite (ih _) ?_
      refine .ite (.bind (respects_onTable _) fun removed => ?_) (ih _)
      exact .ite (.bind (respects_removeItemAt ..) fun _ => ih _) (ih _)
  exact .bind (respects_segmentOf id) fun _ => items ..

theorem respects_s3fifoPromoteFrom (source target : SegId) (relink : RelinkFreq) :
    Relates Respects (s3fifoPromoteFrom config source target relink) := by
  have items : ∀ placed, Relates Respects (promoteItems config source target relink placed) := by
    intro placed
    induction placed with
    | nil => exact .pure _
    | cons first rest ih =>
      refine .bind (.read _) fun location => .bind (.read _) fun frequency => .ite ih ?_
      refine .bind (.read _) fun segment => ?_
      dsimp only
      exact .ite (.bind (respects_relinkItem ..) fun _ => ih) ih
  exact .bind (.read _) fun _ => items _

theorem respects_s3fifoGhostRemaining (id : SegId) :
    Relates Respects (s3fifoGhostRemaining config id) := by
  have all : ∀ hashes, Relates Respects (ghostInsertAll hashes) := by
    intro hashes
    induction hashes with
    | nil => exact .pure _
    | cons hash rest ih => exact .bind (.change fun _ => respects_of_same rfl) fun _ => ih
  exact .bind (.read _) fun hashes => all hashes

/-! ### Merges -/

theorem respects_inheritCreated (dest source : SegId) : Relates Respects (inheritCreated dest source) :=
  .bind (.read _) fun _ => respects_modifySegment dest fun _ => minds_header rfl rfl rfl rfl

theorem respects_configureSpare (spare start : SegId) : Relates Respects (configureSpare spare start) :=
  .bind (.read _) fun _ => .bind (.read _) fun _ =>
    respects_modifySegment spare fun _ => minds_header rfl rfl rfl rfl

theorem respects_beginMerge (start spare : SegId) (b : Nat) :
    Relates Respects (beginMerge config start spare b) := by
  have refused : Relates Respects (do
      releaseUnused config spare
      return false) := .bind (respects_releaseUnused spare) fun _ => .pure _
  refine .bind (.read _) fun isMember => .ite refused ?_
  refine .bind (.read _) fun segment => .ite refused ?_
  refine .bind (respects_claimForDrain start) fun claimed => .ite refused ?_
  refine .bind (respects_configureSpare ..) fun _ => .bind (respects_inheritCreated ..) fun _ => ?_
  exact .bind (respects_linkDestBefore ..) fun _ => .pure _

theorem respects_claimCandidate (start candidate : SegId) :
    Relates Respects (claimCandidate start candidate) :=
  .ite (.pure _) (.bind (.read _) fun _ => .ite (.pure _) (respects_claimForDrain candidate))

theorem respects_mergeEvictFrom (start spare : SegId) (targetRatio : ℚ) (fuel : Nat) (cutoff : ℚ)
    (candidate : Option SegId) :
    Relates Respects (mergeEvictFrom config start spare targetRatio fuel cutoff candidate) := by
  induction fuel generalizing cutoff candidate with
  | zero => cases candidate <;> exact .pure _
  | succ fuel ih =>
    cases candidate with
    | none => exact .pure _
    | some candidate =>
      refine .bind (.read _) fun segment => .ite (.pure _) ?_
      refine .bind (respects_claimCandidate ..) fun claimed => .ite (.pure _) ?_
      refine .bind (.read _) fun segment => .bind (respects_prune ..) fun cutoff => ?_
      refine .bind (respects_copyInto ..) fun _ => .bind (respects_finalizeDrained _) fun _ => ?_
      exact ih ..

theorem respects_mergeEvictFallbackDrop (start : SegId) (b : Nat) :
    Relates Respects (mergeEvictFallbackDrop config start b) := by
  refine .bind (.read _) fun isMember => .ite (.pure _) ?_
  refine .bind (.read _) fun segment => .bind (respects_clearSegment start) fun outcome => ?_
  split
  · exact .ite (.bind (respects_modifyBucket ..) fun _ => .pure _) (.pure _)
  · exact .pure _

theorem respects_mergeEvict (start : SegId) (b : Nat) : Relates Respects (mergeEvict config start b) := by
  refine .bind (.read _) fun chainLen => .ite (.pure _) ?_
  refine .bind respects_reserveSpare fun spare => ?_
  split
  · exact respects_mergeEvictFallbackDrop ..
  · refine .bind (respects_beginMerge ..) fun begun => .ite (.pure _) ?_
    refine .bind (respects_mergeEvictFrom ..) fun next => ?_
    exact .bind (respects_publishDestSealed _) fun _ => .pure _

theorem respects_mergeCompactFrom (start spare : SegId) (fuel : Nat) (candidate : Option SegId) :
    Relates Respects (mergeCompactFrom config start spare fuel candidate) := by
  induction fuel generalizing candidate with
  | zero => cases candidate <;> exact .pure _
  | succ fuel ih =>
    cases candidate with
    | none => exact .pure _
    | some candidate =>
      refine .bind (.read _) fun segment => .ite (.pure _) ?_
      refine .bind (.read _) fun spare_ => .bind (.read _) fun segment => .ite (.pure _) ?_
      refine .bind (respects_claimCandidate ..) fun claimed => .ite (.pure _) ?_
      refine .bind (.read _) fun segment => .bind (respects_copyInto ..) fun _ => ?_
      exact .bind (respects_finalizeDrained _) fun _ => ih _

theorem respects_mergeCompact (start : SegId) (b : Nat) :
    Relates Respects (mergeCompact config start b) := by
  refine .bind (.read _) fun chainLen => .ite (.pure _) ?_
  refine .bind (.read _) fun segment => .ite (.pure _) ?_
  refine .bind respects_reserveSpare fun spare => ?_
  split
  · exact .pure _
  · refine .bind (respects_beginMerge ..) fun begun => .ite (.pure _) ?_
    refine .bind (respects_mergeCompactFrom ..) fun next => ?_
    exact .bind (respects_publishDestSealed _) fun _ => .pure _

/-! ### S3-FIFO -/

theorem respects_promoteToTarget (id : SegId) (b : Nat) (relink : RelinkFreq) :
    Relates Respects (promoteToTarget config id b relink) := by
  refine .bind (.read _) fun segment => .bind respects_reserveFree fun target => ?_
  split
  · exact .pure _
  · refine .bind (respects_modifySegment _ fun _ => minds_header rfl rfl rfl rfl) fun _ => ?_
    refine .bind (respects_inheritCreated ..) fun _ => .bind (respects_linkDestBefore ..) fun _ => ?_
    refine .bind (respects_s3fifoPromoteFrom ..) fun _ => ?_
    exact .bind (respects_publishDestSealed _) fun _ => .pure _

theorem respects_finishEviction (id : SegId) (b : Nat) :
    Relates Respects (finishEviction config id b) := by
  refine .bind (.read _) fun segment => .bind (respects_finalizeDrained id) fun outcome => ?_
  refine .ite (.bind (respects_modifyBucket ..) fun _ => ?_) ?_
  all_goals cases outcome <;> exact .pure _

theorem respects_s3fifoEvictAdmission (id : SegId) :
    Relates Respects (s3fifoEvictAdmission config id) := by
  refine .bind (respects_lockSealedInBucket id) fun bucket => ?_
  split
  · exact .pure _
  · refine .bind (respects_claimForDrain id) fun claimed => .ite (.pure _) ?_
    refine .bind (respects_promoteToTarget ..) fun _ => ?_
    exact .bind (respects_s3fifoGhostRemaining id) fun _ => respects_finishEviction ..

theorem respects_s3fifoEvictMain (id : SegId) : Relates Respects (s3fifoEvictMain config id) := by
  refine .bind (respects_lockSealedInBucket id) fun bucket => ?_
  split
  · exact .pure _
  · refine .bind (respects_claimForDrain id) fun claimed => .ite (.pure _) ?_
    exact .bind (respects_promoteToTarget ..) fun _ => respects_finishEviction ..

/-! ### Evictions -/

theorem respects_drawRandom : Relates Respects (drawRandom config) :=
  .exchange fun _ => respects_of_same rfl

theorem respects_rankedVictim (fuel : Nat) : Relates Respects (rankedVictim fuel) := by
  induction fuel with
  | zero => exact .diverge
  | succ fuel ih =>
    refine .bind (.exchange fun _ => respects_of_same rfl) fun id => ?_
    split
    · exact .pure _
    · exact .bind (.read _) fun segment => .ite (.pure _) ih

theorem respects_shouldRerank : Relates Respects shouldRerank := by
  refine .exchange fun cache => ?_
  dsimp only
  split
  · exact respects_of_same rfl
  · exact refl_of Respects cache

theorem respects_leastValuableSeg : Relates Respects (leastValuableSeg config) := by
  have ranked : Relates Respects (do
      if ← shouldRerank then rerank config
      rankedVictim (config.cap + 1)) := by
    refine .bind respects_shouldRerank fun due => .ite ?_ (respects_rankedVictim _)
    exact .bind (.change fun _ => respects_of_same rfl) fun _ => respects_rankedVictim _
  unfold leastValuableSeg
  split
  · exact .bind respects_drawRandom fun _ => .read _
  · exact .bind respects_drawRandom fun _ => .read _
  · exact ranked
  · exact ranked
  · exact ranked
  · exact .pure _

theorem respects_findOldestSegInPool (pool : SegmentPool) :
    Relates Respects (findOldestSegInPool config pool) := by
  refine ⟨fun cache best after ran => ?_⟩
  obtain ⟨found, -, same⟩ := Option.map_eq_some_iff.mp ran
  cases same
  exact refl_of Respects cache

theorem respects_s3fifoEvict : Relates Respects (s3fifoEvict config) := by
  refine .bind (respects_findOldestSegInPool _) fun first => ?_
  split
  · exact respects_s3fifoEvictAdmission _
  · refine .bind (respects_findOldestSegInPool _) fun second => ?_
    split
    · exact respects_s3fifoEvictMain _
    · exact .pure _

theorem respects_mergeBuckets (buckets : List Nat) : Relates Respects (mergeBuckets config buckets) := by
  induction buckets with
  | nil => exact .pure _
  | cons b rest ih =>
    refine .bind (.read _) fun head => ?_
    split
    · exact ih
    · refine .bind (.read _) fun _ => .bind (respects_mergeEvict ..) fun merged => ?_
      split
      · exact .bind (respects_modifyBucket ..) fun _ => .pure _
      · exact .bind (respects_modifyBucket ..) fun _ => ih

theorem respects_evictOne : Relates Respects (evictOne config) := by
  refine .bind respects_leastValuableSeg fun victim => ?_
  split
  · exact .pure _
  · refine .bind (respects_lockSealedInBucket _) fun bucket => ?_
    split
    · exact .pure _
    · refine .bind (.read _) fun segment => .bind (respects_clearSegment _) fun outcome => ?_
      split
      · exact .pure _
      · refine .ite (.bind (respects_modifyBucket ..) fun _ => ?_) ?_
        all_goals
          dsimp only
          split
          · exact .pure _
          · exact .pure _

/-- **An eviction respects readers**, whatever the policy. -/
theorem respects_evict : Relates Respects (evict config) := by
  refine .bind respects_expireBuckets fun freed => .ite (.pure _) ?_
  split
  · refine .bind respects_drawRandom fun _ => .bind (.read _) fun _ => ?_
    exact respects_mergeBuckets _
  · exact respects_s3fifoEvict
  · exact .pure _
  · exact respects_evictOne

end CacheRs.Segcache
