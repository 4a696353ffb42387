/-
**What leaves the segments' dates alone.**

A segment's creation time and TTL are set when it is taken from a queue and when a merge or a
promotion prepares it as a destination. Everything else leaves them alone, and apart from a
publication and the relinking of copies no entry of the table gets another location.

* `SameDates`: the creation times, the TTLs and the clock are the same;
* `Thins`: and entries are lost at most;
* `thins_clearSegment`, `thins_drainBuckets`, `thins_prune` and the like: **what only thins**, read off
  the procedures' text;
* `Opens`: and so does, apart from one segment, what takes that from a queue and links it;
* `Hastens`: every entry's segment falls due no later than the one it named, and expiry has been looked
  for no earlier;
* `copies_copyInto`, `copies_s3fifoPromoteFrom`: **copies to a segment that is not younger hasten**.
-/

import CacheRs.Segcache.Consistent
import CacheRs.Sequential.Relations

namespace CacheRs.Segcache

open Hashtable (RelinkFreq)
open Segments (SegId State)
open Sequential Procedure

variable {config : Config} {cache middle after : Cache} {id : SegId}

/-! ### The relations -/

/-- The creation times, the TTLs and the clocks are the same, and no segment comes into service. -/
structure SameDates (cache after : Cache) : Prop where
  createAt : ∀ i, (after.segment i).createAt = (cache.segment i).createAt
  ttl : ∀ i, (after.segment i).ttl = (cache.segment i).ttl
  now : after.now = cache.now
  lastExpired : after.lastExpired = cache.lastExpired
  laid : ∀ i, isLaid (after.segment i).state = true → isLaid (cache.segment i).state = true

theorem SameDates.refl (cache : Cache) : SameDates cache cache :=
  ⟨fun _ => rfl, fun _ => rfl, rfl, rfl, fun _ => id⟩

theorem SameDates.trans (first : SameDates cache middle) (second : SameDates middle after) :
    SameDates cache after where
  createAt i := (second.createAt i).trans (first.createAt i)
  ttl i := (second.ttl i).trans (first.ttl i)
  now := second.now.trans first.now
  lastExpired := second.lastExpired.trans first.lastExpired
  laid i laid := first.laid i (second.laid i laid)

/-- The dates are the same, and entries are lost at most. -/
structure Thins (cache after : Cache) : Prop extends SameDates cache after where
  entries : ∀ b i entry, after.table.slot b i = some entry → cache.table.slot b i = some entry

instance : Std.Refl Thins where
  refl cache := ⟨.refl cache, fun _ _ _ slot => slot⟩

instance : IsTrans Cache Thins where
  trans _ _ _ first second :=
    ⟨first.toSameDates.trans second.toSameDates, fun b i entry slot =>
      first.entries b i entry (second.entries b i entry slot)⟩

/-- The table, the segments and the clocks are the same. -/
theorem thins_of_same (slots : after.table.slot = cache.table.slot)
    (segment : after.segment = cache.segment) (now : after.now = cache.now)
    (lastExpired : after.lastExpired = cache.lastExpired) : Thins cache after where
  createAt i := by rw [segment]
  ttl i := by rw [segment]
  now := now
  lastExpired := lastExpired
  laid i := by rw [segment]; exact id
  entries _ _ _ slot := slots ▸ slot

/-- A slot is emptied. -/
theorem thins_emptied (ref : Nat × Nat) :
    Thins cache { cache with table := cache.table.setSlot ref none } where
  toSameDates := ⟨fun _ => rfl, fun _ => rfl, rfl, rfl, fun _ => id⟩
  entries b i entry slot := by
    obtain ⟨bucket, index⟩ := ref
    simp only [Table.setSlot, Function.update_apply] at slot
    split at slot
    · rename_i sameBucket
      subst sameBucket
      rw [Function.update_apply] at slot
      split at slot
      · cases slot
      · exact slot
    · exact slot

theorem thins_setSegment {segment : Segment} (createAt : segment.createAt = (cache.segment id).createAt)
    (ttl : segment.ttl = (cache.segment id).ttl)
    (laid : isLaid segment.state = true → isLaid (cache.segment id).state = true) :
    Thins cache (cache.setSegment id segment) := by
  have here : ∀ i, (cache.setSegment id segment).segment i =
      if i = id then segment else cache.segment i := Function.update_apply _ _ _
  refine ⟨⟨fun i => ?_, fun i => ?_, rfl, rfl, fun i => ?_⟩, fun _ _ _ slot => slot⟩
  all_goals
    rw [here]
    split
    · subst_vars
      assumption
    · first | rfl | exact fun isLaid => isLaid

/-! ### Accesses -/

theorem thins_segmentOf (id : SegId) : Relates Thins (segmentOf id) := .read _

theorem thins_modifySegment (id : SegId) {update : Segment → Segment}
    (createAt : ∀ segment, (update segment).createAt = segment.createAt)
    (ttl : ∀ segment, (update segment).ttl = segment.ttl)
    (state : ∀ segment, (update segment).state = segment.state) :
    Relates Thins (modifySegment id update) :=
  .change fun _ => thins_setSegment (createAt _) (ttl _) fun laid => by rwa [state] at laid

theorem thins_casMetadata (id : SegId) {expected new : State}
    (laid : isLaid new = true → isLaid expected = true) (next prev : Option (Option SegId)) :
    Relates Thins (casMetadata id expected new next prev) := by
  refine .exchange fun cache => ?_
  dsimp only
  split
  · rename_i here
    exact thins_setSegment rfl rfl fun isLaid => here ▸ laid isLaid
  · exact refl_of Thins cache

theorem thins_updateLinks (id : SegId) (next prev : Option (Option SegId)) :
    Relates Thins (updateLinks id next prev) := thins_modifySegment id (fun _ => rfl) (fun _ => rfl) fun _ => rfl

theorem thins_modifyBucket (b : Nat) (update : TtlBucket → TtlBucket) :
    Relates Thins (modifyBucket b update) :=
  .change fun _ => thins_of_same rfl rfl rfl rfl

/-- A removal empties a slot at most. -/
theorem thins_remove (key : Key) (location : Location) :
    Relates Thins (onTable fun table => table.remove config.geometry key location) := by
  refine .exchange fun cache => ?_
  dsimp only
  unfold Table.remove
  split
  · exact thins_emptied _
  · exact refl_of Thins cache

/-! ### Queues and chains -/

theorem thins_pushFreed (id : SegId) : Relates Thins (pushFreed id) :=
  .change fun _ => thins_of_same rfl rfl rfl rfl

theorem thins_pushSpare (id : SegId) : Relates Thins (pushSpare id) :=
  .change fun _ => thins_of_same rfl rfl rfl rfl

theorem thins_returnSegment (id : SegId) : Relates Thins (returnSegment config id) := by
  refine .bind (.read _) fun count => .ite (thins_pushFreed id) ?_
  refine .bind (.change fun _ => ?_) fun _ => thins_pushSpare id
  exact thins_of_same rfl rfl rfl rfl

theorem thins_releaseUnused (id : SegId) : Relates Thins (releaseUnused config id) := by
  refine .bind ?_ fun released => .bind (.assertThat _) fun _ => thins_returnSegment id
  refine .bind (thins_casMetadata _ (by decide) ..) fun free => ?_
  exact .ite (.pure _) (thins_casMetadata _ (by decide) ..)

theorem thins_unlink (id : SegId) : Relates Thins (unlink id) := by
  refine .bind (thins_segmentOf id) fun segment => ?_
  dsimp only
  split
  · refine .bind (thins_segmentOf id) fun _ => .bind (thins_updateLinks ..) fun _ =>
      .bind (thins_segmentOf id) fun segment => ?_
    split
    · exact .bind (thins_segmentOf id) fun _ => thins_updateLinks ..
    · exact .pure _
  · refine .bind (thins_segmentOf id) fun segment => ?_
    split
    · exact .bind (thins_segmentOf id) fun _ => thins_updateLinks ..
    · exact .pure _

theorem thins_publishDestSealed (id : SegId) : Relates Thins (publishDestSealed id) :=
  .bind (thins_casMetadata _ (by decide) ..) fun _ => .pure _

theorem thins_leavePool (id : SegId) : Relates Thins (leavePool id) := by
  have moved : Relates Thins (modifySegment id fun segment => { segment with pool := .main }) :=
    thins_modifySegment id (fun _ => rfl) (fun _ => rfl) fun _ => rfl
  refine .bind (thins_segmentOf id) fun segment => ?_
  dsimp only
  refine .ite (.bind (.change fun _ => ?_) fun _ => moved) moved
  exact thins_of_same rfl rfl rfl rfl

theorem thins_reset (id : SegId) :
    Relates Thins (modifySegment id (Segment.resetWriteStats config)) :=
  thins_modifySegment id (fun _ => rfl) (fun _ => rfl) fun _ => rfl

/-- A segment whose state moves to free begins a new generation. -/
theorem thins_release (id : SegId) (expected : State) : Relates Thins (do
    if ← casMetadata id expected .free (some none) (some none) then
      modifySegment id fun segment => { segment with generation := segment.generation + 1 }
      return true
    return false) := by
  refine .bind (thins_casMetadata id (fun laid => by cases laid) ..) fun released => ?_
  exact .ite (.bind (thins_modifySegment id (fun _ => rfl) (fun _ => rfl) fun _ => rfl) fun _ => .pure _) (.pure _)

theorem thins_recycle (id : SegId) : Relates Thins (recycle config id) :=
  .bind (thins_unlink id) fun _ => .bind (thins_leavePool id) fun _ => .bind (thins_reset id) fun _ =>
    .bind (thins_release id _) fun _ => thins_returnSegment id

theorem thins_condemn (id : SegId) (next prev : Option SegId) :
    Relates Thins (condemn config id next prev) := by
  have released : Relates Thins (do
      if (← segmentOf id).refCount = 0 then
        if ← tryReleaseCondemned id then
          modifySegment id (Segment.resetWriteStats config)
          returnSegment config id
          return ClearOutcome.freed
      return .deferred) := by
    refine .bind (thins_segmentOf id) fun segment => .ite ?_ (.pure _)
    refine .bind (thins_release id _) fun released => .ite ?_ (.pure _)
    exact .bind (thins_reset id) fun _ => .bind (thins_returnSegment id) fun _ => .pure _
  refine .bind (thins_leavePool id) fun _ => .bind (thins_casMetadata _ (by decide) ..) fun _ => ?_
  dsimp only
  split
  all_goals
    first | refine .bind (thins_updateLinks ..) fun _ => ?_ | skip
    split
    · exact .bind (thins_updateLinks ..) fun _ => released
    · exact released

/-! ### Emptying segments -/

theorem thins_removeItemAt (id : SegId) (offset : Nat) : Relates Thins (removeItemAt config id offset) := by
  refine .bind (thins_segmentOf id) fun segment => ?_
  split
  · exact .bind (thins_modifySegment id (fun _ => rfl) (fun _ => rfl) fun _ => rfl) fun _ =>
      .bind (thins_segmentOf id) fun _ => .assertThat _
  · exact .diverge

theorem thins_clearItems (id : SegId) (placed : List (Nat × Item)) :
    Relates Thins (clearItems config id placed) := by
  induction placed with
  | nil => exact .pure _
  | cons first rest ih =>
    refine .bind (.read _) fun location => .bind (.read _) fun frequency => ?_
    dsimp only
    refine .ite (.bind (thins_remove ..) fun removed => ?_) ih
    exact .ite (.bind (thins_removeItemAt ..) fun _ => ih) ih

theorem thins_clear (id : SegId) : Relates Thins (clear config id) :=
  .bind (thins_segmentOf id) fun _ => .bind (thins_clearItems ..) fun _ =>
    thins_modifySegment id (fun _ => rfl) (fun _ => rfl) fun _ => rfl

theorem thins_retire (id : SegId) (next prev : Option SegId) :
    Relates Thins (retire config id next prev) :=
  .bind (thins_segmentOf id) fun _ =>
    .ite (.bind (thins_recycle id) fun _ => .pure _) (thins_condemn ..)

theorem thins_finalizeDrained (id : SegId) : Relates Thins (finalizeDrained config id) :=
  .bind (thins_segmentOf id) fun _ => .bind (thins_clear id) fun _ => thins_retire ..

theorem thins_claimForDrain (id : SegId) : Relates Thins (claimForDrain id) := thins_casMetadata _ (by decide) ..

theorem thins_clearSegment (id : SegId) : Relates Thins (clearSegment config id) :=
  .bind (thins_claimForDrain id) fun _ =>
    .ite (.bind (thins_finalizeDrained id) fun _ => .pure _) (.pure _)

theorem thins_drainChainFrom (b : Nat) (cutoff : Option Nat) (fuel : Nat) (id : Option SegId)
    (freed : Nat) : Relates Thins (drainChainFrom config b cutoff fuel id freed) := by
  induction fuel generalizing id freed with
  | zero =>
    cases id with
    | none => exact .pure _
    | some id => exact .diverge
  | succ fuel ih =>
    cases id with
    | none => exact .pure _
    | some id =>
      refine .bind (thins_segmentOf id) fun segment => .ite (.pure _) (.bind ?_ fun claimed =>
        .ite (.bind (thins_clear id) fun _ => .bind ?_ fun _ => .bind (thins_retire ..)
          fun outcome => ?_) (ih ..))
      · refine .bind (thins_casMetadata _ (by decide) ..) fun sealed_ => ?_
        exact .ite (.pure _) (thins_casMetadata _ (by decide) ..)
      · refine .bind (.read _) fun head => ?_
        dsimp only
        have tail : Relates Thins (do
            if (← .read fun cache => (cache.bucket b).tail) = some id then setTail b segment.prev) :=
          .bind (.read _) fun _ => .ite (thins_modifyBucket ..) (.pure _)
        exact .ite (.bind (thins_modifyBucket ..) fun _ => tail) tail
      · split
        · exact ih ..
        · exact ih ..

theorem thins_drainBuckets (cutoff : Option Nat) (buckets : List Nat) :
    Relates Thins (drainBuckets config cutoff buckets) := by
  induction buckets with
  | nil => exact .pure _
  | cons b rest ih =>
    refine .bind (.bind (.read _) fun head => thins_drainChainFrom ..) fun freed => ?_
    exact .bind ih fun more => .pure _

/-- A sweep that is due also sets the time of the last one. -/
theorem ensures_expireBuckets_thins (cache : Cache) : Ensures (expireBuckets config)
    (fun _ after => Thins { cache with lastExpired := cache.now } after) cache := by
  unfold expireBuckets
  rw [ensures_bind, ensures_read, ensures_bind, ensures_exchange]
  refine Ensures.ite (fun _ => (ensures_pure _).mpr (refl_of Thins _)) fun _ => ?_
  exact (thins_drainBuckets _ _).ensures _

/-! ### Taking a segment -/

/-- Apart from one segment the dates are the same, no segment comes into service, and entries are lost
at most. -/
structure Opens (id : SegId) (cache after : Cache) : Prop where
  createAt : ∀ i, i ≠ id → (after.segment i).createAt = (cache.segment i).createAt
  ttl : ∀ i, i ≠ id → (after.segment i).ttl = (cache.segment i).ttl
  now : after.now = cache.now
  lastExpired : after.lastExpired = cache.lastExpired
  laid : ∀ i, i ≠ id → isLaid (after.segment i).state = true →
    isLaid (cache.segment i).state = true
  entries : ∀ b i entry, after.table.slot b i = some entry → cache.table.slot b i = some entry

theorem Thins.opens (thins : Thins cache after) : Opens id cache after where
  createAt i _ := thins.createAt i
  ttl i _ := thins.ttl i
  now := thins.now
  lastExpired := thins.lastExpired
  laid i _ := thins.laid i
  entries := thins.entries

instance (id : SegId) : Std.Refl (Opens id) where
  refl cache := (refl_of Thins cache).opens

instance (id : SegId) : IsTrans Cache (Opens id) where
  trans cache middle after first second := by
    refine ⟨fun i apart => (second.createAt i apart).trans (first.createAt i apart),
      fun i apart => (second.ttl i apart).trans (first.ttl i apart), second.now.trans first.now,
      second.lastExpired.trans first.lastExpired,
      fun i apart laid => first.laid i apart (second.laid i apart laid), fun b i entry slot => ?_⟩
    exact first.entries b i entry (second.entries b i entry slot)

/-- Whatever happens to the segment itself. -/
theorem opens_setSegment (segment : Segment) : Opens id cache (cache.setSegment id segment) := by
  have others : ∀ i, i ≠ id → (cache.setSegment id segment).segment i = cache.segment i :=
    fun i apart => Function.update_of_ne apart _ _
  refine ⟨fun i apart => ?_, fun i apart => ?_, rfl, rfl, fun i apart => ?_,
    fun _ _ _ slot => slot⟩
  all_goals rw [others i apart]
  exact fun laid => laid

theorem opens_modifySegment (id : SegId) (update : Segment → Segment) :
    Relates (Opens id) (modifySegment id update) := .change fun _ => opens_setSegment _

theorem opens_casMetadata (id : SegId) (expected new : State) (next prev : Option (Option SegId)) :
    Relates (Opens id) (casMetadata id expected new next prev) := by
  refine .exchange fun cache => ?_
  dsimp only
  split
  · exact opens_setSegment _
  · exact refl_of (Opens id) cache

theorem opens_inheritCreated (dest source : SegId) :
    Relates (Opens dest) (inheritCreated dest source) :=
  .bind (.read _) fun _ => opens_modifySegment ..

theorem opens_configureSpare (spare start : SegId) :
    Relates (Opens spare) (configureSpare spare start) :=
  .bind (.read _) fun _ => .bind (.read _) fun _ => opens_modifySegment ..

theorem opens_linkDestBefore (this member : SegId) (b : Nat) :
    Relates (Opens this) (linkDestBefore this member b) := by
  have links : ∀ i next prev, Relates (Opens this) (updateLinks i next prev) :=
    fun i next prev => (thins_updateLinks i next prev).mono fun _ _ => Thins.opens
  have behind : Relates (Opens this) (do
      updateLinks member none (some (some this))
      let _ ← casMetadata this .linking .relinking none none
      return ()) :=
    .bind (links ..) fun _ => .bind (opens_casMetadata ..) fun _ => .pure _
  refine .bind (.read _) fun segment => .bind (opens_casMetadata ..) fun _ => ?_
  dsimp only
  split
  · exact .bind (links ..) fun _ => behind
  · exact .bind ((thins_modifyBucket ..).mono fun _ _ => Thins.opens) fun _ => behind

/-- Creation times and TTLs are the same. -/
def SameTimes (cache after : Cache) : Prop :=
  ∀ i, (after.segment i).createAt = (cache.segment i).createAt ∧
    (after.segment i).ttl = (cache.segment i).ttl

instance : Std.Refl SameTimes where
  refl _ _ := ⟨rfl, rfl⟩

instance : IsTrans Cache SameTimes where
  trans _ _ _ first second i := ⟨(second i).1.trans (first i).1, (second i).2.trans (first i).2⟩

theorem Thins.sameTimes (thins : Thins cache after) : SameTimes cache after :=
  fun i => ⟨thins.createAt i, thins.ttl i⟩

theorem sameTimes_casMetadata (id : SegId) (expected new : State) (next prev : Option (Option SegId)) :
    Relates SameTimes (casMetadata id expected new next prev) := by
  refine .exchange fun cache => ?_
  dsimp only
  split
  · intro i
    simp only [Cache.setSegment, Function.update_apply]
    split
    · subst_vars
      exact ⟨rfl, rfl⟩
    · exact ⟨rfl, rfl⟩
  · exact refl_of SameTimes cache

theorem sameTimes_linkDestBefore (this member : SegId) (b : Nat) :
    Relates SameTimes (linkDestBefore this member b) := by
  have links : ∀ i next prev, Relates SameTimes (updateLinks i next prev) :=
    fun i next prev => (thins_updateLinks i next prev).mono fun _ _ => Thins.sameTimes
  have behind : Relates SameTimes (do
      updateLinks member none (some (some this))
      let _ ← casMetadata this .linking .relinking none none
      return ()) :=
    .bind (links ..) fun _ => .bind (sameTimes_casMetadata ..) fun _ => .pure _
  refine .bind (.read _) fun segment => .bind (sameTimes_casMetadata ..) fun _ => ?_
  dsimp only
  split
  · exact .bind (links ..) fun _ => behind
  · exact .bind ((thins_modifyBucket ..).mono fun _ _ => Thins.sameTimes) fun _ => behind

theorem opens_linkTail (b : Nat) (observed : Option SegId) (id : SegId) :
    Relates (Opens id) (linkTail b observed id) := by
  have ends : ∀ update, Relates (Opens id) (modifyBucket b update) :=
    fun update => (thins_modifyBucket b update).mono fun _ _ => Thins.opens
  unfold linkTail
  split
  · rename_i tail
    have seals : Relates (Opens id) (casMetadata tail .live .sealed (some (some id)) none) :=
      (thins_casMetadata _ (by decide) ..).mono fun _ _ => Thins.opens
    refine .bind seals fun sealed_ => .ite ?_ (.pure _)
    exact .bind (opens_casMetadata ..) fun _ => .bind (ends _) fun _ => .pure _
  · refine .bind (.read _) fun tail => .ite ?_ (.pure _)
    exact .bind (ends _) fun _ => .bind (opens_casMetadata ..) fun _ => .bind (ends _) fun _ => .pure _

/-! ### Pruning and copying -/

theorem thins_pruneItems (id : SegId) (targetRatio meanSize : ℚ) (toDrop : Int)
    (placed : List (Nat × Item)) (pruning : Pruning) :
    Relates Thins (pruneItems config id targetRatio meanSize toDrop placed pruning) := by
  induction placed generalizing pruning with
  | nil => exact .pure _
  | cons first rest ih =>
    refine .bind (.read _) fun location => .bind (.read _) fun frequency => .ite (ih _) ?_
    refine .ite (.bind (thins_remove ..) fun removed => ?_) (ih _)
    exact .ite (.bind (thins_removeItemAt ..) fun _ => ih _) (ih _)

theorem thins_prune (id : SegId) (cutoff targetRatio : ℚ) :
    Relates Thins (prune config id cutoff targetRatio) :=
  .bind (thins_segmentOf id) fun _ => thins_pruneItems ..

/-- The second segment has the TTL of the first, and falls due no later. -/
structure NoLater (before after : Segment) : Prop where
  ttl : after.ttl = before.ttl
  createAt : after.createAt ≤ before.createAt

theorem NoLater.refl (segment : Segment) : NoLater segment segment := ⟨rfl, le_rfl⟩

theorem NoLater.trans {first second third : Segment} (one : NoLater first second)
    (other : NoLater second third) : NoLater first third :=
  ⟨other.ttl.trans one.ttl, other.createAt.trans one.createAt⟩

/-- Every entry's segment falls due no later than the one it named, and expiry has been looked for no
earlier. -/
structure Hastens (cache after : Cache) : Prop where
  entries : ∀ b i entry, after.table.slot b i = some entry → ∃ old, cache.table.slot b i = some old ∧
    NoLater (cache.segment old.location.segment) (after.segment entry.location.segment)
  swept : cache.lastExpired ≤ after.lastExpired

theorem Hastens.refl (cache : Cache) : Hastens cache cache :=
  ⟨fun _ _ entry slot => ⟨entry, slot, .refl _⟩, le_rfl⟩

theorem Hastens.trans (first : Hastens cache middle) (second : Hastens middle after) :
    Hastens cache after where
  entries b i entry slot := by
    obtain ⟨between, was, sooner⟩ := second.entries b i entry slot
    obtain ⟨old, wasOld, soonerOld⟩ := first.entries b i between was
    exact ⟨old, wasOld, soonerOld.trans sooner⟩
  swept := first.swept.trans second.swept

theorem SameDates.noLater (same : SameDates cache after) (i : SegId) :
    NoLater (cache.segment i) (after.segment i) := ⟨same.ttl i, (same.createAt i).le⟩

theorem Thins.hastens (thins : Thins cache after) : Hastens cache after where
  entries b i entry slot := ⟨entry, thins.entries b i entry slot, thins.noLater _⟩
  swept := thins.lastExpired.ge

/-- What copying between two segments leaves, where the target falls due no later than the source. -/
def Copies (source target : SegId) (cache after : Cache) : Prop :=
  NoLater (cache.segment source) (cache.segment target) → SameDates cache after ∧ Hastens cache after

instance (source target : SegId) : Std.Refl (Copies source target) where
  refl cache _ := ⟨.refl cache, .refl cache⟩

instance (source target : SegId) : IsTrans Cache (Copies source target) where
  trans cache middle after first second older := by
    obtain ⟨same, hastens⟩ := first older
    have older' : NoLater (middle.segment source) (middle.segment target) :=
      ⟨by rw [same.ttl, same.ttl, older.ttl], by rw [same.createAt, same.createAt]; exact older.createAt⟩
    obtain ⟨same', hastens'⟩ := second older'
    exact ⟨same.trans same', hastens.trans hastens'⟩

variable {source target : SegId}

theorem Thins.copies (thins : Thins cache after) : Copies source target cache after :=
  fun _ => ⟨thins.toSameDates, thins.hastens⟩

/-- A copy is relinked from the source to the target. -/
theorem copies_casLocation {key : Key} {old new : Location} {relink : RelinkFreq}
    (fromSource : old.segment = source) (toTarget : new.segment = target) :
    Copies source target cache
      { cache with table := (cache.table.casLocation config.geometry key old new relink).2 } := by
  intro older
  refine ⟨⟨fun _ => rfl, fun _ => rfl, rfl, rfl, fun _ => id⟩, fun b i entry slot => ?_, le_rfl⟩
  unfold Table.casLocation at slot
  cases found : cache.table.publishing config.geometry key old with
  | none =>
    rw [found] at slot
    exact ⟨entry, slot, .refl _⟩
  | some ref =>
    obtain ⟨was, there, -, here⟩ := Table.publishing_slot found
    rw [found] at slot
    dsimp only at slot
    rw [there, Option.map_some, Table.setSlot_slot] at slot
    split at slot
    · rename_i same
      cases same
      cases slot
      refine ⟨was, there, ?_⟩
      rw [here, fromSource]
      exact toTarget.symm ▸ older
    · exact ⟨entry, slot, .refl _⟩

theorem copies_relinkItem (offset : Nat) (item : Item) (relink : RelinkFreq) :
    Relates (Copies source target) (relinkItem config source target offset item relink) := by
  refine ⟨fun cache => ?_⟩
  unfold relinkItem segmentOf
  rw [ensures_bind, ensures_read, ensures_bind, ensures_read, ensures_bind, ensures_read]
  have swapped : Ensures (onTable fun table => table.casLocation config.geometry item.key
      (cache.locationAt source offset)
      (cache.locationAt target (cache.segment target).writeOffset) relink)
      (fun _ middle => Copies source target cache middle) cache :=
    (ensures_exchange _).mpr (copies_casLocation rfl rfl)
  refine Ensures.seq swapped fun relinked middle copied => ?_
  have rest : Relates (Copies source target) (if relinked = true then do
      removeItemAt config source offset
      modifySegment target fun segment =>
        { segment with
          liveItems := segment.liveItems + 1
          liveBytes := segment.liveBytes + item.size config
          writeOffset := (cache.segment target).writeOffset + item.size config
          items := segment.items ++ [item] }
      return true
    else return false) := by
    refine .ite (.bind ((thins_removeItemAt ..).mono fun _ _ => Thins.copies) fun _ => ?_) (.pure _)
    refine .bind (Relates.mono (thins_modifySegment target ?_ ?_ ?_) fun _ _ => Thins.copies) fun _ =>
      .pure _
    all_goals exact fun _ => rfl
  exact (rest.ensures middle).mono fun _ after later => trans_of _ copied later

theorem copies_copyInto (source target : SegId) :
    Relates (Copies source target) (copyInto config source target) := by
  have items : ∀ placed, Relates (Copies source target) (copyItems config source target placed) := by
    intro placed
    induction placed with
    | nil => exact .pure _
    | cons first rest ih =>
      refine .bind (.read _) fun location => .bind (.read _) fun frequency =>
        .bind (.read _) fun segment => .ite ih (.bind (copies_relinkItem ..) fun relinked => ?_)
      exact .ite ih (.pure _)
  exact .bind (.read _) fun _ => items _

theorem copies_s3fifoPromoteFrom (source target : SegId) (relink : RelinkFreq) :
    Relates (Copies source target) (s3fifoPromoteFrom config source target relink) := by
  have items : ∀ placed, Relates (Copies source target)
      (promoteItems config source target relink placed) := by
    intro placed
    induction placed with
    | nil => exact .pure _
    | cons first rest ih =>
      refine .bind (.read _) fun location => .bind (.read _) fun frequency => .ite ih ?_
      refine .bind (.read _) fun segment => ?_
      dsimp only
      exact .ite (.bind (copies_relinkItem ..) fun _ => ih) ih
  exact .bind (.read _) fun _ => items _

theorem thins_s3fifoGhostRemaining (id : SegId) : Relates Thins (s3fifoGhostRemaining config id) := by
  have all : ∀ hashes, Relates Thins (ghostInsertAll hashes) := by
    intro hashes
    induction hashes with
    | nil => exact .pure _
    | cons hash rest ih =>
      refine .bind (.change fun _ => ?_) fun _ => ih
      exact thins_of_same rfl rfl rfl rfl
  exact .bind (.read _) fun hashes => all hashes

end CacheRs.Segcache
