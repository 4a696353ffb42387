/-
**Steps on headers, chains and queues keep every mapping.**

* `Calm`: the table is as it was, and still agrees with the segments;
* `Keeps`: a procedure is calm whenever it returns; `keeps_bind`, `keeps_frame` and the other rules;
* `keeps_casMetadata`: the state changes that leave the stored items alone;
* `keeps_tryReserve`, `keeps_reserveFree`, `keeps_linkDestBefore`, `keeps_tryExpand`, …: the
  procedures;
* `calm_recycle`, `calm_condemn`: a segment that nothing names is given back.
-/

import CacheRs.Segcache.Steps

set_option linter.unusedSectionVars false

namespace CacheRs.Segcache

open Segments (SegId State)
open Sequential Procedure

section Rules

variable (config : Config)

/-- The table is as it was, and still agrees with the segments. -/
structure Calm (pending : Option Location) (cache after : Cache) : Prop where
  consistent : Consistent config pending after
  slots : after.table.slot = cache.table.slot
  maps : ∀ key mapping, Maps config after key mapping ↔ Maps config cache key mapping

/-- A procedure that is calm, whatever is in hand. -/
def Keeps {α : Type} (procedure : Proc α) : Prop :=
  ∀ pending cache, Consistent config pending cache →
    Ensures procedure (fun _ after => Calm config pending cache after) cache

end Rules

variable {config : Config} {cache middle after : Cache} {pending : Option Location}
  {α β : Type}

theorem Calm.refl (consistent : Consistent config pending cache) :
    Calm config pending cache cache := ⟨consistent, rfl, fun _ _ => Iff.rfl⟩

theorem Calm.trans (first : Calm config pending cache middle)
    (second : Calm config pending middle after) : Calm config pending cache after where
  consistent := second.consistent
  slots := second.slots.trans first.slots
  maps key mapping := (second.maps key mapping).trans (first.maps key mapping)

theorem Frame.calm (frame : Frame config pending cache after)
    (consistent : Consistent config pending cache) : Calm config pending cache after :=
  ⟨frame.consistent consistent, frame.slots, fun _ _ => frame.maps_iff⟩

/-- Nothing names a segment, and the table stays as it is. -/
theorem Vacant.calm {id : SegId} (vacant : Vacant cache pending id)
    (calm : Calm config pending cache after) : Vacant after pending id where
  named location named := by
    refine vacant.named location ?_
    unfold Table.Named at named ⊢
    rwa [calm.slots] at named
  inHand := vacant.inHand

theorem keeps_pure (value : α) : Keeps config (pure value : Proc α) :=
  fun _ _ consistent => (ensures_pure value).mpr (Calm.refl consistent)

theorem keeps_diverge : Keeps config (Procedure.diverge : Proc α) :=
  fun _ _ _ => ensures_diverge.mpr trivial

theorem keeps_read (field : Cache → α) : Keeps config (Procedure.read field) :=
  fun _ _ consistent => (ensures_read field).mpr (Calm.refl consistent)

theorem keeps_segmentOf (id : SegId) : Keeps config (segmentOf id) := keeps_read _

theorem keeps_bind {procedure : Proc α} {rest : α → Proc β} (first : Keeps config procedure)
    (second : ∀ value, Keeps config (rest value)) : Keeps config (procedure >>= rest) :=
  fun pending cache consistent => Ensures.seq (first pending cache consistent)
    fun value after calm => (second value pending after calm.consistent).mono
      fun _ _ => calm.trans

theorem keeps_ite {condition : Prop} [Decidable condition] {yes no : Proc α}
    (left : condition → Keeps config yes) (right : ¬ condition → Keeps config no) :
    Keeps config (if condition then yes else no) := by
  split
  · exact left ‹_›
  · exact right ‹_›

theorem keeps_assertThat (condition : Bool) : Keeps config (Procedure.assertThat condition) := by
  unfold Procedure.assertThat
  exact keeps_ite (fun _ => keeps_pure ()) fun _ => keeps_diverge

/-- A change of the cache that is a step on headers. -/
theorem keeps_change {update : Cache → Cache}
    (frame : ∀ pending cache, Consistent config pending cache →
      Frame config pending cache (update cache)) : Keeps config (Procedure.change update) :=
  fun pending cache consistent =>
    (ensures_change update).mpr ((frame pending cache consistent).calm consistent)

theorem keeps_exchange {action : Cache → α × Cache}
    (frame : ∀ pending cache, Consistent config pending cache →
      Frame config pending cache (action cache).2) : Keeps config (Procedure.exchange action) :=
  fun pending cache consistent =>
    (ensures_exchange action).mpr ((frame pending cache consistent).calm consistent)

theorem keeps_modifySegment {id : SegId} {update : Segment → Segment}
    (quiet : ∀ segment, Quiet segment (update segment)) :
    Keeps config (modifySegment id update) :=
  keeps_change fun _ _ _ => frame_setSegment (quiet _)

theorem keeps_modifyBucket (b : Nat) (update : TtlBucket → TtlBucket) :
    Keeps config (modifyBucket b update) := keeps_change fun _ _ _ => frame_of_same rfl rfl

/-- A state change that leaves the stored items alone. -/
def quietChange (expected new : State) : Bool :=
  (!holds expected || holds new) && (!holds new || holds expected || isFresh expected) &&
    (!isLaid new || isLaid expected || isFresh expected) && (!isFresh new || isFresh expected)

theorem quiet_of_change {expected new : State} (change : quietChange expected new = true)
    {segment : Segment} (state : segment.state = expected) {next prev : Option SegId} :
    Quiet segment { segment with state := new, next := next, prev := prev } := by
  subst state
  simp only [quietChange, Bool.and_eq_true, Bool.or_eq_true, Bool.not_eq_true'] at change
  obtain ⟨⟨⟨held, holding⟩, laid⟩, fresh⟩ := change
  refine ⟨rfl, rfl, rfl, rfl, fun _ => rfl, fun was => ?_, fun now => ?_, fun now => ?_,
    fun now => ?_⟩
  · rcases held with no | yes
    · cases no.symm.trans was
    · exact yes
  · rcases holding with (no | yes) | yes
    · cases no.symm.trans now
    · exact .inl yes
    · exact .inr yes
  · rcases laid with (no | yes) | yes
    · cases no.symm.trans now
    · exact .inl yes
    · exact .inr yes
  · rcases fresh with no | yes
    · cases no.symm.trans now
    · exact yes

theorem keeps_casMetadata {id : SegId} {expected new : State} (change : quietChange expected new = true)
    (newNext newPrev : Option (Option SegId)) :
    Keeps config (casMetadata id expected new newNext newPrev) := by
  refine keeps_exchange fun pending cache consistent => ?_
  by_cases state : (cache.segment id).state = expected
  · simp only [state, if_true]
    exact frame_setSegment (quiet_of_change change state)
  · simp only [state, if_false]
    exact frame_of_same rfl rfl

theorem keeps_updateLinks (id : SegId) (newNext newPrev : Option (Option SegId)) :
    Keeps config (updateLinks id newNext newPrev) :=
  keeps_modifySegment fun _ => ⟨rfl, rfl, rfl, rfl, fun _ => rfl, fun was => was, .inl, .inl, fun was => was⟩

/-! ### Queues -/

theorem blank_resetWriteStats (segment : Segment) :
    Blank config (segment.resetWriteStats config) := ⟨rfl, rfl, rfl, rfl⟩

/-- A free segment is reset and reserved. -/
theorem keeps_tryReserve (id : SegId) : Keeps config (tryReserve config id) := by
  intro pending cache consistent
  unfold tryReserve casMetadata
  simp only [ensures_bind, ensures_exchange]
  by_cases state : (cache.segment id).state = .free
  · have vacant : Vacant cache pending id := consistent.vacant (by rw [state]; rfl)
    simp only [state, if_true, Bool.not_true, Bool.false_eq_true, if_false, modifySegment,
      ensures_bind, ensures_change, ensures_read, ensures_pure]
    refine Frame.calm ?_ consistent
    refine ⟨rfl, fun other => ?_⟩
    by_cases here : other = id
    · subst here
      right
      refine ⟨vacant, fun _ => ?_⟩
      simp only [Cache.setSegment, Function.update_self]
      exact ⟨rfl, rfl, rfl, rfl⟩
    · left
      simp only [Cache.setSegment, Function.update_of_ne here]
      exact Quiet.refl _
  · simp only [state, if_false, Bool.not_false, if_true, ensures_pure]
    exact Calm.refl consistent

theorem keeps_stealFree : Keeps config stealFree :=
  keeps_exchange fun _ _ _ => frame_of_same rfl rfl

theorem keeps_stealSpare : Keeps config stealSpare :=
  keeps_exchange fun _ _ _ => frame_of_same rfl rfl

theorem keeps_pushFree (id : SegId) : Keeps config (pushFree id) :=
  keeps_change fun _ _ _ => frame_of_same rfl rfl

theorem keeps_pushFreed (id : SegId) : Keeps config (pushFreed id) :=
  keeps_change fun _ _ _ => frame_of_same rfl rfl

theorem keeps_pushSpare (id : SegId) : Keeps config (pushSpare id) :=
  keeps_change fun _ _ _ => frame_of_same rfl rfl

theorem keeps_reserveFree : Keeps config (reserveFree config) := by
  refine keeps_bind keeps_stealFree fun stolen => ?_
  cases stolen with
  | none => exact keeps_pure _
  | some id =>
    refine keeps_bind (keeps_tryReserve id) fun reserved => keeps_ite (fun _ => keeps_pure _) fun _ => ?_
    exact keeps_bind (keeps_pushFree id) fun _ => keeps_pure _

theorem keeps_reserveSpare : Keeps config (reserveSpare config) := by
  refine keeps_bind keeps_stealSpare fun stolen => ?_
  cases stolen with
  | none => exact keeps_reserveFree
  | some id =>
    refine keeps_bind (keeps_tryReserve id) fun reserved => keeps_ite (fun _ => ?_) fun _ => ?_
    · exact keeps_bind (keeps_change fun _ _ _ => frame_of_same rfl rfl) fun _ => keeps_pure _
    · exact keeps_bind (keeps_pushSpare id) fun _ => keeps_pure _

theorem keeps_returnSegment (id : SegId) : Keeps config (returnSegment config id) := by
  refine keeps_bind (keeps_read _) fun count => keeps_ite (fun _ => keeps_pushFreed id) fun _ => ?_
  exact keeps_bind (keeps_change fun _ _ _ => frame_of_same rfl rfl) fun _ => keeps_pushSpare id

theorem keeps_releaseUnused (id : SegId) : Keeps config (releaseUnused config id) := by
  have released : Keeps config (tryRelease id) := by
    refine keeps_bind (keeps_casMetadata rfl _ _) fun done => ?_
    exact keeps_ite (fun _ => keeps_pure _) fun _ => keeps_casMetadata rfl _ _
  exact keeps_bind released fun done => keeps_bind (keeps_assertThat done) fun _ =>
    keeps_returnSegment id

/-! ### Chains -/

/-- Patching the segment a link names, if it names one. -/
theorem keeps_patch (link : Option SegId) {patch : SegId → Proc Unit}
    (each : ∀ neighbour, Keeps config (patch neighbour)) :
    Keeps config (match link with
      | some neighbour => patch neighbour
      | none => pure ()) := by
  cases link with
  | none => exact keeps_pure _
  | some neighbour => exact each neighbour

theorem keeps_unlink (id : SegId) : Keeps config (unlink id) := by
  refine keeps_bind (keeps_segmentOf id) fun segment => ?_
  have back := keeps_bind (@keeps_segmentOf config id) fun segment =>
    keeps_patch segment.prev fun prev => keeps_bind (keeps_segmentOf id) fun segment =>
      keeps_updateLinks prev (some segment.next) none
  cases segment.next with
  | none => exact back
  | some next =>
    refine keeps_bind (keeps_segmentOf id) fun _ => ?_
    exact keeps_bind (keeps_updateLinks _ _ _) fun _ => back

theorem keeps_linkDestBefore (this member : SegId) (b : Nat) :
    Keeps config (linkDestBefore this member b) := by
  refine keeps_bind (keeps_segmentOf member) fun segment => ?_
  refine keeps_bind (keeps_casMetadata rfl _ _) fun _ => ?_
  have rest : Keeps config (do
      updateLinks member none (some (some this))
      let _ ← casMetadata this .linking .relinking none none
      return ()) :=
    keeps_bind (keeps_updateLinks _ _ _) fun _ => keeps_bind (keeps_casMetadata rfl _ _)
      fun _ => keeps_pure _
  cases segment.prev with
  | none => exact keeps_bind (keeps_modifyBucket _ _) fun _ => rest
  | some before => exact keeps_bind (keeps_updateLinks _ _ _) fun _ => rest

theorem keeps_publishDestSealed (id : SegId) : Keeps config (publishDestSealed id) :=
  keeps_bind (keeps_casMetadata rfl _ _) fun _ => keeps_pure _

theorem keeps_leavePool (id : SegId) : Keeps config (leavePool id) := by
  have last : Keeps config (modifySegment id fun segment => { segment with pool := .main }) :=
    keeps_modifySegment fun _ => ⟨rfl, rfl, rfl, rfl, fun _ => rfl, fun was => was, .inl, .inl,
      fun was => was⟩
  refine keeps_bind (keeps_segmentOf id) fun segment => ?_
  by_cases admission : segment.pool = .admission
  · simp only [admission, if_true]
    exact keeps_bind (keeps_change fun _ _ _ => frame_of_same rfl rfl) fun _ => last
  · simp only [admission, if_false]
    exact last

theorem keeps_claimForDrain (id : SegId) : Keeps config (claimForDrain id) :=
  keeps_casMetadata rfl _ _

theorem keeps_isSealedMember (id : SegId) (b : Nat) : Keeps config (isSealedMember id b) :=
  keeps_read _

theorem keeps_lockSealedInBucket (id : SegId) : Keeps config (lockSealedInBucket id) := by
  refine keeps_bind (keeps_segmentOf id) fun _ => ?_
  exact keeps_bind (keeps_isSealedMember _ _) fun _ => keeps_pure _

/-! ### Giving a segment back -/

section Release

variable {id : SegId}

/-- A step on a segment that nothing names. -/
theorem calm_vacated (consistent : Consistent config pending cache) (vacant : Vacant cache pending id)
    {segment : Segment} (emptied : Emptied config segment) :
    Calm config pending cache (cache.setSegment id segment) :=
  (frame_vacate vacant emptied).calm consistent

theorem calm_resetWriteStats (consistent : Consistent config pending cache)
    (vacant : Vacant cache pending id) :
    Ensures (modifySegment id (Segment.resetWriteStats config))
      (fun _ after => Calm config pending cache after) cache :=
  (ensures_change _).mpr (calm_vacated consistent vacant fun _ => blank_resetWriteStats _)

/-- A segment that nothing names is freed, or made wait for its readers. -/
theorem calm_freeing {expected new : State} (idle : holds new = false ∧ isFresh new = false)
    (consistent : Consistent config pending cache) (vacant : Vacant cache pending id)
    (newNext newPrev : Option (Option SegId)) :
    Ensures (casMetadata id expected new newNext newPrev)
      (fun _ after => Calm config pending cache after) cache := by
  refine (ensures_exchange _).mpr ?_
  by_cases state : (cache.segment id).state = expected
  · simp only [state, if_true]
    refine calm_vacated consistent vacant fun busy => ?_
    simp [idle.1, idle.2] at busy
  · simp only [state, if_false]
    exact Calm.refl consistent

theorem calm_nextGeneration (consistent : Consistent config pending cache)
    (vacant : Vacant cache pending id)
    (idle : holds (cache.segment id).state = false ∧ isFresh (cache.segment id).state = false) :
    Ensures (modifySegment id fun segment => { segment with generation := segment.generation + 1 })
      (fun _ after => Calm config pending cache after) cache := by
  refine (ensures_change _).mpr (calm_vacated consistent vacant fun busy => ?_)
  simp [idle.1, idle.2] at busy

/-- A compare-exchange that succeeded left the new state. -/
theorem casMetadata_state {expected new : State} (newNext newPrev : Option (Option SegId)) :
    Ensures (casMetadata id expected new newNext newPrev)
      (fun done after => done = true → (after.segment id).state = new) cache := by
  refine (ensures_exchange _).mpr ?_
  by_cases state : (cache.segment id).state = expected
  · simp [state, Cache.setSegment]
  · simp [state]

theorem calm_tryReleaseDrained (consistent : Consistent config pending cache)
    (vacant : Vacant cache pending id) :
    Ensures (tryReleaseDrained id) (fun _ after => Calm config pending cache after) cache := by
  refine Ensures.seq ((calm_freeing ⟨rfl, rfl⟩ consistent vacant _ _).and (casMetadata_state _ _))
    fun done middle ⟨calm, state⟩ => ?_
  cases done with
  | false => exact (ensures_pure false).mpr calm
  | true =>
    refine Ensures.seq (calm_nextGeneration calm.consistent (vacant.calm calm) ?_) fun _ after next => ?_
    · rw [state rfl]
      exact ⟨rfl, rfl⟩
    · exact (ensures_pure true).mpr (calm.trans next)

theorem calm_tryReleaseCondemned (consistent : Consistent config pending cache)
    (vacant : Vacant cache pending id) :
    Ensures (tryReleaseCondemned id) (fun _ after => Calm config pending cache after) cache := by
  refine Ensures.seq ((calm_freeing ⟨rfl, rfl⟩ consistent vacant _ _).and (casMetadata_state _ _))
    fun done middle ⟨calm, state⟩ => ?_
  cases done with
  | false => exact (ensures_pure false).mpr calm
  | true =>
    refine Ensures.seq (calm_nextGeneration calm.consistent (vacant.calm calm) ?_) fun _ after next => ?_
    · rw [state rfl]
      exact ⟨rfl, rfl⟩
    · exact (ensures_pure true).mpr (calm.trans next)

/-- A sequence whose first part is calm. -/
theorem Calm.seq {procedure : Proc α} {rest : α → Proc β}
    (first : Ensures procedure (fun _ after => Calm config pending cache after) cache)
    (second : ∀ value middle, Calm config pending cache middle →
      Ensures (rest value) (fun _ after => Calm config pending middle after) middle) :
    Ensures (procedure >>= rest) (fun _ after => Calm config pending cache after) cache :=
  Ensures.seq first fun value middle calm =>
    (second value middle calm).mono fun _ _ => calm.trans

theorem calm_recycle (consistent : Consistent config pending cache)
    (vacant : Vacant cache pending id) :
    Ensures (recycle config id) (fun _ after => Calm config pending cache after) cache := by
  refine Calm.seq (keeps_unlink id pending cache consistent) fun _ one calm => ?_
  refine Calm.seq (keeps_leavePool id pending one calm.consistent) fun _ two calm' => ?_
  have vacant := (vacant.calm calm).calm calm'
  refine Calm.seq (calm_resetWriteStats calm'.consistent vacant) fun _ three calm'' => ?_
  have vacant := vacant.calm calm''
  refine Calm.seq (calm_tryReleaseDrained calm''.consistent vacant) fun _ four last => ?_
  exact keeps_returnSegment id pending four last.consistent

theorem calm_condemn (consistent : Consistent config pending cache)
    (vacant : Vacant cache pending id) (next prev : Option SegId) :
    Ensures (condemn config id next prev) (fun _ after => Calm config pending cache after)
      cache := by
  refine Calm.seq (keeps_leavePool id pending cache consistent) fun _ one calm => ?_
  have vacant := vacant.calm calm
  refine Calm.seq (calm_freeing ⟨rfl, rfl⟩ calm.consistent vacant _ _) fun _ two calm' => ?_
  have vacant := vacant.calm calm'
  -- The neighbours are patched past it.
  have last : ∀ middle, Consistent config pending middle → Vacant middle pending id →
      Ensures (do
        if (← segmentOf id).refCount = 0 then
          if ← tryReleaseCondemned id then
            modifySegment id (Segment.resetWriteStats config)
            returnSegment config id
            return ClearOutcome.freed
        return .deferred) (fun _ after => Calm config pending middle after) middle := by
    intro middle consistent vacant
    refine Calm.seq (keeps_segmentOf id pending middle consistent) fun segment three calm => ?_
    refine Ensures.ite (fun _ => ?_) fun _ => (ensures_pure _).mpr (Calm.refl calm.consistent)
    have vacant := vacant.calm calm
    refine Calm.seq (calm_tryReleaseCondemned calm.consistent vacant) fun released four calm => ?_
    refine Ensures.ite (fun _ => ?_) fun _ => (ensures_pure _).mpr (Calm.refl calm.consistent)
    have vacant := vacant.calm calm
    refine Calm.seq (calm_resetWriteStats calm.consistent vacant) fun _ five calm => ?_
    refine Calm.seq (keeps_returnSegment id pending five calm.consistent) fun _ six calm => ?_
    exact (ensures_pure _).mpr (Calm.refl calm.consistent)
  cases prev with
  | none =>
    cases next with
    | none => exact last two calm'.consistent vacant
    | some after =>
      refine Calm.seq (keeps_updateLinks _ _ _ pending two calm'.consistent) fun _ three calm => ?_
      exact last three calm.consistent (vacant.calm calm)
  | some before =>
    refine Calm.seq (keeps_updateLinks _ _ _ pending two calm'.consistent) fun _ three calm => ?_
    have vacant := vacant.calm calm
    cases next with
    | none => exact last three calm.consistent vacant
    | some after =>
      refine Calm.seq (keeps_updateLinks _ _ _ pending three calm.consistent) fun _ four calm => ?_
      exact last four calm.consistent (vacant.calm calm)

end Release

end CacheRs.Segcache
