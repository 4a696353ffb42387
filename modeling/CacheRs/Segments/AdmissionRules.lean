/-
**The steps on labels and their count.**

What each step of a thread does to the labels: the steps of the pins and drains leave them alone as
long as no segment leaves service, and each of the four steps on a label has its place in the
order the writer's pin and the claim impose.

* `Inert`, `along_run`: the programs that leave the labels alone;
* `kept_inert`, `kept_casPool`, `kept_incrPool`, `kept_decrPool`, `kept_resetPool`: what each step
  keeps;
* `label_spec`, `configure_spec`, `leavePool_spec`, `retire_spec`: the operations.
-/

import CacheRs.Segments.Admission

set_option linter.unusedSectionVars false

namespace CacheRs.Segments.Drains.Admission

open Concurrency

variable {Tid : Type} [DecidableEq Tid]

/-! ### Steps that leave the labels alone -/

/-- No label changes, nor the count, and no segment that may be labelled leaves service. -/
structure Inert (state after : Shared) : Prop where
  pool : ∀ id, (after.header id).pool = (state.header id).pool
  count : after.admissionCount = state.admissionCount
  admitting : ∀ id, Admitting (state.header id).metadata.state = true →
    Admitting (after.header id).metadata.state = true

theorem Inert.refl (state : Shared) : Inert state state :=
  ⟨fun _ => rfl, rfl, fun _ admitting => admitting⟩

/-- A program of inert steps. -/
abbrev Plain {α : Type} (program : Prog α) : Prop := program.Along fun _ state after =>
  Inert state after

/-- A change of a header that leaves its label and its word alone. -/
theorem inert_modifyHeader {id : SegId} {change : SegmentHeader → SegmentHeader}
    {state : Shared} (pool : ∀ header, (change header).pool = header.pool)
    (metadata : ∀ header, (change header).metadata = header.metadata) :
    Inert state (state.modifyHeader id change) := by
  refine ⟨fun other => ?_, rfl, fun other admitting => ?_⟩
  · by_cases same : other = id
    · subst same
      rw [Shared.modifyHeader_self, pool]
    · rw [Shared.modifyHeader_of_ne _ _ _ same]
  · by_cases same : other = id
    · subst same
      rw [Shared.modifyHeader_self, metadata]
      exact admitting
    · rw [Shared.modifyHeader_of_ne _ _ _ same]
      exact admitting

theorem exchangeMetadata_pool {state : Shared} {id other : SegId} {current new : Metadata} :
    ((state.exchangeMetadata id current new).header other).pool = (state.header other).pool := by
  unfold Shared.exchangeMetadata
  split
  case isFalse => rfl
  case isTrue =>
    by_cases same : other = id
    · subst same
      rw [Shared.modifyHeader_self]
    · rw [Shared.modifyHeader_of_ne _ _ _ same]

theorem exchangeMetadata_count {state : Shared} {id : SegId} {current new : Metadata} :
    (state.exchangeMetadata id current new).admissionCount = state.admissionCount := by
  unfold Shared.exchangeMetadata
  split <;> rfl

theorem exchangeMetadata_of_ne {state : Shared} {id other : SegId} {current new : Metadata}
    (different : other ≠ id) :
    (state.exchangeMetadata id current new).header other = state.header other := by
  unfold Shared.exchangeMetadata
  split
  case isFalse => rfl
  case isTrue => exact Shared.modifyHeader_of_ne _ _ _ different

/-- An exchange that does not take a segment out of the states in which it may be labelled. -/
theorem inert_exchange {id : SegId} {current new : Metadata}
    (serves : Admitting current.state = true → Admitting new.state = true) (state : Shared) :
    Inert state (state.exchangeMetadata id current new) := by
  refine ⟨fun _ => exchangeMetadata_pool, exchangeMetadata_count, fun other admitting => ?_⟩
  by_cases same : other = id
  · subst same
    unfold Shared.exchangeMetadata
    split
    case isFalse => exact admitting
    case isTrue found =>
      rw [Shared.modifyHeader_self]
      exact serves (found ▸ admitting)
  · rw [exchangeMetadata_of_ne same]
    exact admitting

section Programs

variable {id : SegId}

theorem plain_load {α : Type} {label : Label} {field : SegmentHeader → α} :
    Plain (load label id field) := .atomically fun state => Inert.refl state

theorem plain_read {α : Type} {label : Label} {read : Shared → α} :
    Plain (Program.atomically label fun state => (read state, state)) :=
  .atomically fun state => Inert.refl state

theorem plain_assertThat {condition : Bool} : Plain (assertThat condition) :=
  .whenEnabled fun state _ => Inert.refl state

theorem plain_metadata : Plain (metadata id) := plain_load

theorem plain_storeAs {label : Label} {change : SegmentHeader → SegmentHeader}
    (pool : ∀ header, (change header).pool = header.pool)
    (metadata : ∀ header, (change header).metadata = header.metadata) :
    Plain (storeAs label id change) := .atomically fun _ => inert_modifyHeader pool metadata

theorem plain_store {change : SegmentHeader → SegmentHeader}
    (pool : ∀ header, (change header).pool = header.pool)
    (metadata : ∀ header, (change header).metadata = header.metadata) :
    Plain (store id change) := plain_storeAs pool metadata

theorem plain_fetch {α : Type} {label : Label} {field : SegmentHeader → α}
    {change : SegmentHeader → SegmentHeader} (pool : ∀ header, (change header).pool = header.pool)
    (metadata : ∀ header, (change header).metadata = header.metadata) :
    Plain (fetch label id field change) := .atomically fun _ => inert_modifyHeader pool metadata

theorem plain_exchange {label : Label} {current new : Metadata}
    (serves : Admitting current.state = true → Admitting new.state = true) :
    Plain (exchange label id current new) := .atomically (inert_exchange serves)

theorem plain_casMetadata {expected new : State} {newNext newPrev : Option (Option SegId)}
    (serves : Admitting expected = true → Admitting new = true) :
    Plain (casMetadata id expected new newNext newPrev) := by
  refine .bind plain_metadata fun current => .ite (fun _ => .ret _) fun same => ?_
  have state : current.state = expected := Decidable.not_not.mp same
  exact .bind (plain_exchange fun admitting => serves (state ▸ admitting)) fun _ => .ret _

theorem plain_updateLinks {newNext newPrev : Option (Option SegId)} :
    Plain (updateLinks id newNext newPrev) := by
  refine .bind plain_metadata fun current => .repeatUntil fun current => ?_
  refine .bind (plain_exchange fun admitting => admitting) fun failed => ?_
  cases failed with
  | none => exact .ret _
  | some observed => exact .ret _

theorem plain_onLink {link : Option SegId} {patch : SegId → Prog Unit}
    (each : ∀ neighbour, Plain (patch neighbour)) : Plain (onLink link patch) := by
  cases link with
  | none => exact .ret _
  | some neighbour => exact each neighbour

theorem plain_unlink : Plain (unlink id) := by
  refine .bind (.bind plain_metadata fun _ => .ret _) fun next => ?_
  refine .bind (plain_onLink fun neighbour => ?_) fun _ => ?_
  · exact .bind (.bind plain_metadata fun _ => .ret _) fun _ => plain_updateLinks
  · refine .bind (.bind plain_metadata fun _ => .ret _) fun prev => plain_onLink fun neighbour => ?_
    exact .bind (.bind plain_metadata fun _ => .ret _) fun _ => plain_updateLinks

theorem plain_bumpGeneration : Plain (bumpGeneration id) := by
  refine .atomically fun state => ?_
  dsimp only
  exact inert_modifyHeader (fun _ => rfl) fun _ => rfl

theorem plain_resetWriteStats : Plain (resetWriteStats id) := by
  refine .bind plain_read fun initialOffset => ?_
  refine .bind (plain_storeAs (fun _ => rfl) fun _ => rfl) fun _ => ?_
  refine .bind (plain_storeAs (fun _ => rfl) fun _ => rfl) fun _ => ?_
  refine .bind (plain_storeAs (fun _ => rfl) fun _ => rfl) fun _ => ?_
  refine .bind (plain_storeAs (fun _ => rfl) fun _ => rfl) fun _ => ?_
  exact plain_storeAs (fun _ => rfl) fun _ => rfl

theorem plain_markCreated : Plain (markCreated id) :=
  .bind plain_read fun _ => plain_store (fun _ => rfl) fun _ => rfl

theorem plain_markMerged : Plain (markMerged id) :=
  .bind plain_read fun _ => plain_store (fun _ => rfl) fun _ => rfl

theorem plain_tryReserve : Plain (tryReserve id) := by
  refine .bind (plain_casMetadata fun admitting => by cases admitting) fun won =>
    .ite (fun _ => .ret _) fun _ => ?_
  exact .bind plain_resetWriteStats fun _ => .bind plain_markCreated fun _ =>
    .bind plain_markMerged fun _ => .ret _

theorem plain_tryRelease : Plain (tryRelease id) :=
  .bind (plain_casMetadata fun admitting => by cases admitting) fun _ =>
    .ite (fun _ => .ret _) fun _ => plain_casMetadata fun admitting => by cases admitting

theorem plain_tryReleaseCondemned : Plain (tryReleaseCondemned id) := by
  refine .bind plain_load fun current => .ite (fun _ => .ret _) fun same => ?_
  have state : current.state = .awaitingRelease := Decidable.not_not.mp same
  refine .bind (plain_exchange fun admitting => ?_) fun failed => .ite (fun _ => .ret _) fun _ => ?_
  · rw [state] at admitting
    cases admitting
  · exact .bind plain_bumpGeneration fun _ => .ret _

theorem plain_releaseReaderForGuard {label : Label} : Plain (releaseReaderForGuard id label) :=
  .bind (plain_fetch (fun _ => rfl) fun _ => rfl) fun _ => .bind plain_assertThat fun _ => .ret _

theorem plain_tryAcquireReader : Plain (tryAcquireReader id) := by
  refine .bind plain_metadata fun word => .ite (fun _ => .ret _) fun _ => ?_
  refine .bind (plain_fetch (fun _ => rfl) fun _ => rfl) fun _ => ?_
  refine .bind plain_load fun word => .ite (fun _ => ?_) fun _ => .ret _
  refine .bind plain_releaseReaderForGuard fun prev => .ite (fun _ => ?_) fun _ => .ret _
  exact .bind plain_tryReleaseCondemned fun _ => .ite (fun _ => .ret _) fun _ => .ret _

theorem adjust_pool (kind : PinKind) (change : Nat → Nat) (header : SegmentHeader) :
    (kind.adjust change header).pool = header.pool := by
  cases kind <;> rfl

theorem plain_tryPin {kind : PinKind} : Plain (tryPin id kind) := by
  refine .bind plain_metadata fun word => .ite (fun _ => .ret _) fun _ => ?_
  refine .bind (plain_storeAs (adjust_pool kind _) (adjust_metadata kind _)) fun _ => ?_
  refine .bind plain_load fun word => .ite (fun _ => ?_) fun _ => .ret _
  exact .bind (plain_storeAs (adjust_pool kind _) (adjust_metadata kind _)) fun _ => .ret _

theorem plain_releasePin {kind : PinKind} : Plain (releasePin id kind) :=
  .bind (plain_fetch (adjust_pool kind _) (adjust_metadata kind _)) fun _ => plain_assertThat

theorem plain_awaitPins {kind : PinKind} : Plain (awaitPins id kind) :=
  .whenEnabled fun state _ => Inert.refl state

/-! ### The queues -/

theorem inert_of_header {state after : Shared} (header : after.header = state.header)
    (count : after.admissionCount = state.admissionCount) : Inert state after :=
  ⟨fun id => by rw [header], count, fun id admitting => by rw [header]; exact admitting⟩

theorem plain_pushFree : Plain (pushFree id) := .atomically fun _ => inert_of_header rfl rfl

theorem plain_pushFreed : Plain (pushFreed id) :=
  .bind plain_pushFree fun _ => .atomically fun _ => inert_of_header rfl rfl

theorem plain_pushSpare : Plain (pushSpare id) := .atomically fun _ => inert_of_header rfl rfl

theorem plain_stealFree : Plain stealFree := .atomically fun _ => inert_of_header rfl rfl

theorem plain_stealSpare : Plain stealSpare := .atomically fun _ => inert_of_header rfl rfl

theorem plain_returnSegment : Plain (returnSegment id) := by
  refine .bind plain_read fun read => .repeatUntil fun count => .ite (fun _ => ?_) fun _ => ?_
  · exact .bind plain_pushFreed fun _ => .ret _
  · refine .bind (.atomically fun state => ?_) fun observed => ?_
    · split
      · exact inert_of_header rfl rfl
      · exact Inert.refl state
    · cases observed with
      | none => exact .bind plain_pushSpare fun _ => .ret _
      | some observed => exact .ret _

theorem plain_reserveFree : Plain reserveFree := by
  refine .bind plain_stealFree fun stolen => ?_
  cases stolen with
  | none => exact .ret _
  | some raw =>
    refine .bind plain_tryReserve fun reserved => .ite (fun _ => .ret _) fun _ => ?_
    exact .bind plain_pushFree fun _ => .ret _

theorem plain_reserveSpare : Plain reserveSpare := by
  refine .bind plain_stealSpare fun stolen => ?_
  cases stolen with
  | none => exact plain_reserveFree
  | some raw =>
    refine .bind plain_tryReserve fun reserved => .ite (fun _ => ?_) fun _ => ?_
    · exact .bind (.atomically fun _ => inert_of_header rfl rfl) fun _ => .ret _
    · exact .bind plain_pushSpare fun _ => .ret _

theorem plain_releaseUnused : Plain (releaseUnused id) :=
  .bind plain_tryRelease fun _ => .bind plain_assertThat fun _ => plain_returnSegment

/-! ### Claims, uses and items -/

theorem plain_waits {α : Type} (value : α) :
    Plain ((awaitWriters id).bind fun _ => (awaitRemovers id).bind fun _ => .ret value) :=
  .bind plain_awaitPins fun _ => .bind plain_awaitPins fun _ => .ret value

theorem plain_claimForDrain : Plain (claimForDrain id) :=
  .bind (plain_casMetadata fun _ => rfl) fun _ => .ite (fun _ => .ret _) fun _ => plain_waits true

theorem plain_claimMember : Plain (claimMember id) := by
  refine .bind (plain_casMetadata fun _ => rfl) fun won => ?_
  cases won with
  | true => exact plain_waits true
  | false =>
    exact .bind (plain_casMetadata fun _ => rfl) fun _ => .ite (fun _ => .ret _) fun _ =>
      plain_waits true

theorem plain_linkAndPublish {next prev : Option SegId} {published : State} :
    Plain (linkAndPublish id next prev published) :=
  .bind (plain_casMetadata fun admitting => by cases admitting) fun _ =>
    .bind plain_assertThat fun _ =>
      .bind (plain_casMetadata fun admitting => by cases admitting) fun _ => plain_assertThat

theorem plain_useReserved (purpose : Use) : Plain (useReserved id purpose) := by
  cases purpose with
  | giveBack => exact plain_releaseUnused
  | tail next prev => exact plain_linkAndPublish
  | destination next prev => exact plain_linkAndPublish

theorem plain_fill {filled : State} {next : Option (Option SegId)} : Plain (fill id filled next) :=
  plain_casMetadata fun _ => rfl

theorem plain_tryReserveSpace {size capacity : Int} : Plain (tryReserveSpace id size capacity) := by
  refine .bind plain_assertThat fun _ => .bind plain_load fun current => ?_
  refine .repeatUntil fun current => .ite (fun _ => .ret _) fun _ => ?_
  refine .bind (.atomically fun state => ?_) fun observed => ?_
  · split
    · dsimp only
      exact inert_modifyHeader (fun _ => rfl) fun _ => rfl
    · exact Inert.refl state
  · cases observed with
    | none => exact .ret _
    | some observed => exact .ret _

theorem plain_incrLiveItems : Plain (incrLiveItems id) := plain_store (fun _ => rfl) fun _ => rfl

theorem plain_incrLiveBytes {bytes : Int} : Plain (incrLiveBytes id bytes) :=
  plain_store (fun _ => rfl) fun _ => rfl

theorem plain_tryAllocItem {size segmentSize : Int} : Plain (tryAllocItem id size segmentSize) := by
  refine .bind plain_tryPin fun pinned => .ite (fun _ => .ret _) fun _ => ?_
  refine .bind plain_tryReserveSpace fun granted => ?_
  cases granted with
  | none => exact .bind plain_releasePin fun _ => .ret _
  | some offset =>
    refine .bind plain_incrLiveItems fun _ => .bind plain_incrLiveBytes fun _ => ?_
    exact .bind plain_load fun _ => .ret _

theorem plain_removeItemAt {size : Int} : Plain (removeItemAt id size) := by
  have decr : Plain (decrItem id size) :=
    .bind (plain_store (fun _ => rfl) fun _ => rfl) fun _ => plain_store (fun _ => rfl) fun _ => rfl
  have incr : Plain (incrDeadItem id size) :=
    .bind (plain_store (fun _ => rfl) fun _ => rfl) fun _ => plain_store (fun _ => rfl) fun _ => rfl
  refine .bind decr fun _ => .bind incr fun _ => ?_
  exact .bind plain_load fun _ => .bind plain_assertThat fun _ => .bind plain_load fun _ =>
    plain_assertThat

theorem plain_accountCopied {source target : SegId} {size offset : Int} :
    Plain (accountCopied source target size offset) := by
  have decr : Plain (decrDeadItem source size) :=
    .bind (plain_store (fun _ => rfl) fun _ => rfl) fun _ => plain_store (fun _ => rfl) fun _ => rfl
  refine .bind plain_removeItemAt fun _ => .bind decr fun _ => ?_
  refine .bind plain_incrLiveItems fun _ => .bind plain_incrLiveBytes fun _ => ?_
  exact plain_store (fun _ => rfl) fun _ => rfl

theorem plain_endSweep : Plain (endSweep id) :=
  .bind plain_load fun _ => plain_storeAs (fun _ => rfl) fun _ => rfl

theorem plain_afterCondemn {next prev : Option SegId} : Plain (afterCondemn id next prev) := by
  refine .bind (plain_onLink fun _ => plain_updateLinks) fun _ => ?_
  refine .bind (plain_onLink fun _ => plain_updateLinks) fun _ => .bind plain_load fun readers => ?_
  refine .ite (fun _ => ?_) fun _ => .ret _
  refine .bind plain_tryReleaseCondemned fun released => .ite (fun _ => ?_) fun _ => .ret _
  exact .bind plain_resetWriteStats fun _ => .bind plain_returnSegment fun _ => .ret _

theorem plain_dropGuard : Plain (dropGuard id) := by
  refine .bind plain_releaseReaderForGuard fun prev => .ite (fun _ => ?_) fun _ => .ret _
  refine .bind plain_tryReleaseCondemned fun released => .ite (fun _ => ?_) fun _ => .ret _
  exact .bind plain_resetWriteStats fun _ => plain_pushFreed

theorem plain_acquireItemAt {tag : Nat} : Plain (acquireItemAt id tag) := by
  refine .bind plain_tryAcquireReader fun outcome => ?_
  cases outcome with
  | acquired =>
    refine .bind plain_load fun generation => .ite (fun _ => ?_) fun _ => .ret _
    exact .bind plain_dropGuard fun _ => .ret _
  | notReadable => exact .ret _
  | releaseCondemned =>
    exact .bind plain_resetWriteStats fun _ => .bind plain_returnSegment fun _ => .ret _

/-- The operations that take no segment out of service. -/
theorem plain_run (hands : Hands) {operation : Operation}
    (finalize : ∀ id, operation ≠ .finalize id)
    (retire : ∀ id next prev, operation ≠ .retire id next prev) : Plain (operation.run hands) := by
  cases operation with
  | pin kind id =>
    exact .bind plain_tryPin fun _ => .ite (fun _ => .ret _) fun _ => .ret _
  | unpin kind id =>
    exact .ite (fun _ => .bind plain_releasePin fun _ => .ret _) fun _ => .ret _
  | alloc id size segmentSize =>
    refine .bind plain_tryAllocItem fun outcome => ?_
    cases outcome with
    | reserved generation offset => exact .ret _
    | full => exact .ret _
    | notWritable => exact .ret _
  | removeItem id size => exact .bind plain_removeItemAt fun _ => .ret _
  | claim id => exact .bind plain_claimForDrain fun _ => .ite (fun _ => .ret _) fun _ => .ret _
  | claimMember id => exact .bind plain_claimMember fun _ => .ite (fun _ => .ret _) fun _ => .ret _
  | relocate source target size offset => exact .bind plain_accountCopied fun _ => .ret _
  | sweep id => exact .ite (fun _ => .bind plain_endSweep fun _ => .ret _) fun _ => .ret _
  | finalize id => exact absurd rfl (finalize id)
  | retire id next prev => exact absurd rfl (retire id next prev)
  | reserve fromSpare =>
    exact .bind (.ite (fun _ => plain_reserveSpare) fun _ => plain_reserveFree) fun _ => .ret _
  | use id purpose =>
    exact .ite (fun _ => .bind (plain_useReserved purpose) fun _ => .ret _) fun _ => .ret _
  | fill id next => exact .bind plain_fill fun _ => .ret _
  | publish id => exact .bind plain_fill fun _ => .ret _
  | relink id next prev => exact .bind plain_updateLinks fun _ => .ret _
  | acquire id tag => exact .bind plain_acquireItemAt fun _ => .ret _
  | drop id => exact .bind plain_dropGuard fun _ => .ret _

end Programs

/-! ### What a thread is doing -/

section Steps

variable {t : Tid} {id : SegId} {world now : PoolWorld Tid} {labels leaves : Option SegId}
  {pool : SegmentPool}

/-- The segments thread `t` is labelling and taking leave of. -/
def Part (t : Tid) (labels leaves : Option SegId) (world : PoolWorld Tid) : Prop :=
  ∀ id, world.history.2.labelling.count (id, t) = (if labels = some id then 1 else 0) ∧
    world.history.2.leaving.count (id, t) = if leaves = some id then 1 else 0

/-- A segment that no writer can pin, with the pool it stays in. -/
def Closed (t : Tid) (id : SegId) (pool : SegmentPool) (world : PoolWorld Tid) : Prop :=
  Closing t id world ∧ (world.shared.header id).pool = pool

theorem part_stable : pools.Stable t (Part t labels leaves) := by
  intro world after part moved _ id
  rw [moved.2.labelling id, moved.2.leaving id]
  exact part id

theorem closing_stable : pools.Stable t (Closing t id) :=
  fun _ _ closing moved _ => closing.rely moved.1

theorem closed_stable : pools.Stable t (Closed t id pool) :=
  fun _ _ closed moved _ => ⟨closed.1.rely moved.1, (moved.2.pool id closed.1).trans closed.2⟩

theorem Part.labelling_other (part : Part t none leaves world) {other : Tid}
    (member : (id, other) ∈ world.history.2.labelling) : other ≠ t := by
  rintro rfl
  have counted := (part id).1
  rw [if_neg (by simp)] at counted
  exact List.count_eq_zero.mp counted member

theorem Part.leaving_other (part : Part t labels none world) {other : Tid}
    (member : (id, other) ∈ world.history.2.leaving) : other ≠ t := by
  rintro rfl
  have counted := (part id).2
  rw [if_neg (by simp)] at counted
  exact List.count_eq_zero.mp counted member

theorem Part.labelling_mem (part : Part t (some id) leaves world) :
    (id, t) ∈ world.history.2.labelling := by
  have counted := (part id).1
  rw [if_pos rfl] at counted
  exact List.count_pos_iff.mp (counted ▸ Nat.one_pos)

theorem Part.leaving_mem (part : Part t labels (some id) world) :
    (id, t) ∈ world.history.2.leaving := by
  have counted := (part id).2
  rw [if_pos rfl] at counted
  exact List.count_pos_iff.mp (counted ▸ Nat.one_pos)

/-- No writer has a closed segment pinned. -/
theorem unpinned_of_closing (kept : pinDrain.inv world.base) (closing : Closing t id world) :
    (world.history.1 id).granted .writer = [] := by
  refine List.eq_nil_iff_forall_not_mem.mpr fun grant member => ?_
  rcases ((kept id).granted .writer grant member).1 with served | ⟨-, waiting⟩
  · have withheld := (kept id).owned t closing.1
    rw [not_withheld_of_removable served] at withheld
    cases withheld
  · cases waiting.symm.trans closing.2

/-- A segment that a writer has pinned may be labelled. -/
theorem admitting_of_granted (kept : pinDrain.inv world.base)
    (held : 0 < ((world.history.1 id).granted .writer).countP (·.holder = t)) :
    Admitting (world.shared.header id).metadata.state = true := by
  obtain ⟨grant, member, -⟩ := List.countP_pos_iff.mp held
  show Admitting (view world.base id).metadata.state = true
  rcases ((kept id).granted .writer grant member).1 with served | ⟨draining, -⟩
  · have removable : (view world.base id).metadata.state.isRemovable = true := served
    revert removable
    cases (view world.base id).metadata.state <;> decide
  · have state : (view world.base id).metadata.state = .draining := draining
    rw [state]
    rfl

/-! ### Steps that concern no label -/

/-- A step below keeps the layer if it changes no label and the segments that are labelled may be. -/
theorem kept_below {label : Label} {update : Shared → Shared}
    (pool : ∀ id, ((update now.shared).header id).pool = (now.shared.header id).pool)
    (count : (update now.shared).admissionCount = now.shared.admissionCount)
    (idle : ∀ id, (now.shared.header id).pool = .admission →
      Admitting ((update now.shared).header id).metadata.state = true)
    (part : Part t none none now)
    (runs : poolLayer.Runs t now (now.after pools.record t (.base label) update)) :
    poolLayer.Kept t now (now.after pools.record t (.base label) update) (Part t none none) := by
  refine ⟨⟨runs.layer.distinct, fun id => ?_, count.trans runs.layer.counted, fun id other member => ?_,
    fun id other member => ?_, fun id labelled => ?_, runs.layer.exact⟩, fun other different =>
    ⟨fun _ => rfl, fun _ => rfl, fun id _ => pool id⟩, part⟩
  · exact (iff_of_eq (congrArg (· = _) (pool id))).trans (runs.layer.labelled id)
  · have moved := runs.guaranteed other (part.labelling_other member) id
    have same := moved.granted .writer
    exact lt_of_lt_of_eq (runs.layer.labelling id other member) same.symm
  · exact (runs.layer.leaving id other member).rely
      (runs.guaranteed other (part.leaving_other member))
  · exact idle id ((pool id).symm.trans labelled)

theorem kept_inert {label : Label} {update : Shared → Shared}
    (inert : Inert now.shared (update now.shared)) (part : Part t none none now)
    (runs : poolLayer.Runs t now (now.after pools.record t (.base label) update)) :
    poolLayer.Kept t now (now.after pools.record t (.base label) update) (Part t none none) :=
  kept_below inert.pool inert.count
    (fun id labelled => inert.admitting id (runs.layer.idle id labelled)) part runs

/-! ### The steps on labels -/

theorem labelled_cons_labelling (history : PoolHistory Tid) :
    ({ history with labelling := (id, t) :: history.labelling } : PoolHistory Tid).labelled.Perm
      (id :: history.labelled) :=
  List.perm_middle

/-- Counting a label only moves it. -/
theorem labelled_count {history : PoolHistory Tid} (member : (id, t) ∈ history.labelling) :
    ({ history with
        counted := id :: history.counted
        labelling := history.labelling.erase (id, t) } : PoolHistory Tid).labelled.Perm
      history.labelled := by
  have split := ((List.perm_cons_erase member).map Prod.fst).append_right
    (history.leaving.map Prod.fst)
  exact List.perm_middle.symm.trans (split.symm.append_left history.counted)

/-- So does counting a segment out. -/
theorem labelled_countOut {history : PoolHistory Tid} {underflowed : Bool}
    (member : id ∈ history.counted) :
    ({ history with
        counted := history.counted.erase id
        leaving := (id, t) :: history.leaving
        underflowed := underflowed } : PoolHistory Tid).labelled.Perm history.labelled := by
  have moved : (history.labelling.map Prod.fst ++ id :: history.leaving.map Prod.fst).Perm
      (id :: (history.labelling.map Prod.fst ++ history.leaving.map Prod.fst)) := List.perm_middle
  refine (moved.append_left _).trans (List.perm_middle.trans ?_)
  exact (List.perm_cons_erase member).symm.append_right _

/-- And a reset takes the label off. -/
theorem labelled_reset {history : PoolHistory Tid} (member : (id, t) ∈ history.leaving) :
    history.labelled.Perm (id :: ({ history with
      leaving := history.leaving.erase (id, t) } : PoolHistory Tid).labelled) := by
  have split := ((List.perm_cons_erase member).map Prod.fst).append_left
    (history.labelling.map Prod.fst)
  exact ((split.trans List.perm_middle).append_left history.counted).trans List.perm_middle

/-- The state with another label on one segment. -/
abbrev withPool (state : Shared) (id : SegId) (pool : SegmentPool) : Shared :=
  state.modifyHeader id fun header => { header with pool := pool }

theorem withPool_metadata (state : Shared) (other : SegId) :
    ((withPool state id pool).header other).metadata = (state.header other).metadata := by
  by_cases same : other = id
  · subst same
    rw [Shared.modifyHeader_self]
  · rw [Shared.modifyHeader_of_ne _ _ _ same]

theorem withPool_same {state : Shared} (same : (state.header id).pool = pool) :
    withPool state id pool = state := by
  have header : { state.header id with pool := pool } = state.header id := by rw [← same]
  rw [withPool, Shared.modifyHeader, header, Function.update_eq_self]

/-- An insert labels a segment it has pinned. -/
theorem kept_casPool (held : 0 < ((now.history.1 id).granted .writer).countP (·.holder = t))
    (part : Part t none none now) (main : (now.shared.header id).pool = .main)
    (runs : poolLayer.Runs t now (now.after pools.record t (.casPool id) (withPool · id .admission))) :
    poolLayer.Kept t now (now.after pools.record t (.casPool id) (withPool · id .admission))
      (Part t (some id) none) := by
  have shape : now.after pools.record t (.casPool id) (withPool · id .admission) =
      ⟨withPool now.shared id .admission, now.history.1,
        { now.history.2 with labelling := (id, t) :: now.history.2.labelling }⟩ :=
    World.ext rfl (Prod.ext rfl (if_pos main))
  have perm := @labelled_cons_labelling _ _ t id now.history.2
  have fresh : id ∉ now.history.2.labelled := fun inside =>
    nomatch main.symm.trans ((runs.layer.labelled id).mpr inside)
  have others : ∀ other, other ≠ id →
      ((withPool now.shared id .admission).header other).pool = (now.shared.header other).pool :=
    fun other different => by rw [Shared.modifyHeader_of_ne _ _ _ different]
  rw [shape]
  refine ⟨⟨?_, fun other => ?_, ?_, fun other u member => ?_, fun other u member => ?_,
    fun other labelled => ?_, ?_⟩, fun other different => ⟨fun seg => ?_, fun seg => ?_,
    fun seg closing => ?_⟩, fun seg => ?_⟩
  · exact perm.nodup_iff.mpr (List.nodup_cons.mpr ⟨fresh, runs.layer.distinct⟩)
  · refine Iff.trans ?_ perm.mem_iff.symm
    rw [List.mem_cons]
    by_cases same : other = id
    · subst same
      rw [Shared.modifyHeader_self]
      exact iff_of_true rfl (.inl rfl)
    · rw [others other same, runs.layer.labelled other]
      exact (or_iff_right same).symm
  · exact runs.layer.counted
  · rcases List.mem_cons.mp member with new | before
    · cases new
      exact held
    · exact runs.layer.labelling other u before
  · exact runs.layer.leaving other u member
  · refine (congrArg (Admitting ·.state) (withPool_metadata now.shared other)).trans ?_
    by_cases same : other = id
    · subst same
      exact admitting_of_granted runs.base held
    · exact runs.layer.idle other ((others other same).symm.trans labelled)
  · exact runs.layer.exact
  · exact List.count_cons_of_ne fun same => different (Prod.mk.inj same).2.symm
  · rfl
  · by_cases same : seg = id
    · subst same
      have unpinned := unpinned_of_closing runs.base closing
      rw [unpinned] at held
      cases held
    · exact others seg same
  · refine ⟨?_, (part seg).2⟩
    refine List.count_cons.trans ?_
    rw [(part seg).1]
    by_cases same : id = seg <;> simp [same]

/-- And counts its label. -/
theorem kept_incrPool (part : Part t (some id) none now) (runs : poolLayer.Runs t now
      (now.after pools.record t (.incrPool id) fun state : Shared =>
        { state with admissionCount := state.admissionCount + 1 })) :
    poolLayer.Kept t now (now.after pools.record t (.incrPool id) fun state : Shared =>
        { state with admissionCount := state.admissionCount + 1 }) (Part t none none) := by
  have member := part.labelling_mem
  have perm := labelled_count member
  refine ⟨⟨?_, fun other => ?_, ?_, fun other u member => ?_, runs.layer.leaving, runs.layer.idle,
    runs.layer.exact⟩, fun other different => ⟨fun seg => ?_, fun _ => rfl, fun _ _ => rfl⟩,
    fun seg => ⟨?_, (part seg).2⟩⟩
  · exact perm.nodup_iff.mpr runs.layer.distinct
  · exact (runs.layer.labelled other).trans perm.mem_iff.symm
  · exact congrArg (· + 1) runs.layer.counted
  · exact runs.layer.labelling other u (List.mem_of_mem_erase member)
  · exact List.count_erase_of_ne fun same => different (Prod.mk.inj same).2
  · by_cases same : id = seg
    · subst same
      refine List.count_erase_self.trans ?_
      rw [(part id).1, if_pos rfl, if_neg (by simp)]
    · refine (List.count_erase_of_ne fun equal => same (Prod.mk.inj equal).1.symm).trans ?_
      rw [(part seg).1, if_neg (by simpa using same), if_neg (by simp)]

/-- A closed segment that is labelled has been counted. -/
theorem counted_of_closed (kept : pinDrain.inv now.base) (ok : PoolsOk now)
    (part : Part t none none now) (closed : Closed t id .admission now) :
    id ∈ now.history.2.counted := by
  have inside := (ok.labelled id).mp closed.2
  rcases List.mem_append.mp inside with counted | between
  · exact counted
  · exfalso
    rcases List.mem_append.mp between with labelling | leaving
    · obtain ⟨⟨_, other⟩, member, rfl⟩ := List.mem_map.mp labelling
      have held := ok.labelling _ other member
      rw [unpinned_of_closing kept closed.1] at held
      cases held
    · obtain ⟨⟨_, other⟩, member, rfl⟩ := List.mem_map.mp leaving
      have theirs := (ok.leaving _ other member).1
      exact part.leaving_other member (Option.some.inj (theirs.symm.trans closed.1.1))

/-- A drainer counts a labelled segment out; the count is not zero then. -/
theorem kept_decrPool (part : Part t none none now) (closed : Closed t id .admission now)
    (runs : poolLayer.Runs t now (now.after pools.record t (.decrPool id) fun state : Shared =>
      { state with admissionCount := state.admissionCount - 1 })) :
    poolLayer.Kept t now (now.after pools.record t (.decrPool id) fun state : Shared =>
      { state with admissionCount := state.admissionCount - 1 }) (Part t none (some id)) := by
  have member := counted_of_closed runs.base runs.layer part closed
  have perm := @labelled_countOut _ _ t id now.history.2
    (now.history.2.underflowed || now.shared.admissionCount = 0) member
  have some : 0 < now.shared.admissionCount := by
    rw [runs.layer.counted]
    exact List.length_pos_of_mem member
  refine ⟨⟨?_, fun other => ?_, ?_, runs.layer.labelling, fun other u inside => ?_, runs.layer.idle,
    ?_⟩, fun other different => ⟨fun _ => rfl, fun seg => ?_, fun _ _ => rfl⟩,
    fun seg => ⟨(part seg).1, ?_⟩⟩
  · exact perm.nodup_iff.mpr runs.layer.distinct
  · exact (runs.layer.labelled other).trans perm.mem_iff.symm
  · show now.shared.admissionCount - 1 = (now.history.2.counted.erase id).length
    rw [runs.layer.counted, List.length_erase_of_mem member]
  · rcases List.mem_cons.mp inside with new | before
    · cases new
      exact closed.1
    · exact runs.layer.leaving other u before
  · show (now.history.2.underflowed || decide (now.shared.admissionCount = 0)) = false
    rw [runs.layer.exact, decide_eq_false (Nat.ne_of_gt some)]
    rfl
  · exact List.count_cons_of_ne fun same => different (Prod.mk.inj same).2.symm
  · refine List.count_cons.trans ?_
    rw [(part seg).2]
    by_cases same : id = seg <;> simp [same]

/-- It takes the label off. -/
theorem kept_resetPool (part : Part t none (some id) now) (closing : Closing t id now)
    (runs : poolLayer.Runs t now
      (now.after pools.record t (.resetPool id) (withPool · id .main))) :
    poolLayer.Kept t now (now.after pools.record t (.resetPool id) (withPool · id .main))
      fun after => Part t none none after ∧ Closed t id .main after := by
  have member := part.leaving_mem
  have perm := labelled_reset member
  obtain ⟨gone, distinct⟩ := List.nodup_cons.mp (perm.nodup_iff.mp runs.layer.distinct)
  have here : ((withPool now.shared id .main).header id).pool = .main := by
    rw [Shared.modifyHeader_self]
  have others : ∀ other, other ≠ id →
      ((withPool now.shared id .main).header other).pool = (now.shared.header other).pool :=
    fun other different => by rw [Shared.modifyHeader_of_ne _ _ _ different]
  refine ⟨⟨distinct, fun other => ?_, runs.layer.counted, runs.layer.labelling,
    fun other u inside => ?_, fun other labelled => ?_, runs.layer.exact⟩, fun other different =>
    ⟨fun _ => rfl, fun seg => ?_, fun seg theirs => ?_⟩, fun seg => ⟨(part seg).1, ?_⟩,
    closing, here⟩
  · by_cases same : other = id
    · subst same
      exact iff_of_false (fun labelled => nomatch here.symm.trans labelled) gone
    · refine (iff_of_eq (congrArg (· = _) (others other same))).trans
        ((runs.layer.labelled other).trans (perm.mem_iff.trans ?_))
      rw [List.mem_cons]
      exact or_iff_right same
  · exact runs.layer.leaving other u (List.mem_of_mem_erase inside)
  · by_cases same : other = id
    · subst same
      cases here.symm.trans labelled
    · refine (congrArg (Admitting ·.state) (withPool_metadata now.shared other)).trans ?_
      exact runs.layer.idle other ((others other same).symm.trans labelled)
  · exact List.count_erase_of_ne fun same => different (Prod.mk.inj same).2
  · by_cases same : seg = id
    · subst same
      exact (different (Option.some.inj (theirs.1.symm.trans closing.1))).elim
    · exact others seg same
  · by_cases same : id = seg
    · subst same
      refine List.count_erase_self.trans ?_
      rw [(part id).2, if_pos rfl, if_neg (by simp)]
    · refine (List.count_erase_of_ne fun equal => same (Prod.mk.inj equal).1.symm).trans ?_
      rw [(part seg).2, if_neg (by simpa using same), if_neg (by simp)]

/-- A segment without a label has none to take off. -/
theorem resetPool_same (part : Part t labels none now)
    (main : (now.shared.header id).pool = .main) :
    now.after pools.record t (.resetPool id) (withPool · id .main) = now := by
  have absent : (id, t) ∉ now.history.2.leaving := fun member => part.leaving_other member rfl
  have same : record t (.resetPool id) now.shared now.history.2 = now.history.2 := by
    show { now.history.2 with leaving := now.history.2.leaving.erase (id, t) } = now.history.2
    rw [List.erase_of_not_mem absent]
  exact World.ext (withPool_same main) (Prod.ext rfl same)

end Steps

end CacheRs.Segments.Drains.Admission
