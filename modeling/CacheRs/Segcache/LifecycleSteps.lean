/-
**What the lifecycle's procedures do.**

Each procedure that touches the chains, the queues or the states, as a function of the cache it runs
in, and what of its shape that changes.

* `OnlyLinks`: a step on a segment's links only;
* `reserveFree_apply`, `reserveSpare_apply`, `releaseUnused_apply`: the queues;
* `linkDestBefore_apply`, `unlink_apply`, `recycle_apply`, `condemn_apply`: the chains;
-/

import CacheRs.Segcache.Scans
import CacheRs.Segcache.Shape

set_option linter.unusedSectionVars false

namespace CacheRs.Segcache

open Segments (SegId State)
open Sequential Procedure

/-- Two states of a segment that differ in its links at most. -/
def OnlyLinks (before after : Segment) : Prop :=
  ∃ next prev, after = { before with next := next, prev := prev }

namespace Segment

/-- A reserved segment is blank. -/
def reserved (config : Config) (now : Nat) (segment : Segment) : Segment :=
  { segment.resetWriteStats config with
    state := .reserved
    next := none
    prev := none
    createAt := now
    mergeAt := now }

def released (segment : Segment) : Segment :=
  { segment with state := .free, next := none, prev := none }

end Segment

namespace Cache

variable (config : Config) (cache : Cache)

/-- A segment goes to a queue. -/
def returned (id : SegId) : Cache :=
  if config.spareCapacity ≤ cache.spareCount then
    { cache with freeQueue := cache.freeQueue ++ [id], freed := cache.freed + 1 }
  else { cache with spareQueue := cache.spareQueue ++ [id], spareCount := cache.spareCount + 1 }

/-- A member's neighbours are patched past it. -/
def patched (id : SegId) : Cache :=
  { cache with
    segment := fun i =>
      { cache.segment i with
        next := if (cache.segment id).prev = some i then (cache.segment id).next
          else (cache.segment i).next
        prev := if (cache.segment id).next = some i then (cache.segment id).prev
          else (cache.segment i).prev } }

/-- A segment has left its pool. -/
def poolLeft (id : SegId) : Cache :=
  { cache with
    admissionCount := if (cache.segment id).pool = .admission then cache.admissionCount - 1
      else cache.admissionCount
    segment := Function.update cache.segment id { cache.segment id with pool := .main } }

end Cache

variable {config : Config} {cache middle after : Cache} {id : SegId} {α β : Type}

theorem OnlyLinks.refl (segment : Segment) : OnlyLinks segment segment := ⟨_, _, rfl⟩

theorem OnlyLinks.trans {one two three : Segment} (first : OnlyLinks one two)
    (second : OnlyLinks two three) : OnlyLinks one three := by
  obtain ⟨next, prev, rfl⟩ := first
  obtain ⟨next', prev', rfl⟩ := second
  exact ⟨next', prev', rfl⟩

/-! ### Shapes -/

@[simp] theorem shape_node (i : SegId) : cache.shape.node i = (cache.segment i).node := rfl

@[simp] theorem setSegment_shape (segment : Segment) :
    (cache.setSegment id segment).shape = cache.shape.setNode id segment.node := by
  refine Shape.ext (funext fun i => ?_) rfl rfl rfl rfl rfl
  show (Function.update cache.segment id segment i).node = _
  rw [Shape.setNode_node, Function.update_apply]
  split
  · rfl
  · rfl

theorem setSegment_self (cache : Cache) (id : SegId) (segment : Segment) :
    (cache.setSegment id segment).segment id = segment := Function.update_self ..

theorem setSegment_of_ne {i : SegId} (different : i ≠ id) (segment : Segment) :
    (cache.setSegment id segment).segment i = cache.segment i := Function.update_of_ne different ..

theorem setSegment_setSegment (one two : Segment) :
    (cache.setSegment id one).setSegment id two = cache.setSegment id two := by
  unfold Cache.setSegment
  rw [Function.update_idem]

@[simp] theorem returned_shape : (cache.returned config id).shape = cache.shape.returned config id := by
  unfold Cache.returned Shape.returned
  show (if config.spareCapacity ≤ cache.spareCount then _ else _ : Cache).shape =
    if config.spareCapacity ≤ cache.spareCount then _ else _
  split <;> rfl

@[simp] theorem returned_segment : (cache.returned config id).segment = cache.segment := by
  unfold Cache.returned
  split <;> rfl

theorem returned_table : (cache.returned config id).table = cache.table := by
  unfold Cache.returned
  split <;> rfl

theorem returned_now : (cache.returned config id).now = cache.now := by
  unfold Cache.returned
  split <;> rfl

theorem returned_eviction : (cache.returned config id).eviction = cache.eviction := by
  unfold Cache.returned
  split <;> rfl

theorem returned_bucket : (cache.returned config id).bucket = cache.bucket := by
  unfold Cache.returned
  split <;> rfl

theorem returned_lastExpired : (cache.returned config id).lastExpired = cache.lastExpired := by
  unfold Cache.returned
  split <;> rfl

theorem returned_freed : (cache.returned config id).freed =
    cache.freed + if config.spareCapacity ≤ cache.spareCount then 1 else 0 := by
  unfold Cache.returned
  split <;> rfl

@[simp] theorem patched_shape : (cache.patched id).shape = cache.shape.patched id := rfl

theorem poolLeft_shape : (cache.poolLeft id).shape = cache.shape := by
  refine Shape.ext (funext fun i => ?_) rfl rfl rfl rfl rfl
  show (Function.update cache.segment id { cache.segment id with pool := .main } i).node = _
  by_cases same : i = id
  · rw [same, Function.update_self]
    rfl
  · rw [Function.update_of_ne same]
    rfl

/-! ### State changes -/

theorem casMetadata_apply {expected new : State} (newNext newPrev : Option (Option SegId))
    (state : (cache.segment id).state = expected) :
    casMetadata id expected new newNext newPrev cache =
      some (true, cache.setSegment id
        { cache.segment id with
          state := new
          next := newNext.getD (cache.segment id).next
          prev := newPrev.getD (cache.segment id).prev }) := by
  rw [casMetadata, exchange_apply]
  simp only [state, if_true]

theorem casMetadata_lost {expected new : State} (newNext newPrev : Option (Option SegId))
    (state : (cache.segment id).state ≠ expected) :
    casMetadata id expected new newNext newPrev cache = some (false, cache) := by
  rw [casMetadata, exchange_apply]
  simp only [state, if_false]

theorem modifySegment_apply (update : Segment → Segment) :
    modifySegment id update cache = some ((), cache.setSegment id (update (cache.segment id))) := rfl

/-! ### Queues -/

theorem tryReserve_apply (free : (cache.segment id).state = .free) :
    tryReserve config id cache =
      some (true, cache.setSegment id ((cache.segment id).reserved config cache.now)) := by
  unfold tryReserve
  rw [bind_apply_of_some (casMetadata_apply _ _ free)]
  simp only [Bool.not_true, Bool.false_eq_true, if_false, modifySegment, change_bind, read_bind,
    pure_apply, setSegment_self, setSegment_setSegment]
  rfl

theorem reserveFree_nil (empty : cache.freeQueue = []) :
    reserveFree config cache = some (none, cache) := by
  unfold reserveFree stealFree
  rw [exchange_bind]
  simp only [empty, List.head?_nil, List.tail_nil, pure_apply]
  rw [← empty]

theorem reserveFree_cons {rest : List SegId} (queue : cache.freeQueue = id :: rest)
    (free : (cache.segment id).state = .free) :
    reserveFree config cache = some (some id, { cache with freeQueue := rest }.setSegment id
      ((cache.segment id).reserved config cache.now)) := by
  unfold reserveFree stealFree
  rw [exchange_bind]
  simp only [queue, List.head?_cons, List.tail_cons]
  have ran : tryReserve config id { cache with freeQueue := rest } =
      some (true, { cache with freeQueue := rest }.setSegment id
        ((cache.segment id).reserved config cache.now)) := tryReserve_apply free
  rw [bind_apply_of_some ran, if_pos rfl, pure_apply]

theorem reserveSpare_nil (empty : cache.spareQueue = []) :
    reserveSpare config cache = reserveFree config cache := by
  unfold reserveSpare stealSpare
  rw [exchange_bind]
  simp only [empty, List.head?_nil, List.tail_nil]
  rw [← empty]

theorem reserveSpare_cons {rest : List SegId} (queue : cache.spareQueue = id :: rest)
    (free : (cache.segment id).state = .free) :
    reserveSpare config cache = some (some id,
      { cache with spareQueue := rest, spareCount := cache.spareCount - 1 }.setSegment id
        ((cache.segment id).reserved config cache.now)) := by
  unfold reserveSpare stealSpare
  rw [exchange_bind]
  simp only [queue, List.head?_cons, List.tail_cons]
  have ran : tryReserve config id { cache with spareQueue := rest } =
      some (true, { cache with spareQueue := rest }.setSegment id
        ((cache.segment id).reserved config cache.now)) := tryReserve_apply free
  rw [bind_apply_of_some ran, if_pos rfl, change_bind, pure_apply]
  rfl

theorem returnSegment_apply : returnSegment config id cache =
    some ((), cache.returned config id) := by
  unfold returnSegment Cache.returned
  rw [read_bind]
  split
  · rfl
  · rw [change_bind]
    rfl

theorem releaseUnused_apply (fresh : (cache.segment id).state = .reserved) :
    releaseUnused config id cache =
      some ((), (cache.setSegment id (cache.segment id).released).returned config id) := by
  unfold releaseUnused
  have ran : tryRelease id cache = some (true, cache.setSegment id (cache.segment id).released) := by
    unfold tryRelease
    rw [bind_apply_of_some (casMetadata_apply _ _ fresh)]
    rfl
  rw [bind_apply_of_some ran, Procedure.assertThat, if_pos rfl, pure_bind_apply, returnSegment_apply]

/-! ### Chains -/

theorem unlink_apply (next : (cache.segment id).next ≠ some id) :
    unlink id cache = some ((), cache.patched id) := by
  have segments : ∀ segment : SegId → Segment, (∀ i, segment i = (cache.patched id).segment i) →
      { cache with segment := segment } = cache.patched id := by
    intro segment same
    rw [funext same]
    rfl
  unfold unlink segmentOf
  rw [read_bind]
  cases nextCase : (cache.segment id).next with
  | none =>
    simp only [read_bind]
    cases prevCase : (cache.segment id).prev with
    | none =>
      simp only [pure_apply]
      rw [← segments cache.segment fun i => by simp [Cache.patched, nextCase, prevCase]]
    | some before =>
      simp only [read_bind, updateLinks, modifySegment, change_apply]
      refine congrArg (fun after => some ((), after)) (segments _ fun i => ?_)
      rw [Function.update_apply]
      by_cases same : i = before
      · subst same
        simp [Cache.patched, nextCase, prevCase]
      · simp [Cache.patched, nextCase, prevCase, same, Ne.symm same]
  | some next' =>
    have different : id ≠ next' := fun same => next (by rw [nextCase, same])
    simp only [read_bind, updateLinks, modifySegment, change_bind, setSegment_of_ne different]
    cases prevCase : (cache.segment id).prev with
    | none =>
      simp only [pure_apply]
      refine congrArg (fun after => some ((), after)) (segments _ fun i => ?_)
      rw [Function.update_apply]
      by_cases same : i = next'
      · subst same
        simp [Cache.patched, nextCase, prevCase]
      · simp [Cache.patched, nextCase, prevCase, same, Ne.symm same]
    | some before =>
      simp only [read_bind, change_apply, setSegment_of_ne different]
      refine congrArg (fun after => some ((), after)) (segments _ fun i => ?_)
      rw [Function.update_apply]
      by_cases same : i = before
      · subst same
        by_cases both : i = next'
        · subst both
          simp [Cache.patched, Cache.setSegment, nextCase, prevCase]
        · simp [Cache.patched, Cache.setSegment, nextCase, prevCase, both, Ne.symm both]
      · by_cases isNext : i = next'
        · subst isNext
          simp [Cache.patched, Cache.setSegment, nextCase, prevCase, same, Ne.symm same]
        · simp [Cache.patched, Cache.setSegment, nextCase, prevCase, same, Ne.symm same, isNext,
            Ne.symm isNext]

theorem leavePool_apply : leavePool id cache = some ((), cache.poolLeft id) := by
  unfold leavePool segmentOf Cache.poolLeft
  rw [read_bind]
  by_cases pool : (cache.segment id).pool = .admission
  · simp only [pool, if_true, change_bind]
    rfl
  · simp only [pool, if_false]
    rfl

namespace Cache

variable (config : Config) (cache : Cache) (id : SegId)

/-- A drained segment is recycled. -/
def recycled : Cache :=
  let cache := (cache.patched id).poolLeft id
  (cache.setSegment id
    { ((cache.segment id).resetWriteStats config).released with
      generation := (cache.segment id).generation + 1 }).returned config id

/-- A drained segment that is still read waits. -/
def condemned : Cache :=
  let cache := (cache.patched id).poolLeft id
  cache.setSegment id { cache.segment id with state := .awaitingRelease, next := none, prev := none }

/-- A drained segment leaves its chain. -/
def retired : Cache :=
  if (cache.segment id).refCount = 0 then cache.recycled config id else cache.condemned id

end Cache

theorem recycle_apply (state : (cache.segment id).state = .draining)
    (next : (cache.segment id).next ≠ some id) :
    recycle config id cache = some ((), cache.recycled config id) := by
  unfold recycle tryReleaseDrained
  rw [bind_apply_of_some (unlink_apply next), bind_apply_of_some leavePool_apply]
  simp only [modifySegment, change_bind]
  have draining : ((((cache.patched id).poolLeft id).setSegment id
      ((((cache.patched id).poolLeft id).segment id).resetWriteStats config)).segment id).state =
      .draining := by
    rw [setSegment_self]
    show (Function.update (cache.patched id).segment id _ id).state = _
    rw [Function.update_self]
    exact state
  have released : casMetadata id .draining .free (some none) (some none)
      (((cache.patched id).poolLeft id).setSegment id
        ((((cache.patched id).poolLeft id).segment id).resetWriteStats config)) = some (true, _) :=
    casMetadata_apply _ _ draining
  rw [bind_apply_of_some (bind_apply_of_some released), returnSegment_apply]
  simp only [setSegment_setSegment, setSegment_self]
  rfl

theorem condemn_apply (state : (cache.segment id).state = .draining)
    (pinned : (cache.segment id).refCount ≠ 0) (next : (cache.segment id).next ≠ some id)
    (prev : (cache.segment id).prev ≠ some id) :
    condemn config id (cache.segment id).next (cache.segment id).prev cache =
      some (.deferred, cache.condemned id) := by
  have draining : ((cache.poolLeft id).segment id).state = .draining := by
    show (Function.update cache.segment id _ id).state = _
    rw [Function.update_self]
    exact state
  have own : (cache.condemned id).segment id = { cache.segment id with
      state := .awaitingRelease, next := none, prev := none, pool := .main } := by
    simp [Cache.condemned, Cache.poolLeft, Cache.patched, Cache.setSegment]
  have others : ∀ i, i ≠ id → (cache.condemned id).segment i = (cache.patched id).segment i := by
    intro i different
    simp [Cache.condemned, Cache.poolLeft, Cache.setSegment, different]
  obtain ⟨waiting, named⟩ : ∃ waiting, waiting = (cache.poolLeft id).setSegment id
      { (cache.poolLeft id).segment id with state := .awaitingRelease, next := none, prev := none } :=
    ⟨_, rfl⟩
  have waits : casMetadata id .draining .awaitingRelease (some none) (some none)
      (cache.poolLeft id) = some (true, waiting) := by
    rw [named]
    exact casMetadata_apply _ _ draining
  have self : waiting.segment id = (cache.condemned id).segment id := by
    rw [own, named, setSegment_self]
    simp [Cache.poolLeft]
  have rest : ∀ i, i ≠ id → waiting.segment i = cache.segment i := by
    intro i different
    rw [named, setSegment_of_ne different]
    simp [Cache.poolLeft, different]
  have segments : ∀ segment : SegId → Segment,
      (∀ i, segment i = if i = id then waiting.segment id else (cache.patched id).segment i) →
      some (ClearOutcome.deferred, { waiting with segment := segment }) =
        some (ClearOutcome.deferred, cache.condemned id) := by
    intro segment same
    have all : segment = (cache.condemned id).segment := by
      funext i
      rw [same]
      by_cases here : i = id
      · rw [if_pos here, self, here]
      · rw [if_neg here, others i here]
    rw [all, named]
    rfl
  have held : (waiting.segment id).refCount ≠ 0 := by
    rw [self, own]
    exact pinned
  unfold condemn segmentOf
  rw [bind_apply_of_some leavePool_apply, bind_apply_of_some waits]
  cases prevCase : (cache.segment id).prev with
  | none =>
    cases nextCase : (cache.segment id).next with
    | none =>
      simp only [read_bind, held, if_false, pure_apply]
      refine segments waiting.segment fun i => ?_
      by_cases here : i = id
      · rw [if_pos here, here]
      · simp [here, rest i here, Cache.patched, prevCase, nextCase]
    | some behind =>
      have notBehind : id ≠ behind := fun same => next (by rw [nextCase, same])
      simp only [updateLinks, modifySegment, change_bind, read_bind, setSegment_of_ne notBehind, held,
        if_false, pure_apply]
      refine segments _ fun i => ?_
      rw [Function.update_apply]
      by_cases here : i = id
      · simp [here, notBehind]
      · by_cases same : i = behind
        · subst same
          simp [here, rest i here, Cache.patched, prevCase, nextCase]
        · simp [here, rest i here, Cache.patched, prevCase, nextCase, same, Ne.symm same]
  | some before =>
    have notBefore : id ≠ before := fun same => prev (by rw [prevCase, same])
    cases nextCase : (cache.segment id).next with
    | none =>
      simp only [updateLinks, modifySegment, change_bind, read_bind, setSegment_of_ne notBefore, held,
        if_false, pure_apply]
      refine segments _ fun i => ?_
      rw [Function.update_apply]
      by_cases here : i = id
      · simp [here, notBefore]
      · by_cases same : i = before
        · subst same
          simp [here, rest i here, Cache.patched, prevCase, nextCase]
        · simp [here, rest i here, Cache.patched, prevCase, nextCase, same, Ne.symm same]
    | some behind =>
      have notBehind : id ≠ behind := fun same => next (by rw [nextCase, same])
      simp only [updateLinks, modifySegment, change_bind, read_bind, setSegment_of_ne notBefore,
        setSegment_of_ne notBehind, held, if_false, pure_apply]
      refine segments _ fun i => ?_
      rw [Function.update_apply]
      by_cases here : i = id
      · simp [here, notBefore, notBehind, Cache.setSegment]
      · by_cases isNext : i = behind
        · subst isNext
          by_cases same : i = before
          · subst same
            simp [here, rest i here, Cache.setSegment, Cache.patched, prevCase, nextCase]
          · simp [here, rest i here, Cache.setSegment, Cache.patched, prevCase, nextCase, same,
              Ne.symm same]
        · by_cases same : i = before
          · subst same
            simp [here, rest i here, Cache.setSegment, Cache.patched, prevCase, nextCase, isNext,
              Ne.symm isNext]
          · simp [here, rest i here, Cache.setSegment, Cache.patched, prevCase, nextCase, same,
              Ne.symm same, isNext, Ne.symm isNext]

/-- A claimed segment leaves its chain. -/
theorem retired_shape : (cache.retired config id).shape = cache.shape.left config id := by
  unfold Cache.retired
  simp only [Shape.left, shape_node]
  show (if (cache.segment id).refCount = 0 then _ else _ : Cache).shape =
    if (cache.segment id).refCount = 0 then _ else _
  split
  · rw [Cache.recycled, returned_shape, setSegment_shape, poolLeft_shape, patched_shape]
    simp [Segment.node, Segment.released, Segment.resetWriteStats, Cache.poolLeft, Cache.patched]
  · rw [Cache.condemned, setSegment_shape, poolLeft_shape, patched_shape]
    simp [Segment.node, Cache.poolLeft, Cache.patched]

theorem retired_others {i : SegId} (different : i ≠ id) :
    (cache.retired config id).segment i = (cache.patched id).segment i := by
  unfold Cache.retired
  split
  · simp [Cache.recycled, Cache.poolLeft, setSegment_of_ne different, different]
  · simp [Cache.condemned, Cache.poolLeft, setSegment_of_ne different, different]

theorem onlyLinks_patched (i : SegId) :
    OnlyLinks (cache.segment i) ((cache.patched id).segment i) := ⟨_, _, rfl⟩

theorem retired_table : (cache.retired config id).table = cache.table := by
  unfold Cache.retired
  split
  · rw [Cache.recycled, returned_table]
    rfl
  · rfl

theorem retired_now : (cache.retired config id).now = cache.now := by
  unfold Cache.retired
  split
  · rw [Cache.recycled, returned_now]
    rfl
  · rfl

theorem retired_eviction : (cache.retired config id).eviction = cache.eviction := by
  unfold Cache.retired
  split
  · rw [Cache.recycled, returned_eviction]
    rfl
  · rfl

theorem retired_bucket : (cache.retired config id).bucket = cache.bucket := by
  unfold Cache.retired
  split
  · rw [Cache.recycled, returned_bucket]
    rfl
  · rfl

/-! ### Entering a chain -/

namespace Cache

variable (cache : Cache)

/-- A reserved segment is put before a member of a bucket's chain. -/
def linked (this member : SegId) (b : Nat) : Cache :=
  let before := (cache.segment member).prev
  { cache with
    segment := fun i =>
      if i = this then
        { cache.segment i with state := .relinking, next := some member, prev := before }
      else
        { cache.segment i with
          next := if before = some i then some this else (cache.segment i).next
          prev := if i = member then some this else (cache.segment i).prev }
    bucket := if before = none then
        Function.update cache.bucket b { cache.bucket b with head := some this }
      else cache.bucket }

end Cache

theorem linked_shape (this member : SegId) (b : Nat) :
    (cache.linked this member b).shape = cache.shape.linked this member b := by
  refine Shape.ext (funext fun i => ?_) (funext fun c => ?_) (funext fun c => ?_) rfl rfl rfl
  · simp only [Shape.linked, shape_node]
    show ((cache.linked this member b).segment i).node = _
    simp only [Cache.linked]
    split <;> rfl
  · simp only [Shape.linked]
    show ((cache.linked this member b).bucket c).head = _
    have prev : (cache.shape.node member).prev = (cache.segment member).prev := rfl
    rw [prev]
    cases prevCase : (cache.segment member).prev with
    | none =>
      simp only [Cache.linked, prevCase, if_true, Function.update_apply]
      split <;> rfl
    | some before =>
      simp only [Cache.linked, prevCase, reduceCtorEq, if_false]
      rfl
  · show ((cache.linked this member b).bucket c).tail = (cache.bucket c).tail
    simp only [Cache.linked]
    split
    · rw [Function.update_apply]
      split
      · rename_i same
        rw [same]
      · rfl
    · rfl

theorem linked_others {this member : SegId} {i : SegId} (different : i ≠ this) (b : Nat) :
    OnlyLinks (cache.segment i) ((cache.linked this member b).segment i) := by
  simp only [Cache.linked, if_neg different]
  exact ⟨_, _, rfl⟩

theorem linked_self (this member : SegId) (b : Nat) : (cache.linked this member b).segment this =
    { cache.segment this with
      state := .relinking, next := some member, prev := (cache.segment member).prev } := by
  simp only [Cache.linked, if_true]

theorem linkDestBefore_apply {this member : SegId} {b : Nat} (different : this ≠ member)
    (state : (cache.segment this).state = .reserved)
    (prev : (cache.segment member).prev ≠ some this) :
    linkDestBefore this member b cache = some ((), cache.linked this member b) := by
  have segments : ∀ (segment : SegId → Segment) (bucket : Nat → TtlBucket),
      (∀ i, segment i = (cache.linked this member b).segment i) →
      bucket = (cache.linked this member b).bucket →
      some ((), { cache with segment := segment, bucket := bucket }) =
        some ((), cache.linked this member b) := by
    intro segment bucket same sameBucket
    rw [funext same, sameBucket]
    rfl
  unfold linkDestBefore segmentOf
  rw [read_bind, bind_apply_of_some (casMetadata_apply _ _ state)]
  cases prevCase : (cache.segment member).prev with
  | none =>
    simp only [setHead, modifyBucket, updateLinks, modifySegment, change_bind]
    rw [bind_apply_of_some (casMetadata_apply none none ?linking), pure_apply]
    case linking => simp [Cache.setSegment, different]
    refine segments _ _ (fun i => ?_) ?_
    · simp only [Cache.setSegment, Function.update_apply, Cache.linked, prevCase]
      by_cases isNew : i = this
      · subst isNew
        simp [different]
      · by_cases isMember : i = member
        · subst isMember
          simp [isNew]
        · simp [isNew, isMember]
    · simp [Cache.linked, prevCase, Cache.setSegment]
  | some before =>
    have notBefore : this ≠ before := fun same => prev (by rw [prevCase, same])
    simp only [updateLinks, modifySegment, change_bind]
    rw [bind_apply_of_some (casMetadata_apply none none ?linking), pure_apply]
    case linking => simp [Cache.setSegment, different, notBefore]
    refine segments _ _ (fun i => ?_) ?_
    · simp only [Cache.setSegment, Function.update_apply, Cache.linked, prevCase]
      by_cases isNew : i = this
      · subst isNew
        simp [different, notBefore]
      · by_cases isMember : i = member
        · subst isMember
          by_cases isBefore : i = before
          · subst isBefore
            simp [isNew]
          · simp [isNew, isBefore, Ne.symm isBefore]
        · by_cases isBefore : i = before
          · subst isBefore
            simp [isNew, isMember]
          · simp [isNew, isMember, isBefore, Ne.symm isBefore]
    · simp [Cache.linked, prevCase, Cache.setSegment]

end CacheRs.Segcache
