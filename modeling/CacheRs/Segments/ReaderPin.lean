/-
**The reader-pin protocol over all segments.**

The rely–guarantee protocol whose invariant is `Ok` of every segment's view, under the condition
that no claimant is overtaken, and the operations that no thread can tell from another's: loads,
stores to other fields, link patches, and what is built from these.

* `NotOvertaken`: the condition on a step;
* `readerPin`: the protocol;
* `wp_exchange`: the rule for exchanging the metadata word;
* `neutral_updateLinks`, `neutral_unlink`, `neutral_leavePool`, …: the neutral operations.
-/

import CacheRs.Segments.ReaderPinRules

set_option linter.unusedSectionVars false

namespace CacheRs.Segments

open Concurrency

variable {Tid : Type} [DecidableEq Tid]

/-- The condition on a step: a claimant that finds the segment condemned finds it unpinned, and
exchanges the word within 256 incarnations of loading it. -/
def NotOvertaken (t : Tid) (label : Label) (world : World Shared (History Tid)) : Prop :=
  match label with
  | .claimantLoad id =>
    (world.shared.header id).metadata.state = .awaitingRelease → (world.history id).pins = []
  | .claimantExchange id _ =>
    (world.history id).ended < (world.history id).loadedAt t + 2 ^ 8
  | _ => True

instance (t : Tid) (label : Label) (world : World Shared (History Tid)) :
    Decidable (NotOvertaken t label world) := by
  unfold NotOvertaken
  split <;> infer_instance

/-- The reader-pin protocol over all segments. -/
def readerPin : Protocol Tid Shared Label (History Tid) where
  record := record
  allowed := NotOvertaken
  inv world := ∀ id, (view world id).Ok
  rely t world after := ∀ id, SegmentView.Rely t (view world id) (view after id)
  rely_refl t world id := SegmentView.Rely.refl t (view world id)
  rely_trans _ _ _ _ first second id := (first id).trans (second id)

section Steps

variable {t : Tid} {world after now : World Shared (History Tid)} {id : SegId}

/-- A step that changes one segment's view keeps the protocol if that view does. -/
theorem Touches.kept {changed : SegmentView Tid} (touches : Touches world after id changed)
    (holds : readerPin.inv world) (kept : (view world id).Kept t changed) :
    readerPin.inv after ∧ readerPin.Guarantee t world after := by
  obtain ⟨here, elsewhere⟩ := touches
  refine ⟨fun other => ?_, fun thread different other => ?_⟩
  · by_cases same : other = id
    · subst same
      exact here ▸ kept.1
    · exact elsewhere other same ▸ holds other
  · by_cases same : other = id
    · subst same
      exact here ▸ kept.2 thread different
    · exact elsewhere other same ▸ SegmentView.Rely.refl thread _

/-- A step that changes no view keeps the protocol. -/
theorem kept_of_same (holds : readerPin.inv world)
    (same : ∀ id, view after id = view world id) :
    readerPin.inv after ∧ readerPin.Guarantee t world after := by
  refine ⟨fun id => same id ▸ holds id, fun thread _ id => ?_⟩
  rw [same id]
  exact SegmentView.Rely.refl thread _

end Steps

section Rules

variable {α : Type} {t : Tid} {world : World Shared (History Tid)} {id : SegId}

/-- A step the ledgers do not see and that changes no view. -/
theorem wp_quiet {label : Label} {enabled : Shared → Bool} {action : Shared → α × Shared}
    {post : α → World Shared (History Tid) → Prop}
    (unseen : ∀ state history, record t label state history = history)
    (same : ∀ now : World Shared (History Tid), ∀ id,
      view ⟨(action now.shared).2, now.history⟩ id = view now id)
    (next : ∀ now, readerPin.rely t world now → readerPin.inv now → enabled now.shared = true →
      post (action now.shared).1 ⟨(action now.shared).2, now.history⟩) :
    readerPin.wp t (Program.whenEnabled label enabled action) post world := by
  refine Protocol.wp_whenEnabled fun now moved holds _ able => ?_
  have stays : now.after record t label (fun state => (action state).2) =
      ⟨(action now.shared).2, now.history⟩ := by
    ext
    · rfl
    · exact congrFun (unseen _ _) _
  obtain ⟨kept, guaranteed⟩ := kept_of_same (t := t) holds (same now)
  rw [show now.after readerPin.record t label (fun state => (action state).2) =
    ⟨(action now.shared).2, now.history⟩ from stays]
  exact ⟨kept, guaranteed, next now moved holds able⟩

theorem neutral_quiet {label : Label} {enabled : Shared → Bool} {action : Shared → α × Shared}
    (unseen : ∀ state history, record t label state history = history)
    (same : ∀ now : World Shared (History Tid), ∀ id,
      view ⟨(action now.shared).2, now.history⟩ id = view now id) :
    readerPin.Neutral t (Program.whenEnabled label enabled action) := by
  intro world _
  refine wp_quiet unseen same fun now moved _ _ => ?_
  refine readerPin.rely_trans t _ _ _ moved fun id => ?_
  rw [same now id]
  exact SegmentView.Rely.refl t _

/-- Loading a field changes nothing. -/
theorem wp_load {field : SegmentHeader → α} {post : α → World Shared (History Tid) → Prop}
    (next : ∀ now, readerPin.rely t world now → readerPin.inv now →
      post (field (now.shared.header id)) now) :
    readerPin.wp t (load .other id field) post world :=
  wp_quiet (fun _ _ => rfl) (fun _ _ => rfl) fun now moved holds _ => next now moved holds

theorem neutral_load {field : SegmentHeader → α} :
    readerPin.Neutral t (load .other id field) :=
  neutral_quiet (fun _ _ => rfl) fun _ _ => rfl

theorem neutral_metadata : readerPin.Neutral t (metadata id) := neutral_load

theorem view_modifyHeader {now : World Shared (History Tid)} {change : SegmentHeader → SegmentHeader}
    (metadata : ∀ header, (change header).metadata = header.metadata)
    (refCount : ∀ header, (change header).refCount = header.refCount)
    (generation : ∀ header, (change header).generation = header.generation) (other : SegId) :
    view ⟨now.shared.modifyHeader id change, now.history⟩ other = view now other := by
  by_cases same : other = id
  · subst same
    simp [view, metadata, refCount, generation]
  · simp [view, same]

theorem neutral_storeAs {label : Label} {change : SegmentHeader → SegmentHeader}
    (unseen : ∀ state history, record t label state history = history)
    (metadata : ∀ header, (change header).metadata = header.metadata)
    (refCount : ∀ header, (change header).refCount = header.refCount)
    (generation : ∀ header, (change header).generation = header.generation) :
    readerPin.Neutral t (storeAs label id change) :=
  neutral_quiet unseen fun _ => view_modifyHeader metadata refCount generation

theorem neutral_store {change : SegmentHeader → SegmentHeader}
    (metadata : ∀ header, (change header).metadata = header.metadata)
    (refCount : ∀ header, (change header).refCount = header.refCount)
    (generation : ∀ header, (change header).generation = header.generation) :
    readerPin.Neutral t (store id change) :=
  neutral_storeAs (fun _ _ => rfl) metadata refCount generation

theorem neutral_assertThat {condition : Bool} : readerPin.Neutral t (assertThat condition) :=
  neutral_quiet (fun _ _ => rfl) fun _ _ => rfl

/-- Past an assertion, it holds. -/
theorem wp_assertThat {condition : Bool} {post : Unit → World Shared (History Tid) → Prop}
    (next : ∀ now, readerPin.rely t world now → readerPin.inv now → condition = true →
      post () now) :
    readerPin.wp t (assertThat condition) post world :=
  wp_quiet (fun _ _ => rfl) (fun _ _ => rfl) next

/-- One store of the write statistics' reset. -/
theorem neutral_resetStats {change : SegmentHeader → SegmentHeader}
    (metadata : ∀ header, (change header).metadata = header.metadata)
    (refCount : ∀ header, (change header).refCount = header.refCount)
    (generation : ∀ header, (change header).generation = header.generation) :
    readerPin.Neutral t (storeAs (.resetStats id) id change) :=
  neutral_storeAs (fun _ _ => rfl) metadata refCount generation

theorem neutral_resetWriteStats : readerPin.Neutral t (resetWriteStats id) := by
  unfold resetWriteStats
  refine .bind (neutral_quiet (fun _ _ => rfl) fun _ _ => rfl) fun _ => ?_
  refine .bind (neutral_resetStats (fun _ => rfl) (fun _ => rfl) fun _ => rfl) fun _ => ?_
  refine .bind (neutral_resetStats (fun _ => rfl) (fun _ => rfl) fun _ => rfl) fun _ => ?_
  refine .bind (neutral_resetStats (fun _ => rfl) (fun _ => rfl) fun _ => rfl) fun _ => ?_
  refine .bind (neutral_resetStats (fun _ => rfl) (fun _ => rfl) fun _ => rfl) fun _ => ?_
  exact neutral_resetStats (fun _ => rfl) (fun _ => rfl) fun _ => rfl

theorem neutral_markCreated : readerPin.Neutral t (markCreated id) :=
  .bind (neutral_quiet (fun _ _ => rfl) fun _ _ => rfl) fun _ =>
    neutral_store (fun _ => rfl) (fun _ => rfl) fun _ => rfl

theorem neutral_markMerged : readerPin.Neutral t (markMerged id) :=
  .bind (neutral_quiet (fun _ _ => rfl) fun _ _ => rfl) fun _ =>
    neutral_store (fun _ => rfl) (fun _ => rfl) fun _ => rfl

theorem neutral_leavePool : readerPin.Neutral t (leavePool id) := by
  unfold leavePool
  refine .bind neutral_load fun pool => ?_
  have reset : readerPin.Neutral t (store id fun header => { header with pool := .main }) :=
    neutral_store (fun _ => rfl) (fun _ => rfl) fun _ => rfl
  refine .ite ?_ reset
  exact .bind (neutral_quiet (fun _ _ => rfl) fun _ _ => rfl) fun _ => .bind neutral_assertThat fun _ => reset

/-- Exchanging the word: a successful exchange must be one of the moves. -/
theorem wp_exchange {current new : Metadata}
    {post : Option Metadata → World Shared (History Tid) → Prop}
    (move : ∀ now, readerPin.rely t world now → readerPin.inv now →
      (view now id).metadata = current → SegmentView.Move t (view now id) new)
    (won : ∀ now after, readerPin.rely t world now → readerPin.inv now → readerPin.inv after →
      (view now id).metadata = current → Touches now after id ((view now id).moved t new) →
      post none after)
    (lost : ∀ observed now, readerPin.rely t world now → readerPin.inv now →
      post (some observed) now) :
    readerPin.wp t (exchange (.exchange id current new) id current new) post world := by
  refine Protocol.wp_atomically fun now moved holds _ _ => ?_
  by_cases found : (view now id).metadata = current
  · have touches : Touches now _ id _ := touches_exchange now t id new found
    obtain ⟨kept, guaranteed⟩ :=
      touches.kept holds ((holds id).exchange (move now moved holds found))
    refine ⟨kept, guaranteed, ?_⟩
    show post (if (now.shared.header id).metadata = current then none else _) _
    rw [if_pos (show (now.shared.header id).metadata = current from found)]
    exact won now _ moved holds kept found touches
  · have stays := exchange_lost now t id new found
    obtain ⟨kept, guaranteed⟩ :=
      kept_of_same (t := t) holds fun other => congrArg (view · other) stays
    refine ⟨kept, guaranteed, ?_⟩
    show post (if (now.shared.header id).metadata = current then none else _)
      (now.after record t _ _)
    rw [if_neg (show ¬ (now.shared.header id).metadata = current from found), stays]
    exact lost _ now moved holds

/-- A step that changes one view in a way `t` tolerates leaves `t` where it was. -/
theorem Touches.rely {now after : World Shared (History Tid)} {changed : SegmentView Tid}
    (touches : Touches now after id changed)
    (tolerated : SegmentView.Rely t (view now id) changed) : readerPin.rely t now after := by
  intro other
  by_cases same : other = id
  · subst same
    exact touches.1 ▸ tolerated
  · rw [touches.2 other same]
    exact SegmentView.Rely.refl t _

theorem neutral_relink {current word : Metadata} (state : word.state = current.state)
    (tag : word.tag = current.tag) :
    readerPin.Neutral t (exchange (.exchange id current word) id current word) := by
  intro world _
  refine wp_exchange (fun now _ _ found => ?_) (fun now after moved _ _ found touches => ?_)
    fun _ _ moved _ => moved
  · exact .relink (found ▸ state) (found ▸ tag)
  · exact readerPin.rely_trans t _ _ _ moved
      (touches.rely (SegmentView.relink_rely (found ▸ state)))

theorem neutral_updateLinks {newNext newPrev : Option (Option SegId)} :
    readerPin.Neutral t (updateLinks id newNext newPrev) := by
  unfold updateLinks
  refine .bind neutral_metadata fun current => .repeatUntil fun current => ?_
  refine .bind (neutral_relink rfl rfl) fun failed => ?_
  cases failed with
  | none => exact .ret _
  | some observed => exact .ret _

theorem neutral_nextSeg : readerPin.Neutral t (nextSeg id) :=
  .bind neutral_metadata fun _ => .ret _

theorem neutral_prevSeg : readerPin.Neutral t (prevSeg id) :=
  .bind neutral_metadata fun _ => .ret _

theorem neutral_onLink {link : Option SegId} {patch : SegId → Prog Unit}
    (each : ∀ neighbour, readerPin.Neutral t (patch neighbour)) :
    readerPin.Neutral t (onLink link patch) := by
  cases link with
  | none => exact .ret _
  | some neighbour => exact each neighbour

theorem neutral_unlink : readerPin.Neutral t (unlink id) := by
  refine .bind neutral_nextSeg fun next => .bind (neutral_onLink fun neighbour => ?_) fun _ => ?_
  · exact .bind neutral_prevSeg fun _ => neutral_updateLinks
  · refine .bind neutral_prevSeg fun prev => neutral_onLink fun neighbour => ?_
    exact .bind neutral_nextSeg fun _ => neutral_updateLinks

end Rules

end CacheRs.Segments
