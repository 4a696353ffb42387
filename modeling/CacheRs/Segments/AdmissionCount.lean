/-
**The admission count, over every run.**

Threads run any sequence of the operations of the pins and drains, with inserts that label the
segments they have pinned, drains that count labels out, and reserved segments configured as copy
destinations.

* `retire_lift`, `label_spec`, `configure_spec`: the operations that change labels;
* `labels_counted`: **in every reachable state the labels are the count, the labels between their
  exchange and their increment, and the segments between their decrement and their reset**; no
  decrement finds zero, and no free segment is labelled.
-/

import CacheRs.Segments.AdmissionRules

set_option linter.unusedSectionVars false

namespace CacheRs.Segments.Drains.Admission

open Concurrency

variable {Tid : Type} [DecidableEq Tid]

section Specs

variable {α : Type} {t : Tid} {id : SegId} {world : PoolWorld Tid} {hands : Hands}
  {pool : SegmentPool}

/-- A program that leaves the labels alone keeps its proof. -/
theorem lift_plain {program : Prog α} {post : α → World Shared (History Tid) → Prop}
    (kept : pools.inv world) (below : pinDrain.wp t program post world.base)
    (alone : Plain program) (part : Part t none none world) :
    pools.wp t (plain program) (fun value after => post value after.base ∧ Part t none none after)
      world :=
  Layer.wp_lift (fun _ => rfl) part_stable (fun _ _ _ inert part runs => kept_inert inert part runs)
    kept below alone part

/-! ### Steps that keep a closed segment closed -/

/-- A step that changes neither the owners of the segments nor their drainers' waits. -/
def Steady (Tid : Type) [DecidableEq Tid] (label : Label) : Prop :=
  ∀ (t : Tid) (state : Shared) (history : History Tid) (id : SegId),
    (Drains.record t label state history id).owner = (history id).owner ∧
      (Drains.record t label state history id).waited = (history id).waited

theorem steady_unseen {label : Label} (unseen : Unseen Tid label) : Steady Tid label :=
  fun t state history id => by rw [unseen t state history]; exact ⟨rfl, rfl⟩

theorem steady_update {history : History Tid} {ledger : Ledger Tid} (other : SegId)
    (owner : ledger.owner = (history id).owner) (waited : ledger.waited = (history id).waited) :
    (Function.update history id ledger other).owner = (history other).owner ∧
      (Function.update history id ledger other).waited = (history other).waited := by
  by_cases same : other = id
  · subst same
    rw [Function.update_self]
    exact ⟨owner, waited⟩
  · rw [Function.update_of_ne same]
    exact ⟨rfl, rfl⟩

theorem steady_resetStats : Steady Tid (.resetStats id) :=
  fun _ _ _ other => steady_update other rfl rfl

theorem steady_exchange {current new : Metadata} (same : new.state = current.state) :
    Steady Tid (.exchange id current new) := by
  intro t state history other
  have ledger : (history id).moved t current.state new.state = history id := if_pos same.symm
  by_cases found : (state.header id).metadata = current
  · rw [(exchanges id current new).won t state history found, ledger]
    exact steady_update other rfl rfl
  · rw [(exchanges id current new).lost t state history found]
    exact ⟨rfl, rfl⟩

/-- A program of steady steps. -/
abbrev Still (Tid : Type) [DecidableEq Tid] {α : Type} (program : Prog α) : Prop :=
  program.Along fun label _ _ => Steady Tid label

theorem still_load {field : SegmentHeader → α} : Still Tid (load .other id field) :=
  .atomically fun _ => steady_unseen fun _ _ _ => rfl

theorem still_updateLinks {newNext newPrev : Option (Option SegId)} :
    Still Tid (updateLinks id newNext newPrev) := by
  refine .bind still_load fun current => .repeatUntil fun current => ?_
  refine .bind (.atomically fun _ => steady_exchange rfl) fun failed => ?_
  cases failed with
  | none => exact .ret _
  | some observed => exact .ret _

theorem still_onLink {link : Option SegId} {patch : SegId → Prog Unit}
    (each : ∀ neighbour, Still Tid (patch neighbour)) : Still Tid (onLink link patch) := by
  cases link with
  | none => exact .ret _
  | some neighbour => exact each neighbour

theorem still_unlink : Still Tid (unlink id) := by
  refine .bind (.bind still_load fun _ => .ret _) fun next => ?_
  refine .bind (still_onLink fun neighbour => ?_) fun _ => ?_
  · exact .bind (.bind still_load fun _ => .ret _) fun _ => still_updateLinks
  · refine .bind (.bind still_load fun _ => .ret _) fun prev => still_onLink fun neighbour => ?_
    exact .bind (.bind still_load fun _ => .ret _) fun _ => still_updateLinks

theorem still_resetWriteStats : Still Tid (resetWriteStats id) := by
  refine .bind (.atomically fun _ => steady_unseen fun _ _ _ => rfl) fun initialOffset => ?_
  refine .bind (.atomically fun _ => steady_resetStats) fun _ => ?_
  refine .bind (.atomically fun _ => steady_resetStats) fun _ => ?_
  refine .bind (.atomically fun _ => steady_resetStats) fun _ => ?_
  refine .bind (.atomically fun _ => steady_resetStats) fun _ => ?_
  exact .atomically fun _ => steady_resetStats

/-- A steady program keeps a closed segment closed, with its label. -/
theorem lift_still {program : Prog α} {post : α → World Shared (History Tid) → Prop}
    (kept : pools.inv world) (below : pinDrain.wp t program post world.base)
    (alone : Plain program) (still : Still Tid program) (part : Part t none none world)
    (closed : Closed t id pool world) :
    pools.wp t (plain program) (fun value after => post value after.base ∧
      Part t none none after ∧ Closed t id pool after) world := by
  refine Layer.wp_lift (fun _ => rfl) (part_stable.and closed_stable)
    (fun label update now both known runs => ?_) kept below (alone.and still) ⟨part, closed⟩
  obtain ⟨inert, steady⟩ := both
  obtain ⟨layer, others, part⟩ := kept_inert inert known.1 runs
  obtain ⟨owner, waited⟩ := steady t now.shared now.history.1 id
  exact ⟨layer, others, part, ⟨owner.trans known.2.1.1, (congrFun waited .writer).trans
    known.2.1.2⟩, (inert.pool id).trans known.2.2⟩

/-! ### Leaving the pool -/

/-- A step that changes nothing keeps what is known. -/
theorem lift_same {label : Label} {enabled : Shared → Bool} {read : Shared → α}
    {post : α → World Shared (History Tid) → Prop} {fact : PoolWorld Tid → Prop}
    {known : α → PoolWorld Tid → Prop} (unseen : Unseen Tid label)
    (below : pinDrain.wp t (.whenEnabled label enabled fun state => (read state, state)) post
      world.base)
    (stable : pools.Stable t fact) (before : fact world)
    (learns : ∀ now, fact now → known (read now.shared) now) :
    pools.wp t (plain (.whenEnabled label enabled fun state => (read state, state)))
      (fun value after => post value after.base ∧ known value after) world := by
  refine Layer.wp_step below stable before fun now able holds runs => ?_
  refine Layer.Kept.same (World.ext rfl (Prod.ext ?_ rfl)) runs.layer (learns now holds)
  exact unseen t now.shared now.history.1

theorem assertThat_lift {condition : Bool} {post : Unit → World Shared (History Tid) → Prop}
    {fact : PoolWorld Tid → Prop} (below : pinDrain.wp t (assertThat condition) post world.base)
    (stable : pools.Stable t fact) (known : fact world) :
    pools.wp t (plain (assertThat condition)) (fun value after => post value after.base ∧ fact after)
      world :=
  lift_same (fun _ _ _ => rfl) below stable known fun _ known => known

/-- The end of `leave_pool` for a segment that has been counted out. -/
theorem resetPool_lift {post : Unit → World Shared (History Tid) → Prop}
    (below : pinDrain.wp t (store id fun header => { header with pool := .main }) post world.base)
    (part : Part t none (some id) world) (closing : Closing t id world) :
    pools.wp t (resetPool id) (fun _ after => post () after.base ∧
      Part t none none after ∧ Closed t id .main after) world :=
  Layer.wp_step below (part_stable.and closing_stable) ⟨part, closing⟩
    fun _ _ known runs => kept_resetPool known.1 known.2 runs

/-- The reset of a segment that is labelled main already. -/
theorem resetPool_idle {post : Unit → World Shared (History Tid) → Prop}
    {fact : PoolWorld Tid → Prop}
    (below : pinDrain.wp t (store id fun header => { header with pool := .main }) post world.base)
    (stable : pools.Stable t fact) (known : fact world)
    (idle : ∀ now, pools.inv now → fact now →
      Part t none none now ∧ (now.shared.header id).pool = .main) :
    pools.wp t (resetPool id) (fun _ after => post () after.base ∧ fact after) world := by
  refine Layer.wp_step below stable known fun now _ holds runs => ?_
  obtain ⟨part, main⟩ := idle now ⟨runs.base, runs.layer⟩ holds
  exact Layer.Kept.same (resetPool_same part main) runs.layer holds

/-- Counting a label out. -/
theorem decrPool_lift {post : Nat → World Shared (History Tid) → Prop}
    (below : pinDrain.wp t (Program.atomically .other fun state : Shared =>
      (state.admissionCount, { state with admissionCount := state.admissionCount - 1 })) post
      world.base) (part : Part t none none world) (closed : Closed t id .admission world) :
    pools.wp t (Program.atomically (.decrPool id) fun state : Shared =>
      (state.admissionCount, { state with admissionCount := state.admissionCount - 1 }))
      (fun prev after => post prev after.base ∧ Part t none (some id) after ∧ Closing t id after)
      world := by
  refine Layer.wp_step below (part_stable.and closed_stable) ⟨part, closed⟩
    fun now _ known runs => ?_
  obtain ⟨layer, others, leaving⟩ := kept_decrPool known.1 known.2 runs
  exact ⟨layer, others, leaving, known.2.1⟩

/-- What the load of a closed segment's label finds stays. -/
theorem loadPool_lift {post : SegmentPool → World Shared (History Tid) → Prop}
    (below : pinDrain.wp t (load .other id (·.pool)) post world.base)
    (part : Part t none none world) (closing : Closing t id world) :
    pools.wp t (plain (load .other id (·.pool))) (fun pool after => post pool after.base ∧
      Part t none none after ∧ Closed t id pool after) world :=
  lift_same (fun _ _ _ => rfl) below (part_stable.and closing_stable) ⟨part, closing⟩
    fun _ known => ⟨known.1, known.2, rfl⟩

/-- **A closed segment leaves its pool with its label.** -/
theorem leavePool_lift {post : Unit → World Shared (History Tid) → Prop} (kept : pools.inv world)
    (below : pinDrain.wp t (Segments.leavePool id) post world.base)
    (part : Part t none none world) (closing : Closing t id world) :
    pools.wp t (leavePool id) (fun _ after => post () after.base ∧
      Part t none none after ∧ Closed t id .main after) world := by
  unfold Segments.leavePool at below
  refine Protocol.wp_seq kept (loadPool_lift ((Protocol.wp_bind _ _ _ _).mp below) part closing)
    fun pool first keptFirst known => ?_
  obtain ⟨rest, part, closed⟩ := known
  cases pool with
  | main =>
    exact resetPool_idle rest (part_stable.and closed_stable) ⟨part, closed⟩
      fun _ _ known => ⟨known.1, known.2.2⟩
  | admission =>
    refine (Protocol.wp_bind _ _ _ _).mpr ?_
    refine Protocol.wp_seq keptFirst (decrPool_lift ((Protocol.wp_bind _ _ _ _).mp rest) part closed)
      fun prev second keptSecond known => ?_
    obtain ⟨rest, known⟩ := known
    refine Protocol.wp_mono keptSecond (assertThat_lift ((Protocol.wp_bind _ _ _ _).mp rest)
      (part_stable.and closing_stable) known) fun _ third _ known => ?_
    exact resetPool_lift known.1 known.2.1 known.2.2

/-! ### Leaving service -/

/-- The exchange that takes a segment without a label out of service. -/
theorem exchange_lift {current new : Metadata}
    {post : Option Metadata → World Shared (History Tid) → Prop}
    (below : pinDrain.wp t (exchange (.exchange id current new) id current new) post world.base)
    (part : Part t none none world) (closed : Closed t id .main world) :
    pools.wp t (plain (exchange (.exchange id current new) id current new))
      (fun failed after => post failed after.base ∧ Part t none none after) world := by
  refine Layer.wp_step below (part_stable.and closed_stable) ⟨part, closed⟩
    fun now _ known runs => kept_below (fun _ => exchangeMetadata_pool) exchangeMetadata_count
      (fun other labelled => ?_) known.1 runs
  have different : other ≠ id := by
    rintro rfl
    cases known.2.2.symm.trans labelled
  refine (congrArg (Admitting ·.metadata.state) (exchangeMetadata_of_ne different)).trans ?_
  exact runs.layer.idle other labelled

/-- The single-shot transition out of service. -/
theorem casMetadata_lift {new : State} {newNext newPrev : Option (Option SegId)}
    {post : Bool → World Shared (History Tid) → Prop} (kept : pools.inv world)
    (below : pinDrain.wp t (casMetadata id .draining new newNext newPrev) post world.base)
    (part : Part t none none world) (closed : Closed t id .main world) :
    pools.wp t (plain (casMetadata id .draining new newNext newPrev))
      (fun won after => post won after.base ∧ Part t none none after) world := by
  unfold casMetadata at below ⊢
  simp only [plain, Program.bind_eq, Program.relabel_bind, Program.relabel_ite]
  refine Protocol.wp_seq kept (lift_still kept ((Protocol.wp_bind _ _ _ _).mp below) plain_metadata
    still_load part closed) fun current first keptFirst known => ?_
  obtain ⟨rest, part, closed⟩ := known
  by_cases elsewhere : current.state ≠ .draining
  · rw [if_pos elsewhere] at rest ⊢
    exact ⟨rest, part⟩
  · rw [if_neg elsewhere] at rest ⊢
    exact Protocol.wp_seq keptFirst (exchange_lift ((Protocol.wp_bind _ _ _ _).mp rest) part closed)
      fun _ _ _ known => known

theorem tryReleaseDrained_lift {post : Bool → World Shared (History Tid) → Prop}
    (kept : pools.inv world) (below : pinDrain.wp t (tryReleaseDrained id) post world.base)
    (part : Part t none none world) (closed : Closed t id .main world) :
    pools.wp t (plain (tryReleaseDrained id))
      (fun freed after => post freed after.base ∧ Part t none none after) world := by
  unfold tryReleaseDrained at below ⊢
  simp only [plain, Program.bind_eq, Program.relabel_bind, Program.relabel_ite]
  refine Protocol.wp_seq kept (casMetadata_lift kept ((Protocol.wp_bind _ _ _ _).mp below) part closed)
    fun won first keptFirst known => ?_
  obtain ⟨rest, part⟩ := known
  cases won with
  | false => exact ⟨rest, part⟩
  | true =>
    exact Protocol.wp_seq keptFirst (lift_plain keptFirst ((Protocol.wp_bind _ _ _ _).mp rest)
      plain_bumpGeneration part) fun _ _ _ known => known

theorem casCondemn_lift {post : Bool → World Shared (History Tid) → Prop} (kept : pools.inv world)
    (below : pinDrain.wp t (casCondemn id) post world.base) (part : Part t none none world)
    (closed : Closed t id .main world) :
    pools.wp t (plain (casCondemn id))
      (fun condemned after => post condemned after.base ∧ Part t none none after) world := by
  unfold casCondemn at below ⊢
  simp only [plain, Program.bind_eq, Program.relabel_bind, Program.relabel_ite]
  refine Protocol.wp_seq kept (lift_still kept ((Protocol.wp_bind _ _ _ _).mp below) plain_metadata
    still_load part closed) fun current first keptFirst known => ?_
  obtain ⟨rest, part, closed⟩ := known
  by_cases elsewhere : current.state ≠ .draining
  · rw [if_pos elsewhere] at rest ⊢
    exact ⟨rest, part⟩
  · rw [if_neg elsewhere] at rest ⊢
    refine Protocol.wp_seq keptFirst (lift_still keptFirst ((Protocol.wp_bind _ _ _ _).mp rest)
      plain_load still_load part closed) fun generation second keptSecond known => ?_
    obtain ⟨rest, part, closed⟩ := known
    exact Protocol.wp_seq keptSecond (exchange_lift ((Protocol.wp_bind _ _ _ _).mp rest) part closed)
      fun _ _ _ known => known

/-- **Recycling a closed segment.** -/
theorem recycle_lift {post : Unit → World Shared (History Tid) → Prop} (kept : pools.inv world)
    (below : pinDrain.wp t (Segments.recycle id) post world.base)
    (part : Part t none none world) (closing : Closing t id world) :
    pools.wp t (recycle id) (fun _ after => post () after.base ∧ Part t none none after) world := by
  unfold Segments.recycle at below
  refine Protocol.wp_seq kept (lift_still kept ((Protocol.wp_bind _ _ _ _).mp below) plain_unlink
    still_unlink part ⟨closing, rfl⟩) fun _ first keptFirst known => ?_
  obtain ⟨rest, part, closed⟩ := known
  refine Protocol.wp_seq keptFirst (leavePool_lift keptFirst ((Protocol.wp_bind _ _ _ _).mp rest) part
    closed.1) fun _ second keptSecond known => ?_
  obtain ⟨rest, part, closed⟩ := known
  refine Protocol.wp_seq keptSecond (lift_still keptSecond ((Protocol.wp_bind _ _ _ _).mp rest)
    plain_resetWriteStats still_resetWriteStats part closed) fun _ third keptThird known => ?_
  obtain ⟨rest, part, closed⟩ := known
  refine Protocol.wp_seq keptThird (tryReleaseDrained_lift keptThird
    ((Protocol.wp_bind _ _ _ _).mp rest) part closed) fun freed fourth keptFourth known => ?_
  obtain ⟨rest, part⟩ := known
  exact lift_plain keptFourth rest (.bind plain_assertThat fun _ => plain_returnSegment) part

/-- **Condemning a closed segment.** -/
theorem condemn_lift {next prev : Option SegId}
    {post : ClearOutcome → World Shared (History Tid) → Prop} (kept : pools.inv world)
    (below : pinDrain.wp t (Segments.condemn id next prev) post world.base)
    (part : Part t none none world) (closing : Closing t id world) :
    pools.wp t (condemn id next prev)
      (fun outcome after => post outcome after.base ∧ Part t none none after) world := by
  unfold Segments.condemn at below
  refine Protocol.wp_seq kept (leavePool_lift kept ((Protocol.wp_bind _ _ _ _).mp below) part closing)
    fun _ first keptFirst known => ?_
  obtain ⟨rest, part, closed⟩ := known
  refine Protocol.wp_seq keptFirst (casCondemn_lift keptFirst ((Protocol.wp_bind _ _ _ _).mp rest)
    part closed) fun condemned second keptSecond known => ?_
  obtain ⟨rest, part⟩ := known
  exact lift_plain keptSecond rest (.bind plain_assertThat fun _ => plain_afterCondemn) part

theorem retire_lift {next prev : Option SegId}
    {post : ClearOutcome → World Shared (History Tid) → Prop} (kept : pools.inv world)
    (below : pinDrain.wp t (Segments.retire id next prev) post world.base)
    (part : Part t none none world) (closing : Closing t id world) :
    pools.wp t (retire id next prev)
      (fun outcome after => post outcome after.base ∧ Part t none none after) world := by
  unfold Segments.retire at below
  refine Protocol.wp_seq kept (lift_still kept ((Protocol.wp_bind _ _ _ _).mp below) plain_load
    still_load part ⟨closing, rfl⟩) fun readers first keptFirst known => ?_
  obtain ⟨rest, part, closed⟩ := known
  by_cases unpinned : readers = 0
  · rw [if_pos unpinned] at rest ⊢
    exact Protocol.wp_seq keptFirst (recycle_lift keptFirst ((Protocol.wp_bind _ _ _ _).mp rest) part
      closed.1) fun _ _ _ known => known
  · rw [if_neg unpinned] at rest ⊢
    exact condemn_lift keptFirst rest part closed.1

theorem finalizeDrained_lift {post : ClearOutcome → World Shared (History Tid) → Prop}
    (kept : pools.inv world) (below : pinDrain.wp t (Segments.finalizeDrained id) post world.base)
    (part : Part t none none world) (closing : Closing t id world) :
    pools.wp t (finalizeDrained id)
      (fun outcome after => post outcome after.base ∧ Part t none none after) world := by
  unfold Segments.finalizeDrained at below
  refine Protocol.wp_seq kept (lift_still kept ((Protocol.wp_bind _ _ _ _).mp below) plain_metadata
    still_load part ⟨closing, rfl⟩) fun word first keptFirst known => ?_
  exact retire_lift keptFirst known.1 known.2.1 known.2.2.1

/-! ### Labelling and configuring -/

/-- What a thread holds of the segments, and that it is between no two steps on a label. -/
def Between (t : Tid) (hands : Hands) (world : PoolWorld Tid) : Prop :=
  Holds t hands world.base ∧ Part t none none world

theorem holds_stable : pools.Stable t fun world => Holds t hands world.base :=
  fun _ _ holds moved _ => holds.rely moved.1

/-- A change of a label is no concern of the pins and drains. -/
theorem neutral_label {action : Shared → α × Shared}
    (same : ∀ now : World Shared (History Tid), ∀ id,
      view ⟨(action now.shared).2, now.history⟩ id = view now id) :
    pinDrain.Neutral t (Program.atomically .other action) :=
  neutral_unseen (fun _ _ _ => rfl) same

theorem aside_pool {pool : SegmentPool} :
    Aside fun header : SegmentHeader => { header with pool := pool } :=
  aside_of (fun _ => rfl) (fun _ => rfl) (fun _ => rfl) fun _ => rfl

/-- The exchange of an insert. -/
theorem casPool_spec (kept : pools.inv world) (between : Between t hands world)
    (pinned : 0 < (hands id).pins .writer) :
    pools.wp t (casPool id (.casPool id) .main .admission) (fun won after =>
      Holds t hands after.base ∧ Part t (if won then some id else none) none after) world := by
  have below : pinDrain.wp t (Program.atomically .other fun state : Shared =>
      (decide ((state.header id).pool = .main),
        if (state.header id).pool = .main then
          state.modifyHeader id fun header => { header with pool := .admission }
        else state)) (fun _ => Holds t hands) world.base := by
    refine between.1.neutral kept.1 (neutral_label fun now other => ?_)
    by_cases main : (now.shared.header id).pool = .main
    · simp only [if_pos main]
      exact view_modifyHeader aside_pool other
    · simp only [if_neg main]
  refine Layer.wp_step below (holds_stable.and part_stable) between fun now _ known runs => ?_
  by_cases main : (now.shared.header id).pool = .main
  · have shape : (now.after pools.record t (.casPool id) fun state : Shared =>
        if (state.header id).pool = .main then
          state.modifyHeader id fun header => { header with pool := .admission }
        else state) = now.after pools.record t (.casPool id) (withPool · id .admission) :=
      World.ext (if_pos main) rfl
    have held : 0 < ((now.history.1 id).granted .writer).countP (·.holder = t) := by
      have pins := (known.1 id).pins .writer
      exact lt_of_lt_of_eq pinned pins.symm
    have kept := kept_casPool held known.2 main (shape ▸ runs)
    rw [← shape] at kept
    simpa only [main, decide_true, if_true] using kept
  · have shape : (now.after pools.record t (.casPool id) fun state : Shared =>
        if (state.header id).pool = .main then
          state.modifyHeader id fun header => { header with pool := .admission }
        else state) = now :=
      World.ext (if_neg main) (Prod.ext rfl (if_neg main))
    refine Layer.Kept.same shape runs.layer ?_
    simpa only [main, decide_false, Bool.false_eq_true, if_false] using known.2

/-- **An insert labels a segment under its writer's pin, and counts the label.** -/
theorem label_spec (kept : pools.inv world) (between : Between t hands world)
    (pinned : 0 < (hands id).pins .writer) (target : SegmentPool) :
    pools.wp t (label id target) (fun _ => Between t hands) world := by
  cases target with
  | main => exact between
  | admission =>
    refine Protocol.wp_seq kept (casPool_spec kept between pinned) fun won first keptFirst known => ?_
    cases won with
    | false => exact known
    | true =>
      obtain ⟨holds, part⟩ := known
      exact Layer.wp_step (holds.neutral keptFirst.1 (neutral_label fun _ _ => rfl)) part_stable part
        fun now _ part runs => kept_incrPool part runs

/-- **Configuring a reserved segment changes no label: it has none.** -/
theorem configure_spec (kept : pools.inv world) (between : Between t hands world)
    (has : (hands id).has .reserved = true) (ttl : Nat) :
    pools.wp t (configure id ttl) (fun _ => Between t hands) world := by
  obtain ⟨holds, part⟩ := between
  have setTtl : pinDrain.Neutral t (store id fun header => { header with ttl := ttl }) :=
    neutral_tally (fun _ => rfl) (fun _ => rfl) (fun _ => rfl) fun _ => rfl
  refine Protocol.wp_seq kept (lift_plain kept (holds.neutral kept.1 setTtl)
    (plain_store (fun _ => rfl) fun _ => rfl) part) fun _ first keptFirst between => ?_
  have reset : pools.wp t (resetPool id) (fun _ after => Holds t hands after.base ∧
      Between t hands after) first := by
    refine resetPool_idle (between.1.neutral keptFirst.1 (neutral_store aside_pool))
      (holds_stable.and part_stable) between fun now keptNow known => ⟨known.2, ?_⟩
    -- a reserved segment is not labelled
    have held := (known.1.have has) id
    have state : (now.shared.header id).metadata.state = .reserved :=
      (held.custody _ (custody_put hands id _)).2.1
    by_contra labelled
    have admission : (now.shared.header id).pool = .admission := by
      cases pool : (now.shared.header id).pool with
      | main => exact absurd pool labelled
      | admission => rfl
    have admitting := keptNow.2.idle id admission
    rw [state] at admitting
    cases admitting
  refine Protocol.wp_seq keptFirst reset fun _ second keptSecond between => ?_
  exact lift_plain keptSecond (between.2.1.neutral keptSecond.1 neutral_markMerged)
    plain_markMerged between.2.2

/-- A drained hand's segment is closed. -/
theorem closing_of_drained (holds : Holds t hands world.base) (drained : (hands id).drained = true) :
    Closing t id world := by
  have known := (holds.drained drained) id
  obtain ⟨owner, -, waited⟩ := known.custody _ (Hands.drain_custody hands id)
  exact ⟨owner, waited .writer (Hands.drain_waited .writer)⟩

end Specs

/-! ### Threads -/

/-- What a thread may call next. -/
inductive PoolOperation where
  | base (operation : Operation)
  /-- Label a segment the thread has pinned for an insert. -/
  | assign (id : SegId) (target : SegmentPool)
  /-- Configure a segment the thread has reserved as a copy destination. -/
  | configure (id : SegId) (ttl : Nat)
  deriving DecidableEq, Repr

/-- An operation of the pins and drains, its steps on labels told apart. -/
def runBase (hands : Hands) : Operation → PoolProg Hands
  | .finalize id => do
    if (hands id).drained then
      let _ ← finalizeDrained id
      return hands.put id none
    return hands
  | .retire id next prev => do
    if (hands id).drained then
      let _ ← retire id next prev
      return hands.put id none
    return hands
  | operation => plain (operation.run hands)

/-- **It is the operation of the pins and drains.** -/
theorem erase_runBase (hands : Hands) (operation : Operation) :
    (runBase hands operation).relabel PoolLabel.erase = operation.run hands := by
  cases operation with
  | finalize id =>
    show (if (hands id).drained = true then _ else _ : PoolProg Hands).relabel PoolLabel.erase = _
    rw [Program.relabel_ite, Program.bind_eq, Program.relabel_bind, erase_finalizeDrained]
    rfl
  | retire id next prev =>
    show (if (hands id).drained = true then _ else _ : PoolProg Hands).relabel PoolLabel.erase = _
    rw [Program.relabel_ite, Program.bind_eq, Program.relabel_bind, erase_retire]
    rfl
  | _ => exact erase_plain _

/-- Run one operation; the result is what the thread holds after it. -/
def PoolOperation.run (hands : Hands) : PoolOperation → PoolProg Hands
  | .base operation => runBase hands operation
  | .assign id target => do
    if 0 < (hands id).pins .writer then label id target
    return hands
  | .configure id ttl => do
    if (hands id).has .reserved then Admission.configure id ttl
    return hands

/-- A thread runs its operations one after the other. -/
def runAll (hands : Hands) : List PoolOperation → PoolProg Unit
  | [] => .ret ()
  | operation :: rest => do
    let hands ← operation.run hands
    runAll hands rest

/-- The threads before their first step, each with its operations. -/
def start (segments spareCapacity : Nat) (initialOffset : Int)
    (scripts : Tid → List PoolOperation) :
    Config Tid Shared PoolLabel (History Tid × PoolHistory Tid) where
  world := ⟨.new segments spareCapacity initialOffset, fun _ => .new, .new⟩
  thread := fun t => runAll (fun _ => .empty) (scripts t)

section Safety

variable {t : Tid} {world : PoolWorld Tid} {hands : Hands}

theorem runBase_spec (kept : pools.inv world) (between : Between t hands world)
    (operation : Operation) :
    pools.wp t (runBase hands operation) (fun hands' => Between t hands') world := by
  have below := operation.run_spec kept.1 between.1
  cases operation with
  | finalize id =>
    by_cases drained : (hands id).drained = true
    · have runs : pinDrain.wp t ((Segments.finalizeDrained id).bind fun _ => .ret (hands.put id none))
          (fun hands' => Holds t hands') world.base := by
        simp only [Operation.run, if_pos drained] at below
        exact below
      refine Protocol.wp_ite (fun _ => ?_) fun other => absurd drained other
      exact Protocol.wp_seq kept (finalizeDrained_lift kept ((Protocol.wp_bind _ _ _ _).mp runs)
        between.2 (closing_of_drained between.1 drained)) fun _ _ _ known => known
    · exact Protocol.wp_ite (fun other => absurd other drained) fun _ => between
  | retire id next prev =>
    by_cases drained : (hands id).drained = true
    · have runs : pinDrain.wp t ((Segments.retire id next prev).bind fun _ =>
          .ret (hands.put id none)) (fun hands' => Holds t hands') world.base := by
        simp only [Operation.run, if_pos drained] at below
        exact below
      refine Protocol.wp_ite (fun _ => ?_) fun other => absurd drained other
      exact Protocol.wp_seq kept (retire_lift kept ((Protocol.wp_bind _ _ _ _).mp runs)
        between.2 (closing_of_drained between.1 drained)) fun _ _ _ known => known
    · exact Protocol.wp_ite (fun other => absurd other drained) fun _ => between
  | _ =>
    exact lift_plain kept below (plain_run hands (fun _ same => by cases same)
      fun _ _ _ same => by cases same) between.2

/-- Every operation turns what a thread holds into what it returns, and leaves it between no two
steps on a label. -/
theorem PoolOperation.run_spec (kept : pools.inv world) (between : Between t hands world)
    (operation : PoolOperation) :
    pools.wp t (operation.run hands) (fun hands' => Between t hands') world := by
  cases operation with
  | base operation => exact runBase_spec kept between operation
  | assign id target =>
    refine Protocol.wp_ite (fun pinned => ?_) fun _ => between
    exact Protocol.wp_seq kept (label_spec kept between pinned target) fun _ _ _ known => known
  | configure id ttl =>
    refine Protocol.wp_ite (fun has => ?_) fun _ => between
    exact Protocol.wp_seq kept (configure_spec kept between has ttl) fun _ _ _ known => known

theorem runAll_spec (kept : pools.inv world) (operations : List PoolOperation)
    (between : Between t hands world) :
    pools.wp t (runAll hands operations) (fun _ _ => True) world := by
  induction operations generalizing hands world with
  | nil => trivial
  | cons operation rest ih =>
    exact Protocol.wp_seq kept (operation.run_spec kept between) fun _ _ keptAfter known =>
      ih keptAfter known

theorem inside_start (segments spareCapacity : Nat) (initialOffset : Int)
    (scripts : Tid → List PoolOperation) :
    pools.Inside (start segments spareCapacity initialOffset scripts) := by
  have kept : pools.inv (start segments spareCapacity initialOffset scripts).world := by
    refine ⟨view_start_ok segments spareCapacity initialOffset fun _ : Tid => [], ?_⟩
    refine ⟨List.nodup_nil, fun id => ?_, rfl, (fun _ _ member => by cases member),
      (fun _ _ member => by cases member), fun id labelled => ?_, rfl⟩
    · exact iff_of_false (fun labelled => by cases labelled) (fun inside => by cases inside)
    · cases labelled
  refine ⟨kept, fun t => runAll_spec kept (scripts t) ⟨fun id => ?_, fun id => ⟨rfl, rfl⟩⟩⟩
  exact ⟨(fun _ mine => by cases mine), fun _ => rfl, fun _ inside => by cases inside⟩

/-- The labels are what is counted and what is between two steps; the count has never underflowed;
and free segments are labelled main. -/
structure LabelsCounted (world : PoolWorld Tid) : Prop where
  labels : {id | (world.shared.header id).pool = .admission}.encard =
    world.shared.admissionCount + world.history.2.labelling.length + world.history.2.leaving.length
  exact : world.history.2.underflowed = false
  free : ∀ id, (world.shared.header id).metadata.state = .free →
    (world.shared.header id).pool = .main

theorem labelsCounted_of_ok (ok : PoolsOk world) : LabelsCounted world := by
  refine ⟨?_, ok.exact, fun id free => ?_⟩
  · have same : {id | (world.shared.header id).pool = .admission} =
        (world.history.2.labelled.toFinset : Set SegId) := by
      ext id
      rw [List.coe_toFinset]
      exact ok.labelled id
    rw [same, Set.encard_coe_eq_coe_finsetCard, List.toFinset_card_of_nodup ok.distinct, ok.counted]
    simp [PoolHistory.labelled, add_assoc]
  · cases pool : (world.shared.header id).pool with
    | main => rfl
    | admission =>
      have admitting := ok.idle id pool
      rw [free] at admitting
      cases admitting

/-- **The admission count.** In every state a run reaches, the segments labelled admission-pool are
as many as the count says, with the inserts between their exchange and their increment and the
drainers between their decrement and their reset; the count never underflows; and free segments
are labelled main. -/
theorem labels_counted (segments spareCapacity : Nat) (initialOffset : Int)
    (scripts : Tid → List PoolOperation)
    {config : Config Tid Shared PoolLabel (History Tid × PoolHistory Tid)}
    (reached : Reachable pools.record (fun _ _ _ => True)
      (start segments spareCapacity initialOffset scripts) config) :
    LabelsCounted config.world :=
  labelsCounted_of_ok
    (Protocol.sound (inside_start segments spareCapacity initialOffset scripts) reached).1.2

end Safety

/-! ### A label counted in and out -/

/-- One thread labels the only segment and drains it. -/
def admitScripts : Nat → List PoolOperation
  | 0 => [.base (.reserve false), .base (.use 1 (.tail none none)), .base (.pin .writer 1),
      .assign 1 .admission, .base (.unpin .writer 1), .base (.claimMember 1),
      .base (.retire 1 none none)]
  | _ => []

/-- The label is on and counted. -/
theorem labels_counted_admitted :
    ∃ config, Reachable pools.record (fun _ _ _ => True) (start 1 0 0 admitScripts) config ∧
      ((config.world.shared.header 1).pool = .admission ∧
        config.world.shared.admissionCount = 1) ∧
      LabelsCounted config.world := by
  obtain ⟨config, reached, ends⟩ := exists_reachable (@pools Nat _).record
    (fun _ _ _ => true) (start 1 0 0 admitScripts) (List.replicate 25 0)
    (fun world => (world.shared.header 1).pool = .admission && world.shared.admissionCount = 1)
    (by decide +kernel)
  have meets : Reachable pools.record (fun _ _ _ => True) (start 1 0 0 admitScripts) config :=
    reached.weaken fun _ _ _ _ => trivial
  exact ⟨config, meets, by simpa using ends, labels_counted 1 0 0 admitScripts meets⟩

/-- **Between the decrement and the reset the count is one less than the labels**, though no insert
is between its exchange and its increment. -/
theorem labels_uncounted :
    ∃ config, Reachable pools.record (fun _ _ _ => True) (start 1 0 0 admitScripts) config ∧
      config.world.history.2.labelling = [] ∧
      ({id | (config.world.shared.header id).pool = .admission}.encard : ℕ∞) ≠
        config.world.shared.admissionCount := by
  obtain ⟨config, reached, ends⟩ := exists_reachable (@pools Nat _).record
    (fun _ _ _ => true) (start 1 0 0 admitScripts) (List.replicate 36 0)
    (fun world => world.history.2.labelling = [] && ((world.shared.header 1).pool = .admission &&
      world.shared.admissionCount = 0)) (by decide +kernel)
  simp only [Bool.and_eq_true, decide_eq_true_eq] at ends
  obtain ⟨labelling, labelled, none⟩ := ends
  refine ⟨config, reached.weaken fun _ _ _ _ => trivial, labelling, fun same => ?_⟩
  rw [none, Nat.cast_zero, Set.encard_eq_zero] at same
  exact Set.notMem_empty 1 (same ▸ labelled)

end CacheRs.Segments.Drains.Admission
