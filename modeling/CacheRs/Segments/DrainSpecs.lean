/-
**What each operation does to the segments a thread holds, and to its pins.**

A thread's part of a segment is a `Hand`: the segment itself, if the thread has it from a queue, in
reservation or under a claim, the waits it has ended as a drainer, and its writer and remover pins.
One specification per operation, each taking hands to hands:

* `wp_casMetadata`: the single-shot transition;
* `tryReserve_spec`, `tryRelease_spec`, `tryReleaseDrained_spec`, `tryReleaseCondemned_spec`,
  `casCondemn_spec`: the transitions of the header;
* `returnSegment_spec`, `reserveFree_spec`, `reserveSpare_spec`, `releaseUnused_spec`: the queues;
* `claimForDrain_spec`, `claimMember_spec`, `retire_spec`: the drain;
* `tryPin_spec`, `releasePin_spec`: the pins;
* `dropGuard_spec`, `acquireItemAt_spec`: the readers, whose pins are not the protocol's concern.
-/

import CacheRs.Segments.DrainRules

set_option linter.unusedSectionVars false

namespace CacheRs.Segments.Drains

open Concurrency

variable {Tid : Type} [DecidableEq Tid]

/-- The views of the segments. -/
def segmentViews : Views Tid Shared Label (History Tid) SegId (SegmentView Tid) where
  record := record
  view := view
  Ok := SegmentView.Ok
  Rely := SegmentView.Rely
  rely_refl := SegmentView.Rely.refl
  rely_trans _ _ _ _ := SegmentView.Rely.trans

/-- The pin–drain protocol over all segments. -/
abbrev pinDrain : Protocol Tid Shared Label (History Tid) := segmentViews.protocol

/-! ### What a thread holds -/

/-- A segment a thread has to itself: its state, and the drainer's waits that have ended. -/
structure Custody where
  state : State
  waited : PinKind → Bool

/-- A thread's part of one segment. -/
structure Hand where
  custody : Option Custody
  pins : PinKind → Nat

namespace Hand

/-- A thread with no part in the segment. -/
def empty : Hand := ⟨none, fun _ => 0⟩

/-- Have the segment in a state, with no wait ended, or not at all. -/
def put (hand : Hand) (state : Option State) : Hand :=
  { hand with custody := state.map fun state => ⟨state, fun _ => false⟩ }

def await (hand : Hand) (kind : PinKind) : Hand :=
  { hand with
    custody := hand.custody.map fun custody =>
      { custody with waited := Function.update custody.waited kind true } }

def gain (hand : Hand) (kind : PinKind) : Hand :=
  { hand with pins := Function.update hand.pins kind (hand.pins kind + 1) }

def drop (hand : Hand) (kind : PinKind) : Hand :=
  { hand with pins := Function.update hand.pins kind (hand.pins kind - 1) }

/-- The segment is the thread's, and no pin on it is left: a claim has been waited out. -/
def Closed (hand : Hand) : Prop :=
  ∃ custody, hand.custody = some custody ∧
    (custody.state = .draining → ∀ kind, custody.waited kind = true)

@[simp] theorem put_put (hand : Hand) (first second : Option State) :
    (hand.put first).put second = hand.put second := rfl

@[simp] theorem put_some_custody (hand : Hand) (state : State) :
    (hand.put (some state)).custody = some ⟨state, fun _ => false⟩ := rfl

theorem put_none {hand : Hand} (none : hand.custody = none) : hand.put .none = hand := by
  rw [put, Option.map_none, ← none]

theorem closed_put (hand : Hand) {state : State} (apart : state ≠ .draining) :
    (hand.put (some state)).Closed :=
  ⟨_, rfl, fun draining => absurd draining apart⟩

end Hand

/-- A thread's part of every segment. -/
abbrev Hands := SegId → Hand

namespace Hands

def put (hands : Hands) (id : SegId) (state : Option State) : Hands :=
  Function.update hands id ((hands id).put state)

/-- A claimed segment whose waits have ended. -/
def drain (hands : Hands) (id : SegId) : Hands :=
  Function.update hands id ((((hands id).put (some .draining)).await .writer).await .remover)

@[simp] theorem put_self (hands : Hands) (id : SegId) (state : Option State) :
    hands.put id state id = (hands id).put state := Function.update_self ..

@[simp] theorem put_put (hands : Hands) (id : SegId) (first second : Option State) :
    (hands.put id first).put id second = hands.put id second := by
  simp [put]

@[simp] theorem drain_put (hands : Hands) (id : SegId) (state : Option State) :
    (hands.drain id).put id state = hands.put id state := by
  simp [put, drain, Hand.put, Hand.await]

theorem put_none {hands : Hands} {id : SegId} (none : (hands id).custody = none) :
    hands.put id .none = hands := by
  rw [put, Hand.put_none none, Function.update_eq_self]

/-- The waits of a drained segment. -/
theorem drain_custody (hands : Hands) (id : SegId) :
    (hands.drain id id).custody = some ⟨.draining,
      Function.update (Function.update (fun _ => false) .writer true) .remover true⟩ := by
  simp [drain, Hand.await]

theorem drain_waited (kind : PinKind) :
    Function.update (Function.update (fun _ => false) PinKind.writer true) .remover true kind =
      true := by
  cases kind <;> rfl

theorem drain_closed (hands : Hands) (id : SegId) : (hands.drain id id).Closed :=
  ⟨_, drain_custody hands id, fun _ => drain_waited⟩

end Hands

/-- A thread's knowledge of a segment: its hand, and the pin it is entering. -/
structure Known (t : Tid) (known : Hand × Option PinKind) (v : SegmentView Tid) : Prop where
  custody : ∀ custody, known.1.custody = some custody → v.ledger.owner = some t ∧
    v.metadata.state = custody.state ∧
    ∀ kind, custody.waited kind = true → v.ledger.waited kind = true
  pins : ∀ kind, (v.ledger.granted kind).countP (·.holder = t) = known.1.pins kind
  entering : ∀ kind, known.2 = some kind → t ∈ v.ledger.entering kind

/-- Thread `t` holds what its hands say. -/
def Holds (t : Tid) (hands : Hands) (world : World Shared (History Tid)) : Prop :=
  segmentViews.Knows (Known t) (fun id => (hands id, none)) world

section Knowledge

variable {t : Tid} {v after : SegmentView Tid} {hand : Hand} {entering : Option PinKind}

theorem Known.rely (known : Known t (hand, entering) v) (moved : SegmentView.Rely t v after) :
    Known t (hand, entering) after := by
  refine ⟨fun custody mine => ?_, fun kind => (moved.granted kind).trans (known.pins kind),
    fun kind inside => ?_⟩
  · obtain ⟨owner, here, waited⟩ := known.custody custody mine
    obtain ⟨still, same, unchanged⟩ := moved.owned owner
    exact ⟨still, same.trans here, fun kind ended => unchanged ▸ waited kind ended⟩
  · refine List.count_pos_iff.mp ?_
    rw [moved.entering kind]
    exact List.count_pos_iff.mpr (known.entering kind inside)

/-- A closed hand's segment is unpinned. -/
theorem Known.unpinned (known : Known t (hand, entering) v) (ok : v.Ok) (closed : hand.Closed) :
    ∀ kind, v.ledger.granted kind = [] := by
  obtain ⟨custody, mine, ended⟩ := closed
  obtain ⟨owner, here, waited⟩ := known.custody custody mine
  intro kind
  refine ok.unpinned kind ?_ fun draining => waited kind (ended (here.symm.trans draining) kind)
  by_contra served
  rw [Bool.not_eq_false] at served
  have withheld := ok.owned t owner
  rw [not_withheld_of_removable served] at withheld
  cases withheld

/-- A segment in service is in nobody's custody. -/
theorem Known.served {v : SegmentView Tid} {hand : Hand} {entering : Option PinKind}
    (known : Known t (hand, entering) v) (ok : v.Ok)
    (served : Withheld v.metadata.state = false) : hand.custody = none := by
  cases custody : hand.custody with
  | none => rfl
  | some custody =>
    obtain ⟨owner, -, -⟩ := known.custody _ custody
    have withheld := ok.owned t owner
    rw [served] at withheld
    cases withheld

theorem moved_granted (new : Metadata) (kind : PinKind) :
    (v.moved t new).ledger.granted kind = v.ledger.granted kind := by
  show (if v.metadata.state = new.state then v.ledger else _).granted kind = _
  split <;> rfl

theorem moved_entering (new : Metadata) (kind : PinKind) :
    (v.moved t new).ledger.entering kind = v.ledger.entering kind := by
  show (if v.metadata.state = new.state then v.ledger else _).entering kind = _
  split <;> rfl

/-- Giving up custody takes no knowledge of the segment. -/
theorem Known.away (known : Known t (hand, entering) v) (new : Metadata) :
    Known t (hand.put none, entering) (v.moved t new) := by
  refine ⟨(fun _ mine => by cases mine), fun kind => ?_, fun kind inside => ?_⟩
  · rw [moved_granted]
    exact known.pins kind
  · rw [moved_entering]
    exact known.entering kind inside

/-- A move into a state withheld from the others makes the segment its maker's. -/
theorem Known.moved (known : Known t (hand, entering) v) {new : Metadata} {state : State}
    (reached : new.state = state) (changed : v.metadata.state ≠ state)
    (withheld : Withheld state = true) :
    Known t (hand.put (some state), entering) (v.moved t new) := by
  refine ⟨fun other mine => ?_, (known.away new).pins, (known.away new).entering⟩
  cases mine
  subst reached
  have ledger : (v.moved t new).ledger.owner = if Withheld new.state then some t else none := by
    show (if v.metadata.state = new.state then v.ledger else _).owner = _
    rw [if_neg changed]
  refine ⟨?_, rfl, fun kind ended => by cases ended⟩
  rw [ledger, if_pos withheld]

end Knowledge

section Rules

variable {α : Type} {t : Tid} {world after : World Shared (History Tid)} {id : SegId} {hands : Hands}

theorem known_stable (t : Tid) (known : Hand × Option PinKind) (v after : SegmentView Tid)
    (knows : Known t known v) (moved : segmentViews.Rely t v after) :
    Known t known after :=
  knows.rely moved

theorem Holds.rely (holds : Holds t hands world) (moved : pinDrain.rely t world after) :
    Holds t hands after :=
  Views.Knows.rely (known_stable t) holds moved

/-- A neutral program leaves a thread its hands. -/
theorem Holds.neutral {program : Prog α} (holds : Holds t hands world)
    (kept : pinDrain.inv world) (neutral : pinDrain.Neutral t program) :
    pinDrain.wp t program (fun _ => Holds t hands) world :=
  Views.Knows.neutral (known_stable t) neutral kept holds

theorem hands_update (hands : Hands) (id : SegId) (hand : Hand) :
    Function.update (fun id => (hands id, (none : Option PinKind))) id (hand, none) =
      fun other => (Function.update hands id hand other, none) := by
  funext other
  by_cases same : other = id
  · subst same
    rw [Function.update_self, Function.update_self]
  · rw [Function.update_of_ne same, Function.update_of_ne same]

/-- A step that touches one segment: what its thread holds of it afterwards. -/
theorem wp_step {label : Label} {enabled : Shared → Bool} {action : Shared → α × Shared}
    {change : SegmentView Tid → SegmentView Tid} (hand : Hand)
    {post : α → World Shared (History Tid) → Prop} (holds : Holds t hands world)
    (touches : ∀ now : World Shared (History Tid), Touches now
      (now.after record t label fun state => (action state).2) id (change (view now id)))
    (step : ∀ now : World Shared (History Tid), enabled now.shared = true → (view now id).Ok →
      Known t (hands id, none) (view now id) →
      SegmentView.Kept t (view now id) (change (view now id)) ∧
        Known t (hand, none) (change (view now id)))
    (next : ∀ now after : World Shared (History Tid), pinDrain.inv after →
      Holds t (Function.update hands id hand) after → post (action now.shared).1 after) :
    pinDrain.wp t (Program.whenEnabled label enabled action) post world := by
  refine Views.wp_access (V := segmentViews) (hand, none) (known_stable t) holds touches step ?_
  intro now after kept knows
  refine next now after kept ?_
  rw [hands_update] at knows
  exact knows

end Rules

/-! ### Neutral operations -/

section Neutral

variable {α : Type} {t : Tid} {id : SegId}

/-- Steps that the ledgers do not see. -/
def Unseen (Tid : Type) [DecidableEq Tid] (label : Label) : Prop :=
  ∀ (t : Tid) (state : Shared) (history : History Tid), record t label state history = history

theorem neutral_unseen {label : Label} {enabled : Shared → Bool} {action : Shared → α × Shared}
    (unseen : Unseen Tid label)
    (same : ∀ now : World Shared (History Tid), ∀ id,
      view ⟨(action now.shared).2, now.history⟩ id = view now id) :
    pinDrain.Neutral t (Program.whenEnabled label enabled action) :=
  Views.neutral_quiet (V := segmentViews) unseen same

theorem neutral_load {label : Label} {field : SegmentHeader → α}
    (unseen : Unseen Tid label) : pinDrain.Neutral t (load label id field) :=
  neutral_unseen unseen fun _ _ => rfl

theorem neutral_metadata : pinDrain.Neutral t (metadata id) := neutral_load fun _ _ _ => rfl

theorem neutral_assertThat {condition : Bool} : pinDrain.Neutral t (assertThat condition) :=
  neutral_unseen (fun _ _ _ => rfl) fun _ _ => rfl

/-- Past an assertion, it holds. -/
theorem wp_assertThat {condition : Bool} {world : World Shared (History Tid)}
    {post : Unit → World Shared (History Tid) → Prop}
    (next : ∀ now, pinDrain.rely t world now → pinDrain.inv now → condition = true →
      post () now) :
    pinDrain.wp t (assertThat condition) post world :=
  Views.wp_quiet (V := segmentViews) (fun _ _ _ => rfl) (fun _ _ => rfl) next

/-- A change of a header that the protocol does not see. -/
structure Aside (change : SegmentHeader → SegmentHeader) : Prop where
  metadata : ∀ header, (change header).metadata = header.metadata
  count : ∀ (kind : PinKind) header, kind.count (change header) = kind.count header
  generation : ∀ header, (change header).generation = header.generation

theorem aside_of {change : SegmentHeader → SegmentHeader}
    (metadata : ∀ header, (change header).metadata = header.metadata)
    (writers : ∀ header, (change header).activeWriters = header.activeWriters)
    (removers : ∀ header, (change header).activeRemovers = header.activeRemovers)
    (generation : ∀ header, (change header).generation = header.generation) : Aside change := by
  refine ⟨metadata, fun kind header => ?_, generation⟩
  cases kind with
  | writer => exact writers header
  | remover => exact removers header

theorem view_modifyHeader {now : World Shared (History Tid)}
    {change : SegmentHeader → SegmentHeader} (aside : Aside change) (other : SegId) :
    view ⟨now.shared.modifyHeader id change, now.history⟩ other = view now other := by
  by_cases same : other = id
  · subst same
    simp [view, aside.metadata, aside.count, aside.generation]
  · simp [view, same]

theorem neutral_storeAs {label : Label} {change : SegmentHeader → SegmentHeader}
    (unseen : Unseen Tid label) (aside : Aside change) :
    pinDrain.Neutral t (storeAs label id change) :=
  neutral_unseen unseen fun _ => view_modifyHeader aside

theorem neutral_store {change : SegmentHeader → SegmentHeader} (aside : Aside change) :
    pinDrain.Neutral t (store id change) :=
  neutral_storeAs (fun _ _ _ => rfl) aside

theorem neutral_fetch {label : Label} {field : SegmentHeader → α}
    {change : SegmentHeader → SegmentHeader} (unseen : Unseen Tid label)
    (aside : Aside change) : pinDrain.Neutral t (fetch label id field change) :=
  neutral_unseen unseen fun _ => view_modifyHeader aside

theorem neutral_markCreated : pinDrain.Neutral t (markCreated id) :=
  .bind (neutral_unseen (fun _ _ _ => rfl) fun _ _ => rfl) fun _ =>
    neutral_store (aside_of (fun _ => rfl) (fun _ => rfl) (fun _ => rfl) fun _ => rfl)

theorem neutral_markMerged : pinDrain.Neutral t (markMerged id) :=
  .bind (neutral_unseen (fun _ _ _ => rfl) fun _ _ => rfl) fun _ =>
    neutral_store (aside_of (fun _ => rfl) (fun _ => rfl) (fun _ => rfl) fun _ => rfl)

theorem neutral_leavePool : pinDrain.Neutral t (leavePool id) := by
  unfold leavePool
  refine .bind (neutral_load fun _ _ _ => rfl) fun pool => ?_
  have reset : pinDrain.Neutral t (store id fun header => { header with pool := .main }) :=
    neutral_store (aside_of (fun _ => rfl) (fun _ => rfl) (fun _ => rfl) fun _ => rfl)
  refine .ite ?_ reset
  exact .bind (neutral_unseen (fun _ _ _ => rfl) fun _ _ => rfl) fun _ =>
    .bind neutral_assertThat fun _ => reset

end Neutral

/-! ### Exchanging the word -/

section Exchange

variable {t : Tid} {world : World Shared (History Tid)} {id : SegId} {hands : Hands}

/-- The labels under which a successful exchange is entered as a move. -/
structure Exchanges (Tid : Type) [DecidableEq Tid] (label : Label) (id : SegId)
    (current new : Metadata) : Prop where
  won : ∀ (t : Tid) (state : Shared) (history : History Tid),
    (state.header id).metadata = current → record t label state history =
      Function.update history id ((history id).moved t current.state new.state)
  lost : ∀ (t : Tid) (state : Shared) (history : History Tid),
    (state.header id).metadata ≠ current → record t label state history = history

theorem exchanges (id : SegId) (current new : Metadata) :
    Exchanges Tid (.exchange id current new) id current new :=
  ⟨fun _ _ _ found => if_pos found, fun _ _ _ differs => if_neg differs⟩

theorem claimantExchanges (id : SegId) (current : Metadata) :
    Exchanges Tid (.claimantExchange id current) id current .newFree :=
  ⟨fun _ _ _ found => if_pos found, fun _ _ _ differs => if_neg differs⟩

/-- Exchanging the word: a successful exchange must be a move. -/
theorem wp_exchange {label : Label} {current new : Metadata} (hand : Hand)
    {post : Option Metadata → World Shared (History Tid) → Prop}
    (entered : Exchanges Tid label id current new) (holds : Holds t hands world)
    (kept : ∀ v : SegmentView Tid, v.Ok → Known t (hands id, none) v → v.metadata = current →
      SegmentView.Kept t v (v.moved t new) ∧ Known t (hand, none) (v.moved t new))
    (won : ∀ (v : SegmentView Tid) after, v.Ok → Known t (hands id, none) v →
      v.metadata = current → pinDrain.inv after → Holds t (Function.update hands id hand) after →
      post none after)
    (lost : ∀ observed after, pinDrain.inv after → Holds t hands after →
      post (some observed) after) :
    pinDrain.wp t (exchange label id current new) post world := by
  refine Protocol.wp_atomically fun now moved inv _ _ => ?_
  have held := holds.rely moved
  by_cases found : (view now id).metadata = current
  · have here : (now.shared.header id).metadata = current := found
    have touches : Touches now _ id _ :=
      touches_exchange now t id new (entered.won t now.shared now.history here) found
    obtain ⟨keptView, known⟩ := kept _ (inv id) (held id) found
    obtain ⟨keptAfter, guaranteed⟩ :=
      Views.Touches.kept (V := segmentViews) touches inv keptView
    refine ⟨keptAfter, guaranteed, ?_⟩
    show post (if (now.shared.header id).metadata = current then none else _) _
    rw [if_pos here]
    refine won _ _ (inv id) (held id) found keptAfter ?_
    have knows := Views.Touches.knows (V := segmentViews) touches held known
    rw [hands_update] at knows
    exact knows
  · have differs : (now.shared.header id).metadata ≠ current := found
    have stays := exchange_lost now t id new
      (entered.lost t now.shared now.history differs) found
    obtain ⟨keptAfter, guaranteed⟩ :=
      Views.kept_of_same (V := segmentViews) (t := t) inv fun other => congrArg (view · other) stays
    refine ⟨keptAfter, guaranteed, ?_⟩
    show post (if (now.shared.header id).metadata = current then none else _)
      (now.after record t _ _)
    rw [if_neg differs, stays]
    exact lost _ now inv held

/-- The single-shot transition to another state. -/
theorem wp_casMetadata {expected new : State} {newNext newPrev : Option (Option SegId)} (hand : Hand)
    (holds : Holds t hands world) (kept : pinDrain.inv world)
    (move : ∀ (v : SegmentView Tid) word, v.Ok → Known t (hands id, none) v →
      v.metadata.state = expected → word.state = new → SegmentView.Move t v word)
    (gain : ∀ (v : SegmentView Tid) word, v.Ok → Known t (hands id, none) v →
      v.metadata.state = expected → word.state = new → Known t (hand, none) (v.moved t word)) :
    pinDrain.wp t (casMetadata id expected new newNext newPrev) (fun won =>
      Holds t (if won then Function.update hands id hand else hands)) world := by
  unfold casMetadata
  refine neutral_metadata.andThen kept fun current middle moved _ => ?_
  have held := holds.rely moved
  refine Protocol.wp_ite (fun _ => held) fun same => ?_
  have state : current.state = expected := Decidable.not_not.mp same
  refine (Protocol.wp_bind _ _ _ _).mpr (wp_exchange hand (exchanges ..) held ?_ ?_ ?_)
  · intro v ok known found
    have here : v.metadata.state = expected := found ▸ state
    exact ⟨ok.exchange (move v _ ok known here rfl), gain v _ ok known here rfl⟩
  · exact fun _ _ _ _ _ _ held => held
  · exact fun _ _ _ held => held

theorem neutral_relink {current word : Metadata} (same : word.state = current.state) :
    pinDrain.Neutral t (exchange (.exchange id current word) id current word) := by
  intro world _
  refine Protocol.wp_atomically fun now moved inv _ _ => ?_
  by_cases found : (view now id).metadata = current
  · have touches : Touches now _ id _ := touches_exchange now t id word
      ((exchanges id current word).won t now.shared now.history found) found
    have state : word.state = (view now id).metadata.state := found ▸ same
    obtain ⟨keptAfter, guaranteed⟩ :=
      Views.Touches.kept (V := segmentViews) touches inv ((inv id).relink state)
    exact ⟨keptAfter, guaranteed, pinDrain.rely_trans t _ _ _ moved
      (Views.Touches.rely (V := segmentViews) touches (SegmentView.relink_rely state t))⟩
  · have stays := exchange_lost now t id word
      ((exchanges id current word).lost t now.shared now.history found) found
    have unchanged : ∀ other, view (now.after record t _ _) other = view now other :=
      fun other => congrArg (view · other) stays
    obtain ⟨keptAfter, guaranteed⟩ :=
      Views.kept_of_same (V := segmentViews) (t := t) inv unchanged
    exact ⟨keptAfter, guaranteed, pinDrain.rely_trans t _ _ _ moved
      (Views.rely_of_same (V := segmentViews) unchanged)⟩

theorem neutral_updateLinks {newNext newPrev : Option (Option SegId)} :
    pinDrain.Neutral t (updateLinks id newNext newPrev) := by
  unfold updateLinks
  refine .bind neutral_metadata fun current => .repeatUntil fun current => ?_
  refine .bind (neutral_relink rfl) fun failed => ?_
  cases failed with
  | none => exact .ret _
  | some observed => exact .ret _

theorem neutral_nextSeg : pinDrain.Neutral t (nextSeg id) :=
  .bind neutral_metadata fun _ => .ret _

theorem neutral_prevSeg : pinDrain.Neutral t (prevSeg id) :=
  .bind neutral_metadata fun _ => .ret _

theorem neutral_onLink {link : Option SegId} {patch : SegId → Prog Unit}
    (each : ∀ neighbour, pinDrain.Neutral t (patch neighbour)) :
    pinDrain.Neutral t (onLink link patch) := by
  cases link with
  | none => exact .ret _
  | some neighbour => exact each neighbour

theorem neutral_unlink : pinDrain.Neutral t (unlink id) := by
  refine .bind neutral_nextSeg fun next => .bind (neutral_onLink fun neighbour => ?_) fun _ => ?_
  · exact .bind neutral_prevSeg fun _ => neutral_updateLinks
  · refine .bind neutral_prevSeg fun prev => neutral_onLink fun neighbour => ?_
    exact .bind neutral_nextSeg fun _ => neutral_updateLinks

end Exchange

/-! ### The owner's steps -/

section Owner

variable {t : Tid} {world : World Shared (History Tid)} {id : SegId} {hands : Hands}

theorem resetStats_spec {change : SegmentHeader → SegmentHeader} (aside : Aside change)
    (closed : (hands id).Closed) (holds : Holds t hands world) :
    pinDrain.wp t (storeAs (.resetStats id) id change) (fun _ => Holds t hands) world := by
  refine wp_step (hands id) holds (fun now => touches_resetStats now t id aside.metadata
    aside.count aside.generation) (fun now _ ok known => ?_) fun _ after _ held => ?_
  · exact ⟨ok.reset (known.unpinned ok closed), known.custody, known.pins, known.entering⟩
  · rw [Function.update_eq_self] at held
    exact held

theorem resetWriteStats_spec (kept : pinDrain.inv world) (closed : (hands id).Closed)
    (holds : Holds t hands world) :
    pinDrain.wp t (resetWriteStats id) (fun _ => Holds t hands) world := by
  unfold resetWriteStats
  refine (neutral_unseen (fun _ _ _ => rfl) fun _ _ => rfl).andThen kept
    fun initialOffset first moved keptFirst => ?_
  refine Protocol.wp_seq keptFirst (resetStats_spec (aside_of (fun _ => rfl) (fun _ => rfl)
    (fun _ => rfl) fun _ => rfl) closed (holds.rely moved)) fun _ second keptSecond held => ?_
  refine Protocol.wp_seq keptSecond (resetStats_spec (aside_of (fun _ => rfl) (fun _ => rfl)
    (fun _ => rfl) fun _ => rfl) closed held) fun _ third keptThird held => ?_
  refine Protocol.wp_seq keptThird (resetStats_spec (aside_of (fun _ => rfl) (fun _ => rfl)
    (fun _ => rfl) fun _ => rfl) closed held) fun _ fourth keptFourth held => ?_
  refine Protocol.wp_seq keptFourth (resetStats_spec (aside_of (fun _ => rfl) (fun _ => rfl)
    (fun _ => rfl) fun _ => rfl) closed held) fun _ fifth keptFifth held => ?_
  exact resetStats_spec (aside_of (fun _ => rfl) (fun _ => rfl) (fun _ => rfl) fun _ => rfl)
    closed held

theorem bumpGeneration_spec (closed : (hands id).Closed) (holds : Holds t hands world) :
    pinDrain.wp t (bumpGeneration id) (fun _ => Holds t hands) world := by
  refine wp_step (hands id) holds (fun now => touches_bumpGeneration now t id)
    (fun now _ ok known => ?_) fun _ after _ held => ?_
  · exact ⟨ok.bump (known.unpinned ok closed), known.custody, known.pins, known.entering⟩
  · rw [Function.update_eq_self] at held
    exact held

/-- The owner's transition to another state. -/
theorem owner_casMetadata {expected new : State} {newNext newPrev : Option (Option SegId)}
    {waited : PinKind → Bool} (kept : pinDrain.inv world)
    (mine : (hands id).custody = some ⟨expected, waited⟩) (changed : expected ≠ new)
    (ended : expected = .draining → ∀ kind, waited kind = true) (holds : Holds t hands world) :
    pinDrain.wp t (casMetadata id expected new newNext newPrev) (fun won =>
      Holds t (if won then hands.put id (if Withheld new then some new else none) else hands))
      world := by
  refine wp_casMetadata _ holds kept (fun v word ok known here _ => ?_)
    fun v word _ known here state => ?_
  · obtain ⟨owner, -, waited⟩ := known.custody _ mine
    refine ⟨fun _ => owner, fun draining kind => ?_, fun served => ?_⟩
    · exact waited kind (ended (here.symm.trans draining) kind)
    · have withheld := ok.owned t owner
      rw [not_withheld_of_removable served] at withheld
      cases withheld
  · by_cases withheld : Withheld new = true
    · rw [if_pos withheld]
      exact known.moved state (here ▸ changed) withheld
    · rw [if_neg withheld]
      exact known.away word

theorem custody_put (hands : Hands) (id : SegId) (state : State) :
    (hands.put id (some state) id).custody = some ⟨state, fun _ => false⟩ := by
  rw [Hands.put_self, Hand.put_some_custody]

/-- Reserving a segment taken from a queue. -/
theorem tryReserve_spec (kept : pinDrain.inv world)
    (holds : Holds t (hands.put id (some .free)) world) :
    pinDrain.wp t (tryReserve id) (fun reserved =>
      Holds t (hands.put id (some (if reserved then .reserved else .free)))) world := by
  unfold tryReserve
  refine Protocol.wp_seq kept (owner_casMetadata kept (custody_put hands id _) (by decide)
    (fun draining => by cases draining) holds) fun won after keptAfter held => ?_
  cases won with
  | false => exact held
  | true =>
    have reserved : Holds t (hands.put id (some .reserved)) after := by
      simpa [Withheld] using held
    refine Protocol.wp_seq keptAfter (resetWriteStats_spec keptAfter ?_ reserved)
      fun _ second keptSecond held => ?_
    · rw [Hands.put_self]
      exact Hand.closed_put _ (by decide)
    refine neutral_markCreated.andThen keptSecond fun _ third moved keptThird => ?_
    refine neutral_markMerged.andThen keptThird fun _ fourth moved' _ => ?_
    exact (held.rely moved).rely moved'

/-- Giving a reserved segment back. -/
theorem tryRelease_spec (kept : pinDrain.inv world)
    (holds : Holds t (hands.put id (some .reserved)) world) :
    pinDrain.wp t (tryRelease id) (fun released after =>
      Holds t (hands.put id (some (if released then .free else .reserved))) after) world := by
  unfold tryRelease
  refine Protocol.wp_seq kept (owner_casMetadata kept (custody_put hands id _) (by decide)
    (fun draining => by cases draining) holds) fun won after keptAfter held => ?_
  cases won with
  | true => simpa [Withheld] using held
  | false =>
    -- a segment still reserved is not linking, so the second transition cannot win
    have never : ∀ v : SegmentView Tid, Known t (hands.put id (some .reserved) id, none) v →
        ¬ v.metadata.state = .linking := by
      intro v known linking
      have reserved := (known.custody _ (custody_put hands id _)).2.1
      rw [linking] at reserved
      cases reserved
    refine Protocol.wp_mono keptAfter (wp_casMetadata ((hands id).put (some .free)) held keptAfter
      (fun v _ _ known here _ => absurd here (never v known))
      fun v _ _ known here _ => absurd here (never v known)) fun released last _ held => ?_
    cases released with
    | true => simpa [Hands.put] using held
    | false => exact held

/-- Freeing a drained segment whose readers are gone. -/
theorem tryReleaseDrained_spec (kept : pinDrain.inv world) (holds : Holds t (hands.drain id) world) :
    pinDrain.wp t (tryReleaseDrained id) (fun released after =>
      Holds t (if released then hands.put id (some .free) else hands.drain id) after) world := by
  unfold tryReleaseDrained
  refine Protocol.wp_seq kept (owner_casMetadata kept (Hands.drain_custody hands id) (by decide)
    (fun _ => Hands.drain_waited) holds) fun won after keptAfter held => ?_
  cases won with
  | false => exact held
  | true =>
    have free : Holds t (hands.put id (some .free)) after := by
      simpa [Withheld] using held
    refine Protocol.wp_seq keptAfter (bumpGeneration_spec ?_ free) fun _ last _ held => held
    rw [Hands.put_self]
    exact Hand.closed_put _ (by decide)

/-- A claimant that wins has the segment to itself, free. -/
theorem tryReleaseCondemned_spec (kept : pinDrain.inv world) (holds : Holds t hands world) :
    pinDrain.wp t (tryReleaseCondemned id) (fun released after =>
      Holds t (if released then hands.put id (some .free) else hands) after ∧
        (released = true → (hands id).custody = none)) world := by
  unfold tryReleaseCondemned
  refine (neutral_load fun _ _ _ => rfl).andThen kept fun current first moved keptFirst => ?_
  have held := holds.rely moved
  refine Protocol.wp_ite (fun _ => ⟨held, fun won => by cases won⟩) fun same => ?_
  have state : current.state = .awaitingRelease := Decidable.not_not.mp same
  refine (Protocol.wp_bind _ _ _ _).mpr (wp_exchange ((hands id).put (some .free))
    (claimantExchanges id current) held (fun v ok known found => ?_)
    (fun v after ok known found keptAfter held => ?_)
    fun _ after _ held => ⟨held, fun won => by cases won⟩)
  · have here : v.metadata.state = .awaitingRelease := found ▸ state
    refine ⟨ok.exchange ⟨?_, ?_, ?_⟩, known.moved rfl (by rw [here]; decide) rfl⟩
    · rw [here]
      intro withheld
      cases withheld
    · rw [here]
      intro draining
      cases draining
    · rw [here]
      intro served
      cases served
  · have apart : (hands id).custody = none :=
      known.served ok (by rw [found, state]; rfl)
    refine Protocol.wp_seq keptAfter (bumpGeneration_spec ?_ held)
      fun _ last _ held => ⟨held, fun _ => apart⟩
    rw [Function.update_self]
    exact Hand.closed_put _ (by decide)

/-- Condemning a drained segment leaves it to its readers. -/
theorem casCondemn_spec (kept : pinDrain.inv world) (holds : Holds t (hands.drain id) world) :
    pinDrain.wp t (casCondemn id) (fun condemned after =>
      Holds t (if condemned then hands.put id none else hands.drain id) after) world := by
  unfold casCondemn
  refine neutral_metadata.andThen kept fun current first moved keptFirst => ?_
  have held := holds.rely moved
  refine Protocol.wp_ite (fun _ => held) fun same => ?_
  have state : current.state = .draining := Decidable.not_not.mp same
  refine (neutral_load fun _ _ _ => rfl).andThen keptFirst fun generation second moved' _ => ?_
  refine (Protocol.wp_bind _ _ _ _).mpr (wp_exchange ((hands.drain id id).put none)
    (exchanges ..) (held.rely moved') (fun v ok known found => ?_) (fun _ after _ _ _ _ held => ?_)
    fun _ after _ held => held)
  · have here : v.metadata.state = .draining := found ▸ state
    obtain ⟨owner, -, waited⟩ := known.custody _ (Hands.drain_custody hands id)
    refine ⟨ok.exchange ⟨fun _ => owner, fun _ kind => waited kind (Hands.drain_waited kind), ?_⟩,
      known.away _⟩
    rw [here]
    intro served
    cases served
  · have gone := Hands.drain_put hands id none
    rw [Hands.put] at gone
    rw [gone] at held
    exact held

end Owner

/-! ### The queues -/

section Queues

variable {t : Tid} {world : World Shared (History Tid)} {id : SegId} {hands : Hands}

/-- A push ends its thread's custody of a free segment. -/
theorem push_spec {label : Label} {action : Shared → Unit × Shared}
    (touches : ∀ now : World Shared (History Tid), Touches now
      (now.after record t label fun state => (action state).2) id (view now id).pushed)
    (holds : Holds t (hands.put id (some .free)) world) :
    pinDrain.wp t (Program.atomically label action) (fun _ => Holds t (hands.put id none)) world := by
  refine wp_step ((hands id).put none) holds touches (fun now _ ok known => ?_)
    fun _ after _ held => ?_
  · obtain ⟨owner, here, -⟩ := known.custody _ (custody_put hands id _)
    refine ⟨ok.push owner here, (fun _ mine => by cases mine), fun kind => ?_, known.entering⟩
    have pins := known.pins kind
    rw [Hands.put_self] at pins
    exact pins
  · simpa [Hands.put] using held

theorem pushFree_spec (holds : Holds t (hands.put id (some .free)) world) :
    pinDrain.wp t (pushFree id) (fun _ => Holds t (hands.put id none)) world :=
  push_spec (fun now => touches_pushFree now t id) holds

theorem pushSpare_spec (holds : Holds t (hands.put id (some .free)) world) :
    pinDrain.wp t (pushSpare id) (fun _ => Holds t (hands.put id none)) world :=
  push_spec (fun now => touches_pushSpare now t id) holds

theorem pushFreed_spec (kept : pinDrain.inv world)
    (holds : Holds t (hands.put id (some .free)) world) :
    pinDrain.wp t (pushFreed id) (fun _ => Holds t (hands.put id none)) world := by
  unfold pushFreed
  refine Protocol.wp_seq kept (pushFree_spec holds) fun _ after keptAfter held => ?_
  exact held.neutral keptAfter (neutral_unseen (fun _ _ _ => rfl) fun _ _ => rfl)

/-- The hands after a steal or a reservation that may have found nothing. -/
def taken (hands : Hands) (found : Option SegId) (state : State) : Hands :=
  found.elim hands fun id => hands.put id (some state)

/-- Stealing from a queue gives its thread custody of a free segment it had no part in. -/
theorem steal_spec {label : Label} {queue : Shared → List SegId} {rest : Shared → Shared}
    (empty : ∀ now : World Shared (History Tid), queue now.shared = [] →
      ∀ id, view (now.after record t label rest) id = view now id)
    (found : ∀ (now : World Shared (History Tid)) id tail, queue now.shared = id :: tail →
      (view now id).queued ≠ 0 ∧ Touches now (now.after record t label rest) id
        ((view now id).stolen t))
    (holds : Holds t hands world) :
    pinDrain.wp t (Program.atomically label fun state => ((queue state).head?, rest state))
      (fun stolen after => Holds t (taken hands stolen .free) after ∧
        ∀ id ∈ stolen, (hands id).custody = none) world := by
  refine Protocol.wp_atomically fun now moved kept _ _ => ?_
  have held := holds.rely moved
  cases inside : queue now.shared with
  | nil =>
    have same := empty now inside
    obtain ⟨keptAfter, guaranteed⟩ :=
      Views.kept_of_same (V := segmentViews) (t := t) kept same
    refine ⟨keptAfter, guaranteed, ?_⟩
    show Holds t (taken hands (queue now.shared).head? .free) _ ∧ _
    rw [inside]
    exact ⟨held.rely (Views.rely_of_same (V := segmentViews) same), fun _ member => by cases member⟩
  | cons id tail =>
    obtain ⟨queued, touches⟩ := found now id tail inside
    have nobody : (view now id).ledger.owner = none := ((kept id).inQueue.resolve_left queued).2.2
    obtain ⟨keptAfter, guaranteed⟩ :=
      Views.Touches.kept (V := segmentViews) touches kept ((kept id).steal queued)
    refine ⟨keptAfter, guaranteed, ?_⟩
    show Holds t (taken hands (queue now.shared).head? .free) _ ∧ _
    rw [inside]
    have free := ((kept id).inQueue.resolve_left queued).2.1
    have known : Known t ((hands id).put (some .free), none) ((view now id).stolen t) := by
      refine ⟨fun custody mine => ?_, (held id).pins, (held id).entering⟩
      cases mine
      exact ⟨rfl, free, fun kind ended => by cases ended⟩
    have knows := Views.Touches.knows (V := segmentViews) touches held known
    rw [hands_update] at knows
    refine ⟨knows, fun other member => ?_⟩
    cases member
    cases custody : (hands id).custody with
    | none => rfl
    | some custody =>
      cases nobody.symm.trans ((held id).custody _ custody).1

theorem stealFree_spec (holds : Holds t hands world) :
    pinDrain.wp t stealFree (fun stolen after => Holds t (taken hands stolen .free) after ∧
      ∀ id ∈ stolen, (hands id).custody = none) world :=
  steal_spec (fun _ found other => by simp [view, World.after, record, found])
    (fun now id _ found => ⟨by simp [view, found], touches_stealFree now t id found⟩) holds

theorem stealSpare_spec (holds : Holds t hands world) :
    pinDrain.wp t stealSpare (fun stolen after => Holds t (taken hands stolen .free) after ∧
      ∀ id ∈ stolen, (hands id).custody = none) world :=
  steal_spec (fun _ found other => by simp [view, World.after, record, found])
    (fun now id _ found => ⟨by simp [view, found], touches_stealSpare now t id found⟩) holds

/-- Returning a segment gives it to one of the queues. -/
theorem returnSegment_spec (kept : pinDrain.inv world)
    (holds : Holds t (hands.put id (some .free)) world) :
    pinDrain.wp t (returnSegment id) (fun _ => Holds t (hands.put id none)) world := by
  unfold returnSegment
  refine (neutral_unseen (fun _ _ _ => rfl) fun _ _ => rfl).andThen kept
    fun read first moved keptFirst => ?_
  refine Protocol.wp_repeatUntil (fun _ => Holds t (hands.put id (some .free)))
    (fun _ _ _ held moved _ => held.rely moved) (holds.rely moved) fun count now keptNow held => ?_
  refine Protocol.wp_ite (fun _ => ?_) fun _ => ?_
  · exact Protocol.wp_seq keptNow (pushFreed_spec keptNow held) fun _ _ _ last => last
  · refine (neutral_unseen (fun _ _ _ => rfl) fun later other => ?_).andThen keptNow
      fun observed later moved keptLater => ?_
    · by_cases same : later.shared.spareCount = count <;> simp [view, same]
    · cases observed with
      | some observed => exact held.rely moved
      | none =>
        exact Protocol.wp_seq keptLater (pushSpare_spec (held.rely moved)) fun _ _ _ last => last

/-- A segment taken from a queue is reserved, or goes back by `push`. -/
theorem reserveTaken_spec {raw : SegId} {push : Prog Unit} {count : Prog Unit}
    (kept : pinDrain.inv world) (apart : (hands raw).custody = none)
    (counted : pinDrain.Neutral t count)
    (pushed : ∀ now, Holds t (hands.put raw (some .free)) now →
      pinDrain.wp t push (fun _ => Holds t (hands.put raw none)) now)
    (holds : Holds t (hands.put raw (some .free)) world) :
    pinDrain.wp t (do
      if ← tryReserve raw then
        count
        return some raw
      push
      return none) (fun reserved after => Holds t (taken hands reserved .reserved) after ∧
        ∀ id ∈ reserved, (hands id).custody = none) world := by
  refine Protocol.wp_seq kept (tryReserve_spec kept holds) fun reserved second keptSecond held => ?_
  cases reserved with
  | true =>
    refine counted.andThen keptSecond fun _ third moved _ => ⟨held.rely moved, fun id member => ?_⟩
    cases member
    exact apart
  | false =>
    refine Protocol.wp_seq keptSecond (pushed second held) fun _ third _ last => ?_
    rw [Hands.put_none apart] at last
    exact ⟨last, fun _ member => by cases member⟩

/-- A reservation from the free queue. -/
theorem reserveFree_spec (kept : pinDrain.inv world) (holds : Holds t hands world) :
    pinDrain.wp t reserveFree (fun reserved after =>
      Holds t (taken hands reserved .reserved) after ∧
        ∀ id ∈ reserved, (hands id).custody = none) world := by
  unfold reserveFree
  refine Protocol.wp_seq kept (stealFree_spec holds) fun stolen first keptFirst known => ?_
  obtain ⟨held, apart⟩ := known
  cases stolen with
  | none => exact ⟨held, fun _ member => by cases member⟩
  | some raw =>
    exact reserveTaken_spec keptFirst (apart raw rfl) (Protocol.Neutral.ret ())
      (fun now => pushFree_spec) held

/-- A reservation from the spare queue, or failing that the free queue. -/
theorem reserveSpare_spec (kept : pinDrain.inv world) (holds : Holds t hands world) :
    pinDrain.wp t reserveSpare (fun reserved after =>
      Holds t (taken hands reserved .reserved) after ∧
        ∀ id ∈ reserved, (hands id).custody = none) world := by
  unfold reserveSpare
  refine Protocol.wp_seq kept (stealSpare_spec holds) fun stolen first keptFirst known => ?_
  obtain ⟨held, apart⟩ := known
  cases stolen with
  | none => exact reserveFree_spec keptFirst held
  | some raw =>
    exact reserveTaken_spec keptFirst (apart raw rfl)
      (neutral_unseen (fun _ _ _ => rfl) fun _ _ => rfl) (fun now => pushSpare_spec) held

/-- Returning a segment that was never published. -/
theorem releaseUnused_spec (kept : pinDrain.inv world)
    (holds : Holds t (hands.put id (some .reserved)) world) :
    pinDrain.wp t (releaseUnused id) (fun _ => Holds t (hands.put id none)) world := by
  unfold releaseUnused
  refine Protocol.wp_seq kept (tryRelease_spec kept holds) fun released first keptFirst held => ?_
  refine (Protocol.wp_bind _ _ _ _).mpr (wp_assertThat fun second moved keptSecond won => ?_)
  subst won
  exact returnSegment_spec keptSecond (held.rely moved)

end Queues

/-! ### Draining -/

section Drain

variable {t : Tid} {world : World Shared (History Tid)} {id : SegId} {hands : Hands}

/-- A claim by the single-shot transition gives the claimant the segment. -/
theorem claim_spec {from_ : State} (removable : from_.isRemovable = true)
    (kept : pinDrain.inv world) (holds : Holds t hands world) :
    pinDrain.wp t (casMetadata id from_ .draining none none) (fun won =>
      Holds t (if won then hands.put id (some .draining) else hands)) world := by
  have served := not_withheld_of_removable removable
  refine wp_casMetadata _ holds kept (fun v word _ _ here state => ⟨?_, ?_, fun _ => .inr state⟩)
    fun v word _ known here state => known.moved state ?_ rfl
  · rw [here, served]
    intro withheld
    cases withheld
  · rw [here]
    rintro rfl
    cases removable
  · rw [here]
    rintro rfl
    cases removable

/-- A drainer's wait for the pins of a kind. -/
theorem awaitPins_spec {kind : PinKind} (waited : PinKind → Bool)
    (mine : (hands id).custody = some ⟨.draining, waited⟩) (holds : Holds t hands world) :
    pinDrain.wp t (awaitPins id kind) (fun _ =>
      Holds t (Function.update hands id ((hands id).await kind))) world := by
  refine wp_step ((hands id).await kind) holds (fun now => touches_awaited now t id kind)
    (fun now able ok known => ⟨ok.await (of_decide_eq_true able), ?_⟩) fun _ after _ held => held
  obtain ⟨owner, here, ended⟩ := known.custody _ mine
  have member : t ∈ (view now id).ledger.drainers := by
    rw [ok.drained, if_pos here, owner]
    exact List.mem_singleton_self t
  have ledger : ((view now id).awaited t kind).ledger = { (view now id).ledger with
      waited := Function.update (view now id).ledger.waited kind true } := if_pos member
  refine ⟨fun custody mine' => ?_, fun other => ?_, fun other inside => ?_⟩
  · have same : custody = ⟨.draining, Function.update waited kind true⟩ := by
      simpa [Hand.await, mine] using mine'.symm
    subst same
    rw [ledger]
    refine ⟨owner, here, fun other waitedFor => ?_⟩
    show Function.update (view now id).ledger.waited kind true other = true
    by_cases equal : other = kind
    · rw [equal, Function.update_self]
    · have before : Function.update waited kind true other = true := waitedFor
      rw [Function.update_of_ne equal] at before ⊢
      exact ended other before
  · rw [ledger]
    exact known.pins other
  · cases inside

/-- Waiting for the writers and removers of a claimed segment. -/
theorem await_spec {α : Type} (value : α) (kept : pinDrain.inv world)
    (holds : Holds t (hands.put id (some .draining)) world) :
    pinDrain.wp t ((awaitWriters id).bind fun _ => (awaitRemovers id).bind fun _ => .ret value)
      (fun _ => Holds t (hands.drain id)) world := by
  refine Protocol.wp_seq kept (awaitPins_spec _ (custody_put hands id _) holds)
    fun _ first keptFirst held => ?_
  refine Protocol.wp_seq keptFirst (awaitPins_spec (Function.update (fun _ => false) .writer true)
    ?_ held) fun _ second _ held => ?_
  · simp [Hand.await]
  · simpa [Hands.put, Hands.drain] using held

/-- Claiming a sealed segment: a drainer has it once its waits have ended. -/
theorem claimForDrain_spec (kept : pinDrain.inv world) (holds : Holds t hands world) :
    pinDrain.wp t (claimForDrain id) (fun won =>
      Holds t (if won then hands.drain id else hands)) world := by
  unfold claimForDrain
  refine Protocol.wp_seq kept (claim_spec rfl kept holds) fun won first keptFirst held => ?_
  cases won with
  | false => exact held
  | true => exact await_spec true keptFirst held

/-- The claim of the drain walk. -/
theorem claimMember_spec (kept : pinDrain.inv world) (holds : Holds t hands world) :
    pinDrain.wp t (claimMember id) (fun won =>
      Holds t (if won then hands.drain id else hands)) world := by
  unfold claimMember
  refine Protocol.wp_seq kept (claim_spec rfl kept holds) fun won first keptFirst held => ?_
  cases won with
  | true => exact await_spec true keptFirst held
  | false =>
    refine Protocol.wp_seq keptFirst (claim_spec rfl keptFirst held)
      fun won second keptSecond held => ?_
    cases won with
    | true => exact await_spec true keptSecond held
    | false => exact held

/-- Freeing a drained segment that no reader pins. -/
theorem recycle_spec (kept : pinDrain.inv world) (holds : Holds t (hands.drain id) world) :
    pinDrain.wp t (recycle id) (fun _ => Holds t (hands.put id none)) world := by
  unfold recycle
  refine neutral_unlink.andThen kept fun _ first moved keptFirst => ?_
  refine neutral_leavePool.andThen keptFirst fun _ second moved' keptSecond => ?_
  refine Protocol.wp_seq keptSecond (resetWriteStats_spec keptSecond (Hands.drain_closed hands id)
    ((holds.rely moved).rely moved')) fun _ third keptThird held => ?_
  refine Protocol.wp_seq keptThird (tryReleaseDrained_spec keptThird held)
    fun freed fourth keptFourth held => ?_
  refine (Protocol.wp_bind _ _ _ _).mpr (wp_assertThat fun fifth last keptFifth won => ?_)
  subst won
  exact returnSegment_spec keptFifth (held.rely last)

/-- Resetting the write statistics of a free segment in hand. -/
theorem resetFree_spec (kept : pinDrain.inv world)
    (holds : Holds t (hands.put id (some .free)) world) :
    pinDrain.wp t (resetWriteStats id) (fun _ => Holds t (hands.put id (some .free))) world := by
  refine resetWriteStats_spec kept ?_ holds
  rw [Hands.put_self]
  exact Hand.closed_put _ (by decide)

/-- Condemning a pinned segment leaves it to its readers, unless the recheck wins. -/
theorem condemn_spec (kept : pinDrain.inv world) (next prev : Option SegId)
    (holds : Holds t (hands.drain id) world) :
    pinDrain.wp t (condemn id next prev) (fun _ => Holds t (hands.put id none)) world := by
  unfold condemn
  refine neutral_leavePool.andThen kept fun _ first moved keptFirst => ?_
  refine Protocol.wp_seq keptFirst (casCondemn_spec keptFirst (holds.rely moved))
    fun condemned second keptSecond held => ?_
  refine (Protocol.wp_bind _ _ _ _).mpr (wp_assertThat fun third asserted keptThird won => ?_)
  subst won
  refine (neutral_onLink fun _ => neutral_updateLinks).andThen keptThird
    fun _ fourth splicedPrev keptFourth => ?_
  refine (neutral_onLink fun _ => neutral_updateLinks).andThen keptFourth
    fun _ fifth splicedNext keptFifth => ?_
  have gone : Holds t (hands.put id none) fifth :=
    ((held.rely asserted).rely splicedPrev).rely splicedNext
  refine (neutral_load fun _ _ _ => rfl).andThen keptFifth fun count sixth moved keptSixth => ?_
  refine Protocol.wp_ite (fun _ => ?_) fun _ => gone.rely moved
  refine Protocol.wp_seq keptSixth (tryReleaseCondemned_spec keptSixth (gone.rely moved))
    fun released seventh keptSeventh known => ?_
  cases released with
  | false => exact known.1
  | true =>
    have free : Holds t (hands.put id (some .free)) seventh := by
      simpa using known.1
    refine Protocol.wp_seq keptSeventh (resetFree_spec keptSeventh free) fun _ eighth kept held => ?_
    exact Protocol.wp_seq kept (returnSegment_spec kept held) fun _ _ _ last => last

/-- A drained segment is freed, or condemned to its readers. -/
theorem retire_spec (kept : pinDrain.inv world) (next prev : Option SegId)
    (holds : Holds t (hands.drain id) world) :
    pinDrain.wp t (retire id next prev) (fun _ => Holds t (hands.put id none)) world := by
  unfold retire
  refine (neutral_load fun _ _ _ => rfl).andThen kept fun count first moved keptFirst => ?_
  refine Protocol.wp_ite (fun _ => ?_) fun _ => condemn_spec keptFirst next prev (holds.rely moved)
  exact Protocol.wp_seq keptFirst (recycle_spec keptFirst (holds.rely moved)) fun _ _ _ last => last

end Drain

/-! ### Putting a segment into service -/

section Service

variable {t : Tid} {world : World Shared (History Tid)} {id : SegId} {hands : Hands}

theorem linkAndPublish_spec {next prev : Option SegId} {published : State}
    (visible : published = .live ∨ published = .relinking) (kept : pinDrain.inv world)
    (holds : Holds t (hands.put id (some .reserved)) world) :
    pinDrain.wp t (linkAndPublish id next prev published) (fun _ => Holds t (hands.put id none))
      world := by
  unfold linkAndPublish
  refine Protocol.wp_seq kept (owner_casMetadata kept (custody_put hands id _) (by decide)
    (fun draining => by cases draining) holds) fun won first keptFirst held => ?_
  refine (Protocol.wp_bind _ _ _ _).mpr (wp_assertThat fun second moved keptSecond linked => ?_)
  subst linked
  have linking : Holds t (hands.put id (some .linking)) second := by
    have after := held.rely moved
    simpa [Withheld] using after
  refine Protocol.wp_seq keptSecond (owner_casMetadata keptSecond (custody_put hands id _)
    (by rcases visible with rfl | rfl <;> decide) (fun draining => by cases draining) linking)
    fun won third keptThird held => ?_
  refine wp_assertThat fun fourth moved' _ live => ?_
  subst live
  have after := held.rely moved'
  rcases visible with rfl | rfl <;> simpa [Withheld] using after

/-- Sealing a full segment, or a copy destination that is filled. -/
theorem fill_spec {filled : State} {next : Option (Option SegId)}
    (open_ : filled = .live ∨ filled = .relinking) (kept : pinDrain.inv world)
    (holds : Holds t hands world) :
    pinDrain.wp t (fill id filled next) (fun _ => Holds t hands) world := by
  have served : Withheld filled = false := by
    rcases open_ with rfl | rfl <;> rfl
  refine Protocol.wp_mono kept (wp_casMetadata (hands id) holds kept
    (fun v word _ _ here state => ⟨?_, ?_, fun _ => .inl (state ▸ rfl)⟩)
    fun v word ok known here _ => ?_) fun won after _ held => ?_
  · rw [here, served]
    intro withheld
    cases withheld
  · rw [here]
    rintro rfl
    cases served
  · have nothing := known.served ok (here ▸ served)
    have away := known.away word
    rw [Hand.put_none nothing] at away
    exact away
  · cases won with
    | false => exact held
    | true => simpa using held

end Service

/-! ### Pins -/

section Pins

variable {t : Tid} {world : World Shared (History Tid)} {id : SegId} {hands : Hands}
  {kind : PinKind}

/-- A thread's part of every segment while it enters a pin of one. -/
def entering (hands : Hands) (id : SegId) (kind : PinKind) : SegId → Hand × Option PinKind :=
  Function.update (fun id => (hands id, none)) id (hands id, some kind)

theorem granted_countP (v : SegmentView Tid) (other : PinKind) :
    ((v.granting t kind).ledger.granted other).countP (·.holder = t) =
      Function.update (fun kind => (v.ledger.granted kind).countP (·.holder = t)) kind
        ((v.ledger.granted kind).countP (·.holder = t) + 1) other := by
  show (Function.update v.ledger.granted kind (⟨t, v.generation, v.ledger.bumps, v.ledger.resets⟩ ::
    v.ledger.granted kind) other).countP (·.holder = t) = _
  by_cases same : other = kind
  · subst same
    rw [Function.update_self, Function.update_self, List.countP_cons_of_pos (by simp)]
  · rw [Function.update_of_ne same, Function.update_of_ne same]

theorem released_countP (v : SegmentView Tid) (other : PinKind) :
    ((v.released t kind).ledger.granted other).countP (·.holder = t) =
      Function.update (fun kind => (v.ledger.granted kind).countP (·.holder = t)) kind
        ((v.ledger.granted kind).countP (·.holder = t) - 1) other := by
  show (Function.update v.ledger.granted kind ((v.ledger.granted kind).eraseP
    fun grant => grant.holder = t) other).countP (·.holder = t) = _
  by_cases same : other = kind
  · subst same
    rw [Function.update_self, Function.update_self]
    exact countP_eraseP_same _ _
  · rw [Function.update_of_ne same, Function.update_of_ne same]

theorem entering_self : entering hands id kind id = (hands id, some kind) := Function.update_self ..

/-- Leaving the entry of a pin with a hand. -/
theorem entering_update (hand : Hand) : Function.update (entering hands id kind) id (hand, none) =
    fun other => (Function.update hands id hand other, none) := by
  rw [← hands_update]
  exact Function.update_idem ..

theorem increment_spec (holds : Holds t hands world) :
    pinDrain.wp t (storeAs (.pinIncrement kind id) id fun header => kind.adjust (· + 1) header)
      (fun _ => segmentViews.Knows (Known t) (entering hands id kind)) world := by
  refine Views.wp_access (V := segmentViews) (hands id, some kind) (known_stable t) holds
    (fun now => touches_pinIncrement now t id kind) (fun now _ ok known => ⟨ok.increment, ?_⟩)
    fun _ _ _ knows => knows
  refine ⟨known.custody, known.pins, fun other inside => ?_⟩
  obtain rfl : kind = other := Option.some.inj inside
  show t ∈ Function.update (view now id).ledger.entering kind
    (t :: (view now id).ledger.entering kind) kind
  rw [Function.update_self]
  exact List.mem_cons_self ..

theorem backOut_spec (enters : segmentViews.Knows (Known t) (entering hands id kind) world) :
    pinDrain.wp t (storeAs (.pinBackOut kind id) id fun header => kind.adjust (· - 1) header)
      (fun _ => Holds t hands) world := by
  refine Views.wp_access (V := segmentViews) (hands id, none) (known_stable t) enters
    (fun now => touches_pinBackOut now t id kind) (fun now _ ok known => ?_)
    fun _ after _ knows => ?_
  · rw [entering_self] at known
    refine ⟨ok.backOut (known.entering kind rfl), known.custody, known.pins, fun _ inside => ?_⟩
    cases inside
  · rw [entering_update, Function.update_eq_self] at knows
    exact knows

/-- The re-check: on success the thread has one pin more. -/
theorem recheck_spec {rest : Metadata → Prog Bool}
    (enters : segmentViews.Knows (Known t) (entering hands id kind) world)
    {post : Bool → World Shared (History Tid) → Prop}
    (granted : ∀ word after, kind.admits word.state = true → pinDrain.inv after →
      Holds t (Function.update hands id ((hands id).gain kind)) after →
      pinDrain.wp t (rest word) post after)
    (refused : ∀ word after, kind.admits word.state = false → pinDrain.inv after →
      segmentViews.Knows (Known t) (entering hands id kind) after →
      pinDrain.wp t (rest word) post after) :
    pinDrain.wp t ((load (.pinRecheck kind id) id (·.metadata)).bind rest) post world := by
  refine (Protocol.wp_bind _ _ _ _).mpr (Protocol.wp_atomically fun now moved inv _ _ => ?_)
  have enters' : segmentViews.Knows (Known t) (entering hands id kind) now :=
    Views.Knows.rely (known_stable t) enters moved
  have known : Known t (hands id, some kind) (view now id) := entering_self ▸ enters' id
  by_cases admits : kind.admits (view now id).metadata.state = true
  · have touches := touches_granting now t id kind admits
    have member := known.entering kind rfl
    obtain ⟨keptAfter, guaranteed⟩ :=
      Views.Touches.kept (V := segmentViews) touches inv ((inv id).grant member admits)
    refine ⟨keptAfter, guaranteed, granted _ _ admits keptAfter ?_⟩
    have gained : Known t ((hands id).gain kind, none) ((view now id).granting t kind) := by
      refine ⟨known.custody, fun other => ?_, fun _ inside => by cases inside⟩
      rw [granted_countP]
      simp only [known.pins]
      rfl
    have knows := Views.Touches.knows (V := segmentViews) touches enters' gained
    rw [entering_update] at knows
    exact knows
  · rw [Bool.not_eq_true] at admits
    have stays := recheck_refused now t id kind admits
    have unchanged : ∀ other, view (now.after record t (.pinRecheck kind id) fun state => state)
        other = view now other := fun other => congrArg (view · other) stays
    obtain ⟨keptAfter, guaranteed⟩ :=
      Views.kept_of_same (V := segmentViews) (t := t) inv unchanged
    exact ⟨keptAfter, guaranteed, refused _ _ admits keptAfter (Views.Knows.rely (known_stable t)
      enters' (Views.rely_of_same (V := segmentViews) unchanged))⟩

/-- A pin attempt: on success the thread has one pin more. -/
theorem tryPin_spec (kept : pinDrain.inv world) (holds : Holds t hands world) :
    pinDrain.wp t (tryPin id kind) (fun pinned =>
      Holds t (if pinned then Function.update hands id ((hands id).gain kind) else hands))
      world := by
  unfold tryPin
  refine neutral_metadata.andThen kept fun word first moved keptFirst => ?_
  have held := holds.rely moved
  refine Protocol.wp_ite (fun _ => held) fun _ => ?_
  refine Protocol.wp_seq keptFirst (increment_spec held) fun _ second keptSecond enters => ?_
  refine recheck_spec enters (fun word third admits _ held => ?_)
    fun word third refuses keptThird enters => ?_
  · rw [admits]
    exact held
  · rw [refuses]
    exact Protocol.wp_seq keptThird (backOut_spec enters) fun _ _ _ held => held

/-- Releasing one of the pins held. -/
theorem releasePin_spec (some : 0 < (hands id).pins kind)
    (holds : Holds t hands world) :
    pinDrain.wp t (releasePin id kind) (fun _ =>
      Holds t (Function.update hands id ((hands id).drop kind))) world := by
  unfold releasePin
  refine (Protocol.wp_bind _ _ _ _).mpr (wp_step ((hands id).drop kind) holds
    (fun now => touches_pinRelease now t id kind) (fun now _ ok known => ⟨?_, ?_⟩)
    fun _ after keptAfter held => held.neutral keptAfter neutral_assertThat)
  · refine ok.release ?_
    rw [known.pins kind]
    exact some
  · refine ⟨known.custody, fun other => ?_, fun _ inside => by cases inside⟩
    rw [released_countP]
    simp only [known.pins]
    rfl

end Pins

/-! ### Readers -/

section Readers

variable {t : Tid} {world : World Shared (History Tid)} {id : SegId} {hands : Hands}

theorem refCount_aside (change : Nat → Nat) :
    Aside fun header => { header with refCount := change header.refCount } :=
  aside_of (fun _ => rfl) (fun _ => rfl) (fun _ => rfl) fun _ => rfl

/-- Dropping a guard; the last reader of a condemned segment returns it. -/
theorem dropGuard_spec (kept : pinDrain.inv world) (holds : Holds t hands world) :
    pinDrain.wp t (dropGuard id) (fun _ => Holds t hands) world := by
  unfold dropGuard releaseReaderForGuard
  refine (Protocol.wp_bind _ _ _ _).mpr ?_
  refine (neutral_fetch (fun _ _ _ => rfl) (refCount_aside (· - 1))).andThen kept
    fun prev first moved keptFirst => ?_
  refine neutral_assertThat.andThen keptFirst fun _ second moved' keptSecond => ?_
  have held := (holds.rely moved).rely moved'
  refine Protocol.wp_ite (fun _ => ?_) fun _ => held
  refine Protocol.wp_seq keptSecond (tryReleaseCondemned_spec keptSecond held)
    fun released third keptThird known => ?_
  obtain ⟨held, apart⟩ := known
  cases released with
  | false => exact held
  | true =>
    refine Protocol.wp_seq keptThird (resetFree_spec keptThird held) fun _ fourth kept held => ?_
    refine Protocol.wp_mono kept (pushFreed_spec kept held) fun _ _ _ held => ?_
    rw [Hands.put_none (apart rfl)] at held
    exact held

/-- A reader's acquire: a backout may leave the thread a condemned segment it has freed. -/
theorem tryAcquireReader_spec (kept : pinDrain.inv world) (holds : Holds t hands world) :
    pinDrain.wp t (tryAcquireReader id) (fun outcome after =>
      Holds t (if outcome = .releaseCondemned then hands.put id (some .free) else hands) after ∧
        (outcome = .releaseCondemned → (hands id).custody = none)) world := by
  unfold tryAcquireReader
  refine neutral_metadata.andThen kept fun word first moved keptFirst => ?_
  have held := holds.rely moved
  refine Protocol.wp_ite (fun _ => ⟨held, fun impossible => by cases impossible⟩) fun _ => ?_
  refine (neutral_fetch (fun _ _ _ => rfl) (refCount_aside (· + 1))).andThen keptFirst
    fun _ second moved keptSecond => ?_
  refine (neutral_load fun _ _ _ => rfl).andThen keptSecond fun _ third moved' keptThird => ?_
  have held := (held.rely moved).rely moved'
  refine Protocol.wp_ite (fun _ => ?_) fun _ => ⟨held, fun impossible => by cases impossible⟩
  unfold releaseReaderForGuard
  refine (Protocol.wp_bind _ _ _ _).mpr ?_
  refine (neutral_fetch (fun _ _ _ => rfl) (refCount_aside (· - 1))).andThen keptThird
    fun prev fourth moved keptFourth => ?_
  refine neutral_assertThat.andThen keptFourth fun _ fifth moved' keptFifth => ?_
  have held := (held.rely moved).rely moved'
  refine Protocol.wp_ite (fun _ => ?_) fun _ => ⟨held, fun impossible => by cases impossible⟩
  refine Protocol.wp_seq keptFifth (tryReleaseCondemned_spec keptFifth held)
    fun released sixth _ known => ?_
  cases released with
  | true => exact ⟨known.1, fun _ => known.2 rfl⟩
  | false => exact ⟨known.1, fun impossible => by cases impossible⟩

/-- Pinning an item's segment for reading leaves the writers' and removers' pins alone. -/
theorem acquireItemAt_spec (kept : pinDrain.inv world) (holds : Holds t hands world) (tag : Nat) :
    pinDrain.wp t (acquireItemAt id tag) (fun _ => Holds t hands) world := by
  unfold acquireItemAt
  refine Protocol.wp_seq kept (tryAcquireReader_spec kept holds)
    fun outcome first keptFirst known => ?_
  obtain ⟨held, apart⟩ := known
  cases outcome with
  | acquired =>
    refine (neutral_load fun _ _ _ => rfl).andThen keptFirst fun _ second moved keptSecond => ?_
    refine Protocol.wp_ite (fun _ => ?_) fun _ => Holds.rely held moved
    exact Protocol.wp_seq keptSecond (dropGuard_spec keptSecond (Holds.rely held moved))
      fun _ _ _ last => last
  | notReadable => exact held
  | releaseCondemned =>
    refine Protocol.wp_seq keptFirst (resetFree_spec keptFirst held) fun _ second kept held => ?_
    refine Protocol.wp_seq kept (returnSegment_spec kept held) fun _ _ _ held => ?_
    rw [Hands.put_none (apart rfl)] at held
    exact held

end Readers

end CacheRs.Segments.Drains
