/-
**What each operation does to what a thread holds.**

A thread's knowledge is the guards it holds (`Holds`) and the segment it has to itself (`Owns`, or
`Freed` while the generation bump is pending). One specification per operation of the segments:

* `tryReserve_spec`, `tryRelease_spec`, `tryReleaseDrained_spec`, `tryReleaseCondemned_spec`,
  `casCondemn_spec`: the transitions of the header;
* `returnSegment_spec`, `reserveFree_spec`, `reserveSpare_spec`, `releaseUnused_spec`: the queues;
* `retire_spec`, `clearSegment_spec`: the drain;
* `acquireItemAt_spec`, `dropGuard_spec`: the readers.
-/

import CacheRs.Segments.ReaderPin

set_option linter.unusedSectionVars false

namespace CacheRs.Segments

open Concurrency

variable {Tid : Type} [DecidableEq Tid]

/-! ### What a thread knows -/

section Local

variable {t : Tid} {world after now : World Shared (History Tid)} {id : SegId} {held : List SegId}

/-- The guards thread `t` holds are its pins. -/
def Holds (t : Tid) (held : List SegId) (world : World Shared (History Tid)) : Prop :=
  ∀ id, (world.history id).pins.countP (·.reader = t) = held.count id

/-- Thread `t` has the segment to itself, in a given state, its generation settled. -/
def Owns (t : Tid) (id : SegId) (state : State) (world : World Shared (History Tid)) : Prop :=
  (world.history id).owner = some t ∧ (world.shared.header id).metadata.state = state ∧
    (world.history id).bumping = false

theorem Holds.rely (holds : Holds t held world) (moved : readerPin.rely t world after) :
    Holds t held after := fun id => (moved id).held.trans (holds id)

theorem Owns.rely {state : State} (owns : Owns t id state world)
    (moved : readerPin.rely t world after) : Owns t id state after := by
  obtain ⟨mine, here, settled⟩ := owns
  obtain ⟨still, same, bumping, -⟩ := (moved id).owned mine
  exact ⟨still, same.trans here, bumping.trans settled⟩

/-- The segment was freed after use by thread `t`, its generation not yet advanced. -/
def Freed (t : Tid) (id : SegId) (world : World Shared (History Tid)) : Prop :=
  (world.history id).owner = some t ∧ (world.shared.header id).metadata.state = .free ∧
    (world.history id).bumping = true

theorem Freed.rely (freed : Freed t id world) (moved : readerPin.rely t world after) :
    Freed t id after := by
  obtain ⟨mine, here, pending⟩ := freed
  obtain ⟨still, same, bumping, -⟩ := (moved id).owned mine
  exact ⟨still, same.trans here, bumping.trans pending⟩

/-- A step that leaves the pins alone leaves every thread its guards. -/
theorem Touches.holds {changed : SegmentView Tid} (touches : Touches now after id changed)
    (pins : changed.ledger.pins = (view now id).ledger.pins) (holds : Holds t held now) :
    Holds t held after := by
  intro other
  by_cases same : other = id
  · subst same
    show (view after other).ledger.pins.countP _ = _
    rw [touches.1, pins]
    exact holds other
  · show (view after other).ledger.pins.countP _ = _
    rw [touches.2 other same]
    exact holds other

theorem moved_pins (v : SegmentView Tid) (new : Metadata) :
    (v.moved t new).ledger.pins = v.ledger.pins := by
  unfold SegmentView.moved Ledger.moved
  split
  · rfl
  · split <;> rfl

/-- A move into a private state makes the segment its maker's. -/
theorem Touches.owns {new : Metadata} {state : State}
    (touches : Touches now after id ((view now id).moved t new)) (holds : readerPin.inv after)
    (reached : new.state = state) (changed : (view now id).metadata.state ≠ state)
    (secret : state.Private) : Owns t id state after := by
  have here : (view after id).metadata.state = state := by
    rw [touches.1]
    exact reached
  have used : (view after id).metadata.state ≠ .free := by
    rw [here]
    rcases secret with rfl | rfl | rfl <;> simp
  refine ⟨?_, here, (holds id).settled used⟩
  show (view after id).ledger.owner = some t
  rw [touches.1]
  unfold SegmentView.moved Ledger.moved
  rw [if_neg (reached ▸ changed), reached]
  rcases secret with rfl | rfl | rfl <;> rfl

/-- A move to `Free` makes the segment its maker's, the generation bump pending after use. -/
theorem Touches.freed {new : Metadata}
    (touches : Touches now after id ((view now id).moved t new)) (reached : new.state = .free)
    (used : (view now id).metadata.state = .draining ∨
      (view now id).metadata.state = .awaitingRelease) : Freed t id after := by
  have ledger := congrArg (·.ledger) touches.1
  have here : (view after id).metadata.state = .free := by
    rw [touches.1]
    exact reached
  have differs : (view now id).metadata.state ≠ new.state := by
    rcases used with now | now <;> simp [now, reached]
  refine ⟨?_, here, ?_⟩
  · show (view after id).ledger.owner = some t
    rw [ledger]
    simp [SegmentView.moved, Ledger.moved, reached, reached ▸ differs]
  · show (view after id).ledger.bumping = true
    rw [ledger]
    rcases used with now | now <;> simp [SegmentView.moved, Ledger.moved, reached, now]

/-- A move to `Free` from an unused segment leaves it its maker's, with nothing pending. -/
theorem Touches.returned {new : Metadata}
    (touches : Touches now after id ((view now id).moved t new)) (reached : new.state = .free)
    (unused : (view now id).metadata.state = .reserved ∨
      (view now id).metadata.state = .linking) : Owns t id .free after := by
  have ledger := congrArg (·.ledger) touches.1
  have here : (view after id).metadata.state = .free := by
    rw [touches.1]
    exact reached
  refine ⟨?_, here, ?_⟩
  · show (view after id).ledger.owner = some t
    rw [ledger]
    rcases unused with now | now <;> simp [SegmentView.moved, Ledger.moved, reached, now]
  · show (view after id).ledger.bumping = false
    rw [ledger]
    rcases unused with now | now <;> simp [SegmentView.moved, Ledger.moved, reached, now]

end Local

section Transitions

variable {t : Tid} {world : World Shared (History Tid)} {id : SegId} {held : List SegId}

/-- The single-shot transition: winning it must be one of the moves. -/
theorem wp_casMetadata {expected new : State} {newNext newPrev : Option (Option SegId)}
    {post : Bool → World Shared (History Tid) → Prop}
    (move : ∀ now word, readerPin.rely t world now → readerPin.inv now →
      (view now id).metadata.state = expected → word.state = new →
      SegmentView.Move t (view now id) word)
    (won : ∀ now after word, readerPin.rely t world now → readerPin.inv now →
      readerPin.inv after → (view now id).metadata.state = expected → word.state = new →
      Touches now after id ((view now id).moved t word) → post true after)
    (lost : ∀ after, readerPin.rely t world after → readerPin.inv after → post false after) :
    readerPin.wp t (casMetadata id expected new newNext newPrev) post world := by
  unfold casMetadata
  refine (Protocol.wp_bind _ _ _ _).mpr (wp_load fun middle moved holds => ?_)
  refine Protocol.wp_ite (fun _ => lost middle moved holds) fun same => ?_
  have state : (view middle id).metadata.state = expected := Decidable.not_not.mp same
  refine (Protocol.wp_bind _ _ _ _).mpr (wp_exchange ?_ ?_ ?_)
  · intro now later held found
    have here : (view now id).metadata.state = expected := by rw [found]; exact state
    exact move now _ (readerPin.rely_trans t _ _ _ moved later) held here rfl
  · intro now after later held kept found touches
    have here : (view now id).metadata.state = expected := by rw [found]; exact state
    exact won now after _ (readerPin.rely_trans t _ _ _ moved later) held kept here rfl touches
  · intro observed now later held
    exact lost now (readerPin.rely_trans t _ _ _ moved later) held

theorem wp_bumpGeneration {post : Unit → World Shared (History Tid) → Prop}
    (freed : Freed t id world) (holds : Holds t held world)
    (next : ∀ after, readerPin.inv after → Owns t id .free after → Holds t held after →
      post () after) :
    readerPin.wp t (bumpGeneration id) post world := by
  refine Protocol.wp_atomically fun now moved kept _ _ => ?_
  have touches : Touches now _ id _ := touches_bumpGeneration now t id
  obtain ⟨mine, here, pending⟩ := freed.rely moved
  obtain ⟨keptAfter, guaranteed⟩ := touches.kept kept ((kept id).bump mine pending)
  refine ⟨keptAfter, guaranteed, next _ keptAfter ⟨?_, ?_, ?_⟩ ?_⟩
  · exact (congrArg (·.ledger.owner) touches.1).trans mine
  · exact (congrArg (·.metadata.state) touches.1).trans here
  · exact congrArg (·.ledger.bumping) touches.1
  · exact touches.holds rfl (holds.rely moved)

/-- Reserving a segment taken from a queue. -/
theorem tryReserve_spec (mine : Owns t id .free world)
    (holds : Holds t held world) :
    readerPin.wp t (tryReserve id) (fun reserved after => Holds t held after ∧
      Owns t id (if reserved then .reserved else .free) after) world := by
  unfold tryReserve
  refine (Protocol.wp_bind _ _ _ _).mpr (wp_casMetadata ?_ ?_ ?_)
  · intro now word moved _ free state
    exact .reserve (mine.rely moved).1 (mine.rely moved).2.2 free state
  · intro now after word moved _ keptAfter free state touches
    have reserved : Owns t id .reserved after :=
      touches.owns keptAfter state (by simp [free]) (.inl rfl)
    have held : Holds t held after := touches.holds (moved_pins _ _) (holds.rely moved)
    refine neutral_resetWriteStats.andThen keptAfter fun _ first moved kept => ?_
    refine neutral_markCreated.andThen kept fun _ second moved' kept => ?_
    refine neutral_markMerged.andThen kept fun _ third moved'' _ => ?_
    exact ⟨((held.rely moved).rely moved').rely moved'',
      ((reserved.rely moved).rely moved').rely moved''⟩
  · intro after moved _
    exact ⟨holds.rely moved, mine.rely moved⟩

/-- Giving a reserved or linking segment back. -/
theorem tryRelease_spec (mine : Owns t id .reserved world ∨ Owns t id .linking world)
    (holds : Holds t held world) :
    readerPin.wp t (tryRelease id) (fun released after => Holds t held after ∧
      (released = true → Owns t id .free after)) world := by
  have owner : ∀ now, readerPin.rely t world now → (view now id).ledger.owner = some t :=
    fun now moved => by
      rcases mine with mine | mine
      · exact (mine.rely moved).1
      · exact (mine.rely moved).1
  unfold tryRelease
  refine (Protocol.wp_bind _ _ _ _).mpr (wp_casMetadata ?_ ?_ ?_)
  · exact fun now word moved _ here state => .giveBack (owner now moved) (.inl here) state
  · intro now after word moved _ _ here state touches
    exact ⟨touches.holds (moved_pins _ _) (holds.rely moved),
      fun _ => touches.returned state (.inl here)⟩
  · intro middle moved _
    refine wp_casMetadata ?_ ?_ ?_
    · exact fun now word later _ here state =>
        .giveBack (owner now (readerPin.rely_trans t _ _ _ moved later)) (.inr here) state
    · intro now after word later _ _ here state touches
      exact ⟨touches.holds (moved_pins _ _)
        (holds.rely (readerPin.rely_trans t _ _ _ moved later)),
        fun _ => touches.returned state (.inr here)⟩
    · exact fun after later _ =>
        ⟨holds.rely (readerPin.rely_trans t _ _ _ moved later), fun won => by cases won⟩

/-- Freeing a drained segment whose readers are gone. -/
theorem tryReleaseDrained_spec (mine : Owns t id .draining world)
    (unpinned : (world.history id).pins = []) (holds : Holds t held world) :
    readerPin.wp t (tryReleaseDrained id) (fun released after => Holds t held after ∧
      (released = true → Owns t id .free after)) world := by
  unfold tryReleaseDrained
  refine (Protocol.wp_bind _ _ _ _).mpr (wp_casMetadata ?_ ?_ ?_)
  · intro now word moved _ here state
    exact .release (mine.rely moved).1 here ((moved id).drained mine.1 mine.2.1 unpinned) state
  · intro now after word moved _ _ here state touches
    refine (Protocol.wp_bind _ _ _ _).mpr (wp_bumpGeneration (touches.freed state (.inl here))
      (touches.holds (moved_pins _ _) (holds.rely moved)) ?_)
    exact fun last _ free held => ⟨held, fun _ => free⟩
  · exact fun after moved _ => ⟨holds.rely moved, fun won => by cases won⟩

/-- What a claimant knows after loading a condemned word: the segment is unpinned for as long as
that incarnation lasts. -/
structure Claims (t : Tid) (id : SegId) (loaded : Metadata) (world : World Shared (History Tid)) :
    Prop where
  tag : loaded.tag = (world.history id).loadedAt t % 2 ^ 8
  loaded : (world.history id).loadedAt t ≤ (world.history id).ended
  unpinned : (world.history id).ended = (world.history id).loadedAt t →
    (world.shared.header id).metadata.state = .awaitingRelease ∧ (world.history id).pins = []

theorem Claims.rely {loaded : Metadata} {after : World Shared (History Tid)}
    (claims : Claims t id loaded world) (moved : readerPin.rely t world after) :
    Claims t id loaded after := by
  have same : (after.history id).loadedAt t = (world.history id).loadedAt t := (moved id).loaded
  have later : (world.history id).ended ≤ (after.history id).ended := (moved id).ended
  refine ⟨same ▸ claims.tag, same ▸ Nat.le_trans claims.loaded later, fun still => ?_⟩
  rw [same] at still
  have unchanged : (world.history id).ended = (world.history id).loadedAt t :=
    Nat.le_antisymm (still ▸ later) claims.loaded
  obtain ⟨waiting, none⟩ := claims.unpinned unchanged
  exact (moved id).condemned (still.trans unchanged.symm) waiting none

/-- A claimant that wins frees an unpinned segment: the tag it loaded is that of the incarnation it
frees. -/
theorem tryReleaseCondemned_spec (holds : Holds t held world) :
    readerPin.wp t (tryReleaseCondemned id) (fun released after => Holds t held after ∧
      (released = true → Owns t id .free after)) world := by
  unfold tryReleaseCondemned
  refine (Protocol.wp_bind _ _ _ _).mpr (Protocol.wp_atomically fun now moved kept allowed _ => ?_)
  have touches : Touches now _ id _ := touches_claimantLoad now t id
  obtain ⟨keptAfter, guaranteed⟩ := touches.kept kept (kept id).claimantLoad
  refine ⟨keptAfter, guaranteed, ?_⟩
  have held' : Holds t held (now.after record t (.claimantLoad id) fun state => state) :=
    touches.holds rfl (holds.rely moved)
  refine Protocol.wp_ite (fun _ => ⟨held', fun won => by cases won⟩) fun same => ?_
  have waiting : (now.shared.header id).metadata.state = .awaitingRelease :=
    Decidable.not_not.mp same
  have claims : Claims t id (now.shared.header id).metadata
      (now.after record t (.claimantLoad id) fun state => state) := by
    have loaded : ((now.after record t (.claimantLoad id) fun state => state).history id).loadedAt t =
        (now.history id).ended := by
      simp [World.after, record]
    refine ⟨?_, Nat.le_of_eq ?_, fun _ => ⟨waiting, ?_⟩⟩
    · rw [loaded]
      exact (kept id).stamped waiting
    · rw [loaded]
      exact (congrArg (·.ledger.ended) touches.1).symm
    · exact (congrArg (·.ledger.pins) touches.1).trans (allowed waiting)
  refine (Protocol.wp_bind _ _ _ _).mpr
    (Protocol.wp_atomically fun next later keptNext allowed' _ => ?_)
  obtain ⟨tag, before, unpinned⟩ := claims.rely later
  by_cases found : (view next id).metadata = (now.shared.header id).metadata
  · have touches' : Touches next _ id _ := touches_claimantExchange next t id found
    have waitingNext : (view next id).metadata.state = .awaitingRelease := found ▸ waiting
    have sameIncarnation : (next.history id).ended = (next.history id).loadedAt t := by
      have stamped : (view next id).metadata.tag = (next.history id).ended % 2 ^ 8 :=
        (keptNext id).stamped waitingNext
      rw [found, tag] at stamped
      have near : (next.history id).ended < (next.history id).loadedAt t + 2 ^ 8 := allowed'
      omega
    have move : SegmentView.Move t (view next id) .newFree :=
      .freeCondemned waitingNext (unpinned sameIncarnation).2 rfl
    obtain ⟨keptLast, guaranteed'⟩ := touches'.kept keptNext ((keptNext id).exchange move)
    refine ⟨keptLast, guaranteed', ?_⟩
    have won : (if (next.shared.header id).metadata = (now.shared.header id).metadata then none
        else some (next.shared.header id).metadata) = none := if_pos found
    simp only [won, Option.isSome_none, Bool.false_eq_true, if_false]
    refine (Protocol.wp_bind _ _ _ _).mpr (wp_bumpGeneration (touches'.freed rfl (.inr waitingNext))
      (touches'.holds (moved_pins _ _) (held'.rely later)) ?_)
    exact fun last _ free held => ⟨held, fun _ => free⟩
  · have stays := claimantExchange_lost next t id found
    obtain ⟨keptLast, guaranteed'⟩ :=
      kept_of_same (t := t) keptNext fun other => congrArg (view · other) stays
    refine ⟨keptLast, guaranteed', ?_⟩
    have lost : (if (next.shared.header id).metadata = (now.shared.header id).metadata then none
        else some (next.shared.header id).metadata) = some (next.shared.header id).metadata :=
      if_neg found
    simp only [lost, Option.isSome_some, if_true]
    show Holds t held (next.after record t _ _) ∧ _
    rw [stays]
    exact ⟨held'.rely later, fun won => by cases won⟩

/-- Condemning stamps the incarnation's tag. -/
theorem casCondemn_spec (mine : Owns t id .draining world) (holds : Holds t held world) :
    readerPin.wp t (casCondemn id) (fun _ => Holds t held) world := by
  unfold casCondemn
  refine (Protocol.wp_bind _ _ _ _).mpr (wp_load fun first moved _ => ?_)
  refine Protocol.wp_ite (fun _ => holds.rely moved) fun same => ?_
  have here : (first.shared.header id).metadata.state = .draining := Decidable.not_not.mp same
  refine (Protocol.wp_bind _ _ _ _).mpr (wp_load fun second moved' kept => ?_)
  have later := readerPin.rely_trans t _ _ _ moved moved'
  obtain ⟨owner, state, settled⟩ := mine.rely later
  have generation : (second.shared.header id).generation = (second.history id).ended % 2 ^ 16 :=
    (kept id).generation settled
  refine (Protocol.wp_bind _ _ _ _).mpr (wp_exchange ?_ ?_ ?_)
  · intro now moved'' _ found
    have ended : (now.history id).ended = (second.history id).ended :=
      ((moved'' id).owned owner).2.2.2
    refine .condemn ((moved'' id).owned owner).1 (by rw [found]; exact here) rfl ?_
    show (second.shared.header id).generation % 2 ^ 8 = (now.history id).ended % 2 ^ 8
    rw [generation, ended]
    omega
  · intro now after moved'' _ _ _ touches
    exact touches.holds (moved_pins _ _) (holds.rely (readerPin.rely_trans t _ _ _ later moved''))
  · exact fun _ now moved'' _ => holds.rely (readerPin.rely_trans t _ _ _ later moved'')

end Transitions

/-! ### The queues -/

section Queues

variable {t : Tid} {world : World Shared (History Tid)} {id : SegId} {held : List SegId}

theorem pushFree_spec (mine : Owns t id .free world) (holds : Holds t held world) :
    readerPin.wp t (pushFree id) (fun _ => Holds t held) world := by
  refine Protocol.wp_atomically fun now moved kept _ _ => ?_
  have touches : Touches now _ id _ := touches_pushFree now t id
  obtain ⟨owner, free, settled⟩ := mine.rely moved
  obtain ⟨keptAfter, guaranteed⟩ := touches.kept kept ((kept id).push owner free settled)
  exact ⟨keptAfter, guaranteed, touches.holds rfl (holds.rely moved)⟩

theorem pushSpare_spec (mine : Owns t id .free world) (holds : Holds t held world) :
    readerPin.wp t (pushSpare id) (fun _ => Holds t held) world := by
  refine Protocol.wp_atomically fun now moved kept _ _ => ?_
  have touches : Touches now _ id _ := touches_pushSpare now t id
  obtain ⟨owner, free, settled⟩ := mine.rely moved
  obtain ⟨keptAfter, guaranteed⟩ := touches.kept kept ((kept id).push owner free settled)
  exact ⟨keptAfter, guaranteed, touches.holds rfl (holds.rely moved)⟩

theorem pushFreed_spec (kept : readerPin.inv world) (mine : Owns t id .free world)
    (holds : Holds t held world) :
    readerPin.wp t (pushFreed id) (fun _ => Holds t held) world := by
  refine Protocol.wp_seq kept (pushFree_spec mine holds) fun _ after keptAfter held' => ?_
  exact (neutral_quiet (fun _ _ => rfl) fun _ _ => rfl).wp keptAfter fun _ last moved _ => held'.rely moved

/-- A stolen id is the thief's. -/
theorem steal_spec {label : Label} {queue : Shared → List SegId} {pop : Shared → Shared}
    (empty : ∀ now : World Shared (History Tid), queue now.shared = [] →
      ∀ other, view (now.after record t label pop) other = view now other)
    (taken : ∀ (now : World Shared (History Tid)) (id : SegId) (rest : List SegId),
      queue now.shared = id :: rest → (view now id).queued ≠ 0 ∧
        Touches now (now.after record t label pop) id ((view now id).stolen t))
    (holds : Holds t held world) :
    readerPin.wp t (Program.atomically label fun state => ((queue state).head?, pop state))
      (fun stolen after => Holds t held after ∧ ∀ id ∈ stolen, Owns t id .free after) world := by
  refine Protocol.wp_atomically fun now moved kept _ _ => ?_
  cases found : queue now.shared with
  | nil =>
    obtain ⟨keptAfter, guaranteed⟩ := kept_of_same (t := t) kept (empty now found)
    refine ⟨keptAfter, guaranteed, fun other => ?_, by simp [found]⟩
    show (view (now.after record t label pop) other).ledger.pins.countP _ = _
    rw [empty now found other]
    exact holds.rely moved other
  | cons id rest =>
    obtain ⟨inside, touches⟩ := taken now id rest found
    obtain ⟨-, free, nobody⟩ := (kept id).inQueue.resolve_left inside
    obtain ⟨keptAfter, guaranteed⟩ := touches.kept kept ((kept id).steal inside)
    refine ⟨keptAfter, guaranteed, touches.holds rfl (holds.rely moved), fun stolen same => ?_⟩
    obtain rfl : id = stolen := by simpa [found] using same
    refine ⟨congrArg (·.ledger.owner) touches.1, (congrArg (·.metadata.state) touches.1).trans free,
      (congrArg (·.ledger.bumping) touches.1).trans ?_⟩
    by_contra unsettled
    exact ((kept id).bumping (Bool.not_eq_false _ ▸ unsettled)).2.1 nobody

theorem stealFree_spec (holds : Holds t held world) :
    readerPin.wp t stealFree (fun stolen after => Holds t held after ∧
      ∀ id ∈ stolen, Owns t id .free after) world :=
  steal_spec (fun _ found other => by simp [view, World.after, record, found])
    (fun now id _ found => ⟨by simp [view, found], touches_stealFree now t id found⟩) holds

theorem stealSpare_spec (holds : Holds t held world) :
    readerPin.wp t stealSpare (fun stolen after => Holds t held after ∧
      ∀ id ∈ stolen, Owns t id .free after) world :=
  steal_spec (fun _ found other => by simp [view, World.after, record, found])
    (fun now id _ found => ⟨by simp [view, found], touches_stealSpare now t id found⟩) holds

/-- Returning a segment gives it to one of the queues. -/
theorem returnSegment_spec (kept : readerPin.inv world) (mine : Owns t id .free world)
    (holds : Holds t held world) :
    readerPin.wp t (returnSegment id) (fun _ => Holds t held) world := by
  unfold returnSegment
  refine (neutral_quiet (fun _ _ => rfl) fun _ _ => rfl).andThen kept fun read first moved keptFirst => ?_
  refine Protocol.wp_repeatUntil (fun _ now => Owns t id .free now ∧ Holds t held now)
    (fun _ now after known moved _ => ⟨known.1.rely moved, known.2.rely moved⟩)
    ⟨mine.rely moved, holds.rely moved⟩ fun count now keptNow known => ?_
  refine Protocol.wp_ite (fun _ => ?_) fun _ => ?_
  · exact Protocol.wp_seq keptNow (pushFreed_spec keptNow known.1 known.2) fun _ _ _ held' => held'
  · refine (neutral_quiet (fun _ _ => rfl) fun later other => ?_).andThen keptNow fun observed later moved keptLater => ?_
    · by_cases same : later.shared.spareCount = count <;> simp [view, same]
    · cases observed with
      | some observed => exact ⟨known.1.rely moved, known.2.rely moved⟩
      | none =>
        exact Protocol.wp_seq keptLater (pushSpare_spec (known.1.rely moved) (known.2.rely moved))
          fun _ _ _ held' => held'

/-- A reservation from the free queue. -/
theorem reserveFree_spec (kept : readerPin.inv world) (holds : Holds t held world) :
    readerPin.wp t reserveFree (fun reserved after => Holds t held after ∧
      ∀ id ∈ reserved, Owns t id .reserved after) world := by
  unfold reserveFree
  refine Protocol.wp_seq kept (stealFree_spec holds) fun stolen first keptFirst known => ?_
  obtain ⟨held', taken⟩ := known
  cases stolen with
  | none => exact ⟨held', fun _ member => by cases member⟩
  | some raw =>
    refine Protocol.wp_seq keptFirst (tryReserve_spec (taken raw rfl) held')
      fun reserved second keptSecond known => ?_
    cases reserved with
    | true => exact ⟨known.1, fun id same => Option.some.inj same ▸ known.2⟩
    | false =>
      exact Protocol.wp_seq keptSecond (pushFree_spec known.2 known.1) fun _ _ _ last =>
        ⟨last, fun _ member => by cases member⟩

/-- A reservation from the spare queue, or failing that the free queue. -/
theorem reserveSpare_spec (kept : readerPin.inv world) (holds : Holds t held world) :
    readerPin.wp t reserveSpare (fun reserved after => Holds t held after ∧
      ∀ id ∈ reserved, Owns t id .reserved after) world := by
  unfold reserveSpare
  refine Protocol.wp_seq kept (stealSpare_spec holds) fun stolen first keptFirst known => ?_
  obtain ⟨held', taken⟩ := known
  cases stolen with
  | none => exact reserveFree_spec keptFirst held'
  | some raw =>
    refine Protocol.wp_seq keptFirst (tryReserve_spec (taken raw rfl) held')
      fun reserved second keptSecond known => ?_
    cases reserved with
    | true =>
      refine (neutral_quiet (fun _ _ => rfl) fun _ _ => rfl).andThen keptSecond fun _ third moved _ => ?_
      exact ⟨known.1.rely moved, fun id same => Option.some.inj same ▸ known.2.rely moved⟩
    | false =>
      exact Protocol.wp_seq keptSecond (pushSpare_spec known.2 known.1)
        fun _ _ _ last =>
        ⟨last, fun _ member => by cases member⟩

/-- Returning a segment that was never published. -/
theorem releaseUnused_spec (kept : readerPin.inv world)
    (mine : Owns t id .reserved world ∨ Owns t id .linking world) (holds : Holds t held world) :
    readerPin.wp t (releaseUnused id) (fun _ => Holds t held) world := by
  unfold releaseUnused
  refine Protocol.wp_seq kept (tryRelease_spec mine holds) fun released first keptFirst known => ?_
  refine (Protocol.wp_bind _ _ _ _).mpr (wp_assertThat fun second moved keptSecond won => ?_)
  exact returnSegment_spec keptSecond ((known.2 won).rely moved) (known.1.rely moved)

end Queues

/-! ### Draining -/

section Drain

variable {t : Tid} {world : World Shared (History Tid)} {id : SegId} {held : List SegId}

/-- A claim by the single-shot transition makes the segment the claimant's. -/
theorem claim_spec {from_ : State} (removable : from_ = .sealed ∨ from_ = .live)
    (holds : Holds t held world) :
    readerPin.wp t (casMetadata id from_ .draining none none) (fun won after => Holds t held after ∧
      (won = true → Owns t id .draining after)) world := by
  refine wp_casMetadata ?_ ?_ ?_
  · intro now word _ _ here state
    exact .claim (removable.imp here.trans here.trans) state
  · intro now after word moved _ keptAfter here state touches
    refine ⟨touches.holds (moved_pins _ _) (holds.rely moved), fun _ => ?_⟩
    exact touches.owns keptAfter state (by rcases removable with rfl | rfl <;> simp [here])
      (.inr (.inr rfl))
  · exact fun after moved _ => ⟨holds.rely moved, fun won => by cases won⟩

theorem neutral_awaitWriters : readerPin.Neutral t (awaitWriters id) :=
  neutral_quiet (fun _ _ => rfl) fun _ _ => rfl

theorem neutral_awaitRemovers : readerPin.Neutral t (awaitRemovers id) :=
  neutral_quiet (fun _ _ => rfl) fun _ _ => rfl

/-- Waiting for the writers and removers of a claimed segment. -/
theorem await_spec {α : Type} (value : α) (kept : readerPin.inv world)
    (mine : Owns t id .draining world) (holds : Holds t held world) :
    readerPin.wp t ((awaitWriters id).bind fun _ => (awaitRemovers id).bind fun _ => .ret value)
      (fun result after => result = value ∧ Holds t held after ∧ Owns t id .draining after)
      world := by
  refine neutral_awaitWriters.andThen kept fun _ first moved keptFirst => ?_
  refine neutral_awaitRemovers.andThen keptFirst fun _ second moved' _ => ?_
  exact ⟨rfl, (holds.rely moved).rely moved', (mine.rely moved).rely moved'⟩

theorem claimForDrain_spec (kept : readerPin.inv world) (holds : Holds t held world) :
    readerPin.wp t (claimForDrain id) (fun won after => Holds t held after ∧
      (won = true → Owns t id .draining after)) world := by
  unfold claimForDrain
  refine Protocol.wp_seq kept (claim_spec (.inl rfl) holds) fun won first keptFirst known => ?_
  cases won with
  | false => exact ⟨known.1, fun won => by cases won⟩
  | true =>
    refine Protocol.wp_mono keptFirst (await_spec true keptFirst (known.2 rfl) known.1) ?_
    exact fun _ _ _ last => ⟨last.2.1, fun _ => last.2.2⟩

theorem claimMember_spec (kept : readerPin.inv world) (holds : Holds t held world) :
    readerPin.wp t (claimMember id) (fun won after => Holds t held after ∧
      (won = true → Owns t id .draining after)) world := by
  unfold claimMember
  refine Protocol.wp_seq kept (claim_spec (.inl rfl) holds) fun won first keptFirst known => ?_
  cases won with
  | true =>
    refine Protocol.wp_mono keptFirst (await_spec true keptFirst (known.2 rfl) known.1) ?_
    exact fun _ _ _ last => ⟨last.2.1, fun _ => last.2.2⟩
  | false =>
    refine Protocol.wp_seq keptFirst (claim_spec (.inr rfl) known.1)
      fun won second keptSecond known => ?_
    cases won with
    | false => exact ⟨known.1, fun won => by cases won⟩
    | true =>
      refine Protocol.wp_mono keptSecond (await_spec true keptSecond (known.2 rfl) known.1) ?_
      exact fun _ _ _ last => ⟨last.2.1, fun _ => last.2.2⟩

/-- Recycling an unpinned drained segment returns it. -/
theorem recycle_spec (kept : readerPin.inv world) (mine : Owns t id .draining world)
    (unpinned : (world.history id).pins = []) (holds : Holds t held world) :
    readerPin.wp t (recycle id) (fun _ => Holds t held) world := by
  unfold recycle
  refine neutral_unlink.andThen kept fun _ first moved keptFirst => ?_
  refine neutral_leavePool.andThen keptFirst fun _ second moved' keptSecond => ?_
  refine neutral_resetWriteStats.andThen keptSecond fun _ third moved'' keptThird => ?_
  have later : readerPin.rely t world third :=
    readerPin.rely_trans t _ _ _ (readerPin.rely_trans t _ _ _ moved moved') moved''
  have none : (third.history id).pins = [] := (later id).drained mine.1 mine.2.1 unpinned
  refine Protocol.wp_seq keptThird (tryReleaseDrained_spec (mine.rely later) none
    (holds.rely later)) fun released fourth keptFourth known => ?_
  refine (Protocol.wp_bind _ _ _ _).mpr (wp_assertThat fun fifth last keptFifth won => ?_)
  exact returnSegment_spec keptFifth ((known.2 won).rely last) (known.1.rely last)

/-- Condemning a pinned segment leaves it to its readers, unless the recheck wins. -/
theorem condemn_spec (kept : readerPin.inv world) (mine : Owns t id .draining world)
    (holds : Holds t held world) (next prev : Option SegId) :
    readerPin.wp t (condemn id next prev) (fun _ => Holds t held) world := by
  have recheck : ∀ now : World Shared (History Tid), readerPin.inv now → Holds t held now →
      readerPin.wp t (do
        if (← refCountSeqcst id) = 0 then
          if ← tryReleaseCondemned id then
            resetWriteStats id
            returnSegment id
            return .freed
        return ClearOutcome.deferred) (fun _ => Holds t held) now := by
    intro now keptNow heldNow
    refine neutral_load.andThen keptNow fun count first moved keptFirst => ?_
    refine Protocol.wp_ite (fun _ => ?_) fun _ => heldNow.rely moved
    refine Protocol.wp_seq keptFirst (tryReleaseCondemned_spec (heldNow.rely moved))
      fun released second keptSecond known => ?_
    cases released with
    | false => exact known.1
    | true =>
      refine neutral_resetWriteStats.andThen keptSecond fun _ third moved' keptThird => ?_
      exact Protocol.wp_seq keptThird
        (returnSegment_spec keptThird ((known.2 rfl).rely moved') (known.1.rely moved'))
        fun _ _ _ last => last
  unfold condemn
  refine neutral_leavePool.andThen kept fun _ first moved keptFirst => ?_
  refine Protocol.wp_seq keptFirst (casCondemn_spec (mine.rely moved) (holds.rely moved))
    fun condemned second keptSecond heldSecond => ?_
  refine neutral_assertThat.andThen keptSecond fun _ third asserted keptThird => ?_
  refine (neutral_onLink fun _ => neutral_updateLinks).andThen keptThird
    fun _ fourth splicedPrev keptFourth => ?_
  refine (neutral_onLink fun _ => neutral_updateLinks).andThen keptFourth
    fun _ fifth splicedNext keptFifth => ?_
  exact recheck fifth keptFifth (((heldSecond.rely asserted).rely splicedPrev).rely splicedNext)

theorem retire_spec (mine : Owns t id .draining world)
    (holds : Holds t held world) (next prev : Option SegId) :
    readerPin.wp t (retire id next prev) (fun _ => Holds t held) world := by
  unfold retire
  refine (Protocol.wp_bind _ _ _ _).mpr (wp_load fun now moved keptNow => ?_)
  refine Protocol.wp_ite (fun unread => ?_) fun _ =>
    condemn_spec keptNow (mine.rely moved) (holds.rely moved) next prev
  have counted : (now.shared.header id).refCount =
      (now.history id).entering.length + (now.history id).pins.length := (keptNow id).counted
  have unpinned : (now.history id).pins = [] := List.length_eq_zero_iff.mp (by omega)
  exact Protocol.wp_seq keptNow (recycle_spec keptNow (mine.rely moved) unpinned
    (holds.rely moved)) fun _ _ _ last => last

theorem finalizeDrained_spec (kept : readerPin.inv world) (mine : Owns t id .draining world)
    (holds : Holds t held world) :
    readerPin.wp t (finalizeDrained id) (fun _ => Holds t held) world :=
  neutral_metadata.andThen kept fun _ _ moved _ =>
    retire_spec (mine.rely moved) (holds.rely moved) _ _

theorem clearSegment_spec (kept : readerPin.inv world) (holds : Holds t held world) :
    readerPin.wp t (clearSegment id) (fun _ => Holds t held) world := by
  unfold clearSegment
  refine Protocol.wp_seq kept (claimForDrain_spec kept holds) fun won first keptFirst known => ?_
  cases won with
  | false => exact known.1
  | true =>
    exact Protocol.wp_seq keptFirst (finalizeDrained_spec keptFirst (known.2 rfl) known.1)
      fun _ _ _ last => last

/-- One segment of the drain walk. -/
theorem drainMember_spec (kept : readerPin.inv world) (holds : Holds t held world) :
    readerPin.wp t (drainMember id) (fun _ => Holds t held) world := by
  unfold drainMember
  refine neutral_metadata.andThen kept fun word first moved keptFirst => ?_
  refine Protocol.wp_seq keptFirst (claimMember_spec keptFirst (holds.rely moved))
    fun won second keptSecond known => ?_
  cases won with
  | false => exact known.1
  | true =>
    exact Protocol.wp_seq keptSecond (retire_spec (known.2 rfl) known.1 word.next word.prev)
      fun _ _ _ last => last

end Drain

/-! ### Reuse -/

section Reuse

variable {t : Tid} {world : World Shared (History Tid)} {id : SegId} {held : List SegId}

theorem linkAndPublish_spec {next prev : Option SegId} {published : State}
    (visible : published = .live ∨ published = .relinking) (mine : Owns t id .reserved world)
    (holds : Holds t held world) :
    readerPin.wp t (linkAndPublish id next prev published) (fun _ => Holds t held) world := by
  unfold linkAndPublish
  refine (Protocol.wp_bind _ _ _ _).mpr (wp_casMetadata ?_ ?_ ?_)
  · exact fun now word moved _ here state => .link (mine.rely moved).1 here state
  · intro now after word moved _ keptAfter here state touches
    have linking : Owns t id .linking after :=
      touches.owns keptAfter state (by simp [here]) (.inr (.inl rfl))
    have held' : Holds t held after := touches.holds (moved_pins _ _) (holds.rely moved)
    refine neutral_assertThat.andThen keptAfter fun _ second moved' _ => ?_
    refine (Protocol.wp_bind _ _ _ _).mpr (wp_casMetadata ?_ ?_ ?_)
    · intro third word later _ here state
      exact .publish ((linking.rely moved').rely later).1 here (visible.imp state.trans state.trans)
    · intro third last word later _ keptLast _ _ touches'
      refine neutral_assertThat.wp keptLast fun _ final moved'' _ => ?_
      exact (touches'.holds (moved_pins _ _) ((held'.rely moved').rely later)).rely moved''
    · intro third later keptThird
      refine neutral_assertThat.wp keptThird fun _ final moved'' _ => ?_
      exact ((held'.rely moved').rely later).rely moved''
  · intro after moved keptAfter
    refine (Protocol.wp_bind _ _ _ _).mpr (wp_assertThat fun _ _ _ impossible => ?_)
    cases impossible

theorem useReserved_spec (kept : readerPin.inv world) (mine : Owns t id .reserved world)
    (holds : Holds t held world) (use : Use) :
    readerPin.wp t (useReserved id use) (fun _ => Holds t held) world := by
  cases use with
  | giveBack => exact releaseUnused_spec kept (.inl mine) holds
  | tail next prev => exact linkAndPublish_spec (.inl rfl) mine holds
  | destination next prev => exact linkAndPublish_spec (.inr rfl) mine holds

theorem fill_spec {filled : State} {next : Option (Option SegId)}
    (open_ : filled = .live ∨ filled = .relinking) (holds : Holds t held world) :
    readerPin.wp t (fill id filled next) (fun _ => Holds t held) world := by
  refine wp_casMetadata ?_ ?_ ?_
  · exact fun now word _ _ here state => .fill (open_.imp here.trans here.trans) state
  · exact fun now after word moved _ _ _ _ touches =>
      touches.holds (moved_pins _ _) (holds.rely moved)
  · exact fun after moved _ => holds.rely moved

end Reuse

/-! ### Readers -/

section Readers

variable {t : Tid} {world : World Shared (History Tid)} {id : SegId} {held : List SegId}

/-- A thread between its increment and its re-check or backout. -/
def Enters (t : Tid) (id : SegId) (world : World Shared (History Tid)) : Prop :=
  0 < (world.history id).entering.count t

theorem Enters.rely {after : World Shared (History Tid)} (enters : Enters t id world)
    (moved : readerPin.rely t world after) : Enters t id after := by
  have same : (after.history id).entering.count t = (world.history id).entering.count t :=
    (moved id).entering
  unfold Enters
  rw [same]
  exact enters

theorem Touches.enters {now after : World Shared (History Tid)} {changed : SegmentView Tid}
    (touches : Touches now after id changed) (member : 0 < changed.ledger.entering.count t) :
    Enters t id after := by
  show 0 < (view after id).ledger.entering.count t
  rw [touches.1]
  exact member

/-- After the re-check of a readable segment the reader has one more guard. -/
theorem Touches.pinned {now after : World Shared (History Tid)}
    (touches : Touches now after id ((view now id).rechecked t))
    (readable : (view now id).metadata.state.isReadable = true) (holds : Holds t held now) :
    Holds t (id :: held) after := by
  intro other
  show (view after other).ledger.pins.countP _ = _
  by_cases same : other = id
  · subst same
    have one := holds other
    simp only [touches.1, SegmentView.rechecked, Ledger.rechecked, readable, if_true,
      List.countP_cons, decide_true, List.count_cons_self]
    exact congrArg (· + 1) one
  · rw [touches.2 other same, List.count_cons_of_ne (Ne.symm same)]
    exact holds other

theorem rechecked_unreadable {v : SegmentView Tid} (unreadable : v.metadata.state.isReadable = false) :
    (v.rechecked t).ledger = v.ledger := by
  simp [SegmentView.rechecked, Ledger.rechecked, unreadable]

theorem tryAcquireReader_spec (kept : readerPin.inv world) (holds : Holds t held world) :
    readerPin.wp t (tryAcquireReader id) (fun outcome after => match outcome with
      | .acquired => Holds t (id :: held) after
      | .notReadable => Holds t held after
      | .releaseCondemned => Holds t held after ∧ Owns t id .free after) world := by
  unfold tryAcquireReader
  refine neutral_metadata.andThen kept fun word first moved _ => ?_
  refine Protocol.wp_ite (fun _ => holds.rely moved) fun _ => ?_
  -- the increment
  refine (Protocol.wp_bind _ _ _ _).mpr (Protocol.wp_atomically fun now moved' keptNow _ _ => ?_)
  have incremented : Touches now _ id _ := touches_acquireIncrement now t id
  obtain ⟨keptSecond, guaranteed⟩ := incremented.kept keptNow (keptNow id).increment
  refine ⟨keptSecond, guaranteed, ?_⟩
  have heldSecond := incremented.holds rfl ((holds.rely moved).rely moved')
  have enters := incremented.enters (t := t) (by simp [SegmentView.incremented])
  -- the re-check
  refine (Protocol.wp_bind _ _ _ _).mpr
    (Protocol.wp_atomically fun seen later keptSeen _ _ => ?_)
  have rechecked : Touches seen _ id _ := touches_acquireRecheck seen t id
  have inside : t ∈ (view seen id).ledger.entering := List.count_pos_iff.mp (enters.rely later)
  obtain ⟨keptThird, guaranteed'⟩ := rechecked.kept keptSeen ((keptSeen id).recheck inside)
  refine ⟨keptThird, guaranteed', ?_⟩
  refine Protocol.wp_ite (fun unreadable => ?_) fun readable => ?_
  · have unreadable' : (seen.shared.header id).metadata.state.isReadable = false := by
      simpa using unreadable
    have ledger := rechecked_unreadable (t := t) (v := view seen id) unreadable'
    have heldThird := rechecked.holds (congrArg (·.pins) ledger) (heldSecond.rely later)
    have entersThird := rechecked.enters (t := t) (by rw [ledger]; exact enters.rely later)
    -- the backout
    unfold releaseReaderForGuard
    refine (Protocol.wp_bind _ _ _ _).mpr ((Protocol.wp_bind _ _ _ _).mpr
      (Protocol.wp_atomically fun last later' keptLast _ _ => ?_))
    have backedOut : Touches last _ id _ := touches_backOut last t id
    have member : t ∈ (view last id).ledger.entering :=
      List.count_pos_iff.mp (entersThird.rely later')
    obtain ⟨keptFourth, guaranteed''⟩ := backedOut.kept keptLast ((keptLast id).backOut member)
    refine ⟨keptFourth, guaranteed'', ?_⟩
    have heldFourth := backedOut.holds rfl (heldThird.rely later')
    refine neutral_assertThat.andThen keptFourth fun _ fifth settled keptFifth => ?_
    refine Protocol.wp_ite (fun _ => ?_) fun _ => heldFourth.rely settled
    refine Protocol.wp_seq keptFifth (tryReleaseCondemned_spec (heldFourth.rely settled))
      fun released sixth _ known => ?_
    cases released with
    | true => exact ⟨known.1, known.2 rfl⟩
    | false => exact known.1
  · have readable' : (seen.shared.header id).metadata.state.isReadable = true := by
      simpa using readable
    exact rechecked.pinned readable' (heldSecond.rely later)

/-- After a guard drop the reader has one guard less. -/
theorem Touches.unpinned {now after : World Shared (History Tid)}
    (touches : Touches now after id ((view now id).dropped t)) (member : id ∈ held)
    (holds : Holds t held now) : Holds t (held.erase id) after := by
  intro other
  show (view after other).ledger.pins.countP _ = _
  by_cases same : other = id
  · subst same
    have one := holds other
    rw [touches.1, List.count_erase_self, ← one]
    exact countP_eraseP_self _ _ (one ▸ List.count_pos_iff.mpr member)
  · rw [touches.2 other same, List.count_erase_of_ne same]
    exact holds other

/-- Dropping one of the guards held. -/
theorem dropGuard_spec (member : id ∈ held) (holds : Holds t held world) :
    readerPin.wp t (dropGuard id) (fun _ => Holds t (held.erase id)) world := by
  unfold dropGuard releaseReaderForGuard
  refine (Protocol.wp_bind _ _ _ _).mpr ((Protocol.wp_bind _ _ _ _).mpr
    (Protocol.wp_atomically fun now moved kept _ _ => ?_))
  have dropped : Touches now _ id _ := touches_guardDrop now t id
  have heldNow := holds.rely moved
  have mine : ∃ pin ∈ (now.history id).pins, pin.reader = t := by
    have positive : 0 < (now.history id).pins.countP (·.reader = t) := by
      rw [heldNow id]
      exact List.count_pos_iff.mpr member
    simpa using List.countP_pos_iff.mp positive
  obtain ⟨keptAfter, guaranteed⟩ := dropped.kept kept ((kept id).drop mine)
  refine ⟨keptAfter, guaranteed, ?_⟩
  have heldAfter := dropped.unpinned member heldNow
  refine neutral_assertThat.andThen keptAfter fun _ second moved' keptSecond => ?_
  refine Protocol.wp_ite (fun _ => ?_) fun _ => heldAfter.rely moved'
  refine Protocol.wp_seq keptSecond (tryReleaseCondemned_spec (heldAfter.rely moved'))
    fun released third keptThird known => ?_
  cases released with
  | false => exact known.1
  | true =>
    refine neutral_resetWriteStats.andThen keptThird fun _ fourth moved'' keptFourth => ?_
    exact pushFreed_spec keptFourth ((known.2 rfl).rely moved'') (known.1.rely moved'')

/-- Acquiring an item: on success the reader has one more guard. -/
theorem acquireItemAt_spec (kept : readerPin.inv world) (holds : Holds t held world) (tag : Nat) :
    readerPin.wp t (acquireItemAt id tag) (fun acquired after =>
      Holds t (if acquired then id :: held else held) after) world := by
  unfold acquireItemAt
  refine Protocol.wp_seq kept (tryAcquireReader_spec kept holds)
    fun outcome first keptFirst known => ?_
  cases outcome with
  | acquired =>
    refine neutral_load.andThen keptFirst fun generation second moved keptSecond => ?_
    have held' : Holds t (id :: held) second := Holds.rely known moved
    refine Protocol.wp_ite (fun _ => ?_) fun _ => held'
    refine Protocol.wp_seq keptSecond (dropGuard_spec (List.mem_cons_self ..) held')
      fun _ third _ last => ?_
    simpa using last
  | notReadable => exact known
  | releaseCondemned =>
    refine neutral_resetWriteStats.andThen keptFirst fun _ second moved keptSecond => ?_
    exact Protocol.wp_seq keptSecond
      (returnSegment_spec keptSecond (known.2.rely moved) (known.1.rely moved))
      fun _ _ _ last => last

end Readers

end CacheRs.Segments
