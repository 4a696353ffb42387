/-
**The reader-pin protocol on one segment's view.**

What holds of a segment at every instant (`Ok`), what each thread may rely on (`Rely`), and the
transitions of the metadata word that the code makes (`Move`), each with what its maker must know:

* `Ok.exchange`: every move keeps `Ok` and what the other threads rely on;
* `Ok.increment`, `Ok.recheck`, `Ok.backOut`, `Ok.drop`: so do the reader's steps;
* `Ok.bump`, `Ok.push`, `Ok.steal`, `Ok.claimantLoad`: and the owner's and the claimant's.
-/

import CacheRs.Segments.Ledger

set_option linter.unusedSectionVars false

namespace CacheRs.Segments

open Concurrency

variable {Tid : Type} [DecidableEq Tid]

namespace State

/-- The states in which a held pin can find its segment. -/
def Pinnable (state : State) : Prop :=
  state = .live ∨ state = .sealed ∨ state = .relinking ∨ state = .draining ∨
    state = .awaitingRelease

/-- The states of a segment that one thread holds for itself. -/
def Private (state : State) : Prop := state = .reserved ∨ state = .linking ∨ state = .draining

end State

/-- Erasing an element does not change the count of others. -/
theorem countP_eraseP_of_disjoint {α : Type} {p q : α → Bool} (disjoint : ∀ a, p a = true → q a = false)
    (l : List α) : (l.eraseP p).countP q = l.countP q := by
  induction l with
  | nil => rfl
  | cons a l ih =>
    rw [List.eraseP_cons]
    cases erased : p a with
    | true => simp [disjoint a erased]
    | false => simp [List.countP_cons, ih]

/-- Erasing one of the elements counted leaves one less. -/
theorem countP_eraseP_self {α : Type} (p : α → Bool) (l : List α) (some : 0 < l.countP p) :
    (l.eraseP p).countP p = l.countP p - 1 := by
  induction l with
  | nil => rfl
  | cons a l ih =>
    rw [List.eraseP_cons]
    cases erased : p a with
    | true => simp [erased]
    | false =>
      simp only [List.countP_cons, erased, Bool.false_eq_true, if_false, Nat.add_zero, cond_false]
        at some ⊢
      exact ih some

namespace SegmentView

/-- What holds of a segment at every instant. -/
structure Ok (v : SegmentView Tid) : Prop where
  counted : v.refCount = v.ledger.entering.length + v.ledger.pins.length
  pinned : ∀ pin ∈ v.ledger.pins, v.metadata.state.Pinnable ∧
    pin.freed = v.ledger.freed ∧ pin.pushed = v.ledger.pushed
  inQueue : v.queued = 0 ∨ v.queued = 1 ∧ v.metadata.state = .free ∧ v.ledger.owner = none
  owned : ∀ t, v.ledger.owner = some t → v.metadata.state = .free ∨ v.metadata.state.Private
  unowned : v.ledger.owner = none → ¬ v.metadata.state.Private
  stamped : v.metadata.state = .awaitingRelease → v.metadata.tag = v.ledger.ended % 2 ^ 8
  generation : v.ledger.bumping = false → v.generation = v.ledger.ended % 2 ^ 16
  bumping : v.ledger.bumping = true → v.metadata.state = .free ∧ v.ledger.owner ≠ none ∧
    (v.generation + 1) % 2 ^ 16 = v.ledger.ended % 2 ^ 16

/-- What thread `t` relies on while others step. -/
structure Rely (t : Tid) (v after : SegmentView Tid) : Prop where
  owned : v.ledger.owner = some t → after.ledger.owner = some t ∧
    after.metadata.state = v.metadata.state ∧ after.ledger.bumping = v.ledger.bumping ∧
    after.ledger.ended = v.ledger.ended
  drained : v.ledger.owner = some t → v.metadata.state = .draining → v.ledger.pins = [] →
    after.ledger.pins = []
  entering : after.ledger.entering.count t = v.ledger.entering.count t
  held : after.ledger.pins.countP (·.reader = t) = v.ledger.pins.countP (·.reader = t)
  loaded : after.ledger.loadedAt t = v.ledger.loadedAt t
  ended : v.ledger.ended ≤ after.ledger.ended
  condemned : after.ledger.ended = v.ledger.ended → v.metadata.state = .awaitingRelease →
    v.ledger.pins = [] → after.metadata.state = .awaitingRelease ∧ after.ledger.pins = []

theorem Rely.refl (t : Tid) (v : SegmentView Tid) : Rely t v v where
  owned := fun mine => ⟨mine, rfl, rfl, rfl⟩
  drained := fun _ _ none => none
  entering := rfl
  held := rfl
  loaded := rfl
  ended := Nat.le_refl _
  condemned := fun _ waiting none => ⟨waiting, none⟩

theorem Rely.trans {t : Tid} {v middle after : SegmentView Tid} (first : Rely t v middle)
    (second : Rely t middle after) : Rely t v after where
  owned := fun mine => by
    obtain ⟨still, state, bumping, ended⟩ := first.owned mine
    obtain ⟨last, state', bumping', ended'⟩ := second.owned still
    exact ⟨last, state'.trans state, bumping'.trans bumping, ended'.trans ended⟩
  drained := fun mine draining none => by
    obtain ⟨still, state, -, -⟩ := first.owned mine
    exact second.drained still (state.trans draining) (first.drained mine draining none)
  entering := second.entering.trans first.entering
  held := second.held.trans first.held
  loaded := second.loaded.trans first.loaded
  ended := Nat.le_trans first.ended second.ended
  condemned := fun same waiting none => by
    have middleSame : middle.ledger.ended = v.ledger.ended :=
      Nat.le_antisymm (same ▸ second.ended) first.ended
    obtain ⟨still, empty⟩ := first.condemned middleSame waiting none
    exact second.condemned (same.trans middleSame.symm) still empty

/-- A step every other thread tolerates. -/
def Kept (t : Tid) (v after : SegmentView Tid) : Prop :=
  after.Ok ∧ ∀ other, other ≠ t → Rely other v after

/-- The transitions of the metadata word, with what the thread that makes one must know. -/
inductive Move (t : Tid) (v : SegmentView Tid) (new : Metadata) : Prop
  | relink (state : new.state = v.metadata.state) (tag : new.tag = v.metadata.tag)
  | claim (removable : v.metadata.state = .sealed ∨ v.metadata.state = .live)
      (state : new.state = .draining)
  | fill (filled : v.metadata.state = .live ∨ v.metadata.state = .relinking)
      (state : new.state = .sealed)
  | reserve (mine : v.ledger.owner = some t) (settled : v.ledger.bumping = false)
      (free : v.metadata.state = .free) (state : new.state = .reserved)
  | link (mine : v.ledger.owner = some t) (reserved : v.metadata.state = .reserved)
      (state : new.state = .linking)
  | publish (mine : v.ledger.owner = some t) (linking : v.metadata.state = .linking)
      (state : new.state = .live ∨ new.state = .relinking)
  | giveBack (mine : v.ledger.owner = some t)
      (unused : v.metadata.state = .reserved ∨ v.metadata.state = .linking)
      (state : new.state = .free)
  | release (mine : v.ledger.owner = some t) (draining : v.metadata.state = .draining)
      (unpinned : v.ledger.pins = []) (state : new.state = .free)
  | condemn (mine : v.ledger.owner = some t) (draining : v.metadata.state = .draining)
      (state : new.state = .awaitingRelease) (tag : new.tag = v.ledger.ended % 2 ^ 8)
  | freeCondemned (waiting : v.metadata.state = .awaitingRelease) (unpinned : v.ledger.pins = [])
      (state : new.state = .free)

variable {t : Tid} {v : SegmentView Tid}

theorem Ok.unpinned_of (ok : v.Ok) (state : ¬ v.metadata.state.Pinnable) : v.ledger.pins = [] := by
  refine List.eq_nil_iff_forall_not_mem.mpr fun pin member => ?_
  exact state (ok.pinned pin member).1

theorem Ok.not_queued (ok : v.Ok) (state : v.metadata.state ≠ .free) : v.queued = 0 := by
  rcases ok.inQueue with none | ⟨-, free, -⟩
  · exact none
  · exact absurd free state

theorem Ok.settled (ok : v.Ok) (state : v.metadata.state ≠ .free) : v.ledger.bumping = false := by
  by_contra unsettled
  exact state (ok.bumping (Bool.not_eq_false _ ▸ unsettled)).1

/-- A move to a state other than `Free`: ownership follows the state, the counts stay. -/
theorem Ok.advance (ok : v.Ok) {new : Metadata} (changed : v.metadata.state ≠ new.state)
    (used : new.state ≠ .free) (known : new.state ≠ .locked) (settled : v.ledger.bumping = false)
    (unqueued : v.queued = 0) (pins : v.ledger.pins = [] ∨ new.state.Pinnable)
    (stamped : new.state = .awaitingRelease → new.tag = v.ledger.ended % 2 ^ 8)
    (others : ∀ other, other ≠ t → v.ledger.owner ≠ some other)
    (waiting : v.metadata.state ≠ .awaitingRelease) : Kept t v (v.moved t new) := by
  obtain ⟨owner, ledger, owned⟩ : ∃ owner, v.ledger.moved t v.metadata.state new.state =
      { v.ledger with owner := owner } ∧
      (new.state.Private ∧ owner = some t ∨ ¬ new.state.Private ∧ owner = none) := by
    unfold Ledger.moved
    rw [if_neg changed]
    cases state : new.state <;> simp_all [State.Private]
  simp only [Kept, moved, ledger]
  refine ⟨⟨ok.counted, ?_, .inl unqueued, ?_, ?_, stamped, ok.generation, ?_⟩, fun other different =>
    ⟨?_, ?_, rfl, rfl, rfl, Nat.le_refl _, ?_⟩⟩
  · intro pin member
    refine ⟨?_, (ok.pinned pin member).2⟩
    rcases pins with none | pinnable
    · exact absurd member (none ▸ List.not_mem_nil)
    · exact pinnable
  · rintro holder mine
    rcases owned with ⟨here, -⟩ | ⟨-, nobody⟩
    · exact .inr here
    · cases nobody.symm.trans mine
  · rintro nobody
    rcases owned with ⟨-, mine⟩ | ⟨away, -⟩
    · cases nobody.symm.trans mine
    · exact away
  · intro unsettled
    cases settled.symm.trans unsettled
  · intro theirs
    exact absurd theirs (others other different)
  · intro theirs
    exact absurd theirs (others other different)
  · intro _ now
    exact absurd now waiting

/-- A move to `Free` of a segment nobody pins. -/
theorem Ok.freed (ok : v.Ok) {new : Metadata} (used : v.metadata.state ≠ .free)
    (state : new.state = .free) (unpinned : v.ledger.pins = [])
    (others : ∀ other, other ≠ t → v.ledger.owner ≠ some other) : Kept t v (v.moved t new) := by
  have settled := ok.settled used
  have generation := ok.generation settled
  have ledger : v.ledger.moved t v.metadata.state new.state = { v.ledger with
      owner := some t
      bumping := v.metadata.state = .draining || v.metadata.state = .awaitingRelease
      ended := if v.metadata.state = .draining || v.metadata.state = .awaitingRelease then
        v.ledger.ended + 1 else v.ledger.ended
      freed := v.ledger.freed + 1 } := by
    unfold Ledger.moved
    rw [if_neg (state ▸ used), state]
  simp only [Kept, moved, ledger]
  refine ⟨⟨ok.counted, ?_, .inl (ok.not_queued used), ?_, ?_, ?_, ?_, ?_⟩, fun other different =>
    ⟨?_, ?_, rfl, rfl, rfl, ?_, ?_⟩⟩
  · intro pin member
    exact absurd member (unpinned ▸ List.not_mem_nil)
  · exact fun _ _ => .inl state
  · exact fun nobody => by cases nobody
  · intro waiting
    cases state.symm.trans waiting
  · intro unused
    rw [if_neg (by simpa using unused)]
    exact generation
  · intro bumping
    refine ⟨state, Option.some_ne_none _, ?_⟩
    rw [if_pos bumping, generation]
    show (v.ledger.ended % 2 ^ 16 + 1) % 2 ^ 16 = (v.ledger.ended + 1) % 2 ^ 16
    omega
  · intro theirs
    exact absurd theirs (others other different)
  · intro theirs
    exact absurd theirs (others other different)
  · split
    · exact Nat.le_succ _
    · exact Nat.le_refl _
  · intro same waiting
    have more : v.ledger.ended + 1 = v.ledger.ended := by
      simpa only [waiting, decide_true, Bool.or_true, if_true] using same
    omega

theorem Ok.others_of_mine {owner : Option Tid} (mine : owner = some t) :
    ∀ other, other ≠ t → owner ≠ some other := by
  rintro other different rfl
  exact different (Option.some.inj mine)

theorem Ok.unowned_of (ok : v.Ok) (state : v.metadata.state ≠ .free)
    (shared : ¬ v.metadata.state.Private) : v.ledger.owner = none := by
  cases owner : v.ledger.owner with
  | none => rfl
  | some holder =>
    rcases ok.owned holder owner with free | here
    · exact absurd free state
    · exact absurd here shared

/-- Patching links changes nothing that any thread relies on. -/
theorem relink_rely {new : Metadata} (state : new.state = v.metadata.state) :
    Rely t v (v.moved t new) := by
  have same : v.ledger.moved t v.metadata.state new.state = v.ledger := by
    simp [Ledger.moved, state]
  simp only [moved, same]
  exact ⟨fun mine => ⟨mine, state, rfl, rfl⟩, fun _ _ none => none, rfl, rfl, rfl, Nat.le_refl _,
    fun _ waiting none => ⟨state.trans waiting, none⟩⟩

/-- **Every move keeps the protocol.** -/
theorem Ok.exchange (ok : v.Ok) {new : Metadata} (move : Move t v new) :
    Kept t v (v.moved t new) := by
  cases move with
  | relink state tag =>
    have same : v.ledger.moved t v.metadata.state new.state = v.ledger := by
      simp [Ledger.moved, state]
    simp only [Kept, moved, same]
    refine ⟨⟨ok.counted, ?_, ?_, ?_, ?_, ?_, ok.generation, ?_⟩, fun other _ => ?_⟩
    · simpa only [state] using ok.pinned
    · simpa only [state] using ok.inQueue
    · simpa only [state] using ok.owned
    · simpa only [state] using ok.unowned
    · simpa only [state, tag] using ok.stamped
    · simpa only [state] using ok.bumping
    · refine ⟨fun mine => ⟨mine, state, rfl, rfl⟩, fun _ _ none => none, rfl, rfl, rfl,
        Nat.le_refl _, fun _ waiting none => ⟨state.trans waiting, none⟩⟩
  | claim removable state =>
    have used : v.metadata.state ≠ .free := by rcases removable with now | now <;> simp [now]
    have nobody : v.ledger.owner = none :=
      ok.unowned_of used (by rcases removable with now | now <;> simp [now, State.Private])
    refine ok.advance ?_ ?_ ?_ (ok.settled used) (ok.not_queued used) ?_ ?_ ?_ ?_
    · rcases removable with now | now <;> simp [now, state]
    · simp [state]
    · simp [state]
    · exact .inr (by simp [state, State.Pinnable])
    · simp [state]
    · simp [nobody]
    · rcases removable with now | now <;> simp [now]
  | fill filled state =>
    have used : v.metadata.state ≠ .free := by rcases filled with now | now <;> simp [now]
    have nobody : v.ledger.owner = none :=
      ok.unowned_of used (by rcases filled with now | now <;> simp [now, State.Private])
    refine ok.advance ?_ ?_ ?_ (ok.settled used) (ok.not_queued used) ?_ ?_ ?_ ?_
    · rcases filled with now | now <;> simp [now, state]
    · simp [state]
    · simp [state]
    · exact .inr (by simp [state, State.Pinnable])
    · simp [state]
    · simp [nobody]
    · rcases filled with now | now <;> simp [now]
  | reserve mine settled free state =>
    have unqueued : v.queued = 0 := by
      rcases ok.inQueue with none | ⟨-, -, nobody⟩
      · exact none
      · cases nobody.symm.trans mine
    refine ok.advance ?_ ?_ ?_ settled unqueued ?_ ?_ (Ok.others_of_mine mine) ?_
    · simp [free, state]
    · simp [state]
    · simp [state]
    · exact .inl (ok.unpinned_of (by simp [free, State.Pinnable]))
    · simp [state]
    · simp [free]
  | link mine reserved state =>
    have used : v.metadata.state ≠ .free := by simp [reserved]
    refine ok.advance ?_ ?_ ?_ (ok.settled used) (ok.not_queued used) ?_ ?_
      (Ok.others_of_mine mine) ?_
    · simp [reserved, state]
    · simp [state]
    · simp [state]
    · exact .inl (ok.unpinned_of (by simp [reserved, State.Pinnable]))
    · simp [state]
    · simp [reserved]
  | publish mine linking state =>
    have used : v.metadata.state ≠ .free := by simp [linking]
    refine ok.advance ?_ ?_ ?_ (ok.settled used) (ok.not_queued used) ?_ ?_
      (Ok.others_of_mine mine) ?_
    · rcases state with now | now <;> simp [now, linking]
    · rcases state with now | now <;> simp [now]
    · rcases state with now | now <;> simp [now]
    · exact .inl (ok.unpinned_of (by simp [linking, State.Pinnable]))
    · rcases state with now | now <;> simp [now]
    · simp [linking]
  | giveBack mine unused state =>
    refine ok.freed ?_ state (ok.unpinned_of ?_) (Ok.others_of_mine mine)
    · rcases unused with now | now <;> simp [now]
    · rcases unused with now | now <;> simp [now, State.Pinnable]
  | release mine draining unpinned state =>
    exact ok.freed (by simp [draining]) state unpinned (Ok.others_of_mine mine)
  | condemn mine draining state tag =>
    have used : v.metadata.state ≠ .free := by simp [draining]
    refine ok.advance ?_ ?_ ?_ (ok.settled used) (ok.not_queued used) ?_ (fun _ => tag)
      (Ok.others_of_mine mine) ?_
    · simp [draining, state]
    · simp [state]
    · simp [state]
    · exact .inr (by simp [state, State.Pinnable])
    · simp [draining]
  | freeCondemned waiting unpinned state =>
    have nobody : v.ledger.owner = none :=
      ok.unowned_of (by simp [waiting]) (by simp [waiting, State.Private])
    exact ok.freed (by simp [waiting]) state unpinned (by simp [nobody])

/-! ### The steps of readers, owners and claimants -/

theorem Ok.increment (ok : v.Ok) : Kept t v (v.incremented t) := by
  refine ⟨⟨?_, ok.pinned, ok.inQueue, ok.owned, ok.unowned, ok.stamped, ok.generation, ok.bumping⟩,
    fun other different => { Rely.refl other v with entering := ?_ }⟩
  · show v.refCount + 1 = v.ledger.entering.length + 1 + v.ledger.pins.length
    rw [ok.counted]
    omega
  · exact List.count_cons_of_ne different.symm

theorem Ok.recheck (ok : v.Ok) (member : t ∈ v.ledger.entering) : Kept t v (v.rechecked t) := by
  unfold rechecked Ledger.rechecked
  split
  · rename_i readable
    have state : v.metadata.state = .live ∨ v.metadata.state = .sealed ∨
        v.metadata.state = .relinking := by
      simpa [State.isReadable, or_assoc] using readable
    refine ⟨⟨?_, ?_, ok.inQueue, ok.owned, ok.unowned, ok.stamped, ok.generation, ok.bumping⟩,
      fun other different => { Rely.refl other v with
        drained := ?_, entering := ?_, held := ?_, condemned := ?_ }⟩
    · show v.refCount = (v.ledger.entering.erase t).length + (v.ledger.pins.length + 1)
      have := List.length_pos_of_mem member
      rw [ok.counted, List.length_erase_of_mem member]
      omega
    · intro pin held
      rcases List.mem_cons.mp held with rfl | held
      · refine ⟨?_, rfl, rfl⟩
        rcases state with now | now | now <;> simp [now, State.Pinnable]
      · exact ok.pinned pin held
    · intro _ draining
      rcases state with now | now | now <;> cases now.symm.trans draining
    · exact List.count_erase_of_ne different
    · exact List.countP_cons_of_neg (by simpa using different.symm)
    · intro _ waiting
      rcases state with now | now | now <;> cases now.symm.trans waiting
  · exact ⟨ok, fun other _ => Rely.refl other v⟩

theorem Ok.backOut (ok : v.Ok) (member : t ∈ v.ledger.entering) : Kept t v (v.backedOut t) := by
  refine ⟨⟨?_, ok.pinned, ok.inQueue, ok.owned, ok.unowned, ok.stamped, ok.generation, ok.bumping⟩,
    fun other different => { Rely.refl other v with entering := List.count_erase_of_ne different }⟩
  show v.refCount - 1 = (v.ledger.entering.erase t).length + v.ledger.pins.length
  have := List.length_pos_of_mem member
  rw [ok.counted, List.length_erase_of_mem member]
  omega

theorem Ok.drop (ok : v.Ok) (holds : ∃ pin ∈ v.ledger.pins, pin.reader = t) :
    Kept t v (v.dropped t) := by
  obtain ⟨pin, member, mine⟩ := holds
  have fewer : (v.ledger.pins.eraseP fun pin => pin.reader = t).length =
      v.ledger.pins.length - 1 := List.length_eraseP_of_mem member (by simpa using mine)
  refine ⟨⟨?_, ?_, ok.inQueue, ok.owned, ok.unowned, ok.stamped, ok.generation, ok.bumping⟩,
    fun other different => { Rely.refl other v with drained := ?_, held := ?_, condemned := ?_ }⟩
  · show v.refCount - 1 =
      v.ledger.entering.length + (v.ledger.pins.eraseP fun pin => pin.reader = t).length
    have := List.length_pos_of_mem member
    rw [ok.counted, fewer]
    omega
  · exact fun held remains => ok.pinned held (List.mem_of_mem_eraseP remains)
  · intro _ _ none
    show v.ledger.pins.eraseP _ = []
    rw [none]
    rfl
  · refine countP_eraseP_of_disjoint (fun pin mine => ?_) _
    simp only [decide_eq_true_eq] at mine
    simpa [mine] using different.symm
  · intro _ waiting none
    refine ⟨waiting, ?_⟩
    show v.ledger.pins.eraseP _ = []
    rw [none]
    rfl

theorem Ok.claimantLoad (ok : v.Ok) : Kept t v (v.claimantLoaded t) :=
  ⟨⟨ok.counted, ok.pinned, ok.inQueue, ok.owned, ok.unowned, ok.stamped, ok.generation, ok.bumping⟩,
    fun other different => { Rely.refl other v with
      loaded := Function.update_of_ne different _ _ }⟩

theorem Ok.bump (ok : v.Ok) (mine : v.ledger.owner = some t) (pending : v.ledger.bumping = true) :
    Kept t v v.bumped := by
  refine ⟨⟨ok.counted, ok.pinned, ok.inQueue, ok.owned, ok.unowned, ok.stamped, ?_,
    fun pending => by cases pending⟩,
    fun other different => { Rely.refl other v with owned := ?_ }⟩
  · exact fun _ => (ok.bumping pending).2.2
  · exact fun theirs => absurd theirs (Ok.others_of_mine mine other different)

theorem Ok.push (ok : v.Ok) (mine : v.ledger.owner = some t) (free : v.metadata.state = .free)
    (settled : v.ledger.bumping = false) : Kept t v v.pushed := by
  have unpinned : v.ledger.pins = [] := ok.unpinned_of (by simp [free, State.Pinnable])
  have unqueued : v.queued = 0 := by
    rcases ok.inQueue with none | ⟨-, -, nobody⟩
    · exact none
    · cases nobody.symm.trans mine
  have queuedOnce : v.queued + 1 = 1 := congrArg (· + 1) unqueued
  have shared : ¬ v.metadata.state.Private := by simp [free, State.Private]
  refine ⟨⟨ok.counted, ?_,
    .inr ⟨queuedOnce, free, rfl⟩, (fun _ theirs => by cases theirs), fun _ => shared, ?_,
    ok.generation, ?_⟩,
    fun other different => { Rely.refl other v with owned := ?_, drained := ?_ }⟩
  · exact fun pin member => absurd member (unpinned ▸ List.not_mem_nil)
  · exact fun waiting => by cases free.symm.trans waiting
  · exact fun pending => by cases settled.symm.trans pending
  · exact fun theirs => absurd theirs (Ok.others_of_mine mine other different)
  · exact fun theirs => absurd theirs (Ok.others_of_mine mine other different)

theorem Ok.steal (ok : v.Ok) (inside : v.queued ≠ 0) : Kept t v (v.stolen t) := by
  obtain ⟨one, free, nobody⟩ := ok.inQueue.resolve_left inside
  have none : v.queued - 1 = 0 := congrArg (· - 1) one
  refine ⟨⟨ok.counted, ok.pinned, .inl none, fun _ _ => .inl free,
    (fun nobody => by cases nobody), ok.stamped,
    ok.generation, ?_⟩, fun other _ => { Rely.refl other v with owned := ?_, drained := ?_ }⟩
  · exact fun pending => ⟨free, Option.some_ne_none _, (ok.bumping pending).2.2⟩
  · exact fun theirs => by cases nobody.symm.trans theirs
  · exact fun theirs => by cases nobody.symm.trans theirs

end SegmentView

end CacheRs.Segments
