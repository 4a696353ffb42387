/-
**The pin–drain protocol on one segment's view.**

What holds of a segment at every instant (`Ok`), what each thread may rely on (`Rely`), what a thread
knows of its own part (`Known`), and what changing the metadata word takes (`Move`):

* `Ok.exchange`: every move keeps `Ok` and what the other threads rely on;
* `Ok.increment`, `Ok.grant`, `Ok.backOut`, `Ok.release`: so do the steps of a pin;
* `Ok.await`, `Ok.bump`, `Ok.reset`, `Ok.push`, `Ok.steal`: and the owner's.
-/

import CacheRs.Segments.DrainLedger

set_option linter.unusedSectionVars false

namespace CacheRs.Segments.Drains

open Concurrency

variable {Tid : Type} [DecidableEq Tid]

/-- A state that admits some pin is one that removers accept. -/
theorem removable_of_admits {kind : PinKind} {state : State} (admits : kind.admits state = true) :
    state.isRemovable = true := by
  cases kind with
  | writer =>
    have live : state = .live := of_decide_eq_true admits
    rw [live]
    rfl
  | remover => exact admits

theorem not_withheld_of_removable {state : State} (removable : state.isRemovable = true) :
    Withheld state = false := by
  cases state <;> first | rfl | cases removable

theorem countP_eraseP_other {α : Type} {p q : α → Bool} (disjoint : ∀ a, p a = true → q a = false)
    (l : List α) : (l.eraseP p).countP q = l.countP q := by
  induction l with
  | nil => rfl
  | cons a l ih =>
    rw [List.eraseP_cons]
    cases erased : p a with
    | true => simp [disjoint a erased]
    | false => simp [List.countP_cons, ih]

theorem countP_eraseP_same {α : Type} (p : α → Bool) (l : List α) :
    (l.eraseP p).countP p = l.countP p - 1 := by
  induction l with
  | nil => rfl
  | cons a l ih =>
    rw [List.eraseP_cons]
    cases erased : p a with
    | true => simp [erased]
    | false => simp [erased, ih]

namespace SegmentView

/-- What holds of a segment at every instant. -/
structure Ok (v : SegmentView Tid) : Prop where
  counted : ∀ kind,
    v.count kind = (v.ledger.entering kind).length + (v.ledger.granted kind).length
  granted : ∀ kind, ∀ grant ∈ v.ledger.granted kind,
    (v.metadata.state.isRemovable = true ∨
      v.metadata.state = .draining ∧ v.ledger.waited kind = false) ∧
    grant.generation = v.generation ∧ grant.bumps = v.ledger.bumps ∧
    grant.resets = v.ledger.resets
  opened : v.metadata.state.isRemovable = true → ∀ kind, v.ledger.waited kind = false
  drained : v.ledger.drainers =
    if v.metadata.state = .draining then v.ledger.owner.toList else []
  inQueue : v.queued = 0 ∨ v.queued = 1 ∧ v.metadata.state = .free ∧ v.ledger.owner = none
  owned : ∀ t, v.ledger.owner = some t → Withheld v.metadata.state = true
  unowned : v.ledger.owner = none → v.metadata.state = .free ∨ Withheld v.metadata.state = false

/-- What thread `t` relies on while others step. -/
structure Rely (t : Tid) (v after : SegmentView Tid) : Prop where
  owned : v.ledger.owner = some t → after.ledger.owner = some t ∧
    after.metadata.state = v.metadata.state ∧ after.ledger.waited = v.ledger.waited
  entering : ∀ kind, (after.ledger.entering kind).count t = (v.ledger.entering kind).count t
  granted : ∀ kind, (after.ledger.granted kind).countP (·.holder = t) =
    (v.ledger.granted kind).countP (·.holder = t)

theorem Rely.refl (t : Tid) (v : SegmentView Tid) : Rely t v v :=
  ⟨fun mine => ⟨mine, rfl, rfl⟩, fun _ => rfl, fun _ => rfl⟩

theorem Rely.trans {t : Tid} {first second third : SegmentView Tid} (before : Rely t first second)
    (later : Rely t second third) : Rely t first third := by
  refine ⟨fun mine => ?_, fun kind => (later.entering kind).trans (before.entering kind),
    fun kind => (later.granted kind).trans (before.granted kind)⟩
  obtain ⟨still, state, waited⟩ := before.owned mine
  obtain ⟨yet, state', waited'⟩ := later.owned still
  exact ⟨yet, state'.trans state, waited'.trans waited⟩

/-- A step of `t` that keeps the segment in order, and every other thread's part of it. -/
abbrev Kept (t : Tid) (v after : SegmentView Tid) : Prop :=
  Views.Kept Ok Rely t v after

/-- What moving a segment to another state takes: a segment withheld from the others is the mover's,
a drained one has been waited for, and a segment in service only goes on in service or is claimed. -/
structure Move (t : Tid) (v : SegmentView Tid) (new : Metadata) : Prop where
  mine : Withheld v.metadata.state = true → v.ledger.owner = some t
  waited : v.metadata.state = .draining → ∀ kind, v.ledger.waited kind = true
  served : v.metadata.state.isRemovable = true →
    new.state.isRemovable = true ∨ new.state = .draining

variable {t : Tid} {v : SegmentView Tid} {kind : PinKind}

/-- A drained segment that has been waited for is unpinned, and so is one out of service. -/
theorem Ok.unpinned (ok : v.Ok) (kind : PinKind) (withdrawn : v.metadata.state.isRemovable = false)
    (waited : v.metadata.state = .draining → v.ledger.waited kind = true) :
    v.ledger.granted kind = [] := by
  refine List.eq_nil_iff_forall_not_mem.mpr fun grant member => ?_
  rcases (ok.granted kind grant member).1 with served | ⟨draining, waiting⟩
  · rw [withdrawn] at served
    cases served
  · rw [waited draining] at waiting
    cases waiting

theorem Ok.not_queued (ok : v.Ok) (mine : v.ledger.owner = some t) : v.queued = 0 := by
  rcases ok.inQueue with none | ⟨-, -, nobody⟩
  · exact none
  · cases nobody.symm.trans mine

theorem others_of_mine {owner : Option Tid} (mine : owner = some t) {other : Tid}
    (different : other ≠ t) (theirs : owner = some other) : False :=
  different (Option.some.inj (theirs.symm.trans mine))

/-- Patching links changes nothing that any thread relies on. -/
theorem relink_ledger {new : Metadata} (same : new.state = v.metadata.state) :
    (v.moved t new).ledger = v.ledger :=
  if_pos same.symm

theorem relink_rely {new : Metadata} (same : new.state = v.metadata.state) (other : Tid) :
    Rely other v (v.moved t new) := by
  have ledger := relink_ledger (t := t) same
  refine ⟨fun theirs => ?_, fun kind => ?_, fun kind => ?_⟩
  · rw [ledger]
    exact ⟨theirs, same, rfl⟩
  · rw [ledger]
  · rw [ledger]

theorem Ok.relink (ok : v.Ok) {new : Metadata} (same : new.state = v.metadata.state) :
    Kept t v (v.moved t new) := by
  have ledger := relink_ledger (t := t) same
  have state : (v.moved t new).metadata.state = v.metadata.state := same
  refine ⟨⟨?_, ?_, ?_, ?_, ?_, ?_, ?_⟩, fun other _ => relink_rely same other⟩
  · simp only [ledger]
    exact ok.counted
  · simp only [ledger, state]
    exact ok.granted
  · simp only [ledger, state]
    exact ok.opened
  · simp only [ledger, state]
    exact ok.drained
  · simp only [ledger, state]
    exact ok.inQueue
  · simp only [ledger, state]
    exact ok.owned
  · simp only [ledger, state]
    exact ok.unowned

/-- **Every move keeps the protocol.** -/
theorem Ok.exchange (ok : v.Ok) {new : Metadata} (move : Move t v new) :
    Kept t v (v.moved t new) := by
  by_cases same : new.state = v.metadata.state
  · exact ok.relink same
  have changed : ¬ v.metadata.state = new.state := fun equal => same equal.symm
  have ledger : (v.moved t new).ledger = { v.ledger with
      owner := if Withheld new.state then some t else none
      drainers :=
        if new.state = .draining then t :: v.ledger.drainers
        else if v.metadata.state = .draining then v.ledger.drainers.erase t
        else v.ledger.drainers
      waited := if new.state = .draining || new.state.isRemovable then fun _ => false
        else v.ledger.waited } := if_neg changed
  have state : (v.moved t new).metadata = new := rfl
  refine ⟨⟨?_, ?_, ?_, ?_, ?_, ?_, ?_⟩, fun other different => ⟨fun theirs => ?_, fun _ => ?_,
    fun _ => ?_⟩⟩
  · intro kind
    rw [ledger]
    exact ok.counted kind
  · intro kind grant member
    rw [ledger] at member ⊢
    obtain ⟨served, stamped⟩ := ok.granted kind grant member
    refine ⟨?_, stamped⟩
    rcases served with served | ⟨draining, waiting⟩
    · rcases move.served served with still | claimed
      · exact .inl still
      · exact .inr ⟨claimed, by simp [claimed]⟩
    · rw [move.waited draining kind] at waiting
      cases waiting
  · intro served kind
    rw [ledger]
    have inService : new.state.isRemovable = true := served
    simp [inService]
  · rw [ledger, state]
    by_cases claimed : new.state = .draining
    · have before : ¬ v.metadata.state = .draining := fun now => changed (now.trans claimed.symm)
      have nobody : v.ledger.drainers = [] := by rw [ok.drained, if_neg before]
      simp [claimed, nobody, Withheld]
    · by_cases draining : v.metadata.state = .draining
      · have mine := move.mine (by simp [draining, Withheld])
        have only : v.ledger.drainers = [t] := by
          rw [ok.drained, if_pos draining, mine]
          rfl
        simp [claimed, draining, only]
      · have nobody : v.ledger.drainers = [] := by rw [ok.drained, if_neg draining]
        simp [claimed, nobody]
  · refine .inl ?_
    show v.queued = 0
    rcases ok.inQueue with none | ⟨-, free, nobody⟩
    · exact none
    · have mine := move.mine (by simp [free, Withheld])
      cases nobody.symm.trans mine
  · intro holder mine
    rw [ledger] at mine
    by_contra released
    rw [Bool.not_eq_true] at released
    have now : Withheld new.state = false := released
    simp [now] at mine
  · intro nobody
    rw [ledger] at nobody
    refine .inr ?_
    by_contra withheld
    have now : Withheld new.state = true := by simpa [state] using withheld
    simp [now] at nobody
  · have mine := move.mine (ok.owned other theirs)
    exact (others_of_mine mine different theirs).elim
  · rw [ledger]
  · rw [ledger]

/-! ### The steps of a pin -/

theorem Ok.increment (ok : v.Ok) : Kept t v (v.incremented t kind) := by
  refine ⟨⟨fun other => ?_, ok.granted, ok.opened, ok.drained, ok.inQueue, ok.owned, ok.unowned⟩,
    fun other different => ⟨fun theirs => ⟨theirs, rfl, rfl⟩, fun another => ?_, fun _ => rfl⟩⟩
  · show Function.update v.count kind (v.count kind + 1) other =
      (Function.update v.ledger.entering kind (t :: v.ledger.entering kind) other).length +
        (v.ledger.granted other).length
    by_cases same : other = kind
    · subst same
      rw [Function.update_self, Function.update_self, ok.counted, List.length_cons]
      omega
    · rw [Function.update_of_ne same, Function.update_of_ne same]
      exact ok.counted other
  · show (Function.update v.ledger.entering kind (t :: v.ledger.entering kind) another).count other =
      (v.ledger.entering another).count other
    by_cases same : another = kind
    · subst same
      rw [Function.update_self]
      exact List.count_cons_of_ne different.symm
    · rw [Function.update_of_ne same]

theorem count_erase_update (entering : PinKind → List Tid) {other : Tid} (different : other ≠ t)
    (another : PinKind) :
    (Function.update entering kind ((entering kind).erase t) another).count other =
      (entering another).count other := by
  by_cases same : another = kind
  · subst same
    rw [Function.update_self]
    exact List.count_erase_of_ne different
  · rw [Function.update_of_ne same]

/-- The re-check grants the pin only while the segment is in service. -/
theorem Ok.grant (ok : v.Ok) (member : t ∈ v.ledger.entering kind)
    (admits : kind.admits v.metadata.state = true) : Kept t v (v.granting t kind) := by
  have served := removable_of_admits admits
  refine ⟨⟨fun other => ?_, fun other grant held => ?_, ok.opened, ok.drained, ok.inQueue, ok.owned,
    ok.unowned⟩, fun other different => ⟨fun theirs => ⟨theirs, rfl, rfl⟩,
    count_erase_update v.ledger.entering different, fun another => ?_⟩⟩
  · show v.count other =
      (Function.update v.ledger.entering kind ((v.ledger.entering kind).erase t) other).length +
        (Function.update v.ledger.granted kind (⟨t, v.generation, v.ledger.bumps, v.ledger.resets⟩ ::
          v.ledger.granted kind) other).length
    by_cases same : other = kind
    · subst same
      have one := List.length_pos_of_mem member
      rw [Function.update_self, Function.update_self, ok.counted, List.length_erase_of_mem member,
        List.length_cons]
      omega
    · rw [Function.update_of_ne same, Function.update_of_ne same]
      exact ok.counted other
  · have inside : grant ∈ Function.update v.ledger.granted kind
        (⟨t, v.generation, v.ledger.bumps, v.ledger.resets⟩ :: v.ledger.granted kind) other := held
    by_cases same : other = kind
    · subst same
      rw [Function.update_self] at inside
      rcases List.mem_cons.mp inside with rfl | before
      · exact ⟨.inl served, rfl, rfl, rfl⟩
      · exact ok.granted other grant before
    · rw [Function.update_of_ne same] at inside
      exact ok.granted other grant inside
  · show (Function.update v.ledger.granted kind (⟨t, v.generation, v.ledger.bumps,
      v.ledger.resets⟩ :: v.ledger.granted kind) another).countP (·.holder = other) = _
    by_cases same : another = kind
    · subst same
      rw [Function.update_self]
      exact List.countP_cons_of_neg (by simpa using different.symm)
    · rw [Function.update_of_ne same]

theorem Ok.backOut (ok : v.Ok) (member : t ∈ v.ledger.entering kind) :
    Kept t v (v.backedOut t kind) := by
  refine ⟨⟨fun other => ?_, ok.granted, ok.opened, ok.drained, ok.inQueue, ok.owned, ok.unowned⟩,
    fun other different => ⟨fun theirs => ⟨theirs, rfl, rfl⟩,
      count_erase_update v.ledger.entering different, fun _ => rfl⟩⟩
  show Function.update v.count kind (v.count kind - 1) other =
    (Function.update v.ledger.entering kind ((v.ledger.entering kind).erase t) other).length +
      (v.ledger.granted other).length
  by_cases same : other = kind
  · subst same
    have one := List.length_pos_of_mem member
    rw [Function.update_self, Function.update_self, ok.counted, List.length_erase_of_mem member]
    omega
  · rw [Function.update_of_ne same, Function.update_of_ne same]
    exact ok.counted other

theorem Ok.release (ok : v.Ok) (held : 0 < (v.ledger.granted kind).countP (·.holder = t)) :
    Kept t v (v.released t kind) := by
  obtain ⟨grant, member, mine⟩ := List.countP_pos_iff.mp held
  have fewer : ((v.ledger.granted kind).eraseP fun grant => grant.holder = t).length =
      (v.ledger.granted kind).length - 1 := List.length_eraseP_of_mem member mine
  refine ⟨⟨fun other => ?_, fun other grant held => ?_, ok.opened, ok.drained, ok.inQueue, ok.owned,
    ok.unowned⟩, fun other different => ⟨fun theirs => ⟨theirs, rfl, rfl⟩, fun _ => rfl,
      fun another => ?_⟩⟩
  · show Function.update v.count kind (v.count kind - 1) other =
      (v.ledger.entering other).length + (Function.update v.ledger.granted kind
        ((v.ledger.granted kind).eraseP fun grant => grant.holder = t) other).length
    by_cases same : other = kind
    · subst same
      have one := List.length_pos_of_mem member
      rw [Function.update_self, Function.update_self, ok.counted, fewer]
      omega
    · rw [Function.update_of_ne same, Function.update_of_ne same]
      exact ok.counted other
  · have inside : grant ∈ Function.update v.ledger.granted kind
        ((v.ledger.granted kind).eraseP fun grant => grant.holder = t) other := held
    by_cases same : other = kind
    · subst same
      rw [Function.update_self] at inside
      exact ok.granted other grant (List.mem_of_mem_eraseP inside)
    · rw [Function.update_of_ne same] at inside
      exact ok.granted other grant inside
  · show (Function.update v.ledger.granted kind ((v.ledger.granted kind).eraseP
      fun grant => grant.holder = t) another).countP (·.holder = other) = _
    by_cases same : another = kind
    · subst same
      rw [Function.update_self]
      refine countP_eraseP_other (fun grant theirs => ?_) _
      simp only [decide_eq_true_eq] at theirs
      simpa [theirs] using different.symm
    · rw [Function.update_of_ne same]

/-! ### The steps of owners -/

/-- A wait ends when no pin of its kind is left. -/
theorem Ok.await (ok : v.Ok) (none : v.count kind = 0) : Kept t v (v.awaited t kind) := by
  have unpinned : v.ledger.granted kind = [] := by
    have counted := ok.counted kind
    exact List.length_eq_zero_iff.mp (by omega)
  by_cases member : t ∈ v.ledger.drainers
  · have ledger : (v.awaited t kind).ledger =
        { v.ledger with waited := Function.update v.ledger.waited kind true } := if_pos member
    have draining : v.metadata.state = .draining := by
      by_contra elsewhere
      rw [ok.drained, if_neg elsewhere] at member
      cases member
    have mine : v.ledger.owner = some t := by
      rw [ok.drained, if_pos draining] at member
      exact Option.mem_toList.mp member
    have state : (v.awaited t kind).metadata.state = .draining := draining
    refine ⟨⟨fun other => ?_, fun other grant held => ?_, fun served => ?_, ?_, ?_, fun holder => ?_,
      ?_⟩, fun other different => ⟨fun theirs => ?_, fun _ => ?_, fun _ => ?_⟩⟩
    · rw [ledger]
      exact ok.counted other
    · rw [ledger] at held ⊢
      have inside : grant ∈ v.ledger.granted other := held
      have elsewhere : other ≠ kind := by
        rintro rfl
        rw [unpinned] at inside
        cases inside
      obtain ⟨served, stamped⟩ := ok.granted other grant inside
      refine ⟨?_, stamped⟩
      show v.metadata.state.isRemovable = true ∨
        v.metadata.state = .draining ∧ Function.update v.ledger.waited kind true other = false
      rw [Function.update_of_ne elsewhere]
      exact served
    · rw [state] at served
      cases served
    · rw [ledger]
      exact ok.drained
    · rw [ledger]
      exact ok.inQueue
    · rw [ledger]
      exact ok.owned holder
    · rw [ledger]
      exact ok.unowned
    · exact (others_of_mine mine different theirs).elim
    · rw [ledger]
    · rw [ledger]
  · have same : v.awaited t kind = v := by
      have ledger : v.ledger.awaited t kind = v.ledger := if_neg member
      simp only [awaited, ledger]
    rw [same]
    exact ⟨ok, fun other _ => Rely.refl other v⟩

theorem Ok.bump (ok : v.Ok) (unpinned : ∀ kind, v.ledger.granted kind = []) : Kept t v v.bumped := by
  refine ⟨⟨ok.counted, fun kind grant held => ?_, ok.opened, ok.drained, ok.inQueue, ok.owned,
    ok.unowned⟩, fun other _ => ⟨fun theirs => ⟨theirs, rfl, rfl⟩, fun _ => rfl, fun _ => rfl⟩⟩
  have inside : grant ∈ v.ledger.granted kind := held
  rw [unpinned kind] at inside
  cases inside

theorem Ok.reset (ok : v.Ok) (unpinned : ∀ kind, v.ledger.granted kind = []) :
    Kept t v v.resetting := by
  refine ⟨⟨ok.counted, fun kind grant held => ?_, ok.opened, ok.drained, ok.inQueue, ok.owned,
    ok.unowned⟩, fun other _ => ⟨fun theirs => ⟨theirs, rfl, rfl⟩, fun _ => rfl, fun _ => rfl⟩⟩
  have inside : grant ∈ v.ledger.granted kind := held
  rw [unpinned kind] at inside
  cases inside

theorem Ok.push (ok : v.Ok) (mine : v.ledger.owner = some t) (free : v.metadata.state = .free) :
    Kept t v v.pushed := by
  have once : v.queued + 1 = 1 := congrArg (· + 1) (ok.not_queued mine)
  have nobody : v.ledger.drainers = [] := by
    rw [ok.drained, if_neg (by simp [free])]
  refine ⟨⟨ok.counted, ok.granted, ok.opened, ?_, .inr ⟨once, free, rfl⟩, fun _ theirs => ?_,
    fun _ => .inl free⟩, fun other different => ⟨fun theirs => ?_, fun _ => rfl, fun _ => rfl⟩⟩
  · show v.ledger.drainers = if v.metadata.state = .draining then [] else []
    rw [nobody, ite_self]
  · cases theirs
  · exact (others_of_mine mine different theirs).elim

theorem Ok.steal (ok : v.Ok) (inside : v.queued ≠ 0) : Kept t v (v.stolen t) := by
  obtain ⟨one, free, nobody⟩ := ok.inQueue.resolve_left inside
  have none : v.queued - 1 = 0 := congrArg (· - 1) one
  have drainers : v.ledger.drainers = [] := by
    rw [ok.drained, if_neg (by simp [free])]
  refine ⟨⟨ok.counted, ok.granted, ok.opened, ?_, .inl none, fun _ _ => ?_, fun ownerless => ?_⟩,
    fun other _ => ⟨fun theirs => ?_, fun _ => rfl, fun _ => rfl⟩⟩
  · show v.ledger.drainers = if v.metadata.state = .draining then [t] else []
    rw [drainers, if_neg (by simp [free])]
  · show Withheld v.metadata.state = true
    rw [free]
    rfl
  · cases ownerless
  · cases nobody.symm.trans theirs

end SegmentView

end CacheRs.Segments.Drains
