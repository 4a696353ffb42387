/-
**Relations between the ends of a run.**

A procedure may relate the first state of each of its runs to the last. Where the relation is reflexive
and transitive, its rules follow the procedure's text, and no state on the way needs to be known.

* `Relates`: every run is related from end to end;
* `Relates.change`, `Relates.exchange`: one step of the state;
* `Relates.bind`, `Relates.ite`: sequences and branches.
-/

import CacheRs.Sequential.Procedure

namespace Sequential.Procedure

variable {σ α β : Type} {relation weaker : σ → σ → Prop}

/-- Every run of the procedure relates its first state to its last. -/
structure Relates (relation : σ → σ → Prop) (procedure : Procedure σ α) : Prop where
  ensures : ∀ state, Ensures procedure (fun _ after => relation state after) state

theorem Relates.mono {procedure : Procedure σ α} (relates : Relates relation procedure)
    (implied : ∀ state after, relation state after → weaker state after) : Relates weaker procedure :=
  ⟨fun state => (relates.ensures state).mono fun _ after => implied state after⟩

theorem Relates.change {update : σ → σ} (each : ∀ state, relation state (update state)) :
    Relates relation (Procedure.change update) :=
  ⟨fun state => (ensures_change update).mpr (each state)⟩

theorem Relates.exchange {action : σ → α × σ} (each : ∀ state, relation state (action state).2) :
    Relates relation (Procedure.exchange action) :=
  ⟨fun state => (ensures_exchange action).mpr (each state)⟩

theorem Relates.diverge : Relates relation (Procedure.diverge : Procedure σ α) :=
  ⟨fun _ => ensures_diverge.mpr trivial⟩

theorem Relates.ite {condition : Prop} [Decidable condition] {yes no : Procedure σ α}
    (left : Relates relation yes) (right : Relates relation no) :
    Relates relation (if condition then yes else no) :=
  ⟨fun state => Ensures.ite (fun _ => left.ensures state) fun _ => right.ensures state⟩

section Reflexive

variable [Std.Refl relation]

theorem Relates.pure (value : α) : Relates relation (Pure.pure value : Procedure σ α) :=
  ⟨fun state => (ensures_pure value).mpr (refl_of relation state)⟩

theorem Relates.read (field : σ → α) : Relates relation (Procedure.read field) :=
  ⟨fun state => (ensures_read field).mpr (refl_of relation state)⟩

theorem Relates.assertThat (condition : Bool) : Relates relation (Procedure.assertThat condition) :=
  ⟨fun state => (ensures_assertThat condition).mpr fun _ => refl_of relation state⟩

end Reflexive

theorem Relates.bind [IsTrans σ relation] {procedure : Procedure σ α} {rest : α → Procedure σ β}
    (first : Relates relation procedure) (second : ∀ value, Relates relation (rest value)) :
    Relates relation (procedure >>= rest) := by
  refine ⟨fun state => Ensures.seq (first.ensures state) fun value middle between => ?_⟩
  exact ((second value).ensures middle).mono fun _ after later => trans_of relation between later

end Sequential.Procedure
