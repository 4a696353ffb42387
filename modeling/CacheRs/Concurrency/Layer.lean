/-
**A layer of invariants over a protocol.**

A finished protocol is often asked for one more property: that a counter the protocol does not
mention agrees with what the threads do. A layer keeps a history of its own beside the protocol's,
read off finer labels, with an invariant and a rely of its own. Programs whose steps do not concern
the layer are carried over with the proofs they have:

* `Program.relabel`: a program under other labels;
* `Program.Along`: what every step of a program does to the shared state;
* `Layer.protocol`: the protocol with the layer on top;
* `Layer.wp_step`: one step, by its proof below and what it does to the layer;
* `Layer.wp_lift`: **a program whose steps leave the layer alone keeps its proof.**
-/

import CacheRs.Concurrency.RelyGuarantee

namespace Concurrency

variable {Tid σ Λ Λ' γ γ' α β δ : Type}

namespace Program

/-- The same program, its steps labelled otherwise. -/
def relabel (rename : Λ → Λ') : {α : Type} → Program σ Λ α → Program σ Λ' α
  | _, .ret value => .ret value
  | _, .step label enabled update next =>
    .step (rename label) enabled update fun seen => (next seen).relabel rename
  | _, .loop body start next =>
    .loop (fun again => (body again).relabel rename) start fun result => (next result).relabel rename

variable {rename : Λ → Λ'}

@[simp] theorem relabel_bind (program : Program σ Λ α) (rest : α → Program σ Λ β) :
    (program.bind rest).relabel rename =
      (program.relabel rename).bind fun value => (rest value).relabel rename := by
  induction program with
  | ret value => rfl
  | step label enabled update next ih =>
    simp only [bind, relabel, ih]
  | loop body start next _ ih =>
    simp only [bind, relabel, ih]

theorem relabel_ite {condition : Prop} [Decidable condition] (yes no : Program σ Λ α) :
    (if condition then yes else no).relabel rename =
      if condition then yes.relabel rename else no.relabel rename := by
  split <;> rfl

/-! ### What the steps of a program do -/

/-- Every step is a `Step`, wherever it is taken. -/
def Along (Step : Λ → σ → σ → Prop) : {α : Type} → Program σ Λ α → Prop
  | _, .ret _ => True
  | _, .step label enabled update next => ∀ seen, enabled seen = true →
    Step label seen (update seen) ∧ Along Step (next seen)
  | _, .loop body _ next => (∀ again, Along Step (body again)) ∧ ∀ result, Along Step (next result)

section Along

variable {Step : Λ → σ → σ → Prop}

theorem Along.ret (value : α) : (Program.ret value : Program σ Λ α).Along Step := trivial

theorem Along.bind {program : Program σ Λ α} {rest : α → Program σ Λ β}
    (first : program.Along Step) (second : ∀ value, (rest value).Along Step) :
    (program.bind rest).Along Step := by
  induction program with
  | ret value => exact second value
  | step label enabled update next ih =>
    intro seen able
    obtain ⟨here, later⟩ := first seen able
    exact ⟨here, ih seen later second⟩
  | loop body start next _ ih => exact ⟨first.1, fun result => ih result (first.2 result) second⟩

theorem Along.ite {condition : Prop} [Decidable condition] {yes no : Program σ Λ α}
    (left : condition → yes.Along Step) (right : ¬ condition → no.Along Step) :
    (if condition then yes else no).Along Step := by
  split
  · exact left ‹_›
  · exact right ‹_›

theorem Along.whenEnabled {label : Λ} {enabled : σ → Bool} {action : σ → α × σ}
    (step : ∀ seen, enabled seen = true → Step label seen (action seen).2) :
    (Program.whenEnabled label enabled action).Along Step :=
  fun seen able => ⟨step seen able, trivial⟩

theorem Along.atomically {label : Λ} {action : σ → α × σ}
    (step : ∀ seen, Step label seen (action seen).2) :
    (Program.atomically label action).Along Step := fun seen _ => ⟨step seen, trivial⟩

theorem Along.and {Other : Λ → σ → σ → Prop} {program : Program σ Λ α}
    (first : program.Along Step) (second : program.Along Other) :
    program.Along fun label state after => Step label state after ∧ Other label state after := by
  induction program with
  | ret value => trivial
  | step label enabled update next ih =>
    intro seen able
    obtain ⟨here, later⟩ := first seen able
    obtain ⟨also, rest⟩ := second seen able
    exact ⟨⟨here, also⟩, ih seen later rest⟩
  | loop body start next bodyIh nextIh =>
    exact ⟨fun again => bodyIh again (first.1 again) (second.1 again),
      fun result => nextIh result (first.2 result) (second.2 result)⟩

theorem Along.repeatUntil {body : β → Program σ Λ (β ⊕ δ)} {start : β}
    (round : ∀ again, (body again).Along Step) : (Program.repeatUntil body start).Along Step :=
  ⟨round, fun _ => trivial⟩

end Along

end Program

theorem Protocol.Stable.and {P : Protocol Tid σ Λ γ} {t : Tid} {first second : World σ γ → Prop}
    (one : P.Stable t first) (other : P.Stable t second) :
    P.Stable t fun world => first world ∧ second world :=
  fun world after both moved holds =>
    ⟨one world after both.1 moved holds, other world after both.2 moved holds⟩

/-! ### Layers -/

/-- The world without the layer's history. -/
def World.base (world : World σ (γ × γ')) : World σ γ := ⟨world.shared, world.history.1⟩

/-- A history, an invariant and a rely over a protocol's. -/
structure Layer (P : Protocol Tid σ Λ γ) (Λ' γ' : Type) where
  /-- What a label is to the protocol. -/
  erase : Λ' → Λ
  record : Tid → Λ' → σ → γ' → γ'
  inv : World σ (γ × γ') → Prop
  rely : Tid → World σ (γ × γ') → World σ (γ × γ') → Prop
  rely_refl : ∀ t world, rely t world world
  rely_trans : ∀ t first second third, P.rely t first.base second.base →
    rely t first second → rely t second third → rely t first third

namespace Layer

variable {P : Protocol Tid σ Λ γ} (L : Layer P Λ' γ')

/-- The protocol with the layer on top. -/
def protocol : Protocol Tid σ Λ' (γ × γ') where
  record t label state history :=
    (P.record t (L.erase label) state history.1, L.record t label state history.2)
  allowed t label world := P.allowed t (L.erase label) world.base
  inv world := P.inv world.base ∧ L.inv world
  rely t world after := P.rely t world.base after.base ∧ L.rely t world after
  rely_refl t _ := ⟨P.rely_refl t _, L.rely_refl t _⟩
  rely_trans t first second third before later :=
    ⟨P.rely_trans t _ _ _ before.1 later.1,
      L.rely_trans t first second third before.1 before.2 later.2⟩

variable {L} {t : Tid}

/-- A step of `t` keeps the layer: its invariant, what the other threads rely on, and `fact`. -/
def Kept (L : Layer P Λ' γ') (t : Tid) (now after : World σ (γ × γ'))
    (fact : World σ (γ × γ') → Prop) : Prop :=
  L.inv after ∧ (∀ other, other ≠ t → L.rely other now after) ∧ fact after

/-- What a step may suppose of the world it runs in and the one it leaves, by its proof below. -/
structure Runs (L : Layer P Λ' γ') (t : Tid) (now after : World σ (γ × γ')) : Prop where
  base : P.inv now.base
  layer : L.inv now
  kept : P.inv after.base
  guaranteed : P.Guarantee t now.base after.base

/-- A step that changes nothing keeps the layer. -/
theorem Kept.same {now after : World σ (γ × γ')} {fact : World σ (γ × γ') → Prop}
    (unchanged : after = now) (holds : L.inv now) (known : fact now) : L.Kept t now after fact := by
  subst unchanged
  exact ⟨holds, fun other _ => L.rely_refl other _, known⟩

/-- One step: its proof below, and what it does to the layer. -/
theorem wp_step {label : Λ'} {enabled : σ → Bool} {action : σ → α × σ}
    {post : α → World σ γ → Prop} {fact : World σ (γ × γ') → Prop}
    {after : α → World σ (γ × γ') → Prop} {world : World σ (γ × γ')}
    (below : P.wp t (.whenEnabled (L.erase label) enabled action) post world.base)
    (stable : L.protocol.Stable t fact) (known : fact world)
    (step : ∀ now, enabled now.shared = true → fact now →
      L.Runs t now (now.after L.protocol.record t label fun state => (action state).2) →
      L.Kept t now (now.after L.protocol.record t label fun state => (action state).2)
        (after (action now.shared).1)) :
    L.protocol.wp t (.whenEnabled label enabled action)
      (fun value later => post value later.base ∧ after value later) world := by
  refine Protocol.wp_whenEnabled fun now moved holds allowed able => ?_
  obtain ⟨kept, guaranteed, posted⟩ := below now.base moved.1 holds.1 allowed able
  obtain ⟨layer, others, gained⟩ := step now able (stable world now known moved holds)
    ⟨holds.1, holds.2, kept, guaranteed⟩
  exact ⟨⟨kept, layer⟩, fun other different => ⟨guaranteed other different, others other different⟩,
    posted, gained⟩

/-- **A program whose steps leave the layer alone keeps its proof.** -/
theorem wp_lift {lift : Λ → Λ'} (erases : ∀ label, L.erase (lift label) = label)
    {Step : Λ → σ → σ → Prop} {fact : World σ (γ × γ') → Prop} (stable : L.protocol.Stable t fact)
    (step : ∀ label update now, Step label now.shared (update now.shared) → fact now →
      L.Runs t now (now.after L.protocol.record t (lift label) update) →
      L.Kept t now (now.after L.protocol.record t (lift label) update) fact)
    {program : Program σ Λ α} {post : α → World σ γ → Prop} {world : World σ (γ × γ')}
    (holds : L.protocol.inv world) (below : P.wp t program post world.base)
    (along : program.Along Step) (known : fact world) :
    L.protocol.wp t (program.relabel lift) (fun value after => post value after.base ∧ fact after)
      world := by
  induction program generalizing world with
  | ret value => exact ⟨below, known⟩
  | step label enabled update next ih =>
    intro now moved holdsNow allowed able
    have factNow := stable world now known moved holdsNow
    have allowedBelow : P.allowed t label now.base := erases label ▸ allowed
    obtain ⟨kept, guaranteed, rest⟩ := below now.base moved.1 holdsNow.1 allowedBelow able
    have base : (now.after L.protocol.record t (lift label) update).base =
        now.base.after P.record t label update := by
      show (⟨_, P.record t (L.erase (lift label)) _ _⟩ : World σ γ) = _
      rw [erases label]
      rfl
    rw [← base] at kept guaranteed rest
    obtain ⟨here, later⟩ := along now.shared able
    obtain ⟨layer, others, gained⟩ := step label update now here factNow
      ⟨holdsNow.1, holdsNow.2, kept, guaranteed⟩
    exact ⟨⟨kept, layer⟩,
      fun other different => ⟨guaranteed other different, others other different⟩,
      ih now.shared ⟨kept, layer⟩ rest later gained⟩
  | loop body start next bodyIh nextIh =>
    obtain ⟨inside, stableInside, begun, round⟩ := below
    refine ⟨fun again now => inside again now.base ∧ fact now, fun again now after before moved
      holdsAfter => ?_, ⟨begun, known⟩, fun again now holdsNow before => ?_⟩
    · exact ⟨stableInside again now.base after.base before.1 moved.1 holdsAfter.1,
        stable now after before.2 moved holdsAfter⟩
    · refine Protocol.wp_mono holdsNow (bodyIh again holdsNow (round again now.base holdsNow.1
        before.1) (along.1 again) before.2) fun result after holdsAfter outcome => ?_
      cases result with
      | inl more => exact outcome
      | inr value => exact nextIh value holdsAfter outcome.1 (along.2 value) outcome.2

end Layer

end Concurrency
