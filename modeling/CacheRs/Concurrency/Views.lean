/-
**Protocols over independent views.**

Often the shared state splits into parts that each step changes one of: the cells of an array, the
segments of a heap. `Views` describes one part by its view, with an invariant of a single view and
what a thread relies on of it; `Views.protocol` is the rely–guarantee protocol they make up. What a
thread knows of each part (`Known`) is carried through a program by one rule per kind of step:

* `Views.Touches`: a step that changes one view; `Views.Touches.kept`: what it has to show;
* `Views.wp_quiet`, `Views.neutral_quiet`: steps that change no view;
* `Views.wp_access`, `Views.wp_seen`: a step that touches one view, and what its thread knows
  afterwards;
* `Views.Assertion`: something known of a view that the other threads' steps preserve;
* `Views.Knows.neutral`: a neutral program leaves a thread what it knows.
-/

import CacheRs.Concurrency.RelyGuarantee

namespace Concurrency

/-- A family of views of the world, with the invariant of one view and what a thread relies on. -/
structure Views (Tid σ Λ γ ι ν : Type) where
  record : Tid → Λ → σ → γ → γ
  view : World σ γ → ι → ν
  Ok : ν → Prop
  Rely : Tid → ν → ν → Prop
  rely_refl : ∀ t v, Rely t v v
  rely_trans : ∀ t first second third, Rely t first second → Rely t second third → Rely t first third

namespace Views

variable {Tid σ Λ γ ι ν κ α : Type}

/-- The views after a step that changes one of them. -/
def Touches (view : World σ γ → ι → ν) (world after : World σ γ) (i : ι) (changed : ν) : Prop :=
  view after i = changed ∧ ∀ j, j ≠ i → view after j = view world j

/-- A change of one view by `t` that keeps its invariant and what the other threads rely on. -/
def Kept (Ok : ν → Prop) (Rely : Tid → ν → ν → Prop) (t : Tid) (v after : ν) : Prop :=
  Ok after ∧ ∀ other, other ≠ t → Rely other v after

variable (V : Views Tid σ Λ γ ι ν)

/-- The protocol the views make up, under no condition on the steps. -/
def protocol : Protocol Tid σ Λ γ where
  record := V.record
  allowed _ _ _ := True
  inv world := ∀ i, V.Ok (V.view world i)
  rely t world after := ∀ i, V.Rely t (V.view world i) (V.view after i)
  rely_refl t world i := V.rely_refl t (V.view world i)
  rely_trans t _ _ _ first second i := V.rely_trans t _ _ _ (first i) (second i)

variable {V} {t : Tid} {world after : World σ γ} {i : ι}

/-- A step that touches one view keeps the protocol if that view is kept. -/
theorem Touches.kept {changed : ν} (touches : Touches V.view world after i changed)
    (holds : V.protocol.inv world) (kept : Kept V.Ok V.Rely t (V.view world i) changed) :
    V.protocol.inv after ∧ V.protocol.Guarantee t world after := by
  obtain ⟨here, elsewhere⟩ := touches
  refine ⟨fun j => ?_, fun other different j => ?_⟩
  · by_cases same : j = i
    · subst same
      exact here ▸ kept.1
    · exact elsewhere j same ▸ holds j
  · by_cases same : j = i
    · subst same
      exact here ▸ kept.2 other different
    · exact elsewhere j same ▸ V.rely_refl other _

/-- A step that changes no view keeps the protocol. -/
theorem kept_of_same (holds : V.protocol.inv world)
    (same : ∀ i, V.view after i = V.view world i) :
    V.protocol.inv after ∧ V.protocol.Guarantee t world after := by
  refine ⟨fun i => same i ▸ holds i, fun other _ i => ?_⟩
  rw [same i]
  exact V.rely_refl other _

/-- A step that changes one view in a way `t` tolerates leaves `t` where it was. -/
theorem Touches.rely {changed : ν} (touches : Touches V.view world after i changed)
    (tolerated : V.Rely t (V.view world i) changed) : V.protocol.rely t world after := by
  intro j
  by_cases same : j = i
  · subst same
    exact touches.1 ▸ tolerated
  · rw [touches.2 j same]
    exact V.rely_refl t _

theorem rely_of_same (same : ∀ i, V.view after i = V.view world i) :
    V.protocol.rely t world after := by
  intro i
  rw [same i]
  exact V.rely_refl t _

section Quiet

variable {label : Λ} {enabled : σ → Bool} {action : σ → α × σ}

/-- A step that the history does not enter and that changes no view. -/
theorem wp_quiet {post : α → World σ γ → Prop}
    (unseen : ∀ t state history, V.record t label state history = history)
    (same : ∀ now : World σ γ, ∀ i, V.view ⟨(action now.shared).2, now.history⟩ i = V.view now i)
    (next : ∀ now, V.protocol.rely t world now → V.protocol.inv now → enabled now.shared = true →
      post (action now.shared).1 ⟨(action now.shared).2, now.history⟩) :
    V.protocol.wp t (Program.whenEnabled label enabled action) post world := by
  refine Protocol.wp_whenEnabled fun now moved holds _ able => ?_
  have stays : now.after V.protocol.record t label (fun state => (action state).2) =
      ⟨(action now.shared).2, now.history⟩ := by
    ext1
    · rfl
    · exact unseen t now.shared now.history
  obtain ⟨kept, guaranteed⟩ := kept_of_same (V := V) (t := t) holds (same now)
  rw [stays]
  exact ⟨kept, guaranteed, next now moved holds able⟩

theorem neutral_quiet (unseen : ∀ t state history, V.record t label state history = history)
    (same : ∀ now : World σ γ, ∀ i, V.view ⟨(action now.shared).2, now.history⟩ i = V.view now i) :
    V.protocol.Neutral t (Program.whenEnabled label enabled action) := by
  intro world _
  refine wp_quiet unseen same fun now moved _ _ => ?_
  exact V.protocol.rely_trans t _ _ _ moved (rely_of_same (same now))

end Quiet

/-! ### What a thread knows of each part -/

section Known

variable (V) in
/-- What thread `t` knows of each part holds of its view. -/
def Knows (Known : κ → ν → Prop) (known : ι → κ) (world : World σ γ) : Prop :=
  ∀ i, Known (known i) (V.view world i)

variable (V) in
/-- What can be known of a view whatever the other threads do. -/
structure Assertion (t : Tid) where
  holds : ν → Prop
  stable : ∀ v after, holds v → V.Rely t v after → holds after

variable {Known : κ → ν → Prop} {known : ι → κ}

theorem Knows.rely (stable : ∀ k v after, Known k v → V.Rely t v after → Known k after)
    (knows : V.Knows Known known world) (moved : V.protocol.rely t world after) :
    V.Knows Known known after :=
  fun i => stable _ _ _ (knows i) (moved i)

variable [DecidableEq ι]

theorem Touches.knows {changed : ν} {new : κ} (touches : Touches V.view world after i changed)
    (knows : V.Knows Known known world) (here : Known new changed) :
    V.Knows Known (Function.update known i new) after := by
  intro j
  by_cases same : j = i
  · subst same
    rw [Function.update_self, touches.1]
    exact here
  · rw [Function.update_of_ne same, touches.2 j same]
    exact knows j

/-- A step that changes one view in a way that depends on the whole world, as does what its thread
knows afterwards. -/
theorem wp_seen {label : Λ} {enabled : σ → Bool} {action : σ → α × σ} (changed : World σ γ → ν)
    (new : World σ γ → κ) {post : α → World σ γ → Prop}
    (stable : ∀ k v after, Known k v → V.Rely t v after → Known k after)
    (knows : V.Knows Known known world)
    (touches : ∀ now : World σ γ, Touches V.view now
      (now.after V.record t label fun state => (action state).2) i (changed now))
    (step : ∀ now : World σ γ, enabled now.shared = true → V.protocol.inv now →
      V.Knows Known known now →
      Kept V.Ok V.Rely t (V.view now i) (changed now) ∧ Known (new now) (changed now))
    (next : ∀ now after : World σ γ, V.protocol.inv after →
      V.Knows Known (Function.update known i (new now)) after → post (action now.shared).1 after) :
    V.protocol.wp t (Program.whenEnabled label enabled action) post world := by
  refine Protocol.wp_whenEnabled fun now moved holds _ able => ?_
  have knowsNow := knows.rely stable moved
  obtain ⟨kept, gained⟩ := step now able holds knowsNow
  obtain ⟨keptAfter, guaranteed⟩ := (touches now).kept holds kept
  exact ⟨keptAfter, guaranteed, next now _ keptAfter ((touches now).knows knowsNow gained)⟩

/-- A step that touches one view. -/
theorem wp_access {label : Λ} {enabled : σ → Bool} {action : σ → α × σ} {change : ν → ν} (new : κ)
    {post : α → World σ γ → Prop}
    (stable : ∀ k v after, Known k v → V.Rely t v after → Known k after)
    (knows : V.Knows Known known world)
    (touches : ∀ now : World σ γ, Touches V.view now
      (now.after V.record t label fun state => (action state).2) i (change (V.view now i)))
    (step : ∀ now : World σ γ, enabled now.shared = true → V.Ok (V.view now i) →
      Known (known i) (V.view now i) →
      Kept V.Ok V.Rely t (V.view now i) (change (V.view now i)) ∧ Known new (change (V.view now i)))
    (next : ∀ now after : World σ γ, V.protocol.inv after →
      V.Knows Known (Function.update known i new) after → post (action now.shared).1 after) :
    V.protocol.wp t (Program.whenEnabled label enabled action) post world :=
  wp_seen (fun now => change (V.view now i)) (fun _ => new) stable knows touches
    (fun now able holds knowsNow => step now able (holds i) (knowsNow i)) next

omit [DecidableEq ι] in
/-- A neutral program leaves a thread what it knows. -/
theorem Knows.neutral {program : Program σ Λ α}
    (stable : ∀ k v after, Known k v → V.Rely t v after → Known k after)
    (neutral : V.protocol.Neutral t program) (holds : V.protocol.inv world)
    (knows : V.Knows Known known world) :
    V.protocol.wp t program (fun _ => V.Knows Known known) world :=
  neutral.wp holds fun _ _ moved _ => knows.rely stable moved

end Known

end Views

end Concurrency
