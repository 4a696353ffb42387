/-
**Ranges laid end to end.**

A range is its start and its size. Ranges are laid from a first position on, each where the one before
it ends.

* `Spanned`, `Spanned.append`: ranges from one position to another, and one more of them;
* `Spanned.bounds`, `Spanned.ordered`, `Spanned.disjoint`: no range leaves the whole or meets another;
* `Spanned.covers`: **no position is left out**.
-/

import Mathlib

namespace Spans

variable {α : Type} [AddCommMonoid α] [LinearOrder α] [IsOrderedAddMonoid α]

/-- Ranges `(start, size)` laid end to end from `first` to `last`. -/
def Spanned : α → List (α × α) → α → Prop
  | first, [], last => first = last
  | first, span :: rest, last => span.1 = first ∧ Spanned (first + span.2) rest last

/-- The positions of a range. -/
def positions (span : α × α) : Set α := Set.Ico span.1 (span.1 + span.2)

variable {first last : α} {spans : List (α × α)}

omit [LinearOrder α] [IsOrderedAddMonoid α] in
theorem Spanned.append (spanned : Spanned first spans last) (size : α) :
    Spanned first (spans ++ [(last, size)]) (last + size) := by
  induction spans generalizing first with
  | nil =>
    obtain rfl : first = last := spanned
    exact ⟨rfl, rfl⟩
  | cons span rest ih => exact ⟨spanned.1, ih spanned.2⟩

theorem Spanned.first_le (spanned : Spanned first spans last)
    (nonneg : ∀ span ∈ spans, 0 ≤ span.2) : first ≤ last := by
  induction spans generalizing first with
  | nil => exact le_of_eq spanned
  | cons span rest ih =>
    have forward : first ≤ first + span.2 :=
      le_add_of_nonneg_right (nonneg span (List.mem_cons_self ..))
    exact forward.trans (ih spanned.2 fun later inside => nonneg later (List.mem_cons_of_mem _ inside))

/-- Every range lies inside. -/
theorem Spanned.bounds (spanned : Spanned first spans last) (nonneg : ∀ span ∈ spans, 0 ≤ span.2)
    {span : α × α} (inside : span ∈ spans) : first ≤ span.1 ∧ span.1 + span.2 ≤ last := by
  induction spans generalizing first with
  | nil => cases inside
  | cons head rest ih =>
    obtain ⟨rfl, later⟩ := spanned
    have nonnegRest : ∀ span ∈ rest, 0 ≤ span.2 := fun span member =>
      nonneg span (List.mem_cons_of_mem _ member)
    rcases List.mem_cons.mp inside with rfl | member
    · exact ⟨le_rfl, later.first_le nonnegRest⟩
    · obtain ⟨above, below⟩ := ih later nonnegRest member
      have forward : head.1 ≤ head.1 + head.2 :=
        le_add_of_nonneg_right (nonneg head (List.mem_cons_self ..))
      exact ⟨forward.trans above, below⟩

/-- A range ends where a later one starts, or before. -/
theorem Spanned.ordered (spanned : Spanned first spans last)
    (nonneg : ∀ span ∈ spans, 0 ≤ span.2) :
    spans.Pairwise fun one two => one.1 + one.2 ≤ two.1 := by
  induction spans generalizing first with
  | nil => exact .nil
  | cons head rest ih =>
    obtain ⟨rfl, later⟩ := spanned
    have nonnegRest : ∀ span ∈ rest, 0 ≤ span.2 := fun span member =>
      nonneg span (List.mem_cons_of_mem _ member)
    exact .cons (fun span member => (later.bounds nonnegRest member).1) (ih later nonnegRest)

/-- **Two ranges do not meet.** -/
theorem Spanned.disjoint (spanned : Spanned first spans last)
    (nonneg : ∀ span ∈ spans, 0 ≤ span.2) :
    spans.Pairwise fun one two => Disjoint (positions one) (positions two) := by
  refine (spanned.ordered nonneg).imp fun apart => ?_
  rw [Set.disjoint_left]
  intro position inOne inTwo
  exact absurd (inOne.2.trans_le apart) (not_lt.mpr inTwo.1)

/-- **No position is left out.** -/
theorem Spanned.covers (spanned : Spanned first spans last)
    (nonneg : ∀ span ∈ spans, 0 ≤ span.2) :
    ⋃ span ∈ spans, positions span = Set.Ico first last := by
  induction spans generalizing first with
  | nil =>
    obtain rfl : first = last := spanned
    simp
  | cons head rest ih =>
    obtain ⟨rfl, later⟩ := spanned
    have nonnegRest : ∀ span ∈ rest, 0 ≤ span.2 := fun span member =>
      nonneg span (List.mem_cons_of_mem _ member)
    have forward : head.1 ≤ head.1 + head.2 :=
      le_add_of_nonneg_right (nonneg head (List.mem_cons_self ..))
    have split : ⋃ span ∈ head :: rest, positions span
        = positions head ∪ ⋃ span ∈ rest, positions span := by
      ext position
      simp
    rw [split, ih later nonnegRest]
    exact Set.Ico_union_Ico_eq_Ico forward (later.first_le nonnegRest)

end Spans
