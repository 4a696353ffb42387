/-
**Walks along a link.**

* `Walks`: the cells that one link leads through, from a first one to the end;
* `Walks.unique`: there is one walk;
* `Strung.walks`, `Strung.walks_back`: a strung list is walked in both directions.
-/

import CacheRs.Lists.Strung

set_option linter.unusedSectionVars false

namespace DoublyLinked

variable {ι : Type} [DecidableEq ι] {next prev link : ι → Option ι} {first : Option ι}
  {l other : List ι}

/-- Following the link from a first cell to the end leads through these. -/
def Walks (link : ι → Option ι) : Option ι → List ι → Prop
  | first, [] => first = none
  | first, a :: rest => first = some a ∧ Walks link (link a) rest

theorem Walks.head (walks : Walks link first l) : first = l.head? := by
  cases l with
  | nil => exact walks
  | cons a rest => exact walks.1

/-- There is one walk. -/
theorem Walks.unique (one : Walks link first l) (two : Walks link first other) : l = other := by
  induction l generalizing first other with
  | nil =>
    cases other with
    | nil => rfl
    | cons b rest => cases (show first = none from one).symm.trans two.1
  | cons a l ih =>
    cases other with
    | nil => cases one.1.symm.trans (show first = none from two)
    | cons b rest =>
      cases one.1.symm.trans two.1
      rw [ih one.2 two.2]

/-- A strung list is walked along its next links. -/
theorem Strung.walks {before : Option ι} (strung : Strung next prev before l none) :
    Walks next l.head? l := by
  induction l generalizing before with
  | nil => rfl
  | cons a l ih =>
    obtain ⟨-, forth, rest⟩ := strung
    rw [Option.or_none] at forth
    exact ⟨rfl, forth ▸ ih rest⟩

/-- A strung list is walked back along its previous links. -/
theorem Strung.walks_back {after : Option ι} (strung : Strung next prev none l after) :
    Walks prev l.getLast? l.reverse := by
  induction l using List.reverseRecOn generalizing after with
  | nil => rfl
  | append_singleton l a ih =>
    obtain ⟨front, back, -, -⟩ := strung_append.mp strung
    rw [Option.or_none] at back
    rw [List.getLast?_append_of_ne_nil _ (by simp), List.reverse_append]
    exact ⟨rfl, back ▸ ih front⟩

end DoublyLinked
