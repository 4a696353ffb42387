/-
**Doubly linked lists.**

A list of cells is strung when the links of each member name its neighbours. The usual surgery on
the links is surgery on the list.

* `Strung`: the members' links, between two given neighbours; `strung_append`: a list in two parts;
* `Strung.remove`, `Strung.insert`, `Strung.append_one`: the list operations;
* `Strung.member`: the neighbours of a member.
-/

import Mathlib

set_option linter.unusedSectionVars false

namespace DoublyLinked

variable {ι : Type} [DecidableEq ι]

/-- The members' links name their neighbours; `before` and `after` are those of the whole list. -/
def Strung (next prev : ι → Option ι) : Option ι → List ι → Option ι → Prop
  | _, [], _ => True
  | before, a :: rest, after =>
    prev a = before ∧ next a = rest.head?.or after ∧ Strung next prev (some a) rest after

variable {next prev next' prev' : ι → Option ι} {before after before' after' : Option ι}
  {l front back : List ι} {a b : ι}

theorem strung_append : Strung next prev before (front ++ back) after ↔
    Strung next prev before front (back.head?.or after) ∧
      Strung next prev (front.getLast?.or before) back after := by
  induction front generalizing before with
  | nil => simp [Strung]
  | cons a front ih =>
    have first : (front ++ back).head?.or after = front.head?.or (back.head?.or after) := by
      cases front <;> simp
    have last : (a :: front).getLast?.or before = front.getLast?.or (some a) := by
      cases front <;> simp [List.getLast?_cons]
    rw [List.cons_append, Strung, Strung, ih, first, last, and_assoc, and_assoc]

/-- The links of the members decide. -/
theorem Strung.congr (strung : Strung next prev before l after)
    (nexts : ∀ i ∈ l, next' i = next i) (prevs : ∀ i ∈ l, prev' i = prev i) :
    Strung next' prev' before l after := by
  induction l generalizing before with
  | nil => trivial
  | cons a l ih =>
    obtain ⟨back, forth, rest⟩ := strung
    refine ⟨(prevs a (List.mem_cons_self ..)).trans back, (nexts a (List.mem_cons_self ..)).trans forth,
      ih rest (fun i inside => nexts i (List.mem_cons_of_mem _ inside))
        fun i inside => prevs i (List.mem_cons_of_mem _ inside)⟩

/-- Patching the last member's next link changes what follows the list. -/
theorem Strung.setAfter (strung : Strung next prev before l after) (unique : l.Nodup)
    (nexts : ∀ i ∈ l, next' i = if l.getLast? = some i then after' else next i)
    (prevs : ∀ i ∈ l, prev' i = prev i) : Strung next' prev' before l after' := by
  induction l generalizing before with
  | nil => trivial
  | cons a l ih =>
    obtain ⟨back, forth, rest⟩ := strung
    rw [List.nodup_cons] at unique
    have later : Strung next' prev' (some a) l after' := by
      refine ih rest unique.2 (fun i inside => ?_) fun i inside => prevs i (List.mem_cons_of_mem _ inside)
      rw [nexts i (List.mem_cons_of_mem _ inside)]
      cases l with
      | nil => cases inside
      | cons b l => rw [List.getLast?_cons_cons]
    refine ⟨(prevs a (List.mem_cons_self ..)).trans back, ?_, later⟩
    rw [nexts a (List.mem_cons_self ..)]
    cases l with
    | nil => simp
    | cons b l =>
      have elsewhere : (a :: b :: l).getLast? ≠ some a := fun last => by
        rw [List.getLast?_cons_cons] at last
        exact unique.1 (List.mem_of_getLast? last)
      rw [if_neg elsewhere, forth]
      rfl

/-- Patching the first member's previous link changes what precedes the list. -/
theorem Strung.setBefore (strung : Strung next prev before l after) (unique : l.Nodup)
    (nexts : ∀ i ∈ l, next' i = next i)
    (prevs : ∀ i ∈ l, prev' i = if l.head? = some i then before' else prev i) :
    Strung next' prev' before' l after := by
  cases l with
  | nil => trivial
  | cons a l =>
    obtain ⟨back, forth, rest⟩ := strung
    rw [List.nodup_cons] at unique
    refine ⟨?_, (nexts a (List.mem_cons_self ..)).trans forth,
      rest.congr (fun i inside => nexts i (List.mem_cons_of_mem _ inside)) fun i inside => ?_⟩
    · rw [prevs a (List.mem_cons_self ..), List.head?_cons, if_pos rfl]
    · rw [prevs i (List.mem_cons_of_mem _ inside), if_neg]
      rw [List.head?_cons]
      exact fun same => unique.1 (Option.some.inj same ▸ inside)

/-- The neighbours of a member. -/
theorem Strung.member (strung : Strung next prev before (front ++ a :: back) after) :
    prev a = front.getLast?.or before ∧ next a = back.head?.or after := by
  have here := (strung_append.mp strung).2
  exact ⟨here.1, here.2.1⟩

theorem nodup_middle (unique : (front ++ a :: back).Nodup) :
    front.Nodup ∧ back.Nodup ∧ a ∉ front ∧ a ∉ back ∧ ∀ i, i ∈ front → i ∉ back := by
  rw [List.nodup_append] at unique
  obtain ⟨left, right, apart⟩ := unique
  rw [List.nodup_cons] at right
  exact ⟨left, right.2, fun inside => apart a inside a (List.mem_cons_self ..) rfl, right.1,
    fun i inFront inBack => apart i inFront i (List.mem_cons_of_mem _ inBack) rfl⟩

/-- **Taking a member out**: its neighbours are patched past it. -/
theorem Strung.remove (strung : Strung next prev none (front ++ a :: back) none)
    (unique : (front ++ a :: back).Nodup)
    (nexts : ∀ i ∈ front ++ back, next' i = if front.getLast? = some i then back.head? else next i)
    (prevs : ∀ i ∈ front ++ back, prev' i = if back.head? = some i then front.getLast? else prev i) :
    Strung next' prev' none (front ++ back) none := by
  obtain ⟨uniqueFront, uniqueBack, -, -, apart⟩ := nodup_middle unique
  obtain ⟨left, here⟩ := strung_append.mp strung
  rw [strung_append, Option.or_none, Option.or_none]
  constructor
  · refine left.setAfter uniqueFront (fun i inside => nexts i (List.mem_append_left _ inside))
      fun i inside => ?_
    rw [prevs i (List.mem_append_left _ inside), if_neg]
    exact fun first => apart i inside (List.mem_of_head? first)
  · refine here.2.2.setBefore uniqueBack (fun i inside => ?_)
      fun i inside => prevs i (List.mem_append_right _ inside)
    rw [nexts i (List.mem_append_right _ inside), if_neg]
    exact fun last => apart i (List.mem_of_getLast? last) inside

/-- **Putting a new member before another**: its links name both neighbours, and they are patched to
name it. -/
theorem Strung.insert (strung : Strung next prev none (front ++ a :: back) none)
    (unique : (front ++ b :: a :: back).Nodup) (nextNew : next' b = some a)
    (prevNew : prev' b = front.getLast?)
    (nexts : ∀ i ∈ front ++ a :: back,
      next' i = if front.getLast? = some i then some b else next i)
    (prevs : ∀ i ∈ front ++ a :: back, prev' i = if i = a then some b else prev i) :
    Strung next' prev' none (front ++ b :: a :: back) none := by
  obtain ⟨uniqueFront, uniqueBack, -, -, apart⟩ := nodup_middle unique
  obtain ⟨left, here⟩ := strung_append.mp strung
  have inFront : ∀ i ∈ front, i ≠ a := fun i inside same =>
    apart i inside (same ▸ List.mem_cons_self ..)
  rw [strung_append]
  refine ⟨left.setAfter uniqueFront (fun i inside => nexts i (List.mem_append_left _ inside))
    fun i inside => ?_, ?_, ?_, ?_⟩
  · rw [prevs i (List.mem_append_left _ inside), if_neg (inFront i inside)]
  · rw [prevNew, Option.or_none]
  · rw [nextNew]
    rfl
  · refine here.setBefore uniqueBack (fun i inside => ?_) fun i inside => ?_
    · rw [nexts i (List.mem_append_right _ inside), if_neg]
      exact fun last => apart i (List.mem_of_getLast? last) inside
    · rw [prevs i (List.mem_append_right _ inside)]
      by_cases same : i = a
      · rw [if_pos same, List.head?_cons, if_pos (congrArg some same.symm)]
      · rw [if_neg same, List.head?_cons, if_neg fun first => same (Option.some.inj first).symm]

/-- **Appending a member**: the last one is patched to name it. -/
theorem Strung.append_one (strung : Strung next prev none l none) (unique : (l ++ [b]).Nodup)
    (nextNew : next' b = none) (prevNew : prev' b = l.getLast?)
    (nexts : ∀ i ∈ l, next' i = if l.getLast? = some i then some b else next i)
    (prevs : ∀ i ∈ l, prev' i = prev i) : Strung next' prev' none (l ++ [b]) none := by
  rw [strung_append]
  refine ⟨strung.setAfter (List.nodup_append.mp unique).1 nexts prevs, ?_, ?_, trivial⟩
  · rw [prevNew, Option.or_none]
  · rw [nextNew]
    rfl

end DoublyLinked
