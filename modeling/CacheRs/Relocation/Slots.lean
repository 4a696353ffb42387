/-
**Relocation along a path of slots.**

A table of slots, each empty or holding an item; every item names the slots it may lie in. A search
that meets a free slot leaves a path, and the items on it then move one slot on, last first, so that
the first slot becomes free.

* `unwind_eq_comp`: the moves along a path permute the slots;
* `liveItems_unwind`: **no live item is lost or duplicated**;
* `placed_unwind`: **each item stays in a slot it names**, if the path is straight;
* `route_sound`, `straight_of_length_le`: the search returns such paths, and short ones are straight.
-/

import Mathlib

namespace Relocation

variable {ε : Type}

/-- What each slot holds. -/
abbrev Slots (ε : Type) := Nat → Option ε

namespace Slots

variable (slots : Slots ε)

def put (slot : Nat) (item : Option ε) : Slots ε := Function.update slots slot item

def move (source target : Nat) : Slots ε := (slots.put target (slots source)).put source none

@[simp] theorem put_self (slot : Nat) (item : Option ε) : slots.put slot item slot = item :=
  Function.update_self ..

theorem put_of_ne {slot other : Nat} (item : Option ε) (different : other ≠ slot) :
    slots.put slot item other = slots other :=
  Function.update_of_ne different ..

/-- Moving into an empty slot exchanges two slots. -/
theorem move_eq_comp_swap {source target : Nat} (empty : slots target = none) :
    slots.move source target = slots ∘ Equiv.swap source target := by
  funext slot
  unfold move
  by_cases atSource : slot = source
  · rw [atSource, put_self, Function.comp_apply, Equiv.swap_apply_left, empty]
  · rw [put_of_ne _ _ atSource]
    by_cases atTarget : slot = target
    · rw [atTarget, put_self, Function.comp_apply, Equiv.swap_apply_right]
    · rw [put_of_ne _ _ atTarget, Function.comp_apply, Equiv.swap_apply_of_ne_of_ne atSource atTarget]

/-- Move the items on a path one slot on, from its end. -/
def unwind : List Nat → Slots ε
  | [] => slots
  | [slot] => slots.put slot none
  | source :: target :: rest => (unwind (target :: rest)).move source target

theorem unwind_outside {path : List Nat} {slot : Nat} (outside : slot ∉ path) :
    slots.unwind path slot = slots slot := by
  induction path with
  | nil => rfl
  | cons source rest ih =>
    obtain ⟨different, outside⟩ := List.ne_and_not_mem_of_not_mem_cons outside
    cases rest with
    | nil => exact put_of_ne _ _ different
    | cons target rest =>
      have off := List.ne_of_not_mem_cons outside
      show ((slots.unwind (target :: rest)).move source target) slot = slots slot
      rw [move, put_of_ne _ _ different, put_of_ne _ _ off, ih outside]

/-- A slot with nothing live in it. -/
def isFree (dead : ε → Bool) (slot : Nat) : Bool := (slots slot).all dead

variable {slots}

theorem isFree_of_none {dead : ε → Bool} {slot : Nat} (empty : slots slot = none) :
    slots.isFree dead slot = true := by
  rw [isFree, empty, Option.all_none]

theorem isFree_of_some {dead : ε → Bool} {slot : Nat} {item : ε} (held : slots slot = some item) :
    slots.isFree dead slot = dead item := by
  rw [isFree, held, Option.all_some]

end Slots

/-! ### Paths -/

variable (dead : ε → Bool) (next : ε → List Nat)

/-- A path the search can take: each slot but the last holds a live item that names the next slot,
and the last is free. A slot is left for a slot that is not free only if it has no free one to go
to. -/
inductive Route (slots : Slots ε) : List Nat → Prop where
  | stop {slot : Nat} : slots.isFree dead slot = true → Route slots [slot]
  | step {slot target : Nat} {rest : List Nat} {item : ε} : slots slot = some item →
      dead item = false → target ∈ next item → target ≠ slot →
      (rest = [] ∨ ∀ other ∈ next item, other ≠ slot → slots.isFree dead other = false) →
      Route slots (target :: rest) → Route slots (slot :: target :: rest)

/-- A path that comes back to a slot only straight from the next one. -/
def Straight : List Nat → Prop
  | source :: target :: rest =>
    (source ∈ rest → rest.head? = some source) ∧ Straight (target :: rest)
  | _ => True

instance decidableStraight : (path : List Nat) → Decidable (Straight path)
  | [] => isTrue trivial
  | [_] => isTrue trivial
  | _ :: target :: rest =>
    have := decidableStraight (target :: rest)
    inferInstanceAs (Decidable (_ ∧ _))

/-- Every item lies in a slot it names. -/
def Placed (slots : Slots ε) : Prop := ∀ slot item, slots slot = some item → slot ∈ next item

/-- The live items of one slot. -/
def liveItem : Option ε → Multiset ε
  | none => 0
  | some item => if dead item then 0 else {item}

/-- The live items of the first `count` slots, each as often as it occurs. -/
def liveItems (count : Nat) (slots : Slots ε) : Multiset ε :=
  ∑ slot ∈ Finset.range count, liveItem dead (slots slot)

/-- The path from a slot: go to a free slot named by its item, else search on from the slots it
names, `left` deep. -/
def route (slots : Slots ε) : Nat → Nat → Option (List Nat)
  | 0, slot => if slots.isFree dead slot then some [slot] else none
  | left + 1, slot =>
    if slots.isFree dead slot then some [slot]
    else match slots slot with
      | none => none
      | some item =>
        match (next item).find? fun other => other ≠ slot && slots.isFree dead other with
        | some target => some [slot, target]
        | none => ((next item).findSome? fun other =>
            if other = slot then none else route slots left other).map (slot :: ·)

section

variable {dead next} {slots : Slots ε} {path : List Nat}

theorem liveItem_of_isFree {slot : Nat} (free : slots.isFree dead slot = true) :
    liveItem dead (slots slot) = 0 := by
  cases held : slots slot with
  | none => rfl
  | some item =>
    rw [Slots.isFree_of_some held] at free
    simp [liveItem, free]

/-- Emptying a free slot loses no live item. -/
theorem liveItems_put_none {count slot : Nat} (free : slots.isFree dead slot = true) :
    liveItems dead count (slots.put slot none) = liveItems dead count slots := by
  refine Finset.sum_congr rfl fun other _ => ?_
  by_cases same : other = slot
  · rw [same, Slots.put_self, liveItem_of_isFree free]
    rfl
  · rw [Slots.put_of_ne _ _ same]

/-- Permuting the first `count` slots keeps their items. -/
theorem liveItems_comp {count : Nat} {order : Equiv.Perm Nat}
    (fixed : ∀ slot, count ≤ slot → order slot = slot) :
    liveItems dead count (slots ∘ order) = liveItems dead count slots := by
  refine Finset.sum_equiv order (fun slot => ?_) fun _ _ => rfl
  rw [Finset.mem_range, Finset.mem_range]
  constructor
  · intro inside
    by_contra outside
    have same : order slot = slot := order.injective (fixed _ (by omega))
    omega
  · intro inside
    by_contra outside
    rw [fixed slot (by omega)] at inside
    omega

/-- **The moves along a path permute the slots**, once its last one is emptied. -/
theorem unwind_eq_comp {slot : Nat} {rest : List Nat} (found : Route dead next slots (slot :: rest)) :
    ∃ (order : Equiv.Perm Nat) (last : Nat), slots.isFree dead last = true ∧
      slots.unwind (slot :: rest) = (slots.put last none) ∘ order ∧ order slot = last ∧
      ∀ other, other ∉ slot :: rest → order other = other := by
  induction rest generalizing slot with
  | nil =>
    cases found with
    | stop free => exact ⟨Equiv.refl _, slot, free, rfl, rfl, fun _ _ => rfl⟩
  | cons target rest ih =>
    cases found with
    | step held alive named different direct found =>
      obtain ⟨order, last, free, same, first, fixed⟩ := ih found
      have empty : slots.unwind (target :: rest) target = none := by
        rw [same, Function.comp_apply, first, Slots.put_self]
      refine ⟨(Equiv.swap slot target).trans order, last, free, ?_, ?_, fun other outside => ?_⟩
      · show (slots.unwind (target :: rest)).move slot target = _
        rw [Slots.move_eq_comp_swap _ empty, same]
        rfl
      · rw [Equiv.trans_apply, Equiv.swap_apply_left, first]
      · obtain ⟨offSlot, offPath⟩ := List.ne_and_not_mem_of_not_mem_cons outside
        rw [Equiv.trans_apply, Equiv.swap_apply_of_ne_of_ne offSlot
          (List.ne_of_not_mem_cons offPath),
          fixed other offPath]

/-- A path that was unwound leaves its first slot empty. -/
theorem unwind_head {slot : Nat} {rest : List Nat} (found : Route dead next slots (slot :: rest)) :
    slots.unwind (slot :: rest) slot = none := by
  obtain ⟨order, last, _, same, first, _⟩ := unwind_eq_comp found
  rw [same, Function.comp_apply, first, Slots.put_self]

/-- **No live item is lost or duplicated.** -/
theorem liveItems_unwind {count slot : Nat} {rest : List Nat}
    (found : Route dead next slots (slot :: rest))
    (inside : ∀ other ∈ slot :: rest, other < count) :
    liveItems dead count (slots.unwind (slot :: rest)) = liveItems dead count slots := by
  obtain ⟨order, last, free, same, _, fixed⟩ := unwind_eq_comp found
  rw [same, liveItems_comp fun other above => fixed other fun onPath => ?_, liveItems_put_none free]
  have := inside other onPath
  omega

/-- A path's slots are those its items name. -/
theorem Route.inside {count slot : Nat} {rest : List Nat}
    (found : Route dead next slots (slot :: rest)) (first : slot < count)
    (named : ∀ item, ∀ other ∈ next item, other < count) :
    ∀ other ∈ slot :: rest, other < count := by
  induction rest generalizing slot with
  | nil => exact fun other onPath => by rwa [List.mem_singleton.mp onPath]
  | cons target rest ih =>
    cases found with
    | @step _ _ _ item held alive target_mem different direct found =>
      intro other onPath
      rcases List.mem_cons.mp onPath with atSlot | onPath
      · rwa [atSlot]
      · exact ih found (named item target target_mem) other onPath

/-- **Each item stays in a slot it names**, if the path is straight. -/
theorem placed_unwind (found : Route dead next slots path) (straight : Straight path)
    (placed : Placed next slots) :
    Placed next (slots.unwind path) ∧ Placed next (slots.unwind path.tail) := by
  induction found with
  | @stop slot free =>
    refine ⟨fun other item held => ?_, placed⟩
    change slots.put slot none other = some item at held
    by_cases same : other = slot
    · rw [same, Slots.put_self] at held
      cases held
    · rw [Slots.put_of_ne _ _ same] at held
      exact placed other item held
  | @step slot target rest item held alive named different direct found ih =>
    obtain ⟨back, straight⟩ := straight
    obtain ⟨after, before⟩ := ih straight
    refine ⟨fun other moved found => ?_, after⟩
    change ((slots.unwind (target :: rest)).move slot target) other = some moved at found
    rw [Slots.move] at found
    by_cases atSlot : other = slot
    · rw [atSlot, Slots.put_self] at found
      cases found
    · rw [Slots.put_of_ne _ _ atSlot] at found
      by_cases atTarget : other = target
      · rw [atTarget, Slots.put_self] at found
        rw [atTarget]
        by_cases again : slot ∈ rest
        · -- the path came straight back: the item that arrived here came from `target`
          obtain ⟨tail, rfl⟩ : ∃ tail, rest = slot :: tail := by
            have first := back again
            cases rest with
            | nil => cases first
            | cons head tail => exact ⟨tail, by rw [Option.some.inj first]⟩
          change ((slots.unwind (slot :: tail)).move target slot) slot = some moved at found
          rw [Slots.move, Slots.put_of_ne _ _ different.symm, Slots.put_self] at found
          exact before target moved found
        · rw [Slots.unwind_outside _ (by
            rw [List.mem_cons]
            exact not_or.mpr ⟨different.symm, again⟩), held] at found
          rwa [← Option.some.inj found]
      · rw [Slots.put_of_ne _ _ atTarget] at found
        exact after other moved found

/-! ### The search -/

/-- The search returns paths, no longer than it is deep. -/
theorem route_sound {left slot : Nat} (searched : route dead next slots left slot = some path) :
    ∃ rest, path = slot :: rest ∧ rest.length ≤ left ∧ Route dead next slots path := by
  induction left generalizing slot path with
  | zero =>
    rw [route] at searched
    split at searched
    · obtain rfl := Option.some.inj searched
      exact ⟨[], rfl, Nat.le_refl _, .stop ‹_›⟩
    · cases searched
  | succ left ih =>
    rw [route] at searched
    split at searched
    · obtain rfl := Option.some.inj searched
      exact ⟨[], rfl, Nat.zero_le _, .stop ‹_›⟩
    · rename_i busy
      cases held : slots slot with
      | none => exact absurd (Slots.isFree_of_none held) busy
      | some item =>
        have alive : dead item = false := by
          rw [Slots.isFree_of_some held] at busy
          exact Bool.eq_false_iff.mpr busy
        rw [held] at searched
        simp only at searched
        split at searched
        · rename_i target direct
          obtain rfl := Option.some.inj searched
          have named := List.mem_of_find?_eq_some direct
          have free := List.find?_some direct
          simp only [ne_eq, decide_not, Bool.and_eq_true, Bool.not_eq_true', decide_eq_false_iff_not]
            at free
          exact ⟨[target], rfl, Nat.succ_le_succ (Nat.zero_le _),
            .step held alive named free.1 (.inl rfl) (.stop free.2)⟩
        · rename_i none_free
          obtain ⟨tail, through, rfl⟩ := Option.map_eq_some_iff.mp searched
          obtain ⟨target, named, searched⟩ := List.exists_of_findSome?_eq_some through
          split at searched
          · cases searched
          · rename_i different
            obtain ⟨rest, rfl, short, found⟩ := ih searched
            refine ⟨target :: rest, rfl, Nat.succ_le_succ short,
              .step held alive named different (.inr fun other member off => ?_) found⟩
            have busy := List.find?_eq_none.mp none_free other member
            simpa [off] using busy

/-- **Short paths are straight.** -/
theorem straight_of_length_le (found : Route dead next slots path) (short : path.length ≤ 5) :
    Straight path := by
  induction found with
  | stop free => trivial
  | @step slot target rest item held alive named different direct found ih =>
    refine ⟨fun again => ?_, ih (by simp at short ⊢; omega)⟩
    -- the slot that comes again is not the free one at the end
    have busy : slots.isFree dead slot = false := by rw [Slots.isFree_of_some held, alive]
    rcases rest with _ | ⟨first, _ | ⟨second, _ | ⟨third, _ | ⟨fourth, rest⟩⟩⟩⟩
    · cases again
    · rw [List.mem_singleton] at again
      rw [again]
      rfl
    · rcases List.mem_cons.mp again with same | again
      · rw [same]
        rfl
      · rw [List.mem_singleton] at again
        cases found with
        | step _ _ _ _ _ found =>
          cases found with
          | step _ _ _ _ _ found =>
            cases found with
            | stop free =>
              rw [← again, busy] at free
              cases free
    · rcases List.mem_cons.mp again with same | again
      · rw [same]
        rfl
      · cases found with
        | step _ _ _ _ _ found =>
          cases found with
          | step _ _ _ _ _ found =>
            cases found with
            | @step _ _ _ same heldAgain _ namedAgain differentAgain _ found =>
              cases found with
              | stop free =>
                rcases List.mem_cons.mp again with atSecond | atThird
                · -- its item would have gone to the free slot at once
                  rw [← atSecond] at heldAgain differentAgain
                  rw [held] at heldAgain
                  obtain rfl := Option.some.inj heldAgain
                  rcases direct with empty | allBusy
                  · cases empty
                  · rw [allBusy third namedAgain differentAgain] at free
                    cases free
                · rw [List.mem_singleton] at atThird
                  rw [← atThird, busy] at free
                  cases free
    · simp at short
      omega

end

end Relocation
