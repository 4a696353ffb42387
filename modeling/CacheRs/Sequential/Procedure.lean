/-
**Procedures that one thread runs alone.**

A procedure takes a state to a value and the state it leaves. It may also never return, because a
loop does not end or an assertion stops the thread; both read as `none`.

* `Procedure.Ensures`: whenever the procedure returns, the postcondition holds;
* `ensures_bind`, `Ensures.seq`, `Ensures.mono`, `Ensures.ite`, `Ensures.iterate`: its rules;
* `Procedure.Returns`: the procedure returns, and the postcondition holds.
-/

import Mathlib

namespace Sequential

/-- A procedure over states `σ`. -/
def Procedure (σ α : Type) : Type := σ → Option (α × σ)

namespace Procedure

variable {σ α β γ : Type}

instance : Monad (Procedure σ) where
  pure value := fun state => some (value, state)
  bind procedure rest := fun state =>
    match procedure state with
    | none => none
    | some (value, after) => rest value after

/-- Read the state. -/
def read (field : σ → α) : Procedure σ α := fun state => some (field state, state)

/-- Change the state. -/
def change (update : σ → σ) : Procedure σ Unit := fun state => some ((), update state)

/-- Read and change the state at once. -/
def exchange (action : σ → α × σ) : Procedure σ α := fun state => some (action state)

/-- Never return. -/
def diverge : Procedure σ α := fun _ => none

/-- An assertion of the source: a thread whose assertion fails goes no further. -/
def assertThat (condition : Bool) : Procedure σ Unit :=
  if condition then pure () else diverge

/-- Repeat `body` until it returns `.inr`; a loop of more than `fuel` rounds does not return. -/
def iterate : Nat → (β → Procedure σ (β ⊕ γ)) → β → Procedure σ γ
  | 0, _, _ => diverge
  | fuel + 1, body, start => do
    match ← body start with
    | .inl again => iterate fuel body again
    | .inr value => return value

/-- Whenever the procedure returns, `post` holds. -/
def Ensures (procedure : Procedure σ α) (post : α → σ → Prop) (state : σ) : Prop :=
  ∀ value after, procedure state = some (value, after) → post value after

/-- The procedure returns, and `post` holds. -/
def Returns (procedure : Procedure σ α) (post : α → σ → Prop) (state : σ) : Prop :=
  ∃ value after, procedure state = some (value, after) ∧ post value after

section Rules

variable {procedure : Procedure σ α} {rest : α → Procedure σ β} {post weaker : α → σ → Prop}
  {state : σ}

@[simp] theorem pure_apply (value : α) (state : σ) :
    (pure value : Procedure σ α) state = some (value, state) := rfl

@[simp] theorem read_apply (field : σ → α) (state : σ) :
    read field state = some (field state, state) := rfl

@[simp] theorem change_apply (update : σ → σ) (state : σ) :
    change update state = some ((), update state) := rfl

@[simp] theorem exchange_apply (action : σ → α × σ) (state : σ) :
    exchange action state = some (action state) := rfl

theorem bind_apply_of_some {value : α} {middle : σ}
    (ran : procedure state = some (value, middle)) :
    (procedure >>= rest) state = rest value middle := by
  show (match procedure state with
    | none => none
    | some (value, after) => rest value after) = _
  rw [ran]

theorem bind_apply_of_none (ran : procedure state = none) : (procedure >>= rest) state = none := by
  show (match procedure state with
    | none => none
    | some (value, after) => rest value after) = _
  rw [ran]

@[simp] theorem read_bind (field : σ → α) (rest : α → Procedure σ β) (state : σ) :
    (read field >>= rest) state = rest (field state) state := rfl

@[simp] theorem change_bind (update : σ → σ) (rest : Unit → Procedure σ β) (state : σ) :
    (change update >>= rest) state = rest () (update state) := rfl

@[simp] theorem exchange_bind (action : σ → α × σ) (rest : α → Procedure σ β) (state : σ) :
    (exchange action >>= rest) state = rest (action state).1 (action state).2 := rfl

@[simp] theorem pure_bind_apply (value : α) (rest : α → Procedure σ β) (state : σ) :
    (pure value >>= rest) state = rest value state := rfl

/-- What a sequence that returned went through. -/
theorem bind_eq_some {value : β} {after : σ} :
    (procedure >>= rest) state = some (value, after) ↔
      ∃ first middle, procedure state = some (first, middle) ∧
        rest first middle = some (value, after) := by
  constructor
  · intro ran
    cases first : procedure state with
    | none =>
      change (match procedure state with
        | none => none
        | some (value, after) => rest value after) = _ at ran
      rw [first] at ran
      cases ran
    | some result =>
      obtain ⟨value, middle⟩ := result
      rw [bind_apply_of_some first] at ran
      exact ⟨value, middle, rfl, ran⟩
  · rintro ⟨first, middle, ran, rested⟩
    rw [bind_apply_of_some ran, rested]

@[simp] theorem ensures_pure (value : α) : Ensures (pure value) post state ↔ post value state :=
  ⟨fun holds => holds value state rfl, fun holds _ _ same => by cases same; exact holds⟩

@[simp] theorem ensures_read (field : σ → α) :
    Ensures (read field) post state ↔ post (field state) state :=
  ⟨fun holds => holds _ state rfl, fun holds _ _ same => by cases same; exact holds⟩

@[simp] theorem ensures_change (update : σ → σ) {post : Unit → σ → Prop} :
    Ensures (change update) post state ↔ post () (update state) :=
  ⟨fun holds => holds _ _ rfl, fun holds _ _ same => by cases same; exact holds⟩

@[simp] theorem ensures_exchange (action : σ → α × σ) :
    Ensures (exchange action) post state ↔ post (action state).1 (action state).2 :=
  ⟨fun holds => holds _ _ rfl, fun holds _ _ same => by
    obtain ⟨rfl, rfl⟩ := Prod.mk.inj (Option.some.inj same)
    exact holds⟩

@[simp] theorem ensures_diverge : Ensures (diverge : Procedure σ α) post state ↔ True :=
  ⟨fun _ => trivial, fun _ _ _ same => by cases same⟩

/-- A sequence ensures what its second part ensures from wherever the first part ends. -/
@[simp] theorem ensures_bind {post : β → σ → Prop} :
    Ensures (procedure >>= rest) post state ↔
      Ensures procedure (fun value after => Ensures (rest value) post after) state := by
  constructor
  · intro holds value middle ran result after rested
    exact holds result after (bind_eq_some.mpr ⟨value, middle, ran, rested⟩)
  · intro holds result after ran
    obtain ⟨value, middle, first, rested⟩ := bind_eq_some.mp ran
    exact holds value middle first result after rested

@[simp] theorem ensures_assertThat (condition : Bool) {post : Unit → σ → Prop} :
    Ensures (assertThat condition) post state ↔ (condition = true → post () state) := by
  unfold assertThat
  cases condition with
  | false => simp
  | true => simp

theorem Ensures.mono (holds : Ensures procedure post state)
    (implied : ∀ value after, post value after → weaker value after) :
    Ensures procedure weaker state :=
  fun value after ran => implied value after (holds value after ran)

/-- The postcondition may say which run it is behind. -/
theorem Ensures.ran (holds : Ensures procedure post state) :
    Ensures procedure (fun value after => procedure state = some (value, after) ∧ post value after)
      state :=
  fun value after ran => ⟨ran, holds value after ran⟩

/-- Cut a sequence at an intermediate postcondition. -/
theorem Ensures.seq {middle : α → σ → Prop} {post : β → σ → Prop}
    (first : Ensures procedure middle state)
    (second : ∀ value after, middle value after → Ensures (rest value) post after) :
    Ensures (procedure >>= rest) post state :=
  ensures_bind.mpr (first.mono second)

theorem Ensures.and {other : α → σ → Prop} (left : Ensures procedure post state)
    (right : Ensures procedure other state) :
    Ensures procedure (fun value after => post value after ∧ other value after) state :=
  fun value after ran => ⟨left value after ran, right value after ran⟩

theorem Ensures.ite {condition : Prop} [Decidable condition] {yes no : Procedure σ α}
    (left : condition → Ensures yes post state) (right : ¬ condition → Ensures no post state) :
    Ensures (if condition then yes else no) post state := by
  split
  · exact left ‹_›
  · exact right ‹_›

/-- A loop, by an invariant each round keeps. -/
theorem Ensures.iterate {body : β → Procedure σ (β ⊕ γ)} {post : γ → σ → Prop}
    (invariant : β → σ → Prop)
    (round : ∀ again now, invariant again now →
      Ensures (body again) (fun result after => match result with
        | .inl more => invariant more after
        | .inr value => post value after) now)
    (fuel : Nat) {start : β} {state : σ} (begun : invariant start state) :
    Ensures (Procedure.iterate fuel body start) post state := by
  induction fuel generalizing start state with
  | zero => exact ensures_diverge.mpr trivial
  | succ fuel ih =>
    refine Ensures.seq (round start state begun) fun result after outcome => ?_
    cases result with
    | inl again => exact ih outcome
    | inr value => exact (ensures_pure value).mpr outcome

theorem Returns.ensures (returned : Returns procedure post state) :
    Ensures procedure post state := by
  obtain ⟨value, after, ran, holds⟩ := returned
  intro other last ranAgain
  rw [ran] at ranAgain
  obtain ⟨rfl, rfl⟩ := Prod.mk.inj (Option.some.inj ranAgain)
  exact holds

@[simp] theorem returns_pure (value : α) : Returns (pure value) post state ↔ post value state :=
  ⟨fun ⟨_, _, same, holds⟩ => by cases same; exact holds, fun holds => ⟨value, state, rfl, holds⟩⟩

@[simp] theorem returns_change (update : σ → σ) {post : Unit → σ → Prop} :
    Returns (change update) post state ↔ post () (update state) :=
  ⟨fun ⟨_, _, same, holds⟩ => by cases same; exact holds, fun holds => ⟨(), _, rfl, holds⟩⟩

@[simp] theorem returns_exchange (action : σ → α × σ) :
    Returns (exchange action) post state ↔ post (action state).1 (action state).2 :=
  ⟨fun ⟨_, _, same, holds⟩ => by
    obtain ⟨rfl, rfl⟩ := Prod.mk.inj (Option.some.inj same)
    exact holds, fun holds => ⟨_, _, rfl, holds⟩⟩

@[simp] theorem returns_read (field : σ → α) :
    Returns (read field) post state ↔ post (field state) state :=
  ⟨fun ⟨_, _, same, holds⟩ => by cases same; exact holds, fun holds => ⟨_, _, rfl, holds⟩⟩

/-- A sequence returns if its first part does, and the second from wherever the first ends. -/
@[simp] theorem returns_bind {post : β → σ → Prop} :
    Returns (procedure >>= rest) post state ↔
      Returns procedure (fun value after => Returns (rest value) post after) state := by
  constructor
  · rintro ⟨result, last, ran, holds⟩
    obtain ⟨value, middle, first, rested⟩ := bind_eq_some.mp ran
    exact ⟨value, middle, first, result, last, rested, holds⟩
  · rintro ⟨value, middle, first, result, last, rested, holds⟩
    exact ⟨result, last, bind_eq_some.mpr ⟨value, middle, first, rested⟩, holds⟩

theorem returns_of_eq {value : α} {after : σ} (ran : procedure state = some (value, after))
    (holds : post value after) : Returns procedure post state := ⟨value, after, ran, holds⟩

theorem Returns.mono (returned : Returns procedure post state)
    (implied : ∀ value after, post value after → weaker value after) :
    Returns procedure weaker state := by
  obtain ⟨value, after, ran, holds⟩ := returned
  exact ⟨value, after, ran, implied value after holds⟩

theorem Returns.ran (returned : Returns procedure post state) :
    Returns procedure (fun value after => procedure state = some (value, after) ∧ post value after)
      state := by
  obtain ⟨value, after, ran, holds⟩ := returned
  exact ⟨value, after, ran, ran, holds⟩

theorem Returns.seq {middle : α → σ → Prop} {post : β → σ → Prop}
    (first : Returns procedure middle state)
    (second : ∀ value after, middle value after → Returns (rest value) post after) :
    Returns (procedure >>= rest) post state := returns_bind.mpr (first.mono second)

theorem Returns.and {other : α → σ → Prop} (returned : Returns procedure post state)
    (ensured : Ensures procedure other state) :
    Returns procedure (fun value after => post value after ∧ other value after) state := by
  obtain ⟨value, after, ran, holds⟩ := returned
  exact ⟨value, after, ran, holds, ensured value after ran⟩

theorem Returns.ite {condition : Prop} [Decidable condition] {yes no : Procedure σ α}
    (left : condition → Returns yes post state) (right : ¬ condition → Returns no post state) :
    Returns (if condition then yes else no) post state := by
  split
  · exact left ‹_›
  · exact right ‹_›

end Rules

end Procedure

end Sequential
