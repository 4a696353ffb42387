/-
**A program running alone.**

While no other thread steps, a program is deterministic: from a state it either returns a value and
leaves a state, or it waits or loops for ever.

* `Solo`: the value a program returns alone, and the state it leaves;
* `solo_bind`, `solo_atomically`, `solo_whenEnabled`, `solo_repeatUntil`: the rules;
* `Solo.deterministic`: there is one outcome at most;
* `Program.alone`, `solo_of_alone`: the outcome, computed;
* `Solo.reachable`: what a thread of a machine does when it is the only one scheduled.
-/

import CacheRs.Concurrency.Program

namespace Concurrency

variable {σ Λ α β γ δ : Type}

/-- Run alone from a state, the program returns the value and leaves the last state. -/
inductive Solo : {α : Type} → Program σ Λ α → σ → α → σ → Prop
  | ret {α : Type} {value : α} {state : σ} : Solo (.ret value) state value state
  | step {α : Type} {label : Λ} {enabled : σ → Bool} {update : σ → σ} {next : σ → Program σ Λ α}
      {state last : σ} {value : α} (able : enabled state = true)
      (rest : Solo (next state) (update state) value last) :
      Solo (.step label enabled update next) state value last
  | loop {α β γ : Type} {body : β → Program σ Λ (β ⊕ γ)} {start : β} {next : γ → Program σ Λ α}
      {state last : σ} {value : α}
      (rest : Solo ((body start).bind fun result => match result with
        | .inl again => .loop body again next
        | .inr value => next value) state value last) :
      Solo (.loop body start next) state value last

section Rules

variable {program : Program σ Λ α} {state middle last : σ} {value : α}

@[simp] theorem solo_ret {result : α} :
    Solo (.ret value : Program σ Λ α) state result last ↔ value = result ∧ state = last := by
  constructor
  · intro ran
    cases ran
    exact ⟨rfl, rfl⟩
  · rintro ⟨rfl, rfl⟩
    exact .ret

/-- A round of a loop followed by a program is a round of the longer loop. -/
theorem bind_round (body : β → Program σ Λ (β ⊕ γ)) (start : β) (next : γ → Program σ Λ α)
    (rest : α → Program σ Λ δ) :
    ((body start).bind fun result => match result with
        | .inl again => .loop body again next
        | .inr value => next value).bind rest =
      (body start).bind fun result => match result with
        | .inl again => .loop body again fun value => (next value).bind rest
        | .inr value => (next value).bind rest := by
  rw [Program.bind_assoc]
  congr 1
  funext result
  cases result <;> rfl

theorem Solo.bind {rest : α → Program σ Λ β} {result : β} (first : Solo program state value middle)
    (second : Solo (rest value) middle result last) :
    Solo (program.bind rest) state result last := by
  induction first with
  | ret => exact second
  | step able _ ih => exact .step able (ih second)
  | loop _ ih =>
    refine .loop ?_
    rw [← bind_round]
    exact ih second

theorem Solo.of_bind {whole : Program σ Λ β} {result : β} (ran : Solo whole state result last)
    {rest : α → Program σ Λ β} (split : whole = program.bind rest) :
    ∃ value middle, Solo program state value middle ∧ Solo (rest value) middle result last := by
  induction ran generalizing program with
  | ret =>
    cases program with
    | ret value =>
      have same : _ = rest value := split
      exact ⟨value, _, .ret, by rw [← same]; exact .ret⟩
    | step => cases split
    | loop => cases split
  | step able ran ih =>
    cases program with
    | ret value =>
      have same : _ = rest value := split
      exact ⟨value, _, .ret, by rw [← same]; exact .step able ran⟩
    | step =>
      cases split
      obtain ⟨value, middle, first, second⟩ := ih rfl
      exact ⟨value, middle, .step able first, second⟩
    | loop => cases split
  | loop ran ih =>
    cases program with
    | ret value =>
      have same : _ = rest value := split
      exact ⟨value, _, .ret, by rw [← same]; exact .loop ran⟩
    | step => cases split
    | loop =>
      cases split
      obtain ⟨value, middle, first, second⟩ := ih (bind_round ..).symm
      exact ⟨value, middle, .loop first, second⟩

/-- **One program after another.** -/
theorem solo_bind {rest : α → Program σ Λ β} {result : β} :
    Solo (program.bind rest) state result last ↔
      ∃ value middle, Solo program state value middle ∧ Solo (rest value) middle result last :=
  ⟨fun ran => ran.of_bind rfl, fun ⟨_, _, first, second⟩ => first.bind second⟩

@[simp] theorem solo_whenEnabled {label : Λ} {enabled : σ → Bool} {action : σ → α × σ} :
    Solo (.whenEnabled label enabled action) state value last ↔
      enabled state = true ∧ action state = (value, last) := by
  constructor
  · intro ran
    cases ran with
    | step able rest =>
      obtain ⟨rfl, rfl⟩ := solo_ret.mp rest
      exact ⟨able, rfl⟩
  · rintro ⟨able, outcome⟩
    refine .step able ?_
    rw [outcome]
    exact .ret

@[simp] theorem solo_atomically {label : Λ} {action : σ → α × σ} :
    Solo (.atomically label action) state value last ↔ action state = (value, last) := by
  show Solo (.whenEnabled label (fun _ => true) action) state value last ↔ _
  simp

/-- A loop that ends in its first round. -/
theorem Solo.repeatUntil {body : β → Program σ Λ (β ⊕ α)} {start : β}
    (round : Solo (body start) state (.inr value) last) :
    Solo (.repeatUntil body start) state value last :=
  .loop (round.bind .ret)

/-- **One outcome at most.** -/
theorem Solo.deterministic {result : α} (one : Solo program state value middle)
    (other : Solo program state result last) : value = result ∧ middle = last := by
  induction one with
  | ret =>
    cases other
    exact ⟨rfl, rfl⟩
  | step able _ ih =>
    cases other with
    | step _ rest => exact ih rest
  | loop _ ih =>
    cases other with
    | loop rest => exact ih rest

end Rules

/-! ### The outcome, computed -/

/-- Run a program alone, for so many steps. -/
def Program.alone : Nat → Program σ Λ α → σ → Option (α × σ)
  | _, .ret value, state => some (value, state)
  | 0, _, _ => none
  | fuel + 1, .step _ enabled update next, state =>
    if enabled state then (next state).alone fuel (update state) else none
  | fuel + 1, .loop body start next, state =>
    ((body start).bind fun result => match result with
      | .inl again => .loop body again next
      | .inr value => next value).alone fuel state

theorem solo_of_alone {program : Program σ Λ α} {state last : σ} {value : α} {fuel : Nat}
    (ran : program.alone fuel state = some (value, last)) : Solo program state value last := by
  induction fuel generalizing α program state with
  | zero =>
    cases program with
    | ret =>
      cases ran
      exact .ret
    | step => cases ran
    | loop => cases ran
  | succ fuel ih =>
    cases program with
    | ret =>
      cases ran
      exact .ret
    | step label enabled update next =>
      unfold Program.alone at ran
      split at ran
      · exact .step ‹_› (ih ran)
      · cases ran
    | loop => exact .loop (ih ran)

/-! ### In a machine -/

section Machine

variable {Tid : Type}

theorem Config.allowed_true (config : Config Tid σ Λ γ) (t : Tid) :
    config.Allowed (fun _ _ _ => True) t := by
  unfold Config.Allowed
  split <;> trivial

variable [DecidableEq Tid] {record : Tid → Λ → σ → γ → γ}

/-- **A thread scheduled alone** gets from a program to what follows it, as `Solo` says. -/
theorem Solo.reachable {program : Program σ Λ α} {state last : σ} {value : α}
    (ran : Solo program state value last) {config : Config Tid σ Λ γ} {t : Tid}
    {rest : α → Program σ Λ Unit} (shared : config.world.shared = state)
    (running : config.thread t = program.bind rest) :
    ∃ after, Reachable record (fun _ _ _ => True) config after ∧ after.world.shared = last ∧
      after.thread = Function.update config.thread t (rest value) := by
  induction ran generalizing config with
  | ret =>
    refine ⟨config, .start, shared, ?_⟩
    have same : config.thread t = rest _ := running
    rw [← same, Function.update_eq_self]
  | @step label enabled update next _ _ _ able _ ih =>
    have taken : config.next record t = some ⟨config.world.after record t label update,
        Function.update config.thread t ((next config.world.shared).bind rest)⟩ := by
      unfold Config.next
      rw [running]
      exact if_pos (by rwa [shared])
    obtain ⟨after, reached, sharedAfter, threads⟩ := @ih ⟨config.world.after record t label update,
      Function.update config.thread t ((next config.world.shared).bind rest)⟩
      (congrArg update shared) (by simp only [Function.update_self, shared])
    refine ⟨after, (Reachable.step t .start (config.allowed_true t) taken).trans reached,
      sharedAfter, ?_⟩
    rw [threads, Function.update_idem]
  | @loop _ _ body start next _ _ _ _ ih =>
    have taken : config.next record t = some ⟨config.world, Function.update config.thread t
        (((body start).bind fun result => match result with
          | .inl again => .loop body again next
          | .inr value => next value).bind rest)⟩ := by
      unfold Config.next
      rw [running, bind_round]
      rfl
    obtain ⟨after, reached, sharedAfter, threads⟩ := @ih ⟨config.world,
      Function.update config.thread t _⟩ shared (Function.update_self ..)
    refine ⟨after, (Reachable.step t .start (config.allowed_true t) taken).trans reached,
      sharedAfter, ?_⟩
    rw [threads, Function.update_idem]

end Machine

end Concurrency
