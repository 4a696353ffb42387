/-
**Programs of labelled atomic steps and their interleavings.**

A thread is a program: a tree of atomic steps on a shared state, each with a label, a guard (a step
whose guard fails waits) and a continuation that sees the state the step ran in. Retry loops are a
constructor of their own, so a program need not terminate. A machine runs one program per thread and
picks any thread for each step; a monitor watches the labels and keeps a history beside the state.

* `Program.bind`, `Program.bind_assoc`: programs compose;
* `Config.next`, `Config.exec`: one step of a thread, and the run of a schedule;
* `Reachable`: what the steps that meet a condition reach from a starting configuration;
* `reachable_exec`, `exists_reachable`: the run of a schedule is a run.
-/

import Mathlib

namespace Concurrency

/-- A program over shared states `σ`, its atomic steps labelled by `Λ`, returning an `α`. -/
inductive Program (σ Λ : Type) : Type → Type 1 where
  | ret {α : Type} (value : α) : Program σ Λ α
  | step {α : Type} (label : Λ) (enabled : σ → Bool) (update : σ → σ)
      (next : σ → Program σ Λ α) : Program σ Λ α
  | loop {α β γ : Type} (body : β → Program σ Λ (β ⊕ γ)) (start : β)
      (next : γ → Program σ Λ α) : Program σ Λ α

namespace Program

variable {σ Λ α β γ : Type}

/-- Run `program`, then `rest` on its result. -/
def bind : Program σ Λ α → (α → Program σ Λ β) → Program σ Λ β
  | .ret value, rest => rest value
  | .step label enabled update next, rest =>
    .step label enabled update fun state => (next state).bind rest
  | .loop body start next, rest => .loop body start fun result => (next result).bind rest

instance : Monad (Program σ Λ) where
  pure := .ret
  bind := bind

@[simp] theorem pure_eq (value : α) : (pure value : Program σ Λ α) = .ret value := rfl

@[simp] theorem bind_eq (program : Program σ Λ α) (rest : α → Program σ Λ β) :
    program >>= rest = program.bind rest := rfl

@[simp] theorem ret_bind (value : α) (rest : α → Program σ Λ β) :
    (Program.ret value).bind rest = rest value := rfl

theorem bind_ret (program : Program σ Λ α) : program.bind .ret = program := by
  induction program with
  | ret value => rfl
  | step label enabled update next ih =>
    simp only [bind, ih]
  | loop body start next _ ih =>
    simp only [bind, ih]

theorem bind_assoc (program : Program σ Λ α) (middle : α → Program σ Λ β)
    (rest : β → Program σ Λ γ) :
    (program.bind middle).bind rest = program.bind fun value => (middle value).bind rest := by
  induction program with
  | ret value => rfl
  | step label enabled update next ih =>
    simp only [bind, ih]
  | loop body start next _ ih =>
    simp only [bind, ih]

/-- One atomic read-modify-write: `action` gives the value read and the new state. -/
def atomically (label : Λ) (action : σ → α × σ) : Program σ Λ α :=
  .step label (fun _ => true) (fun state => (action state).2) fun state => .ret (action state).1

/-- An atomic step that waits until `enabled` holds. -/
def whenEnabled (label : Λ) (enabled : σ → Bool) (action : σ → α × σ) : Program σ Λ α :=
  .step label enabled (fun state => (action state).2) fun state => .ret (action state).1

/-- Repeat `body` until it returns `.inr`. -/
def repeatUntil (body : β → Program σ Λ (β ⊕ γ)) (start : β) : Program σ Λ γ :=
  .loop body start .ret

/-- Run the programs of a list one after the other. -/
def sequence : List (Program σ Λ Unit) → Program σ Λ Unit
  | [] => .ret ()
  | program :: rest => program.bind fun _ => sequence rest

end Program

/-- The shared state, and the history a monitor keeps of the steps so far. -/
@[ext] structure World (σ γ : Type) where
  shared : σ
  history : γ

/-- A machine's configuration: the world and what each thread still has to run. -/
structure Config (Tid σ Λ γ : Type) where
  world : World σ γ
  thread : Tid → Program σ Λ Unit

section Machine

variable {Tid σ Λ γ : Type} (record : Tid → Λ → σ → γ → γ)

/-- The world after thread `t` takes a step: the monitor sees the state the step ran in. -/
def World.after (t : Tid) (label : Λ) (update : σ → σ) (world : World σ γ) : World σ γ :=
  ⟨update world.shared, record t label world.shared world.history⟩

@[simp] theorem World.after_shared (t : Tid) (label : Λ) (update : σ → σ) (world : World σ γ) :
    (world.after record t label update).shared = update world.shared := rfl

@[simp] theorem World.after_history (t : Tid) (label : Λ) (update : σ → σ) (world : World σ γ) :
    (world.after record t label update).history =
      record t label world.shared world.history := rfl

variable [DecidableEq Tid]

/-- One step of thread `t`, if it has one: an atomic step, or entering a round of a loop. -/
def Config.next (config : Config Tid σ Λ γ) (t : Tid) : Option (Config Tid σ Λ γ) :=
  match config.thread t with
  | .ret _ => none
  | .step label enabled update next =>
    if enabled config.world.shared then
      some ⟨config.world.after record t label update,
        Function.update config.thread t (next config.world.shared)⟩
    else none
  | .loop body start next =>
    some ⟨config.world, Function.update config.thread t
      ((body start).bind fun result => match result with
        | .inl again => .loop body again next
        | .inr value => next value)⟩

/-- Whether the step thread `t` is about to take meets the condition `ok`. -/
def Config.Allowed (ok : Tid → Λ → World σ γ → Prop) (config : Config Tid σ Λ γ) (t : Tid) : Prop :=
  match config.thread t with
  | .step label _ _ _ => ok t label config.world
  | _ => True

/-- The configurations that runs whose steps all meet `ok` reach from `init`. -/
inductive Reachable (ok : Tid → Λ → World σ γ → Prop) (init : Config Tid σ Λ γ) :
    Config Tid σ Λ γ → Prop
  | start : Reachable ok init init
  | step {config after : Config Tid σ Λ γ} (t : Tid) (before : Reachable ok init config)
      (allowed : config.Allowed ok t) (taken : config.next record t = some after) :
      Reachable ok init after

/-- Whether a decidable condition allows the step thread `t` is about to take. -/
def Config.allows (ok : Tid → Λ → World σ γ → Bool) (config : Config Tid σ Λ γ) (t : Tid) : Bool :=
  match config.thread t with
  | .step label _ _ _ => ok t label config.world
  | _ => true

/-- The run of a schedule, if each scheduled thread can step and `ok` allows it. -/
def Config.exec (ok : Tid → Λ → World σ γ → Bool) (config : Config Tid σ Λ γ) :
    List Tid → Option (Config Tid σ Λ γ)
  | [] => some config
  | t :: schedule =>
    if config.allows ok t then
      match config.next record t with
      | none => none
      | some after => after.exec ok schedule
    else none

variable {record}

/-- A thread at an atomic access takes it. -/
theorem Config.next_atomically {α : Type} {config : Config Tid σ Λ γ} {t : Tid} {label : Λ}
    {action : σ → α × σ} {rest : α → Program σ Λ Unit}
    (running : config.thread t = (Program.atomically label action).bind rest) :
    config.next record t = some ⟨config.world.after record t label fun state => (action state).2,
      Function.update config.thread t (rest (action config.world.shared).1)⟩ := by
  unfold Config.next
  rw [running]
  rfl

theorem Reachable.trans {ok : Tid → Λ → World σ γ → Prop} {init middle last : Config Tid σ Λ γ}
    (first : Reachable record ok init middle) (second : Reachable record ok middle last) :
    Reachable record ok init last := by
  induction second with
  | start => exact first
  | step t _ allowed taken ih => exact .step t ih allowed taken

/-- The run of a schedule is a run whose steps meet the condition it was checked against. -/
theorem reachable_exec {ok : Tid → Λ → World σ γ → Bool} {init last : Config Tid σ Λ γ}
    (schedule : List Tid) (ran : init.exec record ok schedule = some last) :
    Reachable record (fun t label world => ok t label world = true) init last := by
  induction schedule generalizing init with
  | nil =>
    obtain rfl : init = last := Option.some.inj ran
    exact .start
  | cons t schedule ih =>
    unfold Config.exec at ran
    split at ran
    case isFalse => cases ran
    case isTrue able =>
      split at ran
      · cases ran
      · rename_i after taken
        have allowed : init.Allowed (fun t label world => ok t label world = true) t := by
          unfold Config.allows at able
          unfold Config.Allowed
          split at able
          · exact able
          · trivial
        exact (Reachable.step t .start allowed taken).trans (ih ran)

variable (record) in
/-- A schedule whose run ends in a configuration with a decidable property reaches one. -/
theorem exists_reachable (ok : Tid → Λ → World σ γ → Bool) (init : Config Tid σ Λ γ)
    (schedule : List Tid) (property : World σ γ → Bool)
    (ran : ((init.exec record ok schedule).any fun last => property last.world) = true) :
    ∃ config, Reachable record (fun t label world => ok t label world = true) init config ∧
      property config.world = true := by
  cases ends : init.exec record ok schedule with
  | none => simp [ends] at ran
  | some last =>
    rw [ends] at ran
    exact ⟨last, reachable_exec schedule ends, ran⟩

/-- A run that meets a condition meets every weaker one. -/
theorem Reachable.weaken {ok weaker : Tid → Λ → World σ γ → Prop} {init config : Config Tid σ Λ γ}
    (implied : ∀ t label world, ok t label world → weaker t label world)
    (reached : Reachable record ok init config) : Reachable record weaker init config := by
  induction reached with
  | start => exact .start
  | step t _ allowed taken ih =>
    refine .step t ih ?_ taken
    unfold Config.Allowed at allowed ⊢
    split at allowed
    · exact implied _ _ _ allowed
    · trivial

end Machine

end Concurrency
