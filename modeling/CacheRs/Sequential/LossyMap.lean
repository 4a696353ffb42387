/-
**A map that may lose keys.**

* `Loses`: some keys have lost their values, and no key has got another;
* `Event`: a key is read, stored, changed or erased, or the map is cleared;
* `Run`: events of a map that may lose keys in between; `latest`: what they leave when none is lost;
* `Run.loses`, `Run.read`, `Run.changed`: **the map has the values stored last, or nothing**, and so
  do reads and changes find them.
-/

import Mathlib.Logic.Function.Basic

namespace Sequential

namespace LossyMap

variable {κ ν : Type}

/-- Some keys have lost their values, and no key has got another. -/
def Loses (before after : κ → Option ν) : Prop :=
  ∀ key value, after key = some value → before key = some value

theorem Loses.refl (map : κ → Option ν) : Loses map map := fun _ _ => id

theorem Loses.trans {before middle after : κ → Option ν} (first : Loses before middle)
    (second : Loses middle after) : Loses before after :=
  fun key value there => first key value (second key value there)

/-- What a key has left is nothing, or what it had. -/
theorem Loses.eq {before after : κ → Option ν} (loses : Loses before after) (key : κ) :
    after key = none ∨ after key = before key := by
  cases left : after key with
  | none => exact .inl rfl
  | some value => exact .inr (loses key value left).symm

variable [DecidableEq κ]

theorem Loses.update {before after : κ → Option ν} (loses : Loses before after) (key : κ)
    (value : Option ν) : Loses (Function.update before key value) (Function.update after key value) := by
  intro other found there
  by_cases same : other = key
  · subst same
    rwa [Function.update_self] at there ⊢
  · rw [Function.update_of_ne same] at there ⊢
    exact loses other found there

/-! ### Events -/

inductive Event (κ ν : Type) where
  | read (key : κ) (answer : Option ν)
  | stored (key : κ) (value : ν)
  | changed (key : κ) (old : Option ν) (new : ν)
  | erased (key : κ)
  | cleared

namespace Event

/-- What an event leaves of the map. -/
def apply : Event κ ν → (κ → Option ν) → κ → Option ν
  | .read _ _, map => map
  | .stored key value, map => Function.update map key (some value)
  | .changed key _ new, map => Function.update map key (some new)
  | .erased key, map => Function.update map key none
  | .cleared, _ => fun _ => none

/-- A read answers what the map has, or nothing; a change begins with what it has. -/
def Allowed : Event κ ν → (κ → Option ν) → Prop
  | .read key answer, map => ∀ value, answer = some value → map key = some value
  | .changed key old _, map => map key = old
  | _, _ => True

theorem apply_loses (event : Event κ ν) {before after : κ → Option ν} (loses : Loses before after) :
    Loses (event.apply before) (event.apply after) := by
  cases event with
  | read _ _ => exact loses
  | stored key value => exact loses.update key (some value)
  | changed key _ new => exact loses.update key (some new)
  | erased key => exact loses.update key none
  | cleared => exact Loses.refl _

end Event

variable {events before later : List (Event κ ν)} {map after : κ → Option ν}

/-- The runs of a map that begins empty, and may lose keys between its events. -/
inductive Run : List (Event κ ν) → (κ → Option ν) → Prop
  | start : Run [] fun _ => none
  | lose {events : List (Event κ ν)} {map after : κ → Option ν} (run : Run events map)
      (loses : Loses map after) : Run events after
  | event {events : List (Event κ ν)} {map : κ → Option ν} (run : Run events map)
      (event : Event κ ν) (allowed : event.Allowed map) : Run (events ++ [event]) (event.apply map)

/-- The values that were stored last, and not erased or cleared since. -/
def latest (events : List (Event κ ν)) : κ → Option ν :=
  events.foldl (fun map event => event.apply map) fun _ => none

theorem latest_append (events : List (Event κ ν)) (event : Event κ ν) :
    latest (events ++ [event]) = event.apply (latest events) :=
  List.foldl_append ..

/-- **A map has the values stored last, or nothing.** -/
theorem Run.loses (run : Run events map) : Loses (latest events) map := by
  induction run with
  | start => exact Loses.refl _
  | lose _ loses ih => exact ih.trans loses
  | event _ event _ ih =>
    rw [latest_append]
    exact event.apply_loses ih

/-- Every event of a run was allowed where it took place. -/
theorem Run.allowed {event : Event κ ν} (run : Run events map)
    (split : events = before ++ event :: later) : ∃ there, Run before there ∧ event.Allowed there := by
  induction run generalizing later with
  | start => simp at split
  | lose _ _ ih => exact ih split
  | @event events map run last allowed ih =>
    rcases List.eq_nil_or_concat later with rfl | ⟨init, final, rfl⟩
    · obtain ⟨rfl, same⟩ := List.append_inj' split rfl
      cases same
      exact ⟨map, run, allowed⟩
    · rw [List.concat_eq_append, ← List.cons_append, ← List.append_assoc] at split
      obtain ⟨same, -⟩ := List.append_inj' split rfl
      exact ih same

/-- **A read answers what was stored last, or nothing.** -/
theorem Run.read {key : κ} {answer : Option ν} (run : Run events map)
    (split : events = before ++ .read key answer :: later) :
    answer = none ∨ answer = latest before key := by
  obtain ⟨there, ran, allowed⟩ := run.allowed split
  cases answer with
  | none => exact .inl rfl
  | some value => exact .inr (ran.loses key value (allowed value rfl)).symm

/-- **A change begins with what was stored last.** -/
theorem Run.changed {key : κ} {old new : ν} (run : Run events map)
    (split : events = before ++ .changed key (some old) new :: later) :
    latest before key = some old := by
  obtain ⟨there, ran, allowed⟩ := run.allowed split
  exact ran.loses key old allowed

end LossyMap

end Sequential
