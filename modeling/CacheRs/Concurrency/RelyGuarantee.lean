/-
**Rely–guarantee reasoning over labelled programs.**

A protocol fixes what every thread may assume of the others (`rely`), what holds of every world
(`inv`), and the condition under which steps are considered (`allowed`). The weakest precondition
`Protocol.wp` asks of each atomic step, run in any world the others may have left, that it keeps the
invariant and everyone else's rely. Threads that meet it can be put side by side:

* `Protocol.wp_bind`, `Protocol.wp_mono`, `Protocol.wp_atomically`, `Protocol.wp_repeatUntil`,
  `Protocol.wp_ite`, `Protocol.wp_sequence`: the rules of the logic;
* `Protocol.Neutral`: programs whose effects a thread cannot tell from the others';
* `Protocol.wp_stable`: a precondition survives the other threads' steps;
* `Protocol.sound`: in every reachable configuration the invariant holds and every thread is still
  inside its precondition.
-/

import CacheRs.Concurrency.Program

namespace Concurrency

/-- What a group of threads agree on. -/
structure Protocol (Tid σ Λ γ : Type) where
  record : Tid → Λ → σ → γ → γ
  allowed : Tid → Λ → World σ γ → Prop
  inv : World σ γ → Prop
  rely : Tid → World σ γ → World σ γ → Prop
  rely_refl : ∀ t world, rely t world world
  rely_trans : ∀ t first second third,
    rely t first second → rely t second third → rely t first third

namespace Protocol

variable {Tid σ Λ γ α β δ : Type} (P : Protocol Tid σ Λ γ) (t : Tid)

/-- A step of `t` that every other thread tolerates. -/
def Guarantee (world after : World σ γ) : Prop :=
  ∀ other, other ≠ t → P.rely other world after

/-- An assertion that the other threads' steps preserve. -/
def Stable (assertion : World σ γ → Prop) : Prop :=
  ∀ world after, assertion world → P.rely t world after → P.inv after → assertion after

/-- One atomic step from a world the others may have left: it keeps the invariant, keeps the
guarantee, and makes `post` hold. -/
def Atomic (label : Λ) (enabled : σ → Bool) (update : σ → σ) (post : σ → World σ γ → Prop)
    (world : World σ γ) : Prop :=
  ∀ now, P.rely t world now → P.inv now → P.allowed t label now → enabled now.shared = true →
    P.inv (now.after P.record t label update) ∧
    P.Guarantee t now (now.after P.record t label update) ∧
    post now.shared (now.after P.record t label update)

/-- The weakest precondition for thread `t` to run `program` and end in `post`. -/
def wp : {α : Type} → Program σ Λ α → (α → World σ γ → Prop) → World σ γ → Prop
  | _, .ret value, post, world => post value world
  | _, .step label enabled update next, post, world =>
    P.Atomic t label enabled update (fun seen after => wp (next seen) post after) world
  | _, .loop (β := β) body start next, post, world =>
    ∃ invariant : β → World σ γ → Prop,
      (∀ again, P.Stable t (invariant again)) ∧ invariant start world ∧
      ∀ again now, P.inv now → invariant again now →
        wp (body again) (fun result after => match result with
          | .inl more => invariant more after
          | .inr value => wp (next value) post after) now

section Rules

variable {P t}

@[simp] theorem wp_ret (value : α) (post : α → World σ γ → Prop) (world : World σ γ) :
    P.wp t (.ret value : Program σ Λ α) post world ↔ post value world := Iff.rfl

theorem Atomic.mono {label : Λ} {enabled : σ → Bool} {update : σ → σ}
    {post weaker : σ → World σ γ → Prop} {world : World σ γ}
    (before : P.Atomic t label enabled update post world)
    (implied : ∀ seen after, P.inv after → post seen after → weaker seen after) :
    P.Atomic t label enabled update weaker world := by
  intro now moved holds allowed able
  obtain ⟨kept, guaranteed, posted⟩ := before now moved holds allowed able
  exact ⟨kept, guaranteed, implied _ _ kept posted⟩

/-- The rule of consequence; the weaker postcondition may use the invariant. -/
theorem wp_mono {program : Program σ Λ α} {post weaker : α → World σ γ → Prop} {world : World σ γ}
    (holds : P.inv world) (before : P.wp t program post world)
    (implied : ∀ value after, P.inv after → post value after → weaker value after) :
    P.wp t program weaker world := by
  induction program generalizing world with
  | ret value => exact implied value world holds before
  | step label enabled update next ih =>
    exact Atomic.mono before fun seen after kept rest => ih seen kept rest implied
  | loop body start next bodyIh nextIh =>
    obtain ⟨invariant, stable, begun, round⟩ := before
    refine ⟨invariant, stable, begun, fun again now held inside => ?_⟩
    refine bodyIh again held (round again now held inside) fun result after kept outcome => ?_
    cases result with
    | inl more => exact outcome
    | inr value => exact nextIh value kept outcome implied

/-- Running one program after another. -/
theorem wp_bind (program : Program σ Λ α) (rest : α → Program σ Λ β)
    (post : β → World σ γ → Prop) (world : World σ γ) :
    P.wp t (program.bind rest) post world ↔
      P.wp t program (fun value after => P.wp t (rest value) post after) world := by
  induction program generalizing world with
  | ret value => rfl
  | step label enabled update next ih =>
    simp only [Program.bind, wp, ih]
  | loop body start next _ ih =>
    simp only [Program.bind, wp, ih]

/-- Cut a sequence at an intermediate postcondition. -/
theorem wp_seq {program : Program σ Λ α} {rest : α → Program σ Λ β}
    {middle : α → World σ γ → Prop} {post : β → World σ γ → Prop} {world : World σ γ}
    (holds : P.inv world) (first : P.wp t program middle world)
    (second : ∀ value after, P.inv after → middle value after → P.wp t (rest value) post after) :
    P.wp t (program.bind rest) post world :=
  (wp_bind program rest post world).mpr (wp_mono holds first second)

/-- Branching on a condition. -/
theorem wp_ite {condition : Prop} [Decidable condition] {yes no : Program σ Λ α}
    {post : α → World σ γ → Prop} {world : World σ γ}
    (left : condition → P.wp t yes post world) (right : ¬ condition → P.wp t no post world) :
    P.wp t (if condition then yes else no) post world := by
  split
  · exact left ‹_›
  · exact right ‹_›

theorem wp_atomically {label : Λ} {action : σ → α × σ} {post : α → World σ γ → Prop}
    {world : World σ γ}
    (atomic : P.Atomic t label (fun _ => true) (fun state => (action state).2)
      (fun seen after => post (action seen).1 after) world) :
    P.wp t (Program.atomically label action) post world := atomic

theorem wp_whenEnabled {label : Λ} {enabled : σ → Bool} {action : σ → α × σ}
    {post : α → World σ γ → Prop} {world : World σ γ}
    (atomic : P.Atomic t label enabled (fun state => (action state).2)
      (fun seen after => post (action seen).1 after) world) :
    P.wp t (Program.whenEnabled label enabled action) post world := atomic

/-- A retry loop, by an invariant the other threads preserve. -/
theorem wp_repeatUntil {body : β → Program σ Λ (β ⊕ δ)} {start : β}
    {post : δ → World σ γ → Prop} {world : World σ γ} (invariant : β → World σ γ → Prop)
    (stable : ∀ again, P.Stable t (invariant again)) (begun : invariant start world)
    (round : ∀ again now, P.inv now → invariant again now →
      P.wp t (body again) (fun result after => match result with
        | .inl more => invariant more after
        | .inr value => post value after) now) :
    P.wp t (Program.repeatUntil body start) post world :=
  ⟨invariant, stable, begun, round⟩

/-- Programs that each keep a stable assertion keep it one after the other. -/
theorem wp_sequence {programs : List (Program σ Λ Unit)} {assertion : World σ γ → Prop}
    (each : ∀ program ∈ programs, ∀ now, P.inv now → assertion now →
      P.wp t program (fun _ => assertion) now)
    {world : World σ γ} (holds : P.inv world) (begun : assertion world) :
    P.wp t (Program.sequence programs) (fun _ => assertion) world := by
  induction programs generalizing world with
  | nil => exact begun
  | cons program rest ih =>
    refine wp_seq holds (each program (List.mem_cons_self ..) world holds begun) ?_
    intro _ after kept still
    exact ih (fun later member => each later (List.mem_cons_of_mem _ member)) kept still

/-- A program whose effects thread `t` cannot tell from the other threads'. -/
def Neutral (P : Protocol Tid σ Λ γ) (t : Tid) (program : Program σ Λ α) : Prop :=
  ∀ world, P.inv world → P.wp t program (fun _ after => P.rely t world after) world

theorem Neutral.wp {program : Program σ Λ α} (neutral : P.Neutral t program)
    {post : α → World σ γ → Prop} {world : World σ γ} (holds : P.inv world)
    (next : ∀ value after, P.rely t world after → P.inv after → post value after) :
    P.wp t program post world :=
  wp_mono holds (neutral world holds) fun value after kept moved => next value after moved kept

/-- Run a neutral program first. -/
theorem Neutral.andThen {program : Program σ Λ α} {rest : α → Program σ Λ β}
    (neutral : P.Neutral t program) {post : β → World σ γ → Prop} {world : World σ γ}
    (holds : P.inv world)
    (next : ∀ value after, P.rely t world after → P.inv after → P.wp t (rest value) post after) :
    P.wp t (program.bind rest) post world :=
  (wp_bind program rest post world).mpr (neutral.wp holds next)

theorem Neutral.ret (value : α) : P.Neutral t (.ret value : Program σ Λ α) :=
  fun world _ => P.rely_refl t world

theorem Neutral.bind {program : Program σ Λ α} {rest : α → Program σ Λ β}
    (first : P.Neutral t program) (second : ∀ value, P.Neutral t (rest value)) :
    P.Neutral t (program.bind rest) := by
  intro world holds
  refine wp_seq holds (first world holds) fun value middle kept moved => ?_
  exact (second value).wp kept fun _ after later _ => P.rely_trans t _ _ _ moved later

theorem Neutral.ite {condition : Prop} [Decidable condition] {yes no : Program σ Λ α}
    (left : P.Neutral t yes) (right : P.Neutral t no) :
    P.Neutral t (if condition then yes else no) := by
  split
  · exact left
  · exact right

theorem Neutral.repeatUntil {body : β → Program σ Λ (β ⊕ δ)} {start : β}
    (round : ∀ again, P.Neutral t (body again)) :
    P.Neutral t (Program.repeatUntil body start) := by
  intro world holds
  refine wp_repeatUntil (fun _ now => P.rely t world now)
    (fun _ now after moved later _ => P.rely_trans t _ _ _ moved later) (P.rely_refl t world)
    fun again now held moved => ?_
  refine (round again).wp held fun result after later _ => ?_
  have reached := P.rely_trans t _ _ _ moved later
  cases result with
  | inl more => exact reached
  | inr value => exact reached

theorem Neutral.sequence {programs : List (Program σ Λ Unit)}
    (each : ∀ program ∈ programs, P.Neutral t program) :
    P.Neutral t (Program.sequence programs) := by
  induction programs with
  | nil => exact .ret ()
  | cons program rest ih =>
    exact .bind (each program (List.mem_cons_self ..)) fun _ =>
      ih fun later member => each later (List.mem_cons_of_mem _ member)

/-- A precondition survives the steps of the other threads. -/
theorem wp_stable (program : Program σ Λ α) {post : α → World σ γ → Prop}
    (stable : ∀ value, P.Stable t (post value)) : P.Stable t (P.wp t program post) := by
  intro world after before moved holds
  cases program with
  | ret value => exact stable value world after before moved holds
  | step label enabled update next =>
    intro now later
    exact before now (P.rely_trans t _ _ _ moved later)
  | loop body start next =>
    obtain ⟨invariant, kept, begun, round⟩ := before
    exact ⟨invariant, kept, kept start world after begun moved holds, round⟩

end Rules

/-- Every thread is inside a precondition that asks nothing of its end. -/
def Inside [DecidableEq Tid] (config : Config Tid σ Λ γ) : Prop :=
  P.inv config.world ∧ ∀ t, P.wp t (config.thread t) (fun _ _ => True) config.world

variable [DecidableEq Tid] {P}

/-- One step of one thread keeps the invariant and every thread's precondition. -/
theorem Inside.next {config after : Config Tid σ Λ γ} (inside : P.Inside config)
    (allowed : config.Allowed P.allowed t) (taken : config.next P.record t = some after) :
    P.Inside after ∧ (after.world = config.world ∨ P.Guarantee t config.world after.world) := by
  obtain ⟨holds, threads⟩ := inside
  have mine := threads t
  unfold Config.next at taken
  unfold Config.Allowed at allowed
  generalize running : config.thread t = program at mine taken allowed
  cases program with
  | ret value => cases taken
  | step label enabled update next =>
    simp only at taken allowed
    split at taken
    · rename_i able
      cases taken
      obtain ⟨kept, guaranteed, rest⟩ :=
        mine config.world (P.rely_refl t _) holds allowed able
      refine ⟨⟨kept, fun other => ?_⟩, .inr guaranteed⟩
      by_cases same : other = t
      · subst same
        simpa only [Function.update_self] using rest
      · simp only [Function.update_of_ne same]
        exact wp_stable _ (fun _ _ _ _ _ _ => trivial) _ _ (threads other)
          (guaranteed other same) kept
    · cases taken
  | loop body start next =>
    cases taken
    obtain ⟨invariant, stable, begun, round⟩ := mine
    refine ⟨⟨holds, fun other => ?_⟩, .inl rfl⟩
    by_cases same : other = t
    · subst same
      simp only [Function.update_self]
      refine (wp_bind _ _ _ _).mpr (wp_mono holds (round start _ holds begun) ?_)
      intro result now kept outcome
      cases result with
      | inl again => exact ⟨invariant, stable, outcome, round⟩
      | inr value => exact outcome
    · simpa only [Function.update_of_ne same] using threads other

/-- **Soundness.** In every configuration that steps meeting the condition reach, the invariant
holds and every thread is still inside its precondition. -/
theorem sound {init config : Config Tid σ Λ γ} (start : P.Inside init)
    (reached : Reachable P.record P.allowed init config) : P.Inside config := by
  induction reached with
  | start => exact start
  | step t _ allowed taken ih => exact (Inside.next t ih allowed taken).1

end Protocol

end Concurrency
