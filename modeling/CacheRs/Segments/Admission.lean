/-
**The admission pool: labels and their count.**

An insert labels the segment it writes to as admission-pool and counts the label; a segment that
leaves service gives its label back and is counted out. Label and count are separate words, each
change of the two takes two steps, and other threads run in between.

* `casPool`, `incrPool`, `resetPool`, `label`, `configure`: the steps on the two words, and the
  operations that take them;
* `recycle`, `condemn`, `retire`, `finalizeDrained`: the drain with these steps labelled, and
  `erase_retire`: it is the drain of the segments' model;
* `PoolHistory`, `poolLayer`: who is between two such steps, over the pin–drain protocol.
-/

import CacheRs.Concurrency.Layer
import CacheRs.Segments.DrainExclusion

set_option linter.unusedSectionVars false

namespace CacheRs.Segments.Drains.Admission

open Concurrency

variable {Tid : Type} [DecidableEq Tid]

/-! ### Programs -/

/-- The steps on labels and their count; the others keep the labels they have. -/
inductive PoolLabel where
  | base (label : Label)
  /-- The exchange of main for admission. -/
  | casPool (id : SegId)
  | incrPool (id : SegId)
  | decrPool (id : SegId)
  | resetPool (id : SegId)

/-- To the pins and drains a step on a segment's pool is none of theirs. -/
def PoolLabel.erase : PoolLabel → Label
  | .base label => label
  | .casPool _ | .incrPool _ | .decrPool _ | .resetPool _ => .other

abbrev PoolProg := Program Shared PoolLabel

/-- A program that does not touch the pools. -/
abbrev plain {α : Type} (program : Prog α) : PoolProg α := program.relabel .base

variable (id : SegId)

/-- Exchange a segment's pool; whether it was the expected one. -/
def casPool (entered : PoolLabel) (expected new : SegmentPool) : PoolProg Bool :=
  .atomically entered fun state =>
    (decide ((state.header id).pool = expected),
      if (state.header id).pool = expected then
        state.modifyHeader id fun header => { header with pool := new }
      else state)

/-- Count a segment into its pool; only the admission pool is counted. -/
def incrPool (pool : SegmentPool) : PoolProg Unit :=
  if pool = .admission then
    .atomically (.incrPool id) fun state =>
      ((), { state with admissionCount := state.admissionCount + 1 })
  else pure ()

def resetPool : PoolProg Unit :=
  .atomically (.resetPool id) fun state =>
    ((), state.modifyHeader id fun header => { header with pool := .main })

/-- What an insert does once it has reserved space under a writer's pin: the insert whose exchange
changes the label counts it. -/
def label (target : SegmentPool) : PoolProg Unit :=
  if target = .admission then do
    if ← casPool id (.casPool id) .main .admission then incrPool id .admission
  else pure ()

/-- Configure a reserved segment as the destination of a copy. -/
def configure (ttl : Nat) : PoolProg Unit := do
  plain (store id fun header => { header with ttl := ttl })
  resetPool id
  plain (markMerged id)

/-- Count a segment out that was labelled admission-pool. -/
def countOut (pool : SegmentPool) : PoolProg Unit :=
  if pool = .admission then do
    let prev ← Program.atomically (.decrPool id) fun state : Shared =>
      (state.admissionCount, { state with admissionCount := state.admissionCount - 1 })
    plain (assertThat (prev > 0))
  else pure ()

def leavePool : PoolProg Unit := do
  let pool ← plain (load .other id (·.pool))
  countOut id pool
  resetPool id

def recycle : PoolProg Unit := do
  plain (unlink id)
  leavePool id
  plain (resetWriteStats id)
  let freed ← plain (tryReleaseDrained id)
  plain (do
    assertThat freed
    returnSegment id)

/-- What follows the transition of a condemned segment. -/
def afterCondemn (next prev : Option SegId) : Prog ClearOutcome := do
  onLink prev fun p => updateLinks p (some next) none
  onLink next fun n => updateLinks n none (some prev)
  if (← refCountSeqcst id) = 0 then
    if ← tryReleaseCondemned id then
      resetWriteStats id
      returnSegment id
      return .freed
  return .deferred

def condemn (next prev : Option SegId) : PoolProg ClearOutcome := do
  leavePool id
  let condemned ← plain (casCondemn id)
  plain (do
    assertThat condemned
    afterCondemn id next prev)

def retire (next prev : Option SegId) : PoolProg ClearOutcome := do
  let readers ← plain (refCountSeqcst id)
  if readers = 0 then do
    recycle id
    return .freed
  else condemn id next prev

def finalizeDrained : PoolProg ClearOutcome := do
  let word ← plain (metadata id)
  retire id word.next word.prev

/-! ### Erasing the labels -/

theorem erase_plain {α : Type} (program : Prog α) :
    (plain program).relabel PoolLabel.erase = program := by
  induction program with
  | ret value => rfl
  | step label enabled update next ih =>
    simp only [plain, Program.relabel] at ih ⊢
    congr 1
    funext seen
    exact ih seen
  | loop body start next bodyIh nextIh =>
    simp only [plain, Program.relabel] at bodyIh nextIh ⊢
    congr 1
    · funext again
      exact bodyIh again
    · funext result
      exact nextIh result

theorem erase_leavePool : (leavePool id).relabel PoolLabel.erase = Segments.leavePool id := by
  simp only [leavePool, Program.bind_eq, Program.relabel_bind, erase_plain]
  refine congrArg _ (funext fun pool => ?_)
  by_cases labelled : pool = .admission
  · simp only [countOut, if_pos labelled, Program.bind_eq, Program.relabel_bind, erase_plain,
      Program.bind_assoc]
    rfl
  · simp only [countOut, if_neg labelled]
    rfl

theorem erase_recycle : (recycle id).relabel PoolLabel.erase = Segments.recycle id := by
  simp only [recycle, Program.bind_eq, Program.relabel_bind, erase_plain, erase_leavePool]
  rfl

theorem erase_condemn (next prev : Option SegId) :
    (condemn id next prev).relabel PoolLabel.erase = Segments.condemn id next prev := by
  simp only [condemn, Program.bind_eq, Program.relabel_bind, erase_plain, erase_leavePool]
  rfl

/-- **Without its labels it is the drain of the segments' model.** -/
theorem erase_retire (next prev : Option SegId) :
    (retire id next prev).relabel PoolLabel.erase = Segments.retire id next prev := by
  simp only [retire, Program.bind_eq, Program.relabel_bind, erase_plain]
  refine congrArg _ (funext fun readers => ?_)
  rw [Program.relabel_ite, Program.relabel_bind, erase_recycle, erase_condemn]
  rfl

theorem erase_finalizeDrained :
    (finalizeDrained id).relabel PoolLabel.erase = Segments.finalizeDrained id := by
  simp only [finalizeDrained, Program.bind_eq, Program.relabel_bind, erase_plain, erase_retire]
  rfl

/-! ### Histories -/

/-- The labels' history: which of them are counted, and who is between two steps. -/
structure PoolHistory (Tid : Type) where
  counted : List SegId
  /-- Inserts between their exchange and their increment. -/
  labelling : List (SegId × Tid)
  /-- Drainers between their decrement and their reset. -/
  leaving : List (SegId × Tid)
  /-- A decrement has found the count at zero. -/
  underflowed : Bool

namespace PoolHistory

def new : PoolHistory Tid := ⟨[], [], [], false⟩

/-- The segments with an admission label. -/
def labelled (history : PoolHistory Tid) : List SegId :=
  history.counted ++ (history.labelling.map Prod.fst ++ history.leaving.map Prod.fst)

end PoolHistory

/-- Enter a step in the labels' history. -/
def record (t : Tid) (entered : PoolLabel) (state : Shared) (history : PoolHistory Tid) :
    PoolHistory Tid :=
  match entered with
  | .base _ => history
  | .casPool id =>
    if (state.header id).pool = .main then
      { history with labelling := (id, t) :: history.labelling }
    else history
  | .incrPool id =>
    { history with
      counted := id :: history.counted
      labelling := history.labelling.erase (id, t) }
  | .decrPool id =>
    { history with
      counted := history.counted.erase id
      leaving := (id, t) :: history.leaving
      underflowed := history.underflowed || state.admissionCount = 0 }
  | .resetPool id => { history with leaving := history.leaving.erase (id, t) }

/-- The world with both histories. -/
abbrev PoolWorld (Tid : Type) := World Shared (History Tid × PoolHistory Tid)

/-- Thread `t` has the segment, and no writer can pin it. -/
def Closing (t : Tid) (id : SegId) (world : PoolWorld Tid) : Prop :=
  (world.history.1 id).owner = some t ∧ (world.history.1 id).waited .writer = true

/-- The states of a segment that may belong to the admission pool. -/
def Admitting (state : State) : Bool :=
  state = .live || state = .sealed || state = .draining

/-- The labels and their count agree, but for the threads between two steps. -/
structure PoolsOk (world : PoolWorld Tid) : Prop where
  distinct : world.history.2.labelled.Nodup
  labelled : ∀ id, (world.shared.header id).pool = .admission ↔ id ∈ world.history.2.labelled
  counted : world.shared.admissionCount = world.history.2.counted.length
  labelling : ∀ id t, (id, t) ∈ world.history.2.labelling →
    0 < ((world.history.1 id).granted .writer).countP (·.holder = t)
  leaving : ∀ id t, (id, t) ∈ world.history.2.leaving → Closing t id world
  idle : ∀ id, (world.shared.header id).pool = .admission →
    Admitting (world.shared.header id).metadata.state = true
  exact : world.history.2.underflowed = false

/-- What thread `t` relies on while others step. -/
structure PoolsRely (t : Tid) (world after : PoolWorld Tid) : Prop where
  labelling : ∀ id, after.history.2.labelling.count (id, t) =
    world.history.2.labelling.count (id, t)
  leaving : ∀ id, after.history.2.leaving.count (id, t) = world.history.2.leaving.count (id, t)
  pool : ∀ id, Closing t id world → (after.shared.header id).pool = (world.shared.header id).pool

/-- The other threads leave a closed segment closed. -/
theorem Closing.rely {t : Tid} {id : SegId} {world after : PoolWorld Tid}
    (closing : Closing t id world) (moved : pinDrain.rely t world.base after.base) :
    Closing t id after := by
  obtain ⟨owner, -, waited⟩ := (moved id).owned closing.1
  exact ⟨owner, (congrFun waited .writer).trans closing.2⟩

/-- The labels and their count, over the pins and drains. -/
def poolLayer : Layer (@pinDrain Tid _) PoolLabel (PoolHistory Tid) where
  erase := PoolLabel.erase
  record := record
  inv := PoolsOk
  rely := PoolsRely
  rely_refl _ _ := ⟨fun _ => rfl, fun _ => rfl, fun _ _ => rfl⟩
  rely_trans _ _ _ _ below before later :=
    ⟨fun id => (later.labelling id).trans (before.labelling id),
      fun id => (later.leaving id).trans (before.leaving id),
      fun id closing => (later.pool id (closing.rely below)).trans (before.pool id closing)⟩

/-- The protocol of pins, drains and labels. -/
abbrev pools : Protocol Tid Shared PoolLabel (History Tid × PoolHistory Tid) := poolLayer.protocol

end CacheRs.Segments.Drains.Admission
