/-
**A ledger of each segment's writers, removers and drainers.**

The ledger is read off the labels of the steps: a claim makes its thread a drainer until that thread
moves the segment out of `Draining`, the drainer's waits are entered as they end, and a re-check that
admits the pin turns an increment into a grant. A grant remembers the generation, and how often the
generation had been bumped and the write statistics reset when it was made.

* `record`: the ledger of every segment after a step;
* `SegmentView`, `view`: what the pin–drain protocol sees of one segment;
* `touches_modifyHeader`, `touches_exchange`, `touches_pushFree`, …: each labelled step changes one
  segment's view.
-/

import CacheRs.Concurrency.Views
import CacheRs.Segments.Queues

namespace CacheRs.Segments.Drains

open Concurrency

variable {Tid : Type} [DecidableEq Tid]

/-- A granted pin, with the segment's generation and counts when it was granted. -/
structure Grant (Tid : Type) where
  holder : Tid
  generation : Nat
  bumps : Nat
  resets : Nat
  deriving DecidableEq, Repr

/-- The history of one segment. -/
structure Ledger (Tid : Type) where
  /-- The thread that holds the segment between a queue and a chain, or drains it. -/
  owner : Option Tid
  /-- The threads that claimed the segment for draining and have not moved it on. -/
  drainers : List Tid
  /-- The drainer's wait for the pins of a kind has ended, and the segment is not back in
  service. -/
  waited : PinKind → Bool
  /-- Threads between their increment and their re-check or backout. -/
  entering : PinKind → List Tid
  granted : PinKind → List (Grant Tid)
  /-- Generation bumps, and stores that reset the write statistics. -/
  bumps : Nat
  resets : Nat

/-- The states of a segment that one thread has to itself, but for a free segment in a queue. -/
def Withheld (state : State) : Bool :=
  state = .free || state = .reserved || state = .linking || state = .draining

namespace Ledger

/-- The ledger of a segment nothing has happened to. -/
def new : Ledger Tid := ⟨none, [], fun _ => false, fun _ => [], fun _ => [], 0, 0⟩

/-- After thread `t` moves the segment between two states. A segment is back in service once its
state admits pins again. -/
def moved (ledger : Ledger Tid) (t : Tid) (before after : State) : Ledger Tid :=
  if before = after then ledger else
  { ledger with
    owner := if Withheld after then some t else none
    drainers :=
      if after = .draining then t :: ledger.drainers
      else if before = .draining then ledger.drainers.erase t
      else ledger.drainers
    waited := if after = .draining || after.isRemovable then fun _ => false else ledger.waited }

/-- After an increment, a backout and a release. -/
def incremented (ledger : Ledger Tid) (t : Tid) (kind : PinKind) : Ledger Tid :=
  { ledger with
    entering := Function.update ledger.entering kind (t :: ledger.entering kind) }

def backedOut (ledger : Ledger Tid) (t : Tid) (kind : PinKind) : Ledger Tid :=
  { ledger with
    entering := Function.update ledger.entering kind ((ledger.entering kind).erase t) }

def released (ledger : Ledger Tid) (t : Tid) (kind : PinKind) : Ledger Tid :=
  { ledger with
    granted := Function.update ledger.granted kind
      ((ledger.granted kind).eraseP fun grant => grant.holder = t) }

/-- After a re-check that admits the pin. -/
def grants (ledger : Ledger Tid) (t : Tid) (kind : PinKind) (generation : Nat) : Ledger Tid :=
  { ledger with
    entering := Function.update ledger.entering kind ((ledger.entering kind).erase t)
    granted := Function.update ledger.granted kind
      (⟨t, generation, ledger.bumps, ledger.resets⟩ :: ledger.granted kind) }

/-- After the end of a drainer's wait. -/
def awaited (ledger : Ledger Tid) (t : Tid) (kind : PinKind) : Ledger Tid :=
  if t ∈ ledger.drainers then
    { ledger with waited := Function.update ledger.waited kind true }
  else ledger

end Ledger

/-- Every segment's ledger. -/
abbrev History (Tid : Type) := SegId → Ledger Tid

/-- Enter a step in the ledgers. -/
def record (t : Tid) (label : Label) (state : Shared) (history : History Tid) : History Tid :=
  let enter (id : SegId) (ledger : Ledger Tid) : History Tid := Function.update history id ledger
  match label with
  | .exchange id current new =>
    if (state.header id).metadata = current then
      enter id ((history id).moved t current.state new.state)
    else history
  | .claimantExchange id current =>
    if (state.header id).metadata = current then
      enter id ((history id).moved t current.state .free)
    else history
  | .pinIncrement kind id => enter id ((history id).incremented t kind)
  | .pinRecheck kind id =>
    if kind.admits (state.header id).metadata.state then
      enter id ((history id).grants t kind (state.header id).generation)
    else history
  | .pinBackOut kind id => enter id ((history id).backedOut t kind)
  | .pinRelease kind id => enter id ((history id).released t kind)
  | .awaited kind id => enter id ((history id).awaited t kind)
  | .bumpGeneration id => enter id { history id with bumps := (history id).bumps + 1 }
  | .resetStats id => enter id { history id with resets := (history id).resets + 1 }
  | .pushFree id | .pushSpare id => enter id { history id with owner := none }
  | .stealFree =>
    match state.freeQueue.head? with
    | some id => enter id { history id with owner := some t }
    | none => history
  | .stealSpare =>
    match state.spareQueue.head? with
    | some id => enter id { history id with owner := some t }
    | none => history
  | .other | .chain _ | .acquireIncrement _ | .acquireRecheck _ | .backOut _ | .guardDrop _
  | .claimantLoad _ => history

/-- What the pin–drain protocol sees of one segment. -/
@[ext] structure SegmentView (Tid : Type) where
  metadata : Metadata
  count : PinKind → Nat
  generation : Nat
  /-- Occurrences in the two queues. -/
  queued : Nat
  ledger : Ledger Tid

namespace SegmentView

variable (t : Tid) (kind : PinKind) (v : SegmentView Tid)

/-- After thread `t` exchanges the word for `new`. -/
def moved (new : Metadata) : SegmentView Tid :=
  { v with metadata := new, ledger := v.ledger.moved t v.metadata.state new.state }

/-- After the increment of a pin, its granting re-check, its backout and its release. -/
def incremented : SegmentView Tid :=
  { v with
    count := Function.update v.count kind (v.count kind + 1)
    ledger := v.ledger.incremented t kind }

def granting : SegmentView Tid := { v with ledger := v.ledger.grants t kind v.generation }

def backedOut : SegmentView Tid :=
  { v with
    count := Function.update v.count kind (v.count kind - 1)
    ledger := v.ledger.backedOut t kind }

def released : SegmentView Tid :=
  { v with
    count := Function.update v.count kind (v.count kind - 1)
    ledger := v.ledger.released t kind }

/-- After the end of a wait. -/
def awaited : SegmentView Tid := { v with ledger := v.ledger.awaited t kind }

/-- After a generation bump, and after a store that resets the write statistics. -/
def bumped : SegmentView Tid :=
  { v with
    generation := (v.generation + 1) % 2 ^ 16
    ledger := { v.ledger with bumps := v.ledger.bumps + 1 } }

def resetting : SegmentView Tid :=
  { v with ledger := { v.ledger with resets := v.ledger.resets + 1 } }

/-- After a push onto a queue, and after a steal from one. -/
def pushed : SegmentView Tid :=
  { v with queued := v.queued + 1, ledger := { v.ledger with owner := none } }

def stolen : SegmentView Tid :=
  { v with queued := v.queued - 1, ledger := { v.ledger with owner := some t } }

end SegmentView

/-- One segment's view of the world. -/
def view (world : World Shared (History Tid)) (id : SegId) : SegmentView Tid where
  metadata := (world.shared.header id).metadata
  count kind := kind.count (world.shared.header id)
  generation := (world.shared.header id).generation
  queued := world.shared.freeQueue.count id + world.shared.spareQueue.count id
  ledger := world.history id

/-- The views after a step that changes one segment's view. -/
abbrev Touches (world after : World Shared (History Tid)) (id : SegId)
    (changed : SegmentView Tid) : Prop :=
  Views.Touches view world after id changed

theorem count_adjust (kind : PinKind) (change : Nat → Nat) (header : SegmentHeader) :
    (fun other : PinKind => other.count (kind.adjust change header)) =
      Function.update (fun other : PinKind => other.count header) kind
        (change (kind.count header)) := by
  funext other
  cases kind <;> cases other <;> rfl

theorem count_metadata (header : SegmentHeader) (new : Metadata) :
    (fun kind : PinKind => kind.count { header with metadata := new }) =
      fun kind => kind.count header := by
  funext kind
  cases kind <;> rfl

@[simp] theorem adjust_metadata (kind : PinKind) (change : Nat → Nat) (header : SegmentHeader) :
    (kind.adjust change header).metadata = header.metadata := by
  cases kind <;> rfl

@[simp] theorem adjust_generation (kind : PinKind) (change : Nat → Nat) (header : SegmentHeader) :
    (kind.adjust change header).generation = header.generation := by
  cases kind <;> rfl

section Steps

variable (world : World Shared (History Tid)) (t : Tid) (id : SegId) (kind : PinKind)

/-- A step that changes one header and enters that segment's ledger touches its view alone. -/
theorem touches_modifyHeader (label : Label) (change : SegmentHeader → SegmentHeader)
    {ledger : Ledger Tid}
    (entered : record t label world.shared world.history =
      Function.update world.history id ledger) :
    Touches world (world.after record t label (·.modifyHeader id change)) id
      { metadata := (change (world.shared.header id)).metadata
        count := fun kind => kind.count (change (world.shared.header id))
        generation := (change (world.shared.header id)).generation
        queued := (view world id).queued
        ledger := ledger } := by
  refine ⟨?_, fun other different => ?_⟩
  · simp [view, World.after, entered]
  · simp [view, World.after, entered, different]

/-- A step that changes no header and enters one segment's ledger touches its view alone. -/
theorem touches_entered {label : Label} {ledger : Ledger Tid}
    (entered : record t label world.shared world.history =
      Function.update world.history id ledger) :
    Touches world (world.after record t label fun state => state) id
      { view world id with ledger := ledger } := by
  refine ⟨?_, fun other different => ?_⟩
  · simp [view, World.after, entered]
  · simp [view, World.after, entered, different]

theorem touches_exchange {label : Label} {current : Metadata} (new : Metadata)
    (entered : record t label world.shared world.history =
      Function.update world.history id ((world.history id).moved t current.state new.state))
    (found : (view world id).metadata = current) :
    Touches world (world.after record t label (·.exchangeMetadata id current new)) id
      ((view world id).moved t new) := by
  have won : world.after record t label (·.exchangeMetadata id current new) =
      world.after record t label (·.modifyHeader id fun header =>
        { header with metadata := new }) := by
    have here : (world.shared.header id).metadata = current := found
    simp [World.after, Shared.exchangeMetadata, here]
  rw [won]
  subst found
  have touches := touches_modifyHeader world t id label
    (fun header => { header with metadata := new }) entered
  rw [count_metadata] at touches
  exact touches

theorem exchange_lost {label : Label} {current : Metadata} (new : Metadata)
    (unentered : record t label world.shared world.history = world.history)
    (differs : (view world id).metadata ≠ current) :
    world.after record t label (·.exchangeMetadata id current new) = world := by
  have lost : ¬ (world.shared.header id).metadata = current := differs
  ext
  · simp [World.after, Shared.exchangeMetadata, lost]
  · exact congrFun unentered _

theorem touches_pinIncrement :
    Touches world
      (world.after record t (.pinIncrement kind id) fun state =>
        state.modifyHeader id fun header => kind.adjust (· + 1) header) id
      ((view world id).incremented t kind) := by
  have touches := touches_modifyHeader world t id (.pinIncrement kind id)
    (fun header => kind.adjust (· + 1) header) rfl
  rw [adjust_metadata, adjust_generation, count_adjust] at touches
  exact touches

theorem touches_pinBackOut :
    Touches world
      (world.after record t (.pinBackOut kind id) fun state =>
        state.modifyHeader id fun header => kind.adjust (· - 1) header) id
      ((view world id).backedOut t kind) := by
  have touches := touches_modifyHeader world t id (.pinBackOut kind id)
    (fun header => kind.adjust (· - 1) header) rfl
  rw [adjust_metadata, adjust_generation, count_adjust] at touches
  exact touches

theorem touches_pinRelease :
    Touches world
      (world.after record t (.pinRelease kind id) fun state =>
        state.modifyHeader id fun header => kind.adjust (· - 1) header) id
      ((view world id).released t kind) := by
  have touches := touches_modifyHeader world t id (.pinRelease kind id)
    (fun header => kind.adjust (· - 1) header) rfl
  rw [adjust_metadata, adjust_generation, count_adjust] at touches
  exact touches

theorem touches_granting (admits : kind.admits (view world id).metadata.state = true) :
    Touches world (world.after record t (.pinRecheck kind id) fun state => state) id
      ((view world id).granting t kind) := by
  have here : kind.admits (world.shared.header id).metadata.state = true := admits
  exact touches_entered world t id (by simp only [record, here, if_true]; rfl)

theorem recheck_refused (refuses : kind.admits (view world id).metadata.state = false) :
    (world.after record t (.pinRecheck kind id) fun state => state) = world := by
  have here : kind.admits (world.shared.header id).metadata.state = false := refuses
  ext
  · rfl
  · simp [World.after, record, here]

theorem touches_awaited :
    Touches world (world.after record t (.awaited kind id) fun state => state) id
      ((view world id).awaited t kind) :=
  touches_entered world t id rfl

theorem touches_bumpGeneration :
    Touches world
      (world.after record t (.bumpGeneration id) fun state => state.modifyHeader id fun header =>
        { header with generation := (header.generation + 1) % 2 ^ 16 }) id
      (view world id).bumped := by
  have touches := touches_modifyHeader world t id (.bumpGeneration id)
    (fun header => { header with generation := (header.generation + 1) % 2 ^ 16 }) rfl
  exact touches

theorem touches_resetStats {change : SegmentHeader → SegmentHeader}
    (metadata : ∀ header, (change header).metadata = header.metadata)
    (count : ∀ (kind : PinKind) header, kind.count (change header) = kind.count header)
    (generation : ∀ header, (change header).generation = header.generation) :
    Touches world
      (world.after record t (.resetStats id) fun state => state.modifyHeader id change) id
      (view world id).resetting := by
  have touches := touches_modifyHeader world t id (.resetStats id) change rfl
  simp only [metadata, count, generation] at touches
  exact touches

theorem touches_pushFree :
    Touches world
      (world.after record t (.pushFree id) fun state =>
        { state with freeQueue := state.freeQueue ++ [id] }) id
      (view world id).pushed := by
  refine ⟨?_, fun other different => ?_⟩
  · simp [view, World.after, record, SegmentView.pushed, List.count_append, Nat.add_right_comm]
  · simp [view, World.after, record, List.count_append, different.symm, different]

theorem touches_pushSpare :
    Touches world
      (world.after record t (.pushSpare id) fun state =>
        { state with spareQueue := state.spareQueue ++ [id] }) id
      (view world id).pushed := by
  refine ⟨?_, fun other different => ?_⟩
  · simp [view, World.after, record, SegmentView.pushed, List.count_append, Nat.add_assoc]
  · simp [view, World.after, record, List.count_append, different.symm, different]

theorem touches_stealFree {rest : List SegId} (queue : world.shared.freeQueue = id :: rest) :
    Touches world
      (world.after record t .stealFree fun state =>
        { state with freeQueue := state.freeQueue.tail }) id
      ((view world id).stolen t) := by
  refine ⟨?_, fun other different => ?_⟩
  · simp [view, World.after, record, SegmentView.stolen, queue, Nat.add_right_comm]
  · simp [view, World.after, record, queue, different.symm, different]

theorem touches_stealSpare {rest : List SegId} (queue : world.shared.spareQueue = id :: rest) :
    Touches world
      (world.after record t .stealSpare fun state =>
        { state with spareQueue := state.spareQueue.tail }) id
      ((view world id).stolen t) := by
  refine ⟨?_, fun other different => ?_⟩
  · simp [view, World.after, record, SegmentView.stolen, queue, ← Nat.add_assoc]
  · simp [view, World.after, record, queue, different.symm, different]

end Steps

end CacheRs.Segments.Drains
