/-
**A ledger beside each segment: who owns it, and which reader pins are held.**

The ledger is read off the labels of the steps: a transition hands the segment to the thread that
made it or to the chain, a steal hands it to the stealer, a push to the queue; a re-check that finds
the segment readable turns an increment into a pin. A pin remembers how often the segment had been
freed and pushed when it was taken.

* `record`: the ledger of every segment after a step;
* `SegmentView`, `view`: what the reader-pin protocol sees of one segment;
* `touches_exchange`, `touches_guardDrop`, `touches_pushFree`, …: each labelled step changes one
  segment's view.
-/

import CacheRs.Segments.Queues

namespace CacheRs.Segments

open Concurrency

variable {Tid : Type} [DecidableEq Tid]

/-- A reader's pin, with the segment's counts when it was acquired. -/
structure Pin (Tid : Type) where
  reader : Tid
  freed : Nat
  pushed : Nat
  deriving DecidableEq, Repr

/-- The history of one segment. -/
structure Ledger (Tid : Type) where
  /-- The thread that holds the segment between a queue and a chain, or drains it. -/
  owner : Option Tid
  /-- Freed after use, with the generation bump still to come. -/
  bumping : Bool
  /-- Used incarnations ended, transitions to `Free`, and pushes onto a queue. -/
  ended : Nat
  freed : Nat
  pushed : Nat
  /-- Readers between their increment and their re-check or backout. -/
  entering : List Tid
  pins : List (Pin Tid)
  /-- Incarnations ended when a thread last loaded the word as a claimant. -/
  loadedAt : Tid → Nat

namespace Ledger

/-- The ledger of a segment nothing has happened to. -/
def new : Ledger Tid := ⟨none, false, 0, 0, 0, [], [], fun _ => 0⟩

/-- After thread `t` moves the segment between two states. -/
def moved (ledger : Ledger Tid) (t : Tid) (before after : State) : Ledger Tid :=
  if before = after then ledger else
  match after with
  | .free => { ledger with
      owner := some t
      bumping := before = .draining || before = .awaitingRelease
      ended := if before = .draining || before = .awaitingRelease then ledger.ended + 1
        else ledger.ended
      freed := ledger.freed + 1 }
  | .reserved | .linking | .draining => { ledger with owner := some t }
  | .live | .sealed | .relinking | .locked | .awaitingRelease => { ledger with owner := none }

/-- After a reader's re-check. -/
def rechecked (ledger : Ledger Tid) (t : Tid) (readable : Bool) : Ledger Tid :=
  if readable then { ledger with
    entering := ledger.entering.erase t
    pins := ⟨t, ledger.freed, ledger.pushed⟩ :: ledger.pins }
  else ledger

/-- After a reader drops one of its pins. -/
def dropped (ledger : Ledger Tid) (t : Tid) : Ledger Tid :=
  { ledger with pins := ledger.pins.eraseP fun pin => pin.reader = t }

/-- After a push onto a queue. -/
def queued (ledger : Ledger Tid) : Ledger Tid :=
  { ledger with owner := none, pushed := ledger.pushed + 1 }

end Ledger

/-- Every segment's ledger. -/
abbrev History (Tid : Type) := SegId → Ledger Tid

/-- Enter a step in the ledgers. -/
def record (t : Tid) (label : Label) (state : Shared) (history : History Tid) : History Tid :=
  let enter (id : SegId) (ledger : Ledger Tid) : History Tid := Function.update history id ledger
  match label with
  | .other | .chain _ | .resetStats _ | .pinIncrement _ _ | .pinRecheck _ _ | .pinBackOut _ _
  | .pinRelease _ _ | .awaited _ _ => history
  | .exchange id current new =>
    if (state.header id).metadata = current then
      enter id ((history id).moved t current.state new.state)
    else history
  | .claimantExchange id current =>
    if (state.header id).metadata = current then
      enter id ((history id).moved t current.state .free)
    else history
  | .acquireIncrement id => enter id { history id with entering := t :: (history id).entering }
  | .acquireRecheck id =>
    enter id ((history id).rechecked t (state.header id).metadata.state.isReadable)
  | .backOut id => enter id { history id with entering := (history id).entering.erase t }
  | .guardDrop id => enter id ((history id).dropped t)
  | .claimantLoad id => enter id { history id with
      loadedAt := Function.update (history id).loadedAt t (history id).ended }
  | .bumpGeneration id => enter id { history id with bumping := false }
  | .pushFree id | .pushSpare id => enter id (history id).queued
  | .stealFree =>
    match state.freeQueue.head? with
    | some id => enter id { history id with owner := some t }
    | none => history
  | .stealSpare =>
    match state.spareQueue.head? with
    | some id => enter id { history id with owner := some t }
    | none => history

/-- What the reader-pin protocol sees of one segment. -/
@[ext] structure SegmentView (Tid : Type) where
  metadata : Metadata
  refCount : Nat
  generation : Nat
  /-- Occurrences in the two queues. -/
  queued : Nat
  ledger : Ledger Tid

namespace SegmentView

variable (t : Tid) (v : SegmentView Tid)

/-- After thread `t` exchanges the word for `new`. -/
def moved (new : Metadata) : SegmentView Tid :=
  { v with metadata := new, ledger := v.ledger.moved t v.metadata.state new.state }

/-- After a reader's increment, re-check, backout and guard drop. -/
def incremented : SegmentView Tid :=
  { v with
    refCount := v.refCount + 1
    ledger := { v.ledger with entering := t :: v.ledger.entering } }

def rechecked : SegmentView Tid :=
  { v with ledger := v.ledger.rechecked t v.metadata.state.isReadable }

def backedOut : SegmentView Tid :=
  { v with
    refCount := v.refCount - 1
    ledger := { v.ledger with entering := v.ledger.entering.erase t } }

def dropped : SegmentView Tid :=
  { v with refCount := v.refCount - 1, ledger := v.ledger.dropped t }

/-- After a claimant's load of the word. -/
def claimantLoaded : SegmentView Tid :=
  { v with
    ledger := { v.ledger with
      loadedAt := Function.update v.ledger.loadedAt t v.ledger.ended } }

def bumped : SegmentView Tid :=
  { v with
    generation := (v.generation + 1) % 2 ^ 16
    ledger := { v.ledger with bumping := false } }

/-- After a push onto a queue, and after a steal from one. -/
def pushed : SegmentView Tid :=
  { v with queued := v.queued + 1, ledger := v.ledger.queued }

def stolen : SegmentView Tid :=
  { v with queued := v.queued - 1, ledger := { v.ledger with owner := some t } }

end SegmentView

/-- One segment's view of the world. -/
def view (world : World Shared (History Tid)) (id : SegId) : SegmentView Tid where
  metadata := (world.shared.header id).metadata
  refCount := (world.shared.header id).refCount
  generation := (world.shared.header id).generation
  queued := world.shared.freeQueue.count id + world.shared.spareQueue.count id
  ledger := world.history id

/-- The views after a step that changes one segment's view. -/
def Touches (world after : World Shared (History Tid)) (id : SegId)
    (changed : SegmentView Tid) : Prop :=
  view after id = changed ∧ ∀ other, other ≠ id → view after other = view world other

section Steps

variable (world : World Shared (History Tid)) (t : Tid) (id : SegId)

theorem touches_exchange {current : Metadata} (new : Metadata)
    (found : (view world id).metadata = current) :
    Touches world
      (world.after record t (.exchange id current new) (·.exchangeMetadata id current new)) id
      ((view world id).moved t new) := by
  subst found
  refine ⟨?_, fun other different => ?_⟩
  · simp [view, World.after, record, Shared.exchangeMetadata, SegmentView.moved]
  · simp [view, World.after, record, Shared.exchangeMetadata, different]

theorem exchange_lost {current : Metadata} (new : Metadata)
    (differs : (view world id).metadata ≠ current) :
    world.after record t (.exchange id current new) (·.exchangeMetadata id current new) = world := by
  have lost : ¬ (world.shared.header id).metadata = current := differs
  ext
  · simp [World.after, Shared.exchangeMetadata, lost]
  · simp [World.after, record, lost]

theorem touches_claimantExchange {current : Metadata}
    (found : (view world id).metadata = current) :
    Touches world
      (world.after record t (.claimantExchange id current)
        (·.exchangeMetadata id current .newFree)) id
      ((view world id).moved t .newFree) := by
  subst found
  refine ⟨?_, fun other different => ?_⟩
  · simp [view, World.after, record, Shared.exchangeMetadata, SegmentView.moved, Metadata.newFree]
  · simp [view, World.after, record, Shared.exchangeMetadata, different]

theorem claimantExchange_lost {current : Metadata}
    (differs : (view world id).metadata ≠ current) :
    world.after record t (.claimantExchange id current)
      (·.exchangeMetadata id current .newFree) = world := by
  have lost : ¬ (world.shared.header id).metadata = current := differs
  ext
  · simp [World.after, Shared.exchangeMetadata, lost]
  · simp [World.after, record, lost]

theorem touches_acquireIncrement :
    Touches world
      (world.after record t (.acquireIncrement id) fun state => state.modifyHeader id fun header =>
        { header with refCount := header.refCount + 1 }) id
      ((view world id).incremented t) := by
  refine ⟨?_, fun other different => ?_⟩
  · simp [view, World.after, record, SegmentView.incremented]
  · simp [view, World.after, record, different]

theorem touches_acquireRecheck :
    Touches world
      (world.after record t (.acquireRecheck id) fun state => state) id
      ((view world id).rechecked t) := by
  refine ⟨?_, fun other different => ?_⟩
  · simp [view, World.after, record, SegmentView.rechecked]
  · simp [view, World.after, record, different]

theorem touches_backOut :
    Touches world
      (world.after record t (.backOut id) fun state => state.modifyHeader id fun header =>
        { header with refCount := header.refCount - 1 }) id
      ((view world id).backedOut t) := by
  refine ⟨?_, fun other different => ?_⟩
  · simp [view, World.after, record, SegmentView.backedOut]
  · simp [view, World.after, record, different]

theorem touches_guardDrop :
    Touches world
      (world.after record t (.guardDrop id) fun state => state.modifyHeader id fun header =>
        { header with refCount := header.refCount - 1 }) id
      ((view world id).dropped t) := by
  refine ⟨?_, fun other different => ?_⟩
  · simp [view, World.after, record, SegmentView.dropped]
  · simp [view, World.after, record, different]

theorem touches_claimantLoad :
    Touches world
      (world.after record t (.claimantLoad id) fun state => state) id
      ((view world id).claimantLoaded t) := by
  refine ⟨?_, fun other different => ?_⟩
  · simp [view, World.after, record, SegmentView.claimantLoaded]
  · simp [view, World.after, record, different]

theorem touches_bumpGeneration :
    Touches world
      (world.after record t (.bumpGeneration id) fun state => state.modifyHeader id fun header =>
        { header with generation := (header.generation + 1) % 2 ^ 16 }) id
      (view world id).bumped := by
  refine ⟨?_, fun other different => ?_⟩
  · simp [view, World.after, record, SegmentView.bumped]
  · simp [view, World.after, record, different]

theorem touches_pushFree :
    Touches world
      (world.after record t (.pushFree id) fun state =>
        { state with freeQueue := state.freeQueue ++ [id] }) id
      (view world id).pushed := by
  refine ⟨?_, fun other different => ?_⟩
  · simp [view, World.after, record, SegmentView.pushed, List.count_append,
      Nat.add_right_comm]
  · simp [view, World.after, record, List.count_append, different.symm,
      different]

theorem touches_pushSpare :
    Touches world
      (world.after record t (.pushSpare id) fun state =>
        { state with spareQueue := state.spareQueue ++ [id] }) id
      (view world id).pushed := by
  refine ⟨?_, fun other different => ?_⟩
  · simp [view, World.after, record, SegmentView.pushed, List.count_append,
      Nat.add_assoc]
  · simp [view, World.after, record, List.count_append, different.symm,
      different]

theorem touches_stealFree {rest : List SegId} (queue : world.shared.freeQueue = id :: rest) :
    Touches world
      (world.after record t .stealFree fun state =>
        { state with freeQueue := state.freeQueue.tail }) id
      ((view world id).stolen t) := by
  refine ⟨?_, fun other different => ?_⟩
  · simp [view, World.after, record, SegmentView.stolen, queue, Nat.add_right_comm]
  · simp [view, World.after, record, queue, different.symm, different]

theorem touches_stealSpare {rest : List SegId} (queue : world.shared.spareQueue = id :: rest) :
    Touches world
      (world.after record t .stealSpare fun state =>
        { state with spareQueue := state.spareQueue.tail }) id
      ((view world id).stolen t) := by
  refine ⟨?_, fun other different => ?_⟩
  · simp [view, World.after, record, SegmentView.stolen, queue, ← Nat.add_assoc]
  · simp [view, World.after, record, queue, different.symm, different]

end Steps

end CacheRs.Segments
