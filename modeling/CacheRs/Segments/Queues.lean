/-
**Segments changing hands: the free and spare queues, drains and guards.**

The functions of `Segments` that take a segment from a queue or give it back, the drain that frees
or condemns a segment, and the reader guard, as programs over the header operations. A reservation
that fails puts the id back; a condemned segment is freed by whichever of its three claimants wins
(the last guard drop, the condemner's recheck, or the backout of a failed acquire).

Sweeping the hashtable and the data writes between these steps touch no word modelled here.
-/

import CacheRs.Segments.Header

namespace CacheRs.Segments

open Concurrency

/-! ### The queues -/

def pushFree (id : SegId) : Prog Unit :=
  .atomically (.pushFree id) fun state =>
    ((), { state with freeQueue := state.freeQueue ++ [id] })

/-- Push an id that has become reservable, and count it. -/
def pushFreed (id : SegId) : Prog Unit := do
  pushFree id
  .atomically .other fun state => ((), { state with freed := state.freed + 1 })

def stealFree : Prog (Option SegId) :=
  .atomically .stealFree fun state =>
    (state.freeQueue.head?, { state with freeQueue := state.freeQueue.tail })

def pushSpare (id : SegId) : Prog Unit :=
  .atomically (.pushSpare id) fun state =>
    ((), { state with spareQueue := state.spareQueue ++ [id] })

def stealSpare : Prog (Option SegId) :=
  .atomically .stealSpare fun state =>
    (state.spareQueue.head?, { state with spareQueue := state.spareQueue.tail })

/-- Return a segment, topping the spare queue up before the free queue. -/
def returnSegment (id : SegId) : Prog Unit := do
  let (count, capacity) ← Program.atomically .other fun state : Shared =>
    ((state.spareCount, state.spareCapacity), state)
  Program.repeatUntil (fun count => do
    if count ≥ capacity then
      pushFreed id
      return .inr ()
    let observed ← Program.atomically .other fun state : Shared =>
      if state.spareCount = count then (none, { state with spareCount := count + 1 })
      else (some state.spareCount, state)
    match observed with
    | none =>
      pushSpare id
      return .inr ()
    | some observed => return .inl observed) count

/-- Reserve a segment from the free queue. -/
def reserveFree : Prog (Option SegId) := do
  match ← stealFree with
  | none => return none
  | some raw =>
    if ← tryReserve raw then return some raw
    pushFree raw
    return none

/-- Reserve a segment for a copy, from the spare queue if it holds one. -/
def reserveSpare : Prog (Option SegId) := do
  match ← stealSpare with
  | none => reserveFree
  | some raw =>
    if ← tryReserve raw then
      Program.atomically .other fun state : Shared =>
        ((), { state with spareCount := state.spareCount - 1 })
      return some raw
    pushSpare raw
    return none

/-- Return a reserved segment that was never published. -/
def releaseUnused (id : SegId) : Prog Unit := do
  let released ← tryRelease id
  assertThat released
  returnSegment id

/-! ### Draining -/

/-- What draining a segment came to. -/
inductive ClearOutcome where
  | freed
  | deferred
  deriving DecidableEq, Repr

/-- Patch the segment a link names, if it names one. -/
def onLink (link : Option SegId) (patch : SegId → Prog Unit) : Prog Unit :=
  match link with
  | some neighbour => patch neighbour
  | none => pure ()

/-- Patch the neighbours' links past a segment. -/
def unlink (id : SegId) : Prog Unit := do
  onLink (← nextSeg id) fun next => do setPrevSeg next (← prevSeg id)
  onLink (← prevSeg id) fun prev => do setNextSeg prev (← nextSeg id)

/-- A segment leaves its pool. -/
def leavePool (id : SegId) : Prog Unit := do
  let pool ← load .other id (·.pool)
  if pool = .admission then
    let prev ← Program.atomically .other fun state : Shared =>
      (state.admissionCount, { state with admissionCount := state.admissionCount - 1 })
    assertThat (prev > 0)
  store id fun header => { header with pool := .main }

/-- Free a drained segment that no reader pins. -/
def recycle (id : SegId) : Prog Unit := do
  unlink id
  leavePool id
  resetWriteStats id
  let freed ← tryReleaseDrained id
  assertThat freed
  returnSegment id

/-- Condemn a drained segment that readers pin, splicing its neighbours, and recheck. -/
def condemn (id : SegId) (next prev : Option SegId) : Prog ClearOutcome := do
  leavePool id
  let condemned ← casCondemn id
  assertThat condemned
  onLink prev fun p => updateLinks p (some next) none
  onLink next fun n => updateLinks n none (some prev)
  if (← refCountSeqcst id) = 0 then
    if ← tryReleaseCondemned id then
      resetWriteStats id
      returnSegment id
      return .freed
  return .deferred

/-- Recycle a swept segment that no reader pins, or condemn it. -/
def retire (id : SegId) (next prev : Option SegId) : Prog ClearOutcome := do
  if (← refCountSeqcst id) = 0 then
    recycle id
    return .freed
  condemn id next prev

/-- Capture a claimed segment's links, sweep it, and recycle or condemn it. -/
def finalizeDrained (id : SegId) : Prog ClearOutcome := do
  let word ← metadata id
  retire id word.next word.prev

/-- Claim a sealed segment for draining, and wait for its writers and removers. -/
def claimForDrain (id : SegId) : Prog Bool := do
  if !(← casMetadata id .sealed .draining none none) then return false
  awaitWriters id
  awaitRemovers id
  return true

/-- Drain a sealed segment, if it can be claimed. -/
def clearSegment (id : SegId) : Prog (Option ClearOutcome) := do
  if ← claimForDrain id then return some (← finalizeDrained id)
  return none

/-- The claim of the drain walk: interior segments are sealed, the tail is live. -/
def claimMember (id : SegId) : Prog Bool := do
  let sealed ← casMetadata id .sealed .draining none none
  let drained ← if sealed then pure true else casMetadata id .live .draining none none
  if !drained then return false
  awaitWriters id
  awaitRemovers id
  return true

/-- One segment of the drain walk. -/
def drainMember (id : SegId) : Prog Unit := do
  let word ← metadata id
  if ← claimMember id then
    let _ ← retire id word.next word.prev

/-! ### Putting a segment into service -/

/-- What a reserved segment is used for: given back unused, linked as a bucket's tail, or linked as
the destination of a copy. -/
inductive Use where
  | giveBack
  | tail (next prev : Option SegId)
  | destination (next prev : Option SegId)
  deriving DecidableEq, Repr

/-- Link a reserved segment and publish it in a state. -/
def linkAndPublish (id : SegId) (next prev : Option SegId) (published : State) : Prog Unit := do
  let linked ← casMetadata id .reserved .linking (some next) (some prev)
  assertThat linked
  let live ← casMetadata id .linking published none none
  assertThat live

/-- Put a reserved segment to a use. -/
def useReserved (id : SegId) : Use → Prog Unit
  | .giveBack => releaseUnused id
  | .tail next prev => linkAndPublish id next prev .live
  | .destination next prev => linkAndPublish id next prev .relinking

/-- The transition that fills a segment: a tail is sealed with its successor, a copy destination
without one. -/
def fill (id : SegId) (filled : State) (next : Option (Option SegId)) : Prog Bool :=
  casMetadata id filled .sealed next none

/-! ### Items -/

/-- What a reservation of space in a segment came to. -/
inductive AllocOutcome where
  | reserved (generation : Nat) (offset : Int)
  | full
  | notWritable
  deriving DecidableEq, Repr

/-- Reserve space for an item of `size` bytes, under a writer's pin that the reservation keeps. -/
def tryAllocItem (id : SegId) (size segmentSize : Int) : Prog AllocOutcome := do
  if !(← tryPinWriter id) then return .notWritable
  match ← tryReserveSpace id size segmentSize with
  | none =>
    releaseWriter id
    return .full
  | some offset =>
    incrLiveItems id
    incrLiveBytes id size
    return .reserved (← load .other id (·.generation)) offset

/-- Account for an item of `size` bytes that has died. -/
def removeItemAt (id : SegId) (size : Int) : Prog Unit := do
  decrItem id size
  incrDeadItem id size
  assertThat ((← load .other id (·.liveBytes)) ≥ 0)
  assertThat ((← load .other id (·.liveItems)) ≥ 0)

/-- Account for an item of `size` bytes copied to an offset of another segment. -/
def accountCopied (source target : SegId) (size offset : Int) : Prog Unit := do
  removeItemAt source size
  decrDeadItem source size
  incrLiveItems target
  incrLiveBytes target size
  setWriteOffset target (offset + size)

/-- The end of a sweep: the write offset is set to the bytes left. -/
def endSweep (id : SegId) : Prog Unit := do
  let liveBytes ← load .other id (·.liveBytes)
  storeAs (.resetStats id) id fun header => { header with writeOffset := liveBytes }

/-! ### Readers -/

/-- Drop a reader guard; the last reader of a condemned segment frees it. -/
def dropGuard (id : SegId) : Prog Unit := do
  let prev ← releaseReaderForGuard id (.guardDrop id)
  if prev = 1 then
    if ← tryReleaseCondemned id then
      resetWriteStats id
      pushFreed id

/-- A location's incarnation tag: the generation's low six bits. -/
def tagForGeneration (generation : Nat) : Nat := generation % 2 ^ 6

/-- Pin the segment a location names; a backout that won the release returns the segment, and a
pin on a later incarnation is dropped again. -/
def acquireItemAt (id : SegId) (tag : Nat) : Prog Bool := do
  match ← tryAcquireReader id with
  | .acquired =>
    if tag ≠ tagForGeneration (← load .other id (·.generation)) then
      dropGuard id
      return false
    return true
  | .notReadable => return false
  | .releaseCondemned =>
    resetWriteStats id
    returnSegment id
    return false

end CacheRs.Segments
