/-
**A segment header's operations.**

The methods of `SegmentHeader`, step by step: the single-shot transition of the metadata word and
the link patch that retries, reserving and the three releases, condemning, and the two-phase pins.

Orderings are all read as sequentially consistent.
-/

import CacheRs.Segments.Heap

namespace CacheRs.Segments

open Concurrency

/-- What a reader-pin attempt came to. -/
inductive AcquireOutcome where
  | acquired
  | notReadable
  | releaseCondemned
  deriving DecidableEq, Repr

variable (id : SegId)

/-- Load the metadata word. -/
def metadata : Prog Metadata := load .other id (·.metadata)

/-- Single-shot transition of the metadata word; `none` keeps a link. -/
def casMetadata (expected new : State) (newNext newPrev : Option (Option SegId)) : Prog Bool := do
  let current ← metadata id
  if current.state ≠ expected then return false
  let word : Metadata :=
    { next := newNext.getD current.next, prev := newPrev.getD current.prev, state := new,
      tag := current.tag }
  let failed ← exchange (.exchange id current word) id current word
  return failed.isNone

/-- Patch the links, keeping the state, until the exchange succeeds. -/
def updateLinks (newNext newPrev : Option (Option SegId)) : Prog Unit := do
  let current ← metadata id
  Program.repeatUntil (fun current => do
    let word : Metadata :=
      { next := newNext.getD current.next, prev := newPrev.getD current.prev,
        state := current.state, tag := current.tag }
    match ← exchange (.exchange id current word) id current word with
    | none => return .inr ()
    | some observed => return .inl observed) current

def prevSeg : Prog (Option SegId) := do return (← metadata id).prev

def nextSeg : Prog (Option SegId) := do return (← metadata id).next

def setPrevSeg (link : Option SegId) : Prog Unit := updateLinks id none (some link)

def setNextSeg (link : Option SegId) : Prog Unit := updateLinks id (some link) none

/-- Reset the write statistics, field by field. -/
def resetWriteStats : Prog Unit := do
  let initialOffset ← Program.atomically .other fun state : Shared => (state.initialOffset, state)
  storeAs (.resetStats id) id fun header => { header with deadItems := 0 }
  storeAs (.resetStats id) id fun header => { header with deadBytes := 0 }
  storeAs (.resetStats id) id fun header => { header with writeOffset := initialOffset }
  storeAs (.resetStats id) id fun header => { header with liveBytes := initialOffset }
  storeAs (.resetStats id) id fun header => { header with liveItems := 0 }

def markCreated : Prog Unit := do
  let now ← Program.atomically .other fun state : Shared => (state.clock, state)
  store id fun header => { header with createAt := now }

def markMerged : Prog Unit := do
  let now ← Program.atomically .other fun state : Shared => (state.clock, state)
  store id fun header => { header with mergeAt := now }

/-- Reserve a free segment (`Free` to `Reserved`, links cleared). -/
def tryReserve : Prog Bool := do
  if !(← casMetadata id .free .reserved (some none) (some none)) then return false
  resetWriteStats id
  markCreated id
  markMerged id
  return true

/-- Return an unused segment (`Reserved` or `Linking` to `Free`), without a generation bump. -/
def tryRelease : Prog Bool := do
  if ← casMetadata id .reserved .free (some none) (some none) then return true
  casMetadata id .linking .free (some none) (some none)

/-- The generation counter wraps at 16 bits. -/
def bumpGeneration : Prog Unit :=
  .atomically (.bumpGeneration id) fun state =>
    ((), state.modifyHeader id fun header =>
      { header with generation := (header.generation + 1) % 2 ^ 16 })

/-- Free a drained, unpinned segment (`Draining` to `Free`), then bump the generation. -/
def tryReleaseDrained : Prog Bool := do
  if !(← casMetadata id .draining .free (some none) (some none)) then return false
  bumpGeneration id
  return true

/-- Try to free a condemned segment (`AwaitingRelease` to `Free`), then bump the generation. -/
def tryReleaseCondemned : Prog Bool := do
  let current ← load (.claimantLoad id) id (·.metadata)
  if current.state ≠ .awaitingRelease then return false
  let failed ← exchange (.claimantExchange id current) id current .newFree
  if failed.isSome then return false
  bumpGeneration id
  return true

/-- Condemn a drained segment, stamping the generation's low byte into the word. -/
def casCondemn : Prog Bool := do
  let current ← metadata id
  if current.state ≠ .draining then return false
  let generation ← load .other id (·.generation)
  let word : Metadata :=
    { next := none, prev := none, state := .awaitingRelease, tag := generation % 2 ^ 8 }
  let failed ← exchange (.exchange id current word) id current word
  return failed.isNone

/-- Decrement the reader count, returning what it was. -/
def releaseReaderForGuard (label : Label) : Prog Nat := do
  let prev ← fetch label id (·.refCount) fun header =>
    { header with refCount := header.refCount - 1 }
  assertThat (prev > 0)
  return prev

/-- Try to pin for reading: check, increment, re-check, and back out on a lost race. -/
def tryAcquireReader : Prog AcquireOutcome := do
  if !(← metadata id).state.isReadable then return .notReadable
  let _ ← fetch (.acquireIncrement id) id (·.refCount) fun header =>
    { header with refCount := header.refCount + 1 }
  if !(← load (.acquireRecheck id) id (·.metadata)).state.isReadable then
    let prev ← releaseReaderForGuard id (.backOut id)
    if prev = 1 then
      if ← tryReleaseCondemned id then return .releaseCondemned
    return .notReadable
  return .acquired

/-- Number of readers pinning the segment. -/
def refCountSeqcst : Prog Nat := load .other id (·.refCount)

/-! ### Writers' and removers' pins -/

namespace PinKind

/-- The states in which a pin is granted. -/
def admits : PinKind → State → Bool
  | .writer => State.isWritable
  | .remover => State.isRemovable

/-- The header's count of the pins of a kind. -/
def count (kind : PinKind) (header : SegmentHeader) : Nat :=
  match kind with
  | .writer => header.activeWriters
  | .remover => header.activeRemovers

/-- Change the count of the pins of a kind. -/
def adjust (kind : PinKind) (change : Nat → Nat) (header : SegmentHeader) : SegmentHeader :=
  match kind with
  | .writer => { header with activeWriters := change header.activeWriters }
  | .remover => { header with activeRemovers := change header.activeRemovers }

end PinKind

/-- Try to pin: check, increment, re-check, and back out on a lost race. -/
def tryPin (kind : PinKind) : Prog Bool := do
  if !kind.admits (← metadata id).state then return false
  storeAs (.pinIncrement kind id) id fun header => kind.adjust (· + 1) header
  if !kind.admits (← load (.pinRecheck kind id) id (·.metadata)).state then
    storeAs (.pinBackOut kind id) id fun header => kind.adjust (· - 1) header
    return false
  return true

def releasePin (kind : PinKind) : Prog Unit := do
  let prev ← fetch (.pinRelease kind id) id kind.count fun header => kind.adjust (· - 1) header
  assertThat (prev > 0)

/-- Wait until no pin of a kind is held. -/
def awaitPins (kind : PinKind) : Prog Unit :=
  .whenEnabled (.awaited kind id) (fun state => kind.count (state.header id) = 0) fun state =>
    ((), state)

def tryPinWriter : Prog Bool := tryPin id .writer

def releaseWriter : Prog Unit := releasePin id .writer

def tryPinRemover : Prog Bool := tryPin id .remover

def releaseRemover : Prog Unit := releasePin id .remover

/-- Wait until no writer is between reserving and publishing. -/
def awaitWriters : Prog Unit := awaitPins id .writer

/-- Wait until no remover is at work. -/
def awaitRemovers : Prog Unit := awaitPins id .remover

/-! ### Write statistics -/

/-- The largest `i32`, past which `checked_add` fails. -/
def i32Max : Int := 2 ^ 31 - 1

/-- Grant `size` bytes by moving the write offset; `none` when they do not fit. -/
def tryReserveSpace (size capacity : Int) : Prog (Option Int) := do
  assertThat (size > 0)
  let current ← load .other id (·.writeOffset)
  Program.repeatUntil (fun current => do
    if current + size > i32Max || current + size > capacity then return .inr none
    let observed ← Program.atomically .other fun state : Shared =>
      if (state.header id).writeOffset = current then
        (none, state.modifyHeader id fun header => { header with writeOffset := current + size })
      else (some (state.header id).writeOffset, state)
    match observed with
    | none => return .inr (some current)
    | some observed => return .inl observed) current

def setWriteOffset (offset : Int) : Prog Unit :=
  store id fun header => { header with writeOffset := offset }

def incrLiveItems : Prog Unit :=
  store id fun header => { header with liveItems := header.liveItems + 1 }

def incrLiveBytes (bytes : Int) : Prog Unit :=
  store id fun header => { header with liveBytes := header.liveBytes + bytes }

/-- One item of `size` bytes less. -/
def decrItem (size : Int) : Prog Unit := do
  store id fun header => { header with liveItems := header.liveItems - 1 }
  store id fun header => { header with liveBytes := header.liveBytes - size }

def incrDeadItem (size : Int) : Prog Unit := do
  store id fun header => { header with deadItems := header.deadItems + 1 }
  store id fun header => { header with deadBytes := header.deadBytes + size }

def decrDeadItem (size : Int) : Prog Unit := do
  store id fun header => { header with deadItems := header.deadItems - 1 }
  store id fun header => { header with deadBytes := header.deadBytes - size }

end CacheRs.Segments
