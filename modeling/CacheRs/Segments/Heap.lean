/-
**The segments' shared memory and its atomic accesses.**

Every atomic field of a segment header, the free and spare queues with their counters, and the TTL
buckets, as one record; the accesses the source makes to them are single atomic steps. A step whose
role a history needs to know (which load, whose decrement) carries a label that says so.

The header's padding and id are left out, and with them the gauges that only the `metrics` feature
keeps. The queues are first in, first out; a `Steal::Retry` only repeats a steal. Assertions, the
`debug_assert`s among them, stop the thread that fails one.
-/

import CacheRs.Concurrency.RelyGuarantee
import CacheRs.Segments.State

namespace CacheRs.Segments

open Concurrency

/-- Which pool a segment belongs to. -/
inductive SegmentPool where
  | main
  | admission
  deriving DecidableEq, Repr

/-- A segment's header. -/
structure SegmentHeader where
  writeOffset : Int
  liveBytes : Int
  liveItems : Int
  createAt : Nat
  mergeAt : Nat
  ttl : Nat
  refCount : Nat
  metadata : Metadata
  generation : Nat
  pool : SegmentPool
  activeWriters : Nat
  activeRemovers : Nat
  deadItems : Int
  deadBytes : Int
  deriving DecidableEq, Repr

/-- A new header; write statistics start at `initialOffset`. -/
def SegmentHeader.new (initialOffset : Int) : SegmentHeader where
  writeOffset := initialOffset
  liveBytes := initialOffset
  liveItems := 0
  createAt := 0
  mergeAt := 0
  ttl := 0
  refCount := 0
  metadata := .newFree
  generation := 0
  pool := .main
  activeWriters := 0
  activeRemovers := 0
  deadItems := 0
  deadBytes := 0

/-- A TTL bucket: the ends of its chain, where the next merge starts, and the chain's lock. -/
structure TtlBucket where
  head : Option SegId
  tail : Option SegId
  nextToMerge : Option SegId
  locked : Bool
  deriving DecidableEq, Repr

/-- A bucket with an empty chain. -/
def TtlBucket.new : TtlBucket := ⟨none, none, none, false⟩

/-- Everything the threads share. -/
structure Shared where
  header : SegId → SegmentHeader
  bucket : Nat → TtlBucket
  /-- The free queue, and the count of segments freed onto it. -/
  freeQueue : List SegId
  freed : Nat
  spareQueue : List SegId
  spareCount : Nat
  spareCapacity : Nat
  admissionCount : Nat
  /-- Eight with the `integrity` feature, else zero. -/
  initialOffset : Int
  clock : Nat

/-- Which pin of a segment: a writer's or a remover's. -/
inductive PinKind where
  | writer
  | remover
  deriving DecidableEq, Repr

/-- What an atomic step on a bucket's chain does. -/
inductive ChainEvent where
  | lock (b : Nat)
  /-- The lock is given up, at the end of an expiry with its cutoff. -/
  | unlock (b : Nat) (cutoff : Option Nat)
  /-- The loads of `TtlBucket::reserve`: the tail, and that segment's generation. -/
  | observeTail (b : Nat)
  | observeGeneration (id : SegId)
  /-- The generation's re-check in `try_expand`. -/
  | recheckGeneration (id : SegId)
  /-- The exchange that makes a segment the tail of an empty chain. -/
  | electTail (b : Nat) (id : SegId)
  | setTtl (id : SegId) (ttl : Nat)
  /-- The loads that decide whether a merge takes its first candidate: the destination's live
  bytes, and the candidate's. -/
  | probeFill (start spare : SegId) (stopBytes : Int)
  | probeFit (start : SegId) (spareSize stopBytes segmentSize : Int)
  deriving DecidableEq, Repr

/-- What an atomic step does, as far as a history of the segments needs to know. -/
inductive Label where
  | other
  | chain (event : ChainEvent)
  /-- A compare-exchange of the metadata word. -/
  | exchange (id : SegId) (current new : Metadata)
  /-- The reader count's increment in `try_acquire_reader`. -/
  | acquireIncrement (id : SegId)
  /-- The state re-check after that increment. -/
  | acquireRecheck (id : SegId)
  /-- The decrement that backs a failed acquire out. -/
  | backOut (id : SegId)
  /-- The decrement of a guard drop. -/
  | guardDrop (id : SegId)
  /-- The metadata load in `try_release_condemned`. -/
  | claimantLoad (id : SegId)
  /-- The compare-exchange in `try_release_condemned`. -/
  | claimantExchange (id : SegId) (current : Metadata)
  | bumpGeneration (id : SegId)
  /-- A store of `reset_write_stats`, or of the write offset at the end of a sweep. -/
  | resetStats (id : SegId)
  /-- The increment, the re-check, the backout and the release of a writer's or remover's pin. -/
  | pinIncrement (kind : PinKind) (id : SegId)
  | pinRecheck (kind : PinKind) (id : SegId)
  | pinBackOut (kind : PinKind) (id : SegId)
  | pinRelease (kind : PinKind) (id : SegId)
  /-- The end of a drainer's wait for the pins of a kind. -/
  | awaited (kind : PinKind) (id : SegId)
  | pushFree (id : SegId)
  | pushSpare (id : SegId)
  | stealFree
  | stealSpare
  deriving DecidableEq, Repr

/-- A thread's program over the segments. -/
abbrev Prog := Program Shared Label

namespace Shared

variable (state : Shared) (id : SegId)

/-- Change one header. -/
def modifyHeader (change : SegmentHeader → SegmentHeader) : Shared :=
  { state with header := Function.update state.header id (change (state.header id)) }

@[simp] theorem modifyHeader_self (change : SegmentHeader → SegmentHeader) :
    (state.modifyHeader id change).header id = change (state.header id) :=
  Function.update_self ..

@[simp] theorem modifyHeader_of_ne (change : SegmentHeader → SegmentHeader) {other : SegId}
    (different : other ≠ id) :
    (state.modifyHeader id change).header other = state.header other :=
  Function.update_of_ne different ..

@[simp] theorem modifyHeader_bucket (change : SegmentHeader → SegmentHeader) :
    (state.modifyHeader id change).bucket = state.bucket := rfl

@[simp] theorem modifyHeader_freeQueue (change : SegmentHeader → SegmentHeader) :
    (state.modifyHeader id change).freeQueue = state.freeQueue := rfl

@[simp] theorem modifyHeader_spareQueue (change : SegmentHeader → SegmentHeader) :
    (state.modifyHeader id change).spareQueue = state.spareQueue := rfl

/-- Change one bucket. -/
def modifyBucket (b : Nat) (change : TtlBucket → TtlBucket) : Shared :=
  { state with bucket := Function.update state.bucket b (change (state.bucket b)) }

@[simp] theorem modifyBucket_self (b : Nat) (change : TtlBucket → TtlBucket) :
    (state.modifyBucket b change).bucket b = change (state.bucket b) :=
  Function.update_self ..

@[simp] theorem modifyBucket_of_ne (b : Nat) (change : TtlBucket → TtlBucket) {other : Nat}
    (different : other ≠ b) :
    (state.modifyBucket b change).bucket other = state.bucket other :=
  Function.update_of_ne different ..

/-- The word a compare-exchange leaves: `new` where it found `current`. -/
def exchangeMetadata (current new : Metadata) : Shared :=
  if (state.header id).metadata = current then
    state.modifyHeader id fun header => { header with metadata := new }
  else state

end Shared

/-! ### Atomic accesses -/

/-- Load one field of a header. -/
def load {α : Type} (label : Label) (id : SegId) (field : SegmentHeader → α) : Prog α :=
  .atomically label fun state => (field (state.header id), state)

/-- Read-modify-write one field of a header, returning what it held. -/
def fetch {α : Type} (label : Label) (id : SegId) (field : SegmentHeader → α)
    (change : SegmentHeader → SegmentHeader) : Prog α :=
  .atomically label fun state => (field (state.header id), state.modifyHeader id change)

/-- Store to a header, under a label. -/
def storeAs (label : Label) (id : SegId) (change : SegmentHeader → SegmentHeader) : Prog Unit :=
  .atomically label fun state => ((), state.modifyHeader id change)

/-- Store to a header. -/
def store (id : SegId) (change : SegmentHeader → SegmentHeader) : Prog Unit :=
  storeAs .other id change

/-- An assertion of the source: a thread whose assertion fails goes no further. -/
def assertThat (condition : Bool) : Prog Unit :=
  .whenEnabled .other (fun _ => condition) fun state => ((), state)

/-- Compare-exchange the metadata word; `some observed` is the word that made it fail. -/
def exchange (label : Label) (id : SegId) (current new : Metadata) : Prog (Option Metadata) :=
  .atomically label fun state =>
    (if (state.header id).metadata = current then none else some (state.header id).metadata,
      state.exchangeMetadata id current new)

end CacheRs.Segments
