/-
**The cache under one thread.**

The segments with their headers and items, the TTL buckets' chains, the free and the spare queue, the
eviction state and the hashtable, as a single thread of calls sees them between its own steps. A
segment's data is the list of the items appended to it; an item's offset is the sum of the sizes
before it.

* `Config`: what a builder fixes, with the bounds it checks;
* `Segment.walk`: the items a scan of a segment visits;
* `verify`: what the segments answer the hashtable about a location;
* `modifySegment`, `casMetadata`, `updateLinks`: the header accesses.

A thread that runs alone drops its writer and remover pins before it drains a segment, so these
counters are left out; a reader's pin outlives its call and is kept.
-/

import CacheRs.Eviction.GhostQueue
import CacheRs.KeyValue.Codec
import CacheRs.Segcache.Table
import CacheRs.Segments.State
import CacheRs.Segments.TtlBuckets
import CacheRs.Sequential.Procedure

namespace CacheRs.Segcache

open Eviction (GhostQueue)
open Hashtable (Geometry)
open KeyValue (Bytes Layout Value)
open Segments (SegId State)
open Sequential

/-! ### Items -/

/-- A key, as long as a header can say. -/
abbrev Key := { bytes : Bytes // 1 ≤ bytes.length ∧ bytes.length ≤ 255 }

/-- Optional data, as long as a header can say. -/
abbrev Optional := { bytes : Bytes // bytes.length ≤ 63 }

def Optional.none : Optional := ⟨[], Nat.zero_le _⟩

/-- An item in a segment. -/
@[ext] structure Item where
  key : Key
  value : Value
  optional : Optional
  /-- The version word of a numeric item. -/
  version : UInt64
  deleted : Bool
  deriving DecidableEq

/-- An unpacked location: a segment, the low bits of its generation, and an offset in it. -/
@[ext] structure Location where
  segment : SegId
  tag : Nat
  offset : Nat
  deriving DecidableEq, Repr

/-! ### Configuration -/

inductive Policy where
  | none
  | random
  | randomFifo
  | fifo
  | cte
  | util
  | merge (max merge compact : Nat)
  | s3Fifo (admissionRatio : ℚ)
  deriving DecidableEq

namespace Policy

def isMerge : Policy → Bool
  | .merge .. => true
  | _ => false

def isS3Fifo : Policy → Bool
  | .s3Fifo _ => true
  | _ => false

def maxMerge : Policy → Nat
  | .merge most _ _ => most
  | _ => 8

def nMerge : Policy → Nat
  | .merge _ merged _ => merged
  | _ => 4

def nCompact : Policy → Nat
  | .merge _ _ compacted => compacted
  | _ => 2

variable (policy : Policy)

/-- The ratios are exact rationals here. -/
def compactRatio : ℚ := if policy.nCompact = 0 then 0 else 1 / policy.nCompact

def targetRatio : ℚ := 1 / policy.nMerge

def stopRatio : ℚ := policy.targetRatio * (policy.nMerge - 1) + 1 / 20

end Policy

/-- What a builder fixes, and what it checks. -/
structure Config where
  layout : Layout
  geometry : Geometry Key
  segmentSize : Nat
  /-- The number of segments; their ids run from one to it. -/
  cap : Nat
  policy : Policy
  /-- The draws of the eviction's generator. -/
  draw : Nat → UInt32
  segmentSize_gt : layout.headerSize < segmentSize
  segmentSize_le : segmentSize ≤ KeyValue.maxSegmentBytes
  segmentSize_aligned : segmentSize % 8 = 0
  cap_pos : 0 < cap

namespace Config

variable (config : Config)

/-- Where a segment's first item lies: behind the magic bytes, if there are any. -/
def initialOffset : Nat := if config.layout.integrity then 8 else 0

/-- Only the merge policy holds a segment back. -/
def spareCapacity : Nat := if config.policy.isMerge then 1 else 0

/-- How many admission segments the policy asks for. -/
def admissionCap : Nat :=
  match config.policy with
  | .s3Fifo admissionRatio => ⌊(config.cap : ℚ) * admissionRatio + 1 / 2⌋.toNat
  | _ => 0

def ghostCapacity : Nat := if config.policy.isS3Fifo then max 1024 (config.cap * 64) else 0

def itemSize (key : Key) (value : Value) (optional : Optional) : Nat :=
  config.layout.itemSize key.1.length value optional.1.length

end Config

/-- The bytes an item takes. -/
def Item.size (config : Config) (item : Item) : Nat :=
  config.itemSize item.key item.value item.optional

/-! ### Segments -/

inductive SegmentPool where
  | main
  | admission
  deriving DecidableEq, Repr

/-- A segment: its header and the items written to it, in the order of their offsets. Times and
lifetimes are whole seconds. -/
structure Segment where
  state : State
  next : Option SegId
  prev : Option SegId
  generation : BitVec 16
  refCount : Nat
  writeOffset : Nat
  liveBytes : Int
  liveItems : Int
  createAt : Nat
  mergeAt : Nat
  ttl : Nat
  pool : SegmentPool
  items : List Item

namespace Segment

variable (config : Config) (segment : Segment)

/-- `tag_for_generation`. -/
def tag : Nat := segment.generation.toNat % 64

def canEvict : Bool := segment.state.isEvictable && segment.refCount = 0

/-- The items of a list laid out from an offset on, with their offsets. -/
def layOut : Nat → List Item → List (Nat × Item)
  | _, [] => []
  | offset, item :: rest => (offset, item) :: layOut (offset + item.size config) rest

/-- The item at an offset. -/
def itemAt (offset : Nat) : Option Item :=
  ((layOut config config.initialOffset segment.items).find? fun placed =>
    placed.1 = offset).map Prod.snd

def maxItemOffset : Nat :=
  if config.layout.headerSize ≤ segment.writeOffset then
    min segment.writeOffset config.segmentSize - config.layout.headerSize
  else config.initialOffset

/-- The items a scan visits: it stops behind the last offset a header may begin at. -/
def walk : List (Nat × Item) :=
  (layOut config config.initialOffset segment.items).takeWhile fun placed =>
    placed.1 ≤ segment.maxItemOffset config

/-- Change the item at an offset. -/
def modifyItem (change : Item → Item) (target : Nat) : Nat → List Item → List Item
  | _, [] => []
  | offset, item :: rest =>
    (if offset = target then change item else item) ::
      modifyItem change target (offset + item.size config) rest

/-- `reset_write_stats`. -/
def resetWriteStats : Segment :=
  { segment with
    writeOffset := config.initialOffset
    liveBytes := config.initialOffset
    liveItems := 0
    items := [] }

end Segment

/-! ### The cache -/

structure TtlBucket where
  head : Option SegId
  tail : Option SegId
  nextToMerge : Option SegId
  deriving DecidableEq, Repr

/-- The eviction state; `drawn` counts the draws taken. -/
structure Eviction where
  lastUpdateTime : Nat
  rankedSegs : List (Option SegId)
  index : Nat
  drawn : Nat
  ghost : GhostQueue

structure Cache where
  table : Table Location
  segment : SegId → Segment
  bucket : Nat → TtlBucket
  freeQueue : List SegId
  /-- How many segments eviction has put on the free queue. -/
  freed : Nat
  spareQueue : List SegId
  spareCount : Nat
  admissionCount : Nat
  eviction : Eviction
  lastExpired : Nat
  now : Nat

/-- A new segment. -/
def Segment.new (config : Config) : Segment where
  state := .free
  next := none
  prev := none
  generation := 0
  refCount := 0
  writeOffset := config.initialOffset
  liveBytes := config.initialOffset
  liveItems := 0
  createAt := 0
  mergeAt := 0
  ttl := 0
  pool := .main
  items := []

/-- A new cache. -/
def Cache.new (config : Config) (random : UInt64) (now : Nat) : Cache where
  table := ⟨fun _ _ => none, random⟩
  segment := fun _ => Segment.new config
  bucket := fun _ => ⟨none, none, none⟩
  freeQueue := (List.range config.cap).drop config.spareCapacity |>.map (· + 1)
  freed := 0
  spareQueue := (List.range config.cap).take config.spareCapacity |>.map (· + 1)
  spareCount := config.spareCapacity
  admissionCount := 0
  eviction := ⟨now, List.replicate config.cap none, 0, 0, GhostQueue.new config.ghostCapacity⟩
  lastExpired := now
  now := now

namespace Cache

variable (config : Config) (cache : Cache)

def setSegment (id : SegId) (segment : Segment) : Cache :=
  { cache with segment := Function.update cache.segment id segment }

/-- The location of the item at an offset of a segment, in its present incarnation. -/
def locationAt (id : SegId) (offset : Nat) : Location := ⟨id, (cache.segment id).tag, offset⟩

/-- `resolve`: whether a location names a present incarnation. -/
def resolves (location : Location) : Bool :=
  1 ≤ location.segment && location.segment ≤ config.cap &&
    location.tag = (cache.segment location.segment).tag

/-- The item a location names. -/
def itemAt (location : Location) : Option Item :=
  (cache.segment location.segment).itemAt config location.offset

/-- What the segments answer about a location, comparing the key there with the one looked for. -/
def verify (key : Key) (location : Location) : Verdict :=
  if 1 ≤ location.segment && location.segment ≤ config.cap then
    let segment := cache.segment location.segment
    if segment.state.isReadable && location.tag = segment.tag then
      match cache.itemAt config location with
      | some item => if item.key = key then .isMatch else .differentKey
      | none => .differentKey
    else .unknown
  else .differentKey

end Cache

/-! ### Accesses -/

/-- A procedure over the cache. -/
abbrev Proc (α : Type) := Procedure Cache α

def segmentOf (id : SegId) : Proc Segment := .read fun cache => cache.segment id

def modifySegment (id : SegId) (update : Segment → Segment) : Proc Unit :=
  .change fun cache => cache.setSegment id (update (cache.segment id))

def modifyBucket (b : Nat) (update : TtlBucket → TtlBucket) : Proc Unit :=
  .change fun cache => { cache with bucket := Function.update cache.bucket b (update (cache.bucket b)) }

/-- `cas_metadata`, which without another thread fails on the state only. -/
def casMetadata (id : SegId) (expected new : State) (newNext newPrev : Option (Option SegId)) :
    Proc Bool :=
  .exchange fun cache =>
    let segment := cache.segment id
    if segment.state = expected then
      (true, cache.setSegment id
        { segment with
          state := new
          next := newNext.getD segment.next
          prev := newPrev.getD segment.prev })
    else (false, cache)

def updateLinks (id : SegId) (newNext newPrev : Option (Option SegId)) : Proc Unit :=
  modifySegment id fun segment =>
    { segment with
      next := newNext.getD segment.next
      prev := newPrev.getD segment.prev }

/-- A table update. -/
def onTable {α : Type} (update : Table Location → α × Table Location) : Proc α :=
  .exchange fun cache =>
    let result := update cache.table
    (result.1, { cache with table := result.2 })

end CacheRs.Segcache
