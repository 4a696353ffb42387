/-
**The lifecycle of a segment.**

How a segment is reserved, linked into a chain, claimed, emptied and given back. Every step goes
through the header's state, as in the source; `debug_assert`s are left out.

* `reserveFree`, `reserveSpare`, `releaseUnused`, `returnSegment`: the queues;
* `linkDestBefore`, `unlink`, `condemn`, `recycle`: a chain's surgery;
* `clear`, `claimForDrain`, `finalizeDrained`: emptying a segment;
* `drainChain`, `expireBuckets`, `clearBuckets`: emptying whole chains.
-/

import CacheRs.Segcache.State

namespace CacheRs.Segcache

open Segments (SegId State totalBuckets getBucketIndex holdsTtl bucketTtl)
open Sequential

section Lifecycle

variable (config : Config)

/-! ### The queues -/

/-- `SegmentHeader::try_reserve`. -/
def tryReserve (id : SegId) : Proc Bool := do
  if !(← casMetadata id .free .reserved (some none) (some none)) then return false
  modifySegment id (Segment.resetWriteStats config)
  let now ← .read Cache.now
  modifySegment id fun segment => { segment with createAt := now, mergeAt := now }
  return true

/-- Take the first id of the free queue. -/
def stealFree : Proc (Option SegId) :=
  .exchange fun cache => (cache.freeQueue.head?, { cache with freeQueue := cache.freeQueue.tail })

def pushFree (id : SegId) : Proc Unit :=
  .change fun cache => { cache with freeQueue := cache.freeQueue ++ [id] }

/-- `FreeQueue::push_freed`. -/
def pushFreed (id : SegId) : Proc Unit :=
  .change fun cache =>
    { cache with freeQueue := cache.freeQueue ++ [id], freed := cache.freed + 1 }

def stealSpare : Proc (Option SegId) :=
  .exchange fun cache =>
    (cache.spareQueue.head?, { cache with spareQueue := cache.spareQueue.tail })

def pushSpare (id : SegId) : Proc Unit :=
  .change fun cache => { cache with spareQueue := cache.spareQueue ++ [id] }

def reserveFree : Proc (Option SegId) := do
  match ← stealFree with
  | none => return none
  | some id =>
    if ← tryReserve config id then return some id
    pushFree id
    return none

def reserveSpare : Proc (Option SegId) := do
  match ← stealSpare with
  | none => reserveFree config
  | some id =>
    if ← tryReserve config id then
      .change fun cache => { cache with spareCount := cache.spareCount - 1 }
      return some id
    pushSpare id
    return none

/-- Refill the spare queue first. -/
def returnSegment (id : SegId) : Proc Unit := do
  let count ← .read Cache.spareCount
  if config.spareCapacity ≤ count then pushFreed id
  else
    .change fun cache => { cache with spareCount := count + 1 }
    pushSpare id

/-- `SegmentHeader::try_release`. -/
def tryRelease (id : SegId) : Proc Bool := do
  if ← casMetadata id .reserved .free (some none) (some none) then return true
  casMetadata id .linking .free (some none) (some none)

def releaseUnused (id : SegId) : Proc Unit := do
  let released ← tryRelease id
  .assertThat released
  returnSegment config id

/-! ### Chains -/

def setHead (b : Nat) (id : Option SegId) : Proc Unit :=
  modifyBucket b fun bucket => { bucket with head := id }

def setTail (b : Nat) (id : Option SegId) : Proc Unit :=
  modifyBucket b fun bucket => { bucket with tail := id }

def setNextToMerge (b : Nat) (id : Option SegId) : Proc Unit :=
  modifyBucket b fun bucket => { bucket with nextToMerge := id }

def unlink (id : SegId) : Proc Unit := do
  match (← segmentOf id).next with
  | some next =>
    let segment ← segmentOf id
    updateLinks next none (some segment.prev)
  | none => pure ()
  match (← segmentOf id).prev with
  | some prev =>
    let segment ← segmentOf id
    updateLinks prev (some segment.next) none
  | none => pure ()

/-- Insert a reserved segment into a bucket's chain, before a member. -/
def linkDestBefore (this member : SegId) (b : Nat) : Proc Unit := do
  let prev := (← segmentOf member).prev
  let _ ← casMetadata this .reserved .linking (some (some member)) (some prev)
  match prev with
  | some before => updateLinks before (some (some this)) none
  | none => setHead b (some this)
  updateLinks member none (some (some this))
  let _ ← casMetadata this .linking .relinking none none
  return ()

def publishDestSealed (id : SegId) : Proc Unit := do
  let _ ← casMetadata id .relinking .sealed none none
  return ()

/-- `SegmentHeader::try_release_drained`. -/
def tryReleaseDrained (id : SegId) : Proc Bool := do
  if ← casMetadata id .draining .free (some none) (some none) then
    modifySegment id fun segment => { segment with generation := segment.generation + 1 }
    return true
  return false

/-- `SegmentHeader::try_release_condemned`. -/
def tryReleaseCondemned (id : SegId) : Proc Bool := do
  if ← casMetadata id .awaitingRelease .free (some none) (some none) then
    modifySegment id fun segment => { segment with generation := segment.generation + 1 }
    return true
  return false

/-- A segment leaves the pool it was counted in. -/
def leavePool (id : SegId) : Proc Unit := do
  if (← segmentOf id).pool = .admission then
    .change fun cache => { cache with admissionCount := cache.admissionCount - 1 }
  modifySegment id fun segment => { segment with pool := .main }

def recycle (id : SegId) : Proc Unit := do
  unlink id
  leavePool id
  modifySegment id (Segment.resetWriteStats config)
  let _ ← tryReleaseDrained id
  returnSegment config id

inductive ClearOutcome where
  | freed
  | deferred
  deriving DecidableEq, Repr

/-- Unlink a drained segment that a reader still pins. -/
def condemn (id : SegId) (next prev : Option SegId) : Proc ClearOutcome := do
  leavePool id
  let _ ← casMetadata id .draining .awaitingRelease (some none) (some none)
  match prev with
  | some before => updateLinks before (some next) none
  | none => pure ()
  match next with
  | some after => updateLinks after none (some prev)
  | none => pure ()
  if (← segmentOf id).refCount = 0 then
    if ← tryReleaseCondemned id then
      modifySegment id (Segment.resetWriteStats config)
      returnSegment config id
      return .freed
  return .deferred

/-! ### Emptying a segment -/

/-- `remove_item_at`: the accounting of one item less. -/
def removeItemAt (id : SegId) (offset : Nat) : Proc Unit := do
  match (← segmentOf id).itemAt config offset with
  | some item =>
    modifySegment id fun segment =>
      { segment with
        liveItems := segment.liveItems - 1
        liveBytes := segment.liveBytes - item.size config }
    let segment ← segmentOf id
    .assertThat (0 ≤ segment.liveBytes && 0 ≤ segment.liveItems)
  | none => .diverge

def getItemFrequency (key : Key) (location : Location) : Proc (Option (BitVec 8)) :=
  .read fun cache => cache.table.getItemFrequency config.geometry key location

/-- Unlink the items of a scan and account for them. -/
def clearItems (id : SegId) : List (Nat × Item) → Proc Unit
  | [] => return ()
  | (offset, item) :: rest => do
    let location ← .read fun cache => cache.locationAt id offset
    if (← getItemFrequency config item.key location).isSome then
      if ← onTable fun table => table.remove config.geometry item.key location then
        removeItemAt config id offset
    clearItems id rest

/-- `Segment::clear`. -/
def clear (id : SegId) : Proc Unit := do
  clearItems config id ((← segmentOf id).walk config)
  modifySegment id fun segment => { segment with writeOffset := segment.liveBytes.toNat }

def claimForDrain (id : SegId) : Proc Bool := casMetadata id .sealed .draining none none

/-- Take a cleared segment out of its chain, with the links it had. -/
def retire (id : SegId) (next prev : Option SegId) : Proc ClearOutcome := do
  if (← segmentOf id).refCount = 0 then
    recycle config id
    return .freed
  condemn config id next prev

def finalizeDrained (id : SegId) : Proc ClearOutcome := do
  let segment ← segmentOf id
  clear config id
  retire config id segment.next segment.prev

/-- `clear_segment`; `none` when the claim is lost. -/
def clearSegment (id : SegId) : Proc (Option ClearOutcome) := do
  if ← claimForDrain id then
    let outcome ← finalizeDrained config id
    return some outcome
  return none

def isSealedMember (id : SegId) (b : Nat) : Proc Bool :=
  .read fun cache =>
    decide ((cache.segment id).state = .sealed) && holdsTtl b (cache.segment id).ttl

/-- `lock_sealed_in_bucket`: the bucket of a segment that is still a sealed member of it. -/
def lockSealedInBucket (id : SegId) : Proc (Option Nat) := do
  let b := getBucketIndex (← segmentOf id).ttl
  return if ← isSealedMember id b then some b else none

/-! ### Emptying chains -/

/-- Claim a member of a chain that is emptied, live or sealed. -/
def claimMember (id : SegId) : Proc Bool := do
  if ← casMetadata id .sealed .draining none none then return true
  casMetadata id .live .draining none none

/-- Patch a bucket's ends past a segment. -/
def patchEnds (b : Nat) (id : SegId) (next prev : Option SegId) : Proc Unit := do
  if (← .read fun cache => (cache.bucket b).head) = some id then setHead b next
  if (← .read fun cache => (cache.bucket b).tail) = some id then setTail b prev

/-- `drain_chain`: with a cutoff, up to the first segment whose deadline lies behind it. -/
def drainChainFrom (b : Nat) (cutoff : Option Nat) : Nat → Option SegId → Nat → Proc Nat
  | _, none, freed => return freed
  | 0, some _, _ => .diverge
  | fuel + 1, some id, freed => do
    let segment ← segmentOf id
    if cutoff.any fun now => now < segment.createAt + segment.ttl then return freed
    if ← claimMember id then
      clear config id
      patchEnds b id segment.next segment.prev
      match ← retire config id segment.next segment.prev with
      | .freed => drainChainFrom b cutoff fuel segment.next (freed + 1)
      | .deferred => drainChainFrom b cutoff fuel segment.next freed
    else drainChainFrom b cutoff fuel segment.next freed

/-- A chain has at most `cap` members. -/
def drainChain (b : Nat) (cutoff : Option Nat) : Proc Nat := do
  let head ← .read fun cache => (cache.bucket b).head
  drainChainFrom config b cutoff config.cap head 0

def drainBuckets (cutoff : Option Nat) : List Nat → Proc Nat
  | [] => return 0
  | b :: rest => do
    let freed ← drainChain config b cutoff
    let more ← drainBuckets cutoff rest
    return freed + more

/-- `TtlBuckets::expire`: once for each second. -/
def expireBuckets : Proc Nat := do
  let now ← .read Cache.now
  let last ← .exchange fun cache => (cache.lastExpired, { cache with lastExpired := now })
  if last = now then return 0
  drainBuckets config (some now) (List.range totalBuckets)

/-- `TtlBuckets::clear`. -/
def clearBuckets : Proc Nat := drainBuckets config none (List.range totalBuckets)

end Lifecycle

end CacheRs.Segcache
