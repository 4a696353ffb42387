/-
**The cache's operations.**

The calls a user makes, composed of the segments', the chains' and the table's steps as in the
source. A loop whose length the source does not bound takes a number of rounds; with none left it
does not return.

* `evict`, `leastValuableSeg`: one eviction pass, and its victim;
* `tryExpand`, `reserve`, `reserveAndDefine`: room for an item;
* `removeAt`: an item leaves its segment;
* `insert`, `get`, `delete`, `cas`, `numericUpdate`, `tryIntoNumeric`, `expire`, `clear`: the calls.
-/

import CacheRs.Segcache.Relocation

namespace CacheRs.Segcache

open Hashtable (SlotRef)
open KeyValue (Bytes Value)
open Segments (SegId State totalBuckets getBucketIndex bucketTtl)
open Sequential

section Operations

variable (config : Config)

/-! ### Eviction -/

/-- The next draw of the eviction's generator. -/
def drawRandom : Proc UInt32 :=
  .exchange fun cache =>
    (config.draw cache.eviction.drawn,
      { cache with eviction := { cache.eviction with drawn := cache.eviction.drawn + 1 } })

/-- The segment ids in the order of a search that begins at a random index and wraps around. -/
def idsFrom (start : Nat) : List SegId :=
  (List.range config.cap).map fun i => (start + i) % config.cap + 1

/-- The first evictable segment of a chain, among the first `fuel` members. -/
def firstEvictable (cache : Cache) : Nat → Option SegId → Option SegId
  | 0, _ => none
  | _, none => none
  | fuel + 1, some id =>
    if (cache.segment id).canEvict then some id
    else firstEvictable cache fuel (cache.segment id).next

/-- The search of RandomFifo: every bucket with a readable segment is examined once. -/
def randomFifoFrom (cache : Cache) (examined : List Nat) : List SegId → Option SegId
  | [] => none
  | id :: rest =>
    if !(cache.segment id).state.isReadable then randomFifoFrom cache examined rest
    else
      let b := getBucketIndex (cache.segment id).ttl
      if b ∈ examined then randomFifoFrom cache examined rest
      else
        match firstEvictable cache config.cap (cache.bucket b).head with
        | some victim => some victim
        | none => randomFifoFrom cache (b :: examined) rest

/-- `should_rerank`. -/
def shouldRerank : Proc Bool :=
  .exchange fun cache =>
    let eviction := cache.eviction
    if (eviction.rankedSegs.headD none).isNone || 1 < cache.now - eviction.lastUpdateTime ||
        eviction.rankedSegs.length < eviction.index + 8 then
      (true, { cache with eviction := { eviction with lastUpdateTime := cache.now } })
    else (false, cache)

/-- What a policy ranks a segment by. -/
def rankKey (policy : Policy) (segment : Segment) : Int :=
  match policy with
  | .fifo => max segment.createAt segment.mergeAt
  | .cte => segment.createAt + segment.ttl
  | _ => segment.liveBytes

/-- Evictable segments before the others, then by the policy's key, then by id. -/
def rankLe (cache : Cache) (a b : SegId) : Bool :=
  let key := fun id =>
    toLex ((!(cache.segment id).canEvict : Bool),
      toLex (rankKey config.policy (cache.segment id), id))
  key a ≤ key b

def rerank : Proc Unit :=
  .change fun cache =>
    { cache with
      eviction := { cache.eviction with
        rankedSegs := (((List.range config.cap).map (· + 1)).mergeSort
          (rankLe config cache)).map some
        index := 0 } }

/-- `Eviction::least_valuable_seg`. -/
def nextRanked : Proc (Option SegId) :=
  .exchange fun cache =>
    ((cache.eviction.rankedSegs[cache.eviction.index]?).join,
      { cache with eviction := { cache.eviction with index := cache.eviction.index + 1 } })

/-- Consume the ranking up to an evictable segment. -/
def rankedVictim : Nat → Proc (Option SegId)
  | 0 => .diverge
  | fuel + 1 => do
    match ← nextRanked with
    | none => return none
    | some id =>
      if (← segmentOf id).canEvict then return some id
      rankedVictim fuel

def leastValuableSeg : Proc (Option SegId) := do
  match config.policy with
  | .random =>
    let start := (← drawRandom config).toNat % config.cap
    .read fun cache => (idsFrom config start).find? fun id => (cache.segment id).canEvict
  | .randomFifo =>
    let start := (← drawRandom config).toNat % config.cap
    .read fun cache => randomFifoFrom config cache [] (idsFrom config start)
  | .fifo | .cte | .util =>
    if ← shouldRerank then rerank config
    rankedVictim (config.cap + 1)
  | _ => return none

/-- The members of a chain; it has at most `fuel` of them. -/
def chainFrom (cache : Cache) : Nat → Option SegId → Option (List SegId)
  | _, none => some []
  | 0, some _ => none
  | fuel + 1, some id => (chainFrom cache fuel (cache.segment id).next).map (id :: ·)

def segmentAge (segment : Segment) : Nat := max segment.createAt segment.mergeAt

/-- Keep the older of the best candidate and the next segment; the first of equally old ones wins. -/
def olderSeg (cache : Cache) (pool : SegmentPool) (best : Option SegId) (id : SegId) :
    Option SegId :=
  if (cache.segment id).pool = pool && (cache.segment id).canEvict then
    match best with
    | none => some id
    | some oldest =>
      if segmentAge (cache.segment id) < segmentAge (cache.segment oldest) then some id
      else some oldest
  else best

/-- The scan of `find_oldest_seg_in_pool`; the outer `none` is a chain that does not end. -/
def oldestInBuckets (cache : Cache) (pool : SegmentPool) (best : Option SegId) :
    List Nat → Option (Option SegId)
  | [] => some best
  | b :: rest =>
    match chainFrom cache config.cap (cache.bucket b).head with
    | none => none
    | some chain => oldestInBuckets cache pool (chain.foldl (olderSeg cache pool) best) rest

def findOldestSegInPool (pool : SegmentPool) : Proc (Option SegId) := fun cache =>
  (oldestInBuckets config cache pool none (List.range totalBuckets)).map fun best => (best, cache)

def s3fifoEvict : Proc (Except SegmentsError Unit) := do
  match ← findOldestSegInPool config .admission with
  | some id => s3fifoEvictAdmission config id
  | none =>
    match ← findOldestSegInPool config .main with
    | some id => s3fifoEvictMain config id
    | none => return .error .noEvictableSegments

/-- Try one bucket after the other until a merge succeeds. -/
def mergeBuckets : List Nat → Proc (Except SegmentsError Unit)
  | [] => return .error .noEvictableSegments
  | b :: rest => do
    match ← .read fun cache => (cache.bucket b).head with
    | none => mergeBuckets rest
    | some first =>
      let start := (← .read fun cache => (cache.bucket b).nextToMerge).getD first
      match ← mergeEvict config start b with
      | some next =>
        setNextToMerge b next
        return .ok ()
      | none =>
        setNextToMerge b none
        mergeBuckets rest

/-- Drop the least valuable segment. -/
def evictOne : Proc (Except SegmentsError Unit) := do
  match ← leastValuableSeg config with
  | none => return .error .noEvictableSegments
  | some id =>
    match ← lockSealedInBucket id with
    | none => return .error .evictFailure
    | some b =>
      let segment ← segmentOf id
      match ← clearSegment config id with
      | none => return .error .evictFailure
      | some outcome =>
        if segment.prev = none then setHead b segment.next
        match outcome with
        | .freed => return .ok ()
        | .deferred => return .error .evictFailure

def evict : Proc (Except SegmentsError Unit) := do
  if 0 < (← expireBuckets config) then return .ok ()
  match config.policy with
  | .merge .. =>
    let index := (← drawRandom config).toNat % config.cap
    let offset := getBucketIndex (← segmentOf (index + 1)).ttl
    mergeBuckets config ((List.range (totalBuckets + 1)).map fun i => (offset + i) % totalBuckets)
  | .s3Fifo _ => s3fifoEvict config
  | .none => return .error .noEvictableSegments
  | _ => evictOne config

/-! ### Removing an item -/

/-- Free a sealed segment that has no item left. -/
def freeEmpty (id : SegId) : Proc Unit := do
  match ← lockSealedInBucket id with
  | none => return ()
  | some b =>
    let segment ← segmentOf id
    match ← clearSegment config id with
    | some _ => if segment.prev = none then setHead b segment.next
    | none => return ()

/-- Compact a segment into its successor when both are sparse. -/
def compactAfter (id : SegId) : Proc Unit := do
  let segment ← segmentOf id
  let sparse (segment : Segment) : Bool :=
    (segment.liveBytes : ℚ) / config.segmentSize ≤ config.policy.compactRatio
  if !sparse segment then return ()
  match segment.next with
  | none => return ()
  | some next =>
    if !(← segmentOf next).canEvict then return ()
    if sparse (← segmentOf next) then
      let b := getBucketIndex segment.ttl
      let _ ← mergeCompact config id b
      setNextToMerge b none

/-- `Segments::remove_at`, whose remover pin ends with the accounting. -/
def removeAt (location : Location) : Proc Unit := do
  if !(← .read fun cache => cache.resolves config location) then return ()
  removeItemAt config location.segment location.offset
  let segment ← segmentOf location.segment
  if segment.liveItems = 0 && segment.canEvict then freeEmpty config location.segment
  else if config.policy.isMerge then compactAfter config location.segment

/-! ### Room for an item -/

inductive TtlBucketsError where
  | itemOversized (size : Nat)
  | noFreeSegments
  deriving DecidableEq, Repr

/-- Room in a segment. -/
structure Reserved where
  seg : SegId
  offset : Nat
  deriving DecidableEq, Repr

inductive AllocOutcome where
  | reserved (item : Reserved)
  | full
  | notWritable
  deriving DecidableEq, Repr

def tryAllocItem (id : SegId) (size : Nat) : Proc AllocOutcome :=
  .exchange fun cache =>
    let segment := cache.segment id
    if !segment.state.isWritable then (.notWritable, cache)
    else if config.segmentSize < segment.writeOffset + size then (.full, cache)
    else (.reserved ⟨id, segment.writeOffset⟩, cache.setSegment id
      { segment with
        writeOffset := segment.writeOffset + size
        liveItems := segment.liveItems + 1
        liveBytes := segment.liveBytes + size })

/-- Put a freshly reserved segment at the end of a bucket's chain; `false` when another one got
there first. -/
def linkTail (b : Nat) (observed : Option SegId) (id : SegId) : Proc Bool := do
  match observed with
  | some tail =>
    if ← casMetadata tail .live .sealed (some (some id)) none then
      let _ ← casMetadata id .reserved .linking (some none) (some (some tail))
      setTail b (some id)
      return true
    return false
  | none =>
    if (← .read fun cache => (cache.bucket b).tail) = none then
      setTail b (some id)
      let _ ← casMetadata id .reserved .linking (some none) (some none)
      setHead b (some id)
      return true
    return false

/-- `try_expand`; `false` when there is no free segment. -/
def tryExpand (b : Nat) (observed : Option (SegId × BitVec 16)) : Proc Bool := do
  match ← reserveFree config with
  | none => return false
  | some id =>
    modifySegment id fun segment => { segment with ttl := bucketTtl b }
    let tail ← .read fun cache => (cache.bucket b).tail
    let stale ← .read fun cache => observed.any fun seen =>
      tail ≠ some seen.1 || (cache.segment seen.1).generation ≠ seen.2
    if stale then
      releaseUnused config id
      return true
    if ← linkTail b (observed.map Prod.fst) id then
      let _ ← casMetadata id .linking .live none none
      return true
    -- The loser waits for the winner's tail; a lone thread would wait for ever.
    if tail = observed.map Prod.fst then .diverge
    releaseUnused config id
    return true

/-- The loop of `TtlBucket::reserve`. -/
def reserveLoop (b size : Nat) : Nat → Proc (Except TtlBucketsError Reserved)
  | 0 => .diverge
  | fuel + 1 => do
    match ← .read fun cache => (cache.bucket b).tail with
    | some id =>
      let generation := (← segmentOf id).generation
      match ← tryAllocItem config id size with
      | .reserved item => return .ok item
      | .notWritable => reserveLoop b size fuel
      | .full =>
        if ← tryExpand config b (some (id, generation)) then reserveLoop b size fuel
        else return .error .noFreeSegments
    | none =>
      if ← tryExpand config b none then reserveLoop b size fuel
      else return .error .noFreeSegments

def reserve (fuel b size : Nat) : Proc (Except TtlBucketsError Reserved) := do
  if config.segmentSize < size then return .error (.itemOversized size)
  reserveLoop config b size fuel

inductive SegcacheError where
  | hashTableInsertEx
  | eventQueueEx
  | exists_
  | itemOversized (size : Nat)
  | noFreeSegments
  | notFound
  | notNumeric
  deriving DecidableEq, Repr

/-- A write for a key in the ghost queue goes to the main pool, any other to the admission pool, which
is relieved first when it is full. -/
def routePool (key : Key) : Proc SegmentPool := do
  if !config.policy.isS3Fifo then return .main
  let hash := config.geometry.hashKey key
  if ← .read fun cache => cache.eviction.ghost.contains hash then
    .change fun cache =>
      { cache with
        eviction := { cache.eviction with ghost := cache.eviction.ghost.remove hash } }
    return .main
  if config.admissionCap ≤ (← .read Cache.admissionCount) then
    let _ ← evict config
    return .admission
  return .admission

/-- Write a reserved item, and put its segment in the pool it was reserved for. -/
def define (reserved : Reserved) (pool : SegmentPool) (key : Key) (value : Value)
    (optional : Optional) : Proc Unit := do
  modifySegment reserved.seg fun segment =>
    { segment with items := segment.items ++ [⟨key, value, optional, 0, false⟩] }
  if pool = .admission && decide ((← segmentOf reserved.seg).pool = .main) then
    modifySegment reserved.seg fun segment => { segment with pool := .admission }
    .change fun cache => { cache with admissionCount := cache.admissionCount + 1 }

def reserveRetries : Nat := 3

/-- The retry loop of `reserve_and_define`: it goes on for nothing whenever a segment was freed, and
`retries` times else. -/
def reserveRetry (fuel b size : Nat) :
    Nat → Nat → Proc (Except SegcacheError Reserved)
  | 0, _ => .diverge
  | rounds + 1, retries => do
    match ← reserve config fuel b size with
    | .ok reserved => return .ok reserved
    | .error (.itemOversized size) => return .error (.itemOversized size)
    | .error .noFreeSegments =>
      let before ← .read Cache.freed
      let _ ← evict config
      if (← .read Cache.freed) ≠ before then reserveRetry fuel b size rounds retries
      else if retries ≤ 1 then return .error .noFreeSegments
      else reserveRetry fuel b size rounds (retries - 1)

def reserveAndDefine (fuel : Nat) (key : Key) (value : Value) (optional : Optional) (ttl : Nat) :
    Proc (Except SegcacheError Reserved) := do
  let pool ← routePool config key
  match ← reserveRetry config fuel (getBucketIndex ttl) (config.itemSize key value optional) fuel
      reserveRetries with
  | .ok reserved =>
    define reserved pool key value optional
    return .ok reserved
  | .error error => return .error error

/-! ### The calls -/

def lookupNoFreqUpdate (key : Key) : Proc (Found Location (Hit Location)) :=
  .read fun cache =>
    cache.table.lookupNoFreqUpdate config.geometry (cache.verify config key) key

def lookup (key : Key) : Proc (Found Location (Hit Location)) :=
  .exchange fun cache =>
    let result := cache.table.lookup config.geometry (cache.verify config key) key
    (result.1, { cache with table := result.2 })

def insertEntry (key : Key) (location : Location) : Proc (Inserted Location) :=
  .exchange fun cache =>
    let result := cache.table.insert config.geometry (cache.verify config key) key location
    (result.1, { cache with table := result.2 })

def reservedLocation (reserved : Reserved) : Proc Location :=
  .read fun cache => cache.locationAt reserved.seg reserved.offset

/-- Give a reservation back, if its segment can still be pinned. -/
def rollbackReservation (location : Location) : Proc Unit := do
  if (← segmentOf location.segment).state.isRemovable then removeAt config location

/-- A lone thread that waits for another segment's drain or fill waits for ever. -/
def waitWhileDrainingOrFilling (location : Location) : Proc Unit := do
  if ← .read fun cache => cache.resolves config location &&
      (decide ((cache.segment location.segment).state = .draining) ||
        decide ((cache.segment location.segment).state = .relinking)) then
    .diverge

/-- Publish a defined item in the place of the key's entry, or as a new one; `none` asks for another
attempt. -/
def publish (key : Key) (new : Location) : Proc (Option (Except SegcacheError Unit)) := do
  match ← lookupNoFreqUpdate config key with
  | .unknown location =>
    rollbackReservation config new
    waitWhileDrainingOrFilling config location
    return none
  | .found hit =>
    if hit.location = new then return some (.ok ())
    if !(← segmentOf hit.location.segment).state.isRemovable then
      rollbackReservation config new
      waitWhileDrainingOrFilling config hit.location
      return none
    -- A lone thread's exchange finds what its lookup found.
    if !(← onTable fun table => table.casLocationAt hit.slot hit.location new true) then .diverge
    removeAt config hit.location
    return some (.ok ())
  | .absent =>
    match ← insertEntry config key new with
    | .unknown location =>
      rollbackReservation config new
      waitWhileDrainingOrFilling config location
      return none
    | .created => return some (.ok ())
    | .replaced old =>
      if (← segmentOf old.segment).state.isRemovable then removeAt config old
      return some (.ok ())
    | .full =>
      rollbackReservation config new
      return some (.error .hashTableInsertEx)

/-- `insert`, with the TTL in coarse seconds. -/
def insertLoop (fuel : Nat) (key : Key) (value : Value) (optional : Optional) (ttl : Nat) :
    Nat → Proc (Except SegcacheError Unit)
  | 0 => .diverge
  | rounds + 1 => do
    match ← reserveAndDefine config fuel key value optional ttl with
    | .error error => return .error error
    | .ok reserved =>
      match ← publish config key (← reservedLocation reserved) with
      | some result => return result
      | none => insertLoop fuel key value optional ttl rounds

/-- `coarse_ttl` of a whole number of seconds. -/
def coarseTtl (secs : Nat) : Nat := min (2 ^ 32 - 1) secs

def insert (fuel : Nat) (key : Key) (value : Value) (optional : Optional) (ttl : Nat) :
    Proc (Except SegcacheError Unit) :=
  insertLoop config fuel key value optional (coarseTtl ttl) fuel

/-- `remaining_ttl`; `none` past the deadline. -/
def remainingTtl (cache : Cache) (id : SegId) : Option Nat :=
  let segment := cache.segment id
  if segment.ttl = 0 then some 0
  else if segment.createAt + segment.ttl ≤ cache.now then none
  else some (segment.createAt + segment.ttl - cache.now)

/-- A location's 44 bits. -/
def Location.raw (location : Location) : UInt64 :=
  UInt64.ofNat (location.segment * 2 ^ 26 + location.tag % 2 ^ 6 * 2 ^ 20 + location.offset / 8)

/-- `mix_version`. -/
def mixVersion (raw version : UInt64) : UInt64 := raw ^^^ version * 0x9E3779B97F4A7C15

/-- `CasToken::new`. -/
def casToken (location : Location) (generation : BitVec 16) : UInt64 :=
  location.raw ||| UInt64.ofNat generation.toNat <<< 44

/-- `token_for`. -/
def tokenFor (item : Item) (location : Location) (generation : BitVec 16) : UInt64 :=
  match item.value with
  | .u64 _ => mixVersion (casToken location generation) item.version
  | .bytes _ => casToken location generation

/-- What a reader sees of an item it has pinned. -/
structure View where
  item : Item
  cas : UInt64
  deriving DecidableEq

/-- `get`, which keeps the segment pinned for as long as the item is held. -/
def get (key : Key) (updateFreq : Bool) : Proc (Option View) := do
  match ← if updateFreq then lookup config key else lookupNoFreqUpdate config key with
  | .absent => return none
  -- A lone thread finds every entry readable.
  | .unknown _ => .diverge
  | .found hit =>
    let id := hit.location.segment
    if (← .read fun cache => remainingTtl cache id).isNone then return none
    match ← .read fun cache => cache.itemAt config hit.location with
    | none => .diverge
    | some item =>
      modifySegment id fun segment => { segment with refCount := segment.refCount + 1 }
      let generation := (← segmentOf id).generation
      return some ⟨item, tokenFor item hit.location generation⟩

/-- A held item is dropped: the last reader of a condemned segment frees it. -/
def dropItem (id : SegId) : Proc Unit := do
  let segment ← segmentOf id
  modifySegment id fun segment => { segment with refCount := segment.refCount - 1 }
  if segment.refCount = 1 then
    if ← tryReleaseCondemned id then
      modifySegment id (Segment.resetWriteStats config)
      pushFreed id

def delete (key : Key) : Proc Bool := do
  match ← lookupNoFreqUpdate config key with
  | .absent => return false
  | .unknown _ => .diverge
  | .found hit =>
    let id := hit.location.segment
    if (← .read fun cache => remainingTtl cache id).isNone then return false
    -- A lone thread finds every entry's segment removable.
    if !(← segmentOf id).state.isRemovable then .diverge
    if !(← onTable fun table => table.remove config.geometry key hit.location) then return false
    if ← .read fun cache => cache.resolves config hit.location then
      modifySegment id fun segment =>
        { segment with
          items := Segment.modifyItem config (fun item => { item with deleted := true })
            hit.location.offset config.initialOffset segment.items }
    removeAt config hit.location
    return true

/-- `replace_at`: publish a defined item in the place of the one that was looked up, if it is still
there and, for a cas, still has the token. -/
def replaceAt (key : Key) (old : Location) (slot : SlotRef) (new : Location)
    (expected : Option UInt64) : Proc (Except SegcacheError Unit) := do
  if !(← segmentOf old.segment).state.isRemovable then
    rollbackReservation config new
    return .error .exists_
  if !(← .read fun cache => cache.resolves config old) then
    rollbackReservation config new
    return .error .exists_
  let generation := (← segmentOf old.segment).generation
  let changed ← .read fun cache => expected.any fun token =>
    (cache.table.getItemFrequency config.geometry key old).isNone ||
      (cache.itemAt config old).all fun item => tokenFor item old generation ≠ token
  if changed then
    rollbackReservation config new
    return .error .exists_
  if !(← onTable fun table => table.casLocationAt slot old new true) then
    rollbackReservation config new
    return .error .exists_
  removeAt config old
  return .ok ()

def cas (fuel : Nat) (key : Key) (value : Value) (optional : Optional) (ttl : Nat)
    (token : UInt64) : Proc (Except SegcacheError Unit) := do
  match ← lookupNoFreqUpdate config key with
  | .absent => return .error .notFound
  | .unknown _ => .diverge
  | .found hit =>
    let id := hit.location.segment
    if (← .read fun cache => remainingTtl cache id).isNone then return .error .notFound
    let generation := (← segmentOf id).generation
    match ← .read fun cache => cache.itemAt config hit.location with
    | none => .diverge
    | some item =>
      if tokenFor item hit.location generation ≠ token then return .error .exists_
      match ← reserveAndDefine config fuel key value optional (coarseTtl ttl) with
      | .error error => return .error error
      | .ok reserved =>
        replaceAt config key hit.location hit.slot (← reservedLocation reserved) (some token)

/-- The in-place update of a numeric item, whose version moves on by two. -/
def numericUpdate (key : Key) (op : UInt64 → UInt64) : Proc (Except SegcacheError UInt64) := do
  match ← lookup config key with
  | .absent => return .error .notFound
  | .unknown _ => .diverge
  | .found hit =>
    let id := hit.location.segment
    if (← .read fun cache => remainingTtl cache id).isNone then return .error .notFound
    match ← .read fun cache => cache.itemAt config hit.location with
    | none => .diverge
    | some item =>
      match item.value with
      | .bytes _ => return .error .notNumeric
      | .u64 number =>
        modifySegment id fun segment =>
          { segment with
            items := Segment.modifyItem config
              (fun item => { item with value := .u64 (op number), version := item.version + 2 })
              hit.location.offset config.initialOffset segment.items }
        return .ok (op number)

def wrappingAdd (key : Key) (rhs : UInt64) : Proc (Except SegcacheError UInt64) :=
  numericUpdate config key fun number => number + rhs

def saturatingSub (key : Key) (rhs : UInt64) : Proc (Except SegcacheError UInt64) :=
  numericUpdate config key fun number => if rhs ≤ number then number - rhs else 0

/-- `parse_simple_numeric`, digit by digit. -/
def parseDigits (value : Nat) : Bytes → Option UInt64
  | [] => some (UInt64.ofNat value)
  | digit :: rest =>
    if 48 ≤ digit.toNat && digit.toNat ≤ 57 && value * 10 + (digit.toNat - 48) < 2 ^ 64 then
      parseDigits (value * 10 + (digit.toNat - 48)) rest
    else none

def parseSimpleNumeric : Bytes → Option UInt64
  | [] => none
  | first :: rest =>
    if rest ≠ [] ∧ first = 48 then none else parseDigits 0 (first :: rest)

def tryIntoNumeric (fuel : Nat) (key : Key) (initial : UInt64) (ttl : Nat) :
    Proc (Except SegcacheError Unit) := do
  match ← lookupNoFreqUpdate config key with
  | .absent => insert config fuel key (.u64 initial) Optional.none ttl
  | .unknown _ => .diverge
  | .found hit =>
    match ← .read fun cache => cache.itemAt config hit.location with
    | none => .diverge
    | some item =>
      match item.value with
      | .u64 _ => return .ok ()
      | .bytes text =>
        match parseSimpleNumeric text with
        | none => return .error .notNumeric
        | some number =>
          match ← .read fun cache => remainingTtl cache hit.location.segment with
          | none => return .error .notFound
          | some remaining =>
            match ← reserveAndDefine config fuel key (.u64 number) item.optional remaining with
            | .error error => return .error error
            | .ok reserved =>
              replaceAt config key hit.location hit.slot (← reservedLocation reserved) none

def expire : Proc Nat := expireBuckets config

def clearCache : Proc Nat := clearBuckets config

end Operations

end CacheRs.Segcache
