/-
**Moving items between segments.**

Merge eviction prunes a run of sealed segments and copies what is left into a spare; compaction
copies without pruning; S3-FIFO copies the items that were touched. All of them copy an item behind
the target's last one, relink its hashtable entry and then account for it on both sides.

* `relinkItem`: the copy of one item;
* `copyInto`, `prune`, `s3fifoPromoteFrom`, `s3fifoGhostRemaining`: the scans of a source segment;
* `mergeEvict`, `mergeCompact`: the merges;
* `s3fifoEvictAdmission`, `s3fifoEvictMain`: the S3-FIFO evictions.

The floating-point ratios are exact rationals here.
-/

import CacheRs.Segcache.Lifecycle

namespace CacheRs.Segcache

open Hashtable (RelinkFreq)
open Segments (SegId State totalBuckets getBucketIndex)
open Sequential

section Relocation

variable (config : Config)

/-- Copy an item to the target's write offset and relink its entry. The copy counts, and takes its
room, once the entry names it. -/
def relinkItem (source target : SegId) (offset : Nat) (item : Item) (relink : RelinkFreq) :
    Proc Bool := do
  let writeOffset := (← segmentOf target).writeOffset
  let oldLocation ← .read fun cache => cache.locationAt source offset
  let newLocation ← .read fun cache => cache.locationAt target writeOffset
  if ← onTable fun table =>
      table.casLocation config.geometry item.key oldLocation newLocation relink then
    removeItemAt config source offset
    modifySegment target fun segment =>
      { segment with
        liveItems := segment.liveItems + 1
        liveBytes := segment.liveBytes + item.size config
        writeOffset := writeOffset + item.size config
        items := segment.items ++ [item] }
    return true
  return false

/-- The scan of `copy_into`; it ends at the first entry that is lost. -/
def copyItems (source target : SegId) : List (Nat × Item) → Proc Bool
  | [] => return true
  | (offset, item) :: rest => do
    let location ← .read fun cache => cache.locationAt source offset
    let gone := item.deleted || (← getItemFrequency config item.key location).isNone
    if gone || config.segmentSize ≤ (← segmentOf target).writeOffset + item.size config then
      copyItems source target rest
    else if ← relinkItem config source target offset item .preserve then
      copyItems source target rest
    else return false

def copyInto (source target : SegId) : Proc Bool := do
  copyItems config source target ((← segmentOf source).walk config)

/-! ### Pruning -/

/-- The running totals of `prune`. -/
structure Pruning where
  scanned : Nat
  dropped : Nat
  retained : Nat
  cutoff : ℚ
  update : Nat

/-- Adjust the cutoff after every tenth of a segment. -/
def Pruning.adjust (config : Config) (targetRatio : ℚ) (pruning : Pruning) : Pruning :=
  if pruning.update * (config.segmentSize / 10) ≤ pruning.scanned then
    let t := (pruning.retained / pruning.scanned - targetRatio) / targetRatio
    { pruning with
      update := pruning.update + 1
      cutoff := if -1 / 2 ≤ t ∧ t ≤ 1 / 2 then pruning.cutoff
        else pruning.cutoff * max (1 + t) (1 / 4) }
  else pruning

/-- The scan of `prune`. -/
def pruneItems (id : SegId) (targetRatio meanSize : ℚ) (toDrop : Int) :
    List (Nat × Item) → Pruning → Proc ℚ
  | [], pruning => return pruning.cutoff
  | (offset, item) :: rest, pruning => do
    let location ← .read fun cache => cache.locationAt id offset
    let frequency ← getItemFrequency config item.key location
    if item.deleted || frequency.isNone then pruneItems id targetRatio meanSize toDrop rest pruning
    else
      let size := item.size config
      let pruning := Pruning.adjust config targetRatio { pruning with scanned := pruning.scanned + size }
      let weighted : ℚ := (frequency.getD 0).toNat / (size / meanSize)
      if 1 / 10000 ≤ pruning.cutoff && 0 < toDrop && (pruning.dropped : Int) < toDrop &&
          weighted ≤ pruning.cutoff then
        if ← onTable fun table => table.remove config.geometry item.key location then
          removeItemAt config id offset
        pruneItems id targetRatio meanSize toDrop rest { pruning with dropped := pruning.dropped + size }
      else
        pruneItems id targetRatio meanSize toDrop rest
          { pruning with retained := pruning.retained + size }

def prune (id : SegId) (cutoffFreq targetRatio : ℚ) : Proc ℚ := do
  let segment ← segmentOf id
  let toKeep := ⌊(config.segmentSize : ℚ) * targetRatio⌋
  pruneItems config id targetRatio (segment.liveBytes / segment.liveItems)
    (segment.liveBytes - toKeep) (segment.walk config) ⟨0, 0, 0, (1 + cutoffFreq) / 2, 1⟩

/-! ### Merging -/

/-- `merge_evict_chain_len`: the run of evictable segments, up to `fuel` of them. -/
def mergeEvictChainLen (cache : Cache) : Nat → SegId → Nat
  | 0, _ => 0
  | fuel + 1, id =>
    if (cache.segment id).canEvict then
      match (cache.segment id).next with
      | some next => mergeEvictChainLen cache fuel next + 1
      | none => 1
    else 0

/-- `merge_compact_chain_len`: and with their live bytes in one segment. -/
def mergeCompactChainLen (cache : Cache) : Nat → Int → SegId → Nat
  | 0, _, _ => 0
  | fuel + 1, occupied, id =>
    if (cache.segment id).canEvict then
      let occupied := occupied + (cache.segment id).liveBytes
      if config.segmentSize < occupied then 0
      else
        match (cache.segment id).next with
        | some next => mergeCompactChainLen cache fuel occupied next + 1
        | none => 1
    else 0

/-- `configure_spare`. -/
def configureSpare (spare start : SegId) : Proc Unit := do
  let ttl := (← segmentOf start).ttl
  let now ← .read Cache.now
  modifySegment spare fun segment => { segment with ttl := ttl, pool := .main, mergeAt := now }

def inheritCreated (dest source : SegId) : Proc Unit := do
  let created := (← segmentOf source).createAt
  modifySegment dest fun segment => { segment with createAt := created }

/-- Claim the first candidate of a merge and link the spare before it; `false` when it is lost. -/
def beginMerge (start spare : SegId) (b : Nat) : Proc Bool := do
  if !(← isSealedMember start b) then
    releaseUnused config spare
    return false
  if !(← segmentOf start).canEvict then
    releaseUnused config spare
    return false
  if !(← claimForDrain start) then
    releaseUnused config spare
    return false
  configureSpare spare start
  inheritCreated spare start
  linkDestBefore spare start b
  return true

/-- `stop_bytes`. -/
def stopBytes : Int := ⌊config.policy.stopRatio * config.segmentSize⌋

/-- Whether a later candidate of a merge can be had; the first is claimed already. -/
def claimCandidate (start candidate : SegId) : Proc Bool := do
  if candidate = start then return true
  if !(← segmentOf candidate).canEvict then return false
  claimForDrain candidate

/-- The loop of `merge_evict`, with `fuel` rounds left before more than `max` are merged. -/
def mergeEvictFrom (start spare : SegId) (targetRatio : ℚ) :
    Nat → ℚ → Option SegId → Proc (Option SegId)
  | _, _, none => return none
  | 0, _, some candidate => return some candidate
  | fuel + 1, cutoff, some candidate => do
    if stopBytes config ≤ (← segmentOf spare).liveBytes then return some candidate
    if !(← claimCandidate start candidate) then return some candidate
    let next := (← segmentOf candidate).next
    let cutoff ← prune config candidate cutoff targetRatio
    let _ ← copyInto config candidate spare
    let _ ← finalizeDrained config candidate
    mergeEvictFrom start spare targetRatio fuel cutoff next

/-- `merge_evict_fallback_drop`. The outer `none` is its error. -/
def mergeEvictFallbackDrop (start : SegId) (b : Nat) : Proc (Option (Option SegId)) := do
  if !(← isSealedMember start b) then return none
  let segment ← segmentOf start
  match ← clearSegment config start with
  | some _ =>
    if segment.prev = none then setHead b segment.next
    return some segment.next
  | none => return none

/-- `merge_evict`; the outer `none` is its error. -/
def mergeEvict (start : SegId) (b : Nat) : Proc (Option (Option SegId)) := do
  let maxMerge := config.policy.maxMerge
  let chainLen ← .read fun cache => mergeEvictChainLen cache maxMerge start
  if chainLen < 3 then return none
  match ← reserveSpare config with
  | none => mergeEvictFallbackDrop config start b
  | some spare =>
    if !(← beginMerge config start spare b) then return none
    let targetRatio := if chainLen < config.policy.nMerge then 1 / (chainLen : ℚ)
      else config.policy.targetRatio
    let next ← mergeEvictFrom config start spare targetRatio (maxMerge + 1) 1 (some start)
    publishDestSealed spare
    return some next

/-- The loop of `merge_compact`. -/
def mergeCompactFrom (start spare : SegId) : Nat → Option SegId → Proc (Option SegId)
  | _, none => return none
  | 0, some candidate => return some candidate
  | fuel + 1, some candidate => do
    let evictable := (← segmentOf candidate).canEvict
    if candidate ≠ start && !evictable then return some candidate
    let spareSize := (← segmentOf spare).liveBytes
    let candidateSize := (← segmentOf candidate).liveBytes
    if stopBytes config ≤ spareSize || config.segmentSize < spareSize + candidateSize then
      return some candidate
    if !(← claimCandidate start candidate) then return some candidate
    let next := (← segmentOf candidate).next
    let _ ← copyInto config candidate spare
    let _ ← finalizeDrained config candidate
    mergeCompactFrom start spare fuel next

/-- `merge_compact`; the outer `none` is its error. -/
def mergeCompact (start : SegId) (b : Nat) : Proc (Option (Option SegId)) := do
  let maxMerge := config.policy.maxMerge
  let chainLen ← .read fun cache => mergeCompactChainLen config cache maxMerge 0 start
  if chainLen < 2 then return none
  if (← segmentOf start).next = none then return none
  match ← reserveSpare config with
  | none => return some none
  | some spare =>
    if !(← beginMerge config start spare b) then return none
    let next ← mergeCompactFrom config start spare (maxMerge + 1) (some start)
    publishDestSealed spare
    return some next

/-! ### S3-FIFO -/

/-- The scan of `s3fifo_promote_from`. -/
def promoteItems (source target : SegId) (relink : RelinkFreq) : List (Nat × Item) → Proc Unit
  | [] => return ()
  | (offset, item) :: rest => do
    let location ← .read fun cache => cache.locationAt source offset
    let frequency := (← getItemFrequency config item.key location).getD 0
    if item.deleted || frequency = 0 then promoteItems source target relink rest
    else
      if (← segmentOf target).writeOffset + item.size config < config.segmentSize then
        let _ ← relinkItem config source target offset item relink
      promoteItems source target relink rest

def s3fifoPromoteFrom (source target : SegId) (relink : RelinkFreq) : Proc Unit := do
  promoteItems config source target relink ((← segmentOf source).walk config)

def ghostInsert (hash : UInt64) : Proc Unit :=
  .change fun cache =>
    { cache with
      eviction := { cache.eviction with ghost := cache.eviction.ghost.insert hash } }

/-- The hashes of the items that are left in a segment. -/
def remainingHashes (cache : Cache) (id : SegId) : List UInt64 :=
  (((cache.segment id).walk config).filter fun placed =>
    !placed.2.deleted && (cache.table.getItemFrequency config.geometry placed.2.key
      (cache.locationAt id placed.1)).isSome).map
    fun placed => config.geometry.hashKey placed.2.key

def ghostInsertAll : List UInt64 → Proc Unit
  | [] => return ()
  | hash :: rest => do
    ghostInsert hash
    ghostInsertAll rest

def s3fifoGhostRemaining (id : SegId) : Proc Unit := do
  let hashes ← .read fun cache => remainingHashes config cache id
  ghostInsertAll hashes

/-- Copy what was touched to a free segment, if there is one. -/
def promoteToTarget (id : SegId) (b : Nat) (relink : RelinkFreq) : Proc (Option SegId) := do
  let ttl := (← segmentOf id).ttl
  match ← reserveFree config with
  | none => return none
  | some target =>
    modifySegment target fun segment => { segment with pool := .main, ttl := ttl }
    inheritCreated target id
    linkDestBefore target id b
    s3fifoPromoteFrom config id target relink
    publishDestSealed target
    return some target

inductive SegmentsError where
  | noEvictableSegments
  | evictFailure
  deriving DecidableEq, Repr

/-- Empty the source of an S3-FIFO eviction. -/
def finishEviction (id : SegId) (b : Nat) : Proc (Except SegmentsError Unit) := do
  let segment ← segmentOf id
  let outcome ← finalizeDrained config id
  if segment.prev = none then setHead b segment.next
  match outcome with
  | .freed => return .ok ()
  | .deferred => return .error .evictFailure

def s3fifoEvictAdmission (id : SegId) : Proc (Except SegmentsError Unit) := do
  match ← lockSealedInBucket id with
  | none => return .error .evictFailure
  | some b =>
    if !(← claimForDrain id) then return .error .evictFailure
    let _ ← promoteToTarget config id b .preserve
    s3fifoGhostRemaining config id
    finishEviction config id b

def s3fifoEvictMain (id : SegId) : Proc (Except SegmentsError Unit) := do
  match ← lockSealedInBucket id with
  | none => return .error .evictFailure
  | some b =>
    if !(← claimForDrain id) then return .error .evictFailure
    let _ ← promoteToTarget config id b .decrement
    finishEviction config id b

end Relocation

end CacheRs.Segcache
