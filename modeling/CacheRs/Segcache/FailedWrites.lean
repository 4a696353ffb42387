/-
**Failed writes.**

* `Write`: the calls that write an item, and `Write.Refused`: those that must fail because the item is
  longer than a segment;
* `RoutesQuietly`: routing a write of the key changes nothing that a cache holds;
* `FailsAtomically`: what a failed write leaves: everything, if its item was too long, and else the
  mappings up to evictions, with every segment's counters in order;
* `failsAtomically_iff`: **a failed write is atomic exactly when it is not refused for its length, or
  is routed quietly**;
* `refused_run`: a refused insert evicts another key's item.
-/

import CacheRs.Segcache.SecondChances

set_option linter.unusedSectionVars false

namespace CacheRs.Segcache

open CacheRs.Eviction (GhostQueue)
open KeyValue (Value)
open Segments (SegId State totalBuckets getBucketIndex)
open Sequential Procedure

variable {config : Config} {chain : Nat → List SegId} {cache middle after : Cache}

/-! ### What is held -/

/-- The table's entries, the segments, the chains, the queues, the pools and the ghosts are the same. -/
structure SameState (cache after : Cache) : Prop where
  slots : after.table.slot = cache.table.slot
  segment : after.segment = cache.segment
  bucket : after.bucket = cache.bucket
  freeQueue : after.freeQueue = cache.freeQueue
  spareQueue : after.spareQueue = cache.spareQueue
  spareCount : after.spareCount = cache.spareCount
  admissionCount : after.admissionCount = cache.admissionCount
  ghost : after.eviction.ghost = cache.eviction.ghost

/-- The keys are mapped to the same. -/
theorem SameState.maps (same : SameState cache after) {key : Key} {mapping : Mapping} :
    Maps config after key mapping ↔ Maps config cache key mapping := by
  unfold Maps Cache.itemAt
  rw [same.slots, same.segment]

theorem SameState.refl (cache : Cache) : SameState cache cache := ⟨rfl, rfl, rfl, rfl, rfl, rfl, rfl, rfl⟩

/-- Nothing is due for expiry, or it has been looked for this second, and nothing can be evicted. -/
structure Idle (cache : Cache) : Prop where
  undue : cache.lastExpired = cache.now ∨ ∀ b id, (cache.bucket b).head = some id →
    cache.now < (cache.segment id).createAt + (cache.segment id).ttl
  unevictable : ∀ id, (cache.segment id).canEvict = false

/-- Routing a write of this key leaves what the cache holds as it is. -/
def RoutesQuietly (config : Config) (key : Key) (cache : Cache) : Prop :=
  config.policy.isS3Fifo = true →
    cache.eviction.ghost.contains (config.geometry.hashKey key) = false ∧
      (config.admissionCap ≤ cache.admissionCount → Idle cache)

/-! ### The eviction of a full pool -/

theorem due_eq_false {now : Nat} {id : SegId} : cache.due (some now) id = false ↔
    now < (cache.segment id).createAt + (cache.segment id).ttl := by
  simp [Cache.due]

/-- A chain whose first member is not due is left alone. -/
theorem undrained_of_head {cutoff : Option Nat} {members : List SegId}
    (fresh : ∀ id, members.head? = some id → cache.due cutoff id = false) :
    cache.undrained cutoff members = members := by
  cases members with
  | nil => rfl
  | cons id rest =>
    rw [Cache.undrained, if_neg]
    rw [fresh id rfl]
    simp

/-- A sweep whose buckets' first members are not due leaves all as it was. -/
theorem Swept.quiet {buckets : List Nat} {drained : Nat} (sane : Sane config Hand.empty chain cache)
    (swept : Swept config (some cache.now) buckets chain drained cache after)
    (fresh : ∀ b ∈ buckets, ∀ id, (cache.bucket b).head = some id →
      cache.now < (cache.segment id).createAt + (cache.segment id).ttl) :
    after = { cache with lastExpired := after.lastExpired } := by
  apply swept.still
  intro b inside
  apply undrained_of_head
  intro id first
  have head : (cache.bucket b).head = (chain b).head? := sane.orderly.head b
  exact due_eq_false.mpr (fresh b inside id (head.trans first))

/-- A sweep that leaves the chains alone has found nothing that is due. -/
theorem Swept.unswept {buckets : List Nat} {drained : Nat} (sane : Sane config Hand.empty chain cache)
    (merges : config.Merges)
    (swept : Swept config (some cache.now) buckets chain drained cache after)
    (same : after.bucket = cache.bucket) {b : Nat} (inside : b ∈ buckets) {id : SegId}
    (first : (cache.bucket b).head = some id) :
    cache.now < (cache.segment id).createAt + (cache.segment id).ttl := by
  have head : (cache.bucket b).head = (chain b).head? := sane.orderly.head b
  have head' : (after.bucket b).head = (cache.sweptChain (some cache.now) buckets chain b).head? :=
    swept.sane.orderly.head b
  rw [same, first, Cache.sweptChain, if_pos inside] at head'
  have unique := sane.orderly.unique b
  cases members : chain b with
  | nil =>
    rw [first, members] at head
    cases head
  | cons other rest =>
    rw [first, members] at head
    have same : id = other := Option.some.inj head
    subst same
    rw [members] at unique head'
    by_contra expired
    have due : cache.due (some cache.now) id = true := by
      rw [← Bool.not_eq_false]
      exact fun no => expired (due_eq_false.mp no)
    have awake : (cache.segment id).state ≠ .draining := sane.orderly.not_draining merges id
    rw [Cache.undrained, if_pos due, if_neg awake] at head'
    have there := undrained_subset _ _ id (List.mem_of_mem_head? head'.symm)
    exact (List.nodup_cons.mp unique).1 there

theorem Idle.swept {drained : Nat} (idle : Idle cache) (sane : Sane config Hand.empty chain cache)
    (swept : Swept config (some cache.now) cache.expiring chain drained cache middle) :
    middle = { cache with lastExpired := middle.lastExpired } := by
  apply swept.quiet sane
  intro b inside id first
  rcases idle.undue with done | fresh
  · rw [Cache.expiring, if_pos done] at inside
    cases inside
  · exact fresh b id first

theorem sameState_lastExpired {lastExpired : Nat}
    (same : after = { cache with lastExpired := lastExpired }) : SameState cache after := by
  subst same
  exact ⟨rfl, rfl, rfl, rfl, rfl, rfl, rfl, rfl⟩

/-- **An eviction of S3-FIFO changes what is held** unless there is nothing to expire or evict. -/
theorem returns_evict_idle (s3 : config.policy.isS3Fifo = true)
    (sane : Sane config Hand.empty chain cache) (ranked : Ranked config cache) :
    Returns (evict config) (fun _ after => SameState cache after ↔ Idle cache) cache := by
  have notMerge : config.policy.isMerge = false := by
    cases policy : config.policy <;> simp_all [Policy.isS3Fifo, Policy.isMerge]
  have merges := merges_of_not_merge notMerge
  have spare : config.spareCapacity = 0 := by
    unfold Config.spareCapacity
    rw [notMerge]
    rfl
  unfold evict
  obtain ⟨drained, middle, ran, swept, -⟩ := returns_expireBuckets sane
  rw [returns_bind]
  refine returns_of_eq ran ?_
  by_cases counted : 0 < drained
  · rw [if_pos counted]
    refine (returns_pure _).mpr ⟨fun same => ?_, fun idle => sameState_lastExpired (idle.swept sane swept)⟩
    -- What was drained is on the free queue.
    have freed := swept.freed spare
    have length := swept.flows.length
    rw [same.freeQueue] at length
    omega
  · rw [if_neg counted]
    cases policy : config.policy with
    | s3Fifo ratio =>
      have ranked' : Ranked config middle := ranked.congr (by rw [swept.eviction])
      refine (returns_s3fifoEvict merges swept.sane ranked').mono fun _ after known => ?_
      obtain ⟨-, -, victim⟩ := known
      refine ⟨fun same => ?_, fun idle => ?_⟩
      · rcases victim with ⟨rfl, never⟩ | ⟨id, -, empties⟩
        · refine ⟨?_, fun id => ?_⟩
          · by_cases done : cache.lastExpired = cache.now
            · exact .inl done
            · refine .inr fun b id first => swept.unswept sane merges same.bucket ?_ first
              rw [Cache.expiring, if_neg done, List.mem_range]
              refine (sane.orderly.bucket b fun empty => ?_).2
              have head : (cache.bucket b).head = (chain b).head? := sane.orderly.head b
              rw [first, empty] at head
              cases head
          · rw [← same.segment]
            exact never id
        · -- The victim was in a chain before, and is in none behind.
          have held : holds (middle.segment id).state = true := by
            rw [empties.was]
            rfl
          obtain ⟨b, inside⟩ := (swept.sane.orderly.member id).mp held
          have before : id ∈ chain b := by
            unfold Cache.sweptChain at inside
            split at inside
            · exact undrained_subset _ _ id inside
            · exact inside
          have was : holds (cache.segment id).state = true := (sane.orderly.member id).mpr ⟨b, before⟩
          have gone := empties.gone
          rw [same.segment, was] at gone
          cases gone
      · have middle_ := idle.swept sane swept
        rcases victim with ⟨rfl, -⟩ | ⟨id, isVictim, -⟩
        · exact sameState_lastExpired middle_
        · have evictable : (middle.segment id).canEvict = true := by
            rcases isVictim with oldest | ⟨-, oldest⟩
            · exact oldest.candidate.2
            · exact oldest.candidate.2
          rw [middle_] at evictable
          cases evictable.symm.trans (idle.unevictable id)
    | _ =>
      rw [policy] at s3
      cases s3

/-- **Routing a write changes nothing that is held exactly when it is quiet.** -/
theorem returns_routePool_quiet (sane : Sane config Hand.empty chain cache) (ranked : Ranked config cache)
    (key : Key) : Returns (routePool config key)
      (fun _ after => SameState cache after ↔ RoutesQuietly config key cache) cache := by
  unfold routePool
  dsimp only
  by_cases s3 : config.policy.isS3Fifo = true
  case neg =>
    rw [if_pos (by simp [s3])]
    exact (returns_pure _).mpr ⟨fun _ yes => absurd yes s3, fun _ => SameState.refl cache⟩
  rw [if_neg (by simp [s3]), returns_bind, returns_read]
  by_cases ghost : cache.eviction.ghost.contains (config.geometry.hashKey key) = true
  · rw [if_pos ghost, returns_bind, returns_change]
    refine (returns_pure _).mpr ⟨fun same => ?_, fun quiet => ?_⟩
    · have removed : (cache.eviction.ghost.remove (config.geometry.hashKey key)).contains
          (config.geometry.hashKey key) = false := by
        simp [GhostQueue.remove, GhostQueue.contains]
      have ghosts : cache.eviction.ghost.remove (config.geometry.hashKey key) = cache.eviction.ghost :=
        same.ghost
      rw [ghosts, ghost] at removed
      cases removed
    · cases ghost.symm.trans (quiet s3).1
  · have unghosted := Bool.eq_false_iff.mpr ghost
    rw [if_neg ghost, returns_bind, returns_read]
    by_cases full : config.admissionCap ≤ cache.admissionCount
    · rw [if_pos full]
      refine (returns_evict_idle s3 sane ranked).seq fun _ after same => ?_
      refine (returns_pure _).mpr ⟨fun is _ => ⟨unghosted, fun _ => same.mp is⟩, fun quiet => ?_⟩
      exact same.mpr ((quiet s3).2 full)
    · rw [if_neg full]
      exact (returns_pure _).mpr ⟨fun _ _ => ⟨unghosted, fun yes => absurd yes full⟩,
        fun _ => SameState.refl cache⟩

/-! ### Writes -/

/-- A call that writes an item. -/
inductive Write where
  | insert (key : Key) (value : Value) (optional : Optional) (ttl : Nat)
  | cas (key : Key) (value : Value) (optional : Optional) (ttl : Nat) (token : UInt64)
  | tryIntoNumeric (key : Key) (initial : UInt64) (ttl : Nat)

namespace Write

def key : Write → Key
  | .insert key .. => key
  | .cas key .. => key
  | .tryIntoNumeric key .. => key

def perform (config : Config) (fuel : Nat) : Write → Proc (Except SegcacheError Unit)
  | .insert key value optional ttl => Segcache.insert config fuel key value optional ttl
  | .cas key value optional ttl token => Segcache.cas config fuel key value optional ttl token
  | .tryIntoNumeric key initial ttl => Segcache.tryIntoNumeric config fuel key initial ttl

/-- An insert and a cas store the value they are given. -/
def stores : Write → Bool
  | .insert .. => true
  | .cas .. => true
  | .tryIntoNumeric .. => false

/-- An insert or a cas of an item that is longer than a segment; the cas has found its key unexpired
and under its token. -/
def Refused (config : Config) (cache : Cache) : Write → Prop
  | .insert key value optional _ => config.segmentSize < config.itemSize key value optional
  | .cas key value optional _ token =>
    config.segmentSize < config.itemSize key value optional ∧
      ∃ mapping, Maps config cache key mapping ∧
        (remainingTtl cache mapping.location.segment).isSome = true ∧
        tokenFor mapping.item mapping.location
          (cache.segment mapping.location.segment).generation = token
  | .tryIntoNumeric .. => False

end Write

/-- Every segment in service counts the items that the table names in it. -/
def Accounted (config : Config) (cache : Cache) : Prop :=
  ∀ id, holds (cache.segment id).state = true →
    (cache.segment id).liveItems =
        total (fun offset => cache.table.Named (cache.locationAt id offset)) (fun _ => 1)
          (cache.laidOut config id) ∧
      (cache.segment id).liveBytes = config.initialOffset +
        total (fun offset => cache.table.Named (cache.locationAt id offset))
          (fun item => item.size config) (cache.laidOut config id)

/-- What every failed write leaves: no key's mapping has changed except by its evictions, and the
segments' counters are in order. -/
structure Failed (config : Config) (cache after : Cache) : Prop where
  evictions : ByEviction config cache after
  shed : ∀ key mapping, Maps config after key mapping →
    ∃ old, Maps config cache key old ∧ old.item = mapping.item
  accounted : Accounted config after

/-- A failed write is atomic: an item that is too long leaves everything as it was. -/
structure FailsAtomically (config : Config) (write : Write) (cache : Cache) (error : SegcacheError)
    (after : Cache) : Prop extends Failed config cache after where
  oversized : write.stores = true → (∃ size, error = .itemOversized size) → SameState cache after

variable {b fuel : Nat} {item : Item} {old : Location} {error : SegcacheError} {value : Value}
  {optional : Optional}

theorem Consistent.accounted (consistent : Consistent config none cache) : Accounted config cache := by
  have counts : ∀ id, Counts cache none id =
      fun offset => cache.table.Named (cache.locationAt id offset) := by
    intro id
    funext offset
    simp [Counts]
  intro id held
  have items := consistent.items held
  have bytes := consistent.bytes held
  rw [counts] at items bytes
  exact ⟨items, bytes⟩

theorem Evicting.failed (evicting : Evicting config cache after) : Failed config cache after := by
  obtain ⟨chain, sane⟩ := evicting.sane
  exact ⟨evicting.trace, fun _ _ maps => evicting.shed.maps maps, sane.consistent.accounted⟩

/-- An item that is given back leaves what its write has found. -/
theorem GivenBack.failed {defined : Cache} {new : Location} (evicting : Evicting config cache middle)
    (placed : Placed config b item new middle defined) (back : GivenBack config defined after) :
    Failed config cache after := by
  obtain ⟨chain, sane⟩ := back.sane
  refine ⟨(placed.trace evicting.trace).tail (.inr ⟨back.step, back.maps⟩), fun key mapping maps => ?_,
    sane.consistent.accounted⟩
  exact evicting.shed.maps ((placed.maps key mapping).mp ((back.maps key mapping).mp maps))

theorem Good.failed (good : Good config cache) : Failed config cache cache := by
  obtain ⟨⟨chain, sane⟩, -⟩ := good
  exact ⟨.refl, fun _ mapping maps => ⟨mapping, maps, rfl⟩, sane.consistent.accounted⟩

theorem Inserts.failed (inserts : Inserts config b item cache (.error error) after) :
    Failed config cache after ∧
      ((∃ size, error = .itemOversized size) → config.segmentSize < item.size config) := by
  rcases inserts with ⟨_, _, _, _, evicting, placed, -, ⟨no, -⟩ | ⟨same, back, -⟩⟩ |
    ⟨-, oversized, evicting, -⟩ | ⟨same, evicting⟩
  · cases no
  · cases same
    exact ⟨back.failed evicting placed, fun ⟨_, no⟩ => by cases no⟩
  · exact ⟨evicting.failed, fun _ => oversized⟩
  · cases same
    exact ⟨evicting.failed, fun ⟨_, no⟩ => by cases no⟩

theorem Overwrites.failed {expected : Option UInt64}
    (overwrites : Overwrites config b item old expected cache (.error error) after) :
    Failed config cache after ∧
      ((∃ size, error = .itemOversized size) → config.segmentSize < item.size config) := by
  rcases overwrites with ⟨_, _, _, _, evicting, placed, -, ⟨no, -⟩ | ⟨same, back⟩⟩ |
    ⟨-, oversized, evicting, -⟩ | ⟨same, evicting⟩
  · cases no
  · cases same
    exact ⟨back.failed evicting placed, fun ⟨_, no⟩ => by cases no⟩
  · exact ⟨evicting.failed, fun _ => oversized⟩
  · cases same
    exact ⟨evicting.failed, fun ⟨_, no⟩ => by cases no⟩

/-- **Whatever error a write answers**, only its evictions have changed mappings, and it names a length
only when it was refused for it. -/
theorem Write.ensures_failed (good : Good config cache) (fuel : Nat) (write : Write) :
    Ensures (write.perform config fuel) (fun result after => ∀ error, result = .error error →
      Failed config cache after ∧
        (write.stores = true → (∃ size, error = .itemOversized size) → write.Refused config cache))
      cache := by
  cases write with
  | insert key value optional ttl =>
    refine (ensures_insert good fuel key value optional ttl).mono fun result after inserts => ?_
    rintro error rfl
    exact ⟨inserts.failed.1, fun _ => inserts.failed.2⟩
  | cas key value optional ttl token =>
    refine (ensures_cas good fuel key value optional ttl token).mono fun result after swaps => ?_
    rintro error rfl
    rcases swaps with ⟨rfl, same | same⟩ | ⟨mapping, maps, ⟨left, same⟩, overwrites⟩
    · cases same
      exact ⟨good.failed, fun _ ⟨_, no⟩ => by cases no⟩
    · cases same
      exact ⟨good.failed, fun _ ⟨_, no⟩ => by cases no⟩
    · exact ⟨overwrites.failed.1, fun _ isSize => ⟨overwrites.failed.2 isSize, mapping, maps, left, same⟩⟩
  | tryIntoNumeric key initial ttl =>
    refine (ensures_tryIntoNumeric good fuel key initial ttl).mono fun result after converts => ?_
    rintro error rfl
    refine ⟨?_, fun no => by cases no⟩
    rcases converts with ⟨-, inserts⟩ | ⟨mapping, -, ⟨_, -, no, -⟩ | ⟨_, -, ⟨-, -, rfl⟩ | ⟨_, -,
      ⟨-, -, rfl⟩ | ⟨_, -, overwrites⟩⟩⟩⟩
    · exact inserts.failed.1
    · cases no
    · exact good.failed
    · exact good.failed
    · exact overwrites.failed.1

/-- An item that is longer than a segment is refused behind the routing. -/
theorem ensures_reserveAndDefine_oversized {key : Key} (good : Good config cache)
    (oversized : config.segmentSize < config.itemSize key value optional) (fuel ttl : Nat) :
    Ensures (reserveAndDefine config fuel key value optional ttl) (fun result after =>
      (∃ size, result = .error (.itemOversized size)) ∧
        (SameState cache after ↔ RoutesQuietly config key cache)) cache := by
  obtain ⟨⟨chain, sane⟩, ranked⟩ := good
  unfold reserveAndDefine
  refine Ensures.seq (returns_routePool_quiet sane ranked key).ensures fun pool middle quiet => ?_
  cases fuel with
  | zero => exact ensures_diverge.mpr trivial
  | succ fuel =>
    unfold reserveRetry reserve
    rw [if_pos oversized]
    exact (ensures_pure _).mpr ⟨⟨_, rfl⟩, quiet⟩

/-- **A refused write changes nothing that is held exactly when it is routed quietly.** -/
theorem Write.ensures_refused (good : Good config cache) (fuel : Nat) {write : Write}
    (refused : write.Refused config cache) :
    Ensures (write.perform config fuel) (fun result after =>
      (∃ size, result = .error (.itemOversized size)) ∧
        (SameState cache after ↔ RoutesQuietly config write.key cache)) cache := by
  cases write with
  | insert key value optional ttl =>
    unfold Write.perform Segcache.insert
    cases fuel with
    | zero => exact ensures_diverge.mpr trivial
    | succ fuel =>
      unfold insertLoop
      refine Ensures.seq (ensures_reserveAndDefine_oversized good refused (fuel + 1) _)
        fun result after outcome => ?_
      obtain ⟨⟨size, same⟩, quiet⟩ := outcome
      subst same
      exact (ensures_pure _).mpr ⟨⟨size, rfl⟩, quiet⟩
  | cas key value optional ttl token =>
    obtain ⟨oversized, mapping, maps, left, same⟩ := refused
    unfold Write.perform Segcache.cas segmentOf
    rw [ensures_bind]
    rcases good.settled.lookup_apply key with ⟨found, slot, maps', ran, -⟩ | ⟨none, -⟩ | ⟨_, -, ran⟩
    case inr.inl => exact absurd maps (none mapping)
    case inr.inr => exact (returns_of_eq ran (ensures_diverge.mpr trivial)).ensures
    cases good.settled.consistent.maps_unique maps' maps
    refine (returns_of_eq ran ?_).ensures
    dsimp only
    rw [ensures_bind, ensures_read, if_neg (by simpa [Option.isSome_iff_ne_none] using left),
      ensures_bind, ensures_read, ensures_bind, ensures_read, maps.item]
    dsimp only
    rw [if_neg (not_not.mpr same)]
    refine Ensures.seq (ensures_reserveAndDefine_oversized good oversized fuel _)
      fun result after outcome => ?_
    obtain ⟨⟨size, same⟩, quiet⟩ := outcome
    subst same
    exact (ensures_pure _).mpr ⟨⟨size, rfl⟩, quiet⟩
  | tryIntoNumeric key initial ttl => cases refused

/-- **A failed write is atomic** exactly when it was not refused for its item's length, or routing it
has changed nothing. -/
theorem failsAtomically_iff (reachable : Reachable config cache) (fuel : Nat) (write : Write)
    {error : SegcacheError} (ran : write.perform config fuel cache = some (.error error, after)) :
    FailsAtomically config write cache error after ↔
      (write.Refused config cache → RoutesQuietly config write.key cache) := by
  have good := reachable.good
  obtain ⟨failed, refuses⟩ := Write.ensures_failed good fuel write _ _ ran error rfl
  have quietly : write.Refused config cache → (∃ size, error = .itemOversized size) ∧
      (SameState cache after ↔ RoutesQuietly config write.key cache) := by
    intro refused
    obtain ⟨⟨size, same⟩, quiet⟩ := Write.ensures_refused good fuel refused _ _ ran
    cases same
    exact ⟨⟨size, rfl⟩, quiet⟩
  constructor
  · intro atomic refused
    obtain ⟨isSize, quiet⟩ := quietly refused
    refine quiet.mp (atomic.oversized ?_ isSize)
    cases write with
    | tryIntoNumeric => cases refused
    | _ => rfl
  · intro quiet
    refine ⟨failed, fun stores isSize => ?_⟩
    have refused := refuses stores isSize
    exact (quietly refused).2.mpr (quiet refused)

/-- An insert of an item that is longer than a segment. -/
def longInsert : Write := .insert (smallKey 4) (smallValue 64) Optional.none 0

/-- The second key can be located, and cannot behind the insert that is refused. -/
def losesToLong (cache : Cache) : Bool :=
  (cache.locate filledConfig (smallKey 2)).isSome &&
    (longInsert.perform filledConfig 10 cache).any fun ended =>
      decide (ended.1 = .error (.itemOversized 72)) &&
        decide (ended.2.locate filledConfig (smallKey 2) = none)

theorem longInsert_run : ∃ cache after location, Reachable filledConfig cache ∧
    longInsert.perform filledConfig 10 cache = some (.error (.itemOversized 72), after) ∧
    cache.locate filledConfig (smallKey 2) = some location ∧
    after.locate filledConfig (smallKey 2) = none := by
  obtain ⟨cache, reachable, loses⟩ := exists_reachable filledConfig 10 filledCalls losesToLong
    (by decide +kernel)
  simp only [losesToLong, Bool.and_eq_true] at loses
  obtain ⟨located, refused⟩ := loses
  obtain ⟨location, found⟩ := Option.isSome_iff_exists.mp located
  obtain ⟨⟨result, after⟩, ran, gone⟩ := (Option.any_eq_true _ _).mp refused
  simp only [Bool.and_eq_true, decide_eq_true_eq] at gone
  obtain ⟨rfl, gone⟩ := gone
  exact ⟨cache, after, location, reachable, ran, found, gone⟩

/-- The refused insert is a case of the theorem. -/
theorem failsAtomically_iff_refused : ∃ cache after, Reachable filledConfig cache ∧
    longInsert.perform filledConfig 10 cache = some (.error (.itemOversized 72), after) ∧
    (FailsAtomically filledConfig longInsert cache (.itemOversized 72) after ↔
      (longInsert.Refused filledConfig cache → RoutesQuietly filledConfig longInsert.key cache)) := by
  obtain ⟨cache, after, _, reachable, ran, -⟩ := longInsert_run
  exact ⟨cache, after, reachable, ran, failsAtomically_iff reachable 10 longInsert ran⟩

/-- **A refused insert evicts another key's item**: the admission pool was full, and was relieved for
nothing. -/
theorem refused_run : ∃ cache after mapping, Reachable filledConfig cache ∧
    longInsert.perform filledConfig 10 cache = some (.error (.itemOversized 72), after) ∧
    Maps filledConfig cache (smallKey 2) mapping ∧
    (∀ other, ¬ Maps filledConfig after (smallKey 2) other) ∧
    ¬ FailsAtomically filledConfig longInsert cache (.itemOversized 72) after := by
  obtain ⟨cache, after, location, reachable, ran, found, gone⟩ := longInsert_run
  have good := reachable.good
  obtain ⟨item, freq, maps, -⟩ := good.settled.locate_some found
  have good' : Good filledConfig after := (ensures_insert good 10 _ _ _ _ _ _ ran).good
  have unmapped : ∀ other, ¬ Maps filledConfig after (smallKey 2) other :=
    good'.settled.locate_none filledConfig_merges gone
  refine ⟨cache, after, _, reachable, ran, maps, unmapped, fun atomic => ?_⟩
  exact unmapped _ ((atomic.oversized rfl ⟨_, rfl⟩).maps.mpr maps)

end CacheRs.Segcache
