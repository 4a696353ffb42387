/-
**The multi-choice hashtable's operations.**

The table is the array of slot words, the striped insert locks and the frequency generator; the
storage behind it says which key each location holds and whether it can be pinned. Every slot access
is one atomic step. Mutation is a compare-exchange on the slot that holds the entry; creation
happens under the key's stripe lock.

* `probe`: a key's tag and candidate buckets;
* `searchBucket`, `lookup`, `lookupNoFreqUpdate`: the scans;
* `swapInBucket`, `tryUnlinkInBucket`, `tryToGhostInBucket`, `tryCasInBucket`, `casLocationAt`:
  the same-slot retry loops;
* `tryReplaceExisting`, `tryClaimNewSlot`, `insert`: replacement and creation.

Prefetches are left out. The tag scan is the scalar one, the verifier's pin is held within its step.
-/

import CacheRs.Concurrency.RelyGuarantee
import CacheRs.Hashtable.Bucket

namespace CacheRs.Hashtable

open Concurrency

/-- What a hashtable fixes when it is built. -/
structure Geometry (Key : Type) where
  hashKey : Key → UInt64
  /-- Two to this power item slots, eight to a bucket. -/
  power : Nat
  numChoices : Nat
  power_ge : 7 ≤ power
  power_lt : power < 35
  numChoices_ge : 1 ≤ numChoices
  numChoices_le : numChoices ≤ 8

namespace Geometry

variable {Key : Type} (geometry : Geometry Key)

def numBuckets : Nat := 2 ^ (geometry.power - 3)

def mask : UInt64 := UInt64.ofNat (geometry.numBuckets - 1)

def rotateLeft (hash : UInt64) (amount : UInt64) : UInt64 := hash <<< amount ||| hash >>> (64 - amount)

/-- The eight bucket choices of a hash. -/
def bucketIndices (hash : UInt64) : List Nat :=
  [hash, hash ^^^ (hash >>> 32), (hash >>> 16) ^^^ (hash <<< 16),
    (hash >>> 48) ^^^ (hash >>> 8) ^^^ hash, rotateLeft hash 17 ^^^ hash,
    rotateLeft hash 31 ^^^ (hash >>> 16), (hash * 0x9E3779B97F4A7C15) >>> 32,
    (hash * 0x517CC1B727220A95) >>> 32].map fun mixed => (mixed &&& geometry.mask).toNat

def tagFromHash (hash : UInt64) : BitVec 12 := ((hash >>> 32) &&& 0xFFF).toBitVec.setWidth 12

def tag (key : Key) : BitVec 12 := tagFromHash (geometry.hashKey key)

/-- The candidate buckets of a key, in choice order; they may coincide. -/
def choices (key : Key) : List Nat :=
  (geometry.bucketIndices (geometry.hashKey key)).take geometry.numChoices

def numStripes : Nat := 1024

/-- The insert lock that serializes a key's creation. -/
def stripe (key : Key) : Nat := (geometry.hashKey key).toNat % numStripes

theorem choice_lt {key : Key} {bucket : Nat} (choice : bucket ∈ geometry.choices key) :
    bucket < geometry.numBuckets := by
  obtain ⟨mixed, _, rfl⟩ := List.mem_map.mp (List.mem_of_mem_take choice)
  have positive : 0 < geometry.numBuckets := Nat.two_pow_pos _
  have bound : geometry.numBuckets ≤ 2 ^ 32 :=
    Nat.pow_le_pow_right (by decide) (by have := geometry.power_lt; omega)
  have masked : (mixed &&& geometry.mask).toNat ≤ geometry.mask.toNat := by
    rw [UInt64.toNat_and]
    exact Nat.and_le_right
  have mask : geometry.mask.toNat ≤ geometry.numBuckets - 1 := by
    rw [mask, UInt64.toNat_ofNat']
    exact Nat.mod_le _ _
  omega

end Geometry

/-- Where a lookup found its match. -/
structure SlotRef where
  bucket : Nat
  slot : Nat
  tag : BitVec 12
  deriving DecidableEq, Repr

/-- The verifier's answer. -/
inductive Verified where
  | isMatch
  | differentKey
  | unknown (location : Location)
  deriving DecidableEq, Repr

/-- The outcome of a scan. -/
inductive Lookup (α : Type) where
  | found (value : α)
  | absent
  | unknown (location : Location)
  deriving DecidableEq, Repr

structure Hit where
  location : Location
  slot : SlotRef
  deriving DecidableEq, Repr

inductive Insert where
  | created
  | replaced (old : Location)
  | unknown (location : Location)
  deriving DecidableEq, Repr

inductive RelinkFreq where
  | preserve
  | decrement
  deriving DecidableEq, Repr

/-- What a thread may call on the table, or do to the storage behind it. -/
inductive Operation (Key : Type) where
  | insert (key : Key) (location : Location)
  | remove (key : Key) (expected : Location)
  | convertToGhost (key : Key) (expected : Location)
  | casLocation (key : Key) (oldLocation newLocation : Location) (relink : RelinkFreq)
  | casLocationAt (key : Key) (slot : SlotRef) (oldLocation newLocation : Location)
      (preserveFreq : Bool)
  | lookup (key : Key)
  | lookupNoFreqUpdate (key : Key)
  | store (location : Location) (key : Key)
  | setReadable (location : Location) (readable : Bool)
  deriving DecidableEq, Repr

/-- What a call answered. -/
inductive Answer where
  | inserted (result : Option Insert)
  | looked (result : Lookup Hit)
  | swapped (done : Bool)
  deriving DecidableEq, Repr

/-- Everything the threads share: the table, and the storage its locations name. -/
structure Shared (Key : Type) where
  slot : Nat → Nat → Packed
  locked : Nat → Bool
  /-- The counter of the frequency generator. -/
  random : UInt64
  item : Location → Option Key
  readable : Location → Bool

inductive Label (Key : Type) where
  | other
  /-- A slot load whose location the thread goes on to use. -/
  | load (bucket index : Nat)
  | exchange (bucket index : Nat) (current new : Packed)
  | lock (stripe : Nat)
  | unlock (stripe : Nat)
  | call (operation : Operation Key)
  | respond (key : Key) (answer : Answer)
  | store (location : Location) (key : Key)
  deriving DecidableEq, Repr

namespace Shared

variable {Key : Type} (state : Shared Key)

/-- Write one slot. -/
def setSlot (bucket index : Nat) (packed : Packed) : Shared Key :=
  { state with
    slot := Function.update state.slot bucket
      (Function.update (state.slot bucket) index packed) }

/-- What a compare-exchange leaves: `new` where it found `current`. -/
def exchange (bucket index : Nat) (current new : Packed) : Shared Key :=
  if state.slot bucket index = current then state.setSlot bucket index new else state

theorem exchange_item (bucket index : Nat) (current new : Packed) :
    (state.exchange bucket index current new).item = state.item := by
  unfold exchange
  split <;> rfl

theorem exchange_locked (bucket index : Nat) (current new : Packed) :
    (state.exchange bucket index current new).locked = state.locked := by
  unfold exchange
  split <;> rfl

theorem setSlot_slot (bucket index : Nat) (packed : Packed) (b i : Nat) :
    (state.setSlot bucket index packed).slot b i =
      if b = bucket ∧ i = index then packed else state.slot b i := by
  unfold setSlot
  by_cases sameBucket : b = bucket
  · subst sameBucket
    by_cases sameIndex : i = index
    · subst sameIndex
      simp
    · simp [sameIndex]
  · simp [sameBucket]

end Shared

/-- A thread's program over the table. -/
abbrev Prog (Key : Type) := Program (Shared Key) (Label Key)

section Operations

variable {Key : Type} [DecidableEq Key] (geometry : Geometry Key)

/-! ### Atomic accesses -/

/-- Load a slot for its location. -/
def loadSlot (bucket index : Nat) : Prog Key Packed :=
  .atomically (.load bucket index) fun state => (state.slot bucket index, state)

/-- Load a slot speculatively: nothing of the word outlives the check it is loaded for. -/
def peekSlot (bucket index : Nat) : Prog Key Packed :=
  .atomically .other fun state => (state.slot bucket index, state)

/-- Compare-exchange one slot. -/
def exchangeSlot (bucket index : Nat) (current new : Packed) : Prog Key Bool :=
  .atomically (.exchange bucket index current new) fun state =>
    (state.slot bucket index = current, state.exchange bucket index current new)

/-- Compare a key with what a location holds, if the location can be pinned. -/
def verify (key : Key) (location : Location) : Prog Key Verified :=
  .atomically .other fun state =>
    (if state.readable location then
      match state.item location with
      | some held => if held = key then .isMatch else .differentKey
      | none => .unknown location
    else .unknown location, state)

/-- The finalizer of the frequency generator. -/
def splitMix (counter : UInt64) : UInt64 :=
  let z := (counter ^^^ (counter >>> 30)) * 0xBF58476D1CE4E5B9
  let z := (z ^^^ (z >>> 27)) * 0x94D049BB133111EB
  z ^^^ (z >>> 31)

/-- The step of its counter. -/
def gamma : UInt64 := 0x9E3779B97F4A7C15

/-- The next draw of the frequency generator. -/
def nextU64 : Prog Key UInt64 :=
  .atomically .other fun state =>
    (splitMix state.random, { state with random := state.random + gamma })

def lockStripe (stripe : Nat) : Prog Key Unit :=
  .whenEnabled (.lock stripe) (fun state => !state.locked stripe) fun state =>
    ((), { state with locked := Function.update state.locked stripe true })

def unlockStripe (stripe : Nat) : Prog Key Unit :=
  .atomically (.unlock stripe) fun state =>
    ((), { state with locked := Function.update state.locked stripe false })

/-- Announce a call; its locations are in hand from here on. -/
def begin (operation : Operation Key) : Prog Key Unit :=
  .atomically (.call operation) fun state => ((), state)

/-- Answer a call. -/
def respond (key : Key) (answer : Answer) : Prog Key Unit :=
  .atomically (.respond key answer) fun state => ((), state)

/-- The storage writes an item of the key. -/
def store (location : Location) (key : Key) : Prog Key Unit :=
  .atomically (.store location key) fun state =>
    ((), { state with item := Function.update state.item location (some key) })

def setReadable (location : Location) (readable : Bool) : Prog Key Unit :=
  .atomically .other fun state =>
    ((), { state with readable := Function.update state.readable location readable })

/-! ### Scans -/

/-- The slots of a bucket, in order. -/
def slots : List Nat := List.range 8

/-- Fold the per-bucket scans of one call: a match wins, an unverifiable candidate is remembered. -/
def foldChoices {α : Type} (scan : Nat → Prog Key (Lookup α)) (unknown : Option Location) :
    List Nat → Prog Key (Lookup α)
  | [] =>
    match unknown with
    | some location => return .unknown location
    | none => return .absent
  | bucket :: rest => do
    match ← scan bucket with
    | .found found => return .found found
    | .absent => foldChoices scan unknown rest
    | .unknown location => foldChoices scan (unknown.or (some location)) rest

/-- The slots with a live entry of this tag, each read once. -/
def findTagMatches (bucket : Nat) (tag : BitVec 12) : List Nat → Prog Key (List Nat)
  | [] => return []
  | index :: rest => do
    let packed ← peekSlot bucket index
    let later ← findTagMatches bucket tag rest
    return if packed.isLive && packed.tag = tag then index :: later else later

/-- Bump the frequency a word was seen with, once. -/
def bumpFreq (bucket index : Nat) (packed : Packed) : Prog Key Unit := do
  if packed.freq.toNat < 127 then
    let draw ← nextU64
    match packed.tryUpdateFreq packed.freq draw with
    | some new =>
      let _ ← exchangeSlot bucket index packed new
      return ()
    | none => return ()

/-- Examine the candidates of one bucket. -/
def searchMask (updateFreq : Bool) (bucket : Nat) (tag : BitVec 12) (key : Key)
    (unknown : Option Location) : List Nat → Prog Key (Lookup Hit)
  | [] =>
    match unknown with
    | some location => return .unknown location
    | none => return .absent
  | index :: rest => do
    let packed ← loadSlot bucket index
    if !packed.isLive || packed.tag ≠ tag then searchMask updateFreq bucket tag key unknown rest
    else
      match ← verify key packed.location with
      | .differentKey => searchMask updateFreq bucket tag key unknown rest
      | .unknown location =>
        searchMask updateFreq bucket tag key (unknown.or (some location)) rest
      | .isMatch =>
        if updateFreq then bumpFreq bucket index packed
        return .found ⟨packed.location, ⟨bucket, index, tag⟩⟩

def searchBucket (updateFreq : Bool) (tag : BitVec 12) (key : Key) (bucket : Nat) :
    Prog Key (Lookup Hit) := do
  let mask ← findTagMatches bucket tag slots
  searchMask updateFreq bucket tag key none mask

def incrementGhostFreqInBucket (bucket : Nat) (tag : BitVec 12) : List Nat → Prog Key Unit
  | [] => return ()
  | index :: rest => do
    let packed ← peekSlot bucket index
    if packed.isGhost && packed.tag = tag then bumpFreq bucket index packed
    incrementGhostFreqInBucket bucket tag rest

/-! ### Same-slot retry loops -/

/-- Swap a slot's word while it `accepts`, re-reading it whenever the exchange fails. -/
def swapSlot (bucket index : Nat) (accepts : Packed → Bool) (swap : Packed → Packed) :
    Prog Key Bool :=
  .repeatUntil (fun _ => do
    let packed ← loadSlot bucket index
    if !accepts packed then return .inr false
    if ← exchangeSlot bucket index packed (swap packed) then return .inr true
    return .inl ()) ()

/-- Swap the first word of the bucket that `accepts`. -/
def swapInBucket (bucket : Nat) (accepts : Packed → Bool) (swap : Packed → Packed) :
    List Nat → Prog Key Bool
  | [] => return false
  | index :: rest => do
    if ← swapSlot bucket index accepts swap then return true
    swapInBucket bucket accepts swap rest

/-- A live entry with this tag at this location. -/
def publishes (tag : BitVec 12) (location : Location) (packed : Packed) : Bool :=
  packed.isLive && packed.tag = tag && packed.location = location

def tryUnlinkInBucket (tag : BitVec 12) (expected : Location) (bucket : Nat) : Prog Key Bool :=
  swapInBucket bucket (publishes tag expected) (fun _ => .empty) slots

def tryToGhostInBucket (tag : BitVec 12) (expected : Location) (bucket : Nat) : Prog Key Bool :=
  swapInBucket bucket (publishes tag expected) Packed.toGhost slots

def relinkFreq (relink : RelinkFreq) (freq : BitVec 8) : BitVec 8 :=
  match relink with
  | .preserve => freq
  | .decrement => if freq = 0 then 0 else freq - 1

def tryCasInBucket (tag : BitVec 12) (oldLocation newLocation : Location) (relink : RelinkFreq)
    (bucket : Nat) : Prog Key Bool :=
  swapInBucket bucket (publishes tag oldLocation)
    (fun packed => ⟨tag, relinkFreq relink packed.freq, newLocation⟩) slots

/-- Swap the location at a slot a lookup found. -/
def casLocationAt (slot : SlotRef) (oldLocation newLocation : Location) (preserveFreq : Bool) :
    Prog Key Bool :=
  swapSlot slot.bucket slot.slot (publishes slot.tag oldLocation)
    fun packed => ⟨slot.tag, if preserveFreq then packed.freq else 1, newLocation⟩

/-- Try the buckets in order until one succeeds. -/
def firstBucket (attempt : Nat → Prog Key Bool) : List Nat → Prog Key Bool
  | [] => return false
  | bucket :: rest => do
    if ← attempt bucket then return true
    firstBucket attempt rest

/-! ### Replacement and creation -/

/-- One slot of `try_replace_existing`: the location replaced, nothing, or unverifiable. -/
def replaceSlot (tag : BitVec 12) (key : Key) (newPacked : Packed) (bucket index : Nat) :
    Prog Key (Lookup Location) :=
  .repeatUntil (fun _ => do
    let packed ← loadSlot bucket index
    if !packed.isLive || packed.tag ≠ tag then return .inr .absent
    match ← verify key packed.location with
    | .differentKey => return .inr .absent
    | .unknown location => return .inr (.unknown location)
    | .isMatch =>
      if ← exchangeSlot bucket index packed (newPacked.withFreq packed.freq) then
        return .inr (.found packed.location)
      return .inl ()) ()

/-- Replace the key's live entry in this bucket, if there is one. -/
def replaceInSlots (tag : BitVec 12) (key : Key) (newPacked : Packed) (bucket : Nat)
    (unknown : Option Location) : List Nat → Prog Key (Lookup Location)
  | [] =>
    match unknown with
    | some location => return .unknown location
    | none => return .absent
  | index :: rest => do
    match ← replaceSlot tag key newPacked bucket index with
    | .found old => return .found old
    | .absent => replaceInSlots tag key newPacked bucket unknown rest
    | .unknown location =>
      replaceInSlots tag key newPacked bucket (unknown.or (some location)) rest

def tryReplaceExisting (tag : BitVec 12) (key : Key) (newPacked : Packed) (bucket : Nat) :
    Prog Key (Lookup Location) :=
  replaceInSlots tag key newPacked bucket none slots

/-- Claim an empty slot; a lost exchange moves on to the next slot. -/
def claimEmpty (newPacked : Packed) (bucket : Nat) : List Nat → Prog Key Bool
  | [] => return false
  | index :: rest => do
    let packed ← peekSlot bucket index
    if packed = .empty then
      if ← exchangeSlot bucket index .empty newPacked then return true
    claimEmpty newPacked bucket rest

/-- Evict any ghost; a lost exchange moves on to the next slot. -/
def claimGhost (newPacked : Packed) (bucket : Nat) : List Nat → Prog Key Bool
  | [] => return false
  | index :: rest => do
    let speculative ← peekSlot bucket index
    if speculative.isGhost then
      let packed ← peekSlot bucket index
      if packed.isGhost then
        if ← exchangeSlot bucket index packed newPacked then return true
    claimGhost newPacked bucket rest

/-- Claim a new entry in this bucket: a ghost of the same tag, an empty slot, any ghost. -/
def tryClaimNewSlot (tag : BitVec 12) (newPacked : Packed) (bucket : Nat) : Prog Key Bool := do
  if ← swapInBucket bucket (fun packed => packed.tag = tag && packed.isGhost)
    (fun packed => newPacked.withFreq packed.freq) slots then return true
  if ← claimEmpty newPacked bucket slots then return true
  claimGhost newPacked bucket slots

def countOccupied (bucket : Nat) : List Nat → Prog Key Nat
  | [] => return 0
  | index :: rest => do
    let packed ← peekSlot bucket index
    let later ← countOccupied bucket rest
    return if packed.isLive then later + 1 else later

/-- Place a bucket before the first one that is no emptier; the counts are read anew. -/
def insertByOccupied (bucket : Nat) : List Nat → Prog Key (List Nat)
  | [] => return [bucket]
  | other :: rest => do
    let mine ← countOccupied bucket slots
    let theirs ← countOccupied other slots
    if mine ≤ theirs then return bucket :: other :: rest
    let later ← insertByOccupied bucket rest
    return other :: later

def sortByOccupied : List Nat → Prog Key (List Nat)
  | [] => return []
  | bucket :: rest => do
    let sorted ← sortByOccupied rest
    insertByOccupied bucket sorted

/-- Create the entry: every choice in order, then the emptiest bucket first. -/
def claimChoices (tag : BitVec 12) (newPacked : Packed) (choices : List Nat) (several : Bool) :
    Prog Key (Option Insert) := do
  if ← firstBucket (tryClaimNewSlot tag newPacked) choices then return some .created
  if several then
    let sorted ← sortByOccupied choices
    if ← firstBucket (tryClaimNewSlot tag newPacked) sorted then return some .created
  return none

/-! ### The table's interface -/

def lookup (key : Key) : Prog Key (Lookup Hit) := do
  let tag := geometry.tag key
  match ← foldChoices (searchBucket true tag key) none (geometry.choices key) with
  | .found hit => return .found hit
  | .unknown location => return .unknown location
  | .absent =>
    Program.sequence ((geometry.choices key).map fun bucket =>
      incrementGhostFreqInBucket bucket tag slots)
    return .absent

def lookupNoFreqUpdate (key : Key) : Prog Key (Lookup Hit) :=
  foldChoices (searchBucket false (geometry.tag key) key) none (geometry.choices key)

/-- Insert or update; `none` where the source returns an error. -/
def insert (key : Key) (location : Location) : Prog Key (Option Insert) := do
  let tag := geometry.tag key
  let newPacked : Packed := ⟨tag, 1, location⟩
  let replace := foldChoices (tryReplaceExisting tag key newPacked) none (geometry.choices key)
  match ← replace with
  | .found old => return some (.replaced old)
  | .unknown location => return some (.unknown location)
  | .absent =>
    lockStripe (geometry.stripe key)
    -- the re-check under the lock
    match ← replace with
    | .found old =>
      unlockStripe (geometry.stripe key)
      return some (.replaced old)
    | .unknown location =>
      unlockStripe (geometry.stripe key)
      return some (.unknown location)
    | .absent =>
      let result ← claimChoices tag newPacked (geometry.choices key) (1 < geometry.numChoices)
      unlockStripe (geometry.stripe key)
      return result

def remove (key : Key) (expected : Location) : Prog Key Bool :=
  firstBucket (tryUnlinkInBucket (geometry.tag key) expected) (geometry.choices key)

def convertToGhost (key : Key) (expected : Location) : Prog Key Bool :=
  firstBucket (tryToGhostInBucket (geometry.tag key) expected) (geometry.choices key)

def casLocation (key : Key) (oldLocation newLocation : Location) (relink : RelinkFreq) :
    Prog Key Bool :=
  firstBucket (tryCasInBucket (geometry.tag key) oldLocation newLocation relink)
    (geometry.choices key)

end Operations

end CacheRs.Hashtable
