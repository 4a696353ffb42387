/-
**The hashtable under one thread.**

The slots of the multi-choice table as one thread sees them: a compare-exchange never fails, the
insert locks are free, and a retry reads what it read before. A slot is empty or holds a live entry:
the cache never turns an entry into a ghost.

* `lookup`, `lookupNoFreqUpdate`, `getItemFrequency`, `slotPublishes`: the scans;
* `remove`, `casLocation`, `casLocationAt`, `insert`: the updates, each of at most one slot.
-/

import CacheRs.Hashtable.Table

namespace CacheRs.Segcache

open Hashtable (Geometry RelinkFreq SlotRef Lookup Insert Verified)

/-- A live slot; `Loc` names an item in the segments. -/
structure Entry (Loc : Type) where
  tag : BitVec 12
  freq : BitVec 8
  location : Loc
  deriving DecidableEq, Repr

/-- The adaptive counter of `try_update_freq`. -/
def nextFreq (freq : BitVec 8) (draw : UInt64) : BitVec 8 :=
  if freq.toNat ≤ 16 || draw.toNat % freq.toNat = 0 then freq + 1 else freq

def relinkFreq (relink : RelinkFreq) (freq : BitVec 8) : BitVec 8 :=
  match relink with
  | .preserve => freq
  | .decrement => if freq = 0 then 0 else freq - 1

structure Table (Loc : Type) where
  slot : Nat → Nat → Option (Entry Loc)
  /-- The counter of the frequency generator. -/
  random : UInt64

/-- Where a lookup found its match. -/
structure Hit (Loc : Type) where
  location : Loc
  slot : SlotRef
  deriving DecidableEq, Repr

/-- A verifier's answer for the location it was asked about. -/
inductive Verdict where
  | isMatch
  | differentKey
  | unknown
  deriving DecidableEq, Repr

/-- The outcome of a scan. -/
inductive Found (Loc α : Type) where
  | found (value : α)
  | absent
  | unknown (location : Loc)
  deriving DecidableEq, Repr

/-- The outcome of `Hashtable::insert`. -/
inductive Inserted (Loc : Type) where
  | created
  | replaced (old : Loc)
  | unknown (location : Loc)
  | full
  deriving DecidableEq, Repr

namespace Table

variable {Key Loc : Type} [DecidableEq Loc] (geometry : Geometry Key) (table : Table Loc)

/-- The candidate slots of a key, bucket by bucket in choice order. -/
def candidates (key : Key) : List (Nat × Nat) :=
  (geometry.choices key).flatMap fun bucket => (List.range 8).map fun index => (bucket, index)

def setSlot (ref : Nat × Nat) (entry : Option (Entry Loc)) : Table Loc :=
  { table with
    slot := Function.update table.slot ref.1
      (Function.update (table.slot ref.1) ref.2 entry) }

/-- A live entry of the key's tag at this location. -/
def publishes (tag : BitVec 12) (location : Loc) (entry : Option (Entry Loc)) : Bool :=
  entry.any fun live => live.tag = tag && live.location = location

/-- The slot that publishes a key at a location. -/
def publishing (key : Key) (location : Loc) : Option (Nat × Nat) :=
  (candidates geometry key).find? fun ref =>
    publishes (geometry.tag key) location (table.slot ref.1 ref.2)

def getItemFrequency (key : Key) (location : Loc) : Option (BitVec 8) :=
  (table.publishing geometry key location).bind fun ref =>
    (table.slot ref.1 ref.2).map Entry.freq

def remove (key : Key) (expected : Loc) : Bool × Table Loc :=
  match table.publishing geometry key expected with
  | some ref => (true, table.setSlot ref none)
  | none => (false, table)

def casLocation (key : Key) (oldLocation newLocation : Loc) (relink : RelinkFreq) :
    Bool × Table Loc :=
  match table.publishing geometry key oldLocation with
  | some ref =>
    (true, table.setSlot ref ((table.slot ref.1 ref.2).map fun entry =>
      ⟨geometry.tag key, relinkFreq relink entry.freq, newLocation⟩))
  | none => (false, table)

/-- Swap the location at a slot that a lookup found. -/
def casLocationAt (slot : SlotRef) (oldLocation newLocation : Loc) (preserveFreq : Bool) :
    Bool × Table Loc :=
  match table.slot slot.bucket slot.slot with
  | some entry =>
    if entry.tag = slot.tag && entry.location = oldLocation then
      (true, table.setSlot (slot.bucket, slot.slot)
        (some ⟨slot.tag, if preserveFreq then entry.freq else 1, newLocation⟩))
    else (false, table)
  | none => (false, table)

def slotPublishes (slot : SlotRef) (location : Loc) : Bool :=
  (table.slot slot.bucket slot.slot).any fun entry => entry.location = location

/-- Scan candidate slots: a match wins, an unverifiable candidate is remembered. -/
def scan (verify : Loc → Verdict) (tag : BitVec 12) (unknown : Option Loc) :
    List (Nat × Nat) → Found Loc (Nat × Nat)
  | [] =>
    match unknown with
    | some location => .unknown location
    | none => .absent
  | ref :: rest =>
    match table.slot ref.1 ref.2 with
    | none => scan verify tag unknown rest
    | some entry =>
      if entry.tag ≠ tag then scan verify tag unknown rest
      else
        match verify entry.location with
        | .isMatch => .found ref
        | .differentKey => scan verify tag unknown rest
        | .unknown => scan verify tag (unknown.or (some entry.location)) rest

/-- The hit in a slot that a scan found. -/
def hitAt (tag : BitVec 12) (ref : Nat × Nat) : Found Loc (Hit Loc) :=
  match table.slot ref.1 ref.2 with
  | some entry => .found ⟨entry.location, ref.1, ref.2, tag⟩
  | none => .absent

def lookupNoFreqUpdate (verify : Loc → Verdict) (key : Key) : Found Loc (Hit Loc) :=
  match table.scan verify (geometry.tag key) none (candidates geometry key) with
  | .found ref => table.hitAt (geometry.tag key) ref
  | .absent => .absent
  | .unknown location => .unknown location

/-- Bump the frequency of a slot, once. -/
def bumpFreq (ref : Nat × Nat) : Table Loc :=
  match table.slot ref.1 ref.2 with
  | some entry =>
    if entry.freq.toNat < 127 then
      { table.setSlot ref
          (some { entry with freq := nextFreq entry.freq (Hashtable.splitMix table.random) }) with
        random := table.random + Hashtable.gamma }
    else table
  | none => table

def lookup (verify : Loc → Verdict) (key : Key) : Found Loc (Hit Loc) × Table Loc :=
  match table.scan verify (geometry.tag key) none (candidates geometry key) with
  | .found ref => (table.hitAt (geometry.tag key) ref, table.bumpFreq ref)
  | .absent => (.absent, table)
  | .unknown location => (.unknown location, table)

/-- The first empty candidate slot. -/
def emptySlot (key : Key) : Option (Nat × Nat) :=
  (candidates geometry key).find? fun ref => (table.slot ref.1 ref.2).isNone

/-- Replace the key's entry, or else claim an empty slot for it. A lone thread that finds every
candidate bucket full finds them full again in any other order. -/
def insert (verify : Loc → Verdict) (key : Key) (location : Loc) : Inserted Loc × Table Loc :=
  match table.scan verify (geometry.tag key) none (candidates geometry key) with
  | .found ref =>
    match table.slot ref.1 ref.2 with
    | some entry =>
      (.replaced entry.location,
        table.setSlot ref (some ⟨geometry.tag key, entry.freq, location⟩))
    | none => (.full, table)
  | .unknown unreadable => (.unknown unreadable, table)
  | .absent =>
    match table.emptySlot geometry key with
    | some ref => (.created, table.setSlot ref (some ⟨geometry.tag key, 1, location⟩))
    | none => (.full, table)

end Table

end CacheRs.Segcache
