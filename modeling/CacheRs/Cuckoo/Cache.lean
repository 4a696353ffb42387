/-
**The cuckoo cache.**

An array of fixed-size slots. A key names four candidate slots; an insert that finds them all taken
displaces items to their other candidates, up to a depth, and else evicts one.

The clock stands still within an operation; it advances between operations. The counters of the
`metrics` feature are left out.
-/

import CacheRs.KeyValue.TinyItem
import CacheRs.Relocation.Slots

namespace CacheRs.Cuckoo

open KeyValue

inductive Policy where
  | random
  | expire
  deriving DecidableEq, Repr

inductive CuckooCacheError where
  | itemOversized (size max : Nat)
  | notFound
  | notNumeric
  deriving DecidableEq, Repr

def u32Max : Nat := 4294967295

/-- What a builder may ask for. -/
structure Config where
  itemSize : Nat
  nitem : Nat
  maxDisplace : Nat
  maxTtl : Nat
  policy : Policy
  hashers : Fin 4 → Bytes → UInt64
  header_lt_itemSize : TinyItem.headerSize < itemSize
  nitem_pos : 0 < nitem
  total_lt : itemSize * nitem < 2 ^ 64
  maxTtl_le : maxTtl ≤ u32Max

structure Cache where
  data : Memory
  /-- Whole seconds since the cache was created, in 32 bits. -/
  elapsed : Nat
  elapsed_le : elapsed ≤ u32Max

section Storage

variable (config : Config) (elapsed : Nat) (data : Memory)

def slotOffset (index : Nat) : Nat := index * config.itemSize

def slotExpire (index : Nat) : Nat := TinyItem.expire data (slotOffset config index)

def slotKey (index : Nat) : Bytes := TinyItem.key data (slotOffset config index)

def slotIsEmpty (index : Nat) : Bool := slotExpire config data index = 0

def slotIsExpired (index : Nat) : Bool :=
  let expire := slotExpire config data index
  if expire = 0 || expire = u32Max then false else expire < elapsed

def clearSlot (index : Nat) : Memory :=
  data.write (slotOffset config index) (List.replicate config.itemSize 0)

def moveSlot (source target : Nat) : Memory :=
  (data.write (slotOffset config target)
    (data.read (slotOffset config source) config.itemSize)).write
    (slotOffset config source) (List.replicate config.itemSize 0)

def writeSlot (index : Nat) (key : Bytes) (value : Value) (expire : Nat) : Memory :=
  TinyItem.define (clearSlot config data index) (slotOffset config index) key value expire

def handleExpired (index : Nat) : Memory := clearSlot config data index

def evictAt (index : Nat) : Memory := clearSlot config data index

def positions (key : Bytes) : List Nat :=
  (List.finRange 4).map fun i => (config.hashers i key).toNat % config.nitem

/-- The expiry of an item with this time to live, in nanoseconds. -/
def computeExpire (ttl : Nat) : Nat :=
  if ttl = 0 then u32Max
  else min (elapsed + min (ttl / 1000000000) config.maxTtl) u32Max

/-! ### Displacement -/

/-- Displace the first other candidate that can be displaced, and move the item there. -/
def displaceOther (displace : Memory → Nat → Bool × Memory) (pos : Nat) :
    List Nat → Memory → Bool × Memory
  | [], data => (false, data)
  | alt :: rest, data =>
    if alt = pos then displaceOther displace pos rest data
    else match displace data alt with
      | (true, data) => (true, moveSlot config data pos alt)
      | (false, data) => displaceOther displace pos rest data

/-- Free a slot, with `left` displacements to go. -/
def displaceWithin : Nat → Memory → Nat → Bool × Memory
  | 0, data, pos =>
    if slotIsEmpty config data pos then (true, data)
    else if slotIsExpired config elapsed data pos then (true, handleExpired config data pos)
    else (false, data)
  | left + 1, data, pos =>
    if slotIsEmpty config data pos then (true, data)
    else if slotIsExpired config elapsed data pos then (true, handleExpired config data pos)
    else
      let alts := positions config (slotKey config data pos)
      match alts.find? fun alt => alt ≠ pos &&
          (slotIsEmpty config data alt || slotIsExpired config elapsed data alt) with
      | some alt =>
        if slotIsEmpty config data alt then (true, moveSlot config data pos alt)
        else (true, moveSlot config (handleExpired config data alt) pos alt)
      | none => displaceOther config (displaceWithin left) pos alts data

def displaceFrom (pos depth : Nat) : Bool × Memory :=
  displaceWithin config elapsed (config.maxDisplace - depth) data pos

/-- Free one of the candidates, given with their indices. -/
def tryDisplace : List (Nat × Nat) → Memory → Option Nat × Memory
  | [], data => (none, data)
  | (pos, idx) :: rest, data =>
    match displaceFrom config elapsed data pos 0 with
    | (true, data) => (some idx, data)
    | (false, data) => tryDisplace rest data

/-- The index of the candidate to evict; `draw` is the random number. -/
def selectVictim (draw : UInt64) (candidates : List Nat) : Nat :=
  match config.policy with
  | .random => draw.toNat % 4
  | .expire =>
    (candidates.zipIdx.foldl (fun best candidate =>
      if slotExpire config data candidate.1 < best.2 then
        (candidate.2, slotExpire config data candidate.1)
      else best) (0, u32Max)).1

/-- The slot for an insert, and whether it already holds the key. -/
def findSlotForInsert (draw : UInt64) (key : Bytes) (positions : List Nat) :
    (Nat × Bool) × Memory :=
  match positions.find? fun pos =>
      !(slotIsEmpty config data pos || slotIsExpired config elapsed data pos) &&
        slotKey config data pos = key with
  | some pos => ((pos, true), data)
  | none =>
    match positions.find? fun pos => slotIsEmpty config data pos with
    | some pos => ((pos, false), data)
    | none =>
      match positions.find? fun pos => slotIsExpired config elapsed data pos with
      | some pos => ((pos, false), handleExpired config data pos)
      | none =>
        match tryDisplace config elapsed positions.zipIdx data with
        | (some freed, data) => ((positions.getD freed 0, false), data)
        | (none, data) =>
          let pos := positions.getD (selectVictim config data draw positions) 0
          ((pos, false), evictAt config data pos)

end Storage

/-! ### Operations -/

section Operations

variable (config : Config) (cache : Cache)

/-- The item of a slot, as a reader sees it. -/
def itemOf (data : Memory) (pos : Nat) : TinyEntry where
  key := slotKey config data pos
  value := TinyItem.value data (slotOffset config pos)
  expire := slotExpire config data pos

/-- The first candidate that is not empty and holds the key, expired or not. -/
def findKey (key : Bytes) : Option Nat :=
  (positions config key).find? fun pos =>
    !slotIsEmpty config cache.data pos && slotKey config cache.data pos = key

def get (key : Bytes) : Option TinyEntry × Cache :=
  match findKey config cache key with
  | none => (none, cache)
  | some pos =>
    if slotIsExpired config cache.elapsed cache.data pos then
      (none, { cache with data := handleExpired config cache.data pos })
    else (some (itemOf config cache.data pos), cache)

def insert (key : Bytes) (value : Value) (ttl : Nat) (draw : UInt64) :
    Except CuckooCacheError Unit × Cache :=
  let required := TinyItem.headerSize + key.length + value.length
  if required > config.itemSize then (.error (.itemOversized required config.itemSize), cache)
  else
    let expire := computeExpire config cache.elapsed ttl
    let found := findSlotForInsert config cache.elapsed cache.data draw key (positions config key)
    (.ok (), { cache with data := writeSlot config found.2 found.1.1 key value expire })

def delete (key : Bytes) : Bool × Cache :=
  match findKey config cache key with
  | none => (false, cache)
  | some pos =>
    if slotIsExpired config cache.elapsed cache.data pos then
      (false, { cache with data := handleExpired config cache.data pos })
    else (true, { cache with data := clearSlot config cache.data pos })

def clear : Cache :=
  { cache with data := cache.data.write 0 (List.replicate (config.itemSize * config.nitem) 0) }

/-- Change the number of a key that is not expired. -/
def updateNumber (change : UInt64 → UInt64) (key : Bytes) :
    Except CuckooCacheError TinyEntry × Cache :=
  match (positions config key).find? fun pos =>
      !(slotIsEmpty config cache.data pos || slotIsExpired config cache.elapsed cache.data pos) &&
        slotKey config cache.data pos = key with
  | none => (.error .notFound, cache)
  | some pos =>
    match TinyItem.value cache.data (slotOffset config pos) with
    | .bytes _ => (.error .notNumeric, cache)
    | .u64 number =>
      let data := TinyItem.setNumber cache.data (slotOffset config pos) (change number)
      (.ok (itemOf config data pos), { cache with data := data })

def wrappingAdd (key : Bytes) (rhs : UInt64) : Except CuckooCacheError TinyEntry × Cache :=
  updateNumber config cache (· + rhs) key

def saturatingSub (key : Bytes) (rhs : UInt64) : Except CuckooCacheError TinyEntry × Cache :=
  updateNumber config cache (fun number => if rhs ≤ number then number - rhs else 0) key

/-- A new cache: every slot is zero. -/
def fromBuilder : Cache := ⟨fun _ => 0, 0, by decide⟩

def advance (seconds : Nat) : Cache :=
  ⟨cache.data, min (cache.elapsed + seconds) u32Max, Nat.min_le_right ..⟩

/-- An operation, or the passing of seconds. -/
inductive Op where
  | get (key : Bytes)
  | insert (key : Bytes) (value : Value) (ttl : Nat) (draw : UInt64)
  | delete (key : Bytes)
  | clear
  | wrappingAdd (key : Bytes) (rhs : UInt64)
  | saturatingSub (key : Bytes) (rhs : UInt64)
  | advance (seconds : Nat)
  deriving DecidableEq, Repr

inductive Answer where
  | item (entry : Option TinyEntry)
  | inserted (result : Except CuckooCacheError Unit)
  | deleted (found : Bool)
  | number (result : Except CuckooCacheError TinyEntry)
  | done
  deriving DecidableEq, Repr

def step (config : Config) (cache : Cache) : Op → Answer × Cache
  | .get key => (get config cache key).map .item id
  | .insert key value ttl draw => (insert config cache key value ttl draw).map .inserted id
  | .delete key => (delete config cache key).map .deleted id
  | .clear => (.done, clear config cache)
  | .wrappingAdd key rhs => (wrappingAdd config cache key rhs).map .number id
  | .saturatingSub key rhs => (saturatingSub config cache key rhs).map .number id
  | .advance seconds => (.done, advance cache seconds)

/-- The cache after a run of operations. -/
def run (config : Config) : List Op → Cache → Cache
  | [], cache => cache
  | op :: rest, cache => run config rest (step config cache op).2

/-- Every step of a run meets a condition on the operation and the cache before it. -/
def Throughout (config : Config) (condition : Cache → Op → Prop) : List Op → Cache → Prop
  | [], _ => True
  | op :: rest, cache =>
    condition cache op ∧ Throughout config condition rest (step config cache op).2

/-- The answers of a run. -/
def answers (config : Config) : List Op → Cache → List Answer
  | [], _ => []
  | op :: rest, cache => (step config cache op).1 :: answers config rest (step config cache op).2

end Operations

end CacheRs.Cuckoo
