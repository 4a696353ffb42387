/-
**Item checksums, updated in place.**

Under the `integrity` feature an item's header carries a checksum of the item. A numeric item is
updated in place under a lock that is its version word's low bit, together with its checksum; a
deletion sets a bit of the flag byte without that lock; a relocation copies the item and stamps the
copy with the version it froze; and a check reads value and checksum between two equal even versions.

* `ItemHeader`, `RawItem`: the words of an item; `RawItem.define`: a new one, checksum included;
* `computeCrc`, `checkIntegrity`, `lockNumericVersion`, `update`, `setDeleted`, `relocate`: the
  operations as programs over the items of a heap;
* `Ledger`, `record`: which flag byte an item's checksum was computed over, how often the item was
  updated, and what each check read.

The checksum function is a parameter. The bytes of an item other than its flag byte, value, version
and checksum do not change once it is published, so a program reads them in one step.
-/

import CacheRs.Checksums.Crc
import CacheRs.Concurrency.Views
import CacheRs.KeyValue.RawItem

namespace CacheRs.KeyValue.Integrity

open Concurrency

/-! ### The words of an item -/

/-- The header of an item under the `integrity` feature. -/
structure ItemHeader where
  magic : Bytes
  klen : UInt8
  flags : UInt8
  vlen : UInt32
  crc32 : UInt32
  deriving DecidableEq, Repr

structure RawItem where
  header : ItemHeader
  /-- The bytes after the header: the optional data, the key and the padding, and the value unless
  it is numeric. -/
  body : Bytes
  valueWord : UInt64
  versionWord : UInt64
  deriving DecidableEq, Repr

def itemMagic : Bytes := [0xCA, 0xFE]

def ItemHeader.isNumeric (header : ItemHeader) : Bool := header.flags &&& numericMask ≠ 0

/-- The header as it is hashed: with the flag byte loaded for it, and the checksum's field zero. -/
def ItemHeader.hashPrefix (header : ItemHeader) (flags : UInt8) : Bytes :=
  header.magic ++ [header.klen] ++ [flags] ++ leBytes 4 header.vlen.toNat ++ [0, 0, 0, 0]

namespace RawItem

variable (crc : Bytes → UInt32) (item : RawItem)

/-- `compute_crc_numeric`, with the flag byte and the value it was given. -/
def crcNumeric (flags : UInt8) (value : UInt64) : UInt32 :=
  crc (item.header.hashPrefix flags ++ item.body ++ leBytes 8 value.toNat)

/-- `compute_crc_span`, to the end of the value. -/
def crcSpan (flags : UInt8) : UInt32 := crc (item.header.hashPrefix flags ++ item.body)

/-- `compute_crc` of an item nobody else writes. -/
def computeCrc : UInt32 :=
  if item.header.isNumeric then item.crcNumeric crc item.header.flags item.valueWord
  else item.crcSpan crc item.header.flags

/-- The words of an item in memory, its checksum not yet computed. -/
def ofMemory (memory : Memory) (start : Nat) : RawItem :=
  let layout : Layout := ⟨true⟩
  let bytesEnd := if KeyValue.isNumeric layout memory start then 0 else vlen layout memory start
  { header :=
      { magic := itemMagic
        klen := memory (start + layout.fieldOffset)
        flags := flags layout memory start
        vlen := .ofNat (vlen layout memory start)
        crc32 := 0 }
    body := memory.read (start + layout.headerSize)
      (valueOffset layout memory start + bytesEnd - (start + layout.headerSize))
    valueWord := .ofNat (leNat (memory.read (valueOffset layout memory start) 8))
    versionWord := .ofNat (KeyValue.versionWord layout memory start) }

/-- `define`, over whatever the memory held. -/
def define (memory : Memory) (start : Nat) (key : Bytes) (value : Value) (optional : Bytes) :
    RawItem :=
  let item := ofMemory (KeyValue.define ⟨true⟩ memory start key value optional) start
  { item with header := { item.header with crc32 := item.computeCrc crc } }

def setFlags (flags : UInt8) : RawItem := { item with header := { item.header with flags } }

def setCrc (crc32 : UInt32) : RawItem := { item with header := { item.header with crc32 } }

def setValue (valueWord : UInt64) : RawItem := { item with valueWord }

def setVersion (versionWord : UInt64) : RawItem := { item with versionWord }

end RawItem

/-! ### Programs -/

/-- A place in the heap: not in use, reserved by the thread that writes an item there, or found
through the index. -/
inductive Stage where
  | vacant
  | reserved
  | published
  deriving DecidableEq, Repr

structure Cell where
  stage : Stage
  item : RawItem
  deriving DecidableEq, Repr

/-- What a step on one item is to the ledger. -/
inductive Event where
  | other
  | reserve
  | stamp (flags : UInt8)
  | publish
  /-- The lock's exchange, the value's store, the checksum's, and the two unlocks. -/
  | exchange (expected : UInt64)
  | beginUpdate
  | restamp
  | unlock
  | release
  /-- The loads of a check, and its end. -/
  | firstVersion
  | storedCrc
  | secondVersion
  | hashFlags
  | answer (intact : Bool)

inductive Label (Place : Type) where
  | on (place : Place) (event : Event)
  | copy (source destination : Place)

abbrev Heap (Place : Type) := Place → Cell

abbrev Prog (Place α : Type) := Program (Heap Place) (Label Place) α

section Programs

variable {Place α : Type} [DecidableEq Place] (crc : Bytes → UInt32) (place : Place)

/-- A step on the cell of one place. -/
def access (event : Event) (enabled : Cell → Bool) (read : Cell → α) (write : Cell → Cell) :
    Prog Place α :=
  .whenEnabled (.on place event) (fun heap => enabled (heap place)) fun heap =>
    (read (heap place), Function.update heap place (write (heap place)))

def load (event : Event) (read : RawItem → α) : Prog Place α :=
  access place event (fun _ => true) (fun cell => read cell.item) id

def store (event : Event) (write : RawItem → RawItem) : Prog Place Unit :=
  access place event (fun _ => true) (fun _ => ()) fun cell => { cell with item := write cell.item }

/-- Reach an item through the index. -/
def find : Prog Place Unit :=
  access place .other (fun cell => cell.stage = .published) (fun _ => ()) id

/-- Reserve a place for an item. -/
def reserve : Prog Place Unit :=
  access place .reserve (fun cell => cell.stage = .vacant) (fun _ => ())
    fun cell => { cell with stage := .reserved }

/-- Make the index refer to an item. -/
def publish : Prog Place Unit :=
  access place .publish (fun _ => true) (fun _ => ()) fun cell => { cell with stage := .published }

def define (memory : Memory) (start : Nat) (key : Bytes) (value : Value) (optional : Bytes) :
    Prog Place Unit := do
  let item := RawItem.define crc memory start key value optional
  reserve place
  store place (.stamp item.header.flags) fun _ => item
  publish place

def isNumeric : Prog Place Bool := load place .other (·.header.isNumeric)

def exchangeVersion (expected : UInt64) : Prog Place UInt64 :=
  access place (.exchange expected) (fun _ => true) (fun cell => cell.item.versionWord) fun cell =>
    if cell.item.versionWord = expected then
      { cell with item := cell.item.setVersion (expected + 1) }
    else cell

/-- Lock the version of a numeric item, and give the even version. -/
def lockNumericVersion : Prog Place (Option UInt64) := do
  if !(← isNumeric place) then return none
  let version ← load place .other (·.versionWord)
  let locked ← Program.repeatUntil (fun version => do
    if version &&& 1 = 1 then
      return .inl (← load place .other (·.versionWord))
    let observed ← exchangeVersion place version
    return if observed = version then .inr version else .inl observed) version
  return some locked

/-- Hash a numeric item: its flag byte is loaded atomically, and the value is the caller's. -/
def computeCrcNumeric (value : UInt64) : Prog Place UInt32 := do
  let flags ← load place .hashFlags (·.header.flags)
  load place .other fun item => item.crcNumeric crc flags value

def computeCrcSpan : Prog Place UInt32 := do
  let flags ← load place .hashFlags (·.header.flags)
  load place .other fun item => item.crcSpan crc flags

def computeCrc : Prog Place UInt32 := do
  if ← isNumeric place then
    let value ← load place .other (·.valueWord)
    computeCrcNumeric crc place value
  else computeCrcSpan crc place

/-- Apply `op` to a numeric value, and its checksum with it, under the lock. -/
def update (op : UInt64 → UInt64) : Prog Place (Option UInt64) := do
  match ← lockNumericVersion place with
  | none => return none
  | some version =>
    let new := op (← load place .other (·.valueWord))
    store place .beginUpdate (·.setValue new)
    let sum ← computeCrcNumeric crc place new
    store place .restamp (·.setCrc sum)
    store place .unlock (·.setVersion (version + 2))
    return some new

/-- `set_deleted(true)`. -/
def setDeleted : Prog Place Unit :=
  store place .other fun item => item.setFlags (item.header.flags ||| deleteMask)

/-- The value of an item, a number between two equal even versions. -/
def value : Prog Place (Option UInt64) := do
  if !(← isNumeric place) then return none
  Program.repeatUntil (fun _ => do
    let first ← load place .other (·.versionWord)
    if first &&& 1 = 1 then return .inl ()
    let value ← load place .other (·.valueWord)
    let second ← load place .other (·.versionWord)
    return if first = second then .inr (some value) else .inl ()) ()

/-- The seqlocked check of a numeric item. -/
def checkNumeric : Prog Place Bool :=
  Program.repeatUntil (fun _ => do
    let first ← load place .firstVersion (·.versionWord)
    if first &&& 1 = 1 then return .inl ()
    let value ← load place .other (·.valueWord)
    let stored ← load place .storedCrc (·.header.crc32)
    let second ← load place .secondVersion (·.versionWord)
    if first = second then
      let sum ← computeCrcNumeric crc place value
      return .inr (stored == sum)
    return .inl ()) ()

def checkSpan : Prog Place Bool := do
  let stored ← load place .storedCrc (·.header.crc32)
  let sum ← computeCrc crc place
  return stored == sum

def checkIntegrity : Prog Place Unit := do
  let intact ← (do if ← isNumeric place then checkNumeric crc place else checkSpan crc place)
  load place (.answer intact) fun _ => ()

/-- Copy an item's bytes: the flag byte, which a deletion may set meanwhile, and the others. -/
def copyItem (source destination : Place) : Prog Place Unit := do
  let flags ← load source .other (·.header.flags)
  .atomically (.copy source destination) fun heap =>
    ((), Function.update heap destination
      { heap destination with item := (heap source).item.setFlags flags })

/-- The copy of a locked item is stamped with the even version the lock froze. -/
def stampRelocatedCopy (guard : Option UInt64) : Prog Place Unit :=
  match guard with
  | some version => store place .other (·.setVersion version)
  | none => pure ()

/-- Publish a copy if the index could be made to refer to it. -/
def relink (relinked : Bool) : Prog Place Unit := if relinked then publish place else pure ()

def dropGuard (guard : Option UInt64) : Prog Place Unit :=
  match guard with
  | some version => store place .release (·.setVersion version)
  | none => pure ()

/-- Relocate an item, holding its lock across the copy and the relink. -/
def relocate (source destination : Place) (relinked : Bool) : Prog Place Unit := do
  reserve destination
  let guard ← lockNumericVersion source
  copyItem source destination
  stampRelocatedCopy destination guard
  relink destination relinked
  dropGuard source guard

end Programs

/-! ### The ledger -/

/-- A check that has completed. -/
structure Check where
  /-- The flag byte that the checksum it read was computed over. -/
  stamped : UInt8
  /-- The flag byte it hashed itself. -/
  hashed : UInt8
  /-- The item was updated `2 ^ 63` times between its two loads of the version. -/
  lapped : Bool
  intact : Bool
  deriving DecidableEq, Repr

/-- What a thread's current check or update of an item has read. -/
structure Notes where
  began : Nat
  seen : UInt8
  hashed : UInt8
  lapped : Bool
  deriving DecidableEq, Repr

/-- The history of one place. -/
structure Ledger (Tid : Type) where
  /-- The thread that has the place reserved or its item locked. -/
  holder : Option Tid
  /-- The holder has begun to store a new value. -/
  dirty : Bool
  /-- The flag byte the item's checksum was computed over. -/
  stamped : UInt8
  updates : Nat
  notes : Tid → Notes
  checks : List Check

def Ledger.new {Tid : Type} : Ledger Tid :=
  ⟨none, false, 0, 0, fun _ => ⟨0, 0, 0, false⟩, []⟩

section Ledger

variable {Tid Place : Type} [DecidableEq Tid] [DecidableEq Place]

def Ledger.noting (ledger : Ledger Tid) (t : Tid) (notes : Notes) : Ledger Tid :=
  { ledger with notes := Function.update ledger.notes t notes }

/-- Enter a step of thread `t` on the item of one place. -/
def Event.enter (t : Tid) (cell : Cell) (ledger : Ledger Tid) : Event → Ledger Tid
  | .other => ledger
  | .reserve => { ledger with holder := some t }
  | .stamp flags => { ledger with stamped := flags }
  | .publish =>
    { ledger with holder := none, updates := cell.item.versionWord.toNat / 2 }
  | .exchange expected =>
    if cell.item.versionWord = expected then { ledger with holder := some t } else ledger
  | .beginUpdate => { ledger with dirty := true }
  | .restamp => { ledger with stamped := (ledger.notes t).hashed }
  | .unlock => { ledger with holder := none, dirty := false, updates := ledger.updates + 1 }
  | .release => { ledger with holder := none }
  | .firstVersion => ledger.noting t { ledger.notes t with began := ledger.updates }
  | .storedCrc => ledger.noting t { ledger.notes t with seen := ledger.stamped, lapped := false }
  | .secondVersion => ledger.noting t
    { ledger.notes t with lapped := (ledger.notes t).began + 2 ^ 63 ≤ ledger.updates }
  | .hashFlags => ledger.noting t { ledger.notes t with hashed := cell.item.header.flags }
  | .answer intact =>
    let notes := ledger.notes t
    { ledger with checks := ⟨notes.seen, notes.hashed, notes.lapped, intact⟩ :: ledger.checks }

/-- Every place's ledger. -/
abbrev History (Tid Place : Type) := Place → Ledger Tid

/-- Enter a step in the ledgers: a copy has the checksum of what was copied. -/
def record (t : Tid) (label : Label Place) (heap : Heap Place) (history : History Tid Place) :
    History Tid Place :=
  match label with
  | .on place event =>
    Function.update history place (event.enter t (heap place) (history place))
  | .copy source destination => Function.update history destination
    { history destination with stamped := (history source).stamped }

end Ledger

end CacheRs.KeyValue.Integrity
