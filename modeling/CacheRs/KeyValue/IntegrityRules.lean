/-
**What an item's checksum covers, at every instant.**

The view of a place is its cell and its ledger. The checksum of a published item is that of its bytes
with the stamped flag byte in place of its own, unless the item is being updated (`Ok`); the other
threads' steps leave the frame of an item alone, and change its value and checksum only in an update
that they finish by advancing the version (`Rely`).

* `Frame.sum`: the checksum of an item, by the flag byte and the value hashed;
* `Ok.*`: each kind of step keeps `Ok` and what the other threads rely on;
* `Assertion`s: what a thread knows of an item it has reached, locked, reserved, or begun to check.
-/

import CacheRs.KeyValue.Integrity

set_option linter.unusedSectionVars false

namespace CacheRs.KeyValue.Integrity

open Concurrency

/-! ### The frame of an item -/

/-- What no step changes of a published item. -/
@[ext] structure Frame where
  magic : Bytes
  klen : UInt8
  /-- The flag byte, with the deleted bit set. -/
  bits : UInt8
  vlen : UInt32
  body : Bytes

namespace Frame

variable (crc : Bytes → UInt32) (frame : Frame)

def isNumeric : Bool := frame.bits &&& numericMask ≠ 0

/-- What is hashed after the flag byte. -/
def after (value : UInt64) : Bytes :=
  leBytes 4 frame.vlen.toNat ++ [0, 0, 0, 0] ++ frame.body ++
    if frame.isNumeric then leBytes 8 value.toNat else []

/-- The checksum of an item in this frame. -/
def sum (flags : UInt8) (value : UInt64) : UInt32 :=
  crc ((frame.magic ++ [frame.klen]) ++ flags :: frame.after value)

end Frame

namespace RawItem

variable (crc : Bytes → UInt32) (item : RawItem)

def frame : Frame where
  magic := item.header.magic
  klen := item.header.klen
  bits := item.header.flags ||| deleteMask
  vlen := item.header.vlen
  body := item.body

theorem isNumeric_frame : item.frame.isNumeric = item.header.isNumeric := by
  have same := (or_deleteMask item.header.flags).2.1
  unfold Frame.isNumeric ItemHeader.isNumeric
  rw [show item.frame.bits = item.header.flags ||| deleteMask by rfl, same]

variable {item}

theorem crcNumeric_eq (numeric : item.frame.isNumeric = true) (flags : UInt8) (value : UInt64) :
    item.crcNumeric crc flags value = item.frame.sum crc flags value := by
  unfold crcNumeric Frame.sum Frame.after ItemHeader.hashPrefix
  rw [if_pos numeric]
  simp [frame]

theorem crcSpan_eq (bytes : item.frame.isNumeric = false) (flags : UInt8) (value : UInt64) :
    item.crcSpan crc flags = item.frame.sum crc flags value := by
  unfold crcSpan Frame.sum Frame.after ItemHeader.hashPrefix
  rw [if_neg (by simp [bytes])]
  simp [frame]

theorem computeCrc_eq :
    item.computeCrc crc = item.frame.sum crc item.header.flags item.valueWord := by
  unfold computeCrc
  rw [← isNumeric_frame]
  cases numeric : item.frame.isNumeric with
  | true => exact crcNumeric_eq crc numeric _ _
  | false => exact crcSpan_eq crc numeric _ _

@[simp] theorem frame_setCrc (sum : UInt32) : (item.setCrc sum).frame = item.frame := rfl

@[simp] theorem frame_setValue (value : UInt64) : (item.setValue value).frame = item.frame := rfl

@[simp] theorem frame_setVersion (version : UInt64) :
    (item.setVersion version).frame = item.frame := rfl

/-- Changing the deleted bit keeps the frame. -/
theorem frame_setFlags {flags : UInt8} (same : flags ||| deleteMask = item.frame.bits) :
    (item.setFlags flags).frame = item.frame := by
  ext1
  · rfl
  · rfl
  · exact same
  · rfl
  · rfl

/-- **A new item carries its checksum.** -/
theorem define_crc (memory : Memory) (start : Nat) (key : Bytes) (value : Value)
    (optional : Bytes) :
    let item := define crc memory start key value optional
    item.header.crc32 = item.frame.sum crc item.header.flags item.valueWord := by
  intro item
  exact computeCrc_eq crc

/-- A new numeric item is at version zero. -/
theorem define_version (memory : Memory) (start : Nat) (key : Bytes) (value : Value)
    (optional : Bytes)
    (numeric : (define crc memory start key value optional).frame.isNumeric = true) :
    (define crc memory start key value optional).versionWord = 0 := by
  have headed := headed_define ⟨true⟩ memory start key value optional
  rw [isNumeric_frame] at numeric
  have number : value.isU64 = true := headed.isNumeric.symm.trans numeric
  cases value with
  | bytes bytes => cases number
  | u64 number =>
    show UInt64.ofNat (KeyValue.versionWord _ _ start) = 0
    rw [versionWord_define]
    rfl

end RawItem

/-- A flag byte is its deleted bit and the others. -/
theorem flags_eq {a b : UInt8} (others : a ||| deleteMask = b ||| deleteMask)
    (deleted : a &&& deleteMask = b &&& deleteMask) : a = b := by
  have parts : ∀ bits : BitVec 8, UInt8.ofBitVec bits =
      (UInt8.ofBitVec bits ||| deleteMask) &&& ~~~deleteMask |||
        UInt8.ofBitVec bits &&& deleteMask := by decide +kernel
  have left := parts a.toBitVec
  rw [UInt8.ofBitVec_toBitVec, others, deleted] at left
  exact left.trans (parts b.toBitVec).symm

/-! ### Versions -/

theorem toNat_add_one {version : UInt64} {updates : Nat}
    (even : version.toNat = 2 * updates % 2 ^ 64) :
    (version + 1).toNat = (2 * updates + 1) % 2 ^ 64 := by
  rw [UInt64.toNat_add, even]
  simp

theorem toNat_add_two {version : UInt64} {updates : Nat}
    (even : version.toNat = 2 * updates % 2 ^ 64) :
    (version + 2).toNat = 2 * (updates + 1) % 2 ^ 64 := by
  rw [UInt64.toNat_add, even, Nat.mul_add]
  simp

theorem odd_iff (version : UInt64) : version &&& 1 = 1 ↔ version.toNat % 2 = 1 := by
  rw [← UInt64.toNat_inj, UInt64.toNat_and]
  simp [Nat.and_one_is_mod]

/-- Two even versions less than a lap apart count the same updates if they are equal. -/
theorem updates_eq {first second : Nat} (later : first ≤ second) (lap : second < first + 2 ^ 63)
    (same : 2 * first % 2 ^ 64 = 2 * second % 2 ^ 64) : first = second := by
  omega

/-! ### Views -/

variable {Tid Place : Type} [DecidableEq Tid] [DecidableEq Place]

/-- One place. -/
@[ext] structure ItemView (Tid : Type) where
  cell : Cell
  ledger : Ledger Tid

def view (world : World (Heap Place) (History Tid Place)) (place : Place) : ItemView Tid :=
  ⟨world.shared place, world.history place⟩

/-- A place after the copy of an item to it. -/
def ItemView.copied (source destination : ItemView Tid) (flags : UInt8) : ItemView Tid :=
  ⟨{ destination.cell with item := source.cell.item.setFlags flags },
    { destination.ledger with stamped := source.ledger.stamped }⟩

/-- What only the holder changes. -/
structure Guarded where
  dirty : Bool
  stamped : UInt8
  updates : Nat
  version : UInt64
  value : UInt64
  sum : UInt32

namespace ItemView

variable (v : ItemView Tid)

def guarded : Guarded :=
  ⟨v.ledger.dirty, v.ledger.stamped, v.ledger.updates, v.cell.item.versionWord,
    v.cell.item.valueWord, v.cell.item.header.crc32⟩

/-- After a step on the place. -/
def stepped (t : Tid) (event : Event) (write : Cell → Cell) : ItemView Tid :=
  ⟨write v.cell, event.enter t v.cell v.ledger⟩

end ItemView

@[simp] theorem noting_notes (ledger : Ledger Tid) (t : Tid) (notes : Notes) :
    (ledger.noting t notes).notes t = notes :=
  Function.update_self ..

@[simp] theorem noting_updates (ledger : Ledger Tid) (t : Tid) (notes : Notes) :
    (ledger.noting t notes).updates = ledger.updates := rfl

@[simp] theorem noting_stamped (ledger : Ledger Tid) (t : Tid) (notes : Notes) :
    (ledger.noting t notes).stamped = ledger.stamped := rfl

/-- The checksum of `item` was computed over the flag byte `stamped`. -/
structure Stamped (crc : Bytes → UInt32) (item : RawItem) (stamped : UInt8) : Prop where
  sum : item.header.crc32 = item.frame.sum crc stamped item.valueWord
  bits : stamped ||| deleteMask = item.frame.bits

/-- A check compared checksums of one frame and value, by flag bytes that differ in the deleted bit
at most. -/
structure Check.Exact (crc : Bytes → UInt32) (check : Check) : Prop where
  bits : check.stamped ||| deleteMask = check.hashed ||| deleteMask
  intact : ∃ (frame : Frame) (value : UInt64), check.intact =
    (frame.sum crc check.stamped value == frame.sum crc check.hashed value)

namespace ItemView

/-- What holds of a place at every instant. -/
structure Ok (crc : Bytes → UInt32) (v : ItemView Tid) : Prop where
  vacant : v.cell.stage = .vacant → v.ledger.holder = none
  version : v.cell.stage = .published → v.cell.item.frame.isNumeric = true →
    v.cell.item.versionWord.toNat =
      (2 * v.ledger.updates + if v.ledger.holder.isSome then 1 else 0) % 2 ^ 64
  dirty : v.ledger.dirty = true → v.cell.stage = .published ∧
    v.cell.item.frame.isNumeric = true ∧ v.ledger.holder.isSome = true
  bits : v.cell.stage = .published → v.ledger.stamped ||| deleteMask = v.cell.item.frame.bits
  sum : v.cell.stage = .published → v.ledger.dirty = false →
    v.cell.item.header.crc32 = v.cell.item.frame.sum crc v.ledger.stamped v.cell.item.valueWord
  checks : ∀ check ∈ v.ledger.checks, check.lapped = false → check.Exact crc

/-- Value, checksum and stamp change only in an update, and an update ends in another version. -/
structure Progress (v after : ItemView Tid) : Prop where
  updates : v.ledger.updates ≤ after.ledger.updates
  dirty : v.ledger.updates = after.ledger.updates → v.ledger.dirty = true →
    after.ledger.dirty = true
  same : v.ledger.updates = after.ledger.updates → after.ledger.dirty = false →
    after.guarded.stamped = v.guarded.stamped ∧ after.guarded.value = v.guarded.value ∧
      after.guarded.sum = v.guarded.sum

/-- What thread `t` relies on while others step. -/
structure Rely (t : Tid) (v after : ItemView Tid) : Prop where
  published : v.cell.stage = .published → after.cell.stage = .published
  frame : v.cell.stage = .published → after.cell.item.frame = v.cell.item.frame
  progress : v.cell.stage = .published → Progress v after
  holder : v.ledger.holder = some t → after.ledger.holder = some t ∧ after.guarded = v.guarded
  reserved : v.ledger.holder = some t → v.cell.stage = .reserved → after.cell = v.cell
  notes : after.ledger.notes t = v.ledger.notes t

theorem Progress.refl (v : ItemView Tid) : Progress v v :=
  ⟨Nat.le_refl _, fun _ dirty => dirty, fun _ _ => ⟨rfl, rfl, rfl⟩⟩

theorem Progress.trans {first second third : ItemView Tid} (before : Progress first second)
    (later : Progress second third) : Progress first third := by
  have between : first.ledger.updates = third.ledger.updates →
      first.ledger.updates = second.ledger.updates ∧
        second.ledger.updates = third.ledger.updates := by
    have := before.updates
    have := later.updates
    omega
  refine ⟨Nat.le_trans before.updates later.updates, fun same dirty => ?_, fun same clean => ?_⟩
  · obtain ⟨left, right⟩ := between same
    exact later.dirty right (before.dirty left dirty)
  · obtain ⟨left, right⟩ := between same
    have cleanBetween : second.ledger.dirty = false := by
      by_contra dirty
      rw [later.dirty right (by simpa using dirty)] at clean
      cases clean
    obtain ⟨stamped, value, sum⟩ := before.same left cleanBetween
    obtain ⟨stamped', value', sum'⟩ := later.same right clean
    exact ⟨stamped'.trans stamped, value'.trans value, sum'.trans sum⟩

theorem Rely.refl (t : Tid) (v : ItemView Tid) : Rely t v v :=
  ⟨fun published => published, fun _ => rfl, fun _ => .refl v, fun mine => ⟨mine, rfl⟩,
    fun _ _ => rfl, rfl⟩

theorem Rely.trans {t : Tid} {first second third : ItemView Tid} (before : Rely t first second)
    (later : Rely t second third) : Rely t first third := by
  refine ⟨fun published => later.published (before.published published), fun published => ?_,
    fun published => ?_, fun mine => ?_, fun mine reserved => ?_, later.notes.trans before.notes⟩
  · exact (later.frame (before.published published)).trans (before.frame published)
  · exact (before.progress published).trans (later.progress (before.published published))
  · obtain ⟨still, same⟩ := before.holder mine
    obtain ⟨yet, same'⟩ := later.holder still
    exact ⟨yet, same'.trans same⟩
  · have same := before.reserved mine reserved
    exact (later.reserved (before.holder mine).1 (same ▸ reserved)).trans same

/-- What a thread that does not hold a place relies on. -/
theorem Rely.of_other {other : Tid} {v after : ItemView Tid}
    (apart : v.ledger.holder ≠ some other)
    (published : v.cell.stage = .published →
      after.cell.stage = .published ∧ after.cell.item.frame = v.cell.item.frame ∧
        Progress v after)
    (notes : after.ledger.notes other = v.ledger.notes other) : Rely other v after :=
  ⟨fun now => (published now).1, fun now => (published now).2.1, fun now => (published now).2.2,
    fun mine => absurd mine apart, fun mine => absurd mine apart, notes⟩

end ItemView

/-- The views of the places. -/
def itemViews (crc : Bytes → UInt32) :
    Views Tid (Heap Place) (Label Place) (History Tid Place) Place (ItemView Tid) where
  record := record
  view := view
  Ok := ItemView.Ok crc
  Rely := ItemView.Rely
  rely_refl := ItemView.Rely.refl
  rely_trans _ _ _ _ := ItemView.Rely.trans

/-- A step on one place changes its view only. -/
theorem touches_access (t : Tid) (place : Place) (event : Event) (write : Cell → Cell)
    (now : World (Heap Place) (History Tid Place)) :
    Views.Touches view now (now.after record t (.on place event) fun heap =>
      Function.update heap place (write (heap place))) place
      ((view now place).stepped t event write) := by
  refine ⟨?_, fun other different => ?_⟩
  · simp [view, record, ItemView.stepped]
  · simp [view, record, Function.update_of_ne different]

theorem touches_copy (t : Tid) (source destination : Place) (flags : UInt8)
    (now : World (Heap Place) (History Tid Place)) :
    Views.Touches view now (now.after record t (.copy source destination) fun heap =>
      Function.update heap destination
        { heap destination with item := (heap source).item.setFlags flags }) destination
      ((view now source).copied (view now destination) flags) := by
  refine ⟨?_, fun other different => ?_⟩
  · simp [view, record, ItemView.copied]
  · simp [view, record, Function.update_of_ne different]

/-! ### Steps -/

namespace ItemView

variable {crc : Bytes → UInt32} {t : Tid} {v : ItemView Tid}

/-- A step of `t` that keeps the place in order, and what the other threads rely on. -/
abbrev Kept (crc : Bytes → UInt32) (t : Tid) (v after : ItemView Tid) : Prop :=
  Views.Kept (Ok crc) Rely t v after

theorem others_apart {owner : Option Tid} (mine : owner = some t) {other : Tid}
    (different : other ≠ t) : owner ≠ some other := by
  rintro rfl
  exact different (Option.some.inj mine)

theorem Ok.refl (ok : v.Ok crc) : Kept crc t v v :=
  ⟨ok, fun other _ => .refl other v⟩

/-- Notes are the thread's own. -/
theorem Ok.noting (ok : v.Ok crc) (notes : Notes) :
    Kept crc t v ⟨v.cell, v.ledger.noting t notes⟩ := by
  refine ⟨⟨ok.vacant, ok.version, ok.dirty, ok.bits, ok.sum, ok.checks⟩, fun other different => ?_⟩
  refine ⟨fun now => now, fun _ => rfl, fun _ => ?_, fun mine => ⟨mine, rfl⟩, fun _ _ => rfl, ?_⟩
  · exact ⟨Nat.le_refl _, fun _ dirty => dirty, fun _ _ => ⟨rfl, rfl, rfl⟩⟩
  · exact Function.update_of_ne different _ _

/-- The end of a check that was exact or lapped. -/
theorem Ok.answer (ok : v.Ok crc) {check : Check} (exact : check.lapped = false → check.Exact crc) :
    Kept crc t v ⟨v.cell, { v.ledger with checks := check :: v.ledger.checks }⟩ := by
  refine ⟨⟨ok.vacant, ok.version, ok.dirty, ok.bits, ok.sum, fun past member => ?_⟩,
    fun other _ => ?_⟩
  · rcases List.mem_cons.mp member with rfl | earlier
    · exact exact
    · exact ok.checks past earlier
  · refine ⟨fun now => now, fun _ => rfl, fun _ => ?_, fun mine => ⟨mine, rfl⟩, fun _ _ => rfl, rfl⟩
    exact ⟨Nat.le_refl _, fun _ dirty => dirty, fun _ _ => ⟨rfl, rfl, rfl⟩⟩

/-- Setting the deleted bit of a published item. -/
theorem Ok.delete (ok : v.Ok crc) (published : v.cell.stage = .published) :
    Kept crc t v
      ⟨{ v.cell with
          item := v.cell.item.setFlags (v.cell.item.header.flags ||| deleteMask) }, v.ledger⟩ := by
  have frame : (v.cell.item.setFlags (v.cell.item.header.flags ||| deleteMask)).frame =
      v.cell.item.frame := by
    refine RawItem.frame_setFlags ?_
    rw [UInt8.or_assoc, UInt8.or_self]
    rfl
  refine ⟨⟨ok.vacant, ?_, ?_, ?_, ?_, ok.checks⟩, fun other _ => ?_⟩
  · rw [frame]
    exact ok.version
  · rw [frame]
    exact ok.dirty
  · rw [frame]
    exact ok.bits
  · rw [frame]
    exact ok.sum
  · refine ⟨fun now => now, fun _ => frame, fun _ => ?_, fun mine => ⟨mine, rfl⟩,
      fun _ reserved => ?_, rfl⟩
    · exact ⟨Nat.le_refl _, fun _ dirty => dirty, fun _ _ => ⟨rfl, rfl, rfl⟩⟩
    · cases published.symm.trans reserved

/-- A vacant place becomes its reserver's. -/
theorem Ok.reserve (ok : v.Ok crc) (vacant : v.cell.stage = .vacant) :
    Kept crc t v ⟨{ v.cell with stage := .reserved }, { v.ledger with holder := some t }⟩ := by
  have clean : v.ledger.dirty = false := by
    by_contra dirty
    cases vacant.symm.trans (ok.dirty (by simpa using dirty)).1
  refine ⟨⟨nofun, nofun, fun dirty => ?_, nofun, nofun, ok.checks⟩, fun other _ => ?_⟩
  · cases clean.symm.trans dirty
  · refine .of_other ?_ (fun now => ?_) rfl
    · rw [ok.vacant vacant]
      nofun
    · cases vacant.symm.trans now

/-- The reserver of a place writes it. -/
theorem Ok.draft (ok : v.Ok crc) (reserved : v.cell.stage = .reserved)
    (mine : v.ledger.holder = some t) (item : RawItem) (stamped : UInt8) :
    Kept crc t v ⟨{ v.cell with item }, { v.ledger with stamped }⟩ := by
  have unpublished : v.cell.stage ≠ .published := by simp [reserved]
  refine ⟨⟨fun vacant => ?_, fun now => absurd now unpublished, fun dirty => ?_,
    fun now => absurd now unpublished, fun now => absurd now unpublished, ok.checks⟩,
    fun other different => ?_⟩
  · cases reserved.symm.trans vacant
  · exact absurd (ok.dirty dirty).1 unpublished
  · exact .of_other (others_apart mine different) (fun now => absurd now unpublished) rfl

/-- The copy of an item that is not being updated carries its checksum. -/
theorem Ok.copy (ok : v.Ok crc) (published : v.cell.stage = .published)
    (clean : v.ledger.dirty = false) {flags : UInt8}
    (bits : flags ||| deleteMask = v.cell.item.frame.bits) :
    Stamped crc (v.cell.item.setFlags flags) v.ledger.stamped := by
  have frame := RawItem.frame_setFlags bits
  refine ⟨?_, ?_⟩
  · rw [frame]
    exact ok.sum published clean
  · rw [frame]
    exact ok.bits published

/-- An item written with its checksum can be published. -/
theorem Ok.publish (ok : v.Ok crc) (reserved : v.cell.stage = .reserved)
    (mine : v.ledger.holder = some t) (stamped : Stamped crc v.cell.item v.ledger.stamped)
    (even : v.cell.item.frame.isNumeric = true → v.cell.item.versionWord.toNat % 2 = 0) :
    Kept crc t v ⟨{ v.cell with stage := .published },
      { v.ledger with holder := none, updates := v.cell.item.versionWord.toNat / 2 }⟩ := by
  have unpublished : v.cell.stage ≠ .published := by simp [reserved]
  refine ⟨⟨nofun, fun _ numeric => ?_, fun dirty => absurd (ok.dirty dirty).1 unpublished,
    fun _ => stamped.bits, fun _ _ => stamped.sum, ok.checks⟩, fun other different => ?_⟩
  · have := even numeric
    have := v.cell.item.versionWord.toNat_lt
    show v.cell.item.versionWord.toNat = (2 * (v.cell.item.versionWord.toNat / 2) + 0) % 2 ^ 64
    omega
  · exact .of_other (others_apart mine different) (fun now => absurd now unpublished) rfl

/-- An unlocked version is even, and a locked one odd. -/
theorem Ok.unlocked (ok : v.Ok crc) (published : v.cell.stage = .published)
    (numeric : v.cell.item.frame.isNumeric = true)
    (even : ¬ v.cell.item.versionWord &&& 1 = 1) :
    v.ledger.holder = none ∧ v.ledger.dirty = false ∧
      v.cell.item.versionWord.toNat = 2 * v.ledger.updates % 2 ^ 64 := by
  have version := ok.version published numeric
  rw [odd_iff] at even
  cases holder : v.ledger.holder with
  | some owner =>
    rw [holder] at version
    simp only [Option.isSome_some, if_true] at version
    omega
  | none =>
    rw [holder] at version
    refine ⟨rfl, ?_, version⟩
    by_contra dirty
    have := (ok.dirty (by simpa using dirty)).2.2
    rw [holder] at this
    cases this

/-- The exchange that locks an even version. -/
theorem Ok.lock (ok : v.Ok crc) (published : v.cell.stage = .published)
    (numeric : v.cell.item.frame.isNumeric = true)
    (even : ¬ v.cell.item.versionWord &&& 1 = 1) :
    Kept crc t v ⟨{ v.cell with item := v.cell.item.setVersion (v.cell.item.versionWord + 1) },
      { v.ledger with holder := some t }⟩ := by
  obtain ⟨holder, clean, version⟩ := ok.unlocked published numeric even
  refine ⟨⟨fun vacant => ?_, fun _ _ => ?_, fun dirty => ?_, ok.bits, ok.sum, ok.checks⟩,
    fun other _ => ?_⟩
  · cases published.symm.trans vacant
  · exact toNat_add_one version
  · cases clean.symm.trans dirty
  · refine .of_other ?_ (fun now => ⟨now, rfl, ?_⟩) rfl
    · rw [holder]
      nofun
    · exact ⟨Nat.le_refl _, fun _ dirty => dirty, fun _ _ => ⟨rfl, rfl, rfl⟩⟩

section Holder

variable (ok : v.Ok crc) (mine : v.ledger.holder = some t)
include ok mine

/-- The holder begins an update. -/
theorem Ok.beginUpdate (published : v.cell.stage = .published)
    (numeric : v.cell.item.frame.isNumeric = true) (value : UInt64) :
    Kept crc t v ⟨{ v.cell with item := v.cell.item.setValue value },
      { v.ledger with dirty := true }⟩ := by
  refine ⟨⟨ok.vacant, ok.version, fun _ => ⟨published, numeric, ?_⟩, ok.bits, nofun, ok.checks⟩,
    fun other different => ?_⟩
  · rw [mine]
    rfl
  · refine .of_other (others_apart mine different) (fun now => ⟨now, rfl, ?_⟩) rfl
    exact ⟨Nat.le_refl _, fun _ _ => rfl, fun _ clean => by cases clean⟩

/-- The holder stores the checksum of the value it has stored. -/
theorem Ok.restamp (dirty : v.ledger.dirty = true) {stamped : UInt8} (sum : UInt32)
    (bits : stamped ||| deleteMask = v.cell.item.frame.bits) :
    Kept crc t v ⟨{ v.cell with item := v.cell.item.setCrc sum }, { v.ledger with stamped }⟩ := by
  refine ⟨⟨ok.vacant, ok.version, ok.dirty, fun _ => bits, fun _ clean => ?_, ok.checks⟩,
    fun other different => ?_⟩
  · cases dirty.symm.trans clean
  · refine .of_other (others_apart mine different) (fun now => ⟨now, rfl, ?_⟩) rfl
    refine ⟨Nat.le_refl _, fun _ dirty => dirty, fun _ clean => ?_⟩
    cases dirty.symm.trans clean

/-- The holder ends an update. -/
theorem Ok.unlock (published : v.cell.stage = .published)
    (numeric : v.cell.item.frame.isNumeric = true) {version : UInt64}
    (locked : v.cell.item.versionWord = version + 1)
    (stamped : Stamped crc v.cell.item v.ledger.stamped) :
    Kept crc t v ⟨{ v.cell with item := v.cell.item.setVersion (version + 2) },
      { v.ledger with holder := none, dirty := false, updates := v.ledger.updates + 1 }⟩ := by
  have counted := ok.version published numeric
  rw [locked, mine, UInt64.toNat_add, Option.isSome_some, if_pos rfl] at counted
  have before : version.toNat = 2 * v.ledger.updates % 2 ^ 64 := by
    have := version.toNat_lt
    simp at counted
    omega
  refine ⟨⟨fun vacant => ?_, fun _ _ => ?_, nofun, fun _ => stamped.bits, fun _ _ => stamped.sum,
    ok.checks⟩, fun other different => ?_⟩
  · cases published.symm.trans vacant
  · exact toNat_add_two before
  · refine .of_other (others_apart mine different) (fun now => ⟨now, rfl, ?_⟩) rfl
    exact ⟨Nat.le_succ _, fun same => by simp at same, fun same => by simp at same⟩

/-- The holder gives the lock up without an update. -/
theorem Ok.release (published : v.cell.stage = .published) (clean : v.ledger.dirty = false)
    (numeric : v.cell.item.frame.isNumeric = true) {version : UInt64}
    (locked : v.cell.item.versionWord = version + 1) :
    Kept crc t v ⟨{ v.cell with item := v.cell.item.setVersion version },
      { v.ledger with holder := none }⟩ := by
  have counted := ok.version published numeric
  rw [locked, mine, UInt64.toNat_add, Option.isSome_some, if_pos rfl] at counted
  refine ⟨⟨fun vacant => ?_, fun _ _ => ?_, fun dirty => ?_, ok.bits, ok.sum, ok.checks⟩,
    fun other different => ?_⟩
  · cases published.symm.trans vacant
  · have := version.toNat_lt
    show version.toNat = (2 * v.ledger.updates + 0) % 2 ^ 64
    simp at counted
    omega
  · cases clean.symm.trans dirty
  · refine .of_other (others_apart mine different) (fun now => ⟨now, rfl, ?_⟩) rfl
    exact ⟨Nat.le_refl _, fun _ dirty => dirty, fun _ _ => ⟨rfl, rfl, rfl⟩⟩

end Holder

end ItemView

end CacheRs.KeyValue.Integrity
