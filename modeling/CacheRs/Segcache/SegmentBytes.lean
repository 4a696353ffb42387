/-
**The bytes of the segments, and the scans over them.**

Merges, drains, promotions and the ghost scan step through a segment by the sizes they decode from its
bytes. Nothing clears a segment's bytes when it is emptied, and a copy whose entry is lost leaves its
bytes behind the write offset; the scans have to do with what the header says.

* `scan`: the offsets a scan inspects; `clearFrom`: the scan that empties a segment;
* `Action`, `apply`: reservations, publications, removals, in-place updates, copies and resets;
* `walk_exact`: **a scan comes to the items of the present incarnation, each once and in order, and in
  an empty one to the initial offset alone, where no entry leads**.

An entry here is what the hashtable answers for a key. The offsets at which items were written are
kept beside the bytes, for the invariant.
-/

import CacheRs.KeyValue.RawItem
import CacheRs.Lists.Tiling
import CacheRs.Segcache.Beginnings

namespace CacheRs.Segcache.SegmentBytes

open KeyValue (Bytes Layout Memory Value Fits WellFormed)
open Segments (SegId)
open Tiling (Tiled)

/-! ### Scans -/

/-- A segment's bytes, and the fields of its header that the scans and copies read. -/
structure ByteSegment where
  data : Memory
  writeOffset : Nat
  liveItems : Int
  liveBytes : Int
  generation : BitVec 16
  /-- Where the items of the present incarnation begin, in the order they were written. -/
  starts : List Nat

namespace ByteSegment

variable (config : Config) (segment : ByteSegment)

/-- `tag_for_generation`. -/
def tag : Nat := segment.generation.toNat % 64

def maxItemOffset : Nat :=
  if config.layout.headerSize ≤ segment.writeOffset then
    min segment.writeOffset config.segmentSize - config.layout.headerSize
  else config.initialOffset

theorem size_pos (offset : Nat) : 0 < KeyValue.size config.layout segment.data offset :=
  Nat.lt_of_lt_of_le (by decide) KeyValue.eight_le_size

/-- The offsets that a scan inspects: it steps by `RawItem::size` up to `max_item_offset`. -/
def scan : List Nat :=
  Tiling.scan (KeyValue.size config.layout segment.data) (segment.size_pos config)
    (segment.maxItemOffset config) config.initialOffset

/-- One item more, behind the last. -/
def added (data : Memory) (size : Nat) : ByteSegment :=
  { segment with
    data := data
    writeOffset := segment.writeOffset + size
    liveItems := segment.liveItems + 1
    liveBytes := segment.liveBytes + size
    starts := segment.starts ++ [segment.writeOffset] }

/-- `remove_item_at`: one item less that counts. -/
def removed (size : Nat) : ByteSegment :=
  { segment with liveItems := segment.liveItems - 1, liveBytes := segment.liveBytes - size }

/-- `reset_write_stats`, on the transition that ends an incarnation. -/
def reset : ByteSegment :=
  { segment with
    writeOffset := config.initialOffset
    liveItems := 0
    liveBytes := config.initialOffset
    generation := segment.generation + 1
    starts := [] }

end ByteSegment

/-- What the hashtable answers for a key. -/
abbrev Entries := Bytes → Option Location

/-- `Segment::clear`: unlink the items that a scan comes to. It stops at a key length of zero once no
item is counted live. -/
def clearFrom (config : Config) (id : SegId) (segment : ByteSegment) (offset : Nat) (liveItems : Int)
    (entries : Entries) : Entries :=
  if offset ≤ segment.maxItemOffset config then
    if KeyValue.klen config.layout segment.data offset = 0 ∧ liveItems = 0 then entries
    else
      let key := KeyValue.key config.layout segment.data offset
      let next := offset + KeyValue.size config.layout segment.data offset
      if entries key = some ⟨id, segment.tag, offset⟩ then
        clearFrom config id segment next (liveItems - 1) (Function.update entries key none)
      else clearFrom config id segment next liveItems entries
  else entries
  termination_by segment.maxItemOffset config + 1 - offset
  decreasing_by
    all_goals
      have := segment.size_pos config offset
      omega

/-! ### The store -/

/-- The segments' bytes and the hashtable's entries. -/
structure Store where
  segment : SegId → ByteSegment
  entries : Entries

/-- A store of segments whose memory holds anything. -/
def Store.new (config : Config) (data : SegId → Memory) : Store where
  segment id := ⟨data id, config.initialOffset, 0, config.initialOffset, 0, []⟩
  entries := fun _ => none

namespace Store

variable (store : Store)

def setSegment (id : SegId) (segment : ByteSegment) : Store :=
  { store with segment := Function.update store.segment id segment }

def setEntry (key : Bytes) (entry : Option Location) : Store :=
  { store with entries := Function.update store.entries key entry }

def locationAt (id : SegId) (offset : Nat) : Location := ⟨id, (store.segment id).tag, offset⟩

@[simp] theorem setSegment_self (id : SegId) (segment : ByteSegment) :
    (store.setSegment id segment).segment id = segment :=
  Function.update_self ..

@[simp] theorem setSegment_of_ne {id other : SegId} (different : other ≠ id) (segment : ByteSegment) :
    (store.setSegment id segment).segment other = store.segment other :=
  Function.update_of_ne different ..

end Store

/-- What happens to the bytes and the entries. -/
inductive Action where
  /-- Space is reserved for an item, and the item written. -/
  | reserve (id : SegId) (key : Bytes) (value : Value) (optional : Bytes)
  /-- The key of a written item leads to it from now on. -/
  | publish (id : SegId) (offset : Nat)
  /-- A replacement, a deletion, an eviction or a rollback takes a key's entry away. -/
  | unlink (key : Bytes)
  /-- `remove_item_at`: an item no longer counts. -/
  | account (id : SegId) (offset : Nat)
  /-- `set_deleted`. -/
  | setDeleted (id : SegId) (offset : Nat)
  /-- A number is updated in place, with its version word. -/
  | update (id : SegId) (offset : Nat) (number : UInt64) (version : Nat)
  /-- A live item is copied behind another segment's last one, a number with its version stamped; its
  entry follows, or is lost. -/
  | copy (source : SegId) (offset : Nat) (target : SegId) (version : Nat) (relinked : Bool)
  /-- A segment is cleared and its incarnation ended. -/
  | reset (id : SegId)

section Actions

variable (config : Config) (store : Store)

/-- The bytes of a target behind a copy. -/
def copied (source target : ByteSegment) (offset version : Nat) : Memory :=
  let size := KeyValue.size config.layout source.data offset
  let data := target.data.write target.writeOffset (source.data.read offset size)
  if KeyValue.isNumeric config.layout source.data offset then
    KeyValue.setVersion config.layout data target.writeOffset version
  else data

/-- Take an action; `none` where the code does not get to it. -/
def apply : Action → Option Store
  | .reserve id key value optional =>
    let segment := store.segment id
    let size := config.layout.itemSize key.length value optional.length
    if (1 ≤ key.length ∧ key.length ≤ 255) ∧ (optional.length ≤ 63 ∧ value.length < 2 ^ 32) ∧
        segment.writeOffset + size ≤ config.segmentSize then
      some (store.setSegment id (segment.added
        (KeyValue.define config.layout segment.data segment.writeOffset key value optional) size))
    else none
  | .publish id offset =>
    if offset ∈ (store.segment id).starts then
      some (store.setEntry (KeyValue.key config.layout (store.segment id).data offset)
        (some (store.locationAt id offset)))
    else none
  | .unlink key => some (store.setEntry key none)
  | .account id offset =>
    let segment := store.segment id
    if offset ∈ segment.starts then
      some (store.setSegment id
        (segment.removed (KeyValue.size config.layout segment.data offset)))
    else none
  | .setDeleted id offset =>
    let segment := store.segment id
    if offset ∈ segment.starts then
      some (store.setSegment id
        { segment with data := KeyValue.setDeleted config.layout segment.data offset })
    else none
  | .update id offset number version =>
    let segment := store.segment id
    if offset ∈ segment.starts ∧ KeyValue.isNumeric config.layout segment.data offset = true then
      some (store.setSegment id
        { segment with
          data := KeyValue.setVersion config.layout
            (KeyValue.setValue config.layout segment.data offset number) offset version })
    else none
  | .copy source offset target version relinked =>
    let from_ := store.segment source
    let into := store.segment target
    let key := KeyValue.key config.layout from_.data offset
    let size := KeyValue.size config.layout from_.data offset
    if source ≠ target ∧ offset ∈ from_.starts ∧ store.entries key = some (store.locationAt source offset) ∧
        into.writeOffset + size < config.segmentSize then
      let data := copied config from_ into offset version
      if relinked then
        some (((store.setSegment source (from_.removed size)).setSegment target
          (into.added data size)).setEntry key (some (store.locationAt target into.writeOffset)))
      else some (store.setSegment target { into with data := data })
    else none
  | .reset id =>
    let segment := store.segment id
    some { store.setSegment id (segment.reset config) with
      entries := clearFrom config id segment config.initialOffset segment.liveItems store.entries }

end Actions

/-- A store that some sequence of actions leads to. -/
inductive Reachable (config : Config) : Store → Prop
  | start (data : SegId → Memory) : Reachable config (Store.new config data)
  | step {store after : Store} (action : Action) (before : Reachable config store)
      (taken : apply config store action = some after) : Reachable config after

/-! ### Items whose bytes change -/

/-- Where an item begins it still begins, with its size and its key. -/
structure Intact (layout : Layout) (data after : Memory) (offset : Nat) : Prop where
  formed : WellFormed layout after offset
  size : KeyValue.size layout after offset = KeyValue.size layout data offset
  key : KeyValue.key layout after offset = KeyValue.key layout data offset

section Intact

variable {layout : Layout} {data after last : Memory} {offset : Nat}

theorem intact_of_same (formed : WellFormed layout data offset)
    (same : ∀ i < KeyValue.size layout data offset, after (offset + i) = data (offset + i)) :
    Intact layout data after offset := by
  obtain ⟨item, size, formed⟩ := KeyValue.item_congr formed same
  exact ⟨formed, size, congrArg KeyValue.Item.key item⟩

theorem Intact.trans (one : Intact layout data after offset) (two : Intact layout after last offset) :
    Intact layout data last offset :=
  ⟨two.formed, two.size.trans one.size, two.key.trans one.key⟩

/-- Bytes written from the value on are no part of the header or the key. -/
theorem intact_write (formed : WellFormed layout data offset) {address : Nat} {bytes : Bytes}
    (above : KeyValue.valueOffset layout data offset ≤ address) :
    Intact layout data (data.write address bytes) offset := by
  have header := Nat.le_trans (KeyValue.header_le_valueOffset layout data offset) above
  obtain ⟨klen, -, vlen⟩ := KeyValue.header_write layout data offset address bytes header
  obtain ⟨-, numeric, -, size, -⟩ := KeyValue.layout_write layout data offset address bytes header
  obtain ⟨key, -⟩ := KeyValue.key_write layout data offset address bytes above
  refine ⟨⟨?_, fun isNumeric => ?_⟩, size, key⟩
  · rw [klen]
    exact formed.klen_pos
  · rw [vlen]
    exact formed.numeric (numeric.symm.trans isNumeric)

theorem intact_setVersion (formed : WellFormed layout data offset) (version : Nat) :
    Intact layout data (KeyValue.setVersion layout data offset version) offset :=
  intact_write formed (Nat.le_add_right ..)

theorem intact_setValue (formed : WellFormed layout data offset) (number : UInt64) :
    Intact layout data (KeyValue.setValue layout data offset number) offset :=
  intact_write formed (Nat.le_refl _)

/-- The deleted bit is no part of a length. -/
theorem intact_setDeleted (formed : WellFormed layout data offset) :
    Intact layout data (KeyValue.setDeleted layout data offset) offset := by
  have room := layout.fieldOffset_add_le
  have flags : KeyValue.flags layout (KeyValue.setDeleted layout data offset) offset =
      KeyValue.flags layout data offset ||| KeyValue.deleteMask := by
    have byte := @Memory.write_inside data (offset + layout.fieldOffset + 1)
      [KeyValue.flags layout data offset ||| KeyValue.deleteMask] 0 (by simp)
    exact byte
  have klen : KeyValue.klen layout (KeyValue.setDeleted layout data offset) offset =
      KeyValue.klen layout data offset :=
    congrArg UInt8.toNat (Memory.write_of_lt (by omega))
  have vlen : KeyValue.vlen layout (KeyValue.setDeleted layout data offset) offset =
      KeyValue.vlen layout data offset :=
    congrArg KeyValue.leNat (Memory.read_write_disjoint (.inr (by simp)))
  obtain ⟨olen, numeric, -⟩ := KeyValue.or_deleteMask (KeyValue.flags layout data offset)
  have sameOlen : KeyValue.olen layout (KeyValue.setDeleted layout data offset) offset =
      KeyValue.olen layout data offset := by
    rw [KeyValue.olen, KeyValue.olen, flags, olen]
  have sameNumeric : KeyValue.isNumeric layout (KeyValue.setDeleted layout data offset) offset =
      KeyValue.isNumeric layout data offset := by
    rw [KeyValue.isNumeric, KeyValue.isNumeric, flags, numeric]
  refine ⟨⟨by rw [klen]; exact formed.klen_pos, fun isNumeric => ?_⟩, ?_, ?_⟩
  · rw [vlen]
    exact formed.numeric (sameNumeric.symm.trans isNumeric)
  · rw [KeyValue.size, KeyValue.size, klen, sameOlen, sameNumeric, vlen]
  · rw [KeyValue.key, KeyValue.key, KeyValue.keyOffset, KeyValue.keyOffset, sameOlen, klen]
    refine Memory.read_write_disjoint (.inr ?_)
    show offset + layout.fieldOffset + 1 + 1 ≤ _
    unfold KeyValue.optionalOffset
    omega

/-- The in-place changes of an item write inside it. -/
theorem setDeleted_outside {address : Nat}
    (outside : address < offset ∨ offset + KeyValue.size layout data offset ≤ address) :
    KeyValue.setDeleted layout data offset address = data address := by
  have room := layout.fieldOffset_add_le
  have size := @KeyValue.size_eq layout data offset
  rcases outside with below | above
  · exact Memory.write_of_lt (by omega)
  · exact Memory.write_of_le (by simp only [List.length_singleton]; omega)

theorem setVersion_outside (formed : WellFormed layout data offset)
    (numeric : KeyValue.isNumeric layout data offset = true) {version address : Nat}
    (outside : address < offset ∨ offset + KeyValue.size layout data offset ≤ address) :
    KeyValue.setVersion layout data offset version address = data address := by
  have ends := formed.ends
  rw [if_pos numeric] at ends
  rcases outside with below | above
  · exact Memory.write_of_lt (by omega)
  · exact Memory.write_of_le (by rw [KeyValue.length_leBytes]; omega)

theorem setValue_outside (formed : WellFormed layout data offset)
    (numeric : KeyValue.isNumeric layout data offset = true) {number : UInt64} {address : Nat}
    (outside : address < offset ∨ offset + KeyValue.size layout data offset ≤ address) :
    KeyValue.setValue layout data offset number address = data address := by
  have ends := formed.ends
  rw [if_pos numeric] at ends
  rcases outside with below | above
  · exact Memory.write_of_lt (by omega)
  · exact Memory.write_of_le (by rw [KeyValue.length_leBytes]; omega)

end Intact

/-! ### A segment in order -/

/-- The items lie one behind the other, from the initial offset up to the write offset. -/
structure Sound (config : Config) (segment : ByteSegment) : Prop where
  tiled : Tiled (KeyValue.size config.layout segment.data) config.initialOffset segment.starts
    segment.writeOffset
  room : segment.writeOffset ≤ config.segmentSize
  formed : ∀ offset ∈ segment.starts, WellFormed config.layout segment.data offset

section Sound

variable {config : Config} {segment : ByteSegment} {offset : Nat}

theorem headerSize_le_size (layout : Layout) (data : Memory) (offset : Nat) :
    layout.headerSize ≤ KeyValue.size layout data offset := by
  rw [KeyValue.size_eq]
  omega

theorem initialOffset_lt_headerSize (config : Config) :
    config.initialOffset < config.layout.headerSize := by
  unfold Config.initialOffset Layout.headerSize
  split <;> decide

/-- The limit of a scan lies behind the last item's beginning and before its end. -/
theorem Sound.limits (sound : Sound config segment) (inside : offset ∈ segment.starts) :
    offset ≤ segment.maxItemOffset config ∧ segment.maxItemOffset config < segment.writeOffset := by
  have bounds := sound.tiled.bounds inside
  have header := headerSize_le_size config.layout segment.data offset
  have positive : 0 < config.layout.headerSize :=
    Nat.lt_of_le_of_lt (Nat.zero_le _) (initialOffset_lt_headerSize config)
  unfold ByteSegment.maxItemOffset
  rw [if_pos (by omega), Nat.min_eq_left sound.room]
  omega

/-- **A scan comes to the items.** -/
theorem Sound.scan_eq (sound : Sound config segment) (some : segment.starts ≠ []) :
    segment.scan config = segment.starts := by
  obtain ⟨offset, inside⟩ := List.exists_mem_of_ne_nil _ some
  exact sound.tiled.scan_eq (fun offset inside => (sound.limits inside).1) (sound.limits inside).2

/-- **In an empty segment a scan comes to the initial offset alone.** -/
theorem Sound.scan_empty (sound : Sound config segment) (none : segment.starts = []) :
    segment.scan config = [config.initialOffset] := by
  have tiled := sound.tiled
  rw [none] at tiled
  have start : config.initialOffset = segment.writeOffset := tiled
  have limit : segment.maxItemOffset config = config.initialOffset := by
    have := initialOffset_lt_headerSize config
    unfold ByteSegment.maxItemOffset
    rw [if_neg (by omega)]
  unfold ByteSegment.scan
  rw [limit, Tiling.scan_of_le (Nat.le_refl _), Tiling.scan_of_lt]
  exact Nat.lt_add_of_pos_right (segment.size_pos config _)

/-- What a scan reads of an item lies before the write offset. -/
theorem Sound.reads (sound : Sound config segment) (inside : offset ∈ segment.starts) :
    offset + config.layout.headerSize ≤ segment.writeOffset ∧
      KeyValue.keyOffset config.layout segment.data offset +
        KeyValue.klen config.layout segment.data offset ≤ segment.writeOffset ∧
      offset + KeyValue.size config.layout segment.data offset ≤ segment.writeOffset := by
  have bounds := sound.tiled.bounds inside
  have header := headerSize_le_size config.layout segment.data offset
  have ends := (sound.formed offset inside).ends
  have key : KeyValue.keyOffset config.layout segment.data offset =
      offset + config.layout.headerSize + KeyValue.olen config.layout segment.data offset := rfl
  refine ⟨by omega, ?_, bounds.2⟩
  rw [key]
  omega

theorem Sound.reset (segment : ByteSegment) : Sound config (segment.reset config) where
  tiled := rfl
  room := by
    have := initialOffset_lt_headerSize config
    have := config.segmentSize_gt
    exact (by omega : config.initialOffset ≤ config.segmentSize)
  formed _ no := by cases no

/-- Items that stay intact stay in order, whatever happens to the bytes beside them. -/
theorem Sound.alter (sound : Sound config segment) {after : ByteSegment}
    (starts : after.starts = segment.starts) (writeOffset : after.writeOffset = segment.writeOffset)
    (intact : ∀ offset ∈ segment.starts, Intact config.layout segment.data after.data offset) :
    Sound config after where
  tiled := by
    rw [starts, writeOffset]
    exact sound.tiled.congr fun offset inside => (intact offset inside).size
  room := writeOffset ▸ sound.room
  formed offset inside := (intact offset (starts ▸ inside)).formed

/-- One item more, at the write offset. -/
theorem Sound.extend (sound : Sound config segment) {after : ByteSegment}
    (starts : after.starts = segment.starts ++ [segment.writeOffset])
    (intact : ∀ offset ∈ segment.starts, Intact config.layout segment.data after.data offset)
    (formed : WellFormed config.layout after.data segment.writeOffset)
    (writeOffset : after.writeOffset = segment.writeOffset +
      KeyValue.size config.layout after.data segment.writeOffset)
    (room : after.writeOffset ≤ config.segmentSize) : Sound config after where
  tiled := by
    rw [starts, writeOffset]
    exact (sound.tiled.congr fun offset inside => (intact offset inside).size).append
  room := room
  formed offset inside := by
    rw [starts] at inside
    rcases List.mem_append.mp inside with before | new
    · exact (intact offset before).formed
    · rw [List.mem_singleton.mp new]
      exact formed

/-- Bytes from the write offset on belong to no item. -/
theorem Sound.intact_above (sound : Sound config segment) {after : Memory}
    (same : ∀ address < segment.writeOffset, after address = segment.data address) :
    ∀ offset ∈ segment.starts, Intact config.layout segment.data after offset := by
  intro offset inside
  have bounds := sound.tiled.bounds inside
  exact intact_of_same (sound.formed offset inside) fun i below => same _ (by omega)

/-- A change inside one item leaves the others alone. -/
theorem Sound.intact_inside (sound : Sound config segment) {after : Memory}
    (inside : offset ∈ segment.starts) (here : Intact config.layout segment.data after offset)
    (outside : ∀ address, address < offset ∨
      offset + KeyValue.size config.layout segment.data offset ≤ address →
      after address = segment.data address) :
    ∀ other ∈ segment.starts, Intact config.layout segment.data after other := by
  intro other also
  by_cases same : other = offset
  · rw [same]
    exact here
  · have apart := sound.tiled.apart also inside same
    exact intact_of_same (sound.formed other also) fun i below => outside _ (by omega)

end Sound

/-! ### Clearing -/

section Clear

variable {config : Config} {id : SegId} {segment : ByteSegment} {entries : Entries} {key : Bytes}
  {location : Location}

/-- Clearing takes entries away. -/
theorem entries_of_clearFrom (offset : Nat) (liveItems : Int)
    (left : clearFrom config id segment offset liveItems entries key = some location) :
    entries key = some location := by
  induction offset, liveItems, entries using clearFrom.induct config id segment with
  | case1 offset liveItems entries within stop =>
    rw [clearFrom, if_pos within, if_pos stop] at left
    exact left
  | case2 offset liveItems entries within go key' next found ih =>
    rw [clearFrom, if_pos within, if_neg go] at left
    rw [if_pos found] at left
    have before := ih left
    by_cases same : key = key'
    · rw [same, Function.update_self] at before
      cases before
    · rwa [Function.update_of_ne same] at before
  | case3 offset liveItems entries within go key' next other ih =>
    rw [clearFrom, if_pos within, if_neg go] at left
    rw [if_neg other] at left
    exact ih left
  | case4 offset liveItems entries past =>
    rw [clearFrom, if_neg past] at left
    exact left

/-- **Clearing comes to every item**, and leaves no entry of its key that names it. -/
theorem unnamed_of_clearFrom {offset last : Nat} {starts : List Nat}
    (tiled : Tiled (KeyValue.size config.layout segment.data) offset starts last)
    (within : ∀ start ∈ starts, start ≤ segment.maxItemOffset config)
    (formed : ∀ start ∈ starts, WellFormed config.layout segment.data start) (liveItems : Int)
    (left : clearFrom config id segment offset liveItems entries key = some location) :
    ∀ start ∈ starts, KeyValue.key config.layout segment.data start = key →
      location ≠ ⟨id, segment.tag, start⟩ := by
  induction starts generalizing offset liveItems entries with
  | nil => exact fun _ no => by cases no
  | cons head rest ih =>
    obtain ⟨rfl, tiled⟩ := tiled
    have klen := (formed head (List.mem_cons_self ..)).klen_pos
    rw [clearFrom, if_pos (within head (List.mem_cons_self ..)), if_neg (by omega)] at left
    have later : ∀ entries liveItems, clearFrom config id segment
        (head + KeyValue.size config.layout segment.data head) liveItems entries key = some location →
        ∀ start ∈ rest, KeyValue.key config.layout segment.data start = key →
          location ≠ ⟨id, segment.tag, start⟩ := fun entries liveItems =>
      ih tiled (fun start inside => within start (List.mem_cons_of_mem _ inside))
        (fun start inside => formed start (List.mem_cons_of_mem _ inside)) liveItems
    intro start inside named same
    by_cases found : entries (KeyValue.key config.layout segment.data head) =
        some ⟨id, segment.tag, head⟩
    · rw [if_pos found] at left
      rcases List.mem_cons.mp inside with rfl | behind
      · have before := entries_of_clearFrom _ _ left
        rw [named, Function.update_self] at before
        cases before
      · exact later _ _ left start behind named same
    · rw [if_neg found] at left
      rcases List.mem_cons.mp inside with rfl | behind
      · have before := entries_of_clearFrom _ _ left
        rw [named, before, same] at found
        exact found rfl
      · exact later _ _ left start behind named same

end Clear

/-! ### Runs -/

/-- Every segment is in order, and an entry leads to an item of its key in the present incarnation. -/
structure Inv (config : Config) (store : Store) : Prop where
  sound : ∀ id, Sound config (store.segment id)
  named : ∀ key location, store.entries key = some location →
    location.tag = (store.segment location.segment).tag ∧
      location.offset ∈ (store.segment location.segment).starts ∧
      KeyValue.key config.layout (store.segment location.segment).data location.offset = key

section Steps

variable {config : Config} {store after : Store} {id : SegId}

theorem inv_new (config : Config) (data : SegId → Memory) : Inv config (Store.new config data) where
  sound _ :=
    { tiled := rfl
      room := (@Sound.reset config
        ⟨fun _ => 0, config.initialOffset, 0, config.initialOffset, 0, []⟩).room
      formed := fun _ no => by cases no }
  named _ _ no := by cases no

/-- A segment changes, and its items stay intact. -/
theorem Inv.setSegment (inv : Inv config store) {segment : ByteSegment} (sound : Sound config segment)
    (generation : segment.generation = (store.segment id).generation)
    (keeps : ∀ offset ∈ (store.segment id).starts, offset ∈ segment.starts)
    (intact : ∀ offset ∈ (store.segment id).starts,
      Intact config.layout (store.segment id).data segment.data offset) :
    Inv config (store.setSegment id segment) where
  sound other := by
    by_cases same : other = id
    · rw [same, Store.setSegment_self]
      exact sound
    · rw [Store.setSegment_of_ne _ same]
      exact inv.sound other
  named key location found := by
    obtain ⟨tag, inside, named⟩ := inv.named key location found
    by_cases same : location.segment = id
    · rw [same] at tag inside named ⊢
      rw [Store.setSegment_self]
      refine ⟨tag.trans ?_, keeps _ inside, (intact _ inside).key.trans named⟩
      unfold ByteSegment.tag
      rw [generation]
    · rw [Store.setSegment_of_ne _ same]
      exact ⟨tag, inside, named⟩

/-- An item changes in place. -/
theorem Inv.alter (inv : Inv config store) {segment : ByteSegment}
    (starts : segment.starts = (store.segment id).starts)
    (writeOffset : segment.writeOffset = (store.segment id).writeOffset)
    (generation : segment.generation = (store.segment id).generation)
    (intact : ∀ offset ∈ (store.segment id).starts,
      Intact config.layout (store.segment id).data segment.data offset) :
    Inv config (store.setSegment id segment) :=
  inv.setSegment ((inv.sound id).alter starts writeOffset intact) generation
    (fun _ inside => starts ▸ inside) intact

theorem Inv.setEntry_none (inv : Inv config store) (key : Bytes) :
    Inv config (store.setEntry key none) where
  sound := inv.sound
  named other location found := by
    have found : Function.update store.entries key none other = some location := found
    by_cases same : other = key
    · rw [same, Function.update_self] at found
      cases found
    · rw [Function.update_of_ne same] at found
      exact inv.named other location found

/-- A key is led to an item of its own. -/
theorem Inv.setEntry_some (inv : Inv config store) {key : Bytes} {offset : Nat}
    {location : Location} (inside : offset ∈ (store.segment id).starts)
    (named : KeyValue.key config.layout (store.segment id).data offset = key)
    (there : location = store.locationAt id offset) :
    Inv config (store.setEntry key (some location)) where
  sound := inv.sound
  named other location' found := by
    have found : Function.update store.entries key (some location) other = some location' := found
    by_cases same : other = key
    · rw [same, Function.update_self] at found
      cases found
      rw [there]
      exact ⟨rfl, inside, named.trans same.symm⟩
    · rw [Function.update_of_ne same] at found
      exact inv.named other location' found

/-- The item behind a copy is the item copied, and nothing before it has changed. -/
theorem copied_item {source target : ByteSegment} {offset : Nat} (version : Nat)
    (formed : WellFormed config.layout source.data offset) :
    (WellFormed config.layout (copied config source target offset version) target.writeOffset ∧
      KeyValue.size config.layout (copied config source target offset version) target.writeOffset =
        KeyValue.size config.layout source.data offset ∧
      KeyValue.key config.layout (copied config source target offset version) target.writeOffset =
        KeyValue.key config.layout source.data offset) ∧
    ∀ address < target.writeOffset,
      copied config source target offset version address = target.data address := by
  have length := Memory.length_read source.data offset (KeyValue.size config.layout source.data offset)
  obtain ⟨item, size, written⟩ := @KeyValue.item_congr config.layout source.data
    (target.data.write target.writeOffset
      (source.data.read offset (KeyValue.size config.layout source.data offset)))
    offset target.writeOffset formed (fun i below => by
      rw [Memory.write_inside (by rwa [length])]
      simp [Memory.read])
  have key := congrArg KeyValue.Item.key item
  unfold copied
  dsimp only
  split
  · have stamped := intact_setVersion written version
    refine ⟨⟨stamped.formed, stamped.size.trans size, stamped.key.trans key⟩, fun address below => ?_⟩
    have above := KeyValue.header_le_valueOffset config.layout (target.data.write target.writeOffset
      (source.data.read offset (KeyValue.size config.layout source.data offset))) target.writeOffset
    exact (Memory.write_of_lt (by omega)).trans (Memory.write_of_lt below)
  · exact ⟨⟨written, size, key⟩, fun address below => Memory.write_of_lt below⟩

/-- **Every action keeps the invariant.** -/
theorem Inv.step (inv : Inv config store) (action : Action)
    (taken : apply config store action = some after) : Inv config after := by
  cases action with
  | reserve id key value optional =>
    unfold apply at taken
    dsimp only at taken
    split at taken
    case isFalse => cases taken
    case isTrue able =>
      cases taken
      obtain ⟨⟨nonempty, klen⟩, ⟨olen, vlen⟩, room⟩ := able
      have fits : Fits key value optional := ⟨klen, vlen, olen⟩
      have sound := inv.sound id
      have intact := sound.intact_above fun address below =>
        @KeyValue.define_outside config.layout _ _ _ _ fits (store.segment id).data _ (.inl below)
      refine inv.setSegment (sound.extend rfl intact ?_ ?_ room) rfl
        (fun _ inside => List.mem_append_left _ inside) intact
      · exact KeyValue.wellFormed_define fits (fun none => by simp [none] at nonempty) _ _
      · exact congrArg ((store.segment id).writeOffset + ·) (KeyValue.size_define fits _ _).symm
  | publish id offset =>
    unfold apply at taken
    dsimp only at taken
    split at taken
    · cases taken
      exact inv.setEntry_some ‹_› rfl rfl
    · cases taken
  | unlink key =>
    cases taken
    exact inv.setEntry_none key
  | account id offset =>
    unfold apply at taken
    dsimp only at taken
    split at taken
    · cases taken
      exact inv.alter rfl rfl rfl fun offset inside =>
        intact_of_same ((inv.sound id).formed offset inside) fun _ _ => rfl
    · cases taken
  | setDeleted id offset =>
    unfold apply at taken
    dsimp only at taken
    split at taken
    case isFalse => cases taken
    case isTrue inside =>
      cases taken
      have formed := (inv.sound id).formed offset inside
      exact inv.alter rfl rfl rfl ((inv.sound id).intact_inside inside (intact_setDeleted formed)
        fun _ outside => setDeleted_outside outside)
  | update id offset number version =>
    unfold apply at taken
    dsimp only at taken
    split at taken
    case isFalse => cases taken
    case isTrue able =>
      cases taken
      obtain ⟨inside, numeric⟩ := able
      have formed := (inv.sound id).formed offset inside
      have valued := intact_setValue formed number
      obtain ⟨-, still, -⟩ := KeyValue.layout_write config.layout (store.segment id).data offset
        (KeyValue.valueOffset config.layout (store.segment id).data offset)
        (KeyValue.leBytes 8 number.toNat) (KeyValue.header_le_valueOffset ..)
      refine inv.alter rfl rfl rfl ((inv.sound id).intact_inside inside
        (valued.trans (intact_setVersion valued.formed version)) fun address outside => ?_)
      exact (setVersion_outside valued.formed (still.trans numeric) (valued.size.symm ▸ outside)).trans
        (setValue_outside formed numeric outside)
  | copy source offset target version relinked =>
    unfold apply at taken
    dsimp only at taken
    split at taken
    case isFalse => cases taken
    case isTrue able =>
      obtain ⟨different, inside, -, room⟩ := able
      obtain ⟨⟨formed, size, key⟩, below⟩ := @copied_item config (store.segment source)
        (store.segment target) offset version ((inv.sound source).formed offset inside)
      have intact := (inv.sound target).intact_above below
      cases relinked with
      | false =>
        cases taken
        exact inv.alter rfl rfl rfl intact
      | true =>
        cases taken
        have left := @Inv.alter config store source inv ((store.segment source).removed
          (KeyValue.size config.layout (store.segment source).data offset)) rfl rfl rfl
          fun offset inside => intact_of_same ((inv.sound source).formed offset inside) fun _ _ => rfl
        have same := Store.setSegment_of_ne store different.symm ((store.segment source).removed
          (KeyValue.size config.layout (store.segment source).data offset))
        have filled := @Inv.setSegment config _ target left ((store.segment target).added
            (copied config (store.segment source) (store.segment target) offset version)
            (KeyValue.size config.layout (store.segment source).data offset))
          ((inv.sound target).extend rfl intact formed
            (congrArg ((store.segment target).writeOffset + ·) size.symm) room.le)
          (by rw [same]; rfl) (by rw [same]; exact fun _ inside => List.mem_append_left _ inside)
          (by rw [same]; exact intact)
        refine @Inv.setEntry_some config _ target filled _ (store.segment target).writeOffset _ ?_ ?_ ?_
        · rw [Store.setSegment_self]
          exact List.mem_append_right _ (List.mem_singleton_self _)
        · rw [Store.setSegment_self]
          exact key
        · unfold Store.locationAt
          rw [Store.setSegment_self]
          rfl
  | reset id =>
    cases taken
    have sound := inv.sound id
    refine ⟨fun other => ?_, fun key location found => ?_⟩
    · show Sound config ((store.setSegment id _).segment other)
      by_cases same : other = id
      · rw [same, Store.setSegment_self]
        exact Sound.reset _
      · rw [Store.setSegment_of_ne _ same]
        exact inv.sound other
    · show location.tag = ((store.setSegment id _).segment location.segment).tag ∧
        location.offset ∈ ((store.setSegment id _).segment location.segment).starts ∧ _
      obtain ⟨tag, inside, named⟩ := inv.named key location (entries_of_clearFrom _ _ found)
      have elsewhere : location.segment ≠ id := by
        intro same
        rw [same] at tag inside named
        refine unnamed_of_clearFrom sound.tiled (fun start inside => (sound.limits inside).1)
          sound.formed _ found _ inside named ?_
        exact Location.ext same tag rfl
      show _ ∧ _ ∧ KeyValue.key _ ((store.setSegment id _).segment location.segment).data _ = _
      rw [Store.setSegment_of_ne _ elsewhere]
      exact ⟨tag, inside, named⟩

/-- **Every run keeps the invariant.** -/
theorem Reachable.inv (reachable : Reachable config store) : Inv config store := by
  induction reachable with
  | start data => exact inv_new config data
  | step action _ taken ih => exact ih.step action taken

end Steps

/-- What the scans of a segment come to. -/
structure Walked (config : Config) (store : Store) (id : SegId) : Prop where
  /-- The items of the present incarnation, in order and each once. -/
  visits : (store.segment id).starts ≠ [] →
    (store.segment id).scan config = (store.segment id).starts
  ordered : (store.segment id).starts.Pairwise (· < ·)
  /-- The scans' own test for an end never holds at an item. -/
  named : ∀ offset ∈ (store.segment id).starts,
    0 < KeyValue.klen config.layout (store.segment id).data offset
  /-- The header, the key and the whole of each item lie before the write offset. -/
  reads : ∀ offset ∈ (store.segment id).starts,
    offset + config.layout.headerSize ≤ (store.segment id).writeOffset ∧
      KeyValue.keyOffset config.layout (store.segment id).data offset +
        KeyValue.klen config.layout (store.segment id).data offset ≤ (store.segment id).writeOffset ∧
      offset + KeyValue.size config.layout (store.segment id).data offset ≤
        (store.segment id).writeOffset
  /-- In an empty incarnation one offset is inspected, and no entry leads there. -/
  empty : (store.segment id).starts = [] →
    (store.segment id).scan config = [config.initialOffset] ∧
      ∀ key, store.entries key ≠ some (store.locationAt id config.initialOffset)

theorem Inv.walked {config : Config} {store : Store} (inv : Inv config store) (id : SegId) :
    Walked config store id where
  visits := (inv.sound id).scan_eq
  ordered := (inv.sound id).tiled.pairwise_lt ((store.segment id).size_pos config)
  named offset inside := ((inv.sound id).formed offset inside).klen_pos
  reads offset inside := (inv.sound id).reads inside
  empty none := by
    refine ⟨(inv.sound id).scan_empty none, fun key found => ?_⟩
    obtain ⟨-, inside, -⟩ := inv.named key _ found
    have inside : config.initialOffset ∈ (store.segment id).starts := inside
    rw [none] at inside
    cases inside

/-- **A scan comes to the items**, and an item takes the bytes reserved for it. -/
theorem walk_exact (config : Config) :
    (∀ store, Reachable config store → ∀ id, Walked config store id) ∧
    ∀ (memory : Memory) (start : Nat) (key : Bytes) (value : Value) (optional : Bytes),
      Fits key value optional →
      config.layout.itemSize key.length value optional.length =
          KeyValue.size config.layout
            (KeyValue.define config.layout memory start key value optional) start ∧
        8 ≤ config.layout.itemSize key.length value optional.length ∧
        config.layout.itemSize key.length value optional.length % 8 = 0 := by
  refine ⟨fun store reachable id => reachable.inv.walked id,
    fun memory start key value optional fits => ?_⟩
  have size := @KeyValue.size_define config.layout _ _ _ fits memory start
  rw [← size]
  exact ⟨rfl, KeyValue.eight_le_size, KeyValue.size_mod_eight⟩

/-- One published item in a segment of 32 bytes that held something else before. -/
theorem walk_exact_one : ∃ store, Reachable (Config.small false .random 1) store ∧
    (store.segment 1).starts = [0] ∧ Walked (Config.small false .random 1) store 1 := by
  have taken : (((apply (Config.small false .random 1)
      (Store.new (Config.small false .random 1) fun _ _ => 255)
      (.reserve 1 [1] (.bytes [2]) [])).bind fun store =>
        apply (Config.small false .random 1) store (.publish 1 0)).any fun store =>
          (store.segment 1).starts = [0]) = true := by decide +kernel
  obtain ⟨store, both, starts⟩ := (Option.any_eq_true _ _).mp taken
  obtain ⟨reserved, first, second⟩ := Option.bind_eq_some_iff.mp both
  have published := ((Reachable.start _).step _ first).step _ second
  exact ⟨store, published, of_decide_eq_true starts,
    (walk_exact (Config.small false .random 1)).1 store published 1⟩

end CacheRs.Segcache.SegmentBytes
