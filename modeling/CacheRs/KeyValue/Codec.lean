/-
**The round trip of an inserted item.**

An insert reserves room for the lengths it was given and writes the item there; the header keeps the
lengths in eight and six bits. Nothing on the way checks that they fit.

* `decodes_iff`: **an accepted item is read back exactly when its key has at most 255 bytes and its
  optional data at most 63**;
* `long_key_lost`: a key of 256 bytes is accepted, and read back as the empty key.
-/

import CacheRs.KeyValue.RawItem

namespace CacheRs.KeyValue

/-- `Location::MAX_SEGMENT_BYTES`. -/
def maxSegmentBytes : Nat := 2 ^ 23

/-- `reserve_and_define`, at the offset that the reservation found: the item is refused if no
segment can hold it, and else written as it is. -/
def reserveAndDefine (layout : Layout) (segmentSize : Nat) (memory : Memory) (start : Nat)
    (key : Bytes) (value : Value) (optional : Bytes) : Option Memory :=
  if segmentSize < layout.itemSize key.length value optional.length then none
  else some (define layout memory start key value optional)

/-- The item at `start` decodes to what was inserted, in the size that was reserved, and nothing
else was written. -/
structure Decodes (layout : Layout) (before after : Memory) (start : Nat) (itemKey : Bytes)
    (itemValue : Value) (itemOptional : Bytes) : Prop where
  key : key layout after start = itemKey
  value : value layout after start = itemValue
  optional : optional layout after start = itemOptional
  size : size layout after start =
    layout.itemSize itemKey.length itemValue itemOptional.length
  frame : ∀ address, (address < start ∨
    start + layout.itemSize itemKey.length itemValue itemOptional.length ≤ address) →
    after address = before address

section Codec

variable {layout : Layout} {memory after : Memory} {start : Nat} {itemKey itemOptional : Bytes}
  {itemValue : Value}

theorem value_length_lt_itemSize :
    itemValue.length < layout.itemSize itemKey.length itemValue itemOptional.length := by
  unfold Layout.itemSize
  rw [Layout.itemSizeFor_eq]
  omega

theorem decodes_define (fits : Fits itemKey itemValue itemOptional) :
    Decodes layout memory (define layout memory start itemKey itemValue itemOptional) start itemKey
      itemValue itemOptional where
  key := congrArg Item.key (itemAt_define fits memory start)
  value := congrArg Item.value (itemAt_define fits memory start)
  optional := congrArg Item.optional (itemAt_define fits memory start)
  size := size_define fits memory start
  frame _ outside := define_outside fits memory outside

/-- An item that decodes has the lengths its header can hold. -/
theorem Decodes.lengths
    (decodes : Decodes layout memory (define layout memory start itemKey itemValue itemOptional)
      start itemKey itemValue itemOptional) :
    itemKey.length ≤ 255 ∧ itemOptional.length ≤ 63 := by
  have headed := headed_define layout memory start itemKey itemValue itemOptional
  have keyLength := congrArg List.length decodes.key
  have optionalLength := congrArg List.length decodes.optional
  rw [KeyValue.key, Memory.length_read, headed.klen] at keyLength
  rw [KeyValue.optional, Memory.length_read, headed.olen] at optionalLength
  omega

/-- **An accepted item is read back exactly when its lengths fit the header.** -/
theorem decodes_iff (segmentSize : Nat) (limit : segmentSize ≤ maxSegmentBytes)
    (accepted : reserveAndDefine layout segmentSize memory start itemKey itemValue itemOptional =
      some after) :
    Decodes layout memory after start itemKey itemValue itemOptional ↔
      itemKey.length ≤ 255 ∧ itemOptional.length ≤ 63 := by
  unfold reserveAndDefine at accepted
  split at accepted
  · cases accepted
  · rename_i small
    obtain rfl := Option.some.inj accepted
    refine ⟨Decodes.lengths, fun lengths => decodes_define ⟨lengths.1, ?_, lengths.2⟩⟩
    have := @value_length_lt_itemSize layout itemKey itemOptional itemValue
    unfold maxSegmentBytes at limit
    omega

/-- A numeric item with optional data, in a segment of 4096 bytes. -/
theorem decodes_iff_numeric :
    Decodes ⟨false⟩ (fun _ => 0) (define ⟨false⟩ (fun _ => 0) 64 [107, 101, 121] (.u64 7) [1, 2]) 64
        [107, 101, 121] (.u64 7) [1, 2] ↔
      [(107 : UInt8), 101, 121].length ≤ 255 ∧ [(1 : UInt8), 2].length ≤ 63 :=
  decodes_iff 4096 (by decide) (if_neg (by decide))

end Codec

/-- **A key of 256 bytes** is accepted by a default segment, and read back as the empty key. -/
theorem long_key_lost :
    (reserveAndDefine ⟨false⟩ 1048576 (fun _ => 0) 0 (List.replicate 256 107) (.bytes [118]) []).map
      (fun after => key ⟨false⟩ after 0) = some [] := by
  decide +kernel

end CacheRs.KeyValue
