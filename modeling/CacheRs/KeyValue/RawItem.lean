/-
**The raw item layout.**

An item is a run of bytes in a segment: a header (key length, a flag byte with the optional length,
the numeric and the deleted bit, the value length), the optional data, the key and the value. A
numeric value is padded to eight bytes and followed by its version word.

* `define`, `itemAt`, `size`: writing an item and reading one back;
* `itemAt_define`, `size_define`: **what was written is what is read**, in the size reserved for it;
* `item_congr`: an item is determined by its `size` bytes, wherever they lie;
* `itemAt_setVersion`, `itemAt_setValue`: the in-place updates.

The magic bytes and the checksum of the `integrity` feature are left out, their room in the header
is not. Words are little-endian.
-/

import CacheRs.KeyValue.Memory

namespace CacheRs.KeyValue

/-! ### The layout -/

/-- What the build fixes of the layout. -/
structure Layout where
  /-- The `integrity` feature: a longer header. -/
  integrity : Bool
  deriving DecidableEq, Repr

namespace Layout

variable (layout : Layout)

/-- `ITEM_HDR_SIZE`. -/
def headerSize : Nat := if layout.integrity then 12 else 6

/-- Where the key length lies in the header. -/
def fieldOffset : Nat := if layout.integrity then 2 else 0

theorem fieldOffset_add_le : layout.fieldOffset + 6 ≤ layout.headerSize := by
  unfold fieldOffset headerSize
  split <;> omega

def numericValuePad (klen olen : Nat) : Nat := (8 - (layout.headerSize + olen + klen) % 8) % 8

/-- `item_size_for`. -/
def itemSizeFor (klen olen extra vlen : Nat) : Nat :=
  (((layout.headerSize + olen + klen + extra + vlen) >>> 3) + 1) <<< 3

/-- The bytes to reserve for an item. -/
def itemSize (klen : Nat) (value : Value) (olen : Nat) : Nat :=
  let extra := match value with
    | .u64 _ => layout.numericValuePad klen olen + 8
    | .bytes _ => 0
  layout.itemSizeFor klen olen extra value.length

theorem itemSizeFor_eq (klen olen extra vlen : Nat) :
    layout.itemSizeFor klen olen extra vlen =
      ((layout.headerSize + olen + klen + extra + vlen) / 8 + 1) * 8 := by
  rw [itemSizeFor, Nat.shiftRight_eq_div_pow, Nat.shiftLeft_eq]

end Layout

def numericMask : UInt8 := 0x80

def deleteMask : UInt8 := 0x40

def olenMask : UInt8 := 0x3F

/-- An item as its reader sees it. -/
@[ext] structure Item where
  key : Bytes
  value : Value
  optional : Bytes
  /-- The version word of a numeric item. -/
  version : Nat
  deleted : Bool
  deriving DecidableEq, Repr

section RawItem

variable (layout : Layout) (memory : Memory) (start : Nat)

def klen : Nat := (memory (start + layout.fieldOffset)).toNat

def flags : UInt8 := memory (start + layout.fieldOffset + 1)

def vlen : Nat := leNat (memory.read (start + layout.fieldOffset + 2) 4)

def olen : Nat := (flags layout memory start &&& olenMask).toNat

def isNumeric : Bool := flags layout memory start &&& numericMask ≠ 0

def isDeleted : Bool := flags layout memory start &&& deleteMask ≠ 0

def optionalOffset : Nat := start + layout.headerSize

def keyOffset : Nat := optionalOffset layout start + olen layout memory start

def valueOffset : Nat :=
  let unpadded := keyOffset layout memory start + klen layout memory start
  if isNumeric layout memory start then
    unpadded + layout.numericValuePad (klen layout memory start) (olen layout memory start)
  else unpadded

def key : Bytes := memory.read (keyOffset layout memory start) (klen layout memory start)

/-- The optional data, empty when there is none. -/
def optional : Bytes := memory.read (optionalOffset layout start) (olen layout memory start)

def versionWord : Nat := leNat (memory.read (valueOffset layout memory start + 8) 8)

def value : Value :=
  if isNumeric layout memory start then
    .u64 (UInt64.ofNat (leNat (memory.read (valueOffset layout memory start) 8)))
  else .bytes (memory.read (valueOffset layout memory start) (vlen layout memory start))

/-- The bytes the item takes, with its alignment padding. -/
def size : Nat :=
  let extra := if isNumeric layout memory start then
    layout.numericValuePad (klen layout memory start) (olen layout memory start) + 8 else 0
  layout.itemSizeFor (klen layout memory start) (olen layout memory start) extra
    (vlen layout memory start)

def itemAt : Item where
  key := key layout memory start
  value := value layout memory start
  optional := optional layout memory start
  version := if isNumeric layout memory start then versionWord layout memory start else 0
  deleted := isDeleted layout memory start

/-- The flag byte of a new item. -/
def flagByte (optionalLength : Nat) (numeric : Bool) : UInt8 :=
  (UInt8.ofNat optionalLength &&& olenMask) ||| (if numeric then numericMask else 0)

/-- The header fields of a new item: the lengths are narrowed to their fields. -/
def headerBytes (key : Bytes) (value : Value) (optional : Bytes) : Bytes :=
  UInt8.ofNat key.length :: flagByte optional.length value.isU64 :: leBytes 4 value.length

/-- Write the value where the header, already written, places it. -/
def writeValue (key optional : Bytes) : Value → Memory
  | .bytes bytes => memory.write (valueOffset layout memory start) bytes
  | .u64 number =>
    let pad := layout.numericValuePad key.length optional.length
    ((memory.write (keyOffset layout memory start + key.length) (List.replicate pad 0)).write
      (valueOffset layout memory start) (leBytes 8 number.toNat)).write
      (valueOffset layout memory start + 8) (leBytes 8 0)

/-- Write a new item. -/
def define (key : Bytes) (value : Value) (optional : Bytes) : Memory :=
  let memory := memory.write (start + layout.fieldOffset) (headerBytes key value optional)
  let memory := memory.write (optionalOffset layout start) optional
  let memory := memory.write (keyOffset layout memory start) key
  writeValue layout memory start key optional value

def setVersion (version : Nat) : Memory :=
  memory.write (valueOffset layout memory start + 8) (leBytes 8 version)

def setValue (number : UInt64) : Memory :=
  memory.write (valueOffset layout memory start) (leBytes 8 number.toNat)

def setDeleted : Memory :=
  memory.write (start + layout.fieldOffset + 1) [flags layout memory start ||| deleteMask]

end RawItem

/-! ### The flag byte -/

/-- A flag byte sees an optional length only modulo 256. -/
theorem flagByte_mod (length : Nat) (numeric : Bool) :
    flagByte length numeric = flagByte (length % 256) numeric := by
  have same : UInt8.ofNat length = UInt8.ofNat (length % 256) := by
    apply UInt8.toNat.inj
    simp
  rw [flagByte, flagByte, same]

/-- The flag byte keeps six bits of the optional length. -/
theorem flagByte_olen (length : Nat) (numeric : Bool) :
    (flagByte length numeric &&& olenMask).toNat = length % 64 := by
  have all : ∀ length : Fin 256, ∀ numeric : Bool,
      (flagByte length numeric &&& olenMask).toNat = length % 64 := by decide +kernel
  have := all ⟨length % 256, Nat.mod_lt _ (by decide)⟩ numeric
  rw [flagByte_mod, this]
  exact Nat.mod_mod_of_dvd _ (by decide)

theorem flagByte_numeric (length : Nat) (numeric : Bool) :
    decide (flagByte length numeric &&& numericMask ≠ 0) = numeric := by
  have all : ∀ length : Fin 256, ∀ numeric : Bool,
      decide (flagByte length numeric &&& numericMask ≠ 0) = numeric := by decide +kernel
  rw [flagByte_mod]
  exact all ⟨length % 256, Nat.mod_lt _ (by decide)⟩ numeric

theorem flagByte_deleted (length : Nat) (numeric : Bool) :
    flagByte length numeric &&& deleteMask = 0 := by
  have all : ∀ length : Fin 256, ∀ numeric : Bool,
      flagByte length numeric &&& deleteMask = 0 := by decide +kernel
  rw [flagByte_mod]
  exact all ⟨length % 256, Nat.mod_lt _ (by decide)⟩ numeric

/-- Setting the deleted bit touches no other. -/
theorem or_deleteMask (byte : UInt8) :
    (byte ||| deleteMask) &&& olenMask = byte &&& olenMask ∧
      (byte ||| deleteMask) &&& numericMask = byte &&& numericMask ∧
      (byte ||| deleteMask) &&& deleteMask ≠ 0 := by
  have all : ∀ bits : BitVec 8, ((UInt8.ofBitVec bits ||| deleteMask) &&& olenMask =
      UInt8.ofBitVec bits &&& olenMask) ∧ ((UInt8.ofBitVec bits ||| deleteMask) &&& numericMask =
      UInt8.ofBitVec bits &&& numericMask) ∧
      (UInt8.ofBitVec bits ||| deleteMask) &&& deleteMask ≠ 0 := by decide +kernel
  exact all byte.toBitVec

section Spec

variable {layout : Layout} {memory other : Memory} {start otherStart : Nat}

theorem size_eq : size layout memory start =
    ((layout.headerSize + olen layout memory start + klen layout memory start +
      (if isNumeric layout memory start then
        layout.numericValuePad (klen layout memory start) (olen layout memory start) + 8 else 0) +
      vlen layout memory start) / 8 + 1) * 8 :=
  layout.itemSizeFor_eq ..

theorem eight_le_size : 8 ≤ size layout memory start := by
  rw [size_eq]
  omega

theorem size_mod_eight : size layout memory start % 8 = 0 := by
  rw [size_eq]
  exact Nat.mul_mod_left _ _

/-- An item the walk of a segment can step over and a reader can read. -/
structure WellFormed (layout : Layout) (memory : Memory) (start : Nat) : Prop where
  klen_pos : 0 < klen layout memory start
  numeric : isNumeric layout memory start = true → vlen layout memory start = 8

/-- Where each part of an item ends. -/
theorem WellFormed.ends (well : WellFormed layout memory start) :
    start + layout.headerSize + olen layout memory start + klen layout memory start ≤
      valueOffset layout memory start ∧
    valueOffset layout memory start +
      (if isNumeric layout memory start then 16 else vlen layout memory start) <
      start + size layout memory start := by
  rw [size_eq]
  unfold valueOffset keyOffset optionalOffset
  cases numeric : isNumeric layout memory start with
  | false => simp; omega
  | true =>
    have := well.numeric numeric
    simp
    omega

/-- The header's own bytes fix its fields. -/
theorem header_congr
    (same : ∀ i < layout.headerSize, other (otherStart + i) = memory (start + i)) :
    klen layout other otherStart = klen layout memory start ∧
      flags layout other otherStart = flags layout memory start ∧
      vlen layout other otherStart = vlen layout memory start := by
  have room := layout.fieldOffset_add_le
  refine ⟨congrArg UInt8.toNat (same _ (by omega)), ?_, ?_⟩
  · simpa only [flags, Nat.add_assoc] using same (layout.fieldOffset + 1) (by omega)
  · refine congrArg leNat (Memory.read_congr fun i inside => ?_)
    simpa only [Nat.add_assoc] using same (layout.fieldOffset + 2 + i) (by omega)

/-- Equal flags and lengths give equal offsets, relative to the start. -/
theorem layout_congr (sameKlen : klen layout other otherStart = klen layout memory start)
    (sameFlags : flags layout other otherStart = flags layout memory start)
    (sameVlen : vlen layout other otherStart = vlen layout memory start) :
    olen layout other otherStart = olen layout memory start ∧
      isNumeric layout other otherStart = isNumeric layout memory start ∧
      isDeleted layout other otherStart = isDeleted layout memory start ∧
      size layout other otherStart = size layout memory start ∧
      valueOffset layout other otherStart + start = valueOffset layout memory start + otherStart := by
  have sameOlen : olen layout other otherStart = olen layout memory start := by
    rw [olen, olen, sameFlags]
  have sameNumeric : isNumeric layout other otherStart = isNumeric layout memory start := by
    rw [isNumeric, isNumeric, sameFlags]
  refine ⟨sameOlen, sameNumeric, ?_, ?_, ?_⟩
  · rw [isDeleted, isDeleted, sameFlags]
  · rw [size, size, sameKlen, sameOlen, sameNumeric, sameVlen]
  · simp only [valueOffset, keyOffset, optionalOffset, sameKlen, sameOlen, sameNumeric]
    split <;> omega

/-- **An item is determined by its bytes**, wherever they lie. -/
theorem item_congr (well : WellFormed layout memory start)
    (same : ∀ i < size layout memory start, other (otherStart + i) = memory (start + i)) :
    itemAt layout other otherStart = itemAt layout memory start ∧
      size layout other otherStart = size layout memory start ∧
      WellFormed layout other otherStart := by
  obtain ⟨keyEnd, valueEnd⟩ := well.ends
  have header : layout.headerSize ≤ size layout memory start := by
    have : layout.headerSize ≤ 12 := by unfold Layout.headerSize; split <;> omega
    split at valueEnd <;> omega
  obtain ⟨sameKlen, sameFlags, sameVlen⟩ :=
    header_congr fun i inside => same i (Nat.lt_of_lt_of_le inside header)
  obtain ⟨sameOlen, sameNumeric, sameDeleted, sameSize, shift⟩ :=
    layout_congr sameKlen sameFlags sameVlen
  -- a part of the item that lies inside its bytes reads alike
  have part : ∀ offset otherOffset length, start ≤ offset →
      offset + otherStart = otherOffset + start →
      offset + length ≤ start + size layout memory start →
      other.read otherOffset length = memory.read offset length := by
    intro offset otherOffset length above moved inside
    refine Memory.read_congr fun i below => ?_
    have := same (offset - start + i) (by omega)
    rwa [show otherStart + (offset - start + i) = otherOffset + i by omega,
      show start + (offset - start + i) = offset + i by omega] at this
  have numericEnd : isNumeric layout memory start = true →
      valueOffset layout memory start + 16 < start + size layout memory start := by
    intro numeric
    simpa [numeric] using valueEnd
  refine ⟨Item.ext ?_ ?_ ?_ ?_ sameDeleted, sameSize, ?_⟩
  · show other.read _ _ = memory.read _ _
    rw [sameKlen]
    refine part _ _ _ ?_ ?_ ?_ <;> unfold keyOffset optionalOffset <;> omega
  · show value layout other otherStart = value layout memory start
    unfold value
    rw [sameNumeric]
    cases numeric : isNumeric layout memory start with
    | false =>
      simp only [numeric, Bool.false_eq_true, if_false] at valueEnd ⊢
      rw [sameVlen, part (valueOffset layout memory start) (valueOffset layout other otherStart) _
        (by omega) (by omega) (by omega)]
    | true =>
      have := numericEnd numeric
      simp only [if_true]
      rw [part (valueOffset layout memory start) (valueOffset layout other otherStart) 8
        (by omega) (by omega) (by omega)]
  · show other.read _ _ = memory.read _ _
    rw [sameOlen]
    refine part _ _ _ ?_ ?_ ?_ <;> unfold optionalOffset <;> omega
  · show (if isNumeric layout other otherStart then _ else _) =
      if isNumeric layout memory start then _ else _
    rw [sameNumeric]
    cases numeric : isNumeric layout memory start with
    | false => rfl
    | true =>
      have := numericEnd numeric
      simp only [if_true]
      unfold versionWord
      rw [part (valueOffset layout memory start + 8) (valueOffset layout other otherStart + 8) 8
        (by omega) (by omega) (by omega)]
  · exact ⟨sameKlen.symm ▸ well.klen_pos, fun numeric =>
      sameVlen.trans (well.numeric (sameNumeric.symm.trans numeric))⟩

end Spec

/-! ### Writing an item and reading it back -/

section Define

variable {layout : Layout} {memory : Memory} {start : Nat}

/-- Writes above the header leave it alone. -/
theorem header_write (layout : Layout) (memory : Memory) (start : Nat) (address : Nat)
    (bytes : Bytes) (above : start + layout.headerSize ≤ address) :
    klen layout (memory.write address bytes) start = klen layout memory start ∧
      flags layout (memory.write address bytes) start = flags layout memory start ∧
      vlen layout (memory.write address bytes) start = vlen layout memory start :=
  header_congr fun _ inside => Memory.write_of_lt (by omega)

/-- A memory whose header describes this item. -/
structure Headed (layout : Layout) (memory : Memory) (start : Nat) (itemKey : Bytes)
    (itemValue : Value) (itemOptional : Bytes) : Prop where
  klen : klen layout memory start = itemKey.length % 256
  flags : flags layout memory start = flagByte itemOptional.length itemValue.isU64
  vlen : vlen layout memory start = itemValue.length % 2 ^ 32

variable {itemKey itemOptional : Bytes} {itemValue : Value}

theorem Headed.write (headed : Headed layout memory start itemKey itemValue itemOptional)
    (address : Nat) (bytes : Bytes) (above : start + layout.headerSize ≤ address) :
    Headed layout (memory.write address bytes) start itemKey itemValue itemOptional := by
  obtain ⟨sameKlen, sameFlags, sameVlen⟩ := header_write layout memory start address bytes above
  exact ⟨sameKlen.trans headed.klen, sameFlags.trans headed.flags, sameVlen.trans headed.vlen⟩

theorem Headed.olen (headed : Headed layout memory start itemKey itemValue itemOptional) :
    olen layout memory start = itemOptional.length % 64 := by
  rw [KeyValue.olen, headed.flags, flagByte_olen]

theorem Headed.isNumeric (headed : Headed layout memory start itemKey itemValue itemOptional) :
    isNumeric layout memory start = itemValue.isU64 := by
  rw [KeyValue.isNumeric, headed.flags, flagByte_numeric]

theorem Headed.isDeleted (headed : Headed layout memory start itemKey itemValue itemOptional) :
    isDeleted layout memory start = false := by
  rw [KeyValue.isDeleted, headed.flags, flagByte_deleted]
  rfl

/-- Writing the header fields. -/
theorem headed_headerBytes (layout : Layout) (memory : Memory) (start : Nat) (itemKey : Bytes)
    (itemValue : Value) (itemOptional : Bytes) :
    Headed layout (memory.write (start + layout.fieldOffset)
      (headerBytes itemKey itemValue itemOptional)) start itemKey itemValue itemOptional := by
  have length : (headerBytes itemKey itemValue itemOptional).length = 6 := by simp [headerBytes]
  refine ⟨?_, ?_, ?_⟩
  · have byte := @Memory.write_inside memory (start + layout.fieldOffset)
      (headerBytes itemKey itemValue itemOptional) 0 (by omega)
    rw [Nat.add_zero] at byte
    rw [klen, byte]
    simp [headerBytes]
  · exact Memory.write_inside (i := 1) (by omega)
  · rw [vlen, Memory.read_write_slice (by omega), headerBytes, List.drop_succ_cons,
      List.drop_succ_cons, List.drop_zero, List.take_of_length_le (by simp), leNat_leBytes]
    rfl

theorem header_le_keyOffset (layout : Layout) (memory : Memory) (start : Nat) :
    start + layout.headerSize ≤ keyOffset layout memory start := by
  unfold keyOffset optionalOffset
  omega

theorem keyOffset_le_valueOffset (layout : Layout) (memory : Memory) (start : Nat) :
    keyOffset layout memory start + klen layout memory start ≤ valueOffset layout memory start := by
  unfold valueOffset
  simp only
  split
  · omega
  · omega

theorem header_le_valueOffset (layout : Layout) (memory : Memory) (start : Nat) :
    start + layout.headerSize ≤ valueOffset layout memory start := by
  have := header_le_keyOffset layout memory start
  have := keyOffset_le_valueOffset layout memory start
  omega

/-- **The header of a new item**, whatever lengths it was given. -/
theorem headed_define (layout : Layout) (memory : Memory) (start : Nat) (itemKey : Bytes)
    (itemValue : Value) (itemOptional : Bytes) :
    Headed layout (define layout memory start itemKey itemValue itemOptional) start itemKey
      itemValue itemOptional := by
  have header := headed_headerBytes layout memory start itemKey itemValue itemOptional
  have optional := header.write (optionalOffset layout start) itemOptional (Nat.le_refl _)
  unfold define
  simp only
  cases itemValue with
  | bytes bytes =>
    exact (optional.write _ _ (header_le_keyOffset ..)).write _ _ (header_le_valueOffset ..)
  | u64 number =>
    refine (((optional.write _ _ (header_le_keyOffset ..)).write _ _ ?_).write _ _
      (header_le_valueOffset ..)).write _ _ ?_
    · exact Nat.le_trans (header_le_keyOffset ..) (Nat.le_add_right ..)
    · exact Nat.le_trans (header_le_valueOffset ..) (Nat.le_add_right ..)

/-- What follows the key of an item. -/
def payload (layout : Layout) (klen olen : Nat) : Value → Bytes
  | .bytes bytes => bytes
  | .u64 number =>
    List.replicate (layout.numericValuePad klen olen) 0 ++ leBytes 8 number.toNat ++ leBytes 8 0

/-- The lengths an item's header can hold. -/
structure Fits (itemKey : Bytes) (itemValue : Value) (itemOptional : Bytes) : Prop where
  key : itemKey.length ≤ 255
  value : itemValue.length < 2 ^ 32
  optional : itemOptional.length ≤ 63

theorem Headed.offsets (headed : Headed layout memory start itemKey itemValue itemOptional)
    (fits : Fits itemKey itemValue itemOptional) :
    keyOffset layout memory start = start + layout.headerSize + itemOptional.length ∧
      valueOffset layout memory start = start + layout.headerSize + itemOptional.length +
        itemKey.length + if itemValue.isU64 then
          layout.numericValuePad itemKey.length itemOptional.length else 0 := by
  have key := fits.key
  have optional := fits.optional
  have sameKlen : KeyValue.klen layout memory start = itemKey.length := by
    rw [headed.klen, Nat.mod_eq_of_lt (by omega)]
  have sameOlen : KeyValue.olen layout memory start = itemOptional.length := by
    rw [headed.olen, Nat.mod_eq_of_lt (by omega)]
  have keyPlace : keyOffset layout memory start =
      start + layout.headerSize + itemOptional.length := by
    rw [keyOffset, optionalOffset, sameOlen]
  refine ⟨keyPlace, ?_⟩
  rw [valueOffset, keyPlace, headed.isNumeric, sameKlen, sameOlen]
  split <;> omega

/-- A new item that fits is its header and its body, each one run of bytes. -/
theorem define_eq (fits : Fits itemKey itemValue itemOptional) (memory : Memory) :
    define layout memory start itemKey itemValue itemOptional =
      (memory.write (start + layout.fieldOffset) (headerBytes itemKey itemValue itemOptional)).write
        (start + layout.headerSize)
        (itemOptional ++ itemKey ++ payload layout itemKey.length itemOptional.length itemValue) := by
  have header := headed_headerBytes layout memory start itemKey itemValue itemOptional
  have optional := header.write (optionalOffset layout start) itemOptional (Nat.le_refl _)
  have body := optional.write _ itemKey (header_le_keyOffset layout
    ((memory.write (start + layout.fieldOffset) (headerBytes itemKey itemValue itemOptional)).write
      (optionalOffset layout start) itemOptional) start)
  obtain ⟨keyPlace, _⟩ := optional.offsets fits
  obtain ⟨keyPlaceAfter, valuePlace⟩ := body.offsets fits
  unfold define
  simp only
  rw [keyPlace] at keyPlaceAfter valuePlace ⊢
  unfold optionalOffset at keyPlaceAfter valuePlace ⊢
  rw [← Memory.write_append (itemOptional ++ itemKey), ← Memory.write_append itemOptional,
    List.length_append]
  cases itemValue with
  | bytes bytes =>
    simp only [writeValue, payload]
    rw [valuePlace]
    simp [Value.isU64, Nat.add_assoc]
  | u64 number =>
    simp only [Value.isU64, if_true] at valuePlace
    simp only [writeValue, payload, keyPlaceAfter, valuePlace]
    rw [← Memory.write_append, ← Memory.write_append]
    simp [Nat.add_assoc]

/-- The size read back is the size reserved. -/
theorem size_define (fits : Fits itemKey itemValue itemOptional) (memory : Memory) (start : Nat) :
    size layout (define layout memory start itemKey itemValue itemOptional) start =
      layout.itemSize itemKey.length itemValue itemOptional.length := by
  have headed := headed_define layout memory start itemKey itemValue itemOptional
  have key := fits.key
  have optional := fits.optional
  rw [size, headed.klen, headed.olen, headed.vlen, headed.isNumeric, Nat.mod_eq_of_lt (by omega),
    Nat.mod_eq_of_lt (by omega), Nat.mod_eq_of_lt fits.value]
  cases itemValue with
  | bytes bytes => rfl
  | u64 number => rfl

/-- **What was written is what is read.** -/
theorem itemAt_define (fits : Fits itemKey itemValue itemOptional) (memory : Memory) (start : Nat) :
    itemAt layout (define layout memory start itemKey itemValue itemOptional) start =
      ⟨itemKey, itemValue, itemOptional, 0, false⟩ := by
  have headed := headed_define layout memory start itemKey itemValue itemOptional
  obtain ⟨keyPlace, valuePlace⟩ := headed.offsets fits
  have sameKlen := headed.klen
  have sameOlen := headed.olen
  have key := fits.key
  have optional := fits.optional
  rw [Nat.mod_eq_of_lt (by omega)] at sameKlen sameOlen
  -- each part is a slice of the body
  have part : ∀ offset length, offset + length ≤ (itemOptional ++ itemKey ++
      payload layout itemKey.length itemOptional.length itemValue).length →
      (define layout memory start itemKey itemValue itemOptional).read
        (start + layout.headerSize + offset) length =
      ((itemOptional ++ itemKey ++ payload layout itemKey.length itemOptional.length
        itemValue).drop offset).take length := by
    intro offset length inside
    rw [define_eq fits]
    exact Memory.read_write_slice inside
  have total : (itemOptional ++ itemKey ++ payload layout itemKey.length itemOptional.length
      itemValue).length = itemOptional.length + itemKey.length +
        (payload layout itemKey.length itemOptional.length itemValue).length := by
    rw [List.length_append, List.length_append]
  have numericSlice : ∀ number : UInt64, (itemOptional ++ itemKey ++ payload layout itemKey.length
      itemOptional.length (.u64 number)).drop (itemOptional.length + (itemKey.length +
        layout.numericValuePad itemKey.length itemOptional.length)) =
      leBytes 8 number.toNat ++ leBytes 8 0 := by
    intro number
    rw [payload, List.append_assoc (List.replicate _ _), ← List.append_assoc]
    exact List.drop_left' (by simp only [List.length_append, List.length_replicate]; omega)
  apply Item.ext
  · show Memory.read _ _ _ = _
    rw [keyPlace, sameKlen, part _ _ (by omega)]
    simp
  · show value layout _ start = _
    unfold value
    rw [headed.isNumeric, headed.vlen, Nat.mod_eq_of_lt fits.value, valuePlace]
    cases itemValue with
    | bytes bytes =>
      simp only [Value.isU64, Bool.false_eq_true, if_false, Nat.add_zero, Value.length]
      rw [Nat.add_assoc, part _ _ (by rw [total]; simp [payload]), ← List.length_append]
      simp [payload]
    | u64 number =>
      simp only [Value.isU64, if_true]
      rw [Nat.add_assoc, Nat.add_assoc, part _ _ (by rw [total]; simp [payload]; omega),
        numericSlice number]
      simp [ofNat_leNat_leBytes]
  · show Memory.read _ _ _ = _
    rw [sameOlen, optionalOffset, ← Nat.add_zero (start + layout.headerSize), part _ _ (by omega)]
    simp [List.append_assoc]
  · show (if isNumeric layout _ start then _ else 0) = 0
    rw [headed.isNumeric]
    cases itemValue with
    | bytes bytes => rfl
    | u64 number =>
      simp only [Value.isU64, if_true] at valuePlace ⊢
      rw [versionWord, valuePlace, Nat.add_assoc, Nat.add_assoc, Nat.add_assoc,
        part _ _ (by rw [total]; simp [payload]; omega), ← Nat.add_assoc, ← Nat.add_assoc,
        ← List.drop_drop, Nat.add_assoc, numericSlice number,
        List.drop_left' (length_leBytes 8 number.toNat), List.take_of_length_le (by simp),
        leNat_leBytes, Nat.zero_mod]
  · exact headed.isDeleted

theorem wellFormed_define (fits : Fits itemKey itemValue itemOptional) (nonempty : itemKey ≠ [])
    (memory : Memory) (start : Nat) :
    WellFormed layout (define layout memory start itemKey itemValue itemOptional) start := by
  have headed := headed_define layout memory start itemKey itemValue itemOptional
  have key := fits.key
  refine ⟨?_, fun numeric => ?_⟩
  · rw [headed.klen, Nat.mod_eq_of_lt (by omega)]
    exact List.length_pos_of_ne_nil nonempty
  · rw [headed.isNumeric] at numeric
    cases itemValue with
    | bytes bytes => cases numeric
    | u64 number => exact headed.vlen

/-- **No byte outside the reserved region is written.** -/
theorem define_outside (fits : Fits itemKey itemValue itemOptional) (memory : Memory)
    {address : Nat} (outside : address < start ∨
      start + layout.itemSize itemKey.length itemValue itemOptional.length ≤ address) :
    define layout memory start itemKey itemValue itemOptional address = memory address := by
  have room := layout.fieldOffset_add_le
  have header : (headerBytes itemKey itemValue itemOptional).length = 6 := by simp [headerBytes]
  have body : start + layout.headerSize + (itemOptional ++ itemKey ++
      payload layout itemKey.length itemOptional.length itemValue).length ≤
      start + layout.itemSize itemKey.length itemValue itemOptional.length := by
    unfold Layout.itemSize
    rw [Layout.itemSizeFor_eq, List.length_append, List.length_append]
    cases itemValue with
    | bytes bytes =>
      simp only [payload, Value.length]
      omega
    | u64 number =>
      simp only [payload, Value.length, List.length_append, List.length_replicate, length_leBytes]
      omega
  rw [define_eq fits]
  rcases outside with below | above
  · rw [Memory.write_of_lt (by omega), Memory.write_of_lt (by omega)]
  · rw [Memory.write_of_le (by omega), Memory.write_of_le (by omega)]

end Define

/-! ### In-place updates -/

section Update

variable {layout : Layout} {memory : Memory} {start : Nat}

/-- Writing above the header and inside the value keeps everything but the value. -/
theorem layout_write (layout : Layout) (memory : Memory) (start : Nat) (address : Nat)
    (bytes : Bytes) (above : start + layout.headerSize ≤ address) :
    olen layout (memory.write address bytes) start = olen layout memory start ∧
      isNumeric layout (memory.write address bytes) start = isNumeric layout memory start ∧
      isDeleted layout (memory.write address bytes) start = isDeleted layout memory start ∧
      size layout (memory.write address bytes) start = size layout memory start ∧
      valueOffset layout (memory.write address bytes) start = valueOffset layout memory start := by
  obtain ⟨sameKlen, sameFlags, sameVlen⟩ := header_write layout memory start address bytes above
  obtain ⟨sameOlen, sameNumeric, sameDeleted, sameSize, shift⟩ :=
    layout_congr sameKlen sameFlags sameVlen
  exact ⟨sameOlen, sameNumeric, sameDeleted, sameSize, by omega⟩

/-- Writing from the value on keeps the key and the optional data. -/
theorem key_write (layout : Layout) (memory : Memory) (start : Nat) (address : Nat)
    (bytes : Bytes) (above : valueOffset layout memory start ≤ address) :
    key layout (memory.write address bytes) start = key layout memory start ∧
      optional layout (memory.write address bytes) start = optional layout memory start := by
  have header := header_le_valueOffset layout memory start
  have keyEnd := keyOffset_le_valueOffset layout memory start
  obtain ⟨sameKlen, _, _⟩ := header_write layout memory start address bytes
    (Nat.le_trans header above)
  obtain ⟨sameOlen, _⟩ := layout_write layout memory start address bytes
    (Nat.le_trans header above)
  refine ⟨?_, ?_⟩
  · rw [key, key, keyOffset, sameOlen, sameKlen]
    exact Memory.read_write_disjoint (.inl (by unfold keyOffset at keyEnd; omega))
  · rw [optional, optional, sameOlen]
    exact Memory.read_write_disjoint (.inl (by
      unfold keyOffset at keyEnd
      omega))

/-- A new numeric item has version zero, whatever lengths it was given. -/
theorem versionWord_define (layout : Layout) (memory : Memory) (start : Nat) (itemKey : Bytes)
    (number : UInt64) (itemOptional : Bytes) :
    versionWord layout (define layout memory start itemKey (.u64 number) itemOptional) start = 0 := by
  unfold define
  simp only [writeValue]
  generalize ((memory.write (start + layout.fieldOffset)
    (headerBytes itemKey (.u64 number) itemOptional)).write (optionalOffset layout start)
    itemOptional).write _ itemKey = filled
  have header := header_le_keyOffset layout filled start
  have value := header_le_valueOffset layout filled start
  obtain ⟨-, -, -, -, padded⟩ := layout_write layout filled start
    (keyOffset layout filled start + itemKey.length)
    (List.replicate (layout.numericValuePad itemKey.length itemOptional.length) 0) (by omega)
  obtain ⟨-, -, -, -, valued⟩ := layout_write layout _ start (valueOffset layout filled start)
    (leBytes 8 number.toNat) value
  obtain ⟨-, -, -, -, versioned⟩ := layout_write layout _ start (valueOffset layout filled start + 8)
    (leBytes 8 0) (by omega)
  rw [versionWord, versioned, valued, padded, Memory.read_write (length_leBytes 8 0), leNat_leBytes,
    Nat.zero_mod]

/-- Setting the version word of a numeric item changes nothing else. -/
theorem itemAt_setVersion (numeric : isNumeric layout memory start = true) {version : Nat}
    (fits : version < 2 ^ 64) :
    itemAt layout (setVersion layout memory start version) start =
      { itemAt layout memory start with version := version } := by
  have header := header_le_valueOffset layout memory start
  obtain ⟨_, sameNumeric, sameDeleted, _, sameValue⟩ := layout_write layout memory start
    (valueOffset layout memory start + 8) (leBytes 8 version) (by omega)
  obtain ⟨sameKey, sameOptional⟩ := key_write layout memory start
    (valueOffset layout memory start + 8) (leBytes 8 version) (by omega)
  refine Item.ext sameKey ?_ sameOptional ?_ sameDeleted
  · show value layout (memory.write _ _) start = value layout memory start
    rw [value, value, sameNumeric, sameValue, numeric]
    simp only [if_true]
    rw [Memory.read_write_disjoint (.inl (Nat.le_refl _))]
  · show (if isNumeric layout (memory.write _ _) start then _ else 0) = version
    rw [sameNumeric, numeric, if_pos rfl]
    show leNat ((memory.write _ _).read (valueOffset layout (memory.write _ _) start + 8) 8) = version
    have small : version < 256 ^ 8 := fits
    rw [sameValue, Memory.read_write (length_leBytes 8 _), leNat_leBytes, Nat.mod_eq_of_lt small]

/-- Setting the value of a numeric item changes nothing else. -/
theorem itemAt_setValue (numeric : isNumeric layout memory start = true) (number : UInt64) :
    itemAt layout (setValue layout memory start number) start =
      { itemAt layout memory start with value := .u64 number } := by
  have header := header_le_valueOffset layout memory start
  obtain ⟨_, sameNumeric, sameDeleted, _, sameValue⟩ := layout_write layout memory start _
    (leBytes 8 number.toNat) header
  obtain ⟨sameKey, sameOptional⟩ := key_write layout memory start _ (leBytes 8 number.toNat)
    (Nat.le_refl _)
  refine Item.ext sameKey ?_ sameOptional ?_ sameDeleted
  · show value layout (memory.write _ _) start = .u64 number
    rw [value, sameNumeric, sameValue, numeric]
    simp only [if_true]
    rw [Memory.read_write (length_leBytes 8 _), ofNat_leNat_leBytes]
  · show (if isNumeric layout (memory.write _ _) start then _ else 0) =
      if isNumeric layout memory start then _ else 0
    rw [sameNumeric, numeric, if_pos rfl, if_pos rfl]
    show leNat ((memory.write _ _).read (valueOffset layout (memory.write _ _) start + 8) 8) = _
    rw [sameValue, Memory.read_write_disjoint (.inr (by simp))]
    rfl

end Update

end CacheRs.KeyValue
