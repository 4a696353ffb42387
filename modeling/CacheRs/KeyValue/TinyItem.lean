/-
**The compact item layout of fixed-size slots.**

A slot holds a four-byte expiry, a key length and a value length, then the key and the value. An
expiry of zero is an empty slot; a value length of zero is an integer, stored as eight big-endian
bytes.

* `define`, `entryAt`: writing a slot and reading it back;
* `entryAt_define`, `value_define`: **what was written is what is read**, the value only if the
  layout can tell its kind;
* `entryAt_congr`: an entry is determined by the bytes it takes;
* `entryAt_setNumber`: the in-place update of an integer;
* `defineAccesses`, `valueAccesses`, `updateAccesses`: the runs of bytes each function touches.
-/

import CacheRs.KeyValue.Memory

namespace CacheRs.KeyValue

def beBytes (count value : Nat) : Bytes := (leBytes count value).reverse

def beNat (bytes : Bytes) : Nat := leNat bytes.reverse

@[simp] theorem length_beBytes (count value : Nat) : (beBytes count value).length = count := by
  simp [beBytes]

theorem ofNat_beNat_beBytes (number : UInt64) :
    UInt64.ofNat (beNat (beBytes 8 number.toNat)) = number := by
  have small : number.toNat < 256 ^ 8 := number.toNat_lt
  rw [beNat, beBytes, List.reverse_reverse, leNat_leBytes, Nat.mod_eq_of_lt small,
    UInt64.ofNat_toNat]

/-- What a slot holds. -/
@[ext] structure TinyEntry where
  key : Bytes
  value : Value
  /-- Seconds since the cache was created; `u32::MAX` never expires. -/
  expire : Nat
  deriving DecidableEq, Repr

namespace TinyItem

/-- `TINY_ITEM_HDR_SIZE`. -/
def headerSize : Nat := 6

variable (memory : Memory) (start : Nat)

def expire : Nat := leNat (memory.read start 4)

def klen : Nat := (memory (start + 4)).toNat

def rawVlen : Nat := (memory (start + 5)).toNat

/-- The number of value bytes stored. -/
def valueLen : Nat := if rawVlen memory start = 0 then 8 else rawVlen memory start

def key : Bytes := memory.read (start + headerSize) (klen memory start)

def value : Value :=
  let offset := start + headerSize + klen memory start
  if rawVlen memory start = 0 then .u64 (UInt64.ofNat (beNat (memory.read offset 8)))
  else .bytes (memory.read offset (rawVlen memory start))

/-- The value-length byte and the bytes of a value. -/
def encodeValue : Value → UInt8 × Bytes
  | .bytes bytes => (UInt8.ofNat bytes.length, bytes)
  | .u64 number => (0, beBytes 8 number.toNat)

/-- Write key, value and expiry. -/
def define (key : Bytes) (value : Value) (expire : Nat) : Memory :=
  let (vlen, bytes) := encodeValue value
  ((memory.write start (leBytes 4 expire ++ [UInt8.ofNat key.length, vlen])).write
    (start + headerSize) key).write (start + headerSize + key.length) bytes

/-- Replace the number of an integer item. -/
def setNumber (number : UInt64) : Memory :=
  memory.write (start + headerSize + klen memory start) (beBytes 8 number.toNat)

/-- The entry of a slot, if it is not empty. -/
def entryAt : Option TinyEntry :=
  if expire memory start = 0 then none
  else some ⟨key memory start, value memory start, expire memory start⟩

/-- A slot whose item lies inside its `size` bytes. -/
def Inside (size : Nat) : Prop :=
  headerSize + klen memory start + valueLen memory start ≤ size

/-- A value the layout can tell from the other kind. -/
def Storable : Value → Prop
  | .bytes bytes => bytes ≠ [] ∧ bytes.length ≤ 255
  | .u64 _ => True

instance (value : Value) : Decidable (Storable value) := by
  cases value <;> unfold Storable <;> infer_instance

section Spec

variable {memory : Memory} {start : Nat} {other : Memory} {otherStart size : Nat}

/-- A slot's bytes fix its header. -/
theorem header_congr {memory other : Memory} {start otherStart : Nat}
    (same : ∀ i < headerSize, other (otherStart + i) = memory (start + i)) :
    expire other otherStart = expire memory start ∧ klen other otherStart = klen memory start ∧
      rawVlen other otherStart = rawVlen memory start := by
  refine ⟨?_, ?_, ?_⟩
  · exact congrArg leNat (Memory.read_congr fun i inside =>
      same i (Nat.lt_trans inside (by decide)))
  · exact congrArg UInt8.toNat (same 4 (by decide))
  · exact congrArg UInt8.toNat (same 5 (by decide))

/-- **An entry is determined by its slot's bytes**, wherever they lie. -/
theorem entryAt_congr (room : headerSize ≤ size)
    (inside : entryAt memory start ≠ none → Inside memory start size)
    (same : ∀ i < size, other (otherStart + i) = memory (start + i)) :
    entryAt other otherStart = entryAt memory start ∧
      (Inside memory start size → Inside other otherStart size) := by
  obtain ⟨sameExpire, sameKlen, sameVlen⟩ :=
    header_congr fun i below => same i (Nat.lt_of_lt_of_le below room)
  -- a part of the item that lies inside its slot reads alike
  have part : ∀ offset length, offset + length ≤ size →
      other.read (otherStart + offset) length = memory.read (start + offset) length := by
    intro offset length within
    refine Memory.read_congr fun i below => ?_
    simpa only [Nat.add_assoc] using same (offset + i) (by omega)
  refine ⟨?_, fun within => ?_⟩
  · unfold entryAt at inside ⊢
    rw [sameExpire]
    by_cases zero : expire memory start = 0
    · rw [if_pos zero, if_pos zero]
    · rw [if_neg zero] at inside ⊢
      rw [if_neg zero]
      have within := inside (by simp)
      unfold Inside valueLen headerSize at within
      have sameKey : key other otherStart = key memory start := by
        rw [key, key, sameKlen]
        exact part headerSize _ (by unfold headerSize; omega)
      have sameValue : value other otherStart = value memory start := by
        unfold value headerSize
        rw [sameVlen, sameKlen]
        by_cases number : rawVlen memory start = 0
        · rw [if_pos number] at within ⊢
          rw [if_pos number, Nat.add_assoc, Nat.add_assoc, part _ _ within]
        · rw [if_neg number] at within ⊢
          rw [if_neg number, Nat.add_assoc, Nat.add_assoc, part _ _ within]
      rw [sameKey, sameValue]
  · unfold Inside valueLen at within ⊢
    rwa [sameKlen, sameVlen]

/-- A zeroed slot is empty. -/
theorem entryAt_zero (zero : ∀ i < headerSize, memory (start + i) = 0) :
    entryAt memory start = none := by
  have empty : expire memory start = 0 := by
    have bytes : memory.read start 4 = [0, 0, 0, 0] := by
      rw [Memory.read]
      simp only [show List.range 4 = [0, 1, 2, 3] by decide, List.map_cons, List.map_nil]
      rw [zero 0 (by decide), zero 1 (by decide), zero 2 (by decide), zero 3 (by decide)]
    rw [expire, bytes]
    decide
  unfold entryAt
  rw [if_pos empty]

end Spec

section Define

variable {itemKey : Bytes} {itemValue : Value} {itemExpire : Nat}

/-- The value bytes an item takes, by its own header. -/
def storedLength (value : Value) : Nat :=
  if (encodeValue value).1.toNat = 0 then 8 else (encodeValue value).1.toNat

@[simp] theorem length_encodeValue (value : Value) :
    (encodeValue value).2.length = value.length := by
  cases value with
  | bytes bytes => rfl
  | u64 number => exact length_beBytes 8 _

/-- A value the layout can tell from the other kind keeps its length. -/
theorem Storable.vlen (storable : Storable itemValue) :
    ((encodeValue itemValue).1.toNat = 0 ↔ itemValue.isU64 = true) ∧
      storedLength itemValue = itemValue.length := by
  unfold storedLength
  cases itemValue with
  | bytes bytes =>
    obtain ⟨nonempty, short⟩ := storable
    have positive := List.length_pos_of_ne_nil nonempty
    have length : (encodeValue (.bytes bytes)).1.toNat = bytes.length := by
      simp only [encodeValue, UInt8.toNat_ofNat']
      omega
    rw [length, if_neg (by omega)]
    exact ⟨⟨fun zero => by omega, fun number => by cases number⟩, rfl⟩
  | u64 number => exact ⟨⟨fun _ => rfl, fun _ => rfl⟩, rfl⟩

/-- The bytes of a new slot item, in one run. -/
def itemBytes (key : Bytes) (value : Value) (expire : Nat) : Bytes :=
  leBytes 4 expire ++ [UInt8.ofNat key.length, (encodeValue value).1] ++ key ++ (encodeValue value).2

theorem length_itemBytes :
    (itemBytes itemKey itemValue itemExpire).length =
      headerSize + itemKey.length + itemValue.length := by
  simp [itemBytes, headerSize]
  omega

theorem define_eq (memory : Memory) (start : Nat) :
    define memory start itemKey itemValue itemExpire =
      memory.write start (itemBytes itemKey itemValue itemExpire) := by
  have header : (leBytes 4 itemExpire ++
      [UInt8.ofNat itemKey.length, (encodeValue itemValue).1]).length = headerSize := by
    simp [headerSize]
  have upToKey : (leBytes 4 itemExpire ++ [UInt8.ofNat itemKey.length, (encodeValue itemValue).1] ++
      itemKey).length = headerSize + itemKey.length := by
    rw [List.length_append, header]
  rw [itemBytes, ← Memory.write_append, ← Memory.write_append, upToKey, header, ← Nat.add_assoc]
  rfl

/-- Nothing is written beside the item. -/
theorem define_outside (memory : Memory) {start address : Nat} (outside : address < start ∨
      start + (headerSize + itemKey.length + itemValue.length) ≤ address) :
    define memory start itemKey itemValue itemExpire address = memory address := by
  have length := @length_itemBytes itemKey itemValue itemExpire
  rw [define_eq]
  rcases outside with below | above
  · exact Memory.write_of_lt below
  · exact Memory.write_of_le (by omega)

/-- What follows the header reads back. -/
theorem read_define (memory : Memory) (start offset count : Nat)
    (within : offset + count ≤ itemKey.length + itemValue.length) :
    (define memory start itemKey itemValue itemExpire).read (start + headerSize + offset) count =
      ((itemKey ++ (encodeValue itemValue).2).drop offset).take count := by
  have length := @length_itemBytes itemKey itemValue itemExpire
  rw [define_eq, Nat.add_assoc, Memory.read_write_slice (by omega), itemBytes,
    List.append_assoc _ itemKey, ← List.drop_drop, List.drop_left' (by simp [headerSize])]

/-- The expiry of a new item. -/
theorem expire_define (stamp : itemExpire < 2 ^ 32) (memory : Memory) (start : Nat) :
    expire (define memory start itemKey itemValue itemExpire) start = itemExpire := by
  have length := @length_itemBytes itemKey itemValue itemExpire
  unfold headerSize at length
  have slice := @Memory.read_write_slice memory start (itemBytes itemKey itemValue itemExpire) 0 4
    (by omega)
  rw [Nat.add_zero, ← define_eq, List.drop_zero, itemBytes, List.append_assoc, List.append_assoc,
    List.take_left' (length_leBytes 4 _)] at slice
  rw [expire, slice, leNat_leBytes]
  exact Nat.mod_eq_of_lt stamp

/-- **The header and the key of a new item.** -/
theorem define_header (short : itemKey.length ≤ 255) (stamp : itemExpire < 2 ^ 32) (memory : Memory)
    (start : Nat) :
    expire (define memory start itemKey itemValue itemExpire) start = itemExpire ∧
      klen (define memory start itemKey itemValue itemExpire) start = itemKey.length ∧
      rawVlen (define memory start itemKey itemValue itemExpire) start =
        (encodeValue itemValue).1.toNat ∧
      key (define memory start itemKey itemValue itemExpire) start = itemKey := by
  have length := @length_itemBytes itemKey itemValue itemExpire
  unfold headerSize at length
  have sameKlen : klen (define memory start itemKey itemValue itemExpire) start =
      itemKey.length := by
    rw [klen, define_eq, Memory.write_inside (by omega)]
    simp [itemBytes]
    omega
  refine ⟨expire_define stamp memory start, sameKlen, ?_, ?_⟩
  · rw [rawVlen, define_eq, Memory.write_inside (by omega)]
    simp [itemBytes]
  · have slice := @read_define itemKey itemValue itemExpire memory start 0 itemKey.length (by omega)
    rw [Nat.add_zero, List.drop_zero, List.take_left] at slice
    rw [key, sameKlen, slice]

/-- A new item lies in its slot if its header says so. -/
theorem inside_define (short : itemKey.length ≤ 255) (stamp : itemExpire < 2 ^ 32) (memory : Memory)
    (start size : Nat) :
    Inside (define memory start itemKey itemValue itemExpire) start size ↔
      headerSize + itemKey.length + storedLength itemValue ≤ size := by
  obtain ⟨_, sameKlen, sameVlen, _⟩ := @define_header _ itemValue _ short stamp memory start
  rw [Inside, valueLen, sameKlen, sameVlen, storedLength]

/-- A new item's entry: key and expiry read back, whatever the value. -/
theorem entryAt_define (short : itemKey.length ≤ 255) (stamp : itemExpire < 2 ^ 32)
    (memory : Memory) (start : Nat) :
    entryAt (define memory start itemKey itemValue itemExpire) start =
      if itemExpire = 0 then none
      else some ⟨itemKey, value (define memory start itemKey itemValue itemExpire) start,
        itemExpire⟩ := by
  obtain ⟨sameExpire, _, _, sameKey⟩ := @define_header _ itemValue _ short stamp memory start
  unfold entryAt
  rw [sameExpire, sameKey]

/-- **A value the layout can tell from the other kind reads back.** -/
theorem value_define (short : itemKey.length ≤ 255) (stamp : itemExpire < 2 ^ 32)
    (storable : Storable itemValue) (memory : Memory) (start : Nat) :
    value (define memory start itemKey itemValue itemExpire) start = itemValue := by
  obtain ⟨_, sameKlen, sameVlen, _⟩ := @define_header _ itemValue _ short stamp memory start
  obtain ⟨zero, length⟩ := storable.vlen
  unfold storedLength at length
  have slice := @read_define itemKey itemValue itemExpire memory start itemKey.length
    itemValue.length (Nat.le_refl _)
  rw [List.drop_left, List.take_of_length_le (by simp)] at slice
  unfold value
  simp only [sameKlen, sameVlen]
  cases itemValue with
  | bytes bytes =>
    have nonzero : (encodeValue (.bytes bytes)).1.toNat ≠ 0 := fun isZero => by
      cases zero.mp isZero
    rw [if_neg nonzero] at length
    rw [if_neg nonzero, length, slice]
    rfl
  | u64 number =>
    change Memory.read _ _ 8 = _ at slice
    rw [if_pos (zero.mpr rfl), slice, encodeValue, ofNat_beNat_beBytes]

/-- **Replacing the number of an integer item** changes nothing else. -/
theorem entryAt_setNumber {memory : Memory} {start : Nat} (isNumber : rawVlen memory start = 0)
    (number : UInt64) :
    entryAt (setNumber memory start number) start =
      (entryAt memory start).map ({ · with value := .u64 number }) ∧
      rawVlen (setNumber memory start number) start = 0 ∧
      klen (setNumber memory start number) start = klen memory start := by
  obtain ⟨sameExpire, sameKlen, sameVlen⟩ :=
    @header_congr memory (setNumber memory start number) start start fun i below =>
      Memory.write_of_lt (by omega)
  have sameKey : key (setNumber memory start number) start = key memory start := by
    rw [key, key, sameKlen]
    exact Memory.read_write_disjoint (.inl (Nat.le_refl _))
  have written : value (setNumber memory start number) start = .u64 number := by
    unfold value
    simp only [sameKlen, sameVlen, isNumber, if_true]
    rw [setNumber, Memory.read_write (length_beBytes 8 _), ofNat_beNat_beBytes]
  refine ⟨?_, sameVlen.trans isNumber, sameKlen⟩
  unfold entryAt
  rw [sameExpire, sameKey, written]
  split
  · rfl
  · rfl

theorem setNumber_outside {memory : Memory} {start size address : Nat} (number : UInt64)
    (isNumber : rawVlen memory start = 0) (inside : Inside memory start size)
    (outside : address < start ∨ start + size ≤ address) :
    setNumber memory start number address = memory address := by
  unfold Inside valueLen at inside
  rw [if_pos isNumber] at inside
  have length : (beBytes 8 number.toNat).length = 8 := length_beBytes 8 _
  rcases outside with below | above
  · exact Memory.write_of_lt (by omega)
  · exact Memory.write_of_le (by omega)

end Define

/-! ### The bytes the functions touch -/

section Accesses

/-- A run of bytes: its offset from the item's start, and its length. -/
abbrev Access := Nat × Nat

/-- `define` writes the header, the key and the value. -/
def defineAccesses (key : Bytes) (value : Value) : List Access :=
  [(0, headerSize), (headerSize, key.length), (headerSize + key.length, value.length)]

/-- `value` reads the header, and as many value bytes as the header says. -/
def valueAccesses (memory : Memory) (start : Nat) : List Access :=
  [(0, headerSize), (headerSize + klen memory start, valueLen memory start)]

/-- `wrapping_add` and `saturating_sub` read the value, and write the eight bytes of an integer. -/
def updateAccesses (memory : Memory) (start : Nat) : List Access :=
  valueAccesses memory start ++
    if rawVlen memory start = 0 then [(headerSize + klen memory start, 8)] else []

/-- Every access lies inside a slot. -/
def Within (size : Nat) (accesses : List Access) : Prop :=
  ∀ access ∈ accesses, access.1 + access.2 ≤ size

instance (size : Nat) (accesses : List Access) : Decidable (Within size accesses) :=
  inferInstanceAs (Decidable (∀ access ∈ accesses, access.1 + access.2 ≤ size))

variable {memory other : Memory} {start otherStart size : Nat}

theorem within_valueAccesses : Within size (valueAccesses memory start) ↔ Inside memory start size := by
  simp only [Within, valueAccesses, List.forall_mem_cons, List.not_mem_nil, false_implies,
    implies_true, and_true, Inside]
  omega

theorem within_updateAccesses :
    Within size (updateAccesses memory start) ↔ Inside memory start size := by
  rw [← within_valueAccesses]
  unfold Within updateAccesses
  refine ⟨fun within access member => within access (List.mem_append_left _ member),
    fun within access member => (List.mem_append.mp member).elim (within access) fun written => ?_⟩
  split at written
  · rename_i number
    have value := within (headerSize + klen memory start, valueLen memory start)
      (List.mem_cons_of_mem _ (List.mem_singleton_self _))
    rw [List.mem_singleton.mp written]
    rwa [valueLen, if_pos number] at value
  · cases written

/-- The value is determined by the bytes that are read. -/
theorem value_of_accesses (same : ∀ access ∈ valueAccesses memory start, ∀ i < access.2,
    other (otherStart + access.1 + i) = memory (start + access.1 + i)) :
    value other otherStart = value memory start := by
  have header : ∀ i < headerSize, other (otherStart + i) = memory (start + i) :=
    fun i below => same (0, headerSize) (List.mem_cons_self ..) i below
  obtain ⟨-, sameKlen, sameVlen⟩ := header_congr header
  have bytes : ∀ length, length ≤ valueLen memory start →
      other.read (otherStart + headerSize + klen memory start) length =
        memory.read (start + headerSize + klen memory start) length := fun length short =>
    Memory.read_congr fun i below => by
      simpa only [Nat.add_assoc] using same (headerSize + klen memory start, valueLen memory start)
        (List.mem_cons_of_mem _ (List.mem_singleton_self _)) i (Nat.lt_of_lt_of_le below short)
  unfold value
  simp only [sameKlen, sameVlen]
  split
  · rename_i number
    rw [bytes 8 (by rw [valueLen, if_pos number])]
  · rename_i text
    rw [bytes _ (by rw [valueLen, if_neg text])]

/-- `define` changes no byte that it does not write. -/
theorem define_of_accesses (memory : Memory) (start : Nat) {key : Bytes} {value : Value}
    {expire address : Nat} (outside : ∀ access ∈ defineAccesses key value,
      address < start + access.1 ∨ start + access.1 + access.2 ≤ address) :
    define memory start key value expire address = memory address := by
  simp only [defineAccesses, List.forall_mem_cons] at outside
  refine define_outside memory ?_
  omega

/-- An update changes no byte that it does not write. -/
theorem setNumber_of_accesses {number : UInt64} {address : Nat} (isNumber : rawVlen memory start = 0)
    (outside : ∀ access ∈ updateAccesses memory start,
      address < start + access.1 ∨ start + access.1 + access.2 ≤ address) :
    setNumber memory start number address = memory address := by
  have written := outside (headerSize + klen memory start, 8) (by
    rw [updateAccesses, if_pos isNumber]
    exact List.mem_append_right _ (List.mem_singleton_self _))
  have length : (beBytes 8 number.toNat).length = 8 := length_beBytes 8 _
  rcases written with below | above
  · exact Memory.write_of_lt (by omega)
  · exact Memory.write_of_le (by omega)

end Accesses

end TinyItem

end CacheRs.KeyValue
