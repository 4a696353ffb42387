/-
**Byte memories and values.**

Items are written to and read from raw memory. A memory is a function from addresses to bytes; a
read is a run of bytes, a write replaces one.

* `Memory.read_write_slice`, `Memory.read_write_disjoint`: reading back part of a write, and reading
  beside it;
* `Memory.write_read`, `Memory.write_write`: writes that change nothing, or are overwritten;
* `leNat_leBytes`, `leBytes_leNat`: little-endian words.
-/

import Mathlib

namespace CacheRs.KeyValue

abbrev Bytes := List UInt8

/-- A byte-addressed memory. -/
abbrev Memory := Nat → UInt8

namespace Memory

variable (memory : Memory) (start : Nat)

def read (length : Nat) : Bytes := (List.range length).map fun i => memory (start + i)

def write (bytes : Bytes) : Memory := fun address =>
  if start ≤ address then bytes[address - start]?.getD (memory address) else memory address

@[simp] theorem length_read (length : Nat) : (memory.read start length).length = length := by
  simp [read]

variable {memory start}

theorem read_congr {other : Memory} {length otherStart : Nat}
    (same : ∀ i < length, other (otherStart + i) = memory (start + i)) :
    other.read otherStart length = memory.read start length :=
  List.map_congr_left fun i inside => same i (List.mem_range.mp inside)

theorem write_of_lt {bytes : Bytes} {address : Nat} (below : address < start) :
    memory.write start bytes address = memory address :=
  if_neg (by omega)

theorem write_of_le {bytes : Bytes} {address : Nat} (above : start + bytes.length ≤ address) :
    memory.write start bytes address = memory address := by
  unfold write
  rw [if_pos (by omega), List.getElem?_eq_none (by omega), Option.getD_none]

theorem write_inside {bytes : Bytes} {i : Nat} (inside : i < bytes.length) :
    memory.write start bytes (start + i) = bytes[i] := by
  unfold write
  rw [if_pos (by omega), Nat.add_sub_cancel_left, List.getElem?_eq_getElem inside,
    Option.getD_some]

/-- Reading part of what was written. -/
theorem read_write_slice {bytes : Bytes} {offset length : Nat}
    (inside : offset + length ≤ bytes.length) :
    (memory.write start bytes).read (start + offset) length = (bytes.drop offset).take length := by
  apply List.ext_getElem
  · simp only [length_read, List.length_take, List.length_drop]
    omega
  · intro i below _
    rw [length_read] at below
    simp only [read, List.getElem_map, List.getElem_range, List.getElem_take, List.getElem_drop]
    rw [Nat.add_assoc, write_inside (by omega)]

/-- Reading back all that was written. -/
theorem read_write {bytes : Bytes} {length : Nat} (all : bytes.length = length) :
    (memory.write start bytes).read start length = bytes := by
  have slice := @read_write_slice memory start bytes 0 length (by omega)
  rw [Nat.add_zero] at slice
  rw [slice, List.drop_zero, List.take_of_length_le (by omega)]

theorem read_write_disjoint {bytes : Bytes} {other length : Nat}
    (apart : other + length ≤ start ∨ start + bytes.length ≤ other) :
    (memory.write start bytes).read other length = memory.read other length := by
  refine read_congr fun i inside => ?_
  rcases apart with below | above
  · exact write_of_lt (by omega)
  · exact write_of_le (by omega)

/-- Writing back what is there changes nothing. -/
theorem write_read (length : Nat) : memory.write start (memory.read start length) = memory := by
  funext address
  by_cases below : address < start
  · exact write_of_lt below
  · by_cases above : start + length ≤ address
    · exact write_of_le (by simpa using above)
    · obtain ⟨i, rfl⟩ := Nat.exists_eq_add_of_le (Nat.le_of_not_lt below)
      have inside : i < (memory.read start length).length := by simp; omega
      rw [write_inside inside]
      simp [read]

/-- The last of two writes of one length to one place stays. -/
theorem write_write {first second : Bytes} (same : first.length = second.length) :
    (memory.write start first).write start second = memory.write start second := by
  funext address
  by_cases below : address < start
  · rw [write_of_lt below, write_of_lt below, write_of_lt below]
  · by_cases above : start + second.length ≤ address
    · rw [write_of_le above, write_of_le above, write_of_le (by omega)]
    · obtain ⟨i, rfl⟩ := Nat.exists_eq_add_of_le (Nat.le_of_not_lt below)
      rw [write_inside (by omega), write_inside (by omega)]

/-- Two writes side by side are one. -/
theorem write_append (first second : Bytes) :
    (memory.write start first).write (start + first.length) second =
      memory.write start (first ++ second) := by
  funext address
  by_cases below : address < start
  · rw [write_of_lt (by omega), write_of_lt below, write_of_lt below]
  · obtain ⟨i, rfl⟩ := Nat.exists_eq_add_of_le (Nat.le_of_not_lt below)
    by_cases left : i < first.length
    · rw [write_of_lt (by omega), write_inside left, write_inside (by simp; omega),
        List.getElem_append_left left]
    · by_cases right : i < first.length + second.length
      · obtain ⟨j, rfl⟩ := Nat.exists_eq_add_of_le (Nat.le_of_not_lt left)
        rw [← Nat.add_assoc, write_inside (by omega), Nat.add_assoc,
          write_inside (by simp; omega), List.getElem_append_right (by omega)]
        simp
      · rw [write_of_le (by omega), write_of_le (by omega), write_of_le (by simp; omega)]

end Memory

/-! ### Little-endian words -/

def leBytes : Nat → Nat → Bytes
  | 0, _ => []
  | count + 1, value => UInt8.ofNat value :: leBytes count (value / 256)

def leNat : Bytes → Nat
  | [] => 0
  | byte :: rest => byte.toNat + 256 * leNat rest

@[simp] theorem length_leBytes (count value : Nat) : (leBytes count value).length = count := by
  induction count generalizing value with
  | zero => rfl
  | succ count ih => simp [leBytes, ih]

theorem leNat_leBytes (count value : Nat) : leNat (leBytes count value) = value % 256 ^ count := by
  induction count generalizing value with
  | zero => simp [leNat, leBytes, Nat.mod_one]
  | succ count ih =>
    have byte : (UInt8.ofNat value).toNat = value % 256 := by simp
    rw [leBytes, leNat, ih, byte, Nat.pow_succ, Nat.mul_comm (256 ^ count) 256, Nat.mod_mul]

theorem leBytes_leNat (bytes : Bytes) : leBytes bytes.length (leNat bytes) = bytes := by
  induction bytes with
  | nil => rfl
  | cons byte rest ih =>
    have low : UInt8.ofNat (leNat (byte :: rest)) = byte := by
      apply UInt8.toNat.inj
      have := byte.toNat_lt
      simp only [leNat, UInt8.toNat_ofNat']
      omega
    have high : leNat (byte :: rest) / 256 = leNat rest := by
      have := byte.toNat_lt
      simp only [leNat]
      omega
    rw [List.length_cons, leBytes, low, high, ih]

/-- A `u64` written little-endian reads back. -/
theorem ofNat_leNat_leBytes (number : UInt64) :
    UInt64.ofNat (leNat (leBytes 8 number.toNat)) = number := by
  have small : number.toNat < 256 ^ 8 := number.toNat_lt
  rw [leNat_leBytes, Nat.mod_eq_of_lt small, UInt64.ofNat_toNat]

/-! ### Values -/

/-- A cached value. -/
inductive Value where
  | bytes (value : Bytes)
  | u64 (value : UInt64)
  deriving DecidableEq, Repr

def Value.length : Value → Nat
  | .bytes value => value.length
  | .u64 _ => 8

def Value.isU64 : Value → Bool
  | .bytes _ => false
  | .u64 _ => true

end CacheRs.KeyValue
