/-
**Pages, slices and the header of a pool.**

A pool file is a header of one page and the data, rounded up to whole pages. The header carries a
checksum of itself, with the checksum zeroed, and the data.

* `fromBytes_asBytes`: a header reads back from its bytes;
* `pagesFor_of_dvd`: page multiples are not rounded, whatever the floating-point format does;
* `slice_append`, `slice_pages`: slices of a run of bytes, and hashing it page by page.
-/

import CacheRs.KeyValue.Memory

namespace CacheRs.Datatier

open KeyValue

/-- A run of bytes of a fixed length. -/
abbrev Block (size : Nat) := { bytes : Bytes // bytes.length = size }

namespace Block

def zero (size : Nat) : Block size := ⟨List.replicate size 0, List.length_replicate ..⟩

def ofU64 (value : UInt64) : Block 8 := ⟨leBytes 8 value.toNat, length_leBytes ..⟩

def toU64 (block : Block 8) : UInt64 := UInt64.ofNat (leNat block.1)

theorem toU64_ofU64 (value : UInt64) : toU64 (ofU64 value) = value := ofNat_leNat_leBytes value

/-- Part of a block. -/
def part {size : Nat} (block : Block size) (start count : Nat) (inside : start + count ≤ size) :
    Block count :=
  ⟨(block.1.drop start).take count, by
    have := block.2
    simp only [List.length_take, List.length_drop]
    omega⟩

end Block

/-! ### Sizes -/

def pageSize : Nat := 4096

/-- `HEADER_SIZE`: the header takes one page. -/
def headerSize : Nat := 4096

/-- A `usize` sum. -/
def addUsize (left right : Nat) : Nat := (left + right) % 2 ^ 64

/-- The nearest `f64` to a `usize`, ties to even; it is a whole number. -/
def asF64 (value : Nat) : Nat :=
  let shift := value.log2 - 52
  let quotient := value / 2 ^ shift
  let rest := value % 2 ^ shift
  if 2 ^ shift < 2 * rest ∨ (2 * rest = 2 ^ shift ∧ quotient % 2 = 1) then
    (quotient + 1) * 2 ^ shift
  else quotient * 2 ^ shift

/-- `((HEADER_SIZE + data_size) as f64 / PAGE_SIZE as f64).ceil() as usize`: dividing by the page
size only lowers the exponent. -/
def pagesFor (dataSize : Nat) : Nat :=
  (asF64 (addUsize headerSize dataSize) + (pageSize - 1)) / pageSize

/-- `pages * PAGE_SIZE`. -/
def totalSize (dataSize : Nat) : Nat := pagesFor dataSize * pageSize % 2 ^ 64

/-- The longest file that `set_len` can make. -/
def maxFileLength : Nat := 2 ^ 63 - 1

theorem asF64_of_dvd {value : Nat} (multiple : pageSize ∣ value) (bound : value < 2 ^ 64) :
    asF64 value = value := by
  unfold asF64
  have log : value.log2 - 52 ≤ 11 := by
    by_cases zero : value = 0
    · rw [zero]
      decide
    · have := (Nat.log2_lt zero).mpr bound
      omega
  have divides : 2 ^ (value.log2 - 52) ∣ value :=
    (Nat.pow_dvd_pow 2 log).trans ((by decide : 2 ^ 11 ∣ pageSize).trans multiple)
  have rest := Nat.mod_eq_zero_of_dvd divides
  have positive := Nat.two_pow_pos (value.log2 - 52)
  simp only [rest]
  rw [if_neg (by omega), Nat.div_mul_cancel divides]

/-- Page multiples are not rounded. -/
theorem pagesFor_of_dvd {dataSize : Nat} (multiple : pageSize ∣ dataSize)
    (bound : headerSize + dataSize < 2 ^ 64) :
    pagesFor dataSize = dataSize / pageSize + 1 ∧ totalSize dataSize = headerSize + dataSize := by
  obtain ⟨pages, rfl⟩ := multiple
  unfold headerSize pageSize at bound
  have pagesEq : pagesFor (pageSize * pages) = pages + 1 := by
    unfold pagesFor addUsize headerSize pageSize
    rw [Nat.mod_eq_of_lt bound, asF64_of_dvd ⟨pages + 1, by unfold pageSize; omega⟩ bound]
    omega
  rw [totalSize, pagesEq]
  unfold headerSize pageSize
  omega

/-- A total size is a multiple of the page size. -/
theorem totalSize_mod (dataSize : Nat) : totalSize dataSize % pageSize = 0 := by
  unfold totalSize pageSize
  omega

/-! ### Slices -/

/-- `bytes[start..stop]`; slicing out of bounds stops the thread. -/
def slice (bytes : Bytes) (start stop : Nat) : Option Bytes :=
  if start ≤ stop ∧ stop ≤ bytes.length then some ((bytes.drop start).take (stop - start)) else none

/-- Write a run of bytes in place. -/
def overwrite (bytes : Bytes) (start : Nat) (run : Bytes) : Bytes :=
  bytes.take start ++ run ++ bytes.drop (start + run.length)

theorem length_of_slice {bytes found : Bytes} {start stop : Nat}
    (sliced : slice bytes start stop = some found) :
    start ≤ stop ∧ stop ≤ bytes.length ∧ found.length = stop - start := by
  unfold slice at sliced
  split at sliced
  · rename_i inside
    obtain rfl := Option.some.inj sliced
    refine ⟨inside.1, inside.2, ?_⟩
    simp only [List.length_take, List.length_drop]
    omega
  · cases sliced

theorem slice_append (before inside after : Bytes) :
    slice (before ++ inside ++ after) before.length (before.length + inside.length) =
      some inside := by
  unfold slice
  rw [if_pos ⟨Nat.le_add_right .., by simp⟩, List.append_assoc, List.drop_left,
    Nat.add_sub_cancel_left, List.take_left]

theorem length_overwrite {bytes run : Bytes} {start : Nat}
    (inside : start + run.length ≤ bytes.length) :
    (overwrite bytes start run).length = bytes.length := by
  simp only [overwrite, List.length_append, List.length_take, List.length_drop]
  omega

/-- Two writes side by side are one. -/
theorem overwrite_overwrite {bytes first second : Bytes} {start : Nat}
    (inside : start + first.length + second.length ≤ bytes.length) :
    overwrite (overwrite bytes start first) (start + first.length) second =
      overwrite bytes start (first ++ second) := by
  have upTo : (bytes.take start ++ first).length = start + first.length := by
    simp only [List.length_append, List.length_take]
    omega
  unfold overwrite
  rw [List.take_left' upTo, ← List.drop_drop, List.drop_left' upTo, List.drop_drop,
    List.length_append, List.append_assoc (bytes.take start), Nat.add_assoc]

/-- Feed the pages of a run of bytes to a hasher, which keeps what it was fed. -/
def hashPages (bytes : Bytes) (start : Nat) : Nat → Bytes → Option Bytes
  | 0, hasher => some hasher
  | pages + 1, hasher =>
    match slice bytes start (start + pageSize) with
    | none => none
    | some page => hashPages bytes (start + pageSize) pages (hasher ++ page)

/-- **Hashing page by page** is hashing the run of pages. -/
theorem hashPages_eq {bytes : Bytes} (pages start : Nat) (hasher : Bytes)
    (inside : start + pages * pageSize ≤ bytes.length) :
    hashPages bytes start pages hasher =
      some (hasher ++ (bytes.drop start).take (pages * pageSize)) := by
  induction pages generalizing start hasher with
  | zero => simp [hashPages]
  | succ pages ih =>
    rw [Nat.succ_mul] at inside
    rw [hashPages, slice, if_pos ⟨Nat.le_add_right .., by omega⟩]
    simp only
    rw [ih _ _ (by omega), Nat.add_sub_cancel_left, List.append_assoc, Nat.succ_mul,
      Nat.add_comm (pages * pageSize), List.take_add, List.drop_drop]

/-! ### The header -/

/-- The four clock readings of a header. -/
abbrev Times := Block 24

/-- A blake3 digest. -/
abbrev Digest := Block 32

@[ext] structure Header where
  checksum : Digest
  magic : Block 8
  version : UInt64
  times : Times
  userVersion : UInt64
  options : UInt64
  pad : Block 4008

namespace Header

/-- `b"PELIKAN!"`. -/
def MAGIC : Block 8 := ⟨[80, 69, 76, 73, 75, 65, 78, 33], rfl⟩

def VERSION : UInt64 := 0

def new (times : Times) : Header where
  checksum := Block.zero 32
  magic := MAGIC
  version := VERSION
  times := times
  userVersion := 0
  options := 0
  pad := Block.zero 4008

def asBytes (header : Header) : Block headerSize :=
  ⟨header.checksum.1 ++ (header.magic.1 ++ ((Block.ofU64 header.version).1 ++ (header.times.1 ++
    ((Block.ofU64 header.userVersion).1 ++ ((Block.ofU64 header.options).1 ++ header.pad.1))))), by
    simp only [List.length_append, header.checksum.2, header.magic.2, header.times.2, header.pad.2,
      (Block.ofU64 _).2, headerSize]⟩

def fromBytes (bytes : Block headerSize) : Header where
  checksum := bytes.part 0 32 (by decide)
  magic := bytes.part 32 8 (by decide)
  version := (bytes.part 40 8 (by decide)).toU64
  times := bytes.part 48 24 (by decide)
  userVersion := (bytes.part 72 8 (by decide)).toU64
  options := (bytes.part 80 8 (by decide)).toU64
  pad := bytes.part 88 4008 (by decide)

/-- `check`: the magic bytes and the version. -/
def check (header : Header) : Bool := header.magic = MAGIC && header.version = VERSION

def setUserVersion (header : Header) (userVersion : UInt64) : Header :=
  { header with userVersion := userVersion }

def setChecksum (header : Header) (digest : Digest) : Header := { header with checksum := digest }

def zeroChecksum (header : Header) : Header := { header with checksum := Block.zero 32 }

/-- The run of bytes after a prefix. -/
theorem part_append {before run after : Bytes} {start count : Nat} (atStart : before.length = start)
    (length : run.length = count) : ((before ++ (run ++ after)).drop start).take count = run := by
  rw [List.drop_left' atStart, List.take_left' length]

/-- **A header reads back from its bytes.** -/
theorem fromBytes_asBytes (header : Header) : fromBytes header.asBytes = header := by
  obtain ⟨⟨checksum, checksumLength⟩, ⟨magic, magicLength⟩, version, ⟨times, timesLength⟩,
    userVersion, options, ⟨pad, padLength⟩⟩ := header
  have versionLength := (Block.ofU64 version).2
  have userVersionLength := (Block.ofU64 userVersion).2
  have optionsLength := (Block.ofU64 options).2
  -- each field is the run after those before it
  have field : ∀ (before run after : Bytes) {start count : Nat}, before.length = start →
      run.length = count → checksum ++ (magic ++ ((Block.ofU64 version).1 ++ (times ++
        ((Block.ofU64 userVersion).1 ++ ((Block.ofU64 options).1 ++ pad))))) =
        before ++ (run ++ after) →
      ((checksum ++ (magic ++ ((Block.ofU64 version).1 ++ (times ++
        ((Block.ofU64 userVersion).1 ++ ((Block.ofU64 options).1 ++ pad)))))).drop start).take
        count = run := by
    intro before run after start count atStart length same
    rw [same, part_append atStart length]
  apply Header.ext
  · exact Subtype.ext (field [] checksum _ rfl checksumLength rfl)
  · exact Subtype.ext (field checksum magic _ checksumLength magicLength rfl)
  · refine Eq.trans (congrArg Block.toU64 (Subtype.ext ?_)) (Block.toU64_ofU64 version)
    exact field (checksum ++ magic) _ _ (by simp only [List.length_append]; omega) versionLength
      (by simp only [List.append_assoc]; rfl)
  · refine Subtype.ext (field (checksum ++ magic ++ (Block.ofU64 version).1) times _ ?_ timesLength
      (by simp only [List.append_assoc]; rfl))
    simp only [List.length_append]
    omega
  · refine Eq.trans (congrArg Block.toU64 (Subtype.ext ?_)) (Block.toU64_ofU64 userVersion)
    exact field (checksum ++ magic ++ (Block.ofU64 version).1 ++ times) _ _
      (by simp only [List.length_append]; omega) userVersionLength
      (by simp only [List.append_assoc]; rfl)
  · refine Eq.trans (congrArg Block.toU64 (Subtype.ext ?_)) (Block.toU64_ofU64 options)
    exact field (checksum ++ magic ++ (Block.ofU64 version).1 ++ times ++
      (Block.ofU64 userVersion).1) _ _ (by simp only [List.length_append]; omega) optionsLength
      (by simp only [List.append_assoc]; rfl)
  · refine Subtype.ext (field (checksum ++ magic ++ (Block.ofU64 version).1 ++ times ++
      (Block.ofU64 userVersion).1 ++ (Block.ofU64 options).1) pad [] ?_ padLength
      (by simp only [List.append_assoc, List.append_nil]))
    simp only [List.length_append]
    omega

end Header

end CacheRs.Datatier
