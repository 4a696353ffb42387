/-
**What a flush leaves is what opening finds.**

`create` rounds the data up to whole pages, `open` does not: the two agree on page multiples only.

* `mmapFile_open_flush`, `fileBackedMemory_open_flush`: flush, then open, on page multiples;
* `persists_iff`: **a pool persists exactly when its data size is a multiple of the page size**.
-/

import CacheRs.Datatier.Pools

namespace CacheRs.Datatier

open KeyValue

/-- A kind of pool: how it is made, opened, read, written and flushed, and the file it leaves when
it is dropped. -/
structure Backend (Pool : Type) where
  create : Nat → UInt64 → Option Pool
  openFile : Bytes → Nat → UInt64 → Option Pool
  asSlice : Pool → Option Bytes
  setByte : Pool → Nat → UInt8 → Option Pool
  flush : Pool → Times → Option Pool
  file : Pool → Bytes

def mmapFile (blake3 : Bytes → Digest) : Backend MmapFile where
  create := MmapFile.create
  openFile := MmapFile.openFile blake3
  asSlice := MmapFile.asSlice
  setByte := MmapFile.setByte
  flush := MmapFile.flush blake3
  file := MmapFile.mmap

def fileBackedMemory (blake3 : Bytes → Digest) : Backend FileBackedMemory where
  create := FileBackedMemory.create
  openFile := FileBackedMemory.openFile blake3
  asSlice := FileBackedMemory.asSlice
  setByte := FileBackedMemory.setByte
  flush := FileBackedMemory.flush blake3
  file := FileBackedMemory.file

/-- What the owner of a pool does with it. -/
inductive Action where
  | setByte (index : Nat) (byte : UInt8)
  | flush (times : Times)

namespace Backend

variable {Pool : Type} (backend : Backend Pool)

def act (pool : Pool) : Action → Option Pool
  | .setByte index byte => backend.setByte pool index byte
  | .flush times => backend.flush pool times

/-- A run of actions, none of which failed. -/
def run : List Action → Pool → Option Pool
  | [], pool => some pool
  | action :: rest, pool =>
    match backend.act pool action with
    | none => none
    | some pool => run rest pool

/-- After any run of actions a flush succeeds, and opening the file that it leaves finds the bytes
that the pool had. -/
def Persists (dataSize : Nat) : Prop :=
  ∀ userVersion created actions pool, backend.create dataSize userVersion = some created →
    backend.run actions created = some pool →
    ∀ times, ∃ flushed, backend.flush pool times = some flushed ∧
      ∃ reopened bytes, backend.openFile (backend.file flushed) dataSize userVersion =
        some reopened ∧ backend.asSlice flushed = some bytes ∧ backend.asSlice reopened = some bytes

variable {backend}

/-- What every action keeps holds after a run. -/
theorem run_keeps {Valid : Pool → Prop} (kept : ∀ pool action after, Valid pool →
    backend.act pool action = some after → Valid after) {actions : List Action}
    {pool after : Pool} (valid : Valid pool) (ran : backend.run actions pool = some after) :
    Valid after := by
  induction actions generalizing pool with
  | nil => exact Option.some.inj ran ▸ valid
  | cons action actions ih =>
    rw [run] at ran
    split at ran
    · cases ran
    · rename_i middle stepped
      exact ih (kept pool action middle valid stepped) ran

end Backend

/-- A file that starts with a flushed header. -/
theorem readHeader_append (header : Header) (data : Bytes) :
    readHeader (header.asBytes.1 ++ data) = some header := by
  have length := header.asBytes.2
  have long : headerSize ≤ (header.asBytes.1 ++ data).length := by
    rw [List.length_append]
    omega
  rw [readHeader, dif_pos long]
  refine congrArg some (Eq.trans (congrArg Header.fromBytes (Subtype.ext ?_))
    header.fromBytes_asBytes)
  exact List.take_left' length

/-- Writing a header over the first page. -/
theorem overwrite_header (header : Header) (bytes : Bytes) :
    overwrite bytes 0 header.asBytes.1 = header.asBytes.1 ++ bytes.drop headerSize := by
  rw [overwrite, List.take_zero, List.nil_append, Nat.zero_add, header.asBytes.2]

theorem flushHeader_check (times : Times) (userVersion : UInt64) (digest : Digest) :
    ((flushHeader times userVersion).setChecksum digest).check = true ∧
      ((flushHeader times userVersion).setChecksum digest).userVersion = userVersion ∧
      ((flushHeader times userVersion).setChecksum digest).zeroChecksum =
        flushHeader times userVersion :=
  ⟨rfl, rfl, rfl⟩

section MmapFile

variable {blake3 : Bytes → Digest} {dataSize : Nat} {userVersion : UInt64}

/-- A pool whose data are whole pages behind the header. -/
structure MmapFile.Valid (dataSize : Nat) (userVersion : UInt64) (pool : MmapFile) : Prop where
  length : pool.mmap.length = headerSize + dataSize
  dataStart : pool.dataStart = headerSize
  dataEnd : pool.dataEnd = headerSize + dataSize
  userVersion : pool.userVersion = userVersion

theorem MmapFile.Valid.asSlice {pool : MmapFile} (valid : pool.Valid dataSize userVersion) :
    pool.asSlice = some (pool.mmap.drop headerSize) := by
  have length := valid.length
  rw [MmapFile.asSlice, valid.dataStart, valid.dataEnd, slice,
    if_pos ⟨Nat.le_add_right .., by omega⟩, Nat.add_sub_cancel_left,
    List.take_of_length_le (by rw [List.length_drop]; omega)]

/-- A flush hashes the header and the data, and writes the header. -/
theorem MmapFile.Valid.flush (blake3 : Bytes → Digest) {pool : MmapFile}
    (valid : pool.Valid dataSize userVersion)
    (multiple : pageSize ∣ dataSize) (times : Times) :
    pool.flush blake3 times = some { pool with
      mmap := ((flushHeader times userVersion).setChecksum (blake3
        ((flushHeader times userVersion).asBytes.1 ++ pool.mmap.drop headerSize))).asBytes.1 ++
        pool.mmap.drop headerSize } := by
  have length := valid.length
  have pages : dataSize / pageSize * pageSize = dataSize := Nat.div_mul_cancel multiple
  have hashed := @hashPages_eq pool.mmap (dataSize / pageSize) headerSize
    (flushHeader times userVersion).asBytes.1 (by omega)
  rw [pages, List.take_of_length_le (by rw [List.length_drop]; omega)] at hashed
  unfold MmapFile.flush
  simp only [valid.userVersion]
  rw [if_neg (by omega), length, Nat.add_sub_cancel_left, hashed]
  simp only [overwrite_header]

/-- **Flush, then open**: the data come back. -/
theorem mmapFile_open_flush {pool flushed : MmapFile} (valid : pool.Valid dataSize userVersion)
    (multiple : pageSize ∣ dataSize) (bound : headerSize + dataSize < 2 ^ 64) {times : Times}
    (flushes : pool.flush blake3 times = some flushed) :
    flushed.Valid dataSize userVersion ∧
      MmapFile.openFile blake3 flushed.mmap dataSize userVersion = some flushed := by
  rw [valid.flush blake3 multiple] at flushes
  obtain rfl := Option.some.inj flushes
  have length : (pool.mmap.drop headerSize).length = dataSize := by
    have := valid.length
    rw [List.length_drop]
    omega
  generalize pool.mmap.drop headerSize = data at length ⊢
  obtain ⟨checks, version, zeroed⟩ := flushHeader_check times userVersion
    (blake3 ((flushHeader times userVersion).asBytes.1 ++ data))
  generalize same : (flushHeader times userVersion).setChecksum
    (blake3 ((flushHeader times userVersion).asBytes.1 ++ data)) = header
    at checks version zeroed ⊢
  have checksum : header.checksum = blake3 ((flushHeader times userVersion).asBytes.1 ++ data) := by
    rw [← same]
    rfl
  have total : (header.asBytes.1 ++ data).length = headerSize + dataSize := by
    rw [List.length_append, header.asBytes.2, length]
  refine ⟨⟨total, valid.dataStart, valid.dataEnd, valid.userVersion⟩, ?_⟩
  have sliced := slice_append header.asBytes.1 data []
  rw [List.append_nil, header.asBytes.2, length] at sliced
  unfold MmapFile.openFile
  simp only
  rw [if_neg (by rw [total, (pagesFor_of_dvd multiple bound).2]; exact fun off => off rfl),
    readHeader_append]
  simp only [checks, version, zeroed, checksum]
  rw [addUsize, Nat.mod_eq_of_lt bound, sliced]
  simp [valid.dataStart, valid.dataEnd, valid.userVersion]

theorem MmapFile.Valid.act (multiple : pageSize ∣ dataSize)
    (bound : headerSize + dataSize < 2 ^ 64) (pool : MmapFile) (action : Action) (after : MmapFile)
    (valid : pool.Valid dataSize userVersion)
    (acted : (mmapFile blake3).act pool action = some after) :
    after.Valid dataSize userVersion := by
  cases action with
  | setByte index byte =>
    change MmapFile.setByte pool index byte = some after at acted
    rw [MmapFile.setByte, valid.asSlice] at acted
    simp only at acted
    split at acted
    · obtain rfl := Option.some.inj acted
      exact ⟨by rw [List.length_set]; exact valid.length, valid.dataStart, valid.dataEnd,
        valid.userVersion⟩
    · cases acted
  | flush times => exact (mmapFile_open_flush valid multiple bound acted).1

theorem mmapFile_persists (multiple : pageSize ∣ dataSize)
    (bound : headerSize + dataSize < 2 ^ 64) : (mmapFile blake3).Persists dataSize := by
  intro userVersion created actions pool creates runs times
  have total := (pagesFor_of_dvd multiple bound).2
  have start : created.Valid dataSize userVersion := by
    change MmapFile.create dataSize userVersion = some created at creates
    unfold MmapFile.create at creates
    simp only at creates
    split at creates
    · cases creates
    · obtain rfl := Option.some.inj creates
      exact ⟨by rw [List.length_replicate, total], rfl, total, rfl⟩
  have valid := Backend.run_keeps (MmapFile.Valid.act multiple bound) start runs
  have flushes := valid.flush blake3 multiple times
  obtain ⟨after, reopens⟩ := mmapFile_open_flush valid multiple bound flushes
  exact ⟨_, flushes, _, _, reopens, after.asSlice, after.asSlice⟩

/-- A pool that persists has the size that `create` gave it also when it is opened. -/
theorem mmapFile_size (small : dataSize < 2 ^ 64) {created : MmapFile}
    (creates : MmapFile.create dataSize userVersion = some created)
    (persists : (mmapFile blake3).Persists dataSize) :
    pageSize ∣ dataSize ∧ headerSize + dataSize < 2 ^ 64 := by
  obtain ⟨flushed, flushes, reopened, bytes, reopens, now, later⟩ :=
    persists userVersion created [] created creates rfl (Block.zero 24)
  have createdEnds : created.dataStart = headerSize ∧ created.dataEnd = totalSize dataSize := by
    unfold MmapFile.create at creates
    simp only at creates
    split at creates
    · cases creates
    · obtain rfl := Option.some.inj creates
      exact ⟨rfl, rfl⟩
  have flushedEnds : flushed.dataStart = headerSize ∧ flushed.dataEnd = totalSize dataSize := by
    change MmapFile.flush blake3 created _ = some flushed at flushes
    unfold MmapFile.flush at flushes
    simp only at flushes
    split at flushes
    · cases flushes
    · split at flushes
      · cases flushes
      · obtain rfl := Option.some.inj flushes
        exact createdEnds
  have reopenedEnds : reopened.dataStart = headerSize ∧
      reopened.dataEnd = addUsize headerSize dataSize := by
    change MmapFile.openFile blake3 _ dataSize userVersion = some reopened at reopens
    unfold MmapFile.openFile at reopens
    simp only at reopens
    repeat' split at reopens
    all_goals try cases reopens
    exact ⟨rfl, rfl⟩
  change slice flushed.mmap flushed.dataStart flushed.dataEnd = some bytes at now
  change slice reopened.mmap reopened.dataStart reopened.dataEnd = some bytes at later
  rw [flushedEnds.1, flushedEnds.2] at now
  rw [reopenedEnds.1, reopenedEnds.2] at later
  obtain ⟨nowOrder, _, nowLength⟩ := length_of_slice now
  obtain ⟨laterOrder, _, laterLength⟩ := length_of_slice later
  have rounded := totalSize_mod dataSize
  unfold addUsize headerSize at *
  unfold pageSize at *
  omega

end MmapFile

section FileBackedMemory

variable {blake3 : Bytes → Digest} {dataSize : Nat} {userVersion : UInt64}

open FileBackedMemory

/-- Writing pages of memory writes that run of memory. -/
theorem writePages_eq {memory : Bytes} (pages start : Nat) (file hasher : Bytes)
    (inMemory : start + pages * pageSize ≤ memory.length)
    (inFile : headerSize + start + pages * pageSize ≤ file.length) :
    writePages memory pages start file hasher =
      some (overwrite file (headerSize + start) ((memory.drop start).take (pages * pageSize)),
        hasher ++ (memory.drop start).take (pages * pageSize)) := by
  induction pages generalizing start file hasher with
  | zero => simp [writePages, overwrite]
  | succ pages ih =>
    rw [Nat.succ_mul] at inMemory inFile
    have page : ((memory.drop start).take pageSize).length = pageSize := by
      rw [List.length_take, List.length_drop]
      omega
    have rest : ((memory.drop (start + pageSize)).take (pages * pageSize)).length =
        pages * pageSize := by
      rw [List.length_take, List.length_drop]
      omega
    rw [writePages, slice, if_pos ⟨Nat.le_add_right .., by omega⟩, Nat.add_sub_cancel_left]
    simp only
    rw [ih _ _ _ (by omega) (by rw [length_overwrite (by omega)]; omega), ← Nat.add_assoc]
    have joined := @overwrite_overwrite file ((memory.drop start).take pageSize)
      ((memory.drop (start + pageSize)).take (pages * pageSize)) (headerSize + start) (by omega)
    rw [page] at joined
    rw [joined, List.append_assoc, Nat.succ_mul, Nat.add_comm (pages * pageSize), List.take_add,
      List.drop_drop]

/-- Reading pages reads that run of the file. -/
theorem readPages_eq {file : Bytes} (pages start : Nat) (memory hasher : Bytes)
    (inMemory : start + pages * pageSize ≤ memory.length)
    (inFile : headerSize + start + pages * pageSize ≤ file.length) :
    readPages file pages start memory hasher =
      some (overwrite memory start ((file.drop (headerSize + start)).take (pages * pageSize)),
        hasher ++ (file.drop (headerSize + start)).take (pages * pageSize)) := by
  induction pages generalizing start memory hasher with
  | zero => simp [readPages, overwrite]
  | succ pages ih =>
    rw [Nat.succ_mul] at inMemory inFile
    have page : ((file.drop (headerSize + start)).take pageSize).length = pageSize := by
      rw [List.length_take, List.length_drop]
      omega
    have rest : ((file.drop (headerSize + (start + pageSize))).take (pages * pageSize)).length =
        pages * pageSize := by
      rw [List.length_take, List.length_drop]
      omega
    rw [readPages, slice, slice, if_pos ⟨Nat.le_add_right .., by omega⟩,
      if_pos ⟨Nat.le_add_right .., by omega⟩, Nat.add_sub_cancel_left, Nat.add_sub_cancel_left]
    simp only
    rw [ih _ _ _ (by rw [length_overwrite (by omega)]; omega) (by omega)]
    have joined := @overwrite_overwrite memory ((file.drop (headerSize + start)).take pageSize)
      ((file.drop (headerSize + (start + pageSize))).take (pages * pageSize)) start (by omega)
    rw [page] at joined
    rw [joined, List.append_assoc, Nat.succ_mul, Nat.add_comm (pages * pageSize), List.take_add,
      List.drop_drop, ← Nat.add_assoc]

/-- Reading pages leaves the memory behind them alone. -/
theorem readPages_outside {file : Bytes} {pages start : Nat} {memory hasher after hashed : Bytes}
    (reads : readPages file pages start memory hasher = some (after, hashed)) {index : Nat}
    (outside : start + pages * pageSize ≤ index) : after[index]? = memory[index]? := by
  induction pages generalizing start memory hasher with
  | zero =>
    rw [readPages] at reads
    rw [(Prod.mk.inj (Option.some.inj reads)).1]
  | succ pages ih =>
    rw [Nat.succ_mul] at outside
    rw [readPages] at reads
    split at reads
    · rename_i _ page inMemory inFile
      obtain ⟨_, memoryEnd, _⟩ := length_of_slice inMemory
      obtain ⟨_, _, pageLength⟩ := length_of_slice inFile
      rw [ih reads (by omega), overwrite]
      have upTo : (memory.take start ++ page).length = start + pageSize := by
        rw [List.length_append, List.length_take]
        omega
      rw [List.getElem?_append_right (by omega), List.getElem?_drop]
      congr 1
      omega
    · cases reads

/-- A pool whose file has room for the header and its memory. -/
structure FileBackedMemory.Valid (dataSize : Nat) (userVersion : UInt64) (pool : FileBackedMemory) :
    Prop where
  memory : pool.memory.length = dataSize
  file : pool.file.length = headerSize + dataSize
  dataStart : pool.fileDataStart = headerSize
  dataEnd : pool.fileDataEnd = headerSize + dataSize
  userVersion : pool.userVersion = userVersion

/-- A flush writes the header and the memory. -/
theorem FileBackedMemory.Valid.flush (blake3 : Bytes → Digest) {pool : FileBackedMemory}
    (valid : pool.Valid dataSize userVersion) (multiple : pageSize ∣ dataSize) (times : Times) :
    pool.flush blake3 times = some { pool with
      file := ((flushHeader times userVersion).setChecksum (blake3
        ((flushHeader times userVersion).asBytes.1 ++ pool.memory))).asBytes.1 ++ pool.memory } := by
  have memory := valid.memory
  have file := valid.file
  have pages : dataSize / pageSize * pageSize = dataSize := Nat.div_mul_cancel multiple
  have written := @writePages_eq pool.memory (dataSize / pageSize) 0 pool.file
    (flushHeader times userVersion).asBytes.1 (by omega) (by omega)
  rw [pages, List.drop_zero, List.take_of_length_le (by omega), Nat.add_zero] at written
  have data : (overwrite pool.file headerSize pool.memory).drop headerSize = pool.memory := by
    rw [overwrite, List.append_assoc, List.drop_left' (by rw [List.length_take]; omega),
      List.drop_of_length_le (by omega), List.append_nil]
  unfold FileBackedMemory.flush
  simp only [valid.userVersion, valid.dataStart, valid.dataEnd]
  rw [Nat.add_sub_cancel_left, written]
  simp only [overwrite_header, data]

/-- **Flush, then open**: the memory comes back. -/
theorem fileBackedMemory_open_flush {pool flushed : FileBackedMemory}
    (valid : pool.Valid dataSize userVersion) (multiple : pageSize ∣ dataSize)
    (bound : headerSize + dataSize < 2 ^ 64) (small : dataSize ≤ maxMappingLength) {times : Times}
    (flushes : pool.flush blake3 times = some flushed) :
    flushed.Valid dataSize userVersion ∧
      FileBackedMemory.openFile blake3 flushed.file dataSize userVersion = some flushed := by
  rw [valid.flush blake3 multiple] at flushes
  obtain rfl := Option.some.inj flushes
  have length := valid.memory
  obtain ⟨checks, version, zeroed⟩ := flushHeader_check times userVersion
    (blake3 ((flushHeader times userVersion).asBytes.1 ++ pool.memory))
  generalize same : (flushHeader times userVersion).setChecksum
    (blake3 ((flushHeader times userVersion).asBytes.1 ++ pool.memory)) = header
    at checks version zeroed ⊢
  have checksum : header.checksum =
      blake3 ((flushHeader times userVersion).asBytes.1 ++ pool.memory) := by
    rw [← same]
    rfl
  have total : (header.asBytes.1 ++ pool.memory).length = headerSize + dataSize := by
    rw [List.length_append, header.asBytes.2, length]
  refine ⟨⟨length, total, valid.dataStart, valid.dataEnd, valid.userVersion⟩, ?_⟩
  have pages : dataSize / pageSize * pageSize = dataSize := Nat.div_mul_cancel multiple
  have read := @readPages_eq (header.asBytes.1 ++ pool.memory) (dataSize / pageSize) 0
    (List.replicate dataSize 0) (flushHeader times userVersion).asBytes.1
    (by rw [List.length_replicate]; omega) (by omega)
  rw [pages, Nat.add_zero, List.drop_left' header.asBytes.2,
    List.take_of_length_le (Nat.le_of_eq length)] at read
  have memory : overwrite (List.replicate dataSize 0) 0 pool.memory = pool.memory := by
    rw [overwrite, List.take_zero, List.nil_append, List.drop_of_length_le (by
      rw [List.length_replicate]; omega), List.append_nil]
  unfold FileBackedMemory.openFile
  simp only
  rw [if_neg (by rw [total, (pagesFor_of_dvd multiple bound).2]; exact fun off => off rfl),
    if_neg (Nat.not_lt.mpr small), readHeader_append]
  simp only [checks, version, zeroed, checksum]
  rw [addUsize, Nat.mod_eq_of_lt bound, Nat.add_sub_cancel_left, read]
  simp [memory, valid.dataStart, valid.dataEnd, valid.userVersion]

theorem FileBackedMemory.Valid.act (multiple : pageSize ∣ dataSize)
    (bound : headerSize + dataSize < 2 ^ 64) (small : dataSize ≤ maxMappingLength)
    (pool : FileBackedMemory) (action : Action) (after : FileBackedMemory)
    (valid : pool.Valid dataSize userVersion)
    (acted : (fileBackedMemory blake3).act pool action = some after) :
    after.Valid dataSize userVersion := by
  cases action with
  | setByte index byte =>
    change FileBackedMemory.setByte pool index byte = some after at acted
    unfold FileBackedMemory.setByte at acted
    split at acted
    · obtain rfl := Option.some.inj acted
      exact ⟨by rw [List.length_set]; exact valid.memory, valid.file, valid.dataStart,
        valid.dataEnd, valid.userVersion⟩
    · cases acted
  | flush times => exact (fileBackedMemory_open_flush valid multiple bound small acted).1

/-- What `create` accepts and makes. -/
theorem fileBackedMemory_create {created : FileBackedMemory}
    (creates : FileBackedMemory.create dataSize userVersion = some created) :
    dataSize ≤ maxMappingLength ∧ created = ⟨List.replicate dataSize 0,
      List.replicate (totalSize dataSize) 0, headerSize, totalSize dataSize, userVersion⟩ := by
  unfold FileBackedMemory.create at creates
  simp only at creates
  split at creates
  · cases creates
  · split at creates
    · cases creates
    · exact ⟨Nat.le_of_not_lt ‹_›, (Option.some.inj creates).symm⟩

theorem fileBackedMemory_persists (multiple : pageSize ∣ dataSize)
    (bound : headerSize + dataSize < 2 ^ 64) : (fileBackedMemory blake3).Persists dataSize := by
  intro userVersion created actions pool creates runs times
  have total := (pagesFor_of_dvd multiple bound).2
  obtain ⟨small, rfl⟩ := fileBackedMemory_create creates
  have valid := @Backend.run_keeps _ (fileBackedMemory blake3)
    (FileBackedMemory.Valid dataSize userVersion) (FileBackedMemory.Valid.act multiple bound small)
    _ _ _
    ⟨List.length_replicate .., by rw [List.length_replicate, total], rfl, total, rfl⟩ runs
  have flushes := valid.flush blake3 multiple times
  obtain ⟨_, reopens⟩ := fileBackedMemory_open_flush valid multiple bound small flushes
  exact ⟨_, flushes, _, pool.memory, reopens, rfl, rfl⟩

theorem fileBackedMemory_flush_memory {pool flushed : FileBackedMemory} {times : Times}
    (flushes : pool.flush blake3 times = some flushed) : flushed.memory = pool.memory := by
  unfold FileBackedMemory.flush at flushes
  simp only at flushes
  split at flushes
  · cases flushes
  · obtain rfl := Option.some.inj flushes
    rfl

/-- The bytes behind the last whole page are not read back. -/
theorem fileBackedMemory_open_rest {file : Bytes} {reopened : FileBackedMemory}
    (reopens : FileBackedMemory.openFile blake3 file dataSize userVersion = some reopened)
    {index : Nat} (behind : (addUsize headerSize dataSize - headerSize) / pageSize * pageSize ≤ index) :
    reopened.memory[index]? = (List.replicate dataSize (0 : UInt8))[index]? := by
  unfold FileBackedMemory.openFile at reopens
  simp only at reopens
  repeat' split at reopens
  all_goals try cases reopens
  rename_i reads _
  exact readPages_outside reads (by omega)

/-- A memory that persists has no bytes behind its last whole page. -/
theorem fileBackedMemory_size (positive : 0 < dataSize) {created : FileBackedMemory}
    (creates : FileBackedMemory.create dataSize userVersion = some created)
    (persists : (fileBackedMemory blake3).Persists dataSize) : pageSize ∣ dataSize := by
  obtain ⟨small, rfl⟩ := fileBackedMemory_create creates
  by_contra partial_page
  have last : dataSize - 1 < (List.replicate dataSize (0 : UInt8)).length := by
    rw [List.length_replicate]
    omega
  have behind : (addUsize headerSize dataSize - headerSize) / pageSize * pageSize ≤
      dataSize - 1 := by
    unfold maxMappingLength at small
    unfold addUsize headerSize pageSize at *
    omega
  -- write the last byte
  obtain ⟨flushed, flushes, reopened, bytes, reopens, now, later⟩ :=
    persists userVersion _ [.setByte (dataSize - 1) 1] _ creates (by
      simp only [Backend.run, Backend.act, fileBackedMemory, FileBackedMemory.setByte]
      rw [if_pos last]) (Block.zero 24)
  have written := fileBackedMemory_flush_memory flushes
  have reopenedLast := fileBackedMemory_open_rest reopens behind
  have same : reopened.memory = flushed.memory := Option.some.inj (later.trans now.symm)
  rw [same, written, List.getElem?_set_self last, List.getElem?_eq_getElem last,
    List.getElem_replicate] at reopenedLast
  exact absurd (Option.some.inj reopenedLast) (by decide)

end FileBackedMemory

/-- **A pool persists exactly when its data size is a multiple of the page size** (and the file's
size does not overflow), for every size that `create` accepts. -/
theorem persists_iff (blake3 : Bytes → Digest) (dataSize : Nat) (positive : 0 < dataSize)
    (usize : dataSize < 2 ^ 64) (userVersion : UInt64) :
    ((MmapFile.create dataSize userVersion).isSome = true →
      ((mmapFile blake3).Persists dataSize ↔
        pageSize ∣ dataSize ∧ headerSize + dataSize < 2 ^ 64)) ∧
    ((FileBackedMemory.create dataSize userVersion).isSome = true →
      ((fileBackedMemory blake3).Persists dataSize ↔
        pageSize ∣ dataSize ∧ headerSize + dataSize < 2 ^ 64)) := by
  refine ⟨fun accepted => ?_, fun accepted => ?_⟩
  · obtain ⟨created, creates⟩ := Option.isSome_iff_exists.mp accepted
    exact ⟨mmapFile_size usize creates, fun size => mmapFile_persists size.1 size.2⟩
  · obtain ⟨created, creates⟩ := Option.isSome_iff_exists.mp accepted
    refine ⟨fun persists => ⟨fileBackedMemory_size positive creates persists, ?_⟩,
      fun size => fileBackedMemory_persists size.1 size.2⟩
    have small := (fileBackedMemory_create creates).1
    unfold maxMappingLength at small
    unfold headerSize
    omega

/-- Two pages persist. -/
theorem persists_two_pages :
    (mmapFile fun _ => Block.zero 32).Persists 8192 ∧
      (fileBackedMemory fun _ => Block.zero 32).Persists 8192 := by
  have both := persists_iff (fun _ => Block.zero 32) 8192 (by decide) (by decide) 0
  exact ⟨(both.1 (by decide)).mpr (by decide), (both.2 (by decide)).mpr (by decide)⟩

/-- **A pool of a hundred bytes does not persist**, whatever the checksum. -/
theorem not_persists_hundred :
    ¬ ∃ blake3 : Bytes → Digest,
      (mmapFile blake3).Persists 100 ∨ (fileBackedMemory blake3).Persists 100 := by
  have mmapAccepted : (MmapFile.create 100 0).isSome = true := by decide
  have memoryAccepted : (FileBackedMemory.create 100 0).isSome = true := by decide
  obtain ⟨mapped, creates⟩ := Option.isSome_iff_exists.mp mmapAccepted
  obtain ⟨backed, createsBacked⟩ := Option.isSome_iff_exists.mp memoryAccepted
  rintro ⟨blake3, persists | persists⟩
  · exact absurd (mmapFile_size (by decide) creates persists).1 (by decide)
  · exact absurd (fileBackedMemory_size (by decide) createsBacked persists) (by decide)

end CacheRs.Datatier
