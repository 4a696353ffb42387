/-
**The two persistent pools.**

A memory-mapped file, whose bytes are the file's; and a memory with a file behind it, written page
by page. A thread that panics, or that reads for ever at the end of a file, does not go on: `none`.
-/

import CacheRs.Datatier.Header

namespace CacheRs.Datatier

open KeyValue

/-- The header that a flush writes, before its checksum. -/
def flushHeader (times : Times) (userVersion : UInt64) : Header :=
  (Header.new times).setUserVersion userVersion

/-- The header at the start of a file. -/
def readHeader (file : Bytes) : Option Header :=
  if long : headerSize ≤ file.length then
    some (Header.fromBytes ⟨file.take headerSize, List.length_take_of_le long⟩)
  else none

/-! ### Memory-mapped files -/

structure MmapFile where
  mmap : Bytes
  dataStart : Nat
  dataEnd : Nat
  userVersion : UInt64

namespace MmapFile

variable (blake3 : Bytes → Digest)

def openFile (file : Bytes) (dataSize : Nat) (userVersion : UInt64) : Option MmapFile :=
  if file.length ≠ totalSize dataSize then none
  else
    let dataEnd := addUsize headerSize dataSize
    match readHeader file with
    | none => none
    | some header =>
      if !header.check then none
      else if header.userVersion ≠ userVersion then none
      else match slice file headerSize dataEnd with
        | none => none
        | some data =>
          if header.checksum ≠ blake3 (header.zeroChecksum.asBytes.1 ++ data) then none
          else some ⟨file, headerSize, dataEnd, userVersion⟩

def create (dataSize : Nat) (userVersion : UInt64) : Option MmapFile :=
  let total := totalSize dataSize
  if maxFileLength < total then none
  else some ⟨List.replicate total 0, headerSize, total, userVersion⟩

variable (pool : MmapFile)

def asSlice : Option Bytes := slice pool.mmap pool.dataStart pool.dataEnd

/-- `as_mut_slice()[index] = byte`. -/
def setByte (index : Nat) (byte : UInt8) : Option MmapFile :=
  match pool.asSlice with
  | none => none
  | some data =>
    if index < data.length then some { pool with mmap := pool.mmap.set (pool.dataStart + index) byte }
    else none

def flush (times : Times) : Option MmapFile :=
  let header := flushHeader times pool.userVersion
  if pool.mmap.length < headerSize then none
  else
    let dataPages := (pool.mmap.length - headerSize) / pageSize
    match hashPages pool.mmap headerSize dataPages header.asBytes.1 with
    | none => none
    | some hashed =>
      some { pool with
        mmap := overwrite pool.mmap 0 (header.setChecksum (blake3 hashed)).asBytes.1 }

end MmapFile

/-! ### Memories with a file behind them -/

/-- The longest mapping. -/
def maxMappingLength : Nat := 2 ^ 63 - 1

structure FileBackedMemory where
  memory : Bytes
  file : Bytes
  fileDataStart : Nat
  fileDataEnd : Nat
  userVersion : UInt64

namespace FileBackedMemory

variable (blake3 : Bytes → Digest)

/-- Read pages into memory, feeding them to the hasher. -/
def readPages (file : Bytes) : Nat → Nat → Bytes → Bytes → Option (Bytes × Bytes)
  | 0, _, memory, hasher => some (memory, hasher)
  | pages + 1, start, memory, hasher =>
    match slice memory start (start + pageSize),
        slice file (headerSize + start) (headerSize + start + pageSize) with
    | some _, some page =>
      readPages file pages (start + pageSize) (overwrite memory start page) (hasher ++ page)
    | _, _ => none

def openFile (file : Bytes) (dataSize : Nat) (userVersion : UInt64) : Option FileBackedMemory :=
  if file.length ≠ totalSize dataSize then none
  else if maxMappingLength < dataSize then none
  else
    let fileDataEnd := addUsize headerSize dataSize
    let dataPages := (fileDataEnd - headerSize) / pageSize
    match readHeader file with
    | none => none
    | some header =>
      if !header.check then none
      else if header.userVersion ≠ userVersion then none
      else match readPages file dataPages 0 (List.replicate dataSize 0)
          header.zeroChecksum.asBytes.1 with
        | none => none
        | some (memory, hashed) =>
          if header.checksum ≠ blake3 hashed then none
          else some ⟨memory, file, headerSize, fileDataEnd, userVersion⟩

def create (dataSize : Nat) (userVersion : UInt64) : Option FileBackedMemory :=
  let total := totalSize dataSize
  if maxFileLength < total then none
  else if maxMappingLength < dataSize then none
  else some ⟨List.replicate dataSize 0, List.replicate total 0, headerSize, total, userVersion⟩

variable (pool : FileBackedMemory)

def asSlice : Option Bytes := some pool.memory

/-- `as_mut_slice()[index] = byte`. -/
def setByte (index : Nat) (byte : UInt8) : Option FileBackedMemory :=
  if index < pool.memory.length then some { pool with memory := pool.memory.set index byte }
  else none

/-- Write pages of memory to the file, feeding them to the hasher. -/
def writePages (memory : Bytes) : Nat → Nat → Bytes → Bytes → Option (Bytes × Bytes)
  | 0, _, file, hasher => some (file, hasher)
  | pages + 1, start, file, hasher =>
    match slice memory start (start + pageSize) with
    | none => none
    | some page =>
      writePages memory pages (start + pageSize) (overwrite file (headerSize + start) page)
        (hasher ++ page)

def flush (times : Times) : Option FileBackedMemory :=
  let header := flushHeader times pool.userVersion
  let dataPages := (pool.fileDataEnd - pool.fileDataStart) / pageSize
  match writePages pool.memory dataPages 0 pool.file header.asBytes.1 with
  | none => none
  | some (file, hashed) =>
    some { pool with file := overwrite file 0 (header.setChecksum (blake3 hashed)).asBytes.1 }

end FileBackedMemory

end CacheRs.Datatier
