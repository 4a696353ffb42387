/-
**Hashtable slot words.**

A slot packs a 12-bit tag, an 8-bit frequency and a 44-bit location into one atomic word; zero is the
empty slot and the all-ones location marks a ghost. The table's protocols exchange whole words; they
are modelled on the unpacked record:

* `Packed.ofWord_toWord`, `Packed.toWord_injective`: two records are equal exactly when their words
  are, so exchanging records is exchanging words;
* `Packed.toWord_eq_zero`: the empty record is the zero word;
* `Packed.isLive`, `withFreq_isLive`, `toGhost_not_isLive`: which words publish an entry.
-/

import CacheRs.Bits.Fields

namespace CacheRs.Hashtable

open Bits

/-- An opaque 44-bit location. -/
abbrev Location := BitVec 44

/-- The location of a ghost entry: all 44 bits set. -/
def Location.ghost : Location := BitVec.allOnes 44

/-- An unpacked slot word. -/
@[ext] structure Packed where
  tag : BitVec 12
  freq : BitVec 8
  location : Location
  deriving DecidableEq, Repr

namespace Packed

/-- The word of an empty slot. -/
def empty : Packed := ⟨0, 0, 0⟩

/-- `[12 bits tag][8 bits freq][44 bits location]`. -/
def toWord (packed : Packed) : BitVec 64 :=
  (packed.tag.setWidth 64 <<< 52) ||| (packed.freq.setWidth 64 <<< 44) |||
    packed.location.setWidth 64

/-- Read the fields back. -/
def ofWord (word : BitVec 64) : Packed :=
  ⟨(word >>> 52).setWidth 12, (word >>> 44).setWidth 8, word.setWidth 44⟩

/-- The word is the three fields side by side. -/
theorem toWord_eq (packed : Packed) :
    packed.toWord = threeFields 64 packed.tag packed.freq packed.location := rfl

@[simp] theorem ofWord_toWord (packed : Packed) : ofWord packed.toWord = packed := by
  have fits : 12 + 8 + 44 ≤ 64 := by omega
  rw [toWord_eq]
  apply Packed.ext
  · exact high_threeFields fits
  · exact middle_threeFields fits
  · exact low_threeFields fits

@[simp] theorem toWord_ofWord (word : BitVec 64) : (ofWord word).toWord = word :=
  threeFields_fields (p := 12) (q := 8) (r := 44) rfl word

/-- **A word determines its record.** -/
theorem toWord_injective : Function.Injective toWord :=
  Function.LeftInverse.injective ofWord_toWord

/-- Only the empty record packs to zero. -/
theorem toWord_eq_zero {packed : Packed} : packed.toWord = 0 ↔ packed = empty := by
  have zero : empty.toWord = 0 := by decide
  rw [← zero]
  exact toWord_injective.eq_iff

/-- A ghost keeps a tag and a frequency. -/
def isGhost (packed : Packed) : Bool := packed ≠ empty && packed.location = Location.ghost

/-- A live entry: neither empty nor a ghost. -/
def isLive (packed : Packed) : Bool := packed ≠ empty && packed.location ≠ Location.ghost

def toGhost (packed : Packed) : Packed := ⟨packed.tag, packed.freq, Location.ghost⟩

def withFreq (packed : Packed) (freq : BitVec 8) : Packed := { packed with freq := freq }

/-- The adaptive software frequency counter: certain up to 16, then once in `freq` draws, never from
127 on. -/
def tryUpdateFreq (packed : Packed) (freq : BitVec 8) (draw : UInt64) : Option Packed :=
  if 127 ≤ freq.toNat then none
  else if freq.toNat ≤ 16 || draw.toNat % freq.toNat = 0 then some (packed.withFreq (freq + 1))
  else none

@[simp] theorem withFreq_tag (packed : Packed) (freq : BitVec 8) :
    (packed.withFreq freq).tag = packed.tag := rfl

@[simp] theorem withFreq_location (packed : Packed) (freq : BitVec 8) :
    (packed.withFreq freq).location = packed.location := rfl

@[simp] theorem empty_not_isLive : empty.isLive = false := rfl

@[simp] theorem toGhost_not_isLive (packed : Packed) : packed.toGhost.isLive = false := by
  simp [isLive, toGhost]

theorem isLive_location_ne_ghost {packed : Packed} (live : packed.isLive = true) :
    packed.location ≠ Location.ghost := by
  simp only [isLive, Bool.and_eq_true, decide_eq_true_eq] at live
  exact live.2

/-- A word with a real location publishes an entry, whatever its tag and frequency. -/
theorem isLive_of_location {packed : Packed} (nonzero : packed.location ≠ 0)
    (real : packed.location ≠ Location.ghost) : packed.isLive = true := by
  have used : packed ≠ empty := fun same => nonzero (congrArg Packed.location same)
  simp [isLive, used, real]

theorem isGhost_location {packed : Packed} (ghost : packed.isGhost = true) :
    packed.location = Location.ghost := by
  simp only [isGhost, Bool.and_eq_true, decide_eq_true_eq] at ghost
  exact ghost.2

theorem not_isLive_of_ghost {packed : Packed} (ghost : packed.location = Location.ghost) :
    packed.isLive = false := by
  simp [isLive, ghost]

/-- Bumping a frequency keeps the tag and the location. -/
theorem tryUpdateFreq_keeps {packed bumped : Packed} {freq : BitVec 8} {draw : UInt64}
    (updated : packed.tryUpdateFreq freq draw = some bumped) :
    bumped.tag = packed.tag ∧ bumped.location = packed.location := by
  unfold tryUpdateFreq at updated
  split at updated
  · cases updated
  · split at updated
    · cases updated
      exact ⟨rfl, rfl⟩
    · cases updated

end Packed

end CacheRs.Hashtable
