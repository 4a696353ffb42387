/-
**The slot word and its location, bit by bit.**

`Packed` is the record behind a slot word. Here the words are the source's own: a `u64` for a slot, a
`u64` for a location, shifts and masks.

* `packLocation_eq`, `Hashbucket.pack_eq`: both compositions are three fields side by side;
* `unpackLocation_packLocation`, `tag_packLocation`: a location gives its parts back;
* `Hashbucket.ofWord_pack`, `ofWord_withFreq`, `ofWord_toGhost`, `ofWord_tryUpdateFreq`, `ofWord_relink`:
  the operations on words are those of the record;
* `Hashbucket.Update`: everything the table ever exchanges a word for, and
  `Hashbucket.Update.freq_le`: none of it takes a frequency above 127.
-/

import CacheRs.Bits.Fields
import CacheRs.Hashtable.Table

namespace CacheRs.Hashtable

open Bits

/-- The raw value of a location. -/
abbrev RawLocation := BitVec 64

namespace RawLocation

def segIdBits : Nat := 18

def tagBits : Nat := 6

def offsetBits : Nat := 20

def tagShift : Nat := offsetBits

def segIdShift : Nat := offsetBits + tagBits

def tagMask : BitVec 64 := (1 <<< tagBits) - 1

def offsetMask : BitVec 64 := (1 <<< offsetBits) - 1

/-- All 44 bits set. -/
def maxRaw : BitVec 64 := 0xFFFFFFFFFFF

/-- The capacity of the id field. -/
def maxSegmentId : Nat := (1 <<< segIdBits) - 1

/-- The largest id ever issued, one below the capacity. -/
def maxSegments : Nat := maxSegmentId - 1

/-- The largest segment whose every 8-aligned offset the offset field can encode. -/
def maxSegmentBytes : Nat := 1 <<< (offsetBits + 3)

def ghost : RawLocation := maxRaw

/-- Mask to 44 bits. -/
def fromRaw (raw : BitVec 64) : RawLocation := raw &&& maxRaw

def isGhost (location : RawLocation) : Bool := location = ghost

/-- The incarnation tag. -/
def tag (location : RawLocation) : BitVec 8 := ((location >>> tagShift) &&& tagMask).setWidth 8

end RawLocation

open RawLocation

/-- The incarnation tag of a location published under this generation. -/
def tagForGeneration (generation : BitVec 16) : BitVec 8 :=
  ((generation.setWidth 64) &&& tagMask).setWidth 8

/-- Compose a location. A debug build also asserts that the id and the offset fit. -/
def packLocation (segId : BitVec 32) (generation : BitVec 16) (offset : BitVec 64) : RawLocation :=
  let tag := (tagForGeneration generation).setWidth 64
  (segId.setWidth 64 <<< segIdShift) ||| (tag <<< tagShift) ||| ((offset >>> 3) &&& offsetMask)

/-- The segment id and the byte offset of a location. -/
def unpackLocation (location : RawLocation) : BitVec 32 × BitVec 64 :=
  ((location >>> segIdShift).setWidth 32, (location &&& offsetMask) <<< 3)

namespace Hashbucket

def pack (tag : BitVec 16) (freq : BitVec 8) (location : RawLocation) : BitVec 64 :=
  let tag64 := (tag.setWidth 64 &&& 0xFFF) <<< 52
  let freq64 := (freq.setWidth 64 &&& 0xFF) <<< 44
  let loc64 := location &&& maxRaw
  tag64 ||| freq64 ||| loc64

def tag (packed : BitVec 64) : BitVec 16 := (packed >>> 52).setWidth 16

def freq (packed : BitVec 64) : BitVec 8 := ((packed >>> 44) &&& 0xFF).setWidth 8

def location (packed : BitVec 64) : RawLocation := fromRaw packed

def isGhost (packed : BitVec 64) : Bool := packed ≠ 0 && (location packed).isGhost

def packGhost (tag : BitVec 16) (freq : BitVec 8) : BitVec 64 := pack tag freq RawLocation.ghost

def toGhost (packed : BitVec 64) : BitVec 64 := packGhost (tag packed) (freq packed)

def withFreq (packed : BitVec 64) (freq : BitVec 8) : BitVec 64 :=
  let freqMask := 0xFF#64 <<< 44
  (packed &&& ~~~freqMask) ||| (freq.setWidth 64 <<< 44)

def tryUpdateFreq (packed : BitVec 64) (freq : BitVec 8) (draw : UInt64) : Option (BitVec 64) :=
  if 127 ≤ freq.toNat then none
  else
    let shouldIncrement := if freq.toNat ≤ 16 then true else draw.toNat % freq.toNat = 0
    if shouldIncrement then some (withFreq packed (freq + 1)) else none

/-- The word `try_cas_in_bucket` swaps in, unless the slot is not the caller's entry any more. -/
def relink (packed : BitVec 64) (ownTag : BitVec 16) (oldLocation newLocation : RawLocation)
    (how : RelinkFreq) : Option (BitVec 64) :=
  if packed = 0 || isGhost packed || tag packed ≠ ownTag || location packed ≠ oldLocation then none
  else some (pack ownTag (relinkFreq how (freq packed)) newLocation)

/-- The word `cas_location_at` swaps in, unless the slot is not the caller's entry any more. -/
def relinkAt (packed : BitVec 64) (slotTag : BitVec 16) (oldLocation newLocation : RawLocation)
    (preserveFreq : Bool) : Option (BitVec 64) :=
  if packed = 0 || isGhost packed then none
  else if tag packed ≠ slotTag || location packed ≠ oldLocation then none
  else some (pack slotTag (if preserveFreq then freq packed else 1) newLocation)

end Hashbucket

/-! ### Locations -/

theorem tagMask_eq : tagMask = lowMask 64 6 := by decide

theorem offsetMask_eq : offsetMask = lowMask 64 20 := by decide

theorem maxRaw_eq : maxRaw = lowMask 64 44 := by decide

/-- The tag of a generation is its six lowest bits. -/
theorem tagForGeneration_eq (generation : BitVec 16) :
    tagForGeneration generation = (generation.setWidth 6).setWidth 8 := by
  rw [tagForGeneration, tagMask_eq, and_lowMask]
  refine BitVec.eq_of_getLsbD_eq fun i inside => ?_
  simp [inside]

/-- **A location is its id, its incarnation tag and its offset in eights, side by side.** -/
theorem packLocation_eq {segId : BitVec 32} (small : segId.toNat < 2 ^ 18)
    (generation : BitVec 16) (offset : BitVec 64) :
    packLocation segId generation offset
      = threeFields 64 (segId.setWidth 18) (generation.setWidth 6) ((offset >>> 3).setWidth 20) := by
  have id : (segId.setWidth 18).setWidth 64 = segId.setWidth 64 := setWidth_setWidth_of_lt small
  have tag : (tagForGeneration generation).setWidth 64 = (generation.setWidth 6).setWidth 64 := by
    have narrow : (generation.setWidth 6).toNat < 2 ^ 8 := by
      have := (generation.setWidth 6).isLt
      omega
    rw [tagForGeneration_eq, setWidth_setWidth_of_lt narrow]
  simp only [packLocation, threeFields, id, tag, offsetMask_eq, and_lowMask]
  rfl

/-- No bit above the 44: the debug assertion of `Location::new` holds. -/
theorem fromRaw_packLocation {segId : BitVec 32} (small : segId.toNat < 2 ^ 18)
    (generation : BitVec 16) (offset : BitVec 64) :
    fromRaw (packLocation segId generation offset) = packLocation segId generation offset := by
  rw [packLocation_eq small, fromRaw, maxRaw_eq]
  refine BitVec.eq_of_getLsbD_eq fun i inside => ?_
  rw [BitVec.getLsbD_and, getLsbD_lowMask, getLsbD_threeFields (by omega)]
  by_cases below : i < 44
  · simp [below, inside]
  · have ends : (segId.setWidth 18).getLsbD (i - (6 + 20)) = false :=
      BitVec.getLsbD_of_ge _ _ (by omega)
    simp only [show ¬ i < 20 by omega, show ¬ i < 6 + 20 by omega, below, ends, if_false,
      decide_false, Bool.and_false]

/-- An 8-aligned offset below 8 MiB survives its twenty bits. -/
theorem offset_units {offset : BitVec 64} (aligned : offset.toNat % 8 = 0)
    (below : offset.toNat < maxSegmentBytes) :
    ((offset >>> 3).setWidth 20).setWidth 64 <<< 3 = offset := by
  have limit : offset.toNat < 2 ^ 23 := below
  have units : offset.toNat / 8 < 2 ^ 20 := by omega
  apply BitVec.eq_of_toNat_eq
  rw [BitVec.toNat_shiftLeft, BitVec.toNat_setWidth, BitVec.toNat_setWidth, BitVec.toNat_ushiftRight,
    Nat.shiftRight_eq_div_pow, Nat.shiftLeft_eq]
  omega

/-- **A location gives its id and its offset back.** -/
theorem unpackLocation_packLocation {segId : BitVec 32} {offset : BitVec 64}
    (small : segId.toNat < 2 ^ 18) (generation : BitVec 16) (aligned : offset.toNat % 8 = 0)
    (below : offset.toNat < maxSegmentBytes) :
    unpackLocation (packLocation segId generation offset) = (segId, offset) := by
  have id : ((segId.setWidth 18).setWidth 64).setWidth 32 = segId := by
    rw [setWidth_setWidth_of_lt small]
    exact (BitVec.setWidth_setWidth_of_le _ (by omega)).trans (BitVec.setWidth_eq segId)
  have shift : segIdShift = 6 + 20 := rfl
  rw [packLocation_eq small, unpackLocation, shift, threeFields_shiftRight (by omega), id,
    offsetMask_eq, and_lowMask, low_threeFields (by omega), offset_units aligned below]

/-- **A location gives its generation's six lowest bits back.** -/
theorem tag_packLocation {segId : BitVec 32} (small : segId.toNat < 2 ^ 18)
    (generation : BitVec 16) (offset : BitVec 64) :
    (packLocation segId generation offset).tag = tagForGeneration generation := by
  have shift : tagShift = 20 := rfl
  rw [packLocation_eq small, RawLocation.tag, shift, tagMask_eq, and_lowMask,
    middle_threeFields (by omega), tagForGeneration_eq]
  exact BitVec.setWidth_setWidth_of_le _ (by omega)

theorem tagForGeneration_toNat (generation : BitVec 16) :
    (tagForGeneration generation).toNat = generation.toNat % 64 := by
  rw [tagForGeneration_eq, BitVec.toNat_setWidth, BitVec.toNat_setWidth]
  omega

/-- An issued id never reads as the ghost marker. -/
theorem packLocation_ne_ghost {segId : BitVec 32} (issued : segId.toNat ≤ maxSegments)
    (generation : BitVec 16) (offset : BitVec 64) :
    packLocation segId generation offset ≠ RawLocation.ghost := by
  intro same
  have limit : segId.toNat ≤ 2 ^ 18 - 2 := issued
  have small : segId.toNat < 2 ^ 18 := by omega
  have id : segId.setWidth 18 = BitVec.allOnes 18 := by
    have high : (packLocation segId generation offset >>> (6 + 20)).setWidth 18
        = segId.setWidth 18 := by
      rw [packLocation_eq small]
      exact high_threeFields (by omega)
    rw [← high, same]
    decide
  have value := congrArg BitVec.toNat id
  rw [BitVec.toNat_setWidth, BitVec.toNat_allOnes] at value
  omega

theorem packLocation_ne_zero {segId : BitVec 32} (used : 1 ≤ segId.toNat)
    (small : segId.toNat < 2 ^ 18) (generation : BitVec 16) (offset : BitVec 64) :
    packLocation segId generation offset ≠ 0 := by
  intro same
  have id : (packLocation segId generation offset >>> (6 + 20)) = segId.setWidth 64 := by
    rw [packLocation_eq small, threeFields_shiftRight (by omega), setWidth_setWidth_of_lt small]
  rw [same] at id
  have value := congrArg BitVec.toNat id
  rw [BitVec.toNat_setWidth] at value
  have zero : ((0 : BitVec 64) >>> (6 + 20)).toNat = 0 := by decide
  omega

/-- **Distinct places have distinct locations.** -/
theorem packLocation_injective {segId segId' : BitVec 32} {generation generation' : BitVec 16}
    {offset offset' : BitVec 64} (small : segId.toNat < 2 ^ 18) (small' : segId'.toNat < 2 ^ 18)
    (aligned : offset.toNat % 8 = 0) (aligned' : offset'.toNat % 8 = 0)
    (below : offset.toNat < maxSegmentBytes) (below' : offset'.toNat < maxSegmentBytes)
    (same : packLocation segId generation offset = packLocation segId' generation' offset') :
    (segId, generation.toNat % 64, offset) = (segId', generation'.toNat % 64, offset') := by
  have place : (segId, offset) = (segId', offset') := by
    rw [← unpackLocation_packLocation small generation aligned below, same]
    exact unpackLocation_packLocation small' generation' aligned' below'
  have age : generation.toNat % 64 = generation'.toNat % 64 := by
    rw [← tagForGeneration_toNat, ← tagForGeneration_toNat, ← tag_packLocation small generation offset,
      same, tag_packLocation small']
  obtain ⟨rfl, rfl⟩ := Prod.mk.inj place
  rw [age]

/-! ### Slot words -/

namespace Hashbucket

/-- What the three accessors read in a word. -/
structure Reads (packed : BitVec 64) (ownTag : BitVec 16) (ownFreq : BitVec 8)
    (ownLocation : RawLocation) : Prop where
  tag : tag packed = ownTag
  freq : freq packed = ownFreq
  location : location packed = ownLocation

theorem tag_eq (packed : BitVec 64) : tag packed = (Packed.ofWord packed).tag.setWidth 16 := by
  have small : (packed >>> 52).toNat < 2 ^ 12 := by
    rw [BitVec.toNat_ushiftRight, Nat.shiftRight_eq_div_pow]
    have := packed.isLt
    omega
  exact (setWidth_setWidth_of_lt small).symm

theorem freq_eq (packed : BitVec 64) : freq packed = (Packed.ofWord packed).freq := by
  have mask : (0xFF : BitVec 64) = lowMask 64 8 := by decide
  rw [freq, mask, and_lowMask]
  exact (BitVec.setWidth_setWidth_of_le _ (by omega)).trans (BitVec.setWidth_eq _)

theorem location_eq (packed : BitVec 64) :
    location packed = (Packed.ofWord packed).location.setWidth 64 := by
  rw [location, fromRaw, maxRaw_eq, and_lowMask]
  rfl

/-- A word reads what its record holds. -/
theorem reads_toWord (packed : Packed) :
    Reads packed.toWord (packed.tag.setWidth 16) packed.freq (packed.location.setWidth 64) := by
  refine ⟨?_, ?_, ?_⟩
  · rw [tag_eq, Packed.ofWord_toWord]
  · rw [freq_eq, Packed.ofWord_toWord]
  · rw [location_eq, Packed.ofWord_toWord]

/-- **A packed word is the record of its truncated fields.** -/
theorem pack_eq (ownTag : BitVec 16) (ownFreq : BitVec 8) (ownLocation : RawLocation) :
    pack ownTag ownFreq ownLocation
      = (⟨ownTag.setWidth 12, ownFreq, ownLocation.setWidth 44⟩ : Packed).toWord := by
  have tagMask : (0xFFF : BitVec 64) = lowMask 64 12 := by decide
  have freqMask : (0xFF : BitVec 64) = lowMask 64 8 := by decide
  have tag : ((ownTag.setWidth 64).setWidth 12).setWidth 64
      = (ownTag.setWidth 12).setWidth 64 :=
    congrArg (BitVec.setWidth 64) (BitVec.setWidth_setWidth_of_le _ (by omega))
  have freq : ((ownFreq.setWidth 64).setWidth 8).setWidth 64 = ownFreq.setWidth 64 := by
    congr 1
    exact (BitVec.setWidth_setWidth_of_le _ (by omega)).trans (BitVec.setWidth_eq _)
  simp only [pack, Packed.toWord, tagMask, freqMask, maxRaw_eq, and_lowMask, tag, freq]

@[simp] theorem ofWord_pack (ownTag : BitVec 16) (ownFreq : BitVec 8) (ownLocation : RawLocation) :
    Packed.ofWord (pack ownTag ownFreq ownLocation)
      = ⟨ownTag.setWidth 12, ownFreq, ownLocation.setWidth 44⟩ := by
  rw [pack_eq, Packed.ofWord_toWord]

/-- A packed word reads back what fits its fields. -/
theorem reads_pack {ownTag : BitVec 16} (small : ownTag.toNat < 2 ^ 12) (ownFreq : BitVec 8)
    (ownLocation : RawLocation) :
    Reads (pack ownTag ownFreq ownLocation) ownTag ownFreq (fromRaw ownLocation) := by
  have tag : (ownTag.setWidth 12).setWidth 16 = ownTag := by
    rw [setWidth_setWidth_of_lt small, BitVec.setWidth_eq]
  have location : fromRaw ownLocation = (ownLocation.setWidth 44).setWidth 64 := by
    rw [fromRaw, maxRaw_eq, and_lowMask]
  have reads := reads_toWord ⟨ownTag.setWidth 12, ownFreq, ownLocation.setWidth 44⟩
  rwa [← pack_eq, tag, ← location] at reads

/-- Every word's tag fits its twelve bits. -/
theorem tag_lt (packed : BitVec 64) : (tag packed).toNat < 2 ^ 12 := by
  have small := (Packed.ofWord packed).tag.isLt
  rw [tag_eq, BitVec.toNat_setWidth]
  omega

theorem eq_zero_iff (packed : BitVec 64) : packed = 0 ↔ Packed.ofWord packed = Packed.empty := by
  rw [← Packed.toWord_eq_zero, Packed.toWord_ofWord]

/-- The marker's record. -/
theorem location_isGhost (packed : BitVec 64) :
    (location packed).isGhost = decide ((Packed.ofWord packed).location = Location.ghost) := by
  have marker : RawLocation.ghost = (Location.ghost).setWidth 64 := by decide
  rw [RawLocation.isGhost, location_eq, marker]
  refine decide_eq_decide.mpr ⟨fun same => ?_, fun same => by rw [same]⟩
  have narrow := congrArg (BitVec.setWidth 44) same
  rwa [BitVec.setWidth_setWidth_of_le _ (by omega), BitVec.setWidth_setWidth_of_le _ (by omega),
    BitVec.setWidth_eq, BitVec.setWidth_eq] at narrow

/-- **The ghost test on words is the record's.** -/
theorem isGhost_eq (packed : BitVec 64) : isGhost packed = (Packed.ofWord packed).isGhost := by
  rw [isGhost, location_isGhost, Packed.isGhost]
  congr 1
  exact decide_eq_decide.mpr (not_congr (eq_zero_iff packed))

/-! ### Updates -/

/-- **Writing a frequency changes that field alone.** -/
theorem withFreq_eq (packed : BitVec 64) (newFreq : BitVec 8) :
    withFreq packed newFreq = ((Packed.ofWord packed).withFreq newFreq).toWord := by
  have mask : (0xFF#64 <<< 44 : BitVec 64) = lowMask 64 8 <<< 44 := by decide
  rw [withFreq, mask]
  exact replaceMiddle_eq (by omega) packed newFreq

theorem ofWord_withFreq (packed : BitVec 64) (newFreq : BitVec 8) :
    Packed.ofWord (withFreq packed newFreq) = (Packed.ofWord packed).withFreq newFreq := by
  rw [withFreq_eq, Packed.ofWord_toWord]

theorem reads_withFreq (packed : BitVec 64) (newFreq : BitVec 8) :
    Reads (withFreq packed newFreq) (tag packed) newFreq (location packed) := by
  rw [withFreq_eq, tag_eq, location_eq]
  exact reads_toWord _

theorem reads_toGhost (packed : BitVec 64) :
    Reads (toGhost packed) (tag packed) (freq packed) RawLocation.ghost := by
  have marker : fromRaw RawLocation.ghost = RawLocation.ghost := by decide
  have reads := reads_pack (tag_lt packed) (freq packed) RawLocation.ghost
  rwa [marker] at reads

theorem ofWord_toGhost (packed : BitVec 64) :
    Packed.ofWord (toGhost packed) = (Packed.ofWord packed).toGhost := by
  have tag : (tag packed).setWidth 12 = (Packed.ofWord packed).tag := by
    rw [tag_eq]
    exact (BitVec.setWidth_setWidth_of_le _ (by omega)).trans (BitVec.setWidth_eq _)
  have marker : RawLocation.ghost.setWidth 44 = Location.ghost := by decide
  rw [toGhost, packGhost, ofWord_pack, tag, freq_eq, marker]
  rfl

/-- A frequency bump on words is the record's. -/
theorem ofWord_tryUpdateFreq (packed : BitVec 64) (ownFreq : BitVec 8) (draw : UInt64) :
    (tryUpdateFreq packed ownFreq draw).map Packed.ofWord
      = (Packed.ofWord packed).tryUpdateFreq ownFreq draw := by
  unfold tryUpdateFreq Packed.tryUpdateFreq
  by_cases saturated : 127 ≤ ownFreq.toNat
  · simp [saturated]
  · by_cases certain : ownFreq.toNat ≤ 16
    · simp [saturated, certain, ofWord_withFreq]
    · by_cases lucky : draw.toNat % ownFreq.toNat = 0
      · simp [saturated, certain, lucky, ofWord_withFreq]
      · simp [saturated, certain, lucky]

/-- A bump happens below 127 only, and adds one. -/
theorem tryUpdateFreq_some {packed new : BitVec 64} {ownFreq : BitVec 8} {draw : UInt64}
    (updated : tryUpdateFreq packed ownFreq draw = some new) :
    ownFreq.toNat < 127 ∧ new = withFreq packed (ownFreq + 1) := by
  unfold tryUpdateFreq at updated
  by_cases saturated : 127 ≤ ownFreq.toNat
  · simp [saturated] at updated
  · rw [if_neg saturated] at updated
    obtain ⟨-, same⟩ := Option.ite_none_right_eq_some.mp updated
    exact ⟨by omega, (Option.some.inj same).symm⟩

/-- The entry a relink accepts. -/
theorem relink_some {packed new : BitVec 64} {ownTag : BitVec 16}
    {oldLocation newLocation : RawLocation} {how : RelinkFreq}
    (swapped : relink packed ownTag oldLocation newLocation how = some new) :
    tag packed = ownTag ∧ new = pack (tag packed) (relinkFreq how (freq packed)) newLocation := by
  unfold relink at swapped
  split at swapped
  · cases swapped
  · next accepted =>
    have own : tag packed = ownTag := by
      by_contra other
      exact accepted (by simp [other])
    exact ⟨own, by rw [own]; exact (Option.some.inj swapped).symm⟩

theorem relinkAt_some {packed new : BitVec 64} {slotTag : BitVec 16}
    {oldLocation newLocation : RawLocation} {preserveFreq : Bool}
    (swapped : relinkAt packed slotTag oldLocation newLocation preserveFreq = some new) :
    tag packed = slotTag ∧
      new = pack (tag packed) (if preserveFreq then freq packed else 1) newLocation := by
  unfold relinkAt at swapped
  split at swapped
  · cases swapped
  · split at swapped
    · cases swapped
    · next accepted =>
      have own : tag packed = slotTag := by
        by_contra other
        exact accepted (by simp [other])
      exact ⟨own, by rw [own]; exact (Option.some.inj swapped).symm⟩

/-- The words a relink accepts publish the entry, as in the table's protocol. -/
theorem accepts_iff_publishes (packed : Packed) (ownTag : BitVec 12) (oldLocation : Location) :
    (packed.toWord = 0 ∨ isGhost packed.toWord = true ∨ tag packed.toWord ≠ ownTag.setWidth 16 ∨
        location packed.toWord ≠ oldLocation.setWidth 64) ↔
      publishes ownTag oldLocation packed = false := by
  have reads := reads_toWord packed
  have tags : packed.tag.setWidth 16 = ownTag.setWidth 16 ↔ packed.tag = ownTag := by
    refine ⟨fun same => ?_, fun same => by rw [same]⟩
    simpa [BitVec.setWidth_setWidth_of_le] using congrArg (BitVec.setWidth 12) same
  have locations : packed.location.setWidth 64 = oldLocation.setWidth 64 ↔
      packed.location = oldLocation := by
    refine ⟨fun same => ?_, fun same => by rw [same]⟩
    simpa [BitVec.setWidth_setWidth_of_le] using congrArg (BitVec.setWidth 44) same
  rw [isGhost_eq, Packed.ofWord_toWord, reads.tag, reads.location, Packed.toWord_eq_zero]
  simp only [ne_eq, tags, locations, publishes, Packed.isLive, Packed.isGhost, Bool.and_eq_false_iff,
    Bool.and_eq_true, decide_eq_true_eq, decide_eq_false_iff_not, not_not]
  tauto

/-- **A relink of the table's protocol swaps in the source's word.** -/
theorem relink_toWord (packed : Packed) (ownTag : BitVec 12) (oldLocation newLocation : Location)
    (how : RelinkFreq) :
    relink packed.toWord (ownTag.setWidth 16) (oldLocation.setWidth 64) (newLocation.setWidth 64) how
      = if publishes ownTag oldLocation packed
        then some (⟨ownTag, relinkFreq how packed.freq, newLocation⟩ : Packed).toWord else none := by
  have accepts := accepts_iff_publishes packed ownTag oldLocation
  have new : pack (ownTag.setWidth 16) (relinkFreq how (freq packed.toWord)) (newLocation.setWidth 64)
      = (⟨ownTag, relinkFreq how packed.freq, newLocation⟩ : Packed).toWord := by
    rw [pack_eq, (reads_toWord packed).freq, BitVec.setWidth_setWidth_of_le _ (by omega),
      BitVec.setWidth_setWidth_of_le _ (by omega), BitVec.setWidth_eq, BitVec.setWidth_eq]
  rw [relink, new]
  cases live : publishes ownTag oldLocation packed with
  | true =>
    rw [live] at accepts
    rw [if_neg (by simpa [and_assoc] using accepts), if_pos rfl]
  | false => rw [if_pos (by simpa [or_assoc] using accepts.mpr live), if_neg (by simp)]

/-- Everything the table exchanges the word of an entry for. -/
inductive Update : BitVec 64 → BitVec 64 → Prop
  | bump {packed new : BitVec 64} {ownFreq : BitVec 8} {draw : UInt64}
      (updated : tryUpdateFreq packed ownFreq draw = some new) : Update packed new
  | ghost {packed : BitVec 64} : Update packed (toGhost packed)
  /-- A replacement, or the takeover of a ghost: the new entry inherits the frequency. -/
  | inherit {packed newPacked : BitVec 64} : Update packed (withFreq newPacked (freq packed))
  | relink {packed new : BitVec 64} {ownTag : BitVec 16} {oldLocation newLocation : RawLocation}
      {how : RelinkFreq} (swapped : relink packed ownTag oldLocation newLocation how = some new) :
      Update packed new
  | relinkAt {packed new : BitVec 64} {slotTag : BitVec 16} {oldLocation newLocation : RawLocation}
      {preserveFreq : Bool}
      (swapped : relinkAt packed slotTag oldLocation newLocation preserveFreq = some new) :
      Update packed new

theorem relinkFreq_le (how : RelinkFreq) (ownFreq : BitVec 8) :
    (relinkFreq how ownFreq).toNat ≤ ownFreq.toNat := by
  cases how with
  | preserve => exact le_rfl
  | decrement =>
    unfold relinkFreq
    by_cases zero : ownFreq = 0
    · simp [zero]
    · have positive : 1 ≤ ownFreq.toNat :=
        Nat.pos_of_ne_zero fun none => zero (BitVec.eq_of_toNat_eq none)
      simp only [zero, if_false, BitVec.toNat_sub]
      have := ownFreq.isLt
      simp
      omega

/-- **No update takes a frequency above 127.** -/
theorem Update.freq_le {packed new : BitVec 64} (update : Update packed new)
    (low : (freq packed).toNat ≤ 127) : (freq new).toNat ≤ 127 := by
  cases update with
  | bump updated =>
    obtain ⟨below, rfl⟩ := tryUpdateFreq_some updated
    rw [(reads_withFreq _ _).freq, BitVec.toNat_add]
    simp
    omega
  | ghost =>
    rw [(reads_toGhost packed).freq]
    exact low
  | inherit =>
    rw [(reads_withFreq _ _).freq]
    exact low
  | relink swapped =>
    obtain ⟨-, rfl⟩ := relink_some swapped
    rw [(reads_pack (tag_lt packed) _ _).freq]
    exact (relinkFreq_le _ _).trans low
  | relinkAt swapped =>
    obtain ⟨-, rfl⟩ := relinkAt_some swapped
    rw [(reads_pack (tag_lt packed) _ _).freq]
    split
    · exact low
    · decide

/-- What each operation on a word leaves as it was. -/
structure Fieldwise (packed : BitVec 64) : Prop where
  withFreq : ∀ newFreq, Reads (withFreq packed newFreq) (tag packed) newFreq (location packed)
  toGhost : Reads (toGhost packed) (tag packed) (freq packed) RawLocation.ghost
  tryUpdateFreq : ∀ ownFreq draw new, tryUpdateFreq packed ownFreq draw = some new →
    Reads new (tag packed) (ownFreq + 1) (location packed)
  relink : ∀ ownTag oldLocation newLocation how new,
    relink packed ownTag oldLocation newLocation how = some new →
      Reads new (tag packed) (relinkFreq how (freq packed)) (fromRaw newLocation)
  relinkAt : ∀ slotTag oldLocation newLocation preserveFreq new,
    relinkAt packed slotTag oldLocation newLocation preserveFreq = some new →
      Reads new (tag packed) (if preserveFreq then freq packed else 1) (fromRaw newLocation)

theorem fieldwise (packed : BitVec 64) : Fieldwise packed where
  withFreq := reads_withFreq packed
  toGhost := reads_toGhost packed
  tryUpdateFreq := by
    intro ownFreq draw new updated
    obtain ⟨-, rfl⟩ := tryUpdateFreq_some updated
    exact reads_withFreq packed _
  relink := by
    intro ownTag oldLocation newLocation how new swapped
    obtain ⟨-, rfl⟩ := relink_some swapped
    exact reads_pack (tag_lt packed) _ _
  relinkAt := by
    intro slotTag oldLocation newLocation preserveFreq new swapped
    obtain ⟨-, rfl⟩ := relinkAt_some swapped
    exact reads_pack (tag_lt packed) _ _

/-- A word gives back all it was packed from, and reads neither as empty nor as a ghost. -/
structure Encodes (packed : BitVec 64) (ownTag : BitVec 16) (ownFreq : BitVec 8)
    (segId : BitVec 32) (generation : BitVec 16) (offset : BitVec 64) : Prop where
  tag : tag packed = ownTag
  freq : freq packed = ownFreq
  address : unpackLocation (location packed) = (segId, offset)
  generation : (location packed).tag.toNat = generation.toNat % 64
  nonzero : packed ≠ 0
  notGhost : isGhost packed = false

theorem encodes_pack {ownTag generation : BitVec 16} {segId : BitVec 32} {offset : BitVec 64}
    (fits : ownTag.toNat < 2 ^ 12) (ownFreq : BitVec 8) (used : 1 ≤ segId.toNat)
    (issued : segId.toNat ≤ maxSegments) (aligned : offset.toNat % 8 = 0)
    (below : offset.toNat < maxSegmentBytes) :
    Encodes (pack ownTag ownFreq (packLocation segId generation offset)) ownTag ownFreq segId
      generation offset := by
  have limit : segId.toNat ≤ 2 ^ 18 - 2 := issued
  have small : segId.toNat < 2 ^ 18 := by omega
  have reads := reads_pack fits ownFreq (packLocation segId generation offset)
  rw [fromRaw_packLocation small] at reads
  refine ⟨reads.tag, reads.freq, ?_, ?_, ?_, ?_⟩
  · rw [reads.location, unpackLocation_packLocation small generation aligned below]
  · rw [reads.location, tag_packLocation small, tagForGeneration_toNat]
  · intro zero
    have empty : location 0 = 0 := by decide
    have read := reads.location
    rw [zero, empty] at read
    exact packLocation_ne_zero used small generation offset read.symm
  · have real : (packLocation segId generation offset).isGhost = false :=
      decide_eq_false (packLocation_ne_ghost issued generation offset)
    rw [isGhost, reads.location, real, Bool.and_false]

end Hashbucket

/-- **A slot word keeps its six fields apart**: what is packed is read back, no entry looks empty or
like a ghost, distinct places have distinct locations, an update changes the fields it names only, and
no update takes a frequency above 127. -/
theorem slotWord_encoding {ownTag generation : BitVec 16} {ownFreq : BitVec 8} {segId : BitVec 32}
    {offset : BitVec 64} (fits : ownTag.toNat < 2 ^ 12) (used : 1 ≤ segId.toNat)
    (issued : segId.toNat ≤ maxSegments) (aligned : offset.toNat % 8 = 0)
    (below : offset.toNat < maxSegmentBytes) :
    Hashbucket.Encodes (Hashbucket.pack ownTag ownFreq (packLocation segId generation offset))
        ownTag ownFreq segId generation offset ∧
      (∀ (segId' : BitVec 32) (generation' : BitVec 16) (offset' : BitVec 64),
        1 ≤ segId'.toNat → segId'.toNat ≤ maxSegments → offset'.toNat % 8 = 0 →
        offset'.toNat < maxSegmentBytes →
        (segId, generation.toNat % 64, offset) ≠ (segId', generation'.toNat % 64, offset') →
        packLocation segId generation offset ≠ packLocation segId' generation' offset') ∧
      ∀ packed, Hashbucket.Fieldwise packed ∧ ∀ new, Hashbucket.Update packed new →
        (Hashbucket.freq packed).toNat ≤ 127 → (Hashbucket.freq new).toNat ≤ 127 := by
  have limit : segId.toNat ≤ 2 ^ 18 - 2 := issued
  refine ⟨Hashbucket.encodes_pack fits ownFreq used issued aligned below, ?_,
    fun packed => ⟨Hashbucket.fieldwise packed, fun new update => update.freq_le⟩⟩
  intro segId' generation' offset' _ issued' aligned' below' distinct same
  have limit' : segId'.toNat ≤ 2 ^ 18 - 2 := issued'
  exact distinct (packLocation_injective (by omega) (by omega) aligned aligned' below below' same)

/-- The last id, the last offset, the largest tag and a generation that wrapped its six bits. -/
theorem slotWord_encoding_limits :
    Hashbucket.Encodes (Hashbucket.pack 0xFFF 0xFF (packLocation 262142 0xFFFF 0x7FFFF8)) 0xFFF 0xFF
      262142 0xFFFF 0x7FFFF8 :=
  (slotWord_encoding (by decide) (by decide) (by decide) (by decide) (by decide)).1

end CacheRs.Hashtable
