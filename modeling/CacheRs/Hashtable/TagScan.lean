/-
**The tag scan, three ways.**

A lookup scans the eight words of a bucket for its tag with one of three functions: AVX2 works on two
registers of four lanes, NEON on four registers of two, and the fallback on one word after another.

* `lane_validAvx2`, `lane_validNeon`: each lane of the vector code is the mask of the scalar test;
* `getLsbD_findTagMatchesAvx2`, `getLsbD_findTagMatchesNeon`, `getLsbD_findTagMatchesScalar`: the
  three masks, bit by bit;
* `findTagMatches_agree`: **the three masks are one, and it names the live entries of the tag**;
* `solo_findTagMatches`: the scan of the table's protocol, run alone, lists the bits of that mask.
-/

import CacheRs.Simd.Lanes
import CacheRs.Hashtable.Resurrection
import CacheRs.Hashtable.SlotWord

namespace CacheRs.Hashtable

open Bits Concurrency Simd

/-- The eight words of a bucket. -/
abbrev Items := Fin 8 → BitVec 64

namespace TagScan

def tagMask : BitVec 64 := 0xFFF0000000000000

def ghostLocation : BitVec 64 := 0x00000FFFFFFFFFFF

/-- What the caller looks for. -/
def tagShifted (tag : BitVec 12) : BitVec 64 := tag.setWidth 64 <<< 52

/-- Consecutive words, read into a register. -/
def load (n : Nat) (items : Items) (start : Nat) : Lanes n 64 :=
  ofLanes n fun i => items (Fin.ofNat 8 (start + i))

/-! ### AVX2 -/

abbrev M256i := Lanes 4 64

def mm256LoadSi256 (items : Items) (start : Nat) : M256i := load 4 items start

def mm256Set1Epi64x (value : BitVec 64) : M256i := splat 4 value

def mm256SetzeroSi256 : M256i := 0

def mm256AndSi256 (a b : M256i) : M256i := a &&& b

def mm256XorSi256 (a b : M256i) : M256i := a ^^^ b

def mm256CmpeqEpi64 (a b : M256i) : M256i := compareEq a b

/-- The cast to doubles before it is free. -/
def mm256MovemaskPd (a : M256i) : BitVec 32 := (movemask a).setWidth 32

/-- The lanes of four slots that match. -/
def validAvx2 (slots : M256i) (tagShifted : BitVec 64) : M256i :=
  let tagMaskVec := mm256Set1Epi64x tagMask
  let tagVec := mm256Set1Epi64x tagShifted
  let ghostVec := mm256Set1Epi64x ghostLocation
  let zero := mm256SetzeroSi256
  let allOnes := mm256Set1Epi64x (-1)
  let tags := mm256AndSi256 slots tagMaskVec
  let tagMatch := mm256CmpeqEpi64 tags tagVec
  let nonzero := mm256XorSi256 (mm256CmpeqEpi64 slots zero) allOnes
  let locs := mm256AndSi256 slots (mm256Set1Epi64x ghostLocation)
  let nonghost := mm256XorSi256 (mm256CmpeqEpi64 locs ghostVec) allOnes
  mm256AndSi256 tagMatch (mm256AndSi256 nonzero nonghost)

def findTagMatchesAvx2 (items : Items) (tagShifted : BitVec 64) : BitVec 8 :=
  let valid03 := validAvx2 (mm256LoadSi256 items 0) tagShifted
  let valid47 := validAvx2 (mm256LoadSi256 items 4) tagShifted
  let mask03 := (mm256MovemaskPd valid03).setWidth 8
  let mask47 := (mm256MovemaskPd valid47).setWidth 8
  mask03 ||| (mask47 <<< 4)

/-! ### NEON -/

abbrev Uint64x2 := Lanes 2 64

abbrev Uint32x4 := Lanes 4 32

def ld1 (items : Items) (start : Nat) : Uint64x2 := load 2 items start

def vdupqNU64 (value : BitVec 64) : Uint64x2 := splat 2 value

def vandqU64 (a b : Uint64x2) : Uint64x2 := map₂ (· &&& ·) a b

def vandqU32 (a b : Uint32x4) : Uint32x4 := map₂ (· &&& ·) a b

def vmvnqU32 (a : Uint32x4) : Uint32x4 := map (~~~·) a

def vceqqU64 (a b : Uint64x2) : Uint64x2 := compareEq a b

def vreinterpretqU32U64 (a : Uint64x2) : Uint32x4 :=
  reinterpret (n := 2) (w := 64) (m := 4) (v := 32) rfl a

def vreinterpretqU64U32 (a : Uint32x4) : Uint64x2 :=
  reinterpret (n := 4) (w := 32) (m := 2) (v := 64) rfl a

def vgetqLaneU64 (a : Uint64x2) (i : Nat) : BitVec 64 := lane a i

/-- The lanes of two slots that match. -/
def validNeon (slots : Uint64x2) (tagShifted : BitVec 64) : Uint64x2 :=
  let tagMaskVec := vdupqNU64 tagMask
  let tagVec := vdupqNU64 tagShifted
  let ghostVec := vdupqNU64 ghostLocation
  let zeroVec := vdupqNU64 0
  let tags := vandqU64 slots tagMaskVec
  let tagMatch := vceqqU64 tags tagVec
  let nonzero := vmvnqU32 (vreinterpretqU32U64 (vceqqU64 slots zeroVec))
  let locs := vandqU64 slots (vdupqNU64 ghostLocation)
  let nonghost := vmvnqU32 (vreinterpretqU32U64 (vceqqU64 locs ghostVec))
  let valid := vandqU32 (vreinterpretqU32U64 tagMatch) (vandqU32 nonzero nonghost)
  vreinterpretqU64U32 valid

/-- The sign of a lane, as bit `k` of the result. -/
def signBit (v : Uint64x2) (i k : Nat) : BitVec 8 :=
  ((vgetqLaneU64 v i >>> 63) <<< k).setWidth 8

def findTagMatchesNeon (items : Items) (tagShifted : BitVec 64) : BitVec 8 :=
  let v01 := validNeon (ld1 items 0) tagShifted
  let v23 := validNeon (ld1 items 2) tagShifted
  let v45 := validNeon (ld1 items 4) tagShifted
  let v67 := validNeon (ld1 items 6) tagShifted
  signBit v01 0 0 ||| signBit v01 1 1 ||| signBit v23 0 2 ||| signBit v23 1 3 |||
    signBit v45 0 4 ||| signBit v45 1 5 ||| signBit v67 0 6 ||| signBit v67 1 7

/-! ### Scalar -/

/-- The test of one word. -/
def slotMatches (packed tagShifted : BitVec 64) : Bool :=
  packed ≠ 0 && (packed &&& ghostLocation) ≠ ghostLocation && (packed &&& tagMask) = tagShifted

def findTagMatchesScalar (items : Items) (tagShifted : BitVec 64) : BitVec 8 :=
  collect 8 (fun i => slotMatches (items (Fin.ofNat 8 i)) tagShifted) slots

/-! ### The masks, bit by bit -/

theorem lane_load {n : Nat} (items : Items) (start : Nat) {i : Nat} (inside : i < n) :
    lane (load n items start) i = items (Fin.ofNat 8 (start + i)) :=
  lane_ofLanes _ inside

theorem lane_zero {n i : Nat} : lane (0 : Lanes n 64) i = 0 := by
  simp [lane]

/-- **A lane of the AVX2 code is the mask of the scalar test.** -/
theorem lane_validAvx2 (slots : M256i) (tagShifted : BitVec 64) {i : Nat} (inside : i < 4) :
    lane (validAvx2 slots tagShifted) i = maskOf 64 (slotMatches (lane slots i) tagShifted) := by
  have ones : (-1 : BitVec 64) = BitVec.allOnes 64 := by decide
  simp only [validAvx2, mm256AndSi256, mm256XorSi256, mm256CmpeqEpi64, mm256Set1Epi64x,
    mm256SetzeroSi256, lane_and, lane_xor, lane_compareEq _ _ inside, lane_splat _ inside, lane_zero,
    ones, maskOf_xor_allOnes, maskOf_and]
  congr 1
  simp [slotMatches, Bool.and_comm]

/-- **A lane of the NEON code is the mask of the scalar test**, through the narrower lanes. -/
theorem lane_validNeon (slots : Uint64x2) (tagShifted : BitVec 64) {i : Nat} (inside : i < 2) :
    lane (validNeon slots tagShifted) i = maskOf 64 (slotMatches (lane slots i) tagShifted) := by
  simp only [validNeon, vandqU64, vandqU32, vmvnqU32, vceqqU64, vreinterpretqU32U64,
    vreinterpretqU64U32, vdupqNU64, reinterpret_map₂_and, reinterpret_map_not,
    reinterpret_reinterpret, lane_map₂ _ _ _ inside, lane_map _ _ inside, lane_compareEq _ _ inside,
    lane_splat _ inside, maskOf_not, maskOf_and]
  congr 1
  simp [slotMatches, Bool.and_comm]

theorem getLsbD_findTagMatchesScalar (items : Items) (tagShifted : BitVec 64) (i : Fin 8) :
    (findTagMatchesScalar items tagShifted).getLsbD i = slotMatches (items i) tagShifted := by
  have listed : (i : Nat) ∈ slots := List.mem_range.mpr i.isLt
  rw [findTagMatchesScalar, getLsbD_collect _ _ i.isLt]
  simp [listed]

theorem getLsbD_maskAvx2 (items : Items) (tagShifted : BitVec 64) (start i : Nat) :
    ((mm256MovemaskPd (validAvx2 (mm256LoadSi256 items start) tagShifted)).setWidth 8).getLsbD i
      = (decide (i < 4) && slotMatches (items (Fin.ofNat 8 (start + i))) tagShifted) := by
  by_cases inside : i < 4
  · simp only [mm256MovemaskPd, BitVec.getLsbD_setWidth, getLsbD_movemask _ inside,
      lane_validAvx2 _ _ inside, mm256LoadSi256, lane_load _ _ inside, maskOf_msb (by omega : 0 < 64)]
    simp [inside, show i < 8 by omega, show i < 32 by omega]
  · simp only [mm256MovemaskPd, BitVec.getLsbD_setWidth]
    simp [inside, BitVec.getLsbD_of_ge _ _ (Nat.le_of_not_lt inside)]

theorem getLsbD_findTagMatchesAvx2 (items : Items) (tagShifted : BitVec 64) (i : Fin 8) :
    (findTagMatchesAvx2 items tagShifted).getLsbD i = slotMatches (items i) tagShifted := by
  simp only [findTagMatchesAvx2, BitVec.getLsbD_or, BitVec.getLsbD_shiftLeft, getLsbD_maskAvx2]
  by_cases low : (i : Nat) < 4
  · simp [low]
  · simp [low, show (i : Nat) - 4 < 4 by omega, show 4 + ((i : Nat) - 4) = i by omega]

theorem getLsbD_signBit (items : Items) (tagShifted : BitVec 64) (bit : Fin 8) {start i k : Nat}
    (inside : i < 2) (place : start + i = k) (small : k < 8) :
    (signBit (validNeon (ld1 items start) tagShifted) i k).getLsbD bit
      = (decide ((bit : Nat) = k) && slotMatches (items bit) tagShifted) := by
  rw [signBit, vgetqLaneU64, lane_validNeon _ _ inside, ld1, lane_load _ _ inside, place,
    BitVec.getLsbD_setWidth, getLsbD_maskOf_sign (by omega) _ k bit (by omega)]
  by_cases here : (bit : Nat) = k
  · subst here
    simp
  · simp [here]

theorem getLsbD_findTagMatchesNeon (items : Items) (tagShifted : BitVec 64) (i : Fin 8) :
    (findTagMatchesNeon items tagShifted).getLsbD i = slotMatches (items i) tagShifted := by
  simp only [findTagMatchesNeon, BitVec.getLsbD_or]
  rw [getLsbD_signBit _ _ i (by omega) rfl (by omega),
    getLsbD_signBit _ _ i (by omega) rfl (by omega),
    getLsbD_signBit _ _ i (by omega) rfl (by omega),
    getLsbD_signBit _ _ i (by omega) rfl (by omega),
    getLsbD_signBit _ _ i (by omega) rfl (by omega),
    getLsbD_signBit _ _ i (by omega) rfl (by omega),
    getLsbD_signBit _ _ i (by omega) rfl (by omega),
    getLsbD_signBit _ _ i (by omega) rfl (by omega)]
  cases slotMatches (items i) tagShifted with
  | false => simp
  | true =>
    simp only [Bool.and_true, Bool.or_eq_true, decide_eq_true_eq]
    omega

/-! ### What the test means -/

theorem and_ghostLocation (packed : BitVec 64) :
    packed &&& ghostLocation = Hashbucket.location packed := rfl

/-- The tag test compares the twelve highest bits. -/
theorem and_tagMask (packed : BitVec 64) :
    packed &&& tagMask = tagShifted (Packed.ofWord packed).tag := by
  have mask : tagMask = lowMask 64 12 <<< 52 := by decide
  refine BitVec.eq_of_getLsbD_eq fun i inside => ?_
  rw [mask, tagShifted, BitVec.getLsbD_and, BitVec.getLsbD_shiftLeft, BitVec.getLsbD_shiftLeft,
    getLsbD_lowMask, BitVec.getLsbD_setWidth, Packed.ofWord, BitVec.getLsbD_setWidth,
    BitVec.getLsbD_ushiftRight]
  by_cases low : i < 52
  · simp [low]
  · simp [low, inside, show i - 52 < 64 by omega, show i - 52 < 12 by omega,
      show 52 + (i - 52) = i by omega]

theorem tagShifted_injective : Function.Injective tagShifted := by
  intro first second same
  have back : ∀ tag : BitVec 12, (tagShifted tag >>> 52).setWidth 12 = tag := by
    intro tag
    refine BitVec.eq_of_getLsbD_eq fun i inside => ?_
    simp [tagShifted, inside, show 52 + i < 64 by omega, show i < 64 by omega]
  rw [← back first, same, back]

/-- **The scalar test accepts the live entries of the tag.** -/
theorem slotMatches_iff (packed : BitVec 64) (tag : BitVec 12) :
    slotMatches packed (tagShifted tag) = true ↔
      packed ≠ 0 ∧ Hashbucket.isGhost packed = false ∧ Hashbucket.tag packed = tag.setWidth 16 := by
  have tags : Hashbucket.tag packed = tag.setWidth 16 ↔ (Packed.ofWord packed).tag = tag := by
    rw [Hashbucket.tag_eq]
    refine ⟨fun same => ?_, fun same => by rw [same]⟩
    simpa [BitVec.setWidth_setWidth_of_le] using congrArg (BitVec.setWidth 12) same
  have marker : ghostLocation = RawLocation.ghost := rfl
  rw [slotMatches, and_tagMask, and_ghostLocation, marker, tags, Hashbucket.isGhost,
    RawLocation.isGhost]
  simp only [Bool.and_eq_true, decide_eq_true_eq, Bool.and_eq_false_iff, decide_eq_false_iff_not,
    tagShifted_injective.eq_iff, ne_eq]
  tauto

/-- In terms of the record: the word publishes an entry with the tag. -/
theorem slotMatches_eq (packed : Packed) (tag : BitVec 12) :
    slotMatches packed.toWord (tagShifted tag) = (packed.isLive && decide (packed.tag = tag)) := by
  have ghost : packed.location.setWidth 64 = ghostLocation ↔ packed.location = Location.ghost := by
    have reads := Hashbucket.location_isGhost packed.toWord
    rw [Hashbucket.location_eq, Packed.ofWord_toWord, RawLocation.isGhost] at reads
    exact decide_eq_decide.mp reads
  have used : decide (packed.toWord ≠ 0) = decide (packed ≠ Packed.empty) :=
    decide_eq_decide.mpr (not_congr Packed.toWord_eq_zero)
  have real : decide (packed.location.setWidth 64 ≠ ghostLocation)
      = decide (packed.location ≠ Location.ghost) := decide_eq_decide.mpr (not_congr ghost)
  have own : decide (tagShifted packed.tag = tagShifted tag) = decide (packed.tag = tag) :=
    decide_eq_decide.mpr tagShifted_injective.eq_iff
  rw [slotMatches, and_tagMask, and_ghostLocation, Hashbucket.location_eq, Packed.ofWord_toWord,
    Packed.isLive, used, real, own]

/-- **Tag scan equivalence.** On every bucket and for every tag the three scans return one mask, and
bit `i` of it is set exactly when slot `i` is in use, is no ghost and carries the tag. -/
theorem findTagMatches_agree (items : Items) (tag : BitVec 12) :
    findTagMatchesAvx2 items (tagShifted tag) = findTagMatchesScalar items (tagShifted tag) ∧
      findTagMatchesNeon items (tagShifted tag) = findTagMatchesScalar items (tagShifted tag) ∧
      ∀ i : Fin 8, (findTagMatchesScalar items (tagShifted tag)).getLsbD i = true ↔
        items i ≠ 0 ∧ Hashbucket.isGhost (items i) = false ∧
          Hashbucket.tag (items i) = tag.setWidth 16 := by
  refine ⟨?_, ?_, fun i => ?_⟩
  · refine BitVec.eq_of_getLsbD_eq fun i inside => ?_
    exact (getLsbD_findTagMatchesAvx2 items _ ⟨i, inside⟩).trans
      (getLsbD_findTagMatchesScalar items _ ⟨i, inside⟩).symm
  · refine BitVec.eq_of_getLsbD_eq fun i inside => ?_
    exact (getLsbD_findTagMatchesNeon items _ ⟨i, inside⟩).trans
      (getLsbD_findTagMatchesScalar items _ ⟨i, inside⟩).symm
  · rw [getLsbD_findTagMatchesScalar, slotMatches_iff]

/-! ### The scan of the protocol -/

variable {Key : Type}

/-- The words of a bucket of the table. -/
def items (state : Shared Key) (bucket : Nat) : Items := fun i => (state.slot bucket i).toWord

theorem solo_scan (state : Shared Key) (bucket : Nat) (tag : BitVec 12) (indices : List Nat) :
    Solo (findTagMatches bucket tag indices) state
      (indices.filter fun index => slotMatches (state.slot bucket index).toWord (tagShifted tag))
      state := by
  induction indices with
  | nil => exact .ret
  | cons index rest ih =>
    refine solo_bind.mpr ⟨_, _, solo_peekSlot, solo_bind.mpr ⟨_, _, ih, ?_⟩⟩
    rw [List.filter_cons, slotMatches_eq]
    exact .ret

/-- **The table's scan, run alone, lists the bits of the mask.** -/
theorem solo_findTagMatches (state : Shared Key) (bucket : Nat) (tag : BitVec 12) :
    Solo (findTagMatches bucket tag slots) state
      (slots.filter fun index =>
        (findTagMatchesScalar (items state bucket) (tagShifted tag)).getLsbD index) state := by
  have bits : (slots.filter fun index =>
        (findTagMatchesScalar (items state bucket) (tagShifted tag)).getLsbD index)
      = slots.filter fun index => slotMatches (state.slot bucket index).toWord (tagShifted tag) := by
    refine List.filter_congr fun index listed => ?_
    exact getLsbD_findTagMatchesScalar (items state bucket) _ ⟨index, List.mem_range.mp listed⟩
  rw [bits]
  exact solo_scan state bucket tag slots

end TagScan

end CacheRs.Hashtable
