/-
**Three fields in one word.**

A word holds a high, a middle and a low field side by side, composed with shifts and read back with
shifts and masks:

* `getLsbD_threeFields`: the word bit by bit;
* `high_threeFields`, `middle_threeFields`, `low_threeFields`: each field is read back;
* `threeFields_fields`: a word that has no other bits is composed of its fields;
* `and_lowMask`: masking with ones is truncating;
* `replaceMiddle_eq`: clearing the middle field and setting it changes no other.
-/

import Mathlib

namespace Bits

variable {p q r w k : Nat}

/-- Three fields side by side, the first highest. -/
def threeFields (w : Nat) (high : BitVec p) (middle : BitVec q) (low : BitVec r) : BitVec w :=
  (high.setWidth w <<< (q + r)) ||| (middle.setWidth w <<< r) ||| low.setWidth w

/-- The mask of the lowest bits. -/
def lowMask (w k : Nat) : BitVec w := (BitVec.allOnes k).setWidth w

/-- Clear the field above the lowest bits and write another value there. -/
def replaceMiddle (word : BitVec w) (r : Nat) (middle : BitVec q) : BitVec w :=
  (word &&& ~~~(lowMask w q <<< r)) ||| (middle.setWidth w <<< r)

section Compose

variable {high : BitVec p} {middle : BitVec q} {low : BitVec r}

/-- The bits of the word, field by field. -/
theorem getLsbD_threeFields (fits : p + q + r ≤ w) (i : Nat) :
    (threeFields w high middle low).getLsbD i = if i < r then low.getLsbD i
      else if i < q + r then middle.getLsbD (i - r) else high.getLsbD (i - (q + r)) := by
  unfold threeFields
  simp only [BitVec.getLsbD_or, BitVec.getLsbD_shiftLeft, BitVec.getLsbD_setWidth]
  by_cases below : i < r
  · simp [below, show i < w by omega, show i < q + r by omega]
  · have lowEnds : low.getLsbD i = false := BitVec.getLsbD_of_ge _ _ (by omega)
    by_cases inMiddle : i < q + r
    · simp [below, inMiddle, lowEnds, show i < w by omega, show i - r < w by omega]
    · have middleEnds : middle.getLsbD (i - r) = false := BitVec.getLsbD_of_ge _ _ (by omega)
      by_cases inside : i < w
      · simp [below, inMiddle, lowEnds, middleEnds, inside, show i - (q + r) < w by omega]
      · have highEnds : high.getLsbD (i - (q + r)) = false := BitVec.getLsbD_of_ge _ _ (by omega)
        simp [below, inMiddle, lowEnds, middleEnds, highEnds]

/-- Shifting the two lower fields out leaves the high one. -/
theorem threeFields_shiftRight (fits : p + q + r ≤ w) :
    threeFields w high middle low >>> (q + r) = high.setWidth w := by
  refine BitVec.eq_of_getLsbD_eq fun i inside => ?_
  rw [BitVec.getLsbD_ushiftRight, getLsbD_threeFields fits, BitVec.getLsbD_setWidth]
  simp [inside, show ¬ q + r + i < r by omega]

theorem high_threeFields (fits : p + q + r ≤ w) :
    (threeFields w high middle low >>> (q + r)).setWidth p = high := by
  rw [threeFields_shiftRight fits]
  exact BitVec.setWidth_setWidth_of_le _ (by omega) |>.trans (BitVec.setWidth_eq high)

theorem middle_threeFields (fits : p + q + r ≤ w) :
    (threeFields w high middle low >>> r).setWidth q = middle := by
  refine BitVec.eq_of_getLsbD_eq fun i inside => ?_
  rw [BitVec.getLsbD_setWidth, BitVec.getLsbD_ushiftRight, getLsbD_threeFields fits]
  simp [inside, show r + i < q + r by omega]

theorem low_threeFields (fits : p + q + r ≤ w) :
    (threeFields w high middle low).setWidth r = low := by
  refine BitVec.eq_of_getLsbD_eq fun i inside => ?_
  rw [BitVec.getLsbD_setWidth, getLsbD_threeFields fits]
  simp [inside]

end Compose

/-- **A word is composed of its fields.** -/
theorem threeFields_fields (exact : p + q + r = w) (word : BitVec w) :
    threeFields w ((word >>> (q + r)).setWidth p) ((word >>> r).setWidth q) (word.setWidth r)
      = word := by
  refine BitVec.eq_of_getLsbD_eq fun i inside => ?_
  rw [getLsbD_threeFields exact.le]
  by_cases below : i < r
  · simp [below]
  · by_cases inMiddle : i < q + r
    · simp [below, inMiddle, show i - r < q by omega, show r + (i - r) = i by omega]
    · simp [below, inMiddle, show i - (q + r) < p by omega, show q + r + (i - (q + r)) = i by omega]

theorem getLsbD_lowMask (i : Nat) : (lowMask w k).getLsbD i = (decide (i < w) && decide (i < k)) := by
  simp [lowMask, BitVec.getLsbD_setWidth, BitVec.getLsbD_allOnes]

/-- Masking with ones truncates. -/
theorem and_lowMask (word : BitVec w) : word &&& lowMask w k = (word.setWidth k).setWidth w := by
  refine BitVec.eq_of_getLsbD_eq fun i inside => ?_
  rw [BitVec.getLsbD_and, getLsbD_lowMask, BitVec.getLsbD_setWidth, BitVec.getLsbD_setWidth]
  simp [inside, Bool.and_comm]

/-- **Replacing the middle field changes no other.** -/
theorem replaceMiddle_eq (exact : p + q + r = w) (word : BitVec w) (middle : BitVec q) :
    replaceMiddle word r middle
      = threeFields w ((word >>> (q + r)).setWidth p) middle (word.setWidth r) := by
  refine BitVec.eq_of_getLsbD_eq fun i inside => ?_
  rw [getLsbD_threeFields exact.le]
  simp only [replaceMiddle, BitVec.getLsbD_or, BitVec.getLsbD_and, BitVec.getLsbD_not,
    BitVec.getLsbD_shiftLeft, getLsbD_lowMask, BitVec.getLsbD_setWidth]
  by_cases below : i < r
  · simp [below, inside]
  · by_cases inMiddle : i < q + r
    · simp [below, inMiddle, inside, show i - r < q by omega, show i - r < w by omega]
    · have middleEnds : middle.getLsbD (i - r) = false := BitVec.getLsbD_of_ge _ _ (by omega)
      simp [below, inMiddle, inside, middleEnds, show ¬ i - r < q by omega,
        show i - (q + r) < p by omega, show q + r + (i - (q + r)) = i by omega]

/-- A value that fits a narrower field survives the truncation. -/
theorem setWidth_setWidth_of_lt {value : BitVec p} (small : value.toNat < 2 ^ k) :
    (value.setWidth k).setWidth w = value.setWidth w := by
  apply BitVec.eq_of_toNat_eq
  rw [BitVec.toNat_setWidth, BitVec.toNat_setWidth, BitVec.toNat_setWidth, Nat.mod_eq_of_lt small]

end Bits
