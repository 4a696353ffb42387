/-
**Checksums that detect one changed byte.**

A checksum that folds a step over the bytes of its input detects a change of any single byte as soon
as the step can be undone: for a fixed byte it is injective in the state, and for a fixed state in
the byte.

* `DetectsByte`: inputs that differ in one byte have different checksums;
* `detectsByte_foldl`: it holds of every fold of such a step;
* `crc32`, `detectsByte_crc32`: the reflected CRC-32 with polynomial `0xEDB88320`, and that it is one.
-/

import Mathlib

namespace Checksums

/-- Inputs that differ in one place have different checksums. -/
def DetectsByte {β ρ : Type} (checksum : List β → ρ) : Prop :=
  ∀ (before after : List β) (a b : β),
    checksum (before ++ a :: after) = checksum (before ++ b :: after) → a = b

section Fold

variable {σ β ρ : Type} {step : σ → β → σ}

/-- A fold of steps that keep states apart keeps them apart. -/
theorem injective_foldl (undo : ∀ b, Function.Injective fun s => step s b) (bytes : List β) :
    Function.Injective fun s => bytes.foldl step s := by
  induction bytes with
  | nil => exact Function.injective_id
  | cons b bytes ih => exact ih.comp (undo b)

/-- **A fold of a step that can be undone detects a changed byte.** -/
theorem detectsByte_foldl (undo : ∀ b, Function.Injective fun s => step s b)
    (apart : ∀ s, Function.Injective (step s)) {finish : σ → ρ}
    (faithful : Function.Injective finish) (start : σ) :
    DetectsByte fun bytes => finish (bytes.foldl step start) := by
  intro before after a b same
  have folded := faithful same
  rw [List.foldl_append, List.foldl_append, List.foldl_cons, List.foldl_cons] at folded
  apply apart
  exact injective_foldl undo after folded

end Fold

/-! ### CRC-32 -/

/-- The remainder shifted by one bit, reduced when the bit shifted out is set. -/
def shift (remainder : BitVec 32) : BitVec 32 :=
  if remainder.getLsbD 0 then (remainder >>> 1) ^^^ 0xEDB88320#32 else remainder >>> 1

def crcByte (remainder : BitVec 32) (byte : UInt8) : BitVec 32 :=
  shift^[8] (remainder ^^^ byte.toBitVec.setWidth 32)

def crc32 (bytes : List UInt8) : UInt32 :=
  .ofBitVec (~~~bytes.foldl crcByte 0xFFFFFFFF#32)

/-- The polynomial sets the top bit, so the bit shifted out can be read off the result. -/
theorem shift_top (remainder : BitVec 32) :
    (shift remainder).getLsbD 31 = remainder.getLsbD 0 := by
  have empty : (remainder >>> 1).getLsbD 31 = false := by simp
  unfold shift
  cases out : remainder.getLsbD 0 with
  | false => rw [if_neg (by decide), empty]
  | true => rw [if_pos rfl, BitVec.getLsbD_xor, empty]; rfl

theorem injective_shift : Function.Injective shift := by
  intro a b same
  have out : a.getLsbD 0 = b.getLsbD 0 := by rw [← shift_top a, ← shift_top b, same]
  have rest : a >>> 1 = b >>> 1 := by
    unfold shift at same
    rw [out] at same
    split at same
    · exact BitVec.xor_left_inj _ |>.mp same
    · exact same
  apply BitVec.eq_of_getLsbD_eq
  intro i inside
  cases i with
  | zero => exact out
  | succ i =>
    have moved := congrArg (fun word => word.getLsbD i) rest
    simpa [Nat.add_comm] using moved

/-- **CRC-32 detects a changed byte.** -/
theorem detectsByte_crc32 : DetectsByte crc32 := by
  refine @detectsByte_foldl _ _ _ crcByte (fun byte => ?_) (fun remainder => ?_)
    (fun remainder => UInt32.ofBitVec (~~~remainder)) ?_ 0xFFFFFFFF#32
  · refine (injective_shift.iterate 8).comp fun a b same => ?_
    exact BitVec.xor_left_inj _ |>.mp same
  · refine (injective_shift.iterate 8).comp fun a b same => ?_
    have widened := BitVec.xor_right_inj _ |>.mp same
    apply UInt8.toBitVec_inj.mp
    apply BitVec.eq_of_getLsbD_eq
    intro i inside
    have bit := congrArg (fun word => word.getLsbD i) widened
    simpa [show i < 32 by omega] using bit
  · intro a b same
    exact BitVec.not_inj.mp (UInt32.ofBitVec.inj same)

/-- The check value of this CRC. -/
example : crc32 "123456789".toUTF8.toList = 0xCBF43926 := by decide +kernel

end Checksums
