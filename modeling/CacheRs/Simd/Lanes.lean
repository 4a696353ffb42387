/-
**Vector registers and their lanes.**

A register of `n` lanes of `w` bits is a bit vector of `n * w` bits, lane 0 lowest. An operation
acts on each lane alone, and a register of the same bits may be read as lanes of another width.

* `lane_ofLanes`, `ext_lane`: a register is its lanes;
* `map_not`, `map₂_and`, `map₂_xor`: a bitwise operation is the same one for every width, so it
  passes through a reinterpretation (`lane_reinterpret_not`, `lane_reinterpret_and`);
* `maskOf`: the all-ones or all-zero lane a comparison leaves, and its sign bit;
* `getLsbD_movemask`: the sign bits of the lanes, gathered;
* `getLsbD_collect`: a scalar loop that sets one bit a lane.
-/

import Mathlib

namespace Simd

variable {n m w v : Nat}

/-- A vector register: `n` lanes of `w` bits. -/
abbrev Lanes (n w : Nat) := BitVec (n * w)

/-- Read one lane. -/
def lane (register : Lanes n w) (i : Nat) : BitVec w := register.extractLsb' (i * w) w

/-- The register with these lanes. -/
def ofLanes (n : Nat) (f : Nat → BitVec w) : Lanes n w :=
  BitVec.ofFnLE fun bit => (f (bit / w)).getLsbD (bit % w)

/-- Apply an operation to each lane. -/
def map (f : BitVec w → BitVec w) (a : Lanes n w) : Lanes n w := ofLanes n fun i => f (lane a i)

/-- Apply an operation to each pair of lanes. -/
def map₂ (f : BitVec w → BitVec w → BitVec w) (a b : Lanes n w) : Lanes n w :=
  ofLanes n fun i => f (lane a i) (lane b i)

/-- The same value in every lane. -/
def splat (n : Nat) (value : BitVec w) : Lanes n w := ofLanes n fun _ => value

/-- Read the same bits as lanes of another width. -/
def reinterpret (same : n * w = m * v) (a : Lanes n w) : Lanes m v := a.cast same

/-- All ones for true, zero for false. -/
def maskOf (w : Nat) (holds : Bool) : BitVec w := if holds then BitVec.allOnes w else 0

/-- Compare lane by lane: all ones where the lanes agree, zero elsewhere. -/
def compareEq (a b : Lanes n w) : Lanes n w := map₂ (fun x y => maskOf w (x = y)) a b

/-- The sign bit of each lane, lane 0 lowest. -/
def movemask (a : Lanes n w) : BitVec n := BitVec.ofFnLE fun i => (lane a i).msb

/-- A scalar loop that sets the bit of each index it accepts. -/
def collect (w : Nat) (accepts : Nat → Bool) (indices : List Nat) : BitVec w :=
  indices.foldl (fun result i => if accepts i then result ||| (1#w <<< i) else result) 0

/-! ### A register is its lanes -/

/-- A bit of a lane is a bit of the register. -/
theorem bit_inside {i bit : Nat} (inside : i < n) (below : bit < w) : i * w + bit < n * w := by
  calc i * w + bit < i * w + w := by omega
    _ = (i + 1) * w := (Nat.succ_mul i w).symm
    _ ≤ n * w := Nat.mul_le_mul_right w inside

theorem getLsbD_lane (a : Lanes n w) (i bit : Nat) :
    (lane a i).getLsbD bit = (decide (bit < w) && a.getLsbD (i * w + bit)) :=
  BitVec.getLsbD_extractLsb' ..

theorem getLsbD_ofLanes (f : Nat → BitVec w) (bit : Nat) :
    (ofLanes n f).getLsbD bit
      = (decide (bit < n * w) && (f (bit / w)).getLsbD (bit % w)) := by
  unfold ofLanes
  rw [BitVec.getLsbD_ofFnLE]
  split <;> simp [*]

@[simp] theorem lane_ofLanes (f : Nat → BitVec w) {i : Nat} (inside : i < n) :
    lane (ofLanes n f) i = f i := by
  ext bit below
  have positive : 0 < w := by omega
  have quotient : (i * w + bit) / w = i := by
    rw [Nat.mul_comm, Nat.mul_add_div positive, Nat.div_eq_of_lt below, Nat.add_zero]
  have remainder : (i * w + bit) % w = bit := by
    rw [Nat.mul_comm, Nat.mul_add_mod, Nat.mod_eq_of_lt below]
  have fits : i * w + bit < n * w := bit_inside inside below
  rw [← BitVec.getLsbD_eq_getElem, ← BitVec.getLsbD_eq_getElem, getLsbD_lane, getLsbD_ofLanes,
    quotient, remainder]
  simp [below, fits]

/-- **Registers with the same lanes are equal.** -/
theorem ext_lane {a b : Lanes n w} (same : ∀ i < n, lane a i = lane b i) : a = b := by
  refine BitVec.eq_of_getLsbD_eq fun bit inside => ?_
  have positive : 0 < w := Nat.pos_of_ne_zero fun zero => by simp [zero] at inside
  have below : bit % w < w := Nat.mod_lt _ positive
  have agree : (lane a (bit / w)).getLsbD (bit % w) = (lane b (bit / w)).getLsbD (bit % w) := by
    rw [same (bit / w) (Nat.div_lt_of_lt_mul (by rwa [Nat.mul_comm]))]
  simpa only [getLsbD_lane, below, decide_true, Bool.true_and, Nat.div_add_mod'] using agree

@[simp] theorem lane_splat (value : BitVec w) {i : Nat} (inside : i < n) :
    lane (splat n value) i = value :=
  lane_ofLanes _ inside

@[simp] theorem lane_map (f : BitVec w → BitVec w) (a : Lanes n w) {i : Nat} (inside : i < n) :
    lane (map f a) i = f (lane a i) :=
  lane_ofLanes _ inside

@[simp] theorem lane_map₂ (f : BitVec w → BitVec w → BitVec w) (a b : Lanes n w) {i : Nat}
    (inside : i < n) : lane (map₂ f a b) i = f (lane a i) (lane b i) :=
  lane_ofLanes _ inside

@[simp] theorem lane_compareEq (a b : Lanes n w) {i : Nat} (inside : i < n) :
    lane (compareEq a b) i = maskOf w (lane a i = lane b i) :=
  lane_map₂ _ _ _ inside

/-! ### Bitwise operations do not see the width -/

theorem lane_and (a b : Lanes n w) (i : Nat) : lane (a &&& b) i = lane a i &&& lane b i :=
  BitVec.extractLsb'_and

theorem lane_xor (a b : Lanes n w) (i : Nat) : lane (a ^^^ b) i = lane a i ^^^ lane b i :=
  BitVec.extractLsb'_xor

theorem lane_not (a : Lanes n w) {i : Nat} (inside : i < n) : lane (~~~a) i = ~~~lane a i := by
  refine BitVec.eq_of_getLsbD_eq fun bit below => ?_
  have fits : i * w + bit < n * w := bit_inside inside below
  rw [getLsbD_lane, BitVec.getLsbD_not, BitVec.getLsbD_not, getLsbD_lane]
  simp [below, fits]

/-- Complementing the lanes is complementing the register. -/
theorem map_not (a : Lanes n w) : map (~~~·) a = ~~~a := by
  apply ext_lane
  intro i inside
  rw [lane_map _ _ inside, lane_not _ inside]

theorem map₂_and (a b : Lanes n w) : map₂ (· &&& ·) a b = a &&& b := by
  apply ext_lane
  intro i inside
  rw [lane_map₂ _ _ _ inside, lane_and]

theorem map₂_xor (a b : Lanes n w) : map₂ (· ^^^ ·) a b = a ^^^ b := by
  apply ext_lane
  intro i inside
  rw [lane_map₂ _ _ _ inside, lane_xor]

@[simp] theorem reinterpret_reinterpret (there : n * w = m * v) (back : m * v = n * w)
    (a : Lanes n w) : reinterpret back (reinterpret there a) = a := by
  simp [reinterpret]

theorem reinterpret_map_not (same : n * w = m * v) (a : Lanes n w) :
    reinterpret same (map (~~~·) a) = map (~~~·) (reinterpret same a) := by
  rw [map_not, map_not]
  ext bit inside
  simp [reinterpret]

theorem reinterpret_map₂_and (same : n * w = m * v) (a b : Lanes n w) :
    reinterpret same (map₂ (· &&& ·) a b)
      = map₂ (· &&& ·) (reinterpret same a) (reinterpret same b) := by
  rw [map₂_and, map₂_and]
  ext bit inside
  simp [reinterpret]

/-! ### Masks -/

@[simp] theorem maskOf_and (a b : Bool) : maskOf w a &&& maskOf w b = maskOf w (a && b) := by
  cases a <;> cases b <;> simp [maskOf]

@[simp] theorem maskOf_not (a : Bool) : ~~~maskOf w a = maskOf w !a := by
  cases a <;> simp [maskOf]

@[simp] theorem maskOf_xor_allOnes (a : Bool) : maskOf w a ^^^ BitVec.allOnes w = maskOf w !a := by
  cases a <;> simp [maskOf]

theorem maskOf_msb (positive : 0 < w) (a : Bool) : (maskOf w a).msb = a := by
  cases a <;> simp [maskOf, BitVec.msb_allOnes, positive]

/-- The sign bit of a mask, shifted down and up again to a bit of its own. -/
theorem getLsbD_maskOf_sign (positive : 0 < w) (a : Bool) (k bit : Nat) (fits : k < w) :
    ((maskOf w a >>> (w - 1)) <<< k).getLsbD bit = (decide (bit = k) && a) := by
  cases a with
  | false => simp [maskOf]
  | true =>
    have only : bit - k + (w - 1) < w ↔ bit - k = 0 := by omega
    by_cases below : bit < k
    · simp [maskOf, below, show bit ≠ k by omega]
    · by_cases at_k : bit = k
      · subst at_k
        simp [maskOf, fits, positive]
      · have beyond : ¬ (w - 1 + (bit - k) < w) := by omega
        simp [maskOf, below, at_k, beyond]

theorem getLsbD_movemask (a : Lanes n w) {i : Nat} (inside : i < n) :
    (movemask a).getLsbD i = (lane a i).msb := by
  unfold movemask
  rw [BitVec.getLsbD_ofFnLE, dif_pos inside]

/-! ### A scalar loop -/

theorem getLsbD_foldl (accepts : Nat → Bool) (indices : List Nat) (result : BitVec w)
    {bit : Nat} (inside : bit < w) :
    BitVec.getLsbD (indices.foldl
        (fun result i => if accepts i then result ||| (1#w <<< i) else result) result) bit
      = (result.getLsbD bit || (decide (bit ∈ indices) && accepts bit)) := by
  induction indices generalizing result with
  | nil => simp
  | cons i rest ih =>
    rw [List.foldl_cons, ih]
    by_cases here : bit = i
    · subst here
      cases accepted : accepts bit <;> simp [inside]
    · have other : (1#w <<< i).getLsbD bit = false := by
        simp [BitVec.getLsbD_shiftLeft, BitVec.getLsbD_one]
        omega
      cases accepted : accepts i <;> simp [here, other]

/-- **The loop sets exactly the bits of the indices it accepts.** -/
theorem getLsbD_collect (accepts : Nat → Bool) (indices : List Nat) {bit : Nat}
    (inside : bit < w) :
    (collect w accepts indices).getLsbD bit = (decide (bit ∈ indices) && accepts bit) := by
  rw [collect, getLsbD_foldl _ _ _ inside]
  simp

end Simd
