/-
**Simple numeric text.**

A byte value is a simple numeric when it is the decimal text of an unsigned 64-bit number: digits
only, and no leading zero but for the text of zero itself. The parser accumulates the number digit by
digit; its multiplication and addition are checked, its subtraction and its indexing panic when they
fail.

* `accumulate_eq`: what the loop answers, from the digits and the number they stand for;
* `canonical_iff`: the canonical texts are the decimal texts;
* `parseSimpleNumeric_iff`: the parser answers a number exactly on that number's decimal text.
-/

import CacheRs.KeyValue.Memory

namespace CacheRs.KeyValue

/-! ## The parser -/

inductive Panic where
  | indexOutOfBounds
  | subtractWithOverflow
  deriving DecidableEq, Repr

def byteAt (bytes : Bytes) (i : Nat) : Except Panic UInt8 :=
  match bytes[i]? with
  | some b => .ok b
  | none => .error .indexOutOfBounds

def subByte (a b : UInt8) : Except Panic UInt8 :=
  if b ≤ a then .ok (a - b) else .error .subtractWithOverflow

def checkedMul (a b : UInt64) : Option UInt64 :=
  if a.toNat * b.toNat < 2 ^ 64 then some (a * b) else none

def checkedAdd (a b : UInt64) : Option UInt64 :=
  if a.toNat + b.toNat < 2 ^ 64 then some (a + b) else none

def isAsciiDigit (b : UInt8) : Bool := 48 ≤ b && b ≤ 57

/-- The loop over the bytes. -/
def accumulate (value : UInt64) : Bytes → Except Panic (Option UInt64)
  | [] => .ok (some value)
  | b :: rest =>
    if !isAsciiDigit b then .ok none
    else
      match checkedMul value 10 with
      | none => .ok none
      | some scaled => do
        match checkedAdd scaled (← subByte b 48).toUInt64 with
        | none => return none
        | some next => accumulate next rest

/-- `parse_simple_numeric`. -/
def parseSimpleNumeric (bytes : Bytes) : Except Panic (Option UInt64) :=
  if bytes.isEmpty then .ok none
  else do
    -- The first byte is only looked at when there is another one.
    let leadingZero ← if 1 < bytes.length then (byteAt bytes 0).map (· == 48) else .ok false
    if leadingZero then return none
    accumulate 0 bytes

/-! ## Decimal text -/

/-- The decimal text of a number. -/
def decimal (n : Nat) : Bytes := (Nat.toDigits 10 n).map fun c => UInt8.ofNat c.toNat

/-- The number that digits stand for, after those of `value`. -/
def number (value : Nat) (bytes : Bytes) : Nat :=
  bytes.foldl (fun value b => value * 10 + (b.toNat - 48)) value

/-- Digits only, and no leading zero but in the text of zero. -/
def Canonical (bytes : Bytes) : Prop :=
  bytes ≠ [] ∧ (1 < bytes.length → bytes[0]? ≠ some 48) ∧ ∀ b ∈ bytes, isAsciiDigit b = true

instance (bytes : Bytes) : Decidable (Canonical bytes) :=
  inferInstanceAs (Decidable (_ ∧ _ ∧ _))

theorem isAsciiDigit_iff (b : UInt8) : isAsciiDigit b = true ↔ 48 ≤ b.toNat ∧ b.toNat ≤ 57 := by
  simp [isAsciiDigit, UInt8.le_iff_toNat_le]

theorem ofNat_toNat_digit {b : UInt8} (digit : isAsciiDigit b = true) :
    UInt8.ofNat (48 + (b.toNat - 48)) = b := by
  have bounds := (isAsciiDigit_iff b).mp digit
  rw [Nat.add_sub_cancel' bounds.1, UInt8.ofNat_toNat]

theorem decimal_of_lt {d : Nat} (digit : d < 10) : decimal d = [UInt8.ofNat (48 + d)] := by
  rw [decimal, Nat.toDigits_of_lt_base digit, List.map_singleton,
    Nat.toNat_digitChar_of_lt_ten digit]

/-- The last digit comes after the text of the others. -/
theorem decimal_push {n d : Nat} (positive : 0 < n) (digit : d < 10) :
    decimal (n * 10 + d) = decimal n ++ [UInt8.ofNat (48 + d)] := by
  rw [← decimal_of_lt digit, Nat.mul_comm]
  unfold decimal
  rw [← Nat.toDigits_append_toDigits (by decide) positive digit, List.map_append]

theorem isAsciiDigit_decimal {n : Nat} {b : UInt8} (found : b ∈ decimal n) :
    isAsciiDigit b = true := by
  obtain ⟨c, digit, rfl⟩ := List.mem_map.mp found
  have bounds : 48 ≤ c.toNat ∧ c.toNat ≤ 57 := by
    have := Nat.isDigit_of_mem_toDigits (by decide) (by decide) digit
    simpa [Char.isDigit, UInt32.le_iff_toNat_le] using this
  rw [isAsciiDigit_iff, UInt8.toNat_ofNat']
  omega

theorem number_append (value : Nat) (bytes more : Bytes) :
    number value (bytes ++ more) = number (number value bytes) more :=
  List.foldl_append ..

theorem le_number (value : Nat) (bytes : Bytes) : value ≤ number value bytes := by
  induction bytes generalizing value with
  | nil => exact Nat.le_refl _
  | cons b rest ih => exact Nat.le_trans (by omega) (ih (value * 10 + (b.toNat - 48)))

theorem number_decimal (n : Nat) : number 0 (decimal n) = n := by
  induction n using Nat.strong_induction_on with
  | _ n ih =>
    have last : n % 10 < 10 := Nat.mod_lt _ (by decide)
    have back : (UInt8.ofNat (48 + n % 10)).toNat - 48 = n % 10 := by
      rw [UInt8.toNat_ofNat']
      omega
    by_cases small : n < 10
    · rw [← Nat.mod_eq_of_lt small, decimal_of_lt last]
      show 0 * 10 + ((UInt8.ofNat (48 + n % 10)).toNat - 48) = n % 10
      rw [back]
      omega
    · have split : decimal n = decimal (n / 10) ++ [UInt8.ofNat (48 + n % 10)] := by
        rw [← decimal_push (by omega) last, Nat.div_add_mod' n 10]
      rw [split, number_append, ih (n / 10) (by omega)]
      show n / 10 * 10 + ((UInt8.ofNat (48 + n % 10)).toNat - 48) = n
      rw [back]
      omega

theorem decimal_injective : Function.Injective decimal := fun n m same => by
  rw [← number_decimal n, same, number_decimal]

/-- Digits after a positive number's text are the text of the longer number. -/
theorem decimal_number {value : Nat} (positive : 0 < value) {bytes : Bytes}
    (digits : ∀ b ∈ bytes, isAsciiDigit b = true) :
    decimal (number value bytes) = decimal value ++ bytes := by
  induction bytes generalizing value with
  | nil => simp [number]
  | cons b rest ih =>
    have digit := digits b (by simp)
    have bounds := (isAsciiDigit_iff b).mp digit
    calc decimal (number value (b :: rest))
        = decimal (number (value * 10 + (b.toNat - 48)) rest) := rfl
      _ = decimal (value * 10 + (b.toNat - 48)) ++ rest :=
          ih (by omega) fun c found => digits c (List.mem_cons_of_mem b found)
      _ = decimal value ++ b :: rest := by
          rw [decimal_push positive (by omega), ofNat_toNat_digit digit, List.append_assoc]
          rfl

/-- Only the text of zero begins with a zero. -/
theorem head_decimal {n : Nat} (positive : 0 < n) : (decimal n)[0]? ≠ some 48 := by
  induction n using Nat.strong_induction_on with
  | _ n ih =>
    by_cases small : n < 10
    · rw [decimal_of_lt small]
      have : UInt8.ofNat (48 + n) ≠ 48 := fun zero => by
        have := congrArg UInt8.toNat zero
        rw [UInt8.toNat_ofNat'] at this
        change (48 + n) % 256 = 48 at this
        omega
      simpa using this
    · have split : decimal n = decimal (n / 10) ++ [UInt8.ofNat (48 + n % 10)] := by
        rw [← decimal_push (by omega) (Nat.mod_lt _ (by decide)), Nat.div_add_mod' n 10]
      have nonempty : 0 < (decimal (n / 10)).length := by simp [decimal, Nat.length_toDigits_pos]
      rw [split, List.getElem?_append_left nonempty]
      exact ih (n / 10) (by omega) (by omega)

/-- **The canonical texts are the decimal ones.** -/
theorem canonical_iff (bytes : Bytes) : Canonical bytes ↔ bytes = decimal (number 0 bytes) := by
  constructor
  · rintro ⟨nonempty, leading, digits⟩
    obtain ⟨first, rest, rfl⟩ := List.exists_cons_of_ne_nil nonempty
    have digit := digits first (by simp)
    have bounds := (isAsciiDigit_iff first).mp digit
    have start : number 0 (first :: rest) = number (first.toNat - 48) rest := by
      simp [number]
    rcases List.eq_nil_or_concat rest with rfl | ⟨_, _, rfl⟩
    · rw [start]
      show [first] = decimal (first.toNat - 48)
      rw [decimal_of_lt (by omega), ofNat_toNat_digit digit]
    · have nonzero : first.toNat ≠ 48 := fun zero =>
        leading (by simp) (by simp [← UInt8.toNat_inj, zero])
      rw [start, decimal_number (by omega) fun c found => digits c (List.mem_cons_of_mem first found),
        decimal_of_lt (by omega), ofNat_toNat_digit digit]
      rfl
  · intro same
    rw [same]
    generalize number 0 bytes = n
    refine ⟨by simp [decimal], fun long => ?_, fun b => isAsciiDigit_decimal⟩
    apply head_decimal
    rw [Nat.pos_iff_ne_zero]
    rintro rfl
    exact absurd long (by decide)

/-! ## What the parser answers -/

/-- A digit: the checked operations fail together, exactly when the longer number is too large. -/
theorem accumulate_digit {b : UInt8} (digit : isAsciiDigit b = true) (value : UInt64) (rest : Bytes) :
    accumulate value (b :: rest) =
      if value.toNat * 10 + (b.toNat - 48) < 2 ^ 64 then
        accumulate (UInt64.ofNat (value.toNat * 10 + (b.toNat - 48))) rest
      else .ok none := by
  have above : (48 : UInt8) ≤ b := UInt8.le_iff_toNat_le.mpr ((isAsciiDigit_iff b).mp digit).1
  have place : (b - 48).toUInt64.toNat = b.toNat - 48 := by
    rw [UInt8.toNat_toUInt64, UInt8.toNat_sub_of_le _ _ above]
    rfl
  have unfolded : accumulate value (b :: rest) = match checkedMul value 10 with
      | none => .ok none
      | some scaled => match checkedAdd scaled (b - 48).toUInt64 with
        | none => .ok none
        | some next => accumulate next rest := by
    rw [accumulate, digit, subByte, if_pos above]
    rfl
  rw [unfolded]
  by_cases scales : value.toNat * 10 < 2 ^ 64
  · have mul : checkedMul value 10 = some (value * 10) := if_pos scales
    have scaled : (value * 10).toNat = value.toNat * 10 := by
      rw [UInt64.toNat_mul]
      exact Nat.mod_eq_of_lt scales
    have sum : value * 10 + (b - 48).toUInt64 =
        UInt64.ofNat (value.toNat * 10 + (b.toNat - 48)) := by
      apply UInt64.toNat_inj.mp
      rw [UInt64.toNat_add, scaled, place, UInt64.toNat_ofNat']
    rw [mul]
    dsimp only
    rw [checkedAdd, scaled, place, sum]
    by_cases adds : value.toNat * 10 + (b.toNat - 48) < 2 ^ 64
    · rw [if_pos adds, if_pos adds]
    · rw [if_neg adds, if_neg adds]
  · have mul : checkedMul value 10 = none := if_neg scales
    rw [mul, if_neg (by omega)]

/-- **The loop.** It answers the number of the digits, unless one is none or the number is too large. -/
theorem accumulate_eq (value : UInt64) (bytes : Bytes) :
    accumulate value bytes = .ok
      (if (∀ b ∈ bytes, isAsciiDigit b = true) ∧ number value.toNat bytes < 2 ^ 64 then
        some (UInt64.ofNat (number value.toNat bytes)) else none) := by
  induction bytes generalizing value with
  | nil => simp [accumulate, number, value.toNat_lt]
  | cons b rest ih =>
    by_cases digit : isAsciiDigit b = true
    · have start : number value.toNat (b :: rest) =
          number (value.toNat * 10 + (b.toNat - 48)) rest := rfl
      have grows := le_number (value.toNat * 10 + (b.toNat - 48)) rest
      rw [accumulate_digit digit, start]
      split <;> rename_i fits
      · rw [ih, UInt64.toNat_ofNat_of_lt' fits]
        simp only [List.forall_mem_cons, digit, true_and]
      · rw [if_neg (by omega)]
    · have stops : accumulate value (b :: rest) = .ok none := by simp [accumulate, digit]
      rw [stops, if_neg fun all => digit (all.1 b (by simp))]

theorem parseSimpleNumeric_eq (bytes : Bytes) :
    parseSimpleNumeric bytes = if bytes ≠ [] ∧ (1 < bytes.length → bytes[0]? ≠ some 48) then
      accumulate 0 bytes else .ok none := by
  cases bytes with
  | nil => rfl
  | cons first rest =>
    cases rest with
    | nil => rfl
    | cons second rest =>
      by_cases zero : first = 48
      · simp [parseSimpleNumeric, byteAt, zero, Except.map, bind, Except.bind, pure, Except.pure]
      · simp [parseSimpleNumeric, byteAt, zero, Except.map, bind, Except.bind]

/-- **Canonical numeric text.** Whatever the bytes, the parser returns; and what it answers is a
number exactly when the bytes are that number's decimal text. -/
theorem parseSimpleNumeric_iff (bytes : Bytes) :
    (∃ answer, parseSimpleNumeric bytes = .ok answer) ∧
      (∀ n : UInt64, parseSimpleNumeric bytes = .ok (some n) ↔ bytes = decimal n.toNat) ∧
      ∀ m : Nat, bytes = decimal m → (parseSimpleNumeric bytes = .ok none ↔ 2 ^ 64 ≤ m) := by
  have answers : parseSimpleNumeric bytes = .ok
      (if bytes = decimal (number 0 bytes) ∧ number 0 bytes < 2 ^ 64 then
        some (UInt64.ofNat (number 0 bytes)) else none) := by
    rw [parseSimpleNumeric_eq, accumulate_eq]
    split <;> rename_i shape
    · refine congrArg Except.ok (if_congr (and_congr_left fun _ => ?_) rfl rfl)
      rw [← canonical_iff, Canonical]
      exact ⟨fun digits => ⟨shape.1, shape.2, digits⟩, fun canonical => canonical.2.2⟩
    · refine congrArg Except.ok (if_neg fun inside => ?_).symm
      have canonical := (canonical_iff bytes).mpr inside.1
      exact shape ⟨canonical.1, canonical.2.1⟩
  refine ⟨⟨_, answers⟩, fun n => ?_, fun m text => ?_⟩
  · rw [answers]
    constructor
    · intro found
      split at found
      · rename_i inside
        obtain rfl : UInt64.ofNat (number 0 bytes) = n := by simpa using found
        rw [UInt64.toNat_ofNat_of_lt' inside.2]
        exact inside.1
      · simp at found
    · rintro rfl
      rw [number_decimal, if_pos ⟨rfl, n.toNat_lt⟩, UInt64.ofNat_toNat]
  · rw [answers, text, number_decimal]
    simp

end CacheRs.KeyValue
