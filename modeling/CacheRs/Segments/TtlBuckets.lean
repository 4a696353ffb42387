/-
**The table of TTL buckets.**

Four tiers of 256 buckets, each tier wider than the last. A TTL in seconds is mapped to a bucket by
masks and shifts on a signed 32-bit word; a segment of a bucket carries the bucket's own TTL.

* `bucketIndex_eq`: the tiers as bounds on the seconds;
* `isBucket_bucketIndex`: a bucket that some TTL is mapped to is the one its own TTL is mapped to;
* `IsBucket.eq_of_ttl`: such buckets are told apart by their TTLs;
* `bucketTtl_bucketIndex_le`, `bucketIndex_mono`: a TTL of a second or more is rounded down;
* `bucket_map`: the table that is built and the map into it agree.
-/

import Mathlib

namespace CacheRs.Segments

def bucketsPerTier : Nat := 256

def tierCount : Nat := 4

def totalBuckets : Nat := bucketsPerTier * tierCount

/-- The widths of the tiers' buckets. -/
def tierWidths : List Nat := [1 <<< 3, 1 <<< 7, 1 <<< 11, 1 <<< 15]

/-- The TTL of a bucket: its place in its tier times the tier's width, and at least a second. -/
def bucketTtl (b : Nat) : Nat :=
  max (tierWidths.getD (b / bucketsPerTier) 0 * (b % bucketsPerTier)) 1

/-- The bucket of a TTL in seconds, as a signed word. -/
def bucketIndex (secs : BitVec 32) : Nat :=
  if secs.sle 0 then totalBuckets - 1
  else if secs &&& ~~~(2 ^ 11 - 1) = 0 then (secs.sshiftRight 3).toNat
  else if secs &&& ~~~(2 ^ 15 - 1) = 0 then (secs.sshiftRight 7).toNat + bucketsPerTier
  else if secs &&& ~~~(2 ^ 19 - 1) = 0 then (secs.sshiftRight 11).toNat + bucketsPerTier * 2
  else min ((secs.sshiftRight 15).toNat + bucketsPerTier * 3) (totalBuckets - 1)

/-- The bucket of a TTL, whose seconds are an unsigned word. -/
def getBucketIndex (ttl : Nat) : Nat := bucketIndex (BitVec.ofNat 32 ttl)

/-- Whether a segment with this TTL belongs to a bucket. -/
def holdsTtl (b : Nat) (ttl : Nat) : Bool := ttl = bucketTtl b

theorem and_not_eq_zero (x m : BitVec 32) : x &&& ~~~m = 0 ↔ x &&& m = x := by
  constructor
  · intro none
    have split : x = (x &&& m) ||| (x &&& ~~~m) := by
      ext i
      simp
      cases x[i] <;> cases m[i] <;> rfl
    rw [none] at split
    simpa using split.symm
  · intro all
    rw [← all]
    ext i
    simp

/-- No bit above the low `k` ones. -/
theorem and_not_mask (x : BitVec 32) (k : Nat) (mask : BitVec 32)
    (low : mask.toNat = 2 ^ k - 1) : x &&& ~~~mask = 0 ↔ x.toNat < 2 ^ k := by
  have positive : 0 < 2 ^ k := Nat.two_pow_pos k
  rw [and_not_eq_zero, ← BitVec.toNat_inj, BitVec.toNat_and, low, Nat.and_two_pow_sub_one_eq_mod]
  exact ⟨fun same => same ▸ Nat.mod_lt _ positive, Nat.mod_eq_of_lt⟩

theorem sshiftRight_toNat {x : BitVec 32} (nonnegative : x.toNat < 2 ^ 31) (k : Nat) :
    (x.sshiftRight k).toNat = x.toNat / 2 ^ k := by
  have sign : x.msb = false := by
    rw [BitVec.msb_eq_false_iff_two_mul_lt]
    omega
  rw [BitVec.sshiftRight_eq_of_msb_false sign, BitVec.toNat_ushiftRight, Nat.shiftRight_eq_div_pow]

theorem sle_zero {x : BitVec 32} : x.sle 0 = true ↔ x.toNat = 0 ∨ 2 ^ 31 ≤ x.toNat := by
  rw [BitVec.sle_iff_toInt_le, BitVec.toInt_eq_toNat_cond]
  have := x.isLt
  simp only [BitVec.ofNat_eq_ofNat, BitVec.toInt_zero]
  split <;> omega

/-- **The tiers.** -/
theorem bucketIndex_eq (secs : BitVec 32) : bucketIndex secs =
    if secs.toNat = 0 ∨ 2 ^ 31 ≤ secs.toNat then 1023
    else if secs.toNat < 2 ^ 11 then secs.toNat / 8
    else if secs.toNat < 2 ^ 15 then secs.toNat / 128 + 256
    else if secs.toNat < 2 ^ 19 then secs.toNat / 2048 + 512
    else min (secs.toNat / 32768 + 768) 1023 := by
  unfold bucketIndex
  by_cases sign : secs.toNat = 0 ∨ 2 ^ 31 ≤ secs.toNat
  · rw [if_pos (sle_zero.mpr sign), if_pos sign]
    rfl
  · rw [if_neg fun negative => sign (sle_zero.mp negative), if_neg sign]
    have nonnegative : secs.toNat < 2 ^ 31 := by omega
    simp only [and_not_mask secs 11 (2 ^ 11 - 1) (by decide),
      and_not_mask secs 15 (2 ^ 15 - 1) (by decide), and_not_mask secs 19 (2 ^ 19 - 1) (by decide),
      sshiftRight_toNat nonnegative]
    rfl

/-- A bucket that the map returns. -/
def IsBucket (b : Nat) : Prop := getBucketIndex (bucketTtl b) = b

theorem bucketIndex_lt (secs : BitVec 32) : bucketIndex secs < totalBuckets := by
  have bound : totalBuckets = 1024 := rfl
  rw [bucketIndex_eq, bound]
  grind

theorem bucketTtl_of_tier (tier : Nat) {place width : Nat} (inside : place < 256)
    (found : tierWidths.getD tier 0 = width) (positive : 0 < width * place) :
    bucketTtl (place + 256 * tier) = width * place := by
  have quotient : (place + 256 * tier) / bucketsPerTier = tier := by
    unfold bucketsPerTier
    omega
  have remainder : (place + 256 * tier) % bucketsPerTier = place := by
    unfold bucketsPerTier
    omega
  rw [bucketTtl, quotient, remainder, found]
  omega

/-- **A returned bucket's own TTL is mapped to it.** -/
theorem isBucket_bucketIndex (secs : BitVec 32) : IsBucket (bucketIndex secs) := by
  have tier2 : ∀ q, 16 ≤ q → q < 256 → IsBucket (q + 256) := fun q low high => by
    have ttl : bucketTtl (q + 256) = 128 * q :=
      bucketTtl_of_tier 1 high rfl (by omega)
    rw [IsBucket, getBucketIndex, ttl, bucketIndex_eq, BitVec.toNat_ofNat]
    rw [Nat.mod_eq_of_lt (by omega)]
    grind
  have tier3 : ∀ q, 16 ≤ q → q < 256 → IsBucket (q + 512) := fun q low high => by
    have ttl : bucketTtl (q + 512) = 2048 * q :=
      bucketTtl_of_tier 2 high rfl (by omega)
    rw [IsBucket, getBucketIndex, ttl, bucketIndex_eq, BitVec.toNat_ofNat]
    rw [Nat.mod_eq_of_lt (by omega)]
    grind
  have tier4 : ∀ q, 16 ≤ q → q < 256 → IsBucket (q + 768) := fun q low high => by
    have ttl : bucketTtl (q + 768) = 32768 * q :=
      bucketTtl_of_tier 3 high rfl (by omega)
    rw [IsBucket, getBucketIndex, ttl, bucketIndex_eq, BitVec.toNat_ofNat]
    rw [Nat.mod_eq_of_lt (by omega)]
    grind
  have tier1 : ∀ q, q < 256 → IsBucket q := fun q high => by
    rcases Nat.eq_zero_or_pos q with rfl | positive
    · show getBucketIndex (bucketTtl 0) = 0
      decide
    · have ttl : bucketTtl q = 8 * q := bucketTtl_of_tier 0 high rfl (by omega)
      rw [IsBucket, getBucketIndex, ttl, bucketIndex_eq, BitVec.toNat_ofNat]
      rw [Nat.mod_eq_of_lt (by omega)]
      grind
  rw [bucketIndex_eq]
  split
  · exact tier4 255 (by omega) (by omega)
  · split
    · exact tier1 _ (by omega)
    · split
      · exact tier2 _ (by omega) (by omega)
      · split
        · exact tier3 _ (by omega) (by omega)
        · rcases Nat.le_total (secs.toNat / 32768) 255 with low | high
          · rw [Nat.min_eq_left (by omega)]
            exact tier4 _ (by omega) (by omega)
          · rw [Nat.min_eq_right (by omega)]
            exact tier4 255 (by omega) (by omega)

/-- Returned buckets with one TTL are one bucket. -/
theorem IsBucket.eq_of_ttl {b c : Nat} (one : IsBucket b) (other : IsBucket c)
    (same : bucketTtl b = bucketTtl c) : b = c := by
  rw [← one, ← other, same]

/-! ## The table -/

/-- `TtlBuckets::new`: the TTLs of the buckets, tier after tier. -/
def bucketTtls : List Nat :=
  tierWidths.flatMap fun width => (List.range bucketsPerTier).map fun j => max (width * j) 1

/-- The construction loop puts each bucket at its own place. -/
theorem getElem?_bucketTtls {b : Nat} (inside : b < totalBuckets) :
    bucketTtls[b]? = some (bucketTtl b) := by
  have bound : b < 1024 := inside
  have tier : ∀ width : Nat, ((List.range bucketsPerTier).map fun j => max (width * j) 1).length = 256 :=
    fun width => by simp [bucketsPerTier]
  have place : ∀ width j : Nat, j < 256 →
      ((List.range bucketsPerTier).map fun j => max (width * j) 1)[j]? = some (max (width * j) 1) :=
    fun width j low => by simp [bucketsPerTier, low]
  simp only [bucketTtls, tierWidths, List.flatMap_cons, List.flatMap_nil, List.append_nil]
  unfold bucketTtl
  rcases (show b / 256 = 0 ∨ b / 256 = 1 ∨ b / 256 = 2 ∨ b / 256 = 3 by omega) with
    first | second | third | fourth
  · rw [List.getElem?_append_left (by rw [tier]; omega), place _ _ (by omega)]
    simp [bucketsPerTier, first, tierWidths, Nat.mod_eq_of_lt (show b < 256 by omega)]
  · rw [List.getElem?_append_right (by rw [tier]; omega), tier,
      List.getElem?_append_left (by rw [tier]; omega), place _ _ (by omega)]
    simp [bucketsPerTier, second, tierWidths, show b - 256 = b % 256 by omega]
  · rw [List.getElem?_append_right (by rw [tier]; omega), tier,
      List.getElem?_append_right (by rw [tier]; omega), tier,
      List.getElem?_append_left (by rw [tier]; omega), place _ _ (by omega)]
    simp [bucketsPerTier, third, tierWidths, show b - 256 - 256 = b % 256 by omega]
  · rw [List.getElem?_append_right (by rw [tier]; omega), tier,
      List.getElem?_append_right (by rw [tier]; omega), tier,
      List.getElem?_append_right (by rw [tier]; omega), tier, place _ _ (by omega)]
    simp [bucketsPerTier, fourth, tierWidths, show b - 256 - 256 - 256 = b % 256 by omega]

theorem length_bucketTtls : bucketTtls.length = totalBuckets := by
  simp [bucketTtls, tierWidths, bucketsPerTier, totalBuckets, tierCount]

/-- The TTL of a bucket of a tier. -/
theorem bucketTtl_tier (place : Nat) (low : place < 256) :
    bucketTtl place = max (8 * place) 1 ∧ bucketTtl (place + 256) = max (128 * place) 1 ∧
      bucketTtl (place + 512) = max (2048 * place) 1 ∧
      bucketTtl (place + 768) = max (32768 * place) 1 := by
  unfold bucketTtl bucketsPerTier
  refine ⟨?_, ?_, ?_, ?_⟩
  · rw [Nat.div_eq_of_lt low, Nat.mod_eq_of_lt low]
    rfl
  · rw [show (place + 256) / 256 = 1 by omega, show (place + 256) % 256 = place by omega]
    rfl
  · rw [show (place + 512) / 256 = 2 by omega, show (place + 512) % 256 = place by omega]
    rfl
  · rw [show (place + 768) / 256 = 3 by omega, show (place + 768) % 256 = place by omega]
    rfl

/-- **A TTL is rounded down**, to a second at least. -/
theorem bucketTtl_bucketIndex_le {secs : BitVec 32} (positive : 1 ≤ secs.toNat) :
    1 ≤ bucketTtl (bucketIndex secs) ∧ bucketTtl (bucketIndex secs) ≤ secs.toNat := by
  refine ⟨Nat.le_max_right _ _, ?_⟩
  rw [bucketIndex_eq]
  have last : bucketTtl 1023 = 8355840 := (bucketTtl_tier 255 (by omega)).2.2.2
  split
  · omega
  · split
    · rw [(bucketTtl_tier _ (by omega)).1]
      omega
    · split
      · rw [(bucketTtl_tier _ (by omega)).2.1]
        omega
      · split
        · rw [(bucketTtl_tier _ (by omega)).2.2.1]
          omega
        · rcases Nat.le_total (secs.toNat / 32768) 255 with low | high
          · rw [Nat.min_eq_left (by omega), (bucketTtl_tier _ (by omega)).2.2.2]
            omega
          · rw [Nat.min_eq_right (by omega)]
            omega

/-- **Longer TTLs are in later buckets.** -/
theorem bucketIndex_mono {secs longer : BitVec 32} (positive : 1 ≤ secs.toNat)
    (le : secs.toNat ≤ longer.toNat) : bucketIndex secs ≤ bucketIndex longer := by
  rw [bucketIndex_eq, bucketIndex_eq]
  grind

/-- **The table and the map into it.** Every TTL has a bucket in the table; a TTL of a second or more
has one whose TTL is a second or more and no longer than it, and the map is monotone there; a bucket's
own TTL is mapped to it; and the TTL a segment carries tells its bucket. -/
theorem bucket_map :
    (∀ secs : BitVec 32, bucketIndex secs < bucketTtls.length ∧
      bucketTtls[bucketIndex secs]? = some (bucketTtl (bucketIndex secs))) ∧
    (∀ secs : BitVec 32, 1 ≤ secs.toNat →
      1 ≤ bucketTtl (bucketIndex secs) ∧ bucketTtl (bucketIndex secs) ≤ secs.toNat) ∧
    (∀ secs longer : BitVec 32, 1 ≤ secs.toNat → secs.toNat ≤ longer.toNat →
      bucketIndex secs ≤ bucketIndex longer) ∧
    (∀ secs : BitVec 32,
      bucketIndex (BitVec.ofNat 32 (bucketTtl (bucketIndex secs))) = bucketIndex secs) ∧
    (∀ secs other : BitVec 32, bucketIndex secs ≠ bucketIndex other →
      bucketTtl (bucketIndex secs) ≠ bucketTtl (bucketIndex other)) ∧
    ∀ secs other : BitVec 32,
      holdsTtl (bucketIndex secs) (bucketTtl (bucketIndex other)) = true ↔
        bucketIndex secs = bucketIndex other := by
  have apart : ∀ secs other : BitVec 32,
      bucketTtl (bucketIndex secs) = bucketTtl (bucketIndex other) →
        bucketIndex secs = bucketIndex other := fun secs other same =>
    (isBucket_bucketIndex secs).eq_of_ttl (isBucket_bucketIndex other) same
  refine ⟨fun secs => ?_, fun secs positive => bucketTtl_bucketIndex_le positive,
    fun secs longer positive le => bucketIndex_mono positive le, isBucket_bucketIndex,
    fun secs other differ same => differ (apart secs other same), fun secs other => ?_⟩
  · rw [length_bucketTtls]
    exact ⟨bucketIndex_lt secs, getElem?_bucketTtls (bucketIndex_lt secs)⟩
  · rw [holdsTtl, decide_eq_true_eq]
    exact ⟨fun same => (apart other secs same).symm, fun same => by rw [same]⟩

/-- At an hour, which the second tier rounds to 3584 s. -/
theorem bucket_map_hour :
    1 ≤ bucketTtl (bucketIndex 3600) ∧ bucketTtl (bucketIndex 3600) ≤ 3600 ∧
      bucketIndex 3600 ≤ bucketIndex 7200 ∧
      bucketTtl (bucketIndex 3600) ≠ bucketTtl (bucketIndex 7200) :=
  have hour := bucket_map.2.1 3600 (by decide)
  ⟨hour.1, hour.2, bucket_map.2.2.1 3600 7200 (by decide) (by decide),
    bucket_map.2.2.2.2.1 3600 7200 (by decide)⟩

end CacheRs.Segments
