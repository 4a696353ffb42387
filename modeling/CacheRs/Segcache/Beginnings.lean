/-
**A new cache.**

* `good_new`: a new cache is in order, whatever the builder fixes;
* `Config.small`: small caches to run the calls on.
-/

import CacheRs.Segcache.Pins

namespace CacheRs.Segcache

open Segments (SegId State)

variable (config : Config) (random : UInt64) (now : Nat)

theorem spareCapacity_le : config.spareCapacity ≤ 1 := by
  unfold Config.spareCapacity
  split <;> omega

theorem consistent_new : Consistent config none (Cache.new config random now) where
  sound slot := by cases slot
  unique slot := by cases slot
  inHand here := by cases here
  items busy := by cases busy
  bytes busy := by cases busy
  laid laid := by cases laid
  fresh fresh := by cases fresh

theorem queued_new : Queued config (Cache.new config random now).shape where
  queued i := by
    have split := List.take_append_drop config.spareCapacity (List.range config.cap)
    have whole : i ∈ (Cache.new config random now).freeQueue ++
        (Cache.new config random now).spareQueue ↔ i ∈ (List.range config.cap).map (· + 1) := by
      conv_rhs => rw [← split]
      show i ∈ ((List.range config.cap).drop config.spareCapacity).map (· + 1) ++
        ((List.range config.cap).take config.spareCapacity).map (· + 1) ↔ _
      rw [List.map_append, List.mem_append, List.mem_append, or_comm]
    refine whole.trans ?_
    rw [List.mem_map]
    constructor
    · rintro ⟨index, inside, rfl⟩
      exact ⟨⟨Nat.succ_pos _, List.mem_range.mp inside⟩, rfl⟩
    · rintro ⟨⟨positive, most⟩, -⟩
      have last : i - 1 < config.cap := Nat.lt_of_lt_of_le (Nat.sub_one_lt_of_lt positive) most
      exact ⟨i - 1, List.mem_range.mpr last, Nat.sub_add_cancel positive⟩
  unique := by
    have split := List.take_append_drop config.spareCapacity (List.range config.cap)
    have range : ((List.range config.cap).map (· + 1)).Nodup :=
      List.nodup_range.map fun _ _ same => Nat.succ.inj same
    rw [← split, List.map_append] at range
    exact List.nodup_append_comm.mp range
  spare := by
    have few := spareCapacity_le config
    have some := config.cap_pos
    show config.spareCapacity = (((List.range config.cap).take config.spareCapacity).map (· + 1)).length
    rw [List.length_map, List.length_take, List.length_range]
    omega
  bounded := le_rfl

theorem orderly_new :
    Orderly config Hand.empty (fun _ => []) (Cache.new config random now).shape where
  strung _ := trivial
  unique _ := List.nodup_nil
  head _ := rfl
  tail _ := rfl
  bucket _ some := absurd rfl some
  ttl _ _ inside := absurd inside List.not_mem_nil
  member _ := ⟨fun busy => (by cases busy), fun ⟨_, inside⟩ => absurd inside List.not_mem_nil⟩
  last _ _ inside := absurd inside List.not_mem_nil
  fresh _ := ⟨fun no => (by cases no), fun no => by cases no⟩
  dest _ := ⟨fun no => (by cases no), fun no => by cases no⟩
  claimed _ no := by cases no
  unclaimed _ _ no := by cases no
  unlocked _ no := by cases no
  range _ busy := absurd rfl busy
  waiting _ no := by cases no
  queues := queued_new config random now

/-- **A new cache is in order.** -/
theorem good_new : Good config (Cache.new config random now) where
  sane := ⟨fun _ => [], consistent_new config random now, orderly_new config random now⟩
  ranked := by
    refine ⟨List.length_replicate, .inl ?_⟩
    show (List.replicate config.cap (none : Option SegId)).headD none = none
    cases config.cap <;> rfl

/-! ### Small caches -/

theorem small_gt (integrity : Bool) : (⟨integrity⟩ : KeyValue.Layout).headerSize < 32 := by
  cases integrity <;> decide

theorem small_power : 7 < 35 := by decide

theorem small_choices : 1 ≤ 8 := by decide

theorem small_size : 32 ≤ KeyValue.maxSegmentBytes := by decide

theorem small_key (byte : UInt8) : 1 ≤ [byte].length ∧ [byte].length ≤ 255 := by
  rw [List.length_singleton]
  decide

/-- A table of sixteen buckets; a key's first byte decides its bucket and its tag. -/
def smallGeometry : Hashtable.Geometry Key where
  hashKey key := UInt64.ofNat ((key.1.headD 0).toNat * 0x100000001)
  power := 7
  numChoices := 1
  power_ge := le_rfl
  power_lt := small_power
  numChoices_ge := le_rfl
  numChoices_le := small_choices

/-- A cache of small segments. -/
def Config.small (integrity : Bool) (policy : Policy) (more : Nat) : Config where
  layout := ⟨integrity⟩
  geometry := smallGeometry
  segmentSize := 32
  cap := more + 1
  policy := policy
  draw _ := 0
  segmentSize_gt := small_gt integrity
  segmentSize_le := small_size
  segmentSize_aligned := rfl
  cap_pos := Nat.succ_pos more

/-- A key of one byte. -/
def smallKey (byte : UInt8) : Key := ⟨[byte], small_key byte⟩

/-- A value of some bytes. -/
def smallValue (length : Nat) : KeyValue.Value := .bytes (List.replicate length 0)

end CacheRs.Segcache
