/-
**What each operation does to the table of entries.**
-/

import CacheRs.Cuckoo.Entries

namespace CacheRs.Cuckoo

open KeyValue Relocation

variable {config : Config} {cache : Cache} {key : Bytes}

theorem findKey_none (missing : findKey config cache key = none) :
    ∀ pos ∈ positions config key, ∀ entry, entries config cache.data pos = some entry →
      entry.key ≠ key := by
  intro pos member entry held same
  refine List.find?_eq_none.mp missing pos member ?_
  rw [slotIsEmpty_of_some held, key_of_entries held, same]
  simp

theorem findKey_some {pos : Nat} (found : findKey config cache key = some pos) :
    pos ∈ positions config key ∧
      ∃ entry, entries config cache.data pos = some entry ∧ entry.key = key := by
  have member := List.mem_of_find?_eq_some found
  have holds := List.find?_some found
  rw [Bool.and_eq_true, Bool.not_eq_true', slotIsEmpty_eq (mem_positions_lt member)] at holds
  refine ⟨member, ?_⟩
  cases held : entries config cache.data pos with
  | none =>
    rw [held] at holds
    cases holds.1
  | some entry =>
    rw [key_of_entries held] at holds
    exact ⟨entry, rfl, of_decide_eq_true holds.2⟩

/-- A lookup by `get` or `delete`: the first candidate that holds the key decides, and is cleared
if its item has expired. -/
inductive Looked (config : Config) (cache : Cache) (key : Bytes) : Option (Nat × TinyEntry) →
    Slots TinyEntry → Prop where
  | missing : (∀ pos ∈ positions config key, ∀ entry, entries config cache.data pos = some entry →
      entry.key ≠ key) → Looked config cache key none (entries config cache.data)
  | expired {pos : Nat} {entry : TinyEntry} : entries config cache.data pos = some entry →
      entry.key = key → dead cache.elapsed entry = true →
      Looked config cache key none ((entries config cache.data).put pos none)
  | found {pos : Nat} {entry : TinyEntry} : entries config cache.data pos = some entry →
      entry.key = key → dead cache.elapsed entry = false →
      Looked config cache key (some (pos, entry)) (entries config cache.data)

theorem get_effect (sound : Sound config cache.data) (key : Bytes) :
    ∃ found slots, Looked config cache key found slots ∧
      (get config cache key).1 = found.map Prod.snd ∧
      entries config (get config cache key).2.data = slots ∧
      Sound config (get config cache key).2.data ∧
      (get config cache key).2.elapsed = cache.elapsed := by
  unfold get
  cases lookup : findKey config cache key with
  | none => exact ⟨none, _, .missing (findKey_none lookup), rfl, rfl, sound, rfl⟩
  | some pos =>
    obtain ⟨member, entry, held, same⟩ := findKey_some lookup
    simp only [slotIsExpired_of_some held]
    by_cases gone : dead cache.elapsed entry = true
    · rw [if_pos gone]
      obtain ⟨cleared, after⟩ := entries_clearSlot sound (mem_positions_lt member)
      exact ⟨none, _, .expired held same gone, rfl, cleared, after, rfl⟩
    · rw [if_neg gone]
      exact ⟨some (pos, entry), _, .found held same (Bool.eq_false_iff.mpr gone),
        congrArg some (of_entries held).2, rfl, sound, rfl⟩

theorem delete_effect (sound : Sound config cache.data) (key : Bytes) :
    ∃ found slots, Looked config cache key found slots ∧
      (delete config cache key).1 = found.isSome ∧
      entries config (delete config cache key).2.data =
        (found.elim slots fun held => slots.put held.1 none) ∧
      Sound config (delete config cache key).2.data ∧
      (delete config cache key).2.elapsed = cache.elapsed := by
  unfold delete
  cases lookup : findKey config cache key with
  | none => exact ⟨none, _, .missing (findKey_none lookup), rfl, rfl, sound, rfl⟩
  | some pos =>
    obtain ⟨member, entry, held, same⟩ := findKey_some lookup
    obtain ⟨cleared, after⟩ := entries_clearSlot sound (mem_positions_lt member)
    simp only [slotIsExpired_of_some held]
    by_cases gone : dead cache.elapsed entry = true
    · rw [if_pos gone]
      exact ⟨none, _, .expired held same gone, rfl, cleared, after, rfl⟩
    · rw [if_neg gone]
      exact ⟨some (pos, entry), _, .found held same (Bool.eq_false_iff.mpr gone), rfl, cleared,
        after, rfl⟩

theorem clear_effect (config : Config) (cache : Cache) :
    (∀ pos, entries config (clear config cache).data pos = none) ∧
      Sound config (clear config cache).data := by
  have empty : ∀ pos, entries config (clear config cache).data pos = none := by
    intro pos
    by_cases slot : pos < config.nitem
    · rw [entries_of_lt slot]
      refine TinyItem.entryAt_zero fun i below => ?_
      have size : (List.replicate (config.itemSize * config.nitem) (0 : UInt8)).length =
          config.itemSize * config.nitem := List.length_replicate ..
      have room := config.header_lt_itemSize
      have := Nat.mul_le_mul_right config.itemSize (Nat.succ_le_of_lt slot)
      rw [Nat.succ_mul, Nat.mul_comm config.nitem] at this
      have inside : slotOffset config pos + i < config.itemSize * config.nitem := by
        unfold slotOffset
        omega
      have written := @Memory.write_inside cache.data 0 (List.replicate
        (config.itemSize * config.nitem) 0) (slotOffset config pos + i) (by rwa [size])
      rw [Nat.zero_add, List.getElem_replicate] at written
      exact written
    · exact if_neg slot
  exact ⟨empty, fun pos held => absurd (empty pos) held⟩

theorem computeExpire_lt (config : Config) (elapsed ttl : Nat) :
    computeExpire config elapsed ttl < 2 ^ 32 := by
  unfold computeExpire u32Max
  split
  · decide
  · omega

/-- What the slots hold after an insert that was not too large. -/
theorem insert_effect (sound : Sound config cache.data) {value : Value} {ttl : Nat} (draw : UInt64)
    (short : key.length ≤ 255)
    (room : TinyItem.headerSize + key.length + value.length ≤ config.itemSize)
    (fits : TinyItem.headerSize + key.length + TinyItem.storedLength value ≤ config.itemSize) :
    (insert config cache key value ttl draw).1 = .ok () ∧
      Sound config (insert config cache key value ttl draw).2.data ∧
      (insert config cache key value ttl draw).2.elapsed = cache.elapsed ∧
      ∃ pos slots stored, pos ∈ positions config key ∧
        Chosen config cache.elapsed cache.data key pos slots ∧
        (TinyItem.Storable value → stored = value) ∧
        entries config (insert config cache key value ttl draw).2.data =
          slots.put pos (if computeExpire config cache.elapsed ttl = 0 then none
            else some ⟨key, stored, computeExpire config cache.elapsed ttl⟩) := by
  obtain ⟨pos, updates, after, found, member, afterSound, choice⟩ :=
    @chosen config cache.elapsed cache.data sound draw key
  obtain ⟨⟨stored, same, written⟩, finalSound⟩ := entries_writeSlot afterSound
    (mem_positions_lt member) short (computeExpire_lt config cache.elapsed ttl) room fits
  unfold insert
  simp only [if_neg (Nat.not_lt.mpr room), found]
  exact ⟨trivial, finalSound, trivial, pos, _, stored, member, choice, same, written⟩

/-- An insert that is too large changes nothing. -/
theorem insert_oversized {value : Value} {ttl : Nat} (draw : UInt64)
    (large : config.itemSize < TinyItem.headerSize + key.length + value.length) :
    insert config cache key value ttl draw =
      (.error (.itemOversized (TinyItem.headerSize + key.length + value.length) config.itemSize),
        cache) :=
  if_pos large

/-- A change of a number: of the live item of the key, if it is a number. -/
theorem updateNumber_effect (sound : Sound config cache.data) (change : UInt64 → UInt64)
    (key : Bytes) :
    (Absent config cache.elapsed cache.data key ∧
      updateNumber config cache change key = (.error .notFound, cache)) ∨
    ∃ pos entry, entries config cache.data pos = some entry ∧ entry.key = key ∧
      dead cache.elapsed entry = false ∧
      ((entry.value.isU64 = false ∧
          updateNumber config cache change key = (.error .notNumeric, cache)) ∨
        ∃ number, entry.value = .u64 number ∧
          (updateNumber config cache change key).1 =
            .ok { entry with value := .u64 (change number) } ∧
          entries config (updateNumber config cache change key).2.data =
            (entries config cache.data).put pos
              (some { entry with value := .u64 (change number) }) ∧
          Sound config (updateNumber config cache change key).2.data ∧
          (updateNumber config cache change key).2.elapsed = cache.elapsed) := by
  unfold updateNumber
  cases holder : (positions config key).find? fun pos =>
      !(slotIsEmpty config cache.data pos || slotIsExpired config cache.elapsed cache.data pos) &&
        slotKey config cache.data pos = key with
  | none =>
    refine .inl ⟨fun pos member entry held alive same => ?_, rfl⟩
    refine List.find?_eq_none.mp holder pos member ?_
    rw [isFree_eq (mem_positions_lt member), Slots.isFree_of_some held, alive,
      key_of_entries held, same]
    simp
  | some pos =>
    have member := List.mem_of_find?_eq_some holder
    have holds := List.find?_some holder
    rw [Bool.and_eq_true, Bool.not_eq_true', isFree_eq (mem_positions_lt member)] at holds
    cases held : entries config cache.data pos with
    | none =>
      rw [Slots.isFree_of_none held] at holds
      cases holds.1
    | some entry =>
      rw [Slots.isFree_of_some held, key_of_entries held] at holds
      refine .inr ⟨pos, entry, held, of_decide_eq_true holds.2, holds.1, ?_⟩
      have sameValue : TinyItem.value cache.data (slotOffset config pos) = entry.value :=
        congrArg TinyEntry.value (of_entries held).2
      simp only [sameValue]
      cases isNumber : entry.value with
      | bytes bytes => exact .inl ⟨rfl, rfl⟩
      | u64 number =>
        obtain ⟨written, after⟩ := entries_setNumber sound held isNumber (change number)
        refine .inr ⟨number, rfl, ?_, written, after, rfl⟩
        refine congrArg Except.ok (of_entries ?_).2
        rw [written, Slots.put_self]

end CacheRs.Cuckoo
