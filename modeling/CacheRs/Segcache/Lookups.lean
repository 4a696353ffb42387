/-
**What a lookup finds.**

* `Settled`: every entry's segment can be read and written to, unless it was left claimed;
* `scan_spec`: a scan finds a match if there is one;
* `Settled.lookup_apply`: **a lookup finds what its key is mapped to**, and nothing else.
-/

import CacheRs.Segcache.Expansions

set_option linter.unusedSectionVars false

namespace CacheRs.Segcache

open Hashtable (SlotRef)
open Segments (SegId State)
open Sequential Procedure

variable {config : Config} {chain : Nat → List SegId} {cache after : Cache}
  {pending : Option Location} {key : Key}

/-- Between two steps of a call the table agrees with the segments, and no segment is in hand. -/
structure Settled (config : Config) (pending : Option Location) (cache : Cache) : Prop where
  consistent : Consistent config pending cache
  orderly : ∃ chain, Orderly config Hand.empty chain cache.shape

theorem Sane.settled (sane : Sane config Hand.empty chain cache) : Settled config none cache :=
  ⟨sane.consistent, chain, sane.orderly⟩

/-- A segment that holds items is sealed or live, or was left claimed. -/
theorem Settled.inService (settled : Settled config pending cache) {id : SegId}
    (held : holds (cache.segment id).state = true) :
    ((cache.segment id).state = .sealed ∨ (cache.segment id).state = .live) ∨
      (cache.segment id).state = .draining := by
  obtain ⟨chain, orderly⟩ := settled.orderly
  exact orderly.settled held

/-- A location whose segment was left claimed. -/
structure Asleep (config : Config) (cache : Cache) (location : Location) : Prop where
  resolves : cache.resolves config location = true
  state : (cache.segment location.segment).state = .draining

/-- Where a merge takes its first candidate, every segment can be read. -/
theorem Settled.not_asleep (settled : Settled config pending cache) (merges : config.Merges)
    (location : Location) : ¬ Asleep config cache location := by
  obtain ⟨chain, orderly⟩ := settled.orderly
  exact fun asleep => orderly.not_draining merges _ asleep.state

/-! ### Scans -/

section Scan

variable {table : Table Location} {verify : Location → Verdict} {tag : BitVec 12}

/-- A slot that a scan looks for. -/
def Matches (table : Table Location) (verify : Location → Verdict) (tag : BitVec 12)
    (ref : Nat × Nat) : Prop :=
  ∃ entry, table.slot ref.1 ref.2 = some entry ∧ entry.tag = tag ∧ verify entry.location = .isMatch

/-- A slot that a scan looks for, and cannot verify. -/
def Unverified (table : Table Location) (verify : Location → Verdict) (tag : BitVec 12)
    (location : Location) (ref : Nat × Nat) : Prop :=
  ∃ entry, table.slot ref.1 ref.2 = some entry ∧ entry.tag = tag ∧ entry.location = location ∧
    verify location = .unknown

/-- What a scan answers, with a candidate that it could not verify before these. -/
def Scans (table : Table Location) (verify : Location → Verdict) (tag : BitVec 12)
    (seen : Option Location) (refs : List (Nat × Nat)) (answer : Found Location (Nat × Nat)) : Prop :=
  (∃ ref ∈ refs, answer = .found ref ∧ Matches table verify tag ref) ∨
    ((∀ ref ∈ refs, ¬ Matches table verify tag ref) ∧
      ((answer = .absent ∧ seen = none ∧
          ∀ ref ∈ refs, ∀ location, ¬ Unverified table verify tag location ref) ∨
        ∃ location, answer = .unknown location ∧
          (seen = some location ∨ ∃ ref ∈ refs, Unverified table verify tag location ref)))

theorem Scans.skip {seen : Option Location} {ref : Nat × Nat} {refs : List (Nat × Nat)}
    {answer : Found Location (Nat × Nat)} (misses : ¬ Matches table verify tag ref)
    (verified : seen = none → ∀ location, ¬ Unverified table verify tag location ref)
    (rest : Scans table verify tag seen refs answer) :
    Scans table verify tag seen (ref :: refs) answer := by
  rcases rest with ⟨other, inside, found⟩ | ⟨none, absent | ⟨location, same, from_⟩⟩
  · exact .inl ⟨other, List.mem_cons_of_mem _ inside, found⟩
  all_goals
    refine .inr ⟨fun other inside => ?_, ?_⟩
    · rcases List.mem_cons.mp inside with rfl | later
      · exact misses
      · exact none other later
  · obtain ⟨same, unseen, all⟩ := absent
    refine .inl ⟨same, unseen, fun other inside => ?_⟩
    rcases List.mem_cons.mp inside with rfl | later
    · exact verified unseen
    · exact all other later
  · exact .inr ⟨location, same, from_.imp_right fun ⟨other, inside, unverified⟩ =>
      ⟨other, List.mem_cons_of_mem _ inside, unverified⟩⟩

/-- **A scan finds a match if there is one.** -/
theorem scan_spec (seen : Option Location) (refs : List (Nat × Nat)) :
    Scans table verify tag seen refs (table.scan verify tag seen refs) := by
  induction refs generalizing seen with
  | nil =>
    refine .inr ⟨fun _ inside => absurd inside List.not_mem_nil, ?_⟩
    cases seen with
    | none => exact .inl ⟨rfl, rfl, fun _ inside => absurd inside List.not_mem_nil⟩
    | some location => exact .inr ⟨location, rfl, .inl rfl⟩
  | cons ref refs ih =>
    rw [Table.scan]
    cases slot : table.slot ref.1 ref.2 with
    | none =>
      refine (ih seen).skip ?_ fun _ location => ?_
      · rintro ⟨entry, here, -⟩
        cases slot.symm.trans here
      · rintro ⟨entry, here, -⟩
        cases slot.symm.trans here
    | some entry =>
      dsimp only
      by_cases same : entry.tag = tag
      · rw [if_neg (not_not.mpr same)]
        cases verdict : verify entry.location with
        | isMatch => exact .inl ⟨ref, List.mem_cons_self .., rfl, entry, slot, same, verdict⟩
        | differentKey =>
          refine (ih seen).skip ?_ fun _ location => ?_
          · rintro ⟨other, here, -, isMatch⟩
            cases slot.symm.trans here
            cases verdict.symm.trans isMatch
          · rintro ⟨other, here, -, rfl, isUnknown⟩
            cases slot.symm.trans here
            cases verdict.symm.trans isUnknown
        | unknown =>
          have misses : ¬ Matches table verify tag ref := by
            rintro ⟨other, here, -, isMatch⟩
            cases slot.symm.trans here
            cases verdict.symm.trans isMatch
          have known : seen.or (some entry.location) = none → ∀ location,
              ¬ Unverified table verify tag location ref := fun no => by
            cases seen <;> cases no
          rcases (ih (seen.or (some entry.location))).skip misses known with
            found | ⟨none, ⟨_, no, _⟩ | ⟨location, answer, from_⟩⟩
          · exact .inl found
          · cases seen <;> cases no
          · refine .inr ⟨none, .inr ⟨location, answer, ?_⟩⟩
            rcases from_ with here | there
            · cases seen with
              | some before => exact .inl here
              | none =>
                cases here
                exact .inr ⟨ref, List.mem_cons_self .., entry, slot, same, rfl, verdict⟩
            · exact .inr there
      · rw [if_pos same]
        refine (ih seen).skip ?_ fun _ location => ?_
        · rintro ⟨other, here, isTag, -⟩
          cases slot.symm.trans here
          exact same isTag
        · rintro ⟨other, here, isTag, -⟩
          cases slot.symm.trans here
          exact same isTag

end Scan

/-! ### Lookups -/

/-- What the segments answer about an entry. -/
theorem Settled.verify (settled : Settled config pending cache) {b i : Nat} {entry : Entry Location}
    (slot : cache.table.slot b i = some entry) : ∃ item,
      cache.itemAt config entry.location = some item ∧
      ((((cache.segment entry.location.segment).state = .sealed ∨
          (cache.segment entry.location.segment).state = .live) ∧
        cache.verify config key entry.location = if item.key = key then .isMatch else .differentKey) ∨
      (Asleep config cache entry.location ∧ cache.verify config key entry.location = .unknown)) := by
  obtain ⟨item, present, -⟩ := settled.consistent.sound slot
  refine ⟨item, present.item, ?_⟩
  rcases settled.inService present.state with awake | draining
  · refine .inl ⟨awake, ?_⟩
    have readable : (cache.segment entry.location.segment).state.isReadable = true := by
      rcases awake with same | same <;> rw [same] <;> rfl
    unfold Cache.verify
    rw [if_pos (by simp [present.range])]
    dsimp only
    rw [if_pos (by simp [readable, present.tag]), present.item]
  · refine .inr ⟨⟨?_, draining⟩, ?_⟩
    · unfold Cache.resolves
      simp [present.range, present.tag]
    · unfold Cache.verify
      rw [if_pos (by simp [present.range])]
      dsimp only
      rw [if_neg (by simp [draining, State.isReadable])]

/-- The outcome of a scan for a key. -/
theorem Settled.scan (settled : Settled config pending cache) (key : Key) :
    (∃ ref mapping, ref ∈ Table.candidates config.geometry key ∧
      cache.table.scan (cache.verify config key) (config.geometry.tag key) none
        (Table.candidates config.geometry key) = .found ref ∧
      cache.table.slot ref.1 ref.2 =
        some ⟨config.geometry.tag key, mapping.freq, mapping.location⟩ ∧
      Maps config cache key mapping ∧
      ((cache.segment mapping.location.segment).state = .sealed ∨
        (cache.segment mapping.location.segment).state = .live)) ∨
    (cache.table.scan (cache.verify config key) (config.geometry.tag key) none
        (Table.candidates config.geometry key) = .absent ∧
      ∀ mapping, ¬ Maps config cache key mapping) ∨
    (∃ location, cache.table.scan (cache.verify config key) (config.geometry.tag key) none
        (Table.candidates config.geometry key) = .unknown location ∧ Asleep config cache location) := by
  rcases @scan_spec cache.table (cache.verify config key) (config.geometry.tag key) none
    (Table.candidates config.geometry key) with
    ⟨ref, inside, found, entry, slot, tag, isMatch⟩ | ⟨none, ⟨absent, -, verified⟩ | ⟨location, unknown, from_⟩⟩
  · obtain ⟨item, item_, ⟨awake, verdict⟩ | ⟨-, verdict⟩⟩ := @Settled.verify _ _ _ key settled _ _ _ slot
    · have same : item.key = key := by
        by_contra different
        rw [if_neg different, isMatch] at verdict
        cases verdict
      refine .inl ⟨ref, ⟨item, entry.freq, entry.location⟩, inside, found, ?_, ?_, awake⟩
      · rw [slot, ← tag]
      · exact ⟨ref.1, ref.2, entry.tag, slot, item_, same⟩
    · cases isMatch.symm.trans verdict
  · refine .inr (.inl ⟨absent, ?_⟩)
    rintro mapping ⟨b, i, tag, slot, item, same⟩
    obtain ⟨held, present, -, candidate, isTag⟩ := settled.consistent.sound slot
    cases present.item.symm.trans item
    rw [same] at candidate isTag
    obtain ⟨held, item_, ⟨-, verdict⟩ | ⟨-, verdict⟩⟩ := @Settled.verify _ _ _ key settled _ _ _ slot
    · cases item.symm.trans item_
      rw [if_pos same] at verdict
      exact none (b, i) candidate ⟨_, slot, isTag, verdict⟩
    · exact verified (b, i) candidate _ ⟨_, slot, isTag, rfl, verdict⟩
  · obtain ⟨ref, -, entry, slot, -, rfl, verdict⟩ := from_.resolve_left fun no => by cases no
    obtain ⟨item, -, ⟨-, known⟩ | ⟨asleep, -⟩⟩ := @Settled.verify _ _ _ key settled _ _ _ slot
    · rw [known] at verdict
      split at verdict <;> cases verdict
    · exact .inr (.inr ⟨_, unknown, asleep⟩)

/-- **A lookup finds what its key is mapped to**, and nothing else; a candidate whose segment was left
claimed keeps it from an answer. -/
theorem Settled.lookup_apply (settled : Settled config pending cache) (key : Key) :
    (∃ mapping slot, Maps config cache key mapping ∧
      lookupNoFreqUpdate config key cache = some (.found ⟨mapping.location, slot⟩, cache) ∧
      (slot.bucket, slot.slot) ∈ Table.candidates config.geometry key ∧
      slot.tag = config.geometry.tag key ∧
      cache.table.slot slot.bucket slot.slot =
        some ⟨slot.tag, mapping.freq, mapping.location⟩ ∧
      ((cache.segment mapping.location.segment).state = .sealed ∨
        (cache.segment mapping.location.segment).state = .live)) ∨
    ((∀ mapping, ¬ Maps config cache key mapping) ∧
      lookupNoFreqUpdate config key cache = some (.absent, cache)) ∨
    (∃ location, Asleep config cache location ∧
      lookupNoFreqUpdate config key cache = some (.unknown location, cache)) := by
  have ran : lookupNoFreqUpdate config key cache = some
      (cache.table.lookupNoFreqUpdate config.geometry (cache.verify config key) key, cache) := rfl
  rcases settled.scan key with ⟨ref, mapping, inside, found, slot, maps, awake⟩ | ⟨absent, none⟩ |
    ⟨location, unknown, asleep⟩
  · refine .inl ⟨mapping, ⟨ref.1, ref.2, config.geometry.tag key⟩, maps, ?_, inside, rfl, slot, awake⟩
    rw [ran, Table.lookupNoFreqUpdate, found]
    dsimp only
    rw [Table.hitAt, slot]
  · refine .inr (.inl ⟨none, ?_⟩)
    rw [ran, Table.lookupNoFreqUpdate, absent]
  · refine .inr (.inr ⟨location, asleep, ?_⟩)
    rw [ran, Table.lookupNoFreqUpdate, unknown]

/-- A scan comes upon a key whose item can be read. -/
theorem Settled.scan_awake (settled : Settled config pending cache) {mapping : Mapping}
    (awake : Awake config cache key mapping) : ∃ ref,
    cache.table.scan (cache.verify config key) (config.geometry.tag key) none
      (Table.candidates config.geometry key) = .found ref := by
  obtain ⟨⟨b, i, tag, slot, item, same⟩, readable⟩ := awake
  obtain ⟨held, present, -, candidate, isTag⟩ := settled.consistent.sound slot
  cases present.item.symm.trans item
  rw [same] at candidate isTag
  obtain ⟨held, item', ⟨-, verdict⟩ | ⟨asleep, -⟩⟩ := @Settled.verify _ _ _ key settled _ _ _ slot
  · cases item.symm.trans item'
    rw [if_pos same] at verdict
    rcases @scan_spec cache.table (cache.verify config key) (config.geometry.tag key) Option.none
      (Table.candidates config.geometry key) with ⟨ref, -, found, -⟩ | ⟨none, -⟩
    · exact ⟨ref, found⟩
    · exact absurd ⟨_, slot, isTag, verdict⟩ (none (b, i) candidate)
  · exact absurd asleep.state readable

/-- **A key whose item can be read is found where it lies.** -/
theorem Settled.finds (settled : Settled config pending cache) {mapping : Mapping}
    (awake : Awake config cache key mapping) : ∃ slot,
    lookupNoFreqUpdate config key cache = some (.found ⟨mapping.location, slot⟩, cache) := by
  obtain ⟨ref, found⟩ := settled.scan_awake awake
  rcases settled.lookup_apply key with ⟨other, slot, maps, ran, -⟩ | ⟨none, -⟩ | ⟨location, -, ran⟩
  · rw [settled.consistent.maps_unique awake.1 maps]
    exact ⟨slot, ran⟩
  · exact absurd awake.1 (none mapping)
  · have hit : cache.table.lookupNoFreqUpdate config.geometry (cache.verify config key) key =
        .unknown location := (Prod.mk.inj (Option.some.inj ran)).1
    rw [Table.lookupNoFreqUpdate, found] at hit
    dsimp only at hit
    unfold Table.hitAt at hit
    split at hit <;> cases hit

end CacheRs.Segcache
