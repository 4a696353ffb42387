/-
**Building a cache.**

* `SegmentsBuilder.build`: what a configuration is checked for, in this order;
* `Location.code`, `Location.decode`: a location's 44 bits;
* `build_addresses`: **a build accepts exactly the heaps whose every item a location can address**, as
  far as the checks say, and gives each place a location of its own;
* `Cache.shared`: the slot words, over what the segments hold;
* `table_alone`: **the programs of the shared table and the functions of the table agree** on every
  reachable cache.
-/

import CacheRs.Hashtable.SlotWord
import CacheRs.Segcache.Runs
import CacheRs.Segcache.TableAlone

set_option linter.unusedSectionVars false

namespace CacheRs.Segcache

open Concurrency
open Hashtable (Geometry Shared SlotRef RelinkFreq)
open Hashtable.RawLocation (maxSegments)
open KeyValue (Layout maxSegmentBytes)

/-! ### The builder -/

/-- The parameters of a heap. -/
structure SegmentsBuilder where
  /-- An `i32`. -/
  segmentSize : Int
  heapSize : Nat
  evictPolicy : Policy

namespace SegmentsBuilder

def default : SegmentsBuilder where
  segmentSize := 1024 * 1024
  heapSize := 64 * 1024 * 1024
  evictPolicy := .random

/-- The errors of `SegmentsError` that a build answers. -/
inductive Error where
  | segmentTooSmall
  | segmentSizeUnaligned
  | invalidHeapSize (heapSize segmentSize : Nat)
  | tooManySegments (segments limit : Nat)
  | segmentTooLarge (segmentSize limit : Nat)
  deriving DecidableEq, Repr

def Error.message : Error → String
  | segmentTooSmall => "segment size must be greater than item header overhead"
  | segmentSizeUnaligned => "segment size must be a multiple of 8 bytes"
  | invalidHeapSize heapSize segmentSize =>
    "heap size (" ++ toString heapSize ++ ") must be a non-zero multiple of segment size (" ++
      toString segmentSize ++ ")"
  | tooManySegments segments limit =>
    "heap requires " ++ toString segments ++ " segments, more than the " ++ toString limit ++
      " a location can address (the 18-bit segment id holds one more, reserved so no location " ++
      "aliases the ghost sentinel); increase segment_size (or reduce heap_size)"
  | segmentTooLarge segmentSize limit =>
    "segment size (" ++ toString segmentSize ++ ") exceeds the " ++ toString limit ++
      " bytes a location's offset field can address without aliasing two items onto one location; " ++
      "decrease segment_size"

variable (builder : SegmentsBuilder) (layout : Layout) (geometry : Geometry Key) (draw : Nat → UInt32)

/-- `SegmentsBuilder::build`; the last check is that of `Segments::from_builder`. -/
def build : Except Error Config :=
  if small : builder.segmentSize < layout.headerSize + 1 then .error .segmentTooSmall
  else if large : maxSegmentBytes < builder.segmentSize.toNat then
    .error (.segmentTooLarge builder.segmentSize.toNat maxSegmentBytes)
  else if unaligned : builder.segmentSize % 8 ≠ 0 then .error .segmentSizeUnaligned
  else if invalid : builder.heapSize = 0 ∨ builder.heapSize % builder.segmentSize.toNat ≠ 0 then
    .error (.invalidHeapSize builder.heapSize builder.segmentSize.toNat)
  else if maxSegments < builder.heapSize / builder.segmentSize.toNat then
    .error (.tooManySegments (builder.heapSize / builder.segmentSize.toNat) maxSegments)
  else .ok
    { layout := layout
      geometry := geometry
      segmentSize := builder.segmentSize.toNat
      cap := builder.heapSize / builder.segmentSize.toNat
      policy := builder.evictPolicy
      draw := draw
      segmentSize_gt := by omega
      segmentSize_le := by omega
      segmentSize_aligned := by omega
      cap_pos := by
        have divides : builder.segmentSize.toNat ∣ builder.heapSize :=
          Nat.dvd_of_mod_eq_zero (by omega)
        exact Nat.div_pos (Nat.le_of_dvd (by omega) divides) (by omega) }

/-- The heaps that a build accepts. -/
structure Accepts (layout : Layout) (builder : SegmentsBuilder) : Prop where
  size_gt : layout.headerSize < builder.segmentSize
  size_le : builder.segmentSize ≤ maxSegmentBytes
  aligned : builder.segmentSize % 8 = 0
  heap_pos : 0 < builder.heapSize
  multiple : builder.segmentSize ∣ builder.heapSize
  addressed : (builder.heapSize : Int) ≤ maxSegments * builder.segmentSize

/-- What is wrong with a heap that is refused. -/
def Error.Explains (layout : Layout) (builder : SegmentsBuilder) : Error → Prop
  | segmentTooSmall => builder.segmentSize ≤ layout.headerSize
  | segmentSizeUnaligned => ¬ 8 ∣ builder.segmentSize
  | invalidHeapSize heapSize segmentSize => heapSize = builder.heapSize ∧
      segmentSize = builder.segmentSize ∧ (heapSize = 0 ∨ ¬ segmentSize ∣ heapSize)
  | tooManySegments segments limit => segments * builder.segmentSize = builder.heapSize ∧
      limit = maxSegments ∧ limit < segments
  | segmentTooLarge segmentSize limit => segmentSize = builder.segmentSize ∧
      limit = maxSegmentBytes ∧ limit < segmentSize

variable {builder layout geometry draw}

/-- **A refused heap breaks the limit that its error names.** -/
theorem explains_of_error {error : Error} (refused : builder.build layout geometry draw = .error error) :
    error.Explains layout builder := by
  unfold build at refused
  by_cases small : builder.segmentSize < layout.headerSize + 1
  · rw [dif_pos small] at refused
    cases refused
    exact Int.le_of_lt_add_one small
  rw [dif_neg small] at refused
  have size : (builder.segmentSize.toNat : Int) = builder.segmentSize := Int.toNat_of_nonneg (by omega)
  by_cases large : maxSegmentBytes < builder.segmentSize.toNat
  · rw [dif_pos large] at refused
    cases refused
    exact ⟨size, rfl, large⟩
  rw [dif_neg large] at refused
  by_cases unaligned : builder.segmentSize % 8 ≠ 0
  · rw [dif_pos unaligned] at refused
    cases refused
    exact fun divides => unaligned (Int.emod_eq_zero_of_dvd divides)
  rw [dif_neg unaligned] at refused
  by_cases invalid : builder.heapSize = 0 ∨ builder.heapSize % builder.segmentSize.toNat ≠ 0
  · rw [dif_pos invalid] at refused
    cases refused
    exact ⟨rfl, size, invalid.imp_right fun rest divides => rest (Nat.mod_eq_zero_of_dvd divides)⟩
  rw [dif_neg invalid] at refused
  by_cases many : maxSegments < builder.heapSize / builder.segmentSize.toNat
  · rw [if_pos many] at refused
    cases refused
    refine ⟨?_, rfl, many⟩
    have divides : builder.segmentSize.toNat ∣ builder.heapSize := Nat.dvd_of_mod_eq_zero (by omega)
    calc ((builder.heapSize / builder.segmentSize.toNat : Nat) : Int) * builder.segmentSize
        = (builder.heapSize / builder.segmentSize.toNat * builder.segmentSize.toNat : Nat) := by
          rw [Nat.cast_mul, size]
      _ = builder.heapSize := by rw [Nat.div_mul_cancel divides]
  · rw [if_neg many] at refused
    cases refused

/-- What a build makes of a heap. -/
structure Builds (builder : SegmentsBuilder) (layout : Layout) (geometry : Geometry Key)
    (draw : Nat → UInt32) (config : Config) : Prop where
  layout : config.layout = layout
  geometry : config.geometry = geometry
  draw : config.draw = draw
  policy : config.policy = builder.evictPolicy
  segmentSize : config.segmentSize = builder.segmentSize
  heapSize : config.cap * config.segmentSize = builder.heapSize
  cap_le : config.cap ≤ maxSegments

theorem builds_of_ok {config : Config} (built : builder.build layout geometry draw = .ok config) :
    builder.Builds layout geometry draw config := by
  unfold build at built
  by_cases small : builder.segmentSize < layout.headerSize + 1
  · rw [dif_pos small] at built
    cases built
  rw [dif_neg small] at built
  by_cases large : maxSegmentBytes < builder.segmentSize.toNat
  · rw [dif_pos large] at built
    cases built
  rw [dif_neg large] at built
  by_cases unaligned : builder.segmentSize % 8 ≠ 0
  · rw [dif_pos unaligned] at built
    cases built
  rw [dif_neg unaligned] at built
  by_cases invalid : builder.heapSize = 0 ∨ builder.heapSize % builder.segmentSize.toNat ≠ 0
  · rw [dif_pos invalid] at built
    cases built
  rw [dif_neg invalid] at built
  by_cases many : maxSegments < builder.heapSize / builder.segmentSize.toNat
  · rw [if_pos many] at built
    cases built
  rw [if_neg many] at built
  cases built
  have divides : builder.segmentSize.toNat ∣ builder.heapSize := Nat.dvd_of_mod_eq_zero (by omega)
  exact ⟨rfl, rfl, rfl, rfl, Int.toNat_of_nonneg (by omega), Nat.div_mul_cancel divides,
    Nat.le_of_not_lt many⟩

/-- The five checks together. -/
theorem build_ok_iff : (∃ config, builder.build layout geometry draw = .ok config) ↔
    builder.Accepts layout := by
  constructor
  · rintro ⟨config, built⟩
    have builds := builds_of_ok built
    have size := builds.segmentSize
    have heap : (config.cap : Int) * config.segmentSize = builder.heapSize := by
      exact_mod_cast builds.heapSize
    have positive := Nat.mul_pos config.cap_pos (Nat.zero_lt_of_lt config.segmentSize_gt)
    refine ⟨?_, ?_, ?_, ?_, ⟨config.cap, ?_⟩, ?_⟩
    · rw [← size, ← builds.layout]
      exact_mod_cast config.segmentSize_gt
    · rw [← size]
      exact_mod_cast config.segmentSize_le
    · have aligned := config.segmentSize_aligned
      omega
    · rwa [builds.heapSize] at positive
    · rw [← size, ← heap, mul_comm]
    · rw [← size, ← heap]
      exact_mod_cast Nat.mul_le_mul_right _ builds.cap_le
  · intro accepts
    cases built : builder.build layout geometry draw with
    | ok config => exact ⟨config, rfl⟩
    | error error =>
      exfalso
      have explains := explains_of_error built
      have positive : (0 : Int) < builder.segmentSize :=
        lt_of_le_of_lt (Int.natCast_nonneg _) accepts.size_gt
      cases error with
      | segmentTooSmall => exact absurd accepts.size_gt (not_lt.mpr explains)
      | segmentSizeUnaligned => exact explains (Int.dvd_of_emod_eq_zero accepts.aligned)
      | invalidHeapSize heapSize segmentSize =>
        obtain ⟨rfl, size, empty | rest⟩ := explains
        · exact absurd accepts.heap_pos (by omega)
        · have multiple := accepts.multiple
          rw [← size] at multiple
          exact rest (Int.natCast_dvd_natCast.mp multiple)
      | tooManySegments segments limit =>
        obtain ⟨heap, rfl, many⟩ := explains
        have addressed := accepts.addressed
        rw [← heap] at addressed
        have few : (segments : Int) ≤ maxSegments := le_of_mul_le_mul_right addressed positive
        omega
      | segmentTooLarge segmentSize limit =>
        obtain ⟨size, rfl, large⟩ := explains
        have limit := accepts.size_le
        omega

/-- The default heap builds, with either layout. -/
theorem default_accepts (layout : Layout) : default.Accepts layout := by
  have header : layout.headerSize ≤ 12 := by
    unfold Layout.headerSize
    split <;> omega
  refine ⟨?_, by decide, by decide, by decide, by decide, by decide⟩
  show (layout.headerSize : Int) < 1024 * 1024
  omega

end SegmentsBuilder

/-! ### Locations -/

namespace Location

/-- The 44 bits of a location. -/
def code (location : Location) : Hashtable.Location :=
  (Hashtable.packLocation (.ofNat 32 location.segment) (.ofNat 16 location.tag)
    (.ofNat 64 location.offset)).setWidth 44

/-- The location of 44 bits. -/
def decode (bits : Hashtable.Location) : Location :=
  let raw : Hashtable.RawLocation := bits.setWidth 64
  ⟨(Hashtable.unpackLocation raw).1.toNat, raw.tag.toNat, (Hashtable.unpackLocation raw).2.toNat⟩

/-- A place of a built heap, in some incarnation of its segment. -/
structure Issued (location : Location) : Prop where
  used : 1 ≤ location.segment
  issued : location.segment ≤ maxSegments
  tag_lt : location.tag < 64
  aligned : location.offset % 8 = 0
  below : location.offset < maxSegmentBytes

variable {location location' : Location}

namespace Issued

variable (issued : location.Issued)

include issued

theorem segment_toNat : (BitVec.ofNat 32 location.segment).toNat = location.segment := by
  rw [BitVec.toNat_ofNat]
  exact Nat.mod_eq_of_lt (lt_of_le_of_lt issued.issued (by decide))

theorem offset_toNat : (BitVec.ofNat 64 location.offset).toNat = location.offset := by
  have limit : location.offset < 2 ^ 23 := issued.below
  rw [BitVec.toNat_ofNat]
  omega

theorem small : (BitVec.ofNat 32 location.segment).toNat < 2 ^ 18 := by
  rw [issued.segment_toNat]
  exact lt_of_le_of_lt issued.issued (by decide)

/-- No bit of a packed location is lost. -/
theorem code_raw : location.code.setWidth 64 = Hashtable.packLocation (.ofNat 32 location.segment)
    (.ofNat 16 location.tag) (.ofNat 64 location.offset) := by
  have fits := Hashtable.fromRaw_packLocation issued.small (.ofNat 16 location.tag)
    (.ofNat 64 location.offset)
  rwa [Hashtable.RawLocation.fromRaw, Hashtable.maxRaw_eq, Bits.and_lowMask] at fits

/-- **A location is read back from its bits.** -/
theorem decode_code : decode location.code = location := by
  have place := Hashtable.unpackLocation_packLocation issued.small (.ofNat 16 location.tag)
    (by rw [issued.offset_toNat]; exact issued.aligned)
    (by rw [issued.offset_toNat]; exact issued.below)
  have tag := Hashtable.tag_packLocation issued.small (.ofNat 16 location.tag)
    (.ofNat 64 location.offset)
  unfold decode
  dsimp only
  rw [issued.code_raw, place, tag]
  refine Location.ext issued.segment_toNat ?_ issued.offset_toNat
  show (Hashtable.tagForGeneration _).toNat = location.tag
  have limit := issued.tag_lt
  rw [Hashtable.tagForGeneration_toNat, BitVec.toNat_ofNat]
  omega

theorem code_ne_zero : location.code ≠ 0 := by
  intro zero
  have raw := issued.code_raw
  rw [zero] at raw
  refine Hashtable.packLocation_ne_zero ?_ issued.small _ _ raw.symm
  rw [issued.segment_toNat]
  exact issued.used

theorem code_ne_ghost : location.code ≠ Hashtable.Location.ghost := by
  intro ghost
  have raw := issued.code_raw
  have marker : Hashtable.Location.ghost.setWidth 64 = Hashtable.RawLocation.ghost := by decide
  rw [ghost, marker] at raw
  refine Hashtable.packLocation_ne_ghost ?_ _ _ raw.symm
  rw [issued.segment_toNat]
  exact issued.issued

end Issued

/-- **Distinct places have distinct bits.** -/
theorem code_injective (issued : location.Issued) (issued' : location'.Issued)
    (same : location.code = location'.code) : location = location' := by
  rw [← issued.decode_code, same, issued'.decode_code]

end Location

/-- The bits of the locations of a built heap. -/
def locationCoding : Coding Location where
  code := Location.code
  Issued := Location.Issued
  nonzero := Location.Issued.code_ne_zero
  real := Location.Issued.code_ne_ghost
  injective := Location.code_injective

/-! ### A built heap -/

/-- A place is read back from its bits, and reads neither as empty nor as a ghost. -/
structure Location.Addressed (location : Location) : Prop where
  decode_code : Location.decode location.code = location
  nonzero : location.code ≠ 0
  real : location.code ≠ Hashtable.Location.ghost

/-- **What a build decides.** A refused heap breaks the limit that the error names. An accepted one is
divided into segments without a rest, and every place in it has bits of its own, in each of the 64
incarnations that a tag tells apart. -/
theorem build_addresses (builder : SegmentsBuilder) (layout : Layout) (geometry : Geometry Key)
    (draw : Nat → UInt32) :
    (∀ error, builder.build layout geometry draw = .error error →
      error.Explains layout builder ∧ ¬ builder.Accepts layout) ∧
    ∀ config, builder.build layout geometry draw = .ok config →
      builder.Accepts layout ∧ builder.Builds layout geometry draw config ∧
        ∀ id generation offset, InRange config id → offset % 8 = 0 → offset < config.segmentSize →
          Location.Addressed ⟨id, generation % 64, offset⟩ := by
  refine ⟨fun error refused => ⟨SegmentsBuilder.explains_of_error refused, fun accepts => ?_⟩,
    fun config built => ?_⟩
  · obtain ⟨config, built⟩ := SegmentsBuilder.build_ok_iff.mpr accepts
    cases refused.symm.trans built
  · have builds := SegmentsBuilder.builds_of_ok built
    refine ⟨SegmentsBuilder.build_ok_iff.mp ⟨config, built⟩, builds, ?_⟩
    intro id generation offset inRange aligned below
    have issued : Location.Issued ⟨id, generation % 64, offset⟩ :=
      ⟨inRange.1, inRange.2.trans builds.cap_le, Nat.mod_lt _ (by decide), aligned,
        below.trans_le config.segmentSize_le⟩
    exact ⟨issued.decode_code, issued.code_ne_zero, issued.code_ne_ghost⟩

section Shared

variable (config : Config) (cache : Cache)

/-- What the segments hold behind each location's bits. -/
def Cache.storage : Shared Key where
  slot _ _ := .empty
  locked _ := false
  random := 0
  item bits := (cache.itemAt config (Location.decode bits)).map Item.key
  readable bits :=
    let location := Location.decode bits
    let segment := cache.segment location.segment
    1 ≤ location.segment && location.segment ≤ config.cap && segment.state.isReadable &&
      location.tag = segment.tag

/-- The memory that the threads share: the words of the table, over the segments. -/
def Cache.shared : Shared Key := locationCoding.pack cache.table (cache.storage config)

/-- Alone, a program answers this, and leaves the words of this table. -/
def Gives {α : Type} (program : Hashtable.Prog Key α) (answer : α) (table : Table Location) : Prop :=
  ∀ value last, Solo program (cache.shared config) value last ↔
    value = answer ∧ last = Cache.shared config { cache with table := table }

/-- What the programs of the shared table do alone, in terms of the table's functions. -/
structure TableAlone : Prop where
  lookup : ∀ key,
    let result := cache.table.lookup config.geometry (cache.verify config key) key
    Gives config cache (Hashtable.lookup config.geometry key) (locationCoding.looked result.1) result.2
  lookupNoFreqUpdate : ∀ key, Gives config cache (Hashtable.lookupNoFreqUpdate config.geometry key)
    (locationCoding.looked (cache.table.lookupNoFreqUpdate config.geometry (cache.verify config key) key))
    cache.table
  insert : ∀ key (location : Location),
    let result := cache.table.insert config.geometry (cache.verify config key) key location
    Gives config cache (Hashtable.insert config.geometry key location.code)
      (locationCoding.inserted result.1) result.2
  remove : ∀ key (location : Location), location.Issued →
    let result := cache.table.remove config.geometry key location
    Gives config cache (Hashtable.remove config.geometry key location.code) result.1 result.2
  casLocation : ∀ key (location new : Location) relink, location.Issued →
    let result := cache.table.casLocation config.geometry key location new relink
    Gives config cache (Hashtable.casLocation config.geometry key location.code new.code relink)
      result.1 result.2
  casLocationAt : ∀ slot (location new : Location) preserveFreq, location.Issued →
    let result := cache.table.casLocationAt slot location new preserveFreq
    Gives config cache (Hashtable.casLocationAt slot location.code new.code preserveFreq) result.1
      result.2

end Shared

variable {config : Config} {cache : Cache}

theorem gives_of_solo {α : Type} {program : Hashtable.Prog Key α} {answer : α}
    {table : Table Location} (ran : Solo program (cache.shared config) answer
      (Cache.shared config { cache with table := table })) : Gives config cache program answer table := by
  intro value last
  refine ⟨fun other => other.deterministic ran, ?_⟩
  rintro ⟨rfl, rfl⟩
  exact ran

/-- Every entry of a reachable table names a place of the heap. -/
theorem Good.covers (good : Good config cache) (merges : config.Merges) (small : config.cap ≤ maxSegments) :
    locationCoding.Covers cache.table := by
  obtain ⟨⟨chain, sane⟩, -⟩ := good
  intro b i entry slot
  obtain ⟨item, present, -⟩ := sane.consistent.sound slot
  have laid : (cache.segment entry.location.segment).Laid config := by
    refine sane.consistent.laid ?_
    have state := present.state
    have awake : (cache.segment entry.location.segment).state ≠ .draining :=
      sane.orderly.not_draining merges _
    unfold holds at state
    unfold isLaid
    simpa [awake] using state
  have placed := Segment.itemAt_iff.mp present.item
  have bounds := Segment.mem_layOut_bounds placed
  have units := Segment.mem_layOut_dvd placed
  have start : config.initialOffset % 8 = 0 := by
    unfold Config.initialOffset
    split <;> rfl
  have size : 0 < item.size config := item.size_pos
  have fits := laid.fits
  rw [laid.writeOffset] at fits
  refine ⟨present.range.1, present.range.2.trans small, ?_, by omega, ?_⟩
  · rw [present.tag]
    exact Nat.mod_lt _ (by decide)
  · exact (by omega : entry.location.offset < config.segmentSize).trans_le config.segmentSize_le

/-- **The segments answer about an entry as the verifier does.** -/
theorem Good.storage_answers (good : Good config cache) (merges : config.Merges)
    (small : config.cap ≤ maxSegments) (key : Key) :
    locationCoding.Answers (cache.verify config key) key cache.table (cache.storage config) := by
  have covers := good.covers merges small
  obtain ⟨⟨chain, sane⟩, -⟩ := good
  intro b i entry slot
  obtain ⟨item, present, -⟩ := sane.consistent.sound slot
  have decoded : Location.decode (locationCoding.code entry.location) = entry.location :=
    (covers b i entry slot).decode_code
  have held : (cache.storage config).item (locationCoding.code entry.location) = some item.key := by
    show (cache.itemAt config (Location.decode _)).map Item.key = _
    rw [decoded, present.item]
    rfl
  have range : (1 ≤ entry.location.segment && entry.location.segment ≤ config.cap) = true := by
    simp [present.range.1, present.range.2]
  have readable : (cache.storage config).readable (locationCoding.code entry.location) =
      ((cache.segment entry.location.segment).state.isReadable &&
        entry.location.tag = (cache.segment entry.location.segment).tag) := by
    show (1 ≤ (Location.decode _).segment && (Location.decode _).segment ≤ config.cap && _ && _) = _
    rw [decoded, range, Bool.true_and]
  unfold storedVerdict Cache.verify
  rw [readable, held, if_pos range]
  dsimp only
  rw [present.item]
  by_cases awake : ((cache.segment entry.location.segment).state.isReadable &&
      entry.location.tag = (cache.segment entry.location.segment).tag) = true
  · rw [if_pos awake, if_pos awake]
    dsimp only
    by_cases same : item.key = key
    · rw [if_pos same, if_pos same]
      rfl
    · rw [if_neg same, if_neg same]
      rfl
  · rw [if_neg awake, if_neg awake]
    rfl

/-- **The shared table under one thread is the table of the cache.** On every reachable cache of a built
heap, each program on the 64-bit slot words (with its tag scan, its retry loops, its insert lock and its
search for ghosts and for the emptiest bucket), run alone, gives the answer of the function on the
unpacked entries, and leaves the words of the function's table. -/
theorem table_alone {builder : SegmentsBuilder}
    (built : builder.build config.layout config.geometry config.draw = .ok config)
    (reachable : Reachable config cache) (merges : config.Merges) : TableAlone config cache := by
  have small := (SegmentsBuilder.builds_of_ok built).cap_le
  have good := reachable.good
  have covers := good.covers merges small
  have answers := good.storage_answers merges small
  refine ⟨fun key => ?_, fun key => ?_, fun key location => ?_, fun key location issued => ?_,
    fun key location new relink issued => ?_, fun slot location new preserveFreq issued => ?_⟩
  · exact gives_of_solo (Coding.lookup_alone covers (answers key))
  · exact gives_of_solo (Coding.lookupNoFreqUpdate_alone covers (answers key))
  · exact gives_of_solo (Coding.insert_alone covers (answers key) (fun _ => rfl) location)
  · exact gives_of_solo (Coding.remove_alone covers issued)
  · exact gives_of_solo (Coding.casLocation_alone covers issued new relink)
  · exact gives_of_solo (Coding.casLocationAt_alone covers issued slot new preserveFreq)

/-- Two segments of 32 bytes, and an item in one of them. -/
theorem table_alone_small : ∃ cache, TableAlone (Config.small false .fifo 1) cache := by
  obtain ⟨cache, reachable, -⟩ := exists_reachable (Config.small false .fifo 1) 10
    [.insert (smallKey 1) (smallValue 8) Optional.none 60]
    (fun cache => decide (cache.freeQueue = [2])) (by decide +kernel)
  have built : (⟨32, 64, .fifo⟩ : SegmentsBuilder).build (Config.small false .fifo 1).layout
      (Config.small false .fifo 1).geometry (Config.small false .fifo 1).draw =
        .ok (Config.small false .fifo 1) := rfl
  exact ⟨cache, table_alone built reachable (merges_of_not_merge rfl)⟩

end CacheRs.Segcache
