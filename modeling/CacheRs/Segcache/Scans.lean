/-
**The scans that move items.**

* `movedItems`: the items of a scan that fit the target, one behind the other;
  `movedItems_of_room`, `last_not_moved`: all of them, unless the last one would fill it exactly;
* `Relocated`: these items have moved, and nothing else changed;
* `returns_copyItems`, `returns_promoteItems`: **what a scan moves**.
-/

import CacheRs.Segcache.ItemSteps
import CacheRs.Segcache.Shape

set_option linter.unusedSectionVars false

namespace CacheRs.Segcache

open Hashtable (RelinkFreq)
open Segments (SegId State)
open Sequential Procedure

variable {config : Config} {cache middle after : Cache}

/-! ### What fits -/

section Fit

variable (config : Config) (wanted : Nat × Item → Bool)

/-- The bytes of the wanted items. -/
def wantedSize (placed : List (Nat × Item)) : Nat :=
  totalSize config ((placed.filter wanted).map Prod.snd)

/-- The wanted items that still leave a byte of the target free. -/
def movedItems : Nat → List (Nat × Item) → List (Nat × Item)
  | _, [] => []
  | writeOffset, placed :: rest =>
    if wanted placed && writeOffset + placed.2.size config < config.segmentSize then
      placed :: movedItems (writeOffset + placed.2.size config) rest
    else movedItems writeOffset rest

end Fit

section Fit

variable {wanted : Nat × Item → Bool} {placed : Nat × Item} {rest : List (Nat × Item)}
  {writeOffset : Nat}

theorem mem_movedItems {l : List (Nat × Item)} (moved : placed ∈ movedItems config wanted writeOffset l) :
    placed ∈ l ∧ wanted placed = true := by
  induction l generalizing writeOffset with
  | nil => cases moved
  | cons first l ih =>
    rw [movedItems] at moved
    split at moved
    · rename_i fits
      rw [Bool.and_eq_true] at fits
      rcases List.mem_cons.mp moved with rfl | later
      · exact ⟨List.mem_cons_self .., fits.1⟩
      · exact ⟨List.mem_cons_of_mem _ (ih later).1, (ih later).2⟩
    · exact ⟨List.mem_cons_of_mem _ (ih moved).1, (ih moved).2⟩

theorem wantedSize_cons : wantedSize config wanted (placed :: rest) =
    (if wanted placed then placed.2.size config else 0) + wantedSize config wanted rest := by
  unfold wantedSize
  by_cases here : wanted placed
  · rw [List.filter_cons_of_pos here]
    simp [here]
  · rw [List.filter_cons_of_neg here]
    simp [here]

/-- **With room to spare, every wanted item moves.** -/
theorem movedItems_of_room {l : List (Nat × Item)}
    (room : writeOffset + wantedSize config wanted l < config.segmentSize) :
    movedItems config wanted writeOffset l = l.filter wanted := by
  induction l generalizing writeOffset with
  | nil => rfl
  | cons first l ih =>
    rw [wantedSize_cons] at room
    rw [movedItems]
    by_cases here : wanted first
    · rw [if_pos here] at room
      rw [if_pos (by rw [here, Bool.true_and, decide_eq_true_eq]; omega), ih (by omega),
        List.filter_cons_of_pos here]
    · rw [if_neg here] at room
      rw [if_neg (by simp [here]), ih (by omega), List.filter_cons_of_neg here]

/-- What moves fits. -/
theorem movedItems_fit {l : List (Nat × Item)} (before : writeOffset < config.segmentSize) :
    writeOffset + totalSize config ((movedItems config wanted writeOffset l).map Prod.snd) <
      config.segmentSize := by
  induction l generalizing writeOffset with
  | nil => simpa [movedItems] using before
  | cons first l ih =>
    rw [movedItems]
    split
    · rename_i fits
      rw [Bool.and_eq_true, decide_eq_true_eq] at fits
      have := ih fits.2
      rw [List.map_cons, totalSize_cons]
      omega
    · exact ih before

/-- **A full target leaves a wanted item behind.** -/
theorem exists_not_moved {l : List (Nat × Item)} (unique : (l.map Prod.fst).Nodup)
    (before : writeOffset < config.segmentSize)
    (full : config.segmentSize ≤ writeOffset + wantedSize config wanted l) :
    ∃ placed ∈ l, wanted placed = true ∧ placed ∉ movedItems config wanted writeOffset l := by
  induction l generalizing writeOffset with
  | nil =>
    simp [wantedSize] at full
    omega
  | cons first l ih =>
    rw [List.map_cons, List.nodup_cons] at unique
    have apart : ∀ placed ∈ l, placed ≠ first := fun placed inside same =>
      unique.1 (same ▸ List.mem_map_of_mem inside)
    rw [wantedSize_cons] at full
    by_cases here : wanted first
    · by_cases fits : writeOffset + first.2.size config < config.segmentSize
      · rw [if_pos here] at full
        obtain ⟨placed, inside, isWanted, notMoved⟩ := ih unique.2 fits (by omega)
        refine ⟨placed, List.mem_cons_of_mem _ inside, isWanted, ?_⟩
        rw [movedItems, if_pos (by simp [here, fits]), List.mem_cons, not_or]
        exact ⟨apart placed inside, notMoved⟩
      · refine ⟨first, List.mem_cons_self .., here, fun moved => ?_⟩
        rw [movedItems, if_neg (by simp [fits])] at moved
        exact apart first (mem_movedItems moved).1 rfl
    · rw [if_neg here] at full
      obtain ⟨placed, inside, isWanted, notMoved⟩ := ih unique.2 before (by omega)
      refine ⟨placed, List.mem_cons_of_mem _ inside, isWanted, ?_⟩
      rwa [movedItems, if_neg (by simp [here])]

theorem movedItems_congr {other : Nat × Item → Bool} {l : List (Nat × Item)}
    (same : ∀ placed ∈ l, wanted placed = other placed) :
    movedItems config wanted writeOffset l = movedItems config other writeOffset l := by
  induction l generalizing writeOffset with
  | nil => rfl
  | cons first l ih =>
    have later : ∀ placed ∈ l, wanted placed = other placed := fun placed inside =>
      same placed (List.mem_cons_of_mem _ inside)
    rw [movedItems, movedItems, same first (List.mem_cons_self ..), ih later, ih later]

end Fit

/-! ### What moves -/

/-- Some items of the source have moved to the target, and nothing else changed. -/
structure Relocated (config : Config) (source target : SegId) (relink : RelinkFreq)
    (moved : List (Nat × Item)) (cache after : Cache) : Prop where
  consistent : Consistent config none after
  stays : ∀ key mapping, Maps config cache key mapping →
    ¬ (mapping.location.segment = source ∧ mapping.location.offset ∈ moved.map Prod.fst) →
    Maps config after key mapping
  moves : ∀ key mapping, Maps config cache key mapping → mapping.location.segment = source →
    mapping.location.offset ∈ moved.map Prod.fst →
    ∃ location, location.segment = target ∧
      Maps config after key ⟨mapping.item, relinkFreq relink mapping.freq, location⟩
  only : ∀ key mapping, Maps config after key mapping → ∃ old, Maps config cache key old
  sourceSegment : SameButCounters (cache.segment source) (after.segment source)
  targetSegment : ∃ items, (after.segment target).items = (cache.segment target).items ++ items ∧
    (after.segment target).writeOffset =
      (cache.segment target).writeOffset + totalSize config (moved.map Prod.snd) ∧
    (after.segment target).liveBytes =
      (cache.segment target).liveBytes + totalSize config (moved.map Prod.snd)
  targetHeader : (after.segment target).node = (cache.segment target).node
  others : ∀ id, id ≠ source → id ≠ target → after.segment id = cache.segment id
  rest : SameRest cache after
  shed : Shed config cache after

theorem Relocated.nothing {source target : SegId} {relink : RelinkFreq}
    (consistent : Consistent config none cache) :
    Relocated config source target relink [] cache cache where
  consistent := consistent
  stays _ _ maps _ := maps
  moves _ _ _ _ inside := by simp at inside
  only _ mapping maps := ⟨mapping, maps⟩
  sourceSegment := SameButCounters.refl _
  targetSegment := ⟨[], by simp, by simp, by simp⟩
  targetHeader := rfl
  others _ _ _ := rfl
  rest := rfl
  shed := Shed.refl cache

/-- The frequency of an item is that of its key's mapping, if that is to this item. -/
theorem Consistent.getItemFrequency_eq {pending : Option Location}
    (consistent : Consistent config pending cache) {location : Location} {item : Item}
    (item_ : cache.itemAt config location = some item) (freq : BitVec 8) :
    cache.table.getItemFrequency config.geometry item.key location = some freq ↔
      Maps config cache item.key ⟨item, freq, location⟩ := by
  constructor
  · intro found
    have named := (consistent.getItemFrequency_isSome item_).mp (by rw [found]; rfl)
    obtain ⟨b, i, entry, slot, rfl⟩ := named
    have := consistent.getItemFrequency_named slot item_
    rw [found] at this
    have maps := consistent.maps_of_slot slot item_
    rwa [← Option.some.inj this] at maps
  · rintro ⟨b, i, tag, slot, item', -⟩
    exact consistent.getItemFrequency_named slot item_

/-- The frequency of a placed item, if its key is mapped to it. -/
def frequencyAt (config : Config) (cache : Cache) (id : SegId) (placed : Nat × Item) :
    Option (BitVec 8) :=
  cache.table.getItemFrequency config.geometry placed.2.key (cache.locationAt id placed.1)

section Step

variable {source target : SegId} {relink : RelinkFreq} {offset : Nat} {item : Item}

theorem Moved.locationAt (moved : Moved config source target offset item relink cache middle)
    (at_ : Nat) : middle.locationAt source at_ = cache.locationAt source at_ := by
  unfold Cache.locationAt
  rw [moved.sourceSegment]
  rfl

/-- A move leaves the other items of the source as they are. -/
theorem Moved.frequencyAt (consistent : Consistent config none cache) (apart : source ≠ target)
    (moved : Moved config source target offset item relink cache middle)
    (item_ : cache.itemAt config (cache.locationAt source offset) = some item)
    (named : cache.table.Named (cache.locationAt source offset))
    {placed : Nat × Item} (inside : placed ∈ cache.laidOut config source)
    (other : placed.1 ≠ offset) :
    frequencyAt config middle source placed = frequencyAt config cache source placed := by
  obtain ⟨at_, held⟩ := placed
  have before : cache.itemAt config (cache.locationAt source at_) = some held :=
    Cache.itemAt_locationAt.mpr inside
  have laidOut : middle.laidOut config source = cache.laidOut config source := by
    unfold Cache.laidOut
    rw [moved.sourceSegment]
    rfl
  have now : middle.itemAt config (cache.locationAt source at_) = some held := by
    rw [← moved.locationAt]
    exact Cache.itemAt_locationAt.mpr (laidOut ▸ inside)
  obtain ⟨freq', mapsItem⟩ := consistent.maps_of_named named item_
  refine Option.ext fun freq => ?_
  unfold Segcache.frequencyAt
  rw [moved.locationAt, moved.consistent.getItemFrequency_eq now, consistent.getItemFrequency_eq before,
    moved.maps]
  constructor
  · rintro (⟨-, _, -, same⟩ | ⟨-, maps⟩)
    · exact absurd (congrArg (fun mapping => mapping.location.segment) same) apart
    · exact maps
  · intro maps
    refine .inr ⟨fun same => ?_, maps⟩
    rw [same] at maps
    have here := consistent.maps_unique maps mapsItem
    exact other (congrArg (fun mapping => mapping.location.offset) here)

/-- One more item has moved first. -/
theorem Relocated.step {moved : List (Nat × Item)} (consistent : Consistent config none cache)
    (apart : source ≠ target)
    (item_ : cache.itemAt config (cache.locationAt source offset) = some item)
    (named : cache.table.Named (cache.locationAt source offset))
    (first : Moved config source target offset item relink cache middle)
    (rest : Relocated config source target relink moved middle after) :
    Relocated config source target relink ((offset, item) :: moved) cache after := by
  obtain ⟨freq, mapsItem⟩ := consistent.maps_of_named named item_
  refine ⟨rest.consistent, ?_, ?_, ?_, ?_, ?_, ?_, ?_, first.rest.trans rest.rest,
    first.shed.trans rest.shed⟩
  · intro key mapping maps outside
    rw [List.map_cons, List.mem_cons, not_and_or, not_or] at outside
    refine rest.stays key mapping ?_ ?_
    · refine (first.maps key mapping).mpr (.inr ⟨fun same => ?_, maps⟩)
      subst same
      cases consistent.maps_unique maps mapsItem
      rcases outside with elsewhere | ⟨elsewhere, -⟩
      · exact elsewhere rfl
      · exact elsewhere rfl
    · rintro ⟨same, inside⟩
      rcases outside with elsewhere | ⟨-, elsewhere⟩
      · exact elsewhere same
      · exact elsewhere inside
  · intro key mapping maps here inside
    by_cases same : key = item.key
    · subst same
      cases consistent.maps_unique maps mapsItem
      have now : Maps config middle item.key ⟨item, relinkFreq relink freq,
          cache.locationAt target (cache.segment target).writeOffset⟩ :=
        (first.maps _ _).mpr (.inl ⟨rfl, freq, maps, rfl⟩)
      refine ⟨_, rfl, rest.stays _ _ now ?_⟩
      rintro ⟨same, -⟩
      exact apart same.symm
    · have now : Maps config middle key mapping := (first.maps _ _).mpr (.inr ⟨same, maps⟩)
      rw [List.map_cons, List.mem_cons] at inside
      rcases inside with first_ | later
      · -- The item at this offset is the one that moved.
        have location := consistent.locationAt_of_named maps.named
        rw [here, first_] at location
        have item' := maps.item
        rw [← location, item_] at item'
        exact absurd (maps.key.symm.trans (congrArg Item.key (Option.some.inj item').symm)) same
      · exact rest.moves key mapping now here later
  · intro key mapping maps
    obtain ⟨old, was⟩ := rest.only key mapping maps
    rcases (first.maps key old).mp was with ⟨-, freq, older, -⟩ | ⟨-, older⟩
    · exact ⟨_, older⟩
    · exact ⟨_, older⟩
  · refine SameButCounters.trans ?_ rest.sourceSegment
    rw [first.sourceSegment]
    exact ⟨_, _, rfl⟩
  · obtain ⟨items, appended, writeOffset, liveBytes⟩ := rest.targetSegment
    rw [first.targetSegment] at appended writeOffset liveBytes
    refine ⟨item :: items, ?_, ?_, ?_⟩
    · rw [appended]
      simp [Segment.recount, Segment.extend]
    · rw [writeOffset, List.map_cons, totalSize_cons]
      simp [Segment.recount, Segment.extend, Nat.add_assoc]
    · rw [liveBytes, List.map_cons, totalSize_cons]
      simp [Segment.recount, Segment.extend]
      ring
  · rw [rest.targetHeader, first.targetSegment]
    rfl
  · intro id notSource notTarget
    rw [rest.others id notSource notTarget, first.others id notSource notTarget]

end Step

/-- What a scan needs of its target. -/
structure Fillable (config : Config) (cache : Cache) (source target : SegId) : Prop where
  apart : source ≠ target
  state : isLaid (cache.segment target).state = true
  range : 1 ≤ target ∧ target ≤ config.cap

theorem Moved.fillable {source target : SegId} {relink : RelinkFreq} {offset : Nat} {item : Item}
    (moved : Moved config source target offset item relink cache middle)
    (fillable : Fillable config cache source target) : Fillable config middle source target where
  apart := fillable.apart
  state := by
    rw [moved.targetSegment]
    exact fillable.state
  range := fillable.range

/-- The items `copy_into` wants: every live one. -/
def copyWanted (config : Config) (cache : Cache) (source : SegId) (placed : Nat × Item) : Bool :=
  !(placed.2.deleted || (frequencyAt config cache source placed).isNone)

/-- The items `s3fifo_promote_from` wants: those with a frequency above zero. -/
def promoteWanted (config : Config) (cache : Cache) (source : SegId) (placed : Nat × Item) : Bool :=
  !(placed.2.deleted || (frequencyAt config cache source placed).getD 0 = 0)

/-- After a scan has moved its first item. -/
structure Advanced (config : Config) (source target : SegId) (relink : RelinkFreq)
    (first : Nat × Item) (rest : List (Nat × Item)) (cache middle : Cache) : Prop where
  consistent : Consistent config none middle
  fillable : Fillable config middle source target
  inside : ∀ one ∈ rest, one ∈ middle.laidOut config source
  frequencies : ∀ one ∈ rest, frequencyAt config middle source one =
    frequencyAt config cache source one
  writeOffset : (middle.segment target).writeOffset =
    (cache.segment target).writeOffset + first.2.size config
  step : ∀ moved after, Relocated config source target relink moved middle after →
    Relocated config source target relink (first :: moved) cache after

section Round

variable {source target : SegId} {offset : Nat} {item : Item} {rest : List (Nat × Item)}

/-- The round of a scan that moves its first item. -/
theorem returns_advance (relink : RelinkFreq) (consistent : Consistent config none cache)
    (fillable : Fillable config cache source target)
    (inside : ∀ one ∈ (offset, item) :: rest, one ∈ cache.laidOut config source)
    (unique : (((offset, item) :: rest).map Prod.fst).Nodup)
    (live : (frequencyAt config cache source (offset, item)).isSome = true)
    (room : (cache.segment target).writeOffset + item.size config < config.segmentSize) :
    Returns (relinkItem config source target offset item relink)
      (fun moved middle => moved = true ∧
        Advanced config source target relink (offset, item) rest cache middle) cache := by
  have item_ : cache.itemAt config (cache.locationAt source offset) = some item :=
    Cache.itemAt_locationAt.mpr (inside _ (List.mem_cons_self ..))
  have named := (consistent.getItemFrequency_isSome item_).mp live
  rw [List.map_cons, List.nodup_cons] at unique
  refine (returns_relinkItem relink consistent named item_ fillable.apart fillable.state
    fillable.range room.le).mono fun value middle ⟨done, moved⟩ => ⟨done, ?_⟩
  have laidOut : middle.laidOut config source = cache.laidOut config source := by
    unfold Cache.laidOut
    rw [moved.sourceSegment]
    rfl
  refine ⟨moved.consistent, moved.fillable fillable, fun one there => ?_, fun one there => ?_, ?_,
    fun _ _ => Relocated.step consistent fillable.apart item_ named moved⟩
  · rw [laidOut]
    exact inside one (List.mem_cons_of_mem _ there)
  · exact moved.frequencyAt consistent fillable.apart item_ named
      (inside one (List.mem_cons_of_mem _ there))
      fun same => unique.1 (List.mem_map.mpr ⟨one, there, same⟩)
  · rw [moved.targetSegment]
    rfl

/-- A round that passes its first item over. -/
theorem movedItems_skip {wanted : Nat × Item → Bool} {writeOffset : Nat}
    (skips : wanted (offset, item) = true →
      config.segmentSize ≤ writeOffset + item.size config) :
    movedItems config wanted writeOffset ((offset, item) :: rest) =
      movedItems config wanted writeOffset rest := by
  rw [movedItems, if_neg]
  rw [Bool.and_eq_true, decide_eq_true_eq, not_and]
  exact fun wants => not_lt.mpr (skips wants)

theorem movedItems_take {wanted : Nat × Item → Bool} {writeOffset : Nat}
    (wants : wanted (offset, item) = true)
    (room : writeOffset + item.size config < config.segmentSize) :
    movedItems config wanted writeOffset ((offset, item) :: rest) =
      (offset, item) :: movedItems config wanted (writeOffset + item.size config) rest := by
  rw [movedItems, if_pos]
  rw [wants, Bool.true_and, decide_eq_true_eq]
  exact room

end Round

/-- **What `copy_into` moves.** -/
theorem returns_copyItems {source target : SegId} (placed : List (Nat × Item))
    (consistent : Consistent config none cache) (fillable : Fillable config cache source target)
    (inside : ∀ one ∈ placed, one ∈ cache.laidOut config source)
    (unique : (placed.map Prod.fst).Nodup) :
    Returns (copyItems config source target placed)
      (fun _ after => Relocated config source target .preserve
        (movedItems config (copyWanted config cache source) (cache.segment target).writeOffset
          placed) cache after) cache := by
  induction placed generalizing cache with
  | nil => exact (returns_pure true).mpr (Relocated.nothing consistent)
  | cons first rest ih =>
    obtain ⟨offset, item⟩ := first
    have uniqueRest := (List.nodup_cons.mp unique).2
    have skip := ih consistent fillable
      (fun one there => inside one (List.mem_cons_of_mem _ there)) uniqueRest
    have gone : (item.deleted || (cache.table.getItemFrequency config.geometry item.key
        (cache.locationAt source offset)).isNone) = !copyWanted config cache source (offset, item) :=
      (Bool.not_not _).symm
    unfold copyItems getItemFrequency segmentOf
    rw [returns_bind, returns_read, returns_bind, returns_read, returns_bind, returns_read, gone]
    cases wants : copyWanted config cache source (offset, item) with
    | false =>
      rw [if_pos (by simp), movedItems_skip fun wanted => by cases wants.symm.trans wanted]
      exact skip
    | true =>
      by_cases full : config.segmentSize ≤ (cache.segment target).writeOffset + item.size config
      · rw [if_pos (by simp [full]), movedItems_skip fun _ => full]
        exact skip
      · have room := not_le.mp full
        rw [if_neg (by simp [room])]
        have live : (frequencyAt config cache source (offset, item)).isSome = true := by
          rw [copyWanted, Bool.not_or, Bool.and_eq_true] at wants
          simpa using wants.2
        refine (returns_advance .preserve consistent fillable inside unique live room).seq
          fun value middle ⟨done, advanced⟩ => ?_
        rw [if_pos done]
        refine (ih advanced.consistent advanced.fillable advanced.inside uniqueRest).mono
          fun _ after relocated => ?_
        rw [movedItems_take wants room]
        refine advanced.step _ _ ?_
        rw [advanced.writeOffset] at relocated
        convert relocated using 1
        refine movedItems_congr fun one there => ?_
        unfold copyWanted
        rw [advanced.frequencies one there]

/-- **What `s3fifo_promote_from` moves.** -/
theorem returns_promoteItems {source target : SegId} (relink : RelinkFreq)
    (placed : List (Nat × Item)) (consistent : Consistent config none cache)
    (fillable : Fillable config cache source target)
    (inside : ∀ one ∈ placed, one ∈ cache.laidOut config source)
    (unique : (placed.map Prod.fst).Nodup) :
    Returns (promoteItems config source target relink placed)
      (fun _ after => Relocated config source target relink
        (movedItems config (promoteWanted config cache source) (cache.segment target).writeOffset
          placed) cache after) cache := by
  induction placed generalizing cache with
  | nil => exact (returns_pure ()).mpr (Relocated.nothing consistent)
  | cons first rest ih =>
    obtain ⟨offset, item⟩ := first
    have uniqueRest := (List.nodup_cons.mp unique).2
    have skip := ih consistent fillable
      (fun one there => inside one (List.mem_cons_of_mem _ there)) uniqueRest
    have gone : (item.deleted || decide ((cache.table.getItemFrequency config.geometry item.key
        (cache.locationAt source offset)).getD 0 = 0)) =
          !promoteWanted config cache source (offset, item) := (Bool.not_not _).symm
    unfold promoteItems getItemFrequency
    rw [returns_bind, returns_read, returns_bind, returns_read]
    dsimp only
    rw [gone]
    cases wants : promoteWanted config cache source (offset, item) with
    | false =>
      rw [if_pos (by rfl), movedItems_skip fun wanted => by cases wants.symm.trans wanted]
      exact skip
    | true =>
      unfold segmentOf
      rw [if_neg (by simp), returns_bind, returns_read]
      by_cases room : (cache.segment target).writeOffset + item.size config < config.segmentSize
      · rw [if_pos room]
        have live : (frequencyAt config cache source (offset, item)).isSome = true := by
          rw [promoteWanted, Bool.not_or, Bool.and_eq_true, Bool.not_eq_true', Bool.not_eq_true',
            decide_eq_false_iff_not] at wants
          cases found : frequencyAt config cache source (offset, item) with
          | none => exact absurd (by rw [found]; rfl) wants.2
          | some freq => rfl
        refine (returns_advance relink consistent fillable inside unique live room).seq
          fun value middle ⟨done, advanced⟩ => ?_
        refine (ih advanced.consistent advanced.fillable advanced.inside uniqueRest).mono
          fun _ after relocated => ?_
        rw [movedItems_take wants room]
        refine advanced.step _ _ ?_
        rw [advanced.writeOffset] at relocated
        convert relocated using 1
        refine movedItems_congr fun one there => ?_
        unfold promoteWanted
        rw [advanced.frequencies one there]
      · rw [if_neg room, movedItems_skip fun _ => not_lt.mp room]
        exact skip

end CacheRs.Segcache
