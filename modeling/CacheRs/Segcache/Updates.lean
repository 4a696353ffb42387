/-
**Updates in place.**

* `Consistent.refreq`: an entry's frequency changes;
* `Consistent.altered`: **an item changes where it lies**, and keeps its key and its size;
* `maps_altered`: what the keys are mapped to behind that.
-/

import CacheRs.Segcache.Pins

set_option linter.unusedSectionVars false

namespace CacheRs.Segcache

open Segments (SegId State)
open Sequential Procedure

variable {config : Config} {chain : Nat → List SegId} {cache middle after : Cache} {id : SegId}
  {pending : Option Location} {location : Location} {item : Item} {key : Key}

/-! ### Frequencies -/

/-- The entries keep their tags and their locations. -/
def SameEntries (cache after : Cache) : Prop :=
  ∀ b i, (after.table.slot b i).map (fun entry => (entry.tag, entry.location)) =
    (cache.table.slot b i).map fun entry => (entry.tag, entry.location)

theorem SameEntries.slot (same : SameEntries cache after) {b i : Nat} {entry : Entry Location}
    (slot : after.table.slot b i = some entry) : ∃ old, cache.table.slot b i = some old ∧
      old.tag = entry.tag ∧ old.location = entry.location := by
  have here := same b i
  rw [slot, Option.map_some] at here
  obtain ⟨old, was, tags⟩ := Option.map_eq_some_iff.mp here.symm
  exact ⟨old, was, congrArg Prod.fst tags, congrArg Prod.snd tags⟩

theorem SameEntries.symm (same : SameEntries cache after) : SameEntries after cache :=
  fun b i => (same b i).symm

theorem SameEntries.named (same : SameEntries cache after) :
    after.table.Named location ↔ cache.table.Named location := by
  constructor
  · rintro ⟨b, i, entry, slot, rfl⟩
    obtain ⟨old, was, -, here⟩ := same.slot slot
    exact ⟨b, i, old, was, here⟩
  · rintro ⟨b, i, entry, slot, rfl⟩
    obtain ⟨old, was, -, here⟩ := same.symm.slot slot
    exact ⟨b, i, old, was, here⟩

/-- **An entry's frequency changes.** -/
theorem Consistent.refreq (consistent : Consistent config pending cache)
    (same : SameEntries cache after) (segments : after.segment = cache.segment) :
    Consistent config pending after := by
  have itemAt : ∀ location, after.itemAt config location = cache.itemAt config location := by
    intro location
    unfold Cache.itemAt
    rw [segments]
  have present : ∀ {location item}, Present config cache location item →
      Present config after location item := fun here =>
    ⟨(itemAt _).trans here.item, by rw [segments]; exact here.state, here.range,
      by rw [segments]; exact here.tag⟩
  have sums : ∀ id weight, total (Counts after pending id) weight (after.laidOut config id) =
      total (Counts cache pending id) weight (cache.laidOut config id) := by
    intro id weight
    have laidOut : after.laidOut config id = cache.laidOut config id := by
      unfold Cache.laidOut
      rw [segments]
    rw [laidOut]
    refine total_congr fun placed _ => ?_
    have location : after.locationAt id placed.1 = cache.locationAt id placed.1 := by
      unfold Cache.locationAt
      rw [segments]
    unfold Counts
    rw [location, same.named]
  exact {
    sound := fun slot => by
      obtain ⟨old, was, tag, here⟩ := same.slot slot
      obtain ⟨item, held, alive, candidate, isTag⟩ := consistent.sound was
      rw [here] at held
      rw [tag] at isTag
      exact ⟨item, present held, alive, candidate, isTag⟩
    unique := fun slot slot' here there isKey => by
      obtain ⟨old, was, -, location⟩ := same.slot slot
      obtain ⟨old', was', -, location'⟩ := same.slot slot'
      rw [itemAt, ← location] at here
      rw [itemAt, ← location'] at there
      exact consistent.unique was was' here there isKey
    inHand := fun inHand => by
      obtain ⟨unnamed, item, held⟩ := consistent.inHand inHand
      exact ⟨fun named => unnamed (same.named.mp named), item, present held⟩
    items := fun state => by
      rw [segments] at state ⊢
      rw [sums]
      exact consistent.items state
    bytes := fun state => by
      rw [segments] at state ⊢
      rw [sums]
      exact consistent.bytes state
    laid := fun state => by
      rw [segments] at state ⊢
      exact consistent.laid state
    fresh := fun state => by
      rw [segments] at state ⊢
      exact consistent.fresh state }

/-- What can be read stays so when frequencies change. -/
theorem SameEntries.wanes (same : SameEntries cache after) (segments : after.segment = cache.segment) :
    Wanes config cache after where
  awake key mapping awake := by
    obtain ⟨⟨b, i, tag, slot, item, isKey⟩, readable⟩ := awake
    obtain ⟨⟨oldTag, freq, location⟩, was, -, here⟩ := same.slot slot
    dsimp only at here
    subst here
    rw [segments] at readable
    unfold Cache.itemAt at item
    rw [segments] at item
    exact ⟨⟨mapping.item, freq, mapping.location⟩, ⟨⟨b, i, oldTag, was, item, isKey⟩, readable⟩, rfl⟩
  asleep i state := by
    rw [segments]
    exact state

/-! ### Items -/

/-- A segment with one item changed where it lies. -/
def Segment.altered (config : Config) (segment : Segment) (change : Item → Item) (offset : Nat) :
    Segment :=
  { segment with
    items := Segment.modifyItem config change offset config.initialOffset segment.items }

section Alter

variable {change : Item → Item}
  (slots : after.table.slot = cache.table.slot)
  (segments : after.segment = Function.update cache.segment location.segment
    ((cache.segment location.segment).altered config change location.offset))
  (sizes : ∀ item, cache.itemAt config location = some item →
    (change item).size config = item.size config)

include segments sizes

theorem laidOut_altered : after.laidOut config location.segment =
    (cache.laidOut config location.segment).map fun placed =>
      (placed.1, if placed.1 = location.offset then change placed.2 else placed.2) := by
  unfold Cache.laidOut
  rw [segments, Function.update_self]
  exact Segment.layOut_modifyItem _ _ fun item inside => sizes item (Segment.itemAt_iff.mpr inside)

/-- The items behind the change. -/
theorem itemAt_altered (other : Location) : after.itemAt config other =
    (cache.itemAt config other).map fun item =>
      if other.segment = location.segment ∧ other.offset = location.offset then change item else item := by
  by_cases here : other.segment = location.segment
  · have laid := laidOut_altered segments sizes
    refine Option.ext fun item => ?_
    rw [Option.map_eq_some_iff]
    unfold Cache.itemAt
    rw [here, Segment.itemAt_iff]
    unfold Cache.laidOut at laid
    rw [laid, List.mem_map]
    constructor
    · rintro ⟨⟨offset, old⟩, inside, same⟩
      obtain ⟨rfl, rfl⟩ := Prod.mk.inj same
      exact ⟨old, Segment.itemAt_iff.mpr inside, by simp⟩
    · rintro ⟨old, inside, same⟩
      exact ⟨(other.offset, old), Segment.itemAt_iff.mp inside, by simpa using same⟩
  · have untouched : after.segment other.segment = cache.segment other.segment := by
      rw [segments, Function.update_of_ne here]
    unfold Cache.itemAt
    rw [untouched]
    simp [here]

/-- What the keys are mapped to behind the change. -/
theorem maps_altered (consistent : Consistent config pending cache)
    (slots : after.table.slot = cache.table.slot)
    (tag : location.tag = (cache.segment location.segment).tag) {key : Key} {mapping : Mapping}
    (maps : Maps config after key mapping) :
    (mapping.location = location ∧ ∃ held, cache.itemAt config location = some held ∧
      mapping.item = change held) ∨
    (mapping.location ≠ location ∧ Maps config cache key mapping) := by
  obtain ⟨b, i, isTag, slot, item, same⟩ := maps
  rw [slots] at slot
  obtain ⟨old, present, -⟩ := consistent.sound slot
  have was : cache.itemAt config mapping.location = some old := present.item
  rw [itemAt_altered segments sizes, was, Option.map_some] at item
  by_cases here : mapping.location = location
  · subst here
    rw [if_pos ⟨rfl, rfl⟩] at item
    exact .inl ⟨rfl, old, was, (Option.some.inj item).symm⟩
  · have apart : ¬ (mapping.location.segment = location.segment ∧
        mapping.location.offset = location.offset) := by
      rintro ⟨segment, offset⟩
      have isTag' : mapping.location.tag = (cache.segment mapping.location.segment).tag := present.tag
      exact here (Location.ext segment (by rw [isTag', tag, segment]) offset)
    rw [if_neg apart] at item
    refine .inr ⟨here, b, i, isTag, slot, ?_, same⟩
    rw [was]
    exact item

end Alter

/-- A sum over items that keep their offsets and their weights. -/
theorem total_map {counts : Nat → Prop} {weight : Item → Int} {laid : List (Nat × Item)}
    {change : Nat × Item → Nat × Item}
    (keeps : ∀ placed ∈ laid, (change placed).1 = placed.1 ∧
      weight (change placed).2 = weight placed.2) :
    total counts weight (laid.map change) = total counts weight laid := by
  induction laid with
  | nil => rfl
  | cons placed laid ih =>
    obtain ⟨offset, same⟩ := keeps placed (List.mem_cons_self ..)
    rw [List.map_cons, total_cons, total_cons, offset, same,
      ih fun one inside => keeps one (List.mem_cons_of_mem _ inside)]

section Alter

variable {change : Item → Item} (consistent : Consistent config pending cache)
  (slots : after.table.slot = cache.table.slot)
  (segments : after.segment = Function.update cache.segment location.segment
    ((cache.segment location.segment).altered config change location.offset))
  (item_ : cache.itemAt config location = some item)
  (keeps : (change item).key = item.key ∧ (change item).size config = item.size config)
  (tag : location.tag = (cache.segment location.segment).tag)

include consistent slots segments item_ keeps tag

/-- **An item changes where it lies**, and keeps its key and its size. -/
theorem Consistent.altered
    (alive : cache.table.Named location → (change item).deleted = item.deleted) :
    Consistent config pending after := by
  have sizes : ∀ held, cache.itemAt config location = some held →
      (change held).size config = held.size config := by
    intro held here
    cases item_.symm.trans here
    exact keeps.2
  have header : ∀ i, (after.segment i).state = (cache.segment i).state ∧
      (after.segment i).tag = (cache.segment i).tag ∧
      (after.segment i).liveItems = (cache.segment i).liveItems ∧
      (after.segment i).liveBytes = (cache.segment i).liveBytes ∧
      (after.segment i).writeOffset = (cache.segment i).writeOffset := by
    intro i
    rw [segments]
    by_cases same : i = location.segment
    · subst same
      rw [Function.update_self]
      exact ⟨rfl, rfl, rfl, rfl, rfl⟩
    · rw [Function.update_of_ne same]
      exact ⟨rfl, rfl, rfl, rfl, rfl⟩
  have itemAt := fun other => itemAt_altered segments sizes other
  -- An item keeps its key.
  have keys : ∀ {other : Location} {held : Item}, after.itemAt config other = some held →
      ∃ old, cache.itemAt config other = some old ∧ old.key = held.key := by
    intro other held here
    rw [itemAt] at here
    obtain ⟨old, was, same⟩ := Option.map_eq_some_iff.mp here
    refine ⟨old, was, ?_⟩
    split at same
    · rename_i inside
      have : cache.itemAt config location = some old := by
        rw [← was]
        unfold Cache.itemAt
        rw [inside.1, inside.2]
      cases item_.symm.trans this
      rw [← same, keeps.1]
    · rw [same]
  have present : ∀ {other : Location} {held : Item}, Present config cache other held →
      ∃ now, Present config after other now ∧ now.key = held.key ∧
        (cache.table.Named other → now.deleted = held.deleted) := by
    intro other held here
    have now := itemAt other
    rw [here.item, Option.map_some] at now
    refine ⟨_, ⟨now, by rw [(header _).1]; exact here.state, here.range, by
      rw [(header _).2.1]; exact here.tag⟩, ?_, fun named => ?_⟩
    · obtain ⟨old, was, same⟩ := keys now
      cases was.symm.trans here.item
      exact same.symm
    · split
      · rename_i inside
        have same : other = location := by
          refine Location.ext inside.1 ?_ inside.2
          rw [here.tag, tag, inside.1]
        subst same
        cases item_.symm.trans here.item
        exact alive named
      · rfl
  have sums : ∀ id, (∀ weight : Item → Int, (∀ held, cache.itemAt config location = some held →
      weight (change held) = weight held) →
      total (Counts after pending id) weight (after.laidOut config id) =
        total (Counts cache pending id) weight (cache.laidOut config id)) := by
    intro id weight same
    have counts : ∀ offset, Counts after pending id offset ↔ Counts cache pending id offset := by
      intro offset
      have here : after.locationAt id offset = cache.locationAt id offset := by
        unfold Cache.locationAt
        rw [(header id).2.1]
      unfold Counts Table.Named
      rw [here, slots]
    rw [total_congr fun placed _ => counts placed.1]
    by_cases here : id = location.segment
    · subst here
      rw [laidOut_altered segments sizes]
      refine total_map fun placed inside => ⟨rfl, ?_⟩
      dsimp only
      split
      · rename_i at_
        refine same placed.2 (Segment.itemAt_iff.mpr ?_)
        rw [← at_]
        exact inside
      · rfl
    · unfold Cache.laidOut
      rw [segments, Function.update_of_ne here]
  exact {
    sound := fun slot => by
      rw [slots] at slot
      obtain ⟨held, here, notDeleted, candidate, isTag⟩ := consistent.sound slot
      obtain ⟨now, there, key, deleted⟩ := present here
      rw [← key] at candidate isTag
      exact ⟨now, there, (deleted ⟨_, _, _, slot, rfl⟩).trans notDeleted, candidate, isTag⟩
    unique := fun slot slot' here there same => by
      rw [slots] at slot slot'
      obtain ⟨old, was, key⟩ := keys here
      obtain ⟨old', was', key'⟩ := keys there
      exact consistent.unique slot slot' was was' (key.trans (same.trans key'.symm))
    inHand := fun inHand => by
      obtain ⟨unnamed, held, here⟩ := consistent.inHand inHand
      obtain ⟨now, there, -⟩ := present here
      refine ⟨?_, now, there⟩
      unfold Table.Named at unnamed ⊢
      rw [slots]
      exact unnamed
    items := fun {id} state => by
      rw [(header id).1] at state
      rw [(header id).2.2.1, sums id _ fun _ _ => rfl]
      exact consistent.items state
    bytes := fun {id} state => by
      rw [(header id).1] at state
      rw [(header id).2.2.2.1, sums id _ fun held here => by rw [sizes held here]]
      exact consistent.bytes state
    laid := fun {id} state => by
      rw [(header id).1] at state
      have laid := consistent.laid state
      refine ⟨?_, by rw [(header id).2.2.2.2]; exact laid.fits⟩
      rw [(header id).2.2.2.2, laid.writeOffset, segments]
      by_cases here : id = location.segment
      · subst here
        rw [Function.update_self]
        refine congrArg _ (Segment.totalSize_modifyItem _ _ fun held inside => ?_).symm
        exact sizes held (Segment.itemAt_iff.mpr inside)
      · rw [Function.update_of_ne here]
    fresh := fun {id} state => by
      rw [(header id).1] at state
      have blank := consistent.fresh state
      refine ⟨?_, (header id).2.2.1.trans blank.liveItems, (header id).2.2.2.1.trans blank.liveBytes,
        (header id).2.2.2.2.trans blank.writeOffset⟩
      rw [segments]
      by_cases here : id = location.segment
      · subst here
        rw [Function.update_self]
        show Segment.modifyItem config change location.offset config.initialOffset _ = []
        rw [blank.items]
        rfl
      · rw [Function.update_of_ne here]
        exact blank.items }

end Alter

end CacheRs.Segcache
