/-
**The placement of items.**

Every occupied slot should be one its key names. Displacement moves whatever a slot holds when it
gets to it: along a path that comes back to a slot, this need not be the item whose candidates the
path was chosen from.

* `displaceFrom_frees`: displacement empties its target and keeps the unexpired items;
* `placed_run`: **items stay where their keys name them as long as the paths are straight**;
* `straightInsert_of_shallow`: up to a depth of four, every path is;
* `misplaced_run`: at depth five, one is not.
-/

import CacheRs.Cuckoo.Effects

namespace CacheRs.Cuckoo

open KeyValue Relocation

/-- Every occupied slot is one its key names. -/
def OccupiedPlaced (config : Config) (data : Memory) : Prop :=
  ∀ pos < config.nitem, slotIsEmpty config data pos = false →
    pos ∈ positions config (slotKey config data pos)

instance (config : Config) (data : Memory) : Decidable (OccupiedPlaced config data) :=
  inferInstanceAs (Decidable (∀ pos < config.nitem, _))

/-- The unexpired items, each as often as it is held. -/
def unexpired (config : Config) (elapsed : Nat) (data : Memory) : Multiset TinyEntry :=
  ∑ pos ∈ Finset.range config.nitem,
    if slotIsEmpty config data pos || slotIsExpired config elapsed data pos then 0
    else {itemOf config data pos}

/-- The path of `displace_from`, if there is one, is straight. -/
def StraightFrom (config : Config) (elapsed : Nat) (data : Memory) (pos depth : Nat) : Prop :=
  ∀ path, displacePath config elapsed data (config.maxDisplace - depth) pos = some path →
    Straight path

/-- An insert that has to displace items does so along a straight path. -/
def StraightInsert (config : Config) (elapsed : Nat) (data : Memory) (key : Bytes) : Prop :=
  Absent config elapsed data key → Full config elapsed data key →
    ∀ path, insertPath config elapsed data key = some path → Straight path

/-- An insert whose item keeps to its slot and whose displacement is straight. -/
def PlacementSafe (config : Config) (cache : Cache) : Op → Prop
  | .insert key value _ _ =>
    TinyItem.headerSize + key.length + value.length ≤ config.itemSize →
      key.length ≤ 255 ∧
      TinyItem.headerSize + key.length + TinyItem.storedLength value ≤ config.itemSize ∧
      StraightInsert config cache.elapsed cache.data key
  | _ => True

section Placement

variable {config : Config} {elapsed : Nat} {data : Memory}

theorem occupiedPlaced_iff :
    OccupiedPlaced config data ↔ Placed (candidates config) (entries config data) := by
  constructor
  · intro placed pos entry held
    have member := placed pos (lt_of_entries held) (slotIsEmpty_of_some held)
    rwa [key_of_entries held] at member
  · intro placed pos slot occupied
    rw [slotIsEmpty_eq slot, Option.isNone_eq_false_iff] at occupied
    obtain ⟨entry, held⟩ := Option.isSome_iff_exists.mp occupied
    rw [key_of_entries held]
    exact placed pos entry held

theorem unexpired_eq :
    unexpired config elapsed data = liveItems (dead elapsed) config.nitem (entries config data) := by
  refine Finset.sum_congr rfl fun pos slot => ?_
  rw [isFree_eq (Finset.mem_range.mp slot)]
  cases held : entries config data pos with
  | none => rw [Slots.isFree_of_none held, if_pos rfl, liveItem]
  | some entry => rw [Slots.isFree_of_some held, (of_entries held).2, liveItem]

/-- Emptying a slot misplaces nothing. -/
theorem Placed.put_none {slots : Slots TinyEntry} (placed : Placed (candidates config) slots)
    (pos : Nat) : Placed (candidates config) (slots.put pos none) := by
  intro other entry held
  by_cases same : other = pos
  · rw [same, Slots.put_self] at held
    cases held
  · rw [Slots.put_of_ne _ _ same] at held
    exact placed other entry held

theorem Placed.put {slots : Slots TinyEntry} (placed : Placed (candidates config) slots)
    {pos : Nat} {item : TinyEntry} (member : pos ∈ candidates config item) :
    Placed (candidates config) (slots.put pos (some item)) := by
  intro other entry held
  by_cases same : other = pos
  · rw [same, Slots.put_self] at held
    rwa [same, ← Option.some.inj held]
  · rw [Slots.put_of_ne _ _ same] at held
    exact placed other entry held

/-- **Displacement empties its target, keeps the unexpired items**, and keeps them placed if its
path is straight. -/
theorem displaceFrom_frees (sound : Sound config data)
    (placed : Placed (candidates config) (entries config data)) {pos depth : Nat} {after : Memory}
    (slot : pos < config.nitem)
    (freed : displaceFrom config elapsed data pos depth = (true, after)) :
    slotIsEmpty config after pos = true ∧
      unexpired config elapsed after = unexpired config elapsed data ∧
      (StraightFrom config elapsed data pos depth → OccupiedPlaced config after) := by
  have outcome := @displaced config elapsed data pos sound (config.maxDisplace - depth) slot
  rw [displaceFrom] at freed
  unfold StraightFrom
  rw [freed] at outcome
  cases found : displacePath config elapsed data (config.maxDisplace - depth) pos with
  | none =>
    rw [found] at outcome
    cases outcome
  | some path =>
    obtain ⟨rest, rfl, _, path⟩ := route_sound found
    rw [found] at outcome
    cases outcome with
    | along same _ =>
      have inside := path.inside slot mem_candidates_lt
      refine ⟨?_, ?_, fun straight => ?_⟩
      · rw [slotIsEmpty_eq slot, same, unwind_head path]
        rfl
      · rw [unexpired_eq, unexpired_eq, same, liveItems_unwind path inside]
      · rw [occupiedPlaced_iff, same]
        exact (placed_unwind path (straight _ rfl) placed).1

/-- What holds of the array between operations. -/
structure WellPlaced (config : Config) (data : Memory) : Prop where
  sound : Sound config data
  placed : Placed (candidates config) (entries config data)

theorem wellPlaced_of_empty (empty : ∀ pos, entries config data pos = none) :
    WellPlaced config data where
  sound pos held := absurd (empty pos) held
  placed pos entry held := by
    rw [empty pos] at held
    cases held

/-- Every slot of a new cache is empty. -/
theorem entries_fromBuilder (config : Config) (pos : Nat) :
    entries config fromBuilder.data pos = none := by
  unfold entries
  split
  · exact TinyItem.entryAt_zero fun _ _ => rfl
  · rfl

theorem Looked.placed {cache : Cache} {key : Bytes} {found : Option (Nat × TinyEntry)}
    {slots : Slots TinyEntry} (looked : Looked config cache key found slots)
    (placed : Placed (candidates config) (entries config cache.data)) :
    Placed (candidates config) slots := by
  cases looked with
  | missing absent => exact placed
  | expired held same gone => exact Placed.put_none placed _
  | found held same alive => exact placed

theorem Chosen.placed {key : Bytes} {pos : Nat} {slots : Slots TinyEntry}
    (chosen : Chosen config elapsed data key pos slots)
    (straight : StraightInsert config elapsed data key)
    (placed : Placed (candidates config) (entries config data)) :
    Placed (candidates config) slots := by
  cases chosen with
  | update held alive same => exact placed
  | fresh absent empty => exact placed
  | expired absent occupied first => exact Placed.put_none placed _
  | displaced absent full path =>
    obtain ⟨_, _, searched⟩ := List.exists_of_findSome?_eq_some path
    obtain ⟨_, _, _, route⟩ := route_sound searched
    exact (placed_unwind route (straight absent full _ path) placed).1
  | evicted absent full => exact Placed.put_none placed _

theorem updateNumber_wellPlaced {cache : Cache} (well : WellPlaced config cache.data)
    (change : UInt64 → UInt64) (key : Bytes) :
    WellPlaced config (updateNumber config cache change key).2.data := by
  rcases updateNumber_effect well.sound change key with
    ⟨_, same⟩ | ⟨pos, entry, held, sameKey, _, ⟨_, same⟩ | ⟨number, _, _, written, sound, _⟩⟩
  · rw [same]
    exact well
  · rw [same]
    exact well
  · refine ⟨sound, ?_⟩
    rw [written]
    exact Placed.put well.placed (well.placed pos entry held)

/-- **One operation** keeps every item where its key names it. -/
theorem wellPlaced_step {cache : Cache} {op : Op} (safe : PlacementSafe config cache op)
    (well : WellPlaced config cache.data) : WellPlaced config (step config cache op).2.data := by
  cases op with
  | get key =>
    obtain ⟨found, slots, looked, _, same, sound, _⟩ := get_effect well.sound key
    exact ⟨sound, by
      show Placed _ (entries config (get config cache key).2.data)
      rw [same]
      exact looked.placed well.placed⟩
  | insert key value ttl draw =>
    show WellPlaced config (insert config cache key value ttl draw).2.data
    by_cases room : TinyItem.headerSize + key.length + value.length ≤ config.itemSize
    · obtain ⟨short, fits, straight⟩ := safe room
      obtain ⟨_, sound, _, pos, slots, stored, member, chosen, _, same⟩ :=
        @insert_effect config cache key well.sound value ttl draw short room fits
      refine ⟨sound, ?_⟩
      rw [same]
      have placed := chosen.placed straight well.placed
      split
      · exact Placed.put_none placed pos
      · exact Placed.put placed member
    · rw [insert_oversized draw (Nat.lt_of_not_le room)]
      exact well
  | delete key =>
    obtain ⟨found, slots, looked, _, same, sound, _⟩ := delete_effect well.sound key
    refine ⟨sound, ?_⟩
    show Placed _ (entries config (delete config cache key).2.data)
    rw [same]
    have placed := looked.placed well.placed
    cases found with
    | none => exact placed
    | some held => exact Placed.put_none placed held.1
  | clear => exact wellPlaced_of_empty (clear_effect config cache).1
  | wrappingAdd key rhs => exact updateNumber_wellPlaced well _ key
  | saturatingSub key rhs => exact updateNumber_wellPlaced well _ key
  | advance seconds => exact well

theorem wellPlaced_run {ops : List Op} {cache : Cache}
    (safe : Throughout config (PlacementSafe config) ops cache)
    (well : WellPlaced config cache.data) : WellPlaced config (run config ops cache).data := by
  induction ops generalizing cache with
  | nil => exact well
  | cons op ops ih => exact ih safe.2 (wellPlaced_step safe.1 well)

end Placement

/-- **Items stay in the slots their keys name**, in every run whose inserts keep their items in
their slots and displace along straight paths. Every displacement empties its target and keeps the
unexpired items. -/
theorem placed_run (config : Config) (ops : List Op)
    (safe : Throughout config (PlacementSafe config) ops fromBuilder) :
    OccupiedPlaced config (run config ops fromBuilder).data ∧
      ∀ pos < config.nitem, ∀ depth after,
        displaceFrom config (run config ops fromBuilder).elapsed (run config ops fromBuilder).data
            pos depth = (true, after) →
          slotIsEmpty config after pos = true ∧
          unexpired config (run config ops fromBuilder).elapsed after =
            unexpired config (run config ops fromBuilder).elapsed
              (run config ops fromBuilder).data ∧
          (StraightFrom config (run config ops fromBuilder).elapsed
              (run config ops fromBuilder).data pos depth → OccupiedPlaced config after) := by
  have well := wellPlaced_run safe (wellPlaced_of_empty (entries_fromBuilder config))
  exact ⟨occupiedPlaced_iff.mpr well.placed, fun pos slot depth after freed =>
    displaceFrom_frees well.sound well.placed slot freed⟩

/-- **Up to a depth of four, displacement is straight.** -/
theorem straightInsert_of_shallow (config : Config) (shallow : config.maxDisplace ≤ 4)
    (elapsed : Nat) (data : Memory) (key : Bytes) : StraightInsert config elapsed data key := by
  intro _ _ path found
  obtain ⟨pos, _, searched⟩ := List.exists_of_findSome?_eq_some found
  obtain ⟨rest, rfl, short, route⟩ := route_sound searched
  exact straight_of_length_le route (by rw [List.length_cons]; omega)

/-! ### A path that is not straight -/

theorem headerSize_lt_eight : TinyItem.headerSize < 8 := by decide

theorem five_pos : 0 < 5 := by decide

theorem five_slots_lt : 8 * 5 < 2 ^ 64 := by decide

theorem zero_le_u32Max : 0 ≤ u32Max := by decide

/-- Five slots, and five keys whose candidates form a cycle. -/
def cycleConfig : Config where
  itemSize := 8
  nitem := 5
  maxDisplace := 5
  maxTtl := 0
  policy := .expire
  hashers i key :=
    let named : List (List UInt64) :=
      [[0, 1, 3, 3], [1, 2, 2, 2], [2, 0, 0, 0], [3, 4, 4, 4], [0, 0, 0, 0]]
    (named.getD (key.getD 0 0).toNat []).getD i.val 0
  header_lt_itemSize := headerSize_lt_eight
  nitem_pos := five_pos
  total_lt := five_slots_lt
  maxTtl_le := zero_le_u32Max

def cycleInsert (key : UInt8) : Op := .insert [key] (.bytes [key]) 0 0

def cycleInserts : List Op :=
  [cycleInsert 0, cycleInsert 1, cycleInsert 2, cycleInsert 3, cycleInsert 4]

/-- The last insert leaves the item of key 2 in slot 1, which its key does not name. -/
theorem misplaced_run :
    ¬ OccupiedPlaced cycleConfig (run cycleConfig cycleInserts fromBuilder).data ∧
      slotKey cycleConfig (run cycleConfig cycleInserts fromBuilder).data 1 = [2] ∧
      positions cycleConfig [2] = [2, 0, 0, 0] := by
  decide +kernel

/-- At a depth of four the same inserts displace along straight paths only. -/
def shallowConfig : Config := { cycleConfig with maxDisplace := 4 }

theorem cycleInsert_safe (key : UInt8) (cache : Cache) :
    PlacementSafe shallowConfig cache (cycleInsert key) := fun _ =>
  ⟨by simp, by
    have vlen : TinyItem.storedLength (.bytes [key]) = 1 := rfl
    simp [vlen, TinyItem.headerSize, shallowConfig, cycleConfig],
    straightInsert_of_shallow shallowConfig (Nat.le_refl 4) _ _ _⟩

theorem placed_run_shallow :
    OccupiedPlaced shallowConfig (run shallowConfig cycleInserts fromBuilder).data :=
  (placed_run shallowConfig cycleInserts ⟨cycleInsert_safe 0 _, cycleInsert_safe 1 _,
    cycleInsert_safe 2 _, cycleInsert_safe 3 _, cycleInsert_safe 4 _, trivial⟩).1

end CacheRs.Cuckoo
