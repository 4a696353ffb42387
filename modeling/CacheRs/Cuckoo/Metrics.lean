/-
**The gauges of the `metrics` feature.**

Four gauges count the items and the bytes of their keys and values. The operations adjust them by hand,
reading lengths back from the slots.

* `Metered`: the cache with its gauges, and the operations with their adjustments;
* `step_cache`: without its gauges it is the cache;
* `Counts`: the gauges are the sums over the occupied slots;
* `mirrors_of_metricsSafe`: **they are so in every run** in which no `clear` finds an occupied slot, no
  insert computes an expiry of zero, and no number is written across the end of its slot;
* `cleared_run`: a `clear` that forgets the gauges.
-/

import CacheRs.Cuckoo.Expiry

namespace CacheRs.Cuckoo

open KeyValue

inductive Gauge where
  | itemCurrent
  | itemKeyByte
  | itemValByte
  | itemDataByte
  deriving DecidableEq, Repr

abbrev Gauges := Gauge → Int

/-- A cache with its gauges. -/
structure Metered where
  cache : Cache
  gauges : Gauges

/-- What one item counts for, by its header. -/
def itemMetrics (config : Config) (data : Memory) (index : Nat) : Gauges
  | .itemCurrent => 1
  | .itemKeyByte => TinyItem.klen data (slotOffset config index)
  | .itemValByte => TinyItem.valueLen data (slotOffset config index)
  | .itemDataByte => TinyItem.klen data (slotOffset config index) +
    TinyItem.valueLen data (slotOffset config index)

namespace Metered

abbrev data (table : Metered) : Memory := table.cache.data

abbrev elapsed (table : Metered) : Nat := table.cache.elapsed

/-- Change the slots, and leave the gauges alone. -/
def withData (table : Metered) (data : Memory) : Metered :=
  { table with cache := { table.cache with data := data } }

variable (config : Config)

def decrementItemMetrics (table : Metered) (index : Nat) : Metered :=
  { table with gauges := table.gauges - itemMetrics config table.data index }

def incrementItemMetrics (table : Metered) (index : Nat) : Metered :=
  { table with gauges := table.gauges + itemMetrics config table.data index }

def handleExpired (table : Metered) (index : Nat) : Metered :=
  (table.decrementItemMetrics config index).withData (clearSlot config table.data index)

def evictAt (table : Metered) (index : Nat) : Metered :=
  (table.decrementItemMetrics config index).withData (clearSlot config table.data index)

/-! ### Displacement -/

def displaceOther (displace : Metered → Nat → Bool × Metered) (pos : Nat) :
    List Nat → Metered → Bool × Metered
  | [], table => (false, table)
  | alt :: rest, table =>
    if alt = pos then displaceOther displace pos rest table
    else match displace table alt with
      | (true, table) => (true, table.withData (moveSlot config table.data pos alt))
      | (false, table) => displaceOther displace pos rest table

def displaceWithin : Nat → Metered → Nat → Bool × Metered
  | 0, table, pos =>
    if slotIsEmpty config table.data pos then (true, table)
    else if slotIsExpired config table.elapsed table.data pos then
      (true, table.handleExpired config pos)
    else (false, table)
  | left + 1, table, pos =>
    if slotIsEmpty config table.data pos then (true, table)
    else if slotIsExpired config table.elapsed table.data pos then
      (true, table.handleExpired config pos)
    else
      let alts := positions config (slotKey config table.data pos)
      match alts.find? fun alt => alt ≠ pos &&
          (slotIsEmpty config table.data alt || slotIsExpired config table.elapsed table.data alt) with
      | some alt =>
        if slotIsEmpty config table.data alt then
          (true, table.withData (moveSlot config table.data pos alt))
        else
          let table := table.handleExpired config alt
          (true, table.withData (moveSlot config table.data pos alt))
      | none => displaceOther config (displaceWithin left) pos alts table

def displaceFrom (table : Metered) (pos depth : Nat) : Bool × Metered :=
  displaceWithin config (config.maxDisplace - depth) table pos

def tryDisplace : List (Nat × Nat) → Metered → Option Nat × Metered
  | [], table => (none, table)
  | (pos, idx) :: rest, table =>
    match table.displaceFrom config pos 0 with
    | (true, table) => (some idx, table)
    | (false, table) => tryDisplace rest table

def findSlotForInsert (table : Metered) (draw : UInt64) (key : Bytes) (positions : List Nat) :
    (Nat × Bool) × Metered :=
  match positions.find? fun pos =>
      !(slotIsEmpty config table.data pos || slotIsExpired config table.elapsed table.data pos) &&
        slotKey config table.data pos = key with
  | some pos => ((pos, true), table)
  | none =>
    match positions.find? fun pos => slotIsEmpty config table.data pos with
    | some pos => ((pos, false), table)
    | none =>
      match positions.find? fun pos => slotIsExpired config table.elapsed table.data pos with
      | some pos => ((pos, false), table.handleExpired config pos)
      | none =>
        match tryDisplace config positions.zipIdx table with
        | (some freed, table) => ((positions.getD freed 0, false), table)
        | (none, table) =>
          let pos := positions.getD (selectVictim config table.data draw positions) 0
          ((pos, false), table.evictAt config pos)

/-! ### Operations -/

variable (table : Metered)

def get (key : Bytes) : Metered :=
  match findKey config table.cache key with
  | none => table
  | some pos =>
    if slotIsExpired config table.elapsed table.data pos then table.handleExpired config pos else table

def insert (key : Bytes) (value : Value) (ttl : Nat) (draw : UInt64) : Metered :=
  let required := TinyItem.headerSize + key.length + value.length
  if required > config.itemSize then table
  else
    let expire := computeExpire config table.elapsed ttl
    let found := table.findSlotForInsert config draw key (positions config key)
    let table := if found.1.2 then found.2.decrementItemMetrics config found.1.1 else found.2
    (table.withData (writeSlot config table.data found.1.1 key value expire)).incrementItemMetrics
      config found.1.1

def delete (key : Bytes) : Metered :=
  match findKey config table.cache key with
  | none => table
  | some pos =>
    if slotIsExpired config table.elapsed table.data pos then table.handleExpired config pos
    else (table.decrementItemMetrics config pos).withData (clearSlot config table.data pos)

/-- The operations that adjust no gauge are the cache's own. -/
def step : Op → Metered
  | .get key => table.get config key
  | .insert key value ttl draw => table.insert config key value ttl draw
  | .delete key => table.delete config key
  | .clear => { table with cache := Cuckoo.clear config table.cache }
  | .wrappingAdd key rhs => { table with cache := (Cuckoo.wrappingAdd config table.cache key rhs).2 }
  | .saturatingSub key rhs =>
    { table with cache := (Cuckoo.saturatingSub config table.cache key rhs).2 }
  | .advance seconds => { table with cache := Cuckoo.advance table.cache seconds }

def run : List Op → Metered → Metered
  | [], table => table
  | op :: rest, table => run rest (table.step config op)

/-- A new cache, the only one of its process. -/
def fromBuilder : Metered := ⟨Cuckoo.fromBuilder, 0⟩

/-! ### Without the gauges -/

section Erasure

variable {elapsed : Nat}

/-- An operation on the metered cache changes the slots as an operation on them does, in no time. -/
structure Erases {α : Type} (elapsed : Nat) (metered : α × Metered) (plain : α × Memory) : Prop where
  answer : metered.1 = plain.1
  data : metered.2.data = plain.2
  elapsed : metered.2.elapsed = elapsed

theorem erases_displaceOther {displace : Metered → Nat → Bool × Metered}
    {plain : Memory → Nat → Bool × Memory} (pos : Nat) (alts : List Nat)
    (erases : ∀ table : Metered, table.elapsed = elapsed → ∀ alt,
      Erases elapsed (displace table alt) (plain table.data alt)) (table : Metered)
    (now : table.elapsed = elapsed) :
    Erases elapsed (displaceOther config displace pos alts table)
      (Cuckoo.displaceOther config plain pos alts table.data) := by
  induction alts generalizing table with
  | nil => exact ⟨rfl, rfl, now⟩
  | cons alt rest ih =>
    unfold displaceOther Cuckoo.displaceOther
    by_cases same : alt = pos
    · rw [if_pos same, if_pos same]
      exact ih table now
    · rw [if_neg same, if_neg same]
      have here := erases table now alt
      revert here
      generalize displace table alt = metered
      generalize plain table.data alt = bare
      rintro ⟨answer, data, later⟩
      obtain ⟨done, after⟩ := metered
      obtain ⟨_, _⟩ := bare
      obtain rfl := answer
      obtain rfl := data
      cases done with
      | true => exact ⟨rfl, rfl, later⟩
      | false => exact ih after later

theorem erases_displaceWithin (left : Nat) (table : Metered) (now : table.elapsed = elapsed)
    (pos : Nat) :
    Erases elapsed (displaceWithin config left table pos)
      (Cuckoo.displaceWithin config elapsed left table.data pos) := by
  subst now
  induction left generalizing table pos with
  | zero =>
    unfold displaceWithin Cuckoo.displaceWithin
    split
    · exact ⟨rfl, rfl, rfl⟩
    · split <;> exact ⟨rfl, rfl, rfl⟩
  | succ left ih =>
    unfold displaceWithin Cuckoo.displaceWithin
    split
    · exact ⟨rfl, rfl, rfl⟩
    · split
      · exact ⟨rfl, rfl, rfl⟩
      · dsimp only
        generalize (positions config (slotKey config table.data pos)).find? _ = direct
        cases direct with
        | some alt =>
          dsimp only
          split <;> exact ⟨rfl, rfl, rfl⟩
        | none =>
          refine erases_displaceOther config pos _ (fun other same alt => ?_) table rfl
          rw [← same]
          exact ih other alt

theorem erases_tryDisplace (candidates : List (Nat × Nat)) (table : Metered)
    (now : table.elapsed = elapsed) :
    Erases elapsed (tryDisplace config candidates table)
      (Cuckoo.tryDisplace config elapsed candidates table.data) := by
  induction candidates generalizing table with
  | nil => exact ⟨rfl, rfl, now⟩
  | cons candidate rest ih =>
    unfold tryDisplace Cuckoo.tryDisplace
    have here := erases_displaceWithin config config.maxDisplace table now candidate.1
    revert here
    unfold displaceFrom Cuckoo.displaceFrom
    rw [Nat.sub_zero]
    generalize displaceWithin config config.maxDisplace table candidate.1 = metered
    generalize Cuckoo.displaceWithin config elapsed config.maxDisplace table.data candidate.1 = bare
    rintro ⟨answer, data, later⟩
    obtain ⟨done, after⟩ := metered
    obtain ⟨_, _⟩ := bare
    obtain rfl := answer
    obtain rfl := data
    cases done with
    | true => exact ⟨rfl, rfl, later⟩
    | false => exact ih after later

theorem erases_findSlotForInsert (table : Metered) (draw : UInt64) (key : Bytes)
    (positions : List Nat) :
    Erases table.elapsed (table.findSlotForInsert config draw key positions)
      (Cuckoo.findSlotForInsert config table.elapsed table.data draw key positions) := by
  unfold findSlotForInsert Cuckoo.findSlotForInsert
  generalize positions.find? _ = live
  cases live with
  | some pos => exact ⟨rfl, rfl, rfl⟩
  | none =>
    dsimp only
    generalize positions.find? _ = empty
    cases empty with
    | some pos => exact ⟨rfl, rfl, rfl⟩
    | none =>
      dsimp only
      generalize positions.find? _ = expired
      cases expired with
      | some pos => exact ⟨rfl, rfl, rfl⟩
      | none =>
        have tried := erases_tryDisplace config positions.zipIdx table rfl
        revert tried
        generalize tryDisplace config positions.zipIdx table = metered
        generalize Cuckoo.tryDisplace config table.elapsed positions.zipIdx table.data = bare
        rintro ⟨answer, data, later⟩
        obtain ⟨freed, after⟩ := metered
        obtain ⟨_, _⟩ := bare
        obtain rfl := answer
        obtain rfl := data
        cases freed with
        | some freed => exact ⟨rfl, rfl, later⟩
        | none => exact ⟨rfl, rfl, later⟩

theorem cache_ext {one other : Cache} (data : one.data = other.data)
    (elapsed : one.elapsed = other.elapsed) : one = other := by
  cases one
  cases other
  obtain rfl := data
  obtain rfl := elapsed
  rfl

/-- **Without its gauges it is the cache.** -/
theorem step_cache (table : Metered) (op : Op) :
    (table.step config op).cache = (Cuckoo.step config table.cache op).2 := by
  cases op with
  | get key =>
    show (table.get config key).cache = (Cuckoo.get config table.cache key).2
    unfold get Cuckoo.get
    cases findKey config table.cache key with
    | none => rfl
    | some pos =>
      dsimp only
      split <;> rfl
  | insert key value ttl draw =>
    show (table.insert config key value ttl draw).cache =
      (Cuckoo.insert config table.cache key value ttl draw).2
    have found := erases_findSlotForInsert config table draw key (positions config key)
    have later : ∀ updates, (if updates = true then (table.findSlotForInsert config draw key
        (positions config key)).2.decrementItemMetrics config (table.findSlotForInsert config draw key
        (positions config key)).1.1 else (table.findSlotForInsert config draw key
        (positions config key)).2).cache =
        (table.findSlotForInsert config draw key (positions config key)).2.cache := by
      intro updates
      split <;> rfl
    unfold insert Cuckoo.insert
    dsimp only
    split
    · rfl
    · have sameData : (table.findSlotForInsert config draw key (positions config key)).2.cache.data =
          _ := found.data
      refine cache_ext ?_ ((congrArg Cache.elapsed (later _)).trans found.elapsed)
      show writeSlot config (Metered.data _) _ key value _ = _
      rw [Metered.data, later, sameData, found.answer]
  | delete key =>
    show (table.delete config key).cache = (Cuckoo.delete config table.cache key).2
    unfold delete Cuckoo.delete
    cases findKey config table.cache key with
    | none => rfl
    | some pos =>
      dsimp only
      split <;> rfl
  | clear => rfl
  | wrappingAdd key rhs => rfl
  | saturatingSub key rhs => rfl
  | advance seconds => rfl

end Erasure

end Metered

/-! ### What the gauges count -/

section Counting

variable {config : Config} {data after : Memory} {pos : Nat}

/-- What a slot counts for. -/
def slotMetrics (config : Config) (data : Memory) (pos : Nat) : Gauges :=
  if slotIsEmpty config data pos then 0 else itemMetrics config data pos

theorem slotMetrics_of_empty (empty : slotIsEmpty config data pos = true) :
    slotMetrics config data pos = 0 :=
  if_pos empty

theorem slotMetrics_of_occupied (occupied : slotIsEmpty config data pos = false) :
    slotMetrics config data pos = itemMetrics config data pos :=
  if_neg (by rw [occupied]; decide)

/-- The sums over the occupied slots. -/
def tally (config : Config) (data : Memory) : Gauges :=
  ∑ pos ∈ Finset.range config.nitem, slotMetrics config data pos

/-- The gauges count what lies in the slots. -/
def Counts (config : Config) (table : Metered) : Prop := table.gauges = tally config table.data

theorem slotMetrics_congr {other : Nat} (same : ∀ i < TinyItem.headerSize,
    after (slotOffset config other + i) = data (slotOffset config pos + i)) :
    slotMetrics config after other = slotMetrics config data pos := by
  obtain ⟨expire, klen, vlen⟩ := TinyItem.header_congr same
  unfold slotMetrics slotIsEmpty slotExpire
  rw [expire]
  split
  · rfl
  · funext gauge
    cases gauge <;> simp only [itemMetrics, TinyItem.valueLen, klen, vlen]

/-- The other slots count for what they did. -/
theorem slotMetrics_of_ne (outside : ∀ address, (address < slotOffset config pos ∨
      slotOffset config pos + config.itemSize ≤ address) → after address = data address)
    {other : Nat} (different : other ≠ pos) :
    slotMetrics config after other = slotMetrics config data other :=
  slotMetrics_congr fun _ below => outside _ (slotOffset_apart config different
    (Nat.lt_trans below config.header_lt_itemSize))

/-- **A change of one slot's bytes** changes the sums by what the slot counts for. -/
theorem tally_change (slot : pos < config.nitem)
    (outside : ∀ address, (address < slotOffset config pos ∨
      slotOffset config pos + config.itemSize ≤ address) → after address = data address) :
    tally config after =
      tally config data - slotMetrics config data pos + slotMetrics config after pos := by
  have member : pos ∈ Finset.range config.nitem := Finset.mem_range.mpr slot
  unfold tally
  rw [← Finset.add_sum_erase _ _ member, ← Finset.add_sum_erase _ (slotMetrics config data) member]
  have rest : ∑ other ∈ (Finset.range config.nitem).erase pos, slotMetrics config after other =
      ∑ other ∈ (Finset.range config.nitem).erase pos, slotMetrics config data other :=
    Finset.sum_congr rfl fun other inside => slotMetrics_of_ne outside (Finset.ne_of_mem_erase inside)
  rw [rest]
  abel

theorem slotIsEmpty_clearSlot (config : Config) (data : Memory) (pos : Nat) :
    slotIsEmpty config (clearSlot config data pos) pos = true := by
  have empty := entryAt_clearSlot config data pos
  unfold TinyItem.entryAt at empty
  split at empty
  · exact decide_eq_true ‹_›
  · cases empty

theorem tally_clearSlot (slot : pos < config.nitem) :
    tally config (clearSlot config data pos) = tally config data - slotMetrics config data pos := by
  rw [tally_change slot fun _ => clearSlot_outside config data,
    slotMetrics_of_empty (slotIsEmpty_clearSlot config data pos), add_zero]

/-- A move into an empty slot keeps the sums. -/
theorem tally_moveSlot {source target : Nat} (fromSlot : source < config.nitem)
    (toSlot : target < config.nitem) (different : target ≠ source)
    (empty : slotIsEmpty config data target = true) :
    tally config (moveSlot config data source target) = tally config data := by
  have size := Memory.length_read data (slotOffset config source) config.itemSize
  set copied := data.write (slotOffset config target)
    (data.read (slotOffset config source) config.itemSize)
  have outside : ∀ address, (address < slotOffset config target ∨
      slotOffset config target + config.itemSize ≤ address) → copied address = data address := by
    rintro address (below | above)
    · exact Memory.write_of_lt below
    · exact Memory.write_of_le (by rwa [size])
  have same : slotMetrics config copied target = slotMetrics config data source := by
    refine slotMetrics_congr fun i below => ?_
    have := config.header_lt_itemSize
    show data.write _ _ _ = _
    rw [Memory.write_inside (by omega)]
    simp [Memory.read]
  show tally config (clearSlot config copied source) = _
  rw [tally_clearSlot fromSlot, tally_change toSlot outside, same,
    slotMetrics_of_ne outside different.symm, slotMetrics_of_empty empty]
  abel

/-- A new item takes the place of what lay in its slot. -/
theorem tally_writeSlot (slot : pos < config.nitem) {key : Bytes} {value : Value} {expire : Nat}
    (room : TinyItem.headerSize + key.length + value.length ≤ config.itemSize)
    (stamp : expire < 2 ^ 32) (nonzero : expire ≠ 0) :
    tally config (writeSlot config data pos key value expire) =
      tally config data - slotMetrics config data pos +
        itemMetrics config (writeSlot config data pos key value expire) pos := by
  have outside : ∀ address, (address < slotOffset config pos ∨
      slotOffset config pos + config.itemSize ≤ address) →
      writeSlot config data pos key value expire address = data address := fun address outside => by
    rw [writeSlot, TinyItem.define_outside _ (by omega), clearSlot_outside config data outside]
  have occupied : slotIsEmpty config (writeSlot config data pos key value expire) pos = false := by
    refine decide_eq_false ?_
    rwa [slotExpire, writeSlot, TinyItem.expire_define stamp]
  rw [tally_change slot outside, slotMetrics_of_occupied occupied]

/-- A number written inside its slot changes no header. -/
theorem tally_setNumber {number : UInt64}
    (isNumber : TinyItem.rawVlen data (slotOffset config pos) = 0)
    (inside : TinyItem.Inside data (slotOffset config pos) config.itemSize) :
    tally config (TinyItem.setNumber data (slotOffset config pos) number) = tally config data := by
  refine Finset.sum_congr rfl fun other _ => slotMetrics_congr fun i below => ?_
  by_cases same : other = pos
  · rw [same]
    exact Memory.write_of_lt (by omega)
  · exact TinyItem.setNumber_outside number isNumber inside
      (slotOffset_apart config same (Nat.lt_trans below config.header_lt_itemSize))

/-! ### Steps -/

namespace Metered

variable {table : Metered}

theorem isExpired_occupied (expired : slotIsExpired config table.elapsed table.data pos = true) :
    slotIsEmpty config table.data pos = false := by
  cases empty : slotIsEmpty config table.data pos with
  | false => rfl
  | true =>
    rw [slotIsEmpty, decide_eq_true_eq] at empty
    simp [slotIsExpired, empty] at expired

/-- Dropping the item of an occupied slot. -/
theorem counts_drop (counts : Counts config table) (slot : pos < config.nitem)
    (occupied : slotIsEmpty config table.data pos = false) :
    Counts config ((table.decrementItemMetrics config pos).withData
      (clearSlot config table.data pos)) := by
  show table.gauges - itemMetrics config table.data pos = tally config (clearSlot config table.data pos)
  rw [tally_clearSlot slot, show table.gauges = _ from counts, slotMetrics_of_occupied occupied]

theorem counts_move (counts : Counts config table) {source target : Nat}
    (fromSlot : source < config.nitem) (toSlot : target < config.nitem)
    (different : target ≠ source) (empty : slotIsEmpty config table.data target = true) :
    Counts config (table.withData (moveSlot config table.data source target)) := by
  show table.gauges = tally config (moveSlot config table.data source target)
  rw [tally_moveSlot fromSlot toSlot different empty]
  exact counts

/-- What freeing a slot leaves: the slot empty, or everything as it was. -/
structure Frees (config : Config) (pos : Nat) (table : Metered) (result : Bool × Metered) :
    Prop where
  counts : Counts config result.2
  empty : result.1 = true → slotIsEmpty config result.2.data pos = true
  stuck : result.1 = false → result.2 = table

theorem frees_expired (counts : Counts config table) (slot : pos < config.nitem)
    (expired : slotIsExpired config table.elapsed table.data pos = true) :
    Frees config pos table (true, table.handleExpired config pos) where
  counts := counts_drop counts slot (isExpired_occupied expired)
  empty _ := slotIsEmpty_clearSlot config table.data pos
  stuck impossible := by cases impossible

/-- Moving an item to a slot that was freed for it. -/
theorem Frees.move {alt : Nat} {after : Metered} (frees : Frees config alt table (true, after))
    (slot : pos < config.nitem) (toSlot : alt < config.nitem) (different : alt ≠ pos) :
    Frees config pos table (true, after.withData (moveSlot config after.data pos alt)) where
  counts := counts_move frees.counts slot toSlot different (frees.empty rfl)
  empty _ := slotIsEmpty_clearSlot config _ pos
  stuck impossible := by cases impossible

theorem frees_displaceOther {displace : Metered → Nat → Bool × Metered} (slot : pos < config.nitem)
    (alts : List Nat) (inside : ∀ alt ∈ alts, alt < config.nitem) (counts : Counts config table)
    (frees : ∀ alt ∈ alts, Frees config alt table (displace table alt)) :
    Frees config pos table (displaceOther config displace pos alts table) := by
  induction alts with
  | nil => exact ⟨counts, fun impossible => (by cases impossible), fun _ => rfl⟩
  | cons alt rest ih =>
    have tail := ih (fun other member => inside other (.tail _ member))
      fun other member => frees other (.tail _ member)
    unfold displaceOther
    split
    · exact tail
    · rename_i different
      have here := frees alt (.head _)
      revert here
      generalize displace table alt = result
      obtain ⟨done, after⟩ := result
      intro here
      cases done with
      | true => exact here.move slot (inside alt (.head _)) different
      | false =>
        obtain rfl := here.stuck rfl
        exact tail

/-- **Displacement keeps the count.** -/
theorem frees_displaceWithin (left : Nat) (counts : Counts config table) (slot : pos < config.nitem) :
    Frees config pos table (displaceWithin config left table pos) := by
  induction left generalizing pos with
  | zero =>
    unfold displaceWithin
    split
    · exact ⟨counts, fun _ => ‹_›, fun impossible => by cases impossible⟩
    · split
      · exact frees_expired counts slot ‹_›
      · exact ⟨counts, fun impossible => (by cases impossible), fun _ => rfl⟩
  | succ left ih =>
    unfold displaceWithin
    split
    · exact ⟨counts, fun _ => ‹_›, fun impossible => by cases impossible⟩
    · split
      · exact frees_expired counts slot ‹_›
      · dsimp only
        split
        · rename_i alt direct
          have toSlot := mem_positions_lt (List.mem_of_find?_eq_some direct)
          have holds := List.find?_some direct
          rw [Bool.and_eq_true, decide_eq_true_eq, Bool.or_eq_true] at holds
          split
          · rename_i empty
            have freed : Frees config alt table (true, table) :=
              ⟨counts, fun _ => empty, fun impossible => by cases impossible⟩
            exact freed.move slot toSlot holds.1
          · rename_i occupied
            exact (frees_expired counts toSlot (holds.2.resolve_left occupied)).move slot toSlot holds.1
        · exact frees_displaceOther slot _ (fun _ => mem_positions_lt) counts
            fun alt member => ih (mem_positions_lt member)

/-- Freeing one of the candidates, given with their indices. -/
theorem counts_tryDisplace (candidates : List (Nat × Nat)) (counts : Counts config table)
    (inside : ∀ candidate ∈ candidates, candidate.1 < config.nitem) :
    Counts config (tryDisplace config candidates table).2 ∧
      (∀ freed, (tryDisplace config candidates table).1 = some freed →
        ∃ candidate ∈ candidates, candidate.2 = freed ∧
          slotIsEmpty config (tryDisplace config candidates table).2.data candidate.1 = true) ∧
      ((tryDisplace config candidates table).1 = none →
        (tryDisplace config candidates table).2 = table) := by
  induction candidates with
  | nil => exact ⟨counts, fun _ impossible => (by cases impossible), fun _ => rfl⟩
  | cons candidate rest ih =>
    obtain ⟨pos, idx⟩ := candidate
    have tail := ih fun other member => inside other (.tail _ member)
    have here := @frees_displaceWithin config pos table (config.maxDisplace - 0) counts
      (inside _ (.head _))
    unfold tryDisplace displaceFrom
    revert here
    generalize displaceWithin config (config.maxDisplace - 0) table pos = result
    obtain ⟨done, after⟩ := result
    intro here
    cases done with
    | true =>
      refine ⟨here.counts, fun freed same => ?_, fun impossible => by cases impossible⟩
      exact ⟨_, .head _, Option.some.inj same, here.empty rfl⟩
    | false =>
      obtain rfl := here.stuck rfl
      refine ⟨tail.1, fun freed same => ?_, tail.2.2⟩
      obtain ⟨found, member, rest⟩ := tail.2.1 freed same
      exact ⟨found, .tail _ member, rest⟩

/-- **The slot of an insert** is counted if it is updated, and empty otherwise. -/
theorem counts_findSlotForInsert (counts : Counts config table) (draw : UInt64) (key : Bytes) :
    let found := table.findSlotForInsert config draw key (positions config key)
    Counts config found.2 ∧ found.1.1 < config.nitem ∧
      slotIsEmpty config found.2.data found.1.1 = !found.1.2 := by
  unfold findSlotForInsert
  dsimp only
  split
  · rename_i pos live
    have holds := List.find?_some live
    rw [Bool.and_eq_true, Bool.not_eq_true', Bool.or_eq_false_iff] at holds
    exact ⟨counts, mem_positions_lt (List.mem_of_find?_eq_some live), holds.1.1⟩
  · split
    · rename_i pos empty
      exact ⟨counts, mem_positions_lt (List.mem_of_find?_eq_some empty), List.find?_some empty⟩
    · rename_i occupied
      split
      · rename_i pos expired
        have slot := mem_positions_lt (List.mem_of_find?_eq_some expired)
        have frees := frees_expired counts slot (List.find?_some expired)
        exact ⟨frees.counts, slot, frees.empty rfl⟩
      · have tried := @counts_tryDisplace config table (positions config key).zipIdx counts
          fun candidate member => mem_positions_lt (List.fst_mem_of_mem_zipIdx member)
        revert tried
        generalize tryDisplace config (positions config key).zipIdx table = result
        rintro ⟨counts, freed, stuck⟩
        obtain ⟨outcome, after⟩ := result
        cases outcome with
        | some idx =>
          obtain ⟨⟨pos, other⟩, member, same, empty⟩ := freed idx rfl
          obtain rfl : other = idx := same
          have place : (positions config key).getD other 0 = pos := by
            rw [List.getD_eq_getElem?_getD, List.mem_zipIdx_iff_getElem?.mp member]
            rfl
          dsimp only
          rw [place]
          exact ⟨counts, mem_positions_lt (List.fst_mem_of_mem_zipIdx member), empty⟩
        | none =>
          obtain rfl : table = after := (stuck rfl).symm
          have member : (positions config key).getD
              (selectVictim config table.data draw (positions config key)) 0 ∈
                positions config key := getD_positions_mem (selectVictim_lt draw)
          have full : slotIsEmpty config table.data ((positions config key).getD
              (selectVictim config table.data draw (positions config key)) 0) = false :=
            Bool.eq_false_iff.mpr (List.find?_eq_none.mp occupied _ member)
          exact ⟨counts_drop counts (mem_positions_lt member) full, mem_positions_lt member,
            slotIsEmpty_clearSlot config table.data _⟩

theorem findKey_slot {key : Bytes} (found : findKey config table.cache key = some pos) :
    pos < config.nitem ∧ slotIsEmpty config table.data pos = false := by
  have holds := List.find?_some found
  rw [Bool.and_eq_true, Bool.not_eq_true'] at holds
  exact ⟨mem_positions_lt (List.mem_of_find?_eq_some found), holds.1⟩

theorem counts_get (counts : Counts config table) (key : Bytes) :
    Counts config (table.get config key) := by
  unfold get
  split
  · exact counts
  · rename_i found
    obtain ⟨slot, occupied⟩ := findKey_slot found
    split
    · exact counts_drop counts slot occupied
    · exact counts

theorem counts_delete (counts : Counts config table) (key : Bytes) :
    Counts config (table.delete config key) := by
  unfold delete
  split
  · exact counts
  · rename_i found
    obtain ⟨slot, occupied⟩ := findKey_slot found
    split
    · exact counts_drop counts slot occupied
    · exact counts_drop counts slot occupied

/-- Counting a new item once the slot's old one has been discounted. -/
theorem counts_write {key : Bytes} {value : Value} {expire : Nat}
    (rest : table.gauges = tally config table.data - slotMetrics config table.data pos)
    (slot : pos < config.nitem)
    (room : TinyItem.headerSize + key.length + value.length ≤ config.itemSize)
    (stamp : expire < 2 ^ 32) (nonzero : expire ≠ 0) :
    Counts config ((table.withData (writeSlot config table.data pos key value expire)).incrementItemMetrics
      config pos) := by
  show table.gauges + _ = tally config (writeSlot config table.data pos key value expire)
  rw [tally_writeSlot slot room stamp nonzero, rest]
  rfl

theorem counts_insert (counts : Counts config table) (key : Bytes) (value : Value) (ttl : Nat)
    (draw : UInt64)
    (nonzero : required key value ≤ config.itemSize → computeExpire config table.elapsed ttl ≠ 0) :
    Counts config (table.insert config key value ttl draw) := by
  unfold insert
  dsimp only
  split
  · exact counts
  · rename_i room
    have room := Nat.le_of_not_gt room
    have found := counts_findSlotForInsert counts draw key
    revert found
    dsimp only
    generalize table.findSlotForInsert config draw key (positions config key) = found
    obtain ⟨⟨pos, updates⟩, after⟩ := found
    rintro ⟨counts, slot, held⟩
    have stamp := computeExpire_lt config table.elapsed ttl
    cases updates with
    | true =>
      refine counts_write ?_ slot room stamp (nonzero room)
      show after.gauges - itemMetrics config after.data pos = _
      rw [show after.gauges = _ from counts]
      exact congrArg _ (slotMetrics_of_occupied held).symm
    | false =>
      refine counts_write ?_ slot room stamp (nonzero room)
      show after.gauges = _
      rw [show after.gauges = _ from counts]
      exact (sub_eq_self.mpr (slotMetrics_of_empty held)).symm

/-- A step that keeps the gauges mirroring the slots. -/
def MetricsSafe (config : Config) (cache : Cache) : Op → Prop
  | .insert key value ttl _ => required key value ≤ config.itemSize →
      computeExpire config cache.elapsed ttl ≠ 0
  | .clear => ∀ pos < config.nitem, slotIsEmpty config cache.data pos = true
  | .wrappingAdd key _ | .saturatingSub key _ => ∀ pos, findLive config cache key = some pos →
      TinyItem.Inside cache.data (slotOffset config pos) config.itemSize
  | _ => True

theorem counts_updateNumber (counts : Counts config table) (change : UInt64 → UInt64) (key : Bytes)
    (inside : ∀ pos, findLive config table.cache key = some pos →
      TinyItem.Inside table.data (slotOffset config pos) config.itemSize) :
    Counts config { table with cache := (updateNumber config table.cache change key).2 } := by
  unfold updateNumber
  split
  · exact counts
  · rename_i pos live
    split
    · exact counts
    · rename_i number isNumber
      have noLength : TinyItem.rawVlen table.data (slotOffset config pos) = 0 := by
        unfold TinyItem.value at isNumber
        split at isNumber
        · assumption
        · cases isNumber
      show table.gauges = tally config (TinyItem.setNumber table.data (slotOffset config pos) _)
      rw [tally_setNumber noLength (inside pos live)]
      exact counts

/-- **One operation keeps the gauges mirroring the slots.** -/
theorem counts_step {op : Op} (counts : Counts config table)
    (safe : MetricsSafe config table.cache op) : Counts config (table.step config op) := by
  cases op with
  | get key => exact counts_get counts key
  | insert key value ttl draw => exact counts_insert counts key value ttl draw safe
  | delete key => exact counts_delete counts key
  | clear =>
    have before : tally config table.data = 0 := Finset.sum_eq_zero fun pos member =>
      slotMetrics_of_empty (safe pos (Finset.mem_range.mp member))
    have after : tally config (Cuckoo.clear config table.cache).data = 0 :=
      Finset.sum_eq_zero fun pos member => by
        refine slotMetrics_of_empty ?_
        rw [slotIsEmpty_eq (Finset.mem_range.mp member), (clear_effect config table.cache).1 pos]
        rfl
    exact (show table.gauges = _ from counts).trans (before.trans after.symm)
  | wrappingAdd key rhs => exact counts_updateNumber counts (· + rhs) key safe
  | saturatingSub key rhs => exact counts_updateNumber counts _ key safe
  | advance seconds => exact counts

theorem counts_run {ops : List Op} (counts : Counts config table)
    (safe : Throughout config (MetricsSafe config) ops table.cache) :
    Counts config (table.run config ops) := by
  induction ops generalizing table with
  | nil => exact counts
  | cons op rest ih =>
    refine ih (counts_step counts safe.1) ?_
    rw [step_cache]
    exact safe.2

end Metered

/-- The occupied slots. -/
def occupied (config : Config) (data : Memory) : Finset Nat :=
  (Finset.range config.nitem).filter fun pos => slotIsEmpty config data pos = false

/-- Each gauge is what the occupied slots add up to, and none is negative. -/
structure Mirrors (config : Config) (table : Metered) : Prop where
  current : table.gauges .itemCurrent = (occupied config table.data).card
  keyByte : table.gauges .itemKeyByte =
    ∑ pos ∈ occupied config table.data, (TinyItem.klen table.data (slotOffset config pos) : Int)
  valByte : table.gauges .itemValByte =
    ∑ pos ∈ occupied config table.data, (TinyItem.valueLen table.data (slotOffset config pos) : Int)
  dataByte : table.gauges .itemDataByte = ∑ pos ∈ occupied config table.data,
    ((TinyItem.klen table.data (slotOffset config pos) : Int) +
      TinyItem.valueLen table.data (slotOffset config pos))
  nonnegative : ∀ gauge, 0 ≤ table.gauges gauge

theorem tally_apply (config : Config) (data : Memory) (gauge : Gauge) :
    tally config data gauge = ∑ pos ∈ occupied config data, itemMetrics config data pos gauge := by
  unfold tally occupied
  rw [Finset.sum_apply, Finset.sum_filter]
  refine Finset.sum_congr rfl fun pos _ => ?_
  unfold slotMetrics
  cases slotIsEmpty config data pos <;> rfl

theorem mirrors_of_counts {table : Metered} (counts : Counts config table) :
    Mirrors config table := by
  have sums : ∀ gauge, table.gauges gauge = _ := fun gauge => by
    rw [show table.gauges = _ from counts, tally_apply]
  refine ⟨?_, sums _, sums _, sums _, fun gauge => ?_⟩
  · rw [sums, Finset.card_eq_sum_ones, Nat.cast_sum]
    rfl
  · rw [sums]
    refine Finset.sum_nonneg fun pos _ => ?_
    cases gauge <;> simp only [itemMetrics] <;> omega

/-- **The gauges mirror the slots** after every run in which no `clear` finds an occupied slot, no
insert computes an expiry of zero, and no number is written across the end of its slot. -/
theorem mirrors_of_metricsSafe (config : Config) (ops : List Op)
    (safe : Throughout config (Metered.MetricsSafe config) ops fromBuilder) :
    Mirrors config (Metered.fromBuilder.run config ops) := by
  refine mirrors_of_counts (Metered.counts_run ?_ safe)
  refine (Finset.sum_eq_zero fun pos member => slotMetrics_of_empty ?_).symm
  rw [slotIsEmpty_eq (Finset.mem_range.mp member)]
  show (entries config fromBuilder.data pos).isNone = true
  rw [entries_fromBuilder config pos]
  rfl

end Counting

/-- A number is inserted, changed and deleted, the emptied table is cleared, and an item expires. -/
def countedOps : List Op :=
  [.insert [7] (.u64 5) 0 0, .wrappingAdd [7] 3, .delete [7], .clear,
    .insert [7] (.bytes [1]) 1000000000 0, .advance 2, .get [7]]

/-- Four slots, with room for a number. -/
def numberSlots : Config := { fourSlots with
  itemSize := 16
  header_lt_itemSize := by decide
  total_lt := by decide }

theorem mirrors_countedOps : Mirrors numberSlots (Metered.fromBuilder.run numberSlots countedOps) :=
  mirrors_of_metricsSafe numberSlots countedOps
    ⟨fun _ => by decide +kernel,
      fun pos live => by
        have first : findLive numberSlots
            (step numberSlots fromBuilder (.insert [7] (.u64 5) 0 0)).2 [7] = some 0 := by
          decide +kernel
        rw [first] at live
        obtain rfl := Option.some.inj live
        unfold TinyItem.Inside
        decide +kernel,
      trivial, by unfold Metered.MetricsSafe; decide +kernel, fun _ => by decide +kernel, trivial,
      trivial, trivial⟩

/-- **Gauges that drift.** A `clear` zeroes the slots and forgets the gauges; an insert whose expiry is
zero counts an item in a slot that reads as empty. -/
theorem cleared_run :
    (¬ Mirrors fourSlots (Metered.fromBuilder.run fourSlots
        [.insert [7] (.bytes [1]) 0 0, .clear]) ∧
      (Metered.fromBuilder.run fourSlots
        [.insert [7] (.bytes [1]) 0 0, .clear]).gauges .itemCurrent = 1) ∧
    ¬ Mirrors fourSlots (Metered.fromBuilder.run fourSlots
        [.insert [7] (.bytes [1]) 500000000 0]) := by
  refine ⟨⟨fun mirrors => ?_, by decide +kernel⟩, fun mirrors => ?_⟩
  · exact absurd mirrors.current (by decide +kernel)
  · exact absurd mirrors.current (by decide +kernel)

end CacheRs.Cuckoo
