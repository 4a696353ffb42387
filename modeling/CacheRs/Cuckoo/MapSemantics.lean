/-
**The cache as a map that may forget.**

A map from keys to values with an expiry is what the cache stands for. An insert sets its key, and
may drop one other key, but only if all its candidate slots hold something live.

* `expected`, `written`: the answers and the changes of the map;
* `Serves`: every answer of a run is the expected one, and no slot repeats a key;
* `serves_of_mapSafe`: **the cache serves the map** as long as inserts leave no expired copy of
  their key behind, do not compute an expiry of zero, and displace along straight paths;
* `stale_run`: an expired copy left behind hides the new item.
-/

import CacheRs.Cuckoo.Placement

namespace CacheRs.Cuckoo

open KeyValue Relocation

/-! ### The map -/

/-- The value last written for each key, with its expiry. -/
abbrev Map := Bytes → Option (Value × Nat)

/-- What a reader finds: the value last written, unless it has expired. -/
def lookup (elapsed : Nat) (map : Map) (key : Bytes) : Option TinyEntry :=
  match map key with
  | none => none
  | some held =>
    if dead elapsed ⟨key, held.1, held.2⟩ then none else some ⟨key, held.1, held.2⟩

/-- The outcome of changing a number. -/
def changed (change : UInt64 → UInt64) : Option TinyEntry → Except CuckooCacheError TinyEntry
  | none => .error .notFound
  | some entry =>
    match entry.value with
    | .bytes _ => .error .notNumeric
    | .u64 number => .ok { entry with value := .u64 (change number) }

def saturatingChange (rhs number : UInt64) : UInt64 := if rhs ≤ number then number - rhs else 0

/-- The bytes an item needs. -/
def required (key : Bytes) (value : Value) : Nat :=
  TinyItem.headerSize + key.length + value.length

def expected (config : Config) (elapsed : Nat) (map : Map) : Op → Answer
  | .get key => .item (lookup elapsed map key)
  | .insert key value _ _ => .inserted (if config.itemSize < required key value then
      .error (.itemOversized (required key value) config.itemSize) else .ok ())
  | .delete key => .deleted (lookup elapsed map key).isSome
  | .clear => .done
  | .wrappingAdd key rhs => .number (changed (· + rhs) (lookup elapsed map key))
  | .saturatingSub key rhs => .number (changed (saturatingChange rhs) (lookup elapsed map key))
  | .advance _ => .done

def forget (map : Map) : Option Bytes → Map
  | none => map
  | some victim => Function.update map victim none

/-- Record a changed number. -/
def record (map : Map) (key : Bytes) : Except CuckooCacheError TinyEntry → Map
  | .error _ => map
  | .ok entry => Function.update map key (some (entry.value, entry.expire))

/-- The map after an operation that evicts `victim`. -/
def written (config : Config) (elapsed : Nat) (victim : Option Bytes) (map : Map) : Op → Map
  | .get _ => map
  | .insert key value ttl _ =>
    if config.itemSize < required key value then map
    else Function.update (forget map victim) key (some (value, computeExpire config elapsed ttl))
  | .delete key => Function.update map key none
  | .clear => fun _ => none
  | .wrappingAdd key rhs => record map key (changed (· + rhs) (lookup elapsed map key))
  | .saturatingSub key rhs => record map key (changed (saturatingChange rhs) (lookup elapsed map key))
  | .advance _ => map

/-- Only an insert evicts, only another key that is held in one of its candidate slots, and only if
all of these hold something live. -/
def MayEvict (config : Config) (cache : Cache) : Op → Option Bytes → Prop
  | .insert key _ _ _, some victim => victim ≠ key ∧
      Full config cache.elapsed cache.data key ∧
      ∃ pos ∈ positions config key, slotIsEmpty config cache.data pos = false ∧
        slotKey config cache.data pos = victim
  | _, victim => victim = none

/-- No two slots hold one key. -/
def AtMostOnce (config : Config) (data : Memory) : Prop :=
  ∀ pos < config.nitem, ∀ other < config.nitem, slotIsEmpty config data pos = false →
    slotIsEmpty config data other = false →
    slotKey config data pos = slotKey config data other → pos = other

instance (config : Config) (data : Memory) : Decidable (AtMostOnce config data) :=
  inferInstanceAs (Decidable (∀ pos < config.nitem, ∀ other < config.nitem, _))

/-- Every answer of a run is the one the map gives, and no slot ever repeats a key. -/
def Serves (config : Config) : List Op → Cache → Map → Prop
  | [], cache, _ => AtMostOnce config cache.data
  | op :: rest, cache, map =>
    AtMostOnce config cache.data ∧
      (step config cache op).1 = expected config cache.elapsed map op ∧
      ∃ victim, MayEvict config cache op victim ∧
        Serves config rest (step config cache op).2
          (written config cache.elapsed victim map op)

/-- Keys and values that the layout of a slot can hold. -/
def Representable : Op → Prop
  | .insert key value _ _ => key.length ≤ 255 ∧ TinyItem.Storable value
  | _ => True

/-- An expired copy of the key, if there is one, lies in the slot the insert takes: no candidate
slot is empty, and it is the first that has expired. -/
def NoCopyLeft (config : Config) (cache : Cache) (key : Bytes) : Prop :=
  ∀ pos ∈ positions config key, ∀ entry, entries config cache.data pos = some entry →
    entry.key = key → dead cache.elapsed entry = true →
    (∀ other ∈ positions config key, entries config cache.data other ≠ none) ∧
      (positions config key).find? (fun other =>
        (entries config cache.data).isFree (dead cache.elapsed) other) = some pos

/-- An insert that leaves no copy behind, has an expiry, and displaces along a straight path. -/
def MapSafe (config : Config) (cache : Cache) : Op → Prop
  | .insert key value ttl _ => required key value ≤ config.itemSize →
      NoCopyLeft config cache key ∧ computeExpire config cache.elapsed ttl ≠ 0 ∧
      StraightInsert config cache.elapsed cache.data key
  | _ => True

/-! ### What the table and the map have in common -/

/-- No key lies in two slots. -/
def Unique (slots : Slots TinyEntry) : Prop :=
  ∀ pos other entry copy, slots pos = some entry → slots other = some copy →
    entry.key = copy.key → pos = other

/-- The table holds what the map says, as far as it is live. -/
def Agrees (elapsed : Nat) (slots : Slots TinyEntry) (map : Map) : Prop :=
  ∀ entry, dead elapsed entry = false →
    ((∃ pos, slots pos = some entry) ↔ map entry.key = some (entry.value, entry.expire))

structure Represents (config : Config) (cache : Cache) (map : Map) : Prop where
  well : WellPlaced config cache.data
  unique : Unique (entries config cache.data)
  agrees : Agrees cache.elapsed (entries config cache.data) map

section Represents

variable {config : Config} {cache : Cache} {map : Map} {key : Bytes} {elapsed : Nat}
  {slots : Slots TinyEntry} {pos : Nat} {entry : TinyEntry}

theorem lookup_eq_some :
    lookup elapsed map key = some entry ↔
      entry.key = key ∧ dead elapsed entry = false ∧
        map key = some (entry.value, entry.expire) := by
  unfold lookup
  cases held : map key with
  | none => simp
  | some pair =>
    by_cases gone : dead elapsed ⟨key, pair.1, pair.2⟩ = true
    · simp only [gone, if_true]
      constructor
      · intro impossible
        cases impossible
      · rintro ⟨rfl, alive, same⟩
        rw [Option.some.inj same] at gone
        rw [gone] at alive
        cases alive
    · simp only
      rw [if_neg gone]
      constructor
      · intro same
        obtain rfl := Option.some.inj same
        exact ⟨rfl, Bool.eq_false_iff.mpr gone, rfl⟩
      · rintro ⟨rfl, _, same⟩
        rw [Option.some.inj same]

theorem Agrees.lookup_of_held (agrees : Agrees elapsed slots map) (held : slots pos = some entry)
    (alive : dead elapsed entry = false) : lookup elapsed map entry.key = some entry :=
  lookup_eq_some.mpr ⟨rfl, alive, (agrees entry alive).mp ⟨pos, held⟩⟩

theorem Agrees.lookup_of_missing (agrees : Agrees elapsed slots map)
    (missing : ∀ pos entry, slots pos = some entry → dead elapsed entry = false →
      entry.key ≠ key) : lookup elapsed map key = none := by
  cases found : lookup elapsed map key with
  | none => rfl
  | some entry =>
    obtain ⟨same, alive, written⟩ := lookup_eq_some.mp found
    rw [← same] at written
    obtain ⟨pos, held⟩ := (agrees entry alive).mpr written
    exact absurd same (missing pos entry held alive)

theorem Unique.put_none (unique : Unique slots) (pos : Nat) : Unique (slots.put pos none) := by
  intro first second entry copy held heldCopy same
  by_cases atFirst : first = pos
  · rw [atFirst, Slots.put_self] at held
    cases held
  · by_cases atSecond : second = pos
    · rw [atSecond, Slots.put_self] at heldCopy
      cases heldCopy
    · rw [Slots.put_of_ne _ _ atFirst] at held
      rw [Slots.put_of_ne _ _ atSecond] at heldCopy
      exact unique first second entry copy held heldCopy same

/-- A key that no other slot holds may be put in a slot. -/
theorem Unique.put (unique : Unique slots)
    (others : ∀ other, other ≠ pos → ∀ copy, slots other = some copy → copy.key ≠ entry.key) :
    Unique (slots.put pos (some entry)) := by
  intro first second held copy heldFirst heldSecond same
  by_cases atFirst : first = pos
  · by_cases atSecond : second = pos
    · rw [atFirst, atSecond]
    · rw [atFirst, Slots.put_self] at heldFirst
      rw [Slots.put_of_ne _ _ atSecond] at heldSecond
      rw [← Option.some.inj heldFirst] at same
      exact absurd same.symm (others second atSecond copy heldSecond)
  · rw [Slots.put_of_ne _ _ atFirst] at heldFirst
    by_cases atSecond : second = pos
    · rw [atSecond, Slots.put_self] at heldSecond
      rw [← Option.some.inj heldSecond] at same
      exact absurd same (others first atFirst held heldFirst)
    · rw [Slots.put_of_ne _ _ atSecond] at heldSecond
      exact unique first second held copy heldFirst heldSecond same

theorem Unique.comp (unique : Unique slots) (order : Equiv.Perm Nat) : Unique (slots ∘ order) :=
  fun _ _ _ _ held heldCopy same => order.injective (unique _ _ _ _ held heldCopy same)

/-- Emptying a slot that is not live keeps the table in agreement. -/
theorem Agrees.put_none_of_isFree (agrees : Agrees elapsed slots map)
    (free : slots.isFree (dead elapsed) pos = true) : Agrees elapsed (slots.put pos none) map := by
  intro entry alive
  rw [← agrees entry alive]
  constructor
  · rintro ⟨other, held⟩
    by_cases same : other = pos
    · rw [same, Slots.put_self] at held
      cases held
    · rw [Slots.put_of_ne _ _ same] at held
      exact ⟨other, held⟩
  · rintro ⟨other, held⟩
    refine ⟨other, ?_⟩
    rw [Slots.put_of_ne, held]
    rintro rfl
    rw [Slots.isFree_of_some held, alive] at free
    cases free

theorem Agrees.comp (agrees : Agrees elapsed slots map) (order : Equiv.Perm Nat) :
    Agrees elapsed (slots ∘ order) map := by
  intro entry alive
  rw [← agrees entry alive]
  constructor
  · rintro ⟨pos, held⟩
    exact ⟨order pos, held⟩
  · rintro ⟨pos, held⟩
    refine ⟨order.symm pos, ?_⟩
    rwa [Function.comp_apply, Equiv.apply_symm_apply]

/-- Emptying the slot of a key forgets the key. -/
theorem Agrees.put_none (agrees : Agrees elapsed slots map) (unique : Unique slots)
    (held : slots pos = some entry) :
    Agrees elapsed (slots.put pos none) (Function.update map entry.key none) := by
  intro other alive
  by_cases same : other.key = entry.key
  · rw [same, Function.update_self]
    refine ⟨?_, fun impossible => by cases impossible⟩
    rintro ⟨place, found⟩
    by_cases here : place = pos
    · rw [here, Slots.put_self] at found
      cases found
    · rw [Slots.put_of_ne _ _ here] at found
      exact absurd (unique place pos other entry found held same) here
  · rw [Function.update_of_ne same, ← agrees other alive]
    constructor
    · rintro ⟨place, found⟩
      by_cases here : place = pos
      · rw [here, Slots.put_self] at found
        cases found
      · rw [Slots.put_of_ne _ _ here] at found
        exact ⟨place, found⟩
    · rintro ⟨place, found⟩
      refine ⟨place, ?_⟩
      rw [Slots.put_of_ne, found]
      rintro rfl
      rw [held] at found
      exact same (congrArg TinyEntry.key (Option.some.inj found)).symm

/-- Putting an item in a slot whose key no other slot holds. -/
theorem Agrees.put {fresh : TinyEntry} (agrees : Agrees elapsed slots map)
    (here : ∀ entry, slots pos = some entry → dead elapsed entry = false → entry.key = fresh.key)
    (others : ∀ other, other ≠ pos → ∀ copy, slots other = some copy → copy.key ≠ fresh.key) :
    Agrees elapsed (slots.put pos (some fresh))
      (Function.update map fresh.key (some (fresh.value, fresh.expire))) := by
  intro entry alive
  by_cases same : entry.key = fresh.key
  · rw [same, Function.update_self]
    constructor
    · rintro ⟨place, found⟩
      by_cases atPos : place = pos
      · rw [atPos, Slots.put_self] at found
        rw [Option.some.inj found]
      · rw [Slots.put_of_ne _ _ atPos] at found
        exact absurd same (others place atPos entry found)
    · intro written
      obtain ⟨sameValue, sameExpire⟩ := Prod.mk.inj (Option.some.inj written)
      refine ⟨pos, ?_⟩
      rw [Slots.put_self]
      exact congrArg some (TinyEntry.ext same.symm sameValue sameExpire)
  · rw [Function.update_of_ne same, ← agrees entry alive]
    constructor
    · rintro ⟨place, found⟩
      by_cases atPos : place = pos
      · rw [atPos, Slots.put_self] at found
        rw [← Option.some.inj found] at same
        exact absurd rfl same
      · rw [Slots.put_of_ne _ _ atPos] at found
        exact ⟨place, found⟩
    · rintro ⟨place, found⟩
      refine ⟨place, ?_⟩
      rw [Slots.put_of_ne, found]
      rintro rfl
      exact same (here entry found alive)

/-! ### Steps -/

theorem Chosen.unique (unique : Unique (entries config cache.data))
    (chosen : Chosen config cache.elapsed cache.data key pos slots) : Unique slots := by
  cases chosen with
  | update held alive same => exact unique
  | fresh absent empty => exact unique
  | expired absent occupied first => exact unique.put_none _
  | displaced absent full path =>
    obtain ⟨_, _, searched⟩ := List.exists_of_findSome?_eq_some path
    obtain ⟨_, _, _, route⟩ := route_sound searched
    obtain ⟨order, last, _, same, _⟩ := unwind_eq_comp route
    rw [same]
    exact (unique.put_none last).comp order
  | evicted absent full => exact unique.put_none _

/-- A copy of a key that no candidate slot holds live is the one the insert takes the slot of. -/
theorem NoCopyLeft.copy (noCopy : NoCopyLeft config cache key)
    (placed : Placed (candidates config) (entries config cache.data))
    (absent : Absent config cache.elapsed cache.data key)
    (held : entries config cache.data pos = some entry) (same : entry.key = key) :
    (∀ other ∈ positions config key, entries config cache.data other ≠ none) ∧
      (positions config key).find? (fun other =>
        (entries config cache.data).isFree (dead cache.elapsed) other) = some pos := by
  have member : pos ∈ positions config key := by
    rw [← same]
    exact placed pos entry held
  cases alive : dead cache.elapsed entry with
  | false => exact absurd same (absent pos member entry held alive)
  | true => exact noCopy pos member entry held same alive

/-- No slot but the chosen one holds the key. -/
theorem Chosen.others (rep : Represents config cache map) (noCopy : NoCopyLeft config cache key)
    (member : pos ∈ positions config key)
    (chosen : Chosen config cache.elapsed cache.data key pos slots) :
    ∀ other, other ≠ pos → ∀ copy, slots other = some copy → copy.key ≠ key := by
  intro other different copy held same
  have full_copy : ∀ place, Absent config cache.elapsed cache.data key →
      Full config cache.elapsed cache.data key →
      entries config cache.data place ≠ some copy := by
    intro place absent full found
    have first := (noCopy.copy rep.well.placed absent found same).2
    have free := List.find?_some first
    rw [full place (List.mem_of_find?_eq_some first)] at free
    cases free
  cases chosen with
  | update heldHere alive sameHere =>
    exact different (rep.unique other pos copy _ held heldHere (same.trans sameHere.symm))
  | fresh absent empty =>
    exact (noCopy.copy rep.well.placed absent held same).1 pos member empty
  | expired absent occupied first =>
    rw [Slots.put_of_ne _ _ different] at held
    rw [(noCopy.copy rep.well.placed absent held same).2] at first
    exact different (Option.some.inj first)
  | displaced absent full path =>
    obtain ⟨_, _, searched⟩ := List.exists_of_findSome?_eq_some path
    obtain ⟨_, _, _, route⟩ := route_sound searched
    obtain ⟨order, last, _, sameSlots, _⟩ := unwind_eq_comp route
    rw [sameSlots, Function.comp_apply] at held
    by_cases atLast : order other = last
    · rw [atLast, Slots.put_self] at held
      cases held
    · rw [Slots.put_of_ne _ _ atLast] at held
      exact full_copy _ absent full held
  | evicted absent full =>
    rw [Slots.put_of_ne _ _ different] at held
    exact full_copy _ absent full held

/-- What an insert drops to make room. -/
theorem Chosen.victim (rep : Represents config cache map) (member : pos ∈ positions config key)
    (chosen : Chosen config cache.elapsed cache.data key pos slots) (value : Value) (ttl : Nat)
    (draw : UInt64) :
    ∃ victim, MayEvict config cache (.insert key value ttl draw) victim ∧
      Agrees cache.elapsed slots (forget map victim) ∧
      ∀ entry, slots pos = some entry → dead cache.elapsed entry = false → entry.key = key := by
  cases chosen with
  | update held alive same =>
    refine ⟨none, rfl, rep.agrees, fun entry found _ => ?_⟩
    rw [held] at found
    rwa [← Option.some.inj found]
  | fresh absent empty =>
    refine ⟨none, rfl, rep.agrees, fun entry found => ?_⟩
    rw [empty] at found
    cases found
  | expired absent occupied first =>
    refine ⟨none, rfl, rep.agrees.put_none_of_isFree (List.find?_some first), fun entry found => ?_⟩
    rw [Slots.put_self] at found
    cases found
  | displaced absent full path =>
    obtain ⟨_, _, searched⟩ := List.exists_of_findSome?_eq_some path
    obtain ⟨_, _, _, route⟩ := route_sound searched
    refine ⟨none, rfl, ?_, fun entry found => ?_⟩
    · obtain ⟨order, last, free, same, _⟩ := unwind_eq_comp route
      rw [same]
      exact (rep.agrees.put_none_of_isFree free).comp order
    · rw [unwind_head route] at found
      cases found
  | evicted absent full =>
    have busy := full pos member
    cases held : entries config cache.data pos with
    | none =>
      rw [Slots.isFree_of_none held] at busy
      cases busy
    | some entry =>
      rw [Slots.isFree_of_some held] at busy
      refine ⟨some entry.key, ⟨absent pos member entry held busy, full, pos, member,
        slotIsEmpty_of_some held, key_of_entries held⟩, rep.agrees.put_none rep.unique held,
        fun other found => ?_⟩
      rw [Slots.put_self] at found
      cases found

/-- A lookup finds what the map says. -/
theorem Looked.answer (rep : Represents config cache map)
    {found : Option (Nat × TinyEntry)} (looked : Looked config cache key found slots) :
    found.map Prod.snd = lookup cache.elapsed map key ∧ Unique slots ∧
      Agrees cache.elapsed slots map := by
  cases looked with
  | missing absent =>
    refine ⟨(rep.agrees.lookup_of_missing fun pos entry held alive same => ?_).symm, rep.unique,
      rep.agrees⟩
    refine absent pos ?_ entry held same
    rw [← same]
    exact rep.well.placed pos entry held
  | @expired pos entry held same gone =>
    refine ⟨(rep.agrees.lookup_of_missing fun other copy found alive sameCopy => ?_).symm,
      rep.unique.put_none pos, rep.agrees.put_none_of_isFree (by
        rwa [Slots.isFree_of_some held])⟩
    obtain rfl := rep.unique other pos copy entry found held (sameCopy.trans same.symm)
    rw [held] at found
    rw [← Option.some.inj found, gone] at alive
    cases alive
  | @found pos entry held same alive =>
    subst same
    exact ⟨(rep.agrees.lookup_of_held held alive).symm, rep.unique, rep.agrees⟩

theorem changed_isU64_false {change : UInt64 → UInt64} (notNumber : entry.value.isU64 = false) :
    changed change (some entry) = .error .notNumeric := by
  unfold changed
  cases isBytes : entry.value with
  | bytes bytes => simp only [isBytes]
  | u64 number =>
    rw [isBytes] at notNumber
    cases notNumber

theorem changed_u64 {change : UInt64 → UInt64} {number : UInt64}
    (isNumber : entry.value = .u64 number) :
    changed change (some entry) = .ok { entry with value := .u64 (change number) } := by
  unfold changed
  simp only [isNumber]

/-- A number is changed as the map says. -/
theorem updateNumber_represents (rep : Represents config cache map) (change : UInt64 → UInt64)
    (key : Bytes) :
    (updateNumber config cache change key).1 =
        changed change (lookup cache.elapsed map key) ∧
      Represents config (updateNumber config cache change key).2
        (record map key (changed change (lookup cache.elapsed map key))) := by
  have well := updateNumber_wellPlaced rep.well change key
  rcases updateNumber_effect rep.well.sound change key with
    ⟨absent, same⟩ | ⟨pos, entry, held, sameKey, alive, outcome⟩
  · have missing : lookup cache.elapsed map key = none :=
      rep.agrees.lookup_of_missing fun pos entry held alive same => absent pos (by
        rw [← same]
        exact rep.well.placed pos entry held) entry held alive same
    rw [same, missing]
    exact ⟨rfl, rep⟩
  · subst sameKey
    rw [rep.agrees.lookup_of_held held alive]
    rcases outcome with ⟨notNumber, same⟩ | ⟨number, isNumber, answer, written, _, sameElapsed⟩
    · rw [same, changed_isU64_false notNumber]
      exact ⟨rfl, rep⟩
    · rw [changed_u64 isNumber]
      refine ⟨answer, well, ?_, ?_⟩
      · rw [written]
        exact rep.unique.put fun other different copy found sameCopy =>
          different (rep.unique other pos copy entry found held sameCopy)
      · rw [written, sameElapsed]
        refine rep.agrees.put (fun other found _ => ?_) fun other different copy found sameCopy =>
          different (rep.unique other pos copy entry found held sameCopy)
        rw [held] at found
        rw [← Option.some.inj found]

/-- An item that is live later is live now. -/
theorem dead_mono {later : Nat} (le : elapsed ≤ later) (alive : dead later entry = false) :
    dead elapsed entry = false := by
  unfold dead at alive ⊢
  rw [Bool.and_eq_false_iff] at alive ⊢
  rcases alive with forever | alive
  · exact .inl forever
  · refine .inr (decide_eq_false ?_)
    have := of_decide_eq_false alive
    omega

theorem MapSafe.placementSafe {op : Op} (fits : Representable op)
    (safe : MapSafe config cache op) : PlacementSafe config cache op := by
  cases op with
  | insert key value ttl draw =>
    obtain ⟨short, storable⟩ := fits
    refine fun room => ⟨short, ?_, (safe room).2.2⟩
    rwa [storable.vlen.2]
  | _ => trivial

/-- An insert into the map. -/
theorem insert_represents (rep : Represents config cache map) {value : Value} {ttl : Nat}
    (draw : UInt64) (short : key.length ≤ 255) (storable : TinyItem.Storable value)
    (safe : MapSafe config cache (.insert key value ttl draw)) :
    (insert config cache key value ttl draw).1 = (if config.itemSize < required key value then
        .error (.itemOversized (required key value) config.itemSize) else .ok ()) ∧
      ∃ victim, MayEvict config cache (.insert key value ttl draw) victim ∧
        Represents config (insert config cache key value ttl draw).2
          (written config cache.elapsed victim map (.insert key value ttl draw)) := by
  have fits : Representable (.insert key value ttl draw) := ⟨short, storable⟩
  have well := wellPlaced_step (safe.placementSafe fits) rep.well
  change WellPlaced config (insert config cache key value ttl draw).2.data at well
  by_cases large : config.itemSize < required key value
  · rw [insert_oversized draw large, if_pos large]
    refine ⟨rfl, none, rfl, ?_⟩
    rw [written, if_pos large]
    exact rep
  · have room := Nat.le_of_not_lt large
    obtain ⟨noCopy, stamped, straight⟩ := safe room
    obtain ⟨answer, _, sameElapsed, pos, slots, stored, member, chosen, sameValue, same⟩ :=
      @insert_effect config cache key rep.well.sound value ttl draw short room
        (by rwa [storable.vlen.2])
    obtain ⟨victim, evicts, agrees, here⟩ := chosen.victim rep member value ttl draw
    have others := chosen.others rep noCopy member
    rw [if_neg stamped, sameValue storable] at same
    rw [if_neg large]
    refine ⟨answer, victim, evicts, well, ?_, ?_⟩
    · rw [same]
      exact (chosen.unique rep.unique).put others
    · rw [same, sameElapsed, written, if_neg large]
      exact agrees.put here others

/-- **One operation** answers as the map does, and leaves what the map becomes. -/
theorem represents_step {op : Op} (rep : Represents config cache map) (fits : Representable op)
    (safe : MapSafe config cache op) :
    (step config cache op).1 = expected config cache.elapsed map op ∧
      ∃ victim, MayEvict config cache op victim ∧
        Represents config (step config cache op).2
          (written config cache.elapsed victim map op) := by
  have well := wellPlaced_step (safe.placementSafe fits) rep.well
  cases op with
  | get key =>
    obtain ⟨found, slots, looked, answer, same, _, sameElapsed⟩ :=
      get_effect rep.well.sound key
    obtain ⟨finds, unique, agrees⟩ := looked.answer rep
    rw [← same] at unique agrees
    refine ⟨congrArg Answer.item (answer.trans finds), none, rfl, well, unique, ?_⟩
    show Agrees (get config cache key).2.elapsed _ map
    rwa [sameElapsed]
  | insert key value ttl draw =>
    obtain ⟨answer, victim, evicts, after⟩ := insert_represents rep draw fits.1 fits.2 safe
    exact ⟨congrArg Answer.inserted answer, victim, evicts, after⟩
  | delete key =>
    obtain ⟨found, slots, looked, answer, same, _, sameElapsed⟩ :=
      delete_effect rep.well.sound key
    obtain ⟨finds, unique, agrees⟩ := looked.answer rep
    refine ⟨?_, none, rfl, well, ?_, ?_⟩
    · show Answer.deleted (delete config cache key).1 = _
      rw [answer, expected, ← finds, Option.isSome_map]
    · show Unique (entries config (delete config cache key).2.data)
      rw [same]
      cases found with
      | none => exact unique
      | some held => exact unique.put_none held.1
    · show Agrees (delete config cache key).2.elapsed
        (entries config (delete config cache key).2.data) _
      rw [same, sameElapsed]
      cases found with
      | none =>
        -- the map may still say what has expired
        intro entry alive
        by_cases sameKey : entry.key = key
        · rw [written, sameKey, Function.update_self]
          refine ⟨?_, fun impossible => by cases impossible⟩
          rintro ⟨pos, held⟩
          have present := agrees.lookup_of_held held alive
          rw [sameKey, ← finds] at present
          cases present
        · rw [written, Function.update_of_ne sameKey]
          exact agrees entry alive
      | some held =>
        cases looked with
        | found heldHere sameKey alive =>
          rw [written, ← sameKey]
          exact agrees.put_none unique heldHere
  | clear =>
    have empty := (clear_effect config cache).1
    refine ⟨rfl, none, rfl, well, fun pos other entry copy held => ?_, fun entry alive => ?_⟩
    · have none := empty pos
      rw [show entries config (clear config cache).data pos = some entry from held] at none
      cases none
    · refine ⟨?_, fun impossible => by cases impossible⟩
      rintro ⟨pos, held⟩
      have none := empty pos
      rw [show entries config (clear config cache).data pos = some entry from held] at none
      cases none
  | wrappingAdd key rhs =>
    obtain ⟨answer, after⟩ := updateNumber_represents rep (· + rhs) key
    exact ⟨congrArg Answer.number answer, none, rfl, after⟩
  | saturatingSub key rhs =>
    obtain ⟨answer, after⟩ := updateNumber_represents rep (saturatingChange rhs) key
    exact ⟨congrArg Answer.number answer, none, rfl, after⟩
  | advance seconds =>
    have later : cache.elapsed ≤ (advance cache seconds).elapsed :=
      Nat.le_min.mpr ⟨Nat.le_add_right .., cache.elapsed_le⟩
    exact ⟨rfl, none, rfl, well, rep.unique, fun entry alive =>
      rep.agrees entry (dead_mono later alive)⟩

end Represents

theorem Represents.atMostOnce {config : Config} {cache : Cache} {map : Map}
    (rep : Represents config cache map) : AtMostOnce config cache.data := by
  intro pos slot other otherSlot occupied otherOccupied same
  rw [slotIsEmpty_eq slot, Option.isNone_eq_false_iff] at occupied
  rw [slotIsEmpty_eq otherSlot, Option.isNone_eq_false_iff] at otherOccupied
  obtain ⟨entry, held⟩ := Option.isSome_iff_exists.mp occupied
  obtain ⟨copy, heldCopy⟩ := Option.isSome_iff_exists.mp otherOccupied
  rw [key_of_entries held, key_of_entries heldCopy] at same
  exact rep.unique pos other entry copy held heldCopy same

theorem serves_of_represents {config : Config} {ops : List Op} {cache : Cache} {map : Map}
    (rep : Represents config cache map) (fits : ∀ op ∈ ops, Representable op)
    (safe : Throughout config (MapSafe config) ops cache) : Serves config ops cache map := by
  induction ops generalizing cache map with
  | nil => exact rep.atMostOnce
  | cons op ops ih =>
    obtain ⟨answer, victim, evicts, after⟩ := represents_step rep (fits op (.head _)) safe.1
    exact ⟨rep.atMostOnce, answer, victim, evicts,
      ih after (fun other member => fits other (.tail _ member)) safe.2⟩

theorem represents_fromBuilder (config : Config) :
    Represents config fromBuilder fun _ => none where
  well := wellPlaced_of_empty (entries_fromBuilder config)
  unique pos other entry copy held := by
    rw [entries_fromBuilder config pos] at held
    cases held
  agrees entry alive := by
    refine ⟨?_, fun impossible => by cases impossible⟩
    rintro ⟨pos, held⟩
    rw [entries_fromBuilder config pos] at held
    cases held

/-- **The cache is a map that may forget**: in every run whose inserts leave no expired copy of
their key behind, have an expiry, and displace along straight paths, every answer is the one the
map gives, and no two slots hold one key. -/
theorem serves_of_mapSafe (config : Config) (ops : List Op) (fits : ∀ op ∈ ops, Representable op)
    (safe : Throughout config (MapSafe config) ops fromBuilder) :
    Serves config ops fromBuilder fun _ => none :=
  serves_of_represents (represents_fromBuilder config) fits safe

/-! ### An expired copy that stays -/

theorem four_pos : 0 < 4 := by decide

theorem four_slots_lt : 8 * 4 < 2 ^ 64 := by decide

theorem hundred_le_u32Max : 100 ≤ u32Max := by decide

/-- Four slots, all candidates of every key. -/
def fourSlots : Config where
  itemSize := 8
  nitem := 4
  maxDisplace := 2
  maxTtl := 100
  policy := .random
  hashers i _ := UInt64.ofNat i.val
  header_lt_itemSize := headerSize_lt_eight
  nitem_pos := four_pos
  total_lt := four_slots_lt
  maxTtl_le := hundred_le_u32Max

/-- Insert a key for a second, let it expire, insert it again for ever, and read it. -/
def staleOps : List Op :=
  [.insert [7] (.bytes [1]) 1000000000 0, .advance 2, .insert [7] (.bytes [2]) 0 0, .get [7]]

/-- Both inserts succeed, two slots then hold the key, and the lookup finds nothing. -/
theorem stale_run :
    answers fourSlots staleOps fromBuilder =
        [.inserted (.ok ()), .done, .inserted (.ok ()), .item none] ∧
      ¬ AtMostOnce fourSlots (run fourSlots (staleOps.take 3) fromBuilder).data := by
  decide +kernel

/-- In the first second of the cache nothing has expired. -/
theorem mapSafe_fourSlots {cache : Cache} (start : cache.elapsed = 0) (key value : Bytes)
    (draw : UInt64) : MapSafe fourSlots cache (.insert key (.bytes value) 0 draw) := by
  refine fun _ => ⟨fun pos _ entry _ _ gone => ?_, ?_, straightInsert_of_shallow _ (by decide) _ _ _⟩
  · rw [start, dead, Bool.and_eq_true] at gone
    exact absurd (of_decide_eq_true gone.2) (Nat.not_lt_zero _)
  · rw [computeExpire, if_pos rfl]
    decide

def freshOps : List Op :=
  [.insert [7] (.bytes [1]) 0 0, .insert [7] (.bytes [2]) 0 0, .get [7], .delete [7], .get [7]]

theorem serves_freshOps : Serves fourSlots freshOps fromBuilder fun _ => none :=
  serves_of_mapSafe fourSlots freshOps
    (by
      have fits : ∀ value : UInt8, Representable (.insert [7] (.bytes [value]) 0 0) := fun value =>
        ⟨by simp, List.cons_ne_nil _ _, by simp⟩
      intro op member
      simp only [freshOps, List.mem_cons, List.not_mem_nil, or_false] at member
      rcases member with rfl | rfl | rfl | rfl | rfl
      · exact fits 1
      · exact fits 2
      · trivial
      · trivial
      · trivial)
    ⟨mapSafe_fourSlots rfl [7] [1] 0, mapSafe_fourSlots (by decide +kernel) [7] [2] 0, trivial,
      trivial, trivial, trivial⟩

/-- Half a second to live, in the first second of the cache: the item is gone at once. -/
example : answers fourSlots [.insert [7] (.bytes [1]) 500000000 0, .get [7]] fromBuilder =
    [.inserted (.ok ()), .item none] := by
  decide +kernel

end CacheRs.Cuckoo
