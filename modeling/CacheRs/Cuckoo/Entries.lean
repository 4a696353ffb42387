/-
**What the slots hold.**

The bytes of the array, read as a table of entries. Each operation of the cache is a change of this
table.

* `entries_clearSlot`, `entries_moveSlot`, `entries_writeSlot`, `entries_setNumber`: one slot's
  bytes;
* `displaced`: **displacement is the search for a path and the moves along it**;
* `chosen`: the slot an insert takes.
-/

import CacheRs.Cuckoo.Cache

namespace CacheRs.Cuckoo

open KeyValue Relocation

/-- The table of the array's slots. -/
def entries (config : Config) (data : Memory) : Slots TinyEntry := fun pos =>
  if pos < config.nitem then TinyItem.entryAt data (slotOffset config pos) else none

/-- An entry whose expiry has passed. -/
def dead (elapsed : Nat) (entry : TinyEntry) : Bool :=
  entry.expire ≠ u32Max && entry.expire < elapsed

/-- The slots an entry may lie in. -/
def candidates (config : Config) (entry : TinyEntry) : List Nat := positions config entry.key

/-- Every item lies inside its slot. -/
def Sound (config : Config) (data : Memory) : Prop :=
  ∀ pos, entries config data pos ≠ none →
    TinyItem.Inside data (slotOffset config pos) config.itemSize

section Reading

variable {config : Config} {data : Memory} {pos elapsed : Nat} {entry : TinyEntry}

theorem mem_positions_lt {key : Bytes} (member : pos ∈ positions config key) :
    pos < config.nitem := by
  obtain ⟨i, _, rfl⟩ := List.mem_map.mp member
  exact Nat.mod_lt _ config.nitem_pos

theorem mem_candidates_lt (entry : TinyEntry) :
    ∀ other ∈ candidates config entry, other < config.nitem :=
  fun _ member => mem_positions_lt member

theorem entries_of_lt (inside : pos < config.nitem) :
    entries config data pos = TinyItem.entryAt data (slotOffset config pos) :=
  if_pos inside

theorem lt_of_entries (held : entries config data pos = some entry) : pos < config.nitem := by
  by_contra outside
  rw [entries, if_neg outside] at held
  cases held

/-- An occupied slot holds what its bytes say. -/
theorem of_entries (held : entries config data pos = some entry) :
    slotExpire config data pos ≠ 0 ∧ itemOf config data pos = entry := by
  rw [entries_of_lt (lt_of_entries held), TinyItem.entryAt] at held
  split at held
  · cases held
  · exact ⟨‹_›, Option.some.inj held⟩

theorem key_of_entries (held : entries config data pos = some entry) :
    slotKey config data pos = entry.key := by
  rw [← (of_entries held).2]
  rfl

theorem expire_of_entries (held : entries config data pos = some entry) :
    slotExpire config data pos = entry.expire := by
  rw [← (of_entries held).2]
  rfl

theorem slotIsEmpty_of_some (held : entries config data pos = some entry) :
    slotIsEmpty config data pos = false := by
  unfold slotIsEmpty
  exact decide_eq_false (of_entries held).1

theorem slotIsEmpty_eq (inside : pos < config.nitem) :
    slotIsEmpty config data pos = (entries config data pos).isNone := by
  cases held : entries config data pos with
  | some entry => exact slotIsEmpty_of_some held
  | none =>
    rw [entries_of_lt inside, TinyItem.entryAt] at held
    split at held
    · exact decide_eq_true ‹_›
    · cases held

theorem slotIsExpired_of_some (held : entries config data pos = some entry) :
    slotIsExpired config elapsed data pos = dead elapsed entry := by
  have nonzero := (of_entries held).1
  unfold slotIsExpired dead
  rw [expire_of_entries held] at nonzero ⊢
  simp only [nonzero, decide_false, Bool.false_or]
  by_cases forever : entry.expire = u32Max
  · simp [forever]
  · simp [forever]

theorem slotIsExpired_of_none (inside : pos < config.nitem)
    (empty : entries config data pos = none) :
    slotIsExpired config elapsed data pos = false := by
  have zero := @slotIsEmpty_eq config data pos inside
  rw [empty, slotIsEmpty] at zero
  have zero := of_decide_eq_true zero
  unfold slotIsExpired
  simp [zero]

/-- The slots that the code takes for free are those with nothing live in them. -/
theorem isFree_eq (inside : pos < config.nitem) :
    (slotIsEmpty config data pos || slotIsExpired config elapsed data pos) =
      (entries config data).isFree (dead elapsed) pos := by
  rw [slotIsEmpty_eq inside]
  cases held : entries config data pos with
  | none => simp [Slots.isFree_of_none held]
  | some entry => simp [Slots.isFree_of_some held, slotIsExpired_of_some held]

end Reading

/-! ### Changes of one slot -/

section Changes

variable {config : Config} {data after : Memory} {pos : Nat}

/-- The bytes of different slots lie apart. -/
theorem slotOffset_apart (config : Config) {other : Nat} (different : other ≠ pos) {i : Nat}
    (inside : i < config.itemSize) :
    slotOffset config other + i < slotOffset config pos ∨
      slotOffset config pos + config.itemSize ≤ slotOffset config other + i := by
  unfold slotOffset
  rcases Nat.lt_or_gt_of_ne different with below | above
  · have := Nat.mul_le_mul_right config.itemSize (Nat.succ_le_of_lt below)
    rw [Nat.succ_mul] at this
    omega
  · have := Nat.mul_le_mul_right config.itemSize (Nat.succ_le_of_lt above)
    rw [Nat.succ_mul] at this
    omega

/-- A change of one slot's bytes changes what that slot holds. -/
theorem entries_change (sound : Sound config data) (slot : pos < config.nitem)
    (outside : ∀ address, (address < slotOffset config pos ∨
      slotOffset config pos + config.itemSize ≤ address) → after address = data address)
    (within : TinyItem.entryAt after (slotOffset config pos) ≠ none →
      TinyItem.Inside after (slotOffset config pos) config.itemSize) :
    entries config after = (entries config data).put pos
        (TinyItem.entryAt after (slotOffset config pos)) ∧ Sound config after := by
  have others : ∀ other, other ≠ pos → entries config after other = entries config data other ∧
      (entries config data other ≠ none →
        TinyItem.Inside after (slotOffset config other) config.itemSize) := by
    intro other different
    by_cases inside : other < config.nitem
    · have same := TinyItem.entryAt_congr (Nat.le_of_lt config.header_lt_itemSize)
        (fun held => sound other (by rwa [entries_of_lt inside]))
        fun i below => outside _ (slotOffset_apart config different below)
      rw [entries_of_lt inside, entries_of_lt inside]
      refine ⟨same.1, fun held => same.2 (sound other ?_)⟩
      rwa [entries_of_lt inside]
    · refine ⟨?_, fun held => absurd (if_neg inside) held⟩
      rw [entries, entries, if_neg inside, if_neg inside]
  refine ⟨?_, fun other held => ?_⟩
  · funext other
    by_cases same : other = pos
    · rw [same, Slots.put_self, entries_of_lt slot]
    · rw [Slots.put_of_ne _ _ same, (others other same).1]
  · by_cases same : other = pos
    · rw [same, entries_of_lt slot] at held
      rw [same]
      exact within held
    · exact (others other same).2 (by rwa [← (others other same).1])

theorem entryAt_clearSlot (config : Config) (data : Memory) (pos : Nat) :
    TinyItem.entryAt (clearSlot config data pos) (slotOffset config pos) = none := by
  have size : (List.replicate config.itemSize (0 : UInt8)).length = config.itemSize :=
    List.length_replicate ..
  refine TinyItem.entryAt_zero fun i below => ?_
  have room := config.header_lt_itemSize
  rw [clearSlot, Memory.write_inside (by omega), List.getElem_replicate]

theorem clearSlot_outside (config : Config) (data : Memory) {pos address : Nat}
    (outside : address < slotOffset config pos ∨
      slotOffset config pos + config.itemSize ≤ address) :
    clearSlot config data pos address = data address := by
  rcases outside with below | above
  · exact Memory.write_of_lt below
  · exact Memory.write_of_le (by rwa [List.length_replicate])

theorem entries_clearSlot (sound : Sound config data) (slot : pos < config.nitem) :
    entries config (clearSlot config data pos) = (entries config data).put pos none ∧
      Sound config (clearSlot config data pos) := by
  have empty := entryAt_clearSlot config data pos
  have change := entries_change sound slot (fun _ => clearSlot_outside config data)
    fun held => absurd empty held
  rwa [empty] at change

theorem entries_moveSlot (sound : Sound config data) {source target : Nat}
    (fromSlot : source < config.nitem) (toSlot : target < config.nitem) :
    entries config (moveSlot config data source target) =
        (entries config data).move source target ∧
      Sound config (moveSlot config data source target) := by
  have size := Memory.length_read data (slotOffset config source) config.itemSize
  have copied := TinyItem.entryAt_congr (Nat.le_of_lt config.header_lt_itemSize)
    (fun held => sound source (by rwa [entries_of_lt fromSlot]))
    (fun i below => by
      show data.write (slotOffset config target)
        (data.read (slotOffset config source) config.itemSize) (slotOffset config target + i) =
        data (slotOffset config source + i)
      rw [Memory.write_inside (by omega)]
      simp [Memory.read])
  have change := entries_change sound toSlot
    (fun address outside => by
      rcases outside with below | above
      · exact Memory.write_of_lt below
      · exact Memory.write_of_le (by rwa [size]))
    fun held => copied.2 (sound source (by
      rw [copied.1] at held
      rwa [entries_of_lt fromSlot]))
  rw [copied.1, ← entries_of_lt fromSlot] at change
  have cleared := entries_clearSlot change.2 fromSlot
  rw [change.1] at cleared
  exact cleared

/-- Writing an item that its own header keeps inside the slot. -/
theorem entries_writeSlot (sound : Sound config data) (slot : pos < config.nitem) {key : Bytes}
    {value : Value} {expire : Nat} (short : key.length ≤ 255) (stamp : expire < 2 ^ 32)
    (room : TinyItem.headerSize + key.length + value.length ≤ config.itemSize)
    (fits : TinyItem.headerSize + key.length + TinyItem.storedLength value ≤ config.itemSize) :
    (∃ stored, (TinyItem.Storable value → stored = value) ∧
      entries config (writeSlot config data pos key value expire) = (entries config data).put pos
        (if expire = 0 then none else some ⟨key, stored, expire⟩)) ∧
      Sound config (writeSlot config data pos key value expire) := by
  have written := @TinyItem.entryAt_define key value expire short stamp
    (clearSlot config data pos) (slotOffset config pos)
  have change := @entries_change config data (writeSlot config data pos key value expire) pos sound
    slot
    (fun address outside => by
      rw [writeSlot, TinyItem.define_outside _ (by omega), clearSlot_outside config data outside])
    fun _ => (TinyItem.inside_define short stamp _ _ _).mpr fits
  refine ⟨⟨_, fun storable => TinyItem.value_define short stamp storable
    (clearSlot config data pos) (slotOffset config pos), ?_⟩, change.2⟩
  rw [change.1, writeSlot, written]

/-- Replacing the number of an integer item. -/
theorem entries_setNumber (sound : Sound config data) {entry : TinyEntry} {number : UInt64}
    (held : entries config data pos = some entry) (isNumber : entry.value = .u64 number)
    (changed : UInt64) :
    entries config (TinyItem.setNumber data (slotOffset config pos) changed) =
        (entries config data).put pos (some { entry with value := .u64 changed }) ∧
      Sound config (TinyItem.setNumber data (slotOffset config pos) changed) := by
  have slot := lt_of_entries held
  have inside := sound pos (by rw [held]; exact Option.some_ne_none _)
  have noLength : TinyItem.rawVlen data (slotOffset config pos) = 0 := by
    rw [← (of_entries held).2] at isNumber
    change TinyItem.value data (slotOffset config pos) = _ at isNumber
    unfold TinyItem.value at isNumber
    split at isNumber
    · assumption
    · cases isNumber
  obtain ⟨written, sameVlen, sameKlen⟩ := TinyItem.entryAt_setNumber noLength changed
  have change := @entries_change config data _ pos sound slot
    (fun address outside => TinyItem.setNumber_outside changed noLength inside outside)
    fun _ => by
      unfold TinyItem.Inside TinyItem.valueLen at inside ⊢
      rw [noLength] at inside
      rwa [sameKlen, sameVlen]
  rw [written, ← entries_of_lt slot, held] at change
  exact change

end Changes

/-! ### Displacement -/

/-- What displacement did: nothing, or the moves along a path. -/
inductive Displaced (config : Config) (data : Memory) :
    Option (List Nat) → Bool × Memory → Prop where
  | stuck : Displaced config data none (false, data)
  | along {path : List Nat} {after : Memory} :
      entries config after = (entries config data).unwind path → Sound config after →
      Displaced config data (some path) (true, after)

/-- The path of `displace_from`. -/
def displacePath (config : Config) (elapsed : Nat) (data : Memory) (left pos : Nat) :
    Option (List Nat) :=
  route (dead elapsed) (candidates config) (entries config data) left pos

section Displacement

variable {config : Config} {elapsed : Nat} {data : Memory} {pos : Nat}

/-- A slot that is free already needs no displacement, at most a clearing. -/
theorem displaced_free (sound : Sound config data) (slot : pos < config.nitem)
    {path : Option (List Nat)} {otherwise : Bool × Memory}
    (busy : (entries config data).isFree (dead elapsed) pos = false →
      Displaced config data path otherwise) :
    Displaced config data
      (if (entries config data).isFree (dead elapsed) pos then some [pos] else path)
      (if slotIsEmpty config data pos then (true, data)
        else if slotIsExpired config elapsed data pos then (true, handleExpired config data pos)
        else otherwise) := by
  rw [← isFree_eq slot] at busy ⊢
  by_cases empty : slotIsEmpty config data pos = true
  · rw [if_pos empty, empty, Bool.true_or, if_pos rfl]
    rw [slotIsEmpty_eq slot, Option.isNone_iff_eq_none] at empty
    exact .along (Function.update_eq_self_iff.mpr empty.symm).symm sound
  · rw [if_neg empty, Bool.eq_false_iff.mpr empty, Bool.false_or]
    rw [Bool.eq_false_iff.mpr empty, Bool.false_or] at busy
    by_cases expired : slotIsExpired config elapsed data pos = true
    · rw [if_pos expired, if_pos expired]
      obtain ⟨cleared, sound⟩ := entries_clearSlot sound slot
      exact .along cleared sound
    · rw [if_neg expired, if_neg expired]
      exact busy (Bool.eq_false_iff.mpr expired)

/-- Moving an item to the free slot at the end of a displacement. -/
theorem Displaced.move {path : List Nat} {target : Nat} {after : Memory}
    (displaced : Displaced config data (some (target :: path)) (true, after))
    (slot : pos < config.nitem) (targetSlot : target < config.nitem) :
    Displaced config data (some (pos :: target :: path))
      (true, moveSlot config after pos target) := by
  cases displaced with
  | along same sound =>
    obtain ⟨moved, sound⟩ := entries_moveSlot sound slot targetSlot
    refine .along ?_ sound
    rw [moved, same]
    rfl

theorem displaced_other {displace : Memory → Nat → Bool × Memory}
    {search : Nat → Option (List Nat)} (slot : pos < config.nitem) :
    ∀ alts : List Nat, (∀ alt ∈ alts, alt < config.nitem) →
      (∀ alt ∈ alts, Displaced config data (search alt) (displace data alt)) →
      (∀ alt ∈ alts, ∀ path, search alt = some path → ∃ rest, path = alt :: rest) →
      Displaced config data
        ((alts.findSome? fun alt => if alt = pos then none else search alt).map (pos :: ·))
        (displaceOther config displace pos alts data)
  | [], _, _, _ => .stuck
  | alt :: rest, inside, each, heads => by
    have tail := displaced_other slot rest (fun other member => inside other (.tail _ member))
      (fun other member => each other (.tail _ member))
      fun other member => heads other (.tail _ member)
    have first := each alt (.head _)
    have head := heads alt (.head _)
    rw [List.findSome?_cons, displaceOther]
    by_cases here : alt = pos
    · rw [if_pos here, if_pos here]
      exact tail
    · rw [if_neg here, if_neg here]
      cases found : search alt with
      | none =>
        rw [found] at first
        generalize displace data alt = result at first ⊢
        cases first with
        | stuck => exact tail
      | some path =>
        obtain ⟨path, rfl⟩ := head path found
        rw [found] at first
        generalize displace data alt = result at first ⊢
        cases first with
        | along same sound => exact Displaced.move (.along same sound) slot (inside alt (.head _))

/-- **Displacement is the search for a path and the moves along it.** -/
theorem displaced (sound : Sound config data) (left : Nat) (slot : pos < config.nitem) :
    Displaced config data (displacePath config elapsed data left pos)
      (displaceWithin config elapsed left data pos) := by
  induction left generalizing pos with
  | zero => exact displaced_free sound slot fun _ => .stuck
  | succ left ih =>
    refine displaced_free sound slot fun busy => ?_
    cases held : entries config data pos with
    | none =>
      rw [Slots.isFree_of_none held] at busy
      cases busy
    | some entry =>
      have direct : (positions config entry.key).find? (fun alt => alt ≠ pos &&
          (slotIsEmpty config data alt || slotIsExpired config elapsed data alt)) =
          (candidates config entry).find? fun alt => alt ≠ pos &&
            (entries config data).isFree (dead elapsed) alt :=
        List.find?_congr fun alt member => by rw [isFree_eq (mem_candidates_lt entry alt member)]
      simp only [key_of_entries held, direct]
      cases found : (candidates config entry).find? fun alt => alt ≠ pos &&
          (entries config data).isFree (dead elapsed) alt with
      | some target =>
        have named := mem_candidates_lt entry target (List.mem_of_find?_eq_some found)
        have free := List.find?_some found
        rw [Bool.and_eq_true] at free
        have cleared := @displaced_free config elapsed data target sound named none (false, data)
          fun busy => absurd free.2 (Bool.eq_false_iff.mp busy)
        rw [if_pos free.2] at cleared
        by_cases empty : slotIsEmpty config data target = true
        · simp only [empty, if_true] at cleared ⊢
          exact cleared.move slot named
        · have expired := free.2
          rw [← isFree_eq named, Bool.eq_false_iff.mpr empty, Bool.false_or] at expired
          simp only [empty, expired, if_true] at cleared ⊢
          exact cleared.move slot named
      | none =>
        exact displaced_other slot _ (mem_candidates_lt entry)
          (fun alt member => ih (mem_candidates_lt entry alt member))
          fun alt _ path searched => by
            obtain ⟨rest, same, _⟩ := route_sound searched
            exact ⟨rest, same⟩

end Displacement

/-! ### The slot of an insert -/

/-- The path along which an insert displaces items. -/
def insertPath (config : Config) (elapsed : Nat) (data : Memory) (key : Bytes) :
    Option (List Nat) :=
  (positions config key).findSome? (displacePath config elapsed data config.maxDisplace)

/-- No candidate slot holds the key live. -/
def Absent (config : Config) (elapsed : Nat) (data : Memory) (key : Bytes) : Prop :=
  ∀ pos ∈ positions config key, ∀ entry, entries config data pos = some entry →
    dead elapsed entry = false → entry.key ≠ key

/-- Every candidate slot holds something live. -/
def Full (config : Config) (elapsed : Nat) (data : Memory) (key : Bytes) : Prop :=
  ∀ pos ∈ positions config key, (entries config data).isFree (dead elapsed) pos = false

/-- The slot an insert takes, and what the slots hold when it writes. -/
inductive Chosen (config : Config) (elapsed : Nat) (data : Memory) (key : Bytes) :
    Nat → Slots TinyEntry → Prop where
  | update {pos : Nat} {entry : TinyEntry} : entries config data pos = some entry →
      dead elapsed entry = false → entry.key = key →
      Chosen config elapsed data key pos (entries config data)
  | fresh {pos : Nat} : Absent config elapsed data key → entries config data pos = none →
      Chosen config elapsed data key pos (entries config data)
  | expired {pos : Nat} : Absent config elapsed data key →
      (∀ other ∈ positions config key, entries config data other ≠ none) →
      (positions config key).find? (fun other =>
        (entries config data).isFree (dead elapsed) other) = some pos →
      Chosen config elapsed data key pos ((entries config data).put pos none)
  | displaced {pos : Nat} {rest : List Nat} : Absent config elapsed data key →
      Full config elapsed data key → insertPath config elapsed data key = some (pos :: rest) →
      Chosen config elapsed data key pos ((entries config data).unwind (pos :: rest))
  | evicted {pos : Nat} : Absent config elapsed data key → Full config elapsed data key →
      Chosen config elapsed data key pos ((entries config data).put pos none)

section Insert

variable {config : Config} {elapsed : Nat} {data : Memory} {key : Bytes}

@[simp] theorem length_positions (config : Config) (key : Bytes) :
    (positions config key).length = 4 := by
  simp [positions]

theorem getD_positions_mem {i : Nat} (below : i < 4) :
    (positions config key).getD i 0 ∈ positions config key := by
  rw [List.getD_eq_getElem _ 0 (by rwa [length_positions])]
  exact List.getElem_mem _

/-- The victim is one of the four candidates. -/
theorem selectVictim_lt (draw : UInt64) :
    selectVictim config data draw (positions config key) < 4 := by
  unfold selectVictim
  cases config.policy with
  | random => exact Nat.mod_lt _ (by decide)
  | expire =>
    have best : ∀ (all : List (Nat × Nat)) (best : Nat × Nat), best.1 < 4 →
        (∀ candidate ∈ all, candidate.2 < 4) →
        (all.foldl (fun best candidate => if slotExpire config data candidate.1 < best.2 then
          (candidate.2, slotExpire config data candidate.1) else best) best).1 < 4 := by
      intro all
      induction all with
      | nil => exact fun _ below _ => below
      | cons candidate all ih =>
        intro best below each
        refine ih _ ?_ fun other member => each other (.tail _ member)
        dsimp only
        split
        · exact each candidate (.head _)
        · exact below
    refine best _ _ (by decide) fun candidate member => ?_
    have := List.snd_lt_of_mem_zipIdx member
    rwa [length_positions] at this

/-- Trying the candidates in turn displaces along the first path there is. -/
theorem tryDisplaced (sound : Sound config data) :
    ∀ (all : List Nat) (first : Nat), (∀ pos ∈ all, pos < config.nitem) →
      Displaced config data
        (all.findSome? (displacePath config elapsed data config.maxDisplace))
        ((tryDisplace config elapsed (all.zipIdx first) data).1.isSome,
          (tryDisplace config elapsed (all.zipIdx first) data).2) ∧
      ∀ freed, (tryDisplace config elapsed (all.zipIdx first) data).1 = some freed →
        first ≤ freed ∧ freed - first < all.length ∧
        ∃ rest, all.findSome? (displacePath config elapsed data config.maxDisplace) =
          some (all.getD (freed - first) 0 :: rest)
  | [], _, _ => ⟨.stuck, fun _ none => by cases none⟩
  | pos :: all, first, inside => by
    obtain ⟨later, laterFreed⟩ := tryDisplaced sound all (first + 1)
      fun other member => inside other (.tail _ member)
    have here := @displaced config elapsed data pos sound config.maxDisplace (inside pos (.head _))
    rw [List.findSome?_cons, List.zipIdx_cons, tryDisplace, displaceFrom, Nat.sub_zero]
    cases found : displacePath config elapsed data config.maxDisplace pos with
    | none =>
      rw [found] at here
      generalize displaceWithin config elapsed config.maxDisplace data pos = result at here ⊢
      cases here with
      | stuck =>
        refine ⟨later, fun freed ran => ?_⟩
        obtain ⟨above, below, rest, same⟩ := laterFreed freed ran
        refine ⟨Nat.le_of_succ_le above, ?_, rest, ?_⟩
        · rw [List.length_cons]
          omega
        · rw [same, show freed - first = freed - (first + 1) + 1 by omega, List.getD_cons_succ]
    | some path =>
      obtain ⟨rest, rfl, _⟩ := route_sound found
      rw [found] at here
      generalize displaceWithin config elapsed config.maxDisplace data pos = result at here ⊢
      cases here with
      | along same sound =>
        refine ⟨.along same sound, fun freed ran => ?_⟩
        obtain rfl := Option.some.inj ran
        rw [Nat.sub_self, List.getD_cons_zero]
        exact ⟨Nat.le_refl _, Nat.succ_pos _, rest, rfl⟩

/-- **The slot an insert takes.** -/
theorem chosen (sound : Sound config data) (draw : UInt64) (key : Bytes) :
    ∃ pos updates after,
      findSlotForInsert config elapsed data draw key (positions config key) =
        ((pos, updates), after) ∧
      pos ∈ positions config key ∧ Sound config after ∧
      Chosen config elapsed data key pos (entries config after) := by
  unfold findSlotForInsert
  cases holder : (positions config key).find? fun pos =>
      !(slotIsEmpty config data pos || slotIsExpired config elapsed data pos) &&
        slotKey config data pos = key with
  | some pos =>
    have member := List.mem_of_find?_eq_some holder
    have holds := List.find?_some holder
    rw [Bool.and_eq_true, Bool.not_eq_true', isFree_eq (mem_positions_lt member)] at holds
    refine ⟨pos, true, data, rfl, member, sound, ?_⟩
    cases held : entries config data pos with
    | none =>
      rw [Slots.isFree_of_none held] at holds
      cases holds.1
    | some entry =>
      rw [Slots.isFree_of_some held, key_of_entries held] at holds
      exact .update held holds.1 (of_decide_eq_true holds.2)
  | none =>
    have absent : Absent config elapsed data key := by
      intro pos member entry held alive same
      refine List.find?_eq_none.mp holder pos member ?_
      rw [isFree_eq (mem_positions_lt member), Slots.isFree_of_some held, alive,
        key_of_entries held, same]
      simp
    simp only
    cases empty : (positions config key).find? fun pos => slotIsEmpty config data pos with
    | some pos =>
      have member := List.mem_of_find?_eq_some empty
      have isEmpty := List.find?_some empty
      rw [slotIsEmpty_eq (mem_positions_lt member), Option.isNone_iff_eq_none] at isEmpty
      exact ⟨pos, false, data, rfl, member, sound, .fresh absent isEmpty⟩
    | none =>
      have occupied : ∀ pos ∈ positions config key, entries config data pos ≠ none := by
        intro pos member held
        refine List.find?_eq_none.mp empty pos member ?_
        rw [slotIsEmpty_eq (mem_positions_lt member), held]
        rfl
      have free : (positions config key).find? (fun pos =>
          slotIsExpired config elapsed data pos) =
          (positions config key).find? fun pos =>
            (entries config data).isFree (dead elapsed) pos := by
        refine List.find?_congr fun pos member => ?_
        cases held : entries config data pos with
        | none => exact absurd held (occupied pos member)
        | some entry => rw [slotIsExpired_of_some held, Slots.isFree_of_some held]
      simp only [free]
      cases expired : (positions config key).find? fun pos =>
          (entries config data).isFree (dead elapsed) pos with
      | some pos =>
        have member := List.mem_of_find?_eq_some expired
        obtain ⟨cleared, after⟩ := entries_clearSlot sound (mem_positions_lt member)
        refine ⟨pos, false, handleExpired config data pos, rfl, member, after, ?_⟩
        rw [handleExpired, cleared]
        exact .expired absent occupied expired
      | none =>
        have full : Full config elapsed data key := fun pos member =>
          Bool.eq_false_iff.mpr (List.find?_eq_none.mp expired pos member)
        simp only
        obtain ⟨displaced, index⟩ := @tryDisplaced config elapsed data sound
          (positions config key) 0 fun _ => mem_positions_lt
        generalize tryDisplace config elapsed (positions config key).zipIdx data = result
          at displaced index ⊢
        obtain ⟨outcome, after⟩ := result
        cases outcome with
        | some freed =>
          obtain ⟨_, below, rest, path⟩ := index freed rfl
          rw [Nat.sub_zero] at below path
          rw [length_positions] at below
          refine ⟨_, false, after, rfl, getD_positions_mem below, ?_⟩
          rw [path] at displaced
          cases displaced with
          | along same after =>
            rw [same]
            exact ⟨after, .displaced absent full path⟩
        | none =>
          have member : (positions config key).getD
              (selectVictim config data draw (positions config key)) 0 ∈ positions config key :=
            getD_positions_mem (selectVictim_lt draw)
          have unchanged : after = data := by
            generalize (positions config key).findSome?
              (displacePath config elapsed data config.maxDisplace) = path at displaced
            cases displaced with
            | stuck => rfl
          subst unchanged
          obtain ⟨cleared, sound⟩ := entries_clearSlot sound (mem_positions_lt member)
          refine ⟨_, false, _, rfl, member, sound, ?_⟩
          rw [evictAt, cleared]
          exact .evicted absent full

end Insert

end CacheRs.Cuckoo
