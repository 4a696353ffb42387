/-
**Entries, and what the threads of the table agree on.**

An entry of a key is a live slot whose location holds the key. The history remembers which locations
a thread has in hand, who holds each stripe lock, and which keys had no entry at some instant of a
thread's call. A slot word is swapped in three ways: it keeps its key, it stops being live, or the
holder of the stripe creates the entry of a key that has none.

* `record`: the history after a step;
* `Consistent`: the invariant, with at most one entry a key;
* `Rely`: what a thread may assume of the others' steps;
* `sound_keep`, `sound_drop`, `sound_create`: the three swaps keep the table sound.
-/

import CacheRs.Hashtable.Table

set_option linter.unusedSectionVars false

namespace CacheRs.Hashtable

open Concurrency

variable {Tid Key : Type} [DecidableEq Tid] [DecidableEq Key]

namespace Shared

/-- The slot is live and its location holds the key. -/
def HasEntry (state : Shared Key) (bucket index : Nat) (key : Key) : Prop :=
  (state.slot bucket index).isLive = true ∧
    state.item (state.slot bucket index).location = some key

def NoEntry (state : Shared Key) (key : Key) : Prop :=
  ∀ bucket index, ¬ state.HasEntry bucket index key

/-- Some slot of the table publishes the location. -/
def Names (geometry : Geometry Key) (state : Shared Key) (location : Location) : Prop :=
  ∃ bucket < geometry.numBuckets, ∃ index < 8,
    (state.slot bucket index).isLive = true ∧ (state.slot bucket index).location = location

instance (geometry : Geometry Key) (state : Shared Key) (location : Location) :
    Decidable (state.Names geometry location) := by
  unfold Names
  infer_instance

end Shared

namespace Operation

/-- The key a call is about; for a change of the storage, the key stored. -/
def key? : Operation Key → Option Key
  | .insert key _ | .remove key _ | .convertToGhost key _ | .casLocation key _ _ _
  | .casLocationAt key _ _ _ _ | .lookup key | .lookupNoFreqUpdate key | .store _ key => some key
  | .setReadable _ _ => none

/-- The locations handed to a call as locations of its key. -/
def handed : Operation Key → List Location
  | .insert _ location => [location]
  | .casLocation _ oldLocation newLocation _ | .casLocationAt _ _ oldLocation newLocation _ =>
    [oldLocation, newLocation]
  | _ => []

end Operation

/-! ### The history -/

/-- An answer, with whether its key had no entry at some instant of the call, and at one at which
the caller held the key's stripe lock. -/
structure Answered (Tid Key : Type) where
  thread : Tid
  key : Key
  answer : Answer
  absent : Prop
  absentLocked : Prop

structure History (Tid Key : Type) where
  /-- The locations a running call was handed or loaded. -/
  hand : Tid → List Location
  absent : Tid → Key → Prop
  absentLocked : Tid → Key → Prop
  holder : Nat → Option Tid
  answers : List (Answered Tid Key)

namespace History

/-- The history before anything has happened. -/
def new : History Tid Key := ⟨fun _ => [], fun _ _ => False, fun _ _ => False, fun _ => none, []⟩

/-- Note which keys have no entry at this instant. -/
def advance (geometry : Geometry Key) (state : Shared Key) (history : History Tid Key) :
    History Tid Key :=
  { history with
    absent := fun t key => history.absent t key ∨ state.NoEntry key
    absentLocked := fun t key => history.absentLocked t key ∨
      (history.holder (geometry.stripe key) = some t ∧ state.NoEntry key) }

end History

/-- The history after a step of thread `t`. -/
def record (geometry : Geometry Key) (t : Tid) (label : Label Key) (state : Shared Key)
    (history : History Tid Key) : History Tid Key :=
  let history := history.advance geometry state
  match label with
  | .other | .exchange .. | .store .. => history
  | .load bucket index => { history with
      hand := Function.update history.hand t
        ((state.slot bucket index).location :: history.hand t) }
  | .lock stripe => { history with holder := Function.update history.holder stripe (some t) }
  | .unlock stripe => { history with holder := Function.update history.holder stripe none }
  | .call operation => { history with
      hand := Function.update history.hand t operation.handed
      absent := Function.update history.absent t state.NoEntry
      absentLocked := Function.update history.absentLocked t fun _ => False }
  | .respond key answer => { history with
      hand := Function.update history.hand t []
      answers := ⟨t, key, answer, history.absent t key, history.absentLocked t key⟩ ::
        history.answers }

/-- A label that neither begins nor ends a call and leaves the stripe locks alone. -/
def Label.isCalm : Label Key → Bool
  | .other | .load .. | .exchange .. | .store .. => true
  | _ => false

/-- The world of the table's threads. -/
abbrev TableWorld (Tid Key : Type) := World (Shared Key) (History Tid Key)

/-- The key had no entry at some instant of the thread's call, the present one included. -/
def Gone (t : Tid) (key : Key) (world : TableWorld Tid Key) : Prop :=
  world.history.absent t key ∨ world.shared.NoEntry key

/-! ### The invariant -/

/-- Every live slot is an entry of one key, where that key's scans look; no key has two. -/
structure Shared.Sound (geometry : Geometry Key) (state : Shared Key) : Prop where
  placed : ∀ bucket index, (state.slot bucket index).isLive = true → ∃ key,
    state.item (state.slot bucket index).location = some key ∧
    (state.slot bucket index).tag = geometry.tag key ∧
    bucket ∈ geometry.choices key ∧ index < 8
  unique : ∀ key bucket index bucket' index', state.HasEntry bucket index key →
    state.HasEntry bucket' index' key → bucket = bucket' ∧ index = index'
  real : ∀ location key, state.item location = some key →
    location ≠ 0 ∧ location ≠ Location.ghost

/-- A created entry had none before it, an absent key was absent. -/
def Answered.Truthful (answered : Answered Tid Key) : Prop :=
  (answered.answer = .inserted (some .created) → answered.absentLocked) ∧
    (answered.answer = .looked .absent → answered.absent)

structure Consistent (geometry : Geometry Key) (world : TableWorld Tid Key) : Prop where
  sound : world.shared.Sound geometry
  locks : ∀ stripe t, world.history.holder stripe = some t → world.shared.locked stripe = true
  truthful : ∀ answered ∈ world.history.answers, answered.Truthful

/-! ### The rely -/

/-- What thread `t` may assume of the other threads' steps. -/
structure Rely (geometry : Geometry Key) (t : Tid) (world after : TableWorld Tid Key) : Prop where
  hand : ∀ location ∈ world.history.hand t, location ∈ after.history.hand t
  item : ∀ location ∈ world.history.hand t,
    after.shared.item location = world.shared.item location
  holder : ∀ stripe, world.history.holder stripe = some t → after.history.holder stripe = some t
  fresh : ∀ key, world.history.holder (geometry.stripe key) = some t → ∀ bucket index,
    after.shared.HasEntry bucket index key → world.shared.HasEntry bucket index key
  gone : ∀ key, Gone t key world → Gone t key after
  stays : ∀ key bucket index, world.shared.HasEntry bucket index key →
    after.shared.HasEntry bucket index key ∨ Gone t key after
  locked : ∀ key, world.history.absentLocked t key → after.history.absentLocked t key

section Rely

variable {geometry : Geometry Key} {t : Tid} {world middle after : TableWorld Tid Key}

theorem Rely.refl (world : TableWorld Tid Key) : Rely geometry t world world :=
  ⟨fun _ member => member, fun _ _ => rfl, fun _ mine => mine, fun _ _ _ _ entry => entry,
    fun _ gone => gone, fun _ _ _ entry => .inl entry, fun _ seen => seen⟩

theorem Rely.trans (first : Rely geometry t world middle) (second : Rely geometry t middle after) :
    Rely geometry t world after := by
  refine ⟨fun location member => second.hand location (first.hand location member),
    fun location member => ?_, fun stripe mine => second.holder stripe (first.holder stripe mine),
    fun key mine bucket index entry => ?_, fun key gone => second.gone key (first.gone key gone),
    fun key bucket index entry => ?_, fun key seen => second.locked key (first.locked key seen)⟩
  · rw [second.item location (first.hand location member), first.item location member]
  · exact first.fresh key mine bucket index
      (second.fresh key (first.holder _ mine) bucket index entry)
  · rcases first.stays key bucket index entry with still | gone
    · exact second.stays key bucket index still
    · exact .inr (second.gone key gone)

end Rely

/-! ### The three swaps -/

section Swaps

variable {geometry : Geometry Key} {state : Shared Key} {bucket index : Nat} {new : Packed}

/-- A slot's new word publishes nothing, or publishes a location of the same key. -/
def Swaps (state : Shared Key) (current new : Packed) : Prop :=
  new.isLive = false ∨ (current.isLive = true ∧ new.isLive = true ∧ new.tag = current.tag ∧
    state.item new.location = state.item current.location)

theorem hasEntry_setSlot {b i : Nat} {key : Key} :
    (state.setSlot bucket index new).HasEntry b i key ↔
      if b = bucket ∧ i = index then new.isLive = true ∧ state.item new.location = some key
      else state.HasEntry b i key := by
  unfold Shared.HasEntry
  rw [Shared.setSlot_slot]
  split <;> rfl

/-- A word of the same key in place of another moves no entry. -/
theorem hasEntry_keep (was : (state.slot bucket index).isLive = true) (live : new.isLive = true)
    (same : state.item new.location = state.item (state.slot bucket index).location)
    {b i : Nat} {key : Key} :
    (state.setSlot bucket index new).HasEntry b i key ↔ state.HasEntry b i key := by
  rw [hasEntry_setSlot]
  split
  · rename_i here
    obtain ⟨rfl, rfl⟩ := here
    rw [same]
    simp [Shared.HasEntry, was, live]
  · rfl

theorem hasEntry_drop (dead : new.isLive = false) {b i : Nat} {key : Key} :
    (state.setSlot bucket index new).HasEntry b i key ↔
      ¬ (b = bucket ∧ i = index) ∧ state.HasEntry b i key := by
  rw [hasEntry_setSlot]
  split <;> simp_all

theorem hasEntry_create (free : (state.slot bucket index).isLive = false)
    (live : new.isLive = true) {held : Key} (holds : state.item new.location = some held)
    {b i : Nat} {key : Key} :
    (state.setSlot bucket index new).HasEntry b i key ↔
      state.HasEntry b i key ∨ (b = bucket ∧ i = index ∧ key = held) := by
  rw [hasEntry_setSlot]
  split
  · rename_i here
    obtain ⟨rfl, rfl⟩ := here
    simp [Shared.HasEntry, free, live, holds, eq_comm]
  · rename_i elsewhere
    constructor
    · exact .inl
    · rintro (entry | ⟨sameBucket, sameIndex, _⟩)
      · exact entry
      · exact absurd ⟨sameBucket, sameIndex⟩ elsewhere

theorem sound_keep (sound : state.Sound geometry) (was : (state.slot bucket index).isLive = true)
    (live : new.isLive = true) (tag : new.tag = (state.slot bucket index).tag)
    (same : state.item new.location = state.item (state.slot bucket index).location) :
    (state.setSlot bucket index new).Sound geometry := by
  refine ⟨fun b i used => ?_, fun key b i b' i' one other => ?_, sound.real⟩
  · rw [Shared.setSlot_slot] at used ⊢
    split at used
    · rename_i here
      obtain ⟨rfl, rfl⟩ := here
      obtain ⟨key, holds, tagged, choice, inside⟩ := sound.placed b i was
      rw [if_pos ⟨rfl, rfl⟩]
      exact ⟨key, same.trans holds, tag.trans tagged, choice, inside⟩
    · rename_i elsewhere
      rw [if_neg elsewhere]
      exact sound.placed b i used
  · exact sound.unique key b i b' i' ((hasEntry_keep was live same).mp one)
      ((hasEntry_keep was live same).mp other)

theorem sound_drop (sound : state.Sound geometry) (dead : new.isLive = false) :
    (state.setSlot bucket index new).Sound geometry := by
  refine ⟨fun b i used => ?_, fun key b i b' i' one other => ?_, sound.real⟩
  · rw [Shared.setSlot_slot] at used ⊢
    split at used
    · rw [dead] at used
      cases used
    · rename_i elsewhere
      rw [if_neg elsewhere]
      exact sound.placed b i used
  · exact sound.unique key b i b' i' ((hasEntry_drop dead).mp one).2
      ((hasEntry_drop dead).mp other).2

theorem sound_create {key : Key} (sound : state.Sound geometry)
    (free : (state.slot bucket index).isLive = false) (live : new.isLive = true)
    (holds : state.item new.location = some key) (tag : new.tag = geometry.tag key)
    (choice : bucket ∈ geometry.choices key) (inside : index < 8) (none : state.NoEntry key) :
    (state.setSlot bucket index new).Sound geometry := by
  refine ⟨fun b i used => ?_, fun other b i b' i' one two => ?_, sound.real⟩
  · rw [Shared.setSlot_slot] at used ⊢
    split at used
    · rename_i here
      obtain ⟨rfl, rfl⟩ := here
      rw [if_pos ⟨rfl, rfl⟩]
      exact ⟨key, holds, tag, choice, inside⟩
    · rename_i elsewhere
      rw [if_neg elsewhere]
      exact sound.placed b i used
  · rcases (hasEntry_create free live holds).mp one with old | ⟨rfl, rfl, rfl⟩ <;>
      rcases (hasEntry_create free live holds).mp two with old' | ⟨rfl, rfl, same⟩
    · exact sound.unique other b i b' i' old old'
    · exact absurd (same ▸ old) (none b i)
    · exact absurd old' (none b' i')
    · exact ⟨rfl, rfl⟩

/-- The entry of a slot that stops being live was its key's only one. -/
theorem stays_drop (sound : state.Sound geometry) (dead : new.isLive = false) {key : Key}
    {b i : Nat} (entry : state.HasEntry b i key) :
    (state.setSlot bucket index new).HasEntry b i key ∨
      (state.setSlot bucket index new).NoEntry key := by
  by_cases here : b = bucket ∧ i = index
  · obtain ⟨rfl, rfl⟩ := here
    refine .inr fun b' i' other => ?_
    obtain ⟨elsewhere, old⟩ := (hasEntry_drop dead).mp other
    obtain ⟨sameBucket, sameIndex⟩ := sound.unique key b i b' i' entry old
    exact elsewhere ⟨sameBucket.symm, sameIndex.symm⟩
  · exact .inl ((hasEntry_drop dead).mpr ⟨here, entry⟩)

end Swaps

end CacheRs.Hashtable
