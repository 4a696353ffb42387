/-
**The expiry of an item.**

One 32-bit word holds the second an item expires, counted from the cache's creation. Zero marks an
empty slot, and the largest word an item that never expires; a deadline may come out as either.

* `TreatedAsExpired`: what the operations make of a slot whose item has expired;
* `keepsTime_iff`: **an item keeps its time exactly when its deadline is neither mark**;
* `deadline_marks`: a deadline of zero, and one of the largest word.
-/

import CacheRs.Cuckoo.MapSemantics
import CacheRs.Cuckoo.ItemCodec

namespace CacheRs.Cuckoo

open KeyValue Relocation

/-- The seconds of a time to live that count. -/
def ttlSecs (config : Config) (ttl : Nat) : Nat := min (ttl / 1000000000) config.maxTtl

/-- No deadline, or one that is not mistaken for a mark. -/
def Lasts (config : Config) (elapsed ttl : Nat) : Prop :=
  ttl = 0 ∨ 0 < elapsed + ttlSecs config ttl ∧ elapsed + ttlSecs config ttl < u32Max

instance (config : Config) (elapsed ttl : Nat) : Decidable (Lasts config elapsed ttl) :=
  inferInstanceAs (Decidable (_ ∨ _ ∧ _))

/-- The first candidate that holds the key live: what an insert updates, and what the numeric
operations change. -/
def findLive (config : Config) (cache : Cache) (key : Bytes) : Option Nat :=
  (positions config key).find? fun pos =>
    !(slotIsEmpty config cache.data pos || slotIsExpired config cache.elapsed cache.data pos) &&
      slotKey config cache.data pos = key

/-- No operation serves the slot's item, and an insert may take the slot. -/
structure TreatedAsExpired (config : Config) (cache : Cache) (pos : Nat) : Prop where
  get : ∀ key, findKey config cache key = some pos →
    get config cache key = (none, { cache with data := handleExpired config cache.data pos })
  delete : ∀ key, findKey config cache key = some pos →
    delete config cache key = (false, { cache with data := handleExpired config cache.data pos })
  live : ∀ key, findLive config cache key ≠ some pos
  update : ∀ draw key,
    (findSlotForInsert config cache.elapsed cache.data draw key (positions config key)).1 ≠ (pos, true)
  displace : ∀ depth, displaceFrom config cache.elapsed cache.data pos depth =
    (true, handleExpired config cache.data pos)

/-- What an accepted insert left in the slot it took. -/
structure LeftLive (config : Config) (after : Cache) (pos : Nat) (key : Bytes) (expire : Nat) :
    Prop where
  stamped : slotExpire config after.data pos = expire
  occupied : slotIsEmpty config after.data pos = false
  mortal : slotExpire config after.data pos ≠ u32Max
  unexpired : slotIsExpired config after.elapsed after.data pos = false
  served : findKey config after key = some pos →
    Cuckoo.get config after key = (some (itemOf config after.data pos), after)

/-- An item inserted with this time to live, this many seconds after the cache's creation, lives as
long as it should. -/
structure KeepsTime (config : Config) (elapsed ttl : Nat) : Prop where
  forever : computeExpire config elapsed ttl = u32Max ↔ ttl = 0
  nonzero : computeExpire config elapsed ttl ≠ 0
  stored : 0 < ttl → ∀ cache key value draw, cache.elapsed = elapsed →
    (insert config cache key value ttl draw).1 = .ok () →
    LeftLive config (insert config cache key value ttl draw).2
      (insertedSlot config cache key draw) key (computeExpire config elapsed ttl)
  read : 0 < ttl → ∀ cache map key value draw, cache.elapsed = elapsed →
    Represents config cache map → NoCopyLeft config cache key →
    key.length ≤ 255 → TinyItem.Storable value →
    (insert config cache key value ttl draw).1 = .ok () →
    (get config (insert config cache key value ttl draw).2 key).1 =
      some ⟨key, value, computeExpire config elapsed ttl⟩
  expires : 0 < ttl → ∀ later pos,
    slotExpire config later.data pos = computeExpire config elapsed ttl →
    elapsed + max 1 (ttlSecs config ttl) < later.elapsed → TreatedAsExpired config later pos

section Expiry

variable {config : Config} {cache : Cache} {elapsed ttl pos : Nat} {key : Bytes} {value : Value}

theorem computeExpire_of_pos (mortal : 0 < ttl) :
    computeExpire config elapsed ttl = min (elapsed + ttlSecs config ttl) u32Max :=
  if_neg (Nat.pos_iff_ne_zero.mp mortal)

/-- Between the marks, the word is the deadline. -/
theorem Lasts.deadline (lasts : Lasts config elapsed ttl) (mortal : 0 < ttl) :
    computeExpire config elapsed ttl = elapsed + ttlSecs config ttl ∧
      computeExpire config elapsed ttl ≠ 0 ∧ computeExpire config elapsed ttl ≠ u32Max := by
  rw [computeExpire_of_pos mortal]
  rcases lasts with zero | ⟨positive, below⟩
  · omega
  · omega

theorem slotIsExpired_eq (nonzero : slotExpire config cache.data pos ≠ 0)
    (mortal : slotExpire config cache.data pos ≠ u32Max) :
    slotIsExpired config elapsed cache.data pos =
      decide (slotExpire config cache.data pos < elapsed) := by
  simp [slotIsExpired, nonzero, mortal]

/-- Only the first pass of an insert reports an update: of the slot that holds the key live. -/
theorem findLive_of_update {draw : UInt64}
    (updates : (findSlotForInsert config cache.elapsed cache.data draw key
      (positions config key)).1 = (pos, true)) : findLive config cache key = some pos := by
  unfold findSlotForInsert at updates
  unfold findLive
  split at updates
  · rename_i holder found
    obtain ⟨rfl, -⟩ := Prod.mk.inj updates
    exact found
  · split at updates
    · cases updates
    · split at updates
      · cases updates
      · split at updates <;> cases updates

/-- What is expired is served by no operation. -/
theorem treatedAsExpired (expired : slotIsExpired config cache.elapsed cache.data pos = true) :
    TreatedAsExpired config cache pos := by
  have occupied : slotIsEmpty config cache.data pos = false := by
    cases empty : slotIsEmpty config cache.data pos with
    | false => rfl
    | true =>
      rw [slotIsEmpty, decide_eq_true_eq] at empty
      simp [slotIsExpired, empty] at expired
  have live : ∀ key, findLive config cache key ≠ some pos := fun key found => by
    have holds := List.find?_some found
    simp [expired] at holds
  refine ⟨fun key found => ?_, fun key found => ?_, live,
    fun draw key updates => live key (findLive_of_update updates), fun depth => ?_⟩
  · unfold get
    rw [found]
    exact if_pos expired
  · unfold delete
    rw [found]
    exact if_pos expired
  · unfold displaceFrom
    cases config.maxDisplace - depth <;> simp [displaceWithin, occupied, expired]

/-- The slot an accepted insert wrote carries the deadline. -/
theorem slotExpire_inserted {draw : UInt64}
    (accepted : (insert config cache key value ttl draw).1 = .ok ()) :
    slotExpire config (insert config cache key value ttl draw).2.data
      (insertedSlot config cache key draw) = computeExpire config cache.elapsed ttl := by
  obtain ⟨-, memory, data⟩ := inserted accepted
  rw [slotExpire, data]
  exact TinyItem.expire_define (computeExpire_lt config cache.elapsed ttl) memory _

/-- An insert takes no time. -/
theorem elapsed_insert (draw : UInt64) :
    (insert config cache key value ttl draw).2.elapsed = cache.elapsed := by
  unfold insert
  dsimp only
  split <;> rfl

theorem leftLive (lasts : Lasts config cache.elapsed ttl) (mortal : 0 < ttl) {draw : UInt64}
    (accepted : (insert config cache key value ttl draw).1 = .ok ()) :
    LeftLive config (insert config cache key value ttl draw).2
      (insertedSlot config cache key draw) key (computeExpire config cache.elapsed ttl) := by
  obtain ⟨deadline, nonzero, unmarked⟩ := lasts.deadline mortal
  have stamped := slotExpire_inserted accepted
  have unexpired : slotIsExpired config (insert config cache key value ttl draw).2.elapsed
      (insert config cache key value ttl draw).2.data (insertedSlot config cache key draw) =
        false := by
    rw [elapsed_insert, slotIsExpired_eq (by rwa [stamped]) (by rwa [stamped]), stamped, deadline]
    exact decide_eq_false (by omega)
  refine ⟨stamped, ?_, by rwa [stamped], unexpired, fun found => ?_⟩
  · rw [slotIsEmpty, stamped]
    exact decide_eq_false nonzero
  · unfold get
    rw [found]
    exact if_neg (by rw [unexpired]; decide)

/-- **A new item is read at once**, where the cache stood for a map and no expired copy of the key is
left behind. -/
theorem get_inserted (lasts : Lasts config cache.elapsed ttl) (mortal : 0 < ttl) {map : Map}
    (rep : Represents config cache map) (noCopy : NoCopyLeft config cache key)
    (short : key.length ≤ 255) (storable : TinyItem.Storable value) {draw : UInt64}
    (accepted : (insert config cache key value ttl draw).1 = .ok ()) :
    (get config (insert config cache key value ttl draw).2 key).1 =
      some ⟨key, value, computeExpire config cache.elapsed ttl⟩ := by
  obtain ⟨deadline, nonzero, unmarked⟩ := lasts.deadline mortal
  have room := (inserted accepted).1
  obtain ⟨-, sound, elapsed, pos, slots, stored, member, chosen, same, written⟩ :=
    insert_effect rep.well.sound draw short room (by rwa [storable.vlen.2])
  rw [if_neg nonzero, same storable] at written
  set after := (insert config cache key value ttl draw).2
  have here : entries config after.data pos =
      some ⟨key, value, computeExpire config cache.elapsed ttl⟩ := by
    rw [written, Slots.put_self]
  have others : ∀ other entry, entries config after.data other = some entry → entry.key = key →
      other = pos := by
    intro other entry held sameKey
    by_contra different
    rw [written, Slots.put_of_ne _ _ different] at held
    exact chosen.others rep noCopy member other different entry held sameKey
  obtain ⟨found, slots, looked, answer, -⟩ := get_effect sound key
  rw [answer]
  cases looked with
  | missing absent => exact absurd rfl (absent pos member _ here)
  | expired held sameKey gone =>
    obtain rfl := others _ _ held sameKey
    rw [here] at held
    obtain rfl := Option.some.inj held
    rw [dead, Bool.and_eq_true] at gone
    have past : computeExpire config cache.elapsed ttl < after.elapsed := of_decide_eq_true gone.2
    rw [deadline, elapsed] at past
    omega
  | found held sameKey alive =>
    obtain rfl := others _ _ held sameKey
    rw [here] at held
    exact held.symm

/-- **An item keeps its time exactly when its deadline is neither mark.** -/
theorem keepsTime_iff (config : Config) (cache : Cache) (ttl : Nat) :
    KeepsTime config cache.elapsed ttl ↔ Lasts config cache.elapsed ttl := by
  constructor
  · intro keeps
    rcases Nat.eq_zero_or_pos ttl with zero | mortal
    · exact .inl zero
    · have nonzero := keeps.nonzero
      have forever := keeps.forever
      rw [computeExpire_of_pos mortal] at nonzero forever
      have : u32Max = 4294967295 := rfl
      exact .inr (by omega)
  · intro lasts
    refine ⟨⟨fun marked => ?_, fun zero => if_pos zero⟩, ?_, ?_, ?_, ?_⟩
    · by_contra mortal
      exact (lasts.deadline (Nat.pos_of_ne_zero mortal)).2.2 marked
    · rcases Nat.eq_zero_or_pos ttl with zero | mortal
      · rw [computeExpire, if_pos zero]
        decide
      · exact (lasts.deadline mortal).2.1
    · intro mortal other key value draw same accepted
      rw [← same] at lasts ⊢
      exact leftLive lasts mortal accepted
    · intro mortal other map key value draw same rep noCopy short storable accepted
      rw [← same] at lasts ⊢
      exact get_inserted lasts mortal rep noCopy short storable accepted
    · intro mortal later pos stamped past
      obtain ⟨deadline, nonzero, unmarked⟩ := lasts.deadline mortal
      refine treatedAsExpired ?_
      rw [slotIsExpired_eq (by rwa [stamped]) (by rwa [stamped]), stamped, deadline]
      exact decide_eq_true (by omega)

end Expiry

/-- Time to live up to the whole range of seconds. -/
def longLived : Config := { tightConfig with maxTtl := u32Max, maxTtl_le := Nat.le_refl _ }

/-- **Deadlines that are marks.** Half a second to live, in the cache's first second: the slot reads as
empty, and the insert that was accepted is not found. A deadline of the last second or beyond: the item
never expires. -/
theorem deadline_marks :
    (¬ KeepsTime tightConfig fromBuilder.elapsed 500000000 ∧
      answers tightConfig [.insert [107] (.bytes [118]) 500000000 0, .get [107]] fromBuilder =
        [.inserted (.ok ()), .item none]) ∧
    ¬ KeepsTime longLived (advance fromBuilder 1).elapsed (u32Max * 1000000000) ∧
      slotExpire longLived (insert longLived (advance fromBuilder 1) [107] (.bytes [118])
        (u32Max * 1000000000) 0).2.data 0 = u32Max := by
  refine ⟨⟨fun keeps => keeps.nonzero (by decide), by decide +kernel⟩, fun keeps => ?_,
    by decide +kernel⟩
  exact absurd (keeps.forever.mp (by decide)) (by decide)

end CacheRs.Cuckoo
