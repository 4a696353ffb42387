/-
**The ghost queue.**

The hashes of recently evicted items, in a queue for their order and in a set for the lookups. An
insert into a full set drops from the queue's front; a removal only touches the set. What they are for
is a bounded list without duplicates in the order of insertion (`Recent`).

* `GhostQueue.contains_foldl_insert`: a member stays one while the set has room for every insert;
* `GhostQueue.Refines.insert`: an insert does to the pair what it does to the list;
* `GhostQueue.refines_iff`: **a run agrees with the list at every state exactly when it never removes
  a member**;
* `GhostQueue.revived_run`: what a removal leaves in the queue drops a newer entry of the same hash.
-/

import Mathlib

namespace CacheRs.Eviction

/-! ### Bounded lists in order of insertion -/

/-- At most `capacity` distinct hashes, the oldest first. -/
structure Recent (capacity : Nat) where
  hashes : List UInt64
  nodup : hashes.Nodup
  bounded : hashes.length ≤ capacity

namespace Recent

variable {capacity : Nat}

def empty (capacity : Nat) : Recent capacity := ⟨[], List.nodup_nil, Nat.zero_le _⟩

/-- What an insert of a non-member leaves to append to: a full list loses its oldest hash. -/
def room (recent : Recent capacity) : List UInt64 :=
  if recent.hashes.length < capacity then recent.hashes else recent.hashes.tail

theorem room_nodup (recent : Recent capacity) : recent.room.Nodup := by
  unfold room
  split
  · exact recent.nodup
  · exact recent.nodup.sublist (List.tail_sublist _)

theorem room_subset (recent : Recent capacity) : recent.room ⊆ recent.hashes := by
  unfold room
  split
  · exact List.Subset.refl _
  · exact List.tail_subset _

theorem length_room_lt (positive : 0 < capacity) (recent : Recent capacity) :
    recent.room.length < capacity := by
  have bounded := recent.bounded
  unfold room
  split
  · assumption
  · rw [List.length_tail]
    omega

theorem appended_nodup {recent : Recent capacity} {hash : UInt64} (outside : hash ∉ recent.hashes) :
    (recent.room ++ [hash]).Nodup := by
  rw [List.nodup_append]
  refine ⟨recent.room_nodup, List.nodup_singleton hash, fun other old _ new same => ?_⟩
  rw [List.mem_singleton] at new
  exact outside (new ▸ same ▸ recent.room_subset old)

theorem length_appended_le (positive : 0 < capacity) (recent : Recent capacity) (hash : UInt64) :
    (recent.room ++ [hash]).length ≤ capacity := by
  have := length_room_lt positive recent
  rw [List.length_append, List.length_singleton]
  omega

/-- Inserting a member changes nothing. -/
def insert (positive : 0 < capacity) (recent : Recent capacity) (hash : UInt64) : Recent capacity :=
  if inside : hash ∈ recent.hashes then recent
  else ⟨recent.room ++ [hash], appended_nodup inside, length_appended_le positive recent hash⟩

def remove (recent : Recent capacity) (hash : UInt64) : Recent capacity where
  hashes := recent.hashes.erase hash
  nodup := recent.nodup.erase hash
  bounded := List.length_erase_le.trans recent.bounded

end Recent

/-! ### The queue and the set -/

structure GhostQueue where
  queue : List UInt64
  set : Finset UInt64
  capacity : Nat
  deriving DecidableEq

namespace GhostQueue

def new (capacity : Nat) : GhostQueue := ⟨[], ∅, capacity⟩

variable (ghost : GhostQueue) (hash : UInt64)

def contains : Bool := hash ∈ ghost.set

/-- Pop the queue's front, and drop it from the set, while the set is full. -/
def makeRoom (capacity : Nat) : List UInt64 → Finset UInt64 → List UInt64 × Finset UInt64
  | [], set => ([], set)
  | old :: queue, set =>
    if set.card ≥ capacity then makeRoom capacity queue (set.erase old) else (old :: queue, set)

def insert : GhostQueue :=
  if ghost.contains hash then ghost
  else
    let (queue, set) := makeRoom ghost.capacity ghost.queue ghost.set
    { ghost with queue := queue ++ [hash], set := Insert.insert hash set }

def remove : GhostQueue := { ghost with set := ghost.set.erase hash }

/-! ### Several inserts -/

section Inserts

variable {ghost : GhostQueue} {hash other : UInt64}

@[simp] theorem insert_capacity : (ghost.insert hash).capacity = ghost.capacity := by
  unfold GhostQueue.insert
  split <;> rfl

theorem contains_insert : (ghost.insert hash).contains hash = true := by
  unfold GhostQueue.insert
  split
  · assumption
  · simp [contains]

theorem makeRoom_of_room {capacity : Nat} {set : Finset UInt64} (room : set.card < capacity)
    (queue : List UInt64) : makeRoom capacity queue set = (queue, set) := by
  cases queue with
  | nil => rfl
  | cons old queue => rw [makeRoom, if_neg (not_le.mpr room)]

/-- With room to spare, an insert drops nothing. -/
theorem insert_of_room (room : ghost.set.card < ghost.capacity) :
    (ghost.insert hash).set = Insert.insert hash ghost.set := by
  unfold GhostQueue.insert
  by_cases inside : ghost.contains hash = true
  · rw [if_pos inside]
    exact (Finset.insert_eq_of_mem (of_decide_eq_true inside)).symm
  · rw [if_neg inside, makeRoom_of_room room]

/-- **A member stays one while the set has room for every insert.** -/
theorem contains_foldl_insert (hashes : List UInt64) (member : ghost.contains other = true)
    (room : ghost.set.card + hashes.length ≤ ghost.capacity) :
    (hashes.foldl GhostQueue.insert ghost).contains other = true := by
  induction hashes generalizing ghost with
  | nil => exact member
  | cons hash hashes ih =>
    rw [List.length_cons] at room
    have inserted := @insert_of_room ghost hash (by omega)
    have card := Finset.card_insert_le hash ghost.set
    apply ih
    · unfold contains at member ⊢
      rw [inserted]
      simpa using .inr (of_decide_eq_true member)
    · rw [inserted, insert_capacity]
      omega

end Inserts

/-- A call that changes the queue. -/
inductive Call where
  | insert (hash : UInt64)
  | remove (hash : UInt64)
  deriving DecidableEq, Repr

def call : Call → GhostQueue
  | .insert hash => ghost.insert hash
  | .remove hash => ghost.remove hash

def run (ghost : GhostQueue) (calls : List Call) : GhostQueue := calls.foldl call ghost

/-! ### Refinement -/

/-- The queue and the set hold a list's hashes, in its order. -/
structure Refines {capacity : Nat} (ghost : GhostQueue) (recent : Recent capacity) : Prop where
  queue : ghost.queue = recent.hashes
  set : ghost.set = recent.hashes.toFinset
  capacity : ghost.capacity = capacity

/-- The call on the list. -/
def Call.onRecent {capacity : Nat} (positive : 0 < capacity) (recent : Recent capacity) :
    Call → Recent capacity
  | .insert hash => recent.insert positive hash
  | .remove hash => recent.remove hash

/-- The list after a run of calls. -/
def Call.recent {capacity : Nat} (positive : 0 < capacity) (calls : List Call) : Recent capacity :=
  calls.foldl (Call.onRecent positive) (.empty capacity)

/-- A call that does not remove a member. -/
def Keeps (ghost : GhostQueue) (call : Call) : Prop :=
  ∀ hash, call = .remove hash → ghost.contains hash = false

section Steps

variable {capacity : Nat} {ghost : GhostQueue} {recent : Recent capacity} {hash : UInt64}

theorem Refines.new : Refines (.new capacity) (.empty capacity) := ⟨rfl, rfl, rfl⟩

/-- Membership in the set is membership in the list. -/
theorem Refines.contains (refines : Refines ghost recent) :
    ghost.contains hash = true ↔ hash ∈ recent.hashes := by
  rw [GhostQueue.contains, refines.set, decide_eq_true_iff, List.mem_toFinset]

/-- A set in step with its queue needs at most one pop. -/
theorem makeRoom_eq (recent : Recent capacity) :
    makeRoom capacity recent.hashes recent.hashes.toFinset = (recent.room, recent.room.toFinset) := by
  obtain ⟨hashes, nodup, bounded⟩ := recent
  have card : hashes.toFinset.card = hashes.length := List.toFinset_card_of_nodup nodup
  unfold Recent.room
  cases hashes with
  | nil => simp [makeRoom]
  | cons old rest =>
    by_cases below : (old :: rest).length < capacity
    · rw [makeRoom, card, if_neg (by omega), if_pos below]
    · rw [makeRoom, card, if_pos (by omega), if_neg below]
      obtain ⟨outside, nodupRest⟩ := List.nodup_cons.mp nodup
      have erased : (old :: rest).toFinset.erase old = rest.toFinset := by
        rw [List.toFinset_cons, Finset.erase_insert (by simpa using outside)]
      rw [erased, List.tail_cons]
      cases rest with
      | nil => simp [makeRoom]
      | cons second rest =>
        have cardRest := List.toFinset_card_of_nodup nodupRest
        rw [List.length_cons] at bounded
        rw [makeRoom, cardRest, if_neg (by omega)]

/-- **An insert does to the pair what it does to the list.** -/
theorem Refines.insert (positive : 0 < capacity) (refines : Refines ghost recent) (hash : UInt64) :
    Refines (ghost.insert hash) (recent.insert positive hash) := by
  unfold GhostQueue.insert Recent.insert
  by_cases inside : hash ∈ recent.hashes
  · rw [if_pos (refines.contains.mpr inside), dif_pos inside]
    exact refines
  · have outside : ¬ ghost.contains hash = true := fun member => inside (refines.contains.mp member)
    rw [if_neg outside, dif_neg inside, refines.queue, refines.set, refines.capacity,
      makeRoom_eq]
    refine ⟨rfl, ?_, rfl⟩
    show Insert.insert hash recent.room.toFinset = (recent.room ++ [hash]).toFinset
    rw [List.toFinset_append, List.toFinset_cons, List.toFinset_nil, Finset.union_insert,
      Finset.union_empty]

/-- A removal keeps the pair in step with the list exactly if the hash is no member. -/
theorem Refines.remove_iff (refines : Refines ghost recent) (hash : UInt64) :
    Refines (ghost.remove hash) (recent.remove hash) ↔ ghost.contains hash = false := by
  rw [Bool.eq_false_iff, Ne, refines.contains]
  constructor
  · intro after inside
    have same : recent.hashes = recent.hashes.erase hash := refines.queue.symm.trans after.queue
    have shorter := List.length_erase_of_mem inside
    rw [← same] at shorter
    have := List.length_pos_of_mem inside
    omega
  · intro outside
    refine ⟨?_, ?_, refines.capacity⟩
    · exact refines.queue.trans (List.erase_of_not_mem outside).symm
    · show ghost.set.erase hash = (recent.hashes.erase hash).toFinset
      rw [List.erase_of_not_mem outside, refines.set,
        Finset.erase_eq_of_notMem (by simpa using outside)]

/-- **One call keeps the pair in step with the list exactly if it does not remove a member.** -/
theorem Refines.call_iff (positive : 0 < capacity) (refines : Refines ghost recent) (call : Call) :
    Refines (ghost.call call) (call.onRecent positive recent) ↔ ghost.Keeps call := by
  cases call with
  | insert hash =>
    refine iff_of_true (refines.insert positive hash) fun other removal => ?_
    cases removal
  | remove hash =>
    refine (refines.remove_iff hash).trans ⟨fun absent other same => ?_, fun keeps => keeps hash rfl⟩
    cases same
    exact absent

end Steps

/-- The pair agrees with the list in every state of a run, the last one included. -/
def RefinesThroughout {capacity : Nat} (positive : 0 < capacity) (ghost : GhostQueue)
    (recent : Recent capacity) : List Call → Prop
  | [] => Refines ghost recent
  | call :: rest =>
    Refines ghost recent ∧
      RefinesThroughout positive (ghost.call call) (call.onRecent positive recent) rest

/-- No call of a run removes a member. -/
def KeepsThroughout (ghost : GhostQueue) : List Call → Prop
  | [] => True
  | call :: rest => ghost.Keeps call ∧ KeepsThroughout (ghost.call call) rest

theorem RefinesThroughout.refines {capacity : Nat} {positive : 0 < capacity} {ghost : GhostQueue}
    {recent : Recent capacity} {calls : List Call}
    (throughout : RefinesThroughout positive ghost recent calls) : Refines ghost recent := by
  cases calls with
  | nil => exact throughout
  | cons call rest => exact throughout.1

/-- From a pair in step with its list. -/
theorem Refines.run_iff {capacity : Nat} (positive : 0 < capacity) {ghost : GhostQueue}
    {recent : Recent capacity} (refines : Refines ghost recent) (calls : List Call) :
    RefinesThroughout positive ghost recent calls ↔ ghost.KeepsThroughout calls := by
  induction calls generalizing ghost recent with
  | nil => exact iff_of_true refines trivial
  | cons call rest ih =>
    constructor
    · intro throughout
      have after := throughout.2.refines
      exact ⟨(refines.call_iff positive call).mp after, (ih after).mp throughout.2⟩
    · intro keeps
      have after := (refines.call_iff positive call).mpr keeps.1
      exact ⟨refines, (ih after).mpr keeps.2⟩

/-- **A new queue agrees with the list in every state of a run exactly when the run never removes a
member.** -/
theorem refines_iff (capacity : Nat) (positive : 0 < capacity) (calls : List Call) :
    RefinesThroughout positive (.new capacity) (.empty capacity) calls ↔
      (new capacity).KeepsThroughout calls :=
  Refines.run_iff positive .new calls

/-- A run that inserts four hashes into a queue of three. -/
theorem refines_iff_four :
    RefinesThroughout (by decide : 0 < 3) (.new 3) (.empty 3)
        [.insert 1, .insert 2, .insert 3, .insert 4] ↔
      (new 3).KeepsThroughout [.insert 1, .insert 2, .insert 3, .insert 4] :=
  refines_iff 3 (by decide) _

/-- Insert a hash, take it out, and insert it again behind another one. -/
def staleCalls : List Call := [.insert 1, .remove 1, .insert 2, .insert 1, .insert 3]

/-- **The entry that a removal leaves behind** stands for the hash inserted again: with room for two,
the third hash drops the younger member instead of the older one, and the queue holds three entries
before it. -/
theorem revived_run :
    ¬ RefinesThroughout (by decide : 0 < 2) (.new 2) (.empty 2) staleCalls ∧
    ((new 2).run staleCalls).contains 1 = false ∧
    ((new 2).run staleCalls).contains 2 = true ∧
    (Call.recent (by decide : 0 < 2) staleCalls).hashes = [1, 3] ∧
    ((new 2).run (staleCalls.take 4)).queue = [1, 2, 1] := by
  refine ⟨fun throughout => ?_, by decide, by decide, by decide, by decide⟩
  exact absurd throughout.2.2.refines.queue (by decide)

end GhostQueue

end CacheRs.Eviction
