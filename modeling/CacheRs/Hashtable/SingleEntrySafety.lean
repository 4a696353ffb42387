/-
**At most one entry a key, and truthful answers, over every run.**

Threads call any sequence of inserts, removes, relocations, ghost conversions and lookups, and the
storage stores items and withdraws locations from reading. Storage that gives a location to another
key while a call still has the location in hand lets that call replace an entry that is no longer
its key's.

* `one_entry`: in every disciplined run no key has two entries, and an insert that creates one held
  the key's stripe lock at an instant at which it had none;
* `absent_truthful`: a lookup that answers absent ran across an instant at which the key had no
  entry;
* `reused_run`: a location reused between a call's verification and its exchange gives a key two
  entries, though every location handed out is published by no slot.
-/

import CacheRs.Hashtable.SingleEntrySpecs

set_option linter.unusedSectionVars false

namespace CacheRs.Hashtable

open Concurrency

variable {Tid Key : Type} [DecidableEq Tid] [DecidableEq Key]

/-! ### Threads -/

/-- Run one operation. -/
def Operation.run (geometry : Geometry Key) (operation : Operation Key) : Prog Key Unit :=
  match operation with
  | .insert key location => do
    begin operation
    let result ← Hashtable.insert geometry key location
    respond key (.inserted result)
  | .remove key expected => do
    begin operation
    let done ← Hashtable.remove geometry key expected
    respond key (.swapped done)
  | .convertToGhost key expected => do
    begin operation
    let done ← Hashtable.convertToGhost geometry key expected
    respond key (.swapped done)
  | .casLocation key oldLocation newLocation relink => do
    begin operation
    let done ← Hashtable.casLocation geometry key oldLocation newLocation relink
    respond key (.swapped done)
  | .casLocationAt key slot oldLocation newLocation preserveFreq => do
    begin operation
    let done ← Hashtable.casLocationAt slot oldLocation newLocation preserveFreq
    respond key (.swapped done)
  | .lookup key => do
    begin operation
    let result ← Hashtable.lookup geometry key
    respond key (.looked result)
  | .lookupNoFreqUpdate key => do
    begin operation
    let result ← Hashtable.lookupNoFreqUpdate geometry key
    respond key (.looked result)
  | .store location key => Hashtable.store location key
  | .setReadable location readable => Hashtable.setReadable location readable

/-- An empty table, over a storage that holds nothing yet. -/
def Shared.new (seed : UInt64) : Shared Key where
  slot := fun _ _ => .empty
  locked := fun _ => false
  random := seed
  item := fun _ => none
  readable := fun _ => true

/-- The threads before their first step, each with its operations. -/
def start (geometry : Geometry Key) (seed : UInt64) (scripts : Tid → List (Operation Key)) :
    Config Tid (Shared Key) (Label Key) (History Tid Key) where
  world := ⟨.new seed, .new⟩
  thread := fun t => Program.sequence ((scripts t).map (Operation.run geometry))

section Safety

variable {geometry : Geometry Key} {t : Tid} {world : TableWorld Tid Key}

theorem Operation.run_spec (_kept : Consistent geometry world) (operation : Operation Key) :
    (singleEntry geometry).wp t (operation.run geometry) (fun _ _ => True) world := by
  have done : ∀ key done now, Consistent geometry now →
      (singleEntry geometry).wp t (respond key (.swapped done)) (fun _ _ => True) now :=
    fun key done now _ => wp_respond (fun created => by cases created)
      (fun absent => by cases absent) fun _ _ => trivial
  have looked : ∀ key result now, (result = .absent → Gone t key now) →
      (singleEntry geometry).wp t (respond key (.looked result)) (fun _ _ => True) now :=
    fun key result now told => wp_respond (fun created => by cases created)
      (fun absent => told (by cases absent; rfl)) fun _ _ => trivial
  cases operation with
  | insert key location =>
    refine (Protocol.wp_bind ..).mpr (wp_begin fun now keptNow handed => ?_)
    refine Protocol.wp_seq keptNow (insert_spec keptNow (handed location (List.mem_singleton.mpr rfl) key rfl))
      fun result _ _ told => ?_
    exact wp_respond (fun created => told (by cases created; rfl)) (fun absent => by cases absent)
      fun _ _ => trivial
  | remove key expected =>
    refine (Protocol.wp_bind ..).mpr (wp_begin fun now keptNow _ => ?_)
    exact Protocol.wp_seq keptNow (remove_spec keptNow) fun result last keptLast _ =>
      done key result last keptLast
  | convertToGhost key expected =>
    refine (Protocol.wp_bind ..).mpr (wp_begin fun now keptNow _ => ?_)
    exact Protocol.wp_seq keptNow (convertToGhost_spec keptNow) fun result last keptLast _ =>
      done key result last keptLast
  | casLocation key oldLocation newLocation relink =>
    refine (Protocol.wp_bind ..).mpr (wp_begin fun now keptNow handed => ?_)
    exact Protocol.wp_seq keptNow (casLocation_spec keptNow
      (handed oldLocation (by simp [Operation.handed]) key rfl)
      (handed newLocation (by simp [Operation.handed]) key rfl)) fun result last keptLast _ =>
      done key result last keptLast
  | casLocationAt key slot oldLocation newLocation preserveFreq =>
    refine (Protocol.wp_bind ..).mpr (wp_begin fun now keptNow handed => ?_)
    exact Protocol.wp_seq keptNow (casLocationAt_spec keptNow
      (handed oldLocation (by simp [Operation.handed]) key rfl)
      (handed newLocation (by simp [Operation.handed]) key rfl)) fun result last keptLast _ =>
      done key result last keptLast
  | lookup key =>
    refine (Protocol.wp_bind ..).mpr (wp_begin fun now keptNow _ => ?_)
    exact Protocol.wp_seq keptNow (lookup_spec keptNow) fun result last _ told =>
      looked key result last told
  | lookupNoFreqUpdate key =>
    refine (Protocol.wp_bind ..).mpr (wp_begin fun now keptNow _ => ?_)
    exact Protocol.wp_seq keptNow (searchChoices_spec false keptNow) fun result last _ told =>
      looked key result last told
  | store location key => exact wp_store fun _ _ => trivial
  | setReadable location readable => exact wp_setReadable fun _ _ => trivial

theorem consistent_new (seed : UInt64) :
    Consistent geometry (⟨.new seed, .new⟩ : TableWorld Tid Key) := by
  refine ⟨⟨(fun _ _ live => by cases live), (fun _ _ _ _ _ entry _ => ?_),
    (fun _ _ holds => by cases holds)⟩, (fun _ _ mine => by cases mine),
    (fun _ member => by cases member)⟩
  cases entry.1

theorem inside_start (seed : UInt64) (scripts : Tid → List (Operation Key)) :
    (singleEntry geometry).Inside (start geometry seed scripts) := by
  refine ⟨consistent_new seed, fun t => ?_⟩
  refine Protocol.wp_sequence (fun program member now kept _ => ?_) (consistent_new seed) trivial
  obtain ⟨operation, _, rfl⟩ := List.mem_map.mp member
  exact operation.run_spec kept

/-- No key has two entries, each is in one of its key's candidate buckets, and an insert created
the entry of a key that had none at an instant at which it held the key's stripe lock. -/
structure OneEntry (geometry : Geometry Key) (world : TableWorld Tid Key) : Prop where
  unique : ∀ key bucket index bucket' index', world.shared.HasEntry bucket index key →
    world.shared.HasEntry bucket' index' key → bucket = bucket' ∧ index = index'
  choice : ∀ key bucket index, world.shared.HasEntry bucket index key →
    bucket ∈ geometry.choices key ∧ index < 8
  created : ∀ answered ∈ world.history.answers,
    answered.answer = .inserted (some .created) → answered.absentLocked

theorem oneEntry_of_consistent (kept : Consistent geometry world) : OneEntry geometry world := by
  refine ⟨kept.sound.unique, fun key bucket index entry => ?_, fun answered member =>
    (kept.truthful answered member).1⟩
  obtain ⟨choice, inside⟩ := (entry.placed kept.sound).2
  exact ⟨choice, List.mem_range.mp inside⟩

/-- **At most one entry a key.** In every run in which callers hand locations of their key, and the
storage gives a location to another key only when no slot publishes it and no running call has it
in hand, no key has two entries and no insert creates the entry of a key that has one. -/
theorem one_entry (geometry : Geometry Key) (seed : UInt64)
    (scripts : Tid → List (Operation Key))
    {config : Config Tid (Shared Key) (Label Key) (History Tid Key)}
    (reached : Reachable (record geometry) (Disciplined geometry) (start geometry seed scripts)
      config) : OneEntry geometry config.world :=
  oneEntry_of_consistent (Protocol.sound (inside_start seed scripts) reached).1

/-- **An absent answer is truthful.** In every disciplined run, a lookup that answered absent ran
across an instant at which its key had no entry. -/
theorem absent_truthful (geometry : Geometry Key) (seed : UInt64)
    (scripts : Tid → List (Operation Key))
    {config : Config Tid (Shared Key) (Label Key) (History Tid Key)}
    (reached : Reachable (record geometry) (Disciplined geometry) (start geometry seed scripts)
      config) : ∀ answered ∈ config.world.history.answers,
      answered.answer = .looked .absent → answered.absent :=
  fun answered member =>
    ((Protocol.sound (inside_start seed scripts) reached).1.truthful answered member).2

end Safety

/-! ### A removal races a lookup -/

instance [Fintype Tid] (geometry : Geometry Key) (t : Tid) (label : Label Key)
    (world : TableWorld Tid Key) : Decidable (Disciplined geometry t label world) := by
  unfold Disciplined
  split
  · exact List.decidableBAll _ _
  · infer_instance
  · infer_instance

/-- Sixteen buckets, one choice, and keys whose hashes collide. -/
def colliding : Geometry Nat where
  hashKey := fun _ => 0
  power := 7
  numChoices := 1
  power_ge := by decide
  power_lt := by decide
  numChoices_ge := by decide
  numChoices_le := by decide

/-- One thread inserts a key and removes it, the other looks it up. -/
def racingScripts : Fin 2 → List (Operation Nat)
  | 0 => [.store 1 0, .insert 0 1, .remove 0 1]
  | 1 => [.lookup 0]

/-- The lookup begins while the entry is there and reads its slot after the removal. -/
def racingSchedule : List (Fin 2) :=
  List.replicate 55 0 ++ [1] ++ List.replicate 5 0 ++ List.replicate 17 1

/-- What the race answers, the last answer first. -/
def racingAnswers : List Answer :=
  [.looked .absent, .swapped true, .inserted (some .created)]

theorem racing_run : ∃ config : Config (Fin 2) (Shared Nat) (Label Nat) (History (Fin 2) Nat),
    Reachable (record colliding) (Disciplined colliding) (start colliding 0 racingScripts) config ∧
      config.world.history.answers.map (·.answer) = racingAnswers := by
  obtain ⟨config, reached, ends⟩ := exists_reachable (record colliding)
    (fun t label world => decide (Disciplined colliding t label world))
    (start colliding 0 racingScripts) racingSchedule
    (fun world => world.history.answers.map (·.answer) = racingAnswers) (by decide +kernel)
  exact ⟨config, reached.weaken fun _ _ _ => of_decide_eq_true, of_decide_eq_true ends⟩

theorem one_entry_racing :
    ∃ config : Config (Fin 2) (Shared Nat) (Label Nat) (History (Fin 2) Nat),
      Reachable (record colliding) (Disciplined colliding) (start colliding 0 racingScripts)
        config ∧ config.world.history.answers.map (·.answer) = racingAnswers ∧
      OneEntry colliding config.world := by
  obtain ⟨config, reached, answers⟩ := racing_run
  exact ⟨config, reached, answers, one_entry colliding 0 racingScripts reached⟩

theorem absent_truthful_racing :
    ∃ config : Config (Fin 2) (Shared Nat) (Label Nat) (History (Fin 2) Nat),
      Reachable (record colliding) (Disciplined colliding) (start colliding 0 racingScripts)
        config ∧ config.world.history.answers.map (·.answer) = racingAnswers ∧
      ∀ answered ∈ config.world.history.answers,
        answered.answer = .looked .absent → answered.absent := by
  obtain ⟨config, reached, answers⟩ := racing_run
  exact ⟨config, reached, answers, absent_truthful colliding 0 racingScripts reached⟩

/-! ### A location reused under a call -/

/-- The location a call is to publish. -/
def Operation.published : Operation Key → List Location
  | .insert _ location | .casLocation _ _ location _ | .casLocationAt _ _ _ location _ => [location]
  | _ => []

/-- Calls are handed locations of their key, the one to publish published by no slot; the storage
writes no location that a slot publishes. -/
def handedFresh (geometry : Geometry Key) (_t : Tid) (label : Label Key)
    (world : TableWorld Tid Key) : Bool :=
  match label with
  | .call operation =>
    operation.handed.all (fun location => world.shared.item location = operation.key?) &&
      operation.published.all fun location => !decide (world.shared.Names geometry location)
  | .store location _ => location ≠ 0 && location ≠ Location.ghost &&
    !decide (world.shared.Names geometry location)
  | _ => true

/-- Thread 0 inserts a key, and inserts it again; thread 1 removes it, reuses its location for
another key of the same tag and bucket, and inserts the key elsewhere. -/
def reusedScripts : Nat → List (Operation Nat)
  | 0 => [.store 1 0, .insert 0 1, .store 2 0, .insert 0 2]
  | 1 => [.remove 0 1, .store 1 1, .insert 1 1, .store 3 0, .insert 0 3]
  | _ => []

/-- Thread 0 stops between its verification and its exchange while thread 1 runs. -/
def reusedSchedule : List Nat := List.replicate 60 0 ++ List.replicate 118 1 ++ [0]

/-- **A location reused under a call gives a key two entries.** The slot holds the very word the
call verified, now another key's entry, and the exchange makes it a second entry of the call's. -/
theorem reused_run : ∃ config, Reachable (record colliding)
    (fun t label world => handedFresh colliding t label world = true)
    (start colliding 0 reusedScripts) config ∧ ¬ OneEntry colliding config.world := by
  obtain ⟨config, reached, ends⟩ := exists_reachable (record colliding) (handedFresh colliding)
    (start colliding 0 reusedScripts) reusedSchedule
    (fun world => (world.shared.slot 0 0).isLive && (world.shared.slot 0 1).isLive &&
      world.shared.item (world.shared.slot 0 0).location = some 0 &&
      world.shared.item (world.shared.slot 0 1).location = some 0) (by decide +kernel)
  refine ⟨config, reached, fun one => ?_⟩
  simp only [Bool.and_eq_true, decide_eq_true_eq] at ends
  obtain ⟨⟨⟨first, second⟩, firstItem⟩, secondItem⟩ := ends
  have same := one.unique 0 0 0 0 1 ⟨first, firstItem⟩ ⟨second, secondItem⟩
  exact absurd same.2 (by decide)

end CacheRs.Hashtable
