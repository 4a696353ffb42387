/-
**The shared table under one thread.**

The programs on the shared table read and exchange slot words, retry and lock; the functions on a table
of one thread look at entries. A thread that runs a program alone, on the words of a table, gets the
function's answer and leaves the words of the function's table.

* `Coding`: the bits of the locations that are issued;
* `Coding.pack`: the words of a table;
* `scan_append`, `scan_filter`: a scan of the candidate slots, bucket by bucket and by tag matches;
* `Coding.lookup_alone`, `insert_alone`, `remove_alone`, `casLocation_alone`, `casLocationAt_alone`: the
  programs alone.
-/

import CacheRs.Concurrency.Solo
import CacheRs.Segcache.Consistent

set_option linter.unusedSectionVars false

namespace CacheRs.Segcache

open Concurrency
open Hashtable (Geometry Packed Prog RelinkFreq Shared SlotRef Lookup Insert Verified)

variable {Key Loc : Type} [DecidableEq Key] [DecidableEq Loc]

/-! ### Scans in parts -/

section Scans

variable {table : Table Loc} {verify : Loc → Verdict} {tag : BitVec 12}

/-- A scan remembers the first candidate that it could not verify. -/
theorem scan_known (location : Loc) (refs : List (Nat × Nat)) :
    table.scan verify tag (some location) refs =
      match table.scan verify tag none refs with
      | .found ref => .found ref
      | .absent => .unknown location
      | .unknown _ => .unknown location := by
  induction refs generalizing location with
  | nil => rfl
  | cons ref rest ih =>
    rw [Table.scan, Table.scan]
    cases table.slot ref.1 ref.2 with
    | none => exact ih location
    | some entry =>
      dsimp only
      by_cases other : entry.tag ≠ tag
      · rw [if_pos other, if_pos other]
        exact ih location
      rw [if_neg other, if_neg other]
      cases verify entry.location with
      | isMatch => rfl
      | differentKey => exact ih location
      | unknown =>
        dsimp only
        rw [Option.some_or, Option.none_or, ih location, ih entry.location]
        cases table.scan verify tag none rest <;> rfl

/-- **A scan goes on where the first part of its candidates left off.** -/
theorem scan_append (unknown : Option Loc) (refs more : List (Nat × Nat)) :
    table.scan verify tag unknown (refs ++ more) =
      match table.scan verify tag none refs with
      | .found ref => .found ref
      | .absent => table.scan verify tag unknown more
      | .unknown location => table.scan verify tag (unknown.or (some location)) more := by
  induction refs generalizing unknown with
  | nil => rfl
  | cons ref rest ih =>
    rw [List.cons_append, Table.scan, Table.scan]
    cases table.slot ref.1 ref.2 with
    | none => exact ih unknown
    | some entry =>
      dsimp only
      by_cases other : entry.tag ≠ tag
      · rw [if_pos other, if_pos other]
        exact ih unknown
      rw [if_neg other, if_neg other]
      cases verify entry.location with
      | isMatch => rfl
      | differentKey => exact ih unknown
      | unknown =>
        dsimp only
        rw [ih, Option.none_or, scan_known entry.location rest]
        cases table.scan verify tag none rest with
        | found => rfl
        | absent => rfl
        | unknown location =>
          dsimp only
          rw [Option.or_assoc, Option.some_or]

/-- Only the slots with an entry of the tag count. -/
theorem scan_filter (unknown : Option Loc) (refs : List (Nat × Nat)) :
    table.scan verify tag unknown
        (refs.filter fun ref => (table.slot ref.1 ref.2).any fun entry => entry.tag = tag) =
      table.scan verify tag unknown refs := by
  induction refs generalizing unknown with
  | nil => rfl
  | cons ref rest ih =>
    rw [List.filter_cons, Table.scan]
    cases slot : table.slot ref.1 ref.2 with
    | none => exact ih unknown
    | some entry =>
      rw [Option.any_some]
      by_cases same : entry.tag = tag
      · rw [if_pos (decide_eq_true same), Table.scan, slot]
        simp only [ih]
      · rw [if_neg (by simpa using same)]
        dsimp only
        rw [if_pos same]
        exact ih unknown

/-- A scan finds a slot with an entry of the tag. -/
theorem scan_found {unknown : Option Loc} {refs : List (Nat × Nat)} {ref : Nat × Nat}
    (found : table.scan verify tag unknown refs = .found ref) :
    ∃ entry, table.slot ref.1 ref.2 = some entry ∧ entry.tag = tag := by
  induction refs generalizing unknown with
  | nil => cases unknown <;> cases found
  | cons first rest ih =>
    rw [Table.scan] at found
    cases slot : table.slot first.1 first.2 with
    | none =>
      rw [slot] at found
      exact ih found
    | some entry =>
      rw [slot] at found
      dsimp only at found
      by_cases other : entry.tag ≠ tag
      · rw [if_pos other] at found
        exact ih found
      rw [if_neg other] at found
      cases verdict : verify entry.location with
      | isMatch =>
        rw [verdict] at found
        cases found
        exact ⟨entry, slot, not_not.mp other⟩
      | differentKey | unknown =>
        rw [verdict] at found
        exact ih found

end Scans

/-! ### Words -/

/-- The 44 bits of the locations that are issued. -/
structure Coding (Loc : Type) where
  code : Loc → Hashtable.Location
  Issued : Loc → Prop
  nonzero : ∀ {location}, Issued location → code location ≠ 0
  real : ∀ {location}, Issued location → code location ≠ Hashtable.Location.ghost
  injective : ∀ {location location'}, Issued location → Issued location' →
    code location = code location' → location = location'

/-- What the storage answers about a location. -/
def storedVerdict (base : Shared Key) (key : Key) (location : Hashtable.Location) : Verified :=
  if base.readable location then
    match base.item location with
    | some held => if held = key then .isMatch else .differentKey
    | none => .unknown location
  else .unknown location

namespace Coding

variable (coding : Coding Loc)

/-- The word of a slot. -/
def word : Option (Entry Loc) → Packed
  | none => .empty
  | some entry => ⟨entry.tag, entry.freq, coding.code entry.location⟩

/-- The words of a table, over a storage. -/
def pack (table : Table Loc) (base : Shared Key) : Shared Key :=
  { base with
    slot := fun bucket index => coding.word (table.slot bucket index)
    random := table.random }

/-- Every entry names an issued location. -/
def Covers (table : Table Loc) : Prop :=
  ∀ bucket index entry, table.slot bucket index = some entry → coding.Issued entry.location

def verified (location : Loc) : Verdict → Verified
  | .isMatch => .isMatch
  | .differentKey => .differentKey
  | .unknown => .unknown (coding.code location)

/-- The storage answers about the entries' locations as the verifier does. -/
def Answers (verify : Loc → Verdict) (key : Key) (table : Table Loc) (base : Shared Key) : Prop :=
  ∀ bucket index entry, table.slot bucket index = some entry →
    storedVerdict base key (coding.code entry.location) =
      coding.verified entry.location (verify entry.location)

/-- The answer of a lookup, as the programs give it. -/
def looked : Found Loc (Hit Loc) → Lookup Hashtable.Hit
  | .found hit => .found ⟨coding.code hit.location, hit.slot⟩
  | .absent => .absent
  | .unknown location => .unknown (coding.code location)

/-- The answer of an insert, as the program gives it. -/
def inserted : Inserted Loc → Option Insert
  | .created => some .created
  | .replaced old => some (.replaced (coding.code old))
  | .unknown location => some (.unknown (coding.code location))
  | .full => none

variable {coding} {table : Table Loc} {base : Shared Key} {geometry : Geometry Key}
  {verify : Loc → Verdict} {tag : BitVec 12} {key : Key}

theorem word_isLive (covers : coding.Covers table) (bucket index : Nat) :
    (coding.word (table.slot bucket index)).isLive = (table.slot bucket index).isSome := by
  cases slot : table.slot bucket index with
  | none => rfl
  | some entry =>
    have issued := covers bucket index entry slot
    exact Packed.isLive_of_location (coding.nonzero issued) (coding.real issued)

/-- No word of a table is a ghost. -/
theorem word_not_isGhost (covers : coding.Covers table) (bucket index : Nat) :
    (coding.word (table.slot bucket index)).isGhost = false := by
  cases slot : table.slot bucket index with
  | none => rfl
  | some entry =>
    by_contra ghost
    exact coding.real (covers bucket index entry slot)
      (Packed.isGhost_location (Bool.not_eq_false _ ▸ ghost))

theorem pack_slot (bucket index : Nat) :
    (coding.pack table base).slot bucket index = coding.word (table.slot bucket index) := rfl

theorem pack_setSlot (ref : Nat × Nat) (entry : Option (Entry Loc)) :
    coding.pack (table.setSlot ref entry) base =
      (coding.pack table base).setSlot ref.1 ref.2 (coding.word entry) := by
  unfold pack Shared.setSlot
  congr 1
  funext bucket index
  rw [Table.setSlot_slot]
  by_cases sameBucket : bucket = ref.1
  · subst sameBucket
    by_cases sameIndex : index = ref.2
    · subst sameIndex
      simp
    · have different : (ref.1, index) ≠ ref := fun same => sameIndex (congrArg Prod.snd same)
      simp [sameIndex, different]
  · have different : (bucket, index) ≠ ref := fun same => sameBucket (congrArg Prod.fst same)
    simp [sameBucket, different]

theorem covers_setSlot (covers : coding.Covers table) {ref : Nat × Nat} {entry : Option (Entry Loc)}
    (issued : ∀ new, entry = some new → coding.Issued new.location) :
    coding.Covers (table.setSlot ref entry) := by
  intro bucket index now here
  rw [Table.setSlot_slot] at here
  split at here
  · exact issued now here
  · exact covers bucket index now here

end Coding

/-! ### Accesses -/

section Accesses

variable {state : Shared Key}

theorem loadSlot_alone (bucket index : Nat) :
    Solo (Hashtable.loadSlot bucket index : Prog Key Packed) state (state.slot bucket index) state :=
  solo_atomically.mpr rfl

theorem peekSlot_alone (bucket index : Nat) :
    Solo (Hashtable.peekSlot bucket index : Prog Key Packed) state (state.slot bucket index) state :=
  solo_atomically.mpr rfl

theorem verify_alone (key : Key) (location : Hashtable.Location) :
    Solo (Hashtable.verify key location) state (storedVerdict state key location) state :=
  solo_atomically.mpr rfl

theorem setSlot_self (bucket index : Nat) :
    state.setSlot bucket index (state.slot bucket index) = state := by
  unfold Shared.setSlot
  rw [Function.update_eq_self, Function.update_eq_self]

/-- Alone, an exchange of the word that has just been read succeeds. -/
theorem exchangeSlot_alone {bucket index : Nat} {current : Packed} (new : Packed)
    (read : state.slot bucket index = current) :
    Solo (Hashtable.exchangeSlot bucket index current new : Prog Key Bool) state true
      (state.setSlot bucket index new) := by
  refine solo_atomically.mpr ?_
  rw [Shared.exchange, if_pos read, decide_eq_true read]

/-- The first slot whose word is accepted is given another. -/
def swapFirst (accepts : Packed → Bool) (swap : Packed → Packed) (state : Shared Key)
    (refs : List (Nat × Nat)) : Bool × Shared Key :=
  match refs.find? fun ref => accepts (state.slot ref.1 ref.2) with
  | some ref => (true, state.setSlot ref.1 ref.2 (swap (state.slot ref.1 ref.2)))
  | none => (false, state)

/-- The slots of a bucket. -/
def cells (bucket : Nat) : List (Nat × Nat) := Hashtable.slots.map fun index => (bucket, index)

variable {accepts : Packed → Bool} {swap : Packed → Packed}

theorem swapFirst_append (refs more : List (Nat × Nat)) :
    swapFirst accepts swap state (refs ++ more) =
      if (swapFirst accepts swap state refs).1 then swapFirst accepts swap state refs
      else swapFirst accepts swap state more := by
  unfold swapFirst
  rw [List.find?_append]
  cases refs.find? fun ref => accepts (state.slot ref.1 ref.2) <;> rfl

theorem swapFirst_singleton (bucket index : Nat) :
    swapFirst accepts swap state [(bucket, index)] =
      if accepts (state.slot bucket index)
        then (true, state.setSlot bucket index (swap (state.slot bucket index))) else (false, state) := by
  unfold swapFirst
  rw [List.find?_cons]
  cases accepts (state.slot bucket index) <;> rfl

theorem swapFirst_cons (ref : Nat × Nat) (more : List (Nat × Nat)) :
    swapFirst accepts swap state (ref :: more) =
      if (swapFirst accepts swap state [ref]).1 then swapFirst accepts swap state [ref]
      else swapFirst accepts swap state more :=
  swapFirst_append [ref] more

theorem swapFirst_state {refs : List (Nat × Nat)}
    (failed : (swapFirst accepts swap state refs).1 = false) :
    (swapFirst accepts swap state refs).2 = state := by
  unfold swapFirst at failed ⊢
  cases found : refs.find? fun ref => accepts (state.slot ref.1 ref.2) with
  | none => rfl
  | some ref =>
    rw [found] at failed
    cases failed

/-- Alone, a retry loop ends in its first round. -/
theorem swapSlot_alone (bucket index : Nat) :
    Solo (Hashtable.swapSlot bucket index accepts swap : Prog Key Bool) state
      (swapFirst accepts swap state [(bucket, index)]).1
      (swapFirst accepts swap state [(bucket, index)]).2 := by
  refine Solo.repeatUntil ((loadSlot_alone bucket index).bind ?_)
  rw [swapFirst_singleton]
  cases accepts (state.slot bucket index) with
  | false => exact .ret
  | true => exact (exchangeSlot_alone _ rfl).bind .ret

theorem swapInBucket_alone (bucket : Nat) (indices : List Nat) :
    Solo (Hashtable.swapInBucket bucket accepts swap indices : Prog Key Bool) state
      (swapFirst accepts swap state (indices.map fun index => (bucket, index))).1
      (swapFirst accepts swap state (indices.map fun index => (bucket, index))).2 := by
  induction indices with
  | nil => exact .ret
  | cons index rest ih =>
    rw [List.map_cons, swapFirst_cons]
    refine (swapSlot_alone bucket index).bind ?_
    cases swapped : (swapFirst accepts swap state [(bucket, index)]).1 with
    | true =>
      rw [if_pos rfl, if_pos rfl, swapped]
      exact .ret
    | false =>
      rw [swapFirst_state swapped]
      exact ih

/-- Buckets are tried in order until one succeeds. -/
theorem firstBucket_alone {attempt : Nat → Prog Key Bool} (buckets : List Nat)
    (each : ∀ bucket ∈ buckets, Solo (attempt bucket) state
      (swapFirst accepts swap state (cells bucket)).1 (swapFirst accepts swap state (cells bucket)).2) :
    Solo (Hashtable.firstBucket attempt buckets) state
      (swapFirst accepts swap state (buckets.flatMap cells)).1
      (swapFirst accepts swap state (buckets.flatMap cells)).2 := by
  induction buckets with
  | nil => exact .ret
  | cons bucket rest ih =>
    rw [List.flatMap_cons, swapFirst_append]
    refine (each bucket (List.mem_cons_self ..)).bind ?_
    cases swapped : (swapFirst accepts swap state (cells bucket)).1 with
    | true =>
      rw [if_pos rfl, if_pos rfl, swapped]
      exact .ret
    | false =>
      rw [swapFirst_state swapped]
      exact ih fun other inside => each other (List.mem_cons_of_mem _ inside)

end Accesses

namespace Coding

variable {coding : Coding Loc} {table : Table Loc} {base : Shared Key} {geometry : Geometry Key}
  {verify : Loc → Verdict} {tag : BitVec 12} {key : Key}

/-! ### Swaps -/

section Swaps

variable (covers : coding.Covers table) {location : Loc} (issued : coding.Issued location)

include covers issued

/-- The words that publish an issued location are those of the entries that name it. -/
theorem publishes_word (bucket index : Nat) :
    Hashtable.publishes tag (coding.code location) (coding.word (table.slot bucket index)) =
      Table.publishes tag location (table.slot bucket index) := by
  unfold Hashtable.publishes Table.publishes
  rw [word_isLive covers]
  cases slot : table.slot bucket index with
  | none => rfl
  | some entry =>
    have named : coding.code entry.location = coding.code location ↔ entry.location = location :=
      ⟨coding.injective (covers bucket index entry slot) issued, fun same => by rw [same]⟩
    show (true && decide (entry.tag = tag) && decide (coding.code entry.location = coding.code location)) = _
    rw [Bool.true_and, decide_eq_decide.mpr named]
    rfl

theorem swapFirst_publishing (swap : Packed → Packed) :
    swapFirst (Hashtable.publishes (geometry.tag key) (coding.code location)) swap
        (coding.pack table base) ((geometry.choices key).flatMap cells) =
      match table.publishing geometry key location with
      | some ref => (true, (coding.pack table base).setSlot ref.1 ref.2
          (swap (coding.word (table.slot ref.1 ref.2))))
      | none => (false, coding.pack table base) := by
  unfold swapFirst Table.publishing pack
  simp only [publishes_word covers issued]
  rfl

/-- **`remove` alone.** -/
theorem remove_alone :
    Solo (Hashtable.remove geometry key (coding.code location)) (coding.pack table base)
      (table.remove geometry key location).1
      (coding.pack (table.remove geometry key location).2 base) := by
  have ran := firstBucket_alone (geometry.choices key) fun bucket _ =>
    @swapInBucket_alone _ _ (coding.pack table base)
      (Hashtable.publishes (geometry.tag key) (coding.code location)) (fun _ => .empty) bucket
      Hashtable.slots
  rw [swapFirst_publishing covers issued] at ran
  unfold Table.remove
  cases found : table.publishing geometry key location with
  | none =>
    rw [found] at ran
    exact ran
  | some ref =>
    rw [found] at ran
    dsimp only
    rw [pack_setSlot]
    exact ran

/-- **`cas_location` alone.** -/
theorem casLocation_alone (newLocation : Loc) (relink : RelinkFreq) :
    Solo (Hashtable.casLocation geometry key (coding.code location) (coding.code newLocation) relink)
      (coding.pack table base) (table.casLocation geometry key location newLocation relink).1
      (coding.pack (table.casLocation geometry key location newLocation relink).2 base) := by
  have ran := firstBucket_alone (geometry.choices key) fun bucket _ =>
    @swapInBucket_alone _ _ (coding.pack table base)
      (Hashtable.publishes (geometry.tag key) (coding.code location))
      (fun packed => ⟨geometry.tag key, Hashtable.relinkFreq relink packed.freq,
        coding.code newLocation⟩) bucket Hashtable.slots
  rw [swapFirst_publishing covers issued] at ran
  unfold Table.casLocation
  cases found : table.publishing geometry key location with
  | none =>
    rw [found] at ran
    exact ran
  | some ref =>
    obtain ⟨entry, slot, -⟩ := Table.publishing_slot found
    rw [found] at ran
    dsimp only at ran ⊢
    rw [pack_setSlot, slot]
    rw [slot] at ran
    exact ran

/-- **`cas_location_at` alone.** -/
theorem casLocationAt_alone (slot : SlotRef) (newLocation : Loc) (preserveFreq : Bool) :
    Solo (Hashtable.casLocationAt slot (coding.code location) (coding.code newLocation) preserveFreq :
        Prog Key Bool)
      (coding.pack table base) (table.casLocationAt slot location newLocation preserveFreq).1
      (coding.pack (table.casLocationAt slot location newLocation preserveFreq).2 base) := by
  have ran := @swapSlot_alone _ _ (coding.pack table base)
    (Hashtable.publishes slot.tag (coding.code location))
    (fun packed => ⟨slot.tag, if preserveFreq then packed.freq else 1,
      coding.code newLocation⟩) slot.bucket slot.slot
  rw [swapFirst_singleton, pack_slot, publishes_word covers issued] at ran
  unfold Table.casLocationAt
  cases here : table.slot slot.bucket slot.slot with
  | none =>
    rw [here] at ran
    exact ran
  | some entry =>
    rw [here, Table.publishes, Option.any_some] at ran
    dsimp only
    by_cases own : (entry.tag = slot.tag && entry.location = location) = true
    · rw [if_pos own, pack_setSlot]
      rw [if_pos own] at ran
      exact ran
    · rw [if_neg own]
      rw [if_neg own] at ran
      exact ran

end Swaps

/-! ### Lookups -/

/-- What a program answers for a scan. -/
def outcome (coding : Coding Loc) {α : Type} (value : Nat × Nat → α) :
    Found Loc (Nat × Nat) → Lookup α
  | .found ref => .found (value ref)
  | .absent => .absent
  | .unknown location => .unknown (coding.code location)

/-- The state that it leaves. -/
def left (finish : Nat × Nat → Shared Key) (state : Shared Key) : Found Loc (Nat × Nat) → Shared Key
  | .found ref => finish ref
  | .absent => state
  | .unknown _ => state

section Lookups

variable (covers : coding.Covers table) (answers : coding.Answers verify key table base)

include covers

theorem word_own (bucket index : Nat) :
    ((coding.word (table.slot bucket index)).isLive &&
        (coding.word (table.slot bucket index)).tag = tag) =
      (table.slot bucket index).any fun entry => entry.tag = tag := by
  rw [word_isLive covers]
  cases table.slot bucket index <;> rfl

theorem word_other (bucket index : Nat) :
    (!(coding.word (table.slot bucket index)).isLive ||
        (coding.word (table.slot bucket index)).tag ≠ tag) =
      !(table.slot bucket index).any fun entry => entry.tag = tag := by
  rw [← word_own covers, Bool.not_and, decide_not]

/-- The tag scan leaves the slots with an entry of the tag. -/
theorem findTagMatches_alone (bucket : Nat) (indices : List Nat) :
    Solo (Hashtable.findTagMatches bucket tag indices : Prog Key (List Nat)) (coding.pack table base)
      (indices.filter fun index => (table.slot bucket index).any fun entry => entry.tag = tag)
      (coding.pack table base) := by
  induction indices with
  | nil => exact .ret
  | cons index rest ih =>
    refine (peekSlot_alone bucket index).bind (ih.bind ?_)
    rw [List.filter_cons, pack_slot, word_own covers]
    exact .ret

theorem bumpFreq_alone {bucket index : Nat} {entry : Entry Loc}
    (slot : table.slot bucket index = some entry) :
    Solo (Hashtable.bumpFreq bucket index (coding.word (some entry)) : Prog Key Unit)
      (coding.pack table base) () (coding.pack (table.bumpFreq (bucket, index)) base) := by
  unfold Hashtable.bumpFreq Table.bumpFreq
  rw [slot]
  dsimp only
  have freq : (coding.word (some entry)).freq = entry.freq := rfl
  by_cases low : entry.freq.toNat < 127
  swap
  · rw [if_neg (by rwa [freq]), if_neg low]
    exact .ret
  rw [if_pos (by rwa [freq]), if_pos low]
  refine Solo.bind (solo_atomically.mpr rfl) ?_
  -- the draw moves the generator on, whether or not it counts
  have drawn : ∀ other : Table Loc, coding.pack { other with random := table.random + Hashtable.gamma }
      base = { coding.pack other base with random := table.random + Hashtable.gamma } := fun _ => rfl
  have read : ({ coding.pack table base with random := table.random + Hashtable.gamma } :
      Shared Key).slot bucket index = coding.word (some entry) := congrArg coding.word slot
  rw [drawn, pack_setSlot]
  dsimp only
  unfold Packed.tryUpdateFreq nextFreq
  rw [freq, if_neg (by omega)]
  by_cases counts : (entry.freq.toNat ≤ 16 ||
      (Hashtable.splitMix table.random).toNat % entry.freq.toNat = 0) = true
  · have updates : (entry.freq.toNat ≤ 16 ||
      (Hashtable.splitMix (coding.pack table base).random).toNat % entry.freq.toNat = 0) = true := counts
    rw [if_pos updates, if_pos counts]
    exact (exchangeSlot_alone _ read).bind .ret
  · have stays : ¬ (entry.freq.toNat ≤ 16 ||
      (Hashtable.splitMix (coding.pack table base).random).toNat % entry.freq.toNat = 0) = true := counts
    rw [if_neg stays, if_neg counts]
    have same : (coding.pack table base).setSlot bucket index (coding.word (some entry)) =
        coding.pack table base := by
      have word : coding.word (some entry) = (coding.pack table base).slot bucket index :=
        congrArg coding.word slot.symm
      rw [word]
      exact setSlot_self bucket index
    rw [same]
    exact .ret

include answers

theorem searchMask_alone (tag : BitVec 12) (updateFreq : Bool) (bucket : Nat) (unknown : Option Loc)
    (mask : List Nat) :
    let found := table.scan verify tag unknown (mask.map fun index => (bucket, index))
    Solo (Hashtable.searchMask updateFreq bucket tag key (unknown.map coding.code) mask)
      (coding.pack table base)
      (coding.outcome (fun ref => ⟨(coding.word (table.slot ref.1 ref.2)).location, ref.1, ref.2, tag⟩)
        found)
      (left (fun ref => coding.pack (if updateFreq then table.bumpFreq ref else table) base)
        (coding.pack table base) found) := by
  induction mask generalizing unknown with
  | nil => cases unknown <;> exact .ret
  | cons index rest ih =>
    refine (loadSlot_alone bucket index).bind ?_
    dsimp only
    rw [List.map_cons, Table.scan, pack_slot, word_other covers]
    cases slot : table.slot bucket index with
    | none => exact ih unknown
    | some entry =>
      rw [Option.any_some]
      dsimp only
      by_cases other : entry.tag ≠ tag
      · rw [if_pos other, if_pos (by simpa using other)]
        exact ih unknown
      rw [if_neg other, if_neg (by simpa using other)]
      refine (verify_alone key _).bind ?_
      have answer : storedVerdict (coding.pack table base) key (coding.word (some entry)).location = _ :=
        answers bucket index entry slot
      rw [answer]
      cases verify entry.location with
      | differentKey => exact ih unknown
      | unknown =>
        have known : (unknown.map coding.code).or (some (coding.code entry.location)) =
            (unknown.or (some entry.location)).map coding.code := by cases unknown <;> rfl
        dsimp only [verified]
        rw [known]
        exact ih (unknown.or (some entry.location))
      | isMatch =>
        dsimp only [verified, outcome, left]
        rw [slot]
        cases updateFreq with
        | false => exact .ret
        | true => exact (bumpFreq_alone covers slot).bind .ret

/-- **The search of a bucket** scans its slots. -/
theorem searchBucket_alone (tag : BitVec 12) (updateFreq : Bool) (bucket : Nat) :
    let found := table.scan verify tag none (cells bucket)
    Solo (Hashtable.searchBucket updateFreq tag key bucket) (coding.pack table base)
      (coding.outcome (fun ref => ⟨(coding.word (table.slot ref.1 ref.2)).location, ref.1, ref.2, tag⟩)
        found)
      (left (fun ref => coding.pack (if updateFreq then table.bumpFreq ref else table) base)
        (coding.pack table base) found) := by
  have ran := searchMask_alone covers answers tag updateFreq bucket none
    (Hashtable.slots.filter fun index => (table.slot bucket index).any fun entry => entry.tag = tag)
  have mask : (Hashtable.slots.filter fun index =>
      (table.slot bucket index).any fun entry => entry.tag = tag).map (fun index => (bucket, index)) =
        (cells bucket).filter fun ref => (table.slot ref.1 ref.2).any fun entry => entry.tag = tag := by
    unfold cells
    rw [List.filter_map]
    rfl
  dsimp only at ran
  rw [mask, scan_filter] at ran
  exact (findTagMatches_alone covers bucket _).bind ran

omit covers answers in
/-- The parts are searched in order. -/
theorem foldChoices_alone {α : Type} {search : Nat → Prog Key (Lookup α)} {value : Nat × Nat → α}
    {finish : Nat × Nat → Shared Key} {state : Shared Key} (part : Nat → List (Nat × Nat))
    (each : ∀ index, Solo (search index) state
      (coding.outcome value (table.scan verify tag none (part index)))
      (left finish state (table.scan verify tag none (part index))))
    (unknown : Option Loc) (indices : List Nat) :
    Solo (Hashtable.foldChoices search (unknown.map coding.code) indices) state
      (coding.outcome value (table.scan verify tag unknown (indices.flatMap part)))
      (left finish state (table.scan verify tag unknown (indices.flatMap part))) := by
  induction indices generalizing unknown with
  | nil => cases unknown <;> exact .ret
  | cons index rest ih =>
    rw [List.flatMap_cons, scan_append]
    refine (each index).bind ?_
    cases table.scan verify tag none (part index) with
    | found ref => exact .ret
    | absent => exact ih unknown
    | unknown location =>
      have known : (unknown.map coding.code).or (some (coding.code location)) =
          (unknown.or (some location)).map coding.code := by cases unknown <;> rfl
      dsimp only [outcome]
      rw [known]
      exact ih (unknown.or (some location))

theorem searchChoices_alone (geometry : Geometry Key) (updateFreq : Bool) :
    let found := table.scan verify (geometry.tag key) none (Table.candidates geometry key)
    Solo (Hashtable.foldChoices (Hashtable.searchBucket updateFreq (geometry.tag key) key) none
        (geometry.choices key)) (coding.pack table base)
      (coding.outcome (fun ref => ⟨(coding.word (table.slot ref.1 ref.2)).location, ref.1, ref.2,
        geometry.tag key⟩) found)
      (left (fun ref => coding.pack (if updateFreq then table.bumpFreq ref else table) base)
        (coding.pack table base) found) :=
  foldChoices_alone cells (fun bucket => searchBucket_alone covers answers _ updateFreq bucket) none
    (geometry.choices key)

/-- **`lookup_no_freq_update` alone.** -/
theorem lookupNoFreqUpdate_alone :
    Solo (Hashtable.lookupNoFreqUpdate geometry key) (coding.pack table base)
      (coding.looked (table.lookupNoFreqUpdate geometry verify key)) (coding.pack table base) := by
  have ran := searchChoices_alone covers answers geometry false
  unfold Table.lookupNoFreqUpdate
  cases found : table.scan verify (geometry.tag key) none (Table.candidates geometry key) with
  | absent | unknown =>
    rw [found] at ran
    exact ran
  | found ref =>
    obtain ⟨entry, slot, -⟩ := scan_found found
    rw [found] at ran
    dsimp only [outcome, left] at ran
    rw [slot] at ran
    dsimp only [Table.hitAt]
    rw [slot]
    exact ran

omit answers in
theorem incrementGhostFreqInBucket_alone (bucket : Nat) (indices : List Nat) :
    Solo (Hashtable.incrementGhostFreqInBucket bucket tag indices : Prog Key Unit)
      (coding.pack table base) () (coding.pack table base) := by
  induction indices with
  | nil => exact .ret
  | cons index rest ih =>
    refine (peekSlot_alone bucket index).bind ?_
    rw [pack_slot, word_not_isGhost covers]
    exact ih

/-- **`lookup` alone.** -/
theorem lookup_alone :
    Solo (Hashtable.lookup geometry key) (coding.pack table base)
      (coding.looked (table.lookup geometry verify key).1)
      (coding.pack (table.lookup geometry verify key).2 base) := by
  have ran := searchChoices_alone covers answers geometry true
  unfold Table.lookup
  refine Solo.bind ran ?_
  cases found : table.scan verify (geometry.tag key) none (Table.candidates geometry key) with
  | unknown => exact .ret
  | absent =>
    -- a miss looks for ghosts to bump, and there are none
    have none : ∀ buckets : List Nat, Solo (Program.sequence (buckets.map fun bucket =>
        Hashtable.incrementGhostFreqInBucket bucket (geometry.tag key) Hashtable.slots) : Prog Key Unit)
        (coding.pack table base) () (coding.pack table base) := by
      intro buckets
      induction buckets with
      | nil => exact .ret
      | cons bucket rest ih => exact (incrementGhostFreqInBucket_alone covers bucket _).bind ih
    exact (none (geometry.choices key)).bind .ret
  | found ref =>
    obtain ⟨entry, slot, -⟩ := scan_found found
    dsimp only [outcome, left, Table.hitAt]
    rw [slot]
    exact .ret

end Lookups

/-! ### Inserts -/

section Inserts

variable (covers : coding.Covers table)

include covers

section Replace

variable (answers : coding.Answers verify key table base)

include answers

theorem replaceSlot_alone (tag : BitVec 12) (newPacked : Packed) (bucket index : Nat) :
    let found := table.scan verify tag none [(bucket, index)]
    Solo (Hashtable.replaceSlot tag key newPacked bucket index) (coding.pack table base)
      (coding.outcome (fun ref => (coding.word (table.slot ref.1 ref.2)).location) found)
      (left (fun ref => (coding.pack table base).setSlot ref.1 ref.2
        (newPacked.withFreq (coding.word (table.slot ref.1 ref.2)).freq)) (coding.pack table base)
        found) := by
  refine Solo.repeatUntil ((loadSlot_alone bucket index).bind ?_)
  rw [Table.scan, pack_slot, word_other covers]
  cases slot : table.slot bucket index with
  | none => exact .ret
  | some entry =>
    rw [Option.any_some]
    dsimp only
    by_cases other : entry.tag ≠ tag
    · rw [if_pos other, if_pos (by simpa using other)]
      exact .ret
    rw [if_neg other, if_neg (by simpa using other)]
    refine (verify_alone key _).bind ?_
    have answer : storedVerdict (coding.pack table base) key (coding.word (some entry)).location = _ :=
      answers bucket index entry slot
    rw [answer]
    cases verify entry.location with
    | differentKey | unknown => exact .ret
    | isMatch =>
      dsimp only [verified, outcome, left]
      rw [slot]
      have read : (coding.pack table base).slot bucket index = coding.word (some entry) :=
        congrArg coding.word slot
      exact (exchangeSlot_alone _ read).bind .ret

/-- The replacement scans the candidate slots, too. -/
theorem replaceChoices_alone (geometry : Geometry Key) (tag : BitVec 12) (newPacked : Packed) :
    let found := table.scan verify tag none (Table.candidates geometry key)
    Solo (Hashtable.foldChoices (Hashtable.tryReplaceExisting tag key newPacked) none
        (geometry.choices key)) (coding.pack table base)
      (coding.outcome (fun ref => (coding.word (table.slot ref.1 ref.2)).location) found)
      (left (fun ref => (coding.pack table base).setSlot ref.1 ref.2
        (newPacked.withFreq (coding.word (table.slot ref.1 ref.2)).freq)) (coding.pack table base)
        found) := by
  refine foldChoices_alone cells (fun bucket => ?_) none (geometry.choices key)
  have fold : ∀ (unknown : Option Hashtable.Location) (indices : List Nat),
      Hashtable.replaceInSlots tag key newPacked bucket unknown indices =
        Hashtable.foldChoices (Hashtable.replaceSlot tag key newPacked bucket) unknown indices := by
    intro unknown indices
    induction indices generalizing unknown with
    | nil => rfl
    | cons index rest ih =>
      rw [Hashtable.replaceInSlots, Hashtable.foldChoices]
      congr 1
      funext answer
      cases answer with
      | found => rfl
      | absent => exact ih unknown
      | unknown location => exact ih (unknown.or (some location))
  have ran := foldChoices_alone (fun index => [(bucket, index)])
    (fun index => replaceSlot_alone covers answers tag newPacked bucket index) none Hashtable.slots
  unfold Hashtable.tryReplaceExisting cells
  rw [fold, List.map_eq_flatMap]
  exact ran

end Replace

/-- No slot holds a ghost to take over. -/
theorem swapFirst_ghost (base : Shared Key) {accepts : Packed → Bool}
    (ghosts : ∀ packed, accepts packed = true → packed.isGhost = true) (swap : Packed → Packed)
    (refs : List (Nat × Nat)) :
    swapFirst accepts swap (coding.pack table base) refs = (false, coding.pack table base) := by
  have none : refs.find? (fun ref => accepts ((coding.pack table base).slot ref.1 ref.2)) = none := by
    refine List.find?_eq_none.mpr fun ref _ accepted => ?_
    have ghost := ghosts _ accepted
    rw [pack_slot, word_not_isGhost covers] at ghost
    cases ghost
  unfold swapFirst
  rw [none]

omit covers in
theorem claimEmpty_alone {state : Shared Key} (newPacked : Packed) (bucket : Nat) (indices : List Nat) :
    Solo (Hashtable.claimEmpty newPacked bucket indices : Prog Key Bool) state
      (swapFirst (fun packed => packed = .empty) (fun _ => newPacked) state
        (indices.map fun index => (bucket, index))).1
      (swapFirst (fun packed => packed = .empty) (fun _ => newPacked) state
        (indices.map fun index => (bucket, index))).2 := by
  induction indices with
  | nil => exact .ret
  | cons index rest ih =>
    rw [List.map_cons, swapFirst_cons, swapFirst_singleton]
    refine (peekSlot_alone bucket index).bind ?_
    by_cases empty : state.slot bucket index = .empty
    · rw [if_pos empty, if_pos (decide_eq_true empty), if_pos rfl]
      exact (exchangeSlot_alone _ empty).bind .ret
    · rw [if_neg empty]
      simp only [empty, decide_false, Bool.false_eq_true, if_false]
      exact ih

theorem claimGhost_alone (base : Shared Key) (newPacked : Packed) (bucket : Nat) (indices : List Nat) :
    Solo (Hashtable.claimGhost newPacked bucket indices : Prog Key Bool) (coding.pack table base) false
      (coding.pack table base) := by
  induction indices with
  | nil => exact .ret
  | cons index rest ih =>
    refine (peekSlot_alone bucket index).bind ?_
    rw [pack_slot, word_not_isGhost covers]
    exact ih

/-- A new entry takes the first empty slot. -/
theorem tryClaimNewSlot_alone (tag : BitVec 12) (newPacked : Packed) (bucket : Nat) :
    Solo (Hashtable.tryClaimNewSlot tag newPacked bucket : Prog Key Bool) (coding.pack table base)
      (swapFirst (fun packed => packed = .empty) (fun _ => newPacked) (coding.pack table base)
        (cells bucket)).1
      (swapFirst (fun packed => packed = .empty) (fun _ => newPacked) (coding.pack table base)
        (cells bucket)).2 := by
  have ghosts := @swapInBucket_alone _ _ (coding.pack table base)
    (fun packed => packed.tag = tag && packed.isGhost) (fun packed => newPacked.withFreq packed.freq)
    bucket Hashtable.slots
  rw [swapFirst_ghost covers base fun _ accepted => (Bool.and_eq_true_iff.mp accepted).2] at ghosts
  have empties : Solo (Hashtable.claimEmpty newPacked bucket Hashtable.slots : Prog Key Bool)
      (coding.pack table base) (swapFirst (fun packed => packed = .empty) (fun _ => newPacked)
        (coding.pack table base) (cells bucket)).1 _ := claimEmpty_alone newPacked bucket Hashtable.slots
  refine ghosts.bind (empties.bind ?_)
  cases claimed : (swapFirst (fun packed => packed = .empty) (fun _ => newPacked)
      (coding.pack table base) (cells bucket)).1 with
  | true => exact .ret
  | false =>
    have state := swapFirst_state claimed
    unfold cells at state ⊢
    rw [state]
    exact claimGhost_alone covers base newPacked bucket _

theorem swapFirst_empty (newPacked : Packed) (refs : List (Nat × Nat)) :
    swapFirst (fun packed => packed = .empty) (fun _ => newPacked) (coding.pack table base) refs =
      match refs.find? fun ref => (table.slot ref.1 ref.2).isNone with
      | some ref => (true, (coding.pack table base).setSlot ref.1 ref.2 newPacked)
      | none => (false, coding.pack table base) := by
  have empty : (fun ref : Nat × Nat => decide ((coding.pack table base).slot ref.1 ref.2 = .empty)) =
      fun ref => (table.slot ref.1 ref.2).isNone := by
    funext ref
    have live := word_isLive covers ref.1 ref.2
    rw [pack_slot]
    cases slot : table.slot ref.1 ref.2 with
    | none => rfl
    | some entry =>
      rw [slot, Option.isSome_some] at live
      refine decide_eq_false fun same => ?_
      rw [same] at live
      cases live
  unfold swapFirst
  rw [empty]

omit covers in
theorem countOccupied_alone {state : Shared Key} (bucket : Nat) (indices : List Nat) :
    ∃ count, Solo (Hashtable.countOccupied bucket indices : Prog Key Nat) state count state := by
  induction indices with
  | nil => exact ⟨0, .ret⟩
  | cons index rest ih =>
    obtain ⟨count, ran⟩ := ih
    exact ⟨_, (peekSlot_alone bucket index).bind (ran.bind .ret)⟩

omit covers in
theorem insertByOccupied_alone {state : Shared Key} (bucket : Nat) (buckets : List Nat) :
    ∃ sorted, Solo (Hashtable.insertByOccupied bucket buckets : Prog Key (List Nat)) state sorted
      state ∧ ∀ other ∈ sorted, other ∈ bucket :: buckets := by
  induction buckets with
  | nil => exact ⟨[bucket], .ret, fun _ inside => inside⟩
  | cons other rest ih =>
    obtain ⟨mine, counted⟩ := @countOccupied_alone Key _ state bucket Hashtable.slots
    obtain ⟨theirs, countedOther⟩ := @countOccupied_alone Key _ state other Hashtable.slots
    obtain ⟨later, ran, same⟩ := ih
    by_cases first : mine ≤ theirs
    · refine ⟨_, counted.bind (countedOther.bind ?_), fun _ inside => inside⟩
      rw [if_pos first]
      exact .ret
    · refine ⟨other :: later, counted.bind (countedOther.bind ?_), fun one inside => ?_⟩
      · rw [if_neg first]
        exact ran.bind .ret
      · rcases List.mem_cons.mp inside with rfl | behind
        · exact List.mem_cons_of_mem _ (List.mem_cons_self ..)
        · rcases List.mem_cons.mp (same one behind) with rfl | behind
          · exact List.mem_cons_self ..
          · exact List.mem_cons_of_mem _ (List.mem_cons_of_mem _ behind)

omit covers in
/-- Sorting the choices writes nothing. -/
theorem sortByOccupied_alone {state : Shared Key} (buckets : List Nat) :
    ∃ sorted, Solo (Hashtable.sortByOccupied buckets : Prog Key (List Nat)) state sorted state ∧
      ∀ bucket ∈ sorted, bucket ∈ buckets := by
  induction buckets with
  | nil => exact ⟨[], .ret, fun _ inside => inside⟩
  | cons bucket rest ih =>
    obtain ⟨sorted, ran, same⟩ := ih
    obtain ⟨placed, inserted, within⟩ := @insertByOccupied_alone Key _ state bucket sorted
    refine ⟨placed, ran.bind inserted, fun one inside => ?_⟩
    rcases List.mem_cons.mp (within one inside) with rfl | behind
    · exact List.mem_cons_self ..
    · exact List.mem_cons_of_mem _ (same one behind)

/-- **A key that is not there takes the first empty candidate slot.** The emptiest bucket is looked for
when every candidate is taken. -/
theorem claimChoices_alone (geometry : Geometry Key) (location : Loc) (several : Bool) :
    let claimed := table.emptySlot geometry key
    Solo (Hashtable.claimChoices tag ⟨tag, 1, coding.code location⟩ (geometry.choices key) several :
        Prog Key (Option Insert)) (coding.pack table base)
      (claimed.map fun _ => .created)
      (coding.pack (match claimed with
        | some ref => table.setSlot ref (some ⟨tag, 1, location⟩)
        | none => table) base) := by
  have attempt : ∀ buckets : List Nat, Solo (Hashtable.firstBucket (Hashtable.tryClaimNewSlot tag
      ⟨tag, 1, coding.code location⟩) buckets : Prog Key Bool) (coding.pack table base) _ _ :=
    fun buckets => firstBucket_alone buckets fun bucket _ =>
      tryClaimNewSlot_alone covers tag ⟨tag, 1, coding.code location⟩ bucket
  simp only [swapFirst_empty covers] at attempt
  have first := attempt (geometry.choices key)
  have here : table.emptySlot geometry key = ((geometry.choices key).flatMap cells).find? fun ref =>
      (table.slot ref.1 ref.2).isNone := rfl
  refine first.bind ?_
  rw [← here]
  cases claimed : table.emptySlot geometry key with
  | some ref =>
    dsimp only
    rw [pack_setSlot]
    exact .ret
  | none =>
    cases several with
    | false => exact .ret
    | true =>
      obtain ⟨sorted, ran, within⟩ := @sortByOccupied_alone Key _ (coding.pack table base)
        (geometry.choices key)
      have full : (sorted.flatMap cells).find? (fun ref => (table.slot ref.1 ref.2).isNone) = none := by
        rw [here] at claimed
        refine List.find?_eq_none.mpr fun ref inside => List.find?_eq_none.mp claimed ref ?_
        obtain ⟨bucket, chosen, inBucket⟩ := List.mem_flatMap.mp inside
        exact List.mem_flatMap.mpr ⟨bucket, within bucket chosen, inBucket⟩
      have again := attempt sorted
      rw [full] at again
      exact ran.bind (again.bind .ret)

omit covers in
theorem lockStripe_alone {stripe : Nat} (unlocked : base.locked stripe = false) :
    Solo (Hashtable.lockStripe stripe : Prog Key Unit) (coding.pack table base) ()
      (coding.pack table { base with locked := Function.update base.locked stripe true }) := by
  refine solo_whenEnabled.mpr ⟨?_, rfl⟩
  show (!base.locked stripe) = true
  rw [unlocked]
  rfl

omit covers in
theorem unlockStripe_alone {stripe : Nat} (unlocked : base.locked stripe = false) :
    Solo (Hashtable.unlockStripe stripe : Prog Key Unit)
      (coding.pack table { base with locked := Function.update base.locked stripe true }) ()
      (coding.pack table base) := by
  have again : Function.update (Function.update base.locked stripe true) stripe false = base.locked := by
    rw [Function.update_idem, ← unlocked, Function.update_eq_self]
  refine solo_atomically.mpr ?_
  unfold pack
  dsimp only
  rw [again]

/-- **`insert` alone.** -/
theorem insert_alone (answers : coding.Answers verify key table base)
    (unlocked : ∀ stripe, base.locked stripe = false) (location : Loc) :
    Solo (Hashtable.insert geometry key (coding.code location)) (coding.pack table base)
      (coding.inserted (table.insert geometry verify key location).1)
      (coding.pack (table.insert geometry verify key location).2 base) := by
  have replaced := replaceChoices_alone covers answers geometry (geometry.tag key)
    ⟨geometry.tag key, 1, coding.code location⟩
  unfold Table.insert
  refine Solo.bind replaced ?_
  cases found : table.scan verify (geometry.tag key) none (Table.candidates geometry key) with
  | unknown => exact .ret
  | found ref =>
    obtain ⟨entry, slot, -⟩ := scan_found found
    dsimp only [outcome, left]
    rw [slot]
    dsimp only
    rw [pack_setSlot]
    exact .ret
  | absent =>
    have free := unlocked (geometry.stripe key)
    refine (lockStripe_alone free).bind ?_
    -- the re-check under the lock finds what the first search found
    have locked : coding.Answers verify key table
        { base with locked := Function.update base.locked (geometry.stripe key) true } := answers
    have rechecked := replaceChoices_alone covers locked geometry (geometry.tag key)
      ⟨geometry.tag key, 1, coding.code location⟩
    dsimp only at rechecked
    rw [found] at rechecked
    refine rechecked.bind ((claimChoices_alone covers geometry location _).bind ?_)
    cases claimed : table.emptySlot geometry key with
    | none => exact (unlockStripe_alone free).bind .ret
    | some ref => exact (unlockStripe_alone free).bind .ret

end Inserts

end Coding

end CacheRs.Segcache
