/-
**Ghosts that an insert takes over.**

A ghost keeps the frequency of a key that was evicted. An insert that creates an entry tries its
candidate buckets in order, and in each a ghost of the key's tag, then an empty slot, then any ghost.

* `solo_tryClaimNewSlot`: the slot that is claimed in a bucket;
* `insert_created`: the slot that an insert alone on the table claims;
* `resurrects_iff`: **the key's ghost is taken over exactly when the first candidate bucket with room
  holds one**;
* `passed_over_run`: an empty slot in an earlier bucket is claimed, and the ghost stays.
-/

import CacheRs.Concurrency.Solo
import CacheRs.Hashtable.SingleEntrySafety

set_option linter.unusedSectionVars false

namespace CacheRs.Hashtable

open Concurrency

variable {Key : Type}

section Scans

variable {state : Shared Key} {bucket index : Nat}

/-! ### Single slots -/

theorem solo_loadSlot : Solo (loadSlot bucket index) state (state.slot bucket index) state :=
  solo_atomically.mpr rfl

theorem solo_peekSlot : Solo (peekSlot bucket index) state (state.slot bucket index) state :=
  solo_atomically.mpr rfl

/-- Alone, an exchange of the word that is there succeeds. -/
theorem solo_exchangeSlot {current : Packed} (found : state.slot bucket index = current)
    (new : Packed) :
    Solo (exchangeSlot bucket index current new) state true (state.setSlot bucket index new) := by
  subst found
  refine solo_atomically.mpr ?_
  simp [Shared.exchange]

/-- A slot is swapped in the first round if its word is accepted. -/
theorem solo_swapSlot (accepts : Packed → Bool) (swap : Packed → Packed) :
    if accepts (state.slot bucket index) then
      Solo (swapSlot bucket index accepts swap) state true
        (state.setSlot bucket index (swap (state.slot bucket index)))
    else Solo (swapSlot bucket index accepts swap) state false state := by
  split <;> rename_i accepted
  · refine Solo.repeatUntil (solo_bind.mpr ⟨_, _, solo_loadSlot, ?_⟩)
    simp only [accepted]
    exact solo_bind.mpr ⟨_, _, solo_exchangeSlot rfl _, .ret⟩
  · refine Solo.repeatUntil (solo_bind.mpr ⟨_, _, solo_loadSlot, ?_⟩)
    simp only [accepted]
    exact .ret

/-! ### Scans of a bucket -/

/-- Alone, a scan swaps the first word it accepts, if there is one. -/
def Scans (bucket : Nat) (accepts : Packed → Bool) (swap : Packed → Packed) (state : Shared Key)
    (indices : List Nat) (scan : Prog Key Bool) : Prop :=
  match indices.find? fun index => accepts (state.slot bucket index) with
  | some index => Solo scan state true
      (state.setSlot bucket index (swap (state.slot bucket index)))
  | none => Solo scan state false state

/-- A scan that begins with one slot. -/
theorem Scans.cons {accepts : Packed → Bool} {swap : Packed → Packed} {rest : List Nat}
    {scan later : Prog Key Bool} (scans : Scans bucket accepts swap state rest later)
    (here : accepts (state.slot bucket index) = true → Solo scan state true
      (state.setSlot bucket index (swap (state.slot bucket index))))
    (there : accepts (state.slot bucket index) = false →
      ∀ done last, Solo later state done last → Solo scan state done last) :
    Scans bucket accepts swap state (index :: rest) scan := by
  unfold Scans at scans ⊢
  rw [List.find?_cons]
  cases accepted : accepts (state.slot bucket index) with
  | true => exact here accepted
  | false =>
    dsimp only
    split <;> rename_i found
    · rw [found] at scans
      exact there accepted _ _ scans
    · rw [found] at scans
      exact there accepted _ _ scans

theorem scans_swapInBucket (accepts : Packed → Bool) (swap : Packed → Packed) (indices : List Nat) :
    Scans bucket accepts swap state indices (swapInBucket bucket accepts swap indices) := by
  induction indices with
  | nil => exact .ret
  | cons index rest ih =>
    have here := @solo_swapSlot _ state bucket index accepts swap
    refine ih.cons (fun accepted => ?_) fun refused done last ran => ?_
    · rw [if_pos accepted] at here
      exact solo_bind.mpr ⟨_, _, here, .ret⟩
    · rw [if_neg (by rw [refused]; decide)] at here
      exact solo_bind.mpr ⟨_, _, here, ran⟩

theorem scans_claimEmpty (new : Packed) (indices : List Nat) :
    Scans bucket (fun packed => packed = .empty) (fun _ => new) state indices
      (claimEmpty new bucket indices) := by
  induction indices with
  | nil => exact .ret
  | cons index rest ih =>
    refine ih.cons (fun accepted => ?_) fun refused done last ran => ?_
    · have empty := of_decide_eq_true accepted
      refine solo_bind.mpr ⟨_, _, solo_peekSlot, ?_⟩
      rw [if_pos empty]
      exact solo_bind.mpr ⟨_, _, solo_exchangeSlot empty _, .ret⟩
    · refine solo_bind.mpr ⟨_, _, solo_peekSlot, ?_⟩
      rw [if_neg (of_decide_eq_false refused)]
      exact ran

theorem scans_claimGhost (new : Packed) (indices : List Nat) :
    Scans bucket Packed.isGhost (fun _ => new) state indices (claimGhost new bucket indices) := by
  induction indices with
  | nil => exact .ret
  | cons index rest ih =>
    refine ih.cons (fun accepted => ?_) fun refused done last ran => ?_
    · refine solo_bind.mpr ⟨_, _, solo_peekSlot, ?_⟩
      rw [if_pos accepted]
      refine solo_bind.mpr ⟨_, _, solo_peekSlot, ?_⟩
      rw [if_pos accepted]
      exact solo_bind.mpr ⟨_, _, solo_exchangeSlot rfl _, .ret⟩
    · refine solo_bind.mpr ⟨_, _, solo_peekSlot, ?_⟩
      rw [if_neg (by rw [refused]; decide)]
      exact ran

/-! ### The stripe lock -/

/-- The table with other stripes locked. -/
def Shared.withLocked (state : Shared Key) (locked : Nat → Bool) : Shared Key :=
  { state with locked := locked }

theorem solo_lockStripe {stripe : Nat} {value : Unit} {last : Shared Key}
    (ran : Solo (lockStripe stripe) state value last) :
    last = state.withLocked (Function.update state.locked stripe true) := by
  unfold lockStripe at ran
  rw [solo_whenEnabled] at ran
  exact (Prod.mk.inj ran.2).2.symm

theorem solo_unlockStripe {stripe : Nat} {value : Unit} {last : Shared Key}
    (ran : Solo (unlockStripe stripe) state value last) : last.slot = state.slot := by
  unfold unlockStripe at ran
  rw [solo_atomically] at ran
  rw [← (Prod.mk.inj ran).2]

/-! ### The slot that is claimed -/

/-- A ghost of a key with this tag. -/
def isGhostOf (tag : BitVec 12) (packed : Packed) : Bool := packed.tag = tag && packed.isGhost

/-- A bucket with a slot that publishes nothing. -/
def hasRoom (state : Shared Key) (bucket : Nat) : Bool :=
  slots.any fun index => !(state.slot bucket index).isLive

/-- The slots of the table after a new entry has been claimed in a bucket. -/
inductive Filled (tag : BitVec 12) (location : Location) (state : Shared Key) (bucket : Nat) :
    Shared Key → Prop where
  | ghost {index : Nat} : index ∈ slots → isGhostOf tag (state.slot bucket index) = true →
      Filled tag location state bucket
        (state.setSlot bucket index ⟨tag, (state.slot bucket index).freq, location⟩)
  | room {index : Nat} : index ∈ slots →
      (∀ other ∈ slots, isGhostOf tag (state.slot bucket other) = false) →
      (state.slot bucket index).isLive = false →
      Filled tag location state bucket (state.setSlot bucket index ⟨tag, 1, location⟩)

theorem isLive_eq (packed : Packed) :
    packed.isLive = (decide (packed ≠ .empty) && !packed.isGhost) := by
  unfold Packed.isLive Packed.isGhost
  by_cases empty : packed = .empty
  · simp [empty]
  · simp [empty]

/-- **What a claim takes in a bucket**: a ghost of the tag, or else an empty slot or another ghost. -/
theorem solo_tryClaimNewSlot (tag : BitVec 12) (location : Location) (state : Shared Key)
    (bucket : Nat) :
    if hasRoom state bucket then
      ∃ last, Filled tag location state bucket last ∧
        Solo (tryClaimNewSlot tag ⟨tag, 1, location⟩ bucket) state true last
    else Solo (tryClaimNewSlot tag ⟨tag, 1, location⟩ bucket) state false state := by
  have matching := @scans_swapInBucket _ state bucket (isGhostOf tag)
    (fun packed => Packed.withFreq ⟨tag, 1, location⟩ packed.freq) slots
  have empty := @scans_claimEmpty _ state bucket ⟨tag, 1, location⟩ slots
  have ghost := @scans_claimGhost _ state bucket ⟨tag, 1, location⟩ slots
  unfold Scans at matching empty ghost
  have room : ∀ index ∈ slots, (state.slot bucket index).isLive = false →
      hasRoom state bucket = true := fun index inside dead =>
    List.any_eq_true.mpr ⟨index, inside, by rw [dead]; rfl⟩
  cases foundMatching : slots.find? fun index => isGhostOf tag (state.slot bucket index) with
  | some index =>
    rw [foundMatching] at matching
    have inside := List.mem_of_find?_eq_some foundMatching
    have found := List.find?_some foundMatching
    have isGhost : (state.slot bucket index).isGhost = true := by
      rw [isGhostOf, Bool.and_eq_true] at found
      exact found.2
    rw [if_pos (room index inside (by rw [isLive_eq, isGhost]; simp))]
    exact ⟨_, .ghost inside found, solo_bind.mpr ⟨_, _, matching, .ret⟩⟩
  | none =>
    rw [foundMatching] at matching
    have others : ∀ other ∈ slots, isGhostOf tag (state.slot bucket other) = false :=
      fun other inside => Bool.eq_false_iff.mpr (List.find?_eq_none.mp foundMatching other inside)
    cases foundEmpty : slots.find? fun index => decide (state.slot bucket index = .empty) with
    | some index =>
      rw [foundEmpty] at empty
      have inside := List.mem_of_find?_eq_some foundEmpty
      have found := (List.find?_eq_some_iff_append.mp foundEmpty).1
      have dead : (state.slot bucket index).isLive = false := by
        rw [of_decide_eq_true found]
        rfl
      rw [if_pos (room index inside dead)]
      exact ⟨_, .room inside others dead, solo_bind.mpr ⟨_, _, matching,
        solo_bind.mpr ⟨_, _, empty, .ret⟩⟩⟩
    | none =>
      rw [foundEmpty] at empty
      cases foundGhost : slots.find? fun index => (state.slot bucket index).isGhost with
      | some index =>
        rw [foundGhost] at ghost
        have inside := List.mem_of_find?_eq_some foundGhost
        have dead : (state.slot bucket index).isLive = false := by
          rw [isLive_eq, show _ = true from List.find?_some foundGhost]
          simp
        rw [if_pos (room index inside dead)]
        exact ⟨_, .room inside others dead, solo_bind.mpr ⟨_, _, matching,
          solo_bind.mpr ⟨_, _, empty, ghost⟩⟩⟩
      | none =>
        rw [foundGhost] at ghost
        rw [if_neg]
        · exact solo_bind.mpr ⟨_, _, matching, solo_bind.mpr ⟨_, _, empty, ghost⟩⟩
        · intro some
          obtain ⟨index, inside, dead⟩ := List.any_eq_true.mp some
          rw [isLive_eq, decide_eq_true (of_decide_eq_false (Bool.eq_false_iff.mpr
            (List.find?_eq_none.mp foundEmpty index inside))),
            Bool.eq_false_iff.mpr (List.find?_eq_none.mp foundGhost index inside)] at dead
          cases dead

/-- The first bucket with room is the one that is claimed. -/
theorem solo_firstBucket (tag : BitVec 12) (location : Location) (state : Shared Key)
    (choices : List Nat) :
    match choices.find? (hasRoom state) with
    | some bucket => ∃ last, Filled tag location state bucket last ∧
        Solo (firstBucket (tryClaimNewSlot tag ⟨tag, 1, location⟩) choices) state true last
    | none => Solo (firstBucket (tryClaimNewSlot tag ⟨tag, 1, location⟩) choices) state false
        state := by
  induction choices with
  | nil => exact .ret
  | cons bucket rest ih =>
    have here := solo_tryClaimNewSlot tag location state bucket
    rw [List.find?_cons]
    cases room : hasRoom state bucket with
    | true =>
      rw [if_pos room] at here
      obtain ⟨last, claimed, ran⟩ := here
      exact ⟨last, claimed, solo_bind.mpr ⟨_, _, ran, .ret⟩⟩
    | false =>
      rw [if_neg (by rw [room]; decide)] at here
      dsimp only
      split <;> rename_i found
      · rw [found] at ih
        obtain ⟨last, claimed, ran⟩ := ih
        exact ⟨last, claimed, solo_bind.mpr ⟨_, _, here, ran⟩⟩
      · rw [found] at ih
        exact solo_bind.mpr ⟨_, _, here, ih⟩

/-- A claim in the candidates, where one of them has room. -/
theorem solo_claimChoices (several : Bool) (tag : BitVec 12) (location : Location)
    {choices : List Nat} (first : choices.find? (hasRoom state) = some bucket) :
    ∃ last, Filled tag location state bucket last ∧
      Solo (claimChoices tag ⟨tag, 1, location⟩ choices several) state (some .created) last := by
  have here := solo_firstBucket tag location state choices
  rw [first] at here
  obtain ⟨last, claimed, ran⟩ := here
  exact ⟨last, claimed, solo_bind.mpr ⟨_, _, ran, .ret⟩⟩

end Scans

/-! ### An insert alone -/

section Insert

/-- An answer that names no match. -/
def Lookup.Misses {α : Type} : Lookup α → Prop
  | .found _ => False
  | .absent | .unknown _ => True

/-- Scans that find nothing and change nothing, one after the other. -/
theorem solo_foldChoices {state : Shared Key} {scan : Nat → Prog Key (Lookup Location)}
    (unknown : Option Location) (places : List Nat)
    (misses : ∀ place ∈ places, ∃ answer : Lookup Location, answer.Misses ∧
      Solo (scan place) state answer state) :
    ∃ answer : Lookup Location, answer.Misses ∧
      Solo (foldChoices scan unknown places) state answer state := by
  induction places generalizing unknown with
  | nil =>
    cases unknown with
    | none => exact ⟨.absent, trivial, .ret⟩
    | some location => exact ⟨.unknown location, trivial, .ret⟩
  | cons place rest ih =>
    obtain ⟨here, missed, ran⟩ := misses place (.head _)
    have later := fun unknown => ih unknown fun other member => misses other (.tail _ member)
    cases here with
    | found old => exact missed.elim
    | absent =>
      obtain ⟨answer, missed, rest⟩ := later unknown
      exact ⟨answer, missed, solo_bind.mpr ⟨_, _, ran, rest⟩⟩
    | unknown location =>
      obtain ⟨answer, missed, rest⟩ := later (unknown.or (some location))
      exact ⟨answer, missed, solo_bind.mpr ⟨_, _, ran, rest⟩⟩

variable [DecidableEq Key] (geometry : Geometry Key) {state last : Shared Key} {key : Key}
  {location : Location} {bucket index : Nat}

/-- None of the key's candidate buckets holds an entry of it. -/
def NoCandidate (state : Shared Key) (key : Key) : Prop :=
  ∀ bucket ∈ geometry.choices key, ∀ index ∈ slots, ¬ state.HasEntry bucket index key

/-- A ghost of the key's tag in one of its candidate buckets. -/
def HasGhost (state : Shared Key) (key : Key) (bucket index : Nat) : Prop :=
  bucket ∈ geometry.choices key ∧ index ∈ slots ∧
    isGhostOf (geometry.tag key) (state.slot bucket index) = true

/-- The first candidate bucket with room holds a ghost of the key's tag. -/
def FirstRoomHasGhost (state : Shared Key) (key : Key) : Prop :=
  ∃ bucket, (geometry.choices key).find? (hasRoom state) = some bucket ∧
    ∃ index, HasGhost geometry state key bucket index

/-- The new entry takes a ghost of its key's tag over: it carries the ghost's frequency, and no ghost
of the tag is left if there was but one. -/
structure Resurrects (key : Key) (location : Location) (state last : Shared Key) : Prop where
  taken : ∃ bucket index, HasGhost geometry state key bucket index ∧
    last.slot bucket index = ⟨geometry.tag key, (state.slot bucket index).freq, location⟩
  only : (∀ bucket index bucket' index', HasGhost geometry state key bucket index →
      HasGhost geometry state key bucket' index' → bucket = bucket' ∧ index = index') →
    ∀ bucket index, ¬ HasGhost geometry last key bucket index

variable {geometry}

/-- A candidate that is no entry of the key is not replaced. -/
theorem solo_replaceSlot (absent : ¬ state.HasEntry bucket index key) (tag : BitVec 12)
    (new : Packed) : ∃ answer : Lookup Location, answer.Misses ∧
      Solo (replaceSlot tag key new bucket index) state answer state := by
  by_cases candidate : (!(state.slot bucket index).isLive ||
      decide ((state.slot bucket index).tag ≠ tag)) = true
  · refine ⟨.absent, trivial, Solo.repeatUntil (solo_bind.mpr ⟨_, _, solo_loadSlot, ?_⟩)⟩
    rw [if_pos candidate]
    exact .ret
  · have live : (state.slot bucket index).isLive = true := by
      rw [Bool.or_eq_true, not_or, Bool.not_eq_true', Bool.not_eq_false] at candidate
      exact candidate.1
    by_cases readable : state.readable (state.slot bucket index).location = true
    · cases held : state.item (state.slot bucket index).location with
      | none =>
        refine ⟨.unknown (state.slot bucket index).location, trivial,
          Solo.repeatUntil (solo_bind.mpr ⟨_, _, solo_loadSlot, ?_⟩)⟩
        rw [if_neg candidate]
        refine solo_bind.mpr ⟨.unknown _, state, solo_atomically.mpr ?_, .ret⟩
        rw [if_pos readable, held]
      | some other =>
        have different : other ≠ key := fun same => absent ⟨live, by rw [held, same]⟩
        refine ⟨.absent, trivial, Solo.repeatUntil (solo_bind.mpr ⟨_, _, solo_loadSlot, ?_⟩)⟩
        rw [if_neg candidate]
        refine solo_bind.mpr ⟨.differentKey, state, solo_atomically.mpr ?_, .ret⟩
        rw [if_pos readable, held]
        simp [different]
    · refine ⟨.unknown (state.slot bucket index).location, trivial,
        Solo.repeatUntil (solo_bind.mpr ⟨_, _, solo_loadSlot, ?_⟩)⟩
      rw [if_neg candidate]
      refine solo_bind.mpr ⟨.unknown _, state, solo_atomically.mpr ?_, .ret⟩
      rw [if_neg readable]

/-- The slots of a bucket are scanned as the buckets are. -/
theorem replaceInSlots_eq (tag : BitVec 12) (new : Packed) (unknown : Option Location)
    (indices : List Nat) : replaceInSlots tag key new bucket unknown indices =
      foldChoices (replaceSlot tag key new bucket) unknown indices := by
  induction indices generalizing unknown with
  | nil => rfl
  | cons index rest ih =>
    simp only [replaceInSlots, foldChoices, ih, Program.bind_eq]
    congr 1
    funext answer
    cases answer <;> rfl

/-- **The scans for an entry to replace** find none, and change nothing. -/
theorem solo_replace (absent : NoCandidate geometry state key) (tag : BitVec 12) (new : Packed) :
    ∃ answer : Lookup Location, answer.Misses ∧
      Solo (foldChoices (tryReplaceExisting tag key new) none (geometry.choices key)) state answer
        state := by
  refine solo_foldChoices none _ fun bucket choice => ?_
  rw [tryReplaceExisting, replaceInSlots_eq]
  exact solo_foldChoices none _ fun index inside =>
    solo_replaceSlot (absent bucket choice index inside) tag new

/-- **The slot that an insert alone claims** lies in the first candidate bucket with room. -/
theorem insert_created (absent : NoCandidate geometry state key)
    (first : (geometry.choices key).find? (hasRoom state) = some bucket)
    (created : Solo (insert geometry key location) state (some .created) last) :
    ∃ locked claimed, Filled (geometry.tag key) location (state.withLocked locked) bucket claimed ∧
      last.slot = claimed.slot := by
  have missed := fun (locked : Nat → Bool) => @solo_replace _ _ geometry (state.withLocked locked)
    key absent (geometry.tag key) ⟨geometry.tag key, 1, location⟩
  obtain ⟨answer, seen, scan, created⟩ := solo_bind.mp created
  obtain ⟨expected, misses, ran⟩ := missed state.locked
  obtain ⟨rfl, rfl⟩ := ran.deterministic scan
  cases expected with
  | found old => exact misses.elim
  | unknown location => cases created
  | absent =>
    obtain ⟨_, held, locks, created⟩ := solo_bind.mp created
    obtain rfl := solo_lockStripe locks
    -- the re-check under the lock
    obtain ⟨answer, seen, scan, created⟩ := solo_bind.mp created
    obtain ⟨expected, misses, ran⟩ := missed (Function.update state.locked (geometry.stripe key) true)
    obtain ⟨rfl, rfl⟩ := ran.deterministic scan
    cases expected with
    | found old => exact misses.elim
    | unknown location =>
      obtain ⟨_, _, _, returned⟩ := solo_bind.mp created
      cases returned
    | absent =>
      obtain ⟨result, after, claims, created⟩ := solo_bind.mp created
      obtain ⟨_, freed, unlocks, returned⟩ := solo_bind.mp created
      obtain ⟨-, rfl⟩ := solo_ret.mp returned
      have room : (geometry.choices key).find? (hasRoom (state.withLocked
        (Function.update state.locked (geometry.stripe key) true))) = some bucket := first
      obtain ⟨claimed, holds, ran⟩ := solo_claimChoices (1 < geometry.numChoices) (geometry.tag key)
        location room
      obtain ⟨-, rfl⟩ := ran.deterministic claims
      exact ⟨_, _, holds, solo_unlockStripe unlocks⟩

theorem isGhostOf_location {tag : BitVec 12} {packed : Packed} (ghost : isGhostOf tag packed = true) :
    packed.location = Location.ghost := by
  rw [isGhostOf, Bool.and_eq_true] at ghost
  exact Packed.isGhost_location ghost.2

/-- A bucket with a ghost has room. -/
theorem HasGhost.hasRoom (ghost : HasGhost geometry state key bucket index) :
    hasRoom state bucket = true := by
  obtain ⟨-, inside, found⟩ := ghost
  refine List.any_eq_true.mpr ⟨index, inside, ?_⟩
  rw [Packed.not_isLive_of_ghost (isGhostOf_location found)]
  rfl

/-- Taking a ghost over resurrects it. -/
theorem resurrects_of_taken (real : location ≠ Location.ghost)
    (ghost : HasGhost geometry state key bucket index)
    (written : last.slot = (state.setSlot bucket index
      ⟨geometry.tag key, (state.slot bucket index).freq, location⟩).slot) :
    Resurrects geometry key location state last := by
  refine ⟨⟨bucket, index, ghost, ?_⟩, fun unique bucket' index' left => ?_⟩
  · rw [written, Shared.setSlot_slot, if_pos ⟨rfl, rfl⟩]
  · obtain ⟨choice, inside, found⟩ := left
    rw [written, Shared.setSlot_slot] at found
    split at found
    · exact real (isGhostOf_location found)
    · rename_i elsewhere
      exact elsewhere (unique bucket' index' bucket index ⟨choice, inside, found⟩ ghost)

/-- Taking anything else leaves every ghost of the key as it was. -/
theorem not_resurrects (real : location ≠ Location.ghost) {new : Packed}
    (other : isGhostOf (geometry.tag key) (state.slot bucket index) = false)
    (written : last.slot = (state.setSlot bucket index new).slot) :
    ¬ Resurrects geometry key location state last := by
  rintro ⟨⟨bucket', index', ⟨-, -, found⟩, taken⟩, -⟩
  rw [written, Shared.setSlot_slot] at taken
  split at taken
  · rename_i same
    rw [same.1, same.2, other] at found
    cases found
  · have location := congrArg Packed.location taken
    rw [isGhostOf_location found] at location
    exact real location.symm

/-- **A ghost of the key is taken over exactly when the first candidate bucket with room holds one.** -/
theorem resurrects_iff (real : location ≠ Location.ghost) (absent : NoCandidate geometry state key)
    (ghost : ∃ bucket index, HasGhost geometry state key bucket index)
    (created : Solo (insert geometry key location) state (some .created) last) :
    Resurrects geometry key location state last ↔ FirstRoomHasGhost geometry state key := by
  obtain ⟨bucket, first⟩ : ∃ bucket,
      (geometry.choices key).find? (hasRoom state) = some bucket := by
    obtain ⟨bucket, index, ghost⟩ := ghost
    exact Option.isSome_iff_exists.mp
      (List.find?_isSome.mpr ⟨bucket, ghost.1, ghost.hasRoom⟩)
  have choice := List.mem_of_find?_eq_some first
  obtain ⟨locked, claimed, claim, written⟩ := insert_created absent first created
  cases claim with
  | @ghost index inside found =>
    have ghost : HasGhost geometry state key bucket index := ⟨choice, inside, found⟩
    exact ⟨fun _ => ⟨bucket, first, index, ghost⟩, fun _ => resurrects_of_taken real ghost written⟩
  | @room index inside others dead =>
    refine ⟨fun resurrects => absurd resurrects (not_resurrects real (others index inside) written),
      fun holds => ?_⟩
    obtain ⟨bucket', first', index', -, inside', found⟩ := holds
    obtain rfl : bucket = bucket' := Option.some.inj (first.symm.trans first')
    exact absurd found (Bool.eq_false_iff.mp (others index' inside'))

end Insert

/-! ### An empty slot in an earlier bucket -/

/-- Sixteen buckets and two choices: every key's tag is 1, its candidate buckets are 0 and 1. -/
def twoChoices : Geometry Nat :=
  { colliding with
    hashKey := fun _ => 0x100000000
    numChoices := 2
    numChoices_ge := by decide
    numChoices_le := by decide }

/-- An empty table but for a ghost of frequency 5. -/
def ghostIn (bucket : Nat) : Shared Nat where
  slot := fun b i => if b = bucket ∧ i = 0 then ⟨1, 5, Location.ghost⟩ else .empty
  locked := fun _ => false
  random := 0
  item := fun _ => none
  readable := fun _ => true

theorem ghostIn_slot (bucket b i : Nat) : (ghostIn bucket).slot b i =
    if b = bucket ∧ i = 0 then ⟨1, 5, Location.ghost⟩ else .empty := rfl

theorem noCandidate_ghostIn (bucket : Nat) (key : Nat) :
    NoCandidate twoChoices (ghostIn bucket) key := by
  rintro b - i - ⟨-, held⟩
  cases held

/-- What an insert into such a table leaves. -/
theorem ghostIn_insert (bucket : Fin 2) : ∃ last,
    Solo (insert twoChoices 0 7) (ghostIn bucket) (some .created) last ∧
      last.slot 0 0 = ⟨1, if bucket = 0 then 5 else 1, 7⟩ ∧
      last.slot 1 0 = if bucket = 0 then .empty else ⟨1, 5, Location.ghost⟩ := by
  have ran : ((insert twoChoices 0 7).alone 100 (ghostIn bucket)).any (fun outcome =>
      outcome.1 = some .created && outcome.2.slot 0 0 = ⟨1, if bucket = 0 then 5 else 1, 7⟩ &&
        outcome.2.slot 1 0 = if bucket = 0 then .empty else ⟨1, 5, Location.ghost⟩) = true := by
    revert bucket
    decide +kernel
  cases outcome : (insert twoChoices 0 7).alone 100 (ghostIn bucket) with
  | none =>
    rw [outcome] at ran
    cases ran
  | some pair =>
    obtain ⟨answer, last⟩ := pair
    rw [outcome] at ran
    simp only [Option.any_some, Bool.and_eq_true, decide_eq_true_eq] at ran
    obtain ⟨⟨rfl, first⟩, second⟩ := ran
    exact ⟨last, solo_of_alone outcome, first, second⟩

theorem hasGhost_ghostIn {bucket : Nat} (choice : bucket ∈ twoChoices.choices 0) :
    HasGhost twoChoices (ghostIn bucket) 0 bucket 0 := by
  refine ⟨choice, by decide, ?_⟩
  rw [ghostIn_slot, if_pos ⟨rfl, rfl⟩]
  decide

/-- One thread, at an insert. -/
def inserting (state : Shared Nat) : Config Unit (Shared Nat) (Label Nat) (History Unit Nat) where
  world := ⟨state, .new⟩
  thread := fun _ => (insert twoChoices 0 7).bind fun _ => .ret ()

/-- A ghost in the first bucket is taken over. -/
theorem resurrects_first : ∃ last,
    Solo (insert twoChoices 0 7) (ghostIn 0) (some .created) last ∧
      Resurrects twoChoices 0 7 (ghostIn 0) last := by
  obtain ⟨last, ran, -⟩ := ghostIn_insert 0
  have ghost := @hasGhost_ghostIn 0 (by decide)
  exact ⟨last, ran, (resurrects_iff (by decide) (noCandidate_ghostIn 0 0) ⟨0, 0, ghost⟩ ran).mpr
    ⟨0, by decide, 0, ghost⟩⟩

/-- **A ghost that is passed over.** The first bucket has an empty slot, the ghost is in the second:
the new entry has the frequency of a new key, and the ghost stays. -/
theorem passed_over_run : NoCandidate twoChoices (ghostIn 1) 0 ∧
    (∃ bucket index, HasGhost twoChoices (ghostIn 1) 0 bucket index) ∧
    ∃ last, Solo (insert twoChoices 0 7) (ghostIn 1) (some .created) last ∧
      (∃ config, Reachable (record twoChoices) (fun _ _ _ => True) (inserting (ghostIn 1)) config ∧
        config.world.shared = last) ∧
      last.slot 0 0 = ⟨1, 1, 7⟩ ∧ last.slot 1 0 = ⟨1, 5, Location.ghost⟩ ∧
      ¬ Resurrects twoChoices 0 7 (ghostIn 1) last := by
  obtain ⟨last, ran, first, second⟩ := ghostIn_insert 1
  obtain ⟨config, reached, shared, -⟩ := @Solo.reachable _ _ _ _ _ _ (record twoChoices) _ _ _ _ ran
    (inserting (ghostIn 1)) () _ rfl rfl
  refine ⟨noCandidate_ghostIn 1 0, ⟨1, 0, hasGhost_ghostIn (by decide)⟩, last, ran,
    ⟨config, reached, shared⟩, first, second, fun resurrects => ?_⟩
  obtain ⟨bucket, index, ⟨-, -, found⟩, taken⟩ := resurrects.taken
  -- the only ghost is still there
  obtain ⟨rfl, rfl⟩ : bucket = 1 ∧ index = 0 := by
    by_contra elsewhere
    rw [ghostIn_slot, if_neg elsewhere] at found
    revert found
    decide
  rw [second] at taken
  exact absurd (congrArg Packed.location taken) (by decide)

end CacheRs.Hashtable
