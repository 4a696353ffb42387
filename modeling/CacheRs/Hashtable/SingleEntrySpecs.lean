/-
**What each operation of the table does to its key's entries.**

A scan examines candidate slots one by one while the other threads move entries in place or remove
them. What it knows at each point is a fact about the slots it has left (`ScanFact`): an entry of
the key is in one of them or was gone at some instant (`Seeks`), or, under the key's stripe lock,
no entry is anywhere else (`Bars`). An unverifiable candidate ends both.

* `searchBucket_spec`, `tryReplaceExisting_spec`, `foldChoices_spec`: the scans;
* `swapInBucket_spec`, `firstBucket_spec`: the same-slot retry loops;
* `tryClaimNewSlot_spec`, `claimChoices_spec`: creation;
* `lookup_spec`, `insert_spec`: the answers.
-/

import CacheRs.Hashtable.SingleEntry

set_option linter.unusedSectionVars false

namespace CacheRs.Hashtable

open Concurrency

variable {Tid Key : Type} [DecidableEq Tid] [DecidableEq Key] {geometry : Geometry Key} {t : Tid}
  {key : Key} {world after : TableWorld Tid Key}

/-! ### What a scan knows -/

/-- A fact about the slots a scan has left that survives the other threads and the examination of a
slot without an entry of the key. -/
structure ScanFact (geometry : Geometry Key) (t : Tid) (key : Key)
    (known : Set (Nat × Nat) → TableWorld Tid Key → Prop) : Prop where
  rely : ∀ left world after, known left world → Rely geometry t world after → known left after
  drop : ∀ left world bucket index, known ({(bucket, index)} ∪ left) world →
    ¬ world.shared.HasEntry bucket index key → known left world

/-- The key's entry is in a slot left, or was gone at some instant of the call. -/
def Seeks (t : Tid) (key : Key) (left : Set (Nat × Nat)) (world : TableWorld Tid Key) : Prop :=
  Gone t key world ∨ ∃ bucket index, (bucket, index) ∈ left ∧
    world.shared.HasEntry bucket index key

/-- The thread holds the key's stripe, and the key has no entry but in the slots left. -/
def Bars (geometry : Geometry Key) (t : Tid) (key : Key) (left : Set (Nat × Nat))
    (world : TableWorld Tid Key) : Prop :=
  world.history.holder (geometry.stripe key) = some t ∧
    ∀ bucket index, world.shared.HasEntry bucket index key → (bucket, index) ∈ left

theorem scanFact_seeks : ScanFact geometry t key (Seeks t key) := by
  refine ⟨fun left world after seeks moved => ?_, fun left world b i seeks none => ?_⟩
  · rcases seeks with gone | ⟨b, i, member, entry⟩
    · exact .inl (moved.gone key gone)
    · rcases moved.stays key b i entry with still | gone
      · exact .inr ⟨b, i, member, still⟩
      · exact .inl gone
  · rcases seeks with gone | ⟨b', i', member, entry⟩
    · exact .inl gone
    · rcases member with here | later
      · obtain ⟨rfl, rfl⟩ := Prod.mk.inj here
        exact absurd entry none
      · exact .inr ⟨b', i', later, entry⟩

theorem scanFact_bars : ScanFact geometry t key (Bars geometry t key) := by
  refine ⟨fun left world after bars moved => ?_, fun left world b i bars none => ?_⟩
  · exact ⟨moved.holder _ bars.1, fun b i entry =>
      bars.2 b i (moved.fresh key bars.1 b i entry)⟩
  · refine ⟨bars.1, fun b' i' entry => ?_⟩
    rcases bars.2 b' i' entry with here | later
    · obtain ⟨rfl, rfl⟩ := Prod.mk.inj here
      exact absurd entry none
    · exact later

/-- A scan that need not know anything. -/
theorem scanFact_true :
    ScanFact geometry t key (fun _ (_ : TableWorld Tid Key) => True) :=
  ⟨fun _ _ _ _ _ => trivial, fun _ _ _ _ _ _ => trivial⟩

/-- Some slots of one bucket. -/
def span (bucket : Nat) (indices : List Nat) : Set (Nat × Nat) :=
  {slot | slot.1 = bucket ∧ slot.2 ∈ indices}

theorem span_cons (bucket index : Nat) (rest : List Nat) (left : Set (Nat × Nat)) :
    span bucket (index :: rest) ∪ left =
      {(bucket, index)} ∪ (span bucket rest ∪ left) := by
  ext ⟨b, i⟩
  simp only [span, Set.mem_union, Set.mem_ofPred_eq, List.mem_cons, Set.mem_singleton_iff,
    Prod.mk.injEq]
  tauto

theorem span_nil (bucket : Nat) (left : Set (Nat × Nat)) : span bucket [] ∪ left = left := by
  ext ⟨b, i⟩
  simp [span]

/-- The slots of several buckets. -/
def spans (buckets : List Nat) : Set (Nat × Nat) :=
  {slot | slot.1 ∈ buckets ∧ slot.2 ∈ slots}

theorem spans_cons (bucket : Nat) (rest : List Nat) :
    spans (bucket :: rest) = span bucket slots ∪ spans rest := by
  ext ⟨b, i⟩
  simp only [spans, span, Set.mem_union, Set.mem_ofPred_eq, List.mem_cons]
  tauto

theorem spans_nil : spans [] = ∅ := by
  ext ⟨b, i⟩
  simp [spans]

/-- An entry carries its key's tag and sits in a slot the key's scans examine. -/
theorem Shared.HasEntry.placed {bucket index : Nat} {state : Shared Key}
    (entry : state.HasEntry bucket index key) (sound : state.Sound geometry) :
    (state.slot bucket index).tag = geometry.tag key ∧
      (bucket, index) ∈ spans (geometry.choices key) := by
  obtain ⟨held, holds, tag, choice, inside⟩ := sound.placed bucket index entry.1
  obtain rfl : held = key := Option.some.inj (holds.symm.trans entry.2)
  exact ⟨tag, choice, List.mem_range.mpr inside⟩

/-- A slot that is not live, or carries another tag, has no entry of the key. -/
theorem no_entry_of_tag {bucket index : Nat} (kept : Consistent geometry world)
    (mismatch : (!(world.shared.slot bucket index).isLive ||
      decide ((world.shared.slot bucket index).tag ≠ geometry.tag key)) = true) :
    ¬ world.shared.HasEntry bucket index key := by
  intro entry
  have tag := (entry.placed kept.sound).1
  simp [entry.1, tag] at mismatch

/-! ### Scanning a bucket -/

section Scans

variable {known : Set (Nat × Nat) → TableWorld Tid Key → Prop}

theorem findTagMatches_spec (scan : ScanFact geometry t key known) (bucket : Nat)
    (indices : List Nat) (left : Set (Nat × Nat)) (kept : Consistent geometry world)
    (begun : known (span bucket indices ∪ left) world) :
    (singleEntry geometry).wp t (findTagMatches bucket (geometry.tag key) indices)
      (fun mask after => Rely geometry t world after ∧ known (span bucket mask ∪ left) after)
      world := by
  induction indices generalizing left world with
  | nil => exact ⟨.refl world, begun⟩
  | cons index rest ih =>
    rw [span_cons] at begun
    refine (Protocol.wp_bind ..).mpr (wp_peekSlot fun now moved keptNow => ?_)
    have still := scan.rely _ _ _ begun moved
    by_cases matching : ((now.shared.slot bucket index).isLive &&
        decide ((now.shared.slot bucket index).tag = geometry.tag key)) = true
    · rw [Set.union_left_comm] at still
      refine Protocol.wp_seq keptNow (ih _ keptNow still) fun mask last _ known => ?_
      rw [if_pos matching]
      refine ⟨moved.trans known.1, ?_⟩
      rw [span_cons, Set.union_left_comm]
      exact known.2
    · have none : ¬ now.shared.HasEntry bucket index key := by
        refine no_entry_of_tag keptNow ?_
        simpa [imp_iff_not_or] using matching
      refine Protocol.wp_seq keptNow (ih _ keptNow (scan.drop _ _ _ _ still none))
        fun mask last _ known => ?_
      rw [if_neg matching]
      exact ⟨moved.trans known.1, known.2⟩

/-- A bump swaps a word for one with the same tag and location. -/
theorem bumpFreq_spec {bucket index : Nat} {packed : Packed}
    (used : packed.isLive = true ∨ packed.isGhost = true) :
    (singleEntry geometry).wp t (bumpFreq bucket index packed)
      (fun _ after => Rely geometry t world after) world := by
  refine Protocol.wp_ite (fun _ => ?_) fun _ => .refl world
  refine (Protocol.wp_bind ..).mpr (wp_nextU64 fun draw now moved kept => ?_)
  cases bumped : packed.tryUpdateFreq packed.freq draw with
  | none => exact moved
  | some new =>
    obtain ⟨tag, location⟩ := Packed.tryUpdateFreq_keeps bumped
    refine (Protocol.wp_bind ..).mpr (wp_swap (fun last _ keptLast found => ?_)
      fun _ _ later _ => moved.trans later)
    rcases used with live | ghost
    · refine .inr ⟨live, ?_, tag, location ▸ rfl⟩
      obtain ⟨held, holds, -⟩ := keptLast.sound.placed bucket index (found ▸ live)
      obtain ⟨nonzero, real⟩ := keptLast.sound.real _ _ holds
      rw [found] at nonzero real
      exact Packed.isLive_of_location (location ▸ nonzero) (location ▸ real)
    · exact .inl (Packed.not_isLive_of_ghost (location.trans (Packed.isGhost_location ghost)))

theorem searchMask_spec (scan : ScanFact geometry t key known) (updateFreq : Bool) (bucket : Nat)
    (mask : List Nat) (left : Set (Nat × Nat)) (unknown : Option Location)
    (kept : Consistent geometry world)
    (begun : unknown = none → known (span bucket mask ∪ left) world) :
    (singleEntry geometry).wp t
      (searchMask updateFreq bucket (geometry.tag key) key unknown mask)
      (fun result after => Rely geometry t world after ∧ (result = .absent → known left after))
      world := by
  induction mask generalizing unknown world with
  | nil =>
    cases unknown with
    | none => exact ⟨.refl world, fun _ => span_nil bucket left ▸ begun rfl⟩
    | some location => exact ⟨.refl world, (fun absent => by cases absent)⟩
  | cons index rest ih =>
    rw [span_cons] at begun
    refine (Protocol.wp_bind ..).mpr (wp_loadSlot fun loaded moved keptLoaded hand => ?_)
    have still := fun none => scan.rely _ _ _ (begun none) moved
    refine Protocol.wp_ite (fun mismatch => ?_) fun matching => ?_
    · have none := no_entry_of_tag keptLoaded mismatch
      refine Protocol.wp_mono keptLoaded (ih unknown keptLoaded fun isNone =>
        scan.drop _ _ _ _ (still isNone) none) fun _ _ _ result => ?_
      exact ⟨moved.trans result.1, result.2⟩
    · refine (Protocol.wp_bind ..).mpr (wp_verify (fun now later keptNow holds => ?_)
        (fun now later keptNow differs => ?_) fun now later keptNow => ?_)
      · have found : ∀ last, Rely geometry t now last → Rely geometry t world last ∧
            (Lookup.found (Hit.mk (loaded.shared.slot bucket index).location
              ⟨bucket, index, geometry.tag key⟩) = Lookup.absent → known left last) :=
          fun last rely => ⟨(moved.trans later).trans rely, (fun absent => by cases absent)⟩
        have live : (loaded.shared.slot bucket index).isLive = true := by
          simp only [Bool.or_eq_true, not_or] at matching
          simpa using matching.1
        refine Protocol.wp_ite (fun _ => ?_) fun _ => found now (.refl now)
        exact Protocol.wp_seq keptNow (bumpFreq_spec (.inl live)) fun _ last _ rely =>
          found last rely
      · have none : ¬ loaded.shared.HasEntry bucket index key := fun entry =>
          differs ((later.item _ hand).trans entry.2)
        refine Protocol.wp_mono keptNow (ih unknown keptNow fun isNone =>
          scan.rely _ _ _ (scan.drop _ _ _ _ (still isNone) none) later) fun _ _ _ result => ?_
        exact ⟨(moved.trans later).trans result.1, result.2⟩
      · refine Protocol.wp_mono keptNow (ih _ keptNow fun isNone => ?_) fun _ _ _ result => ?_
        · cases unknown <;> cases isNone
        · exact ⟨(moved.trans later).trans result.1, result.2⟩

/-- Scanning a bucket for the key: absent means that the entry is in none of its slots. -/
theorem searchBucket_spec (scan : ScanFact geometry t key known) (updateFreq : Bool) (bucket : Nat)
    (left : Set (Nat × Nat)) (kept : Consistent geometry world)
    (begun : known (span bucket slots ∪ left) world) :
    (singleEntry geometry).wp t (searchBucket updateFreq (geometry.tag key) key bucket)
      (fun result after => Rely geometry t world after ∧ (result = .absent → known left after))
      world := by
  refine Protocol.wp_seq kept (findTagMatches_spec scan bucket slots left kept begun)
    fun mask now keptNow known => ?_
  refine Protocol.wp_mono keptNow (searchMask_spec scan updateFreq bucket mask left none keptNow
    fun _ => known.2) fun _ _ _ result => ?_
  exact ⟨known.1.trans result.1, result.2⟩

/-- Scanning the candidate buckets one after the other. -/
theorem foldChoices_spec {α : Type} {search : Nat → Prog Key (Lookup α)}
    (assertion : TableWorld Tid Key → Prop)
    (stable : ∀ world after, assertion world → Rely geometry t world after → assertion after)
    (each : ∀ known : Set (Nat × Nat) → TableWorld Tid Key → Prop, ScanFact geometry t key known →
      ∀ bucket left world, Consistent geometry world → assertion world →
        known (span bucket slots ∪ left) world →
        (singleEntry geometry).wp t (search bucket) (fun result after =>
          Rely geometry t world after ∧ (result = .absent → known left after)) world)
    (scan : ScanFact geometry t key known) (buckets : List Nat) (unknown : Option Location)
    (kept : Consistent geometry world) (asserted : assertion world)
    (begun : unknown = none → known (spans buckets) world) :
    (singleEntry geometry).wp t (foldChoices search unknown buckets)
      (fun result after => Rely geometry t world after ∧ (result = .absent → known ∅ after))
      world := by
  induction buckets generalizing unknown world with
  | nil =>
    cases unknown with
    | none => exact ⟨.refl world, fun _ => spans_nil ▸ begun rfl⟩
    | some location => exact ⟨.refl world, (fun absent => by cases absent)⟩
  | cons bucket rest ih =>
    rw [spans_cons] at begun
    -- an unverifiable candidate has been seen, or the scan still knows its fact
    have searched : (singleEntry geometry).wp t (search bucket) (fun result after =>
        Rely geometry t world after ∧
          (result = .absent → unknown = none → known (spans rest) after)) world := by
      cases unknown with
      | none =>
        refine Protocol.wp_mono kept (each known scan bucket _ world kept asserted (begun rfl))
          fun _ _ _ result => ?_
        exact ⟨result.1, fun absent _ => result.2 absent⟩
      | some location =>
        refine Protocol.wp_mono kept (each _ scanFact_true bucket ∅ world kept asserted trivial)
          fun _ _ _ result => ?_
        exact ⟨result.1, fun _ isNone => by cases isNone⟩
    refine Protocol.wp_seq kept searched fun result now keptNow told => ?_
    have assertedNow := stable _ _ asserted told.1
    cases result with
    | found value => exact ⟨told.1, (fun absent => by cases absent)⟩
    | absent =>
      refine Protocol.wp_mono keptNow (ih unknown keptNow assertedNow (told.2 rfl))
        fun _ _ _ result => ?_
      exact ⟨told.1.trans result.1, result.2⟩
    | unknown location =>
      refine Protocol.wp_mono keptNow (ih _ keptNow assertedNow fun isNone => ?_)
        fun _ _ _ result => ?_
      · cases unknown <;> cases isNone
      · exact ⟨told.1.trans result.1, result.2⟩

end Scans

/-! ### Same-slot retry loops -/

section SwapLoops

variable {accepts : Packed → Bool} {swap : Packed → Packed}

/-- Every word the loop accepts may be swapped as the loop swaps it. -/
def MaySwap (geometry : Geometry Key) (t : Tid) (accepts : Packed → Bool)
    (swap : Packed → Packed) (world : TableWorld Tid Key) : Prop :=
  ∀ now, Rely geometry t world now → ∀ packed, accepts packed = true →
    Swaps now.shared packed (swap packed)

theorem MaySwap.rely (may : MaySwap geometry t accepts swap world)
    (moved : Rely geometry t world after) : MaySwap geometry t accepts swap after :=
  fun now later => may now (moved.trans later)

/-- The retry loop on one slot. -/
theorem swapSlot_spec (bucket index : Nat) (may : MaySwap geometry t accepts swap world) :
    (singleEntry geometry).wp t (swapSlot bucket index accepts swap)
      (fun _ after => Rely geometry t world after) world := by
  refine Protocol.wp_repeatUntil (fun _ now => Rely geometry t world now)
    (fun _ _ _ moved later _ => moved.trans later) (.refl world) fun _ now _ moved => ?_
  refine (Protocol.wp_bind ..).mpr (wp_loadSlot fun loaded later _ _ => ?_)
  refine Protocol.wp_ite (fun _ => moved.trans later) fun accepted => ?_
  refine (Protocol.wp_bind ..).mpr (wp_swap (fun last rely _ _ => ?_) fun done last rely _ => ?_)
  · exact may last ((moved.trans later).trans rely) _ (by simpa using accepted)
  · have reached := (moved.trans later).trans rely
    cases done with
    | true => exact reached
    | false => exact reached

theorem swapInBucket_spec (bucket : Nat) (indices : List Nat) (kept : Consistent geometry world)
    (may : MaySwap geometry t accepts swap world) :
    (singleEntry geometry).wp t (swapInBucket bucket accepts swap indices)
      (fun _ after => Rely geometry t world after) world := by
  induction indices generalizing world with
  | nil => exact .refl world
  | cons index rest ih =>
    refine Protocol.wp_seq kept (swapSlot_spec bucket index may) fun done now keptNow moved => ?_
    refine Protocol.wp_ite (fun _ => moved) fun _ => ?_
    exact Protocol.wp_mono keptNow (ih keptNow (may.rely moved)) fun _ _ _ later =>
      moved.trans later

theorem firstBucket_spec {attempt : Nat → Prog Key Bool} (assertion : TableWorld Tid Key → Prop)
    (stable : ∀ world after, assertion world → Rely geometry t world after → assertion after)
    (each : ∀ bucket world, Consistent geometry world → assertion world →
      (singleEntry geometry).wp t (attempt bucket) (fun _ after => Rely geometry t world after)
        world) (buckets : List Nat) (kept : Consistent geometry world)
    (asserted : assertion world) :
    (singleEntry geometry).wp t (firstBucket attempt buckets)
      (fun _ after => Rely geometry t world after) world := by
  induction buckets generalizing world with
  | nil => exact .refl world
  | cons bucket rest ih =>
    refine Protocol.wp_seq kept (each bucket world kept asserted) fun done now keptNow moved => ?_
    refine Protocol.wp_ite (fun _ => moved) fun _ => ?_
    exact Protocol.wp_mono keptNow (ih keptNow (stable _ _ asserted moved)) fun _ _ _ later =>
      moved.trans later

/-- Unlinking or ghosting an entry. -/
theorem maySwap_dead (dead : ∀ packed, (swap packed).isLive = false) :
    MaySwap geometry t accepts swap world := fun _ _ packed _ => .inl (dead packed)

/-- Moving an entry from one location of the key to another. -/
theorem maySwap_relink {tag : BitVec 12} {oldLocation newLocation : Location}
    {freq : Packed → BitVec 8} (kept : Consistent geometry world)
    (handedOld : Handed t key oldLocation world) (handedNew : Handed t key newLocation world) :
    MaySwap geometry t (publishes tag oldLocation)
      (fun packed => ⟨tag, freq packed, newLocation⟩) world := by
  intro now moved packed accepted
  simp only [publishes, Bool.and_eq_true, decide_eq_true_eq] at accepted
  obtain ⟨⟨live, sameTag⟩, sameLocation⟩ := accepted
  obtain ⟨nonzero, real⟩ := kept.sound.real _ _ handedNew.2
  refine .inr ⟨live, Packed.isLive_of_location nonzero real, sameTag.symm, ?_⟩
  rw [sameLocation]
  exact (handedNew.rely moved).2.trans (handedOld.rely moved).2.symm

end SwapLoops

/-! ### Replacement -/

section Replace

variable {known : Set (Nat × Nat) → TableWorld Tid Key → Prop} {newPacked : Packed}

theorem replaceSlot_spec (scan : ScanFact geometry t key known) (bucket index : Nat)
    (left : Set (Nat × Nat)) (tag : newPacked.tag = geometry.tag key)
    (handed : Handed t key newPacked.location world)
    (begun : known ({(bucket, index)} ∪ left) world) :
    (singleEntry geometry).wp t (replaceSlot (geometry.tag key) key newPacked bucket index)
      (fun result after => Rely geometry t world after ∧ (result = .absent → known left after))
      world := by
  refine Protocol.wp_repeatUntil (fun _ now => Rely geometry t world now)
    (fun _ _ _ moved later _ => moved.trans later) (.refl world) fun _ now _ reached => ?_
  refine (Protocol.wp_bind ..).mpr (wp_loadSlot fun loaded later keptLoaded hand => ?_)
  have moved := reached.trans later
  have still := scan.rely _ _ _ begun moved
  refine Protocol.wp_ite (fun mismatch => ?_) fun matching => ?_
  · exact ⟨moved, fun _ => scan.drop _ _ _ _ still (no_entry_of_tag keptLoaded mismatch)⟩
  · refine (Protocol.wp_bind ..).mpr (wp_verify (fun verified next keptVerified holds => ?_)
      (fun verified next _ differs => ?_) fun verified next _ => ?_)
    · simp only [Bool.or_eq_true, not_or, Bool.not_eq_true', Bool.not_eq_false, decide_eq_true_eq,
        not_not] at matching
      refine (Protocol.wp_bind ..).mpr (wp_swap (fun last rely keptLast _ => ?_)
        fun done last rely _ => ?_)
      · have handedLast := handed.rely ((moved.trans next).trans rely)
        obtain ⟨nonzero, real⟩ := keptLast.sound.real _ _ handedLast.2
        refine .inr ⟨matching.1, Packed.isLive_of_location nonzero real, ?_, ?_⟩
        · exact tag.trans matching.2.symm
        · have same := rely.item _ (next.hand _ hand)
          exact handedLast.2.trans (same.trans holds).symm
      · have ended := (moved.trans next).trans rely
        cases done with
        | true => exact ⟨ended, (fun absent => by cases absent)⟩
        | false => exact ended
    · have none : ¬ loaded.shared.HasEntry bucket index key := fun entry =>
        differs ((next.item _ hand).trans entry.2)
      exact ⟨moved.trans next, fun _ => scan.rely _ _ _ (scan.drop _ _ _ _ still none) next⟩
    · exact ⟨moved.trans next, (fun absent => by cases absent)⟩

theorem replaceInSlots_spec (scan : ScanFact geometry t key known) (bucket : Nat)
    (indices : List Nat) (left : Set (Nat × Nat)) (unknown : Option Location)
    (kept : Consistent geometry world) (tag : newPacked.tag = geometry.tag key)
    (handed : Handed t key newPacked.location world)
    (begun : unknown = none → known (span bucket indices ∪ left) world) :
    (singleEntry geometry).wp t
      (replaceInSlots (geometry.tag key) key newPacked bucket unknown indices)
      (fun result after => Rely geometry t world after ∧ (result = .absent → known left after))
      world := by
  induction indices generalizing unknown world with
  | nil =>
    cases unknown with
    | none => exact ⟨.refl world, fun _ => span_nil bucket left ▸ begun rfl⟩
    | some location => exact ⟨.refl world, (fun absent => by cases absent)⟩
  | cons index rest ih =>
    rw [span_cons] at begun
    have replaced : (singleEntry geometry).wp t
        (replaceSlot (geometry.tag key) key newPacked bucket index) (fun result after =>
          Rely geometry t world after ∧
            (result = .absent → unknown = none → known (span bucket rest ∪ left) after)) world := by
      cases unknown with
      | none =>
        refine Protocol.wp_mono kept (replaceSlot_spec scan bucket index _ tag handed (begun rfl))
          fun _ _ _ result => ?_
        exact ⟨result.1, fun absent _ => result.2 absent⟩
      | some location =>
        refine Protocol.wp_mono kept (replaceSlot_spec scanFact_true bucket index ∅ tag handed
          trivial) fun _ _ _ result => ?_
        exact ⟨result.1, fun _ isNone => by cases isNone⟩
    refine Protocol.wp_seq kept replaced fun result now keptNow told => ?_
    have handedNow := handed.rely told.1
    cases result with
    | found value => exact ⟨told.1, (fun absent => by cases absent)⟩
    | absent =>
      refine Protocol.wp_mono keptNow (ih unknown keptNow handedNow (told.2 rfl))
        fun _ _ _ result => ?_
      exact ⟨told.1.trans result.1, result.2⟩
    | unknown location =>
      refine Protocol.wp_mono keptNow (ih _ keptNow handedNow fun isNone => ?_)
        fun _ _ _ result => ?_
      · cases unknown <;> cases isNone
      · exact ⟨told.1.trans result.1, result.2⟩

/-- Replacing the key's entry among all its candidate buckets. -/
theorem replaceChoices_spec (scan : ScanFact geometry t key known) (kept : Consistent geometry world)
    (tag : newPacked.tag = geometry.tag key) (handed : Handed t key newPacked.location world)
    (begun : known (spans (geometry.choices key)) world) :
    (singleEntry geometry).wp t
      (foldChoices (tryReplaceExisting (geometry.tag key) key newPacked) none
        (geometry.choices key))
      (fun result after => Rely geometry t world after ∧ (result = .absent → known ∅ after))
      world :=
  foldChoices_spec (fun now => Handed t key newPacked.location now)
    (fun _ _ handed moved => handed.rely moved)
    (fun _ scan bucket left _ kept handed begun =>
      replaceInSlots_spec scan bucket slots left none kept tag handed fun _ => begun)
    scan _ none kept handed fun _ => begun

end Replace

/-! ### Creation -/

section Create

variable {newPacked : Packed} {bucket : Nat}

/-- The thread may create the key's entry at the location it was handed. -/
structure Ready (geometry : Geometry Key) (t : Tid) (key : Key) (location : Location)
    (world : TableWorld Tid Key) : Prop where
  clear : Clear geometry t key world
  handed : Handed t key location world

theorem Ready.rely {location : Location} (ready : Ready geometry t key location world)
    (moved : Rely geometry t world after) : Ready geometry t key location after :=
  ⟨ready.clear.rely moved, ready.handed.rely moved⟩

/-- An attempt to create the key's entry claimed it, or may be repeated. -/
def Claims (geometry : Geometry Key) (t : Tid) (key : Key) (location : Location) (done : Bool)
    (world : TableWorld Tid Key) : Prop :=
  if done then Claimed geometry t key world else Ready geometry t key location world

/-- An exchange of a word that is not live for the key's new word. -/
theorem exchange_claims {index : Nat} {current : Packed} (new : Packed)
    (ready : Ready geometry t key new.location world) (tag : new.tag = geometry.tag key)
    (choice : bucket ∈ geometry.choices key) (inside : index ∈ slots)
    (free : current.isLive = false) {post : Bool → TableWorld Tid Key → Prop}
    (next : ∀ done after, Consistent geometry after →
      Claims geometry t key new.location done after → post done after) :
    (singleEntry geometry).wp t (exchangeSlot bucket index current new) post world :=
  wp_create ready.clear ready.handed tag choice (List.mem_range.mp inside) free
    (fun after kept claimed => next true after kept claimed)
    fun after moved kept => next false after kept (ready.rely moved)

/-- After an attempt at one slot, either the entry is claimed or the rest is attempted. -/
theorem claims_orElse {location : Location} {attempt rest : Prog Key Bool}
    (kept : Consistent geometry world)
    (first : (singleEntry geometry).wp t attempt
      (fun done after => Claims geometry t key location done after) world)
    (second : ∀ now, Consistent geometry now → Ready geometry t key location now →
      (singleEntry geometry).wp t rest
        (fun done after => Claims geometry t key location done after) now) :
    (singleEntry geometry).wp t
      (attempt.bind fun done => if done = true then .ret true else rest)
      (fun done after => Claims geometry t key location done after) world := by
  refine Protocol.wp_seq kept first fun done now keptNow claims => ?_
  cases done with
  | true => exact claims
  | false => exact second now keptNow claims

theorem swapSlot_claims {index : Nat} (ready : Ready geometry t key newPacked.location world)
    (tag : newPacked.tag = geometry.tag key) (choice : bucket ∈ geometry.choices key)
    (inside : index ∈ slots) :
    (singleEntry geometry).wp t
      (swapSlot bucket index (fun packed => packed.tag = geometry.tag key && packed.isGhost)
        fun packed => newPacked.withFreq packed.freq)
      (fun done after => Claims geometry t key newPacked.location done after) world := by
  refine Protocol.wp_repeatUntil (fun _ now => Ready geometry t key newPacked.location now)
    (fun _ _ _ ready moved _ => ready.rely moved) ready fun _ now _ readyNow => ?_
  refine (Protocol.wp_bind ..).mpr (wp_loadSlot fun loaded moved _ _ => ?_)
  refine Protocol.wp_ite (fun _ => readyNow.rely moved) fun accepted => ?_
  have ghost : (loaded.shared.slot bucket index).isGhost = true := by
    simp only [Bool.not_eq_true', Bool.not_eq_false, Bool.and_eq_true] at accepted
    exact accepted.2
  refine (Protocol.wp_bind ..).mpr (exchange_claims
    (newPacked.withFreq (loaded.shared.slot bucket index).freq) (readyNow.rely moved) tag choice
    inside (Packed.not_isLive_of_ghost (Packed.isGhost_location ghost)) fun done last _ claims => ?_)
  cases done with
  | true => exact claims
  | false => exact claims

theorem swapInBucket_claims (indices : List Nat) (within : ∀ index ∈ indices, index ∈ slots)
    (kept : Consistent geometry world) (ready : Ready geometry t key newPacked.location world)
    (tag : newPacked.tag = geometry.tag key) (choice : bucket ∈ geometry.choices key) :
    (singleEntry geometry).wp t
      (swapInBucket bucket (fun packed => packed.tag = geometry.tag key && packed.isGhost)
        (fun packed => newPacked.withFreq packed.freq) indices)
      (fun done after => Claims geometry t key newPacked.location done after) world := by
  induction indices generalizing world with
  | nil => exact ready
  | cons index rest ih =>
    exact claims_orElse kept (swapSlot_claims ready tag choice (within index (by simp)))
      fun now keptNow readyNow =>
        ih (fun index member => within index (List.mem_cons_of_mem _ member)) keptNow readyNow

theorem claimEmpty_claims (indices : List Nat) (within : ∀ index ∈ indices, index ∈ slots)
    (kept : Consistent geometry world) (ready : Ready geometry t key newPacked.location world)
    (tag : newPacked.tag = geometry.tag key) (choice : bucket ∈ geometry.choices key) :
    (singleEntry geometry).wp t (claimEmpty newPacked bucket indices)
      (fun done after => Claims geometry t key newPacked.location done after) world := by
  induction indices generalizing world with
  | nil => exact ready
  | cons index rest ih =>
    replace ih := fun now => @ih now fun index member =>
      within index (List.mem_cons_of_mem _ member)
    refine (Protocol.wp_bind ..).mpr (wp_peekSlot fun peeked moved keptPeeked => ?_)
    refine Protocol.wp_ite (fun _ => ?_) fun _ => ih peeked keptPeeked (ready.rely moved)
    exact claims_orElse keptPeeked (exchange_claims newPacked (ready.rely moved) tag choice
      (within index (by simp)) rfl fun _ _ _ claims => claims) ih

theorem claimGhost_claims (indices : List Nat) (within : ∀ index ∈ indices, index ∈ slots)
    (kept : Consistent geometry world) (ready : Ready geometry t key newPacked.location world)
    (tag : newPacked.tag = geometry.tag key) (choice : bucket ∈ geometry.choices key) :
    (singleEntry geometry).wp t (claimGhost newPacked bucket indices)
      (fun done after => Claims geometry t key newPacked.location done after) world := by
  induction indices generalizing world with
  | nil => exact ready
  | cons index rest ih =>
    replace ih := fun now => @ih now fun index member =>
      within index (List.mem_cons_of_mem _ member)
    refine (Protocol.wp_bind ..).mpr (wp_peekSlot fun peeked moved keptPeeked => ?_)
    refine Protocol.wp_ite (fun _ => ?_) fun _ => ih peeked keptPeeked (ready.rely moved)
    refine (Protocol.wp_bind ..).mpr (wp_peekSlot fun loaded later keptLoaded => ?_)
    have readyLoaded := (ready.rely moved).rely later
    refine Protocol.wp_ite (fun ghost => ?_) fun _ => ih loaded keptLoaded readyLoaded
    exact claims_orElse keptLoaded (exchange_claims newPacked readyLoaded tag choice
      (within index (by simp)) (Packed.not_isLive_of_ghost (Packed.isGhost_location ghost))
      fun _ _ _ claims => claims) ih

theorem tryClaimNewSlot_claims (kept : Consistent geometry world)
    (ready : Ready geometry t key newPacked.location world)
    (tag : newPacked.tag = geometry.tag key) (choice : bucket ∈ geometry.choices key) :
    (singleEntry geometry).wp t (tryClaimNewSlot (geometry.tag key) newPacked bucket)
      (fun done after => Claims geometry t key newPacked.location done after) world :=
  claims_orElse kept (swapInBucket_claims slots (fun _ member => member) kept ready tag choice)
    fun _ keptNow readyNow => claims_orElse keptNow
      (claimEmpty_claims slots (fun _ member => member) keptNow readyNow tag choice)
      fun _ keptLast readyLast =>
        claimGhost_claims slots (fun _ member => member) keptLast readyLast tag choice

theorem firstBucket_claims (buckets : List Nat)
    (within : ∀ bucket ∈ buckets, bucket ∈ geometry.choices key) (kept : Consistent geometry world)
    (ready : Ready geometry t key newPacked.location world)
    (tag : newPacked.tag = geometry.tag key) :
    (singleEntry geometry).wp t
      (firstBucket (tryClaimNewSlot (geometry.tag key) newPacked) buckets)
      (fun done after => Claims geometry t key newPacked.location done after) world := by
  induction buckets generalizing world with
  | nil => exact ready
  | cons bucket rest ih =>
    exact claims_orElse kept
      (tryClaimNewSlot_claims kept ready tag (within bucket (List.mem_cons_self ..)))
      fun now keptNow readyNow =>
        ih (fun bucket member => within bucket (List.mem_cons_of_mem _ member)) keptNow readyNow

/-! ### Ordering the buckets -/

theorem countOccupied_spec (indices : List Nat) (kept : Consistent geometry world) :
    (singleEntry geometry).wp t (countOccupied bucket indices)
      (fun _ after => Rely geometry t world after) world := by
  induction indices generalizing world with
  | nil => exact .refl world
  | cons index rest ih =>
    refine (Protocol.wp_bind ..).mpr (wp_peekSlot fun peeked moved keptPeeked => ?_)
    exact Protocol.wp_seq keptPeeked (ih keptPeeked) fun _ _ _ later => moved.trans later

/-- However the counts come out, the sorted buckets are the ones given. -/
theorem insertByOccupied_spec (buckets : List Nat) (kept : Consistent geometry world) :
    (singleEntry geometry).wp t (insertByOccupied bucket buckets)
      (fun sorted after => Rely geometry t world after ∧
        ∀ other ∈ sorted, other ∈ bucket :: buckets) world := by
  induction buckets generalizing world with
  | nil => exact ⟨.refl world, fun _ member => member⟩
  | cons other rest ih =>
    refine Protocol.wp_seq kept (countOccupied_spec slots kept) fun mine now keptNow moved => ?_
    refine Protocol.wp_seq keptNow (countOccupied_spec slots keptNow)
      fun theirs last keptLast later => ?_
    have reached := moved.trans later
    refine Protocol.wp_ite (fun _ => ⟨reached, fun _ member => member⟩) fun _ => ?_
    refine Protocol.wp_seq keptLast (ih keptLast) fun sorted ended _ placed => ?_
    refine ⟨reached.trans placed.1, fun found member => ?_⟩
    rcases List.mem_cons.mp member with rfl | member
    · simp
    · rcases List.mem_cons.mp (placed.2 found member) with rfl | inside
      · simp
      · simp [inside]

theorem sortByOccupied_spec (buckets : List Nat) (kept : Consistent geometry world) :
    (singleEntry geometry).wp t (sortByOccupied buckets)
      (fun sorted after => Rely geometry t world after ∧ ∀ other ∈ sorted, other ∈ buckets)
      world := by
  induction buckets generalizing world with
  | nil => exact ⟨.refl world, fun _ member => member⟩
  | cons bucket rest ih =>
    refine Protocol.wp_seq kept (ih kept) fun sorted now keptNow told => ?_
    refine Protocol.wp_mono keptNow (insertByOccupied_spec sorted keptNow) fun _ _ _ placed => ?_
    refine ⟨told.1.trans placed.1, fun other member => ?_⟩
    rcases List.mem_cons.mp (placed.2 other member) with rfl | inside
    · simp
    · exact List.mem_cons_of_mem _ (told.2 other inside)

/-- Creating the entry in some candidate bucket, the stripe held throughout. -/
theorem claimChoices_spec (several : Bool) (kept : Consistent geometry world)
    (ready : Ready geometry t key newPacked.location world)
    (tag : newPacked.tag = geometry.tag key) :
    (singleEntry geometry).wp t
      (claimChoices (geometry.tag key) newPacked (geometry.choices key) several)
      (fun result after => after.history.holder (geometry.stripe key) = some t ∧
        (result = some .created → after.history.absentLocked t key)) world := by
  have answered : ∀ done now, Claims geometry t key newPacked.location done now →
      now.history.holder (geometry.stripe key) = some t := by
    intro done now claims
    cases done with
    | true => exact claims.1
    | false => exact claims.clear.1
  refine Protocol.wp_seq kept (firstBucket_claims _ (fun _ member => member) kept ready tag)
    fun done now keptNow claims => ?_
  cases done with
  | true => exact ⟨claims.1, fun _ => claims.2⟩
  | false =>
    refine Protocol.wp_ite (fun wrong => by cases wrong) fun _ => ?_
    refine Protocol.wp_ite (fun _ => ?_) fun _ => ⟨claims.clear.1, (fun made => by cases made)⟩
    refine Protocol.wp_seq keptNow (sortByOccupied_spec _ keptNow)
      fun sorted last keptLast placed => ?_
    refine Protocol.wp_seq keptLast
      (firstBucket_claims sorted placed.2 keptLast (claims.rely placed.1) tag)
      fun done ended _ claims => ?_
    cases done with
    | true => exact ⟨claims.1, fun _ => claims.2⟩
    | false => exact ⟨claims.clear.1, (fun made => by cases made)⟩

end Create

/-! ### The answers -/

section Answers

/-- At its start a scan of all candidate buckets knows where an entry can be. -/
theorem seeks_begin (kept : Consistent geometry world) :
    Seeks t key (spans (geometry.choices key)) world := by
  by_cases none : world.shared.NoEntry key
  · exact .inl (.inr none)
  · simp only [Shared.NoEntry, not_forall, not_not] at none
    obtain ⟨bucket, index, entry⟩ := none
    exact .inr ⟨bucket, index, (entry.placed kept.sound).2, entry⟩

theorem bars_begin (kept : Consistent geometry world)
    (mine : world.history.holder (geometry.stripe key) = some t) :
    Bars geometry t key (spans (geometry.choices key)) world :=
  ⟨mine, fun _ _ entry => (entry.placed kept.sound).2⟩

theorem incrementGhostFreqInBucket_spec (bucket : Nat) (tag : BitVec 12) (indices : List Nat)
    (kept : Consistent geometry world) :
    (singleEntry geometry).wp t (incrementGhostFreqInBucket bucket tag indices)
      (fun _ after => Rely geometry t world after) world := by
  induction indices generalizing world with
  | nil => exact .refl world
  | cons index rest ih =>
    refine (Protocol.wp_bind ..).mpr (wp_peekSlot fun peeked moved keptPeeked => ?_)
    refine Protocol.wp_ite (fun matching => ?_) fun _ => ?_
    · simp only [Bool.and_eq_true] at matching
      refine Protocol.wp_seq keptPeeked (bumpFreq_spec (.inr matching.1))
        fun _ now keptNow later => ?_
      exact Protocol.wp_mono keptNow (ih keptNow) fun _ _ _ last => (moved.trans later).trans last
    · exact Protocol.wp_mono keptPeeked (ih keptPeeked) fun _ _ _ later => moved.trans later

/-- The scan of a lookup: absent means that the key had no entry at some instant of the call. -/
theorem searchChoices_spec (updateFreq : Bool) (kept : Consistent geometry world) :
    (singleEntry geometry).wp t
      (foldChoices (searchBucket updateFreq (geometry.tag key) key) none (geometry.choices key))
      (fun result after => result = .absent → Gone t key after) world := by
  refine Protocol.wp_mono kept (foldChoices_spec (fun _ => True) (fun _ _ _ _ => trivial)
    (fun _ scan bucket left _ kept _ begun =>
      searchBucket_spec scan updateFreq bucket left kept begun)
    scanFact_seeks _ none kept trivial fun _ => seeks_begin kept) fun result after _ told absent => ?_
  rcases told.2 absent with gone | ⟨_, _, nowhere, _⟩
  · exact gone
  · exact absurd nowhere (Set.notMem_empty _)

theorem lookup_spec (kept : Consistent geometry world) :
    (singleEntry geometry).wp t (lookup geometry key)
      (fun result after => result = .absent → Gone t key after) world := by
  refine Protocol.wp_seq kept (searchChoices_spec true kept) fun result now keptNow told => ?_
  cases result with
  | found hit => exact fun absent => by cases absent
  | unknown location => exact fun absent => by cases absent
  | absent =>
    have still : Gone t key now := told rfl
    refine Protocol.wp_seq keptNow (Protocol.wp_sequence
      (fun program member last keptLast (gone : Gone t key last) => ?_) keptNow still)
      fun _ _ _ gone _ => gone
    obtain ⟨bucket, _, rfl⟩ := List.mem_map.mp member
    exact Protocol.wp_mono keptLast (incrementGhostFreqInBucket_spec bucket _ slots keptLast)
      fun _ _ _ moved => moved.gone key gone

/-- An insert that creates held the stripe at an instant at which the key had no entry. -/
theorem insert_spec {location : Location} (kept : Consistent geometry world)
    (handed : Handed t key location world) :
    (singleEntry geometry).wp t (insert geometry key location)
      (fun result after => result = some .created → after.history.absentLocked t key) world := by
  refine Protocol.wp_seq kept (replaceChoices_spec scanFact_true kept rfl handed trivial)
    fun result now keptNow told => ?_
  cases result with
  | found old => exact fun created => by cases created
  | unknown location => exact fun created => by cases created
  | absent =>
    have handedNow := handed.rely told.1
    refine (Protocol.wp_bind ..).mpr (wp_lockStripe fun locked moved keptLocked mine => ?_)
    have handedLocked := handedNow.rely moved
    refine Protocol.wp_seq keptLocked
      (replaceChoices_spec scanFact_bars keptLocked rfl handedLocked (bars_begin keptLocked mine))
      fun result last keptLast again => ?_
    have held := again.1.holder _ mine
    cases result with
    | found old =>
      refine (Protocol.wp_bind ..).mpr (wp_unlockStripe held fun _ _ _ => ?_)
      exact fun created => by cases created
    | unknown location =>
      refine (Protocol.wp_bind ..).mpr (wp_unlockStripe held fun _ _ _ => ?_)
      exact fun created => by cases created
    | absent =>
      have bars := again.2 rfl
      have ready : Ready geometry t key location last :=
        ⟨⟨bars.1, fun bucket index entry => absurd (bars.2 bucket index entry)
          (Set.notMem_empty _)⟩, handedLocked.rely again.1⟩
      refine Protocol.wp_seq keptLast (claimChoices_spec _ keptLast ready rfl)
        fun result ended _ claims => ?_
      exact (Protocol.wp_bind ..).mpr (wp_unlockStripe claims.1 fun _ _ seen created =>
        seen key (claims.2 created))

theorem remove_spec {expected : Location} (kept : Consistent geometry world) :
    (singleEntry geometry).wp t (remove geometry key expected) (fun _ _ => True) world :=
  Protocol.wp_mono kept (firstBucket_spec (fun _ => True) (fun _ _ _ _ => trivial)
    (fun bucket _ kept _ => swapInBucket_spec bucket slots kept (maySwap_dead fun _ => rfl))
    _ kept trivial) fun _ _ _ _ => trivial

theorem convertToGhost_spec {expected : Location} (kept : Consistent geometry world) :
    (singleEntry geometry).wp t (convertToGhost geometry key expected) (fun _ _ => True) world :=
  Protocol.wp_mono kept (firstBucket_spec (fun _ => True) (fun _ _ _ _ => trivial)
    (fun bucket _ kept _ =>
      swapInBucket_spec bucket slots kept (maySwap_dead Packed.toGhost_not_isLive))
    _ kept trivial) fun _ _ _ _ => trivial

theorem casLocation_spec {oldLocation newLocation : Location} {relink : RelinkFreq}
    (kept : Consistent geometry world) (handedOld : Handed t key oldLocation world)
    (handedNew : Handed t key newLocation world) :
    (singleEntry geometry).wp t (casLocation geometry key oldLocation newLocation relink)
      (fun _ _ => True) world :=
  Protocol.wp_mono kept (firstBucket_spec
    (fun now => Handed t key oldLocation now ∧ Handed t key newLocation now)
    (fun _ _ handed moved => ⟨handed.1.rely moved, handed.2.rely moved⟩)
    (fun bucket _ kept handed =>
      swapInBucket_spec bucket slots kept (maySwap_relink kept handed.1 handed.2))
    _ kept ⟨handedOld, handedNew⟩) fun _ _ _ _ => trivial

theorem casLocationAt_spec {slot : SlotRef} {oldLocation newLocation : Location}
    {preserveFreq : Bool} (kept : Consistent geometry world)
    (handedOld : Handed t key oldLocation world) (handedNew : Handed t key newLocation world) :
    (singleEntry geometry).wp t (casLocationAt slot oldLocation newLocation preserveFreq)
      (fun _ _ => True) world :=
  Protocol.wp_mono kept (swapSlot_spec slot.bucket slot.slot
    (maySwap_relink kept handedOld handedNew)) fun _ _ _ _ => trivial

end Answers

end CacheRs.Hashtable
