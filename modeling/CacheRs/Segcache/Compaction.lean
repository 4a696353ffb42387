/-
**Compaction.**

* `merged`: the candidates a compaction consumes;
* `Compacted`, `Lost`: nothing is lost, and something is;
* `returns_mergeCompact`: **what a compaction leaves**, and when it loses an item.
-/

import CacheRs.Segcache.Merges

set_option linter.unusedSectionVars false

namespace CacheRs.Segcache

open DoublyLinked
open Segments (SegId State totalBuckets bucketTtl IsBucket getBucketIndex holdsTtl)
open Sequential Procedure

variable {config : Config} {hand : Hand} {chain : Nat → List SegId}
  {first cache middle after last : Cache} {id source dest spare start candidate : SegId} {b : Nat}

/-! ### What is lost -/

/-- Nothing is lost: an item has moved at most, and out of one of these segments. -/
structure Compacted (config : Config) (consumed : List SegId) (cache after : Cache) : Prop where
  kept : ∀ key mapping, Maps config cache key mapping → ∃ location,
    (location = mapping.location ∨ mapping.location.segment ∈ consumed) ∧
      Maps config after key ⟨mapping.item, mapping.freq, location⟩
  only : ∀ key mapping, Maps config after key mapping → ∃ old, Maps config cache key old

/-- Some key has lost its item. -/
def Lost (config : Config) (cache after : Cache) : Prop :=
  ∃ key mapping, Maps config cache key mapping ∧ ∀ other, ¬ Maps config after key other

theorem Compacted.refl (cache : Cache) : Compacted config [] cache cache :=
  ⟨fun _ mapping maps => ⟨mapping.location, .inl rfl, maps⟩, fun _ mapping maps => ⟨mapping, maps⟩⟩

theorem Compacted.trans {one two : List SegId} (before : Compacted config one cache middle)
    (later : Compacted config two middle after) : Compacted config (one ++ two) cache after where
  kept key mapping maps := by
    obtain ⟨between, from_, now⟩ := before.kept key mapping maps
    obtain ⟨location, from_', now'⟩ := later.kept key _ now
    refine ⟨location, ?_, now'⟩
    rcases from_ with rfl | inside
    · exact from_'.imp id (List.mem_append_right _)
    · exact .inr (List.mem_append_left _ inside)
  only key mapping maps := by
    obtain ⟨between, was⟩ := later.only key mapping maps
    exact before.only key between was

theorem Calm.compacted {pending : Option Location} (calm : Calm config pending cache after) :
    Compacted config [] cache after where
  kept key mapping maps := ⟨mapping.location, .inl rfl, (calm.maps key mapping).mpr maps⟩
  only key mapping maps := ⟨mapping, (calm.maps key mapping).mp maps⟩

theorem Lost.shed (lost : Lost config cache middle) (shed : Shed config middle after) :
    Lost config cache after := by
  obtain ⟨key, mapping, maps, gone⟩ := lost
  refine ⟨key, mapping, maps, fun other now => ?_⟩
  obtain ⟨old, was, -⟩ := shed.maps now
  exact gone old was

theorem Lost.behind {consumed : List SegId} (compacted : Compacted config consumed cache middle)
    (lost : Lost config middle after) : Lost config cache after := by
  obtain ⟨key, mapping, maps, gone⟩ := lost
  obtain ⟨old, was⟩ := compacted.only key mapping maps
  exact ⟨key, old, was, gone⟩

/-- A segment keeps its state and its deadline. -/
structure SameAge (before after : Segment) : Prop where
  state : after.state = before.state
  createAt : after.createAt = before.createAt
  ttl : after.ttl = before.ttl

theorem SameAge.refl (segment : Segment) : SameAge segment segment := ⟨rfl, rfl, rfl⟩

theorem SameAge.trans {one two three : Segment} (first : SameAge one two) (second : SameAge two three) :
    SameAge one three :=
  ⟨second.state.trans first.state, second.createAt.trans first.createAt, second.ttl.trans first.ttl⟩

theorem OnlyLinks.sameAge {before after : Segment} (same : OnlyLinks before after) :
    SameAge before after := by
  obtain ⟨next, prev, rfl⟩ := same
  exact ⟨rfl, rfl, rfl⟩

/-- Items of live segments stay where they are. -/
def LiveKept (config : Config) (cache after : Cache) : Prop :=
  ∀ key mapping, Maps config cache key mapping →
    (cache.segment mapping.location.segment).state = .live →
      Maps config after key mapping ∧
        SameAge (cache.segment mapping.location.segment) (after.segment mapping.location.segment)

theorem LiveKept.refl (cache : Cache) : LiveKept config cache cache :=
  fun _ _ maps _ => ⟨maps, SameAge.refl _⟩

theorem LiveKept.trans (before : LiveKept config cache middle) (later : LiveKept config middle after) :
    LiveKept config cache after := by
  intro key mapping maps live
  obtain ⟨now, same⟩ := before key mapping maps live
  obtain ⟨now', same'⟩ := later key mapping now (same.state.trans live)
  exact ⟨now', same.trans same'⟩

/-- A step that changes no mapping, and the links of live segments at most. -/
theorem Calm.liveKept {pending : Option Location} (calm : Calm config pending cache after)
    (same : ∀ i, (cache.segment i).state = .live → OnlyLinks (cache.segment i) (after.segment i)) :
    LiveKept config cache after :=
  fun key mapping maps live => ⟨(calm.maps key mapping).mpr maps, (same _ live).sameAge⟩

/-! ### One candidate -/

theorem total_filter {counts : Nat → Prop} {wanted : Nat × Item → Bool} {laid : List (Nat × Item)}
    (same : ∀ placed ∈ laid, counts placed.1 ↔ wanted placed = true) :
    total counts (fun item => item.size config) laid = wantedSize config wanted laid := by
  induction laid with
  | nil => rfl
  | cons placed laid ih =>
    rw [total_cons, ih fun one inside => same one (List.mem_cons_of_mem _ inside), wantedSize_cons]
    have here := same placed (List.mem_cons_self ..)
    by_cases isWanted : wanted placed = true
    · rw [if_pos (here.mpr isWanted), if_pos isWanted, Nat.cast_add]
    · rw [if_neg fun counted => isWanted (here.mp counted), if_neg isWanted, Nat.zero_add, zero_add]

theorem copyWanted_iff {placed : Nat × Item} : copyWanted config cache id placed = true ↔
    placed.2.deleted = false ∧ (frequencyAt config cache id placed).isSome = true := by
  unfold copyWanted
  cases placed.2.deleted <;> cases frequencyAt config cache id placed <;> simp

/-- The live bytes of a segment are those of the items a compaction copies. -/
theorem Consistent.liveBytes_eq (consistent : Consistent config none cache)
    (held : holds (cache.segment id).state = true) : (cache.segment id).liveBytes =
      config.initialOffset + wantedSize config (copyWanted config cache id) (cache.laidOut config id) := by
  rw [consistent.bytes held]
  refine congrArg _ (total_filter fun placed inside => ?_)
  obtain ⟨offset, item⟩ := placed
  have here : cache.itemAt config (cache.locationAt id offset) = some item :=
    Cache.itemAt_locationAt.mpr inside
  have named := consistent.getItemFrequency_isSome here
  rw [copyWanted_iff]
  unfold Counts frequencyAt
  rw [or_iff_left (by simp), ← named]
  constructor
  · intro found
    obtain ⟨freq, maps⟩ := consistent.maps_of_named (named.mp found) here
    exact ⟨(consistent.present_of_maps maps).2, found⟩
  · intro isWanted
    exact isWanted.2

section Round

variable (consumed : Consumed config candidate dest cache after)
  (consistent : Consistent config none cache)
  (held : holds (cache.segment candidate).state = true)

include consumed consistent held

/-- The destination has grown by what the candidate held. -/
theorem Consumed.grown (room : (cache.segment dest).writeOffset +
      ((cache.segment candidate).liveBytes - config.initialOffset) < config.segmentSize) :
    copied config cache candidate dest =
        (cache.laidOut config candidate).filter (copyWanted config cache candidate) ∧
      ((after.segment dest).writeOffset : Int) = (cache.segment dest).writeOffset +
        ((cache.segment candidate).liveBytes - config.initialOffset) := by
  have bytes := consistent.liveBytes_eq held
  have moved : copied config cache candidate dest =
      (cache.laidOut config candidate).filter (copyWanted config cache candidate) :=
    movedItems_of_room (by omega)
  refine ⟨moved, ?_⟩
  rw [consumed.filled.1, moved]
  unfold wantedSize at bytes
  omega

/-- **A candidate that leaves a byte of the destination free is copied whole.** -/
theorem Consumed.compacted (room : (cache.segment dest).writeOffset +
      ((cache.segment candidate).liveBytes - config.initialOffset) < config.segmentSize) :
    Compacted config [candidate] cache after where
  kept key mapping maps := by
    by_cases here : mapping.location.segment = candidate
    · obtain ⟨moved, -⟩ := consumed.grown consistent held room
      have present := consistent.present_of_maps maps
      have location := locationAt_of_tag present.1.tag
      have inside : (mapping.location.offset, mapping.item) ∈ cache.laidOut config candidate := by
        rw [← here]
        exact Cache.itemAt_locationAt.mp (location.symm ▸ present.1.item)
      have named := (consistent.getItemFrequency_isSome present.1.item).mpr maps.named
      have isWanted : copyWanted config cache candidate (mapping.location.offset, mapping.item) = true := by
        rw [copyWanted_iff]
        unfold frequencyAt
        rw [← here, location]
        exact ⟨present.2, named⟩
      obtain ⟨there, -, now⟩ := consumed.sifted.kept key mapping maps here (by
        rw [moved]
        exact List.mem_map.mpr ⟨_, List.mem_filter.mpr ⟨inside, isWanted⟩, rfl⟩)
      exact ⟨there, .inr (here ▸ List.mem_singleton_self _), now⟩
    · exact ⟨mapping.location, .inl rfl, consumed.sifted.stays key mapping maps here⟩
  only := consumed.sifted.only

/-- **A candidate that fills the destination loses an item.** -/
theorem Consumed.lost (before : (cache.segment dest).writeOffset < config.segmentSize)
    (full : config.segmentSize ≤ (cache.segment dest).writeOffset +
      ((cache.segment candidate).liveBytes - config.initialOffset)) : Lost config cache after := by
  have bytes := consistent.liveBytes_eq held
  obtain ⟨⟨offset, item⟩, inside, isWanted, notMoved⟩ := @exists_not_moved config
    (copyWanted config cache candidate) _ (cache.laidOut config candidate)
    (Segment.layOut_nodup _ _) before (by omega)
  have here : cache.itemAt config (cache.locationAt candidate offset) = some item :=
    Cache.itemAt_locationAt.mpr inside
  have named := (copyWanted_iff.mp isWanted).2
  obtain ⟨freq, maps⟩ := consistent.maps_of_named
    ((consistent.getItemFrequency_isSome here).mp named) here
  refine ⟨item.key, _, maps, consumed.sifted.dropped _ _ maps rfl fun there => ?_⟩
  obtain ⟨⟨offset', item'⟩, moved, same⟩ := List.mem_map.mp there
  have placed := (mem_movedItems moved).1
  have again : cache.itemAt config (cache.locationAt candidate offset') = some item' :=
    Cache.itemAt_locationAt.mpr placed
  have sameOffset : offset' = offset := same
  rw [sameOffset, here] at again
  cases again
  exact notMoved (sameOffset ▸ moved)

end Round

theorem Consumed.liveKept (consumed : Consumed config candidate dest cache after)
    (claimed : (cache.segment candidate).state = .draining)
    (filled : (cache.segment dest).state = .relinking) : LiveKept config cache after := by
  intro key mapping maps live
  have notCandidate : mapping.location.segment ≠ candidate := by
    intro same
    rw [same, claimed] at live
    cases live
  have notDest : mapping.location.segment ≠ dest := by
    intro same
    rw [same, filled] at live
    cases live
  exact ⟨consumed.sifted.stays key mapping maps notCandidate,
    (consumed.others _ notCandidate notDest).sameAge⟩

/-- A sealed segment is claimed. -/
theorem liveKept_claimed (sane : Sane config hand chain cache)
    (state : (cache.segment id).state = .sealed) : LiveKept config cache (cache.claimed id) := by
  refine (calm_claimed sane.consistent (.inl state)).liveKept fun i live => ?_
  have different : i ≠ id := by
    rintro rfl
    rw [state] at live
    cases live
  rw [claimed_of_ne different]
  exact OnlyLinks.refl _

/-! ### The loop -/

section Merged

variable (config : Config) (cache : Cache)

/-- The candidates a compaction consumes, told from the segments before it: `occupied` bytes of the
destination are in use. -/
def merged (start : SegId) : Nat → Int → Option SegId → List SegId
  | 0, _, _ => []
  | _, _, none => []
  | fuel + 1, occupied, some candidate =>
    let segment := cache.segment candidate
    if (candidate = start ∨ segment.canEvict = true) ∧ occupied < stopBytes config ∧
        occupied + segment.liveBytes ≤ config.segmentSize then
      candidate ::
        merged start fuel (occupied + (segment.liveBytes - config.initialOffset)) segment.next
    else []

/-- The destination has a byte left after each of these candidates. -/
def LeavesRoom : Int → List SegId → Prop
  | occupied, [] => occupied < config.segmentSize
  | occupied, candidate :: rest => occupied < config.segmentSize ∧
      LeavesRoom (occupied + ((cache.segment candidate).liveBytes - config.initialOffset)) rest

end Merged

theorem LeavesRoom.lt {occupied : Int} {consumed : List SegId}
    (room : LeavesRoom config cache occupied consumed) : occupied < config.segmentSize := by
  cases consumed with
  | nil => exact room
  | cons candidate rest => exact room.1

/-- How full the destination is, and what is known of the candidates to come. -/
structure Level (config : Config) (first : Cache) (spare : SegId) (rest : List SegId)
    (occupied : Int) (cache : Cache) : Prop where
  writeOffset : ((cache.segment spare).writeOffset : Int) = occupied
  liveBytes : (cache.segment spare).liveBytes = occupied
  room : occupied < config.segmentSize
  same : ∀ i ∈ rest, OnlyLinks (first.segment i) (cache.segment i)
  links : ∀ front candidate back, rest = front ++ candidate :: back →
    (first.segment candidate).next = back.head?

/-- Whether anything is lost. -/
structure Outcome (config : Config) (first : Cache) (occupied : Int) (consumed : List SegId)
    (cache after : Cache) : Prop where
  kept : LeavesRoom config first occupied consumed → Compacted config consumed cache after
  lost : ¬ LeavesRoom config first occupied consumed → Lost config cache after

theorem Outcome.nothing {occupied : Int} (room : occupied < config.segmentSize)
    (calm : Calm config none cache after) : Outcome config first occupied [] cache after :=
  ⟨fun _ => calm.compacted, fun full => absurd room full⟩

theorem Outcome.between {occupied : Int} {consumed : List SegId}
    (before : Calm config none cache middle)
    (outcome : Outcome config first occupied consumed middle after)
    (later : Calm config none after last) : Outcome config first occupied consumed cache last where
  kept room := by
    have whole := (before.compacted.trans (outcome.kept room)).trans later.compacted
    rwa [List.nil_append, List.append_nil] at whole
  lost full := ((outcome.lost full).behind before.compacted).shed later.shed

/-- A round and what follows it. -/
theorem Consumed.outcome {occupied : Int} {consumed : List SegId}
    (round : Consumed config candidate spare middle after) (calm : Calm config none cache middle)
    (held : holds (middle.segment candidate).state = true)
    (writeOffset : ((middle.segment spare).writeOffset : Int) = occupied)
    (room : occupied < config.segmentSize)
    (liveBytes : (middle.segment candidate).liveBytes = (first.segment candidate).liveBytes)
    (shed : Shed config after last)
    (rest : occupied + ((first.segment candidate).liveBytes - config.initialOffset) <
      config.segmentSize → Outcome config first
        (occupied + ((first.segment candidate).liveBytes - config.initialOffset)) consumed after last) :
    Outcome config first occupied (candidate :: consumed) cache last := by
  refine ⟨fun ⟨_, fits⟩ => ?_, fun full => ?_⟩
  · have here := fits.lt
    have whole := round.compacted calm.consistent held (by omega)
    exact (calm.compacted.trans whole).trans ((rest here).kept fits)
  · by_cases here : occupied + ((first.segment candidate).liveBytes - config.initialOffset) <
        config.segmentSize
    · have whole := round.compacted calm.consistent held (by omega)
      exact ((rest here).lost fun fits => full ⟨room, fits⟩).behind (calm.compacted.trans whole)
    · have loss := round.lost calm.consistent held (by omega) (by omega)
      exact (loss.behind calm.compacted).shed shed

/-- What the loop of a compaction leaves, when `rest` is still to come. -/
structure Compacting (config : Config) (start spare : SegId) (fuel : Nat) (rest : List SegId)
    (cache after : Cache) : Prop where
  merging : Merging config spare cache after
  live : LiveKept config cache after
  outcome : ∀ first occupied, Level config first spare rest occupied cache →
    Outcome config first occupied (merged config first start fuel occupied rest.head?) cache after

/-- The loop stops at a candidate it does not take. -/
theorem Compacting.stop {fuel : Nat} {rest : List SegId} {chain : Nat → List SegId}
    (sane : Sane config ⟨none, some spare, none⟩ chain cache)
    (refused : ∀ first occupied, Level config first spare rest occupied cache →
      merged config first start fuel occupied rest.head? = []) :
    Compacting config start spare fuel rest cache cache where
  merging := ⟨⟨chain, sane⟩, Shed.refl cache, SameClock.refl cache, Flows.refl cache⟩
  live := LiveKept.refl cache
  outcome first occupied level := by
    rw [refused first occupied level]
    exact Outcome.nothing level.room (Calm.refl sane.consistent)

theorem OnlyLinks.canEvict {before after : Segment} (same : OnlyLinks before after) :
    after.canEvict = before.canEvict := by
  obtain ⟨next, prev, rfl⟩ := same
  rfl

theorem OnlyLinks.liveBytes {before after : Segment} (same : OnlyLinks before after) :
    after.liveBytes = before.liveBytes := by
  obtain ⟨next, prev, rfl⟩ := same
  rfl

/-- The rest of a compaction's loop, behind its first round. -/
theorem returns_mergeCompactFrom (fuel : Nat) (rest : List SegId) {front : List SegId}
    (sane : Sane config ⟨none, some spare, none⟩ chain cache)
    (inside : chain b = front ++ spare :: rest) (gone : start ∉ rest) :
    Returns (mergeCompactFrom config start spare fuel rest.head?)
      (fun _ after => Compacting config start spare fuel rest cache after) cache := by
  induction fuel generalizing cache chain rest with
  | zero =>
    cases rest <;> exact (returns_pure _).mpr (Compacting.stop sane fun _ _ _ => rfl)
  | succ fuel ih =>
    cases rest with
    | nil => exact (returns_pure _).mpr (Compacting.stop sane fun _ _ _ => rfl)
    | cons candidate rest =>
      have different : candidate ≠ start := fun same => gone (same ▸ List.mem_cons_self ..)
      have apart : spare ≠ candidate := by
        have unique := sane.orderly.unique b
        rw [inside] at unique
        rintro rfl
        exact (List.nodup_cons.mp (List.nodup_append.mp unique).2.1).1 (List.mem_cons_self ..)
      rw [List.head?_cons]
      unfold mergeCompactFrom
      simp only [segmentOf, returns_bind, returns_read]
      by_cases evictable : (cache.segment candidate).canEvict = true
      case neg =>
        rw [if_pos (by simp [different, evictable])]
        refine (returns_pure _).mpr (Compacting.stop sane fun first occupied level => ?_)
        have same := (level.same candidate (List.mem_cons_self ..)).canEvict
        rw [List.head?_cons, merged, if_neg]
        rw [← same]
        simp [different, evictable]
      rw [if_neg (by simp [evictable])]
      simp only [returns_bind, returns_read]
      by_cases full : (decide (stopBytes config ≤ (cache.segment spare).liveBytes) ||
          decide ((config.segmentSize : Int) < (cache.segment spare).liveBytes +
            (cache.segment candidate).liveBytes)) = true
      · rw [if_pos full]
        refine (returns_pure _).mpr (Compacting.stop sane fun first occupied level => ?_)
        have same := (level.same candidate (List.mem_cons_self ..)).liveBytes
        rw [List.head?_cons, merged, if_neg]
        rw [level.liveBytes, same] at full
        simp only [Bool.or_eq_true, decide_eq_true_eq] at full
        omega
      rw [if_neg full]
      simp only [returns_bind]
      have state := (sealed_of_canEvict evictable).1
      have claimed := sane.claim (.inl state)
      have calm := calm_claimed sane.consistent (.inl state)
      have inside' : chain b = (front ++ [spare]) ++ candidate :: rest := by
        rw [inside]
        simp
      have notLast := sane.orderly.not_last inside' (.inl state)
      have links : ((cache.claimed candidate).segment candidate).next = rest.head? :=
        (claimed.orderly.links inside').2
      have held : holds ((cache.claimed candidate).segment candidate).state = true := by
        rw [claimed_self]
        rfl
      refine returns_of_eq (claimCandidate_apply different evictable) ?_
      rw [if_neg (by simp)]
      simp only [returns_bind, returns_read, links]
      refine (returns_consume claimed inside notLast (sane.laid (.inl state))).mono fun _ two copies => ?_
      refine copies.mono fun _ three known => ?_
      obtain ⟨sane', consumed⟩ := known
      have round : Merging config spare cache three :=
        ⟨⟨_, sane'⟩, calm.shed.trans consumed.sifted.shed, ⟨consumed.clock.eviction, consumed.clock.now,
          consumed.clock.lastExpired⟩, ⟨consumed.flows.le, consumed.flows.length⟩⟩
      refine (ih rest sane' (Function.update_self ..)
        (fun there => gone (List.mem_cons_of_mem _ there))).mono fun _ after more =>
          ⟨round.trans more.merging, ?_, fun first occupied level => ?_⟩
      · have relinking : ((cache.claimed candidate).segment spare).state = .relinking :=
          (claimed.orderly.dest spare).mpr rfl
        exact ((liveKept_claimed sane state).trans
          (consumed.liveKept (by rw [claimed_self]) relinking)).trans more.live
      -- The round takes this candidate, whose live bytes are those it had at first.
      have same := level.same candidate (List.mem_cons_self ..)
      have spareSame : (cache.claimed candidate).segment spare = cache.segment spare :=
        claimed_of_ne apart
      have liveBytes : ((cache.claimed candidate).segment candidate).liveBytes =
          (first.segment candidate).liveBytes := by
        rw [claimed_self]
        exact same.liveBytes
      rw [level.liveBytes, same.liveBytes] at full
      simp only [Bool.or_eq_true, decide_eq_true_eq] at full
      rw [List.head?_cons, merged, if_pos ⟨.inr (same.canEvict.symm.trans evictable), by omega, by omega⟩,
        level.links [] candidate rest rfl]
      refine consumed.outcome calm held (by rw [spareSame]; exact level.writeOffset) level.room
        liveBytes more.merging.shed fun room => more.outcome first _ ?_
      have grown := consumed.filled
      have moved := consumed.grown calm.consistent held (by
        rw [spareSame, liveBytes, level.writeOffset]
        exact room)
      have unique := sane.orderly.unique b
      rw [inside'] at unique
      obtain ⟨-, -, -, notRest, -⟩ := nodup_middle unique
      have spareRest : spare ∉ rest := by
        have unique := sane.orderly.unique b
        rw [inside] at unique
        exact fun there => (List.nodup_cons.mp (List.nodup_append.mp unique).2.1).1
          (List.mem_cons_of_mem _ there)
      refine ⟨?_, ?_, room, fun i there => ?_, fun front one back same => ?_⟩
      · rw [moved.2, spareSame, liveBytes, level.writeOffset]
      · rw [grown.2, spareSame, level.liveBytes]
        have := grown.1
        have := moved.2
        rw [spareSame, liveBytes, level.writeOffset] at this
        have := level.writeOffset
        rw [spareSame] at *
        omega
      · have different : i ≠ candidate := fun same => notRest (same ▸ there)
        refine (level.same i (List.mem_cons_of_mem _ there)).trans ?_
        rw [← @claimed_of_ne cache _ _ different]
        exact consumed.others i different fun same => spareRest (same ▸ there)
      · exact level.links (candidate :: front) one back (by rw [same]; rfl)

/-! ### The compaction -/

/-- What a run of segments that fit together says of its first two. -/
theorem fits_of_chainLen {fuel : Nat} (long : 2 ≤ mergeCompactChainLen config cache fuel 0 start) :
    (cache.segment start).canEvict = true ∧ ∃ next, (cache.segment start).next = some next ∧
      (cache.segment next).canEvict = true ∧
      (cache.segment start).liveBytes + (cache.segment next).liveBytes ≤ config.segmentSize := by
  cases fuel with
  | zero =>
    rw [mergeCompactChainLen] at long
    omega
  | succ fuel =>
    rw [mergeCompactChainLen] at long
    by_cases evictable : (cache.segment start).canEvict = true
    case neg =>
      rw [if_neg evictable] at long
      omega
    rw [if_pos evictable] at long
    dsimp only at long
    by_cases fits : (config.segmentSize : Int) < 0 + (cache.segment start).liveBytes
    · rw [if_pos fits] at long
      omega
    rw [if_neg fits] at long
    cases next : (cache.segment start).next with
    | none =>
      rw [next] at long
      dsimp only at long
      omega
    | some id =>
      rw [next] at long
      dsimp only at long
      refine ⟨evictable, id, rfl, ?_⟩
      cases fuel with
      | zero =>
        rw [mergeCompactChainLen] at long
        omega
      | succ fuel =>
        rw [mergeCompactChainLen] at long
        by_cases evictable' : (cache.segment id).canEvict = true
        · rw [if_pos evictable'] at long
          dsimp only at long
          refine ⟨evictable', ?_⟩
          by_contra wide
          rw [if_pos (by omega)] at long
          omega
        · rw [if_neg evictable'] at long
          omega

/-- A compaction claims its first candidate. -/
structure Claims (config : Config) (cache : Cache) (start : SegId) (b : Nat) : Prop where
  long : 2 ≤ mergeCompactChainLen config cache config.policy.maxMerge 0 start
  spare : cache.spareQueue ≠ [] ∨ cache.freeQueue ≠ []
  member : holdsTtl b (cache.segment start).ttl = true

/-- The candidates a compaction that begins here consumes. -/
def consumedBy (config : Config) (cache : Cache) (start : SegId) : List SegId :=
  merged config cache start (config.policy.maxMerge + 1) config.initialOffset (some start)

theorem initialOffset_lt : config.initialOffset < config.segmentSize := by
  have := config.segmentSize_gt
  unfold Config.initialOffset
  unfold KeyValue.Layout.headerSize at this
  split at this <;> simp_all
  all_goals omega

/-- The loop of a compaction, from its start. -/
theorem Begun.mergeCompactFrom (begun : Begun config chain b start spare cache middle)
    (sane : Sane config Hand.empty chain cache) (evictable : (cache.segment start).canEvict = true)
    (stops : stopBytes config ≤ config.initialOffset → ¬ config.Merges)
    (fits : config.initialOffset + (cache.segment start).liveBytes ≤ config.segmentSize)
    (fuel : Nat) : Returns (mergeCompactFrom config start spare (fuel + 1) (some start))
      (fun _ after => Merging config spare middle after ∧ LiveKept config middle after ∧
        (config.Merges ∨ after = middle) ∧
        Outcome config cache config.initialOffset
          (merged config cache start (fuel + 1) config.initialOffset (some start)) middle after)
      middle := by
  by_cases full : stopBytes config ≤ config.initialOffset
  · obtain ⟨front, back, inside, notLast, ready⟩ := begun.split
    unfold Segcache.mergeCompactFrom
    simp only [segmentOf, returns_bind, returns_read]
    rw [if_neg (by simp)]
    simp only [returns_bind, returns_read]
    rw [if_pos (by
      rw [ready.blank.liveBytes]
      simp [full])]
    refine (returns_pure _).mpr ⟨begun.abandoned (stops full), LiveKept.refl middle,
      .inr rfl, ?_⟩
    rw [merged, if_neg fun takes => absurd takes.2.1 (not_lt.mpr full)]
    exact Outcome.nothing (by exact_mod_cast initialOffset_lt) (Calm.refl ready.sane.consistent)
  have merges : (config.initialOffset : Int) < stopBytes config := not_le.mp full
  obtain ⟨front, back, inside, notLast, ready⟩ := begun.split
  have state := (sealed_of_canEvict evictable).1
  have here : Function.update chain b (front ++ spare :: start :: back) b =
      front ++ spare :: start :: back := Function.update_self ..
  have here' : Function.update chain b (front ++ spare :: start :: back) b =
      (front ++ [spare]) ++ start :: back := by
    rw [here]
    simp
  have unique := ready.sane.orderly.unique b
  have unique' := unique
  rw [here'] at unique
  rw [here] at unique'
  obtain ⟨-, -, -, gone, -⟩ := nodup_middle unique
  have spareGone : spare ∉ start :: back :=
    (List.nodup_cons.mp (List.nodup_append.mp unique').2.1).1
  have apart : start ≠ spare := fun same => spareGone (same ▸ List.mem_cons_self ..)
  have links : (middle.segment start).next = back.head? := (ready.sane.orderly.links here').2
  have linksFirst : (cache.segment start).next = back.head? := (sane.orderly.links inside).2
  have liveBytes : (middle.segment start).liveBytes = (cache.segment start).liveBytes := by
    have same := (ready.others start apart).liveBytes
    rw [claimed_self] at same
    exact same
  have held : holds (middle.segment start).state = true := by
    have draining : (middle.segment start).state = .draining :=
      ready.sane.orderly.claimed start rfl
    rw [draining]
    rfl
  have blank := ready.blank
  unfold Segcache.mergeCompactFrom claimCandidate
  simp only [segmentOf, returns_bind, returns_read]
  rw [if_neg (by simp)]
  simp only [returns_bind, returns_read]
  rw [if_neg (by
    rw [blank.liveBytes, liveBytes]
    simp only [Bool.or_eq_true, decide_eq_true_eq]
    omega)]
  simp only [returns_bind, if_true, returns_pure]
  rw [if_neg (by simp)]
  simp only [returns_bind, returns_read, links]
  refine (returns_consume ready.sane here notLast begun.laid).mono fun _ two copies => ?_
  refine copies.mono fun _ three known => ?_
  obtain ⟨sane', consumed⟩ := known
  have round : Merging config spare middle three :=
    ⟨⟨_, sane'⟩, consumed.sifted.shed, consumed.clock, consumed.flows⟩
  refine (returns_mergeCompactFrom fuel back sane' (Function.update_self ..) gone).mono
    fun _ after more => ⟨round.trans more.merging, (consumed.liveKept
      (ready.sane.orderly.claimed start rfl) ready.state).trans more.live, .inl fun _ => merges, ?_⟩
  rw [merged, if_pos ⟨.inl rfl, merges, fits⟩, linksFirst]
  refine consumed.outcome (Calm.refl ready.sane.consistent) held (by rw [blank.writeOffset])
    (by exact_mod_cast initialOffset_lt) liveBytes more.merging.shed fun room => more.outcome cache _ ?_
  have moved := consumed.grown ready.sane.consistent held (by
    rw [blank.writeOffset, liveBytes]
    exact room)
  have grown := consumed.filled
  refine ⟨?_, ?_, room, fun i there => ?_, fun front' one back' same => ?_⟩
  · rw [moved.2, blank.writeOffset, liveBytes]
  · have step := moved.2
    rw [blank.writeOffset, liveBytes] at step
    rw [grown.2, blank.liveBytes, ← step, grown.1, blank.writeOffset, Nat.cast_add]
  · have different : i ≠ start := fun same => gone (same ▸ there)
    have notSpare : i ≠ spare := fun same => spareGone (same ▸ List.mem_cons_of_mem _ there)
    rw [← @claimed_of_ne cache _ _ different]
    exact (ready.others i notSpare).trans (consumed.others i different notSpare)
  · have split : chain b = (front ++ start :: front') ++ one :: back' := by
      rw [inside, same]
      simp
    exact (sane.orderly.links split).2

/-- **A compaction.** -/
theorem returns_mergeCompact (sane : Sane config Hand.empty chain cache) (isBucket : IsBucket b)
    (stops : stopBytes config ≤ config.initialOffset → ¬ config.Merges) :
    Returns (mergeCompact config start b) (fun _ after => Settles config cache after ∧
      (holdsTtl b (cache.segment start).ttl = true → LiveKept config cache after) ∧
      (Claims config cache start b →
        Outcome config cache config.initialOffset (consumedBy config cache start) cache after) ∧
      (¬ Claims config cache start b → Compacted config [] cache after)) cache := by
  have unchanged : Settles config cache cache ∧ Compacted config [] cache cache :=
    ⟨Settles.refl sane, Compacted.refl cache⟩
  have kept : LiveKept config cache cache := LiveKept.refl cache
  unfold mergeCompact
  dsimp only
  rw [returns_bind, returns_read]
  refine Returns.ite (fun short => (returns_pure _).mpr ⟨unchanged.1, fun _ => kept, fun claims => ?_,
    fun _ => unchanged.2⟩) fun long => ?_
  · have := claims.long
    omega
  obtain ⟨evictable, next, linked, evictable', together⟩ := fits_of_chainLen (not_lt.mp long)
  have fits : config.initialOffset + (cache.segment start).liveBytes ≤ config.segmentSize := by
    have bytes := @Consistent.liveBytes_eq config cache next sane.consistent (by
      rw [(sealed_of_canEvict evictable').1]
      rfl)
    omega
  rw [segmentOf, returns_bind, returns_read, linked, if_neg (by simp)]
  refine (returns_reserveSpare sane).seq fun taken middle outcome => ?_
  rcases outcome with ⟨rfl, noSpare, noFree, rfl⟩ | ⟨spare, rfl, queues, taken⟩
  · refine (returns_pure _).mpr ⟨unchanged.1, fun _ => kept, fun claims => ?_, fun _ => unchanged.2⟩
    rcases claims.spare with some | some <;> contradiction
  refine (returns_beginMerge sane taken evictable isBucket).seq fun begun one outcome => ?_
  rcases outcome with ⟨rfl, outside, sane', calm, wanes, clock, flows, queue⟩ | ⟨rfl, begun, queue⟩
  · rw [if_pos (by simp)]
    refine (returns_pure _).mpr ⟨⟨⟨chain, sane'⟩, calm.shed, wanes, clock, fun empty => ?_⟩,
      fun member => (by cases member.symm.trans outside), fun claims => ?_,
      fun _ => calm.compacted⟩
    · have := flows.length
      have := flows.le
      rw [taken.freed, (queues empty).1] at *
      rw [← empty] at *
      exact ⟨by omega, by omega⟩
    · rw [claims.member] at outside
      cases outside
  · rw [if_neg (by simp)]
    obtain ⟨front, back, inside, notLast, ready⟩ := begun.split
    have state := (sealed_of_canEvict evictable).1
    have calm : Calm config none cache one :=
      (calm_claimed sane.consistent (.inl state)).trans ready.calm
    refine (begun.mergeCompactFrom sane evictable stops fits _).seq fun next two known => ?_
    obtain ⟨merging, live, stopped, outcome⟩ := known
    obtain ⟨chain', sane'⟩ := merging.sane
    refine (returns_publish sane').seq fun _ three known => ?_
    obtain ⟨published, sealed_, there⟩ := known
    have shed : Shed config cache three := (calm.shed.trans merging.shed).trans sealed_.shed
    refine (returns_pure _).mpr ⟨⟨⟨chain', published⟩, shed,
      begun.wanes sane state shed stopped sealed_ fun i different => by
        rw [there, setSegment_of_ne different], ?_, fun empty => ?_⟩, fun _ => ?_, fun _ => outcome.between calm sealed_,
      fun refused => absurd ?_ refused⟩
    · rw [there]
      exact ⟨merging.clock.eviction.trans ready.clock.eviction,
        merging.clock.now.trans ready.clock.now,
        merging.clock.lastExpired.trans ready.clock.lastExpired⟩
    · refine Flows.trans ⟨?_, ?_⟩ (merging.flows.trans ?_)
      · rw [ready.freed]
        rfl
      · rw [ready.freed, queue, (queues empty).1, empty]
        rfl
      · rw [there]
        exact ⟨le_rfl, rfl⟩
    · have begins : LiveKept config (cache.claimed start) one := by
        refine ready.calm.liveKept fun i live => ready.others i ?_
        rintro rfl
        have was := ready.was
        rw [live] at was
        cases was
      have ends : LiveKept config two three := by
        refine sealed_.liveKept fun i live => ?_
        have relinking : (two.segment spare).state = .relinking := (sane'.orderly.dest spare).mpr rfl
        rw [there, setSegment_of_ne]
        · exact OnlyLinks.refl _
        · rintro rfl
          rw [live] at relinking
          cases relinking
      exact (((liveKept_claimed sane state).trans begins).trans live).trans ends
    · refine ⟨not_lt.mp long, ?_, ?_⟩
      · have queued := (sane.orderly.queues.queued spare).mpr ⟨taken.range, taken.was⟩
        have queued' : spare ∈ cache.freeQueue ++ cache.spareQueue := queued
        rw [List.mem_append] at queued'
        exact queued'.symm.imp List.ne_nil_of_mem List.ne_nil_of_mem
      · have here : start ∈ chain b := by
          rw [inside]
          simp
        exact decide_eq_true (sane.orderly.ttl b start here)

end CacheRs.Segcache
