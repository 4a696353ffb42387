/-
**An expiry is exact.**

`expire` drains what is due from the head of every chain. Its chains are sorted by the time their
segments were taken, so that nothing due is left behind one that is not.

* `counts_of_total`: items that are as many, and all among some, are those;
* `maps_of_kept`: a segment that keeps its counter keeps its entries;
* `expire_exact`: **an expiry leaves exactly what is not due**.
-/

import CacheRs.Segcache.Ceilings

set_option linter.unusedSectionVars false

namespace CacheRs.Segcache

open Segments (SegId totalBuckets)
open Sequential Procedure

variable {config : Config} {cache middle after : Cache} {id : SegId} {key : Key} {mapping : Mapping}
  {chain : Nat → List SegId}

/-! ### Counting -/

section Counting

variable {counts other : Nat → Prop} {laid : List (Nat × Item)}

theorem total_le (fewer : ∀ placed ∈ laid, other placed.1 → counts placed.1) :
    total other (fun _ => 1) laid ≤ total counts (fun _ => 1) laid := by
  induction laid with
  | nil => rw [total_nil, total_nil]
  | cons placed rest ih =>
    have first := fewer placed (List.mem_cons_self ..)
    have later := ih fun next inside => fewer next (List.mem_cons_of_mem _ inside)
    rw [total_cons, total_cons]
    by_cases fewerHere : other placed.1
    · rw [if_pos fewerHere, if_pos (first fewerHere)]
      omega
    · rw [if_neg fewerHere]
      split <;> omega

/-- Items that are as many, and all among some, are those. -/
theorem counts_of_total (fewer : ∀ placed ∈ laid, other placed.1 → counts placed.1)
    (same : total other (fun _ => 1) laid = total counts (fun _ => 1) laid) :
    ∀ placed ∈ laid, counts placed.1 → other placed.1 := by
  induction laid with
  | nil => exact fun _ no => (by cases no)
  | cons placed rest ih =>
    have first := fewer placed (List.mem_cons_self ..)
    have restFewer : ∀ next ∈ rest, other next.1 → counts next.1 :=
      fun next inside => fewer next (List.mem_cons_of_mem _ inside)
    have bound := total_le restFewer
    rw [total_cons, total_cons] at same
    have here : counts placed.1 → other placed.1 := by
      intro counted
      by_contra missed
      rw [if_neg missed, if_pos counted] at same
      omega
    have tail : total other (fun _ => 1) rest = total counts (fun _ => 1) rest := by
      by_cases counted : counts placed.1
      · rw [if_pos (here counted), if_pos counted] at same
        omega
      · rw [if_neg fun named => counted (first named), if_neg counted] at same
        omega
    intro next inside
    rcases List.mem_cons.mp inside with rfl | behind
    · exact here
    · exact ih restFewer tail next behind

end Counting

/-- **A segment that keeps its counter keeps its entries.** -/
theorem maps_of_kept (consistent : Consistent config none cache)
    (consistent' : Consistent config none after)
    (entries : ∀ b i entry, after.table.slot b i = some entry → cache.table.slot b i = some entry)
    (maps : Maps config cache key mapping)
    (links : OnlyLinks (cache.segment mapping.location.segment)
      (after.segment mapping.location.segment)) : Maps config after key mapping := by
  obtain ⟨present, -⟩ := consistent.present_of_maps maps
  have laidOut : after.laidOut config _ = cache.laidOut config _ := links.laidOut
  have locationAt : ∀ offset, after.locationAt mapping.location.segment offset =
      cache.locationAt mapping.location.segment offset := by
    intro offset
    unfold Cache.locationAt
    rw [links.tag]
  have state := links.state
  have here : cache.locationAt mapping.location.segment mapping.location.offset = mapping.location :=
    locationAt_of_tag present.tag
  have inside : (mapping.location.offset, mapping.item) ∈
      cache.laidOut config mapping.location.segment := by
    rw [← Cache.itemAt_locationAt, here]
    exact present.item
  have fewer : ∀ location, after.table.Named location → cache.table.Named location :=
    fun location ⟨b, i, entry, slot, same⟩ => ⟨b, i, entry, entries b i entry slot, same⟩
  have liveItems : (after.segment mapping.location.segment).liveItems =
      (cache.segment mapping.location.segment).liveItems := by
    obtain ⟨next, prev, same⟩ := links
    rw [same]
  have count := consistent.items present.state
  have count' := consistent'.items (state ▸ present.state)
  rw [laidOut] at count'
  have kept : after.table.Named mapping.location := by
    have counted := counts_of_total (fun placed _ (named : Counts after none
        mapping.location.segment placed.1) => ?_) (count'.symm.trans (liveItems.trans count))
      (mapping.location.offset, mapping.item) inside (.inl (here.symm ▸ maps.named))
    · rcases counted with named | no
      · rwa [locationAt, here] at named
      · cases no
    · rcases named with named | no
      · rw [locationAt] at named
        exact .inl (fewer _ named)
      · cases no
  obtain ⟨b, i, entry, slot, same⟩ := kept
  obtain ⟨b', i', tag, slot', item, isKey⟩ := maps
  have was := entries b i entry slot
  cases consistent.slot_unique was slot' same
  cases was.symm.trans slot'
  refine ⟨b, i, tag, slot, ?_, isKey⟩
  rw [← here, ← locationAt, Cache.itemAt_locationAt, laidOut]
  exact inside

/-! ### The drain -/

/-- A member that is not due is left by a drain. -/
theorem mem_undrained {cutoff : Option Nat} {members : List SegId} (inside : id ∈ members)
    (undue : cache.due cutoff id = false) : id ∈ cache.undrained cutoff members := by
  induction members with
  | nil => cases inside
  | cons first rest ih =>
    rw [Cache.undrained]
    cases due : cache.due cutoff first with
    | false =>
      rw [if_neg (by simp)]
      exact inside
    | true =>
      have different : id ≠ first := by
        rintro rfl
        cases undue.symm.trans due
      have left := ih ((List.mem_cons.mp inside).resolve_left different)
      rw [if_pos rfl]
      split
      · exact List.mem_cons_of_mem _ left
      · exact left

/-- A sweep keeps what lies in a segment that is not due. -/
theorem Swept.keeps {cutoff : Option Nat} {buckets : List Nat} {drained : Nat}
    (swept : Swept config cutoff buckets chain drained cache after) (sane : Sane config Hand.empty chain cache)
    (entries : ∀ b i entry, after.table.slot b i = some entry → cache.table.slot b i = some entry)
    (awake : Awake config cache key mapping) (undue : cache.due cutoff mapping.location.segment = false) :
    Awake config after key mapping := by
  have links := swept.others mapping.location.segment fun b _ inside => mem_undrained inside undue
  refine ⟨maps_of_kept sane.consistent swept.sane.consistent entries awake.1 links, ?_⟩
  rw [links.state]
  exact awake.2

/-! ### What a drain frees -/

/-- How many members of a chain a drain frees: those that no reader holds. -/
def Cache.drains (cache : Cache) (cutoff : Option Nat) : List SegId → Nat
  | [] => 0
  | id :: rest =>
    if cache.due cutoff id then
      if (cache.segment id).state = .draining then cache.drains cutoff rest
      else (if (cache.segment id).refCount = 0 then 1 else 0) + cache.drains cutoff rest
    else 0

theorem drains_congr (cutoff : Option Nat) {members : List SegId}
    (others : ∀ i ∈ members, OnlyLinks (cache.segment i) (after.segment i)) :
    after.drains cutoff members = cache.drains cutoff members := by
  induction members with
  | nil => rfl
  | cons id rest ih =>
    obtain ⟨next, prev, same⟩ := others id (List.mem_cons_self ..)
    rw [Cache.drains, Cache.drains, ih fun i there => others i (List.mem_cons_of_mem _ there),
      Cache.due, Cache.due, same]

/-- The loop of `drain_chain` counts what it frees. -/
theorem ensures_drainChainFrom_drains (cutoff : Option Nat) (front members : List SegId) {fuel b : Nat}
    (sane : Sane config Hand.empty chain cache) (inside : chain b = front ++ members)
    (asleep : ∀ i ∈ front, (cache.segment i).state = .draining)
    (enough : members.length ≤ fuel) (freed : Nat) :
    Ensures (drainChainFrom config b cutoff fuel members.head? freed)
      (fun count _ => count = freed + cache.drains cutoff members) cache := by
  induction members generalizing cache chain fuel freed front with
  | nil => cases fuel <;> exact (ensures_pure freed).mpr rfl
  | cons id rest ih =>
    obtain ⟨fuel, rfl⟩ : ∃ rounds, fuel = rounds + 1 :=
      ⟨fuel - 1, by rw [List.length_cons] at enough; omega⟩
    have enough' : rest.length ≤ fuel := by
      rw [List.length_cons] at enough
      omega
    have held : holds (cache.segment id).state = true :=
      (sane.orderly.member id).mpr ⟨b, by rw [inside]; simp⟩
    have unique : (id :: rest).Nodup :=
      List.Nodup.of_append_right (inside ▸ sane.orderly.unique b)
    rw [Cache.drains]
    cases due : cache.due cutoff id with
    | false =>
      rw [if_neg (by simp)]
      rw [Cache.due, Bool.not_eq_false'] at due
      rw [List.head?_cons, drainChainFrom]
      unfold segmentOf
      rw [ensures_bind, ensures_read, due, if_pos rfl]
      exact (ensures_pure _).mpr rfl
    | true =>
      rw [if_pos rfl]
      rcases sane.settled.inService held with state | state
      · obtain ⟨middle, round, same⟩ := drainChainFrom_apply sane inside asleep state cutoff fuel freed due
        have awake : (cache.segment id).state ≠ .draining := by
          intro there
          rcases state with here | here <;> cases here.symm.trans there
        have still : ∀ i ∈ front, (middle.segment i).state = .draining := by
          intro i there
          rw [(round.others i fun same => awake (same ▸ asleep i there)).state, asleep i there]
        have others : ∀ i ∈ rest, OnlyLinks (cache.segment i) (middle.segment i) :=
          fun i there => round.others i fun here => (List.nodup_cons.mp unique).1 (here ▸ there)
        have counts := ih front round.sane (Function.update_self ..) still enough'
          (freed + if (cache.segment id).refCount = 0 then 1 else 0)
        rw [if_neg awake]
        intro count after ran
        have counted := counts count after (same.symm.trans ran)
        rw [drains_congr cutoff others] at counted
        omega
      · rw [if_pos state]
        intro count after ran
        refine ih (front ++ [id]) sane (by rw [inside]; simp) (fun i there => ?_) enough' freed count after
          ((drainChainFrom_skip sane inside state cutoff fuel freed due).symm.trans ran)
        rcases List.mem_append.mp there with before | here
        · exact asleep i before
        · rw [List.mem_singleton.mp here]
          exact state

theorem ensures_drainBuckets_drains (cutoff : Option Nat) (buckets : List Nat) (unique : buckets.Nodup)
    (sane : Sane config Hand.empty chain cache) : Ensures (drainBuckets config cutoff buckets)
      (fun freed _ => freed = (buckets.map fun b => cache.drains cutoff (chain b)).sum) cache := by
  induction buckets generalizing cache chain with
  | nil => exact (ensures_pure 0).mpr rfl
  | cons b rest ih =>
    rw [List.nodup_cons] at unique
    have counts : Ensures (drainChain config b cutoff)
        (fun freed _ => freed = cache.drains cutoff (chain b)) cache := by
      unfold drainChain
      have head : (cache.bucket b).head = (chain b).head? := sane.orderly.head b
      rw [ensures_bind, ensures_read, head]
      refine (ensures_drainChainFrom_drains cutoff [] (chain b) sane rfl (fun i there => by cases there)
        (sane.orderly.length_le b) 0).mono fun count _ counted => ?_
      rw [counted, Nat.zero_add]
    unfold drainBuckets
    refine Ensures.seq ((returns_drainChain cutoff sane b).ensures.and counts)
      fun first middle known => ?_
    obtain ⟨drained, counted⟩ := known
    refine Ensures.seq (ih unique.2 drained.sane) fun later after more => (ensures_pure _).mpr ?_
    -- The chains that come later are as they were.
    have elsewhere : ∀ c ∈ rest, middle.drains cutoff
        (Function.update chain b ([] ++ cache.undrained cutoff (chain b)) c) =
          cache.drains cutoff (chain c) := by
      intro c there
      have different : c ≠ b := fun same => unique.1 (same ▸ there)
      rw [Function.update_of_ne different]
      refine drains_congr cutoff fun i inside => drained.others i fun here => ?_
      exact absurd (sane.orderly.eq_of_mem inside here) different
    rw [List.map_cons, List.sum_cons, counted, more, List.map_congr_left elsewhere]

/-! ### The expiry -/

/-- A segment in service has fallen due. -/
def Cache.Overdue (cache : Cache) (id : SegId) : Prop :=
  ((cache.segment id).state = .sealed ∨ (cache.segment id).state = .live) ∧
    cache.deadline id ≤ cache.now

instance (cache : Cache) (id : SegId) : Decidable (cache.Overdue id) :=
  inferInstanceAs (Decidable (_ ∧ _))

/-- In a chain in order, a drain frees every member that is overdue and not held. -/
theorem drains_eq_countP {members : List SegId} {ttl : Nat}
    (sorted : members.Pairwise fun i j => (cache.segment i).createAt ≤ (cache.segment j).createAt)
    (same : ∀ i ∈ members, (cache.segment i).ttl = ttl)
    (settled : ∀ i ∈ members, ((cache.segment i).state = .sealed ∨ (cache.segment i).state = .live) ∨
      (cache.segment i).state = .draining) :
    cache.drains (some cache.now) members =
      members.countP fun i => decide (cache.Overdue i ∧ (cache.segment i).refCount = 0) := by
  induction members with
  | nil => rfl
  | cons first rest ih =>
    obtain ⟨oldest, sorted⟩ := List.pairwise_cons.mp sorted
    have counted := ih sorted (fun i there => same i (List.mem_cons_of_mem _ there))
      fun i there => settled i (List.mem_cons_of_mem _ there)
    have dueIff : cache.due (some cache.now) first = true ↔ cache.deadline first ≤ cache.now := by
      simp [Cache.due, Cache.deadline]
    rw [Cache.drains, List.countP_cons]
    by_cases due : cache.deadline first ≤ cache.now
    · rw [if_pos (dueIff.mpr due)]
      by_cases awake : (cache.segment first).state = .draining
      · have skipped : ¬ cache.Overdue first := by
          rintro ⟨state | state, -⟩ <;> cases awake.symm.trans state
        rw [if_pos awake, counted]
        simp [skipped]
      · have overdue : cache.Overdue first :=
          ⟨(settled first (List.mem_cons_self ..)).resolve_right awake, due⟩
        rw [if_neg awake, counted, Nat.add_comm]
        simp [overdue]
    · rw [if_neg fun passed => due (dueIff.mp passed)]
      have young : ∀ i ∈ first :: rest, ¬ cache.Overdue i := by
        rintro i there ⟨-, passed⟩
        refine due (le_trans ?_ passed)
        unfold Cache.deadline
        rw [same first (List.mem_cons_self ..), same i there]
        rcases List.mem_cons.mp there with rfl | behind
        · exact le_rfl
        · have := oldest i behind
          omega
      rw [← List.countP_cons, eq_comm, List.countP_eq_zero]
      intro i there
      simp [young i there]

/-- The segments that have fallen due and that no reader holds. -/
def Cache.expired (config : Config) (cache : Cache) : Finset SegId :=
  (Finset.Icc 1 config.cap).filter fun id => cache.Overdue id ∧ (cache.segment id).refCount = 0

/-- The members of all chains that satisfy something are the segments in service that do. -/
theorem Sane.sum_countP (sane : Sane config Hand.empty chain cache) {holding : SegId → Prop}
    [DecidablePred holding] (held : ∀ i, holding i → holds (cache.segment i).state = true) :
    ((List.range totalBuckets).map fun b => (chain b).countP fun i => decide (holding i)).sum =
      ((Finset.Icc 1 config.cap).filter holding).card := by
  have unique : ((List.range totalBuckets).flatMap chain).Nodup := by
    refine List.nodup_flatMap.mpr ⟨fun b _ => sane.orderly.unique b, ?_⟩
    refine List.nodup_range.imp fun {b c} different => ?_
    intro i inside inside'
    exact different (sane.orderly.eq_of_mem inside inside')
  have together := (@List.countP_flatMap _ _ (fun i => decide (holding i)) (List.range totalBuckets)
    chain).symm
  rw [List.countP_eq_length_filter, ← List.toFinset_card_of_nodup (unique.filter _)] at together
  refine Eq.trans together (congrArg Finset.card ?_)
  ext i
  simp only [List.mem_toFinset, List.mem_filter, List.mem_flatMap, List.mem_range, decide_eq_true_eq,
    Finset.mem_filter, Finset.mem_Icc]
  refine and_congr_left fun here => ?_
  constructor
  · rintro ⟨b, -, inside⟩
    refine sane.orderly.range i fun free => ?_
    have := held i here
    rw [show (cache.segment i).state = .free from free] at this
    cases this
  · intro _
    obtain ⟨b, inside⟩ := (sane.orderly.member i).mp (held i here)
    exact ⟨b, (sane.orderly.bucket b (List.ne_nil_of_mem inside)).2, inside⟩

/-- What could be read can still be read while it is not due, and nothing else can. -/
def LeavesFresh (config : Config) (cache after : Cache) : Prop :=
  ∀ key mapping, Awake config after key mapping ↔
    Awake config cache key mapping ∧ cache.now < cache.deadline mapping.location.segment

theorem isLaid_of_inService
    (state : (cache.segment id).state = .sealed ∨ (cache.segment id).state = .live) :
    isLaid (cache.segment id).state = true ∧ holds (cache.segment id).state = true := by
  rcases state with here | here <;> rw [here] <;> exact ⟨rfl, rfl⟩

/-- An expiry that finds the chains in order frees every segment that is overdue and not held. -/
theorem Sane.ensures_expire_drains (sane : Sane config Hand.empty chain cache)
    (dated : Dated chain cache) : Ensures (expireBuckets config)
      (fun freed _ => freed = (cache.expired config).card) cache := by
  unfold expireBuckets
  rw [ensures_bind, ensures_read, ensures_bind, ensures_exchange]
  refine Ensures.ite (fun done => (ensures_pure 0).mpr ?_) fun _ => ?_
  · have fresh : cache.expired config = ∅ := by
      refine Finset.filter_eq_empty_iff.mpr fun i _ overdue => ?_
      have undue := dated.undue i (isLaid_of_inService overdue.1.1).1
      have passed := overdue.1.2
      unfold Cache.deadline at passed
      omega
    rw [fresh]
    rfl
  · have frame : Frame config none cache { cache with lastExpired := cache.now } :=
      frame_of_same rfl rfl
    have here : Sane config Hand.empty chain { cache with lastExpired := cache.now } :=
      ⟨frame.consistent sane.consistent, sane.orderly⟩
    refine (ensures_drainBuckets_drains _ _ List.nodup_range here).mono fun freed _ counted => ?_
    have chains : ∀ b ∈ List.range totalBuckets,
        Cache.drains { cache with lastExpired := cache.now } (some cache.now) (chain b) =
          (chain b).countP fun i => decide (cache.Overdue i ∧ (cache.segment i).refCount = 0) := by
      intro b _
      have same : Cache.drains { cache with lastExpired := cache.now } (some cache.now) (chain b) =
          cache.drains (some cache.now) (chain b) := drains_congr _ fun _ _ => OnlyLinks.refl _
      rw [same]
      refine drains_eq_countP (dated.sorted b) (fun i there => sane.orderly.ttl b i there) fun i there => ?_
      exact sane.settled.inService ((sane.orderly.member i).mpr ⟨b, there⟩)
    rw [counted, List.map_congr_left chains]
    exact sane.sum_countP fun i overdue => (isLaid_of_inService overdue.1.1).2

/-- An expiry that finds the chains in order leaves exactly what is not due. -/
theorem Sane.returns_expire (sane : Sane config Hand.empty chain cache) (dated : Dated chain cache) :
    Returns (expireBuckets config) (fun _ after => LeavesFresh config cache after ∧
      ∀ i, ¬ after.Overdue i) cache := by
  obtain ⟨drained, after, ran, swept, lastExpired⟩ := returns_expireBuckets sane
  obtain ⟨chain', sane', dated', -⟩ := ensures_expireBuckets_ages sane _ _ ran
  have thins := ensures_expireBuckets_thins cache _ _ ran
  have undue := (dated' dated).undue
  refine ⟨drained, after, ran, fun key mapping => ⟨fun ⟨maps, awake⟩ => ?_, fun ⟨awake, fresh⟩ => ?_⟩,
    fun i overdue => ?_⟩
  · obtain ⟨b, i, tag, slot, item, isKey⟩ := id maps
    have was := thins.entries b i _ slot
    obtain ⟨old, was', same⟩ := swept.shed b i _ _ slot item
    cases was.symm.trans was'
    refine ⟨⟨⟨b, i, tag, was, same, isKey⟩, fun asleep => awake (swept.wanes.asleep _ asleep)⟩, ?_⟩
    have held := (sane'.consistent.present_of_maps maps).1.state
    have fresh := undue _ (isLaid_of_inService ((sane'.settled.inService held).resolve_right awake)).1
    rw [lastExpired, thins.createAt, thins.ttl] at fresh
    exact fresh
  · refine swept.keeps sane thins.entries awake ?_
    unfold Cache.due
    rw [Option.any_some, Bool.not_eq_false']
    exact decide_eq_true fresh
  · have fresh := undue i (isLaid_of_inService overdue.1).1
    have passed := overdue.2
    unfold Cache.deadline at passed
    rw [lastExpired] at fresh
    have now : after.now = cache.now := thins.now
    omega

/-- **An expiry is exact**: it frees and counts every segment that is overdue and not held, leaves none
in service that is overdue, and what can be read then is what could be read and is not due. -/
theorem expire_exact (reachable : Reachable config cache) : Returns (expire config)
    (fun freed after => freed = (cache.expired config).card ∧ LeavesFresh config cache after ∧
      ∀ i, ¬ after.Overdue i) cache := by
  obtain ⟨⟨chain, sane⟩, -⟩ := reachable.good
  have dated := reachable.timely.dated sane.orderly
  exact ((sane.returns_expire dated).and (sane.ensures_expire_drains dated)).mono
    fun _ _ ⟨left, freed⟩ => ⟨freed, left⟩

/-- The first segment is live and not held, and falls due by the instant. -/
def fallsDue (instant : Nat) (cache : Cache) : Bool :=
  decide ((cache.segment 1).state = .live) && decide ((cache.segment 1).refCount = 0) &&
    decide (cache.deadline 1 ≤ instant) && decide (cache.now ≤ instant)

/-- A minute after a value has been stored for a minute. -/
theorem exists_overdue : ∃ cache, Reachable (Config.small false .fifo 3) cache ∧ cache.Overdue 1 ∧
    (cache.segment 1).refCount = 0 := by
  obtain ⟨cache, reachable, falls⟩ := exists_reachable (Config.small false .fifo 3) 4
    [.insert (smallKey 1) (smallValue 8) Optional.none 60] (fallsDue 60) (by decide +kernel)
  simp only [fallsDue, Bool.and_eq_true, decide_eq_true_eq] at falls
  obtain ⟨⟨⟨live, unpinned⟩, due⟩, now⟩ := falls
  exact ⟨{ cache with now := 60 }, reachable.step (.tick 60 now), ⟨.inr live, due⟩, unpinned⟩

theorem expire_exact_overdue : ∃ cache, Reachable (Config.small false .fifo 3) cache ∧
    cache.Overdue 1 ∧ Returns (expire (Config.small false .fifo 3))
      (fun freed after => freed = (cache.expired (Config.small false .fifo 3)).card ∧
        LeavesFresh (Config.small false .fifo 3) cache after ∧ ∀ i, ¬ after.Overdue i) cache := by
  obtain ⟨cache, reachable, overdue, -⟩ := exists_overdue
  exact ⟨cache, reachable, overdue, expire_exact reachable⟩

/-- **An eviction takes what is due first**: where a segment is overdue and not held, it succeeds and
loses nothing else, whatever the policy. -/
theorem evict_expires_first (reachable : Reachable config cache) (overdue : cache.Overdue id)
    (unpinned : (cache.segment id).refCount = 0) :
    Returns (evict config) (fun result after => result = .ok () ∧ LeavesFresh config cache after) cache := by
  obtain ⟨⟨chain, sane⟩, -⟩ := reachable.good
  have dated := reachable.timely.dated sane.orderly
  obtain ⟨freed, after, ran, leaves, -⟩ := sane.returns_expire dated
  have counted := sane.ensures_expire_drains dated _ _ ran
  have range : InRange config id := sane.orderly.range id fun free => by
    rcases overdue.1 with state | state <;> cases (show (cache.segment id).state = .free from free).symm.trans state
  have some_ : 0 < freed := by
    rw [counted]
    exact Finset.card_pos.mpr ⟨id, Finset.mem_filter.mpr
      ⟨Finset.mem_Icc.mpr range, overdue, unpinned⟩⟩
  unfold evict
  refine ⟨.ok (), after, ?_, rfl, leaves⟩
  rw [bind_apply_of_some ran, if_pos some_]
  rfl

theorem evict_expires_first_overdue : ∃ cache, Reachable (Config.small false .fifo 3) cache ∧
    Returns (evict (Config.small false .fifo 3)) (fun result after => result = .ok () ∧
      LeavesFresh (Config.small false .fifo 3) cache after) cache := by
  obtain ⟨cache, reachable, overdue, unpinned⟩ := exists_overdue
  exact ⟨cache, reachable, evict_expires_first reachable overdue unpinned⟩

end CacheRs.Segcache
