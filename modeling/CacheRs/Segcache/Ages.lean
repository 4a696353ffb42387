/-
**The ages of the segments.**

A chain grows at its end by segments that are created now, and a destination is linked before its first
source with that source's date. So a chain is in the order its members were created in, and what a
merge or a promotion moves falls due no later than before.

* `Dated`: every chain is in order, and nothing in service was due when expiry was last looked for;
* `Ages`: a step keeps the chains so, and no entry's item falls due later;
* `ensures_mergeEvict_ages`, `ensures_s3fifoEvict_ages`, `ensures_evict_ages`: **eviction ages**.
-/

import CacheRs.Segcache.Dates
import CacheRs.Segcache.Removals

set_option linter.unusedSectionVars false

namespace CacheRs.Segcache

open DoublyLinked
open Segments (SegId State totalBuckets bucketTtl IsBucket getBucketIndex holdsTtl)
open Sequential Procedure

variable {config : Config} {chain chain' chain'' : Nat → List SegId} {cache middle after : Cache}
  {id start spare : SegId} {b : Nat}

/-- Every chain is in the order its members were created in, none of them later than now, and nothing
in service was due when expiry was last looked for. -/
structure Dated (chain : Nat → List SegId) (cache : Cache) : Prop where
  sorted : ∀ b, (chain b).Pairwise fun i j =>
    (cache.segment i).createAt ≤ (cache.segment j).createAt
  past : ∀ b, ∀ i ∈ chain b, (cache.segment i).createAt ≤ cache.now
  undue : ∀ i, isLaid (cache.segment i).state = true →
    cache.lastExpired < (cache.segment i).createAt + (cache.segment i).ttl
  expired : cache.lastExpired ≤ cache.now

/-- The chains stay in order, and no entry's item falls due later. -/
structure Ages (chain chain' : Nat → List SegId) (cache after : Cache) : Prop where
  dated : Dated chain cache → Dated chain' after
  hastens : Dated chain cache → Hastens cache after

theorem Ages.refl (chain : Nat → List SegId) (cache : Cache) : Ages chain chain cache cache :=
  ⟨id, fun _ => .refl cache⟩

theorem Ages.trans (first : Ages chain chain' cache middle) (second : Ages chain' chain'' middle after) :
    Ages chain chain'' cache after where
  dated dated := second.dated (first.dated dated)
  hastens dated := (first.hastens dated).trans (second.hastens (first.dated dated))

/-! ### Steps -/

theorem SameDates.dated (same : SameDates cache after) (parts : ∀ b, (chain' b).Sublist (chain b))
    (dated : Dated chain cache) : Dated chain' after where
  sorted b := by
    refine ((dated.sorted b).sublist (parts b)).imp fun {i j} older => ?_
    rwa [same.createAt, same.createAt]
  past b i inside := by
    rw [same.createAt, same.now]
    exact dated.past b i ((parts b).subset inside)
  undue i laid := by
    rw [same.createAt, same.ttl, same.lastExpired]
    exact dated.undue i (same.laid i laid)
  expired := by
    rw [same.lastExpired, same.now]
    exact dated.expired

/-- Members leave the chains, and entries are lost at most. -/
theorem Thins.ages (thins : Thins cache after) (parts : ∀ b, (chain' b).Sublist (chain b)) :
    Ages chain chain' cache after :=
  ⟨thins.toSameDates.dated parts, fun _ => thins.hastens⟩

theorem Thins.ages_self (thins : Thins cache after) : Ages chain chain cache after :=
  thins.ages fun _ => List.Sublist.refl _

/-- A chain without one member. -/
theorem update_sublist {front back : List SegId} (inside : chain b = front ++ id :: back) (c : Nat) :
    (Function.update chain b (front ++ back) c).Sublist (chain c) := by
  rw [Function.update_apply]
  split
  · rename_i same
    rw [same, inside]
    exact List.Sublist.append_left (List.sublist_cons_self ..) _
  · exact List.Sublist.refl _

theorem Taken.opens {d c : Option SegId} (taken : Taken config d c chain id cache after) :
    Opens id cache after where
  createAt i apart := by rw [taken.others i apart]
  ttl i apart := by rw [taken.others i apart]
  now := taken.clock.now
  lastExpired := taken.clock.lastExpired
  laid i apart := by rw [taken.others i apart]; exact fun laid => laid
  entries _ _ _ slot := taken.calm.slots ▸ slot

/-- No entry names the segment that is taken. -/
theorem Opens.hastens (opens : Opens id cache after) (consistent : Consistent config none cache)
    (unheld : holds (cache.segment id).state = false) : Hastens cache after where
  entries b i entry slot := by
    have was := opens.entries b i entry slot
    obtain ⟨item, present, -⟩ := consistent.sound was
    have apart : entry.location.segment ≠ id := by
      rintro rfl
      cases present.state.symm.trans unheld
    exact ⟨entry, was, opens.ttl _ apart, (opens.createAt _ apart).le⟩
  swept := opens.lastExpired.ge

/-- What a chain's new member must not be. -/
theorem Opens.outside (opens : Opens id cache after) {hand : Hand}
    (orderly : Orderly config hand chain cache.shape)
    (unheld : holds (cache.segment id).state = false) (b : Nat) : ∀ i ∈ chain b, i ≠ id := by
  rintro i inside rfl
  have held : holds (cache.segment i).state = true := (orderly.member i).mpr ⟨b, inside⟩
  cases held.symm.trans unheld

section Open

variable {hand : Hand} (opens : Opens id cache after) (orderly : Orderly config hand chain cache.shape)
  (unheld : holds (cache.segment id).state = false)

include opens orderly unheld

theorem Opens.same {i : SegId} (inside : i ∈ chain b) :
    (after.segment i).createAt = (cache.segment i).createAt :=
  opens.createAt i (opens.outside orderly unheld b i inside)

/-- The old members of the chains are in order still. -/
theorem Opens.sorted (dated : Dated chain cache) (b : Nat) : (chain b).Pairwise fun i j =>
    (after.segment i).createAt ≤ (after.segment j).createAt := by
  refine (dated.sorted b).imp_of_mem fun {i j} inside inside' older => ?_
  rwa [opens.same orderly unheld inside, opens.same orderly unheld inside']

/-- **A destination is linked before a member whose dates it has.** -/
theorem Opens.insert {front back : List SegId} (inside : chain b = front ++ start :: back)
    (laid : isLaid (cache.segment start).state = true)
    (createAt : (after.segment id).createAt = (cache.segment start).createAt)
    (ttl : (after.segment id).ttl = (cache.segment start).ttl) (dated : Dated chain cache) :
    Dated (Function.update chain b (front ++ id :: start :: back)) after where
  sorted c := by
    rw [Function.update_apply]
    split
    · have sorted := opens.sorted orderly unheld dated b
      have own : (after.segment start).createAt = (cache.segment start).createAt :=
        opens.same orderly unheld (b := b) (by rw [inside]; simp)
      rw [inside, List.pairwise_append] at sorted
      obtain ⟨before, behind, across⟩ := sorted
      refine List.pairwise_append.mpr ⟨before, List.pairwise_cons.mpr ⟨fun j there => ?_, behind⟩,
        fun i inFront j there => ?_⟩
      · rw [createAt, ← own]
        rcases List.mem_cons.mp there with rfl | later
        · exact le_rfl
        · exact (List.pairwise_cons.mp behind).1 j later
      · rcases List.mem_cons.mp there with rfl | later
        · rw [createAt, ← own]
          exact across i inFront start (List.mem_cons_self ..)
        · exact across i inFront j later
    · exact opens.sorted orderly unheld dated c
  past c i there := by
    have old : ∀ c, ∀ i ∈ chain c, (after.segment i).createAt ≤ after.now := by
      intro c i member
      rw [opens.same orderly unheld member, opens.now]
      exact dated.past c i member
    rw [Function.update_apply] at there
    split at there
    · rcases List.mem_append.mp there with inFront | later
      · exact old b i (by rw [inside]; exact List.mem_append_left _ inFront)
      · rcases List.mem_cons.mp later with rfl | behind
        · rw [createAt, opens.now]
          exact dated.past b start (by rw [inside]; simp)
        · exact old b i (by rw [inside]; exact List.mem_append_right _ behind)
    · exact old c i there
  undue i laid' := by
    rw [opens.lastExpired]
    by_cases isNew : i = id
    · subst isNew
      rw [createAt, ttl]
      exact dated.undue start laid
    · rw [opens.createAt i isNew, opens.ttl i isNew]
      exact dated.undue i (opens.laid i isNew laid')
  expired := by
    rw [opens.lastExpired, opens.now]
    exact dated.expired

/-- **A segment that is created now is linked at a chain's end.** -/
theorem Opens.append (createAt : (after.segment id).createAt = cache.now)
    (ttl : 0 < (after.segment id).ttl) (dated : Dated chain cache) :
    Dated (Function.update chain b (chain b ++ [id])) after where
  sorted c := by
    rw [Function.update_apply]
    split
    · refine List.pairwise_append.mpr ⟨opens.sorted orderly unheld dated b, List.pairwise_singleton ..,
        fun i inside j last => ?_⟩
      rw [List.mem_singleton.mp last, createAt, opens.same orderly unheld inside]
      exact dated.past b i inside
    · exact opens.sorted orderly unheld dated c
  past c i there := by
    rw [opens.now]
    by_cases isNew : i = id
    · rw [isNew, createAt]
    · have member : ∃ c, i ∈ chain c := by
        rw [Function.update_apply] at there
        split at there
        · refine ⟨b, (List.mem_append.mp there).resolve_right fun last => isNew ?_⟩
          exact List.mem_singleton.mp last
        · exact ⟨c, there⟩
      obtain ⟨c', inside⟩ := member
      rw [opens.same orderly unheld inside]
      exact dated.past c' i inside
  undue i laid := by
    rw [opens.lastExpired]
    by_cases isNew : i = id
    · have := dated.expired
      rw [isNew, createAt]
      omega
    · rw [opens.createAt i isNew, opens.ttl i isNew]
      exact dated.undue i (opens.laid i isNew laid)
  expired := by
    rw [opens.lastExpired, opens.now]
    exact dated.expired

end Open

/-- **A segment that is taken and given back** leaves the chains as they were. -/
theorem Opens.kept {hand hand' : Hand} (opens : Opens id cache after)
    (sane : Sane config hand chain cache) (unheld : holds (cache.segment id).state = false)
    (sane' : Sane config hand' chain after) : Ages chain chain cache after where
  dated dated := by
    refine ⟨opens.sorted sane.orderly unheld dated, fun b i inside => ?_, fun i laid => ?_, ?_⟩
    · rw [opens.same sane.orderly unheld inside, opens.now]
      exact dated.past b i inside
    · have apart : i ≠ id := by
        obtain ⟨c, inside⟩ := (sane'.orderly.member i).mp (holds_of_isLaid laid)
        exact opens.outside sane.orderly unheld c i inside
      rw [opens.createAt i apart, opens.ttl i apart, opens.lastExpired]
      exact dated.undue i (opens.laid i apart laid)
    · rw [opens.lastExpired, opens.now]
      exact dated.expired
  hastens _ := opens.hastens sane.consistent unheld

/-! ### Merges -/

/-- **A candidate is pruned, copied to the destination before it and dropped.** -/
theorem ages_round {candidate : SegId} {hand : Hand} {front back : List SegId}
    {pruned copied : Cache} (orderly : Orderly config hand chain cache.shape)
    (inside : chain b = front ++ spare :: candidate :: back) (prunes : Thins cache pruned)
    (copies : Copies candidate spare pruned copied) (finishes : Thins copied after) :
    Ages chain (Function.update chain b (front ++ spare :: back)) cache after := by
  have older : Dated chain cache → NoLater (pruned.segment candidate) (pruned.segment spare) := by
    intro dated
    have sorted := dated.sorted b
    rw [inside, List.pairwise_append, List.pairwise_cons] at sorted
    have ttl : ∀ i ∈ chain b, (pruned.segment i).ttl = bucketTtl b := fun i there =>
      (prunes.ttl i).trans (orderly.ttl b i there)
    refine ⟨?_, ?_⟩
    · rw [ttl spare (by rw [inside]; simp), ttl candidate (by rw [inside]; simp)]
    · rw [prunes.createAt, prunes.createAt]
      exact sorted.2.1.1 candidate (List.mem_cons_self ..)
  have inside' : chain b = (front ++ [spare]) ++ candidate :: back := by
    rw [inside]
    simp
  have parts := update_sublist inside'
  rw [List.append_assoc, List.singleton_append] at parts
  refine ⟨fun dated => ?_, fun dated => ?_⟩
  · obtain ⟨same, -⟩ := copies (older dated)
    exact ((prunes.toSameDates.trans same).trans finishes.toSameDates).dated parts dated
  · obtain ⟨-, hastens⟩ := copies (older dated)
    exact (prunes.hastens.trans hastens).trans finishes.hastens

/-- What a merge's loop leaves, with the chains it leaves. -/
def Aging (config : Config) (hand : Hand) (chain : Nat → List SegId) (cache after : Cache) : Prop :=
  ∃ chain', Sane config hand chain' after ∧ Ages chain chain' cache after

theorem Aging.refl {hand : Hand} (sane : Sane config hand chain cache) :
    Aging config hand chain cache cache := ⟨chain, sane, .refl chain cache⟩

theorem Ages.aging {hand : Hand} (ages : Ages chain chain' cache middle)
    (aging : Aging config hand chain' middle after) : Aging config hand chain cache after := by
  obtain ⟨last, sane, more⟩ := aging
  exact ⟨last, sane, ages.trans more⟩

theorem thins_claimed (id : SegId) : Thins cache (cache.claimed id) :=
  thins_setSegment rfl rfl fun laid => by cases laid

/-- The rest of a merge eviction's loop, behind its first round. -/
theorem ensures_mergeEvictFrom_ages (targetRatio : ℚ) (fuel : Nat) (cutoff : ℚ) (rest : List SegId)
    {front : List SegId} (sane : Sane config ⟨none, some spare, none⟩ chain cache)
    (inside : chain b = front ++ spare :: rest) (gone : start ∉ rest) :
    Ensures (mergeEvictFrom config start spare targetRatio fuel cutoff rest.head?)
      (fun _ after => Aging config ⟨none, some spare, none⟩ chain cache after) cache := by
  induction fuel generalizing cache chain cutoff rest with
  | zero =>
    cases rest with
    | nil => exact (ensures_pure _).mpr (.refl sane)
    | cons candidate rest => exact (ensures_pure _).mpr (.refl sane)
  | succ fuel ih =>
    cases rest with
    | nil => exact (ensures_pure _).mpr (.refl sane)
    | cons candidate rest =>
      rw [List.head?_cons]
      unfold mergeEvictFrom
      rw [segmentOf, ensures_bind, ensures_read]
      refine Ensures.ite (fun _ => (ensures_pure _).mpr (.refl sane)) fun _ => ?_
      have different : candidate ≠ start := fun same => gone (same ▸ List.mem_cons_self ..)
      rw [ensures_bind]
      cases evictable : (cache.segment candidate).canEvict with
      | false =>
        refine (returns_of_eq (claimCandidate_refused different evictable) ?_).ensures
        rw [if_pos (by simp)]
        exact (ensures_pure _).mpr (.refl sane)
      | true =>
        have state := (sealed_of_canEvict evictable).1
        refine (returns_of_eq (claimCandidate_apply different evictable) ?_).ensures
        have claimed := sane.claim (.inl state)
        have inside' : chain b = (front ++ [spare]) ++ candidate :: rest := by
          rw [inside]
          simp
        have notLast := sane.orderly.not_last inside' (.inl state)
        have links : ((cache.claimed candidate).segment candidate).next = rest.head? :=
          (claimed.orderly.links inside').2
        rw [if_neg (by simp), segmentOf, ensures_bind, ensures_read, links]
        intro result last ran
        obtain ⟨cutoff', one, prunes, ran⟩ := bind_eq_some.mp ran
        obtain ⟨_, two, copies, ran⟩ := bind_eq_some.mp ran
        obtain ⟨_, three, finishes, ran⟩ := bind_eq_some.mp ran
        have round := (returns_mergeRound cutoff targetRatio claimed inside notLast
          (sane.laid (.inl state))).ensures _ _ prunes
        obtain ⟨sane', -⟩ := (round.ensures _ _ copies).ensures _ _ finishes
        have prunes' : Thins cache one :=
          trans_of Thins (thins_claimed candidate) ((thins_prune ..).ensures _ _ _ prunes)
        have ages : Ages chain _ cache three := ages_round sane.orderly inside
          prunes' ((copies_copyInto ..).ensures _ _ _ copies)
          ((thins_finalizeDrained ..).ensures _ _ _ finishes)
        exact ages.aging (ih cutoff' rest sane' (Function.update_self ..)
          (fun there => gone (List.mem_cons_of_mem _ there)) result last ran)

/-- A destination has the dates of the first candidate, which it is linked before. -/
theorem ensures_beginMerge_dates (apart : start ≠ spare) :
    Ensures (beginMerge config start spare b) (fun begun after => Opens spare cache after ∧
      (begun = true → (after.segment spare).createAt = (cache.segment start).createAt ∧
        (after.segment spare).ttl = (cache.segment start).ttl)) cache := by
  have refused : ∀ {state : Cache}, Thins cache state → Ensures (do
      releaseUnused config spare
      return false) (fun begun after => Opens spare cache after ∧
      (begun = true → (after.segment spare).createAt = (cache.segment start).createAt ∧
        (after.segment spare).ttl = (cache.segment start).ttl)) state := by
    intro state before
    refine Ensures.seq ((thins_releaseUnused spare).ensures state) fun _ after released => ?_
    exact (ensures_pure _).mpr ⟨(trans_of Thins before released).opens, fun no => by cases no⟩
  unfold beginMerge isSealedMember
  rw [ensures_bind, ensures_read]
  refine Ensures.ite (fun _ => refused (refl_of Thins cache)) fun _ => ?_
  rw [segmentOf, ensures_bind, ensures_read]
  refine Ensures.ite (fun _ => refused (refl_of Thins cache)) fun _ => ?_
  refine Ensures.seq ((thins_claimForDrain start).ensures cache) fun claimed one claims => ?_
  refine Ensures.ite (fun _ => refused claims) fun _ => ?_
  unfold configureSpare inheritCreated
  simp only [segmentOf, modifySegment, ensures_bind, ensures_read, ensures_change, setSegment_self,
    setSegment_of_ne apart, setSegment_setSegment]
  refine (((opens_linkDestBefore spare start b).ensures _).and
    ((sameTimes_linkDestBefore spare start b).ensures _)).mono fun _ after known => ?_
  obtain ⟨links, times⟩ := known
  refine (ensures_pure _).mpr ⟨?_, fun _ => ⟨?_, ?_⟩⟩
  · exact trans_of (Opens spare) claims.opens (trans_of (Opens spare) (opens_setSegment _) links)
  · rw [(times spare).1, setSegment_self]
    exact claims.createAt start
  · rw [(times spare).2, setSegment_self]
    exact claims.ttl start

/-- What a merge and a promotion do before they copy: a free segment becomes a destination. -/
structure Destined (config : Config) (chain : Nat → List SegId) (start dest : SegId)
    (cache after : Cache) : Prop where
  opens : Opens dest cache after
  unheld : holds (cache.segment dest).state = false
  laid : isLaid (cache.segment start).state = true
  createAt : (after.segment dest).createAt = (cache.segment start).createAt
  ttl : (after.segment dest).ttl = (cache.segment start).ttl

/-- **A destination before its first source is in order.** -/
theorem Destined.ages {dest : SegId} {front back : List SegId}
    (destined : Destined config chain start dest cache after)
    (sane : Sane config Hand.empty chain cache) (inside : chain b = front ++ start :: back) :
    Ages chain (Function.update chain b (front ++ dest :: start :: back)) cache after :=
  ⟨destined.opens.insert sane.orderly destined.unheld inside destined.laid destined.createAt
    destined.ttl, fun _ => destined.opens.hastens sane.consistent destined.unheld⟩

theorem holds_of_free {state : State} (free : state = .free) : holds state = false := by
  rw [free]
  rfl

/-- A chosen candidate is sealed, and apart from a segment that was free. -/
theorem apart_of_free {dest : SegId} (state : (cache.segment start).state = .sealed)
    (free : (cache.segment dest).state = .free) : start ≠ dest := by
  rintro rfl
  cases state.symm.trans free

/-- **The loop of a merge eviction**, from its start. -/
theorem ensures_mergeEvictFrom_start {front back : List SegId}
    (ready : Ready config (some start) (Function.update chain b (front ++ spare :: start :: back)) spare
      (cache.claimed start) middle) (notLast : back ≠ [])
    (laid : (middle.segment start).Laid config)
    (stops : stopBytes config ≤ config.initialOffset → ¬ config.Merges) (targetRatio : ℚ) (fuel : Nat)
    (cutoff : ℚ) : Ensures (mergeEvictFrom config start spare targetRatio (fuel + 1) cutoff (some start))
      (fun _ after => Aging config ⟨none, some spare, none⟩
        (Function.update chain b (front ++ spare :: start :: back)) middle after) middle := by
  by_cases full : stopBytes config ≤ config.initialOffset
  · unfold mergeEvictFrom
    rw [segmentOf, ensures_bind, ensures_read, if_pos (by rw [ready.blank.liveBytes]; exact full)]
    exact (ensures_pure _).mpr (.refl ⟨ready.sane.consistent, ready.sane.orderly.abandon (stops full)⟩)
  have here : Function.update chain b (front ++ spare :: start :: back) b =
      front ++ spare :: start :: back := Function.update_self ..
  have here' : Function.update chain b (front ++ spare :: start :: back) b =
      (front ++ [spare]) ++ start :: back := by
    rw [here]
    simp
  have unique := ready.sane.orderly.unique b
  rw [here'] at unique
  obtain ⟨-, -, -, gone, -⟩ := nodup_middle unique
  have links : (middle.segment start).next = back.head? := (ready.sane.orderly.links here').2
  have room : ¬ stopBytes config ≤ (middle.segment spare).liveBytes := by
    rw [ready.blank.liveBytes]
    exact full
  unfold mergeEvictFrom claimCandidate
  rw [segmentOf, ensures_bind, ensures_read, if_neg room, if_pos rfl, ensures_bind, ensures_pure,
    if_neg (by simp), segmentOf, ensures_bind, ensures_read, links]
  intro result last ran
  obtain ⟨cutoff', one, prunes, ran⟩ := bind_eq_some.mp ran
  obtain ⟨_, two, copies, ran⟩ := bind_eq_some.mp ran
  obtain ⟨_, three, finishes, ran⟩ := bind_eq_some.mp ran
  have round := (returns_mergeRound cutoff targetRatio ready.sane here notLast laid).ensures _ _ prunes
  obtain ⟨sane', -⟩ := (round.ensures _ _ copies).ensures _ _ finishes
  have ages : Ages _ _ middle three := ages_round ready.sane.orderly here
    ((thins_prune ..).ensures _ _ _ prunes) ((copies_copyInto ..).ensures _ _ _ copies)
    ((thins_finalizeDrained ..).ensures _ _ _ finishes)
  exact ages.aging (ensures_mergeEvictFrom_ages targetRatio fuel cutoff' back sane'
    (Function.update_self ..) gone result last ran)

theorem thins_headPatched (b : Nat) (prev next : Option SegId) :
    Thins cache (cache.headPatched b prev next) := by
  unfold Cache.headPatched
  split
  · exact thins_of_same rfl rfl rfl rfl
  · exact refl_of Thins cache

/-- **A sealed member is cleared**, and its bucket's head patched past it. -/
theorem ensures_clearSegment_ages {front back : List SegId}
    (sane : Sane config Hand.empty chain cache) (state : (cache.segment id).state = .sealed)
    (inside : chain b = front ++ id :: back) : Ensures (clearSegment config id) (fun outcome middle =>
      (∃ done, outcome = some done) ∧ Aging config Hand.empty chain cache
        (middle.headPatched b (cache.segment id).prev (cache.segment id).next)) cache := by
  intro outcome middle ran
  obtain ⟨done, isSome, -, -, -, -, sane'⟩ :=
    (returns_clearSegment sane state inside).ensures outcome middle ran
  have thins := trans_of Thins ((thins_clearSegment id).ensures _ _ _ ran)
    (thins_headPatched b (cache.segment id).prev (cache.segment id).next)
  exact ⟨⟨done, isSome⟩, _, sane', thins.ages (update_sublist inside)⟩

/-- A sealed member of a bucket is dropped. -/
theorem ensures_mergeEvictFallbackDrop_ages (sane : Sane config Hand.empty chain cache)
    (isBucket : IsBucket b) : Ensures (mergeEvictFallbackDrop config start b)
      (fun _ after => Aging config Hand.empty chain cache after) cache := by
  unfold mergeEvictFallbackDrop isSealedMember
  rw [ensures_bind, ensures_read]
  by_cases member : (cache.segment start).state = .sealed ∧ holdsTtl b (cache.segment start).ttl = true
  · obtain ⟨state, ttl⟩ := member
    obtain ⟨c, front, back, inside, -, -⟩ := lockSealedInBucket_apply sane state
    have here : start ∈ chain c := by
      rw [inside]
      simp
    have same : c = b := (sane.orderly.bucket c (List.ne_nil_of_mem here)).1.eq_of_ttl isBucket
      ((sane.orderly.ttl c start here).symm.trans (of_decide_eq_true ttl))
    subst same
    rw [if_neg (by simp [state, ttl]), segmentOf, ensures_bind, ensures_read]
    refine Ensures.seq (ensures_clearSegment_ages sane state inside) fun outcome middle known => ?_
    obtain ⟨⟨done, rfl⟩, aging⟩ := known
    dsimp only
    unfold Cache.headPatched at aging
    by_cases first : (cache.segment start).prev = none
    · rw [if_pos first] at aging ⊢
      exact (ensures_pure _).mpr aging
    · rw [if_neg first] at aging ⊢
      exact (ensures_pure _).mpr aging
  · rw [if_pos]
    · exact (ensures_pure _).mpr (.refl sane)
    · rw [not_and_or] at member
      rcases member with no | no <;> simp [no]

/-- A destination is filled, and sealed: nothing comes into service. -/
theorem Aging.publish {c : Option SegId} {outcome : Unit}
    (aging : Aging config ⟨none, some spare, c⟩ chain cache middle)
    (ran : publishDestSealed spare middle = some (outcome, after)) :
    Aging config ⟨none, none, c⟩ chain cache after := by
  obtain ⟨chain', sane, ages⟩ := aging
  have sane' := ((returns_publish sane).ensures _ _ ran).1
  exact ⟨chain', sane', ages.trans ((thins_publishDestSealed spare).ensures _ _ _ ran).ages_self⟩

theorem Begun.destined {linked : Cache} (taken : Taken config none none chain spare cache middle)
    (state : (cache.segment start).state = .sealed)
    (opens : Opens spare middle linked)
    (dates : (linked.segment spare).createAt = (middle.segment start).createAt ∧
      (linked.segment spare).ttl = (middle.segment start).ttl) :
    Destined config chain start spare cache linked := by
  have apart := apart_of_free state taken.was
  obtain ⟨createAt, ttl⟩ := dates
  rw [taken.others start apart] at createAt ttl
  refine ⟨trans_of (Opens spare) taken.opens opens, holds_of_free taken.was, ?_, createAt, ttl⟩
  rw [state]
  rfl

/-- **A merge eviction ages.** -/
theorem ensures_mergeEvict_ages (sane : Sane config Hand.empty chain cache) (isBucket : IsBucket b)
    (isMerge : config.policy.isMerge = true) : Ensures (mergeEvict config start b)
      (fun _ after => Aging config Hand.empty chain cache after) cache := by
  unfold mergeEvict
  dsimp only
  rw [ensures_bind, ensures_read]
  refine Ensures.ite (fun _ => (ensures_pure _).mpr (.refl sane)) fun long => ?_
  have evictable := canEvict_of_chainLen long
  have state := (sealed_of_canEvict evictable).1
  refine Ensures.seq (returns_reserveSpare sane).ensures fun taken middle outcome => ?_
  rcases outcome with ⟨rfl, -, -, rfl⟩ | ⟨spare, rfl, -, taken⟩
  · exact ensures_mergeEvictFallbackDrop_ages sane isBucket
  dsimp only
  refine Ensures.seq ((returns_beginMerge sane taken evictable isBucket).ensures.and
    (ensures_beginMerge_dates (apart_of_free state taken.was))) fun begun one known => ?_
  obtain ⟨⟨rfl, -, sane', -⟩ | ⟨rfl, begun, -⟩, opens, dates⟩ := known
  · rw [if_pos (by simp)]
    exact (ensures_pure _).mpr ⟨chain, sane', (trans_of (Opens spare) taken.opens opens).kept sane
      (holds_of_free taken.was) sane'⟩
  · rw [if_neg (by simp)]
    obtain ⟨front, back, inside, notLast, ready⟩ := begun.split
    have destined := Begun.destined taken state opens (dates rfl)
    have prepared := destined.ages sane inside
    refine Ensures.seq (ensures_mergeEvictFrom_start ready notLast begun.laid (not_merges isMerge) _ _ _)
      fun next two aging => ?_
    refine Ensures.seq (Ensures.ran fun _ _ _ => trivial) fun _ three published => ?_
    exact (ensures_pure _).mpr ((prepared.aging aging).publish published.1)

/-! ### Compaction -/

/-- The rest of a compaction's loop, behind its first round. -/
theorem ensures_mergeCompactFrom_ages (fuel : Nat) (rest : List SegId) {front : List SegId}
    (sane : Sane config ⟨none, some spare, none⟩ chain cache)
    (inside : chain b = front ++ spare :: rest) (gone : start ∉ rest) :
    Ensures (mergeCompactFrom config start spare fuel rest.head?)
      (fun _ after => Aging config ⟨none, some spare, none⟩ chain cache after) cache := by
  induction fuel generalizing cache chain rest with
  | zero =>
    cases rest with
    | nil => exact (ensures_pure _).mpr (.refl sane)
    | cons candidate rest => exact (ensures_pure _).mpr (.refl sane)
  | succ fuel ih =>
    cases rest with
    | nil => exact (ensures_pure _).mpr (.refl sane)
    | cons candidate rest =>
      have different : candidate ≠ start := fun same => gone (same ▸ List.mem_cons_self ..)
      rw [List.head?_cons]
      unfold mergeCompactFrom
      simp only [segmentOf, ensures_bind, ensures_read]
      by_cases evictable : (cache.segment candidate).canEvict = true
      case neg =>
        rw [if_pos (by simp [different, evictable])]
        exact (ensures_pure _).mpr (.refl sane)
      rw [if_neg (by simp [evictable])]
      simp only [ensures_bind, ensures_read]
      refine Ensures.ite (fun _ => (ensures_pure _).mpr (.refl sane)) fun _ => ?_
      have state := (sealed_of_canEvict evictable).1
      have claimed := sane.claim (.inl state)
      have inside' : chain b = (front ++ [spare]) ++ candidate :: rest := by
        rw [inside]
        simp
      have notLast := sane.orderly.not_last inside' (.inl state)
      have links : ((cache.claimed candidate).segment candidate).next = rest.head? :=
        (claimed.orderly.links inside').2
      rw [ensures_bind]
      refine (returns_of_eq (claimCandidate_apply different evictable) ?_).ensures
      rw [if_neg (by simp)]
      simp only [ensures_bind, ensures_read, links]
      intro copied two copies finished three finishes
      obtain ⟨sane', -⟩ := ((returns_consume claimed inside notLast
        (sane.laid (.inl state))).ensures _ _ copies).ensures _ _ finishes
      have ages : Ages chain _ cache three := ages_round sane.orderly inside
        (thins_claimed candidate) ((copies_copyInto ..).ensures _ _ _ copies)
        ((thins_finalizeDrained ..).ensures _ _ _ finishes)
      intro result last ran
      exact ages.aging (ih rest sane' (Function.update_self ..)
        (fun there => gone (List.mem_cons_of_mem _ there)) result last ran)

/-- **The loop of a compaction**, from its start. -/
theorem ensures_mergeCompactFrom_start {front back : List SegId}
    (ready : Ready config (some start) (Function.update chain b (front ++ spare :: start :: back)) spare
      (cache.claimed start) middle) (notLast : back ≠ [])
    (laid : (middle.segment start).Laid config)
    (stops : stopBytes config ≤ config.initialOffset → ¬ config.Merges)
    (fits : config.initialOffset + (middle.segment start).liveBytes ≤ config.segmentSize) (fuel : Nat) :
    Ensures (mergeCompactFrom config start spare (fuel + 1) (some start))
      (fun _ after => Aging config ⟨none, some spare, none⟩
        (Function.update chain b (front ++ spare :: start :: back)) middle after) middle := by
  unfold mergeCompactFrom claimCandidate
  simp only [segmentOf, ensures_bind, ensures_read]
  rw [if_neg (by simp)]
  simp only [ensures_bind, ensures_read]
  by_cases full : stopBytes config ≤ config.initialOffset
  · rw [if_pos (by
      rw [ready.blank.liveBytes]
      simp [full])]
    exact (ensures_pure _).mpr (.refl ⟨ready.sane.consistent, ready.sane.orderly.abandon (stops full)⟩)
  have here : Function.update chain b (front ++ spare :: start :: back) b =
      front ++ spare :: start :: back := Function.update_self ..
  have here' : Function.update chain b (front ++ spare :: start :: back) b =
      (front ++ [spare]) ++ start :: back := by
    rw [here]
    simp
  have unique := ready.sane.orderly.unique b
  rw [here'] at unique
  obtain ⟨-, -, -, gone, -⟩ := nodup_middle unique
  have links : (middle.segment start).next = back.head? := (ready.sane.orderly.links here').2
  rw [if_neg (by
    rw [ready.blank.liveBytes]
    simp only [Bool.or_eq_true, decide_eq_true_eq]
    omega)]
  simp only [ensures_bind, if_true, ensures_pure]
  rw [if_neg (by simp)]
  simp only [ensures_bind, ensures_read, links]
  intro copied two copies finished three finishes
  obtain ⟨sane', -⟩ := ((returns_consume ready.sane here notLast laid).ensures _ _ copies).ensures
    _ _ finishes
  have ages : Ages _ _ middle three := ages_round ready.sane.orderly here (refl_of Thins middle)
    ((copies_copyInto ..).ensures _ _ _ copies) ((thins_finalizeDrained ..).ensures _ _ _ finishes)
  intro result last ran
  exact ages.aging (ensures_mergeCompactFrom_ages fuel back sane' (Function.update_self ..) gone
    result last ran)

/-- **A compaction ages.** -/
theorem ensures_mergeCompact_ages (sane : Sane config Hand.empty chain cache) (isBucket : IsBucket b)
    (stops : stopBytes config ≤ config.initialOffset → ¬ config.Merges) :
    Ensures (mergeCompact config start b)
      (fun _ after => Aging config Hand.empty chain cache after) cache := by
  unfold mergeCompact
  dsimp only
  rw [ensures_bind, ensures_read]
  refine Ensures.ite (fun _ => (ensures_pure _).mpr (.refl sane)) fun long => ?_
  obtain ⟨evictable, next, linked, evictable', together⟩ := fits_of_chainLen (not_lt.mp long)
  have state := (sealed_of_canEvict evictable).1
  have fits : config.initialOffset + (cache.segment start).liveBytes ≤ config.segmentSize := by
    have bytes := @Consistent.liveBytes_eq config cache next sane.consistent (by
      rw [(sealed_of_canEvict evictable').1]
      rfl)
    omega
  rw [segmentOf, ensures_bind, ensures_read, linked, if_neg (by simp)]
  refine Ensures.seq (returns_reserveSpare sane).ensures fun taken middle outcome => ?_
  rcases outcome with ⟨rfl, -, -, rfl⟩ | ⟨spare, rfl, -, taken⟩
  · exact (ensures_pure _).mpr (.refl sane)
  dsimp only
  have apart := apart_of_free state taken.was
  refine Ensures.seq ((returns_beginMerge sane taken evictable isBucket).ensures.and
    (ensures_beginMerge_dates apart)) fun begun one known => ?_
  obtain ⟨⟨rfl, -, sane', -⟩ | ⟨rfl, begun, -⟩, opens, dates⟩ := known
  · rw [if_pos (by simp)]
    exact (ensures_pure _).mpr ⟨chain, sane', (trans_of (Opens spare) taken.opens opens).kept sane
      (holds_of_free taken.was) sane'⟩
  · rw [if_neg (by simp)]
    obtain ⟨front, back, inside, notLast, ready⟩ := begun.split
    have prepared := (Begun.destined taken state opens (dates rfl)).ages sane inside
    have fits' : config.initialOffset + (one.segment start).liveBytes ≤ config.segmentSize := by
      have same := (ready.others start apart).liveBytes
      rw [claimed_self] at same
      rw [same]
      exact fits
    refine Ensures.seq (ensures_mergeCompactFrom_start ready notLast begun.laid stops fits' _)
      fun next two aging => ?_
    refine Ensures.seq (Ensures.ran fun _ _ _ => trivial) fun _ three published => ?_
    exact (ensures_pure _).mpr ((prepared.aging aging).publish published.1)

/-! ### S3-FIFO -/

/-- Copies between two segments of the same dates. -/
theorem Copies.ages {source target : SegId} (copies : Copies source target cache after)
    (older : NoLater (cache.segment source) (cache.segment target)) : Ages chain chain cache after :=
  ⟨(copies older).1.dated fun _ => List.Sublist.refl _, fun _ => (copies older).2⟩

/-- **A promotion's target has the dates of what it is filled from.** -/
theorem ensures_promoteToTarget_ages {front back : List SegId} {relink : Hashtable.RelinkFreq}
    (sane : Sane config Hand.empty chain cache) (state : (cache.segment id).state = .sealed)
    (inside : chain b = front ++ id :: back) : Ensures (promoteToTarget config id b relink)
      (fun result after => (result = none ∧ after = cache.claimed id) ∨ ∃ target, result = some target ∧
        Ages chain (Function.update chain b (front ++ target :: id :: back)) cache after)
      (cache.claimed id) := by
  unfold promoteToTarget inheritCreated
  rw [segmentOf, ensures_bind, ensures_read]
  refine Ensures.seq (returns_reserveFree (sane.claim (.inl state))).ensures fun result one outcome => ?_
  rcases outcome with ⟨rfl, -, rfl⟩ | ⟨target, rest, rfl, -, -, taken⟩
  · exact (ensures_pure _).mpr (.inl ⟨rfl, rfl⟩)
  have apart : id ≠ target := by
    rintro rfl
    have was := taken.was
    rw [claimed_self] at was
    cases was
  have free : (cache.segment target).state = .free := by
    rw [← @claimed_of_ne cache _ _ apart.symm]
    exact taken.was
  simp only [modifySegment, ensures_bind, ensures_change, ensures_read, setSegment_self,
    setSegment_of_ne apart, setSegment_setSegment]
  intro linked two links copied three copies published four publishes
  have times := (sameTimes_linkDestBefore ..).ensures _ _ _ links target
  rw [setSegment_self] at times
  have createAt : (two.segment target).createAt = (cache.segment id).createAt := by
    rw [times.1, taken.others id apart, claimed_self]
  have ttl : (two.segment target).ttl = (cache.segment id).ttl := by
    rw [times.2, claimed_self]
  have linkedOpens : Opens target one two :=
    trans_of (Opens target) (opens_setSegment _) ((opens_linkDestBefore ..).ensures _ _ _ links)
  have opens : Opens target cache two :=
    trans_of (Opens target) (thins_claimed id).opens (trans_of (Opens target) taken.opens linkedOpens)
  have laid : isLaid (cache.segment id).state = true := by
    rw [state]
    rfl
  have destined : Destined config chain id target cache two :=
    ⟨opens, holds_of_free free, laid, createAt, ttl⟩
  have older : NoLater (two.segment id) (two.segment target) := by
    have same := opens.createAt id apart
    exact ⟨by rw [ttl, opens.ttl id apart], by rw [createAt, same]⟩
  have filled := ((copies_s3fifoPromoteFrom id target relink).ensures _ _ _ copies)
  have sealed_ := (thins_publishDestSealed target).ensures _ _ _ publishes
  exact (ensures_pure _).mpr (.inr ⟨target, rfl,
    (destined.ages sane inside).trans ((filled.ages older).trans sealed_.ages_self)⟩)

/-- **The source of an S3-FIFO eviction is emptied.** -/
theorem ensures_finishEviction_ages {front back : List SegId}
    (sane : Sane config ⟨none, none, some id⟩ chain cache) (inside : chain b = front ++ id :: back)
    (notLast : back ≠ []) (laid : (cache.segment id).Laid config) :
    Ensures (finishEviction config id b)
      (fun _ after => Aging config Hand.empty chain cache after) cache := by
  have state : (cache.segment id).state = .draining := sane.orderly.claimed id rfl
  have own := sane.orderly.not_own inside
  unfold finishEviction
  rw [segmentOf, ensures_bind, ensures_read]
  refine Ensures.seq ((returns_finalizeDrained sane.consistent laid state own.2 own.1).ensures.and
    ((thins_finalizeDrained id).ensures cache)) fun outcome middle known => ?_
  obtain ⟨⟨-, retired⟩, thins⟩ := known
  have sane' := retired.sane sane.orderly inside notLast
  have aging : Aging config Hand.empty chain cache
      (middle.headPatched b (cache.segment id).prev (cache.segment id).next) :=
    ⟨_, sane', (trans_of Thins thins (thins_headPatched ..)).ages (update_sublist inside)⟩
  unfold Cache.headPatched at aging
  cases outcome with
  | freed =>
    by_cases first : (cache.segment id).prev = none
    · rw [if_pos first] at aging ⊢
      exact (ensures_pure _).mpr aging
    · rw [if_neg first] at aging ⊢
      exact (ensures_pure _).mpr aging
  | deferred =>
    by_cases first : (cache.segment id).prev = none
    · rw [if_pos first] at aging ⊢
      exact (ensures_pure _).mpr aging
    · rw [if_neg first] at aging ⊢
      exact (ensures_pure _).mpr aging

section Eviction

variable (sane : Sane config Hand.empty chain cache)

include sane

/-- Where the promotion of a claimed segment ends. -/
theorem ensures_promoteToTarget_split {front back : List SegId} {relink : Hashtable.RelinkFreq}
    (state : (cache.segment id).state = .sealed) (inside : chain b = front ++ id :: back) :
    Ensures (promoteToTarget config id b relink) (fun _ after => ∃ chain' front',
      Sane config ⟨none, none, some id⟩ chain' after ∧ chain' b = front' ++ id :: back ∧
        (after.segment id).Laid config ∧ Ages chain chain' cache after) (cache.claimed id) := by
  have claimed := sane.claim (.inl state)
  have laid := sane.laid (.inl state)
  intro result after ran
  rcases (returns_promoteToTarget claimed inside laid).ensures _ _ ran with
    ⟨rfl, -, rfl⟩ | ⟨target, rest, rfl, -, promotes⟩
  · exact ⟨chain, front, claimed, inside, laid, (thins_claimed id).ages_self⟩
  · rcases ensures_promoteToTarget_ages sane state inside _ _ ran with ⟨no, -⟩ | ⟨other, same, ages⟩
    · cases no
    · cases same
      refine ⟨_, front ++ [target], promotes.sane, ?_, promotes.laid, ages⟩
      rw [Function.update_self]
      simp

theorem ensures_s3fifoEvictMain_ages (state : (cache.segment id).state = .sealed) :
    Ensures (s3fifoEvictMain config id)
      (fun _ after => Aging config Hand.empty chain cache after) cache := by
  obtain ⟨b, front, back, inside, notLast, locked, claims, -, -⟩ := claimed_for_eviction sane state
  unfold s3fifoEvictMain
  rw [ensures_bind]
  refine (returns_of_eq locked ?_).ensures
  rw [ensures_bind]
  refine (returns_of_eq claims ?_).ensures
  rw [if_neg (by simp)]
  refine Ensures.seq (ensures_promoteToTarget_split sane state inside) fun _ middle known => ?_
  obtain ⟨chain', front', sane', inside', laid, ages⟩ := known
  exact (ensures_finishEviction_ages sane' inside' notLast laid).mono fun _ after aging =>
    ages.aging aging

theorem ensures_s3fifoEvictAdmission_ages (state : (cache.segment id).state = .sealed) :
    Ensures (s3fifoEvictAdmission config id)
      (fun _ after => Aging config Hand.empty chain cache after) cache := by
  obtain ⟨b, front, back, inside, notLast, locked, claims, -, -⟩ := claimed_for_eviction sane state
  unfold s3fifoEvictAdmission
  rw [ensures_bind]
  refine (returns_of_eq locked ?_).ensures
  rw [ensures_bind]
  refine (returns_of_eq claims ?_).ensures
  rw [if_neg (by simp)]
  refine Ensures.seq (ensures_promoteToTarget_split sane state inside) fun _ middle known => ?_
  obtain ⟨chain', front', sane', inside', laid, ages⟩ := known
  rw [ensures_bind]
  refine (returns_of_eq s3fifoGhostRemaining_apply ?_).ensures
  have ghosted := (sane'.withEviction (middle.ghosted config id).eviction).1
  have same : Thins middle (middle.ghosted config id) := thins_of_same rfl rfl rfl rfl
  exact (ensures_finishEviction_ages ghosted inside' notLast laid).mono fun _ after aging =>
    ages.aging (same.ages_self.aging aging)

/-- **S3-FIFO's eviction ages.** -/
theorem ensures_s3fifoEvict_ages : Ensures (s3fifoEvict config)
    (fun _ after => Aging config Hand.empty chain cache after) cache := by
  obtain ⟨admission, ranAdmission, -, isAdmission⟩ := findOldestSegInPool_apply sane.orderly .admission
  obtain ⟨main, ranMain, -, isMain⟩ := findOldestSegInPool_apply sane.orderly .main
  unfold s3fifoEvict
  rw [ensures_bind]
  refine (returns_of_eq ranAdmission ?_).ensures
  cases admission with
  | some id =>
    have state := (sealed_of_canEvict (isAdmission id rfl).candidate.2).1
    exact ensures_s3fifoEvictAdmission_ages sane state
  | none =>
    dsimp only
    rw [ensures_bind]
    refine (returns_of_eq ranMain ?_).ensures
    cases main with
    | some id =>
      have state := (sealed_of_canEvict (isMain id rfl).candidate.2).1
      exact ensures_s3fifoEvictMain_ages sane state
    | none => exact (ensures_pure _).mpr (.refl sane)

/-- **A policy that drops one segment ages.** -/
theorem ensures_evictOne_ages (ranked : Ranked config cache) : Ensures (evictOne config)
    (fun _ after => Aging config Hand.empty chain cache after) cache := by
  unfold evictOne
  refine Ensures.seq (returns_leastValuableSeg sane.orderly ranked).ensures fun victim middle known => ?_
  obtain ⟨selected, -, -⟩ := known
  obtain ⟨eviction, rfl, -⟩ := selected.same
  have here := (sane.withEviction eviction).1
  have same : Thins cache { cache with eviction := eviction } := thins_of_same rfl rfl rfl rfl
  refine Ensures.mono ?_ fun _ after aging => same.ages_self.aging aging
  cases victim with
  | none => exact (ensures_pure _).mpr (.refl here)
  | some id =>
    have state := (sealed_of_canEvict (selected.evictable id rfl)).1
    obtain ⟨b, front, back, inside, -, locked⟩ := lockSealedInBucket_apply here state
    dsimp only
    rw [ensures_bind]
    refine (returns_of_eq locked ?_).ensures
    dsimp only
    rw [segmentOf, ensures_bind, ensures_read]
    refine Ensures.seq (ensures_clearSegment_ages here state inside) fun outcome middle known => ?_
    obtain ⟨⟨done, rfl⟩, aging⟩ := known
    unfold Cache.headPatched at aging
    dsimp only at aging ⊢
    by_cases first : (cache.segment id).prev = none
    · rw [if_pos first] at aging ⊢
      cases done <;> exact (ensures_pure _).mpr aging
    · rw [if_neg first] at aging ⊢
      cases done <;> exact (ensures_pure _).mpr aging

end Eviction

/-! ### Expiry -/

/-- **What a sweep leaves of a chain in order** is not due, unless it was left claimed. -/
theorem undrained_undue {members : List SegId} {now ttl : Nat}
    (sorted : members.Pairwise fun i j => (cache.segment i).createAt ≤ (cache.segment j).createAt)
    (same : ∀ i ∈ members, (cache.segment i).ttl = ttl) {i : SegId}
    (left : i ∈ cache.undrained (some now) members) (awake : (cache.segment i).state ≠ .draining) :
    now < (cache.segment i).createAt + (cache.segment i).ttl := by
  induction members with
  | nil => cases left
  | cons first rest ih =>
    obtain ⟨oldest, sorted⟩ := List.pairwise_cons.mp sorted
    have inRest : ∀ i ∈ rest, (cache.segment i).ttl = ttl :=
      fun i there => same i (List.mem_cons_of_mem _ there)
    rw [Cache.undrained] at left
    cases due : cache.due (some now) first with
    | true =>
      rw [due, if_pos rfl] at left
      split at left
      · rename_i asleep
        rcases List.mem_cons.mp left with rfl | later
        · exact absurd asleep awake
        · exact ih sorted inRest later
      · exact ih sorted inRest left
    | false =>
      rw [due, if_neg (by simp)] at left
      have later : now < (cache.segment first).createAt + (cache.segment first).ttl := by
        simpa [Cache.due] using due
      rcases List.mem_cons.mp left with rfl | behind
      · exact later
      · have older := oldest i behind
        rw [same first (List.mem_cons_self ..)] at later
        rw [inRest i behind]
        omega

theorem undrained_sublist (cutoff : Option Nat) (members : List SegId) :
    (cache.undrained cutoff members).Sublist members := by
  induction members with
  | nil => exact List.Sublist.refl _
  | cons first rest ih =>
    rw [Cache.undrained]
    split
    · split
      · exact ih.cons_cons first
      · exact ih.cons first
    · exact List.Sublist.refl _

theorem sweptChain_sublist (cutoff : Option Nat) (buckets : List Nat) (b : Nat) :
    (cache.sweptChain cutoff buckets chain b).Sublist (chain b) := by
  unfold Cache.sweptChain
  split
  · exact undrained_sublist ..
  · exact List.Sublist.refl _

/-- **After `expire` nothing in service is due.** -/
theorem ensures_expireBuckets_ages (sane : Sane config Hand.empty chain cache) :
    Ensures (expireBuckets config)
      (fun _ after => Aging config Hand.empty chain cache after) cache := by
  intro drained after ran
  obtain ⟨swept, lastExpired⟩ := (returns_expireBuckets sane).ensures _ _ ran
  have thins := ensures_expireBuckets_thins cache _ _ ran
  refine ⟨_, swept.sane, fun dated => ?_, fun dated => ⟨thins.hastens.entries, ?_⟩⟩
  have parts := @sweptChain_sublist chain cache (some cache.now) cache.expiring
  refine ⟨fun b => ?_, fun b i inside => ?_, fun i laid => ?_, ?_⟩
  · refine ((dated.sorted b).sublist (parts b)).imp fun {i j} older => ?_
    rw [thins.createAt, thins.createAt]
    exact older
  · rw [thins.createAt, thins.now]
    exact dated.past b i ((parts b).subset inside)
  · rw [thins.createAt, thins.ttl, lastExpired]
    have wasLaid := thins.laid i laid
    by_cases done : cache.lastExpired = cache.now
    · rw [← done]
      exact dated.undue i wasLaid
    obtain ⟨b, inside⟩ := (swept.sane.orderly.member i).mp (holds_of_isLaid laid)
    have held := (sane.orderly.bucket b (List.ne_nil_of_mem ((parts b).subset inside))).2
    have expiring : cache.expiring = List.range totalBuckets := if_neg done
    unfold Cache.sweptChain at inside
    rw [expiring, if_pos (List.mem_range.mpr held)] at inside
    refine undrained_undue (dated.sorted b) (fun j there => sane.orderly.ttl b j there) inside fun asleep => ?_
    have wasLaid' : isLaid (cache.segment i).state = true := wasLaid
    rw [asleep] at wasLaid'
    cases wasLaid'
  · rw [lastExpired, thins.now]
  · rw [lastExpired]
    exact dated.expired

/-! ### An eviction pass -/

/-- The buckets are tried for a merge. -/
theorem ensures_mergeBuckets_ages (isMerge : config.policy.isMerge = true) (buckets : List Nat)
    (sane : Sane config Hand.empty chain cache) : Ensures (mergeBuckets config buckets)
      (fun _ after => Aging config Hand.empty chain cache after) cache := by
  induction buckets generalizing cache chain with
  | nil => exact (ensures_pure _).mpr (.refl sane)
  | cons b buckets ih =>
    unfold mergeBuckets
    rw [ensures_bind, ensures_read]
    have head : (cache.bucket b).head = (chain b).head? := sane.orderly.head b
    cases first : (cache.bucket b).head with
    | none => exact ih sane
    | some id =>
      have isBucket : IsBucket b := by
        refine (sane.orderly.bucket b fun empty => ?_).1
        rw [head, empty] at first
        cases first
      dsimp only
      rw [ensures_bind, ensures_read]
      refine Ensures.seq (ensures_mergeEvict_ages sane isBucket isMerge) fun result middle aging => ?_
      obtain ⟨chain', sane', ages⟩ := aging
      have aimed : ∀ next, Ages chain' chain' middle (middle.aimed b next) := by
        intro next
        have same : Thins middle (middle.aimed b next) := thins_of_same rfl rfl rfl rfl
        exact same.ages_self
      cases result with
      | some next =>
        rw [ensures_bind]
        refine (returns_of_eq (setNextToMerge_apply b next) ?_).ensures
        exact (ensures_pure _).mpr ⟨chain', (sane'.aimed b next).1, ages.trans (aimed next)⟩
      | none =>
        rw [ensures_bind]
        refine (returns_of_eq (setNextToMerge_apply b none) ?_).ensures
        exact (ih (sane'.aimed b none).1).mono fun _ after later =>
          (ages.trans (aimed none)).aging later

theorem Swept.ranked {cutoff : Option Nat} {buckets : List Nat} {drained : Nat}
    (swept : Swept config cutoff buckets chain drained cache after) (ranked : Ranked config cache) :
    Ranked config after := ranked.congr (by rw [swept.eviction])

/-- **Every policy's eviction ages**, and looks for what is due. -/
theorem ensures_evict_ages (sane : Sane config Hand.empty chain cache) (ranked : Ranked config cache) :
    Ensures (evict config) (fun _ after => Aging config Hand.empty chain cache after ∧
      (Dated chain cache → cache.now ≤ after.lastExpired)) cache := by
  unfold evict
  refine Ensures.seq ((returns_expireBuckets sane).ensures.and (ensures_expireBuckets_ages sane))
    fun drained middle known => ?_
  obtain ⟨⟨swept, lastExpired⟩, aging⟩ := known
  have ranked' := swept.ranked ranked
  obtain ⟨chain', sane', ages⟩ := aging
  have rest : ∀ after, Aging config Hand.empty chain' middle after →
      Aging config Hand.empty chain cache after ∧ (Dated chain cache → cache.now ≤ after.lastExpired) := by
    intro after later
    refine ⟨ages.aging later, fun dated => ?_⟩
    obtain ⟨_, _, more⟩ := later
    rw [← lastExpired]
    exact (more.hastens (ages.dated dated)).swept
  refine Ensures.mono ?_ fun _ after => rest after
  refine Ensures.ite (fun _ => (ensures_pure _).mpr (.refl sane')) fun _ => ?_
  cases policy : config.policy with
  | none => exact (ensures_pure _).mpr (.refl sane')
  | merge most merge_ compact =>
    dsimp only
    unfold drawRandom
    rw [ensures_bind, ensures_exchange]
    dsimp only
    rw [segmentOf, ensures_bind, ensures_read]
    have drawn := (sane'.withEviction { middle.eviction with drawn := middle.eviction.drawn + 1 }).1
    have same : Thins middle { middle with
        eviction := { middle.eviction with drawn := middle.eviction.drawn + 1 } } :=
      thins_of_same rfl rfl rfl rfl
    exact (ensures_mergeBuckets_ages (by rw [policy]; rfl) _ drawn).mono fun _ after later =>
      same.ages_self.aging later
  | s3Fifo ratio => exact ensures_s3fifoEvict_ages sane'
  | random | randomFifo | fifo | cte | util => exact ensures_evictOne_ages sane' ranked'

end CacheRs.Segcache
