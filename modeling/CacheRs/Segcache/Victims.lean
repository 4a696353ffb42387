/-
**The choice of a victim.**

* `chainFrom_eq`: a walk from a chain's head sees its members;
* `Ranked`, `Exhausted`: the cached ranking, and when it has to be made again;
* `returns_leastValuableSeg`: **a policy finds an evictable segment if there is one**, or has used its
  ranking up.
-/

import CacheRs.Segcache.Compaction
import CacheRs.Segcache.Operations

set_option linter.unusedSectionVars false

namespace CacheRs.Segcache

open Segments (SegId State totalBuckets bucketTtl IsBucket getBucketIndex)
open Sequential Procedure

variable {config : Config} {hand : Hand} {chain : Nat → List SegId} {cache middle after : Cache}
  {id : SegId} {b : Nat}

/-! ### Walks -/

section Walks

variable (orderly : Orderly config hand chain cache.shape)

include orderly

/-- **A walk sees the members of a chain.** -/
theorem chainFrom_eq {front : List SegId} (rest : List SegId) (inside : chain b = front ++ rest)
    {fuel : Nat} (enough : rest.length ≤ fuel) : chainFrom cache fuel rest.head? = some rest := by
  induction rest generalizing front fuel with
  | nil => cases fuel <;> rfl
  | cons id rest ih =>
    obtain ⟨fuel, rfl⟩ : ∃ rounds, fuel = rounds + 1 :=
      ⟨fuel - 1, by rw [List.length_cons] at enough; omega⟩
    have next : (cache.segment id).next = rest.head? := (orderly.links inside).2
    have enough' : rest.length ≤ fuel := by
      rw [List.length_cons] at enough
      omega
    rw [List.head?_cons, chainFrom, next, @ih (front ++ [id]) (by rw [inside]; simp) _ enough']
    rfl

theorem firstEvictable_eq {front : List SegId} (rest : List SegId) (inside : chain b = front ++ rest)
    {fuel : Nat} (enough : rest.length ≤ fuel) : firstEvictable cache fuel rest.head? =
      rest.find? fun i => (cache.segment i).canEvict := by
  induction rest generalizing front fuel with
  | nil => cases fuel <;> rfl
  | cons id rest ih =>
    obtain ⟨fuel, rfl⟩ : ∃ rounds, fuel = rounds + 1 :=
      ⟨fuel - 1, by rw [List.length_cons] at enough; omega⟩
    have next : (cache.segment id).next = rest.head? := (orderly.links inside).2
    have enough' : rest.length ≤ fuel := by
      rw [List.length_cons] at enough
      omega
    rw [List.head?_cons, firstEvictable, next,
      @ih (front ++ [id]) (by rw [inside]; simp) _ enough', List.find?_cons]
    cases (cache.segment id).canEvict <;> rfl

/-- The members of a bucket's chain. -/
theorem chainFrom_head (b : Nat) :
    chainFrom cache config.cap (cache.bucket b).head = some (chain b) := by
  have head : (cache.bucket b).head = (chain b).head? := orderly.head b
  rw [head]
  exact chainFrom_eq orderly (chain b) (List.nil_append _).symm (orderly.length_le b)

theorem firstEvictable_head (b : Nat) : firstEvictable cache config.cap (cache.bucket b).head =
    (chain b).find? fun i => (cache.segment i).canEvict := by
  have head : (cache.bucket b).head = (chain b).head? := orderly.head b
  rw [head]
  exact firstEvictable_eq orderly (chain b) (List.nil_append _).symm (orderly.length_le b)

/-- A segment that can be evicted is a member of its bucket's chain. -/
theorem mem_bucket (evictable : (cache.segment id).canEvict = true) :
    InRange config id ∧ id ∈ chain (getBucketIndex (cache.segment id).ttl) := by
  have state := (sealed_of_canEvict evictable).1
  obtain ⟨c, here⟩ := (orderly.member id).mp (by
    show holds (cache.segment id).state = true
    rw [state]
    rfl)
  have ttl : (cache.segment id).ttl = bucketTtl c := orderly.ttl c id here
  have bucket : getBucketIndex (cache.segment id).ttl = c := by
    rw [ttl]
    exact (orderly.bucket c (List.ne_nil_of_mem here)).1
  refine ⟨orderly.range id ?_, bucket ▸ here⟩
  show (cache.segment id).state ≠ .free
  rw [state]
  simp

/-- **The search of RandomFifo** takes the first evictable member of some chain, and finds one if any
segment it looks at can be evicted. -/
theorem randomFifoFrom_spec (examined : List Nat) (ids : List SegId)
    (barren : ∀ c ∈ examined, ∀ i ∈ chain c, (cache.segment i).canEvict = false) :
    (∀ victim, randomFifoFrom config cache examined ids = some victim →
      ∃ c, ((chain c).find? fun i => (cache.segment i).canEvict) = some victim) ∧
    (∀ i ∈ ids, (cache.segment i).canEvict = true →
      randomFifoFrom config cache examined ids ≠ none) := by
  induction ids generalizing examined with
  | nil => exact ⟨fun _ found => (by cases found), fun _ inside => absurd inside List.not_mem_nil⟩
  | cons id ids ih =>
    unfold randomFifoFrom
    by_cases readable : (cache.segment id).state.isReadable = true
    case neg =>
      rw [if_pos (by simp [readable])]
      refine ⟨(ih examined barren).1, fun i inside evictable => ?_⟩
      rcases List.mem_cons.mp inside with rfl | later
      · rw [(sealed_of_canEvict evictable).1] at readable
        exact absurd rfl readable
      · exact (ih examined barren).2 i later evictable
    rw [if_neg (by simp [readable])]
    dsimp only
    by_cases known : getBucketIndex (cache.segment id).ttl ∈ examined
    · rw [if_pos known]
      refine ⟨(ih examined barren).1, fun i inside evictable => ?_⟩
      rcases List.mem_cons.mp inside with rfl | later
      · have := barren _ known i (mem_bucket orderly evictable).2
        rw [evictable] at this
        cases this
      · exact (ih examined barren).2 i later evictable
    rw [if_neg known, firstEvictable_head orderly]
    cases found : (chain (getBucketIndex (cache.segment id).ttl)).find?
        fun i => (cache.segment i).canEvict with
    | some victim => exact ⟨fun other same => ⟨_, by cases same; exact found⟩, fun _ _ _ => by simp⟩
    | none =>
      have none' := List.find?_eq_none.mp found
      have barren' : ∀ c ∈ getBucketIndex (cache.segment id).ttl :: examined, ∀ i ∈ chain c,
          (cache.segment i).canEvict = false := by
        intro c inside i here
        rcases List.mem_cons.mp inside with rfl | later
        · simpa using none' i here
        · exact barren c later i here
      refine ⟨(ih _ barren').1, fun i inside evictable => ?_⟩
      rcases List.mem_cons.mp inside with rfl | later
      · exact absurd evictable (none' i (mem_bucket orderly evictable).2)
      · exact (ih _ barren').2 i later evictable

end Walks

/-! ### The ranking -/

/-- The cached ranking is the initial one, which names no segment, or names one in every place. -/
structure Ranked (config : Config) (cache : Cache) : Prop where
  length : cache.eviction.rankedSegs.length = config.cap
  listed : cache.eviction.rankedSegs.headD none = none ∨
    ∀ entry ∈ cache.eviction.rankedSegs, ∃ id, entry = some id

theorem Ranked.congr (ranked : Ranked config cache)
    (same : after.eviction.rankedSegs = cache.eviction.rankedSegs) : Ranked config after :=
  ⟨by rw [same]; exact ranked.length, by rw [same]; exact ranked.listed⟩

/-- The ranking is used up, and the next choice makes it again. -/
def Exhausted (cache : Cache) : Prop :=
  cache.eviction.rankedSegs.length < cache.eviction.index + 8

/-- The ranking is consumed up to an evictable segment. -/
theorem returns_rankedVictim {fuel : Nat} (some_ : 0 < fuel)
    (enough : cache.eviction.rankedSegs.length < cache.eviction.index + fuel)
    (listed : ∀ entry ∈ cache.eviction.rankedSegs, ∃ id, entry = some id) :
    Returns (rankedVictim fuel) (fun victim after => ∃ index,
      after = { cache with eviction := { cache.eviction with index := index } } ∧
      (∀ id, victim = some id → (cache.segment id).canEvict = true) ∧
      (victim = none → cache.eviction.rankedSegs.length < index ∧
        ∀ id, some id ∈ cache.eviction.rankedSegs.drop cache.eviction.index →
          (cache.segment id).canEvict = false)) cache := by
  induction fuel generalizing cache with
  | zero => exact absurd some_ (Nat.lt_irrefl 0)
  | succ fuel ih =>
    unfold rankedVictim nextRanked
    rw [returns_bind, returns_exchange]
    by_cases within : cache.eviction.index < cache.eviction.rankedSegs.length
    · obtain ⟨id, here⟩ := listed _ (List.getElem_mem within)
      have entry : (cache.eviction.rankedSegs[cache.eviction.index]?).join = some id := by
        rw [List.getElem?_eq_getElem within, here]
        rfl
      dsimp only
      rw [entry]
      dsimp only
      rw [segmentOf, returns_bind, returns_read]
      by_cases evictable : (cache.segment id).canEvict = true
      · rw [if_pos evictable]
        refine (returns_pure _).mpr ⟨_, rfl, fun other same => ?_, fun none => by cases none⟩
        cases same
        exact evictable
      · rw [if_neg evictable]
        refine (@ih { cache with eviction := { cache.eviction with index := cache.eviction.index + 1 } }
          (by omega) (by dsimp only; omega) listed).mono
          fun victim after known => ?_
        obtain ⟨index, same, picked, passed⟩ := known
        refine ⟨index, same, picked, fun none => ?_⟩
        refine ⟨(passed none).1, fun other inside => ?_⟩
        rw [List.drop_eq_getElem_cons within, here] at inside
        rcases List.mem_cons.mp inside with first | later
        · cases first
          simpa using evictable
        · exact (passed none).2 other later
    · have beyond : (cache.eviction.rankedSegs[cache.eviction.index]?).join = none := by
        rw [List.getElem?_eq_none (not_lt.mp within)]
        rfl
      dsimp only
      rw [beyond]
      refine (returns_pure _).mpr ⟨_, rfl, fun _ found => absurd found (by simp), fun _ =>
        ⟨by omega, fun other inside => ?_⟩⟩
      rw [List.drop_eq_nil_of_le (not_lt.mp within)] at inside
      exact absurd inside List.not_mem_nil

/-- The choice of a victim, which touches the eviction state alone. -/
structure Selected (config : Config) (victim : Option SegId) (cache after : Cache) : Prop where
  same : ∃ eviction, after = { cache with eviction := eviction } ∧
    eviction.ghost = cache.eviction.ghost
  ranked : Ranked config after
  evictable : ∀ id, victim = some id → (cache.segment id).canEvict = true

/-- The ranking is made again if it has to be. -/
theorem returns_refreshRanking (ranked : Ranked config cache) :
    Returns shouldRerank (fun stale middle =>
      Returns (if stale then rerank config else pure ()) (fun _ after =>
        (∃ eviction, after = { cache with eviction := eviction } ∧
          eviction.ghost = cache.eviction.ghost) ∧ Ranked config after ∧
        (∀ entry ∈ after.eviction.rankedSegs, ∃ id, entry = some id) ∧
        ((after.eviction.index = 0 ∧ ∀ id, InRange config id → some id ∈ after.eviction.rankedSegs) ∨
          ¬ Exhausted cache)) middle) cache := by
  unfold shouldRerank rerank
  rw [returns_exchange]
  dsimp only
  by_cases stale : ((cache.eviction.rankedSegs.headD none).isNone ||
      decide (1 < cache.now - cache.eviction.lastUpdateTime) ||
      decide (cache.eviction.rankedSegs.length < cache.eviction.index + 8)) = true
  · rw [if_pos stale]
    dsimp only
    rw [if_pos rfl, returns_change]
    have every : ∀ entry ∈ (((List.range config.cap).map (· + 1)).mergeSort
        (rankLe config { cache with
          eviction := { cache.eviction with lastUpdateTime := cache.now } })).map some,
        ∃ id, entry = some id := by
      intro entry inside
      obtain ⟨id, -, rfl⟩ := List.mem_map.mp inside
      exact ⟨id, rfl⟩
    refine ⟨⟨_, rfl, rfl⟩, ⟨?_, .inr every⟩, every, .inl ⟨rfl, fun id ⟨low, high⟩ => ?_⟩⟩
    · simp
    · refine List.mem_map.mpr ⟨id, List.mem_mergeSort.mpr (List.mem_map.mpr ⟨id - 1, ?_, ?_⟩), rfl⟩
      · exact List.mem_range.mpr (by unfold SegId at *; omega)
      · exact Nat.sub_add_cancel low
  · rw [if_neg stale]
    dsimp only
    rw [if_neg (by simp)]
    simp only [Bool.or_eq_true, decide_eq_true_eq, not_or] at stale
    obtain ⟨⟨named, -⟩, left⟩ := stale
    refine (returns_pure _).mpr ⟨⟨_, rfl, rfl⟩, ranked, ?_, .inr left⟩
    refine ranked.listed.resolve_left fun none => ?_
    rw [none] at named
    exact named rfl

/-- The policies that drop one segment, which they look for among all. -/
def Policy.searches : Policy → Bool
  | .random | .randomFifo | .fifo | .cte | .util => true
  | _ => false

theorem mem_idsFrom {start : Nat} (range : InRange config id) : id ∈ idsFrom config start := by
  obtain ⟨low, high⟩ := range
  have positive := config.cap_pos
  refine List.mem_map.mpr ⟨(id - 1 + (config.cap - start % config.cap)) % config.cap,
    List.mem_range.mpr (Nat.mod_lt _ positive), ?_⟩
  have below : start % config.cap < config.cap := Nat.mod_lt _ positive
  have around : start % config.cap + (id - 1 + (config.cap - start % config.cap)) =
      id - 1 + config.cap := by
    omega
  have wrapped : (start + (id - 1 + (config.cap - start % config.cap)) % config.cap) % config.cap =
      id - 1 := by
    rw [Nat.add_mod, Nat.mod_mod, ← Nat.add_mod, ← Nat.mod_add_mod, around, Nat.add_mod_right,
      Nat.mod_eq_of_lt]
    unfold SegId at *
    omega
  rw [wrapped]
  exact Nat.sub_add_cancel low

/-- **A policy finds an evictable segment if there is one**, or has used its ranking up; RandomFifo's
victim is the first evictable member of a chain. -/
theorem returns_leastValuableSeg (orderly : Orderly config hand chain cache.shape)
    (ranked : Ranked config cache) : Returns (leastValuableSeg config) (fun victim after =>
      Selected config victim cache after ∧
      (config.policy = .randomFifo → ∀ id, victim = some id →
        ∃ c, ((chain c).find? fun i => (cache.segment i).canEvict) = some id) ∧
      (config.policy.searches = true → victim = none →
        (∀ i, (cache.segment i).canEvict = false) ∨ (¬ Exhausted cache ∧ Exhausted after))) cache := by
  unfold leastValuableSeg
  have drawn : Ranked config { cache with
      eviction := { cache.eviction with drawn := cache.eviction.drawn + 1 } } := ranked.congr rfl
  have ranking : Returns (do
      if ← shouldRerank then rerank config
      rankedVictim (config.cap + 1) : Proc (Option SegId)) (fun victim after =>
        Selected config victim cache after ∧ (victim = none →
          (∀ i, (cache.segment i).canEvict = false) ∨ (¬ Exhausted cache ∧ Exhausted after))) cache := by
    refine (returns_refreshRanking ranked).seq fun stale middle refreshed => ?_
    have consumes : Returns (if stale then rerank config else pure ()) (fun _ again =>
        Returns (rankedVictim (config.cap + 1)) (fun victim after =>
          Selected config victim cache after ∧ (victim = none →
            (∀ i, (cache.segment i).canEvict = false) ∨ (¬ Exhausted cache ∧ Exhausted after)))
          again) middle := by
      refine refreshed.mono fun _ again ⟨⟨eviction, same, ghost⟩, ranked', listed, complete⟩ => ?_
      refine (returns_rankedVictim (Nat.succ_pos _) (by rw [ranked'.length]; omega) listed).mono
        fun victim after ⟨index, there, picked, passed⟩ => ?_
      subst same
      subst there
      refine ⟨⟨⟨_, rfl, ghost⟩, ranked'.congr rfl, picked⟩, fun none => ?_⟩
      rcases complete with ⟨start, every⟩ | left
      · refine .inl fun i => ?_
        by_contra evictable
        rw [Bool.not_eq_false] at evictable
        have := (passed none).2 i (by
          rw [start]
          exact every i (mem_bucket orderly evictable).1)
        rw [show (cache.segment i).canEvict = false from this] at evictable
        cases evictable
      · exact .inr ⟨left, Nat.lt_of_lt_of_le (passed none).1 (Nat.le_add_right _ 8)⟩
    cases stale with
    | true =>
      rw [if_pos rfl, returns_bind]
      exact consumes
    | false =>
      rw [if_neg (by simp)] at consumes ⊢
      exact (returns_pure ()).mp consumes
  cases policy : config.policy with
  | none | merge | s3Fifo =>
    refine (returns_pure _).mpr ⟨⟨⟨_, rfl, rfl⟩, ranked, fun _ found => by cases found⟩,
      fun same => (by cases same), fun same => by cases same⟩
  | random =>
    dsimp only
    unfold drawRandom
    rw [returns_bind, returns_exchange, returns_read]
    refine ⟨⟨⟨_, rfl, rfl⟩, drawn, fun id found =>
      @List.find?_some _ (fun i => (cache.segment i).canEvict) _ _ found⟩, fun same => (by cases same),
      fun _ none => .inl fun i => ?_⟩
    by_contra evictable
    rw [Bool.not_eq_false] at evictable
    exact List.find?_eq_none.mp none i (mem_idsFrom (mem_bucket orderly evictable).1) evictable
  | randomFifo =>
    dsimp only
    unfold drawRandom
    rw [returns_bind, returns_exchange, returns_read]
    dsimp only
    have spec := @randomFifoFrom_spec config _ _ { cache with
      eviction := { cache.eviction with drawn := cache.eviction.drawn + 1 } } orderly []
      (idsFrom config ((config.draw cache.eviction.drawn).toNat % config.cap)) (by simp)
    refine ⟨⟨⟨_, rfl, rfl⟩, drawn, fun id found => ?_⟩, fun _ => spec.1, fun _ none => .inl fun i => ?_⟩
    · obtain ⟨c, first⟩ := spec.1 id found
      exact @List.find?_some _ (fun i => (cache.segment i).canEvict) _ _ first
    · by_contra evictable
      rw [Bool.not_eq_false] at evictable
      exact spec.2 i (mem_idsFrom (mem_bucket orderly evictable).1) evictable none
  | fifo | cte | util =>
    exact ranking.mono fun victim after ⟨selected, complete⟩ =>
      ⟨selected, fun same => (by cases same), fun _ => complete⟩

end CacheRs.Segcache
