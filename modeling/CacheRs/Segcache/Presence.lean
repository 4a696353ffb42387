/-
**Which keys are there.**

A key is there while what it is mapped to lies in a segment that has not fallen due.

* `Missing`, `Served`: what the calls answer for a key;
* `presence_agrees`: **for every key the calls agree on whether it is there**;
* `ttl_ceiling`: **once its TTL has passed an item is missing**, until its key is stored again.
-/

import CacheRs.Segcache.Ceilings

set_option linter.unusedSectionVars false

namespace CacheRs.Segcache

open KeyValue (Value)
open Segments (SegId)
open Sequential Procedure

variable {config : Config} {cache middle after : Cache} {key : Key} {mapping : Mapping}

/-- What the calls answer for a key that is not there; none of them changes a segment. -/
structure Missing (config : Config) (key : Key) (cache : Cache) : Prop where
  get : ∀ updateFreq, Returns (get config key updateFreq) (fun view after =>
    view = none ∧ after.segment = cache.segment) cache
  delete : Returns (delete config key) (fun found after => found = false ∧ after = cache) cache
  cas : ∀ fuel value optional ttl token, Returns (cas config fuel key value optional ttl token)
    (fun result after => result = .error .notFound ∧ after = cache) cache
  numericUpdate : ∀ op, Returns (numericUpdate config key op) (fun result after =>
    result = .error .notFound ∧ after.segment = cache.segment) cache

/-- The token of what a key is mapped to. -/
def Mapping.token (cache : Cache) (mapping : Mapping) : UInt64 :=
  tokenFor mapping.item mapping.location (cache.segment mapping.location.segment).generation

/-- What an update answers for a value. -/
def numericAnswer (op : UInt64 → UInt64) : Value → Except SegcacheError UInt64
  | .u64 number => .ok (op number)
  | .bytes _ => .error .notNumeric

/-- What the calls answer for a key that is there. -/
structure Served (config : Config) (key : Key) (mapping : Mapping) (cache : Cache) : Prop where
  get : ∀ updateFreq, Returns (get config key updateFreq) (fun view _ =>
    view = some ⟨mapping.item, mapping.token cache⟩) cache
  delete : Returns (delete config key) (fun found _ => found = true) cache
  cas : ∀ fuel value optional ttl token, Ensures (cas config fuel key value optional ttl token)
    (fun result after => result ≠ .error .notFound ∧
      (mapping.token cache ≠ token → result = .error .exists_ ∧ after = cache)) cache
  numericUpdate : ∀ op, Returns (numericUpdate config key op) (fun result _ =>
    result = numericAnswer op mapping.item.value) cache

/-- A segment in service has no time left when it has fallen due. -/
theorem remainingTtl_isNone (good : Good config cache) (maps : Maps config cache key mapping) :
    (remainingTtl cache mapping.location.segment).isNone =
      decide (cache.deadline mapping.location.segment ≤ cache.now) := by
  obtain ⟨⟨chain, sane⟩, -⟩ := good
  have held := (sane.consistent.present_of_maps maps).1.state
  obtain ⟨b, inside⟩ := (sane.orderly.member mapping.location.segment).mp held
  have ttl : (cache.segment mapping.location.segment).ttl = Segments.bucketTtl b :=
    sane.orderly.ttl b _ inside
  have positive := bucketTtl_pos b
  unfold remainingTtl Cache.deadline
  dsimp only
  rw [if_neg (by omega)]
  by_cases due : (cache.segment mapping.location.segment).createAt +
      (cache.segment mapping.location.segment).ttl ≤ cache.now
  · rw [if_pos due]
    simp [due]
  · rw [if_neg due]
    simp [due]

/-- A counted lookup finds what an uncounted one finds, and touches no segment. -/
theorem lookup_counted {found : Found Location (Hit Location)}
    (ran : lookupNoFreqUpdate config key cache = some (found, cache)) : ∃ table,
    lookup config key cache = some (found, { cache with table := table }) := by
  obtain ⟨other, table, counted, uncounted, -⟩ := lookup_apply config key cache
  cases uncounted.symm.trans ran
  exact ⟨table, counted⟩

/-- A key that is not mapped is missing. -/
theorem missing_of_absent (ran : lookupNoFreqUpdate config key cache = some (.absent, cache)) :
    Missing config key cache := by
  obtain ⟨table, counted⟩ := lookup_counted ran
  refine ⟨fun updateFreq => ?_, ?_, fun fuel value optional ttl token => ?_, fun op => ?_⟩
  · unfold get
    cases updateFreq with
    | true => exact returns_of_eq (bind_apply_of_some counted) ⟨rfl, rfl⟩
    | false => exact returns_of_eq (bind_apply_of_some ran) ⟨rfl, rfl⟩
  · unfold delete
    exact returns_of_eq (bind_apply_of_some ran) ⟨rfl, rfl⟩
  · unfold cas
    exact returns_of_eq (bind_apply_of_some ran) ⟨rfl, rfl⟩
  · unfold numericUpdate
    exact returns_of_eq (bind_apply_of_some counted) ⟨rfl, rfl⟩

/-- A key whose item has fallen due is missing. -/
theorem missing_of_due {hit : Hit Location}
    (ran : lookupNoFreqUpdate config key cache = some (.found hit, cache))
    (due : (remainingTtl cache hit.location.segment).isNone = true) : Missing config key cache := by
  obtain ⟨table, counted⟩ := lookup_counted ran
  have due' : (remainingTtl { cache with table := table } hit.location.segment).isNone = true := due
  refine ⟨fun updateFreq => ?_, ?_, fun fuel value optional ttl token => ?_, fun op => ?_⟩
  · unfold get
    cases updateFreq with
    | true =>
      refine ⟨none, { cache with table := table }, ?_, rfl, rfl⟩
      rw [if_pos rfl, bind_apply_of_some counted]
      dsimp only
      rw [read_bind, due', if_pos rfl]
      rfl
    | false =>
      refine ⟨none, cache, ?_, rfl, rfl⟩
      rw [if_neg (by simp), bind_apply_of_some ran]
      dsimp only
      rw [read_bind, due, if_pos rfl]
      rfl
  · unfold delete
    refine ⟨false, cache, ?_, rfl, rfl⟩
    rw [bind_apply_of_some ran]
    dsimp only
    rw [read_bind, due, if_pos rfl]
    rfl
  · unfold cas
    refine ⟨.error .notFound, cache, ?_, rfl, rfl⟩
    rw [bind_apply_of_some ran]
    dsimp only
    rw [read_bind, due, if_pos rfl]
    rfl
  · unfold numericUpdate
    refine ⟨.error .notFound, { cache with table := table }, ?_, rfl, rfl⟩
    rw [bind_apply_of_some counted]
    dsimp only
    rw [read_bind, due', if_pos rfl]
    rfl

theorem Overwrites.ne_notFound {b : Nat} {item : Item} {old : Location} {expected : Option UInt64}
    {result : Except SegcacheError Unit}
    (overwrites : Overwrites config b item old expected cache result after) :
    result ≠ .error .notFound := by
  rcases overwrites with ⟨_, _, _, _, -, -, -, ⟨rfl, -⟩ | ⟨rfl, -⟩⟩ | ⟨rfl, -⟩ | ⟨rfl, -⟩ <;> simp

/-- A key that is mapped to something that has not fallen due is served. -/
theorem served_of_fresh (good : Good config cache) {slot : Hashtable.SlotRef}
    (maps : Maps config cache key mapping)
    (ran : lookupNoFreqUpdate config key cache = some (.found ⟨mapping.location, slot⟩, cache))
    (entry : cache.table.slot slot.bucket slot.slot =
      some ⟨slot.tag, mapping.freq, mapping.location⟩)
    (awake : (cache.segment mapping.location.segment).state = .sealed ∨
      (cache.segment mapping.location.segment).state = .live)
    (candidate : (slot.bucket, slot.slot) ∈ Table.candidates config.geometry key)
    (tag : slot.tag = config.geometry.tag key)
    (fresh : (remainingTtl cache mapping.location.segment).isNone = false) :
    Served config key mapping cache := by
  obtain ⟨table, counted⟩ := lookup_counted ran
  have fresh' : (remainingTtl { cache with table := table } mapping.location.segment).isNone =
      false := fresh
  have item : ({ cache with table := table } : Cache).itemAt config mapping.location =
      some mapping.item := maps.item
  refine ⟨fun updateFreq => ?_, ?_, fun fuel value optional ttl token => ?_, fun op => ?_⟩
  · unfold get
    cases updateFreq with
    | true =>
      refine returns_bind.mpr (returns_of_eq counted ?_)
      dsimp only
      rw [returns_bind, returns_read, fresh', if_neg (by simp), returns_bind, returns_read, item]
      dsimp only
      rw [modifySegment, returns_bind, returns_change, segmentOf, returns_bind, returns_read,
        setSegment_self]
      exact (returns_pure _).mpr rfl
    | false =>
      refine returns_bind.mpr (returns_of_eq ran ?_)
      dsimp only
      rw [returns_bind, returns_read, fresh, if_neg (by simp), returns_bind, returns_read, maps.item]
      dsimp only
      rw [modifySegment, returns_bind, returns_change, segmentOf, returns_bind, returns_read,
        setSegment_self]
      exact (returns_pure _).mpr rfl
  · obtain ⟨middle, unlinks⟩ := delete_unlinks good maps ran entry awake fresh
    obtain ⟨_, last, removes, -⟩ := returns_removeAt unlinks.settled unlinks.item unlinks.ranked
    exact ⟨true, last, unlinks.apply.trans (bind_apply_of_some removes), rfl⟩
  · unfold cas segmentOf
    rw [ensures_bind]
    refine (returns_of_eq ran ?_).ensures
    dsimp only
    rw [ensures_bind, ensures_read, fresh, if_neg (by simp), ensures_bind, ensures_read, ensures_bind,
      ensures_read, maps.item]
    dsimp only
    refine Ensures.ite (fun _ => (ensures_pure _).mpr ⟨by simp, fun _ => ⟨rfl, rfl⟩⟩) fun same => ?_
    refine (ensures_overwrite good fuel key value optional _ (some token) maps candidate tag entry
      (fun _ _ => rfl) fun _ _ => rfl).mono fun result after overwrites =>
        ⟨overwrites.ne_notFound, fun differs => absurd (not_not.mp same) differs⟩
  · unfold numericUpdate
    refine returns_bind.mpr (returns_of_eq counted ?_)
    dsimp only
    rw [returns_bind, returns_read, fresh', if_neg (by simp), returns_bind, returns_read, item]
    dsimp only
    cases value : mapping.item.value with
    | bytes _ => exact (returns_pure _).mpr rfl
    | u64 number =>
      dsimp only
      rw [modifySegment, returns_bind, returns_change]
      exact (returns_pure _).mpr rfl

/-- A key is missing, or it is mapped to an item whose deadline has not passed and is served. -/
theorem Good.missing_or_served (good : Good config cache) (merges : config.Merges) (key : Key) :
    (Missing config key cache ∧ Due config cache key cache.now) ∨
      ∃ mapping, Maps config cache key mapping ∧
        cache.now < cache.deadline mapping.location.segment ∧ Served config key mapping cache := by
  rcases good.settled.lookup_apply key with ⟨mapping, slot, maps, ran, candidate, tag, entry, awake⟩ |
    ⟨none, ran⟩ | ⟨location, asleep, -⟩
  · have due := remainingTtl_isNone good maps
    by_cases passed : cache.deadline mapping.location.segment ≤ cache.now
    · refine .inl ⟨missing_of_due ran (due.trans (decide_eq_true passed)), fun other maps' => ?_⟩
      rw [good.settled.consistent.maps_unique maps' maps]
      exact passed
    · exact .inr ⟨mapping, maps, not_le.mp passed, served_of_fresh good maps ran entry awake candidate
        tag (due.trans (decide_eq_false passed))⟩
  · exact .inl ⟨missing_of_absent ran, fun mapping maps => absurd maps (none mapping)⟩
  · exact absurd asleep (good.settled.not_asleep merges location)

/-- A key is missing once what it is mapped to has fallen due. -/
theorem Due.missing {instant : Nat} (due : Due config cache key instant) (good : Good config cache)
    (merges : config.Merges) (passed : instant ≤ cache.now) : Missing config key cache := by
  rcases good.missing_or_served merges key with ⟨missing, -⟩ | ⟨mapping, maps, fresh, -⟩
  · exact missing
  · have := due mapping maps
    omega

/-- No key is both missing and served. -/
theorem Missing.not_served (missing : Missing config key cache) : ¬ Served config key mapping cache := by
  intro served
  obtain ⟨view, _, ran, nothing, -⟩ := missing.get true
  obtain ⟨seen, _, ran', found⟩ := served.get true
  cases ran.symm.trans ran'
  cases nothing.symm.trans found

/-- **For every key the calls agree on whether it is there**: every one of them misses the key when
nothing that it is mapped to has time left, and every one of them serves it when something has. -/
theorem presence_agrees (reachable : Reachable config cache) (merges : config.Merges) (key : Key) :
    (Missing config key cache ↔ Due config cache key cache.now) ∧
      ((∃ mapping, Maps config cache key mapping ∧ Served config key mapping cache) ↔
        ¬ Due config cache key cache.now) := by
  have good := reachable.good
  rcases good.missing_or_served merges key with ⟨missing, due⟩ | ⟨mapping, maps, fresh, served⟩
  · refine ⟨iff_of_true missing due, iff_of_false ?_ (not_not.mpr due)⟩
    rintro ⟨_, -, served⟩
    exact missing.not_served served
  · have undue : ¬ Due config cache key cache.now := fun due => (not_le.mpr fresh) (due mapping maps)
    exact ⟨iff_of_false (fun missing => missing.not_served served) undue,
      iff_of_true ⟨mapping, maps, served⟩ undue⟩

theorem presence_agrees_stored : ∃ cache, Reachable (Config.small false .fifo 3) cache ∧
    (Missing (Config.small false .fifo 3) (smallKey 1) cache ↔
      Due (Config.small false .fifo 3) cache (smallKey 1) cache.now) ∧
    ((∃ mapping, Maps (Config.small false .fifo 3) cache (smallKey 1) mapping ∧
        Served (Config.small false .fifo 3) (smallKey 1) mapping cache) ↔
      ¬ Due (Config.small false .fifo 3) cache (smallKey 1) cache.now) := by
  obtain ⟨cache, reachable, -⟩ := exists_reachable (Config.small false .fifo 3) 4
    [.insert (smallKey 1) (smallValue 8) Optional.none 60]
    (fun cache => (cache.locate (Config.small false .fifo 3) (smallKey 1)).isSome) (by decide +kernel)
  exact ⟨cache, reachable, presence_agrees reachable (merges_of_not_merge rfl) (smallKey 1)⟩

/-! ### The ceiling -/

/-- A write of a key with a TTL. -/
def Call.writes (key : Key) (ttl : Nat) : Call → Prop
  | .insert written _ _ secs => written = key ∧ secs = ttl
  | .cas written _ _ secs _ => written = key ∧ secs = ttl
  | _ => False

theorem coarseTtl_le (ttl : Nat) (positive : 1 ≤ ttl) :
    1 ≤ coarseTtl ttl ∧ coarseTtl ttl < 2 ^ 32 ∧ coarseTtl ttl ≤ ttl := by
  unfold coarseTtl
  omega

/-- **What a write with a TTL stores falls due when that has passed.** -/
theorem Call.due (reachable : Reachable config cache) {fuel ttl : Nat} {call : Call}
    (writes : call.writes key ttl) (positive : 1 ≤ ttl)
    (ran : call.answer config fuel cache = some (.written (.ok ()), after)) :
    Due config after key (cache.now + ttl) := by
  obtain ⟨one, bound, rounded⟩ := coarseTtl_le ttl positive
  have limited : Limits config key (coarseTtl ttl) cache (.ok ()) after := by
    cases call with
    | insert written value optional secs =>
      obtain ⟨rfl, rfl⟩ := writes
      obtain ⟨result, middle, inserts, done⟩ := bind_eq_some.mp ran
      cases done
      exact ensures_insert_limits reachable.good fuel written value optional secs _ _ inserts
    | cas written value optional secs token =>
      obtain ⟨rfl, rfl⟩ := writes
      obtain ⟨result, middle, swaps, done⟩ := bind_eq_some.mp ran
      cases done
      exact ensures_cas_limits reachable.good fuel written value optional secs token _ _ swaps
    | _ => exact absurd writes id
  intro mapping maps
  have := limited.own reachable.timely one bound rfl mapping maps
  omega

/-- **A TTL is a ceiling**: once it has passed the item is missing, until its key is stored again. -/
theorem ttl_ceiling (reachable : Reachable config cache) {fuel ttl : Nat} {call : Call}
    (writes : call.writes key ttl) (positive : 1 ≤ ttl)
    (ran : call.answer config fuel cache = some (.written (.ok ()), after)) {later : Cache}
    (run : Relation.ReflTransGen (Spares config key) after later) (passed : cache.now + ttl ≤ later.now) :
    Due config later key later.now ∧ (config.Merges → Missing config key later) := by
  have due := Call.due reachable writes positive ran
  have reached := reachable.step (.call fuel call (Call.perform_of_answer ran))
  obtain ⟨reached', due'⟩ := due_of_run run reached due
  exact ⟨fun mapping maps => (due' mapping maps).trans passed,
    fun merges => due'.missing reached'.good merges passed⟩

/-- A value that is stored for a minute. -/
def minuteInsert : Call := .insert (smallKey 1) (smallValue 8) Optional.none 60

/-- The call has stored its key, at instant zero. -/
def storesAtZero (ended : Answer × Cache) : Bool :=
  match ended.1 with
  | .written (.ok _) => decide (ended.2.now = 0)
  | _ => false

theorem ttl_ceiling_stored : ∃ after,
    minuteInsert.answer (Config.small false .fifo 3) 4 (Cache.new (Config.small false .fifo 3) 0 0) =
      some (.written (.ok ()), after) ∧
    Missing (Config.small false .fifo 3) (smallKey 1) { after with now := 60 } := by
  have checked : ((minuteInsert.answer (Config.small false .fifo 3) 4
      (Cache.new (Config.small false .fifo 3) 0 0)).any storesAtZero) = true := by decide +kernel
  obtain ⟨⟨answer, after⟩, ran, said⟩ := (Option.any_eq_true _ _).mp checked
  unfold storesAtZero at said
  split at said
  case h_2 => cases said
  case h_1 done stored =>
    dsimp only at stored
    subst stored
    have now : after.now ≤ 60 := by
      rw [of_decide_eq_true said]
      omega
    have writes : minuteInsert.writes (smallKey 1) 60 := ⟨rfl, rfl⟩
    exact ⟨after, ran, (ttl_ceiling ⟨0, 0, .refl⟩ writes (by decide) ran
      (.single (.tick 60 now)) le_rfl).2 (merges_of_not_merge rfl)⟩

end CacheRs.Segcache
