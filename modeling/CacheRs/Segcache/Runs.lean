/-
**Runs.**

* `Call`, `Call.perform`: the calls a user makes;
* `Step`: a call, a held item that is dropped, or time that passes;
* `Reachable.good`: **every reachable cache is in order**;
* `exists_reachable`: a run of calls whose outcome is computed.
-/

import CacheRs.Segcache.Calls
import Mathlib.Logic.Relation

namespace CacheRs.Segcache

open KeyValue (Value)
open Segments (SegId)
open Sequential Procedure

variable {config : Config} {cache after : Cache}

inductive Call where
  | insert (key : Key) (value : Value) (optional : Optional) (ttl : Nat)
  | get (key : Key) (updateFreq : Bool)
  | delete (key : Key)
  | cas (key : Key) (value : Value) (optional : Optional) (ttl : Nat) (token : UInt64)
  | wrappingAdd (key : Key) (rhs : UInt64)
  | saturatingSub (key : Key) (rhs : UInt64)
  | tryIntoNumeric (key : Key) (initial : UInt64) (ttl : Nat)
  | expire
  | clear

/-- A call, whatever it answers. -/
def Call.perform (config : Config) (fuel : Nat) : Call → Proc Unit
  | .insert key value optional ttl => do
    let _ ← Segcache.insert config fuel key value optional ttl
  | .get key updateFreq => do
    let _ ← Segcache.get config key updateFreq
  | .delete key => do
    let _ ← Segcache.delete config key
  | .cas key value optional ttl token => do
    let _ ← Segcache.cas config fuel key value optional ttl token
  | .wrappingAdd key rhs => do
    let _ ← Segcache.wrappingAdd config key rhs
  | .saturatingSub key rhs => do
    let _ ← Segcache.saturatingSub config key rhs
  | .tryIntoNumeric key initial ttl => do
    let _ ← Segcache.tryIntoNumeric config fuel key initial ttl
  | .expire => do
    let _ ← Segcache.expire config
  | .clear => do
    let _ ← Segcache.clearCache config

/-- A step of a thread: a call that returns, an item it holds that is dropped, or time that passes
between calls. -/
inductive Step (config : Config) : Cache → Cache → Prop
  | call {cache after : Cache} (fuel : Nat) (call : Call)
      (ran : call.perform config fuel cache = some ((), after)) : Step config cache after
  | dropItem {cache after : Cache} (id : SegId) (held : 0 < (cache.segment id).refCount)
      (ran : dropItem config id cache = some ((), after)) : Step config cache after
  | tick {cache : Cache} (now : Nat) (later : cache.now ≤ now) : Step config cache { cache with now := now }

/-- A cache that some thread of calls leads to. -/
def Reachable (config : Config) (cache : Cache) : Prop :=
  ∃ random now, Relation.ReflTransGen (Step config) (Cache.new config random now) cache

theorem Reachable.step (reachable : Reachable config cache) (step : Step config cache after) :
    Reachable config after := by
  obtain ⟨random, now, run⟩ := reachable
  exact ⟨random, now, run.tail step⟩

theorem Good.tick (good : Good config cache) (now : Nat) : Good config { cache with now := now } := by
  obtain ⟨⟨chain, sane⟩, ranked⟩ := good
  have frame : Frame config none cache { cache with now := now } := frame_of_same rfl rfl
  exact ⟨⟨chain, frame.consistent sane.consistent, sane.orderly⟩, ranked.congr rfl⟩

theorem Swept.good {cutoff : Option Nat} {buckets : List Nat} {chain : Nat → List SegId} {drained : Nat}
    (swept : Swept config cutoff buckets chain drained cache after) (good : Good config cache) :
    Good config after :=
  ⟨⟨_, swept.sane⟩, good.ranked.congr (by rw [swept.eviction])⟩

theorem ensures_expire (good : Good config cache) :
    Ensures (expire config) (fun _ after => Good config after ∧ Wanes config cache after) cache := by
  obtain ⟨⟨chain, sane⟩, -⟩ := id good
  intro drained after ran
  have swept := ((returns_expireBuckets sane).ensures drained after ran).1
  exact ⟨swept.good good, swept.wanes⟩

/-- A drain without a cutoff leaves what was left claimed. -/
theorem undrained_none {members : List SegId} {id : SegId}
    (left : id ∈ cache.undrained none members) : (cache.segment id).state = .draining := by
  induction members with
  | nil => cases left
  | cons first rest ih =>
    rw [Cache.undrained, if_pos (show cache.due none first = true from rfl)] at left
    split at left
    · rcases List.mem_cons.mp left with rfl | later
      · assumption
      · exact ih later
    · exact ih left

/-- **A clear leaves nothing that can be read.** -/
theorem Swept.unread {chain : Nat → List SegId} {drained : Nat}
    (swept : Swept config none (List.range Segments.totalBuckets) chain drained cache after) {key : Key}
    (mapping : Mapping) : ¬ Awake config after key mapping := by
  rintro ⟨maps, readable⟩
  have held := (swept.sane.consistent.present_of_maps maps).1.state
  obtain ⟨b, inside⟩ := (swept.sane.orderly.member mapping.location.segment).mp held
  have bound := (swept.sane.orderly.bucket b (List.ne_nil_of_mem inside)).2
  unfold Cache.sweptChain at inside
  rw [if_pos (List.mem_range.mpr bound)] at inside
  exact readable (swept.wanes.asleep _ (undrained_none inside))

theorem ensures_clearCache (good : Good config cache) :
    Ensures (clearCache config) (fun _ after => Good config after ∧
      ∀ key mapping, ¬ Awake config after key mapping) cache := by
  obtain ⟨⟨chain, sane⟩, -⟩ := id good
  intro drained after ran
  have swept := (returns_clearBuckets sane).ensures drained after ran
  exact ⟨swept.good good, fun _ => swept.unread⟩

/-- **Every call keeps a cache in order.** -/
theorem Call.good (good : Good config cache) (fuel : Nat) (call : Call) :
    Ensures (call.perform config fuel) (fun _ after => Good config after) cache := by
  have whatever : ∀ {α : Type} {procedure : Proc α}, Ensures procedure
      (fun _ after => Good config after) cache →
      Ensures (do
        let _ ← procedure : Proc Unit) (fun _ after => Good config after) cache :=
    fun ensured => Ensures.seq ensured fun _ _ good' => (ensures_pure ()).mpr good'
  cases call with
  | insert key value optional ttl =>
    exact whatever ((ensures_insert good fuel key value optional ttl).mono
      fun _ _ inserts => inserts.good)
  | get key updateFreq => exact whatever ((ensures_get good key updateFreq).mono fun _ _ kept => kept.1)
  | delete key => exact whatever ((ensures_delete good key).mono fun _ _ kept => kept.1)
  | cas key value optional ttl token =>
    exact whatever ((ensures_cas good fuel key value optional ttl token).mono
      fun _ _ swaps => swaps.good good)
  | wrappingAdd key rhs => exact whatever ((ensures_numericUpdate good key _).mono fun _ _ kept => kept.1)
  | saturatingSub key rhs =>
    exact whatever ((ensures_numericUpdate good key _).mono fun _ _ kept => kept.1)
  | tryIntoNumeric key initial ttl =>
    exact whatever ((ensures_tryIntoNumeric good fuel key initial ttl).mono
      fun _ _ converts => converts.good good)
  | expire =>
    rw [Call.perform]
    exact whatever ((ensures_expire good).mono fun _ _ kept => kept.1)
  | clear =>
    rw [Call.perform]
    exact whatever ((ensures_clearCache good).mono fun _ _ kept => kept.1)

theorem Step.good (step : Step config cache after)
    (good : Good config cache) : Good config after := by
  cases step with
  | call fuel call ran => exact Call.good good fuel call _ _ ran
  | dropItem id held ran => exact ((returns_dropItem good held).ensures _ _ ran).1
  | tick now later => exact good.tick now

/-- **Every reachable cache is in order.** -/
theorem Reachable.good (reachable : Reachable config cache) :
    Good config cache := by
  obtain ⟨random, now, run⟩ := reachable
  induction run with
  | refl => exact good_new config random now
  | tail _ step ih => exact step.good ih

/-! ### Runs that are computed -/

/-- Calls one after the other. -/
def performAll (config : Config) (fuel : Nat) : List Call → Proc Unit
  | [] => return ()
  | call :: rest => do
    call.perform config fuel
    performAll config fuel rest

theorem Reachable.performAll (reachable : Reachable config cache) (fuel : Nat) (calls : List Call)
    (ran : Segcache.performAll config fuel calls cache = some ((), after)) :
    Reachable config after := by
  induction calls generalizing cache with
  | nil =>
    cases ran
    exact reachable
  | cons call rest ih =>
    obtain ⟨_, middle, first, later⟩ := bind_eq_some.mp ran
    exact ih (reachable.step (.call fuel call first)) later

/-- Where a lookup of the key leads. -/
def Cache.locate (config : Config) (cache : Cache) (key : Key) : Option Location :=
  match cache.table.lookupNoFreqUpdate config.geometry (cache.verify config key) key with
  | .found hit => some hit.location
  | _ => none

/-- Where every segment can be read, a key that cannot be located is not mapped. -/
theorem Settled.locate_none {pending : Option Location} (settled : Settled config pending cache)
    (merges : config.Merges) {key : Key} (nowhere : cache.locate config key = none) (mapping : Mapping) :
    ¬ Maps config cache key mapping := by
  rcases settled.lookup_apply key with ⟨found, slot, -, ran, -⟩ | ⟨unmapped, -⟩ |
    ⟨location, asleep, -⟩
  · have same : cache.table.lookupNoFreqUpdate config.geometry (cache.verify config key) key =
        .found ⟨found.location, slot⟩ := (Prod.mk.inj (Option.some.inj ran)).1
    unfold Cache.locate at nowhere
    rw [same] at nowhere
    cases nowhere
  · exact unmapped mapping
  · exact absurd asleep (settled.not_asleep merges location)

/-- A key is mapped to where it can be located, and can be read there. -/
theorem Settled.locate_some {pending : Option Location} (settled : Settled config pending cache)
    {key : Key} {location : Location} (there : cache.locate config key = some location) :
    ∃ item freq, Awake config cache key ⟨item, freq, location⟩ := by
  rcases settled.lookup_apply key with ⟨found, slot, maps, ran, -, -, -, awake⟩ | ⟨-, ran⟩ | ⟨_, -, ran⟩
  · have same : cache.table.lookupNoFreqUpdate config.geometry (cache.verify config key) key =
        .found ⟨found.location, slot⟩ := (Prod.mk.inj (Option.some.inj ran)).1
    unfold Cache.locate at there
    rw [same] at there
    cases there
    exact ⟨_, _, maps, awake_of_readable awake⟩
  · have same : cache.table.lookupNoFreqUpdate config.geometry (cache.verify config key) key =
        .absent := (Prod.mk.inj (Option.some.inj ran)).1
    unfold Cache.locate at there
    rw [same] at there
    cases there
  · have same : cache.table.lookupNoFreqUpdate config.geometry (cache.verify config key) key =
        .unknown _ := (Prod.mk.inj (Option.some.inj ran)).1
    unfold Cache.locate at there
    rw [same] at there
    cases there

/-- A run that is computed, and what is checked where it ends. -/
theorem exists_reachable (config : Config) (fuel : Nat) (calls : List Call) (check : Cache → Bool)
    (checked : ((performAll config fuel calls (Cache.new config 0 0)).any fun ended =>
      check ended.2) = true) :
    ∃ cache, Reachable config cache ∧ check cache = true := by
  obtain ⟨⟨_, cache⟩, ran, holds⟩ := (Option.any_eq_true _ _).mp checked
  exact ⟨cache, Reachable.performAll ⟨0, 0, .refl⟩ fuel calls ran, holds⟩

end CacheRs.Segcache
