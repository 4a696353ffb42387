/-
**Conversions to numbers.**

* `Increments`: what an increment answers, at the instant of a conversion;
* `Converted`: what a conversion that answers `Ok` has found, and what it leaves;
* `conversion_composes`: **an increment behind a conversion adds to what the key held**, unless that has
  fallen due.
-/

import CacheRs.Segcache.ReadBack

set_option linter.unusedSectionVars false

namespace CacheRs.Segcache

open KeyValue (Value)
open Sequential Procedure

variable {config : Config} {cache after : Cache} {key : Key} {mapping : Mapping} {item : Item}
  {number rhs : UInt64} {gone : Prop}

/-- An increment adds to the number, or misses the key if it is gone. -/
def Increments (config : Config) (key : Key) (number : UInt64) (gone : Prop) (cache : Cache) : Prop :=
  ∀ rhs, (gone → Returns (wrappingAdd config key rhs) (fun result _ => result = .error .notFound) cache) ∧
    (¬ gone → Returns (wrappingAdd config key rhs) (fun result _ => result = .ok (number + rhs)) cache)

theorem Good.increments (good : Good config cache) (merges : config.Merges)
    (maps : Maps config cache key mapping) (isNumber : mapping.item.value = .u64 number)
    (lands : cache.deadline mapping.location.segment ≤ cache.now ↔ gone) :
    Increments config key number gone cache := by
  intro rhs
  rcases good.missing_or_served merges key with ⟨missing, due⟩ | ⟨other, maps', fresh, served⟩
  · refine ⟨fun _ => ?_, fun here => absurd (lands.mp (due _ maps)) here⟩
    exact (missing.numericUpdate _).mono fun _ _ answer => answer.1
  · cases good.settled.consistent.maps_unique maps maps'
    refine ⟨fun due => absurd (lands.mpr due) (not_le.mpr fresh), fun _ => ?_⟩
    refine (served.numericUpdate _).mono fun result _ answer => ?_
    rw [answer, isNumber]
    rfl

/-- What a conversion that answers `Ok` has found, and what it leaves. -/
inductive Converted (config : Config) (key : Key) (initial : UInt64) (ttl : Nat) (cache after : Cache) :
    Prop
  /-- Nothing: the initial value is inserted. -/
  | created (unmapped : ∀ mapping, ¬ Maps config cache key mapping)
      (increments : Increments config key initial
        (LandsStale config key (.u64 initial) Optional.none (coarseTtl ttl) cache) after)
  /-- A number, whether or not it has fallen due: nothing changes. -/
  | kept (mapping : Mapping) (number : UInt64) (maps : Maps config cache key mapping)
      (isNumber : mapping.item.value = .u64 number) (same : after = cache)
      (increments : Increments config key number
        (cache.deadline mapping.location.segment ≤ cache.now) after)
  /-- The text of a number with time left: the number, with the same data and no later a deadline. -/
  | converted (mapping : Mapping) (text : KeyValue.Bytes) (number : UInt64) (remaining : Nat)
      (maps : Maps config cache key mapping) (isText : mapping.item.value = .bytes text)
      (parsed : parseSimpleNumeric text = some number)
      (left : remainingTtl cache mapping.location.segment = some remaining)
      (found : ∀ other, Maps config after key other →
        other.item = Item.written key (.u64 number) mapping.item.optional ∧
          after.deadline other.location.segment ≤ cache.deadline mapping.location.segment)
      (increments : Increments config key number
        (LandsStale config key (.u64 number) mapping.item.optional remaining cache) after)

/-- **What a conversion that answers `Ok` leaves.** -/
theorem ensures_tryIntoNumeric_converted (good : Good config cache) (timely : Timely config cache)
    (merges : config.Merges) (fuel : Nat) (key : Key) (initial : UInt64) (ttl : Nat) :
    Ensures (tryIntoNumeric config fuel key initial ttl) (fun result after => result = .ok () →
      Good config after → Converted config key initial ttl cache after) cache := by
  have limits := ensures_tryIntoNumeric_limits good fuel key initial ttl
  intro result after ran done good'
  subst done
  have limited := limits _ _ ran
  unfold tryIntoNumeric at ran
  rcases good.settled.lookup_apply key with ⟨mapping, slot, maps, found, candidate, tag, entry, awake⟩ |
    ⟨none, absent⟩ | ⟨_, -, unknown⟩
  case inr.inr =>
    rw [bind_apply_of_some unknown] at ran
    cases ran
  case inr.inl =>
    rw [bind_apply_of_some absent] at ran
    obtain ⟨freq, location, maps, lands⟩ :=
      ensures_insert_acknowledged good timely fuel key _ _ ttl _ _ ran rfl
    exact .created none (good'.increments merges maps rfl lands)
  rw [bind_apply_of_some found] at ran
  dsimp only at ran
  rw [read_bind, maps.item] at ran
  dsimp only at ran
  cases value : mapping.item.value with
  | u64 number =>
    rw [value] at ran
    cases ran
    exact .kept mapping number maps value rfl (good.increments merges maps value .rfl)
  | bytes text =>
    rw [value] at ran
    dsimp only at ran
    cases parsed : parseSimpleNumeric text with
    | none =>
      rw [parsed] at ran
      cases ran
    | some number =>
      rw [parsed] at ran
      dsimp only at ran
      rw [read_bind] at ran
      cases left : remainingTtl cache mapping.location.segment with
      | none =>
        rw [left] at ran
        cases ran
      | some remaining =>
        rw [left] at ran
        dsimp only at ran
        obtain ⟨freq, location, own, lands⟩ := ensures_overwrite_acknowledged good timely fuel key _ _ _
          none maps candidate tag entry (fun _ _ => rfl) (fun _ _ => rfl) _ _ ran rfl
        refine .converted mapping text number remaining maps value parsed left (fun other maps' => ?_)
          (good'.increments merges own rfl lands)
        cases good'.settled.consistent.maps_unique own maps'
        refine ⟨rfl, ?_⟩
        rcases limited with ⟨unmapped, -⟩ | expedites
        · exact absurd maps (unmapped mapping)
        · obtain ⟨old, was, sooner⟩ := (expedites fun _ => True).sooner timely key trivial _ own
          cases good.settled.consistent.maps_unique was maps
          exact sooner

/-- **An increment behind a conversion adds to what the key held**: to the initial value if it held
nothing, to its number, or to the number that its text spells. -/
theorem conversion_composes (reachable : Reachable config cache) (merges : config.Merges)
    {fuel ttl : Nat} {initial : UInt64}
    (ran : tryIntoNumeric config fuel key initial ttl cache = some (.ok (), after)) :
    Converted config key initial ttl cache after := by
  have answered : (Call.tryIntoNumeric key initial ttl).answer config fuel cache =
      some (.written (.ok ()), after) := bind_apply_of_some ran
  have good' := (reachable.step (.call fuel _ (Call.perform_of_answer answered))).good
  exact ensures_tryIntoNumeric_converted reachable.good reachable.timely merges fuel key initial ttl
    _ _ ran rfl good'

/-- The text of a number can be converted. -/
def converts (cache : Cache) : Bool :=
  (tryIntoNumeric (Config.small false .fifo 3) 4 (smallKey 1) 0 60 cache).any fun ended =>
    match ended.1 with
    | .ok _ => true
    | _ => false

theorem conversion_composes_text : ∃ cache after, Reachable (Config.small false .fifo 3) cache ∧
    tryIntoNumeric (Config.small false .fifo 3) 4 (smallKey 1) 0 60 cache = some (.ok (), after) ∧
    Converted (Config.small false .fifo 3) (smallKey 1) 0 60 cache after := by
  obtain ⟨cache, reachable, ran⟩ := exists_reachable (Config.small false .fifo 3) 4
    [.insert (smallKey 1) (.bytes [55]) Optional.none 60] converts (by decide +kernel)
  obtain ⟨⟨result, after⟩, ran, said⟩ := (Option.any_eq_true _ _).mp ran
  split at said
  case h_2 => cases said
  case h_1 done stored =>
    dsimp only at stored
    subst stored
    exact ⟨cache, after, reachable, ran, conversion_composes reachable (merges_of_not_merge rfl) ran⟩

end CacheRs.Segcache
