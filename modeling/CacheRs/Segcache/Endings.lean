/-
**Every call ends.**

* `Fits`: an item is refused for its length, or fits a segment that has just been reset;
* `returns_reserveAndDefine`, `returns_overwrite`: the steps of the writes end;
* `calls_end`: **every call on a reachable cache ends**, for items that fit.
-/

import CacheRs.Segcache.Presence

set_option linter.unusedSectionVars false

namespace CacheRs.Segcache

open KeyValue (Value)
open Segments (getBucketIndex)
open Sequential Procedure

variable {config : Config} {cache : Cache} {key : Key} {value : Value} {optional : Optional}

/-- An item is refused for its length, or fits a segment that has just been reset. Only the magic bytes
at a segment's begin make room for other lengths. -/
def Fits (config : Config) (key : Key) (value : Value) (optional : Optional) : Prop :=
  config.segmentSize < config.itemSize key value optional ∨
    config.initialOffset + config.itemSize key value optional ≤ config.segmentSize

theorem fits_of_plain (plain : config.layout.integrity = false) : Fits config key value optional := by
  have none : config.initialOffset = 0 := by
    unfold Config.initialOffset
    rw [plain]
    rfl
  unfold Fits
  omega

section Writes

variable (merges : config.Merges)

include merges

theorem returns_reserveAndDefine (good : Good config cache) (fits : Fits config key value optional)
    (fuel ttl : Nat) :
    Returns (reserveAndDefine config (fuel + 5) key value optional ttl) (fun _ _ => True) cache := by
  obtain ⟨⟨chain, sane⟩, ranked⟩ := good
  unfold reserveAndDefine
  refine (returns_routePool sane ranked key).seq fun pool middle known => ?_
  obtain ⟨chain', sane'⟩ := known.1.sane
  have retried : Returns (reserveRetry config (fuel + 5) (getBucketIndex ttl)
      (config.itemSize key value optional) (fuel + 5) reserveRetries) (fun _ _ => True) middle := by
    rcases fits with oversized | fits
    · unfold reserveRetry reserve
      rw [if_pos oversized]
      exact (returns_pure _).mpr trivial
    · exact (returns_reserveRetry (isBucket_getBucketIndex ttl) fits merges (fuel + 3) fuel reserveRetries
        sane' known.1.ranked).mono fun _ _ _ => trivial
  refine retried.seq fun result last _ => ?_
  cases result with
  | error error => exact (returns_pure _).mpr trivial
  | ok reserved =>
    dsimp only
    rw [returns_bind]
    exact returns_of_eq (define_apply reserved pool) ((returns_pure _).mpr trivial)

theorem returns_insert (good : Good config cache) (fits : Fits config key value optional)
    (fuel ttl : Nat) :
    Returns (insert config (fuel + 5) key value optional ttl) (fun _ _ => True) cache := by
  unfold insert insertLoop
  refine ((returns_reserveAndDefine merges good fits fuel _).and
    (ensures_reserveAndDefine good (fuel + 5) key value optional _)).seq fun result defined known => ?_
  obtain ⟨-, defines⟩ := known
  rcases defines with ⟨reserved, middle, rfl, -, placed⟩ | ⟨rfl, -⟩ | ⟨rfl, -⟩
  case inr.inl | inr.inr => exact (returns_pure _).mpr trivial
  dsimp only
  rw [reservedLocation, returns_bind, returns_read]
  refine (returns_publishItem placed.holding merges rfl).seq fun answer last published => ?_
  obtain ⟨result, rfl, -⟩ := published
  exact (returns_pure _).mpr trivial

/-- A write over a looked-up item ends. -/
theorem returns_overwrite (good : Good config cache) (fits : Fits config key value optional)
    (fuel ttl : Nat) (expected : Option UInt64) {mapping : Mapping} {slot : Hashtable.SlotRef}
    (maps : Maps config cache key mapping)
    (candidate : (slot.bucket, slot.slot) ∈ Table.candidates config.geometry key)
    (tag : slot.tag = config.geometry.tag key)
    (entry : cache.table.slot slot.bucket slot.slot =
      some ⟨slot.tag, mapping.freq, mapping.location⟩)
    {rest : Except SegcacheError Reserved → Proc (Except SegcacheError Unit)}
    (failed : ∀ error state, rest (.error error) state = some (.error error, state))
    (done : ∀ reserved state, rest (.ok reserved) state =
      replaceAt config key mapping.location slot (state.locationAt reserved.seg reserved.offset)
        expected state) :
    Returns (reserveAndDefine config (fuel + 5) key value optional ttl >>= rest) (fun _ _ => True)
      cache := by
  refine ((returns_reserveAndDefine merges good fits fuel ttl).and
    (ensures_reserveAndDefine good (fuel + 5) key value optional ttl)).seq fun result defined known => ?_
  obtain ⟨-, defines⟩ := known
  rcases defines with ⟨reserved, middle, rfl, evicting, placed⟩ | ⟨rfl, -⟩ | ⟨rfl, -⟩
  case inr.inl | inr.inr => exact returns_of_eq (failed _ defined) trivial
  have own : ∀ now held, defined.table.slot slot.bucket slot.slot = some now →
      defined.itemAt config now.location = some held → held.key = key :=
    fun now held => maps.own (evicting.shed.trans placed.shed) entry
  obtain ⟨answer, after, ran, -⟩ := @returns_replaceAt _ _ _ _ mapping.location placed.holding rfl slot
    candidate tag own expected
  exact ⟨answer, after, (done reserved defined).trans ran, trivial⟩

theorem returns_cas (good : Good config cache) (fits : Fits config key value optional)
    (fuel ttl : Nat) (token : UInt64) :
    Returns (cas config (fuel + 5) key value optional ttl token) (fun _ _ => True) cache := by
  unfold cas segmentOf
  rcases good.settled.lookup_apply key with ⟨mapping, slot, maps, ran, candidate, tag, entry, -⟩ |
    ⟨-, ran⟩ | ⟨location, asleep, -⟩
  case inr.inl => exact returns_bind.mpr (returns_of_eq ran ((returns_pure _).mpr trivial))
  case inr.inr => exact absurd asleep (good.settled.not_asleep merges location)
  refine returns_bind.mpr (returns_of_eq ran ?_)
  dsimp only
  rw [returns_bind, returns_read]
  refine Returns.ite (fun _ => (returns_pure _).mpr trivial) fun _ => ?_
  rw [returns_bind, returns_read, returns_bind, returns_read, maps.item]
  dsimp only
  refine Returns.ite (fun _ => (returns_pure _).mpr trivial) fun _ => ?_
  exact returns_overwrite merges good fits fuel _ (some token) maps candidate tag entry
    (fun _ _ => rfl) fun _ _ => rfl

/-- A conversion ends where the number that it stores fits. -/
theorem returns_tryIntoNumeric (good : Good config cache) {initial : UInt64}
    (created : Fits config key (.u64 initial) Optional.none)
    (converted : ∀ mapping number, Maps config cache key mapping →
      Fits config key (.u64 number) mapping.item.optional) (fuel ttl : Nat) :
    Returns (tryIntoNumeric config (fuel + 5) key initial ttl) (fun _ _ => True) cache := by
  unfold tryIntoNumeric
  rcases good.settled.lookup_apply key with ⟨mapping, slot, maps, ran, candidate, tag, entry, -⟩ |
    ⟨-, ran⟩ | ⟨location, asleep, -⟩
  case inr.inl =>
    exact returns_bind.mpr (returns_of_eq ran (returns_insert merges good created fuel ttl))
  case inr.inr => exact absurd asleep (good.settled.not_asleep merges location)
  refine returns_bind.mpr (returns_of_eq ran ?_)
  dsimp only
  rw [returns_bind, returns_read, maps.item]
  dsimp only
  cases mapping.item.value with
  | u64 number => exact (returns_pure _).mpr trivial
  | bytes text =>
    dsimp only
    cases parseSimpleNumeric text with
    | none => exact (returns_pure _).mpr trivial
    | some number =>
      dsimp only
      rw [returns_bind, returns_read]
      cases remainingTtl cache mapping.location.segment with
      | none => exact (returns_pure _).mpr trivial
      | some remaining =>
        dsimp only
        exact returns_overwrite merges good (converted mapping number maps) fuel _ none maps candidate tag
          entry (fun _ _ => rfl) fun _ _ => rfl

end Writes

/-! ### The calls -/

/-- What a call stores is refused for its length, or fits. -/
def Call.Fits (config : Config) (cache : Cache) : Call → Prop
  | .insert key value optional _ => Segcache.Fits config key value optional
  | .cas key value optional _ _ => Segcache.Fits config key value optional
  | .tryIntoNumeric key initial _ => Segcache.Fits config key (.u64 initial) Optional.none ∧
      ∀ mapping number, Maps config cache key mapping →
        Segcache.Fits config key (.u64 number) mapping.item.optional
  | _ => True

theorem Call.fits_of_plain (plain : config.layout.integrity = false) (call : Call) :
    call.Fits config cache := by
  cases call with
  | tryIntoNumeric => exact ⟨Segcache.fits_of_plain plain, fun _ _ _ => Segcache.fits_of_plain plain⟩
  | insert | cas => exact Segcache.fits_of_plain plain
  | _ => trivial

/-- **Every call on a reachable cache ends**: five rounds of its loops are enough, whatever has been
called before. In a build with magic bytes, what a write stores has to be refused for its length or fit
a fresh segment. -/
theorem calls_end (reachable : Reachable config cache) (merges : config.Merges) (call : Call)
    (sized : config.layout.integrity = true → call.Fits config cache) (fuel : Nat) :
    Returns (call.answer config (fuel + 5)) (fun _ _ => True) cache := by
  have fits : call.Fits config cache := by
    cases magic : config.layout.integrity with
    | true => exact sized magic
    | false => exact call.fits_of_plain magic
  have good := reachable.good
  obtain ⟨⟨chain, sane⟩, -⟩ := id good
  have whatever : ∀ {α : Type} {procedure : Proc α} {post : α → Cache → Prop} {make : α → Answer},
      Returns procedure post cache →
      Returns (do return make (← procedure) : Proc Answer) (fun _ _ => True) cache :=
    fun returned => returned.seq fun _ _ _ => (returns_pure _).mpr trivial
  have served := good.missing_or_served merges
  cases call with
  | insert key value optional ttl => exact whatever (returns_insert merges good fits fuel ttl)
  | get key updateFreq =>
    rcases served key with ⟨missing, -⟩ | ⟨mapping, -, -, here⟩
    · exact whatever (missing.get updateFreq)
    · exact whatever (here.get updateFreq)
  | delete key =>
    rcases served key with ⟨missing, -⟩ | ⟨mapping, -, -, here⟩
    · exact whatever missing.delete
    · exact whatever here.delete
  | cas key value optional ttl token => exact whatever (returns_cas merges good fits fuel ttl token)
  | wrappingAdd key rhs | saturatingSub key rhs =>
    rcases served key with ⟨missing, -⟩ | ⟨mapping, -, -, here⟩
    · exact whatever (missing.numericUpdate _)
    · exact whatever (here.numericUpdate _)
  | tryIntoNumeric key initial ttl =>
    exact whatever (returns_tryIntoNumeric merges good fits.1 fits.2 fuel ttl)
  | expire => exact whatever (returns_expireBuckets sane)
  | clear =>
    rw [Call.answer]
    exact whatever (returns_clearBuckets sane)

/-- No segment is free. -/
def crowded (cache : Cache) : Bool := decide (cache.freeQueue = [])

/-- An insert into a cache with magic bytes whose segments are all in service. -/
theorem calls_end_crowded : ∃ cache, Reachable (Config.small true .fifo 1) cache ∧
    cache.freeQueue = [] ∧
    Returns ((Call.insert (smallKey 3) (smallValue 8) Optional.none 60).answer
      (Config.small true .fifo 1) 5) (fun _ _ => True) cache := by
  obtain ⟨cache, reachable, full⟩ := exists_reachable (Config.small true .fifo 1) 10
    [.insert (smallKey 1) (smallValue 8) Optional.none 60,
      .insert (smallKey 2) (smallValue 8) Optional.none 60] crowded (by decide +kernel)
  have fits : (Call.insert (smallKey 3) (smallValue 8) Optional.none 60).Fits
      (Config.small true .fifo 1) cache := .inr (by decide)
  exact ⟨cache, reachable, of_decide_eq_true full,
    calls_end reachable (merges_of_not_merge rfl) _ (fun _ => fits) 0⟩

end CacheRs.Segcache
