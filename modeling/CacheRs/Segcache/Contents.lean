/-
**A cache is a map that may lose keys.**

* `Cache.content`: what can be read for a key;
* `Answer`, `Call.answer`: the calls with what they answer; `Answered`: a thread's runs with both;
* `Tells`: what an answered call says of a map;
* `Answered.refines`: **the answers of every run are those of a map that may lose keys**, and that map
  is what can be read.
-/

import CacheRs.Segcache.Runs
import CacheRs.Sequential.LossyMap

set_option linter.unusedSectionVars false

namespace CacheRs.Segcache

open KeyValue (Value)
open Segments (SegId getBucketIndex)
open Sequential Procedure
open Sequential.LossyMap (Loses Event latest)

variable {config : Config} {cache middle after : Cache} {pending : Option Location} {b : Nat}
  {key : Key} {found : Option Content} {item : Item} {location : Location}

/-- What a lookup of the key reads. -/
def Cache.content (config : Config) (cache : Cache) (key : Key) : Option Content :=
  (cache.locate config key).bind fun location => (cache.itemAt config location).map Item.content

/-- What a lookup reads is what the key is mapped to, if that can be read. -/
theorem Settled.content_iff (settled : Settled config pending cache) {found : Content} :
    cache.content config key = some found ↔
      ∃ mapping, Awake config cache key mapping ∧ mapping.item.content = found := by
  unfold Cache.content
  constructor
  · intro there
    obtain ⟨location, located, read⟩ := Option.bind_eq_some_iff.mp there
    obtain ⟨item, freq, awake⟩ := settled.locate_some located
    rw [awake.1.item] at read
    exact ⟨_, awake, Option.some.inj read⟩
  · rintro ⟨mapping, awake, rfl⟩
    obtain ⟨slot, ran⟩ := settled.finds awake
    have found : cache.table.lookupNoFreqUpdate config.geometry (cache.verify config key) key =
        .found ⟨mapping.location, slot⟩ := (Prod.mk.inj (Option.some.inj ran)).1
    have located : cache.locate config key = some mapping.location := by
      unfold Cache.locate
      rw [found]
    rw [located, Option.bind_some, awake.1.item]
    rfl

theorem Settled.content_none (settled : Settled config pending cache)
    (unread : ∀ mapping, ¬ Awake config cache key mapping) : cache.content config key = none := by
  cases found : cache.content config key with
  | none => rfl
  | some value =>
    obtain ⟨mapping, awake, -⟩ := settled.content_iff.mp found
    exact absurd awake (unread mapping)

/-! ### What the calls do to the map -/

theorem Wanes.loses (wanes : Wanes config cache after) (good : Good config cache)
    (good' : Good config after) : Loses (cache.content config) (after.content config) := by
  intro key found there
  obtain ⟨mapping, awake, rfl⟩ := good'.settled.content_iff.mp there
  obtain ⟨old, was, same⟩ := wanes.awake key mapping awake
  exact good.settled.content_iff.mpr ⟨old, was, by rw [same]⟩

theorem Sets.loses (sets : Sets config key found cache after) (good : Good config cache)
    (good' : Good config after) :
    Loses (Function.update (cache.content config) key found) (after.content config) := by
  intro other value there
  obtain ⟨mapping, awake, rfl⟩ := good'.settled.content_iff.mp there
  by_cases same : other = key
  · subst same
    rw [Function.update_self]
    exact sets.own mapping awake
  · obtain ⟨old, was, item⟩ := sets.others other same mapping awake
    rw [Function.update_of_ne same]
    exact good.settled.content_iff.mpr ⟨old, was, by rw [item]⟩

theorem Written.wanes (written : Written config b item location cache after) :
    Wanes config cache after :=
  wanes_of_maps (fun key mapping => (written.maps key mapping).mp) written.asleep

theorem Published.sets (published : Published config item location cache after) :
    Sets config item.key (some item.content) cache after where
  own mapping awake := by
    obtain ⟨chain, sane⟩ := published.sane
    obtain ⟨freq, own, -⟩ := published.own
    rw [sane.consistent.maps_unique awake.1 own]
  others := published.awake

/-- What a write leaves: the key has the item, or nothing but losses. -/
def Writes (config : Config) (item : Item) (cache : Cache) (result : Except SegcacheError Unit)
    (after : Cache) : Prop :=
  (result = .ok () ∧ Sets config item.key (some item.content) cache after) ∨
    ((∃ error, result = .error error) ∧ Wanes config cache after)

theorem Inserts.writes {result : Except SegcacheError Unit}
    (inserts : Inserts config b item cache result after) : Writes config item cache result after := by
  rcases inserts with ⟨_, _, _, _, proceeds, written, -, ⟨rfl, published⟩ | ⟨rfl, tidied, -⟩⟩ |
    ⟨rfl, -, proceeds, -⟩ | ⟨rfl, proceeds⟩
  · exact .inl ⟨rfl, published.sets.before (proceeds.wanes.trans written.wanes)⟩
  · exact .inr ⟨⟨_, rfl⟩, (proceeds.wanes.trans written.wanes).trans tidied.wanes⟩
  · exact .inr ⟨⟨_, rfl⟩, proceeds.wanes⟩
  · exact .inr ⟨⟨_, rfl⟩, proceeds.wanes⟩

theorem Overwrites.writes {old : Location} {expected : Option UInt64}
    {result : Except SegcacheError Unit}
    (overwrites : Overwrites config b item old expected cache result after) :
    Writes config item cache result after := by
  rcases overwrites with ⟨_, _, _, _, proceeds, written, -, ⟨rfl, published, -⟩ | ⟨rfl, tidied⟩⟩ |
    ⟨rfl, -, proceeds, -⟩ | ⟨rfl, proceeds⟩
  · exact .inl ⟨rfl, published.sets.before (proceeds.wanes.trans written.wanes)⟩
  · exact .inr ⟨⟨_, rfl⟩, (proceeds.wanes.trans written.wanes).trans tidied.wanes⟩
  · exact .inr ⟨⟨_, rfl⟩, proceeds.wanes⟩
  · exact .inr ⟨⟨_, rfl⟩, proceeds.wanes⟩

theorem Swaps.writes {token : UInt64} {result : Except SegcacheError Unit}
    (swaps : Swaps config b item token cache result after) : Writes config item cache result after := by
  rcases swaps with ⟨rfl, rfl | rfl⟩ | ⟨_, -, -, overwrites⟩
  · exact .inr ⟨⟨_, rfl⟩, Wanes.refl _⟩
  · exact .inr ⟨⟨_, rfl⟩, Wanes.refl _⟩
  · exact overwrites.writes

/-! ### Runs with answers -/

inductive Answer where
  | written (result : Except SegcacheError Unit)
  | viewed (view : Option View)
  | deleted (found : Bool)
  | counted (result : Except SegcacheError UInt64)
  | swept (segments : Nat)

/-- A call, and what it answers. -/
def Call.answer (config : Config) (fuel : Nat) : Call → Proc Answer
  | .insert key value optional ttl => do
    return .written (← Segcache.insert config fuel key value optional ttl)
  | .get key updateFreq => do return .viewed (← Segcache.get config key updateFreq)
  | .delete key => do return .deleted (← Segcache.delete config key)
  | .cas key value optional ttl token => do
    return .written (← Segcache.cas config fuel key value optional ttl token)
  | .wrappingAdd key rhs => do return .counted (← Segcache.wrappingAdd config key rhs)
  | .saturatingSub key rhs => do return .counted (← Segcache.saturatingSub config key rhs)
  | .tryIntoNumeric key initial ttl => do
    return .written (← Segcache.tryIntoNumeric config fuel key initial ttl)
  | .expire => do return .swept (← Segcache.expire config)
  | .clear => do return .swept (← Segcache.clearCache config)

/-- A thread's runs, with the calls it makes and what they answer. -/
inductive Answered (config : Config) : List (Call × Answer) → Cache → Prop
  | start (random : UInt64) (now : Nat) : Answered config [] (Cache.new config random now)
  | call {trace : List (Call × Answer)} {cache after : Cache} (run : Answered config trace cache)
      (fuel : Nat) (call : Call) (answer : Answer)
      (ran : call.answer config fuel cache = some (answer, after)) :
      Answered config (trace ++ [(call, answer)]) after
  | dropItem {trace : List (Call × Answer)} {cache after : Cache} (run : Answered config trace cache)
      (id : SegId) (held : 0 < (cache.segment id).refCount)
      (ran : dropItem config id cache = some ((), after)) : Answered config trace after
  | tick {trace : List (Call × Answer)} {cache : Cache} (run : Answered config trace cache)
      (now : Nat) (later : cache.now ≤ now) : Answered config trace { cache with now := now }

/-- What an answered call says of a map. -/
inductive Tells : Call → Answer → List (Event Key Content) → Prop
  | inserted {key : Key} {value : Value} {optional : Optional} {ttl : Nat} :
      Tells (.insert key value optional ttl) (.written (.ok ())) [.stored key (value, optional)]
  | swapped {key : Key} {value : Value} {optional : Optional} {ttl : Nat} {token : UInt64} :
      Tells (.cas key value optional ttl token) (.written (.ok ())) [.stored key (value, optional)]
  | filled {key : Key} {initial : UInt64} {ttl : Nat} :
      Tells (.tryIntoNumeric key initial ttl) (.written (.ok ()))
        [.changed key none (.u64 initial, Optional.none)]
  | numeric {key : Key} {initial : UInt64} {ttl : Nat} {number : UInt64} {optional : Optional} :
      Tells (.tryIntoNumeric key initial ttl) (.written (.ok ()))
        [.changed key (some (.u64 number, optional)) (.u64 number, optional)]
  | converted {key : Key} {initial : UInt64} {ttl : Nat} {text : KeyValue.Bytes} {number : UInt64}
      {optional : Optional} (parsed : parseSimpleNumeric text = some number) :
      Tells (.tryIntoNumeric key initial ttl) (.written (.ok ()))
        [.changed key (some (.bytes text, optional)) (.u64 number, optional)]
  | refused {call : Call} {error : SegcacheError} : Tells call (.written (.error error)) []
  | got {key : Key} {updateFreq : Bool} {view : Option View} :
      Tells (.get key updateFreq) (.viewed view) [.read key (view.map fun seen => seen.item.content)]
  | deleted {key : Key} : Tells (.delete key) (.deleted true) [.erased key]
  | missed {key : Key} : Tells (.delete key) (.deleted false) []
  | added {key : Key} {rhs number : UInt64} {optional : Optional} :
      Tells (.wrappingAdd key rhs) (.counted (.ok (number + rhs)))
        [.changed key (some (.u64 number, optional)) (.u64 (number + rhs), optional)]
  | subtracted {key : Key} {rhs number : UInt64} {optional : Optional} :
      Tells (.saturatingSub key rhs) (.counted (.ok (if rhs ≤ number then number - rhs else 0)))
        [.changed key (some (.u64 number, optional))
          (.u64 (if rhs ≤ number then number - rhs else 0), optional)]
  | uncounted {call : Call} {error : SegcacheError} : Tells call (.counted (.error error)) []
  | expired {segments : Nat} : Tells .expire (.swept segments) []
  | cleared {segments : Nat} : Tells .clear (.swept segments) [.cleared]

/-- What the answered calls of a run say of a map. -/
inductive Explains : List (Call × Answer) → List (Event Key Content) → Prop
  | nil : Explains [] []
  | snoc {trace : List (Call × Answer)} {events told : List (Event Key Content)} {call : Call}
      {answer : Answer} (explains : Explains trace events) (tells : Tells call answer told) :
      Explains (trace ++ [(call, answer)]) (events ++ told)

/-- What a call does to the map of what can be read. -/
structure Says (config : Config) (call : Call) (cache : Cache) (answer : Answer) (after : Cache) :
    Prop where
  good : Good config after
  told : ∃ told, Tells call answer told ∧ ∀ events, LossyMap.Run events (cache.content config) →
    LossyMap.Run (events ++ told) (after.content config)

section Says

variable {call : Call} {answer : Answer} (good : Good config cache) (good' : Good config after)

include good good'

/-- Nothing is told, and keys are lost at most. -/
theorem says_nothing (tells : Tells call answer []) (wanes : Wanes config cache after) :
    Says config call cache answer after := by
  refine ⟨good', [], tells, fun events run => ?_⟩
  rw [List.append_nil]
  exact run.lose (wanes.loses good good')

/-- One event is told. -/
theorem says_event {event : Event Key Content} (tells : Tells call answer [event])
    (allowed : event.Allowed (cache.content config))
    (loses : Loses (event.apply (cache.content config)) (after.content config)) :
    Says config call cache answer after :=
  ⟨good', [event], tells, fun _ run => (run.event event allowed).lose loses⟩

/-- A write tells what it stores, or fails. -/
theorem Writes.says {result : Except SegcacheError Unit}
    (writes : Writes config item cache result after)
    {event : Event Key Content} (tells : Tells call (.written (.ok ())) [event])
    (allowed : event.Allowed (cache.content config))
    (apply : event.apply (cache.content config) =
      Function.update (cache.content config) item.key (some item.content)) :
    Says config call cache (.written result) after := by
  rcases writes with ⟨rfl, sets⟩ | ⟨⟨error, rfl⟩, wanes⟩
  · refine says_event good good' tells allowed ?_
    rw [apply]
    exact sets.loses good good'
  · exact says_nothing good good' .refused wanes

end Says

/-- **What every answered call says of the map is so.** -/
theorem Call.says (good : Good config cache) (fuel : Nat) (call : Call) :
    Ensures (call.answer config fuel) (Says config call cache) cache := by
  cases call with
  | insert key value optional ttl =>
    refine Ensures.seq (ensures_insert good fuel key value optional ttl) fun result after inserts =>
      (ensures_pure _).mpr ?_
    exact inserts.writes.says good inserts.good .inserted trivial rfl
  | get key updateFreq =>
    refine Ensures.seq (ensures_get good key updateFreq) fun view after ⟨good', _, wanes, sees⟩ =>
      (ensures_pure _).mpr ?_
    refine says_event good good' .got (fun value seen => ?_) (wanes.loses good good')
    obtain ⟨view, rfl, rfl⟩ := Option.map_eq_some_iff.mp seen
    obtain ⟨mapping, awake, same⟩ := sees view rfl
    exact good.settled.content_iff.mpr ⟨mapping, awake, by rw [same]⟩
  | delete key =>
    refine Ensures.seq (ensures_delete good key) fun found after ⟨good', _, outcome⟩ =>
      (ensures_pure _).mpr ?_
    rcases outcome with ⟨rfl, rfl⟩ | ⟨rfl, sets⟩
    · exact says_nothing good good' .missed (Wanes.refl _)
    · exact says_event good good' .deleted trivial (sets.loses good good')
  | cas key value optional ttl token =>
    refine Ensures.seq (ensures_cas good fuel key value optional ttl token) fun result after swaps =>
      (ensures_pure _).mpr ?_
    exact swaps.writes.says good (swaps.good good) .swapped trivial rfl
  | wrappingAdd key rhs =>
    refine Ensures.seq (ensures_numericUpdate good key _) fun result after ⟨good', _, updates⟩ =>
      (ensures_pure _).mpr ?_
    rcases updates with ⟨⟨error, rfl⟩, wanes⟩ | ⟨mapping, number, awake, value, rfl, sets⟩
    · exact says_nothing good good' .uncounted wanes
    · have found : cache.content config key = some (.u64 number, mapping.item.optional) :=
        good.settled.content_iff.mpr ⟨mapping, awake, by rw [Item.content, value]⟩
      exact says_event good good' .added found (sets.loses good good')
  | saturatingSub key rhs =>
    refine Ensures.seq (ensures_numericUpdate good key _) fun result after ⟨good', _, updates⟩ =>
      (ensures_pure _).mpr ?_
    rcases updates with ⟨⟨error, rfl⟩, wanes⟩ | ⟨mapping, number, awake, value, rfl, sets⟩
    · exact says_nothing good good' .uncounted wanes
    · have found : cache.content config key = some (.u64 number, mapping.item.optional) :=
        good.settled.content_iff.mpr ⟨mapping, awake, by rw [Item.content, value]⟩
      exact says_event good good' .subtracted found (sets.loses good good')
  | tryIntoNumeric key initial ttl =>
    refine Ensures.seq (ensures_tryIntoNumeric good fuel key initial ttl) fun result after converts =>
      (ensures_pure _).mpr ?_
    have good' := converts.good good
    rcases converts with ⟨unmapped, inserts⟩ | ⟨mapping, awake, ⟨number, value, rfl, rfl⟩ |
      ⟨text, value, ⟨-, rfl, rfl⟩ | ⟨number, parsed, ⟨-, rfl, rfl⟩ | ⟨_, -, overwrites⟩⟩⟩⟩
    · refine inserts.writes.says good good' .filled ?_ rfl
      exact good.settled.content_none fun mapping awake => unmapped mapping awake.1
    · have found : after.content config key = some (.u64 number, mapping.item.optional) :=
        good.settled.content_iff.mpr ⟨mapping, awake, by rw [Item.content, value]⟩
      have same : Function.update (after.content config) key
          (some (.u64 number, mapping.item.optional)) = after.content config :=
        Function.update_eq_self_iff.mpr found.symm
      refine says_event good good' .numeric found ?_
      rw [Event.apply, same]
      exact Loses.refl _
    · exact says_nothing good good' .refused (Wanes.refl _)
    · exact says_nothing good good' .refused (Wanes.refl _)
    · have found : cache.content config key = some (.bytes text, mapping.item.optional) :=
        good.settled.content_iff.mpr ⟨mapping, awake, by rw [Item.content, value]⟩
      exact overwrites.writes.says good good' (.converted parsed) found rfl
  | expire =>
    refine Ensures.seq (ensures_expire good) fun segments after ⟨good', wanes⟩ =>
      (ensures_pure _).mpr ?_
    exact says_nothing good good' .expired wanes
  | clear =>
    refine Ensures.seq (ensures_clearCache good) fun segments after ⟨good', unread⟩ =>
      (ensures_pure _).mpr ?_
    refine says_event good good' .cleared trivial fun key value there => ?_
    obtain ⟨mapping, awake, -⟩ := good'.settled.content_iff.mp there
    exact absurd awake (unread key mapping)

/-! ### Whole runs -/

variable {trace : List (Call × Answer)}

theorem performed {α : Type} {procedure : Proc α} {make : α → Answer} {answer : Answer}
    (ran : (do return make (← procedure) : Proc Answer) cache = some (answer, after)) :
    (do
      let _ ← procedure : Proc Unit) cache = some ((), after) := by
  obtain ⟨result, middle, called, rested⟩ := bind_eq_some.mp ran
  cases rested
  exact bind_apply_of_some called

/-- A call that answers has been performed. -/
theorem Call.perform_of_answer {fuel : Nat} {call : Call} {answer : Answer}
    (ran : call.answer config fuel cache = some (answer, after)) :
    call.perform config fuel cache = some ((), after) := by
  cases call with
  | clear =>
    rw [Call.answer] at ran
    rw [Call.perform]
    generalize Segcache.clearCache config = sweep at ran ⊢
    exact performed ran
  | insert | get | delete | cas | wrappingAdd | saturatingSub | tryIntoNumeric | expire =>
    exact performed ran

theorem Answered.reachable (run : Answered config trace cache) : Reachable config cache := by
  induction run with
  | start random now => exact ⟨random, now, .refl⟩
  | call _ fuel call answer ran ih => exact ih.step (.call fuel call (Call.perform_of_answer ran))
  | dropItem _ id held ran ih => exact ih.step (.dropItem id held ran)
  | tick _ now later ih => exact ih.step (.tick now later)

theorem content_new (config : Config) (random : UInt64) (now : Nat) :
    (Cache.new config random now).content config = fun _ => none := by
  funext key
  refine (good_new config random now).settled.content_none fun mapping awake => ?_
  obtain ⟨⟨b, i, tag, slot, -⟩, -⟩ := awake
  cases slot

/-- **The answers of every run are those of a map that may lose keys**: every read is answered with
nothing or with what was stored last for its key, and not deleted or cleared since. -/
theorem refines_lossyMap (run : Answered config trace cache) : ∃ events,
    Explains trace events ∧ LossyMap.Run events (cache.content config) ∧
      ∀ before key answer later, events = before ++ .read key answer :: later →
        answer = none ∨ answer = latest before key := by
  have simulates : ∃ events, Explains trace events ∧ LossyMap.Run events (cache.content config) := by
    induction run with
    | start random now =>
      rw [content_new]
      exact ⟨[], .nil, .start⟩
    | call run fuel call answer ran ih =>
      obtain ⟨events, explains, maps⟩ := ih
      obtain ⟨-, told, tells, runs⟩ := Call.says run.reachable.good fuel call _ _ ran
      exact ⟨events ++ told, explains.snoc tells, runs events maps⟩
    | dropItem run id held ran ih =>
      obtain ⟨events, explains, maps⟩ := ih
      have good := run.reachable.good
      obtain ⟨good', same, asleep, -⟩ := (returns_dropItem good held).ensures _ _ ran
      have wanes := wanes_of_maps (fun key mapping => (same key mapping).mp) asleep
      exact ⟨events, explains, maps.lose (wanes.loses good good')⟩
    | tick run now later ih =>
      obtain ⟨events, explains, maps⟩ := ih
      exact ⟨events, explains, maps⟩
  obtain ⟨events, explains, maps⟩ := simulates
  exact ⟨events, explains, maps, fun before key answer later => maps.read⟩

/-! ### A run that is computed -/

/-- Calls one after the other, with what they answer. -/
def answerAll (config : Config) (fuel : Nat) : List Call → Proc (List Answer)
  | [] => return []
  | call :: rest => do
    let answer ← call.answer config fuel
    return answer :: (← answerAll config fuel rest)

theorem Answered.answerAll (run : Answered config trace cache) (fuel : Nat) (calls : List Call)
    {answers : List Answer}
    (ran : Segcache.answerAll config fuel calls cache = some (answers, after)) :
    Answered config (trace ++ calls.zip answers) after := by
  induction calls generalizing cache trace answers with
  | nil =>
    cases ran
    rw [List.zip_nil_left, List.append_nil]
    exact run
  | cons call rest ih =>
    obtain ⟨answer, middle, first, later⟩ := bind_eq_some.mp ran
    obtain ⟨others, last, ranRest, done⟩ := bind_eq_some.mp later
    cases done
    rw [List.zip_cons_cons, List.append_cons]
    exact ih (run.call fuel call answer first) ranRest

/-- A value is stored, read, deleted and read again. -/
def storedCalls : List Call :=
  [.insert (smallKey 1) (smallValue 8) Optional.none 0, .get (smallKey 1) true,
    .delete (smallKey 1), .get (smallKey 1) true]

/-- What the two reads are answered with. -/
def readAnswers (answers : List Answer) : List (Option Content) :=
  answers.filterMap fun answer => match answer with
    | .viewed view => some (view.map fun seen => seen.item.content)
    | _ => none

theorem refines_lossyMap_stored : ∃ trace cache events,
    Answered (Config.small false .fifo 3) trace cache ∧
      readAnswers (trace.map Prod.snd) = [some (smallValue 8, Optional.none), none] ∧
      Explains trace events ∧
      LossyMap.Run events (cache.content (Config.small false .fifo 3)) := by
  have checked : ((answerAll (Config.small false .fifo 3) 4 storedCalls
      (Cache.new (Config.small false .fifo 3) 0 0)).any fun ended =>
        decide (readAnswers ((storedCalls.zip ended.1).map Prod.snd) =
          [some (smallValue 8, Optional.none), none])) = true := by decide +kernel
  obtain ⟨⟨answers, cache⟩, ran, read⟩ := (Option.any_eq_true _ _).mp checked
  have run := (Answered.start 0 0).answerAll 4 storedCalls ran
  rw [List.nil_append] at run
  obtain ⟨events, explains, maps, -⟩ := refines_lossyMap run
  exact ⟨_, cache, events, run, of_decide_eq_true read, explains, maps⟩

end CacheRs.Segcache
