/-
**The protocol that keeps one entry a key.**

The rely–guarantee protocol whose invariant is `Consistent`, under the storage's discipline: a
location goes to another key only when no slot publishes it and no call has it in hand, and callers
hand locations of the key they call about. A step that moves no lock, no item and no entry is calm:
every thread, its own included, tolerates it.

* `Disciplined`: the condition on a step;
* `singleEntry`: the protocol;
* `wp_peekSlot`, `wp_loadSlot`, `wp_verify`, `wp_swap`: the calm accesses;
* `wp_create`: the exchange that creates an entry;
* `wp_lockStripe`, `wp_unlockStripe`, `wp_store`: the others.
-/

import CacheRs.Hashtable.Entries

set_option linter.unusedSectionVars false

namespace CacheRs.Hashtable

open Concurrency

variable {Tid Key : Type} [DecidableEq Tid] [DecidableEq Key] (geometry : Geometry Key)

/-- The condition on a step: calls are handed locations of their key, and the storage gives a
location to another key only when no slot publishes it and no call has it in hand. -/
def Disciplined (_t : Tid) (label : Label Key) (world : TableWorld Tid Key) : Prop :=
  match label with
  | .call operation => ∀ location ∈ operation.handed,
    world.shared.item location = operation.key?
  | .store location key => location ≠ 0 ∧ location ≠ Location.ghost ∧
    (world.shared.item location = some key ∨
      (¬ world.shared.Names geometry location ∧
        ∀ other, location ∉ world.history.hand other))
  | _ => True

/-- The protocol of one entry a key. -/
def singleEntry : Protocol Tid (Shared Key) (Label Key) (History Tid Key) where
  record := record geometry
  allowed := Disciplined geometry
  inv := Consistent geometry
  rely := Rely geometry
  rely_refl _ world := Rely.refl world
  rely_trans _ _ _ _ first second := first.trans second

variable {geometry} {t other : Tid} {world now after : TableWorld Tid Key}

/-! ### Calm steps -/

/-- A change of the shared state that every thread tolerates. -/
structure Calm (geometry : Geometry Key) (state changed : Shared Key) : Prop where
  sound : changed.Sound geometry
  locked : changed.locked = state.locked
  item : changed.item = state.item
  fresh : ∀ key bucket index, changed.HasEntry bucket index key → state.HasEntry bucket index key
  stays : ∀ key bucket index, state.HasEntry bucket index key →
    changed.HasEntry bucket index key ∨ changed.NoEntry key

theorem Calm.refl {state : Shared Key} (sound : state.Sound geometry) :
    Calm geometry state state :=
  ⟨sound, rfl, rfl, fun _ _ _ entry => entry, fun _ _ _ entry => .inl entry⟩

/-- A draw of the generator is calm. -/
theorem Calm.draw {state : Shared Key} (sound : state.Sound geometry) (random : UInt64) :
    Calm geometry state { state with random := random } :=
  ⟨⟨sound.placed, sound.unique, sound.real⟩, rfl, rfl, fun _ _ _ entry => entry,
    fun _ _ _ entry => .inl entry⟩

/-- Swapping a word for one that publishes nothing or a location of the same key is calm. -/
theorem Calm.swap {state : Shared Key} {bucket index : Nat} {new : Packed}
    (sound : state.Sound geometry) (swaps : Swaps state (state.slot bucket index) new) :
    Calm geometry state (state.setSlot bucket index new) := by
  rcases swaps with dead | ⟨was, live, tag, same⟩
  · exact ⟨sound_drop sound dead, rfl, rfl, fun _ _ _ entry => ((hasEntry_drop dead).mp entry).2,
      fun _ _ _ entry => stays_drop sound dead entry⟩
  · exact ⟨sound_keep sound was live tag same, rfl, rfl,
      fun _ _ _ entry => (hasEntry_keep was live same).mp entry,
      fun _ _ _ entry => .inl ((hasEntry_keep was live same).mpr entry)⟩

theorem advance_hand (state : Shared Key) (history : History Tid Key) :
    (history.advance geometry state).hand = history.hand := rfl

variable (geometry t other) in
theorem record_calm {label : Label Key} (calm : label.isCalm = true) (state : Shared Key)
    (history : History Tid Key) :
    (record geometry t label state history).holder = history.holder ∧
    (record geometry t label state history).answers = history.answers ∧
    (record geometry t label state history).absent = (history.advance geometry state).absent ∧
    (record geometry t label state history).absentLocked =
      (history.advance geometry state).absentLocked ∧
    ∀ location ∈ history.hand other, location ∈ (record geometry t label state history).hand other := by
  cases label with
  | other => exact ⟨rfl, rfl, rfl, rfl, fun _ member => member⟩
  | exchange => exact ⟨rfl, rfl, rfl, rfl, fun _ member => member⟩
  | store => exact ⟨rfl, rfl, rfl, rfl, fun _ member => member⟩
  | load bucket index =>
    refine ⟨rfl, rfl, rfl, rfl, fun location member => ?_⟩
    show location ∈ Function.update history.hand t _ other
    by_cases mine : other = t
    · subst mine
      rw [Function.update_self]
      exact List.mem_cons_of_mem _ member
    · rw [Function.update_of_ne mine]
      exact member
  | lock => cases calm
  | unlock => cases calm
  | call => cases calm
  | respond => cases calm

/-- A calm label on a change that keeps locks, items and the sight of every entry. -/
theorem rely_step {label : Label Key} (calm : label.isCalm = true) {update : Shared Key → Shared Key}
    (item : ∀ location ∈ now.history.hand other,
      (update now.shared).item location = now.shared.item location)
    (fresh : ∀ key, now.history.holder (geometry.stripe key) = some other → ∀ bucket index,
      (update now.shared).HasEntry bucket index key → now.shared.HasEntry bucket index key)
    (stays : ∀ key bucket index, now.shared.HasEntry bucket index key →
      (update now.shared).HasEntry bucket index key ∨ (update now.shared).NoEntry key) :
    Rely geometry other now (now.after (record geometry) t label update) := by
  obtain ⟨holder, -, absent, locked, hand⟩ :=
    record_calm geometry t other calm now.shared now.history
  refine ⟨hand, item, fun stripe mine => ?_, fresh,
    fun key gone => .inl ?_, fun key bucket index entry => ?_, fun key seen => ?_⟩
  · exact (congrFun holder stripe).trans mine
  · show (record geometry t label now.shared now.history).absent other key
    rw [absent]
    exact gone
  · rcases stays key bucket index entry with still | gone
    · exact .inl still
    · exact .inr (.inr gone)
  · show (record geometry t label now.shared now.history).absentLocked other key
    rw [locked]
    exact .inl seen

/-- A calm label keeps the invariant if the table stays sound. -/
theorem consistent_step {label : Label Key} (calm : label.isCalm = true)
    {update : Shared Key → Shared Key} (holds : Consistent geometry now)
    (sound : (update now.shared).Sound geometry)
    (locked : (update now.shared).locked = now.shared.locked) :
    Consistent geometry (now.after (record geometry) t label update) := by
  obtain ⟨holder, answers, -⟩ :=
    record_calm geometry t t calm now.shared now.history
  refine ⟨sound, fun stripe other mine => ?_, fun answered member => ?_⟩
  · have before : now.history.holder stripe = some other := (congrFun holder stripe).symm.trans mine
    exact (congrFun locked stripe).trans (holds.locks stripe other before)
  · have before : answered ∈ now.history.answers := answers ▸ member
    exact holds.truthful answered before

/-- A calm step keeps the invariant and every thread's rely. -/
theorem calm_step (t : Tid) (label : Label Key) (calm : label.isCalm = true)
    (update : Shared Key → Shared Key) (holds : Consistent geometry now)
    (changes : Calm geometry now.shared (update now.shared)) :
    Consistent geometry (now.after (record geometry) t label update) ∧
      ∀ other, Rely geometry other now (now.after (record geometry) t label update) :=
  ⟨consistent_step calm holds changes.sound changes.locked, fun _ =>
    rely_step calm (fun location _ => congrFun changes.item location) (fun key _ => changes.fresh key) changes.stays⟩

/-! ### The accesses -/

section Rules

variable {α : Type}

/-- The rule of a calm access. -/
theorem wp_calm {label : Label Key} (calm : label.isCalm = true)
    {action : Shared Key → α × Shared Key} {post : α → TableWorld Tid Key → Prop}
    (changes : ∀ now, Rely geometry t world now → Consistent geometry now →
      Calm geometry now.shared (action now.shared).2)
    (next : ∀ now, Rely geometry t world now → Consistent geometry now → ∀ after,
      Rely geometry t world after → Consistent geometry after →
      after.shared = (action now.shared).2 →
      after.history = record geometry t label now.shared now.history →
      post (action now.shared).1 after) :
    (singleEntry geometry).wp t (Program.atomically label action) post world := by
  refine Protocol.wp_atomically fun now moved holds _ _ => ?_
  obtain ⟨kept, tolerated⟩ :=
    calm_step t label calm (fun state => (action state).2) holds (changes now moved holds)
  exact ⟨kept, fun other _ => tolerated other,
    next now moved holds _ (moved.trans (tolerated t)) kept rfl rfl⟩

theorem wp_peekSlot {bucket index : Nat} {post : Packed → TableWorld Tid Key → Prop}
    (next : ∀ after, Rely geometry t world after → Consistent geometry after →
      post (after.shared.slot bucket index) after) :
    (singleEntry geometry).wp t (peekSlot bucket index) post world := by
  refine wp_calm rfl (fun _ _ holds => .refl holds.sound) fun now _ _ after moved kept shared _ => ?_
  have same : after.shared = now.shared := shared
  exact same ▸ next after moved kept

/-- A slot loaded for its location leaves the location in the thread's hand. -/
theorem wp_loadSlot {bucket index : Nat} {post : Packed → TableWorld Tid Key → Prop}
    (next : ∀ after, Rely geometry t world after → Consistent geometry after →
      (after.shared.slot bucket index).location ∈ after.history.hand t →
      post (after.shared.slot bucket index) after) :
    (singleEntry geometry).wp t (loadSlot bucket index) post world := by
  refine wp_calm rfl (fun _ _ holds => .refl holds.sound) fun now _ _ after moved kept shared history => ?_
  have same : after.shared = now.shared := shared
  have hand : (after.shared.slot bucket index).location ∈ after.history.hand t := by
    rw [history, same]
    show _ ∈ Function.update now.history.hand t _ t
    rw [Function.update_self]
    exact List.mem_cons_self ..
  exact same ▸ next after moved kept hand

/-- The verifier answers about the key the location holds. -/
theorem wp_verify {key : Key} {location : Location} {post : Verified → TableWorld Tid Key → Prop}
    (isMatch : ∀ after, Rely geometry t world after → Consistent geometry after →
      after.shared.item location = some key → post .isMatch after)
    (differentKey : ∀ after, Rely geometry t world after → Consistent geometry after →
      after.shared.item location ≠ some key → post .differentKey after)
    (unknown : ∀ after, Rely geometry t world after → Consistent geometry after →
      post (.unknown location) after) :
    (singleEntry geometry).wp t (verify key location) post world := by
  refine wp_calm rfl (fun _ _ holds => .refl holds.sound) fun now _ _ after moved kept shared _ => ?_
  have same : after.shared = now.shared := shared
  show post (if now.shared.readable location then _ else _) after
  rw [← same]
  split
  · split
    · rename_i held holds
      split
      · rename_i same
        exact isMatch after moved kept (same ▸ holds)
      · rename_i differs
        refine differentKey after moved kept fun same => differs ?_
        exact Option.some.inj (holds.symm.trans same)
    · exact unknown after moved kept
  · exact unknown after moved kept

theorem wp_nextU64 {post : UInt64 → TableWorld Tid Key → Prop}
    (next : ∀ draw after, Rely geometry t world after → Consistent geometry after →
      post draw after) :
    (singleEntry geometry).wp t nextU64 post world := by
  exact wp_calm rfl (fun _ _ holds => .draw holds.sound _)
    fun now _ _ after moved kept _ _ => next _ after moved kept

/-- A compare-exchange that swaps a word for one every thread tolerates. -/
theorem wp_swap {bucket index : Nat} {current new : Packed}
    {post : Bool → TableWorld Tid Key → Prop}
    (swaps : ∀ now, Rely geometry t world now → Consistent geometry now →
      now.shared.slot bucket index = current → Swaps now.shared current new)
    (next : ∀ done after, Rely geometry t world after → Consistent geometry after →
      post done after) :
    (singleEntry geometry).wp t (exchangeSlot bucket index current new) post world := by
  refine wp_calm rfl (fun now moved holds => ?_) fun now _ _ after moved kept _ _ =>
    next _ after moved kept
  show Calm geometry now.shared (now.shared.exchange bucket index current new)
  unfold Shared.exchange
  split
  · rename_i found
    subst found
    exact .swap holds.sound (swaps now moved holds rfl)
  · exact .refl holds.sound

/-! ### Creating an entry, and the steps that are not calm -/

/-- The thread holds the stripe of a key that has no entry. -/
def Clear (geometry : Geometry Key) (t : Tid) (key : Key) (world : TableWorld Tid Key) : Prop :=
  world.history.holder (geometry.stripe key) = some t ∧ world.shared.NoEntry key

/-- The thread holds the stripe, and held it at an instant at which the key had no entry. -/
def Claimed (geometry : Geometry Key) (t : Tid) (key : Key) (world : TableWorld Tid Key) : Prop :=
  world.history.holder (geometry.stripe key) = some t ∧ world.history.absentLocked t key

/-- A location of the key that the thread has in hand. -/
def Handed (t : Tid) (key : Key) (location : Location) (world : TableWorld Tid Key) : Prop :=
  location ∈ world.history.hand t ∧ world.shared.item location = some key

theorem Clear.rely {key : Key} (clear : Clear geometry t key world)
    (moved : Rely geometry t world after) : Clear geometry t key after :=
  ⟨moved.holder _ clear.1, fun bucket index entry =>
    clear.2 bucket index (moved.fresh key clear.1 bucket index entry)⟩

theorem Claimed.rely {key : Key} (claimed : Claimed geometry t key world)
    (moved : Rely geometry t world after) : Claimed geometry t key after :=
  ⟨moved.holder _ claimed.1, moved.locked key claimed.2⟩

theorem Handed.rely {key : Key} {location : Location} (handed : Handed t key location world)
    (moved : Rely geometry t world after) : Handed t key location after :=
  ⟨moved.hand location handed.1, (moved.item location handed.1).trans handed.2⟩

/-- A word at a location the storage holds publishes an entry. -/
theorem Handed.isLive {key : Key} {new : Packed} (handed : Handed t key new.location world)
    (kept : Consistent geometry world) : new.isLive = true :=
  Packed.isLive_of_location (kept.sound.real _ _ handed.2).1 (kept.sound.real _ _ handed.2).2

/-- The holder of the stripe creates the entry of a key that has none. -/
theorem wp_create {key : Key} {bucket index : Nat} {current new : Packed}
    {post : Bool → TableWorld Tid Key → Prop} (clear : Clear geometry t key world)
    (handed : Handed t key new.location world) (tag : new.tag = geometry.tag key)
    (choice : bucket ∈ geometry.choices key) (inside : index < 8) (free : current.isLive = false)
    (won : ∀ after, Consistent geometry after → Claimed geometry t key after → post true after)
    (lost : ∀ after, Rely geometry t world after → Consistent geometry after → post false after) :
    (singleEntry geometry).wp t (exchangeSlot bucket index current new) post world := by
  refine Protocol.wp_atomically fun now moved holds _ _ => ?_
  have clearNow := clear.rely moved
  have handedNow := handed.rely moved
  by_cases found : now.shared.slot bucket index = current
  · have live := handedNow.isLive holds
    have was : (now.shared.slot bucket index).isLive = false := found ▸ free
    have entries := @hasEntry_create _ _ now.shared bucket index new was live key handedNow.2
    have changed : now.shared.exchange bucket index current new =
        now.shared.setSlot bucket index new := if_pos found
    have kept : Consistent geometry (now.after (record geometry) t
        (.exchange bucket index current new) (·.exchange bucket index current new)) :=
      consistent_step rfl holds
        (changed ▸ sound_create holds.sound was live handedNow.2 tag choice inside clearNow.2)
        (Shared.exchange_locked ..)
    refine ⟨kept, fun other different => ?_, ?_⟩
    · refine rely_step rfl (fun location _ => congrFun (Shared.exchange_item ..) location)
        (fun key' mine b i entry => ?_) fun key' b i entry => .inl ?_
      · replace entry : (now.shared.exchange bucket index current new).HasEntry b i key' := entry
        rw [changed] at entry
        rcases entries.mp entry with old | ⟨rfl, rfl, rfl⟩
        · exact old
        · exact absurd (Option.some.inj (mine.symm.trans clearNow.1)) different
      · show (now.shared.exchange bucket index current new).HasEntry b i key'
        rw [changed]
        exact entries.mpr (.inl entry)
    · show post (decide (now.shared.slot bucket index = current)) _
      rw [decide_eq_true found]
      exact won _ kept ⟨clearNow.1, .inr clearNow⟩
  · have changed : now.shared.exchange bucket index current new = now.shared := if_neg found
    have calm : Calm geometry now.shared (now.shared.exchange bucket index current new) := by
      rw [changed]
      exact .refl holds.sound
    obtain ⟨kept, tolerated⟩ := calm_step t (.exchange bucket index current new) rfl
      (·.exchange bucket index current new) holds calm
    refine ⟨kept, fun other _ => tolerated other, ?_⟩
    show post (decide (now.shared.slot bucket index = current)) _
    rw [decide_eq_false found]
    exact lost _ (moved.trans (tolerated t)) kept

/-- A step beside the slots and the storage. -/
theorem rely_beside (slot : after.shared.slot = now.shared.slot)
    (item : after.shared.item = now.shared.item)
    (hand : ∀ location ∈ now.history.hand other, location ∈ after.history.hand other)
    (holder : ∀ stripe, now.history.holder stripe = some other →
      after.history.holder stripe = some other)
    (absent : ∀ key, now.history.absent other key → after.history.absent other key)
    (locked : ∀ key, now.history.absentLocked other key →
      after.history.absentLocked other key) : Rely geometry other now after := by
  have same : ∀ key bucket index,
      after.shared.HasEntry bucket index key ↔ now.shared.HasEntry bucket index key := by
    intro key bucket index
    unfold Shared.HasEntry
    rw [slot, item]
  refine ⟨hand, fun location _ => congrFun item location, holder,
    fun key _ bucket index => (same key bucket index).mp, fun key gone => ?_,
    fun key bucket index entry => .inl ((same key bucket index).mpr entry), locked⟩
  rcases gone with seen | none
  · exact .inl (absent key seen)
  · exact .inr fun bucket index entry => none bucket index ((same key bucket index).mp entry)

/-- Taking a stripe lock: nobody held it. -/
theorem wp_lockStripe {stripe : Nat} {post : Unit → TableWorld Tid Key → Prop}
    (next : ∀ after, Rely geometry t world after → Consistent geometry after →
      after.history.holder stripe = some t → post () after) :
    (singleEntry geometry).wp t (lockStripe stripe) post world := by
  refine Protocol.wp_whenEnabled fun now moved holds _ able => ?_
  have unheld : ∀ other, now.history.holder stripe ≠ some other := by
    intro other mine
    rw [holds.locks stripe other mine] at able
    cases able
  have tolerated : ∀ other, Rely geometry other now
      (now.after (record geometry) t (.lock stripe) fun state =>
        { state with locked := Function.update state.locked stripe true }) := by
    refine fun other => rely_beside rfl rfl (fun _ member => member) (fun taken mine => ?_)
      (fun _ seen => .inl seen) fun _ seen => .inl seen
    have different : taken ≠ stripe := fun same => unheld other (same ▸ mine)
    show Function.update now.history.holder stripe (some t) taken = some other
    rw [Function.update_of_ne different]
    exact mine
  have kept : Consistent geometry (now.after (record geometry) t (.lock stripe) fun state =>
      { state with locked := Function.update state.locked stripe true }) := by
    refine ⟨⟨holds.sound.placed, holds.sound.unique, holds.sound.real⟩, fun taken other mine => ?_,
      holds.truthful⟩
    show Function.update now.shared.locked stripe true taken = true
    by_cases same : taken = stripe
    · rw [same, Function.update_self]
    · replace mine : Function.update now.history.holder stripe (some t) taken = some other := mine
      rw [Function.update_of_ne same] at mine ⊢
      exact holds.locks taken other mine
  exact ⟨kept, fun other _ => tolerated other,
    next _ (moved.trans (tolerated t)) kept (Function.update_self ..)⟩

/-- Releasing a stripe lock the thread holds. -/
theorem wp_unlockStripe {stripe : Nat} {post : Unit → TableWorld Tid Key → Prop}
    (mine : world.history.holder stripe = some t)
    (next : ∀ after, Consistent geometry after →
      (∀ key, world.history.absentLocked t key → after.history.absentLocked t key) →
      post () after) :
    (singleEntry geometry).wp t (unlockStripe stripe) post world := by
  refine Protocol.wp_atomically fun now moved holds _ _ => ?_
  have held := moved.holder stripe mine
  have kept : Consistent geometry (now.after (record geometry) t (.unlock stripe) fun state =>
      { state with locked := Function.update state.locked stripe false }) := by
    refine ⟨⟨holds.sound.placed, holds.sound.unique, holds.sound.real⟩, fun taken other theirs => ?_,
      holds.truthful⟩
    replace theirs : Function.update now.history.holder stripe none taken = some other := theirs
    have different : taken ≠ stripe := by
      rintro rfl
      rw [Function.update_self] at theirs
      cases theirs
    show Function.update now.shared.locked stripe false taken = true
    rw [Function.update_of_ne different] at theirs ⊢
    exact holds.locks taken other theirs
  refine ⟨kept, fun other different => ?_, next _ kept fun key seen => .inl (moved.locked key seen)⟩
  refine rely_beside rfl rfl (fun _ member => member) (fun taken theirs => ?_)
    (fun _ seen => .inl seen) fun _ seen => .inl seen
  have elsewhere : taken ≠ stripe := by
    rintro rfl
    exact different (Option.some.inj (theirs.symm.trans held))
  show Function.update now.history.holder stripe none taken = some other
  rw [Function.update_of_ne elsewhere]
  exact theirs

theorem wp_begin {operation : Operation Key} {post : Unit → TableWorld Tid Key → Prop}
    (next : ∀ after, Consistent geometry after →
      (∀ location ∈ operation.handed, ∀ key ∈ operation.key?, Handed t key location after) →
      post () after) :
    (singleEntry geometry).wp t (begin operation) post world := by
  refine Protocol.wp_atomically fun now moved holds allowed _ => ?_
  have kept : Consistent geometry
      (now.after (record geometry) t (.call operation) fun state => state) :=
    ⟨holds.sound, holds.locks, holds.truthful⟩
  refine ⟨kept, fun other different => ?_, next _ kept fun location member key about => ?_⟩
  · refine rely_beside rfl rfl (fun location member => ?_) (fun _ mine => mine)
      (fun key seen => ?_) fun key seen => ?_
    · show location ∈ Function.update now.history.hand t _ other
      rw [Function.update_of_ne different]
      exact member
    · show Function.update (now.history.advance geometry now.shared).absent t _ other key
      rw [Function.update_of_ne different]
      exact .inl seen
    · show Function.update (now.history.advance geometry now.shared).absentLocked t _ other key
      rw [Function.update_of_ne different]
      exact .inl seen
  · refine ⟨?_, (allowed location member).trans about⟩
    show location ∈ Function.update now.history.hand t _ t
    rw [Function.update_self]
    exact member

theorem wp_respond {key : Key} {answer : Answer} {post : Unit → TableWorld Tid Key → Prop}
    (created : answer = .inserted (some .created) → world.history.absentLocked t key)
    (absent : answer = .looked .absent → Gone t key world)
    (next : ∀ after, Consistent geometry after → post () after) :
    (singleEntry geometry).wp t (respond key answer) post world := by
  refine Protocol.wp_atomically fun now moved holds _ _ => ?_
  have kept : Consistent geometry
      (now.after (record geometry) t (.respond key answer) fun state => state) := by
    refine ⟨holds.sound, holds.locks, fun answered member => ?_⟩
    rcases List.mem_cons.mp member with rfl | old
    · exact ⟨fun same => .inl (moved.locked key (created same)),
        fun same => moved.gone key (absent same)⟩
    · exact holds.truthful answered old
  refine ⟨kept, fun other different => ?_, next _ kept⟩
  refine rely_beside rfl rfl (fun location member => ?_) (fun _ mine => mine)
    (fun _ seen => .inl seen) fun _ seen => .inl seen
  show location ∈ Function.update now.history.hand t _ other
  rw [Function.update_of_ne different]
  exact member

/-- A stored location that changes its key is published by no slot and in nobody's hand. -/
theorem wp_store {location : Location} {key : Key} {post : Unit → TableWorld Tid Key → Prop}
    (next : ∀ after, Consistent geometry after → post () after) :
    (singleEntry geometry).wp t (store location key) post world := by
  refine Protocol.wp_atomically fun now moved holds allowed _ => ?_
  obtain ⟨nonzero, notGhost, free⟩ := allowed
  have published : ∀ bucket index, (now.shared.slot bucket index).isLive = true →
      Function.update now.shared.item location (some key) (now.shared.slot bucket index).location =
        now.shared.item (now.shared.slot bucket index).location := by
    intro bucket index live
    by_cases here : (now.shared.slot bucket index).location = location
    · rcases free with same | ⟨unnamed, -⟩
      · rw [here, Function.update_self, same]
      · obtain ⟨_, _, _, choice, inside⟩ := holds.sound.placed bucket index live
        exact absurd ⟨bucket, geometry.choice_lt choice, index, inside, live, here⟩ unnamed
    · rw [Function.update_of_ne here]
  have same : ∀ held bucket index,
      Shared.HasEntry { now.shared with
        item := Function.update now.shared.item location (some key) } bucket index held ↔
      now.shared.HasEntry bucket index held := fun held bucket index =>
    and_congr_right fun live =>
      Iff.of_eq (congrArg (· = some held) (published bucket index live))
  have kept : Consistent geometry (now.after (record geometry) t (.store location key) fun state =>
      { state with item := Function.update state.item location (some key) }) := by
    refine consistent_step rfl holds ⟨fun bucket index live => ?_, fun held b i b' i' one two => ?_,
      fun other held holds' => ?_⟩ rfl
    · obtain ⟨held, item, rest⟩ := holds.sound.placed bucket index live
      exact ⟨held, (published bucket index live).trans item, rest⟩
    · exact holds.sound.unique held b i b' i' ((same held b i).mp one) ((same held b' i').mp two)
    · by_cases here : other = location
      · exact here ▸ ⟨nonzero, notGhost⟩
      · replace holds' : Function.update now.shared.item location (some key) other = some held :=
          holds'
        rw [Function.update_of_ne here] at holds'
        exact holds.sound.real other held holds'
  refine ⟨kept, fun other _ => ?_, next _ kept⟩
  refine rely_step rfl (fun taken member => ?_) (fun held _ b i => (same held b i).mp)
    fun held b i entry => .inl ((same held b i).mpr entry)
  show Function.update now.shared.item location (some key) taken = now.shared.item taken
  by_cases here : taken = location
  · subst here
    rcases free with already | ⟨-, nobody⟩
    · rw [Function.update_self, already]
    · exact absurd member (nobody other)
  · rw [Function.update_of_ne here]

/-- A change of what can be pinned is calm. -/
theorem Calm.readable {state : Shared Key} (sound : state.Sound geometry)
    (readable : Location → Bool) : Calm geometry state { state with readable := readable } :=
  ⟨⟨sound.placed, sound.unique, sound.real⟩, rfl, rfl, fun _ _ _ entry => entry,
    fun _ _ _ entry => .inl entry⟩

theorem wp_setReadable {location : Location} {readable : Bool}
    {post : Unit → TableWorld Tid Key → Prop}
    (next : ∀ after, Consistent geometry after → post () after) :
    (singleEntry geometry).wp t (setReadable location readable) post world :=
  wp_calm rfl (fun _ _ holds => .readable holds.sound _) fun _ _ _ after _ kept _ _ =>
    next after kept

end Rules

end CacheRs.Hashtable
