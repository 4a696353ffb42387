/-
**Drains exclude pins, over every run.**

Threads run any sequence of writer pins, removals, drains, reservations, publications, seals, link
patches and reads, on any segments and in any order; a claimed segment may be kept while its thread
does other things, and so may a pin.

* `drains_exclusive`: in every run at most one thread drains a segment; once its waits have ended, no
  pin is held or granted until the segment is back in service; and while a pin is held, the
  segment's generation and write statistics stay.
-/

import CacheRs.Segments.DrainSpecs
import CacheRs.Segments.ReaderPinSafety

set_option linter.unusedSectionVars false

namespace CacheRs.Segments.Drains

open Concurrency

variable {Tid : Type} [DecidableEq Tid]

/-! ### Threads -/

/-- What a thread may call next. -/
inductive Operation where
  /-- `try_pin_writer` or `try_pin_remover`, and the drop of the pin. -/
  | pin (kind : PinKind) (id : SegId)
  | unpin (kind : PinKind) (id : SegId)
  /-- Reserve space in a segment, keeping the writer's pin. -/
  | alloc (id : SegId) (size segmentSize : Int)
  | removeItem (id : SegId) (size : Int)
  /-- `claim_for_drain`, and the claim of the drain walk. -/
  | claim (id : SegId)
  | claimMember (id : SegId)
  /-- What the drainer of a segment does with it. -/
  | relocate (source target : SegId) (size offset : Int)
  | sweep (id : SegId)
  | finalize (id : SegId)
  | retire (id : SegId) (next prev : Option SegId)
  /-- Reserve a segment, and put it to a use. -/
  | reserve (fromSpare : Bool)
  | use (id : SegId) (purpose : Use)
  | fill (id : SegId) (next : Option (Option SegId))
  | publish (id : SegId)
  | relink (id : SegId) (next prev : Option (Option SegId))
  | acquire (id : SegId) (tag : Nat)
  | drop (id : SegId)
  deriving DecidableEq, Repr

/-- Whether a hand has its segment in a state. -/
def Hand.has (hand : Hand) (state : State) : Bool :=
  hand.custody.any fun custody => custody.state = state

/-- Whether a hand has a claimed segment whose waits have ended. -/
def Hand.drained (hand : Hand) : Bool :=
  hand.custody.any fun custody =>
    custody.state = .draining && custody.waited .writer && custody.waited .remover

/-- Run one operation; the result is what the thread holds after it. -/
def Operation.run (hands : Hands) : Operation → Prog Hands
  | .pin kind id => do
    if ← tryPin id kind then return Function.update hands id ((hands id).gain kind)
    return hands
  | .unpin kind id => do
    if 0 < (hands id).pins kind then
      releasePin id kind
      return Function.update hands id ((hands id).drop kind)
    return hands
  | .alloc id size segmentSize => do
    match ← tryAllocItem id size segmentSize with
    | .reserved _ _ => return Function.update hands id ((hands id).gain .writer)
    | .full => return hands
    | .notWritable => return hands
  | .removeItem id size => do
    removeItemAt id size
    return hands
  | .claim id => do
    if ← claimForDrain id then return hands.drain id
    return hands
  | .claimMember id => do
    if ← CacheRs.Segments.claimMember id then return hands.drain id
    return hands
  | .relocate source target size offset => do
    accountCopied source target size offset
    return hands
  | .sweep id => do
    if (hands id).drained then endSweep id
    return hands
  | .finalize id => do
    if (hands id).drained then
      let _ ← finalizeDrained id
      return hands.put id none
    return hands
  | .retire id next prev => do
    if (hands id).drained then
      let _ ← CacheRs.Segments.retire id next prev
      return hands.put id none
    return hands
  | .reserve fromSpare => do
    let reserved ← (if fromSpare then reserveSpare else reserveFree)
    return taken hands reserved .reserved
  | .use id purpose => do
    if (hands id).has .reserved then
      useReserved id purpose
      return hands.put id none
    return hands
  | .fill id next => do
    let _ ← CacheRs.Segments.fill id .live next
    return hands
  | .publish id => do
    let _ ← CacheRs.Segments.fill id .relinking none
    return hands
  | .relink id next prev => do
    updateLinks id next prev
    return hands
  | .acquire id tag => do
    let _ ← acquireItemAt id tag
    return hands
  | .drop id => do
    dropGuard id
    return hands

/-- A thread runs its operations one after the other. -/
def runAll (hands : Hands) : List Operation → Prog Unit
  | [] => .ret ()
  | operation :: rest => do
    let hands ← operation.run hands
    runAll hands rest

/-- The threads before their first step, each with its operations. -/
def start (segments spareCapacity : Nat) (initialOffset : Int) (scripts : Tid → List Operation) :
    Config Tid Shared Label (History Tid) where
  world := ⟨.new segments spareCapacity initialOffset, fun _ => .new⟩
  thread := fun t => runAll (fun _ => .empty) (scripts t)

/-- Pins and drains exclude each other on every segment. -/
structure Exclusive (world : World Shared (History Tid)) : Prop where
  oneDrainer : ∀ id, (world.history id).drainers.length ≤ 1
  draining : ∀ id, (world.history id).drainers ≠ [] ↔
    (world.shared.header id).metadata.state = .draining
  /-- From the end of the drainer's waits until the segment is back in service. -/
  closed : ∀ id, (∀ kind, (world.history id).waited kind = true) →
    ∀ kind, (world.history id).granted kind = []
  generation : ∀ id kind, ∀ grant ∈ (world.history id).granted kind,
    (world.shared.header id).generation = grant.generation ∧
      (world.history id).bumps = grant.bumps
  statistics : ∀ id kind, ∀ grant ∈ (world.history id).granted kind,
    (world.history id).resets = grant.resets

section Safety

variable {t : Tid} {world : World Shared (History Tid)} {hands : Hands} {id : SegId}

theorem Holds.weaken {other : Hands} (holds : Holds t hands world)
    (weaker : ∀ id v, Known t (hands id, none) v → Known t (other id, none) v) :
    Holds t other world :=
  fun id => weaker id _ (holds id)

/-- A thread that has a segment in a state may forget its waits. -/
theorem Holds.have {state : State} (holds : Holds t hands world) (has : (hands id).has state = true) :
    Holds t (hands.put id (some state)) world := by
  refine holds.weaken fun other v known => ?_
  by_cases same : other = id
  · subst same
    refine ⟨fun custody mine => ?_, fun kind => ?_, known.entering⟩
    · rw [Hands.put_self] at mine
      cases mine
      cases custody : (hands other).custody with
      | none => simp [Hand.has, custody] at has
      | some mine =>
        obtain ⟨owner, here, -⟩ := known.custody mine custody
        have now : mine.state = state := by
          simpa [Hand.has, custody] using has
        exact ⟨owner, here.trans now, fun kind ended => by cases ended⟩
    · rw [Hands.put_self]
      exact known.pins kind
  · rw [Hands.put, Function.update_of_ne same]
    exact known

theorem Holds.drained (holds : Holds t hands world) (drained : (hands id).drained = true) :
    Holds t (hands.drain id) world := by
  refine holds.weaken fun other v known => ?_
  by_cases same : other = id
  · subst same
    refine ⟨fun custody mine => ?_, fun kind => ?_, known.entering⟩
    · rw [Hands.drain_custody] at mine
      cases mine
      cases custody : (hands other).custody with
      | none => simp [Hand.drained, custody] at drained
      | some mine =>
        obtain ⟨owner, here, waited⟩ := known.custody mine custody
        have ended : (mine.state = .draining ∧ mine.waited .writer = true) ∧
            mine.waited .remover = true := by
          simpa [Hand.drained, custody] using drained
        refine ⟨owner, here.trans ended.1.1, fun kind _ => waited kind ?_⟩
        cases kind with
        | writer => exact ended.1.2
        | remover => exact ended.2
    · simp only [Hands.drain, Function.update_self]
      exact known.pins kind
  · simp only [Hands.drain, Function.update_of_ne same]
    exact known

theorem neutral_tally {change : SegmentHeader → SegmentHeader}
    (metadata : ∀ header, (change header).metadata = header.metadata)
    (writers : ∀ header, (change header).activeWriters = header.activeWriters)
    (removers : ∀ header, (change header).activeRemovers = header.activeRemovers)
    (generation : ∀ header, (change header).generation = header.generation) :
    pinDrain.Neutral t (store id change) :=
  neutral_store (aside_of metadata writers removers generation)

theorem neutral_removeItemAt {size : Int} : pinDrain.Neutral t (removeItemAt id size) := by
  have decr : pinDrain.Neutral t (decrItem id size) :=
    .bind (neutral_tally (fun _ => rfl) (fun _ => rfl) (fun _ => rfl) fun _ => rfl) fun _ =>
      neutral_tally (fun _ => rfl) (fun _ => rfl) (fun _ => rfl) fun _ => rfl
  have incr : pinDrain.Neutral t (incrDeadItem id size) :=
    .bind (neutral_tally (fun _ => rfl) (fun _ => rfl) (fun _ => rfl) fun _ => rfl) fun _ =>
      neutral_tally (fun _ => rfl) (fun _ => rfl) (fun _ => rfl) fun _ => rfl
  refine .bind decr fun _ => .bind incr fun _ => ?_
  refine .bind (neutral_load fun _ _ _ => rfl) fun _ => .bind neutral_assertThat fun _ => ?_
  exact .bind (neutral_load fun _ _ _ => rfl) fun _ => neutral_assertThat

theorem neutral_incrLiveItems : pinDrain.Neutral t (incrLiveItems id) :=
  neutral_tally (fun _ => rfl) (fun _ => rfl) (fun _ => rfl) fun _ => rfl

theorem neutral_incrLiveBytes {bytes : Int} : pinDrain.Neutral t (incrLiveBytes id bytes) :=
  neutral_tally (fun _ => rfl) (fun _ => rfl) (fun _ => rfl) fun _ => rfl

theorem neutral_accountCopied {source target : SegId} {size offset : Int} :
    pinDrain.Neutral t (accountCopied source target size offset) := by
  have decr : pinDrain.Neutral t (decrDeadItem source size) :=
    .bind (neutral_tally (fun _ => rfl) (fun _ => rfl) (fun _ => rfl) fun _ => rfl) fun _ =>
      neutral_tally (fun _ => rfl) (fun _ => rfl) (fun _ => rfl) fun _ => rfl
  refine .bind neutral_removeItemAt fun _ => .bind decr fun _ => ?_
  refine .bind neutral_incrLiveItems fun _ => .bind neutral_incrLiveBytes fun _ => ?_
  exact neutral_tally (fun _ => rfl) (fun _ => rfl) (fun _ => rfl) fun _ => rfl

theorem neutral_tryReserveSpace {size capacity : Int} :
    pinDrain.Neutral t (tryReserveSpace id size capacity) := by
  refine .bind neutral_assertThat fun _ => .bind (neutral_load fun _ _ _ => rfl) fun current => ?_
  refine .repeatUntil fun current => .ite (.ret _) (.bind (neutral_unseen (fun _ _ _ => rfl)
    fun now other => ?_) fun observed => ?_)
  · have aside : Aside fun header : SegmentHeader =>
        { header with writeOffset := current + size } :=
      aside_of (fun _ => rfl) (fun _ => rfl) (fun _ => rfl) fun _ => rfl
    by_cases same : (now.shared.header id).writeOffset = current
    · rw [if_pos same]
      exact view_modifyHeader aside other
    · rw [if_neg same]
  · cases observed with
    | none => exact .ret _
    | some observed => exact .ret _

/-- Reserving space keeps a writer's pin exactly when it succeeds. -/
theorem tryAllocItem_spec (kept : pinDrain.inv world) (holds : Holds t hands world)
    (size segmentSize : Int) :
    pinDrain.wp t (tryAllocItem id size segmentSize) (fun outcome after => match outcome with
      | .reserved _ _ => Holds t (Function.update hands id ((hands id).gain .writer)) after
      | .full => Holds t hands after
      | .notWritable => Holds t hands after) world := by
  unfold tryAllocItem
  refine Protocol.wp_seq kept (tryPin_spec kept holds) fun pinned first keptFirst held => ?_
  cases pinned with
  | false => exact held
  | true =>
    have gained : Holds t (Function.update hands id ((hands id).gain .writer)) first := held
    refine neutral_tryReserveSpace.andThen keptFirst fun granted second moved keptSecond => ?_
    cases granted with
    | none =>
      have pinnedOnce : 0 < (Function.update hands id ((hands id).gain .writer) id).pins .writer := by
        simp [Hand.gain]
      refine Protocol.wp_seq keptSecond (releasePin_spec pinnedOnce (gained.rely moved))
        fun _ third _ held => ?_
      have back : Function.update (Function.update hands id ((hands id).gain .writer)) id
          ((Function.update hands id ((hands id).gain .writer) id).drop .writer) = hands := by
        simp [Hand.gain, Hand.drop]
      rw [back] at held
      exact held
    | some offset =>
      refine neutral_incrLiveItems.andThen keptSecond fun _ third moved' keptThird => ?_
      refine neutral_incrLiveBytes.andThen keptThird fun _ fourth moved'' keptFourth => ?_
      refine (neutral_load fun _ _ _ => rfl).andThen keptFourth fun _ fifth last _ => ?_
      exact (((gained.rely moved).rely moved').rely moved'').rely last

/-- The hand of a segment that has been waited for. -/
theorem Hand.closed_of_drained {hand : Hand} (drained : hand.drained = true) : hand.Closed := by
  cases custody : hand.custody with
  | none => simp [Hand.drained, custody] at drained
  | some mine =>
    have ended : (mine.state = .draining ∧ mine.waited .writer = true) ∧
        mine.waited .remover = true := by
      simpa [Hand.drained, custody] using drained
    refine ⟨mine, custody, fun _ kind => ?_⟩
    cases kind with
    | writer => exact ended.1.2
    | remover => exact ended.2

theorem endSweep_spec (kept : pinDrain.inv world) (closed : (hands id).Closed)
    (holds : Holds t hands world) : pinDrain.wp t (endSweep id) (fun _ => Holds t hands) world := by
  refine (neutral_load fun _ _ _ => rfl).andThen kept fun liveBytes first moved _ => ?_
  exact resetStats_spec (aside_of (fun _ => rfl) (fun _ => rfl) (fun _ => rfl) fun _ => rfl) closed
    (holds.rely moved)

theorem useReserved_spec (kept : pinDrain.inv world) (purpose : Use)
    (holds : Holds t (hands.put id (some .reserved)) world) :
    pinDrain.wp t (useReserved id purpose) (fun _ => Holds t (hands.put id none)) world := by
  cases purpose with
  | giveBack => exact releaseUnused_spec kept holds
  | tail next prev => exact linkAndPublish_spec (.inl rfl) kept holds
  | destination next prev => exact linkAndPublish_spec (.inr rfl) kept holds

/-- Every operation turns what a thread holds into what it returns. -/
theorem Operation.run_spec (kept : pinDrain.inv world) (holds : Holds t hands world)
    (operation : Operation) :
    pinDrain.wp t (operation.run hands) (fun hands' => Holds t hands') world := by
  cases operation with
  | pin kind id =>
    refine Protocol.wp_seq kept (tryPin_spec kept holds) fun pinned _ _ held => ?_
    cases pinned with
    | true => exact held
    | false => exact held
  | unpin kind id =>
    refine Protocol.wp_ite (fun some => ?_) fun _ => holds
    exact Protocol.wp_seq kept (releasePin_spec some holds) fun _ _ _ last => last
  | alloc id size segmentSize =>
    refine Protocol.wp_seq kept (tryAllocItem_spec kept holds size segmentSize)
      fun outcome _ _ held => ?_
    cases outcome with
    | reserved generation offset => exact held
    | full => exact held
    | notWritable => exact held
  | removeItem id size => exact neutral_removeItemAt.andThen kept fun _ _ moved _ => holds.rely moved
  | claim id =>
    refine Protocol.wp_seq kept (claimForDrain_spec kept holds) fun won _ _ held => ?_
    cases won with
    | true => exact held
    | false => exact held
  | claimMember id =>
    refine Protocol.wp_seq kept (claimMember_spec kept holds) fun won _ _ held => ?_
    cases won with
    | true => exact held
    | false => exact held
  | relocate source target size offset =>
    exact neutral_accountCopied.andThen kept fun _ _ moved _ => holds.rely moved
  | sweep id =>
    refine Protocol.wp_ite (fun drained => ?_) fun _ => holds
    exact Protocol.wp_seq kept (endSweep_spec kept (Hand.closed_of_drained drained) holds)
      fun _ _ _ last => last
  | finalize id =>
    refine Protocol.wp_ite (fun drained => ?_) fun _ => holds
    refine Protocol.wp_seq kept (neutral_metadata.andThen kept fun _ _ moved keptNext => ?_)
      fun _ _ _ last => last
    exact retire_spec keptNext _ _ ((holds.drained drained).rely moved)
  | retire id next prev =>
    refine Protocol.wp_ite (fun drained => ?_) fun _ => holds
    exact Protocol.wp_seq kept (retire_spec kept next prev (holds.drained drained))
      fun _ _ _ last => last
  | reserve fromSpare =>
    have reserved : pinDrain.wp t (if fromSpare then reserveSpare else reserveFree)
        (fun reserved after => Holds t (taken hands reserved .reserved) after ∧
          ∀ id ∈ reserved, (hands id).custody = none) world :=
      Protocol.wp_ite (fun _ => reserveSpare_spec kept holds) fun _ => reserveFree_spec kept holds
    exact Protocol.wp_seq kept reserved fun _ _ _ known => known.1
  | use id purpose =>
    refine Protocol.wp_ite (fun has => ?_) fun _ => holds
    exact Protocol.wp_seq kept (useReserved_spec kept purpose (holds.have has))
      fun _ _ _ last => last
  | fill id next => exact Protocol.wp_seq kept (fill_spec (.inl rfl) kept holds) fun _ _ _ last => last
  | publish id =>
    exact Protocol.wp_seq kept (fill_spec (.inr rfl) kept holds) fun _ _ _ last => last
  | relink id next prev =>
    exact neutral_updateLinks.andThen kept fun _ _ moved _ => holds.rely moved
  | acquire id tag =>
    exact Protocol.wp_seq kept (acquireItemAt_spec kept holds tag) fun _ _ _ last => last
  | drop id => exact Protocol.wp_seq kept (dropGuard_spec kept holds) fun _ _ _ last => last

theorem runAll_spec (kept : pinDrain.inv world) (operations : List Operation)
    (holds : Holds t hands world) :
    pinDrain.wp t (runAll hands operations) (fun _ _ => True) world := by
  induction operations generalizing hands world with
  | nil => trivial
  | cons operation rest ih =>
    exact Protocol.wp_seq kept (operation.run_spec kept holds) fun _ _ keptAfter known =>
      ih keptAfter known

theorem view_start_ok (segments spareCapacity : Nat) (initialOffset : Int)
    (scripts : Tid → List Operation) (id : SegId) :
    (view (start segments spareCapacity initialOffset scripts).world id).Ok := by
  have once := start_queued segments spareCapacity initialOffset id
  refine ⟨fun kind => ?_, (fun _ _ member => by cases member), fun _ _ => rfl, rfl, ?_,
    (fun _ theirs => by cases theirs), fun _ => .inl rfl⟩
  · cases kind <;> rfl
  · rcases Nat.le_one_iff_eq_zero_or_eq_one.mp once with none | one
    · exact .inl none
    · exact .inr ⟨one, rfl, rfl⟩

theorem inside_start (segments spareCapacity : Nat) (initialOffset : Int)
    (scripts : Tid → List Operation) :
    pinDrain.Inside (start segments spareCapacity initialOffset scripts) := by
  have kept : pinDrain.inv (start segments spareCapacity initialOffset scripts).world :=
    view_start_ok segments spareCapacity initialOffset scripts
  refine ⟨kept, fun t => runAll_spec kept (scripts t) fun id => ?_⟩
  exact ⟨(fun _ mine => by cases mine), fun _ => rfl, fun _ inside => by cases inside⟩

/-- The invariant keeps pins and drains apart. -/
theorem exclusive_of_inv (kept : pinDrain.inv world) : Exclusive world := by
  have drainers : ∀ id, (world.history id).drainers =
      if (world.shared.header id).metadata.state = .draining then (world.history id).owner.toList
      else [] := fun id => (kept id).drained
  refine ⟨fun id => ?_, fun id => ?_, fun id waited kind => ?_, fun id kind grant member => ?_,
    fun id kind grant member => ?_⟩
  · rw [drainers id]
    split
    · cases (world.history id).owner <;> simp
    · simp
  · rw [drainers id]
    refine ⟨fun some => ?_, fun draining => ?_⟩
    · by_contra elsewhere
      exact some (if_neg elsewhere)
    · rw [if_pos draining]
      cases owner : (world.history id).owner with
      | some holder => simp
      | none =>
        rcases (kept id).unowned owner with free | withheld
        · cases free.symm.trans draining
        · have away : Withheld (world.shared.header id).metadata.state = false := withheld
          rw [draining] at away
          cases away
  · refine List.eq_nil_iff_forall_not_mem.mpr fun grant member => ?_
    rcases ((kept id).granted kind grant member).1 with served | ⟨-, waiting⟩
    · cases ((kept id).opened served kind).symm.trans (waited kind)
    · cases waiting.symm.trans (waited kind)
  · obtain ⟨-, generation, bumps, -⟩ := (kept id).granted kind grant member
    exact ⟨generation.symm, bumps.symm⟩
  · exact ((kept id).granted kind grant member).2.2.2.symm

/-- **Drains exclude pins.** In every run at most one thread drains a segment at a time; from the end
of its waits until the segment is back in service no pin is held; and while a pin is held the
segment's generation stays and its write statistics are not reset. -/
theorem drains_exclusive (segments spareCapacity : Nat) (initialOffset : Int)
    (scripts : Tid → List Operation) {config : Config Tid Shared Label (History Tid)}
    (reached : Reachable record (fun _ _ _ => True)
      (start segments spareCapacity initialOffset scripts) config) : Exclusive config.world :=
  exclusive_of_inv
    (Protocol.sound (inside_start segments spareCapacity initialOffset scripts) reached).1

end Safety

/-! ### A drain behind a pin -/

/-- A writer that puts the only segment into service and pins it, and a drainer. -/
def pinnedScripts : Nat → List Operation
  | 0 => [.reserve false, .use 1 (.tail none none), .pin .writer 1]
  | 1 => [.claimMember 1]
  | _ => []

/-- The writer runs to its end; the drainer wins its claim and waits. -/
def pinnedSchedule : List Nat := List.replicate 22 0 ++ List.replicate 3 1

/-- The drainer waits for the pin, and everything is in order. -/
theorem drains_exclusive_pinned :
    ∃ config, Reachable record (fun _ _ _ => True) (start 1 0 0 pinnedScripts) config ∧
      ((config.world.history 1).drainers = [1] ∧
        ((config.world.history 1).granted .writer).length = 1) ∧
      Exclusive config.world := by
  obtain ⟨config, reached, ends⟩ := exists_reachable record (fun _ _ _ => true)
    (start 1 0 0 pinnedScripts) pinnedSchedule
    (fun world => (world.history 1).drainers = [1] &&
      ((world.history 1).granted .writer).length = 1) (by decide +kernel)
  have meets : Reachable record (fun _ _ _ => True) (start 1 0 0 pinnedScripts) config :=
    reached.weaken fun _ _ _ _ => trivial
  exact ⟨config, meets, by simpa using ends, drains_exclusive 1 0 0 pinnedScripts meets⟩

end CacheRs.Segments.Drains
