/-
**Reader pins against drains and reuse, over every run.**

Threads run any sequence of acquires, guard drops, drains, reservations, publications, seals and
link patches. A claimant of the release that counted the readers down to zero reads the word only
later: by then another reader may hold a pin.

* `pins_keep_segments`: in every run in which no claimant is overtaken, a pinned segment is neither
  freed nor pushed while the pin is held;
* `overtaken_claimant_frees`: from any configuration in which a claimant is about to load a
  condemned word of a pinned segment, that claimant's next two steps free it;
* `overtaken_run`: three threads reach such a configuration, and a pinned segment in the free queue.
-/

import CacheRs.Segments.ReaderPinSpecs

set_option linter.unusedSectionVars false

namespace CacheRs.Segments

open Concurrency

variable {Tid : Type} [DecidableEq Tid]

/-! ### Threads -/

/-- What a thread may call next. -/
inductive Operation where
  | acquire (id : SegId) (tag : Nat)
  | drop (id : SegId)
  | drain (id : SegId)
  | drainMember (id : SegId)
  | reuse (fromSpare : Bool) (use : Use)
  | fill (id : SegId) (next : Option (Option SegId))
  | publish (id : SegId)
  | relink (id : SegId) (next prev : Option (Option SegId))
  deriving DecidableEq, Repr

/-- Run one operation; the result is the guards held after it. -/
def Operation.run (held : List SegId) : Operation → Prog (List SegId)
  | .acquire id tag => do
    if ← acquireItemAt id tag then return id :: held
    return held
  | .drop id => do
    if id ∈ held then
      dropGuard id
      return held.erase id
    return held
  | .drain id => do
    let _ ← clearSegment id
    return held
  | .drainMember id => do
    CacheRs.Segments.drainMember id
    return held
  | .reuse fromSpare use => do
    match ← (if fromSpare then reserveSpare else reserveFree) with
    | some id =>
      useReserved id use
      return held
    | none => return held
  | .fill id next => do
    let _ ← CacheRs.Segments.fill id .live next
    return held
  | .publish id => do
    let _ ← CacheRs.Segments.fill id .relinking none
    return held
  | .relink id next prev => do
    updateLinks id next prev
    return held

/-- A thread runs its operations one after the other. -/
def runAll (held : List SegId) : List Operation → Prog Unit
  | [] => .ret ()
  | operation :: rest => do
    let held ← operation.run held
    runAll held rest

/-- The heap as it is built: ids from one, the first `spareCapacity` of them spare. -/
def Shared.new (segments spareCapacity : Nat) (initialOffset : Int) : Shared where
  header := fun _ => .new initialOffset
  bucket := fun _ => .new
  freeQueue := (List.range' 1 segments).filter (spareCapacity < ·)
  freed := 0
  spareQueue := (List.range' 1 segments).filter (· ≤ spareCapacity)
  spareCount := spareCapacity
  spareCapacity := spareCapacity
  admissionCount := 0
  initialOffset := initialOffset
  clock := 0

/-- The threads before their first step, each with its operations. -/
def start (segments spareCapacity : Nat) (initialOffset : Int) (scripts : Tid → List Operation) :
    Config Tid Shared Label (History Tid) where
  world := ⟨.new segments spareCapacity initialOffset, fun _ => .new⟩
  thread := fun t => runAll [] (scripts t)

/-- Every pinned segment is out of every queue, and since the pin was taken it has neither become
free nor been pushed. -/
structure PinsKept (world : World Shared (History Tid)) : Prop where
  notFree : ∀ id, ∀ pin ∈ (world.history id).pins,
    (world.shared.header id).metadata.state ≠ .free
  notQueued : ∀ id, ∀ pin ∈ (world.history id).pins,
    id ∉ world.shared.freeQueue ∧ id ∉ world.shared.spareQueue
  notFreed : ∀ id, ∀ pin ∈ (world.history id).pins, (world.history id).freed = pin.freed
  notPushed : ∀ id, ∀ pin ∈ (world.history id).pins, (world.history id).pushed = pin.pushed

section Safety

variable {t : Tid} {world : World Shared (History Tid)} {held : List SegId}

theorem Operation.run_spec (kept : readerPin.inv world) (holds : Holds t held world)
    (operation : Operation) :
    readerPin.wp t (operation.run held) (fun held' after => Holds t held' after) world := by
  cases operation with
  | acquire id tag =>
    refine Protocol.wp_seq kept (acquireItemAt_spec kept holds tag) fun acquired _ _ known => ?_
    cases acquired with
    | true => exact known
    | false => exact known
  | drop id =>
    refine Protocol.wp_ite (fun member => ?_) fun _ => holds
    exact Protocol.wp_seq kept (dropGuard_spec member holds) fun _ _ _ last => last
  | drain id => exact Protocol.wp_seq kept (clearSegment_spec kept holds) fun _ _ _ last => last
  | drainMember id =>
    exact Protocol.wp_seq kept (drainMember_spec kept holds) fun _ _ _ last => last
  | reuse fromSpare use =>
    have reserved : readerPin.wp t (if fromSpare then reserveSpare else reserveFree)
        (fun reserved after => Holds t held after ∧
          ∀ id ∈ reserved, Owns t id .reserved after) world :=
      Protocol.wp_ite (fun _ => reserveSpare_spec kept holds) fun _ => reserveFree_spec kept holds
    refine Protocol.wp_seq kept reserved fun reserved after keptAfter known => ?_
    cases reserved with
    | none => exact known.1
    | some id =>
      exact Protocol.wp_seq keptAfter (useReserved_spec keptAfter (known.2 id rfl) known.1 use)
        fun _ _ _ last => last
  | fill id next => exact Protocol.wp_seq kept (fill_spec (.inl rfl) holds) fun _ _ _ last => last
  | publish id => exact Protocol.wp_seq kept (fill_spec (.inr rfl) holds) fun _ _ _ last => last
  | relink id next prev =>
    exact neutral_updateLinks.andThen kept fun _ _ moved _ => holds.rely moved

theorem runAll_spec (kept : readerPin.inv world) (operations : List Operation)
    (holds : Holds t held world) :
    readerPin.wp t (runAll held operations) (fun _ _ => True) world := by
  induction operations generalizing held world with
  | nil => trivial
  | cons operation rest ih =>
    exact Protocol.wp_seq kept (operation.run_spec kept holds) fun _ _ keptAfter known =>
      ih keptAfter known

/-- At the start each id is in at most one queue, once. -/
theorem start_queued (segments spareCapacity : Nat) (initialOffset : Int) (id : SegId) :
    (Shared.new segments spareCapacity initialOffset).freeQueue.count id +
      (Shared.new segments spareCapacity initialOffset).spareQueue.count id ≤ 1 := by
  have once : (List.range' 1 segments).count id ≤ 1 :=
    List.nodup_iff_count_le_one.mp List.nodup_range' id
  by_cases spare : id ≤ spareCapacity
  · have notFree : id ∉ (List.range' 1 segments).filter (spareCapacity < ·) := by
      simp [spare]
    have inSpare := List.count_filter (l := List.range' 1 segments) (p := (· ≤ spareCapacity))
      (a := id) (by simpa using spare)
    simp only [Shared.new, List.count_eq_zero_of_not_mem notFree, inSpare, Nat.zero_add]
    exact once
  · have notSpare : id ∉ (List.range' 1 segments).filter (· ≤ spareCapacity) := by
      simp [spare]
    have inFree := List.count_filter (l := List.range' 1 segments) (p := (spareCapacity < ·))
      (a := id) (by simpa using spare)
    simp only [Shared.new, List.count_eq_zero_of_not_mem notSpare, inFree, Nat.add_zero]
    exact once

theorem view_start_ok (segments spareCapacity : Nat) (initialOffset : Int)
    (scripts : Tid → List Operation) (id : SegId) :
    (view (start segments spareCapacity initialOffset scripts).world id).Ok := by
  have once := start_queued segments spareCapacity initialOffset id
  refine ⟨rfl, (fun _ member => by cases member), ?_, (fun _ theirs => by cases theirs), ?_,
    (fun waiting => by cases waiting), fun _ => rfl, fun pending => by cases pending⟩
  · rcases Nat.le_one_iff_eq_zero_or_eq_one.mp once with none | one
    · exact .inl none
    · exact .inr ⟨one, rfl, rfl⟩
  · exact fun _ => by simp [view, start, Shared.new, SegmentHeader.new, Metadata.newFree,
      State.Private]

theorem inside_start (segments spareCapacity : Nat) (initialOffset : Int)
    (scripts : Tid → List Operation) :
    readerPin.Inside (start segments spareCapacity initialOffset scripts) := by
  have kept : readerPin.inv (start segments spareCapacity initialOffset scripts).world :=
    view_start_ok segments spareCapacity initialOffset scripts
  exact ⟨kept, fun t => runAll_spec kept (scripts t) fun id => rfl⟩

/-- The invariant keeps pinned segments out of the queues. -/
theorem pinsKept_of_inv (kept : readerPin.inv world) : PinsKept world := by
  have pinnable : ∀ id, ∀ pin ∈ (world.history id).pins,
      (world.shared.header id).metadata.state ≠ .free := by
    intro id pin member free
    have state := ((kept id).pinned pin member).1
    have here : (view world id).metadata.state = .free := free
    rw [here] at state
    rcases state with now | now | now | now | now <;> cases now
  refine ⟨pinnable, fun id pin member => ?_, fun id pin member =>
    ((kept id).pinned pin member).2.1.symm, fun id pin member =>
    ((kept id).pinned pin member).2.2.symm⟩
  have none : world.shared.freeQueue.count id + world.shared.spareQueue.count id = 0 :=
    (kept id).not_queued (pinnable id pin member)
  exact ⟨List.count_eq_zero.mp (by omega), List.count_eq_zero.mp (by omega)⟩

/-- **Reader pins keep their segments.** In every run in which every claimant that finds a segment
condemned finds it unpinned, and exchanges the word within 256 incarnations of loading it, a pinned
segment is never freed and never pushed onto a queue. -/
theorem pins_keep_segments (segments spareCapacity : Nat) (initialOffset : Int)
    (scripts : Tid → List Operation) {config : Config Tid Shared Label (History Tid)}
    (reached : Reachable record NotOvertaken (start segments spareCapacity initialOffset scripts)
      config) : PinsKept config.world :=
  pinsKept_of_inv
    (Protocol.sound (inside_start segments spareCapacity initialOffset scripts) reached).1

/-- Two steps of an overtaken claimant free the segment under the pin. -/
theorem overtaken_claimant_frees {config : Config Tid Shared Label (History Tid)} {id : SegId}
    {rest : Bool → Prog Unit} (claimant : config.thread t = (tryReleaseCondemned id).bind rest)
    (waiting : (config.world.shared.header id).metadata.state = .awaitingRelease)
    (pinned : (config.world.history id).pins ≠ []) :
    ∃ loaded freed, config.next record t = some loaded ∧ loaded.next record t = some freed ∧
      ¬ PinsKept freed.world := by
  obtain ⟨pin, member⟩ := List.exists_mem_of_ne_nil _ pinned
  have loading : config.thread t = (load (.claimantLoad id) id (·.metadata)).bind fun current =>
      (if current.state ≠ .awaitingRelease then Program.ret false
      else (exchange (.claimantExchange id current) id current .newFree).bind fun failed =>
        if failed.isSome then .ret false else (bumpGeneration id).bind fun _ => .ret true).bind rest :=
    claimant
  have exchanging : Function.update config.thread t
      ((if (config.world.shared.header id).metadata.state ≠ .awaitingRelease then Program.ret false
      else (exchange (.claimantExchange id (config.world.shared.header id).metadata) id
        (config.world.shared.header id).metadata .newFree).bind fun failed =>
          if failed.isSome then .ret false
          else (bumpGeneration id).bind fun _ => .ret true).bind rest) t =
      (exchange (.claimantExchange id (config.world.shared.header id).metadata) id
        (config.world.shared.header id).metadata .newFree).bind fun failed =>
          (if failed.isSome then Program.ret false
          else (bumpGeneration id).bind fun _ => .ret true).bind rest := by
    rw [Function.update_self, if_neg (not_not_intro waiting)]
    rfl
  refine ⟨_, _, Config.next_atomically loading, Config.next_atomically exchanging, fun kept => ?_⟩
  have loaded : Touches config.world _ id _ := touches_claimantLoad config.world t id
  have freed : Touches (config.world.after record t (.claimantLoad id) fun state => state) _ id _ :=
    touches_claimantExchange _ t id (congrArg (·.metadata) loaded.1)
  have pins := (congrArg (·.ledger.pins) freed.1).trans
    ((moved_pins _ _).trans (congrArg (·.ledger.pins) loaded.1))
  exact kept.notFree id pin (pins ▸ member) (congrArg (·.metadata.state) freed.1)

end Safety

/-! ### A claimant overtaken -/

/-- No thread stalls across 256 incarnations between a claimant's load and its exchange. -/
def notStalled (t : Nat) (label : Label) (world : World Shared (History Nat)) : Bool :=
  match label with
  | .claimantExchange id _ => (world.history id).ended < (world.history id).loadedAt t + 2 ^ 8
  | _ => true

/-- The operations of three threads on a heap of one segment: two readers, and a thread that puts
the segment into service, seals it and drains it. -/
def overtakenScripts : Nat → List Operation
  | 0 => [.acquire 1 0, .drop 1]
  | 1 => [.acquire 1 0]
  | 2 => [.reuse false (.tail none none), .fill 1 none, .drain 1]
  | _ => []

/-- Reader 0 drops the last pin of the sealed segment and stops before loading the word; reader 1
pins the segment; thread 2 drains it, and condemns it to reader 1. -/
def condemnedSchedule : List Nat :=
  List.replicate 21 2 ++ List.replicate 6 0 ++ List.replicate 4 1 ++ List.replicate 13 2

/-- Reader 0 goes on: it loads the condemned word, frees the segment and pushes it. -/
def overtakenSchedule : List Nat := condemnedSchedule ++ List.replicate 10 0

/-- **An overtaken claimant frees a pinned segment.** -/
theorem overtaken_run :
    ∃ config, Reachable record (fun t label world => notStalled t label world = true)
      (start 1 0 0 overtakenScripts) config ∧ ¬ PinsKept config.world := by
  obtain ⟨config, reached, ends⟩ := exists_reachable record notStalled
    (start 1 0 0 overtakenScripts) overtakenSchedule
    (fun world => (world.history 1).pins.length = 1 && 1 ∈ world.shared.freeQueue)
    (by decide +kernel)
  refine ⟨config, reached, fun kept => ?_⟩
  simp only [Bool.and_eq_true, decide_eq_true_eq] at ends
  obtain ⟨pin, member⟩ := List.exists_mem_of_length_pos (by omega : 0 < (config.world.history 1).pins.length)
  exact (kept.notQueued 1 pin member).1 ends.2

/-- The same run up to the condemnation overtakes no claimant, and keeps the pin. -/
theorem pins_keep_condemned :
    ∃ config, Reachable record NotOvertaken (start 1 0 0 overtakenScripts) config ∧
      ((config.world.history 1).pins.length = 1 ∧
        (config.world.shared.header 1).metadata.state = .awaitingRelease) ∧
      PinsKept config.world := by
  obtain ⟨config, reached, ends⟩ := exists_reachable record
    (fun t label world => decide (NotOvertaken t label world))
    (start 1 0 0 overtakenScripts) condemnedSchedule
    (fun world => (world.history 1).pins.length = 1 &&
      (world.shared.header 1).metadata.state = .awaitingRelease) (by decide +kernel)
  have meets : Reachable record NotOvertaken (start 1 0 0 overtakenScripts) config :=
    reached.weaken fun _ _ _ => of_decide_eq_true
  exact ⟨config, meets, by simpa using ends, pins_keep_segments 1 0 0 overtakenScripts meets⟩

end CacheRs.Segments
