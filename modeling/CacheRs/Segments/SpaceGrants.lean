/-
**Space grants.**

Writers reserve space in a segment by exchanging its write offset in a retry loop, any number of them
at a time. A history beside the segment lists the ranges that were granted, the sums that were
exchanged, and for each call what it returned and the offset it had last read.

* `tryReserveSpace`, `erase_tryReserveSpace`: the reservation under finer labels;
* `GrantsOk`: the ranges are laid end to end, and every call was told the truth;
* `exchange_spec`, `tryReserveSpace_spec`, `runAll_spec`: one exchange, one call, a thread's calls;
* `space_granted`: **in every run the grants are disjoint, lie within the segment and tile it up to
  the write offset**.
-/

import CacheRs.Concurrency.Layer
import CacheRs.Lists.Spans
import CacheRs.Segments.ReaderPinSafety

namespace CacheRs.Segments.Grants

open Concurrency Spans

/-- The least `i32`. -/
def i32Min : Int := -2 ^ 31

/-- The steps of a reservation on the write offset. -/
inductive GrantLabel where
  | base (label : Label)
  | load
  | exchange (current size : Int)
  /-- The caller has its answer. -/
  | returned (size : Int) (outcome : Option Int)

def GrantLabel.erase : GrantLabel → Label
  | .base label => label
  | .load | .exchange _ _ | .returned _ _ => .other

abbrev GrantProg := Program Shared GrantLabel

variable (id : SegId)

/-- Exchange the write offset; `some observed` is the offset that made it fail. -/
def exchangeOffset (current size : Int) : GrantProg (Option Int) :=
  .atomically (.exchange current size) fun state : Shared =>
    if (state.header id).writeOffset = current then
      (none, state.modifyHeader id fun header => { header with writeOffset := current + size })
    else (some (state.header id).writeOffset, state)

def tryReserveSpace (size capacity : Int) : GrantProg (Option Int) := do
  (assertThat (size > 0)).relabel .base
  let current ← Program.atomically .load fun state : Shared => ((state.header id).writeOffset, state)
  Program.repeatUntil (fun current => do
    if current + size > i32Max || current + size > capacity then return .inr none
    match ← exchangeOffset id current size with
    | none => return .inr (some current)
    | some observed => return .inl observed) current

/-- A call, up to the moment its caller has the answer. -/
def call (capacity size : Int) : GrantProg Unit := do
  let outcome ← tryReserveSpace id size capacity
  Program.atomically (.returned size outcome) fun state : Shared => ((), state)

/-- A thread's calls. -/
def runAll (capacity : Int) (sizes : List Int) : GrantProg Unit :=
  Program.sequence (sizes.map (call id capacity))

/-- **Without its labels it is the reservation of the segments' model.** -/
theorem erase_tryReserveSpace (size capacity : Int) :
    (tryReserveSpace id size capacity).relabel GrantLabel.erase
      = Segments.tryReserveSpace id size capacity := by
  simp only [tryReserveSpace, Segments.tryReserveSpace, Program.bind_eq, Program.relabel_bind]
  congr 1
  funext _
  congr 1
  funext current
  simp only [Program.repeatUntil, Program.relabel]
  congr 1
  funext again
  rw [Program.relabel_ite, Program.relabel_bind]
  congr 2
  funext observed
  cases observed <;> rfl

/-! ### Histories -/

/-- A range of a segment, granted to a thread. -/
structure Grant (Tid : Type) where
  holder : Tid
  offset : Int
  size : Int
  deriving DecidableEq, Repr

def Grant.range {Tid : Type} (grant : Grant Tid) : Int × Int := (grant.offset, grant.size)

/-- What a call returned, with the offset it had last read. -/
structure Return (Tid : Type) where
  caller : Tid
  size : Int
  outcome : Option Int
  seen : Int
  deriving DecidableEq, Repr

/-- What has happened to a segment's space. -/
structure GrantHistory (Tid : Type) where
  /-- The ranges granted, in the order of the exchanges. -/
  grants : List (Grant Tid)
  /-- The sums that were to be exchanged. -/
  sums : List Int
  /-- The write offset at each thread's last read of it. -/
  seen : Tid → Int
  returns : List (Return Tid)

variable {Tid : Type} [DecidableEq Tid]

namespace GrantHistory

def new : GrantHistory Tid := ⟨[], [], fun _ => 0, []⟩

/-- The ranges granted to a thread. -/
def grantedTo (history : GrantHistory Tid) (t : Tid) : List (Int × Int) :=
  (history.grants.filter (·.holder = t)).map Grant.range

/-- The ranges a thread's calls returned. -/
def returnedTo (history : GrantHistory Tid) (t : Tid) : List (Int × Int) :=
  (history.returns.filter (·.caller = t)).filterMap fun done => done.outcome.map (·, done.size)

end GrantHistory

/-- Enter a step in the history. -/
def record (t : Tid) (label : GrantLabel) (state : Shared) (history : GrantHistory Tid) :
    GrantHistory Tid :=
  let offset := (state.header id).writeOffset
  match label with
  | .base _ => history
  | .load => { history with seen := Function.update history.seen t offset }
  | .exchange current size =>
    let tried := { history with sums := (current + size) :: history.sums }
    if offset = current then { tried with grants := history.grants ++ [⟨t, current, size⟩] }
    else { tried with seen := Function.update history.seen t offset }
  | .returned size outcome =>
    { history with returns := history.returns ++ [⟨t, size, outcome, history.seen t⟩] }

abbrev GrantWorld (Tid : Type) := World Shared (GrantHistory Tid)

/-- The ranges are laid end to end up to the write offset, and every call was told the truth. -/
structure GrantsOk (initial capacity : Int) (world : GrantWorld Tid) : Prop where
  spanned : Spanned initial (world.history.grants.map Grant.range)
    (world.shared.header id).writeOffset
  positive : ∀ grant ∈ world.history.grants, 0 < grant.size
  within : (world.shared.header id).writeOffset ≤ capacity
  sums : ∀ sum ∈ world.history.sums, i32Min ≤ sum ∧ sum ≤ i32Max
  refused : ∀ done ∈ world.history.returns, done.outcome = none → capacity < done.seen + done.size
  handed : ∀ t, world.history.returnedTo t <+: world.history.grantedTo t

/-- What thread `t` relies on while others step: its own entries stay. -/
structure GrantsRely (t : Tid) (world after : GrantWorld Tid) : Prop where
  granted : after.history.grantedTo t = world.history.grantedTo t
  returned : after.history.returnedTo t = world.history.returnedTo t
  seen : after.history.seen t = world.history.seen t

/-- The protocol of reservations. -/
def reservations (initial capacity : Int) : Protocol Tid Shared GrantLabel (GrantHistory Tid) where
  record := record id
  allowed _ _ _ := True
  inv := GrantsOk id initial capacity
  rely := GrantsRely
  rely_refl _ _ := ⟨rfl, rfl, rfl⟩
  rely_trans _ _ _ _ before later :=
    ⟨later.granted.trans before.granted, later.returned.trans before.returned,
      later.seen.trans before.seen⟩

/-! ### Entries -/

section Entries

variable {history : GrantHistory Tid} {t other : Tid} {grant : Grant Tid} {done : Return Tid}

theorem grantedTo_append (grants : List (Grant Tid)) (sums : List Int) (seen : Tid → Int)
    (returns : List (Return Tid)) :
    GrantHistory.grantedTo ⟨grants ++ [grant], sums, seen, returns⟩ t
      = GrantHistory.grantedTo ⟨grants, sums, seen, returns⟩ t
        ++ if grant.holder = t then [grant.range] else [] := by
  by_cases mine : grant.holder = t
  · simp [GrantHistory.grantedTo, List.filter_append, mine]
  · simp [GrantHistory.grantedTo, List.filter_append, mine]

theorem returnedTo_append (grants : List (Grant Tid)) (sums : List Int) (seen : Tid → Int)
    (returns : List (Return Tid)) :
    GrantHistory.returnedTo ⟨grants, sums, seen, returns ++ [done]⟩ t
      = GrantHistory.returnedTo ⟨grants, sums, seen, returns⟩ t
        ++ if done.caller = t then (done.outcome.map (·, done.size)).toList else [] := by
  by_cases mine : done.caller = t
  · cases outcome : done.outcome <;>
      simp [GrantHistory.returnedTo, List.filter_append, mine, outcome]
  · simp [GrantHistory.returnedTo, List.filter_append, mine]

end Entries

/-! ### Steps -/

section Steps

variable {id} {initial capacity current size : Int} {t : Tid} {world now : GrantWorld Tid}

theorem GrantsOk.nonneg (kept : GrantsOk id initial capacity world) :
    ∀ span ∈ world.history.grants.map Grant.range, 0 ≤ span.2 := by
  intro span member
  obtain ⟨grant, granted, rfl⟩ := List.mem_map.mp member
  exact (kept.positive grant granted).le

theorem GrantsOk.initial_le (kept : GrantsOk id initial capacity world) :
    initial ≤ (world.shared.header id).writeOffset :=
  kept.spanned.first_le kept.nonneg

/-- Between its calls a thread has been told of all its grants. -/
def Synced (t : Tid) (world : GrantWorld Tid) : Prop :=
  world.history.returnedTo t = world.history.grantedTo t

/-- Inside a call, with the write offset it last read. -/
structure Reading (initial capacity : Int) (t : Tid) (current : Int) (world : GrantWorld Tid) :
    Prop where
  synced : Synced t world
  seen : world.history.seen t = current
  above : initial ≤ current
  below : current ≤ capacity

/-- What a call that is about to answer knows. -/
def Answered (capacity : Int) (t : Tid) (size : Int) (outcome : Option Int)
    (world : GrantWorld Tid) : Prop :=
  match outcome with
  | none => Synced t world ∧ capacity < world.history.seen t + size
  | some offset =>
    world.history.grantedTo t = world.history.returnedTo t ++ [(offset, size)]

theorem Synced.stable : (reservations id initial capacity).Stable t (Synced t) := by
  intro world after synced moved _
  have moved : GrantsRely t world after := moved
  unfold Synced
  rw [moved.returned, moved.granted]
  exact synced

theorem Reading.stable : (reservations id initial capacity).Stable t (Reading initial capacity t current) := by
  intro world after reading moved kept
  exact ⟨Synced.stable world after reading.synced moved kept, moved.seen.trans reading.seen,
    reading.above, reading.below⟩

theorem Answered.stable {outcome : Option Int} :
    (reservations id initial capacity).Stable t (Answered capacity t size outcome) := by
  intro world after answered moved kept
  have rely : GrantsRely t world after := moved
  cases outcome with
  | none =>
    refine ⟨Synced.stable world after answered.1 moved kept, ?_⟩
    rw [rely.seen]
    exact answered.2
  | some offset =>
    show after.history.grantedTo t = after.history.returnedTo t ++ [(offset, size)]
    rw [rely.granted, rely.returned]
    exact answered

/-- Reading the write offset. -/
theorem GrantsOk.read (kept : GrantsOk id initial capacity now) (synced : Synced t now)
    (sums : List Int) (more : ∀ sum ∈ sums, i32Min ≤ sum ∧ sum ≤ i32Max) :
    let seen := Function.update now.history.seen t (now.shared.header id).writeOffset
    let after : GrantWorld Tid :=
      ⟨now.shared, { now.history with sums := sums ++ now.history.sums, seen := seen }⟩
    GrantsOk id initial capacity after ∧ (∀ other, other ≠ t → GrantsRely other now after) ∧
      Reading initial capacity t (now.shared.header id).writeOffset after := by
  intro seen after
  refine ⟨⟨kept.spanned, kept.positive, kept.within, ?_, kept.refused, kept.handed⟩, ?_, ?_⟩
  · intro sum member
    rcases List.mem_append.mp member with new | old
    · exact more sum new
    · exact kept.sums sum old
  · intro other different
    exact ⟨rfl, rfl, Function.update_of_ne different ..⟩
  · exact ⟨synced, Function.update_self .., kept.initial_le, kept.within⟩

/-- Moving the write offset: one more range, handed to nobody yet. -/
theorem GrantsOk.grant (kept : GrantsOk id initial capacity now) (synced : Synced t now)
    (same : (now.shared.header id).writeOffset = current) (positive : 0 < size)
    (fits : i32Min ≤ current + size ∧ current + size ≤ i32Max)
    (within : current + size ≤ capacity) :
    let header := fun header : SegmentHeader => { header with writeOffset := current + size }
    let after : GrantWorld Tid :=
      ⟨now.shared.modifyHeader id header, { now.history with
        sums := (current + size) :: now.history.sums
        grants := now.history.grants ++ [⟨t, current, size⟩] }⟩
    GrantsOk id initial capacity after ∧ (∀ other, other ≠ t → GrantsRely other now after) ∧
      Answered capacity t size (some current) after := by
  intro header after
  have granted : ∀ other, after.history.grantedTo other
      = now.history.grantedTo other ++ if t = other then [(current, size)] else [] :=
    fun other => grantedTo_append ..
  refine ⟨⟨?_, ?_, ?_, ?_, kept.refused, ?_⟩, ?_, ?_⟩
  · show Spanned initial ((now.history.grants ++ [_]).map Grant.range) _
    rw [List.map_append]
    simp only [after, Shared.modifyHeader_self]
    have longer := kept.spanned.append size
    rwa [same] at longer
  · intro grant member
    rcases List.mem_append.mp member with old | new
    · exact kept.positive grant old
    · obtain rfl := List.mem_singleton.mp new
      exact positive
  · simp only [after, Shared.modifyHeader_self]
    exact within
  · intro sum member
    rcases List.mem_cons.mp member with rfl | old
    · exact fits
    · exact kept.sums sum old
  · intro other
    rw [granted]
    exact (kept.handed other).trans (List.prefix_append ..)
  · intro other different
    refine ⟨?_, rfl, rfl⟩
    rw [granted, if_neg (Ne.symm different), List.append_nil]
  · show after.history.grantedTo t = _
    rw [granted, if_pos rfl, ← synced]
    rfl

/-- Telling the caller. -/
theorem GrantsOk.answer {outcome : Option Int} (kept : GrantsOk id initial capacity now)
    (answered : Answered capacity t size outcome now) :
    let after : GrantWorld Tid :=
      ⟨now.shared, { now.history with
        returns := now.history.returns ++ [⟨t, size, outcome, now.history.seen t⟩] }⟩
    GrantsOk id initial capacity after ∧ (∀ other, other ≠ t → GrantsRely other now after) ∧
      Synced t after := by
  intro after
  have returned : ∀ other, after.history.returnedTo other = now.history.returnedTo other
      ++ if t = other then (outcome.map (·, size)).toList else [] := fun other => returnedTo_append ..
  have others : ∀ other, other ≠ t → after.history.returnedTo other = now.history.returnedTo other := by
    intro other different
    rw [returned, if_neg (Ne.symm different), List.append_nil]
  have synced : Synced t after := by
    show after.history.returnedTo t = now.history.grantedTo t
    rw [returned, if_pos rfl]
    cases outcome with
    | none => exact (List.append_nil _).trans answered.1
    | some offset => exact Eq.symm answered
  refine ⟨⟨kept.spanned, kept.positive, kept.within, kept.sums, ?_, fun other => ?_⟩, ?_, synced⟩
  · intro done member failed
    rcases List.mem_append.mp member with old | new
    · exact kept.refused done old failed
    · obtain rfl := List.mem_singleton.mp new
      subst failed
      exact answered.2
  · by_cases mine : other = t
    · subst mine
      exact synced ▸ List.prefix_rfl
    · rw [others other mine]
      exact kept.handed other
  · intro other different
    exact ⟨rfl, others other different, rfl⟩

end Steps

/-! ### Calls -/

section Calls

variable {id} {initial capacity current size : Int} {t : Tid} {world : GrantWorld Tid}

theorem load_spec (synced : Synced t world) :
    (reservations id initial capacity).wp t
      (.atomically .load fun state : Shared => ((state.header id).writeOffset, state))
      (Reading initial capacity t) world := by
  refine Protocol.wp_atomically fun now moved kept _ _ => ?_
  exact GrantsOk.read kept (Synced.stable world now synced moved kept) [] (by simp)

/-- **An exchange grants the next range, or reads the offset again.** -/
theorem exchange_spec (least : i32Min ≤ initial) (positive : 0 < size)
    (fits : current + size ≤ i32Max) (within : current + size ≤ capacity)
    (reading : Reading initial capacity t current world) :
    (reservations id initial capacity).wp t (exchangeOffset id current size)
      (fun observed after => match observed with
        | none => Answered capacity t size (some current) after
        | some observed => Reading initial capacity t observed after) world := by
  refine Protocol.wp_atomically fun now moved kept _ _ => ?_
  have readingNow := Reading.stable world now reading moved kept
  have representable : i32Min ≤ current + size ∧ current + size ≤ i32Max := by
    have above := reading.above
    omega
  by_cases same : (now.shared.header id).writeOffset = current
  · have granted := GrantsOk.grant kept readingNow.synced same positive representable within
    simp only [World.after, reservations, record, same, if_true]
    exact granted
  · have read := GrantsOk.read kept readingNow.synced [current + size] (by simpa using representable)
    simp only [World.after, reservations, record, same, if_false]
    exact read

/-- **A call is granted the next range, or is refused by the offset it last read.** -/
theorem tryReserveSpace_spec (least : i32Min ≤ initial) (most : capacity ≤ i32Max)
    (positive : 0 < size) (synced : Synced t world) :
    (reservations id initial capacity).wp t (tryReserveSpace id size capacity)
      (Answered capacity t size) world := by
  refine (Protocol.wp_bind _ _ _ _).mpr ?_
  refine Protocol.wp_whenEnabled fun now moved keptNow _ _ => ?_
  refine ⟨keptNow, fun other _ => (reservations id initial capacity).rely_refl other now, ?_⟩
  have syncedNow := Synced.stable world now synced moved keptNow
  refine Protocol.wp_seq keptNow (load_spec syncedNow) fun start after keptAfter reading => ?_
  refine Protocol.wp_repeatUntil (Reading initial capacity t) (fun _ => Reading.stable) reading ?_
  intro current now keptNow reading
  refine Protocol.wp_ite (fun full => ?_) fun fits => ?_
  · have refused : capacity < current + size := by
      simp only [Bool.or_eq_true, decide_eq_true_eq] at full
      omega
    exact ⟨reading.synced, by rw [reading.seen]; exact refused⟩
  · simp only [Bool.or_eq_true, decide_eq_true_eq, not_or, not_lt] at fits
    refine Protocol.wp_seq keptNow (exchange_spec least positive fits.1 fits.2 reading) ?_
    intro observed after keptAfter outcome
    cases observed with
    | none => exact outcome
    | some observed => exact outcome

theorem call_spec (least : i32Min ≤ initial) (most : capacity ≤ i32Max) (positive : 0 < size)
    (kept : GrantsOk id initial capacity world) (synced : Synced t world) :
    (reservations id initial capacity).wp t (call id capacity size) (fun _ => Synced t) world := by
  refine Protocol.wp_seq kept (tryReserveSpace_spec least most positive synced) ?_
  intro outcome after keptAfter answered
  refine Protocol.wp_atomically fun now moved keptNow _ _ => ?_
  exact GrantsOk.answer keptNow (Answered.stable after now answered moved keptNow)

theorem runAll_spec (least : i32Min ≤ initial) (most : capacity ≤ i32Max) {sizes : List Int}
    (positive : ∀ size ∈ sizes, 0 < size) (kept : GrantsOk id initial capacity world)
    (synced : Synced t world) :
    (reservations id initial capacity).wp t (runAll id capacity sizes) (fun _ => Synced t) world := by
  refine Protocol.wp_sequence (fun program member now keptNow syncedNow => ?_) kept synced
  obtain ⟨size, listed, rfl⟩ := List.mem_map.mp member
  exact call_spec least most (positive size listed) keptNow syncedNow

end Calls

/-! ### Runs -/

/-- Any number of threads, each with its calls, on a segment in any state. -/
def start (capacity : Int) (state : Shared) (scripts : Tid → List Int) :
    Config Tid Shared GrantLabel (GrantHistory Tid) :=
  ⟨⟨state, .new⟩, fun t => runAll id capacity (scripts t)⟩

/-- What the callers of a segment's reservations can count on. -/
structure SpaceGranted (initial capacity : Int) (world : GrantWorld Tid) : Prop where
  /-- A grant lies within the segment. -/
  inside : ∀ grant ∈ world.history.grants,
    initial ≤ grant.offset ∧ grant.offset + grant.size ≤ capacity
  disjoint : world.history.grants.Pairwise fun one two =>
    Disjoint (positions one.range) (positions two.range)
  /-- The grants leave no gap from the initial offset to the write offset. -/
  tiles : ⋃ grant ∈ world.history.grants, positions grant.range
    = Set.Ico initial (world.shared.header id).writeOffset
  bounded : initial ≤ (world.shared.header id).writeOffset ∧
    (world.shared.header id).writeOffset ≤ capacity
  /-- Every sum that is to be exchanged is an `i32`. -/
  sums : ∀ sum ∈ world.history.sums, i32Min ≤ sum ∧ sum ≤ i32Max
  /-- A refused size did not fit at the offset the call had last read. -/
  refused : ∀ done ∈ world.history.returns, done.outcome = none → capacity < done.seen + done.size
  /-- A thread is told of its grants, in their order, and of nothing else. -/
  handed : ∀ t, world.history.returnedTo t <+: world.history.grantedTo t

theorem GrantsOk.granted {initial capacity : Int} {world : GrantWorld Tid}
    (kept : GrantsOk id initial capacity world) : SpaceGranted id initial capacity world := by
  refine ⟨fun grant member => ?_, ?_, ?_, ⟨kept.initial_le, kept.within⟩, kept.sums, kept.refused,
    kept.handed⟩
  · have bounds := kept.spanned.bounds kept.nonneg (List.mem_map_of_mem member)
    exact ⟨bounds.1, bounds.2.trans kept.within⟩
  · have apart := kept.spanned.disjoint kept.nonneg
    rw [List.pairwise_map] at apart
    exact apart
  · rw [← kept.spanned.covers kept.nonneg]
    ext position
    simp

section Runs

variable {id} {initial capacity : Int} {state : Shared} {scripts : Tid → List Int}

theorem inside_start (least : i32Min ≤ initial) (most : capacity ≤ i32Max)
    (within : initial ≤ capacity) (begun : (state.header id).writeOffset = initial)
    (positive : ∀ t, ∀ size ∈ scripts t, 0 < size) :
    (reservations id initial capacity).Inside (start id capacity state scripts) := by
  have kept : GrantsOk id initial capacity (⟨state, .new⟩ : GrantWorld Tid) := by
    refine ⟨begun.symm, ?_, begun ▸ within, ?_, ?_, fun t => List.prefix_rfl⟩
    · intro grant member
      cases member
    · intro sum member
      cases member
    · intro done member
      cases member
  refine ⟨kept, fun t => ?_⟩
  exact Protocol.wp_mono kept (runAll_spec least most (positive t) kept rfl) fun _ _ _ _ => trivial

/-- **Space grants.** In every run of any number of threads' reservations the granted ranges are
pairwise disjoint, lie within the segment and tile it from the initial offset to the write offset; no
addition leaves `i32`; and a call is refused only where its size did not fit. -/
theorem space_granted (least : i32Min ≤ initial) (most : capacity ≤ i32Max)
    (within : initial ≤ capacity) (begun : (state.header id).writeOffset = initial)
    (positive : ∀ t, ∀ size ∈ scripts t, 0 < size)
    {config : Config Tid Shared GrantLabel (GrantHistory Tid)}
    (reached : Reachable (record id) (fun _ _ _ => True) (start id capacity state scripts) config) :
    SpaceGranted id initial capacity config.world :=
  GrantsOk.granted id
    (Protocol.sound (inside_start least most within begun positive) reached).1

end Runs

/-! ### A lost exchange and a refusal -/

/-- One thread reserves 32 bytes, the other 24 and then 40. -/
def racingScripts : Nat → List Int
  | 0 => [32]
  | 1 => [24, 40]
  | _ => []

/-- The second thread's first call runs between the first thread's load and its exchange. -/
def racingSchedule : List Nat := [0, 0, 1, 1, 1, 1, 1, 0, 0, 0, 0, 0, 1, 1, 1, 1]

/-- The first thread retries and fills the segment, and the second is refused. -/
theorem space_granted_racing :
    ∃ config, Reachable (record 1) (fun _ _ _ => True) (start 1 64 (.new 1 0 8) racingScripts) config ∧
      (config.world.history.grants = [⟨1, 8, 24⟩, ⟨0, 32, 32⟩] ∧
        ⟨1, 40, none, 64⟩ ∈ config.world.history.returns) ∧
      SpaceGranted 1 8 64 config.world := by
  obtain ⟨config, reached, ends⟩ := exists_reachable (record 1) (fun _ _ _ => true)
    (start 1 64 (.new 1 0 8) racingScripts) racingSchedule
    (fun world => world.history.grants = [⟨1, 8, 24⟩, ⟨0, 32, 32⟩] &&
      decide (⟨1, 40, none, 64⟩ ∈ world.history.returns)) (by decide +kernel)
  have meets : Reachable (record 1) (fun _ _ _ => True) (start 1 64 (.new 1 0 8) racingScripts)
      config := reached.weaken fun _ _ _ _ => trivial
  have positive : ∀ t, ∀ size ∈ racingScripts t, 0 < size := by
    intro t size listed
    unfold racingScripts at listed
    split at listed
    · simp_all
    · rcases List.mem_cons.mp listed with rfl | later
      · decide
      · simp_all
    · cases listed
  exact ⟨config, meets, by simpa using ends,
    space_granted (by decide) (by decide) (by decide) rfl positive meets⟩

end CacheRs.Segments.Grants
