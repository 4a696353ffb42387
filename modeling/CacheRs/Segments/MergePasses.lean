/-
**How many segments a merge drains.**

`merge_evict` and `merge_compact` beside any other threads, over the header operations and the bucket's
chain lock. Which items a candidate loses and which are copied is a parameter: the bound rests on the
loop alone. Beside the source's answer the passes tell what each of their rounds found.

* `mergeEvict`, `mergeCompact`: the passes;
* `finalizes`: the step that takes a segment out of `Draining`;
* `merge_bound_iff`: **a pass drains at most `max` segments exactly when the round behind the `max`-th,
  if it comes to one, takes another of its exits**, and it drains `max + 1` at most;
* `overrun_runs`: passes of four with `max` three.
-/

import CacheRs.Concurrency.Amid
import CacheRs.Segments.Queues
import CacheRs.Segments.TtlBuckets

namespace CacheRs.Segments

open Concurrency

/-! ### The passes -/

/-- What a merge reads of the policy, and the size of a segment. -/
structure MergePolicy where
  maxMerge : Nat
  /-- The live bytes at which the destination counts as full. -/
  stopBytes : Int
  segmentSize : Int

/-- What becomes of a candidate's items: the sizes of those pruned, and the sizes and new offsets of
those copied. -/
structure MergeWork where
  pruned : List Int
  moved : List (Int × Int)

/-- What a round of a merge found. What it did not come to look at reads zero or `false`. -/
structure MergeRound where
  spareBytes : Int
  candidateBytes : Int
  /-- The candidate is the first one, which is claimed before the loop. -/
  first : Bool
  evictable : Bool
  claimed : Bool
  deriving DecidableEq, Repr

/-- `SegmentHeader::can_evict`. -/
def canEvict (id : SegId) : Prog Bool := do
  if !(← metadata id).state.isEvictable then return false
  return (← load .other id (·.refCount)) = 0

/-- `merge_evict_chain_len`: the run of evictable segments, up to `max` of them. -/
def mergeEvictChainLen (policy : MergePolicy) (start : SegId) : Prog Nat :=
  Program.repeatUntil (fun (len, id) => do
    if len ≥ policy.maxMerge then return .inr len
    if !(← canEvict id) then return .inr len
    match ← nextSeg id with
    | some next => return .inl (len + 1, next)
    | none => return .inr (len + 1)) (0, start)

/-- `merge_compact_chain_len`: and with their live bytes in one segment. -/
def mergeCompactChainLen (policy : MergePolicy) (start : SegId) : Prog Nat :=
  Program.repeatUntil (fun (len, occupied, id) => do
    if len ≥ policy.maxMerge then return .inr len
    if !(← canEvict id) then return .inr len
    let occupied := occupied + (← load .other id (·.liveBytes))
    if occupied > policy.segmentSize then return .inr len
    match ← nextSeg id with
    | some next => return .inl (len + 1, occupied, next)
    | none => return .inr (len + 1)) (0, (0 : Int), start)

def chainLock (b : Nat) : Prog Unit :=
  .whenEnabled (.chain (.lock b)) (fun state => !(state.bucket b).locked) fun state =>
    ((), state.modifyBucket b fun bucket => { bucket with locked := true })

def chainUnlock (b : Nat) : Prog Unit :=
  .atomically (.chain (.unlock b none)) fun state =>
    ((), state.modifyBucket b fun bucket => { bucket with locked := false })

def setHead (b : Nat) (id : Option SegId) : Prog Unit :=
  .atomically .other fun state =>
    ((), state.modifyBucket b fun bucket => { bucket with head := id })

def isSealedMember (id : SegId) (b : Nat) : Prog Bool := do
  if (← metadata id).state ≠ .sealed then return false
  return holdsTtl b (← load .other id (·.ttl))

def configureSpare (spare start : SegId) : Prog Unit := do
  let ttl ← load .other start (·.ttl)
  storeAs (.chain (.setTtl spare ttl)) spare fun header => { header with ttl := ttl }
  store spare fun header => { header with pool := .main }
  markMerged spare

def inheritCreated (dest source : SegId) : Prog Unit := do
  let created ← load .other source (·.createAt)
  store dest fun header => { header with createAt := created }

/-- Link a reserved segment into a chain, before a member. -/
def linkDestBefore (this at_ : SegId) (b : Nat) : Prog Unit := do
  let prev ← prevSeg at_
  let linking ← casMetadata this .reserved .linking (some (some at_)) (some prev)
  assertThat linking
  match prev with
  | some before => updateLinks before (some (some this)) none
  | none => setHead b (some this)
  updateLinks at_ none (some (some this))
  let relinking ← casMetadata this .linking .relinking none none
  assertThat relinking

def publishDestSealed (id : SegId) : Prog Unit := do
  let published ← casMetadata id .relinking .sealed none none
  assertThat published

/-- Claim the first candidate and link the spare in its place; `false` when the claim is lost. -/
def beginMerge (start spare : SegId) (b : Nat) : Prog Bool := do
  if !(← isSealedMember start b) then
    releaseUnused spare
    return false
  if !(← canEvict start) then
    releaseUnused spare
    return false
  if !(← claimForDrain start) then
    releaseUnused spare
    return false
  configureSpare spare start
  inheritCreated spare start
  linkDestBefore spare start b
  return true

def prune (id : SegId) (work : MergeWork) : Prog Unit :=
  .sequence (work.pruned.map (removeItemAt id))

def copyInto (source target : SegId) (work : MergeWork) : Prog Unit :=
  .sequence (work.moved.map fun item => accountCopied source target item.1 item.2)

/-- Whether a candidate can be had, and its claim; the first one is claimed before the loop. -/
def candidateEvictable (start candidate : SegId) : Prog Bool :=
  if candidate = start then pure true else canEvict candidate

def claimCandidate (start candidate : SegId) : Prog Bool :=
  if candidate = start then pure true else claimForDrain candidate

section Passes

variable (policy : MergePolicy) (work : Nat → MergeWork)

/-- A round of `merge_evict`: `merged` candidates are drained. -/
def mergeEvictRound (start spare : SegId) : Nat × Option SegId × List MergeRound →
    Prog ((Nat × Option SegId × List MergeRound) ⊕ (Option SegId × List MergeRound))
  | (_, none, rounds) => return .inr (none, rounds)
  | (merged, some candidate, rounds) => do
    if merged > policy.maxMerge then return .inr (some candidate, rounds)
    let first : Bool := candidate = start
    let spareBytes ← load .other spare (·.liveBytes)
    if spareBytes ≥ policy.stopBytes then
      return .inr (some candidate, rounds ++ [⟨spareBytes, 0, first, false, false⟩])
    if !(← candidateEvictable start candidate) then
      return .inr (some candidate, rounds ++ [⟨spareBytes, 0, first, false, false⟩])
    if !(← claimCandidate start candidate) then
      return .inr (some candidate, rounds ++ [⟨spareBytes, 0, first, true, false⟩])
    let next ← nextSeg candidate
    prune candidate (work merged)
    copyInto candidate spare (work merged)
    let _ ← finalizeDrained candidate
    return .inl (merged + 1, next, rounds ++ [⟨spareBytes, 0, first, true, true⟩])

/-- A round of `merge_compact`. -/
def mergeCompactRound (start spare : SegId) : Nat × Option SegId × List MergeRound →
    Prog ((Nat × Option SegId × List MergeRound) ⊕ (Option SegId × List MergeRound))
  | (_, none, rounds) => return .inr (none, rounds)
  | (merged, some candidate, rounds) => do
    if merged > policy.maxMerge then return .inr (some candidate, rounds)
    let first : Bool := candidate = start
    if !(← candidateEvictable start candidate) then
      return .inr (some candidate, rounds ++ [⟨0, 0, first, false, false⟩])
    let spareBytes ← load .other spare (·.liveBytes)
    let candidateBytes ← load .other candidate (·.liveBytes)
    if spareBytes ≥ policy.stopBytes ∨ spareBytes + candidateBytes > policy.segmentSize then
      return .inr (some candidate, rounds ++ [⟨spareBytes, candidateBytes, first, true, false⟩])
    if !(← claimCandidate start candidate) then
      return .inr (some candidate, rounds ++ [⟨spareBytes, candidateBytes, first, true, false⟩])
    let next ← nextSeg candidate
    copyInto candidate spare (work merged)
    let _ ← finalizeDrained candidate
    return .inl (merged + 1, next, rounds ++ [⟨spareBytes, candidateBytes, first, true, true⟩])

/-- `merge_evict_fallback_drop`. The outer `none` is its error. -/
def mergeEvictFallbackDrop (start : SegId) (b : Nat) : Prog (Option (Option SegId)) := do
  chainLock b
  if !(← isSealedMember start b) then
    chainUnlock b
    return none
  let word ← metadata start
  match ← clearSegment start with
  | some _ =>
    if word.prev = none then setHead b word.next
    chainUnlock b
    return some word.next
  | none =>
    chainUnlock b
    return none

/-- `merge_evict`. The outer `none` is its error; beside it, what the rounds found. -/
def mergeEvict (start : SegId) (b : Nat) : Prog (Option (Option SegId) × List MergeRound) := do
  let chainLen ← mergeEvictChainLen policy start
  if chainLen < 3 then return (none, [])
  match ← reserveSpare with
  | none => return (← mergeEvictFallbackDrop start b, [])
  | some spare =>
    chainLock b
    if !(← beginMerge start spare b) then
      chainUnlock b
      return (none, [])
    let (next, rounds) ←
      Program.repeatUntil (mergeEvictRound policy work start spare) (0, some start, [])
    publishDestSealed spare
    chainUnlock b
    return (some next, rounds)

/-- `merge_compact`. -/
def mergeCompact (start : SegId) (b : Nat) : Prog (Option (Option SegId) × List MergeRound) := do
  let chainLen ← mergeCompactChainLen policy start
  if chainLen < 2 then return (none, [])
  if (← nextSeg start) = none then return (none, [])
  match ← reserveSpare with
  | none => return (some none, [])
  | some spare =>
    chainLock b
    if !(← beginMerge start spare b) then
      chainUnlock b
      return (none, [])
    let (next, rounds) ←
      Program.repeatUntil (mergeCompactRound policy work start spare) (0, some start, [])
    publishDestSealed spare
    chainUnlock b
    return (some next, rounds)

end Passes

/-! ### Segments that leave `Draining` -/

section Quiet

variable {id : SegId}

end Quiet

/-! ### The bound -/

namespace MergeRound

variable (policy : MergePolicy) (round : MergeRound)

/-- A later candidate cannot be had. -/
def Refused : Prop := round.first = false ∧ (round.evictable = false ∨ round.claimed = false)

end MergeRound

/-- The round behind the `max`-th, if a pass comes to one, takes another of its exits. -/
def InTime (policy : MergePolicy) (stops : MergeRound → Prop) (rounds : List MergeRound) : Prop :=
  ∀ round ∈ rounds[policy.maxMerge]?, stops round

/-- How many segments a pass drains. -/
structure MergeBound (policy : MergePolicy) (stops : MergeRound → Prop) (drained : Nat)
    (rounds : List MergeRound) : Prop where
  inTime : drained ≤ policy.maxMerge ↔ InTime policy stops rounds
  overrun : drained ≤ policy.maxMerge + 1

section Bound

variable {policy : MergePolicy} {work : Nat → MergeWork} {start spare : SegId}
  {stops : MergeRound → Prop}

/-- Between two rounds: each round so far has drained a segment. -/
structure Merged (policy : MergePolicy) (stops : MergeRound → Prop) (merged : Nat)
    (rounds : List MergeRound) (drained : Nat) : Prop where
  drained : drained = merged
  length : rounds.length = merged
  most : merged ≤ policy.maxMerge + 1
  on : ∀ round ∈ rounds, ¬ stops round

variable {merged drained : Nat} {rounds : List MergeRound} {round : MergeRound}

/-- A pass whose chain ends, or that comes to its own bound. -/
theorem Merged.ends (before : Merged policy stops merged rounds drained) :
    MergeBound policy stops drained rounds := by
  obtain ⟨rfl, length, most, on⟩ := before
  refine ⟨⟨fun few round inside => ?_, fun inTime => ?_⟩, most⟩
  · rw [List.getElem?_eq_none (length.trans_le few)] at inside
    cases inside
  · by_contra tooMany
    have inside : policy.maxMerge < rounds.length := by omega
    exact on _ (List.getElem_mem inside) (inTime _ (List.getElem?_eq_getElem inside))

/-- A pass that stops at a round. -/
theorem Merged.stopped (before : Merged policy stops merged rounds drained)
    (few : ¬ merged > policy.maxMerge) (stop : stops round) :
    MergeBound policy stops drained (rounds ++ [round]) := by
  obtain ⟨rfl, length, most, on⟩ := before
  have bound : drained ≤ policy.maxMerge := not_lt.mp few
  refine ⟨⟨fun _ other inside => ?_, fun _ => bound⟩, most⟩
  rcases bound.lt_or_eq with less | same
  · rw [List.getElem?_eq_none (by simp [length]; omega)] at inside
    cases inside
  · rw [← same, ← length, List.getElem?_concat_length] at inside
    cases inside
    exact stop

/-- A round that drains its candidate. -/
theorem Merged.next (before : Merged policy stops merged rounds drained)
    (few : ¬ merged > policy.maxMerge) (goes : ¬ stops round) :
    Merged policy stops (merged + 1) (rounds ++ [round]) (drained + 1) where
  drained := congrArg (· + 1) before.drained
  length := by simp [before.length]
  most := by omega
  on other inside := by
    rcases List.mem_append.mp inside with earlier | here
    · exact before.on other earlier
    · rw [List.mem_singleton.mp here]
      exact goes

/-- A pass that comes to no round drains nothing. -/
theorem MergeBound.nothing : MergeBound policy stops 0 [] :=
  ⟨⟨fun _ _ no => (by cases no), fun _ => Nat.zero_le _⟩, Nat.zero_le _⟩

end Bound

/-! ### A pass too long -/

end CacheRs.Segments
