/-
**The chains and the queues.**

What the chains, the queues and the states of the segments make up, apart from the items in them.

* `Shape`: what of a cache the chains and queues consist of;
* `Orderly`: every bucket's chain is strung, its members are in service and have its TTL, only its
  last member is live; the queues hold the free segments; a running call has at most one fresh, one
  filling and one claimed segment in hand;
* `Orderly.take`, `Orderly.give`, `Orderly.claim`, `Orderly.publish`, `Orderly.insert`,
  `Orderly.leave`, `Orderly.append`: **the steps of the lifecycle keep order**.
-/

import CacheRs.Lists.Strung
import CacheRs.Segcache.Consistent

set_option linter.unusedSectionVars false

namespace CacheRs.Segcache

open DoublyLinked
open Segments (SegId State totalBuckets bucketTtl IsBucket)

/-- What a chain and the queues see of a segment. -/
@[ext] structure Node where
  state : State
  next : Option SegId
  prev : Option SegId
  ttl : Nat
  refCount : Nat

def Segment.node (segment : Segment) : Node :=
  ⟨segment.state, segment.next, segment.prev, segment.ttl, segment.refCount⟩

@[ext] structure Shape where
  node : SegId → Node
  head : Nat → Option SegId
  tail : Nat → Option SegId
  freeQueue : List SegId
  spareQueue : List SegId
  spareCount : Nat

def Cache.shape (cache : Cache) : Shape where
  node id := (cache.segment id).node
  head b := (cache.bucket b).head
  tail b := (cache.bucket b).tail
  freeQueue := cache.freeQueue
  spareQueue := cache.spareQueue
  spareCount := cache.spareCount

namespace Shape

variable (config : Config) (shape : Shape)

def setNode (id : SegId) (node : Node) : Shape :=
  { shape with node := Function.update shape.node id node }

/-- A member's neighbours are patched past it. -/
def patched (id : SegId) : Shape :=
  { shape with
    node := fun i =>
      { shape.node i with
        next := if (shape.node id).prev = some i then (shape.node id).next else (shape.node i).next
        prev := if (shape.node id).next = some i then (shape.node id).prev
          else (shape.node i).prev } }

/-- A segment is given back to a queue. -/
def returned (id : SegId) : Shape :=
  if config.spareCapacity ≤ shape.spareCount then
    { shape with freeQueue := shape.freeQueue ++ [id] }
  else
    { shape with spareQueue := shape.spareQueue ++ [id], spareCount := shape.spareCount + 1 }

/-- A claimed member leaves its chain, to a queue or to wait for its readers. -/
def left (id : SegId) : Shape :=
  let node := shape.node id
  if node.refCount = 0 then
    ((shape.patched id).setNode id { node with state := .free, next := none, prev := none }).returned
      config id
  else
    (shape.patched id).setNode id
      { node with state := .awaitingRelease, next := none, prev := none }

/-- A reserved segment is put before a member of a bucket's chain. -/
def linked (this member : SegId) (b : Nat) : Shape :=
  let before := (shape.node member).prev
  { shape with
    node := fun i =>
      if i = this then
        { shape.node i with state := .relinking, next := some member, prev := before }
      else
        { shape.node i with
          next := if before = some i then some this else (shape.node i).next
          prev := if i = member then some this else (shape.node i).prev }
    head := if before = none then Function.update shape.head b (some this) else shape.head }

/-- A reserved segment is put at the end of a bucket's chain, whose last member is sealed. -/
def appended (b : Nat) (this : SegId) : Shape :=
  { shape with
    node := fun i =>
      if i = this then
        { shape.node i with state := .live, next := none, prev := shape.tail b }
      else if shape.tail b = some i then
        { shape.node i with state := .sealed, next := some this }
      else shape.node i
    head := if shape.tail b = none then Function.update shape.head b (some this) else shape.head
    tail := Function.update shape.tail b (some this) }

/-- A bucket's ends are patched past a member. -/
def patchEnds (b : Nat) (id : SegId) : Shape :=
  { shape with
    head := Function.update shape.head b
      (if shape.head b = some id then (shape.node id).next else shape.head b)
    tail := Function.update shape.tail b
      (if shape.tail b = some id then (shape.node id).prev else shape.tail b) }

end Shape

/-- The segments a running call has in hand: one reserved, one that it fills, one that it drains. -/
@[ext] structure Hand where
  fresh : Option SegId
  dest : Option SegId
  claimed : Option SegId

def Hand.empty : Hand := ⟨none, none, none⟩

def InRange (config : Config) (id : SegId) : Prop := 1 ≤ id ∧ id ≤ config.cap

/-- The links and the ends of the chains. -/
structure Chained (config : Config) (chain : Nat → List SegId) (shape : Shape) : Prop where
  strung : ∀ b, Strung (fun i => (shape.node i).next) (fun i => (shape.node i).prev) none (chain b)
    none
  unique : ∀ b, (chain b).Nodup
  head : ∀ b, shape.head b = (chain b).head?
  tail : ∀ b, shape.tail b = (chain b).getLast?
  bucket : ∀ b, chain b ≠ [] → IsBucket b ∧ b < totalBuckets
  ttl : ∀ b, ∀ i ∈ chain b, (shape.node i).ttl = bucketTtl b

/-- A merge takes at least its first candidate: the empty destination is not full enough to stop. -/
def Config.Merges (config : Config) : Prop :=
  config.policy.isMerge = true → (config.initialOffset : Int) < stopBytes config

/-- The segments' states say where they are. A merge that stops at once leaves its first candidate
claimed for good; no other segment stays claimed. -/
structure Stated (config : Config) (hand : Hand) (chain : Nat → List SegId) (shape : Shape) :
    Prop where
  member : ∀ i, holds (shape.node i).state = true ↔ ∃ b, i ∈ chain b
  last : ∀ b, ∀ i ∈ chain b, (shape.node i).state ≠ .draining →
    ((shape.node i).state = .live ↔ (chain b).getLast? = some i)
  fresh : ∀ i, isFresh (shape.node i).state = true ↔ hand.fresh = some i
  dest : ∀ i, (shape.node i).state = .relinking ↔ hand.dest = some i
  claimed : ∀ i, hand.claimed = some i → (shape.node i).state = .draining
  unclaimed : config.Merges → ∀ i, (shape.node i).state = .draining → hand.claimed = some i
  unlocked : ∀ i, (shape.node i).state ≠ .locked
  range : ∀ i, (shape.node i).state ≠ .free → InRange config i
  waiting : ∀ i, (shape.node i).state = .awaitingRelease → 0 < (shape.node i).refCount

/-- The queues hold the free segments. -/
structure Queued (config : Config) (shape : Shape) : Prop where
  queued : ∀ i, i ∈ shape.freeQueue ++ shape.spareQueue ↔
    InRange config i ∧ (shape.node i).state = .free
  unique : (shape.freeQueue ++ shape.spareQueue).Nodup
  spare : shape.spareCount = shape.spareQueue.length
  bounded : shape.spareCount ≤ config.spareCapacity

structure Orderly (config : Config) (hand : Hand) (chain : Nat → List SegId) (shape : Shape) :
    Prop extends Chained config chain shape, Stated config hand chain shape where
  queues : Queued config shape

variable {config : Config} {hand : Hand} {chain : Nat → List SegId} {shape : Shape} {id : SegId}
  {b : Nat}

@[simp] theorem Shape.setNode_node (node : Node) (i : SegId) :
    (shape.setNode id node).node i = if i = id then node else shape.node i :=
  Function.update_apply ..

@[simp] theorem Shape.returned_node : (shape.returned config id).node = shape.node := by
  unfold Shape.returned
  split <;> rfl

@[simp] theorem Shape.returned_head : (shape.returned config id).head = shape.head := by
  unfold Shape.returned
  split <;> rfl

@[simp] theorem Shape.returned_tail : (shape.returned config id).tail = shape.tail := by
  unfold Shape.returned
  split <;> rfl

theorem Shape.left_node {i : SegId} (different : i ≠ id) :
    (shape.left config id).node i = (shape.patched id).node i := by
  simp only [Shape.left]
  split
  · rw [returned_node, setNode_node, if_neg different]
  · rw [setNode_node, if_neg different]

theorem Shape.left_state : ((shape.left config id).node id).state = .free ∨
    (((shape.left config id).node id).state = .awaitingRelease ∧
      0 < ((shape.left config id).node id).refCount) := by
  simp only [Shape.left]
  split
  · simp
  · simp [Nat.pos_of_ne_zero ‹_›]

theorem Chained.eq_of_mem (chained : Chained config chain shape) {c : Nat} (inB : id ∈ chain b)
    (inC : id ∈ chain c) : b = c := by
  have one := (chained.bucket b (List.ne_nil_of_mem inB)).1
  have other := (chained.bucket c (List.ne_nil_of_mem inC)).1
  exact one.eq_of_ttl other ((chained.ttl b id inB).symm.trans (chained.ttl c id inC))

/-- The chains see the links and the TTLs of their members, and the buckets' ends. -/
theorem Chained.congr {other : Shape} (chained : Chained config chain shape)
    (nodes : ∀ b, ∀ i ∈ chain b, (other.node i).next = (shape.node i).next ∧
      (other.node i).prev = (shape.node i).prev ∧ (other.node i).ttl = (shape.node i).ttl)
    (heads : other.head = shape.head) (tails : other.tail = shape.tail) :
    Chained config chain other where
  strung b := (chained.strung b).congr (fun i inside => (nodes b i inside).1)
    fun i inside => (nodes b i inside).2.1
  unique := chained.unique
  head b := by rw [heads, chained.head]
  tail b := by rw [tails, chained.tail]
  bucket := chained.bucket
  ttl b i inside := by rw [(nodes b i inside).2.2, chained.ttl b i inside]

theorem Queued.congr {other : Shape} (queued : Queued config shape)
    (nodes : ∀ i, (other.node i).state = .free ↔ (shape.node i).state = .free)
    (free : other.freeQueue = shape.freeQueue) (spare : other.spareQueue = shape.spareQueue)
    (count : other.spareCount = shape.spareCount) : Queued config other where
  queued i := by rw [free, spare, queued.queued, nodes]
  unique := by rw [free, spare]; exact queued.unique
  spare := by rw [spare, count, queued.spare]
  bounded := count.trans_le queued.bounded

/-- A segment that becomes free enters a queue. -/
theorem Queued.returned (queued : Queued config shape) (range : InRange config id)
    (busy : (shape.node id).state ≠ .free) {patched : Shape}
    (nodes : ∀ i, (patched.node i).state = if i = id then .free else (shape.node i).state)
    (freeQueue : patched.freeQueue = shape.freeQueue)
    (spareQueue : patched.spareQueue = shape.spareQueue)
    (count : patched.spareCount = shape.spareCount) : Queued config (patched.returned config id) := by
  have outside : id ∉ shape.freeQueue ++ shape.spareQueue := fun inside =>
    busy ((queued.queued id).mp inside).2
  have unique := queued.unique
  have here : ∀ i, (i ∈ shape.freeQueue ++ shape.spareQueue ∨ i = id) ↔
      InRange config i ∧ (patched.node i).state = .free := by
    intro i
    rw [queued.queued, nodes]
    by_cases same : i = id
    · subst same
      simp [range]
    · simp [same]
  rw [List.mem_append, not_or] at outside
  have bounded := count.trans_le queued.bounded
  unfold Shape.returned
  split
  · refine ⟨fun i => ?_, ?_, ?_, bounded⟩
    · rw [← here, freeQueue, spareQueue]
      simp only [List.mem_append, List.mem_singleton]
      tauto
    · simp only [freeQueue, spareQueue]
      grind
    · simp only [spareQueue, count, queued.spare]
  · rename_i room
    refine ⟨fun i => ?_, ?_, ?_, Nat.lt_of_not_le room⟩
    · rw [← here, freeQueue, spareQueue]
      simp only [List.mem_append, List.mem_singleton]
      tauto
    · simp only [freeQueue, spareQueue]
      grind
    · simp [spareQueue, count, queued.spare]

/-- One segment's state changes, and it may enter or leave a chain or the hand. -/
theorem Stated.step {hand' : Hand} {chain' : Nat → List SegId} {other : Shape} (id : SegId)
    (stated : Stated config hand chain shape)
    (others : ∀ i, i ≠ id → (other.node i).state = (shape.node i).state ∧
      (other.node i).refCount = (shape.node i).refCount)
    (members : ∀ i, i ≠ id → ((∃ b, i ∈ chain' b) ↔ ∃ b, i ∈ chain b))
    (hands : ∀ i, i ≠ id → (hand'.fresh = some i ↔ hand.fresh = some i) ∧
      (hand'.dest = some i ↔ hand.dest = some i) ∧
      (hand'.claimed = some i ↔ hand.claimed = some i))
    (member : holds (other.node id).state = true ↔ ∃ b, id ∈ chain' b)
    (last : ∀ b, ∀ i ∈ chain' b, (other.node i).state ≠ .draining →
      ((other.node i).state = .live ↔ (chain' b).getLast? = some i))
    (fresh : isFresh (other.node id).state = true ↔ hand'.fresh = some id)
    (dest : (other.node id).state = .relinking ↔ hand'.dest = some id)
    (claimed : (other.node id).state = .draining ↔ hand'.claimed = some id)
    (unlocked : (other.node id).state ≠ .locked)
    (range : (other.node id).state ≠ .free → InRange config id)
    (waiting : (other.node id).state = .awaitingRelease → 0 < (other.node id).refCount) :
    Stated config hand' chain' other where
  member i := by
    by_cases same : i = id
    · exact same ▸ member
    · rw [(others i same).1, members i same, stated.member]
  last := last
  fresh i := by
    by_cases same : i = id
    · exact same ▸ fresh
    · rw [(others i same).1, (hands i same).1, stated.fresh]
  dest i := by
    by_cases same : i = id
    · exact same ▸ dest
    · rw [(others i same).1, (hands i same).2.1, stated.dest]
  claimed i := by
    by_cases same : i = id
    · exact same ▸ claimed.mpr
    · rw [(others i same).1, (hands i same).2.2]
      exact stated.claimed i
  unclaimed merges i := by
    by_cases same : i = id
    · exact same ▸ claimed.mp
    · rw [(others i same).1, (hands i same).2.2]
      exact stated.unclaimed merges i
  unlocked i := by
    by_cases same : i = id
    · exact same ▸ unlocked
    · rw [(others i same).1]
      exact stated.unlocked i
  range i := by
    by_cases same : i = id
    · exact same ▸ range
    · rw [(others i same).1]
      exact stated.range i
  waiting i := by
    by_cases same : i = id
    · exact same ▸ waiting
    · rw [(others i same).1, (others i same).2]
      exact stated.waiting i

/-- A segment outside the chains is no member of one. -/
theorem Stated.not_mem (stated : Stated config hand chain shape)
    (idle : holds (shape.node id).state = false) (b : Nat) : id ∉ chain b := fun inside => by
  have := (stated.member id).mpr ⟨b, inside⟩
  rw [idle] at this
  cases this

/-- A segment that is not drained is not claimed. -/
theorem Stated.not_claimed (stated : Stated config hand chain shape)
    (state : (shape.node id).state ≠ .draining) : hand.claimed ≠ some id :=
  fun same => state (stated.claimed id same)

namespace Orderly

/-- A free segment is taken from its queue. -/
theorem take {d c : Option SegId} (orderly : Orderly config ⟨none, d, c⟩ chain shape) {other : Shape}
    (node : other.node = Function.update shape.node id
      { shape.node id with state := .reserved, next := none, prev := none })
    (heads : other.head = shape.head) (tails : other.tail = shape.tail)
    (perm : (id :: (other.freeQueue ++ other.spareQueue)).Perm (shape.freeQueue ++ shape.spareQueue))
    (spare : other.spareCount = other.spareQueue.length)
    (bounded : other.spareCount ≤ config.spareCapacity) :
    Orderly config ⟨some id, d, c⟩ chain other := by
  have queued := (orderly.queues.queued id).mp (perm.mem_iff.mp (List.mem_cons_self ..))
  have outside : ∀ b, id ∉ chain b := orderly.not_mem (by rw [queued.2]; rfl)
  have here : (other.node id).state = .reserved := by rw [node, Function.update_self]
  have others : ∀ i, i ≠ id → other.node i = shape.node i := fun i apart => by
    rw [node, Function.update_of_ne apart]
  refine ⟨orderly.toChained.congr (fun b i inside => ?_) heads tails,
    orderly.toStated.step id (fun i apart => ?_) (fun _ _ => Iff.rfl) (fun i apart => ?_) ?_
      (fun b i inside => ?_) ?_ ?_ ?_ ?_ ?_ ?_, ?_⟩
  · rw [others i fun same => outside b (same ▸ inside)]
    exact ⟨rfl, rfl, rfl⟩
  · rw [others i apart]
    exact ⟨rfl, rfl⟩
  · simp [apart.symm]
  · simpa [here, holds] using outside
  · rw [others i fun same => outside b (same ▸ inside)]
    exact orderly.last b i inside
  · simp [here, isFresh]
  · simpa [here, queued.2] using orderly.dest id
  · exact iff_of_false (by simp [here]) (orderly.not_claimed (by simp [queued.2]))
  · simp [here]
  · exact fun _ => queued.1
  · simp [here]
  · have unique := perm.nodup_iff.mpr orderly.queues.unique
    rw [List.nodup_cons] at unique
    refine ⟨fun i => ?_, unique.2, spare, bounded⟩
    have mem := perm.mem_iff (a := i)
    rw [List.mem_cons, orderly.queues.queued] at mem
    by_cases same : i = id
    · subst same
      simp [here, unique.1]
    · rw [others i same, ← mem]
      simp [same]

/-- A segment in hand gets its TTL, or is not linked yet. -/
theorem relabel {f : SegId} {d c : Option SegId} (orderly : Orderly config ⟨some f, d, c⟩ chain shape)
    {other : Shape} {node : Node} (state : isFresh node.state = true)
    (nodes : other.node = Function.update shape.node f node) (heads : other.head = shape.head)
    (tails : other.tail = shape.tail) (free : other.freeQueue = shape.freeQueue)
    (spare : other.spareQueue = shape.spareQueue) (count : other.spareCount = shape.spareCount) :
    Orderly config ⟨some f, d, c⟩ chain other := by
  have was : isFresh (shape.node f).state = true := (orderly.fresh f).mpr rfl
  have outside : ∀ b, f ∉ chain b := orderly.not_mem (not_holds_of_isFresh was)
  have here : other.node f = node := by rw [nodes, Function.update_self]
  have others : ∀ i, i ≠ f → other.node i = shape.node i := fun i apart => by
    rw [nodes, Function.update_of_ne apart]
  have idle := not_holds_of_isFresh state
  refine ⟨orderly.toChained.congr (fun b i inside => ?_) heads tails,
    orderly.toStated.step f (fun i apart => ?_) (fun _ _ => Iff.rfl) (fun i apart => ?_) ?_
      (fun b i inside => ?_) ?_ ?_ ?_ ?_ ?_ ?_, orderly.queues.congr (fun i => ?_) free spare count⟩
  · rw [others i fun same => outside b (same ▸ inside)]
    exact ⟨rfl, rfl, rfl⟩
  · rw [others i apart]
    exact ⟨rfl, rfl⟩
  · simp
  · simpa [here, idle] using outside
  · rw [others i fun same => outside b (same ▸ inside)]
    exact orderly.last b i inside
  · simp [here, state]
  · have := orderly.dest f
    rw [here]
    cases node' : node.state <;> cases shape' : (shape.node f).state <;> simp_all [isFresh]
  · refine iff_of_false (fun same => ?_) (orderly.not_claimed fun same => ?_)
    · rw [here] at same
      rw [same] at state
      cases state
    · rw [same] at was
      cases was
  · rw [here]
    intro locked
    rw [locked] at state
    cases state
  · intro _
    refine orderly.range f fun free => ?_
    rw [free] at was
    cases was
  · intro waits
    rw [here] at waits
    rw [waits] at state
    cases state
  · by_cases same : i = f
    · subst same
      rw [here]
      cases node' : node.state <;> cases shape' : (shape.node i).state <;> simp_all [isFresh]
    · rw [others i same]

/-- A segment in hand is given back to a queue. -/
theorem give {f : SegId} {d c : Option SegId} (orderly : Orderly config ⟨some f, d, c⟩ chain shape)
    {node : Node} (state : node.state = .free) :
    Orderly config ⟨none, d, c⟩ chain ((shape.setNode f node).returned config f) := by
  have was : isFresh (shape.node f).state = true := (orderly.fresh f).mpr rfl
  have outside : ∀ b, f ∉ chain b := orderly.not_mem (not_holds_of_isFresh was)
  have busy : (shape.node f).state ≠ .free := fun free => by
    rw [free] at was
    cases was
  have others : ∀ i, i ≠ f → ((shape.setNode f node).returned config f).node i = shape.node i :=
    fun i apart => by rw [Shape.returned_node, Shape.setNode_node, if_neg apart]
  have here : (((shape.setNode f node).returned config f).node f).state = .free := by
    rw [Shape.returned_node, Shape.setNode_node, if_pos rfl, state]
  refine ⟨orderly.toChained.congr (fun b i inside => ?_) (by simp; rfl) (by simp; rfl),
    orderly.toStated.step f (fun i apart => ?_) (fun _ _ => Iff.rfl) (fun i apart => ?_) ?_
      (fun b i inside => ?_) ?_ ?_ ?_ ?_ ?_ ?_, ?_⟩
  · rw [others i fun same => outside b (same ▸ inside)]
    exact ⟨rfl, rfl, rfl⟩
  · rw [others i apart]
    exact ⟨rfl, rfl⟩
  · simp [apart.symm]
  · simpa [state, holds] using outside
  · rw [others i fun same => outside b (same ▸ inside)]
    exact orderly.last b i inside
  · simp [state, isFresh]
  · have := orderly.dest f
    rw [here]
    cases shape' : (shape.node f).state <;> simp_all [isFresh]
  · refine iff_of_false (by simp [state]) (orderly.not_claimed fun same => ?_)
    rw [same] at was
    cases was
  · simp [state]
  · simp [state]
  · simp [state]
  · refine orderly.queues.returned (orderly.range f busy) busy (fun i => ?_) rfl rfl rfl
    rw [Shape.setNode_node]
    by_cases same : i = f
    · simp [same, state]
    · simp [same]

/-- A member is claimed, to be drained. -/
theorem claim {f d : Option SegId} (orderly : Orderly config ⟨f, d, none⟩ chain shape)
    (state : (shape.node id).state = .sealed ∨ (shape.node id).state = .live) :
    Orderly config ⟨f, d, some id⟩ chain
      (shape.setNode id { shape.node id with state := .draining }) := by
  have held : holds (shape.node id).state = true := by
    rcases state with same | same <;> rw [same] <;> rfl
  have others : ∀ i, i ≠ id →
      (shape.setNode id { shape.node id with state := .draining }).node i = shape.node i :=
    fun i apart => by rw [Shape.setNode_node, if_neg apart]
  have here : ((shape.setNode id { shape.node id with state := .draining }).node id) =
      { shape.node id with state := .draining } := by
    rw [Shape.setNode_node, if_pos rfl]
  refine ⟨orderly.toChained.congr (fun b i inside => ?_) rfl rfl,
    orderly.toStated.step id (fun i apart => ?_) (fun _ _ => Iff.rfl) (fun i apart => ?_) ?_
      (fun b i inside => ?_) ?_ ?_ ?_ ?_ ?_ ?_, orderly.queues.congr (fun i => ?_) rfl rfl rfl⟩
  · by_cases same : i = id
    · rw [same, here]
      exact ⟨rfl, rfl, rfl⟩
    · rw [others i same]
      exact ⟨rfl, rfl, rfl⟩
  · rw [others i apart]
    exact ⟨rfl, rfl⟩
  · simp [apart.symm]
  · rw [here]
    simpa [holds] using (orderly.member id).mp held
  · by_cases same : i = id
    · rw [same, here]
      exact fun busy => absurd rfl busy
    · rw [others i same]
      exact orderly.last b i inside
  · have := orderly.fresh id
    rw [here]
    rcases state with same | same <;> simpa [same, isFresh] using this
  · have := orderly.dest id
    rw [here]
    rcases state with same | same <;> simpa [same] using this
  · simp
  · simp
  · intro _
    refine orderly.range id ?_
    rcases state with same | same <;> simp [same]
  · simp
  · by_cases same : i = id
    · rw [same, here]
      rcases state with same | same <;> simp [same]
    · rw [others i same]

/-- A filled segment is sealed. -/
theorem publish {f c : Option SegId} (orderly : Orderly config ⟨f, some id, c⟩ chain shape) :
    Orderly config ⟨f, none, c⟩ chain
      (shape.setNode id { shape.node id with state := .sealed }) := by
  have state : (shape.node id).state = .relinking := (orderly.dest id).mpr rfl
  have others : ∀ i, i ≠ id →
      (shape.setNode id { shape.node id with state := .sealed }).node i = shape.node i :=
    fun i apart => by rw [Shape.setNode_node, if_neg apart]
  have here : ((shape.setNode id { shape.node id with state := .sealed }).node id) =
      { shape.node id with state := .sealed } := by
    rw [Shape.setNode_node, if_pos rfl]
  refine ⟨orderly.toChained.congr (fun b i inside => ?_) rfl rfl,
    orderly.toStated.step id (fun i apart => ?_) (fun _ _ => Iff.rfl) (fun i apart => ?_) ?_
      (fun b i inside => ?_) ?_ ?_ ?_ ?_ ?_ ?_, orderly.queues.congr (fun i => ?_) rfl rfl rfl⟩
  · by_cases same : i = id
    · rw [same, here]
      exact ⟨rfl, rfl, rfl⟩
    · rw [others i same]
      exact ⟨rfl, rfl, rfl⟩
  · rw [others i apart]
    exact ⟨rfl, rfl⟩
  · simp [apart.symm]
  · rw [here]
    simpa [holds, state] using orderly.member id
  · by_cases same : i = id
    · subst same
      rw [here]
      simpa [state] using orderly.last b i inside
    · rw [others i same]
      exact orderly.last b i inside
  · have := orderly.fresh id
    rw [here]
    simpa [state, isFresh] using this
  · simp
  · rw [here]
    exact iff_of_false (by simp) (orderly.not_claimed (by simp [state]))
  · simp
  · exact fun _ => orderly.range id (by simp [state])
  · simp
  · by_cases same : i = id
    · simp [same, state]
    · rw [others i same]

/-- A segment in hand enters a chain before a member. -/
theorem insert {f : SegId} {c : Option SegId} {member : SegId} {front back : List SegId}
    (orderly : Orderly config ⟨some f, none, c⟩ chain shape)
    (inside : chain b = front ++ member :: back) (ttl : (shape.node f).ttl = bucketTtl b) :
    Orderly config ⟨none, some f, c⟩
      (Function.update chain b (front ++ f :: member :: back)) (shape.linked f member b) := by
  have was : isFresh (shape.node f).state = true := (orderly.fresh f).mpr rfl
  have outside : ∀ b, f ∉ chain b := orderly.not_mem (not_holds_of_isFresh was)
  have uniqueOld : (front ++ member :: back).Nodup := inside ▸ orderly.unique b
  have outsideHere : f ∉ front ++ member :: back := inside ▸ outside b
  have unique : (front ++ f :: member :: back).Nodup := by
    rw [List.nodup_middle, List.nodup_cons]
    exact ⟨outsideHere, uniqueOld⟩
  have strung := orderly.strung b
  rw [inside] at strung
  have before : (shape.node member).prev = front.getLast? := by
    have := strung.member.1
    rwa [Option.or_none] at this
  have apart : ∀ c, ∀ i ∈ chain c, i ≠ f := fun c i here same => outside c (same ▸ here)
  have memberInside : member ∈ chain b := by
    rw [inside]
    simp
  -- The neighbours that are patched lie in this chain.
  have elsewhere : ∀ c, c ≠ b → ∀ i ∈ chain c, i ≠ member ∧ front.getLast? ≠ some i := by
    intro c different i here
    refine ⟨fun same => different (orderly.eq_of_mem here (same ▸ memberInside)), fun last => ?_⟩
    have inB : i ∈ chain b := by
      rw [inside]
      exact List.mem_append_left _ (List.mem_of_getLast? last)
    exact different (orderly.eq_of_mem here inB)
  have state : ∀ i, i ≠ f → ((shape.linked f member b).node i).state = (shape.node i).state ∧
      ((shape.linked f member b).node i).refCount = (shape.node i).refCount := by
    intro i different
    simp [Shape.linked, different]
  have here : ((shape.linked f member b).node f).state = .relinking := by simp [Shape.linked]
  have mem : ∀ c i, i ≠ f → (i ∈ Function.update chain b (front ++ f :: member :: back) c ↔
      i ∈ chain c) := by
    intro c i different
    by_cases same : c = b
    · subst same
      rw [Function.update_self, inside]
      simp [different]
    · rw [Function.update_of_ne same]
  refine ⟨⟨fun c => ?_, fun c => ?_, fun c => ?_, fun c => ?_, fun c => ?_, fun c i here => ?_⟩,
    orderly.toStated.step f state (fun i different => exists_congr fun c => mem c i different)
      (fun i different => ?_) ?_ (fun c i there => ?_) ?_ ?_ ?_ ?_ ?_ ?_,
    orderly.queues.congr (fun i => ?_) rfl rfl rfl⟩
  · by_cases same : c = b
    · subst same
      rw [Function.update_self]
      refine strung.insert unique ?_ ?_ (fun i here => ?_) fun i here => ?_
      · simp [Shape.linked]
      · simp [Shape.linked, before]
      · have different := apart c i (inside ▸ here)
        simp [Shape.linked, different, before]
      · have different := apart c i (inside ▸ here)
        simp [Shape.linked, different]
    · rw [Function.update_of_ne same]
      refine (orderly.strung c).congr (fun i here => ?_) fun i here => ?_
      · have different := apart c i here
        obtain ⟨notMember, notLast⟩ := elsewhere c same i here
        simp [Shape.linked, different, before, notLast]
      · have different := apart c i here
        obtain ⟨notMember, notLast⟩ := elsewhere c same i here
        simp [Shape.linked, different, notMember]
  · by_cases same : c = b
    · rw [same, Function.update_self]
      exact unique
    · rw [Function.update_of_ne same]
      exact orderly.unique c
  · have head := orderly.head c
    by_cases same : c = b
    · subst same
      rw [Function.update_self, Shape.linked, before]
      cases front with
      | nil => simp
      | cons first front =>
        rw [inside] at head
        simp [head]
    · rw [Function.update_of_ne same, ← head, Shape.linked]
      simp only
      split
      · rw [Function.update_of_ne same]
      · rfl
  · have tail := orderly.tail c
    by_cases same : c = b
    · subst same
      rw [Function.update_self]
      show shape.tail c = _
      rw [tail, inside]
      simp
    · rw [Function.update_of_ne same, ← tail]
      rfl
  · intro nonempty
    by_cases same : c = b
    · exact same ▸ orderly.bucket b (List.ne_nil_of_mem memberInside)
    · rw [Function.update_of_ne same] at nonempty
      exact orderly.bucket c nonempty
  · by_cases isNew : i = f
    · subst isNew
      by_cases same : c = b
      · rw [same, ← ttl]
        simp [Shape.linked]
      · rw [Function.update_of_ne same] at here
        exact absurd here (outside c)
    · rw [← orderly.ttl c i ((mem c i isNew).mp here)]
      simp [Shape.linked, isNew]
  · simp [different.symm]
  · rw [here]
    refine ⟨fun _ => ⟨b, by simp⟩, fun _ => rfl⟩
  · by_cases isNew : i = f
    · subst isNew
      rw [here]
      intro _
      refine iff_of_false (by simp) fun last => ?_
      by_cases same : c = b
      · subst same
        rw [Function.update_self, List.getLast?_append_cons, List.getLast?_cons_cons] at last
        exact absurd (List.mem_append_right _ (List.mem_of_getLast? last)) outsideHere
      · rw [Function.update_of_ne same] at there
        exact absurd there (outside c)
    · rw [(state i isNew).1]
      have was := orderly.last c i ((mem c i isNew).mp there)
      by_cases same : c = b
      · subst same
        rw [Function.update_self, List.getLast?_append_cons, List.getLast?_cons_cons]
        rw [inside, List.getLast?_append_cons] at was
        exact was
      · rw [Function.update_of_ne same]
        exact was
  · simp [here, isFresh]
  · simp [here]
  · refine iff_of_false (by simp [here]) (orderly.not_claimed fun same => ?_)
    rw [same] at was
    cases was
  · simp [here]
  · refine fun _ => orderly.range f fun free => ?_
    rw [free] at was
    cases was
  · simp [here]
  · by_cases isNew : i = f
    · subst isNew
      rw [here]
      cases shape' : (shape.node i).state <;> simp_all [isFresh]
    · rw [(state i isNew).1]

/-- A segment in hand becomes the last member of a chain. -/
theorem append {f : SegId} {d c : Option SegId} (orderly : Orderly config ⟨some f, d, c⟩ chain shape)
    (ttl : (shape.node f).ttl = bucketTtl b) (bucket : IsBucket b ∧ b < totalBuckets)
    (live : ∀ t, shape.tail b = some t → (shape.node t).state = .live) :
    Orderly config ⟨none, d, c⟩ (Function.update chain b (chain b ++ [f])) (shape.appended b f) := by
  have was : isFresh (shape.node f).state = true := (orderly.fresh f).mpr rfl
  have outside : ∀ b, f ∉ chain b := orderly.not_mem (not_holds_of_isFresh was)
  have unique : (chain b ++ [f]).Nodup := by
    rw [List.nodup_append]
    refine ⟨orderly.unique b, List.nodup_singleton f, fun i inside j last same => ?_⟩
    rw [List.mem_singleton.mp last] at same
    exact outside b (same ▸ inside)
  have tail := orderly.tail b
  have apart : ∀ c, ∀ i ∈ chain c, i ≠ f := fun c i here same => outside c (same ▸ here)
  have elsewhere : ∀ c, c ≠ b → ∀ i ∈ chain c, shape.tail b ≠ some i := by
    intro c different i here last
    rw [tail] at last
    exact different (orderly.eq_of_mem here (List.mem_of_getLast? last))
  have here : ((shape.appended b f).node f).state = .live := by simp [Shape.appended]
  have refCount : ∀ i, ((shape.appended b f).node i).refCount = (shape.node i).refCount := by
    intro i
    simp only [Shape.appended]
    split
    · rfl
    · split <;> rfl
  have states : ∀ i, i ≠ f → ((shape.appended b f).node i).state =
      if shape.tail b = some i then .sealed else (shape.node i).state := by
    intro i different
    simp only [Shape.appended, if_neg different]
    split <;> rfl
  have mem : ∀ c i, i ≠ f → (i ∈ Function.update chain b (chain b ++ [f]) c ↔ i ∈ chain c) := by
    intro c i different
    by_cases same : c = b
    · subst same
      simp [different]
    · rw [Function.update_of_ne same]
  refine ⟨⟨fun c => ?_, fun c => ?_, fun c => ?_, fun c => ?_, fun c => ?_, fun c i there => ?_⟩,
    ⟨fun i => ?_, fun c i there => ?_, fun i => ?_, fun i => ?_, fun i same => ?_,
      fun merges i same => ?_, fun i => ?_, fun i => ?_, fun i => ?_⟩, orderly.queues.congr (fun i => ?_) rfl rfl rfl⟩
  · by_cases same : c = b
    · subst same
      rw [Function.update_self]
      refine (orderly.strung c).append_one unique ?_ ?_ (fun i there => ?_) fun i there => ?_
      · simp [Shape.appended]
      · simp [Shape.appended, tail]
      · have different := apart c i there
        simp only [Shape.appended, if_neg different, ← tail]
        split <;> rfl
      · have different := apart c i there
        simp only [Shape.appended, if_neg different]
        split <;> rfl
    · rw [Function.update_of_ne same]
      refine (orderly.strung c).congr (fun i there => ?_) fun i there => ?_
      · simp [Shape.appended, apart c i there, elsewhere c same i there]
      · simp [Shape.appended, apart c i there, elsewhere c same i there]
  · by_cases same : c = b
    · rw [same, Function.update_self]
      exact unique
    · rw [Function.update_of_ne same]
      exact orderly.unique c
  · have head := orderly.head c
    by_cases same : c = b
    · subst same
      rw [Function.update_self]
      simp only [Shape.appended, tail]
      cases members : chain c with
      | nil => simp
      | cons first rest =>
        rw [members] at head
        simp [head]
    · rw [Function.update_of_ne same, ← head]
      simp only [Shape.appended]
      split
      · rw [Function.update_of_ne same]
      · rfl
  · by_cases same : c = b
    · simp [same, Shape.appended]
    · rw [Function.update_of_ne same, ← orderly.tail c]
      simp [Shape.appended, same]
  · intro nonempty
    by_cases same : c = b
    · exact same ▸ bucket
    · rw [Function.update_of_ne same] at nonempty
      exact orderly.bucket c nonempty
  · by_cases isNew : i = f
    · subst isNew
      by_cases same : c = b
      · rw [same, ← ttl]
        simp [Shape.appended]
      · rw [Function.update_of_ne same] at there
        exact absurd there (outside c)
    · rw [← orderly.ttl c i ((mem c i isNew).mp there)]
      simp only [Shape.appended, if_neg isNew]
      split <;> rfl
  · by_cases isNew : i = f
    · subst isNew
      rw [here]
      exact ⟨fun _ => ⟨b, by simp⟩, fun _ => rfl⟩
    · rw [exists_congr fun c => mem c i isNew, ← orderly.member, states i isNew]
      split
      · rename_i last
        rw [live i last]
        simp [holds]
      · rfl
  · intro awake
    by_cases isNew : i = f
    · subst isNew
      rw [here]
      by_cases same : c = b
      · simp [same]
      · rw [Function.update_of_ne same] at there
        exact absurd there (outside c)
    · rw [states i isNew] at awake ⊢
      have inside := (mem c i isNew).mp there
      by_cases same : c = b
      · subst same
        rw [Function.update_self, List.getLast?_concat]
        refine iff_of_false (fun alive => ?_) fun last => isNew (Option.some.inj last).symm
        split at alive
        · cases alive
        · rename_i notLast
          rw [if_neg notLast] at awake
          exact notLast (tail.trans ((orderly.last c i inside awake).mp alive))
      · rw [Function.update_of_ne same]
        rw [if_neg (elsewhere c same i inside)] at awake ⊢
        exact orderly.last c i inside awake
  · by_cases isNew : i = f
    · simp [isNew, here, isFresh]
    · have := orderly.fresh i
      rw [states i isNew]
      split
      · simp [isFresh]
      · simpa [Ne.symm isNew] using this
  · by_cases isNew : i = f
    · subst isNew
      rw [here, ← orderly.dest]
      cases shape' : (shape.node i).state <;> simp_all [isFresh]
    · rw [states i isNew, ← orderly.dest]
      split
      · rename_i last
        simp [live i last]
      · rfl
  · have draining := orderly.claimed i same
    have isOld : i ≠ f := by
      rintro rfl
      rw [draining] at was
      cases was
    rw [states i isOld, if_neg, draining]
    intro last
    rw [live i last] at draining
    cases draining
  · by_cases isNew : i = f
    · rw [isNew, here] at same
      cases same
    · rw [states i isNew] at same
      split at same
      · cases same
      · exact orderly.unclaimed merges i same
  · by_cases isNew : i = f
    · simp [isNew, here]
    · rw [states i isNew]
      split
      · simp
      · exact orderly.unlocked i
  · intro busy
    by_cases isNew : i = f
    · subst isNew
      refine orderly.range i fun free => ?_
      rw [free] at was
      cases was
    · rw [states i isNew] at busy
      refine orderly.range i ?_
      split at busy
      · rename_i last
        simp [live i last]
      · exact busy
  · intro waits
    rw [refCount]
    by_cases isNew : i = f
    · rw [isNew, here] at waits
      cases waits
    · rw [states i isNew] at waits
      split at waits
      · cases waits
      · exact orderly.waiting i waits
  · by_cases isNew : i = f
    · subst isNew
      rw [here]
      cases shape' : (shape.node i).state <;> simp_all [isFresh]
    · rw [states i isNew]
      split
      · rename_i last
        simp [live i last]
      · rfl

/-- A claimed member leaves its chain. -/
theorem leave {f d : Option SegId} {front back : List SegId}
    (orderly : Orderly config ⟨f, d, some id⟩ chain shape) (inside : chain b = front ++ id :: back)
    (alone : back = [] → ∀ i ∈ front, (shape.node i).state = .draining) {other : Shape}
    (nodes : other.node = (shape.left config id).node)
    (queues : other.freeQueue = (shape.left config id).freeQueue ∧
      other.spareQueue = (shape.left config id).spareQueue ∧
      other.spareCount = (shape.left config id).spareCount)
    (heads : ∀ c, other.head c = if shape.head c = some id then back.head? else shape.head c)
    (tails : ∀ c, other.tail c = if shape.tail c = some id then front.getLast? else shape.tail c) :
    Orderly config ⟨f, d, none⟩ (Function.update chain b (front ++ back)) other := by
  have state : (shape.node id).state = .draining := orderly.claimed id rfl
  have uniqueOld : (front ++ id :: back).Nodup := inside ▸ orderly.unique b
  obtain ⟨-, -, notFront, notBack, apartParts⟩ := nodup_middle uniqueOld
  have strung := orderly.strung b
  rw [inside] at strung
  have prev : (shape.node id).prev = front.getLast? := by
    have := strung.member.1
    rwa [Option.or_none] at this
  have next : (shape.node id).next = back.head? := by
    have := strung.member.2
    rwa [Option.or_none] at this
  have idInside : id ∈ chain b := by
    rw [inside]
    simp
  have outside : ∀ c, id ∉ Function.update chain b (front ++ back) c := by
    intro c there
    by_cases same : c = b
    · subst same
      rw [Function.update_self, List.mem_append] at there
      exact there.elim notFront notBack
    · rw [Function.update_of_ne same] at there
      exact same (orderly.eq_of_mem there idInside)
  have mem : ∀ c i, i ≠ id → (i ∈ Function.update chain b (front ++ back) c ↔ i ∈ chain c) := by
    intro c i different
    by_cases same : c = b
    · subst same
      rw [Function.update_self, inside]
      simp [different]
    · rw [Function.update_of_ne same]
  have others : ∀ i, i ≠ id → other.node i =
      { shape.node i with
        next := if front.getLast? = some i then back.head? else (shape.node i).next
        prev := if back.head? = some i then front.getLast? else (shape.node i).prev } := by
    intro i different
    rw [nodes, Shape.left_node different, Shape.patched, prev, next]
  have here : (other.node id).state = .free ∨
      ((other.node id).state = .awaitingRelease ∧ 0 < (other.node id).refCount) := by
    rw [nodes]
    exact Shape.left_state
  have elsewhere : ∀ c, c ≠ b → ∀ i ∈ chain c, front.getLast? ≠ some i ∧ back.head? ≠ some i := by
    intro c different i there
    refine ⟨fun last => ?_, fun first => ?_⟩
    · have inB : i ∈ chain b := by
        rw [inside]
        exact List.mem_append_left _ (List.mem_of_getLast? last)
      exact different (orderly.eq_of_mem there inB)
    · have inB : i ∈ chain b := by
        rw [inside]
        exact List.mem_append_right _ (List.mem_cons_of_mem _ (List.mem_of_head? first))
      exact different (orderly.eq_of_mem there inB)
  refine ⟨⟨fun c => ?_, fun c => ?_, fun c => ?_, fun c => ?_, fun c => ?_, fun c i there => ?_⟩,
    orderly.toStated.step id (fun i different => ?_)
      (fun i different => exists_congr fun c => mem c i different)
      (fun i different => ?_) ?_ (fun c i there => ?_) ?_ ?_ ?_ ?_ ?_ ?_, ?_⟩
  · by_cases same : c = b
    · subst same
      rw [Function.update_self]
      refine strung.remove uniqueOld (fun i there => ?_) fun i there => ?_
      · have different : i ≠ id := fun eq => (List.mem_append.mp (eq ▸ there)).elim notFront notBack
        simp [others i different]
      · have different : i ≠ id := fun eq => (List.mem_append.mp (eq ▸ there)).elim notFront notBack
        simp [others i different]
    · rw [Function.update_of_ne same]
      have different : ∀ i ∈ chain c, i ≠ id := fun i there eq =>
        same (orderly.eq_of_mem there (eq ▸ idInside))
      refine (orderly.strung c).congr (fun i there => ?_) fun i there => ?_
      · simp [others i (different i there), (elsewhere c same i there).1]
      · simp [others i (different i there), (elsewhere c same i there).2]
  · by_cases same : c = b
    · subst same
      rw [Function.update_self]
      rw [List.nodup_middle, List.nodup_cons] at uniqueOld
      exact uniqueOld.2
    · rw [Function.update_of_ne same]
      exact orderly.unique c
  · rw [heads]
    have head := orderly.head c
    by_cases same : c = b
    · subst same
      rw [Function.update_self, head, inside]
      cases front with
      | nil => simp
      | cons first front =>
        have different : first ≠ id := fun eq => notFront (eq ▸ List.mem_cons_self ..)
        simp [different]
    · rw [Function.update_of_ne same, if_neg]
      · exact head
      · rw [head]
        exact fun first => same (orderly.eq_of_mem (List.mem_of_head? first) idInside)
  · rw [tails]
    have tail := orderly.tail c
    by_cases same : c = b
    · subst same
      rw [Function.update_self, tail, inside]
      cases backs : back with
      | nil => simp
      | cons first rest =>
        have last : (front ++ id :: first :: rest).getLast? = (front ++ first :: rest).getLast? := by
          simp [List.getLast?_append, List.getLast?_cons_cons]
        rw [last, if_neg]
        intro isLast
        have := List.mem_of_getLast? isLast
        rw [← backs, List.mem_append] at this
        exact this.elim notFront notBack
    · rw [Function.update_of_ne same, if_neg]
      · exact tail
      · rw [tail]
        exact fun last => same (orderly.eq_of_mem (List.mem_of_getLast? last) idInside)
  · intro nonempty
    by_cases same : c = b
    · exact same ▸ orderly.bucket b (List.ne_nil_of_mem idInside)
    · rw [Function.update_of_ne same] at nonempty
      exact orderly.bucket c nonempty
  · have different : i ≠ id := fun eq => outside c (eq ▸ there)
    rw [others i different, ← orderly.ttl c i ((mem c i different).mp there)]
  · rw [others i different]
    exact ⟨rfl, rfl⟩
  · simp [different.symm]
  · refine iff_of_false (fun held => ?_) fun ⟨c, there⟩ => outside c there
    rcases here with free | ⟨waits, -⟩
    · simp [free, holds] at held
    · simp [waits, holds] at held
  · have different : i ≠ id := fun eq => outside c (eq ▸ there)
    rw [others i different]
    intro awake
    have was := orderly.last c i ((mem c i different).mp there) awake
    by_cases same : c = b
    · subst same
      rw [Function.update_self] at there ⊢
      rw [inside] at was
      cases back with
      | nil =>
        rw [List.append_nil] at there
        exact absurd (alone rfl i there) awake
      | cons first rest =>
        have last : (front ++ id :: first :: rest).getLast? = (front ++ first :: rest).getLast? := by
          simp [List.getLast?_append, List.getLast?_cons_cons]
        rwa [last] at was
    · rw [Function.update_of_ne same]
      exact was
  · have := orderly.fresh id
    rw [state] at this
    rcases here with free | ⟨waits, -⟩
    · simpa [free, isFresh] using this
    · simpa [waits, isFresh] using this
  · have := orderly.dest id
    rw [state] at this
    rcases here with free | ⟨waits, -⟩
    · simpa [free] using this
    · simpa [waits] using this
  · rcases here with free | ⟨waits, -⟩
    · simp [free]
    · simp [waits]
  · rcases here with free | ⟨waits, -⟩
    · simp [free]
    · simp [waits]
  · exact fun _ => orderly.range id (by simp [state])
  · rcases here with free | ⟨waits, pinned⟩
    · simp [free]
    · exact fun _ => pinned
  · suffices left : Queued config (shape.left config id) from
      left.congr (fun i => by rw [nodes]) queues.1 queues.2.1 queues.2.2
    simp only [Shape.left]
    split
    · refine orderly.queues.returned (orderly.range id (by simp [state])) (by simp [state])
        (fun i => ?_) rfl rfl rfl
      by_cases same : i = id
      · simp [same]
      · simp [same, Shape.patched]
    · refine orderly.queues.congr (fun i => ?_) rfl rfl rfl
      by_cases same : i = id
      · simp [same, state]
      · simp [same, Shape.patched]

/-- Without a segment in hand, a member is live or sealed, or was left claimed. -/
theorem settled {i : SegId} (orderly : Orderly config Hand.empty chain shape)
    (held : holds (shape.node i).state = true) :
    ((shape.node i).state = .sealed ∨ (shape.node i).state = .live) ∨
      (shape.node i).state = .draining := by
  have dest := orderly.dest i
  cases state : (shape.node i).state <;> simp_all [holds, Hand.empty]

/-- No segment is left claimed where a merge takes its first candidate. -/
theorem not_draining {f d : Option SegId} (orderly : Orderly config ⟨f, d, none⟩ chain shape)
    (merges : config.Merges) (i : SegId) : (shape.node i).state ≠ .draining :=
  fun same => by cases orderly.unclaimed merges i same

/-- Where a merge does not take its first candidate, that is left claimed. -/
theorem abandon {f d : Option SegId} (orderly : Orderly config ⟨f, d, some id⟩ chain shape)
    (stops : ¬ config.Merges) : Orderly config ⟨f, d, none⟩ chain shape where
  toChained := orderly.toChained
  member := orderly.member
  last := orderly.last
  fresh := orderly.fresh
  dest := orderly.dest
  claimed i same := by cases same
  unclaimed merges := absurd merges stops
  unlocked := orderly.unlocked
  range := orderly.range
  waiting := orderly.waiting
  queues := orderly.queues

/-- Where a member is in its chain. -/
theorem split {i : SegId} (orderly : Orderly config hand chain shape)
    (held : holds (shape.node i).state = true) : ∃ b front back, chain b = front ++ i :: back := by
  obtain ⟨b, inside⟩ := (orderly.member i).mp held
  obtain ⟨front, back, split⟩ := List.append_of_mem inside
  exact ⟨b, front, back, split⟩

section Member

variable {front back : List SegId} (orderly : Orderly config hand chain shape)
  (inside : chain b = front ++ id :: back)

include orderly inside

theorem links : (shape.node id).prev = front.getLast? ∧ (shape.node id).next = back.head? := by
  have strung := orderly.strung b
  rw [inside] at strung
  have := strung.member
  rwa [Option.or_none, Option.or_none] at this

theorem not_own : (shape.node id).prev ≠ some id ∧ (shape.node id).next ≠ some id := by
  have unique := orderly.unique b
  rw [inside] at unique
  obtain ⟨-, -, notFront, notBack, -⟩ := nodup_middle unique
  rw [(orderly.links inside).1, (orderly.links inside).2]
  exact ⟨fun last => notFront (List.mem_of_getLast? last),
    fun first => notBack (List.mem_of_head? first)⟩

/-- Only the last member is live. -/
theorem not_last (state : (shape.node id).state = .sealed ∨ (shape.node id).state = .relinking) :
    back ≠ [] := by
  rintro rfl
  have last := orderly.last b id (by rw [inside]; simp) (by
    rcases state with same | same <;> simp [same])
  rw [inside, List.getLast?_concat] at last
  have live := last.mpr rfl
  rcases state with same | same <;> simp [same] at live

theorem head_iff : shape.head b = some id ↔ (shape.node id).prev = none := by
  have unique := orderly.unique b
  rw [inside] at unique
  obtain ⟨-, -, notFront, -, -⟩ := nodup_middle unique
  rw [orderly.head, inside, (orderly.links inside).1]
  cases front with
  | nil => simp
  | cons first front =>
    have different : first ≠ id := fun same => notFront (same ▸ List.mem_cons_self ..)
    simp [different, List.getLast?_cons]

theorem tail_iff : shape.tail b = some id ↔ (shape.node id).next = none := by
  have unique := orderly.unique b
  rw [inside] at unique
  obtain ⟨-, -, -, notBack, -⟩ := nodup_middle unique
  rw [orderly.tail, inside, (orderly.links inside).2]
  cases back with
  | nil => simp
  | cons first back =>
    have last : (front ++ id :: first :: back).getLast? = (first :: back).getLast? := by
      simp [List.getLast?_append, List.getLast?_cons_cons]
      rfl
    rw [last]
    simp only [List.head?_cons, reduceCtorEq, iff_false]
    exact fun same => notBack (List.mem_of_getLast? same)

/-- The ends of the other buckets are other segments. -/
theorem ends_elsewhere {c : Nat} (different : c ≠ b) :
    shape.head c ≠ some id ∧ shape.tail c ≠ some id := by
  have here : id ∈ chain b := by
    rw [inside]
    simp
  rw [orderly.head, orderly.tail]
  exact ⟨fun first => different (orderly.eq_of_mem (List.mem_of_head? first) here),
    fun last => different (orderly.eq_of_mem (List.mem_of_getLast? last) here)⟩

end Member

/-- A claimed member leaves its chain, and a head that named it is patched. -/
theorem leave_head {f d : Option SegId} {front back : List SegId}
    (orderly : Orderly config ⟨f, d, some id⟩ chain shape) (inside : chain b = front ++ id :: back)
    (notLast : back ≠ []) :
    Orderly config ⟨f, d, none⟩ (Function.update chain b (front ++ back))
      { shape.left config id with
        head := if (shape.node id).prev = none then
            Function.update shape.head b (shape.node id).next
          else shape.head
        tail := shape.tail } := by
  have head := orderly.head_iff inside
  have tail := orderly.tail_iff inside
  have links := orderly.links inside
  refine orderly.leave inside (fun empty => absurd empty notLast) rfl ⟨rfl, rfl, rfl⟩ (fun c => ?_)
    fun c => ?_
  · show (if (shape.node id).prev = none then _ else _ : Nat → Option SegId) c = _
    rw [← links.2]
    by_cases same : c = b
    · subst same
      split
      · rename_i first
        rw [Function.update_self, if_pos (head.mpr first)]
      · rename_i first
        rw [if_neg fun isHead => first (head.mp isHead)]
    · rw [if_neg (orderly.ends_elsewhere inside same).1]
      split
      · rw [Function.update_of_ne same]
      · rfl
  · show shape.tail c = _
    by_cases same : c = b
    · subst same
      rw [if_neg]
      rw [tail, links.2, List.head?_eq_none_iff]
      exact notLast
    · rw [if_neg (orderly.ends_elsewhere inside same).2]

/-- A claimed member leaves its chain, and the ends that named it are patched. -/
theorem leave_ends {f d : Option SegId} {front back : List SegId}
    (orderly : Orderly config ⟨f, d, some id⟩ chain shape) (inside : chain b = front ++ id :: back)
    (alone : back = [] → ∀ i ∈ front, (shape.node i).state = .draining) :
    Orderly config ⟨f, d, none⟩ (Function.update chain b (front ++ back))
      { shape.left config id with
        head := (shape.patchEnds b id).head
        tail := (shape.patchEnds b id).tail } := by
  have links := orderly.links inside
  refine orderly.leave inside alone rfl ⟨rfl, rfl, rfl⟩ (fun c => ?_) fun c => ?_
  · rw [← links.2]
    by_cases same : c = b
    · subst same
      exact Function.update_self ..
    · rw [if_neg (orderly.ends_elsewhere inside same).1]
      exact Function.update_of_ne same ..
  · rw [← links.1]
    by_cases same : c = b
    · subst same
      exact Function.update_self ..
    · rw [if_neg (orderly.ends_elsewhere inside same).2]
      exact Function.update_of_ne same ..

end Orderly

end CacheRs.Segcache
