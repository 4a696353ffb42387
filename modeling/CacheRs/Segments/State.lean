/-
**Segment states and the packed metadata word.**

A segment's state, its two chain links and its lifetime tag share one atomic word. The protocols
below compare and exchange whole words; they are modelled on the unpacked record:

* `State.isReadable`, `State.isWritable`, `State.isEvictable`: what each state permits;
* `Metadata.unpack_pack`, `Metadata.pack_injective`: two records within their field widths are equal
  exactly when their words are, so exchanging records is exchanging words.
-/

import Mathlib

namespace CacheRs.Segments

/-- A segment id; ids start at one. -/
abbrev SegId := Nat

/-- The state of a segment in its lifecycle. -/
inductive State where
  | free
  | reserved
  | linking
  | live
  | sealed
  | relinking
  | draining
  | locked
  | awaitingRelease
  deriving DecidableEq, Repr

namespace State

/-- The discriminant stored in the metadata word. -/
def toNat : State → Nat
  | .free => 0
  | .reserved => 1
  | .linking => 2
  | .live => 3
  | .sealed => 4
  | .relinking => 5
  | .draining => 6
  | .locked => 7
  | .awaitingRelease => 8

/-- The state with a discriminant; the source panics on any other value. -/
def fromU8 : Nat → Option State
  | 0 => some .free
  | 1 => some .reserved
  | 2 => some .linking
  | 3 => some .live
  | 4 => some .sealed
  | 5 => some .relinking
  | 6 => some .draining
  | 7 => some .locked
  | 8 => some .awaitingRelease
  | _ => none

/-- Reads may pin a live, sealed or relinking segment. -/
def isReadable (state : State) : Bool :=
  state = .live || state = .sealed || state = .relinking

/-- Only the live tail takes appends. -/
def isWritable (state : State) : Bool := state = .live

/-- Only a sealed segment may be evicted. -/
def isEvictable (state : State) : Bool := state = .sealed

/-- Replaces and deletes may remove items of a sealed or live segment. -/
def isRemovable (state : State) : Bool := state = .sealed || state = .live

@[simp] theorem fromU8_toNat (state : State) : fromU8 state.toNat = some state := by
  cases state <;> rfl

theorem toNat_lt (state : State) : state.toNat < 9 := by
  cases state <;> decide

end State

/-- The unpacked metadata word. -/
structure Metadata where
  next : Option SegId
  prev : Option SegId
  state : State
  /-- The lifetime tag, meaningful only while `awaitingRelease`. -/
  tag : Nat
  deriving DecidableEq, Repr

namespace Metadata

/-- A fresh, unlinked segment's word. -/
def newFree : Metadata := ⟨none, none, .free, 0⟩

/-- A link's 24 bits: zero is no link. -/
def linkBits (link : Option SegId) : Nat := link.getD 0

/-- The link stored in 24 bits. -/
def linkOf (bits : Nat) : Option SegId := if bits = 0 then none else some bits

/-- The fields fit their bits, as the source's types and its cap on segment ids ensure. -/
structure Fits (metadata : Metadata) : Prop where
  next : ∀ id ∈ metadata.next, 0 < id ∧ id < 2 ^ 24
  prev : ∀ id ∈ metadata.prev, 0 < id ∧ id < 2 ^ 24
  tag : metadata.tag < 2 ^ 8

/-- `[8 tag][8 state][24 prev][24 next]`. -/
def pack (metadata : Metadata) : Nat :=
  metadata.tag * 2 ^ 56 + metadata.state.toNat * 2 ^ 48 +
    linkBits metadata.prev * 2 ^ 24 + linkBits metadata.next

/-- Read the fields back; `none` where the source panics on an invalid state. -/
def unpack (packed : Nat) : Option Metadata :=
  (State.fromU8 (packed / 2 ^ 48 % 2 ^ 8)).map fun state =>
    ⟨linkOf (packed % 2 ^ 24), linkOf (packed / 2 ^ 24 % 2 ^ 24), state,
      packed / 2 ^ 56 % 2 ^ 8⟩

theorem linkBits_lt {link : Option SegId} (fits : ∀ id ∈ link, 0 < id ∧ id < 2 ^ 24) :
    linkBits link < 2 ^ 24 := by
  cases link with
  | none => decide
  | some id => exact (fits id rfl).2

theorem linkOf_linkBits {link : Option SegId} (fits : ∀ id ∈ link, 0 < id ∧ id < 2 ^ 24) :
    linkOf (linkBits link) = link := by
  cases link with
  | none => rfl
  | some id =>
    have nonzero : id ≠ 0 := Nat.ne_of_gt (fits id rfl).1
    show (if id = 0 then none else some id) = some id
    rw [if_neg nonzero]

/-- Unpacking a packed word gives the fields back. -/
theorem unpack_pack {metadata : Metadata} (fits : metadata.Fits) :
    unpack metadata.pack = some metadata := by
  have nextBits := linkBits_lt fits.next
  have prevBits := linkBits_lt fits.prev
  have tagBits := fits.tag
  have stateBits := metadata.state.toNat_lt
  have state : metadata.pack / 2 ^ 48 % 2 ^ 8 = metadata.state.toNat := by
    unfold pack
    omega
  have next : metadata.pack % 2 ^ 24 = linkBits metadata.next := by
    unfold pack
    omega
  have prev : metadata.pack / 2 ^ 24 % 2 ^ 24 = linkBits metadata.prev := by
    unfold pack
    omega
  have tag : metadata.pack / 2 ^ 56 % 2 ^ 8 = metadata.tag := by
    unfold pack
    omega
  rw [unpack, state, next, prev, tag, State.fromU8_toNat, linkOf_linkBits fits.next,
    linkOf_linkBits fits.prev]
  rfl

/-- **A word determines its record.** -/
theorem pack_injective {first second : Metadata} (firstFits : first.Fits)
    (secondFits : second.Fits) (same : first.pack = second.pack) : first = second := by
  have unpacked := unpack_pack firstFits
  rw [same, unpack_pack secondFits] at unpacked
  exact (Option.some.inj unpacked).symm

end Metadata

end CacheRs.Segments
