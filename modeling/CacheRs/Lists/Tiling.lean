/-
**Records laid one behind the other.**

A record at a position takes `size position` places, at least one; a scan steps from record to record
by their sizes, up to a limit.

* `Tiled`: records from a position on, up to another;
* `tiled_iff_spanned`: the records are ranges laid end to end;
* `Tiled.append`, `Tiled.congr`, `Tiled.bounds`, `Tiled.apart`: laying one more, and what keeps them;
* `scan`: the positions a scan comes to;
* `Tiled.scan_eq`: **a scan comes to the records, each once and in order**.
-/

import CacheRs.Lists.Spans

namespace Tiling

open Spans

variable {size other : Nat → Nat}

/-- Records laid from `first` up to `last`, at these positions. -/
def Tiled (size : Nat → Nat) : Nat → List Nat → Nat → Prop
  | first, [], last => first = last
  | first, position :: rest, last => position = first ∧ Tiled size (first + size first) rest last

theorem tiled_iff_spanned {first last : Nat} {positions : List Nat} :
    Tiled size first positions last ↔
      Spanned first (positions.map fun position => (position, size position)) last := by
  induction positions generalizing first with
  | nil => exact Iff.rfl
  | cons position rest ih =>
    constructor
    · rintro ⟨rfl, tiled⟩
      exact ⟨rfl, ih.mp tiled⟩
    · rintro ⟨start, spanned⟩
      obtain rfl : position = first := start
      exact ⟨rfl, ih.mpr spanned⟩

theorem Tiled.append {first last : Nat} {positions : List Nat} (tiled : Tiled size first positions last) :
    Tiled size first (positions ++ [last]) (last + size last) := by
  rw [tiled_iff_spanned, List.map_append]
  exact (tiled_iff_spanned.mp tiled).append (size last)

/-- Only the records' own sizes matter. -/
theorem Tiled.congr {first last : Nat} {positions : List Nat} (tiled : Tiled size first positions last)
    (same : ∀ position ∈ positions, other position = size position) :
    Tiled other first positions last := by
  have spans : (positions.map fun position => (position, other position))
      = positions.map fun position => (position, size position) :=
    List.map_congr_left fun position inside => by rw [same position inside]
  rw [tiled_iff_spanned, spans]
  exact tiled_iff_spanned.mp tiled

/-- Every record lies inside. -/
theorem Tiled.bounds {first last : Nat} {positions : List Nat} (tiled : Tiled size first positions last)
    {position : Nat} (inside : position ∈ positions) :
    first ≤ position ∧ position + size position ≤ last :=
  (tiled_iff_spanned.mp tiled).bounds (fun _ _ => Nat.zero_le _) (List.mem_map_of_mem inside)

/-- A record ends where a later one starts, or before. -/
theorem Tiled.ordered {first last : Nat} {positions : List Nat}
    (tiled : Tiled size first positions last) :
    positions.Pairwise fun one two => one + size one ≤ two := by
  have ordered := (tiled_iff_spanned.mp tiled).ordered fun _ _ => Nat.zero_le _
  rw [List.pairwise_map] at ordered
  exact ordered

/-- Two records do not overlap. -/
theorem Tiled.apart {first last : Nat} {positions : List Nat} (tiled : Tiled size first positions last)
    {one two : Nat} (hasOne : one ∈ positions) (hasTwo : two ∈ positions) (different : one ≠ two) :
    one + size one ≤ two ∨ two + size two ≤ one := by
  have symmetric : Std.Symm fun one two => one + size one ≤ two ∨ two + size two ≤ one :=
    ⟨fun _ _ => Or.symm⟩
  have apart : positions.Pairwise fun one two => one + size one ≤ two ∨ two + size two ≤ one :=
    tiled.ordered.imp Or.inl
  exact apart.forall hasOne hasTwo different

theorem Tiled.pairwise_lt {first last : Nat} {positions : List Nat}
    (tiled : Tiled size first positions last) (positive : ∀ position, 0 < size position) :
    positions.Pairwise (· < ·) :=
  tiled.ordered.imp fun apart => Nat.lt_of_lt_of_le (Nat.lt_add_of_pos_right (positive _)) apart

/-- The positions a scan comes to: it steps by the records' sizes while it is at the limit or before. -/
def scan (size : Nat → Nat) (positive : ∀ position, 0 < size position) (limit position : Nat) :
    List Nat :=
  if position ≤ limit then position :: scan size positive limit (position + size position) else []
  termination_by limit + 1 - position
  decreasing_by
    have := positive position
    omega

section Scan

variable {positive : ∀ position, 0 < size position} {limit : Nat}

theorem scan_of_le {position : Nat} (within : position ≤ limit) :
    scan size positive limit position =
      position :: scan size positive limit (position + size position) := by
  rw [scan, if_pos within]

theorem scan_of_lt {position : Nat} (past : limit < position) :
    scan size positive limit position = [] := by
  rw [scan, if_neg (by omega)]

/-- **A scan comes to the records**, if the limit lies at or behind each of them, and before their end. -/
theorem Tiled.scan_eq {first last : Nat} {positions : List Nat}
    (tiled : Tiled size first positions last) (within : ∀ position ∈ positions, position ≤ limit)
    (past : limit < last) : scan size positive limit first = positions := by
  induction positions generalizing first with
  | nil =>
    obtain rfl : first = last := tiled
    exact scan_of_lt past
  | cons position rest ih =>
    obtain ⟨rfl, tiled⟩ := tiled
    rw [scan_of_le (within position (List.mem_cons_self ..))]
    rw [ih tiled fun later inside => within later (List.mem_cons_of_mem _ inside)]

end Scan

end Tiling
