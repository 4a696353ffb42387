/-
**Items laid out in a segment, and sums over them.**

* `layOut_append`, `mem_layOut_bounds`, `layOut_offset_unique`: items lie one behind the other;
* `itemAt_iff`: the item at an offset is the one laid out there;
* `Laid`: the write offset is the end of the last item, and `walk_of_laid`: a scan then visits every
  item;
* `total_congr`, `total_drop`, `total_append`: sums over the items that count.
-/

import CacheRs.Segcache.State

set_option linter.unusedSectionVars false

namespace CacheRs.Segcache

open KeyValue (Value)

section Layout

variable {config : Config}

theorem itemSize_ge (key : Key) (value : Value) (optional : Optional) :
    config.layout.headerSize + 1 ≤ config.itemSize key value optional := by
  unfold Config.itemSize KeyValue.Layout.itemSize
  rw [KeyValue.Layout.itemSizeFor_eq]
  omega

theorem itemSize_dvd (key : Key) (value : Value) (optional : Optional) :
    config.itemSize key value optional % 8 = 0 := by
  unfold Config.itemSize KeyValue.Layout.itemSize
  rw [KeyValue.Layout.itemSizeFor_eq]
  omega

theorem Item.size_ge (item : Item) : config.layout.headerSize + 1 ≤ item.size config :=
  itemSize_ge ..

theorem Item.size_pos (item : Item) : 0 < item.size config :=
  lt_of_lt_of_le (Nat.succ_pos _) item.size_ge

/-- The bytes a list of items takes. -/
def totalSize (config : Config) (items : List Item) : Nat :=
  (items.map fun item => item.size config).sum

@[simp] theorem totalSize_nil : totalSize config [] = 0 := rfl

@[simp] theorem totalSize_cons (item : Item) (items : List Item) :
    totalSize config (item :: items) = item.size config + totalSize config items := by
  simp [totalSize]

@[simp] theorem totalSize_append (front back : List Item) :
    totalSize config (front ++ back) = totalSize config front + totalSize config back := by
  simp [totalSize]

namespace Segment

theorem layOut_append (start : Nat) (front back : List Item) :
    layOut config start (front ++ back) =
      layOut config start front ++ layOut config (start + totalSize config front) back := by
  induction front generalizing start with
  | nil => simp [layOut]
  | cons item front ih => simp [layOut, ih, Nat.add_assoc]

theorem map_snd_layOut (start : Nat) (items : List Item) :
    (layOut config start items).map Prod.snd = items := by
  induction items generalizing start with
  | nil => rfl
  | cons item items ih => simp [layOut, ih]

/-- A laid out item lies between the list's ends. -/
theorem mem_layOut_bounds {start offset : Nat} {item : Item} {items : List Item}
    (placed : (offset, item) ∈ layOut config start items) :
    start ≤ offset ∧ offset + item.size config ≤ start + totalSize config items := by
  induction items generalizing start with
  | nil => simp [layOut] at placed
  | cons first items ih =>
    rw [layOut, List.mem_cons] at placed
    rcases placed with same | later
    · cases same
      simp
    · have bounds := ih later
      rw [totalSize_cons]
      omega

/-- An offset is a sum of item sizes. -/
theorem mem_layOut_dvd {start offset : Nat} {item : Item} {items : List Item}
    (placed : (offset, item) ∈ layOut config start items) : (offset - start) % 8 = 0 := by
  induction items generalizing start with
  | nil => simp [layOut] at placed
  | cons first items ih =>
    rw [layOut, List.mem_cons] at placed
    rcases placed with same | later
    · cases same
      simp
    · have := ih later
      have := (mem_layOut_bounds later).1
      have : first.size config % 8 = 0 := itemSize_dvd ..
      omega

/-- Items begin at different offsets. -/
theorem layOut_nodup (start : Nat) (items : List Item) :
    ((layOut config start items).map Prod.fst).Nodup := by
  induction items generalizing start with
  | nil => simp [layOut]
  | cons item items ih =>
    rw [layOut, List.map_cons, List.nodup_cons]
    refine ⟨fun again => ?_, ih _⟩
    obtain ⟨⟨offset, other⟩, placed, same⟩ := List.mem_map.mp again
    have := (mem_layOut_bounds placed).1
    have : 0 < item.size config := item.size_pos
    simp only at same
    omega

theorem layOut_offset_unique {start offset : Nat} {item other : Item} {items : List Item}
    (placed : (offset, item) ∈ layOut config start items)
    (again : (offset, other) ∈ layOut config start items) : item = other := by
  have unique : ((layOut config start items).map Prod.fst).Nodup := layOut_nodup start items
  exact congrArg Prod.snd (List.inj_on_of_nodup_map unique placed again rfl)

theorem itemAt_iff {segment : Segment} {offset : Nat} {item : Item} :
    segment.itemAt config offset = some item ↔
      (offset, item) ∈ layOut config config.initialOffset segment.items := by
  unfold itemAt
  constructor
  · intro found
    obtain ⟨⟨at_, held⟩, first, rfl⟩ := Option.map_eq_some_iff.mp found
    have here := List.find?_some first
    simp only [decide_eq_true_eq] at here
    subst here
    exact List.mem_of_find?_eq_some first
  · intro placed
    cases found : (layOut config config.initialOffset segment.items).find?
        fun placed => placed.1 = offset with
    | none =>
      have := List.find?_eq_none.mp found _ placed
      simp at this
    | some other =>
      obtain ⟨at_, held⟩ := other
      have here := List.find?_some found
      simp only [decide_eq_true_eq] at here
      subst here
      rw [layOut_offset_unique (List.mem_of_find?_eq_some found) placed]
      rfl

/-- The write offset is where the last item ends. -/
structure Laid (config : Config) (segment : Segment) : Prop where
  writeOffset : segment.writeOffset = config.initialOffset + totalSize config segment.items
  fits : segment.writeOffset ≤ config.segmentSize

/-- **A scan of a laid out segment visits every item.** -/
theorem walk_of_laid {segment : Segment} (laid : segment.Laid config) :
    segment.walk config = layOut config config.initialOffset segment.items := by
  rw [walk, List.takeWhile_eq_self_iff]
  intro placed inside
  obtain ⟨offset, item⟩ := placed
  have bounds := (mem_layOut_bounds inside).2
  have size : config.layout.headerSize + 1 ≤ item.size config := item.size_ge
  have fits := laid.fits
  rw [← laid.writeOffset] at bounds
  rw [decide_eq_true_eq, maxItemOffset, if_pos (by omega)]
  omega

theorem modifyItem_length {change : Item → Item} {target offset : Nat} {items : List Item} :
    (modifyItem config change target offset items).length = items.length := by
  induction items generalizing offset with
  | nil => rfl
  | cons item items ih => simp [modifyItem, ih]

/-- A change that keeps an item's size changes nothing but that item. -/
theorem layOut_modifyItem {change : Item → Item} {target : Nat} (start : Nat) (items : List Item)
    (keeps : ∀ item, (target, item) ∈ layOut config start items →
      (change item).size config = item.size config) :
    layOut config start (modifyItem config change target start items) =
      (layOut config start items).map fun placed =>
        (placed.1, if placed.1 = target then change placed.2 else placed.2) := by
  induction items generalizing start with
  | nil => rfl
  | cons item items ih =>
    have size : (if start = target then change item else item).size config = item.size config := by
      split
      · rename_i here
        exact keeps item (here ▸ List.mem_cons_self ..)
      · rfl
    rw [modifyItem, layOut, layOut, size, List.map_cons,
      ih _ fun other placed => keeps other (List.mem_cons_of_mem _ placed)]

theorem totalSize_modifyItem {change : Item → Item} {target : Nat} (start : Nat)
    (items : List Item) (keeps : ∀ item, (target, item) ∈ layOut config start items →
      (change item).size config = item.size config) :
    totalSize config (modifyItem config change target start items) = totalSize config items := by
  induction items generalizing start with
  | nil => rfl
  | cons item items ih =>
    have size : (if start = target then change item else item).size config = item.size config := by
      split
      · rename_i here
        exact keeps item (here ▸ List.mem_cons_self ..)
      · rfl
    rw [modifyItem, totalSize_cons, totalSize_cons, size,
      ih _ fun other placed => keeps other (List.mem_cons_of_mem _ placed)]

end Segment

/-! ### Sums over the items that count -/

open Classical in
/-- A sum over the items whose offset counts. -/
noncomputable def total (counts : Nat → Prop) (weight : Item → Int) (laid : List (Nat × Item)) : Int :=
  (laid.map fun placed => if counts placed.1 then weight placed.2 else 0).sum

section Total

variable {counts other : Nat → Prop} {weight : Item → Int} {laid : List (Nat × Item)}

@[simp] theorem total_nil : total counts weight [] = 0 := rfl

open Classical in
@[simp] theorem total_cons (placed : Nat × Item) :
    total counts weight (placed :: laid) =
      (if counts placed.1 then weight placed.2 else 0) + total counts weight laid := by
  simp [total]

@[simp] theorem total_append (more : List (Nat × Item)) :
    total counts weight (laid ++ more) = total counts weight laid + total counts weight more := by
  simp [total]

open Classical in
theorem total_congr (same : ∀ placed ∈ laid, counts placed.1 ↔ other placed.1) :
    total counts weight laid = total other weight laid := by
  unfold total
  congr 1
  exact List.map_congr_left fun placed inside => if_congr (same placed inside) rfl rfl

open Classical in
/-- One item more, or less, that counts. -/
theorem total_drop {offset : Nat} {item : Item} (unique : (laid.map Prod.fst).Nodup)
    (placed : (offset, item) ∈ laid) (counted : counts offset) (dropped : ¬ other offset)
    (same : ∀ at_, at_ ≠ offset → (counts at_ ↔ other at_)) :
    total counts weight laid = total other weight laid + weight item := by
  induction laid with
  | nil => cases placed
  | cons first laid ih =>
    rw [List.map_cons, List.nodup_cons] at unique
    rw [total_cons, total_cons]
    rcases List.mem_cons.mp placed with here | later
    · subst here
      have rest : total counts weight laid = total other weight laid := by
        refine total_congr fun placed inside => same placed.1 fun again => unique.1 ?_
        exact List.mem_map.mpr ⟨placed, inside, again⟩
      rw [if_pos counted, if_neg dropped, rest]
      ring
    · have apart : first.1 ≠ offset := fun again =>
        unique.1 (again ▸ List.mem_map_of_mem (f := Prod.fst) later)
      rw [ih unique.2 later, if_congr (same first.1 apart) rfl rfl]
      ring

theorem total_nonneg (positive : ∀ item, 0 ≤ weight item) : 0 ≤ total counts weight laid := by
  induction laid with
  | nil => simp
  | cons first laid ih =>
    rw [total_cons]
    have := positive first.2
    split <;> omega

theorem total_none (none : ∀ placed ∈ laid, ¬ counts placed.1) : total counts weight laid = 0 := by
  have never : total counts weight laid = total (fun _ => False) weight laid :=
    total_congr fun placed inside => by simp [none placed inside]
  rw [never]
  clear never
  induction laid with
  | nil => rfl
  | cons first laid ih =>
    rw [total_cons, ih fun placed inside => none placed (List.mem_cons_of_mem _ inside)]
    simp

end Total

end Layout

end CacheRs.Segcache
