/-
**When the checksum of an item holds, over every run.**

Threads define items, update them, mark them deleted, relocate them, read them and check them, in any
number and any order. What a check answers is settled by two flag bytes: the one the checksum it read
was computed over, and the one it hashes.

* `lockNumericVersion_spec`, `update_spec`, `relocate_spec`, `define_spec`: what a thread knows of an
  item through the operations that write it;
* `checkNumeric_spec`, `checkSpan_spec`: a check compares checksums of bytes that differ in the
  deleted bit at most;
* `intact_iff`: **a check answers true exactly when the deleted bit it hashes is the one stamped.**
-/

import CacheRs.KeyValue.IntegrityRules

set_option linter.unusedSectionVars false

namespace CacheRs.KeyValue.Integrity

open Concurrency

variable {Tid Place : Type} [DecidableEq Tid] [DecidableEq Place]

/-! ### What a thread knows of an item -/

/-- The protocol over all places. -/
abbrev integrity (crc : Bytes → UInt32) :
    Protocol Tid (Heap Place) (Label Place) (History Tid Place) := (itemViews crc).protocol

abbrev Knowledge (Place : Type) [DecidableEq Place] (crc : Bytes → UInt32) (t : Tid) :=
  (@itemViews Tid Place _ _ crc).Assertion t

namespace Knowledge

variable {crc : Bytes → UInt32} {t : Tid}

def nothing : Knowledge Place crc t := ⟨fun _ => True, fun _ _ _ _ => trivial⟩

/-- A published item, by its frame and the thread's notes. -/
def reached (fact : Frame → Notes → Prop) : Knowledge Place crc t where
  holds v := v.cell.stage = .published ∧ fact v.cell.item.frame (v.ledger.notes t)
  stable v after := by
    rintro ⟨published, known⟩ moved
    refine ⟨moved.published published, ?_⟩
    rw [moved.frame published, moved.notes]
    exact known

/-- A published item that the thread has locked. -/
def owned (fact : Frame → Guarded → Notes → Prop) : Knowledge Place crc t where
  holds v := v.cell.stage = .published ∧ v.ledger.holder = some t ∧
    fact v.cell.item.frame v.guarded (v.ledger.notes t)
  stable v after := by
    rintro ⟨published, mine, known⟩ moved
    obtain ⟨still, guarded⟩ := moved.holder mine
    refine ⟨moved.published published, still, ?_⟩
    rw [moved.frame published, guarded, moved.notes]
    exact known

/-- What the thread has seen since it loaded the version: it stands as long as no update has begun. -/
def since (fact : Frame → Notes → Prop) (seen : Guarded → Notes → Prop)
    (coarse : ∀ g h n, g.stamped = h.stamped → g.value = h.value → g.sum = h.sum →
      seen h n → seen g n) : Knowledge Place crc t where
  holds v := v.cell.stage = .published ∧ fact v.cell.item.frame (v.ledger.notes t) ∧
    (v.ledger.notes t).began ≤ v.ledger.updates ∧
    ((v.ledger.notes t).began = v.ledger.updates → v.ledger.dirty = false →
      seen v.guarded (v.ledger.notes t))
  stable v after := by
    rintro ⟨published, known, later, unchanged⟩ moved
    have progress := moved.progress published
    refine ⟨moved.published published, ?_, ?_, ?_⟩
    · rw [moved.frame published, moved.notes]
      exact known
    · rw [moved.notes]
      exact Nat.le_trans later progress.updates
    · rw [moved.notes]
      intro same clean
      have stays : v.ledger.updates = after.ledger.updates :=
        Nat.le_antisymm progress.updates (same ▸ later)
      have cleanBefore : v.ledger.dirty = false := by
        by_contra dirty
        rw [progress.dirty stays (by simpa using dirty)] at clean
        cases clean
      obtain ⟨stamped, value, sum⟩ := progress.same stays clean
      exact coarse _ _ _ stamped value sum (unchanged (same.trans stays.symm) cleanBefore)

/-- A place the thread has reserved, by the item it has written there. -/
def draft (fact : RawItem → UInt8 → Prop) : Knowledge Place crc t where
  holds v := v.cell.stage = .reserved ∧ v.ledger.holder = some t ∧
    fact v.cell.item v.ledger.stamped
  stable v after := by
    rintro ⟨reserved, mine, known⟩ moved
    obtain ⟨still, guarded⟩ := moved.holder mine
    have stamped : after.ledger.stamped = v.ledger.stamped := congrArg Guarded.stamped guarded
    rw [moved.reserved mine reserved, stamped]
    exact ⟨reserved, still, known⟩

/-- Two things known of one place. -/
def both (left right : Knowledge Place crc t) : Knowledge Place crc t where
  holds v := left.holds v ∧ right.holds v
  stable v after known moved := ⟨left.stable v after known.1 moved, right.stable v after known.2 moved⟩

/-- A numeric item that the thread has locked at an even version, and not begun to update. -/
def locked (version : UInt64) : Knowledge Place crc t :=
  owned fun frame guarded _ => frame.isNumeric = true ∧ guarded.dirty = false ∧
    guarded.version = version + 1 ∧ ¬ version &&& 1 = 1

/-- An item whose lock was asked for: any other item than a numeric one has none. -/
def guarding : Option UInt64 → Knowledge Place crc t
  | none => reached fun frame _ => frame.isNumeric = false
  | some version => locked version

end Knowledge

/-- A thread that knows nothing of any place. -/
def ignorant (Place : Type) [DecidableEq Place] (crc : Bytes → UInt32) (t : Tid) :
    Place → Knowledge Place crc t := fun _ => .nothing

section Rules

variable {crc : Bytes → UInt32} {t : Tid} {α β : Type} {place : Place}
  {known : Place → Knowledge Place crc t} {world after : World (Heap Place) (History Tid Place)}

/-- Thread `t` knows what `known` says of each place. -/
abbrev Knows (known : Place → Knowledge Place crc t)
    (world : World (Heap Place) (History Tid Place)) : Prop :=
  (itemViews crc).Knows (fun fact v => fact.holds v) known world

theorem Knows.rely (knows : Knows known world) (moved : (integrity crc).rely t world after) :
    Knows known after :=
  Views.Knows.rely (fun fact => fact.stable) knows moved

theorem Knows.here {fact : Knowledge Place crc t}
    (knows : Knows (Function.update known place fact) world) : fact.holds (view world place) := by
  have here := knows place
  rwa [Function.update_self] at here

theorem Knows.swap {other : Place} {fact fact' : Knowledge Place crc t} (apart : place ≠ other)
    (knows : Knows (Function.update (Function.update known place fact) other fact') world) :
    Knows (Function.update (Function.update known other fact') place fact) world := by
  rwa [Function.update_comm apart] at knows

/-- Knowing less of one place. -/
theorem Knows.weaken {fact weaker : Knowledge Place crc t}
    (knows : Knows (Function.update known place fact) world)
    (implied : ∀ v, fact.holds v → weaker.holds v) :
    Knows (Function.update known place weaker) world := by
  intro other
  by_cases same : other = place
  · subst same
    rw [Function.update_self]
    exact implied _ knows.here
  · have there := knows other
    rw [Function.update_of_ne same] at there ⊢
    exact there

/-- A step on one place. -/
theorem wp_step {event : Event} {enabled : Cell → Bool} {read : Cell → α} {write : Cell → Cell}
    {post : α → World (Heap Place) (History Tid Place) → Prop} {fact : Knowledge Place crc t}
    (new : Cell → Knowledge Place crc t) (knows : Knows (Function.update known place fact) world)
    (step : ∀ v : ItemView Tid, enabled v.cell = true → v.Ok crc → fact.holds v →
      ItemView.Kept crc t v (v.stepped t event write) ∧
        (new v.cell).holds (v.stepped t event write))
    (next : ∀ cell after, (integrity crc).inv after →
      Knows (Function.update known place (new cell)) after → post (read cell) after) :
    (integrity crc).wp t (access place event enabled read write) post world := by
  refine Views.wp_seen (fun now => (view now place).stepped t event write)
    (fun now => new (now.shared place)) (fun fact => fact.stable) knows
    (fun now => touches_access t place event write now) (fun now able holds here => ?_)
    fun now after kept knowsAfter => ?_
  · exact step _ able (holds place) (Knows.here here)
  · rw [Function.update_idem] at knowsAfter
    exact next _ after kept knowsAfter

/-- A step on one place, and then the rest of the program. -/
theorem wp_then {event : Event} {enabled : Cell → Bool} {read : Cell → α} {write : Cell → Cell}
    {rest : α → Prog Place β} {post : β → World (Heap Place) (History Tid Place) → Prop}
    {fact : Knowledge Place crc t} (new : Cell → Knowledge Place crc t)
    (knows : Knows (Function.update known place fact) world)
    (step : ∀ v : ItemView Tid, enabled v.cell = true → v.Ok crc → fact.holds v →
      ItemView.Kept crc t v (v.stepped t event write) ∧
        (new v.cell).holds (v.stepped t event write))
    (next : ∀ cell after, (integrity crc).inv after →
      Knows (Function.update known place (new cell)) after →
      (integrity crc).wp t (rest (read cell)) post after) :
    (integrity crc).wp t ((access place event enabled read write).bind rest) post world :=
  (Protocol.wp_bind _ _ _ _).mpr (wp_step new knows step next)

/-- A load that only the thread itself remembers. -/
theorem wp_load {read : RawItem → α} {post : α → World (Heap Place) (History Tid Place) → Prop}
    {fact : Knowledge Place crc t} (new : RawItem → Knowledge Place crc t)
    (knows : Knows (Function.update known place fact) world)
    (gain : ∀ v : ItemView Tid, v.Ok crc → fact.holds v → (new v.cell.item).holds v)
    (next : ∀ item after, (integrity crc).inv after →
      Knows (Function.update known place (new item)) after → post (read item) after) :
    (integrity crc).wp t (load place .other read) post world :=
  wp_step (fun cell => new cell.item) knows
    (fun v _ ok holds => ⟨ok.refl, gain v ok holds⟩) fun cell after => next cell.item after

theorem neutral_load {read : RawItem → α} :
    (@integrity Tid Place _ _ crc).Neutral t (load place .other read) := by
  refine Views.neutral_quiet (fun _ _ history => ?_) fun now other => ?_
  · exact Function.update_eq_self place history
  · show view ⟨Function.update now.shared place (now.shared place), now.history⟩ other = _
    rw [Function.update_eq_self]
    rfl

end Rules

/-! ### The operations -/

section Operations

variable {crc : Bytes → UInt32} {t : Tid} {place : Place}
  {known : Place → Knowledge Place crc t} {world : World (Heap Place) (History Tid Place)}

/-- Whether an item is numeric is settled once it is reached. -/
theorem wp_isNumeric {β : Type} {rest : Bool → Prog Place β}
    {post : β → World (Heap Place) (History Tid Place) → Prop}
    (knows : Knows (Function.update known place (.reached fun _ _ => True)) world)
    (next : ∀ numeric after, (integrity crc).inv after →
      Knows (Function.update known place (.reached fun frame _ => frame.isNumeric = numeric)) after →
      (integrity crc).wp t (rest numeric) post after) :
    (integrity crc).wp t ((isNumeric place).bind rest) post world := by
  refine (Protocol.wp_bind _ _ _ _).mpr (wp_load (fun item => .reached fun frame _ =>
    frame.isNumeric = item.header.isNumeric) knows (fun v _ holds => ⟨holds.1, RawItem.isNumeric_frame _⟩)
    fun item after kept knowsAfter => ?_)
  exact next _ after kept knowsAfter

/-- Locking a numeric item gives the even version it is locked at. -/
theorem lockNumericVersion_spec
    (knows : Knows (Function.update known place (.reached fun _ _ => True)) world) :
    (integrity crc).wp t (lockNumericVersion place) (fun guard after =>
      Knows (Function.update known place (.guarding guard)) after) world := by
  unfold lockNumericVersion
  refine wp_isNumeric knows fun numeric first keptFirst reached => ?_
  cases numeric with
  | false => exact reached
  | true =>
    refine (Protocol.wp_bind _ _ _ _).mpr (wp_load (fun _ => .reached fun frame _ =>
      frame.isNumeric = true) reached (fun _ _ holds => holds) fun item second _ reached => ?_)
    refine (Protocol.wp_bind _ _ _ _).mpr (Protocol.wp_repeatUntil (fun _ now =>
      Knows (Function.update known place (.reached fun frame _ => frame.isNumeric = true)) now)
      (fun _ _ _ knows moved _ => knows.rely moved) reached fun version now _ reached => ?_)
    refine Protocol.wp_ite (fun odd => ?_) fun even => ?_
    · exact (Protocol.wp_bind _ _ _ _).mpr (wp_load (fun _ => .reached fun frame _ =>
        frame.isNumeric = true) reached (fun _ _ holds => holds) fun _ _ _ reached => reached)
    · refine wp_then (fun cell => if cell.item.versionWord = version then .locked version
        else .reached fun frame _ => frame.isNumeric = true) reached (fun v _ ok holds => ?_)
        fun cell after _ knows => ?_
      · by_cases same : v.cell.item.versionWord = version
        · subst same
          have step := ok.lock (t := t) holds.1 holds.2 even
          have stepped : v.stepped t (.exchange v.cell.item.versionWord) (fun cell =>
              if cell.item.versionWord = v.cell.item.versionWord then
                { cell with item := cell.item.setVersion (v.cell.item.versionWord + 1) }
              else cell) = ⟨{ v.cell with
                item := v.cell.item.setVersion (v.cell.item.versionWord + 1) },
              { v.ledger with holder := some t }⟩ := by
            simp [ItemView.stepped, Event.enter]
          rw [stepped, if_pos rfl]
          exact ⟨step, holds.1, rfl, holds.2, (ok.unlocked holds.1 holds.2 even).2.1, rfl, even⟩
        · have stepped : v.stepped t (.exchange version) (fun cell =>
              if cell.item.versionWord = version then
                { cell with item := cell.item.setVersion (version + 1) }
              else cell) = v := by
            simp [ItemView.stepped, Event.enter, same]
          rw [stepped, if_neg same]
          exact ⟨ok.refl, holds⟩
      · by_cases same : cell.item.versionWord = version
        · rw [if_pos same] at knows ⊢
          exact same ▸ knows
        · rw [if_neg same] at knows ⊢
          exact knows

/-- An update leaves the item stamped, under the next even version. -/
theorem update_spec (kept : (integrity crc).inv world)
    (knows : Knows (Function.update known place (.reached fun _ _ => True)) world)
    (op : UInt64 → UInt64) :
    (integrity crc).wp t (update crc place op) (fun _ _ => True) world := by
  unfold update
  refine Protocol.wp_seq kept (lockNumericVersion_spec knows) fun guard first _ knows => ?_
  cases guard with
  | none => trivial
  | some version =>
    refine (Protocol.wp_bind _ _ _ _).mpr (wp_load (fun _ => .locked version) knows
      (fun _ _ holds => holds) fun item second _ locked => ?_)
    refine wp_then (fun _ => .owned fun frame guarded _ => frame.isNumeric = true ∧
      guarded.dirty = true ∧ guarded.version = version + 1 ∧ guarded.value = op item.valueWord)
      locked (fun v _ ok holds => ?_) fun _ third _ begun => ?_
    · obtain ⟨published, mine, numeric, -, held, -⟩ := holds
      exact ⟨ok.beginUpdate mine published numeric _, published, mine, numeric, rfl, held, rfl⟩
    refine (Protocol.wp_bind _ _ _ _).mpr ?_
    unfold computeCrcNumeric
    refine wp_then (fun cell => .owned fun frame guarded notes => (frame.isNumeric = true ∧
      guarded.dirty = true ∧ guarded.version = version + 1 ∧ guarded.value = op item.valueWord) ∧
      notes.hashed = cell.item.header.flags ∧ notes.hashed ||| deleteMask = frame.bits)
      begun (fun v _ ok holds => ?_) fun cell fourth _ hashed => ?_
    · refine ⟨ok.noting _, holds.1, holds.2.1, holds.2.2, ?_⟩
      simp [ItemView.stepped, Event.enter, RawItem.frame]
    refine wp_load (fun item => .owned fun frame guarded notes => ((frame.isNumeric = true ∧
      guarded.dirty = true ∧ guarded.version = version + 1 ∧ guarded.value = _) ∧
      notes.hashed = cell.item.header.flags ∧ notes.hashed ||| deleteMask = frame.bits) ∧
      frame = item.frame) hashed (fun v _ holds => ⟨holds.1, holds.2.1, holds.2.2, rfl⟩)
      fun words fifth _ summed => ?_
    refine wp_then (fun _ => .owned fun frame guarded _ => frame.isNumeric = true ∧
      guarded.dirty = true ∧ guarded.version = version + 1 ∧
      guarded.stamped ||| deleteMask = frame.bits ∧
      guarded.sum = frame.sum crc guarded.stamped guarded.value) summed (fun v _ ok holds => ?_)
      fun _ sixth _ stamped => ?_
    · obtain ⟨published, mine, ⟨⟨numeric, dirty, held, stored⟩, hashed, bits⟩, same⟩ := holds
      refine ⟨ok.restamp mine dirty _ bits, published, mine, numeric, dirty, held, bits, ?_⟩
      have whole := RawItem.crcNumeric_eq crc (same ▸ numeric) cell.item.header.flags
        (op item.valueWord)
      show words.crcNumeric crc _ _ =
        v.cell.item.frame.sum crc (v.ledger.notes t).hashed v.guarded.value
      rw [whole, same, hashed, stored]
    refine wp_then (fun _ => .nothing) stamped (fun v _ ok holds => ?_) fun _ _ _ _ => trivial
    obtain ⟨published, mine, numeric, dirty, held, bits, sum⟩ := holds
    exact ⟨ok.unlock mine published numeric held ⟨sum, bits⟩, trivial⟩

/-! ### Checks -/

/-- The checksum a check has loaded is that of the flag byte stamped, unless it was lapped. -/
def Paired (crc : Bytes → UInt32) (stored : UInt32) (value : UInt64) (frame : Frame)
    (notes : Notes) : Prop :=
  notes.lapped = false →
    stored = frame.sum crc notes.seen value ∧ notes.seen ||| deleteMask = frame.bits

/-- A check whose answer is settled. -/
def settled (crc : Bytes → UInt32) (t : Tid) (intact : Bool) : Knowledge Place crc t :=
  .reached fun _ notes => notes.lapped = false →
    Check.Exact crc ⟨notes.seen, notes.hashed, notes.lapped, intact⟩

/-- Hashing an item gives the checksum of the flag byte loaded for it. -/
theorem hashing_spec {stored : UInt32} {value : UInt64} {numeric : Bool}
    (knows : Knows (Function.update known place (.reached fun frame notes =>
      frame.isNumeric = numeric ∧ Paired crc stored value frame notes)) world)
    (sum : RawItem → UInt8 → UInt32)
    (hashes : ∀ item flags, item.frame.isNumeric = numeric →
      sum item flags = item.frame.sum crc flags value) :
    (integrity crc).wp t ((load place .hashFlags (·.header.flags)).bind fun flags =>
        load place .other fun item => sum item flags)
      (fun result after => Knows (Function.update known place (settled crc t (stored == result)))
        after) world := by
  refine wp_then (fun cell => .reached fun frame notes => (frame.isNumeric = numeric ∧
    Paired crc stored value frame notes) ∧ notes.hashed = cell.item.header.flags ∧
    notes.hashed ||| deleteMask = frame.bits) knows (fun v _ ok holds => ?_) fun cell first _ hashed =>
    wp_load (fun item => settled crc t (stored == sum item cell.item.header.flags)) hashed
      (fun v _ holds => ?_) fun item after _ known => known
  · refine ⟨ok.noting _, holds.1, ?_⟩
    simpa [ItemView.stepped, Event.enter, Paired, RawItem.frame] using holds.2
  · obtain ⟨published, ⟨numeric, paired⟩, flags, bits⟩ := holds
    refine ⟨published, fun timely => ?_⟩
    obtain ⟨loaded, seen⟩ := paired timely
    refine ⟨seen.trans bits.symm, v.cell.item.frame, value, ?_⟩
    show (stored == sum v.cell.item cell.item.header.flags) = _
    rw [loaded, hashes _ _ numeric, ← flags]

/-- A check of a numeric item compares the checksums of one version. -/
theorem checkNumeric_spec (knows : Knows (Function.update known place
      (.reached fun frame _ => frame.isNumeric = true)) world) :
    (integrity crc).wp t (checkNumeric crc place)
      (fun intact after => Knows (Function.update known place (settled crc t intact)) after)
      world := by
  refine Protocol.wp_repeatUntil (fun _ now => Knows (Function.update known place
    (.reached fun frame _ => frame.isNumeric = true)) now)
    (fun _ _ _ knows moved _ => knows.rely moved) knows fun _ now _ reached => ?_
  refine wp_then (fun cell => .since (fun frame notes => frame.isNumeric = true ∧
    (¬ cell.item.versionWord &&& 1 = 1 →
      cell.item.versionWord.toNat = 2 * notes.began % 2 ^ 64)) (fun _ _ => True)
    (fun _ _ _ _ _ _ _ => trivial)) reached (fun v _ ok holds => ?_) fun begun first _ knows => ?_
  · refine ⟨ok.noting _, holds.1, ⟨holds.2, fun even => ?_⟩, ?_, fun _ _ => trivial⟩
    · simpa [ItemView.stepped, Event.enter] using (ok.unlocked holds.1 holds.2 even).2.2
    · simp [ItemView.stepped, Event.enter]
  refine Protocol.wp_ite (fun _ => ?_) fun even => ?_
  · exact knows.weaken fun v holds => ⟨holds.1, holds.2.1.1⟩
  refine (Protocol.wp_bind _ _ _ _).mpr (wp_load (fun item => .since (fun frame notes =>
    frame.isNumeric = true ∧ begun.item.versionWord.toNat = 2 * notes.began % 2 ^ 64)
    (fun guarded _ => guarded.value = item.valueWord) (fun _ _ _ _ value _ same => value.trans same))
    knows (fun v ok holds => ?_) fun item second _ knows => ?_)
  · exact ⟨holds.1, ⟨holds.2.1.1, holds.2.1.2 even⟩, holds.2.2.1, fun _ _ => rfl⟩
  refine wp_then (fun cell => .since (fun frame notes => frame.isNumeric = true ∧
    begun.item.versionWord.toNat = 2 * notes.began % 2 ^ 64)
    (fun guarded notes => guarded.value = item.valueWord ∧ guarded.sum = cell.item.header.crc32 ∧
      guarded.stamped = notes.seen) (fun _ _ _ stamped value sum same =>
      ⟨value.trans same.1, sum.trans same.2.1, stamped.trans same.2.2⟩)) knows
    (fun v _ ok holds => ?_) fun cell third _ knows => ?_
  · obtain ⟨published, ⟨numeric, version⟩, later, unchanged⟩ := holds
    refine ⟨ok.noting _, published, ⟨numeric, ?_⟩, ?_, fun same clean => ?_⟩
    · simpa [ItemView.stepped, Event.enter] using version
    · simpa [ItemView.stepped, Event.enter] using later
    · refine ⟨unchanged ?_ clean, rfl, ?_⟩
      · simpa [ItemView.stepped, Event.enter] using same
      · simp [ItemView.stepped, Event.enter, ItemView.guarded]
  refine wp_then (fun last => .reached fun frame notes => frame.isNumeric = true ∧
    (begun.item.versionWord = last.item.versionWord →
      Paired crc cell.item.header.crc32 item.valueWord frame notes)) knows (fun v _ ok holds => ?_)
    fun last fourth kept knows => ?_
  · obtain ⟨published, ⟨numeric, version⟩, later, unchanged⟩ := holds
    refine ⟨ok.noting _, published, numeric, fun same timely => ?_⟩
    have lap : v.ledger.updates < (v.ledger.notes t).began + 2 ^ 63 := by
      simpa [ItemView.stepped, Event.enter] using timely
    obtain ⟨-, clean, counted⟩ := ok.unlocked published numeric (same ▸ even)
    rw [same, counted] at version
    obtain ⟨value, sum, stamped⟩ := unchanged (updates_eq later lap version.symm) clean
    simp only [ItemView.stepped, Event.enter, noting_notes, id]
    rw [← value, ← sum, ← stamped]
    exact ⟨ok.sum published clean, ok.bits published⟩
  refine Protocol.wp_ite (fun same => ?_) fun _ => ?_
  · have paired : Knows (Function.update known place (.reached fun frame notes =>
        frame.isNumeric = true ∧ Paired crc cell.item.header.crc32 item.valueWord frame notes))
        fourth :=
      knows.weaken fun v holds => ⟨holds.1, holds.2.1, holds.2.2 same⟩
    exact Protocol.wp_seq kept (hashing_spec paired _ fun words flags numeric =>
      RawItem.crcNumeric_eq crc numeric flags _) fun _ _ _ settled => settled
  · exact knows.weaken fun v holds => ⟨holds.1, holds.2.1⟩

/-- A check of any other item compares the checksums of its bytes. -/
theorem checkSpan_spec (knows : Knows (Function.update known place
      (.reached fun frame _ => frame.isNumeric = false)) world) :
    (integrity crc).wp t (checkSpan crc place)
      (fun intact after => Knows (Function.update known place (settled crc t intact)) after)
      world := by
  refine wp_then (fun cell => .reached fun frame notes => frame.isNumeric = false ∧
    Paired crc cell.item.header.crc32 0 frame notes) knows (fun v _ ok holds => ?_)
    fun cell first kept paired => ?_
  · obtain ⟨published, bytes⟩ := holds
    have clean : v.ledger.dirty = false := by
      by_contra dirty
      cases bytes.symm.trans (ok.dirty (by simpa using dirty)).2.1
    refine ⟨ok.noting _, published, bytes, fun _ => ?_⟩
    simp only [ItemView.stepped, Event.enter, noting_notes, id]
    refine ⟨?_, ok.bits published⟩
    rw [ok.sum published clean]
    simp [Frame.sum, Frame.after, bytes]
  unfold computeCrc
  refine (Protocol.wp_bind _ _ _ _).mpr ?_
  refine (Protocol.wp_bind _ _ _ _).mpr (wp_load (fun item => .reached fun frame notes =>
    frame.isNumeric = item.header.isNumeric ∧ frame.isNumeric = false ∧
    Paired crc cell.item.header.crc32 0 frame notes) paired
    (fun v _ holds => ⟨holds.1, RawItem.isNumeric_frame _, holds.2⟩) fun item second kept knows => ?_)
  have bytes : item.header.isNumeric = false := (Knows.here knows).2.1.symm.trans
    (Knows.here knows).2.2.1
  rw [bytes]
  have paired : Knows (Function.update known place (.reached fun frame notes =>
      frame.isNumeric = false ∧ Paired crc cell.item.header.crc32 0 frame notes)) second :=
    knows.weaken fun v holds => ⟨holds.1, holds.2.2⟩
  exact hashing_spec paired _ fun words flags plain => RawItem.crcSpan_eq crc plain flags _

theorem checkIntegrity_spec (kept : (integrity crc).inv world)
    (knows : Knows (Function.update known place (.reached fun _ _ => True)) world) :
    (integrity crc).wp t (checkIntegrity crc place) (fun _ _ => True) world := by
  have answered : (integrity crc).wp t ((isNumeric place).bind fun numeric =>
      if numeric then checkNumeric crc place else checkSpan crc place) (fun intact after =>
        Knows (Function.update known place (settled crc t intact)) after) world := by
    refine wp_isNumeric knows fun numeric first _ reached => ?_
    cases numeric with
    | true => exact checkNumeric_spec reached
    | false => exact checkSpan_spec reached
  refine Protocol.wp_seq kept answered fun intact second _ settled => ?_
  refine wp_step (fun _ => .nothing) settled (fun v _ ok holds => ?_) fun _ _ _ _ => trivial
  exact ⟨ok.answer holds.2, trivial⟩

/-! ### Copies and new items -/

/-- A draft that carries its checksum. -/
def written (crc : Bytes → UInt32) (t : Tid) (fact : RawItem → Prop) : Knowledge Place crc t :=
  .draft fun item stamped => Stamped crc item stamped ∧ fact item

/-- An item that can be published. -/
def publishable (crc : Bytes → UInt32) (t : Tid) : Knowledge Place crc t :=
  written crc t fun item => item.frame.isNumeric = true → item.versionWord.toNat % 2 = 0

theorem reserve_spec (knows : Knows (Function.update known place .nothing) world) :
    (integrity crc).wp t (reserve place)
      (fun _ after => Knows (Function.update known place (.draft fun _ _ => True)) after) world :=
  wp_step (fun _ => .draft fun _ _ => True) knows
    (fun _ able ok _ => ⟨ok.reserve (of_decide_eq_true able), rfl, rfl, trivial⟩)
    fun _ _ _ reserved => reserved

theorem publish_spec (knows : Knows (Function.update known place (publishable crc t)) world) :
    (integrity crc).wp t (publish place)
      (fun _ after => Knows (Function.update known place .nothing) after) world :=
  wp_step (fun _ => .nothing) knows
    (fun _ _ ok holds => ⟨ok.publish holds.1 holds.2.1 holds.2.2.1 holds.2.2.2, trivial⟩)
    fun _ _ _ published => published

theorem define_spec (kept : (integrity crc).inv world)
    (knows : Knows (Function.update known place .nothing) world)
    (memory : Memory) (start : Nat) (key : Bytes) (value : Value) (optional : Bytes) :
    (integrity crc).wp t (define crc place memory start key value optional) (fun _ _ => True)
      world := by
  refine Protocol.wp_seq kept (reserve_spec knows) fun _ first _ reserved => ?_
  refine wp_then (fun _ => publishable crc t) reserved (fun v _ ok holds => ?_)
    fun _ second kept written => Protocol.wp_mono kept (publish_spec written) fun _ _ _ _ => trivial
  refine ⟨ok.draft holds.1 holds.2.1 _ _, holds.1, holds.2.1, ⟨?_, ?_⟩, fun numeric => ?_⟩
  · exact RawItem.define_crc crc memory start key value optional
  · rfl
  · show (RawItem.define crc memory start key value optional).versionWord.toNat % 2 = 0
    rw [RawItem.define_version crc memory start key value optional numeric]
    rfl

/-- A relocated copy carries the checksum of what was copied, and its stamp. -/
theorem wp_copy {source destination : Place} (apart : source ≠ destination) {flags : UInt8}
    {fact : Knowledge Place crc t} (numeric : Bool)
    (knows : Knows (Function.update (Function.update known source fact) destination
      (.draft fun _ _ => True)) world)
    (settled : ∀ v : ItemView Tid, v.Ok crc → fact.holds v → v.cell.stage = .published ∧
      v.ledger.dirty = false ∧ flags ||| deleteMask = v.cell.item.frame.bits ∧
      v.cell.item.frame.isNumeric = numeric) :
    (integrity crc).wp t (Program.atomically (.copy source destination) fun heap =>
        ((), Function.update heap destination
          { heap destination with item := (heap source).item.setFlags flags }))
      (fun _ after => Knows (Function.update (Function.update known source fact) destination
        (written crc t fun item => item.frame.isNumeric = numeric)) after) world := by
  refine Views.wp_seen (fun now => (view now source).copied (view now destination) flags)
    (fun _ => written crc t fun item => item.frame.isNumeric = numeric) (fun fact => fact.stable)
    knows (fun now => touches_copy t source destination flags now) (fun now _ holds here => ?_)
    fun now after _ knowsAfter => ?_
  · obtain ⟨reserved, mine, -⟩ := Knows.here here
    have there := here source
    rw [Function.update_of_ne apart, Function.update_self] at there
    obtain ⟨published, clean, bits, plain⟩ := settled _ (holds source) there
    refine ⟨(holds destination).draft reserved mine _ _, reserved, mine,
      (holds source).copy published clean bits, ?_⟩
    exact (congrArg Frame.isNumeric (RawItem.frame_setFlags bits)).trans plain
  · rw [Function.update_idem] at knowsAfter
    exact knowsAfter

/-- A published place is not reserved again. -/
theorem reserve_reached
    (knows : Knows (Function.update known place (.reached fun _ _ => True)) world) :
    (integrity crc).wp t (reserve place) (fun _ _ => False) world := by
  refine wp_step (fun _ => .reached fun _ _ => False) knows (fun v able _ holds => ?_)
    fun _ _ _ never => (Knows.here never).2
  cases holds.1.symm.trans (of_decide_eq_true able)

/-- The copy of an item that is not being updated carries its checksum. -/
theorem copyItem_spec {source destination : Place} (apart : source ≠ destination)
    {fact : Knowledge Place crc t} (numeric : Bool)
    (knows : Knows (Function.update (Function.update known destination (.draft fun _ _ => True))
      source fact) world)
    (settled : ∀ v : ItemView Tid, v.Ok crc → fact.holds v → v.cell.stage = .published ∧
      v.ledger.dirty = false ∧ v.cell.item.frame.isNumeric = numeric) :
    (integrity crc).wp t (copyItem source destination) (fun _ after =>
      Knows (Function.update (Function.update known source fact) destination
        (written crc t fun item => item.frame.isNumeric = numeric)) after) world := by
  refine (Protocol.wp_bind _ _ _ _).mpr (wp_load (fun item => fact.both (.reached fun frame _ =>
    item.header.flags ||| deleteMask = frame.bits)) knows
    (fun v ok holds => ⟨holds, (settled v ok holds).1, rfl⟩) fun item first kept loaded => ?_)
  refine Protocol.wp_mono kept (wp_copy apart numeric (loaded.swap (Ne.symm apart))
    fun v ok holds => ?_) fun _ second _ copied => ?_
  · obtain ⟨published, clean, plain⟩ := settled v ok holds.1
    exact ⟨published, clean, holds.2.2, plain⟩
  · exact ((copied.swap apart).weaken fun _ holds => holds.1).swap (Ne.symm apart)

/-- What a lock leaves settled for a copy. -/
theorem guarding_settled (guard : Option UInt64) (v : ItemView Tid) (ok : v.Ok crc)
    (holds : (@Knowledge.guarding Tid Place _ _ crc t guard).holds v) :
    v.cell.stage = .published ∧ v.ledger.dirty = false ∧
      v.cell.item.frame.isNumeric = guard.isSome := by
  cases guard with
  | some version => exact ⟨holds.1, holds.2.2.2.1, holds.2.2.1⟩
  | none =>
    refine ⟨holds.1, ?_, holds.2⟩
    by_contra dirty
    cases holds.2.symm.trans (ok.dirty (by simpa using dirty)).2.1

/-- The stamp makes a copy's version even. -/
theorem stampRelocatedCopy_spec {guard : Option UInt64}
    (even : ∀ version ∈ guard, ¬ version &&& 1 = 1)
    (knows : Knows (Function.update known place (written crc t fun item =>
      item.frame.isNumeric = guard.isSome)) world) :
    (integrity crc).wp t (stampRelocatedCopy place guard) (fun _ after =>
      Knows (Function.update known place (publishable crc t)) after) world := by
  cases guard with
  | none =>
    refine knows.weaken fun v holds => ⟨holds.1, holds.2.1, holds.2.2.1, fun numeric => ?_⟩
    cases numeric.symm.trans holds.2.2.2
  | some version =>
    show (integrity crc).wp t (store place .other (·.setVersion version)) _ _
    refine wp_step (fun _ => publishable crc t) knows (fun v _ ok holds => ?_)
      fun _ _ _ stamped => stamped
    refine ⟨ok.draft holds.1 holds.2.1 _ _, holds.1, holds.2.1, ⟨holds.2.2.1.sum, holds.2.2.1.bits⟩,
      fun _ => ?_⟩
    have := even version rfl
    rw [odd_iff] at this
    exact Nat.mod_two_ne_one.mp this

/-- The copy is published if the relink won. -/
theorem relink_spec (kept : (integrity crc).inv world) (relinked : Bool)
    (knows : Knows (Function.update known place (publishable crc t)) world) :
    (integrity crc).wp t (relink place relinked) (fun _ after =>
      Knows (Function.update known place .nothing) after) world := by
  refine Protocol.wp_ite (fun _ => ?_) fun _ => knows.weaken fun _ _ => trivial
  exact Protocol.wp_mono kept (publish_spec knows) fun _ _ _ published => published

theorem dropGuard_spec {guard : Option UInt64}
    (knows : Knows (Function.update known place (.guarding guard)) world) :
    (integrity crc).wp t (dropGuard place guard) (fun _ _ => True) world := by
  cases guard with
  | none => trivial
  | some version =>
    show (integrity crc).wp t (store place .release (·.setVersion version)) _ _
    refine wp_step (fun _ => .nothing) knows (fun v _ ok holds => ?_) fun _ _ _ _ => trivial
    obtain ⟨published, mine, numeric, clean, version, -⟩ := holds
    exact ⟨ok.release mine published clean numeric version, trivial⟩

/-- A relocation keeps the copy from the others until it is stamped. -/
theorem relocate_spec (source destination : Place) (relinked : Bool)
    (kept : (integrity crc).inv world)
    (knows : Knows (Function.update (ignorant Place crc t) source (.reached fun _ _ => True))
      world) :
    (integrity crc).wp t (relocate source destination relinked) (fun _ _ => True) world := by
  unfold relocate
  by_cases apart : source = destination
  · subst apart
    exact Protocol.wp_seq kept (reserve_reached knows) fun _ _ _ never => never.elim
  have vacant : Knows (Function.update (Function.update (ignorant Place crc t) source
      (.reached fun _ _ => True)) destination .nothing) world := by
    intro other
    by_cases same : other = destination
    · subst same
      rw [Function.update_self]
      trivial
    · rw [Function.update_of_ne same]
      exact knows other
  refine Protocol.wp_seq kept (reserve_spec vacant) fun _ first keptFirst reserved => ?_
  refine Protocol.wp_seq keptFirst (lockNumericVersion_spec (reserved.swap apart))
    fun guard second keptSecond locked => ?_
  have even : ∀ version ∈ guard, ¬ version &&& 1 = 1 := by
    rintro version rfl
    exact (Knows.here locked).2.2.2.2.2
  refine Protocol.wp_seq keptSecond (copyItem_spec apart guard.isSome locked
    (guarding_settled guard)) fun _ third keptThird copied => ?_
  refine Protocol.wp_seq keptThird (stampRelocatedCopy_spec even copied)
    fun _ fourth keptFourth stamped => ?_
  refine Protocol.wp_seq keptFourth (relink_spec keptFourth relinked stamped)
    fun _ fifth _ published => ?_
  exact dropGuard_spec (published.swap apart)

theorem find_spec (knows : Knows (Function.update known place .nothing) world) :
    (integrity crc).wp t (find place)
      (fun _ after => Knows (Function.update known place (.reached fun _ _ => True)) after) world :=
  wp_step (fun _ => .reached fun _ _ => True) knows
    (fun _ able ok _ => ⟨ok.refl, of_decide_eq_true able, trivial⟩) fun _ _ _ reached => reached

theorem setDeleted_spec
    (knows : Knows (Function.update known place (.reached fun _ _ => True)) world) :
    (integrity crc).wp t (setDeleted place) (fun _ _ => True) world := by
  unfold setDeleted
  refine wp_step (fun _ => .nothing) knows (fun v _ ok holds => ?_) fun _ _ _ _ => trivial
  exact ⟨ok.delete holds.1, trivial⟩

theorem neutral_value : (@integrity Tid Place _ _ crc).Neutral t (value place) := by
  refine .bind neutral_load fun numeric => .ite (.ret _) (.repeatUntil fun _ => ?_)
  refine .bind neutral_load fun first => .ite (.ret _) ?_
  exact .bind neutral_load fun _ => .bind neutral_load fun _ => .ret _

end Operations

/-! ### Runs -/

/-- What a thread may call next. -/
inductive Operation (Place : Type) where
  | define (place : Place) (memory : Memory) (start : Nat) (key : Bytes) (value : Value)
    (optional : Bytes)
  | update (place : Place) (op : UInt64 → UInt64)
  | setDeleted (place : Place)
  | relocate (source destination : Place) (relinked : Bool)
  | read (place : Place)
  | check (place : Place)

/-- Run one operation; all but `define` wait for an item to reach. -/
def Operation.run (crc : Bytes → UInt32) : Operation Place → Prog Place Unit
  | .define place memory start key value optional => do
    Integrity.define crc place memory start key value optional
  | .update place op => do
    find place
    let _ ← Integrity.update crc place op
  | .setDeleted place => do
    find place
    Integrity.setDeleted place
  | .relocate source destination relinked => do
    find source
    Integrity.relocate source destination relinked
  | .read place => do
    find place
    let _ ← value place
  | .check place => do
    find place
    checkIntegrity crc place

/-- A thread runs its operations one after the other. -/
def runAll (crc : Bytes → UInt32) (operations : List (Operation Place)) : Prog Place Unit :=
  .sequence (operations.map (·.run crc))

/-- The threads before their first step; no place is in use, whatever its memory holds. -/
def start (crc : Bytes → UInt32) (memory : Place → RawItem)
    (scripts : Tid → List (Operation Place)) :
    Config Tid (Heap Place) (Label Place) (History Tid Place) where
  world := ⟨fun place => ⟨.vacant, memory place⟩, fun _ => .new⟩
  thread := fun t => runAll crc (scripts t)

section Safety

variable {crc : Bytes → UInt32} {t : Tid} {world : World (Heap Place) (History Tid Place)}

theorem knows_ignorant (place : Place) :
    Knows (Function.update (ignorant Place crc t) place .nothing) world := by
  intro other
  unfold ignorant
  rw [Function.update_eq_self]
  trivial

theorem Operation.run_spec (operation : Operation Place) (kept : (integrity crc).inv world) :
    (integrity crc).wp t (operation.run crc) (fun _ _ => True) world := by
  cases operation with
  | define place memory start key value optional =>
    exact define_spec kept (knows_ignorant place) memory start key value optional
  | update place op =>
    refine Protocol.wp_seq kept (find_spec (knows_ignorant place)) fun _ first kept reached => ?_
    exact Protocol.wp_seq kept (update_spec kept reached op) fun _ _ _ _ => trivial
  | setDeleted place =>
    exact Protocol.wp_seq kept (find_spec (knows_ignorant place)) fun _ _ _ reached =>
      setDeleted_spec reached
  | relocate source destination relinked =>
    exact Protocol.wp_seq kept (find_spec (knows_ignorant source)) fun _ _ kept reached =>
      relocate_spec source destination relinked kept reached
  | read place =>
    refine Protocol.wp_seq kept (find_spec (knows_ignorant place)) fun _ first kept _ => ?_
    exact neutral_value.andThen kept fun _ _ _ _ => trivial
  | check place =>
    exact Protocol.wp_seq kept (find_spec (knows_ignorant place)) fun _ _ kept reached =>
      checkIntegrity_spec kept reached

theorem inside_start (crc : Bytes → UInt32) (memory : Place → RawItem)
    (scripts : Tid → List (Operation Place)) :
    (integrity crc).Inside (start crc memory scripts) := by
  have kept : (integrity crc).inv (start crc memory scripts).world := fun place =>
    ⟨fun _ => rfl, nofun, nofun, nofun, nofun, nofun⟩
  refine ⟨kept, fun t => Protocol.wp_sequence (fun program member now holds _ => ?_) kept trivial⟩
  obtain ⟨operation, -, rfl⟩ := List.mem_map.mp member
  exact operation.run_spec holds

end Safety

/-- **When a checksum holds.** In every run, a check that was not lapped answers true exactly when
the deleted bit it hashes is the one the checksum it read was computed over. -/
theorem intact_iff (crc : Bytes → UInt32) (detects : Checksums.DetectsByte crc)
    (memory : Place → RawItem) (scripts : Tid → List (Operation Place))
    {config : Config Tid (Heap Place) (Label Place) (History Tid Place)}
    (reached : Reachable record (fun _ _ _ => True) (start crc memory scripts) config)
    (place : Place) :
    ∀ check ∈ (config.world.history place).checks, check.lapped = false →
      (check.intact = true ↔ check.hashed &&& deleteMask = check.stamped &&& deleteMask) := by
  intro check member timely
  have kept := (Protocol.sound (inside_start crc memory scripts) reached).1 place
  obtain ⟨bits, frame, value, intact⟩ := kept.checks check member timely
  have byte : check.hashed &&& deleteMask = check.stamped &&& deleteMask ↔
      check.stamped = check.hashed :=
    ⟨fun same => flags_eq bits same.symm, fun same => by rw [same]⟩
  rw [byte, intact, beq_iff_eq]
  exact ⟨detects _ _ _ _, fun same => by rw [same]⟩

/-! ### A deletion between two checks -/

def blankItem : RawItem := ⟨⟨[], 0, 0, 0, 0⟩, [], 0, 0⟩

/-- A counter is checked, deleted, checked, incremented and checked. -/
def deletedScripts : Nat → List (Operation Nat)
  | 0 => [.define 0 (fun _ => 0) 0 [107] (.u64 5) [], .check 0, .setDeleted 0, .check 0,
      .update 0 (· + 1), .check 0]
  | _ => []

/-- The deletion fails the check after it, and the increment mends it. -/
theorem intact_iff_deleted :
    ∃ config, Reachable record (fun _ _ _ => True)
        (start Checksums.crc32 (fun _ => blankItem) deletedScripts) config ∧
      (config.world.history 0).checks.map (·.intact) = [true, false, true] ∧
      ∀ check ∈ (config.world.history 0).checks, check.lapped = false →
        (check.intact = true ↔ check.hashed &&& deleteMask = check.stamped &&& deleteMask) := by
  obtain ⟨config, reached, ends⟩ := exists_reachable record (fun _ _ _ => true)
    (start Checksums.crc32 (fun _ => blankItem) deletedScripts) (List.replicate 46 0)
    (fun world => (world.history 0).checks.map (·.intact) = [true, false, true])
    (by decide +kernel)
  have meets : Reachable record (fun _ _ _ => True)
      (start Checksums.crc32 (fun _ => blankItem) deletedScripts) config :=
    reached.weaken fun _ _ _ _ => trivial
  exact ⟨config, meets, of_decide_eq_true ends,
    intact_iff Checksums.crc32 Checksums.detectsByte_crc32 _ deletedScripts meets 0⟩

/-- An item of bytes is marked deleted and checked. -/
def tombstoneScripts : Nat → List (Operation Nat)
  | 0 => [.define 0 (fun _ => 0) 0 [107] (.bytes [118]) [], .setDeleted 0, .check 0]
  | _ => []

/-- **A deleted item fails its check**, though nothing but these operations touched it. -/
theorem tombstone_fails :
    ∃ config, Reachable record (fun _ _ _ => True)
        (start Checksums.crc32 (fun _ => blankItem) tombstoneScripts) config ∧
      ∃ check ∈ (config.world.history 0).checks, check.lapped = false ∧ check.intact = false := by
  obtain ⟨config, reached, ends⟩ := exists_reachable record (fun _ _ _ => true)
    (start Checksums.crc32 (fun _ => blankItem) tombstoneScripts) (List.replicate 12 0)
    (fun world => (world.history 0).checks.any fun check => !check.lapped && !check.intact)
    (by decide +kernel)
  obtain ⟨check, member, fails⟩ := List.any_eq_true.mp ends
  refine ⟨config, reached.weaken fun _ _ _ _ => trivial, check, member, ?_⟩
  simpa using fails

end CacheRs.KeyValue.Integrity
