import CacheRs.Concurrency.Program
import CacheRs.Concurrency.RelyGuarantee
import CacheRs.Concurrency.Views
import CacheRs.Segments.State
import CacheRs.Segments.Heap
import CacheRs.Segments.Header
import CacheRs.Segments.Queues
import CacheRs.Segments.Ledger
import CacheRs.Segments.ReaderPinRules
import CacheRs.Segments.ReaderPin
import CacheRs.Segments.ReaderPinSpecs
import CacheRs.Segments.ReaderPinSafety
import CacheRs.Segments.DrainLedger
import CacheRs.Segments.DrainRules
import CacheRs.Segments.DrainSpecs
import CacheRs.Segments.DrainExclusion
import CacheRs.Segments.SpaceGrants
import CacheRs.Bits.Fields
import CacheRs.Hashtable.Bucket
import CacheRs.Hashtable.Table
import CacheRs.Hashtable.SlotWord
import CacheRs.Hashtable.Entries
import CacheRs.Hashtable.SingleEntry
import CacheRs.Hashtable.SingleEntrySpecs
import CacheRs.Hashtable.SingleEntrySafety
import CacheRs.KeyValue.Memory
import CacheRs.KeyValue.RawItem
import CacheRs.KeyValue.Codec
import CacheRs.KeyValue.TinyItem
import CacheRs.Relocation.Slots
import CacheRs.Cuckoo.Cache
import CacheRs.Cuckoo.Entries
import CacheRs.Cuckoo.Effects
import CacheRs.Cuckoo.Placement
import CacheRs.Cuckoo.MapSemantics
import CacheRs.Datatier.Header
import CacheRs.Datatier.Pools
import CacheRs.Datatier.Persistence
import CacheRs.Segments.TtlBuckets
import CacheRs.Eviction.GhostQueue
import CacheRs.Cuckoo.ItemCodec
import CacheRs.Sequential.Procedure
import CacheRs.Sequential.LossyMap
import CacheRs.Segcache.Table
import CacheRs.Segcache.State
import CacheRs.Segcache.Lifecycle
import CacheRs.Segcache.Relocation
import CacheRs.Segcache.Operations
import CacheRs.Segcache.Layout
import CacheRs.Segcache.Consistent
import CacheRs.Segcache.Steps
import CacheRs.Segcache.HeaderSteps
import CacheRs.Segcache.ItemSteps
import CacheRs.Segcache.Scans
import CacheRs.Segcache.Beginnings
import CacheRs.Segcache.Calls
import CacheRs.Segcache.Contents
import CacheRs.Segcache.CompactionLoss
import CacheRs.Segcache.SecondChances
import CacheRs.Segcache.FailedWrites
import CacheRs.Segcache.AdmissionFilter
import CacheRs.Segcache.VictimChoice
import CacheRs.Segcache.Termination
import CacheRs.Concurrency.Solo
import CacheRs.Cuckoo.Expiry
import CacheRs.Cuckoo.Metrics
import CacheRs.Hashtable.Resurrection
import CacheRs.Simd.Lanes
import CacheRs.Hashtable.TagScan
import CacheRs.KeyValue.Numeric
import CacheRs.Concurrency.Amid
import CacheRs.Segments.MergePasses
import CacheRs.Lists.Spans
import CacheRs.Lists.Tiling
import CacheRs.Segcache.SegmentBytes
import CacheRs.Checksums.Crc
import CacheRs.KeyValue.Integrity
import CacheRs.KeyValue.IntegrityRules
import CacheRs.KeyValue.IntegrityRuns
import CacheRs.Concurrency.Layer
import CacheRs.Segments.Admission
import CacheRs.Segments.AdmissionRules
import CacheRs.Segments.AdmissionCount
import CacheRs.Segcache.Endings
import CacheRs.Segcache.Presence
import CacheRs.Segcache.Expiry
import CacheRs.Segcache.Conservation
import CacheRs.Segcache.Accounting
import CacheRs.Segcache.ReadBack
import CacheRs.Segcache.Conversions
import CacheRs.Segcache.TableAlone
import CacheRs.Segcache.Building
import CacheRs.Segcache.HeldItems
