import RecordStore.Latency
import RecordStore.Schema.Document
import RecordStore.Table.Operation
import RecordStore.Workload
import RecordStore.Proofs.Agreement
import RecordStore.Proofs.Allocation
import RecordStore.Proofs.Bounds
import RecordStore.Proofs.Canonical
import RecordStore.Proofs.Completeness
import RecordStore.Proofs.Copying
import RecordStore.Proofs.Counting
import RecordStore.Proofs.Creation
import RecordStore.Proofs.Cut
import RecordStore.Proofs.Detection
import RecordStore.Proofs.Document
import RecordStore.Proofs.Frame
import RecordStore.Proofs.Handing
import RecordStore.Proofs.History
import RecordStore.Proofs.Indistinguishable
import RecordStore.Proofs.Lock
import RecordStore.Proofs.Lockstep
import RecordStore.Proofs.Orders
import RecordStore.Proofs.Packing
import RecordStore.Proofs.Query
import RecordStore.Proofs.Refusal
import RecordStore.Proofs.Regular
import RecordStore.Proofs.Restore
import RecordStore.Proofs.Rollback
import RecordStore.Proofs.RoundTrip
import RecordStore.Proofs.Settled
import RecordStore.Proofs.Shape
import RecordStore.Proofs.Spacing
import RecordStore.Proofs.Staging
import RecordStore.Proofs.Stray
import RecordStore.Proofs.Trace
import RecordStore.Proofs.Unique
import RecordStore.Proofs.Validity
import RecordStore.Proofs.Walk
import RecordStore.Proofs.WriteOrder
