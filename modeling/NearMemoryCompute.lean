import NearMemoryCompute.Execution.Backend
import NearMemoryCompute.Execution.Cluster
import NearMemoryCompute.Execution.Cuda
import NearMemoryCompute.Execution.Dispatch
import NearMemoryCompute.Execution.Failure
import NearMemoryCompute.Execution.Frame
import NearMemoryCompute.Execution.Ledger
import NearMemoryCompute.Execution.Node
import NearMemoryCompute.Execution.Persistence
import NearMemoryCompute.Execution.Plan
import NearMemoryCompute.Execution.Recovery
import NearMemoryCompute.Execution.Registration
import NearMemoryCompute.Execution.Registry
import NearMemoryCompute.Execution.Socket
import NearMemoryCompute.Execution.State
import NearMemoryCompute.Execution.Step
import NearMemoryCompute.Execution.Storage
import NearMemoryCompute.Execution.Theorems.Abandonment
import NearMemoryCompute.Execution.Theorems.Accounting
import NearMemoryCompute.Execution.Theorems.Acknowledgement
import NearMemoryCompute.Execution.Theorems.ActivePlans
import NearMemoryCompute.Execution.Theorems.Agreement
import NearMemoryCompute.Execution.Theorems.Ambiguity
import NearMemoryCompute.Execution.Theorems.Atomicity
import NearMemoryCompute.Execution.Theorems.Backend
import NearMemoryCompute.Execution.Theorems.Balance
import NearMemoryCompute.Execution.Theorems.Bindings
import NearMemoryCompute.Execution.Theorems.Capacity
import NearMemoryCompute.Execution.Theorems.Checksum
import NearMemoryCompute.Execution.Theorems.Cluster
import NearMemoryCompute.Execution.Theorems.Codec
import NearMemoryCompute.Execution.Theorems.Completion
import NearMemoryCompute.Execution.Theorems.Computation
import NearMemoryCompute.Execution.Theorems.Corruption
import NearMemoryCompute.Execution.Theorems.Cuda
import NearMemoryCompute.Execution.Theorems.Custody
import NearMemoryCompute.Execution.Theorems.Durability
import NearMemoryCompute.Execution.Theorems.Eligibility
import NearMemoryCompute.Execution.Theorems.Evolution
import NearMemoryCompute.Execution.Theorems.Finality
import NearMemoryCompute.Execution.Theorems.Frame
import NearMemoryCompute.Execution.Theorems.Freshness
import NearMemoryCompute.Execution.Theorems.Gauge
import NearMemoryCompute.Execution.Theorems.Generations
import NearMemoryCompute.Execution.Theorems.Honest
import NearMemoryCompute.Execution.Theorems.Incarnations
import NearMemoryCompute.Execution.Theorems.Intake
import NearMemoryCompute.Execution.Theorems.Integrity
import NearMemoryCompute.Execution.Theorems.Ledger
import NearMemoryCompute.Execution.Theorems.Messages
import NearMemoryCompute.Execution.Theorems.Node
import NearMemoryCompute.Execution.Theorems.Overlong
import NearMemoryCompute.Execution.Theorems.Planning
import NearMemoryCompute.Execution.Theorems.Provenance
import NearMemoryCompute.Execution.Theorems.Ranking
import NearMemoryCompute.Execution.Theorems.Readmission
import NearMemoryCompute.Execution.Theorems.Recovery
import NearMemoryCompute.Execution.Theorems.Registry
import NearMemoryCompute.Execution.Theorems.Replies
import NearMemoryCompute.Execution.Theorems.Resolvable
import NearMemoryCompute.Execution.Theorems.Revalidation
import NearMemoryCompute.Execution.Theorems.RoundTrip
import NearMemoryCompute.Execution.Theorems.Sending
import NearMemoryCompute.Execution.Theorems.Service
import NearMemoryCompute.Execution.Theorems.Storable
import NearMemoryCompute.Execution.Theorems.Storage
import NearMemoryCompute.Execution.Theorems.Tampering
import NearMemoryCompute.Execution.Theorems.Termination
import NearMemoryCompute.Execution.Theorems.Transport
import NearMemoryCompute.Execution.Theorems.Waiting
import NearMemoryCompute.Execution.Theorems.Withdrawal
import NearMemoryCompute.Execution.Theorems.Workspace
import NearMemoryCompute.Execution.Wire
import NearMemoryCompute.Execution.Worker
import NearMemoryCompute.Library.Crc
import NearMemoryCompute.Library.Fold
import NearMemoryCompute.Library.Machine
import NearMemoryCompute.Library.Parsing
import NearMemoryCompute.Library.Ranking
import NearMemoryCompute.Library.Stream
import NearMemoryCompute.Library.Table
import NearMemoryCompute.Library.Word
import NearMemoryCompute.Objects.Authority
import NearMemoryCompute.Objects.Checksum
import NearMemoryCompute.Objects.Codec
import NearMemoryCompute.Objects.Enums
import NearMemoryCompute.Objects.Planning
import NearMemoryCompute.Objects.Primitives
import NearMemoryCompute.Objects.Protocol
import NearMemoryCompute.Objects.Records
