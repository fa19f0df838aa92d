import NearMemoryCompute.Objects.Primitives

namespace NMC

inductive OperationClass
  | reduce | sum | min | max | count | filter | scan | compare | checksum | hash | compress
  | decompress | encode | decode | transform | elementwise | copyElisionTransform | indexLookup
  | gather | scatter | customRegistered
deriving DecidableEq, Inhabited

instance : CppEnum OperationClass where
  members := [
    (.reduce, "REDUCE"), (.sum, "SUM"), (.min, "MIN"), (.max, "MAX"), (.count, "COUNT"),
    (.filter, "FILTER"), (.scan, "SCAN"), (.compare, "COMPARE"), (.checksum, "CHECKSUM"),
    (.hash, "HASH"), (.compress, "COMPRESS"), (.decompress, "DECOMPRESS"), (.encode, "ENCODE"),
    (.decode, "DECODE"), (.transform, "TRANSFORM"), (.elementwise, "ELEMENTWISE"),
    (.copyElisionTransform, "COPY_ELISION_TRANSFORM"), (.indexLookup, "INDEX_LOOKUP"),
    (.gather, "GATHER"), (.scatter, "SCATTER"), (.customRegistered, "CUSTOM_REGISTERED")]
  invalid := "INVALID_OPERATION_CLASS"

inductive TargetKind
  | hostCpuLocal | memorySideProcessor | pimClass | cxlAdjacentCompute | fabricAttachedCompute
  | storageAdjacentCompute | dpuAdjacentMemoryService | acceleratorMemoryLocal | softwareDefined
  | synthetic | unknown
deriving DecidableEq, Inhabited

instance : CppEnum TargetKind where
  members := [
    (.hostCpuLocal, "HOST_CPU_LOCAL"), (.memorySideProcessor, "MEMORY_SIDE_PROCESSOR"),
    (.pimClass, "PIM_CLASS"), (.cxlAdjacentCompute, "CXL_ADJACENT_COMPUTE"),
    (.fabricAttachedCompute, "FABRIC_ATTACHED_COMPUTE"),
    (.storageAdjacentCompute, "STORAGE_ADJACENT_COMPUTE"),
    (.dpuAdjacentMemoryService, "DPU_ADJACENT_MEMORY_SERVICE"),
    (.acceleratorMemoryLocal, "ACCELERATOR_MEMORY_LOCAL"), (.softwareDefined, "SOFTWARE_DEFINED"),
    (.synthetic, "SYNTHETIC"), (.unknown, "UNKNOWN")]
  invalid := "INVALID_TARGET_KIND"

inductive ProviderKind
  | real | synthetic | unknown | unsupported
deriving DecidableEq, Inhabited

instance : CppEnum ProviderKind where
  members := [
    (.real, "REAL"), (.synthetic, "SYNTHETIC"), (.unknown, "UNKNOWN"),
    (.unsupported, "UNSUPPORTED")]
  invalid := "INVALID_PROVIDER_KIND"

inductive CapabilityState
  | supported | unsupported | unknown | revalidationRequired
deriving DecidableEq, Inhabited

instance : CppEnum CapabilityState where
  members := [
    (.supported, "SUPPORTED"), (.unsupported, "UNSUPPORTED"), (.unknown, "UNKNOWN"),
    (.revalidationRequired, "REVALIDATION_REQUIRED")]
  invalid := "INVALID_CAPABILITY_STATE"

inductive TargetLifecycle
  | discovered | registered | probing | ready | busy | degraded | draining | revalidationRequired
  | offline | failed | retired
deriving DecidableEq, Inhabited

instance : CppEnum TargetLifecycle where
  members := [
    (.discovered, "DISCOVERED"), (.registered, "REGISTERED"), (.probing, "PROBING"),
    (.ready, "READY"), (.busy, "BUSY"), (.degraded, "DEGRADED"), (.draining, "DRAINING"),
    (.revalidationRequired, "REVALIDATION_REQUIRED"), (.offline, "OFFLINE"), (.failed, "FAILED"),
    (.retired, "RETIRED")]
  invalid := "INVALID_TARGET_LIFECYCLE"

inductive ExecutionLifecycle
  | planned | reserved | dispatched | running | verifying | completed | committed | failed
  | outcomeUnknown | cancelled | fenced | superseded
deriving DecidableEq, Inhabited

instance : CppEnum ExecutionLifecycle where
  members := [
    (.planned, "PLANNED"), (.reserved, "RESERVED"), (.dispatched, "DISPATCHED"),
    (.running, "RUNNING"), (.verifying, "VERIFYING"), (.completed, "COMPLETED"),
    (.committed, "COMMITTED"), (.failed, "FAILED"), (.outcomeUnknown, "OUTCOME_UNKNOWN"),
    (.cancelled, "CANCELLED"), (.fenced, "FENCED"), (.superseded, "SUPERSEDED")]
  invalid := "INVALID_EXECUTION_LIFECYCLE"

inductive ProgramLifecycle
  | registered | validated | ready | revalidationRequired | invalid | retired
deriving DecidableEq, Inhabited

instance : CppEnum ProgramLifecycle where
  members := [
    (.registered, "REGISTERED"), (.validated, "VALIDATED"), (.ready, "READY"),
    (.revalidationRequired, "REVALIDATION_REQUIRED"), (.invalid, "INVALID"), (.retired, "RETIRED")]
  invalid := "INVALID_PROGRAM_LIFECYCLE"

inductive EligibilityReason
  | none | targetOffline | targetDegraded | targetUnreachable | targetRevalidationRequired
  | operationUnsupported | operationUnknown | datatypeUnsupported | layoutUnsupported
  | alignmentUnsupported | dataStale | dataWrongGeneration | dataUnreachable
  | insufficientWorkspace | concurrencyExhausted | policyDenied | failureDomainConflict
  | programIncompatible | wrongTargetGeneration | wrongWorkerBoot | wrongEpoch | evidenceStale
  | insufficientConfidence
deriving DecidableEq, Inhabited

instance : CppEnum EligibilityReason where
  members := [
    (.none, "NONE"), (.targetOffline, "TARGET_OFFLINE"), (.targetDegraded, "TARGET_DEGRADED"),
    (.targetUnreachable, "TARGET_UNREACHABLE"),
    (.targetRevalidationRequired, "TARGET_REVALIDATION_REQUIRED"),
    (.operationUnsupported, "OPERATION_UNSUPPORTED"), (.operationUnknown, "OPERATION_UNKNOWN"),
    (.datatypeUnsupported, "DATATYPE_UNSUPPORTED"), (.layoutUnsupported, "LAYOUT_UNSUPPORTED"),
    (.alignmentUnsupported, "ALIGNMENT_UNSUPPORTED"), (.dataStale, "DATA_STALE"),
    (.dataWrongGeneration, "DATA_WRONG_GENERATION"), (.dataUnreachable, "DATA_UNREACHABLE"),
    (.insufficientWorkspace, "INSUFFICIENT_WORKSPACE"),
    (.concurrencyExhausted, "CONCURRENCY_EXHAUSTED"), (.policyDenied, "POLICY_DENIED"),
    (.failureDomainConflict, "FAILURE_DOMAIN_CONFLICT"),
    (.programIncompatible, "PROGRAM_INCOMPATIBLE"),
    (.wrongTargetGeneration, "WRONG_TARGET_GENERATION"), (.wrongWorkerBoot, "WRONG_WORKER_BOOT"),
    (.wrongEpoch, "WRONG_EPOCH"), (.evidenceStale, "EVIDENCE_STALE"),
    (.insufficientConfidence, "INSUFFICIENT_CONFIDENCE")]
  invalid := "INVALID_ELIGIBILITY_REASON"

inductive Decision
  | nearMemorySelected | alternateNearMemorySelected | conventionalCpuSelected
  | conventionalGpuSelected | movementRequired | defer | reject | revalidationRequired
deriving DecidableEq, Inhabited

instance : CppEnum Decision where
  members := [
    (.nearMemorySelected, "NEAR_MEMORY_SELECTED"),
    (.alternateNearMemorySelected, "ALTERNATE_NEAR_MEMORY_SELECTED"),
    (.conventionalCpuSelected, "CONVENTIONAL_CPU_SELECTED"),
    (.conventionalGpuSelected, "CONVENTIONAL_GPU_SELECTED"),
    (.movementRequired, "MOVEMENT_REQUIRED"), (.defer, "DEFER"), (.reject, "REJECT"),
    (.revalidationRequired, "REVALIDATION_REQUIRED")]
  invalid := "INVALID_DECISION"

inductive RetryClass
  | replaySafe | idempotent | atMostOnceRequired | nonRetryable | unknown
deriving DecidableEq, Inhabited

instance : CppEnum RetryClass where
  members := [
    (.replaySafe, "REPLAY_SAFE"), (.idempotent, "IDEMPOTENT"),
    (.atMostOnceRequired, "AT_MOST_ONCE_REQUIRED"), (.nonRetryable, "NON_RETRYABLE"),
    (.unknown, "UNKNOWN")]
  invalid := "INVALID_RETRY_CLASS"

inductive VerifyState
  | unverified | verified | mismatch | corrupt | unknown
deriving DecidableEq, Inhabited

instance : CppEnum VerifyState where
  members := [
    (.unverified, "UNVERIFIED"), (.verified, "VERIFIED"), (.mismatch, "MISMATCH"),
    (.corrupt, "CORRUPT"), (.unknown, "UNKNOWN")]
  invalid := "INVALID_VERIFY_STATE"

inductive DataType
  | u8 | i8 | u16 | i16 | u32 | i32 | u64 | i64 | f32 | f64 | bf16 | f16
deriving DecidableEq, Inhabited

instance : CppEnum DataType where
  members := [
    (.u8, "U8"), (.i8, "I8"), (.u16, "U16"), (.i16, "I16"), (.u32, "U32"), (.i32, "I32"),
    (.u64, "U64"), (.i64, "I64"), (.f32, "F32"), (.f64, "F64"), (.bf16, "BF16"), (.f16, "F16")]
  invalid := "INVALID_DATATYPE"

inductive Layout
  | contiguous | strided | blocked | compressed | sparse | tiled
deriving DecidableEq, Inhabited

instance : CppEnum Layout where
  members := [
    (.contiguous, "CONTIGUOUS"), (.strided, "STRIDED"), (.blocked, "BLOCKED"),
    (.compressed, "COMPRESSED"), (.sparse, "SPARSE"), (.tiled, "TILED")]
  invalid := "INVALID_LAYOUT"

inductive PolicyOutcome
  | nearMemoryRequired | nearMemoryPreferred | unconstrained
deriving DecidableEq, Inhabited

instance : CppEnum PolicyOutcome where
  members := [
    (.nearMemoryRequired, "NEAR_MEMORY_REQUIRED"),
    (.nearMemoryPreferred, "NEAR_MEMORY_PREFERRED"), (.unconstrained, "UNCONSTRAINED")]
  invalid := "INVALID_POLICY_OUTCOME"

inductive IntegrityState
  | unknown | intact | suspect | corrupt
deriving DecidableEq, Inhabited

instance : CppEnum IntegrityState where
  members := [
    (.unknown, "UNKNOWN"), (.intact, "INTACT"), (.suspect, "SUSPECT"), (.corrupt, "CORRUPT")]
  invalid := "INVALID_INTEGRITY_STATE"

inductive IntegrityRequirement
  | none | checked | strict
deriving DecidableEq, Inhabited

instance : CppEnum IntegrityRequirement where
  members := [
    (.none, "NONE"), (.checked, "CHECKED"), (.strict, "STRICT")]
  invalid := "INVALID_INTEGRITY_REQUIREMENT"

inductive AccessSemantics
  | coherent | nonCoherent | direct | staged
deriving DecidableEq, Inhabited

instance : CppEnum AccessSemantics where
  members := [
    (.coherent, "COHERENT"), (.nonCoherent, "NON_COHERENT"), (.direct, "DIRECT"),
    (.staged, "STAGED")]
  invalid := "INVALID_ACCESS_SEMANTICS"

end NMC
