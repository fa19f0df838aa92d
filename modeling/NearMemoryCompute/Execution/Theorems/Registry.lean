import NearMemoryCompute.Execution.Registry
import NearMemoryCompute.Execution.Theorems.Ledger

namespace NMC

-- An operation that fails leaves the registry as it is.
theorem Registry.Step.refused {reg : Registry} {op : Op} {out : Outcome}
    (h : out.succeeded = false) : Registry.Step reg op out reg :=
  .idle fun hs => absurd (h.symm.trans hs) Bool.false_ne_true

namespace Coordinator

variable {st : RuntimeState}

theorem registerPolicy_registry (pl : Policy) :
    Registry.Step st.registry (.registerPolicy pl) (.unit (registerPolicy pl st).fst)
      (registerPolicy pl st).snd.registry := by
  simp only [registerPolicy]
  split_ifs with _ _ h
  case neg => exact .policy h
  all_goals exact .refused rfl

theorem createOperation_registry (op : OperationSpec) :
    Registry.Step st.registry (.createOperation op) (.unit (createOperation op st).fst)
      (createOperation op st).snd.registry := by
  simp only [createOperation, registerEntry]
  split
  case isTrue => exact .refused rfl
  case isFalse =>
    split
    case isTrue    => exact .refused rfl
    case isFalse h =>
      have h : op.id ∉ st.operations := by simpa using h
      exact .operation h

theorem applyRegisterTarget_registry (msg : RegisterTargetMsg) :
    Registry.Step st.registry (.applyRegisterTarget msg) (.unit (applyRegisterTarget msg st).fst)
      (applyRegisterTarget msg st).snd.registry := by
  simp only [applyRegisterTarget]
  split
  case isTrue  => exact .refused rfl
  case isFalse => exact .target

theorem applyCapability_registry (eid : EvidenceId) (cid : ℕ → CapabilityId) (msg : CapabilityMsg) :
    Registry.Step st.registry (.applyCapability eid cid msg)
      (.unit (applyCapability eid cid msg st).fst)
      (applyCapability eid cid msg st).snd.registry := by
  simp only [applyCapability]
  split
  case isTrue => exact .refused rfl
  case isFalse =>
    split
    case h_1   => exact .refused rfl
    case h_2 h => exact .capability h

theorem applyDataEvidence_registry (msg : DataEvidenceMsg) :
    Registry.Step st.registry (.applyDataEvidence msg) (.unit (applyDataEvidence msg st).fst)
      (applyDataEvidence msg st).snd.registry := by
  simp only [applyDataEvidence]
  split
  case isTrue  => exact .refused rfl
  case isFalse => exact .evidence

theorem applyHeartbeat_registry (msg : HeartbeatMsg) :
    Registry.Step st.registry (.applyHeartbeat msg) (.unit (applyHeartbeat msg st).fst)
      (applyHeartbeat msg st).snd.registry := by
  simp only [applyHeartbeat]
  split
  case h_1 => exact .refused rfl
  case h_2 h =>
    split
    case isTrue  => exact .refused rfl
    case isFalse => exact .heartbeat h

theorem beginDrain_registry (t : NearMemoryTargetId) :
    Registry.Step st.registry (.beginDrain t) (.unit (beginDrain t st).fst)
      (beginDrain t st).snd.registry := by
  simp only [beginDrain]
  split
  case h_1 => exact .refused rfl
  case h_2 h =>
    split
    case isTrue  => exact .refused rfl
    case isFalse => exact .drain h

theorem plan_registry [Platform] (id : ExecutionPlanId) (o : OperationId) :
    (plan id o st).snd.registry = st.registry := by
  rcases plan_cases id o st with ⟨h, _⟩ | ⟨sel, out, _, _, h⟩
  · rw [h]
  · rw [h]
    rfl

theorem reserve_registry (p : ExecutionPlanId) :
    Registry.Step st.registry (.reserve p) (.unit (reserve p st).fst)
      (reserve p st).snd.registry := by
  simp only [reserve]
  split
  case h_1 => exact .refused rfl
  case h_2 plan _ =>
    split
    case isTrue => exact .refused rfl
    case isFalse =>
      split
      case h_1 => exact .refused rfl
      case h_2 =>
        split_ifs
        all_goals exact .lookup (t := plan.target)

theorem releaseReservation_registry (plan : ExecutionPlan) :
    (st.releaseReservation plan).registry = st.registry := by
  simp only [RuntimeState.releaseReservation]
  split <;> rfl

theorem prepareDispatch_registry (p : ExecutionPlanId) (did : DispatchId) (aid : AttemptId) :
    (prepareDispatch p did aid st).snd.registry = st.registry := by
  simp only [prepareDispatch]
  repeat' split
  all_goals rfl

theorem confirmDispatched_registry (p : ExecutionPlanId) (did : DispatchId) :
    (confirmDispatched p did st).snd.registry = st.registry := by
  simp only [confirmDispatched]
  repeat' split
  all_goals rfl

theorem applyResult_registry (id : ResultId) (msg : ResultMsg) :
    (applyResult id msg st).snd.registry = st.registry := by
  simp only [applyResult]
  repeat' split
  all_goals first | rfl | exact releaseReservation_registry _

theorem cancelPlan_registry (p : ExecutionPlanId) :
    (cancelPlan p st).snd.registry = st.registry := by
  simp only [cancelPlan]
  repeat' split
  all_goals first | rfl | exact releaseReservation_registry _

theorem retireTarget_registry (t : NearMemoryTargetId) :
    Registry.Step st.registry (.retireTarget t) (.unit (retireTarget t st).fst)
      (retireTarget t st).snd.registry := by
  simp only [retireTarget]
  split
  case h_1   => exact .refused rfl
  case h_2 h => exact .retire h

theorem load_registry (file : File) :
    Registry.Step st.registry (.load file) (.unit (load file st).fst)
      (load file st).snd.registry := by
  simp only [load]
  split
  case h_1   => exact .refused rfl
  case h_2 h => exact .load h

theorem registerEntry_registry {null duplicate : Bool} {nullText duplicateText : String}
    {registered : RuntimeState} (h : registered.registry = st.registry) :
    (registerEntry null nullText duplicate duplicateText registered st).snd.registry =
      st.registry := by
  simp only [registerEntry]
  split
  case isTrue => rfl
  case isFalse =>
    split
    case isTrue  => rfl
    case isFalse => exact h

theorem idle_of_registry_eq [Platform] {op : Op} (h : (step op st).snd.registry = st.registry)
    (ho : !op.onRegistry) :
    Registry.Step st.registry op (step op st).fst (step op st).snd.registry :=
  h ▸ .idle fun _ => ho

-- The coordinator changes its registry as the steps of the registry say.
theorem step_registry [Platform] (op : Op) (st : RuntimeState) :
    Registry.Step st.registry op (step op st).fst (step op st).snd.registry := by
  cases op
  case registerPolicy pl           => exact registerPolicy_registry pl
  case createOperation op          => exact createOperation_registry op
  case applyRegisterTarget msg     => exact applyRegisterTarget_registry msg
  case applyCapability eid cid msg => exact applyCapability_registry eid cid msg
  case applyDataEvidence msg       => exact applyDataEvidence_registry msg
  case applyHeartbeat msg          => exact applyHeartbeat_registry msg
  case beginDrain t                => exact beginDrain_registry t
  case reserve p                   => exact reserve_registry p
  case retireTarget t              => exact retireTarget_registry t
  case load file                   => exact load_registry file
  case advanceEpoch                => exact .advance
  case fenceWorker                 => exact .fence
  case onWorkerDisconnected        => exact .disconnect
  case attachCoordinator           => exact idle_of_registry_eq rfl rfl
  case bindWorkerSession           => exact idle_of_registry_eq rfl rfl
  case registerMemoryDomain        => exact idle_of_registry_eq (registerEntry_registry rfl) rfl
  case registerDataset             => exact idle_of_registry_eq (registerEntry_registry rfl) rfl
  case registerRegion              => exact idle_of_registry_eq (registerEntry_registry rfl) rfl
  case registerProgram             => exact idle_of_registry_eq (registerEntry_registry rfl) rfl
  case plan id o                   => exact idle_of_registry_eq (plan_registry id o) rfl
  case prepareDispatch p did aid =>
    exact idle_of_registry_eq (prepareDispatch_registry p did aid) rfl
  case confirmDispatched p did =>
    exact idle_of_registry_eq (confirmDispatched_registry p did) rfl
  case applyResult id msg          => exact idle_of_registry_eq (applyResult_registry id msg) rfl
  case cancelPlan p                => exact idle_of_registry_eq (cancelPlan_registry p) rfl

theorem releaseReservation_catalog (plan : ExecutionPlan) :
    (st.releaseReservation plan).catalog = st.catalog := by
  simp only [RuntimeState.releaseReservation]
  split <;> rfl

theorem plan_catalog [Platform] (id : ExecutionPlanId) (o : OperationId) :
    (plan id o st).snd.catalog = st.catalog := by
  rcases plan_cases id o st with ⟨hs, _⟩ | ⟨_, _, _, _, hs⟩
  · rw [hs]
  · rw [hs]
    rfl

theorem registerEntry_catalog {op : Op} {null : Bool} {nullText duplicateText : String}
    {duplicate : Prop} [Decidable duplicate] {registered : RuntimeState}
    (h : ¬duplicate → Catalog.Step st.catalog op (.unit (.ok ())) registered.catalog) :
    Catalog.Step st.catalog op
      (.unit (registerEntry null nullText duplicate duplicateText registered st).fst)
      (registerEntry null nullText duplicate duplicateText registered st).snd.catalog := by
  simp only [registerEntry]
  split_ifs with _ hd
  case neg => exact h (by simpa using hd)
  all_goals exact .idle

-- The coordinator changes its catalog as the steps of the catalog say.
theorem step_catalog [Platform] (op : Op) (st : RuntimeState) :
    Catalog.Step st.catalog op (step op st).fst (step op st).snd.catalog := by
  have idle (h : (step op st).snd.catalog = st.catalog) :
      Catalog.Step st.catalog op (step op st).fst (step op st).snd.catalog :=
    h ▸ .idle
  cases op
  case registerMemoryDomain md =>
    exact registerEntry_catalog (@Catalog.Step.memoryDomain st.catalog md)
  case registerDataset ds      => exact registerEntry_catalog (@Catalog.Step.dataset st.catalog ds)
  case registerRegion rg       => exact registerEntry_catalog (@Catalog.Step.region st.catalog rg)
  case registerProgram pg      => exact registerEntry_catalog (@Catalog.Step.program st.catalog pg)
  case plan id o               => exact idle (plan_catalog id o)
  case load file =>
    simp only [step, answer, load]
    split
    case h_1          => exact .idle
    case h_2 loaded h => exact @Catalog.Step.load _ file loaded h
  all_goals
    refine idle ?_
    simp only [step, answer, attachCoordinator, registerEntry, registerPolicy, createOperation,
      bindWorkerSession, applyRegisterTarget, applyCapability, applyDataEvidence, applyHeartbeat,
      reserve, prepareDispatch, confirmDispatched, applyResult, beginDrain, cancelPlan, fenceWorker,
      onWorkerDisconnected, retireTarget, advanceEpoch]
    try repeat' split
    all_goals first | rfl | exact releaseReservation_catalog _

end Coordinator
end NMC
