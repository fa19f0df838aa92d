import NearMemoryCompute.Execution.Step

namespace NMC

-- What the coordinator keeps books on: which plans there are, which of them blocks its operation,
-- which results have arrived and how much is reserved on each target.
structure Ledger where
  epoch       : CoordinatorEpoch
  plans       : Table ExecutionPlanId ExecutionPlan
  activePlans : Table OperationId ExecutionPlanId
  results     : Table ResultId ExecutionResult
  reservation : NearMemoryTargetId → ReservationState

def RuntimeState.ledger (st : RuntimeState) : Ledger where
  epoch       := st.epoch
  plans       := st.plans
  activePlans := st.activePlans
  results     := st.results
  reservation := st.reservation

namespace Ledger

variable (l : Ledger)

def set (id : ExecutionPlanId) (plan : ExecutionPlan) : Ledger :=
  { l with plans := l.plans.insert id plan }

def activate (o : OperationId) (id : ExecutionPlanId) : Ledger :=
  { l with activePlans := l.activePlans.insert o id }

def deactivate (o : OperationId) : Ledger :=
  { l with activePlans := l.activePlans.erase o }

def record (res : ExecutionResult) : Ledger :=
  { l with results := l.results.insert res.id res }

def hold (t : NearMemoryTargetId) (rs : ReservationState) : Ledger :=
  { l with reservation := Function.update l.reservation t rs }

def release (plan : ExecutionPlan) : Ledger :=
  l.hold plan.target ((l.reservation plan.target).release plan)

-- Changes every plan and looks for the active ones anew.
def sweep (f : ExecutionPlan → ExecutionPlan) : Ledger :=
  { l with
    plans       := l.plans.map fun _ => f
    activePlans := activePlansOf (l.plans.map fun _ => f) }

def nextEpoch : Ledger :=
  { l.sweep ExecutionPlan.onEpoch with epoch := { value := l.epoch.value + 1 } }

theorem hold_self (t : NearMemoryTargetId) (rs : ReservationState) :
    (l.hold t rs).reservation t = rs :=
  Function.update_self ..

theorem hold_of_ne {t t' : NearMemoryTargetId} (h : t ≠ t') (rs : ReservationState) :
    (l.hold t rs).reservation t' = l.reservation t' :=
  Function.update_of_ne (Ne.symm h) ..

theorem release_self (plan : ExecutionPlan) :
    (l.release plan).reservation plan.target = (l.reservation plan.target).release plan :=
  l.hold_self ..

theorem release_of_ne {plan : ExecutionPlan} {t : NearMemoryTargetId} (h : plan.target ≠ t) :
    (l.release plan).reservation t = l.reservation t :=
  l.hold_of_ne h _

end Ledger

-- What planning has found if it creates a plan.
structure Selection (st : RuntimeState) (o : OperationId) where
  op                : OperationSpec
  policy            : Policy
  data              : DataEvidence
  target            : NearMemoryTargetId
  tdef              : TargetDefinition
  trt               : TargetRuntime
  caps              : CapabilitySet
  operation_eq      : st.operations[o]? = some op
  policy_eq         : st.policies[op.policy]? = some policy
  dataEvidence_eq   : st.dataEvidence[op.region]? = some data
  targets_eq        : st.targets[target]? = some tdef
  targetRuntime_eq  : st.targetRuntime[target]? = some trt
  capabilities_eq   : st.capabilities[target]? = some caps
  inactive          : op.id ∉ st.activePlans

def Selection.plan {st : RuntimeState} {o : OperationId} (sel : Selection st o)
    (id : ExecutionPlanId) : ExecutionPlan :=
  Coordinator.newPlan st id sel.op (some sel.data) sel.target sel.trt sel.tdef sel.caps

-- The workspace that a plan asks for.
def RuntimeState.workspaceOf (st : RuntimeState) (plan : ExecutionPlan) : UInt64 :=
  (st.operations[plan.operation]?).elim 0 (·.workspaceBytes)

-- What `reserve` has checked if it admits a plan.
structure Admission (st : RuntimeState) (id : ExecutionPlanId) where
  plan             : ExecutionPlan
  trt              : TargetRuntime
  plan_eq          : st.plans[id]? = some plan
  planned          : plan.lifecycle = .planned
  targetRuntime_eq : st.targetRuntime[plan.target]? = some trt
  slots            : (st.reservation plan.target).reservedSlots <
                      (Table.subscript st.targets plan.target).fst.concurrencyCapacity.toUInt64

namespace Admission

variable {st : RuntimeState} {id : ExecutionPlanId} (adm : Admission st id)

def reserved : ExecutionPlan :=
  { adm.plan with
    reservedSlots     := 1
    reservedWorkspace := st.workspaceOf adm.plan
    lifecycle         := .reserved }

def reservation : ReservationState where
  reservedSlots     := (st.reservation adm.plan.target).reservedSlots + 1
  reservedWorkspace := (st.reservation adm.plan.target).reservedWorkspace + st.workspaceOf adm.plan

end Admission

-- What `prepare_dispatch` has found if it produces a message.
structure Preparation (st : RuntimeState) (id : ExecutionPlanId) where
  plan             : ExecutionPlan
  op               : OperationSpec
  trt              : TargetRuntime
  plan_eq          : st.plans[id]? = some plan
  reserved         : plan.lifecycle = .reserved
  fresh            : Coordinator.stalenessLocked st plan = []
  operation_eq     : st.operations[plan.operation]? = some op
  targetRuntime_eq : st.targetRuntime[plan.target]? = some trt

namespace Preparation

variable {st : RuntimeState} {id : ExecutionPlanId} (prep : Preparation st id)

def message (did : DispatchId) (aid : AttemptId) : DispatchMsg :=
  Coordinator.dispatchMsg st prep.plan prep.op prep.trt.ownerBoot did aid

def prepared (did : DispatchId) (aid : AttemptId) : ExecutionPlan :=
  { prep.plan with dispatchId := some did, attemptId := some aid }

end Preparation

-- What `apply_result` has checked before it settles a plan.
structure Completion (st : RuntimeState) (msg : ResultMsg) where
  plan     : ExecutionPlan
  plan_eq  : st.plans[msg.plan]? = some plan
  accepted : Coordinator.completionError st plan msg = none

-- The operations that change the books whenever they succeed. Planning does so only if it creates
-- a plan.
def Op.onLedger : Op → Bool
  | reserve .. | prepareDispatch .. | confirmDispatched .. | applyResult .. | cancelPlan ..
  | fenceWorker .. | onWorkerDisconnected .. | retireTarget .. | advanceEpoch | load .. => true
  | _ => false

open Coordinator

-- The ways in which an operation can change the books, from the state in which it starts.
inductive Ledger.Step (st : RuntimeState) : Op → Outcome → Ledger → Prop
  | idle {op out} :
    (out.succeeded → !op.onLedger) → Step st op out st.ledger
  | plan {id o out} (sel : Selection st o) :
    Step st (.plan id o) (.plan (.ok out))
      ((st.ledger.set id (sel.plan id)).activate sel.op.id id)
  | reserve {p} (adm : Admission st p) :
    Step st (.reserve p) (.unit (.ok ()))
      ((st.ledger.set p adm.reserved).hold adm.plan.target adm.reservation)
  | prepare {p did aid out} (prep : Preparation st p) :
    out.message = prep.message did aid →
    Step st (.prepareDispatch p did aid) (.dispatch (.ok out))
      (st.ledger.set p (prep.prepared did aid))
  | supersede {p did aid plan e} :
    st.plans[p]? = some plan → plan.lifecycle = .reserved → stalenessLocked st plan ≠ [] →
    Step st (.prepareDispatch p did aid) (.dispatch (.error e))
      (st.ledger.set p { plan with lifecycle := .superseded })
  | confirm {p did plan} :
    st.plans[p]? = some plan → plan.lifecycle = .reserved → plan.dispatchId = some did →
    Step st (.confirmDispatched p did) (.unit (.ok ()))
      (st.ledger.set p { plan with lifecycle := .dispatched })
  | ambiguous {id msg res} (c : Completion st msg) :
    msg.unknown → res.id = id → res.plan = msg.plan → res.committed = false →
    Step st (.applyResult id msg) (.result (.ok res))
      (((st.ledger.set msg.plan { c.plan with lifecycle := .outcomeUnknown }).deactivate
        c.plan.operation).record res)
  | mismatch {id msg res} (c : Completion st msg) :
    !msg.unknown → !intact msg → res.id = id → res.plan = msg.plan → res.committed = false →
    Step st (.applyResult id msg) (.result (.ok res))
      (((st.ledger.set msg.plan { c.plan with lifecycle := .failed }).deactivate
        c.plan.operation).record res)
  | commit {id msg res} (c : Completion st msg) :
    !msg.unknown → intact msg → res.id = id → res.plan = msg.plan → res.committed = true →
    Step st (.applyResult id msg) (.result (.ok res))
      ((((st.ledger.set msg.plan { c.plan with lifecycle := .committed }).deactivate
        c.plan.operation).record res).release c.plan)
  | cancel {p plan} :
    st.plans[p]? = some plan → !plan.lifecycle.ended →
    Step st (.cancelPlan p) (.unit (.ok ()))
      (((st.ledger.release plan).set p { plan with lifecycle := .cancelled }).deactivate
        plan.operation)
  | advance :
    Step st .advanceEpoch (.unit (.ok ())) st.ledger.nextEpoch
  | fence {boot} :
    Step st (.fenceWorker boot) (.unit (.ok ())) (st.ledger.sweep (·.onFence boot))
  | disconnect {boot} :
    Step st (.onWorkerDisconnected boot) (.unit (.ok ())) (st.ledger.sweep (·.onFence boot))
  | retire {t trt} :
    st.targetRuntime[t]? = some trt →
    Step st (.retireTarget t) (.unit (.ok ())) (st.ledger.sweep (·.onRetire t))
  | load {file loaded} :
    PersistentStore.load file decodeState = .ok loaded →
    Step st (.load file) (.unit (.ok ()))
      { loaded.ledger.nextEpoch with reservation := fun _ => {} }

end NMC
