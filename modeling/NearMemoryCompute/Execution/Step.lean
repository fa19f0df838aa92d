import NearMemoryCompute.Execution.Recovery
import NearMemoryCompute.Execution.Registration
import NearMemoryCompute.Library.Machine

namespace NMC

-- The public operations that can change the state. The identities that an operation draws from
-- the identity source are among its arguments, and so is what `load` finds in the file system.
inductive Op
  | attachCoordinator (id : CoordinatorId)
  | registerMemoryDomain (md : MemoryDomainDescriptor)
  | registerDataset (ds : DatasetDescriptor)
  | registerRegion (rg : DataRegionDescriptor)
  | registerProgram (pg : Program)
  | registerPolicy (pl : Policy)
  | createOperation (op : OperationSpec)
  | bindWorkerSession (w : WorkerId) (boot : WorkerBootId) (name : Bytes)
  | applyRegisterTarget (msg : RegisterTargetMsg)
  | applyCapability (evidenceId : EvidenceId) (capabilityId : ℕ → CapabilityId)
      (msg : CapabilityMsg)
  | applyDataEvidence (msg : DataEvidenceMsg)
  | applyHeartbeat (msg : HeartbeatMsg)
  | plan (id : ExecutionPlanId) (opId : OperationId)
  | reserve (planId : ExecutionPlanId)
  | prepareDispatch (planId : ExecutionPlanId) (dispatchId : DispatchId) (attemptId : AttemptId)
  | confirmDispatched (planId : ExecutionPlanId) (dispatchId : DispatchId)
  | applyResult (id : ResultId) (msg : ResultMsg)
  | beginDrain (target : NearMemoryTargetId)
  | cancelPlan (planId : ExecutionPlanId)
  | fenceWorker (boot : WorkerBootId)
  | onWorkerDisconnected (boot : WorkerBootId)
  | retireTarget (target : NearMemoryTargetId)
  | advanceEpoch
  | load (file : File)

inductive Outcome
  | unit (res : Result Unit)
  | plan (res : Result Coordinator.PlanOutput)
  | dispatch (res : Result Coordinator.DispatchOutput)
  | result (res : Result ExecutionResult)

def Outcome.succeeded : Outcome → Bool
  | unit res | plan res | dispatch res | result res => res.isOk

namespace Coordinator

def answer {α : Type} (f : Result α → Outcome) (action : Action α) (st : RuntimeState) :
    Outcome × RuntimeState :=
  (f (action st).fst, (action st).snd)

def step [Platform] : Op → RuntimeState → Outcome × RuntimeState
  | .attachCoordinator id           => answer .unit (attachCoordinator id)
  | .registerMemoryDomain md        => answer .unit (registerMemoryDomain md)
  | .registerDataset ds             => answer .unit (registerDataset ds)
  | .registerRegion rg              => answer .unit (registerRegion rg)
  | .registerProgram pg             => answer .unit (registerProgram pg)
  | .registerPolicy pl              => answer .unit (registerPolicy pl)
  | .createOperation op             => answer .unit (createOperation op)
  | .bindWorkerSession w boot name  => answer .unit (bindWorkerSession w boot name)
  | .applyRegisterTarget msg        => answer .unit (applyRegisterTarget msg)
  | .applyCapability eid cid msg    => answer .unit (applyCapability eid cid msg)
  | .applyDataEvidence msg          => answer .unit (applyDataEvidence msg)
  | .applyHeartbeat msg             => answer .unit (applyHeartbeat msg)
  | .plan id opId                   => answer .plan (plan id opId)
  | .reserve planId                 => answer .unit (reserve planId)
  | .prepareDispatch planId did aid => answer .dispatch (prepareDispatch planId did aid)
  | .confirmDispatched planId did   => answer .unit (confirmDispatched planId did)
  | .applyResult id msg             => answer .result (applyResult id msg)
  | .beginDrain target              => answer .unit (beginDrain target)
  | .cancelPlan planId              => answer .unit (cancelPlan planId)
  | .fenceWorker boot               => answer .unit (fenceWorker boot)
  | .onWorkerDisconnected boot      => answer .unit (onWorkerDisconnected boot)
  | .retireTarget target            => answer .unit (retireTarget target)
  | .advanceEpoch                   => answer .unit advanceEpoch
  | .load file                      => answer .unit (load file)

-- The coordinator as a machine whose inputs are the public operations, in any order. All of them
-- run under one lock, so each of them is one step.
def machine [Platform] : Machine RuntimeState Op Outcome where
  step := step

-- The state that a new coordinator has reached after a run, and what has happened until then.
abbrev after [Platform] (cid : CoordinatorId) (run : List Op) : RuntimeState :=
  machine.after (init cid) run

abbrev history [Platform] (cid : CoordinatorId) (run : List Op) :
    List (Event RuntimeState Op Outcome) :=
  machine.events (init cid) run

end Coordinator

-- An operation of the given kind has succeeded.
def Done (kind : Op → Bool) (e : Event RuntimeState Op Outcome) : Prop :=
  kind e.input ∧ e.output.succeeded

instance {kind : Op → Bool} : DecidablePred (Done kind) :=
  fun e => inferInstanceAs (Decidable (kind e.input ∧ e.output.succeeded))

-- The plan identity that the operation draws is not in use.
def Op.planIdUnused (op : Op) (st : RuntimeState) : Bool :=
  match op with
  | .plan id _ => id ∉ st.plans
  | _          => true

-- The result identity that the operation draws is not in use.
def Op.resultIdUnused (op : Op) (st : RuntimeState) : Bool :=
  match op with
  | .applyResult id _ => id ∉ st.results
  | _                 => true

-- A deployment with one target, which is owned by one worker, and operations on one region.
namespace Deployment

scoped instance : Platform where
  byteTimeNs bytes bandwidthBps := .ofNat (bytes.toNat * 1000000000 / bandwidthBps.toNat)

def operation (id : OperationId) : OperationSpec where
  id                := id
  generation        := { value := 1 }
  region            := { value := 1 }
  datasetGeneration := { value := 1 }
  workspaceBytes    := 10
  policy            := { value := 1 }
  policyGeneration  := { value := 1 }

def registration : RegisterTargetMsg where
  target      := { value := 1 }
  generation  := { value := 1 }
  ops         := [OperationClass.sum]
  dataTypes   := [DataType.u8]
  layouts     := [Layout.contiguous]
  concurrency := 1
  workspace   := 100
  ownerBoot   := { value := 1 }

def capability : CapabilityMsg where
  target    := { value := 1 }
  entries   := [{ key := ascii "operation:SUM", state := CapabilityState.supported }]
  publisher := { value := 1 }

def evidence : DataEvidenceMsg where
  region            := { value := 1 }
  datasetGeneration := { value := 1 }
  present           := true
  current           := true
  reachable         := true
  publisher         := { value := 1 }

def heartbeat : HeartbeatMsg where
  target := { value := 1 }

-- The steps that make the target ready, the latest one first.
def setup : List Op := [
  .bindWorkerSession { value := 1 } { value := 1 } (ascii "worker"),
  .applyHeartbeat heartbeat,
  .applyDataEvidence evidence,
  .applyCapability { value := 1 } (fun _ => { value := 1 }) capability,
  .applyRegisterTarget registration,
  .createOperation (operation { value := 3 }),
  .createOperation (operation { value := 2 }),
  .createOperation (operation { value := 1 })]

-- The steps that make a second target ready, which is owned by another worker.
def second : List Op := [
  .bindWorkerSession { value := 2 } { value := 2 } (ascii "second"),
  .applyHeartbeat { target := { value := 2 } },
  .applyDataEvidence { evidence with publisher := { value := 2 } },
  .applyCapability { value := 2 } (fun _ => { value := 2 })
    { capability with target := { value := 2 }, publisher := { value := 2 } },
  .applyRegisterTarget
    { registration with target := { value := 2 }, ownerBoot := { value := 2 } }]

-- The steps by which the plan `10` for the first operation is sent to the worker.
def dispatch : List Op := [
  .confirmDispatched { value := 10 } { value := 20 },
  .prepareDispatch { value := 10 } { value := 20 } { value := 30 },
  .reserve { value := 10 },
  .plan { value := 10 } { value := 1 }]

-- The completion of that plan, without any output.
def completion : ResultMsg where
  plan         := { value := 10 }
  planGen      := { value := 1 }
  dispatch     := { value := 20 }
  attempt      := { value := 30 }
  target       := { value := 1 }
  targetGen    := { value := 1 }
  workerBoot   := { value := 1 }
  epoch        := { value := 1 }
  datasetGen   := { value := 1 }
  operationGen := { value := 1 }
  resultGen    := { value := 1 }
  outputDigest := toHex (contentDigest [])

end Deployment
end NMC
