import NearMemoryCompute.Execution.Dispatch

namespace NMC

def TargetRuntime.invalidate (rt : TargetRuntime) : TargetRuntime :=
  { rt with
    dynamicCurrent := false
    reachable      := false
    lifecycle      := TargetLifecycle.revalidationRequired }

def TargetRuntime.retire (rt : TargetRuntime) : TargetRuntime :=
  { rt with
    lifecycle      := TargetLifecycle.retired
    reachable      := false
    dynamicCurrent := false }

def TargetRuntime.drain (rt : TargetRuntime) : TargetRuntime :=
  { rt with lifecycle := TargetLifecycle.draining }

namespace ExecutionPlan

-- A plan that a new epoch finds. Work that may be running becomes ambiguous.
def onEpoch (plan : ExecutionPlan) : ExecutionPlan :=
  if plan.lifecycle = .committed then plan
  else { plan with lifecycle := if plan.lifecycle.inFlight then .outcomeUnknown else .superseded }

-- A plan that the loss of a worker finds.
def onFence (boot : WorkerBootId) (plan : ExecutionPlan) : ExecutionPlan :=
  if plan.authority.snapshot.workerBoot = boot ∧ !plan.lifecycle.ended then
    { plan with lifecycle := if plan.lifecycle.inFlight then .outcomeUnknown else .fenced }
  else plan

-- A plan that the retirement of a target finds. Here work that may be running is fenced, too.
def onRetire (target : NearMemoryTargetId) (plan : ExecutionPlan) : ExecutionPlan :=
  if plan.target = target ∧ !plan.lifecycle.ended then { plan with lifecycle := .fenced } else plan

end ExecutionPlan

namespace RuntimeState

-- The next epoch, in which no dynamic authority is valid. The epoch is a 64-bit number, so the
-- last one is followed by the null epoch.
def nextEpoch (st : RuntimeState) : RuntimeState :=
  rebuildActivePlans { st with
    epoch         := { value := st.epoch.value + 1 }
    targetRuntime := st.targetRuntime.map fun _ rt => rt.invalidate
    capabilities  := st.capabilities.map fun _ cs => { cs with dynamicCurrent := false }
    dataEvidence  := st.dataEvidence.map fun _ ev => { ev with dynamicCurrent := false }
    plans         := st.plans.map fun _ plan => plan.onEpoch }

-- Withdraws the authority of a worker boot.
def invalidateBoot (boot : WorkerBootId) (st : RuntimeState) : RuntimeState :=
  rebuildActivePlans { st with
    targetRuntime := st.targetRuntime.map fun _ rt =>
      if rt.ownerBoot = boot then rt.invalidate else rt
    capabilities  := st.capabilities.map fun _ cs =>
      if cs.publisher = boot then { cs with dynamicCurrent := false } else cs
    dataEvidence  := st.dataEvidence.map fun _ ev =>
      if ev.publisher = boot then { ev with dynamicCurrent := false } else ev
    plans         := st.plans.map fun _ plan => plan.onFence boot }

end RuntimeState

namespace Coordinator

def advanceEpoch : Action Unit := fun st =>
  (.ok (), st.nextEpoch)

def beginDrain (target : NearMemoryTargetId) : Action Unit := fun st =>
  match st.targetRuntime[target]? with
  | none => (makeError "E_TARGET_UNKNOWN" "target runtime not found", st)
  | some trt =>
    if trt.lifecycle = TargetLifecycle.retired ∨ trt.lifecycle = TargetLifecycle.failed then
      (makeError "E_TARGET_STATE" "target is terminal", st)
    else
      (.ok (), { st with targetRuntime := st.targetRuntime.insert target trt.drain })

-- Any plan that has not ended can be cancelled, and gives back a reservation even if it has none.
def cancelPlan (planId : ExecutionPlanId) : Action Unit := fun st =>
  match st.plans[planId]? with
  | none => (makeError "E_PLAN_NOT_FOUND" "plan not found", st)
  | some plan =>
    if plan.lifecycle.ended then (makeError "E_PLAN_STATE" "plan is terminal; cannot cancel", st)
    else
      let st := (st.releaseReservation plan).setPlan planId { plan with lifecycle := .cancelled }
      (.ok (), { st with activePlans := st.activePlans.erase plan.operation })

def fenceWorker (boot : WorkerBootId) : Action Unit := fun st =>
  (.ok (), st.invalidateBoot boot)

def onWorkerDisconnected (boot : WorkerBootId) : Action Unit := fun st =>
  let workers := st.workers.map fun _ ws =>
    if ws.boot = boot then { ws with connected := false } else ws
  (.ok (), { st with workers }.invalidateBoot boot)

def retireTarget (target : NearMemoryTargetId) : Action Unit := fun st =>
  match st.targetRuntime[target]? with
  | none => (makeError "E_TARGET_UNKNOWN" "target runtime not found", st)
  | some trt =>
    (.ok (), RuntimeState.rebuildActivePlans { st with
      targetRuntime := st.targetRuntime.insert target trt.retire
      plans         := st.plans.map fun _ plan => plan.onRetire target })

end Coordinator
end NMC
