import NearMemoryCompute.Execution.Plan
import NearMemoryCompute.Objects.Checksum

namespace NMC

def kMaxSamplePayload : UInt64 :=
  16 * 1024

-- A bounded payload that is derived from the identity of the operation.
def buildSamplePayload (op : OperationSpec) : Bytes :=
  go (min op.inputBytes kMaxSamplePayload).toNat (op.id.value ^^^ 0x9E3779B97F4A7C15)
where
  go : ℕ → UInt64 → Bytes
    | 0, _ => []
    | n + 1, state =>
      let state := state * 6364136223846793005 + 1442695040888963407
      ((state >>> 33) &&& 0xFF).toUInt8 :: go n state

-- Gives back what a plan has reserved. Neither counter is taken below zero, and the workspace is
-- left alone if less is recorded than the plan gives back.
def ReservationState.release (rs : ReservationState) (plan : ExecutionPlan) : ReservationState where
  reservedSlots     := if rs.reservedSlots > 0 then rs.reservedSlots - 1 else rs.reservedSlots
  reservedWorkspace :=
    if rs.reservedWorkspace ≥ plan.reservedWorkspace then
      rs.reservedWorkspace - plan.reservedWorkspace
    else rs.reservedWorkspace

def RuntimeState.releaseReservation (st : RuntimeState) (plan : ExecutionPlan) : RuntimeState :=
  match st.reservations[plan.target]? with
  | none    => st
  | some rs => { st with reservations := st.reservations.insert plan.target (rs.release plan) }

-- Replaces the plan that is stored under an identity.
def RuntimeState.setPlan (st : RuntimeState) (id : ExecutionPlanId) (plan : ExecutionPlan) :
    RuntimeState :=
  { st with plans := st.plans.insert id plan }

namespace Coordinator

def reserve (planId : ExecutionPlanId) : Action Unit := fun st =>
  match st.plans[planId]? with
  | none => (makeError "E_PLAN_NOT_FOUND" "plan not found", st)
  | some plan =>
    if plan.lifecycle ≠ .planned then
      (makeError "E_PLAN_STATE" "plan not in PLANNED state for reservation", st)
    else
      match st.targetRuntime[plan.target]? with
      | none => (makeError "E_TARGET_UNKNOWN" "target runtime missing", st)
      | some trt =>
        let (tdef, targets) := Table.subscript st.targets plan.target
        let (rs, reservations) := Table.subscript st.reservations plan.target
        let st := { st with targets, reservations }
        let opWs := (st.operations[plan.operation]?).elim 0 (·.workspaceBytes)
        if rs.reservedSlots ≥ tdef.concurrencyCapacity.toUInt64 then
          (makeError "E_CONCURRENCY" "target concurrency capacity exhausted", st)
        else if rs.reservedWorkspace > tdef.workspaceBytes then
          (makeError "E_WORKSPACE" "target workspace exhausted", st)
        else if trt.lifecycle = TargetLifecycle.draining ∨
                trt.lifecycle = TargetLifecycle.degraded ∨
                trt.lifecycle = TargetLifecycle.revalidationRequired then
          (makeError "E_DRAIN" "target not accepting new admission", st)
        else if rs.reservedWorkspace + opWs > tdef.workspaceBytes then
          (makeError "E_WORKSPACE" "target workspace budget exceeded", st)
        else
          let rs := {
            reservedSlots     := rs.reservedSlots + 1
            reservedWorkspace := rs.reservedWorkspace + opWs
          }
          let plan := { plan with
            reservedSlots     := 1
            reservedWorkspace := opWs
            lifecycle         := .reserved }
          (.ok (),
            { st with
              reservations := st.reservations.insert plan.target rs
              plans        := st.plans.insert planId plan })

structure DispatchOutput where
  ready   : Bool        := false
  message : DispatchMsg := {}
  worker  : WorkerId    := {}

def dispatchMsg (st : RuntimeState) (plan : ExecutionPlan) (op : OperationSpec)
    (boot : WorkerBootId) (dispatchId : DispatchId) (attemptId : AttemptId) : DispatchMsg where
  plan                := plan.id
  planGen             := plan.generation
  dispatch            := dispatchId
  attempt             := attemptId
  target              := plan.target
  targetGen           := plan.targetGeneration
  workerBoot          := boot
  epoch               := st.epoch
  datasetGen          := plan.datasetGeneration
  regionGen           := plan.regionGeneration
  operationGen        := op.generation
  hasProgram          := op.program.isSome
  programGen          := if op.program.isSome then op.programGeneration.getD { value := 1 } else {}
  opClass             := op.opClass
  dataType            := op.shape.dataType
  retryClass          := op.retryClass
  idempotent          :=
    op.retryClass = RetryClass.idempotent ∨ op.retryClass = RetryClass.replaySafe
  requireVerification :=
    op.integrity = IntegrityRequirement.checked ∨ op.integrity = IntegrityRequirement.strict
  payload             := buildSamplePayload op

def prepareDispatch (planId : ExecutionPlanId) (dispatchId : DispatchId) (attemptId : AttemptId) :
    Action DispatchOutput := fun st =>
  match st.plans[planId]? with
  | none => (makeError "E_PLAN_NOT_FOUND" "plan not found", st)
  | some plan =>
    if plan.lifecycle ≠ .reserved then
      (makeError "E_PLAN_STATE" "plan must be RESERVED before dispatch", st)
    else
      let stale := stalenessLocked st plan
      if stale ≠ [] then
        (makeError "E_STALE_PLAN" ("plan stale before dispatch: " ++ dimensions stale),
          st.setPlan planId { plan with lifecycle := .superseded })
      else
        match st.operations[plan.operation]? with
        | none => (makeError "E_PLAN_OP" "operation missing at dispatch", st)
        | some op =>
          match st.targetRuntime[plan.target]? with
          | none => (makeError "E_TARGET_UNKNOWN" "target runtime missing", st)
          | some trt =>
            let boot := trt.ownerBoot
            match st.workers.toList.find? (·.snd.boot = boot) with
            | none => (makeError "E_WORKER_UNKNOWN" "no worker session bound to target boot", st)
            | some (worker, _) =>
              (.ok {
                  ready   := true
                  message := dispatchMsg st plan op boot dispatchId attemptId
                  worker  := worker },
                st.setPlan planId { plan with
                  dispatchId := some dispatchId
                  attemptId  := some attemptId })

def confirmDispatched (planId : ExecutionPlanId) (dispatchId : DispatchId) :
    Action Unit := fun st =>
  match st.plans[planId]? with
  | none => (makeError "E_PLAN_NOT_FOUND" "plan not found", st)
  | some plan =>
    if plan.dispatchId ≠ some dispatchId then
      (makeError "E_DISPATCH_MISMATCH" "dispatch id mismatch", st)
    else if plan.lifecycle ≠ .reserved then
      (makeError "E_PLAN_STATE" "plan not in RESERVED state", st)
    else
      (.ok (), st.setPlan planId { plan with lifecycle := .dispatched })

def completionAuthority (msg : ResultMsg) : CompletionAuthority where
  plan                := msg.plan
  planGeneration      := msg.planGen
  dispatch            := msg.dispatch
  attempt             := msg.attempt
  target              := msg.target
  targetGeneration    := msg.targetGen
  workerBoot          := msg.workerBoot
  epoch               := msg.epoch
  datasetGeneration   := msg.datasetGen
  regionGeneration    := msg.regionGen
  operationGeneration := msg.operationGen
  resultGeneration    := msg.resultGen

def executionResult (id : ResultId) (msg : ResultMsg) : ExecutionResult where
  id                  := id
  generation          := msg.resultGen
  plan                := msg.plan
  planGeneration      := msg.planGen
  dispatch            := msg.dispatch
  attempt             := msg.attempt
  target              := msg.target
  targetGeneration    := msg.targetGen
  workerBoot          := msg.workerBoot
  epoch               := msg.epoch
  datasetGeneration   := msg.datasetGen
  regionGeneration    := msg.regionGen
  operationGeneration := msg.operationGen
  outputBytes         := .ofNat msg.output.length
  note                := msg.note

-- The checks that a completion has to pass before it can change anything.
def completionError (st : RuntimeState) (plan : ExecutionPlan) (msg : ResultMsg) : Option Error :=
  if plan.lifecycle = .committed then
    some ⟨"E_RESULT_DUP", "plan already committed (duplicate completion)"⟩
  else if plan.lifecycle = .cancelled ∨ plan.lifecycle = .fenced ∨
          plan.lifecycle = .superseded then
    some ⟨"E_RESULT_STALE", "completion after cancellation/supersession"⟩
  else if !plan.lifecycle.inFlight then
    some ⟨"E_RESULT_STATE", "completion in unexpected plan state"⟩
  else if msg.epoch ≠ st.epoch then
    some ⟨"E_RESULT_STALE", "completion carries a stale coordinator epoch"⟩
  else if ∃ tdef ∈ st.targets[msg.target]?, tdef.generation ≠ msg.targetGen then
    some ⟨"E_RESULT_STALE", "completion carries a stale target generation"⟩
  else if ∃ trt ∈ st.targetRuntime[msg.target]?, trt.ownerBoot ≠ msg.workerBoot then
    some ⟨"E_RESULT_STALE", "completion carries a stale worker boot"⟩
  else
    let stale := validateCompletionAgainstPlan (completionAuthority msg) plan.authority
    if stale ≠ [] then
      some ⟨"E_RESULT_STALE", "stale completion authority: " ++ dimensions stale⟩
    else if plan.dispatchId ≠ some msg.dispatch then
      some ⟨"E_DISPATCH_MISMATCH", "dispatch id mismatch"⟩
    else if plan.attemptId ≠ some msg.attempt then
      some ⟨"E_ATTEMPT_MISMATCH", "attempt id mismatch"⟩
    else none

def intact (msg : ResultMsg) : Bool :=
  toHex (contentDigest msg.output) = msg.outputDigest

-- Ends a plan with a result. Other plans of the same operation lose their place in the table of
-- active plans too.
def complete (st : RuntimeState) (plan : ExecutionPlan) (lifecycle : ExecutionLifecycle)
    (res : ExecutionResult) : RuntimeState :=
  { st with
    plans       := st.plans.insert res.plan { plan with lifecycle }
    activePlans := st.activePlans.erase plan.operation
    results     := st.results.insert res.id res }

-- The identity that `ResultId::make` returns is passed in.
def applyResult (id : ResultId) (msg : ResultMsg) : Action ExecutionResult := fun st =>
  match st.plans[msg.plan]? with
  | none => (makeError "E_RESULT_PLAN" "result references unknown plan", st)
  | some plan =>
    match completionError st plan msg with
    | some error => (.error error, st)
    | none =>
      let res := executionResult id msg
      if msg.unknown then
        let res := { res with ambiguous := true, verification := .unknown }
        (.ok res, complete st plan .outcomeUnknown res)
      else if !intact msg then
        let res := { res with verification := .mismatch, outputDigest := msg.outputDigest }
        (.ok res, complete st plan .failed res)
      else
        let res := { res with
          verification := .verified
          outputDigest := msg.outputDigest
          committed    := true }
        (.ok res, (complete st plan .committed res).releaseReservation plan)

end Coordinator
end NMC
