import NearMemoryCompute.Objects.Planning

namespace NMC

structure Error where
  code    : String
  message : String
deriving DecidableEq

abbrev Result := Except Error

theorem exists_ok_of_map {α β : Type} {res : Result α} {f : α → β} {b : β}
    (h : res.toOption.map f = some b) : ∃ a, res = .ok a ∧ f a = b := by
  cases res
  case error => contradiction
  case ok a  => exact ⟨a, rfl, Option.some.inj h⟩

def makeError {α : Type} (code message : String) : Result α :=
  .error { code, message }

structure ReservationState where
  reservedSlots     : UInt64 := 0
  reservedWorkspace : UInt64 := 0
deriving DecidableEq

instance : Inhabited ReservationState where
  default := {}

structure WorkerSession where
  worker    : WorkerId     := {}
  boot      : WorkerBootId := {}
  name      : Bytes        := []
  connected : Bool         := false

-- Durable and dynamic state. The table of active plans has at most one plan for each operation.
structure RuntimeState where
  coordinatorId : CoordinatorId                                := {}
  epoch         : CoordinatorEpoch                             := {}
  memoryDomains : Table MemoryDomainId MemoryDomainDescriptor  := ∅
  datasets      : Table DatasetId DatasetDescriptor            := ∅
  regions       : Table DataRegionId DataRegionDescriptor      := ∅
  dataEvidence  : Table DataRegionId DataEvidence              := ∅
  targets       : Table NearMemoryTargetId TargetDefinition    := ∅
  targetRuntime : Table NearMemoryTargetId TargetRuntime       := ∅
  capabilities  : Table NearMemoryTargetId CapabilitySet       := ∅
  operations    : Table OperationId OperationSpec              := ∅
  programs      : Table KernelOrProgramId Program              := ∅
  policies      : Table PolicyId Policy                        := ∅
  plans         : Table ExecutionPlanId ExecutionPlan          := ∅
  activePlans   : Table OperationId ExecutionPlanId            := ∅
  results       : Table ResultId ExecutionResult               := ∅
  reservations  : Table NearMemoryTargetId ReservationState    := ∅
  workers       : Table WorkerId WorkerSession                 := ∅

-- What a public operation answers, and the state that it leaves behind. An operation that fails
-- can still have changed the state.
abbrev Action (α : Type) := RuntimeState → Result α × RuntimeState

namespace Coordinator

def defaultPolicy : Policy where
  id         := { value := 1 }
  generation := { value := 1 }
  name       := ascii "default"
  outcome    := PolicyOutcome.unconstrained

-- The state of `Coordinator()`, where `id` is the identity that `CoordinatorId::make` returns.
def init (id : CoordinatorId) : RuntimeState where
  coordinatorId := id
  epoch         := { value := 1 }
  policies      := (∅ : Table PolicyId Policy).insert defaultPolicy.id defaultPolicy

end Coordinator

namespace ExecutionLifecycle

-- The plan has been sent to a worker, and its completion has not arrived.
def inFlight : ExecutionLifecycle → Bool
  | dispatched | running | verifying => true
  | _                                => false

-- The lifecycles that release an operation for planning.
def ended : ExecutionLifecycle → Bool
  | committed | failed | cancelled | superseded | fenced => true
  | _                                                    => false

end ExecutionLifecycle

-- For each operation the plan that has not ended.
def activePlansOf (plans : Table ExecutionPlanId ExecutionPlan) :
    Table OperationId ExecutionPlanId :=
  Table.collect
    (fun plan => if plan.lifecycle.ended then none else some (plan.operation, plan.id)) plans

namespace RuntimeState

def rebuildActivePlans (st : RuntimeState) : RuntimeState :=
  { st with activePlans := activePlansOf st.plans }

-- What is reserved on a target. A target without an entry has nothing reserved.
def reservation (st : RuntimeState) (t : NearMemoryTargetId) : ReservationState :=
  st.reservations[t]?.getD {}

end RuntimeState
end NMC
