import Mathlib
import NearMemoryCompute.Library.Table

open Std

namespace NMC

-- The contents of a `std::string`, a blob or a file. Strings that arrive from outside need not be
-- valid text.
abbrev Bytes := List UInt8

def ascii (s : String) : Bytes :=
  s.toList.map fun c => c.toNat.toUInt8

-- The kinds of identities and generations, so that values of different kinds can not be confused.
inductive Tag
  | nearMemoryTarget
  | memoryDomain
  | dataset
  | dataRegion
  | operation
  | kernelOrProgram
  | program
  | capability
  | executionPlan
  | dispatch
  | attempt
  | result
  | policy
  | evidence
  | worker
  | workerBoot
  | coordinator
  | coordinatorEpoch
  | failureDomain

-- Zero is the null identity.
@[ext]
structure Id (t : Tag) where
  value : UInt64 := 0
deriving DecidableEq, Inhabited

@[ext]
structure Generation (t : Tag) where
  value : UInt64 := 0
deriving DecidableEq, Inhabited

namespace Id

variable {t : Tag}

def isNull (i : Id t) : Bool :=
  i.value == 0

instance : Ord (Id t) where
  compare := compareOn value

instance : TransOrd (Id t) :=
  inferInstanceAs (TransCmp (compareOn value))

instance : LawfulEqOrd (Id t) where
  eq_of_compare {a b} h := by
    have h : compare a.value b.value = .eq := h
    exact Id.ext (compare_eq_iff_eq.mp h)

end Id

def Generation.isNull {t : Tag} (g : Generation t) : Bool :=
  g.value == 0

abbrev NearMemoryTargetId         := Id .nearMemoryTarget
abbrev NearMemoryTargetGeneration := Generation .nearMemoryTarget
abbrev MemoryDomainId             := Id .memoryDomain
abbrev MemoryDomainGeneration     := Generation .memoryDomain
abbrev DatasetId                  := Id .dataset
abbrev DatasetGeneration          := Generation .dataset
abbrev DataRegionId               := Id .dataRegion
abbrev DataRegionGeneration       := Generation .dataRegion
abbrev OperationId                := Id .operation
abbrev OperationGeneration        := Generation .operation
abbrev KernelOrProgramId          := Id .kernelOrProgram
abbrev ProgramGeneration          := Generation .program
abbrev CapabilityId               := Id .capability
abbrev CapabilityGeneration       := Generation .capability
abbrev ExecutionPlanId            := Id .executionPlan
abbrev ExecutionPlanGeneration    := Generation .executionPlan
abbrev DispatchId                 := Id .dispatch
abbrev AttemptId                  := Id .attempt
abbrev ResultId                   := Id .result
abbrev ResultGeneration           := Generation .result
abbrev PolicyId                   := Id .policy
abbrev PolicyGeneration           := Generation .policy
abbrev EvidenceId                 := Id .evidence
abbrev EvidenceGeneration         := Generation .evidence
abbrev WorkerId                   := Id .worker
abbrev WorkerBootId               := Id .workerBoot
abbrev CoordinatorId              := Id .coordinator
abbrev CoordinatorEpoch           := Generation .coordinatorEpoch
abbrev FailureDomainId            := Id .failureDomain

-- A `double`, by its bits.
structure F64 where
  bits : UInt64 := 0
deriving DecidableEq, Inhabited

namespace F64

def magnitude (x : F64) : UInt64 :=
  x.bits &&& 0x7FFFFFFFFFFFFFFF

def isNaN (x : F64) : Bool :=
  x.magnitude > 0x7FF0000000000000

-- Orders all values that are numbers, and identifies the two zeros.
def key (x : F64) : Int :=
  if x.bits ≥ 0x8000000000000000 then -x.magnitude.toNat else x.magnitude.toNat

-- The comparisons of IEEE 754: a value that is not a number is unordered with everything, itself
-- included.
def lt (x y : F64) : Bool :=
  !x.isNaN && !y.isNaN && x.key < y.key

def ne (x y : F64) : Bool :=
  x.isNaN || y.isNaN || x.key != y.key

def ge (x y : F64) : Bool :=
  !x.isNaN && !y.isNaN && y.key ≤ x.key

end F64

-- The enumerators of an `enum class` in the order of their codes, with the names that `to_string`
-- gives them, and the name that it gives to all other values.
class CppEnum (α : Type) where
  members : List (α × String)
  invalid : String

def CppEnum.count (α : Type) [CppEnum α] : ℕ :=
  (members : List (α × String)).length

-- A value of an `enum class` whose underlying type is `int`. Casting from a number can yield values
-- that are not enumerators. Those are represented by their bits, so negative codes are large.
inductive Raw (α : Type) [CppEnum α]
  | member (a : α)
  | other (code : UInt32) (h : CppEnum.count α ≤ code.toNat)
deriving DecidableEq

namespace CppEnum

variable {α : Type} [CppEnum α] [DecidableEq α]

def toString (a : α) : String :=
  (members.lookup a).getD (invalid α)

-- Both `parse_from_table` and `parse_range` try the enumerators in the order of their codes.
def parseEnum (name : Bytes) : Option α :=
  (members.find? fun m => ascii m.snd = name).map Prod.fst

end CppEnum

namespace Raw

variable {α : Type} [CppEnum α]

instance : Coe α (Raw α) where
  coe := member

instance [Inhabited α] : Inhabited (Raw α) where
  default := member default

def toString [DecidableEq α] : Raw α → String
  | member a => CppEnum.toString a
  | other .. => CppEnum.invalid α

end Raw
end NMC
