import NearMemoryCompute.Library.Word
import NearMemoryCompute.Execution.Theorems.Codec
import NearMemoryCompute.Execution.Theorems.Provenance

namespace NMC

open PersistentStore (littleEndian)

-- What an operation is, without any machine.
def reduction (op : OperationClass) (p : Bytes) : Bytes :=
  match op with
  | .sum | .checksum => littleEndian 8 (p.map UInt8.toNat).sum
  | .count           => littleEndian 8 p.length
  | .filter          => littleEndian 8 (p.countP (128 ≤ ·))
  | .hash            => littleEndian 8 (contentDigest p).value.toNat
  | .min             => [p.min?.getD 255]
  | .max             => [p.max?.getD 0]
  | _                => []

-- The backend has computed the output.
def BackendResult.Computes (r : BackendResult) (output : Bytes) : Prop :=
  r.ok ∧ r.output = output ∧ r.digest = contentDigest output

-- The worker has registered the operation and reports it as supported.
def Worker.Advertises (w : Worker) (op : OperationClass) : Prop :=
  (op : Raw OperationClass) ∈ w.registration.ops ∧
  ∃ e ∈ w.capability.entries,
    e.key = ascii "operation:" ++ ascii (CppEnum.toString op) ∧
    e.state = CapabilityState.supported

section Reductions

theorem packU64_eq (s : UInt64) : packU64 s = littleEndian 8 s.toNat := by
  refine List.map_congr_left fun i hi => ?_
  have hi : i < 8 := List.mem_range.mp hi
  have shift : ∀ i < 8, (8 * i).toUInt64.toNat % 64 = 8 * i := by
    decide
  apply UInt8.toNat_inj.mp
  rw [UInt64.toNat_toUInt8, UInt64.toNat_shiftRight_and (k := 8) rfl, shift i hi, Nat.pow_mul]
  simp

theorem toNat_byteSum (p : Bytes) : (byteSum p).toNat = (p.map UInt8.toNat).sum % 2 ^ 64 := by
  have h : byteSum p = (p.map UInt8.toUInt64).foldl (· + ·) 0 := (List.foldl_map ..).symm
  rw [h, UInt64.toNat_foldl_add]
  simp [UInt64.exactSum, Function.comp_def]

theorem toNat_byteCount (p : Bytes) : (byteCount p).toNat = p.countP (128 ≤ ·) % 2 ^ 64 := by
  have h : byteCount p = (p.map fun b => if 128 ≤ b then 1 else 0).foldl (· + ·) 0 := by
    rw [List.foldl_map, byteCount]
    congr
    funext cnt b
    split <;> simp
  have hc : (p.map fun b => (if 128 ≤ b then 1 else 0 : UInt64).toNat).sum =
      p.countP (128 ≤ ·) := by
    clear h
    induction p
    case nil => rfl
    case cons b p hi =>
      rw [List.map_cons, List.sum_cons, hi, List.countP_cons, Nat.add_comm]
      by_cases hb : 128 ≤ b <;> simp [hb]
  rw [h, UInt64.toNat_foldl_add, UInt64.exactSum, List.map_map, Function.comp_def, hc]
  simp

theorem byteMin_eq (p : Bytes) : byteMin p = p.min?.getD 255 := by
  have step : (fun m b : UInt8 => if b < m then b else m) = min := by
    funext m b
    simp only [Std.min_eq_if, ← UInt8.not_le, ite_not]
  have top (b : UInt8) : min 255 b = b := by
    have hb : b ≤ 255 := UInt8.le_iff_toNat_le.mpr (Nat.le_of_lt_succ b.toNat_lt)
    rw [Std.min_eq_if]
    split
    case isTrue h  => exact UInt8.le_antisymm h hb
    case isFalse _ => rfl
  rw [byteMin, step, List.foldl_min, top]

theorem byteMax_eq (p : Bytes) : byteMax p = p.max?.getD 0 := by
  have step : (fun m b : UInt8 => if m < b then b else m) = max := by
    funext m b
    apply UInt8.toNat_inj.mp
    simp only [UInt8.toNat_max, UInt8.lt_iff_toNat_lt]
    split <;> omega
  have bot (b : UInt8) : max 0 b = b := by
    apply UInt8.toNat_inj.mp
    rw [UInt8.toNat_max]
    exact Nat.zero_max _
  rw [byteMax, step, List.foldl_max, bot]

end Reductions

section Engines

variable {p : Bytes} {op : OperationClass}

theorem sum_le (p : Bytes) : (p.map UInt8.toNat).sum ≤ 255 * p.length := by
  have h := List.sum_le_card_nsmul (p.map UInt8.toNat) 255 (by
    intro n hn
    obtain ⟨b, _, rfl⟩ := List.mem_map.mp hn
    exact Nat.le_of_lt_succ b.toNat_lt)
  simpa [Nat.mul_comm] using h

theorem syntheticOutput_eq (hn : 255 * p.length < 2 ^ 64)
    (ho : op ∈ [OperationClass.sum, .min, .count, .max, .filter, .checksum, .hash]) :
    syntheticOutput op p = some (reduction op p) := by
  have hs := sum_le p
  have hc : p.countP (128 ≤ ·) ≤ p.length := List.countP_le_length
  have sum : packU64 (byteSum p) = littleEndian 8 (p.map UInt8.toNat).sum := by
    rw [packU64_eq, toNat_byteSum, Nat.mod_eq_of_lt (by omega)]
  have filter : packU64 (byteCount p) = littleEndian 8 (p.countP (128 ≤ ·)) := by
    rw [packU64_eq, toNat_byteCount, Nat.mod_eq_of_lt (by omega)]
  have count : packU64 (.ofNat p.length) = littleEndian 8 p.length := by
    rw [packU64_eq, UInt64.toNat_ofNat_of_lt' (show p.length < 2 ^ 64 by omega)]
  simp only [List.mem_cons, List.not_mem_nil, or_false] at ho
  rcases ho with rfl | rfl | rfl | rfl | rfl | rfl | rfl
  · exact congrArg some sum
  · exact congrArg (fun b => some [b]) (byteMin_eq p)
  · exact congrArg some count
  · exact congrArg (fun b => some [b]) (byteMax_eq p)
  · exact congrArg some filter
  · exact congrArg some sum
  · exact congrArg some (packU64_eq _)

-- The host-local engine is the synthetic one without some of its operations.
theorem hostLocalOutput_eq (op : OperationClass) (p : Bytes) : hostLocalOutput op p =
    if op ∈ [OperationClass.checksum, .hash, .elementwise, .transform] then none
    else syntheticOutput op p := by
  cases op <;> rfl

theorem BackendRequest.computes_iff {req : BackendRequest}
    {outputOf : Raw OperationClass → Bytes → Option Bytes} {done unsupported output : Bytes}
    (h : req.inputBytes.toNat = req.input.length) :
    (req.execute outputOf done unsupported).Computes output ↔
      outputOf req.opClass req.input = some output := by
  rw [execute, if_neg (not_not.mpr h)]
  cases outputOf req.opClass req.input
  case none   => simp [BackendResult.Computes]
  case some o =>
    simp only [BackendResult.Computes, true_and, Option.some.injEq]
    constructor
    · exact And.left
    · exact fun he => ⟨he, congrArg contentDigest he⟩

variable {dm : DispatchMsg}

theorem toNat_inputBytes (hn : 255 * dm.payload.length < 2 ^ 64) :
    (Worker.request dm).inputBytes.toNat = (Worker.request dm).input.length :=
  UInt64.toNat_ofNat_of_lt' (show dm.payload.length < 2 ^ 64 by omega)

theorem syntheticExecute_computes (ho : dm.opClass = op) (hn : 255 * dm.payload.length < 2 ^ 64)
    (hm : op ∈ [OperationClass.sum, .min, .count, .max, .filter, .checksum, .hash]) :
    (syntheticExecute (Worker.request dm)).Computes (reduction op dm.payload) := by
  apply (BackendRequest.computes_iff (toNat_inputBytes hn)).mpr
  show syntheticOutput dm.opClass dm.payload = _
  rw [ho, syntheticOutput_eq hn hm]

theorem hostLocalExecute_computes_iff (ho : dm.opClass = op)
    (hn : 255 * dm.payload.length < 2 ^ 64)
    (hm : op ∈ [OperationClass.sum, .min, .count, .max, .filter, .checksum, .hash]) :
    (hostLocalExecute (Worker.request dm)).Computes (reduction op dm.payload) ↔
      op ≠ .checksum ∧ op ≠ .hash := by
  refine (BackendRequest.computes_iff (toNat_inputBytes hn)).trans ?_
  show hostLocalOutput dm.opClass dm.payload = _ ↔ _
  rw [ho, hostLocalOutput_eq, syntheticOutput_eq hn hm]
  simp only [List.mem_cons, List.not_mem_nil, or_false] at hm
  rcases hm with rfl | rfl | rfl | rfl | rfl | rfl | rfl <;> simp

open Reader Writer in
theorem Worker.onFrame_dispatch {w : Worker} {frame rest : Bytes} (hh : !w.holdResult)
    (hf : decodeDispatch frame = some (dm, rest)) :
    w.onFrame .dispatch frame = some [(.result, encodeResult (resultMsg dm (w.execute dm)))] := by
  have hh : w.holdResult = false := by simpa using hh
  simp [onFrame, hf, hh]

end Engines

open Reader Writer in
-- Both engines compute what the worker advertises, except for two operations that only one has.
theorem engines_agree_iff (w : Worker) {op : OperationClass} (hw : w.Advertises op)
    {dm : DispatchMsg} (ho : dm.opClass = op) (hn : 255 * dm.payload.length < 2 ^ 64) :
    ((syntheticExecute (Worker.request dm)).Computes (reduction op dm.payload) ∧
      (hostLocalExecute (Worker.request dm)).Computes (reduction op dm.payload) ∧
      ∀ synthetic frame rest, decodeDispatch frame = some (dm, rest) →
        ∃ msg, { w with synthetic, holdResult := false }.onFrame .dispatch frame =
          some [(.result, encodeResult msg)] ∧ !msg.unknown) ↔
    op ≠ .checksum ∧ op ≠ .hash := by
  have hm : op ∈ [OperationClass.sum, .min, .count, .max, .filter, .checksum, .hash] := by
    simpa [Worker.registration] using hw.1
  have hs := syntheticExecute_computes ho hn hm
  have hh := hostLocalExecute_computes_iff ho hn hm
  constructor
  case mp => exact fun h => hh.mp h.2.1
  case mpr =>
    intro hne
    refine ⟨hs, hh.mpr hne, fun synthetic frame rest hf => ⟨_, Worker.onFrame_dispatch rfl hf, ?_⟩⟩
    have hok : ({ w with synthetic, holdResult := false }.execute dm).ok := by
      cases synthetic
      case true  => exact hs.1
      case false => exact (hh.mpr hne).1
    simp [Worker.resultMsg, hok]

theorem engines_agree_iff_of_sum :
    let w : Worker := {}
    w.Advertises .sum ∧
    (hostLocalExecute (Worker.request { payload := [200, 100] })).Computes
      (littleEndian 8 300) := by
  intro w
  have hw : w.Advertises .sum := ⟨by decide, _, .head _, by decide, rfl⟩
  have h := (@engines_agree_iff w _ hw { payload := [200, 100] } rfl (by decide)).mpr
    ⟨by decide, by decide⟩
  exact ⟨hw, h.2.1⟩

-- A host-local worker with default arguments, and a run in which a hash is sent to it.
namespace HashDeployment

open Coordinator

def worker : Worker where
  worker := { value := 1 }
  boot   := { value := 1 }
  target := { value := 1 }

def operation : OperationSpec :=
  { Deployment.operation { value := 1 } with
    opClass          := OperationClass.hash
    dataset          := worker.dataset
    region           := worker.region
    regionGeneration := { value := 1 }
    inputBytes       := (4 : UInt64) <<< 30 }

def setup : List Op := [
  .bindWorkerSession worker.worker worker.boot worker.name,
  .applyHeartbeat worker.heartbeat,
  .applyDataEvidence worker.evidence,
  .applyCapability { value := 1 } (fun _ => { value := 1 }) worker.capability,
  .applyRegisterTarget worker.registration,
  .createOperation operation]

def run : List Op :=
  Deployment.dispatch ++ setup

end HashDeployment

open Coordinator Deployment HashDeployment in
-- The worker has advertised the hash, but it can not run it, and so the outcome stays unknown.
theorem hash_outcome_unknown :
    worker.Advertises .hash ∧
    ∃ dm, lastDispatch { value := 10 } (history { value := 1 } run) = some dm ∧
      dm.opClass = OperationClass.hash ∧ (hostLocalExecute (Worker.request dm)).ok = false ∧
      (after { value := 1 } (.applyResult { value := 40 }
        (Worker.resultMsg dm (worker.execute dm)) :: run)).plans[
          ({ value := 10 } : ExecutionPlanId)]?.map (·.lifecycle) = some .outcomeUnknown := by
  have h : (lastDispatch { value := 10 } (history { value := 1 } run)).map (fun dm =>
      (dm.opClass, (hostLocalExecute (Worker.request dm)).ok,
        (after { value := 1 } (.applyResult { value := 40 }
          (Worker.resultMsg dm (worker.execute dm)) :: run)).plans[
            ({ value := 10 } : ExecutionPlanId)]?.map (·.lifecycle))) =
      some (.member .hash, false, some .outcomeUnknown) := by
    decide +kernel
  have ⟨dm, hd, h⟩ := Option.map_eq_some_iff.mp h
  have ⟨ho, h⟩ := Prod.mk.inj h
  have ⟨hk, hl⟩ := Prod.mk.inj h
  have hw : worker.Advertises .hash :=
    ⟨by decide, { key := ascii "operation:HASH", state := CapabilityState.supported },
      by simp [Worker.capability], by decide, rfl⟩
  exact ⟨hw, dm, hd, ho, hk, hl⟩

end NMC
