import NearMemoryCompute.Execution.Theorems.Durability
import NearMemoryCompute.Execution.Theorems.Node

namespace NMC

open Coordinator Parser Reader

-- The enumerations in a message have no other values than the enumerators.
def RegisterTargetMsg.canonical (m : RegisterTargetMsg) : Bool :=
  m.provider.canonical && m.kind.canonical && m.ops.all Raw.canonical &&
  m.dataTypes.all Raw.canonical && m.layouts.all Raw.canonical

def OperationSpec.canonical (op : OperationSpec) : Bool :=
  op.opClass.canonical && op.shape.dataType.canonical && op.shape.layout.canonical &&
  op.outputDataType.canonical && op.integrity.canonical && op.retryClass.canonical

-- The frames that bring enumerations into the durable state bring none but enumerators.
def Input.canonical : Input → Bool
  | receive _ .registerTarget payload _ =>
    (decodeRegisterTarget payload).all (·.fst.canonical)
  | receive _ .clientRegisterOperation payload _ =>
    (decodeClientRegisterOp payload).all (·.fst.op.canonical)
  | _ => true

-- What the decoders see to by themselves.
structure RegisterTargetMsg.Checked (m : RegisterTargetMsg) : Prop where
  name      : Fits m.name
  ops       : m.ops.length ≤ 64
  dataTypes : m.dataTypes.length ≤ 64
  layouts   : m.layouts.length ≤ 64

namespace Reader

theorem getCodes_ensures {α : Type} [CppEnum α] :
    Ensures (getList (getCode (α := α))) fun l => l.length ≤ 64 :=
  fun _ _ _ h => (getList_ensures (P := fun _ => True) (fun _ _ _ _ => trivial) h).1

theorem decodeRegisterTarget_ensures : Ensures decodeRegisterTarget RegisterTargetMsg.Checked :=
  .skip fun _ => .skip fun _ => .skip fun _ => .skip fun _ => .skip fun _ =>
  .bind readString_ensures fun _ hn =>
  .bind getCodes_ensures fun _ ho =>
  .bind getCodes_ensures fun _ hd =>
  .bind getCodes_ensures fun _ hl =>
  .skip fun _ => .skip fun _ => .skip fun _ => .skip fun _ => .skip fun _ =>
  .pure ⟨hn, ho, hd, hl⟩

theorem decodeOperationFields_ensures :
    Ensures decodeOperationFields fun op => Fits op.description := by
  iterate 23 refine .skip fun _ => ?_
  exact .bind readString_ensures fun _ hd => .pure hd

theorem decodeClientRegisterOp_ensures :
    Ensures decodeClientRegisterOp fun m => Fits m.op.description :=
  .bind decodeOperationFields_ensures fun _ hd => .pure hd

theorem decodeResult_ensures :
    Ensures decodeResult fun m => Fits m.outputDigest ∧ Fits m.note := by
  iterate 13 refine .skip fun _ => ?_
  refine .bind readString_ensures fun _ hd => .skip fun _ => ?_
  exact .bind readString_ensures fun _ hn => .pure ⟨hd, hn⟩

end Reader

theorem RegisterTargetMsg.canonical_iff {m : RegisterTargetMsg} : m.canonical ↔
    m.provider.canonical ∧ m.kind.canonical ∧ (∀ a ∈ m.ops, a.canonical) ∧
    (∀ a ∈ m.dataTypes, a.canonical) ∧ (∀ a ∈ m.layouts, a.canonical) := by
  simp [canonical, and_assoc]

theorem RegisterTargetMsg.storable_definition {m : RegisterTargetMsg} (h : m.canonical)
    (hw : m.Checked) : m.definition.Storable := by
  have ⟨hp, hk, ho, hd, hl⟩ := canonical_iff.mp h
  exact {
    provider           := hp
    kind               := hk
    name               := hw.name
    description        := show Fits [] by decide
    memoryDomains      := show Short (fun _ => True) [] by decide
    supportedOps       := ⟨hw.ops, ho⟩
    supportedDataTypes := ⟨hw.dataTypes, hd⟩
    supportedLayouts   := ⟨hw.layouts, hl⟩
    accessSemantics    := rfl
    authorityOwner     := show Fits (ascii "worker") by decide }

theorem OperationSpec.storable_of_canonical {op : OperationSpec} (h : op.canonical)
    (hd : Fits op.description) : op.Storable := by
  simp only [OperationSpec.canonical, Bool.and_eq_true] at h
  obtain ⟨⟨⟨⟨⟨hc, ht⟩, hl⟩, ho⟩, hi⟩, hr⟩ := h
  exact ⟨hc, ⟨ht, hl⟩, ho, hi, hr, hd⟩

theorem Op.brings_of_launched {op : Op} (h : op.launched) : op.Brings .storable := by
  cases op
  case load => exact fun _ h => (meets_of_load h).2
  all_goals first | contradiction | trivial

theorem Op.brings_of_decodeResult {payload rest : Bytes} {m : ResultMsg} {id : ResultId}
    (h : decodeResult payload = some (m, rest)) : (Op.applyResult id m).Brings .storable := by
  intro st res hr
  have ⟨hf, hn⟩ := decodeResult_ensures h
  have ⟨_, hnote, hdig⟩ := applyResult_ok hr
  refine ⟨?_, hnote ▸ hn⟩
  rcases hdig with hdig | hdig
  · rw [hdig]
    decide
  · rwa [hdig]

namespace Node

variable [Platform] {node node' : Node} {input : Input} {op : Op}

-- A process that receives nothing but enumerators hands nothing else on to the coordinator.
theorem Step.brings (h : Step node input (some op) node') (hc : input.canonical) :
    op.Brings .storable := by
  cases h
  case handle hh =>
    cases hh
    case registerTarget hm =>
      simp only [Input.canonical, hm, Option.all_some] at hc
      have hs := RegisterTargetMsg.storable_definition hc (decodeRegisterTarget_ensures hm)
      exact hs
    case clientRegisterOperation hm =>
      simp only [Input.canonical, hm, Option.all_some] at hc
      exact OperationSpec.storable_of_canonical hc (decodeClientRegisterOp_ensures hm)
    all_goals trivial
  case hello ho => exact ho ▸ trivial
  case move hm =>
    cases hm
    case commit hd _ => exact Op.brings_of_decodeResult hd
    case result hd _ => exact Op.brings_of_decodeResult hd
    all_goals trivial

end Node

-- What comes in by frames can be saved and loaded again, as long as it has no other values of
-- enumerations than the enumerators.
theorem received_state_loads [Platform] (l : Launch) (file : Option Bytes) (run : List Input)
    (he : !(l.coordinator file).epoch.isNull) (hc : ∀ input ∈ run, input.canonical)
    (hs : (Node.machine.after (l.start file) run).coord.Sized)
    (hu : (Node.machine.after (l.start file) run).coord.Unbound) (disk : Disk) (bytes : Bytes)
    (hw : Coordinator.save disk (Node.machine.after (l.start file) run).coord = some (.ok bytes))
    (st₀ : RuntimeState) : (load (.contents bytes) st₀).fst = .ok () := by
  have he : !(Node.machine.after (l.start file) run).coord.epoch.isNull := by
    rwa [Node.epoch_after]
  have ⟨ops, ho, hst⟩ := Node.exists_run l file (P := Op.Brings .storable)
    (fun _ => Op.brings_of_launched) (C := fun _ input => input.canonical)
    (fun _ _ _ _ hi h => h.brings hi) fun _ _ h => hc _ (h.subset (.head _))
  rw [hst] at he hs hu hw
  have hb : (after _ ops).Bounded := ⟨hs, he, meets_after Standard.storable_lawful _ ho⟩
  have hst := hb.storable (keyed_after _ ops)
  rw [load_of_saved hst (selfNamed_after _ ops) hu.persists hw st₀]

open Deployment Writer in
theorem received_state_loads_of_deployment :
    let node := Node.machine.after (({} : Launch).start none) (request 6 ++ service)
    ∃ bytes, Coordinator.save .replaced node.coord = some (.ok bytes) ∧
      (load (.contents bytes) (init { value := 2 })).fst = .ok () := by
  intro node
  have hm : (encodeState node.coord).any (·.length ≤ PersistentStore.kMaxPayload) := by
    decide +kernel
  have ⟨payload, he, hl⟩ := (Option.any_eq_true _ _).mp hm
  have ⟨bytes, hw, _⟩ := save_of_encodeState he (of_decide_eq_true hl)
  have hs : node.coord.Sized := by constructor <;> decide +kernel
  have hu : node.coord.Unbound := RuntimeState.unbound_iff.mpr (by decide +kernel)
  have hc : ∀ input ∈ request 6 ++ service, input.canonical := by decide +kernel
  have hn : !(({} : Launch).coordinator none).epoch.isNull := by decide
  exact ⟨bytes, hw, received_state_loads _ none _ hn hc hs hu .replaced bytes hw _⟩

-- A provider that is no enumerator is written under a name that is not read back.
open Deployment Writer in
theorem invalid_provider_not_loaded :
    let msg := { registration with provider := .other 9 (by decide) }
    let run : List Input := [.receive 1 .registerTarget (encodeRegisterTarget msg) {}, .accept 1]
    let node := Node.machine.after (({} : Launch).start none) run
    node.coord.Sized ∧ node.coord.Unbound ∧
    ∃ bytes, Coordinator.save .replaced node.coord = some (.ok bytes) ∧
      (load (.contents bytes) (init { value := 2 })).fst =
        makeError "E_PERSIST_DECODE" "malformed persistence payload" := by
  intro msg run node
  have hs : node.coord.Sized := by
    constructor <;> decide +kernel
  have hu : ∀ e ∈ node.coord.operations.toList, e.snd.program = none := by
    decide +kernel
  have hm : (encodeState node.coord).any fun payload =>
      payload.length ≤ PersistentStore.kMaxPayload ∧ (decodeState payload).isNone := by
    decide +kernel
  have ⟨payload, he, hm⟩ := (Option.any_eq_true _ _).mp hm
  have ⟨hl, hd⟩ := of_decide_eq_true hm
  have ⟨bytes, hb, hw⟩ := save_of_encodeState he hl
  refine ⟨hs, RuntimeState.unbound_iff.mpr hu, bytes, hb, ?_⟩
  simp only [load, PersistentStore.load_malformed hw (Option.isNone_iff_eq_none.mp hd)]
  rfl

end NMC
