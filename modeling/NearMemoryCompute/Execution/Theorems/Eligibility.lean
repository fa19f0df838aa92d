import NearMemoryCompute.Execution.Theorems.Durability
import NearMemoryCompute.Execution.Theorems.Planning

namespace NMC

open Coordinator Parser

-- A demand on the evidence that workers publish. It is never stored, so a run starts without any.
structure Testimony where
  confidence : F64 → Prop                                 := fun _ => True
  capability : Bytes → Raw CapabilityState → Prop         := fun _ _ => True
  data       : DataRegionId → DataRegionGeneration → Prop := fun _ _ => True
  unreported : confidence {}                              := by trivial

structure Registry.Attests (reg : Registry) (T : Testimony) : Prop where
  targetRuntime : reg.targetRuntime.All fun _ trt => T.confidence trt.performance.confidence
  capabilities  : reg.capabilities.All fun _ caps =>
    caps.entries.All fun k e => T.capability k e.state
  dataEvidence  : reg.dataEvidence.All fun r ev => T.data r ev.regionGeneration

-- The evidence that an operation is given meets the demand.
def Op.Attests (T : Testimony) : Op → Prop
  | applyHeartbeat msg      => T.confidence msg.confidence
  | applyCapability _ _ msg => ∀ e ∈ msg.entries, T.capability e.key e.state
  | applyDataEvidence msg   => T.data msg.region msg.regionGeneration
  | _                       => True

theorem decodeState_evidence :
    Ensures decodeState fun st => st.capabilities = ∅ ∧ st.dataEvidence = ∅ := by
  iterate 12 refine .skip fun _ => ?_
  exact .pure ⟨rfl, rfl⟩

namespace Registry.Attests

variable {T : Testimony} {reg reg' : Registry}

theorem of_load {file : File} {loaded : RuntimeState}
    (h : PersistentStore.load file decodeState = .ok loaded) : loaded.registry.Attests T := by
  have ⟨_, _, hd⟩ := PersistentStore.load_ok h
  have ⟨hc, he⟩ := decodeState_evidence hd
  have ht := (decoded_of_load h).targetRuntime
  constructor <;> simp only [RuntimeState.registry, ht, hc, he]
  all_goals exact .empty

theorem withdraw (h : reg.Attests T) (boot : WorkerBootId) : (reg.withdraw boot).Attests T where
  targetRuntime := h.targetRuntime.map fun _ _ ht => by split <;> exact ht
  capabilities  := h.capabilities.map fun _ _ hc => by split <;> exact hc
  dataEvidence  := h.dataEvidence.map fun _ _ he => by split <;> exact he

theorem withdrawAll (h : reg.Attests T) : reg.withdrawAll.Attests T where
  targetRuntime := h.targetRuntime.map fun _ _ ht => ht
  capabilities  := h.capabilities.map fun _ _ hc => hc
  dataEvidence  := h.dataEvidence.map fun _ _ he => he

theorem setRuntime (h : reg.Attests T) (t : NearMemoryTargetId) {trt : TargetRuntime}
    (ht : T.confidence trt.performance.confidence) : (reg.setRuntime t trt).Attests T :=
  { h with targetRuntime := h.targetRuntime.insert ht }

theorem step {op : Op} {out : Outcome} (hs : Registry.Step reg op out reg') (ha : op.Attests T)
    (h : reg.Attests T) : reg'.Attests T := by
  cases hs
  case target => exact { h with targetRuntime := h.targetRuntime.insert T.unreported }
  case capability =>
    refine { h with capabilities := h.capabilities.insert (Table.All.empty.foldl_insert ?_) }
    intro e he
    exact ha e.fst (List.fst_mem_of_mem_zipIdx he)
  case evidence        => exact { h with dataEvidence := h.dataEvidence.insert ha }
  case heartbeat       => exact h.setRuntime _ ha
  case drain ht        => exact h.setRuntime _ (h.targetRuntime ht :)
  case retire ht       => exact h.setRuntime _ (h.targetRuntime ht :)
  case fence boot      => exact h.withdraw boot
  case disconnect boot => exact h.withdraw boot
  case advance         => exact h.withdrawAll
  case load hl         => exact (of_load hl).withdrawAll
  all_goals exact { h with }

end Registry.Attests

theorem attests_after [Platform] {T : Testimony} (cid : CoordinatorId) {run : List Op}
    (ha : ∀ op ∈ run, op.Attests T) : (after cid run).registry.Attests T := by
  induction run
  case nil => exact ⟨.empty, .empty, .empty⟩
  case cons op run hi =>
    exact (hi fun op ho => ha op (.tail _ ho)).step (step_registry op _) (ha op (.head _))

-- The standard that every record meets.
def Standard.any : Standard where
  memoryDomain _ _ := True
  dataset _ _      := True
  region _ _       := True
  program _ _      := True
  policy _ _       := True
  operation _ _    := True
  target _ _       := True
  plan _ _         := True
  result _ _       := True

section Confidence

-- All confidences that are required and all that are reported are numbers.
def Standard.numeric : Standard :=
  { any with policy := fun _ pl => !pl.requiredConfidence.isNaN }

def Testimony.numeric : Testimony where
  confidence c := !c.isNaN

theorem Standard.numeric_lawful : numeric.Lawful where
  policy       := show !defaultPolicy.requiredConfidence.isNaN by decide
  create _ _ _ := trivial
  retain _ _   := trivial

theorem F64.ge_of_not_lt {x y : F64} (hx : !x.isNaN) (hy : !y.isNaN) (h : x.lt y = false) :
    x.ge y := by
  simp_all [F64.lt, F64.ge]

variable [Platform] {cid : CoordinatorId} {run : List Op}

-- If all confidences are numbers, then a target is only selected with sufficient confidence, and
-- the candidates can be sorted.
theorem confidence_fails_closed (hc : ∀ op ∈ run, op.Brings .numeric ∧ op.Attests .numeric) :
    (∀ id o out, (plan id o (after cid run)).fst = .ok out → out.created →
      ∃ op policy trt, (after cid run).operations[o]? = some op ∧
        (after cid run).policies[op.policy]? = some policy ∧
        (after cid run).targetRuntime[out.plan.target]? = some trt ∧
        trt.performance.confidence.ge policy.requiredConfidence) ∧
    ∀ op policy data, StrictWeakOn (fun a b : RankedCandidate => a.before b)
      { c | c ∈ offers (after cid run) op policy data } := by
  have hm := meets_after Standard.numeric_lawful cid fun op ho => (hc op ho).1
  have ha := attests_after cid fun op ho => (hc op ho).2
  constructor
  case left =>
    intro id o out h hcr
    have ⟨sel, he, hp, _⟩ := plan_created h hcr
    have hs := (sel.hardFilter_eq_nil he).1
    refine ⟨sel.op, sel.policy, sel.trt, sel.operation_eq, sel.policy_eq, ?_, ?_⟩
    · rw [hp]
      exact sel.targetRuntime_eq
    · exact F64.ge_of_not_lt (ha.targetRuntime sel.targetRuntime_eq) (hm.policies sel.policy_eq)
        hs.confidence
  case right =>
    intro op policy data
    exact .of_key RankedCandidate.rank <|
      offers_before_iff (RuntimeState.performance_numeric ha.targetRuntime)

end Confidence

section

open Deployment

-- A confidence that is not a number passes every threshold.
def confused : HeartbeatMsg :=
  { heartbeat with confidence := { bits := 0x7FF8000000000000 } }

theorem confidence_fails_open :
    let st := after { value := 1 } (.applyHeartbeat confused :: setup)
    (plan { value := 10 } { value := 1 } st).fst.toOption.any (·.created) ∧
    st.targetRuntime[({ value := 1 } : NearMemoryTargetId)]?.any fun trt =>
      st.policies[({ value := 1 } : PolicyId)]?.any fun policy =>
        !trt.performance.confidence.ge policy.requiredConfidence := by
  decide +kernel

-- A policy that requires a confidence of one half.
def wary : Policy where
  id                 := { value := 2 }
  generation         := { value := 1 }
  requiredConfidence := { bits := 0x3FE0000000000000 }

-- The confidence in the first target is one half, and in the second one it is three quarters.
def confident : List Op :=
  .applyHeartbeat { target := { value := 2 }, confidence := { bits := 0x3FE8000000000000 } } ::
  .applyHeartbeat { heartbeat with confidence := { bits := 0x3FE0000000000000 } } ::
  .createOperation { operation { value := 4 } with policy := { value := 2 } } ::
  .registerPolicy wary :: (second ++ setup)

theorem confidence_fails_closed_of_deployment :
    let st := after { value := 1 } confident
    ∃ out op policy trt, (plan { value := 10 } { value := 4 } st).fst = .ok out ∧ out.created ∧
      st.operations[({ value := 4 } : OperationId)]? = some op ∧
      st.policies[op.policy]? = some policy ∧ policy.requiredConfidence = wary.requiredConfidence ∧
      st.targetRuntime[out.plan.target]? = some trt ∧
      trt.performance.confidence.ge policy.requiredConfidence ∧
      (offers st op policy st.dataEvidence[op.region]?).map (·.target) =
        [{ value := 1 }, { value := 2 }] ∧
      StrictWeakOn (fun a b : RankedCandidate => a.before b)
        { c | c ∈ offers st op policy st.dataEvidence[op.region]? } := by
  intro st
  have hc : ∀ op ∈ confident, op.Brings .numeric ∧ op.Attests .numeric := by
    simp only [confident, second, setup, List.cons_append, List.nil_append, List.forall_mem_cons,
      List.not_mem_nil, false_imp_iff, implies_true, and_true, true_and, Op.Brings, Op.Attests,
      Standard.numeric, Standard.any, Testimony.numeric]
    decide
  obtain ⟨out, ho, hcr⟩ := exists_ok_of_map (f := PlanOutput.created)
    (show (plan { value := 10 } { value := 4 } st).fst.toOption.map _ = some true by decide +kernel)
  obtain ⟨op, policy, trt, hop, hpol, hrt, hge⟩ := (confidence_fails_closed hc).1 _ _ out ho hcr
  have hd : ∀ op ∈ st.operations[({ value := 4 } : OperationId)]?,
      ∀ policy ∈ st.policies[op.policy]?, policy.requiredConfidence = wary.requiredConfidence ∧
        (offers st op policy st.dataEvidence[op.region]?).map (·.target) =
          [{ value := 1 }, { value := 2 }] := by
    decide +kernel
  obtain ⟨hr, hl⟩ := hd op hop policy hpol
  exact ⟨out, op, policy, trt, ho, hcr, hop, hpol, hr, hrt, hge, hl,
    (confidence_fails_closed hc).2 op policy _⟩

end

section Limits

-- No limit that is declared binds: no input is larger than the given size, and no limit is lower.
-- Operations carry the given generation of their region.
def Standard.withinLimits (size : UInt64) (generation : DataRegionId → DataRegionGeneration) :
    Standard :=
  { any with
    operation := fun _ op => op.inputBytes ≤ size ∧ op.regionGeneration = generation op.region
    policy    := fun _ pl => pl.maxNearMemoryInputBytes = 0 ∨ size ≤ pl.maxNearMemoryInputBytes
    target    := fun _ tdef => tdef.maxInputBytes = 0 ∨ size ≤ tdef.maxInputBytes }

-- The evidence on a region is about the given generation, and no capability to execute an operation
-- is denied.
def Testimony.withinLimits (generation : DataRegionId → DataRegionGeneration) : Testimony where
  capability key state := ∀ opClass : Raw OperationClass,
    key = ascii ("operation:" ++ opClass.toString) →
      state = CapabilityState.supported ∨ state = CapabilityState.unknown ∨
      state = CapabilityState.revalidationRequired
  data r g := g = generation r

theorem Standard.withinLimits_lawful {size : UInt64}
    {generation : DataRegionId → DataRegionGeneration} : (withinLimits size generation).Lawful where
  policy       := .inl rfl
  create _ _ _ := trivial
  retain _ _   := trivial

-- A capability that is neither denied nor uncertain is there.
theorem CapabilitySet.supported {caps : CapabilitySet} {opClass : Raw OperationClass}
    {generation : DataRegionId → DataRegionGeneration}
    (h : caps.entries.All fun k e => (Testimony.withinLimits generation).capability k e.state)
    (hu : caps.stateOf (ascii ("operation:" ++ opClass.toString)) ≠ CapabilityState.unknown)
    (hr : caps.stateOf (ascii ("operation:" ++ opClass.toString)) ≠
      CapabilityState.revalidationRequired) :
    caps.stateOf (ascii ("operation:" ++ opClass.toString)) = CapabilityState.supported := by
  unfold stateOf at *
  cases he : caps.entries[ascii ("operation:" ++ opClass.toString)]? <;> simp only [he] at hu hr ⊢
  case none    => contradiction
  case some en =>
    have hs := h he opClass rfl
    exact hs.resolve_right fun hs => hs.elim hu hr

variable [Platform] {cid : CoordinatorId} {run : List Op} {size : UInt64}
         {generation : DataRegionId → DataRegionGeneration}

theorem limits_honoured
    (hc : ∀ op ∈ run, op.Brings (.withinLimits size generation) ∧
      op.Attests (.withinLimits generation))
    {id : ExecutionPlanId} {o : OperationId} {out : PlanOutput}
    (h : (plan id o (after cid run)).fst = .ok out) (hcr : out.created) :
    ∃ op policy tdef caps data, (after cid run).operations[o]? = some op ∧
      (after cid run).policies[op.policy]? = some policy ∧
      (after cid run).targets[out.plan.target]? = some tdef ∧
      (after cid run).capabilities[out.plan.target]? = some caps ∧
      (after cid run).dataEvidence[op.region]? = some data ∧
      caps.stateOf (ascii ("operation:" ++ op.opClass.toString)) = CapabilityState.supported ∧
      (tdef.maxInputBytes ≠ 0 → op.inputBytes ≤ tdef.maxInputBytes) ∧
      (policy.maxNearMemoryInputBytes ≠ 0 → op.inputBytes ≤ policy.maxNearMemoryInputBytes) ∧
      data.regionGeneration = op.regionGeneration := by
  have hm := meets_after Standard.withinLimits_lawful cid fun op ho => (hc op ho).1
  have ha := attests_after cid fun op ho => (hc op ho).2
  have ⟨sel, he, hp, _⟩ := plan_created h hcr
  have hs := (sel.hardFilter_eq_nil he).1
  have ⟨hle, hg⟩ := hm.operations sel.operation_eq
  have below {limit : UInt64} (h : limit = 0 ∨ size ≤ limit) (hne : limit ≠ 0) :
      sel.op.inputBytes ≤ limit :=
    UInt64.le_trans hle (h.resolve_left hne)
  have ht : out.plan.target = sel.target := by
    rw [hp]
    rfl
  refine ⟨sel.op, sel.policy, sel.tdef, sel.caps, sel.data, sel.operation_eq, sel.policy_eq,
    ht ▸ sel.targets_eq, ht ▸ sel.capabilities_eq, sel.dataEvidence_eq, ?_,
    below (hm.targets sel.targets_eq), below (hm.policies sel.policy_eq), ?_⟩
  · exact CapabilitySet.supported (ha.capabilities sel.capabilities_eq) hs.capability.1
      hs.capability.2
  · exact (ha.dataEvidence sel.dataEvidence_eq).trans hg.symm

end Limits

section

open Deployment

def stingy : Policy where
  id                      := { value := 2 }
  generation              := { value := 1 }
  maxNearMemoryInputBytes := 1

-- The target does not support the operation, the input is too large for the target and for the
-- policy, and the evidence is about another generation of the region.
def unfit : List Op :=
  .applyDataEvidence { evidence with regionGeneration := { value := 7 } } ::
  .applyHeartbeat heartbeat ::
  .applyCapability { value := 1 } (fun _ => { value := 1 }) { capability with
    entries := [{ key := ascii "operation:SUM", state := CapabilityState.unsupported }] } ::
  .applyRegisterTarget { registration with maxInputBytes := 1 } ::
  .createOperation { operation { value := 4 } with
    inputBytes := 2
    policy     := { value := 2 } } ::
  .registerPolicy stingy :: setup

theorem limits_ignored :
    let st := after { value := 1 } unfit
    (plan { value := 10 } { value := 4 } st).fst.toOption.any (fun out =>
      out.created ∧ out.plan.target = { value := 1 }) ∧
    st.capabilities[({ value := 1 } : NearMemoryTargetId)]?.any (fun caps : CapabilitySet =>
      caps.stateOf (ascii "operation:SUM") = CapabilityState.unsupported) ∧
    st.operations[({ value := 4 } : OperationId)]?.any (fun op =>
      st.targets[({ value := 1 } : NearMemoryTargetId)]?.any (fun tdef =>
        tdef.maxInputBytes ≠ 0 ∧ tdef.maxInputBytes < op.inputBytes) ∧
      st.policies[op.policy]?.any (fun policy =>
        policy.maxNearMemoryInputBytes ≠ 0 ∧ policy.maxNearMemoryInputBytes < op.inputBytes) ∧
      st.dataEvidence[op.region]?.any (·.regionGeneration ≠ op.regionGeneration)) := by
  decide +kernel

-- The target and the policy have limits, within which the input is, and the evidence is about the
-- generation of the region that the operation is for.
def fit : List Op := [
  .bindWorkerSession { value := 1 } { value := 1 } (ascii "worker"),
  .applyHeartbeat heartbeat,
  .applyDataEvidence { evidence with regionGeneration := { value := 7 } },
  .applyCapability { value := 1 } (fun _ => { value := 1 }) capability,
  .applyRegisterTarget { registration with maxInputBytes := 8 },
  .createOperation { operation { value := 4 } with
    inputBytes       := 2
    regionGeneration := { value := 7 }
    policy           := { value := 2 } },
  .registerPolicy { stingy with maxNearMemoryInputBytes := 4 }]

theorem limits_honoured_of_deployment :
    let st := after { value := 1 } fit
    ∃ out op policy tdef caps data,
      (plan { value := 10 } { value := 4 } st).fst = .ok out ∧ out.created ∧
      st.operations[({ value := 4 } : OperationId)]? = some op ∧
      st.policies[op.policy]? = some policy ∧ st.targets[out.plan.target]? = some tdef ∧
      st.capabilities[out.plan.target]? = some caps ∧ st.dataEvidence[op.region]? = some data ∧
      op.inputBytes = 2 ∧ tdef.maxInputBytes = 8 ∧ policy.maxNearMemoryInputBytes = 4 ∧
      op.regionGeneration = { value := 7 } ∧
      caps.stateOf (ascii ("operation:" ++ op.opClass.toString)) = CapabilityState.supported ∧
      op.inputBytes ≤ tdef.maxInputBytes ∧ op.inputBytes ≤ policy.maxNearMemoryInputBytes ∧
      data.regionGeneration = op.regionGeneration := by
  intro st
  have hc : ∀ op ∈ fit, op.Brings (.withinLimits 2 fun _ => { value := 7 }) ∧
      op.Attests (.withinLimits fun _ => { value := 7 }) := by
    simp only [fit, List.forall_mem_cons, Op.Brings, Op.Attests, Standard.withinLimits,
      Standard.any, Testimony.withinLimits, capability]
    simp [registration, RegisterTargetMsg.definition]
  obtain ⟨out, ho, hf⟩ := exists_ok_of_map (f := fun out => (out.created, out.plan.target))
    (show (plan { value := 10 } { value := 4 } st).fst.toOption.map _ = some (true, { value := 1 })
      by decide +kernel)
  obtain ⟨hcr, ht⟩ := Prod.mk.inj hf
  obtain ⟨op, policy, tdef, caps, data, hop, hpol, htd, hcaps, hdata, hs, hi, hm, hg⟩ :=
    limits_honoured hc ho hcr
  have hd : ∀ op ∈ st.operations[({ value := 4 } : OperationId)]?,
      op.inputBytes = 2 ∧ op.regionGeneration = { value := 7 } ∧
      ∀ policy ∈ st.policies[op.policy]?, policy.maxNearMemoryInputBytes = 4 := by
    decide +kernel
  have hd' : ∀ tdef ∈ st.targets[({ value := 1 } : NearMemoryTargetId)]?,
      tdef.maxInputBytes = 8 := by
    decide +kernel
  obtain ⟨hib, hrg, hp⟩ := hd op hop
  have hmp := hp policy hpol
  have hmi := hd' tdef (ht ▸ htd)
  exact ⟨out, op, policy, tdef, caps, data, ho, hcr, hop, hpol, htd, hcaps, hdata, hib, hmi, hmp,
    hrg, hs, hi (by simp [hmi]), hm (by simp [hmp]), hg⟩

end
end NMC
