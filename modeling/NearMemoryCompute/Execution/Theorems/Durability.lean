import NearMemoryCompute.Execution.Theorems.Resolvable
import NearMemoryCompute.Execution.Theorems.RoundTrip

namespace NMC

open Coordinator Reader

-- What no operation changes about a plan that exists, as far as writing it is concerned.
structure ExecutionPlan.Retains (plan plan' : ExecutionPlan) : Prop where
  id         : plan'.id         = plan.id
  opClass    : plan'.opClass    = plan.opClass
  retryClass : plan'.retryClass = plan.retryClass
  notes      : plan'.notes      = plan.notes

theorem ExecutionPlan.Swept.retains {plan plan' : ExecutionPlan} (h : plan.Swept plan') :
    plan.Retains plan' := by
  cases h <;> exact ⟨rfl, rfl, rfl, rfl⟩

-- A property of the plans that holds of new ones and is retained holds of all of them.
theorem Ledger.Step.all_plans {st : RuntimeState} {op : Op} {out : Outcome} {l : Ledger}
    {P : ExecutionPlanId → ExecutionPlan → Prop} (h : Ledger.Step st op out l)
    (create : ∀ ⦃p o⦄ (sel : Selection st o), op = .plan p o → P p (sel.plan p))
    (load : ∀ ⦃file loaded⦄, op = .load file → PersistentStore.load file decodeState = .ok loaded →
      loaded.plans.All P)
    (retain : ∀ ⦃p plan plan'⦄, P p plan → plan.Retains plan' → P p plan')
    (hp : st.plans.All P) : l.plans.All P := by
  have swept {f : ExecutionPlan → ExecutionPlan} (hf : ∀ plan, ExecutionPlan.Swept plan (f plan))
      ⦃p plan⦄ (h : P p plan) : P p (f plan) :=
    retain h (hf plan).retains
  cases h
  case idle                 => exact hp
  case plan sel             => exact hp.insert (create sel rfl)
  case reserve adm          => exact hp.insert (retain (hp adm.plan_eq) ⟨rfl, rfl, rfl, rfl⟩)
  case prepare prep _       => exact hp.insert (retain (hp prep.plan_eq) ⟨rfl, rfl, rfl, rfl⟩)
  case supersede hq _ _     => exact hp.insert (retain (hp hq) ⟨rfl, rfl, rfl, rfl⟩)
  case confirm hq _ _       => exact hp.insert (retain (hp hq) ⟨rfl, rfl, rfl, rfl⟩)
  case ambiguous c _ _ _ _  => exact hp.insert (retain (hp c.plan_eq) ⟨rfl, rfl, rfl, rfl⟩)
  case mismatch c _ _ _ _ _ => exact hp.insert (retain (hp c.plan_eq) ⟨rfl, rfl, rfl, rfl⟩)
  case commit c _ _ _ _ _   => exact hp.insert (retain (hp c.plan_eq) ⟨rfl, rfl, rfl, rfl⟩)
  case cancel hq _          => exact hp.insert (retain (hp hq) ⟨rfl, rfl, rfl, rfl⟩)
  case advance              => exact hp.map (swept fun _ => ExecutionPlan.swept_onEpoch)
  case fence                => exact hp.map (swept fun _ => ExecutionPlan.swept_onFence)
  case disconnect           => exact hp.map (swept fun _ => ExecutionPlan.swept_onFence)
  case retire               => exact hp.map (swept fun _ => ExecutionPlan.swept_onRetire)
  case load hl => exact (load rfl hl).map (swept fun _ => ExecutionPlan.swept_onEpoch)

-- What a completion leaves in the table of results.
theorem Coordinator.applyResult_ok {st : RuntimeState} {id : ResultId} {msg : ResultMsg}
    {res : ExecutionResult} (h : (applyResult id msg st).fst = .ok res) :
    res.id = id ∧ res.note = msg.note ∧
      (res.outputDigest = [] ∨ res.outputDigest = msg.outputDigest) := by
  simp only [applyResult] at h
  split at h
  case h_1 => cases h
  case h_2 =>
    split at h
    case h_1 => cases h
    case h_2 =>
      split_ifs at h
      · cases h
        exact ⟨rfl, rfl, .inl rfl⟩
      · cases h
        exact ⟨rfl, rfl, .inr rfl⟩
      · cases h
        exact ⟨rfl, rfl, .inr rfl⟩

theorem Ledger.Step.all_results {st : RuntimeState} {op : Op} {out : Outcome} {l : Ledger}
    {P : ResultId → ExecutionResult → Prop} (h : Ledger.Step st op out l)
    (complete : ∀ ⦃id msg res⦄, op = .applyResult id msg → out = .result (.ok res) → P res.id res)
    (load : ∀ ⦃file loaded⦄, op = .load file → PersistentStore.load file decodeState = .ok loaded →
      loaded.results.All P)
    (hr : st.results.All P) : l.results.All P := by
  cases h
  case ambiguous => exact hr.insert (complete rfl rfl)
  case mismatch  => exact hr.insert (complete rfl rfl)
  case commit    => exact hr.insert (complete rfl rfl)
  case load hl   => exact load rfl hl
  all_goals exact hr

-- A demand on the records of each kind, which may look at the identity they are stored under.
structure Standard where
  memoryDomain : MemoryDomainId → MemoryDomainDescriptor → Prop
  dataset      : DatasetId → DatasetDescriptor → Prop
  region       : DataRegionId → DataRegionDescriptor → Prop
  program      : KernelOrProgramId → Program → Prop
  policy       : PolicyId → Policy → Prop
  operation    : OperationId → OperationSpec → Prop
  target       : NearMemoryTargetId → TargetDefinition → Prop
  plan         : ExecutionPlanId → ExecutionPlan → Prop
  result       : ResultId → ExecutionResult → Prop

structure RuntimeState.Meets (st : RuntimeState) (S : Standard) : Prop where
  memoryDomains : st.memoryDomains.All S.memoryDomain
  datasets      : st.datasets.All S.dataset
  regions       : st.regions.All S.region
  programs      : st.programs.All S.program
  policies      : st.policies.All S.policy
  operations    : st.operations.All S.operation
  targets       : st.targets.All S.target
  plans         : st.plans.All S.plan
  results       : st.results.All S.result

namespace Standard

-- The records that the coordinator makes up itself meet the standard if the others do.
structure Lawful (S : Standard) : Prop where
  policy : S.policy defaultPolicy.id defaultPolicy
  create : ∀ {st o} (sel : Selection st o) (p : ExecutionPlanId),
    S.operation o sel.op → S.plan p (sel.plan p)
  retain : ∀ {p plan plan'}, S.plan p plan → plan.Retains plan' → S.plan p plan'

-- Every record is stored under its own identity.
def keyed : Standard where
  memoryDomain k v := v.id = k
  dataset k v      := v.id = k
  region k v       := v.id = k
  program k v      := v.id = k
  policy k v       := v.id = k
  operation k v    := v.id = k
  target k v       := v.id = k
  plan k v         := v.id = k
  result k v       := v.id = k

-- Every record can be read back.
def storable : Standard where
  memoryDomain _ v := v.Storable
  dataset _ v      := v.Storable
  region _ v       := v.Storable
  program _ v      := v.Storable
  policy _ v       := v.Storable
  operation _ v    := v.Storable
  target _ v       := v.Storable
  plan _ v         := v.Storable
  result _ v       := v.Storable

theorem keyed_lawful : keyed.Lawful where
  policy       := rfl
  create _ _ _ := rfl
  retain hp hr := hr.id.trans hp

theorem storable_lawful : storable.Lawful where
  policy       := show defaultPolicy.Storable by decide
  create _ _ h := ⟨h.opClass, h.retryClass, show Short Fits [] by decide⟩
  retain hp hr := ⟨hr.opClass ▸ hp.opClass, hr.retryClass ▸ hp.retryClass, hr.notes ▸ hp.notes⟩

end Standard

-- The records that an operation is given meet the standard.
def Op.Brings (S : Standard) : Op → Prop
  | registerMemoryDomain md => S.memoryDomain md.id md
  | registerDataset ds      => S.dataset ds.id ds
  | registerRegion rg       => S.region rg.id rg
  | registerProgram pg      => S.program pg.id pg
  | registerPolicy pl       => S.policy pl.id pl
  | createOperation op      => S.operation op.id op
  | applyRegisterTarget msg => S.target msg.target msg.definition
  | applyResult id msg      =>
    ∀ st res, (Coordinator.applyResult id msg st).fst = .ok res → S.result id res
  | load file               =>
    ∀ loaded, PersistentStore.load file decodeState = .ok loaded → loaded.Meets S
  | _                       => True

namespace RuntimeState.Meets

variable {S : Standard}

theorem init (hS : S.Lawful) (cid : CoordinatorId) : (Coordinator.init cid).Meets S where
  memoryDomains := .empty
  datasets      := .empty
  regions       := .empty
  programs      := .empty
  policies      := .insert .empty hS.policy
  operations    := .empty
  targets       := .empty
  plans         := .empty
  results       := .empty

variable {st : RuntimeState} {op : Op}

theorem catalog {out : Outcome} {cat : Catalog} (hc : Catalog.Step st.catalog op out cat)
    (hb : op.Brings S) (hm : st.Meets S) :
    cat.memoryDomains.All S.memoryDomain ∧ cat.datasets.All S.dataset ∧
    cat.regions.All S.region ∧ cat.programs.All S.program := by
  have hmd := hm.memoryDomains
  have hds := hm.datasets
  have hrg := hm.regions
  have hpg := hm.programs
  cases hc
  case idle         => exact ⟨hmd, hds, hrg, hpg⟩
  case memoryDomain => exact ⟨hmd.insert hb, hds, hrg, hpg⟩
  case dataset      => exact ⟨hmd, hds.insert hb, hrg, hpg⟩
  case region       => exact ⟨hmd, hds, hrg.insert hb, hpg⟩
  case program      => exact ⟨hmd, hds, hrg, hpg.insert hb⟩
  case load hl =>
    have hm := hb _ hl
    exact ⟨hm.memoryDomains, hm.datasets, hm.regions, hm.programs⟩

theorem registry {out : Outcome} {reg : Registry} (hg : Registry.Step st.registry op out reg)
    (hr : ∀ p, op = .reserve p → reg = st.registry) (hb : op.Brings S) (hm : st.Meets S) :
    reg.policies.All S.policy ∧ reg.operations.All S.operation ∧ reg.targets.All S.target := by
  have hpl := hm.policies
  have hop := hm.operations
  have ht  := hm.targets
  cases hg
  case policy    => exact ⟨hpl.insert hb, hop, ht⟩
  case operation => exact ⟨hpl, hop.insert hb, ht⟩
  case target    => exact ⟨hpl, hop, ht.insert hb⟩
  case lookup p _ =>
    rw [hr p rfl]
    exact ⟨hpl, hop, ht⟩
  case load hl =>
    have hm := hb _ hl
    exact ⟨hm.policies, hm.operations, hm.targets⟩
  all_goals exact ⟨hpl, hop, ht⟩

theorem ledger {out : Outcome} {l : Ledger} (hS : S.Lawful) (hl : Ledger.Step st op out l)
    (hr : ∀ id msg res, op = .applyResult id msg → out = .result (.ok res) → S.result res.id res)
    (hb : op.Brings S) (hm : st.Meets S) :
    l.plans.All S.plan ∧ l.results.All S.result := by
  have hload {file loaded} (ho : op = .load file)
      (hd : PersistentStore.load file decodeState = .ok loaded) : loaded.Meets S := by
    cases ho
    exact hb loaded hd
  constructor
  case left =>
    refine hl.all_plans ?_ (fun _ _ ho hd => (hload ho hd).plans) (fun _ _ _ => hS.retain) hm.plans
    exact fun p _ sel _ => hS.create sel p (hm.operations sel.operation_eq)
  case right =>
    exact hl.all_results (fun id msg res => hr id msg res)
      (fun _ _ ho hd => (hload ho hd).results) hm.results

theorem step [Platform] (hS : S.Lawful) (hr : Resolvable st) (hb : op.Brings S)
    (hm : st.Meets S) : (step op st).snd.Meets S := by
  have hc := hm.catalog (step_catalog op st) hb
  have hg := hm.registry (step_registry op st) (fun p ho => ho ▸ hr.reserve_registry p) hb
  have hl := hm.ledger hS (step_refines op st) ?_ hb
  case refine_1 =>
    rintro id msg res rfl he
    have he : (applyResult id msg st).fst = .ok res := Outcome.result.inj he
    exact (applyResult_ok he).1 ▸ hb st res he
  exact ⟨hc.1, hc.2.1, hc.2.2.1, hc.2.2.2, hg.1, hg.2.1, hg.2.2, hl.1, hl.2⟩

end RuntimeState.Meets

theorem meets_after [Platform] {S : Standard} (hS : S.Lawful) (cid : CoordinatorId) {run : List Op}
    (hb : ∀ op ∈ run, op.Brings S) : (after cid run).Meets S := by
  induction run
  case nil => exact .init hS cid
  case cons op run hi =>
    refine (hi fun op ho => hb op (.tail _ ho)).step hS (resolvable_after cid run) ?_
    exact hb op (.head _)

-- Whatever is loaded meets both standards.
theorem RuntimeState.Storable.meets {st : RuntimeState} (h : st.Storable) :
    st.Meets .keyed ∧ st.Meets .storable :=
  ⟨⟨h.memoryDomains.keyed, h.datasets.keyed, h.regions.keyed, h.programs.keyed, h.policies.keyed,
    h.operations.keyed, h.targets.keyed, h.plans.keyed, h.results.keyed⟩,
   ⟨h.memoryDomains.each, h.datasets.each, h.regions.each, h.programs.each, h.policies.each,
    h.operations.each, h.targets.each, h.plans.each, h.results.each⟩⟩

theorem meets_of_load {file : File} {loaded : RuntimeState}
    (h : PersistentStore.load file decodeState = .ok loaded) :
    loaded.Meets .keyed ∧ loaded.Meets .storable := by
  have ⟨_, _, hd⟩ := PersistentStore.load_ok h
  exact (decodeState_storable hd).1.meets

theorem Op.brings_keyed (op : Op) : op.Brings .keyed := by
  cases op
  case applyResult => exact fun _ _ h => (applyResult_ok h).1
  case load        => exact fun _ h => (meets_of_load h).1
  all_goals first | rfl | trivial

-- In the tables of a coordinator, every record is stored under its own identity.
theorem keyed_after [Platform] (cid : CoordinatorId) (run : List Op) :
    (after cid run).Meets .keyed :=
  meets_after Standard.keyed_lawful cid fun op _ => op.brings_keyed

namespace RuntimeState

-- No table has more entries than are read back.
structure Sized (st : RuntimeState) : Prop where
  memoryDomains : st.memoryDomains.size ≤ kMaxPersistCount.toNat
  datasets      : st.datasets.size      ≤ kMaxPersistCount.toNat
  regions       : st.regions.size       ≤ kMaxPersistCount.toNat
  programs      : st.programs.size      ≤ kMaxPersistCount.toNat
  policies      : st.policies.size      ≤ kMaxPersistCount.toNat
  operations    : st.operations.size    ≤ kMaxPersistCount.toNat
  targets       : st.targets.size       ≤ kMaxPersistCount.toNat
  plans         : st.plans.size         ≤ kMaxPersistCount.toNat
  results       : st.results.size       ≤ kMaxPersistCount.toNat

-- The bounds within which a state can be read back.
structure Bounded (st : RuntimeState) : Prop extends Sized st where
  epoch   : !st.epoch.isNull
  entries : st.Meets .storable

-- No operation has a program.
def Unbound (st : RuntimeState) : Prop :=
  ∀ (o : OperationId) (op : OperationSpec), st.operations[o]? = some op → op.program = none

variable {st : RuntimeState}

theorem Bounded.storable (hb : st.Bounded) (hk : st.Meets .keyed) : st.Storable where
  epoch         := hb.epoch
  memoryDomains := ⟨hb.memoryDomains, hk.memoryDomains, hb.entries.memoryDomains⟩
  datasets      := ⟨hb.datasets, hk.datasets, hb.entries.datasets⟩
  regions       := ⟨hb.regions, hk.regions, hb.entries.regions⟩
  programs      := ⟨hb.programs, hk.programs, hb.entries.programs⟩
  policies      := ⟨hb.policies, hk.policies, hb.entries.policies⟩
  operations    := ⟨hb.operations, hk.operations, hb.entries.operations⟩
  targets       := ⟨hb.targets, hk.targets, hb.entries.targets⟩
  plans         := ⟨hb.plans, hk.plans, hb.entries.plans⟩
  results       := ⟨hb.results, hk.results, hb.entries.results⟩

theorem Storable.bounded (h : st.Storable) : st.Bounded where
  epoch         := h.epoch
  memoryDomains := h.memoryDomains.size
  datasets      := h.datasets.size
  regions       := h.regions.size
  programs      := h.programs.size
  policies      := h.policies.size
  operations    := h.operations.size
  targets       := h.targets.size
  plans         := h.plans.size
  results       := h.results.size
  entries       := h.meets.2

theorem unbound_iff : st.Unbound ↔ ∀ e ∈ st.operations.toList, e.snd.program = none := by
  constructor
  case mp =>
    intro h e he
    exact h _ _ (Std.ExtTreeMap.mem_toList_iff_getElem?_eq_some.mp he)
  case mpr =>
    intro h o op ho
    exact h (o, op) (Std.ExtTreeMap.mem_toList_iff_getElem?_eq_some.mpr ho)

theorem Unbound.persists (h : st.Unbound) : st.Persists := by
  intro o op ho p hp
  simp [h o op ho] at hp

end RuntimeState

section Saved

variable {st : RuntimeState} {disk : Disk} {bytes : Bytes}

theorem load_of_saved (hst : st.Storable) (hn : st.SelfNamed) (hp : st.Persists)
    (h : Coordinator.save disk st = some (.ok bytes)) (st₀ : RuntimeState) :
    load (.contents bytes) st₀ = (.ok (), st.durable.rebuilt.recover) := by
  have ⟨payload, he, hb⟩ := Option.bind_eq_some_iff.mp h
  have hd : decodeState payload = some (st.durable.rebuilt, []) := by
    simpa using (decodeState_reads hst hn hp he).run []
  have hl := (PersistentStore.load_saved (Option.some.inj hb)).mpr hd
  simp only [load, hl]

end Saved

-- What a coordinator has saved within the bounds can be loaded by any coordinator.
theorem saved_state_loads [Platform] (cid : CoordinatorId) (run : List Op) (disk : Disk)
    (bytes : Bytes) (hb : (after cid run).Bounded) (hu : (after cid run).Unbound)
    (hs : Coordinator.save disk (after cid run) = some (.ok bytes)) (st₀ : RuntimeState) :
    load (.contents bytes) st₀ = (.ok (), (after cid run).durable.rebuilt.recover) ∧
    ((after cid run).Versioned → (after cid run).durable.rebuilt = (after cid run).durable) := by
  have hst := hb.storable (keyed_after cid run)
  refine ⟨load_of_saved hst (selfNamed_after cid run) hu.persists hs st₀, fun hp => ?_⟩
  exact RuntimeState.Versioned.rebuilt_eq hp

open Deployment in
theorem saved_state_loads_of_deployment :
    let st := after { value := 1 } (dispatch ++ setup)
    ∃ bytes, Coordinator.save .replaced st = some (.ok bytes) ∧
      (load (.contents bytes) (init { value := 2 })).fst = .ok () := by
  intro st
  have hst : st.Storable := by constructor <;> decide +kernel
  have hu : ∀ e ∈ st.operations.toList, e.snd.program = none := by decide +kernel
  have hm : (encodeState st).any (·.length ≤ PersistentStore.kMaxPayload) := by decide +kernel
  have ⟨payload, he, hl⟩ := (Option.any_eq_true _ _).mp hm
  have ⟨bytes, hs, _⟩ := save_of_encodeState he (of_decide_eq_true hl)
  refine ⟨bytes, hs, ?_⟩
  rw [(saved_state_loads _ _ _ bytes hst.bounded (RuntimeState.unbound_iff.mpr hu) hs _).1]

-- A list that is too long is accepted and written as it is, but it is not read back.
open Deployment in
theorem long_list_not_loaded :
    let pg : Program := {
      id         := { value := 1 }
      generation := { value := 1 }
      dataTypes  := List.replicate 65 DataType.u8 }
    let st := after { value := 1 } [.registerProgram pg]
    (registerProgram pg (init { value := 1 })).fst = .ok () ∧ st.Unbound ∧
    ∃ bytes, Coordinator.save .replaced st = some (.ok bytes) ∧
      (load (.contents bytes) (init { value := 2 })).fst =
        makeError "E_PERSIST_DECODE" "malformed persistence payload" := by
  intro pg st
  have hu : ∀ e ∈ st.operations.toList, e.snd.program = none := by
    decide +kernel
  have hm : (encodeState st).any fun payload =>
      payload.length ≤ PersistentStore.kMaxPayload ∧ (decodeState payload).isNone := by
    decide +kernel
  have ⟨payload, he, hm⟩ := (Option.any_eq_true _ _).mp hm
  have ⟨hl, hd⟩ := of_decide_eq_true hm
  have ⟨bytes, hb, hw⟩ := save_of_encodeState he hl
  refine ⟨by decide, RuntimeState.unbound_iff.mpr hu, bytes, hb, ?_⟩
  simp only [load, PersistentStore.load_malformed hw (Option.isNone_iff_eq_none.mp hd)]
  rfl

-- Recovery from a file decides about every plan in the same way as a new epoch does.
theorem recovery_is_epoch_advance [Platform] (cid : CoordinatorId) (run : List Op)
    (hb : (after cid run).Bounded)
    (hp : ∀ (o : OperationId) (op : OperationSpec), (after cid run).operations[o]? = some op →
      op.program = none ∧ op.programGeneration = none)
    (hl : ∀ payload ∈ encodeState (after cid run), payload.length ≤ PersistentStore.kMaxPayload) :
    ∃ bytes, Coordinator.save .replaced (after cid run) = some (.ok bytes) ∧
    ∀ st₀, (load (.contents bytes) st₀).fst = .ok () ∧
      (load (.contents bytes) st₀).snd.durable = (advanceEpoch (after cid run)).snd.durable ∧
      (load (.contents bytes) st₀).snd.activePlans =
        (advanceEpoch (after cid run)).snd.activePlans := by
  have hst := hb.storable (keyed_after cid run)
  have hu : (after cid run).Unbound := fun o op ho => (hp o op ho).1
  have hversion : (after cid run).durable.Versioned := fun o op ho _ => (hp o op ho).2
  have ⟨payload, he, _⟩ := durable_round_trip _ hst (selfNamed_after cid run) hp
  have ⟨bytes, hs, _⟩ := save_of_encodeState he (hl payload he)
  refine ⟨bytes, hs, fun st₀ => ?_⟩
  rw [load_of_saved hst (selfNamed_after cid run) hu.persists hs st₀, hversion.rebuilt_eq,
    RuntimeState.recover_eq]
  exact ⟨rfl, rfl, rfl⟩

open Deployment in
theorem recovery_is_epoch_advance_of_deployment :
    let st := after { value := 1 } (dispatch ++ setup)
    ∃ bytes, Coordinator.save .replaced st = some (.ok bytes) ∧
      (load (.contents bytes) (init { value := 2 })).snd.activePlans =
        (advanceEpoch st).snd.activePlans := by
  intro st
  have hst : st.Storable := by constructor <;> decide +kernel
  have hp : ∀ e ∈ st.operations.toList, e.snd.program = none ∧ e.snd.programGeneration = none := by
    decide +kernel
  have hl : ∀ payload ∈ encodeState st, payload.length ≤ PersistentStore.kMaxPayload := by
    decide +kernel
  have ⟨bytes, hs, h⟩ := recovery_is_epoch_advance _ _ hst.bounded
    (fun o op ho => hp (o, op) (Std.ExtTreeMap.mem_toList_iff_getElem?_eq_some.mpr ho)) hl
  exact ⟨bytes, hs, (h _).2.2⟩

end NMC
