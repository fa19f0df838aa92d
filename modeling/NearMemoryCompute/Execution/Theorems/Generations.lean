import NearMemoryCompute.Execution.Theorems.Resolvable

namespace NMC

open Coordinator

-- The generations of an entry that staleness is decided by. None of them is smaller than before.
def TargetDefinition.NotNewer (tdef tdef' : TargetDefinition) : Prop :=
  tdef.generation.value ≤ tdef'.generation.value

def CapabilitySet.NotNewer (cs cs' : CapabilitySet) : Prop :=
  cs.generation.value ≤ cs'.generation.value ∧
  cs.evidenceGeneration.value ≤ cs'.evidenceGeneration.value

def DataEvidence.NotNewer (ev ev' : DataEvidence) : Prop :=
  ev.datasetGeneration.value ≤ ev'.datasetGeneration.value ∧
  ev.regionGeneration.value ≤ ev'.regionGeneration.value ∧
  ev.memoryDomainGeneration.value ≤ ev'.memoryDomainGeneration.value

theorem TargetDefinition.NotNewer.refl (tdef : TargetDefinition) : tdef.NotNewer tdef :=
  UInt64.le_refl _

theorem CapabilitySet.NotNewer.refl (cs : CapabilitySet) : cs.NotNewer cs :=
  ⟨UInt64.le_refl _, UInt64.le_refl _⟩

theorem DataEvidence.NotNewer.refl (ev : DataEvidence) : ev.NotNewer ev :=
  ⟨UInt64.le_refl _, UInt64.le_refl _, UInt64.le_refl _⟩

namespace Registry

-- No generation that has been recorded has gone back.
structure Advances (reg reg' : Registry) : Prop where
  targets      : Table.Grows TargetDefinition.NotNewer reg.targets reg'.targets
  capabilities : Table.Grows CapabilitySet.NotNewer reg.capabilities reg'.capabilities
  dataEvidence : Table.Grows DataEvidence.NotNewer reg.dataEvidence reg'.dataEvidence

variable {reg reg' reg'' : Registry}

theorem Advances.refl : reg.Advances reg where
  targets      := .refl .refl
  capabilities := .refl .refl
  dataEvidence := .refl .refl

theorem Advances.trans (h : reg.Advances reg') (h' : reg'.Advances reg'') : reg.Advances reg'' where
  targets      := h.targets.trans UInt64.le_trans h'.targets
  capabilities := h.capabilities.trans
    (fun h h' => ⟨UInt64.le_trans h.1 h'.1, UInt64.le_trans h.2 h'.2⟩) h'.capabilities
  dataEvidence := h.dataEvidence.trans
    (fun h h' => ⟨UInt64.le_trans h.1 h'.1, UInt64.le_trans h.2.1 h'.2.1,
      UInt64.le_trans h.2.2 h'.2.2⟩) h'.dataEvidence

theorem advances_withdraw (boot : WorkerBootId) : reg.Advances (reg.withdraw boot) where
  targets      := .refl .refl
  capabilities := .map fun cs => by split <;> exact .refl cs
  dataEvidence := .map fun ev => by split <;> exact .refl ev

theorem advances_withdrawAll : reg.Advances reg.withdrawAll where
  targets      := .refl .refl
  capabilities := .map .refl
  dataEvidence := .map .refl

end Registry

-- The operation does not record a generation that is smaller than the one it replaces. A message
-- that is refused anyway may carry any generation.
def Op.forward (reg : Registry) : Op → Bool
  | applyRegisterTarget msg =>
    msg.target.isNull || msg.generation.isNull ||
    reg.targets[msg.target]?.all (·.generation.value ≤ msg.generation.value)
  | applyCapability _ _ msg =>
    msg.target.isNull || msg.target ∉ reg.targets ||
    reg.capabilities[msg.target]?.all fun cs =>
      cs.generation.value ≤ msg.generation.value ∧
      cs.evidenceGeneration.value ≤ msg.evidenceGeneration.value
  | applyDataEvidence msg =>
    msg.region.isNull ||
    reg.dataEvidence[msg.region]?.all fun ev =>
      ev.datasetGeneration.value ≤ msg.datasetGeneration.value ∧
      ev.regionGeneration.value ≤ msg.regionGeneration.value ∧
      ev.memoryDomainGeneration.value ≤ msg.memoryDomainGeneration.value
  | _ => true

namespace Coordinator

variable {st : RuntimeState}

-- A registration replaces the definition, and nothing else that carries a generation.
theorem applyRegisterTarget_advances_iff (msg : RegisterTargetMsg) :
    st.registry.Advances (applyRegisterTarget msg st).snd.registry ↔
      (Op.applyRegisterTarget msg).forward st.registry := by
  by_cases hn : msg.target.isNull || msg.generation.isNull
  case pos => simp [applyRegisterTarget, Op.forward, hn, Registry.Advances.refl]
  case neg =>
    have hg : st.registry.Advances (applyRegisterTarget msg st).snd.registry ↔
        Table.Grows TargetDefinition.NotNewer st.targets
          (st.targets.insert msg.target msg.definition) := by
      simp only [applyRegisterTarget, if_neg hn]
      exact ⟨fun h => h.targets, fun h => ⟨h, .refl .refl, .refl .refl⟩⟩
    rw [hg, Table.Grows.insert_iff .refl]
    simp [Op.forward, hn, Option.all_eq_true, TargetDefinition.NotNewer, RuntimeState.registry,
      RegisterTargetMsg.definition]

theorem applyCapability_advances_iff (eid : EvidenceId) (cid : ℕ → CapabilityId)
    (msg : CapabilityMsg) :
    st.registry.Advances (applyCapability eid cid msg st).snd.registry ↔
      (Op.applyCapability eid cid msg).forward st.registry := by
  by_cases hn : msg.target.isNull
  case pos => simp [applyCapability, Op.forward, hn, Registry.Advances.refl]
  case neg =>
    cases ht : st.targets[msg.target]?
    case none =>
      have hm : msg.target ∉ st.registry.targets := by
        intro hm
        obtain ⟨_, h⟩ := Table.exists_of_mem hm
        cases ht.symm.trans h
      simp [applyCapability, Op.forward, hn, ht, hm, Registry.Advances.refl]
    case some tdef =>
      have hm : msg.target ∈ st.targets := Table.mem_of_some ht
      have hg : st.registry.Advances (applyCapability eid cid msg st).snd.registry ↔
          Table.Grows CapabilitySet.NotNewer st.capabilities
            (st.capabilities.insert msg.target (msg.capabilitySet eid cid tdef)) := by
        simp only [applyCapability, if_neg hn, ht]
        exact ⟨fun h => h.capabilities, fun h => ⟨.refl .refl, h, .refl .refl⟩⟩
      rw [hg, Table.Grows.insert_iff .refl]
      simp [Op.forward, hn, hm, Option.all_eq_true, CapabilitySet.NotNewer, RuntimeState.registry,
        CapabilityMsg.capabilitySet]

theorem applyDataEvidence_advances_iff (msg : DataEvidenceMsg) :
    st.registry.Advances (applyDataEvidence msg st).snd.registry ↔
      (Op.applyDataEvidence msg).forward st.registry := by
  by_cases hn : msg.region.isNull
  case pos => simp [applyDataEvidence, Op.forward, hn, Registry.Advances.refl]
  case neg =>
    have hg : st.registry.Advances (applyDataEvidence msg st).snd.registry ↔
        Table.Grows DataEvidence.NotNewer st.dataEvidence
          (st.dataEvidence.insert msg.region msg.dataEvidence) := by
      simp only [applyDataEvidence, if_neg hn]
      exact ⟨fun h => h.dataEvidence, fun h => ⟨.refl .refl, .refl .refl, h⟩⟩
    rw [hg, Table.Grows.insert_iff .refl]
    simp [Op.forward, hn, Option.all_eq_true, DataEvidence.NotNewer, RuntimeState.registry,
      DataEvidenceMsg.dataEvidence]

-- A step takes a generation back exactly if it accepts a message that carries a smaller one.
theorem step_advances_iff [Platform] (hr : Resolvable st) {op : Op} (hl : !op.loads) :
    st.registry.Advances (step op st).snd.registry ↔ op.forward st.registry := by
  have advances (h : st.registry.Advances (step op st).snd.registry) (hf : op.forward st.registry) :
      st.registry.Advances (step op st).snd.registry ↔ op.forward st.registry :=
    iff_of_true h hf
  have hg := step_registry op st
  cases op
  case applyRegisterTarget msg     => exact applyRegisterTarget_advances_iff msg
  case applyCapability eid cid msg => exact applyCapability_advances_iff eid cid msg
  case applyDataEvidence msg       => exact applyDataEvidence_advances_iff msg
  case load                        => simp [Op.loads] at hl
  case reserve p =>
    refine advances ?_ rfl
    rw [show (step (.reserve p) st).snd.registry = st.registry from hr.reserve_registry p]
    exact .refl
  all_goals
    refine advances ?_ rfl
    generalize (step _ st).snd.registry = reg at hg
    generalize (step _ st).fst = out at hg
    cases hg
    all_goals first
      | exact .refl
      | exact Registry.advances_withdraw _
      | exact Registry.advances_withdrawAll
      | exact ⟨.refl .refl, .refl .refl, .refl .refl⟩

end Coordinator

-- A generation that the plan is pinned to is smaller than the one that is recorded.
def Registry.Outdates (reg : Registry) (plan : ExecutionPlan) : Prop :=
  let s := plan.authority.snapshot
  (∃ tdef ∈ reg.targets[plan.target]?, s.targetGeneration.value < tdef.generation.value) ∨
  (∃ cs ∈ reg.capabilities[plan.target]?,
    s.capabilityGeneration.value < cs.generation.value ∨
    s.evidenceGeneration.value < cs.evidenceGeneration.value) ∨
  (∃ ev ∈ reg.dataEvidence[plan.region]?, s.datasetGeneration.value < ev.datasetGeneration.value)

theorem Registry.Outdates.advance {reg reg' : Registry} {plan : ExecutionPlan}
    (h : reg.Outdates plan) (ha : reg.Advances reg') : reg'.Outdates plan := by
  rcases h with ⟨tdef, ht, h⟩ | ⟨cs, hc, h⟩ | ⟨ev, he, h⟩
  · have ⟨tdef', ht', hn⟩ := ha.targets ht
    exact .inl ⟨tdef', ht', UInt64.lt_of_lt_of_le h hn⟩
  · have ⟨cs', hc', hn⟩ := ha.capabilities hc
    refine .inr (.inl ⟨cs', hc', h.imp ?_ ?_⟩)
    · exact fun h => UInt64.lt_of_lt_of_le h hn.1
    · exact fun h => UInt64.lt_of_lt_of_le h hn.2
  · have ⟨ev', he', hn⟩ := ha.dataEvidence he
    exact .inr (.inr ⟨ev', he', UInt64.lt_of_lt_of_le h hn.1⟩)

theorem Fresh.not_outdates {st : RuntimeState} {plan : ExecutionPlan} (hf : Fresh st plan) :
    ¬st.registry.Outdates plan := by
  rintro (⟨tdef, ht, h⟩ | ⟨cs, hc, h⟩ | ⟨ev, he, h⟩)
  · have ⟨tdef', ht', hg⟩ := hf.target
    cases ht'.symm.trans ht
    simp [hg] at h
  · have ⟨cs', hc', hg, heg, _⟩ := hf.capabilities
    cases hc'.symm.trans hc
    simp [hg, heg] at h
  · have ⟨ev', he', hg, _⟩ := hf.dataEvidence
    cases he'.symm.trans he
    simp [hg] at h

-- As long as nothing is loaded, the generations on record never go back exactly if every message
-- that is accepted carries no smaller generation than the one it replaces. A plan that is pinned
-- to an older generation than one on record is not dispatched then.
theorem generations_forward_iff [Platform] (cid : CoordinatorId) (run : List Op)
    (hl : ∀ op ∈ run, !op.loads) :
    ((∀ past, past <:+ run → ∀ past', past' <:+ past →
        (after cid past').registry.Advances (after cid past).registry) ↔
      Machine.EachStep (fun past op => op.forward (after cid past).registry) run) ∧
    (Machine.EachStep (fun past op => op.forward (after cid past).registry) run →
      ∀ past, past <:+ run → ∀ p plan, (after cid run).plans[p]? = some plan →
        (after cid past).registry.Outdates plan →
        ∀ did aid, !(prepareDispatch p did aid (after cid run)).fst.isOk) := by
  have hstep {op : Op} {past : List Op} (hs : op :: past <:+ run) :=
    step_advances_iff (resolvable_after cid past) (hl op (hs.subset (.head _)))
  have advances {past past' : List Op} (hs : past <:+ run) (hs' : past' <:+ past)
      (hf : Machine.EachStep (fun past op => op.forward (after cid past).registry) run) :
      (after cid past').registry.Advances (after cid past).registry := by
    induction past
    case nil =>
      cases List.suffix_nil.mp hs'
      exact .refl
    case cons op past hi =>
      cases List.suffix_cons_iff.mp hs'
      case inl he =>
        subst he
        exact .refl
      case inr hs' =>
        exact (hi ((List.suffix_cons _ _).trans hs) hs').trans ((hstep hs).mpr (hf hs))
  refine ⟨⟨?_, fun hf past hs past' hs' => advances hs hs' hf⟩, ?_⟩
  · intro ha op past hs
    exact (hstep hs).mp (ha _ hs past (List.suffix_cons _ _))
  · intro hf past hs p plan hp ho did aid
    cases he : (prepareDispatch p did aid (after cid run)).fst
    case error => rfl
    case ok out =>
      have ⟨prep, _⟩ := prepareDispatch_ok he
      cases prep.plan_eq.symm.trans hp
      have hr := (resolvable_after cid run).live prep.plan_eq prep.live
      have ha := advances (List.suffix_refl run) hs hf
      exact absurd (ho.advance ha) (hr.fresh prep.fresh).not_outdates

-- The target is registered anew while a plan for it is reserved, and evidence for it is published
-- with greater generations.
open Deployment in
theorem generations_forward_of_deployment :
    let run := .applyHeartbeat heartbeat ::
      .applyRegisterTarget { registration with generation := { value := 2 } } ::
      .reserve { value := 10 } :: .plan { value := 10 } { value := 1 } :: setup
    !(prepareDispatch { value := 10 } { value := 20 } { value := 30 }
      (after { value := 1 } run)).fst.isOk := by
  intro run
  have hl : ∀ op ∈ run, !op.loads := by decide
  have hf : Machine.EachStep
      (fun past op => op.forward (after { value := 1 } past).registry) run := by
    decide +kernel
  have hp : ∃ plan : ExecutionPlan,
      (after { value := 1 } run).plans[({ value := 10 } : ExecutionPlanId)]? = some plan ∧
      (plan.target, plan.authority.snapshot.targetGeneration) = ({ value := 1 }, { value := 1 }) :=
    Option.map_eq_some_iff.mp (by decide +kernel)
  have ht : ∃ tdef : TargetDefinition,
      (after { value := 1 } run).targets[({ value := 1 } : NearMemoryTargetId)]? = some tdef ∧
      tdef.generation = { value := 2 } :=
    Option.map_eq_some_iff.mp (by decide +kernel)
  have ⟨plan, hp, hplan⟩ := hp
  have ⟨tdef, ht, hg⟩ := ht
  have ⟨htarget, hgen⟩ := Prod.mk.inj hplan
  refine (generations_forward_iff _ run hl).2 hf run (List.suffix_refl _) _ plan hp (.inl ?_) _ _
  exact ⟨tdef, htarget ▸ ht, by rw [hgen, hg]; decide⟩

-- A delayed registration takes the generation of the target back, and the plan that was pinned to
-- it is dispatched.
open Deployment in
theorem generation_taken_back :
    let reserved := .reserve { value := 10 } :: .plan { value := 10 } { value := 1 } :: setup
    let newer := .applyRegisterTarget { registration with generation := { value := 2 } } :: reserved
    let older := .applyHeartbeat heartbeat :: .applyRegisterTarget registration :: newer
    let generation := fun run => (after { value := 1 } run).targets[
      ({ value := 1 } : NearMemoryTargetId)]?.map (·.generation.value)
    (∀ op ∈ older, !op.loads) ∧ generation newer = some 2 ∧ generation older = some 1 ∧
    (prepareDispatch { value := 10 } { value := 20 } { value := 30 }
      (after { value := 1 } older)).fst.isOk := by
  decide +kernel

end NMC
