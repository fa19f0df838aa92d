import NearMemoryCompute.Execution.Theorems.Resolvable

namespace NMC

open Coordinator

-- The operation has answered with an error, or it is a planning that has created no plan.
def Outcome.refused : Outcome → Bool
  | unit res | dispatch res | result res => !res.isOk
  | plan (.ok out)                       => !out.created
  | plan (.error _)                      => true

-- The answer to the preparation of a plan that is no longer pinned to the live state.
def Outcome.stale : Outcome → Bool
  | dispatch (.error e) => e.code = "E_STALE_PLAN"
  | _                   => false

namespace RuntimeState

variable (st : RuntimeState)

-- Nothing has changed, except that a target may have got an entry which reserves nothing.
inductive Untouched : RuntimeState → Prop
  | same : Untouched st
  | entry {t} :
    t ∉ st.reservations → Untouched { st with reservations := st.reservations.insert t {} }

-- What an operation that is refused can leave behind. A stale plan is superseded, and a target
-- which has a runtime and no definition gets the default definition by being looked up.
inductive Refused : Op → Outcome → RuntimeState → Prop
  | untouched {op out st'} :
    !out.stale → st.Untouched st' → Refused op out st'
  | defaulted {p plan out st'} :
    !out.stale → st.plans[p]? = some plan → plan.target ∈ st.targetRuntime →
    plan.target ∉ st.targets →
    Untouched { st with targets := st.targets.insert plan.target {} } st' →
    Refused (.reserve p) out st'
  | superseded {p did aid plan out} :
    out.stale → st.plans[p]? = some plan → plan.lifecycle = .reserved →
    Refused (.prepareDispatch p did aid) out (st.setPlan p { plan with lifecycle := .superseded })

theorem Refused.unchanged {op : Op} {out : Outcome} {st' : RuntimeState} (ho : !out.stale)
    (hs : st' = st) : st.Refused op out st' :=
  .untouched ho (hs ▸ .same)

theorem untouched_subscript (t : NearMemoryTargetId) :
    st.Untouched { st with reservations := (Table.subscript st.reservations t).snd } := by
  by_cases h : t ∈ st.reservations
  case pos =>
    have ⟨_, hr⟩ := Table.exists_of_mem h
    rw [Table.subscript_snd_of_some _ _ hr]
    exact .same
  case neg =>
    rw [Table.subscript_snd_of_notMem _ _ h]
    exact .entry h

-- The two lookups that precede the checks of `reserve`.
theorem refused_subscript {p : ExecutionPlanId} {plan : ExecutionPlan} {e : Error}
    (hp : st.plans[p]? = some plan) (h : plan.target ∈ st.targetRuntime) :
    st.Refused (.reserve p) (.unit (.error e)) { st with
      targets      := (Table.subscript st.targets plan.target).snd
      reservations := (Table.subscript st.reservations plan.target).snd } := by
  by_cases ht : plan.target ∈ st.targets
  case pos =>
    have ⟨_, hd⟩ := Table.exists_of_mem ht
    rw [Table.subscript_snd_of_some _ _ hd]
    exact .untouched rfl (st.untouched_subscript plan.target)
  case neg =>
    rw [Table.subscript_snd_of_notMem _ _ ht]
    exact .defaulted rfl hp h ht <|
      untouched_subscript { st with targets := st.targets.insert plan.target {} } plan.target

end RuntimeState

-- Whenever the operation fails, it leaves the state as it is.
def Action.Atomic {α : Type} (action : Action α) : Prop :=
  ∀ ⦃st⦄, !(action st).fst.isOk → (action st).snd = st

namespace Coordinator

theorem registerEntry_refused {null duplicate : Bool} {nullText duplicateText : String}
    {st registered : RuntimeState}
    (h : !(registerEntry null nullText duplicate duplicateText registered st).fst.isOk) :
    (registerEntry null nullText duplicate duplicateText registered st).snd = st := by
  simp only [registerEntry] at h ⊢
  split_ifs at h ⊢
  case neg => contradiction
  all_goals rfl

theorem registerPolicy_atomic (pl : Policy) : (registerPolicy pl).Atomic := by
  intro st h
  simp only [registerPolicy] at h ⊢
  split_ifs at h ⊢
  case neg => contradiction
  all_goals rfl

theorem applyRegisterTarget_atomic (msg : RegisterTargetMsg) :
    (applyRegisterTarget msg).Atomic := by
  intro st h
  simp only [applyRegisterTarget] at h ⊢
  split_ifs at h ⊢
  case pos => rfl
  case neg => contradiction

theorem applyCapability_atomic (eid : EvidenceId) (cid : ℕ → CapabilityId) (msg : CapabilityMsg) :
    (applyCapability eid cid msg).Atomic := by
  intro st h
  simp only [applyCapability] at h ⊢
  split_ifs at h ⊢
  case pos => rfl
  case neg =>
    split at h
    case h_1 => rfl
    case h_2 => contradiction

theorem applyDataEvidence_atomic (msg : DataEvidenceMsg) : (applyDataEvidence msg).Atomic := by
  intro st h
  simp only [applyDataEvidence] at h ⊢
  split_ifs at h ⊢
  case pos => rfl
  case neg => contradiction

theorem applyHeartbeat_atomic (msg : HeartbeatMsg) : (applyHeartbeat msg).Atomic := by
  intro st h
  simp only [applyHeartbeat] at h ⊢
  split at h
  case h_1 => rfl
  case h_2 =>
    split_ifs at h ⊢
    case pos => rfl
    case neg => contradiction

theorem confirmDispatched_atomic (p : ExecutionPlanId) (did : DispatchId) :
    (confirmDispatched p did).Atomic := by
  intro st h
  simp only [confirmDispatched] at h ⊢
  split at h
  case h_1 => rfl
  case h_2 =>
    split_ifs at h ⊢
    case neg => contradiction
    all_goals rfl

-- A completion that has passed its checks is always recorded.
theorem applyResult_atomic (id : ResultId) (msg : ResultMsg) : (applyResult id msg).Atomic := by
  intro st h
  simp only [applyResult] at h ⊢
  split at h
  case h_1 => rfl
  case h_2 =>
    split at h
    case h_1 => rfl
    case h_2 => split_ifs at h <;> contradiction

theorem beginDrain_atomic (t : NearMemoryTargetId) : (beginDrain t).Atomic := by
  intro st h
  simp only [beginDrain] at h ⊢
  split at h
  case h_1 => rfl
  case h_2 =>
    split_ifs at h ⊢
    case pos => rfl
    case neg => contradiction

theorem cancelPlan_atomic (p : ExecutionPlanId) : (cancelPlan p).Atomic := by
  intro st h
  simp only [cancelPlan] at h ⊢
  split at h
  case h_1 => rfl
  case h_2 =>
    split_ifs at h ⊢
    case pos => rfl
    case neg => contradiction

theorem retireTarget_atomic (t : NearMemoryTargetId) : (retireTarget t).Atomic := by
  intro st h
  simp only [retireTarget] at h ⊢
  split at h
  case h_1 => rfl
  case h_2 => contradiction

-- A file is decoded as a whole before any of it is taken over.
theorem load_atomic (file : File) : (load file).Atomic := by
  intro st h
  simp only [load] at h ⊢
  split at h
  case h_1 => rfl
  case h_2 => contradiction

section Exceptions

variable {st : RuntimeState}

theorem plan_refused [Platform] {id : ExecutionPlanId} {o : OperationId}
    (h : (Outcome.plan (plan id o st).fst).refused) : (plan id o st).snd = st := by
  cases plan_cases id o st
  case inl hn => exact hn.1
  case inr hc =>
    have ⟨sel, out, _, hp, hs⟩ := hc
    simp [hs, Outcome.refused, hp.1] at h

theorem reserve_refused {p : ExecutionPlanId} (h : !(reserve p st).fst.isOk) :
    st.Refused (.reserve p) (.unit (reserve p st).fst) (reserve p st).snd := by
  simp only [reserve] at h ⊢
  split at h
  case h_1 => exact .unchanged _ rfl rfl
  case h_2 plan hp =>
    by_cases hl : plan.lifecycle ≠ .planned
    case pos =>
      rw [if_pos hl]
      exact .unchanged _ rfl rfl
    case neg =>
      rw [if_neg hl] at h ⊢
      split at h
      case h_1 => exact .unchanged _ rfl rfl
      case h_2 trt ht =>
        split_ifs at h ⊢
        case neg => contradiction
        all_goals exact st.refused_subscript hp (Table.mem_of_some ht)

-- Preparing a dispatch is the one operation that acts on a plan and fails.
theorem prepareDispatch_refused {p : ExecutionPlanId} {did : DispatchId} {aid : AttemptId}
    (h : !(prepareDispatch p did aid st).fst.isOk) :
    st.Refused (.prepareDispatch p did aid) (.dispatch (prepareDispatch p did aid st).fst)
      (prepareDispatch p did aid st).snd := by
  simp only [prepareDispatch] at h ⊢
  split at h
  case h_1 => exact .unchanged _ rfl rfl
  case h_2 plan hp =>
    by_cases hl : plan.lifecycle ≠ .reserved
    case pos =>
      rw [if_pos hl]
      exact .unchanged _ rfl rfl
    case neg =>
      by_cases hs : stalenessLocked st plan ≠ []
      case pos =>
        rw [if_neg hl, if_pos hs]
        exact .superseded rfl hp (not_not.mp hl)
      case neg =>
        rw [if_neg hl, if_neg hs] at h ⊢
        split at h
        case h_1 => exact .unchanged _ rfl rfl
        case h_2 =>
          split at h
          case h_1 => exact .unchanged _ rfl rfl
          case h_2 =>
            split at h
            case h_1 => exact .unchanged _ rfl rfl
            case h_2 => contradiction

end Exceptions

theorem step_refused [Platform] {op : Op} {st : RuntimeState} (h : (step op st).fst.refused) :
    st.Refused op (step op st).fst (step op st).snd := by
  cases op
  case attachCoordinator           => contradiction
  case bindWorkerSession           => contradiction
  case advanceEpoch                => contradiction
  case fenceWorker                 => contradiction
  case onWorkerDisconnected        => contradiction
  case registerMemoryDomain        => exact .unchanged _ rfl (registerEntry_refused h)
  case registerDataset             => exact .unchanged _ rfl (registerEntry_refused h)
  case registerRegion              => exact .unchanged _ rfl (registerEntry_refused h)
  case registerProgram             => exact .unchanged _ rfl (registerEntry_refused h)
  case createOperation             => exact .unchanged _ rfl (registerEntry_refused h)
  case registerPolicy pl           => exact .unchanged _ rfl (registerPolicy_atomic pl h)
  case applyRegisterTarget msg     => exact .unchanged _ rfl (applyRegisterTarget_atomic msg h)
  case applyCapability eid cid msg => exact .unchanged _ rfl (applyCapability_atomic eid cid msg h)
  case applyDataEvidence msg       => exact .unchanged _ rfl (applyDataEvidence_atomic msg h)
  case applyHeartbeat msg          => exact .unchanged _ rfl (applyHeartbeat_atomic msg h)
  case plan id o                   => exact .unchanged _ rfl (plan_refused h)
  case reserve p                   => exact reserve_refused h
  case prepareDispatch p did aid   => exact prepareDispatch_refused h
  case confirmDispatched p did     => exact .unchanged _ rfl (confirmDispatched_atomic p did h)
  case applyResult id msg          => exact .unchanged _ rfl (applyResult_atomic id msg h)
  case beginDrain t                => exact .unchanged _ rfl (beginDrain_atomic t h)
  case cancelPlan p                => exact .unchanged _ rfl (cancelPlan_atomic p h)
  case retireTarget t              => exact .unchanged _ rfl (retireTarget_atomic t h)
  case load file                   => exact .unchanged _ rfl (load_atomic file h)

end Coordinator

-- Live plans have a target that is defined, so on the states of a run no lookup defines one.
theorem untouched_of_refused [Platform] {op : Op} {st : RuntimeState} (hr : Resolvable st)
    (h : (step op st).fst.refused) (hn : !(step op st).fst.stale) :
    st.Untouched (step op st).snd := by
  have hg {p : ExecutionPlanId} (ho : op = .reserve p) :
      (step op st).snd.registry = st.registry := by
    cases ho
    exact hr.reserve_registry p
  have hk := step_refused h
  generalize step op st = next at hn hg hk
  obtain ⟨out, st'⟩ := next
  cases hk
  case untouched hu  => exact hu
  case superseded hs => simp [hs] at hn
  case defaulted plan _ _ ht _ hu =>
    have hg : st'.targets = st.targets := congrArg Registry.targets (hg rfl)
    have hm : plan.target ∈ st'.targets := by cases hu <;> simp
    exact absurd (hg ▸ hm) ht

-- An operation that fails, and a planning that creates no plan, leave the state as it is, up to an
-- entry that reserves nothing. A stale plan is the only exception in the states of a run. In other
-- states, a target can also get the default definition.
theorem refused_untouched [Platform] (op : Op) (st : RuntimeState)
    (h : (step op st).fst.refused) :
    st.Refused op (step op st).fst (step op st).snd ∧
    ∀ cid run, st = after cid run → (step op st).fst.stale ∨ st.Untouched (step op st).snd := by
  refine ⟨step_refused h, ?_⟩
  rintro cid run rfl
  by_cases hn : (step op (after cid run)).fst.stale
  case pos => exact .inl hn
  case neg => exact .inr (untouched_of_refused (resolvable_after cid run) h (by simpa using hn))

open Deployment in
theorem refused_untouched_of_drain :
    let st := after { value := 1 }
      (.beginDrain { value := 1 } :: .plan { value := 10 } { value := 1 } :: setup)
    (step (.reserve { value := 10 }) st).fst.refused ∧
    ({ value := 1 } ∉ st.reservations ∧
      { value := 1 } ∈ (step (.reserve { value := 10 }) st).snd.reservations) ∧
    st.Untouched (step (.reserve { value := 10 }) st).snd := by
  intro st
  have h : (step (.reserve { value := 10 }) st).fst.refused := by decide +kernel
  refine ⟨h, by decide +kernel, ((refused_untouched _ st h).2 _ _ rfl).resolve_left ?_⟩
  decide +kernel

-- A target with a runtime and without a definition, and a plan for it.
def Deployment.undefined : RuntimeState where
  targetRuntime := (∅ : Table _ _).insert { value := 1 } { lifecycle := TargetLifecycle.draining }
  plans         := (∅ : Table _ _).insert { value := 10 }
    { id := { value := 10 }, target := { value := 1 }, lifecycle := .planned }

open Deployment in
theorem reserve_defines_target :
    (reserve { value := 10 } undefined).fst =
      makeError "E_DRAIN" "target not accepting new admission" ∧
    ({ value := 1 } ∉ undefined.targets ∧
      { value := 1 } ∈ (reserve { value := 10 } undefined).snd.targets) ∧
    ¬undefined.Untouched (reserve { value := 10 } undefined).snd := by
  have hn : { value := 1 } ∉ undefined.targets := by decide
  have hm : { value := 1 } ∈ (reserve { value := 10 } undefined).snd.targets := by decide +kernel
  refine ⟨by decide +kernel, ⟨hn, hm⟩, fun hu => ?_⟩
  generalize (reserve { value := 10 } undefined).snd = st' at hm hu
  cases hu <;> exact hn hm

end NMC
