import NearMemoryCompute.Execution.Theorems.Evolution

namespace NMC

open Coordinator

-- What a step can do to the lifecycle of a plan that it neither replaces nor drops.
inductive Moves (st : RuntimeState) (p : ExecutionPlanId) (plan : ExecutionPlan) :
    Op → Outcome → ExecutionLifecycle → Prop
  | stay {op out} :
    Moves st p plan op out plan.lifecycle
  | reserve {out} :
    plan.lifecycle = .planned → Moves st p plan (.reserve p) out .reserved
  | expire {did aid out} :
    plan.lifecycle = .reserved → Moves st p plan (.prepareDispatch p did aid) out .superseded
  | dispatch {did out} :
    plan.lifecycle = .reserved → Moves st p plan (.confirmDispatched p did) out .dispatched
  | lose {id msg out} :
    plan.lifecycle.inFlight → Moves st p plan (.applyResult id msg) out .outcomeUnknown
  | settle {id msg res l} :
    msg.plan = p → plan.lifecycle.inFlight → !msg.unknown →
    Moves st p plan (.applyResult id msg) (.result (.ok res)) l
  | cancel :
    !plan.lifecycle.ended → Moves st p plan (.cancelPlan p) (.unit (.ok ())) .cancelled
  | advance {out} :
    Moves st p plan .advanceEpoch out plan.onEpoch.lifecycle
  | fence {boot out} :
    Moves st p plan (.fenceWorker boot) out (plan.onFence boot).lifecycle
  | disconnect {boot out} :
    Moves st p plan (.onWorkerDisconnected boot) out (plan.onFence boot).lifecycle
  | retire {t out} :
    t ∈ st.targetRuntime → Moves st p plan (.retireTarget t) out (plan.onRetire t).lifecycle

namespace Ledger.Step

variable {st : RuntimeState} {op : Op} {out : Outcome} {l : Ledger} {p : ExecutionPlanId}
         {plan : ExecutionPlan}

theorem moves (h : Step st op out l) (hl : ¬(op.loads ∧ out.succeeded))
    (hn : ∀ o, op ≠ .plan p o) (hp : st.plans[p]? = some plan) :
    ∃ plan', l.plans[p]? = some plan' ∧ Moves st p plan op out plan'.lifecycle := by
  -- A step that replaces one plan moves this one or leaves all others alone.
  have set {q : ExecutionPlanId} {old new : ExecutionPlan} (hq : st.plans[q]? = some old)
      (hm : q = p → old = plan → Moves st p plan op out new.lifecycle) :
      ∃ plan', (st.plans.insert q new)[p]? = some plan' ∧
        Moves st p plan op out plan'.lifecycle := by
    by_cases he : q = p
    case pos =>
      subst he
      rw [hp] at hq
      exact ⟨new, Table.getElem?_insert_self .., hm rfl (Option.some.inj hq).symm⟩
    case neg => exact ⟨plan, by rw [Table.getElem?_insert_ne _ _ he, hp], .stay⟩
  have sweep {f : ExecutionPlan → ExecutionPlan} (hm : Moves st p plan op out (f plan).lifecycle) :
      ∃ plan', (st.plans.map fun _ => f)[p]? = some plan' ∧
        Moves st p plan op out plan'.lifecycle :=
    ⟨f plan, by simp [hp], hm⟩
  cases h
  case idle => exact ⟨plan, hp, .stay⟩
  case plan id o _ _ =>
    have hne : id ≠ p := by
      rintro rfl
      exact hn o rfl
    exact ⟨plan, by rw [← hp]; exact Table.getElem?_insert_ne _ _ hne, .stay⟩
  case reserve adm =>
    refine set adm.plan_eq ?_
    rintro rfl rfl
    exact .reserve adm.planned
  case prepare prep _ =>
    refine set prep.plan_eq ?_
    rintro rfl rfl
    exact .stay
  case supersede hq hr _ =>
    refine set hq ?_
    rintro rfl rfl
    exact .expire hr
  case confirm hq hr _ =>
    refine set hq ?_
    rintro rfl rfl
    exact .dispatch hr
  case ambiguous c _ _ _ _ =>
    refine set c.plan_eq ?_
    rintro rfl rfl
    exact .lose c.accepts.inFlight
  case mismatch c hu _ _ _ _ =>
    refine set c.plan_eq ?_
    rintro rfl rfl
    exact .settle rfl c.accepts.inFlight hu
  case commit c hu _ _ _ _ =>
    refine set c.plan_eq ?_
    rintro rfl rfl
    exact .settle rfl c.accepts.inFlight hu
  case cancel hq he =>
    refine set hq ?_
    rintro rfl rfl
    exact .cancel he
  case advance    => exact sweep .advance
  case fence      => exact sweep .fence
  case disconnect => exact sweep .disconnect
  case retire ht  => exact sweep (.retire (Table.mem_of_some ht))
  case load       => exact absurd ⟨rfl, rfl⟩ hl

end Ledger.Step

-- The plan exists, with the given lifecycle.
def PlanIs (p : ExecutionPlanId) (l : ExecutionLifecycle) (st : RuntimeState) : Prop :=
  ∃ plan, st.plans[p]? = some plan ∧ plan.lifecycle = l

instance {p : ExecutionPlanId} {l : ExecutionLifecycle} : DecidablePred (PlanIs p l) :=
  fun st => inferInstanceAs (Decidable (∃ plan ∈ st.plans[p]?, plan.lifecycle = l))

-- The plan has been sent to a worker, and it is not known what has become of it.
def Ambiguous (p : ExecutionPlanId) (st : RuntimeState) : Prop :=
  PlanIs p .dispatched st ∨ PlanIs p .outcomeUnknown st

theorem planIs_congr {p : ExecutionPlanId} {l l' : ExecutionLifecycle} {st : RuntimeState}
    (h : PlanIs p l st) (h' : PlanIs p l' st) : l = l' := by
  obtain ⟨plan, hp, rfl⟩ := h
  obtain ⟨plan', hp', rfl⟩ := h'
  rw [hp] at hp'
  cases hp'
  rfl

theorem not_planIs_init (cid : CoordinatorId) (p : ExecutionPlanId) (l : ExecutionLifecycle) :
    ¬PlanIs p l (init cid) := by
  intro ⟨plan, hp, _⟩
  simp [init] at hp

namespace ExecutionPlan

variable {plan : ExecutionPlan}

theorem onFence_of_ended {boot : WorkerBootId} (h : plan.lifecycle.ended) :
    plan.onFence boot = plan := by
  simp [onFence, h]

theorem onRetire_of_ended {t : NearMemoryTargetId} (h : plan.lifecycle.ended) :
    plan.onRetire t = plan := by
  simp [onRetire, h]

end ExecutionPlan

-- The operation begins a new epoch, in the given state or in one that it has loaded.
def Op.resets (op : Op) (st st' : RuntimeState) : Prop :=
  match op with
  | advanceEpoch => st' = st
  | load file    => PersistentStore.load file decodeState = .ok st'
  | _            => False

-- A new epoch finds a plan that has failed or been cancelled or fenced.
def Op.rewrites (op : Op) (st : RuntimeState) : Prop :=
  ∃ st', op.resets st st' ∧ ∃ p l, PlanIs p l st' ∧ (l = .failed ∨ l = .cancelled ∨ l = .fenced)

section Reset

variable [Platform] {st st' : RuntimeState} {op : Op} {p : ExecutionPlanId}
         {l : ExecutionLifecycle}

-- A new epoch treats all plans alike, whether they have been loaded or not.
theorem Op.resets_plans (h : op.resets st st') :
    (step op st).snd.plans = st'.plans.map fun _ => ExecutionPlan.onEpoch := by
  cases op <;> try contradiction
  case advanceEpoch =>
    cases h
    rfl
  case load file =>
    have h : PersistentStore.load file decodeState = .ok st' := h
    simp only [step, answer, Coordinator.load, h, RuntimeState.recover_eq]
    rfl

theorem Op.resets_planIs (h : op.resets st st') (hp : PlanIs p l st') :
    PlanIs p (if l = .committed then l else if l.inFlight then .outcomeUnknown else .superseded)
      (step op st).snd := by
  obtain ⟨plan, hp, rfl⟩ := hp
  refine ⟨plan.onEpoch, by simp [Op.resets_plans h, hp], ?_⟩
  unfold ExecutionPlan.onEpoch
  split_ifs <;> rfl

end Reset

-- In every state of the run, the plans that have ended are as they were when they ended, and
-- recovery does not change what is stored about such plans, either.
structure Absorbing [Platform] (cid : CoordinatorId) (run : List Op) : Prop where
  kept : ∀ past, past <:+ run → ∀ p l, l.ended →
    Since (fun e => PlanIs p l e.post) (Done Op.loads) (history cid past) →
    PlanIs p l (after cid past)
  recovered : ∀ file past, .load file :: past <:+ run →
    ∀ loaded, PersistentStore.load file decodeState = .ok loaded →
    ∀ p l, l.ended → PlanIs p l loaded → PlanIs p l (after cid (.load file :: past))

theorem Absorbing.step [Platform] {cid : CoordinatorId} {run past : List Op} {op : Op}
    {p : ExecutionPlanId} {l : ExecutionLifecycle} (ha : Absorbing cid run)
    (hs : op :: past <:+ run) (hl : ¬Done Op.loads (machine.event op (after cid past)))
    (he : l.ended) (hp : PlanIs p l (after cid past)) : PlanIs p l (after cid (op :: past)) :=
  ha.kept _ hs p l he (.later (Machine.since_of_after (not_planIs_init cid p l) hp) hl)

namespace Moves

variable {st : RuntimeState} {p : ExecutionPlanId} {plan : ExecutionPlan} {op : Op} {out : Outcome}
         {l : ExecutionLifecycle}

theorem of_ended (h : Moves st p plan op out l) (hp : st.plans[p]? = some plan)
    (he : plan.lifecycle.ended) (hr : ¬op.rewrites st) : l = plan.lifecycle := by
  have not {l : ExecutionLifecycle} (h : plan.lifecycle = l) (hl : l.ended = false) : False :=
    Bool.false_ne_true (hl.symm.trans (h ▸ he))
  have inFlight (hf : plan.lifecycle.inFlight) : False := by
    cases hl : plan.lifecycle <;> simp_all [ExecutionLifecycle.inFlight, ExecutionLifecycle.ended]
  cases h
  case stay            => rfl
  case reserve h       => exact (not h rfl).elim
  case expire h        => exact (not h rfl).elim
  case dispatch h      => exact (not h rfl).elim
  case lose hf         => exact (inFlight hf).elim
  case settle _ hf _   => exact (inFlight hf).elim
  case cancel h        => simp [he] at h
  case fence           => rw [ExecutionPlan.onFence_of_ended he]
  case disconnect      => rw [ExecutionPlan.onFence_of_ended he]
  case retire          => rw [ExecutionPlan.onRetire_of_ended he]
  case advance =>
    -- Of the plans that have ended, a new epoch leaves alone the committed and superseded ones.
    have hr : ¬(plan.lifecycle = .failed ∨ plan.lifecycle = .cancelled ∨
        plan.lifecycle = .fenced) :=
      fun hl => hr ⟨st, rfl, p, _, ⟨plan, hp, rfl⟩, hl⟩
    unfold ExecutionPlan.onEpoch
    cases hl : plan.lifecycle <;>
      simp_all [ExecutionLifecycle.inFlight, ExecutionLifecycle.ended]

end Moves

section Absorbing

variable [Platform] {st : RuntimeState} {op : Op} {p : ExecutionPlanId} {l : ExecutionLifecycle}

theorem planIs_ended_step (he : l.ended) (hu : op.planIdUnused st) (hr : ¬op.rewrites st)
    (hl : ¬(op.loads ∧ (step op st).fst.succeeded)) (hp : PlanIs p l st) :
    PlanIs p l (step op st).snd := by
  obtain ⟨plan, hq, rfl⟩ := hp
  have hn : ∀ o, op ≠ .plan p o := by
    rintro o rfl
    exact of_decide_eq_true hu (Table.mem_of_some hq)
  have ⟨plan', hq', hm⟩ := (step_refines op st).moves hl hn hq
  exact ⟨plan', hq', hm.of_ended hq he hr⟩

theorem planIs_of_resets (he : l.ended) {st' : RuntimeState} (h : op.resets st st')
    (hr : ¬op.rewrites st) (hp : PlanIs p l st') : PlanIs p l (step op st).snd := by
  have hn : ¬(l = .failed ∨ l = .cancelled ∨ l = .fenced) := fun hl => hr ⟨st', h, p, l, hp, hl⟩
  have hs := Op.resets_planIs h hp
  cases l <;> simp_all [ExecutionLifecycle.inFlight, ExecutionLifecycle.ended]

theorem Op.rewrites_planIs (h : op.rewrites st) : ∃ st', op.resets st st' ∧
    ∃ p l, l.ended ∧ l ≠ .superseded ∧ PlanIs p l st' ∧ PlanIs p .superseded (step op st).snd := by
  obtain ⟨st', hs, p, l, hp, hl⟩ := h
  have hr := Op.resets_planIs hs hp
  refine ⟨st', hs, p, l, ?_⟩
  rcases hl with rfl | rfl | rfl <;> exact ⟨rfl, nofun, hp, hr⟩

-- The lifecycles in which a plan has ended are absorbing in exactly those runs in which no new
-- epoch finds a plan that has failed or been cancelled or fenced.
theorem absorbing_iff (cid : CoordinatorId) (run : List Op)
    (hu : Machine.EachStep (fun past op => op.planIdUnused (after cid past)) run) :
    Absorbing cid run ↔ Machine.EachStep (fun past op => ¬op.rewrites (after cid past)) run := by
  constructor
  case mp =>
    intro ha op past hs hw
    have ⟨st', hr, p, l, he, hne, hp, hp'⟩ := Op.rewrites_planIs hw
    cases op <;> try contradiction
    case advanceEpoch =>
      cases hr
      exact hne (planIs_congr (ha.step hs nofun he hp) hp')
    case load file => exact hne (planIs_congr (ha.recovered file past hs st' hr p l he hp) hp')
  case mpr =>
    intro hr
    have hc : Machine.EachStep (fun past op =>
        op.planIdUnused (after cid past) ∧ ¬op.rewrites (after cid past)) run :=
      fun _ _ hs => ⟨hu hs, hr hs⟩
    constructor
    case kept =>
      intro past hs p l he hsince
      refine Machine.of_since ?_ ?_ (hc.suffix hs) hsince
      · exact fun _ _ _ hp => hp
      · intro h op ⟨hu, hr⟩ _ hq hp
        exact planIs_ended_step he hu hr hq hp
    case recovered =>
      intro file past hs loaded hf p l he hp
      exact planIs_of_resets he hf (hr hs) hp

end Absorbing

open Deployment in
theorem absorbing_of_deployment :
    let run := .fenceWorker { value := 1 } :: .cancelPlan { value := 10 } ::
      .plan { value := 10 } { value := 1 } :: setup
    Absorbing { value := 1 } run ∧
    PlanIs { value := 10 } .cancelled (after { value := 1 } run) := by
  intro run
  have hn : ∀ op ∈ run, ∀ st st', ¬op.resets st st' := by
    simp [run, setup, Op.resets]
  refine ⟨(absorbing_iff _ run (by decide +kernel)).mpr ?_, by decide +kernel⟩
  intro op past hs ⟨st', hr, _⟩
  exact hn op (hs.subset (.head _)) _ _ hr

-- A new epoch reports a plan that was cancelled as superseded.
open Deployment in
theorem cancelled_plan_superseded :
    let past := .cancelPlan { value := 10 } :: .plan { value := 10 } { value := 1 } :: setup
    PlanIs { value := 10 } .cancelled (after { value := 1 } past) ∧
    PlanIs { value := 10 } .superseded (after { value := 1 } (.advanceEpoch :: past)) ∧
    ¬Absorbing { value := 1 } (.advanceEpoch :: past) := by
  intro past
  have hc : PlanIs { value := 10 } .cancelled (after { value := 1 } past) := by decide +kernel
  have hs : PlanIs { value := 10 } .superseded (after { value := 1 } (.advanceEpoch :: past)) := by
    decide +kernel
  refine ⟨hc, hs, fun ha => ?_⟩
  exact absurd (planIs_congr (ha.step (List.suffix_refl _) nofun rfl hc) hs) nofun

-- Completes or cancels the plan, or replaces all plans.
def Op.settles (p : ExecutionPlanId) : Op → Bool
  | applyResult _ msg => msg.plan = p ∧ !msg.unknown
  | cancelPlan q      => q = p
  | load _            => true
  | _                 => false

-- The operation withdraws work of which it is not known whether it has been done.
def Op.erases (op : Op) (st : RuntimeState) : Prop :=
  match op with
  | fenceWorker boot | onWorkerDisconnected boot =>
    ∃ (p : ExecutionPlanId) (plan : ExecutionPlan), st.plans[p]? = some plan ∧
      plan.authority.snapshot.workerBoot = boot ∧ plan.lifecycle = .outcomeUnknown
  | retireTarget t =>
    t ∈ st.targetRuntime ∧ ∃ (p : ExecutionPlanId) (plan : ExecutionPlan),
      st.plans[p]? = some plan ∧ plan.target = t ∧
      (plan.lifecycle = .dispatched ∨ plan.lifecycle = .outcomeUnknown)
  | op => ∃ st', op.resets st st' ∧ ∃ p, PlanIs p .outcomeUnknown st'

-- In every state of the run, a plan that has been sent is still ambiguous unless its completion has
-- arrived or it has been cancelled. Recovery keeps the ambiguity of what is stored, and the loss of
-- a worker that is lost already changes no plan.
structure AmbiguityKept [Platform] (cid : CoordinatorId) (run : List Op) : Prop where
  kept : ∀ past, past <:+ run → ∀ p,
    Since (fun e => Ambiguous p e.post) (Done (Op.settles p)) (history cid past) →
    Ambiguous p (after cid past)
  recovered : ∀ file past, .load file :: past <:+ run →
    ∀ loaded, PersistentStore.load file decodeState = .ok loaded →
    ∀ p, Ambiguous p loaded → Ambiguous p (after cid (.load file :: past))
  fenced : ∀ boot past, .fenceWorker boot :: .fenceWorker boot :: past <:+ run →
    (after cid (.fenceWorker boot :: .fenceWorker boot :: past)).plans =
      (after cid (.fenceWorker boot :: past)).plans
  disconnected : ∀ boot past, .onWorkerDisconnected boot :: .fenceWorker boot :: past <:+ run →
    (after cid (.onWorkerDisconnected boot :: .fenceWorker boot :: past)).plans =
      (after cid (.fenceWorker boot :: past)).plans

theorem not_ambiguous_init (cid : CoordinatorId) (p : ExecutionPlanId) :
    ¬Ambiguous p (init cid) := by
  intro ha
  cases ha
  case inl h => exact not_planIs_init cid p _ h
  case inr h => exact not_planIs_init cid p _ h

theorem PlanIs.not_ambiguous {p : ExecutionPlanId} {l : ExecutionLifecycle} {st : RuntimeState}
    (h : PlanIs p l st) (hd : l ≠ .dispatched) (hu : l ≠ .outcomeUnknown) : ¬Ambiguous p st := by
  intro ha
  cases ha
  case inl h' => exact hd (planIs_congr h h')
  case inr h' => exact hu (planIs_congr h h')

theorem AmbiguityKept.step [Platform] {cid : CoordinatorId} {run past : List Op} {op : Op}
    {p : ExecutionPlanId} (ha : AmbiguityKept cid run) (hs : op :: past <:+ run)
    (hl : ¬Done (Op.settles p) (machine.event op (after cid past)))
    (hp : Ambiguous p (after cid past)) : Ambiguous p (after cid (op :: past)) :=
  ha.kept _ hs p (.later (Machine.since_of_after (not_ambiguous_init cid p) hp) hl)

theorem Moves.of_ambiguous {st : RuntimeState} {p : ExecutionPlanId} {plan : ExecutionPlan}
    {op : Op} {out : Outcome} {l : ExecutionLifecycle} (h : Moves st p plan op out l)
    (hp : st.plans[p]? = some plan)
    (ha : plan.lifecycle = .dispatched ∨ plan.lifecycle = .outcomeUnknown)
    (hs : ¬(op.settles p ∧ out.succeeded)) (he : ¬op.erases st) :
    l = .dispatched ∨ l = .outcomeUnknown := by
  cases h
  case stay      => exact ha
  case reserve h => simp [h] at ha
  case expire h  => simp [h] at ha
  case dispatch  => exact .inl rfl
  case lose      => exact .inr rfl
  case settle hm _ hu => exact absurd ⟨by simp [Op.settles, hm, hu], rfl⟩ hs
  case cancel         => exact absurd ⟨by simp [Op.settles], rfl⟩ hs
  case advance =>
    have hd : plan.lifecycle = .dispatched :=
      ha.resolve_right fun hu => he ⟨st, rfl, p, plan, hp, hu⟩
    simp [ExecutionPlan.onEpoch, hd, ExecutionLifecycle.inFlight]
  case retire t ht =>
    have hne : plan.target ≠ t := fun h => he ⟨ht, p, plan, hp, h, ha⟩
    simpa [ExecutionPlan.onRetire, hne] using ha
  all_goals
    unfold ExecutionPlan.onFence
    split
    case isFalse => exact ha
    case isTrue h =>
      have hd : plan.lifecycle = .dispatched :=
        ha.resolve_right fun hu => he ⟨p, plan, hp, h.1, hu⟩
      simp [hd, ExecutionLifecycle.inFlight]

-- The loss of a worker that is lost already changes no plan of which the outcome is known.
theorem map_onFence_eq {boot : WorkerBootId} {plans : Table ExecutionPlanId ExecutionPlan}
    (h : ∀ (p : ExecutionPlanId) (plan : ExecutionPlan),
      (plans.map fun _ => ExecutionPlan.onFence boot)[p]? = some plan →
      plan.authority.snapshot.workerBoot = boot → plan.lifecycle ≠ .outcomeUnknown) :
    ((plans.map fun _ => ExecutionPlan.onFence boot).map fun _ => ExecutionPlan.onFence boot) =
      plans.map fun _ => ExecutionPlan.onFence boot := by
  apply Table.map_eq_self
  intro p plan' hp
  have hn := h p plan' hp
  obtain ⟨plan, _, rfl⟩ := Table.getElem?_map_eq_some hp
  by_cases hb : plan.authority.snapshot.workerBoot = boot ∧ !plan.lifecycle.ended
  case neg =>
    have hs : plan.onFence boot = plan := if_neg hb
    rw [hs, hs]
  case pos =>
    apply ExecutionPlan.onFence_of_ended
    simp only [ExecutionPlan.onFence, if_pos hb] at hn ⊢
    split_ifs at hn ⊢
    case pos => exact absurd rfl (hn hb.1)
    case neg => rfl

section Fenced

variable {st st' : RuntimeState} {p : ExecutionPlanId} {plan : ExecutionPlan}

theorem planIs_fenced {boot : WorkerBootId}
    (hs : st'.plans = st.plans.map fun _ => ExecutionPlan.onFence boot)
    (hp : st.plans[p]? = some plan) (hb : plan.authority.snapshot.workerBoot = boot)
    (hl : plan.lifecycle = .outcomeUnknown) : PlanIs p .fenced st' := by
  refine ⟨plan.onFence boot, by simp [hs, hp], ?_⟩
  simp [ExecutionPlan.onFence, hb, hl, ExecutionLifecycle.ended, ExecutionLifecycle.inFlight]

theorem planIs_retired {t : NearMemoryTargetId} (ht : t ∈ st.targetRuntime)
    (hp : st.plans[p]? = some plan) (hpt : plan.target = t)
    (hl : plan.lifecycle = .dispatched ∨ plan.lifecycle = .outcomeUnknown) :
    PlanIs p .fenced (retireTarget t st).snd := by
  have ⟨trt, ht⟩ := Table.exists_of_mem ht
  have he : plan.lifecycle.ended = false := by
    rcases hl with hl | hl <;> simp [hl, ExecutionLifecycle.ended]
  refine ⟨plan.onRetire t, ?_, by simp [ExecutionPlan.onRetire, hpt, he]⟩
  simp [retireTarget, ht, RuntimeState.rebuildActivePlans, hp]

end Fenced

section Ambiguity

variable [Platform] {st : RuntimeState} {op : Op} {p : ExecutionPlanId}

theorem ambiguous_step (hu : op.planIdUnused st) (he : ¬op.erases st)
    (hs : ¬(op.settles p ∧ (step op st).fst.succeeded)) (ha : Ambiguous p st) :
    Ambiguous p (step op st).snd := by
  have ⟨plan, hq, ha⟩ : ∃ plan, st.plans[p]? = some plan ∧
      (plan.lifecycle = .dispatched ∨ plan.lifecycle = .outcomeUnknown) := by
    rcases ha with ⟨plan, hq, hl⟩ | ⟨plan, hq, hl⟩
    · exact ⟨plan, hq, .inl hl⟩
    · exact ⟨plan, hq, .inr hl⟩
  have hn : ∀ o, op ≠ .plan p o := by
    rintro o rfl
    exact of_decide_eq_true hu (Table.mem_of_some hq)
  have hl : ¬(op.loads ∧ (Coordinator.step op st).fst.succeeded) := by
    intro ⟨hl, hok⟩
    refine hs ⟨?_, hok⟩
    cases op <;> first | rfl | contradiction
  have ⟨plan', hq', hm⟩ := (step_refines op st).moves hl hn hq
  cases hm.of_ambiguous hq ha hs he
  case inl h => exact .inl ⟨plan', hq', h⟩
  case inr h => exact .inr ⟨plan', hq', h⟩

theorem ambiguous_of_resets {st' : RuntimeState} (h : op.resets st st') (he : ¬op.erases st)
    (ha : Ambiguous p st') : Ambiguous p (step op st).snd := by
  have hn : ¬PlanIs p .outcomeUnknown st' := by
    intro hu
    cases op <;> first | contradiction | exact he ⟨st', h, p, hu⟩
  exact .inr (Op.resets_planIs h (ha.resolve_right hn))

-- An operation that erases ambiguity does so in the state that it finds or in the one it loads.
theorem Op.erases_planIs (h : op.erases st) :
    (∃ p, op.settles p = false ∧ Ambiguous p st ∧ ∃ l, PlanIs p l (step op st).snd ∧
      (l = .fenced ∨ l = .superseded)) ∨
    (∃ file loaded, op = .load file ∧ PersistentStore.load file decodeState = .ok loaded ∧
      ∃ p, PlanIs p .outcomeUnknown loaded ∧ PlanIs p .superseded (step op st).snd) := by
  cases op
  case fenceWorker boot =>
    obtain ⟨p, plan, hp, hb, hl⟩ := h
    exact .inl ⟨p, rfl, .inr ⟨plan, hp, hl⟩, .fenced, planIs_fenced rfl hp hb hl, .inl rfl⟩
  case onWorkerDisconnected boot =>
    obtain ⟨p, plan, hp, hb, hl⟩ := h
    exact .inl ⟨p, rfl, .inr ⟨plan, hp, hl⟩, .fenced, planIs_fenced rfl hp hb hl, .inl rfl⟩
  case retireTarget t =>
    obtain ⟨ht, p, plan, hp, hpt, hl⟩ := h
    refine .inl ⟨p, rfl, ?_, .fenced, planIs_retired ht hp hpt hl, .inl rfl⟩
    cases hl
    case inl hl => exact .inl ⟨plan, hp, hl⟩
    case inr hl => exact .inr ⟨plan, hp, hl⟩
  case advanceEpoch =>
    obtain ⟨st', hr, p, hp⟩ := h
    have hs := Op.resets_planIs hr hp
    cases hr
    exact .inl ⟨p, rfl, .inr hp, .superseded, hs, .inr rfl⟩
  case load file =>
    obtain ⟨st', hr, p, hp⟩ := h
    exact .inr ⟨file, st', rfl, hr, p, hp, Op.resets_planIs hr hp⟩
  all_goals
    obtain ⟨_, hr, _⟩ := h
    exact hr.elim

-- Ambiguity is kept in exactly those runs in which no target with such work is retired, no worker
-- with work of unknown outcome is lost, and no new epoch finds such work.
theorem ambiguityKept_iff (cid : CoordinatorId) (run : List Op)
    (hu : Machine.EachStep (fun past op => op.planIdUnused (after cid past)) run) :
    AmbiguityKept cid run ↔
    Machine.EachStep (fun past op => ¬op.erases (after cid past)) run := by
  constructor
  case mp =>
    intro ha op past hs he
    rcases Op.erases_planIs he with ⟨p, hn, hp, l, hp', hl⟩ | ⟨file, loaded, rfl, hf, p, hp, hp'⟩
    · have hk := ha.step hs (fun hd => Bool.false_ne_true (hn.symm.trans hd.1)) hp
      rcases hl with rfl | rfl <;> exact hp'.not_ambiguous nofun nofun hk
    · exact hp'.not_ambiguous nofun nofun (ha.recovered file past hs loaded hf p (.inr hp))
  case mpr =>
    intro he
    have hc : Machine.EachStep (fun past op =>
        op.planIdUnused (after cid past) ∧ ¬op.erases (after cid past)) run :=
      fun _ _ hs => ⟨hu hs, he hs⟩
    constructor
    case kept =>
      intro past hs p hsince
      refine Machine.of_since ?_ ?_ (hc.suffix hs) hsince
      · exact fun _ _ _ hp => hp
      · intro h op ⟨hu, he⟩ _ hq hp
        exact ambiguous_step hu he hq hp
    case recovered =>
      intro file past hs loaded hf p hp
      exact ambiguous_of_resets hf (he hs) hp
    case fenced =>
      intro boot past hs
      exact map_onFence_eq fun p plan hp hb hl => he hs ⟨p, plan, hp, hb, hl⟩
    case disconnected =>
      intro boot past hs
      exact map_onFence_eq fun p plan hp hb hl => he hs ⟨p, plan, hp, hb, hl⟩

end Ambiguity

open Deployment in
theorem ambiguityKept_of_deployment :
    let run := .fenceWorker { value := 1 } :: dispatch ++ setup
    AmbiguityKept { value := 1 } run ∧
    PlanIs { value := 10 } .outcomeUnknown (after { value := 1 } run) := by
  intro run
  have hn : ∀ op ∈ dispatch ++ setup, ∀ st, ¬op.erases st := by
    simp [dispatch, setup, Op.erases, Op.resets]
  have hf : ∀ e ∈ (after { value := 1 } (dispatch ++ setup)).plans.toList,
      e.snd.lifecycle ≠ .outcomeUnknown := by
    decide +kernel
  refine ⟨(ambiguityKept_iff _ run (by decide +kernel)).mpr ?_, by decide +kernel⟩
  refine Machine.eachStep_cons.mpr ⟨?_, fun op past hs => hn op (hs.subset (.head _)) _⟩
  intro ⟨p, plan, hp, _, hl⟩
  exact hf (p, plan) (Std.ExtTreeMap.mem_toList_iff_getElem?_eq_some.mpr hp) hl

-- Fencing a worker twice reports work of unknown outcome as fenced.
open Deployment in
theorem fenced_twice :
    let past := .fenceWorker { value := 1 } :: dispatch ++ setup
    PlanIs { value := 10 } .outcomeUnknown (after { value := 1 } past) ∧
    PlanIs { value := 10 } .fenced (after { value := 1 } (.fenceWorker { value := 1 } :: past)) ∧
    ¬AmbiguityKept { value := 1 } (.fenceWorker { value := 1 } :: past) := by
  intro past
  have ho : PlanIs { value := 10 } .outcomeUnknown (after { value := 1 } past) := by
    decide +kernel
  have hf : PlanIs { value := 10 } .fenced
      (after { value := 1 } (.fenceWorker { value := 1 } :: past)) := by
    decide +kernel
  refine ⟨ho, hf, fun ha => ?_⟩
  exact hf.not_ambiguous nofun nofun (ha.step (List.suffix_refl _) nofun (.inr ho))

end NMC
