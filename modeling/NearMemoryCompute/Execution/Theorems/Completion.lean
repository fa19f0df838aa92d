import NearMemoryCompute.Execution.Theorems.Evolution

namespace NMC

open Coordinator

-- Each plan has at most one result, and it has one that is committed exactly if it is committed.
structure SingleCompletion (st : RuntimeState) : Prop where
  unique : ∀ ⦃r₁ r₂ : ResultId⦄ ⦃res₁ res₂ : ExecutionResult⦄,
    st.results[r₁]? = some res₁ → st.results[r₂]? = some res₂ → res₁.plan = res₂.plan → r₁ = r₂
  committed_iff : ∀ p : ExecutionPlanId,
    (∃ plan, st.plans[p]? = some plan ∧ plan.lifecycle = .committed) ↔
    (∃ (r : ResultId) (res : ExecutionResult),
      st.results[r]? = some res ∧ res.plan = p ∧ res.committed)

-- The invariant behind single completion: what has a result can not be completed again.
structure Settled (plans : Table ExecutionPlanId ExecutionPlan)
    (results : Table ResultId ExecutionResult) : Prop where
  unique : ∀ ⦃r₁ r₂ : ResultId⦄ ⦃res₁ res₂ : ExecutionResult⦄,
    results[r₁]? = some res₁ → results[r₂]? = some res₂ → res₁.plan = res₂.plan → r₁ = r₂
  settled : ∀ ⦃r : ResultId⦄ ⦃res : ExecutionResult⦄, results[r]? = some res →
    ∃ plan, plans[res.plan]? = some plan ∧ plan.lifecycle.dead ∧
      (res.committed ↔ plan.lifecycle = .committed)
  certified : ∀ ⦃p : ExecutionPlanId⦄ ⦃plan : ExecutionPlan⦄, plans[p]? = some plan →
    plan.lifecycle = .committed →
    ∃ (r : ResultId) (res : ExecutionResult), results[r]? = some res ∧ res.plan = p ∧ res.committed

namespace Settled

variable {plans : Table ExecutionPlanId ExecutionPlan} {results : Table ResultId ExecutionResult}
         {p : ExecutionPlanId} {plan : ExecutionPlan}

theorem empty : Settled ∅ ∅ where
  unique    _ _ _ _ h := by simp at h
  settled   _ _ h     := by simp at h
  certified _ _ h     := by simp at h

-- Changing the plans one by one, without committing any of them.
theorem evolve (hs : Settled plans results) {plans' : Table ExecutionPlanId ExecutionPlan}
    (hn : ∀ ⦃p : ExecutionPlanId⦄ ⦃plan : ExecutionPlan⦄, plans[p]? = some plan →
      ∃ plan' : ExecutionPlan, plans'[p]? = some plan' ∧ plan.lifecycle.Next plan'.lifecycle)
    (hc : ∀ ⦃p : ExecutionPlanId⦄ ⦃plan' : ExecutionPlan⦄, plans'[p]? = some plan' →
      plan'.lifecycle = .committed → ∃ plan : ExecutionPlan,
        plans[p]? = some plan ∧ plan.lifecycle = .committed) : Settled plans' results where
  unique := hs.unique
  settled r res hr := by
    have ⟨plan, hp, hd, hcr⟩ := hs.settled hr
    have ⟨plan', hp', hn'⟩ := hn hp
    refine ⟨plan', hp', hn'.dead hd, ?_⟩
    rw [hcr]
    constructor
    case mp =>
      intro h
      exact (h ▸ hn').of_committed
    case mpr =>
      intro h
      have ⟨_, hq, hl⟩ := hc hp' h
      rw [hp] at hq
      exact Option.some.inj hq ▸ hl
  certified p plan' hp' hl := by
    have ⟨_, hp, hl⟩ := hc hp' hl
    exact hs.certified hp hl

theorem insert (hs : Settled plans results) (hp : plans[p]? = some plan) {new : ExecutionPlan}
    (hn : plan.lifecycle.Next new.lifecycle)
    (hc : new.lifecycle = .committed → plan.lifecycle = .committed) :
    Settled (plans.insert p new) results := by
  refine hs.evolve ?_ ?_
  · intro q plan' hq
    by_cases h : p = q
    case pos =>
      subst h
      rw [hp] at hq
      exact ⟨new, by simp, Option.some.inj hq ▸ hn⟩
    case neg => exact ⟨plan', by rw [Table.getElem?_insert_ne _ _ h, hq], .stay⟩
  · intro q plan' hq hl
    rcases Table.getElem?_insert_eq_some hq with ⟨rfl, rfl⟩ | ⟨_, hq⟩
    · exact ⟨plan, hp, hc hl⟩
    · exact ⟨plan', hq, hl⟩

theorem create (hs : Settled plans results) (hp : p ∉ plans) (hl : plan.lifecycle ≠ .committed) :
    Settled (plans.insert p plan) results := by
  have hn : plans[p]? = none := Std.ExtTreeMap.getElem?_eq_none hp
  refine hs.evolve ?_ ?_
  · intro q plan' hq
    have h : p ≠ q := by
      rintro rfl
      simp [hn] at hq
    exact ⟨plan', by rw [Table.getElem?_insert_ne _ _ h, hq], .stay⟩
  · intro q plan' hq hc
    rcases Table.getElem?_insert_eq_some hq with ⟨rfl, rfl⟩ | ⟨_, hq⟩
    · exact absurd hc hl
    · exact ⟨plan', hq, hc⟩

theorem map (hs : Settled plans results) {f : ExecutionPlan → ExecutionPlan}
    (hf : ∀ plan : ExecutionPlan, plan.Swept (f plan)) :
    Settled (plans.map fun _ => f) results := by
  refine hs.evolve ?_ ?_
  · intro p plan hp
    exact ⟨f plan, by simp [hp], (hf plan).evolves.lifecycle⟩
  · intro p plan' hp hl
    obtain ⟨plan, hq, rfl⟩ := Table.getElem?_map_eq_some hp
    exact ⟨plan, hq, (hf plan).committed hl⟩

-- A completion arrives for a plan that is in flight and hence has no result yet.
theorem complete (hs : Settled plans results) (hp : plans[p]? = some plan)
    (hf : plan.lifecycle.inFlight) {new : ExecutionPlan} (hd : new.lifecycle.dead)
    {res : ExecutionResult}
    (hr : res.id ∉ results) (hrp : res.plan = p)
    (hc : res.committed ↔ new.lifecycle = .committed) :
    Settled (plans.insert p new) (results.insert res.id res) := by
  have fresh {r : ResultId} {res' : ExecutionResult} (hr' : results[r]? = some res') :
      res'.plan ≠ p := by
    rintro rfl
    have ⟨plan', hp', hd', _⟩ := hs.settled hr'
    rw [hp] at hp'
    cases hp'
    simp [ExecutionLifecycle.dead, hf] at hd'
  -- A result that is found afterwards is the new one or an old one of another plan.
  have find {r : ResultId} {res' : ExecutionResult}
      (h : (results.insert res.id res)[r]? = some res') :
      (r = res.id ∧ res' = res) ∨ (res'.plan ≠ p ∧ results[r]? = some res') := by
    rcases Table.getElem?_insert_eq_some h with ⟨rfl, rfl⟩ | ⟨_, h⟩
    · exact .inl ⟨rfl, rfl⟩
    · exact .inr ⟨fresh h, h⟩
  constructor
  case unique =>
    intro r₁ r₂ res₁ res₂ h₁ h₂ he
    rcases find h₁ with ⟨rfl, rfl⟩ | ⟨hn₁, h₁⟩ <;> rcases find h₂ with ⟨rfl, rfl⟩ | ⟨hn₂, h₂⟩
    · rfl
    · exact absurd (he ▸ hrp) hn₂
    · exact absurd (he ▸ hrp) hn₁
    · exact hs.unique h₁ h₂ he
  case settled =>
    intro r res' h
    rcases find h with ⟨rfl, rfl⟩ | ⟨hn, h⟩
    · exact ⟨new, by simp [hrp], hd, hc⟩
    · obtain ⟨plan', hp', hd', hc'⟩ := hs.settled h
      exact ⟨plan', by rw [Table.getElem?_insert_ne _ _ (Ne.symm hn), hp'], hd', hc'⟩
  case certified =>
    intro q plan' hq hl
    rcases Table.getElem?_insert_eq_some hq with ⟨rfl, rfl⟩ | ⟨_, hq⟩
    · exact ⟨res.id, res, by simp, hrp, hc.mpr hl⟩
    · obtain ⟨r, res', hr', hrq, hcr⟩ := hs.certified hq hl
      have hk : res.id ≠ r := by
        rintro rfl
        simp [Std.ExtTreeMap.getElem?_eq_none hr] at hr'
      exact ⟨r, res', by rw [Table.getElem?_insert_ne _ _ hk, hr'], hrq, hcr⟩

variable {st : RuntimeState} {op : Op} {out : Outcome} {l : Ledger}

open ExecutionPlan in
theorem step (h : Ledger.Step st op out l) (hl : op.loads = false)
    (hup : op.planIdUnused st) (hur : op.resultIdUnused st) (hs : Settled st.plans st.results) :
    Settled l.plans l.results := by
  cases h
  case idle                => exact hs
  case plan sel            => exact hs.create (of_decide_eq_true hup) nofun
  case reserve adm         => exact hs.insert adm.plan_eq (adm.planned ▸ .reserve) nofun
  case prepare prep _      => exact hs.insert prep.plan_eq .stay id
  case supersede hp hr _   => exact hs.insert hp (.withdraw (by simp [hr]) (.inr (.inl rfl))) nofun
  case confirm hp hr _     => exact hs.insert hp (hr ▸ .dispatch) nofun
  case ambiguous c _ hi hp hc =>
    subst hi
    exact hs.complete c.plan_eq c.accepts.inFlight rfl (of_decide_eq_true hur) hp (by simp [hc])
  case mismatch c _ _ hi hp hc =>
    subst hi
    exact hs.complete c.plan_eq c.accepts.inFlight rfl (of_decide_eq_true hur) hp (by simp [hc])
  case commit c _ _ hi hp hc =>
    subst hi
    exact hs.complete c.plan_eq c.accepts.inFlight rfl (of_decide_eq_true hur) hp (by simp [hc])
  case cancel hp he =>
    refine hs.insert hp (.withdraw ?_ (.inl rfl)) nofun
    rintro hc
    simp [hc, ExecutionLifecycle.ended] at he
  case advance             => exact hs.map fun _ => swept_onEpoch
  case fence               => exact hs.map fun _ => swept_onFence
  case disconnect          => exact hs.map fun _ => swept_onFence
  case retire              => exact hs.map fun _ => swept_onRetire
  case load                => contradiction

theorem singleCompletion (hs : Settled st.plans st.results) : SingleCompletion st where
  unique := hs.unique
  committed_iff p := by
    constructor
    case mp =>
      intro ⟨plan, hp, hl⟩
      exact hs.certified hp hl
    case mpr =>
      intro ⟨r, res, hr, hrp, hc⟩
      have ⟨plan, hp, _, hcr⟩ := hs.settled hr
      exact ⟨plan, hrp ▸ hp, hcr.mp hc⟩

end Settled

-- The plan is committed, with the given result.
structure CommittedAs (p : ExecutionPlanId) (r : ResultId) (res : ExecutionResult)
    (plans : Table ExecutionPlanId ExecutionPlan) (results : Table ResultId ExecutionResult) :
    Prop where
  plan   : ∃ plan, plans[p]? = some plan ∧ plan.lifecycle = .committed
  result : results[r]? = some res ∧ res.plan = p

-- Neither a committed plan nor its result changes afterwards.
theorem CommittedAs.step {st : RuntimeState} {op : Op} {out : Outcome} {l : Ledger}
    {p : ExecutionPlanId} {r : ResultId} {res : ExecutionResult} (h : Ledger.Step st op out l)
    (hl : op.loads = false) (hup : op.planIdUnused st) (hur : op.resultIdUnused st)
    (hc : CommittedAs p r res st.plans st.results) : CommittedAs p r res l.plans l.results := by
  obtain ⟨⟨plan, hp, hc⟩, hr, hrp⟩ := hc
  constructor
  case plan =>
    have hn : ∀ o, op ≠ .plan p o := by
      rintro o rfl
      exact of_decide_eq_true hup (Table.mem_of_some hp)
    have ⟨plan', hp', he⟩ := h.evolves (by simp [hl]) hn hp
    exact ⟨plan', hp', (hc ▸ he.lifecycle).of_committed⟩
  case result =>
    refine ⟨?_, hrp⟩
    -- A new result is stored under an identity that is not in use.
    have keep {new : ExecutionResult} (hn : new.id ∉ st.results) :
        (st.results.insert new.id new)[r]? = some res := by
      rw [Table.getElem?_insert_ne, hr]
      rintro rfl
      simp [Std.ExtTreeMap.getElem?_eq_none hn] at hr
    cases h
    case ambiguous hi _ _ => exact keep (hi ▸ of_decide_eq_true hur)
    case mismatch hi _ _  => exact keep (hi ▸ of_decide_eq_true hur)
    case commit hi _ _    => exact keep (hi ▸ of_decide_eq_true hur)
    case load             => contradiction
    all_goals exact hr

-- Recovery commits nothing and forgets no commit.
theorem SingleCompletion.recover {st : RuntimeState} (hs : SingleCompletion st) :
    SingleCompletion st.recover where
  unique := hs.unique
  committed_iff p := by
    rw [RuntimeState.recover_eq]
    refine Iff.trans ?_ (hs.committed_iff p)
    constructor
    case mp =>
      intro ⟨plan', hp, hl⟩
      obtain ⟨plan, hq, rfl⟩ := Table.getElem?_map_eq_some hp
      exact ⟨plan, hq, ExecutionPlan.swept_onEpoch.committed hl⟩
    case mpr =>
      intro ⟨plan, hp, hl⟩
      refine ⟨plan.onEpoch, ?_, by simp [ExecutionPlan.onEpoch, hl]⟩
      simp [RuntimeState.nextEpoch, RuntimeState.rebuildActivePlans, hp]

section

variable [Platform] {cid : CoordinatorId} {run : List Op}

-- In every step of the run, the identities that the operation draws are not in use.
abbrev UnusedIds (cid : CoordinatorId) (run : List Op) : Prop :=
  Machine.EachStep (fun past op =>
    op.planIdUnused (after cid past) ∧ op.resultIdUnused (after cid past)) run

theorem UnusedIds.and_not_load (hu : UnusedIds cid run) (hl : ∀ file, Op.load file ∉ run) :
    Machine.EachStep (fun past op => (op.planIdUnused (after cid past) ∧
      op.resultIdUnused (after cid past)) ∧ op.loads = false) run := by
  intro op past hs
  refine ⟨hu hs, ?_⟩
  cases op <;> try rfl
  case load file => exact absurd (hs.subset (.head _)) (hl file)

theorem settled_after (hl : ∀ file, Op.load file ∉ run) (hu : UnusedIds cid run) :
    Settled (after cid run).plans (after cid run).results := by
  refine machine.invariant_of_eachStep _ (I := fun _ st => Settled st.plans st.results) .empty ?_
    (hu.and_not_load hl)
  intro past op ⟨⟨hup, hur⟩, hl⟩ hs
  exact .step (step_refines op _) hl hup hur hs

theorem single_completion (hl : ∀ file, Op.load file ∉ run) (hu : UnusedIds cid run) :
    SingleCompletion (after cid run) ∧
    (∀ past, past <:+ run → ∀ p r res,
      CommittedAs p r res (after cid past).plans (after cid past).results →
      CommittedAs p r res (after cid run).plans (after cid run).results) ∧
    (∀ file loaded st, PersistentStore.load file decodeState = .ok loaded →
      SingleCompletion loaded → SingleCompletion (load file st).snd) := by
  refine ⟨(settled_after hl hu).singleCompletion, ?_, ?_⟩
  · intro past hs p r res hc
    refine machine.stable_of_eachStep _ (P := fun st => CommittedAs p r res st.plans st.results) ?_
      (hu.and_not_load hl) hs hc
    intro past op ⟨⟨hup, hur⟩, hl⟩ hc
    exact hc.step (step_refines op _) hl hup hur
  · intro file loaded st hf hs
    simp only [load, hf]
    exact hs.recover

end

open Deployment in
theorem single_completion_of_deployment :
    let run := .applyResult { value := 40 } completion :: dispatch ++ setup
    SingleCompletion (after { value := 1 } run) ∧
    ((after { value := 1 } run).plans[({ value := 10 } : ExecutionPlanId)]?).map (·.lifecycle) =
      some .committed :=
  ⟨(single_completion (by simp [dispatch, setup]) (by decide +kernel)).1, by decide +kernel⟩

end NMC
