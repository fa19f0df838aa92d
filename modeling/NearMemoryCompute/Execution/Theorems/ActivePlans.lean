import NearMemoryCompute.Execution.Theorems.Resolvable

namespace NMC

open Coordinator

-- An operation has at most one plan that is live.
def SingleLive (st : RuntimeState) : Prop :=
  ∀ ⦃p q : ExecutionPlanId⦄ ⦃plan plan' : ExecutionPlan⦄,
    st.plans[p]? = some plan → st.plans[q]? = some plan' → plan.operation = plan'.operation →
    plan.lifecycle.live → plan'.lifecycle.live → p = q

-- A plan with an unknown outcome is not cancelled while its operation has a live plan.
def Op.CancelsUnrivalled (op : Op) (st : RuntimeState) : Prop :=
  match op with
  | .cancelPlan p => ∀ plan, st.plans[p]? = some plan → plan.lifecycle = .outcomeUnknown →
    ∀ (q : ExecutionPlanId) (plan' : ExecutionPlan), st.plans[q]? = some plan' →
      plan'.operation = plan.operation → !plan'.lifecycle.live
  | _ => True

theorem Ledger.mem_activePlansOf {plans : Table ExecutionPlanId ExecutionPlan} {p : ExecutionPlanId}
    {plan : ExecutionPlan} (hp : plans[p]? = some plan) (he : plan.lifecycle.ended = false) :
    plan.operation ∈ activePlansOf plans := by
  have hf : (if plan.lifecycle.ended then none else some (plan.operation, plan.id)) =
      some (plan.operation, plan.id) := by
    simp [he]
  exact Std.ExtTreeMap.mem_iff_isSome_getElem?.mpr (Table.isSome_collect hp hf)

-- What it means for a lifecycle to occupy an operation: a plan that is live does, a plan that has
-- ended does not, and no plan begins to do so.
structure Occupying (occ : ExecutionLifecycle → Bool) : Prop where
  live  : ∀ {a}, a.live → occ a
  ended : ∀ {a}, occ a → a.ended = false
  back  : ∀ {a b}, ExecutionLifecycle.Next a b → occ b → occ a

theorem occupying_live : Occupying ExecutionLifecycle.live where
  live  := id
  ended := ExecutionLifecycle.not_ended_of_live
  back  := ExecutionLifecycle.Next.live

-- The index has an entry for each of the given operations that a plan occupies, and a plan that is
-- live is the only one to occupy its operation.
structure Occupied (R : OperationId → Prop) (occ : ExecutionLifecycle → Bool) (l : Ledger) :
    Prop where
  single : ∀ ⦃p q : ExecutionPlanId⦄ ⦃plan plan' : ExecutionPlan⦄,
    l.plans[p]? = some plan → l.plans[q]? = some plan' → plan.operation = plan'.operation →
    R plan.operation → plan.lifecycle.live → occ plan'.lifecycle → p = q
  indexed : ∀ ⦃p : ExecutionPlanId⦄ ⦃plan : ExecutionPlan⦄,
    l.plans[p]? = some plan → R plan.operation → occ plan.lifecycle →
    plan.operation ∈ l.activePlans

-- An operation is vacated only if no plan occupies it afterwards.
def Op.Vacates (R : OperationId → Prop) (occ : ExecutionLifecycle → Bool) (op : Op)
    (st : RuntimeState) : Prop :=
  match op with
  | .applyResult _ msg => msg.unknown → ∀ c : Completion st msg, R c.plan.operation →
    occ .outcomeUnknown = false
  | .cancelPlan p => ∀ plan, st.plans[p]? = some plan → plan.lifecycle = .outcomeUnknown →
    R plan.operation → ∀ (q : ExecutionPlanId) (plan' : ExecutionPlan), q ≠ p →
      st.plans[q]? = some plan' → plan'.operation = plan.operation → occ plan'.lifecycle = false
  | _ => True

namespace Occupied

variable {R : OperationId → Prop} {occ : ExecutionLifecycle → Bool} {st : RuntimeState} {op : Op}
         {out : Outcome} {l : Ledger} {p : ExecutionPlanId} {plan : ExecutionPlan}

theorem init (cid : CoordinatorId) : Occupied R occ (Coordinator.init cid).ledger where
  single _ _ _ _ h := by simp [Coordinator.init, RuntimeState.ledger] at h
  indexed _ _ h    := by simp [Coordinator.init, RuntimeState.ledger] at h

theorem mono {R' : OperationId → Prop} (hi : Occupied R occ l) (h : ∀ o, R' o → R o) :
    Occupied R' occ l where
  single _ _ _ _ hp hq ho hr := hi.single hp hq ho (h _ hr)
  indexed _ _ hp hr          := hi.indexed hp (h _ hr)

-- A plan that occupies its operation after a step has done so before, unless the step has created
-- it or has replaced all plans.
theorem origin (hocc : Occupying occ) (h : Ledger.Step st op out l)
    (hl : ¬(op.loads ∧ out.succeeded)) (hp : l.plans[p]? = some plan) (ho : occ plan.lifecycle) :
    (∃ o, ∃ sel : Selection st o, op = .plan p o ∧ plan = sel.plan p) ∨
    (∃ plan', st.plans[p]? = some plan' ∧ plan'.Evolves plan ∧ occ plan'.lifecycle) := by
  cases h.origin hp
  case created o sel hop he   => exact .inl ⟨o, sel, hop, he⟩
  case evolved plan' hq he    => exact .inr ⟨plan', hq, he, hocc.back he.lifecycle ho⟩
  case loaded hop hs _ _ _    => exact absurd ⟨hop ▸ rfl, hs⟩ hl

theorem single_step (hocc : Occupying occ) (h : Ledger.Step st op out l)
    (hi : Occupied R occ st.ledger) {p q : ExecutionPlanId} {plan plan' : ExecutionPlan}
    (hp : l.plans[p]? = some plan) (hq : l.plans[q]? = some plan')
    (ho : plan.operation = plan'.operation) (hr : R plan.operation) (hlp : plan.lifecycle.live)
    (hoq : occ plan'.lifecycle) : p = q := by
  -- A new plan has no rival, because its operation has had no entry in the index.
  have new {o : OperationId} (sel : Selection st o) {q : ExecutionPlanId} {plan : ExecutionPlan}
      (hq : st.plans[q]? = some plan) (hr : R plan.operation) (hoq : occ plan.lifecycle) :
      plan.operation ≠ sel.op.id :=
    fun he => sel.inactive (he ▸ hi.indexed hq hr hoq)
  have ⟨_, hload⟩ := h.of_live hp hlp
  rcases origin hocc h hload hp (hocc.live hlp) with ⟨o, sel, hop, rfl⟩ | ⟨plan₁, hp₁, he₁, ho₁⟩ <;>
    rcases origin hocc h hload hq hoq with ⟨o', sel', hop', rfl⟩ | ⟨plan₂, hq₂, he₂, ho₂⟩
  · cases hop.symm.trans hop'
    rfl
  · have hop₂ : plan₂.operation = sel.op.id := he₂.operation.symm.trans ho.symm
    exact absurd hop₂ (new sel hq₂ (hop₂ ▸ hr) ho₂)
  · have hop₁ : plan₁.operation = sel'.op.id := he₁.operation.symm.trans ho
    exact absurd hop₁ (new sel' hp₁ (he₁.operation ▸ hr) ho₁)
  · refine hi.single hp₁ hq₂ ?_ (he₁.operation ▸ hr) (he₁.lifecycle.live hlp) ho₂
    rw [← he₁.operation, ho, he₂.operation]

-- The entry of an operation can be removed when the only plan that could occupy it ends.
theorem erase (hocc : Occupying occ) (hi : Occupied R occ st.ledger) (h : Ledger.Step st op out l)
    {a : ExecutionLifecycle} (hpl : l.plans = st.plans.insert p { plan with lifecycle := a })
    (ha : l.activePlans = st.activePlans.erase plan.operation)
    (hn : R plan.operation → occ a = false)
    (hs : R plan.operation → ∀ ⦃q : ExecutionPlanId⦄ ⦃plan' : ExecutionPlan⦄,
      st.plans[q]? = some plan' → plan'.operation = plan.operation → occ plan'.lifecycle →
      q = p) : Occupied R occ l where
  single _ _ _ _ := single_step hocc h hi
  indexed q plan' hq hr hl := by
    rw [hpl] at hq
    rcases Table.getElem?_insert_eq_some hq with ⟨_, rfl⟩ | ⟨hne, hq⟩
    · simp [hn hr] at hl
    · have hop : plan'.operation ≠ plan.operation := fun h => hne (hs (h ▸ hr) hq h hl).symm
      rw [ha]
      exact Std.ExtTreeMap.mem_erase.mpr ⟨by simpa using Ne.symm hop, hi.indexed hq hr hl⟩

-- The entries stay, and no plan begins to occupy its operation.
theorem keep (hocc : Occupying occ) (hi : Occupied R occ st.ledger) (h : Ledger.Step st op out l)
    (hop : ∀ id o, op ≠ .plan id o) (hl : !op.loads) (ha : l.activePlans = st.activePlans) :
    Occupied R occ l where
  single _ _ _ _ := single_step hocc h hi
  indexed p plan hp hr ho := by
    rcases origin hocc h (by simp_all) hp ho with ⟨o, _, he, _⟩ | ⟨plan', hq, he, ho⟩
    · exact absurd he (hop p o)
    · rw [ha, he.operation]
      exact hi.indexed hq (he.operation ▸ hr) ho

theorem rebuild (hocc : Occupying occ) (hi : Occupied R occ st.ledger)
    (h : Ledger.Step st op out l) (ha : l.activePlans = activePlansOf l.plans) :
    Occupied R occ l where
  single _ _ _ _ := single_step hocc h hi
  indexed p plan hp _ ho := by
    rw [ha]
    exact Ledger.mem_activePlansOf hp (hocc.ended ho)

theorem step (hocc : Occupying occ) (h : Ledger.Step st op out l) (hr : Resolvable st)
    (hv : op.Vacates R occ st) (hi : Occupied R occ st.ledger) : Occupied R occ l := by
  have alone {p : ExecutionPlanId} {plan : ExecutionPlan} (hp : st.plans[p]? = some plan)
      (hl : plan.lifecycle.live) (hR : R plan.operation) ⦃q : ExecutionPlanId⦄
      ⦃plan' : ExecutionPlan⦄ (hq : st.plans[q]? = some plan')
      (ho : plan'.operation = plan.operation) (hocc : occ plan'.lifecycle) : q = p :=
    (hi.single hp hq ho.symm hR hl hocc).symm
  have ended {a : ExecutionLifecycle} (ha : a.ended) : occ a = false := by
    by_contra ho
    simp [hocc.ended (by simpa using ho)] at ha
  have h' := h
  cases h
  case idle       => exact hi
  case reserve    => exact hi.keep hocc h' nofun rfl rfl
  case prepare    => exact hi.keep hocc h' nofun rfl rfl
  case supersede  => exact hi.keep hocc h' nofun rfl rfl
  case confirm    => exact hi.keep hocc h' nofun rfl rfl
  case advance    => exact hi.rebuild hocc h' rfl
  case fence      => exact hi.rebuild hocc h' rfl
  case disconnect => exact hi.rebuild hocc h' rfl
  case retire     => exact hi.rebuild hocc h' rfl
  case load       => exact hi.rebuild hocc h' rfl
  case ambiguous c hu _ _ _ =>
    exact hi.erase hocc h' rfl rfl (hv hu c) (alone c.plan_eq (c.live hr))
  case mismatch c _ _ _ _ _ =>
    exact hi.erase hocc h' rfl rfl (fun _ => ended rfl) (alone c.plan_eq (c.live hr))
  case commit c _ _ _ _ _ =>
    exact hi.erase hocc h' rfl rfl (fun _ => ended rfl) (alone c.plan_eq (c.live hr))
  case cancel p plan hp he =>
    refine hi.erase hocc h' rfl rfl (fun _ => ended rfl) ?_
    rcases ExecutionLifecycle.live_or_ended (hr.used hp) with hl | hl | hl
    · exact alone hp hl
    · intro hR q plan' hq ho hocc
      by_contra hne
      simp [hv plan hp hl hR q plan' hne hq ho] at hocc
    · simp [hl] at he
  case plan id o _ sel =>
    refine ⟨fun _ _ _ _ => single_step hocc h' hi, ?_⟩
    intro p plan hp hR ho
    rcases Table.getElem?_insert_eq_some hp with ⟨_, rfl⟩ | ⟨_, hq⟩
    · exact Std.ExtTreeMap.mem_insert_self
    · exact Std.ExtTreeMap.mem_insert.mpr (.inr (hi.indexed hq hR ho))

end Occupied

theorem Op.CancelsUnrivalled.vacates {op : Op} {st : RuntimeState} (h : op.CancelsUnrivalled st) :
    op.Vacates (fun _ => True) ExecutionLifecycle.live st := by
  cases op <;> try trivial
  case applyResult => exact fun _ _ _ => rfl
  case cancelPlan =>
    intro plan hp hl _ q plan' _ hq ho
    simpa using h plan hp hl q plan' hq ho

-- Runs in which no plan with an unknown outcome is cancelled under a live one.
theorem single_live_plan [Platform] (cid : CoordinatorId) (run : List Op)
    (hc : Machine.EachStep (fun past op => op.CancelsUnrivalled (after cid past)) run) :
    ∀ past, past <:+ run → SingleLive (after cid past) := by
  intro past hs
  suffices h : Occupied (fun _ => True) ExecutionLifecycle.live (after cid past).ledger from
    fun _ _ _ _ hp hq ho hlp hlq => h.single hp hq ho trivial hlp hlq
  refine machine.invariant_of_eachStep _ (I := fun _ st => Occupied _ _ st.ledger) (.init cid) ?_
    (hc.suffix hs)
  intro past op hc hi
  exact hi.step occupying_live (step_refines op _) (resolvable_after cid past) hc.vacates

section

open Deployment

-- The first plan is cancelled before it is sent, and then planning starts over.
theorem single_live_plan_of_deployment :
    SingleLive (after { value := 1 } (.plan { value := 11 } { value := 1 } ::
      .cancelPlan { value := 10 } :: .reserve { value := 10 } ::
      .plan { value := 10 } { value := 1 } :: setup)) := by
  refine single_live_plan _ _ ?_ _ (List.suffix_refl _)
  simp only [setup, Machine.eachStep_cons, Machine.eachStep_nil, Op.CancelsUnrivalled, and_true,
    true_and]
  intro plan hp hl
  have hr : (after { value := 1 } (.reserve { value := 10 } ::
      .plan { value := 10 } { value := 1 } :: setup)).plans[({ value := 10 } :
        ExecutionPlanId)]?.map (·.lifecycle) = some .reserved := by
    decide +kernel
  simp only [setup, hp] at hr
  simp [hl] at hr

-- The outcome of the first plan is unknown when the second one is created. Cancelling the first
-- one makes room for the third, while the second is live.
def rivals : List Op :=
  .plan { value := 12 } { value := 1 } :: .cancelPlan { value := 10 } ::
  .plan { value := 11 } { value := 1 } ::
  .applyResult { value := 40 } { completion with unknown := true } :: (dispatch ++ setup)

theorem rivals_not_singleLive : ¬SingleLive (after { value := 1 } rivals) := by
  intro h
  have ⟨plan, hp, hf⟩ := Option.map_eq_some_iff.mp
    (show (after { value := 1 } rivals).plans[({ value := 11 } : ExecutionPlanId)]?.map
      (fun plan => (plan.operation, plan.lifecycle)) = some ({ value := 1 }, .planned) by
      decide +kernel)
  have ⟨plan', hp', hf'⟩ := Option.map_eq_some_iff.mp
    (show (after { value := 1 } rivals).plans[({ value := 12 } : ExecutionPlanId)]?.map
      (fun plan => (plan.operation, plan.lifecycle)) = some ({ value := 1 }, .planned) by
      decide +kernel)
  simp only [Prod.mk.injEq] at hf hf'
  have he := h hp hp' (hf.1.trans hf'.1.symm) (by simp [hf.2, ExecutionLifecycle.live])
    (by simp [hf'.2, ExecutionLifecycle.live])
  contradiction

end

-- What the index says is right, and so planning refuses an operation only on account of a plan
-- that has not ended.
structure IndexSound [Platform] (st : RuntimeState) : Prop where
  entry : ∀ ⦃o : OperationId⦄ ⦃p : ExecutionPlanId⦄, st.activePlans[o]? = some p →
    ∃ plan, st.plans[p]? = some plan ∧ plan.operation = o ∧ !plan.lifecycle.ended
  refusal : ∀ ⦃id : ExecutionPlanId⦄ ⦃o : OperationId⦄ ⦃e : Error⦄,
    (plan id o st).fst = .error e → e.code = "E_PLAN_ACTIVE" →
    ∃ (p : ExecutionPlanId) (plan : ExecutionPlan),
      st.plans[p]? = some plan ∧ plan.operation = o ∧ !plan.lifecycle.ended

-- The operation finds a plan stale that the index has an entry for. The plan ends, but the entry
-- stays.
def Op.Orphans (op : Op) (st : RuntimeState) : Prop :=
  match op with
  | .prepareDispatch p _ _ => ∃ plan, st.plans[p]? = some plan ∧ plan.lifecycle = .reserved ∧
    stalenessLocked st plan ≠ [] ∧ st.activePlans[plan.operation]? = some p
  | _ => False

-- All entries of the index are right.
def Ledger.Sound (l : Ledger) : Prop :=
  ∀ ⦃o : OperationId⦄ ⦃p : ExecutionPlanId⦄, l.activePlans[o]? = some p →
    ∃ plan, l.plans[p]? = some plan ∧ plan.operation = o ∧ !plan.lifecycle.ended

namespace Ledger.Sound

variable {st : RuntimeState} {op : Op} {out : Outcome} {l : Ledger} {p : ExecutionPlanId}
         {plan new : ExecutionPlan}

theorem init (cid : CoordinatorId) : (Coordinator.init cid).ledger.Sound := by
  intro o p h
  simp [Coordinator.init, RuntimeState.ledger] at h

-- A plan changes without ending.
theorem set (hs : l.Sound) (hp : l.plans[p]? = some plan) (ho : new.operation = plan.operation)
    (he : !new.lifecycle.ended) : (l.set p new).Sound := by
  intro o q ha
  have ⟨plan', hq, ho', he'⟩ := hs ha
  by_cases h : p = q
  case pos =>
    subst h
    cases hp.symm.trans hq
    exact ⟨new, by simp [Ledger.set], ho.trans ho', he⟩
  case neg => exact ⟨plan', by simp [Ledger.set, Table.getElem?_insert_ne _ _ h, hq], ho', he'⟩

-- A plan ends, and no entry is left for it.
theorem drop (hs : l.Sound) (hp : l.plans[p]? = some plan) {l' : Ledger}
    (hpl : l'.plans = l.plans.insert p new)
    (ha : ∀ ⦃o : OperationId⦄ ⦃q : ExecutionPlanId⦄, l'.activePlans[o]? = some q →
      l.activePlans[o]? = some q ∧ (plan.operation = o → q ≠ p)) : l'.Sound := by
  intro o q hq
  have ⟨hq, hne⟩ := ha hq
  have ⟨plan', hq', ho, he⟩ := hs hq
  have hpq : p ≠ q := by
    rintro rfl
    cases hp.symm.trans hq'
    exact hne ho rfl
  exact ⟨plan', by rw [hpl, Table.getElem?_insert_ne _ _ hpq, hq'], ho, he⟩

theorem erase (hs : l.Sound) (hp : l.plans[p]? = some plan) {l' : Ledger}
    (hpl : l'.plans = l.plans.insert p new)
    (ha : l'.activePlans = l.activePlans.erase plan.operation) : l'.Sound := by
  refine hs.drop hp hpl fun o q hq => ?_
  have ⟨hne, hq⟩ := Table.getElem?_erase_eq_some (ha ▸ hq)
  exact ⟨hq, fun ho => absurd ho hne⟩

theorem rebuild (hk : Table.Keyed ExecutionPlan.id l.plans)
    (ha : l.activePlans = activePlansOf l.plans) : l.Sound := by
  intro o p hp
  rw [ha] at hp
  have ⟨q, plan, hq, hf⟩ := Table.collect_eq_some hp
  split at hf
  case isTrue => contradiction
  case isFalse he =>
    cases hf
    exact ⟨plan, (hk hq).symm ▸ hq, rfl, by simpa using he⟩

theorem step (h : Step st op out l) (hr : Resolvable st) (hu : op.planIdUnused st)
    (ho : ¬op.Orphans st) (hs : st.ledger.Sound) : l.Sound := by
  have hk := h.plans_keyed hr.plans
  cases h
  case idle => exact hs
  case reserve adm => exact hs.set adm.plan_eq rfl rfl
  case prepare prep _ =>
    refine hs.set prep.plan_eq rfl ?_
    simp [Preparation.prepared, prep.reserved, ExecutionLifecycle.ended]
  case confirm hp _ _ => exact hs.set hp rfl rfl
  case supersede p _ _ plan _ hp hl hst =>
    refine hs.drop hp rfl fun o q hq => ⟨hq, ?_⟩
    rintro rfl rfl
    exact ho ⟨plan, hp, hl, hst, hq⟩
  case ambiguous c _ _ _ _  => exact hs.erase c.plan_eq rfl rfl
  case mismatch c _ _ _ _ _ => exact hs.erase c.plan_eq rfl rfl
  case commit c _ _ _ _ _   => exact hs.erase c.plan_eq rfl rfl
  case cancel hp _          => exact hs.erase hp rfl rfl
  case advance              => exact rebuild hk rfl
  case fence                => exact rebuild hk rfl
  case disconnect           => exact rebuild hk rfl
  case retire               => exact rebuild hk rfl
  case load                 => exact rebuild hk rfl
  case plan id o _ sel =>
    intro o' p hp
    rcases Table.getElem?_insert_eq_some hp with ⟨rfl, rfl⟩ | ⟨_, hp⟩
    · exact ⟨sel.plan id, by simp [Ledger.set, Ledger.activate], rfl, rfl⟩
    · obtain ⟨plan, hq, ho, he⟩ := hs hp
      have hne : id ≠ p := by
        rintro rfl
        exact of_decide_eq_true hu (Table.mem_of_some hq)
      refine ⟨plan, ?_, ho, he⟩
      simp [Ledger.set, Ledger.activate, Table.getElem?_insert_ne _ _ hne, hq]

end Ledger.Sound

section

variable [Platform] {st : RuntimeState}

-- Planning answers that an operation is active only if the index has an entry for it.
theorem mem_activePlans_of_refusal {id : ExecutionPlanId} {o : OperationId} {e : Error}
    (h : (plan id o st).fst = .error e) (he : e.code = "E_PLAN_ACTIVE") :
    ∃ op, st.operations[o]? = some op ∧ op.id ∈ st.activePlans := by
  simp only [plan] at h
  split at h
  case h_1 =>
    cases h
    contradiction
  case h_2 op hop =>
    split at h
    case h_1 =>
      cases h
      contradiction
    case h_2 =>
      split at h
      case isTrue hm => exact ⟨op, hop, hm⟩
      case isFalse =>
        split at h
        case h_1 => cases h
        case h_2 => split at h <;> cases h

theorem Ledger.Sound.indexSound (hs : st.ledger.Sound)
    (ho : Table.Keyed OperationSpec.id st.operations) : IndexSound st where
  entry := hs
  refusal id o e h he := by
    have ⟨op, hop, hm⟩ := mem_activePlans_of_refusal h he
    have ⟨p, hp⟩ := Table.exists_of_mem hm
    have ⟨plan, hq, hpo, hl⟩ := hs hp
    exact ⟨p, plan, hq, hpo.trans (ho hop), hl⟩

theorem not_indexSound_of_orphans {op : Op} (ho : op.Orphans st) :
    ¬IndexSound (step op st).snd := by
  cases op <;> try contradiction
  case prepareDispatch p did aid =>
    obtain ⟨plan, hp, hl, hs, ha⟩ := ho
    have hst : (step (.prepareDispatch p did aid) st).snd =
        st.setPlan p { plan with lifecycle := .superseded } := by
      simp [step, answer, prepareDispatch, hp, hl, hs]
    intro hi
    rw [hst] at hi
    obtain ⟨plan', hp', _, he⟩ := hi.entry ha
    simp [RuntimeState.setPlan] at hp'
    simp [← hp', ExecutionLifecycle.ended] at he

variable {cid : CoordinatorId} {run : List Op}

-- The index is right in every state of a run exactly if the run finds no plan stale that the index
-- has an entry for.
theorem index_sound_iff
    (hu : Machine.EachStep (fun past op => op.planIdUnused (after cid past)) run) :
    (∀ past, past <:+ run → IndexSound (after cid past)) ↔
    Machine.EachStep (fun past op => ¬op.Orphans (after cid past)) run := by
  constructor
  case mp =>
    intro hi op past hs ho
    exact not_indexSound_of_orphans ho (hi _ hs)
  case mpr =>
    intro ho past hs
    have hc : Machine.EachStep (fun past op =>
        op.planIdUnused (after cid past) ∧ ¬op.Orphans (after cid past)) past :=
      fun op past' hs' => ⟨hu (hs'.trans hs), ho (hs'.trans hs)⟩
    refine Ledger.Sound.indexSound ?_ (resolvable_after cid past).operations
    refine machine.invariant_of_eachStep _ (I := fun _ st => st.ledger.Sound) (.init cid) ?_ hc
    intro past op ⟨hu, ho⟩ hs
    exact hs.step (step_refines op _) (resolvable_after cid past) hu ho

end

section

open Deployment

-- The target is registered anew after the plan has been admitted.
def orphaned : List Op :=
  .prepareDispatch { value := 10 } { value := 20 } { value := 30 } ::
  .applyRegisterTarget { registration with generation := { value := 2 } } ::
  .reserve { value := 10 } :: .plan { value := 10 } { value := 1 } :: setup

theorem orphaned_not_indexSound :
    Machine.EachStep (fun past op => op.planIdUnused (after { value := 1 } past)) orphaned ∧
    ¬IndexSound (after { value := 1 } orphaned) := by
  refine ⟨by decide +kernel, ?_⟩
  intro h
  have ha : (after { value := 1 } orphaned).activePlans[({ value := 1 } : OperationId)]? =
      some { value := 10 } := by
    decide +kernel
  have hl : (after { value := 1 } orphaned).plans[({ value := 10 } : ExecutionPlanId)]?.map
      (·.lifecycle) = some .superseded := by
    decide +kernel
  have ⟨plan, hp, _, he⟩ := h.entry ha
  simp only [hp, Option.map_some, Option.some.injEq] at hl
  simp [hl, ExecutionLifecycle.ended] at he

theorem index_sound_of_deployment :
    IndexSound (after { value := 1 } (dispatch ++ setup)) := by
  refine (index_sound_iff (by decide +kernel)).mpr ?_ _ (List.suffix_refl _)
  simp only [dispatch, setup, List.cons_append, List.nil_append, Machine.eachStep_cons,
    Machine.eachStep_nil, Op.Orphans, not_false_eq_true, and_true, true_and]
  rintro ⟨plan, hp, _, hs, _⟩
  have hf : (after { value := 1 } (.reserve { value := 10 } ::
      .plan { value := 10 } { value := 1 } :: setup)).plans[({ value := 10 } :
        ExecutionPlanId)]?.map (stalenessLocked (after { value := 1 } (.reserve { value := 10 } ::
        .plan { value := 10 } { value := 1 } :: setup))) = some [] := by
    decide +kernel
  simp only [setup, hp, Option.map_some, Option.some.injEq] at hf
  exact hs hf

end
end NMC
