import NearMemoryCompute.Execution.Ledger

namespace NMC

-- An operation that fails leaves the books as they are.
theorem Ledger.Step.refused {st : RuntimeState} {op : Op} {out : Outcome}
    (h : out.succeeded = false) : Ledger.Step st op out st.ledger :=
  .idle fun hs => absurd (h.symm.trans hs) Bool.false_ne_true

namespace RuntimeState

variable {st : RuntimeState}

theorem release_empty (plan : ExecutionPlan) : ReservationState.release {} plan = {} := by
  simp [ReservationState.release]

-- A target without an entry has nothing to give back, so the books do not see the difference.
theorem releaseReservation_ledger (plan : ExecutionPlan) :
    (st.releaseReservation plan).ledger = st.ledger.release plan := by
  unfold releaseReservation
  split
  case h_1 h =>
    have hr : st.ledger.reservation plan.target = {} := by simp [ledger, reservation, h]
    rw [Ledger.release, hr, release_empty, ← hr, Ledger.hold, Function.update_eq_self]
  case h_2 rs h =>
    have hr : st.reservation plan.target = rs := by simp [reservation, h]
    simp only [Ledger.release, Ledger.hold, ledger, hr, Ledger.mk.injEq, true_and]
    funext t
    by_cases ht : plan.target = t
    case pos => subst ht; simp [reservation]
    case neg =>
      simp [reservation, Table.getElem?_insert_ne _ _ ht, Function.update_of_ne (Ne.symm ht)]

-- Recovery is an advance of the epoch, without any reservation or session.
theorem recover_eq (st : RuntimeState) :
    st.recover = { st.nextEpoch with reservations := ∅, workers := ∅ } := by
  have hp (plan : ExecutionPlan) : plan.onEpoch =
      if plan.lifecycle ≠ .committed then
        { plan with
          lifecycle :=
            if plan.lifecycle = .dispatched ∨ plan.lifecycle = .running ∨
              plan.lifecycle = .verifying then .outcomeUnknown
            else .superseded }
      else plan := by
    unfold ExecutionPlan.onEpoch
    cases plan.lifecycle <;> rfl
  simp only [recover, nextEpoch, hp]
  rfl

theorem recover_ledger :
    st.recover.ledger = { st.ledger.nextEpoch with reservation := fun _ => {} } := by
  rw [recover_eq]
  simp [ledger, nextEpoch, rebuildActivePlans, Ledger.nextEpoch, Ledger.sweep]
  funext t
  simp [reservation]

end RuntimeState

namespace Coordinator

variable {st : RuntimeState} {op : OperationSpec} {policy : Policy} {data : Option DataEvidence}

-- The target has passed the filter, on the evidence that the state has for it.
def Eligible (st : RuntimeState) (op : OperationSpec) (policy : Policy)
    (data : Option DataEvidence) (t : NearMemoryTargetId) : Prop :=
  ∃ tdef trt caps, st.targets[t]? = some tdef ∧ st.targetRuntime[t]? = some trt ∧
    st.capabilities[t]? = some caps ∧
    hardFilter (filterInput st op policy data t tdef trt caps) = []

theorem data_of_hardFilter_nil {inp : HardFilterInput} (h : hardFilter inp = []) :
    inp.data.isSome := by
  unfold hardFilter at h
  split at h
  case h_1 hd _ _ => simp [hd]
  case h_2 => simp at h

section Planning

variable [Platform]

-- Reading the generation of a target that is being visited never creates an entry.
theorem considerTarget_fst {out : PlanOutput} {tid : NearMemoryTargetId} {tdef : TargetDefinition}
    (h : st.targets[tid]? = some tdef) :
    (considerTarget op policy data (st, out) (tid, tdef)).fst = st := by
  have hs := Table.subscript_snd_of_some st.targets tid h
  simp only [considerTarget, hs]
  split
  case h_1 => split <;> rfl
  case h_2 => rfl

theorem considerTarget_ranked {out : PlanOutput} {tid : NearMemoryTargetId}
    {tdef : TargetDefinition} {c : RankedCandidate} (h : st.targets[tid]? = some tdef)
    (hc : c ∈ (considerTarget op policy data (st, out) (tid, tdef)).snd.ranked) :
    c ∈ out.ranked ∨ Eligible st op policy data c.target := by
  simp only [considerTarget] at hc
  split at hc
  case h_2 => exact .inl hc
  case h_1 trt caps ht hcaps =>
    split at hc
    case h_2 => exact .inl hc
    case h_1 hf =>
      cases List.mem_append.mp hc
      case inl hc => exact .inl hc
      case inr hc =>
        simp only [List.mem_singleton] at hc
        subst hc
        exact .inr ⟨tdef, trt, caps, h, ht, hcaps, hf⟩

theorem considerTarget_created {acc : RuntimeState × PlanOutput}
    {target : NearMemoryTargetId × TargetDefinition} :
    (considerTarget op policy data acc target).snd.created = acc.snd.created := by
  simp only [considerTarget]
  split
  case h_1 => split <;> rfl
  case h_2 => rfl

theorem foldl_considerTarget {l : List (NearMemoryTargetId × TargetDefinition)} {out : PlanOutput}
    (hl : ∀ e ∈ l, st.targets[e.fst]? = some e.snd) :
    (l.foldl (considerTarget op policy data) (st, out)).fst = st ∧
    (l.foldl (considerTarget op policy data) (st, out)).snd.created = out.created ∧
    ∀ c ∈ (l.foldl (considerTarget op policy data) (st, out)).snd.ranked,
      c ∈ out.ranked ∨ Eligible st op policy data c.target := by
  induction l generalizing out
  case nil => exact ⟨rfl, rfl, fun _ => .inl⟩
  case cons e l hi =>
    have he := hl e (.head _)
    have hs : considerTarget op policy data (st, out) e =
        (st, (considerTarget op policy data (st, out) e).snd) :=
      Prod.ext (considerTarget_fst he) rfl
    rw [List.foldl_cons, hs]
    have ⟨hst, hcr, hr⟩ := @hi (considerTarget op policy data (st, out) e).snd
      fun e he => hl e (.tail _ he)
    refine ⟨hst, hcr.trans considerTarget_created, fun c hc => ?_⟩
    cases hr c hc
    case inl hc => exact considerTarget_ranked he hc
    case inr hc => exact .inr hc

-- Planning fails, finds no target that pays off, or creates a plan for an eligible target.
theorem plan_cases (id : ExecutionPlanId) (o : OperationId) (st : RuntimeState) :
    ((plan id o st).snd = st ∧ ∀ out, (plan id o st).fst = .ok out → out.created = false) ∨
    ∃ (sel : Selection st o) (out : PlanOutput),
      Eligible st sel.op sel.policy (some sel.data) sel.target ∧
      (out.created ∧ out.plan = sel.plan id) ∧
      plan id o st = (.ok out, { st with
        plans       := st.plans.insert id (sel.plan id)
        activePlans := st.activePlans.insert sel.op.id id }) := by
  have refused {e : Error} (out : PlanOutput) (h : (Except.error e : Result PlanOutput) = .ok out) :
      out.created = false := by
    cases h
  simp only [plan]
  split
  case h_1 => exact .inl ⟨rfl, refused⟩
  case h_2 op hop =>
    split
    case h_1 => exact .inl ⟨rfl, refused⟩
    case h_2 policy hpol =>
      split
      case isTrue => exact .inl ⟨rfl, refused⟩
      case isFalse hact =>
        have hl : ∀ e ∈ st.targets.toList, st.targets[e.fst]? = some e.snd :=
          fun e he => Std.ExtTreeMap.mem_toList_iff_getElem?_eq_some.mp he
        have ⟨hst, hcr, hr⟩ :=
          @foldl_considerTarget st op policy st.dataEvidence[op.region]? _ _ {} hl
        generalize st.targets.toList.foldl _ _ = acc at hst hcr hr
        obtain ⟨st', out⟩ := acc
        simp only at hst hcr hr
        subst hst
        have declined {decision : Decision} {explanation : List Bytes}
            {ranked : List RankedCandidate} (out' : PlanOutput)
            (h : (Except.ok { out with ranked, decision, explanation } : Result PlanOutput) =
              .ok out') : out'.created = false := by
          cases h
          exact hcr
        split
        case h_1 => exact .inl ⟨rfl, declined⟩
        case h_2 best _ hbest =>
          split
          case isTrue => exact .inl ⟨rfl, declined⟩
          case isFalse =>
            have hm : best ∈ out.ranked := mem_rankCandidates.mp (by simp_all)
            have he := (hr best hm).resolve_left (by simp)
            have ⟨tdef, trt, caps, ht, hrt, hc, hf⟩ := he
            have ⟨data, hd⟩ := Option.isSome_iff_exists.mp (data_of_hardFilter_nil hf)
            simp only [filterInput] at hd
            refine .inr ⟨{
              op, policy, data, tdef, trt, caps
              target           := best.target
              operation_eq     := hop
              policy_eq        := hpol
              dataEvidence_eq  := hd
              targets_eq       := ht
              targetRuntime_eq := hrt
              capabilities_eq  := hc
              inactive         := hact }, _, hd ▸ he, ⟨rfl, ?_⟩, Prod.ext rfl ?_⟩
            all_goals
              simp only [Table.subscript_fst_of_some _ _ ht, Table.subscript_fst_of_some _ _ hrt,
                Table.subscript_fst_of_some _ _ hc, Table.subscript_snd_of_some _ _ ht,
                Table.subscript_snd_of_some _ _ hrt, Table.subscript_snd_of_some _ _ hc, hd]
              rfl

theorem plan_created {id : ExecutionPlanId} {o : OperationId} {out : PlanOutput}
    (h : (plan id o st).fst = .ok out) (hc : out.created) :
    ∃ sel : Selection st o, Eligible st sel.op sel.policy (some sel.data) sel.target ∧
      out.plan = sel.plan id ∧
      (plan id o st).snd = { st with
        plans       := st.plans.insert id (sel.plan id)
        activePlans := st.activePlans.insert sel.op.id id } := by
  rcases plan_cases id o st with ⟨_, hn⟩ | ⟨sel, out', he, hp, hs⟩
  · exact absurd ((hn out h).symm.trans hc) Bool.false_ne_true
  · rw [hs] at h ⊢
    cases h
    exact ⟨sel, he, hp.2, rfl⟩

end Planning

-- `reserve` looks up the target with entries being created, even if it then refuses the plan.
theorem subscript_ledger (st : RuntimeState) (t : NearMemoryTargetId) :
    RuntimeState.ledger { st with
      targets      := (Table.subscript st.targets t).snd
      reservations := (Table.subscript st.reservations t).snd } = st.ledger := by
  simp only [RuntimeState.ledger, Ledger.mk.injEq, true_and]
  funext t'
  exact Table.getD_subscript_snd st.reservations t t'

theorem subscript_reservation (t : NearMemoryTargetId) :
    (Table.subscript st.reservations t).fst = st.reservation t := by
  rw [Table.subscript, Std.ExtTreeMap.getD_eq_getD_getElem?]
  rfl

theorem reserve_refines (p : ExecutionPlanId) :
    Ledger.Step st (.reserve p) (.unit (reserve p st).fst) (reserve p st).snd.ledger := by
  simp only [reserve]
  split
  case h_1 => exact .refused rfl
  case h_2 plan hp =>
    split
    case isTrue => exact .refused rfl
    case isFalse hl =>
      split
      case h_1 => exact .refused rfl
      case h_2 trt ht =>
        have idle {e : Error} : Ledger.Step st (.reserve p) (.unit (.error e)) st.ledger :=
          .refused rfl
        rw [← subscript_ledger st plan.target] at idle
        split
        case isTrue => exact idle
        case isFalse hs =>
          split
          case isTrue => exact idle
          case isFalse =>
            split
            case isTrue => exact idle
            case isFalse =>
              split
              case isTrue => exact idle
              case isFalse =>
                rw [subscript_reservation] at hs
                let adm : Admission st p := {
                  plan, trt
                  plan_eq          := hp
                  planned          := not_not.mp hl
                  targetRuntime_eq := ht
                  slots            := UInt64.not_le.mp hs }
                convert Ledger.Step.reserve adm using 1
                simp only [RuntimeState.ledger, Ledger.set, Ledger.hold, subscript_reservation,
                  Ledger.mk.injEq, true_and]
                refine ⟨rfl, ?_⟩
                funext t
                by_cases ht : plan.target = t
                case pos =>
                  subst ht
                  simp [adm, RuntimeState.reservation, Admission.reservation,
                    RuntimeState.workspaceOf]
                case neg =>
                  rw [Function.update_of_ne (Ne.symm ht)]
                  simp only [RuntimeState.reservation, Table.getElem?_insert_ne _ _ ht]
                  exact Table.getD_subscript_snd st.reservations plan.target t

theorem prepareDispatch_refines (p : ExecutionPlanId) (did : DispatchId) (aid : AttemptId) :
    Ledger.Step st (.prepareDispatch p did aid) (.dispatch (prepareDispatch p did aid st).fst)
      (prepareDispatch p did aid st).snd.ledger := by
  simp only [prepareDispatch]
  split
  case h_1 => exact .refused rfl
  case h_2 plan hp =>
    split
    case isTrue => exact .refused rfl
    case isFalse hl =>
      split
      case isTrue hs => exact .supersede hp (not_not.mp hl) hs
      case isFalse hs =>
        split
        case h_1 => exact .refused rfl
        case h_2 op hop =>
          split
          case h_1 => exact .refused rfl
          case h_2 trt ht =>
            split
            case h_1 => exact .refused rfl
            case h_2 =>
              let prep : Preparation st p := {
                plan, op, trt
                plan_eq          := hp
                reserved         := not_not.mp hl
                fresh            := not_not.mp hs
                operation_eq     := hop
                targetRuntime_eq := ht }
              exact .prepare prep rfl

theorem prepareDispatch_ok {p : ExecutionPlanId} {did : DispatchId} {aid : AttemptId}
    {out : DispatchOutput} (h : (prepareDispatch p did aid st).fst = .ok out) :
    ∃ prep : Preparation st p, out.message = prep.message did aid := by
  have hs : Ledger.Step st _ (.dispatch (prepareDispatch p did aid st).fst) _ :=
    prepareDispatch_refines p did aid
  rw [h] at hs
  generalize (prepareDispatch p did aid st).snd.ledger = l at hs
  cases hs
  case idle hi         => exact absurd (hi rfl) nofun
  case prepare prep hm => exact ⟨prep, hm⟩

theorem confirmDispatched_refines (p : ExecutionPlanId) (did : DispatchId) :
    Ledger.Step st (.confirmDispatched p did) (.unit (confirmDispatched p did st).fst)
      (confirmDispatched p did st).snd.ledger := by
  simp only [confirmDispatched]
  split
  case h_1 => exact .refused rfl
  case h_2 plan hp =>
    split
    case isTrue => exact .refused rfl
    case isFalse hd =>
      split
      case isTrue => exact .refused rfl
      case isFalse hl => exact .confirm hp (not_not.mp hl) (not_not.mp hd)

theorem applyResult_refines (id : ResultId) (msg : ResultMsg) :
    Ledger.Step st (.applyResult id msg) (.result (applyResult id msg st).fst)
      (applyResult id msg st).snd.ledger := by
  simp only [applyResult]
  split
  case h_1 => exact .refused rfl
  case h_2 plan hp =>
    split
    case h_1 => exact .refused rfl
    case h_2 he =>
      split
      case isTrue hu => refine .ambiguous ⟨plan, hp, he⟩ hu ?_ ?_ ?_ <;> rfl
      case isFalse hu =>
        have hu : !msg.unknown := by simpa using hu
        split
        case isTrue hi => refine .mismatch ⟨plan, hp, he⟩ hu hi ?_ ?_ ?_ <;> rfl
        case isFalse hi =>
          rw [RuntimeState.releaseReservation_ledger]
          refine .commit ⟨plan, hp, he⟩ hu (by simpa using hi) ?_ ?_ ?_ <;> rfl

theorem cancelPlan_refines (p : ExecutionPlanId) :
    Ledger.Step st (.cancelPlan p) (.unit (cancelPlan p st).fst) (cancelPlan p st).snd.ledger := by
  simp only [cancelPlan]
  split
  case h_1 => exact .refused rfl
  case h_2 plan hp =>
    split
    case isTrue => exact .refused rfl
    case isFalse hl =>
      have hs : Ledger.Step st (.cancelPlan p) _ _ := .cancel hp (by simpa using hl)
      rw [← RuntimeState.releaseReservation_ledger] at hs
      exact hs

theorem retireTarget_refines (t : NearMemoryTargetId) :
    Ledger.Step st (.retireTarget t) (.unit (retireTarget t st).fst)
      (retireTarget t st).snd.ledger := by
  simp only [retireTarget]
  split
  case h_1 => exact .refused rfl
  case h_2 ht => exact .retire ht

theorem load_refines (file : File) :
    Ledger.Step st (.load file) (.unit (load file st).fst) (load file st).snd.ledger := by
  simp only [load]
  split
  case h_1 => exact .refused rfl
  case h_2 hl =>
    rw [RuntimeState.recover_ledger]
    exact .load hl

theorem plan_refines [Platform] (id : ExecutionPlanId) (o : OperationId) :
    Ledger.Step st (.plan id o) (.plan (plan id o st).fst) (plan id o st).snd.ledger := by
  rcases plan_cases id o st with ⟨h, _⟩ | ⟨sel, out, _, _, h⟩
  · rw [h]
    exact .idle fun _ => rfl
  · rw [h]
    exact .plan sel

theorem registerEntry_ledger {null duplicate : Bool} {nullText duplicateText : String}
    {registered : RuntimeState} (h : registered.ledger = st.ledger) :
    (registerEntry null nullText duplicate duplicateText registered st).snd.ledger = st.ledger := by
  simp only [registerEntry]
  split
  case isTrue => rfl
  case isFalse =>
    split
    case isTrue  => rfl
    case isFalse => exact h

theorem registerPolicy_ledger (pl : Policy) : (registerPolicy pl st).snd.ledger = st.ledger := by
  simp only [registerPolicy]
  split_ifs <;> rfl

theorem applyRegisterTarget_ledger (msg : RegisterTargetMsg) :
    (applyRegisterTarget msg st).snd.ledger = st.ledger := by
  simp only [applyRegisterTarget]
  split <;> rfl

theorem applyCapability_ledger (eid : EvidenceId) (cid : ℕ → CapabilityId) (msg : CapabilityMsg) :
    (applyCapability eid cid msg st).snd.ledger = st.ledger := by
  simp only [applyCapability]
  split
  case isTrue  => rfl
  case isFalse => split <;> rfl

theorem applyDataEvidence_ledger (msg : DataEvidenceMsg) :
    (applyDataEvidence msg st).snd.ledger = st.ledger := by
  simp only [applyDataEvidence]
  split <;> rfl

theorem applyHeartbeat_ledger (msg : HeartbeatMsg) :
    (applyHeartbeat msg st).snd.ledger = st.ledger := by
  simp only [applyHeartbeat]
  split
  case h_1 => rfl
  case h_2 => split <;> rfl

theorem beginDrain_ledger (t : NearMemoryTargetId) : (beginDrain t st).snd.ledger = st.ledger := by
  simp only [beginDrain]
  split
  case h_1 => rfl
  case h_2 => split <;> rfl

theorem idle_of_ledger_eq [Platform] {op : Op} (h : (step op st).snd.ledger = st.ledger)
    (ho : !op.onLedger) : Ledger.Step st op (step op st).fst (step op st).snd.ledger :=
  h ▸ .idle fun _ => ho

-- The coordinator keeps the books as the steps of the ledger say, whatever operation it performs.
theorem step_refines [Platform] (op : Op) (st : RuntimeState) :
    Ledger.Step st op (step op st).fst (step op st).snd.ledger := by
  cases op
  case plan id o                   => exact plan_refines id o
  case reserve p                   => exact reserve_refines p
  case prepareDispatch p did aid   => exact prepareDispatch_refines p did aid
  case confirmDispatched p did     => exact confirmDispatched_refines p did
  case applyResult id msg          => exact applyResult_refines id msg
  case cancelPlan p                => exact cancelPlan_refines p
  case retireTarget t              => exact retireTarget_refines t
  case load file                   => exact load_refines file
  case advanceEpoch                => exact .advance
  case fenceWorker                 => exact .fence
  case onWorkerDisconnected        => exact .disconnect
  case attachCoordinator           => exact idle_of_ledger_eq rfl rfl
  case bindWorkerSession           => exact idle_of_ledger_eq rfl rfl
  case registerMemoryDomain        => exact idle_of_ledger_eq (registerEntry_ledger rfl) rfl
  case registerDataset             => exact idle_of_ledger_eq (registerEntry_ledger rfl) rfl
  case registerRegion              => exact idle_of_ledger_eq (registerEntry_ledger rfl) rfl
  case registerProgram             => exact idle_of_ledger_eq (registerEntry_ledger rfl) rfl
  case createOperation             => exact idle_of_ledger_eq (registerEntry_ledger rfl) rfl
  case registerPolicy pl           => exact idle_of_ledger_eq (registerPolicy_ledger pl) rfl
  case applyRegisterTarget msg     => exact idle_of_ledger_eq (applyRegisterTarget_ledger msg) rfl
  case applyCapability eid cid msg =>
    exact idle_of_ledger_eq (applyCapability_ledger eid cid msg) rfl
  case applyDataEvidence msg       => exact idle_of_ledger_eq (applyDataEvidence_ledger msg) rfl
  case applyHeartbeat msg          => exact idle_of_ledger_eq (applyHeartbeat_ledger msg) rfl
  case beginDrain t                => exact idle_of_ledger_eq (beginDrain_ledger t) rfl

end Coordinator
end NMC
