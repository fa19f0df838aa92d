import NearMemoryCompute.Execution.Theorems.Gauge

namespace NMC

open Coordinator

-- The workspace that the plans on a target have reserved, without any bound.
def RuntimeState.workspaceInUse (st : RuntimeState) (t : NearMemoryTargetId) : ℕ :=
  Table.total (fun plan => if plan.target = t ∧
    (plan.lifecycle = .reserved ∨ plan.lifecycle = .dispatched) then
      plan.reservedWorkspace.toNat else 0) st.plans

def RuntimeState.workspaceBudget (st : RuntimeState) (t : NearMemoryTargetId) : ℕ :=
  (st.targets[t]?).elim 0 (·.workspaceBytes.toNat)

-- Admitting a plan on the target does not overflow the workspace counter, and no plan is cancelled
-- whose workspace was forgotten in a recovery, unless the counter is too small to give it back.
def Op.KeepsWorkspace (op : Op) (t : NearMemoryTargetId)
    (h : List (Event RuntimeState Op Outcome)) (st : RuntimeState) : Prop :=
  match op with
  | .reserve p => ∀ plan ∈ st.plans[p]?, plan.target = t → plan.lifecycle = .planned →
    (st.reservation t).reservedWorkspace.toNat + (st.workspaceOf plan).toNat < 2 ^ 64
  | .cancelPlan p => ∀ plan ∈ st.plans[p]?, plan.target = t → plan.lifecycle = .outcomeUnknown →
    Admitted h p ∨ plan.reservedWorkspace = 0 ∨
    (st.reservation t).reservedWorkspace < plan.reservedWorkspace
  | _ => True

def Gauge.workspace : Gauge where
  weight plan        := plan.reservedWorkspace.toNat
  counter rs         := rs.reservedWorkspace.toNat
  limit tdef         := tdef.workspaceBytes.toNat
  weight_eq h        := congrArg UInt64.toNat h
  counter_empty      := rfl
  release_le rs plan := by
    by_cases h : plan.reservedWorkspace.toNat ≤ rs.reservedWorkspace.toNat
    case pos =>
      rw [ReservationState.release_workspace h]
      exact Nat.sub_le ..
    case neg =>
      rw [ReservationState.release_workspace_of_lt (by omega)]
  le_release rs plan := by
    by_cases h : plan.reservedWorkspace.toNat ≤ rs.reservedWorkspace.toNat
    case pos =>
      rw [ReservationState.release_workspace h]
      omega
    case neg =>
      rw [ReservationState.release_workspace_of_lt (by omega)]
      omega

theorem planned_workspace_after [Platform] (cid : CoordinatorId) (run : List Op)
    {p : ExecutionPlanId} {plan : ExecutionPlan} (hp : (after cid run).plans[p]? = some plan)
    (hl : plan.lifecycle = .planned) : plan.reservedWorkspace = 0 := by
  induction run
  case nil => simp [Machine.after, init] at hp
  case cons op run hi =>
    rcases (step_refines op (after cid run)).planned_origin hp hl with ⟨_, _, _, rfl⟩ | hp
    · rfl
    · exact hi hp

-- What `reserve` has checked about the workspace if it admits a plan.
theorem Admission.workspace_le_budget {st : RuntimeState} {p : ExecutionPlanId}
    (adm : Admission st p) (hr : Resolvable st) (h : (reserve p st).fst.isOk) :
    adm.reservation.reservedWorkspace.toNat ≤ st.workspaceBudget adm.plan.target := by
  have ⟨tdef, ht⟩ := Table.exists_of_mem (hr.live adm.plan_eq adm.live).target
  simp only [reserve, adm.plan_eq, adm.planned, adm.targetRuntime_eq, ne_eq, not_true, if_false,
    subscript_reservation, Table.subscript_fst_of_some _ _ ht] at h
  split_ifs at h <;> try contradiction
  case neg hw =>
    simp only [RuntimeState.workspaceBudget, ht, Option.elim_some]
    exact UInt64.le_iff_toNat_le.mp (UInt64.not_lt.mp hw)

theorem Gauge.workspace_keeps {t : NearMemoryTargetId} {h : List (Event RuntimeState Op Outcome)}
    {op : Op} {st : RuntimeState} (hr : Resolvable st)
    (hp : ∀ (p : ExecutionPlanId) (plan : ExecutionPlan), st.plans[p]? = some plan →
      plan.lifecycle = .planned → plan.reservedWorkspace = 0)
    (hc : op.KeepsWorkspace t h st) : workspace.Keeps t h op st where
  take p adm hop ht := by
    subst hop ht
    have hw := hc adm.plan adm.plan_eq rfl adm.planned
    simp only [workspace, Admission.reservation, Admission.reserved, UInt64.toNat_add,
      Nat.mod_eq_of_lt hw, le_refl]
  give p plan hop hq ht he := by
    subst hop
    have none (hz : plan.reservedWorkspace = 0) : workspace.counter (st.reservation t) ≤
        workspace.counter ((st.reservation t).release plan) := by
      simp [workspace, ReservationState.release_workspace, hz]
    rcases holds_or (hr.used hq) he with hh | hl | hl
    · exact .inl hh
    · exact .inr (none (hp p plan hq hl))
    · rcases hc plan hq ht hl with ha | hz | hlt
      · exact .inl (.inr (.inr ⟨hl, hr.plans hq ▸ ha⟩))
      · exact .inr (none hz)
      · have hw := ReservationState.release_workspace_of_lt (UInt64.lt_iff_toNat_lt.mp hlt)
        exact .inr (congrArg UInt64.toNat hw).ge

-- The workspace that is reserved on a target never exceeds its budget, if the target is registered
-- once, the workspace counter never overflows and no forgotten workspace is given back.
theorem workspace_within_budget [Platform] {cid : CoordinatorId} {run : List Op}
    {t : NearMemoryTargetId}
    (hn : (history cid run).countP (Done (Op.registers t)) ≤ 1)
    (hc : Machine.EachStep (fun past op =>
      op.KeepsWorkspace t (history cid past) (after cid past)) run) :
    ∀ past, past <:+ run →
      (after cid past).workspaceInUse t ≤ (after cid past).workspaceBudget t := by
  intro past hs
  have hsub := (machine.events_suffix (init cid) hs).sublist
  suffices hg : Gauged .workspace t (history cid past) (after cid past) from hg.total_le
  refine gauged_after (hsub.countP_le.trans hn) ?_
  intro op past' hs'
  have hr := resolvable_after cid past'
  refine ⟨Gauge.workspace_keeps hr (fun _ _ => planned_workspace_after cid past')
    (hc (hs'.trans hs)), ?_⟩
  rintro p adm rfl ho ht
  exact ht ▸ adm.workspace_le_budget hr ho

section

open Deployment

def largeOperation (id : OperationId) : OperationSpec :=
  { operation id with workspaceBytes := 0x8000000000000000 }

-- Two plans, each of which takes more than half of the workspace.
def crowded : List Op := [
  .reserve { value := 11 },
  .plan { value := 11 } { value := 2 },
  .reserve { value := 10 },
  .plan { value := 10 } { value := 1 },
  .applyHeartbeat heartbeat,
  .applyDataEvidence evidence,
  .applyCapability { value := 1 } (fun _ => { value := 1 }) capability,
  .applyRegisterTarget { registration with
    concurrency := 2
    workspace   := 0xFFFFFFFFFFFFFFFF },
  .createOperation (largeOperation { value := 2 }),
  .createOperation (largeOperation { value := 1 })]

theorem workspace_overcommitted :
    (history { value := 1 } crowded).countP (Done (Op.registers { value := 1 })) = 1 ∧
    ¬(after { value := 1 } crowded).workspaceInUse { value := 1 } ≤
      (after { value := 1 } crowded).workspaceBudget { value := 1 } := by
  decide +kernel

theorem workspace_within_budget_of_deployment :
    (after { value := 1 } (dispatch ++ setup)).workspaceInUse { value := 1 } ≤
      (after { value := 1 } (dispatch ++ setup)).workspaceBudget { value := 1 } := by
  refine workspace_within_budget ?_ ?_ _ (List.suffix_refl _)
  · decide +kernel
  · simp only [dispatch, setup, List.cons_append, List.nil_append, Machine.eachStep_cons,
      Machine.eachStep_nil, Op.KeepsWorkspace, and_true, true_and]
    decide +kernel

end
end NMC
