import NearMemoryCompute.Execution.Theorems.Resolvable

namespace NMC

open Coordinator

namespace Op

def reserves (p : ExecutionPlanId) : Op → Bool
  | reserve q => q = p
  | _         => false

theorem not_loads_of_reserves {op : Op} {p : ExecutionPlanId} (h : op.reserves p) :
    op.loads = false := by
  cases op <;> first | rfl | contradiction

end Op

-- The plan has been admitted since the reservations were last cleared.
def Admitted (h : List (Event RuntimeState Op Outcome)) (p : ExecutionPlanId) : Prop :=
  Since (Done (Op.reserves p)) (Done Op.loads) h

-- The plan should have a share in what is reserved on its target.
def Holds (h : List (Event RuntimeState Op Outcome)) (plan : ExecutionPlan) : Prop :=
  plan.lifecycle = .reserved ∨ plan.lifecycle = .dispatched ∨
  plan.lifecycle = .outcomeUnknown ∧ Admitted h plan.id

-- What a plan contributes to a measure of the reservations on a target.
open Classical in
noncomputable def held (h : List (Event RuntimeState Op Outcome)) (t : NearMemoryTargetId)
    (w : ExecutionPlan → ℕ) (plan : ExecutionPlan) : ℕ :=
  if plan.target = t ∧ Holds h plan then w plan else 0

section Held

variable {h : List (Event RuntimeState Op Outcome)} {e : Event RuntimeState Op Outcome}
         {t : NearMemoryTargetId} {w : ExecutionPlan → ℕ} {plan : ExecutionPlan}

theorem held_of_holds (ht : plan.target = t) (hh : Holds h plan) : held h t w plan = w plan := by
  simp [held, ht, hh]

theorem held_of_ne (ht : plan.target ≠ t) : held h t w plan = 0 := by
  simp [held, ht]

theorem held_of_not_holds (hh : ¬Holds h plan) : held h t w plan = 0 := by
  simp [held, hh]

theorem held_le : held h t w plan ≤ w plan := by
  unfold held
  split <;> omega

-- A plan that holds something counts at least as much as any lighter plan on its target.
theorem held_le_of_holds {h' : List (Event RuntimeState Op Outcome)} {plan' : ExecutionPlan}
    (ht : plan'.target = plan.target) (hw : w plan' ≤ w plan) (hh : Holds h plan) :
    held h' t w plan' ≤ held h t w plan := by
  by_cases hp : plan.target = t
  case pos =>
    rw [held_of_holds hp hh]
    exact held_le.trans hw
  case neg => rw [held_of_ne (ht ▸ hp), held_of_ne hp]

theorem not_holds_planned (hl : plan.lifecycle = .planned) : ¬Holds h plan := by
  simp [Holds, hl]

theorem not_holds_ended (hl : plan.lifecycle.ended) : ¬Holds h plan := by
  rintro (hr | hr | ⟨hr, _⟩) <;> simp [hr, ExecutionLifecycle.ended] at hl

-- A plan that has not ended and holds nothing is not admitted yet, or its outcome is unknown.
theorem holds_or (hu : plan.lifecycle.unused = false) (hn : !plan.lifecycle.ended) :
    Holds h plan ∨ plan.lifecycle = .planned ∨ plan.lifecycle = .outcomeUnknown := by
  cases hl : plan.lifecycle <;>
    simp_all [Holds, ExecutionLifecycle.ended, ExecutionLifecycle.unused]

-- Only clearing all reservations or admitting a plan changes who holds something.
theorem holds_cons (hl : ¬Done Op.loads e)
    (hr : Done (Op.reserves plan.id) e → plan.lifecycle = .planned) :
    Holds (e :: h) plan ↔ Holds h plan := by
  by_cases hd : Done (Op.reserves plan.id) e
  case pos => simp [not_holds_planned (hr hd)]
  case neg => simp [Holds, Admitted, Since.cons_iff, hl, hd]

theorem held_cons (hl : ¬Done Op.loads e)
    (hr : Done (Op.reserves plan.id) e → plan.lifecycle = .planned) :
    held (e :: h) t w plan = held h t w plan := by
  classical
  exact if_congr (and_congr_right fun _ => holds_cons hl hr) rfl rfl

-- Clearing all reservations leaves nothing for plans that are dead.
theorem held_load (hl : Done Op.loads e) (hd : plan.lifecycle.dead) :
    held (e :: h) t w plan = 0 := by
  apply held_of_not_holds
  rintro (hr | hr | ⟨_, hr⟩)
  · simp [hr, ExecutionLifecycle.dead, ExecutionLifecycle.live] at hd
  · simp [hr, ExecutionLifecycle.dead, ExecutionLifecycle.live] at hd
  · rcases Since.cons_iff.mp hr with hr | ⟨hn, _⟩
    · exact absurd hl.1 (by simp [Op.not_loads_of_reserves hr.1])
    · exact hn hl

end Held

-- The total over all plans.
noncomputable def share (h : List (Event RuntimeState Op Outcome)) (t : NearMemoryTargetId)
    (w : ExecutionPlan → ℕ) (plans : Table ExecutionPlanId ExecutionPlan) : ℕ :=
  Table.total (held h t w) plans

section Share

variable {h : List (Event RuntimeState Op Outcome)} {e : Event RuntimeState Op Outcome}
         {t : NearMemoryTargetId} {w : ExecutionPlan → ℕ} {st : RuntimeState} {l : Ledger}
         {p : ExecutionPlanId} {plan : ExecutionPlan}

-- A plan that is admitted has been planned before.
theorem planned_of_reserves (hs : Ledger.Step st e.input e.output l)
    (hk : Table.Keyed ExecutionPlan.id st.plans) (hp : st.plans[p]? = some plan)
    (hd : Done (Op.reserves plan.id) e) : plan.lifecycle = .planned := by
  rw [hk hp] at hd
  obtain ⟨op, pre, out, post⟩ := e
  obtain ⟨hr, hd⟩ := hd
  cases op <;> try contradiction
  case reserve q =>
    have hq : q = p := by simpa [Op.reserves] using hr
    subst hq
    cases hs
    case idle hi => exact absurd (hi hd) nofun
    case reserve adm =>
      cases hp.symm.trans adm.plan_eq
      exact adm.planned

variable (hs : Ledger.Step st e.input e.output l) (hk : Table.Keyed ExecutionPlan.id st.plans)
         (hl : ¬Done Op.loads e)

include hs hk hl in
theorem share_cons : share (e :: h) t w st.plans = share h t w st.plans :=
  Table.total_congr fun _ _ hp => held_cons hl (planned_of_reserves hs hk hp)

-- Replacing a plan exchanges its contribution.
include hs hk hl in
theorem share_insert (hp : st.plans[p]? = some plan) (new : ExecutionPlan) :
    share (e :: h) t w (st.plans.insert p new) + held h t w plan =
      share h t w st.plans + held (e :: h) t w new := by
  rw [← held_cons hl (planned_of_reserves hs hk hp), ← share_cons hs hk hl]
  exact Table.total_insert_of_some hp

-- A new plan adds its contribution.
include hs hk hl in
theorem share_insert_of_none (hp : st.plans[p]? = none) (new : ExecutionPlan) :
    share (e :: h) t w (st.plans.insert p new) = share h t w st.plans + held (e :: h) t w new := by
  rw [← share_cons hs hk hl]
  exact Table.total_insert_of_none new hp

omit hs hk hl in
theorem share_load (hd : Done Op.loads e) (plans : Table ExecutionPlanId ExecutionPlan) :
    share (e :: h) t w (plans.map fun _ => ExecutionPlan.onEpoch) = 0 := by
  rw [share, Table.total_map]
  exact Table.total_eq_zero fun _ plan _ => held_load hd plan.onEpoch_dead

end Share

-- The counters after a plan has given back its share.
theorem ReservationState.release_slots (rs : ReservationState) (plan : ExecutionPlan) :
    (rs.release plan).reservedSlots.toNat = rs.reservedSlots.toNat - 1 := by
  simp only [release]
  split
  case isTrue hs =>
    rw [UInt64.toNat_sub_of_le]
    · rfl
    · exact UInt64.le_iff_toNat_le.mpr (UInt64.lt_iff_toNat_lt.mp hs)
  case isFalse hs =>
    have := UInt64.le_iff_toNat_le.mp (UInt64.not_lt.mp hs)
    simp at this
    simp [this]

theorem ReservationState.release_workspace {rs : ReservationState} {plan : ExecutionPlan}
    (h : plan.reservedWorkspace.toNat ≤ rs.reservedWorkspace.toNat) :
    (rs.release plan).reservedWorkspace.toNat =
      rs.reservedWorkspace.toNat - plan.reservedWorkspace.toNat := by
  have h := UInt64.le_iff_toNat_le.mpr h
  simp only [release, ge_iff_le, h, if_true]
  exact UInt64.toNat_sub_of_le _ _ h

theorem ReservationState.release_workspace_of_lt {rs : ReservationState} {plan : ExecutionPlan}
    (h : rs.reservedWorkspace.toNat < plan.reservedWorkspace.toNat) :
    (rs.release plan).reservedWorkspace = rs.reservedWorkspace := by
  have h := UInt64.not_le.mpr (UInt64.lt_iff_toNat_lt.mpr h)
  simp only [release, ge_iff_le, h, if_false]

theorem Admission.reservation_slots {st : RuntimeState} {p : ExecutionPlanId}
    (adm : Admission st p) :
    adm.reservation.reservedSlots.toNat =
      (st.reservation adm.plan.target).reservedSlots.toNat + 1 := by
  have h := UInt64.lt_iff_toNat_lt.mp adm.slots
  rw [UInt32.toNat_toUInt64] at h
  have hc := (Table.subscript st.targets adm.plan.target).fst.concurrencyCapacity.toNat_lt
  simp only [Admission.reservation, UInt64.toNat_add, UInt64.toNat_one]
  omega

end NMC
