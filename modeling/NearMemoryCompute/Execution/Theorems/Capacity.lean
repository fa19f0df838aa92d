import NearMemoryCompute.Execution.Theorems.Gauge

namespace NMC

open Coordinator

-- How many plans occupy a target.
def RuntimeState.occupancy (st : RuntimeState) (t : NearMemoryTargetId) : ℕ :=
  Table.total (fun plan => if plan.target = t ∧
    (plan.lifecycle = .reserved ∨ plan.lifecycle = .dispatched) then 1 else 0) st.plans

def RuntimeState.capacity (st : RuntimeState) (t : NearMemoryTargetId) : ℕ :=
  (st.targets[t]?).elim 0 (·.concurrencyCapacity.toNat)

-- A plan on the target is cancelled only if it holds a slot, or if no slot is taken.
def Op.CancelsHolder (op : Op) (t : NearMemoryTargetId)
    (h : List (Event RuntimeState Op Outcome)) (st : RuntimeState) : Prop :=
  match op with
  | .cancelPlan p => ∀ plan, st.plans[p]? = some plan → plan.target = t →
    !plan.lifecycle.ended → Holds h plan ∨ (st.reservation t).reservedSlots = 0
  | _ => True

def Gauge.slots : Gauge where
  weight _           := 1
  counter rs         := rs.reservedSlots.toNat
  limit tdef         := tdef.concurrencyCapacity.toNat
  weight_eq _        := rfl
  counter_empty      := rfl
  release_le rs plan := (rs.release_slots plan).trans_le (Nat.sub_le ..)
  le_release rs plan := by
    rw [rs.release_slots plan]
    omega

-- The counter of slots can not overflow, since it is below a 32-bit capacity.
theorem Gauge.slots_keeps {t : NearMemoryTargetId} {h : List (Event RuntimeState Op Outcome)}
    {op : Op} {st : RuntimeState} (hc : op.CancelsHolder t h st) : slots.Keeps t h op st where
  take p adm _ ht := ht ▸ adm.reservation_slots.ge
  give p plan hop hp ht he := by
    subst hop
    refine (hc plan hp ht he).imp_right fun hz => ?_
    simp [slots, ReservationState.release_slots, hz]

theorem Admission.slots_le_capacity {st : RuntimeState} {p : ExecutionPlanId}
    (adm : Admission st p) (hr : Resolvable st) :
    adm.reservation.reservedSlots.toNat ≤ st.capacity adm.plan.target := by
  have ⟨tdef, ht⟩ := Table.exists_of_mem (hr.live adm.plan_eq adm.live).target
  have h := UInt64.lt_iff_toNat_lt.mp adm.slots
  rw [Table.subscript_fst_of_some _ _ ht, UInt32.toNat_toUInt64] at h
  simp only [adm.reservation_slots, RuntimeState.capacity, ht, Option.elim_some]
  omega

-- A target that is registered once is never given more plans than it has capacity for, unless a
-- plan that holds no slot is cancelled and takes the slot of another plan with it.
theorem no_overcommit [Platform] {cid : CoordinatorId} {run : List Op} {t : NearMemoryTargetId}
    (hn : (history cid run).countP (Done (Op.registers t)) ≤ 1)
    (hc : Machine.EachStep (fun past op =>
      op.CancelsHolder t (history cid past) (after cid past)) run) :
    ∀ past, past <:+ run → (after cid past).occupancy t ≤ (after cid past).capacity t := by
  intro past hs
  have hsub := (machine.events_suffix (init cid) hs).sublist
  suffices hg : Gauged .slots t (history cid past) (after cid past) from hg.total_le
  refine gauged_after (hsub.countP_le.trans hn) ?_
  intro op past' hs'
  refine ⟨Gauge.slots_keeps (hc (hs'.trans hs)), ?_⟩
  intro p adm _ _ ht
  exact ht ▸ adm.slots_le_capacity (resolvable_after cid past')

section

open Deployment

-- While the first plan occupies the only slot, a plan that was never admitted is cancelled.
def released : List Op :=
  .reserve { value := 12 } :: .cancelPlan { value := 11 } ::
  .plan { value := 12 } { value := 3 } :: .plan { value := 11 } { value := 2 } ::
  .reserve { value := 10 } :: .plan { value := 10 } { value := 1 } :: setup

theorem released_overcommits :
    (history { value := 1 } released).countP (Done (Op.registers { value := 1 })) = 1 ∧
    ¬(after { value := 1 } released).occupancy { value := 1 } ≤
      (after { value := 1 } released).capacity { value := 1 } := by
  decide +kernel

theorem no_overcommit_of_deployment :
    (after { value := 1 } (.cancelPlan { value := 10 } :: dispatch ++ setup)).occupancy
      { value := 1 } ≤
    (after { value := 1 } (.cancelPlan { value := 10 } :: dispatch ++ setup)).capacity
      { value := 1 } := by
  refine no_overcommit ?_ ?_ _ (List.suffix_refl _)
  · decide +kernel
  · simp only [dispatch, setup, List.cons_append, List.nil_append, Machine.eachStep_cons,
      Machine.eachStep_nil, Op.CancelsHolder, and_true]
    intro plan hp _ _
    have hl : (after { value := 1 } (dispatch ++ setup)).plans[({ value := 10 } :
        ExecutionPlanId)]?.map (·.lifecycle) = some .dispatched := by
      decide +kernel
    simp only [dispatch, setup, List.cons_append, List.nil_append, hp, Option.map_some,
      Option.some.injEq] at hl
    exact .inl (.inr (.inl hl))

end
end NMC
