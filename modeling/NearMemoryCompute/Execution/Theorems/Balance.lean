import NearMemoryCompute.Execution.Theorems.Accounting

namespace NMC

open Coordinator

namespace ExecutionLifecycle

-- The lifecycles of plans that may use a target.
def occupies : ExecutionLifecycle → Bool
  | reserved | dispatched | outcomeUnknown => true
  | _                                      => false

end ExecutionLifecycle

-- Nothing is reserved on a target that no plan uses.
def RuntimeState.Closed (st : RuntimeState) : Prop :=
  ∀ t : NearMemoryTargetId,
    (∀ (p : ExecutionPlanId) (plan : ExecutionPlan), st.plans[p]? = some plan → plan.target = t →
      !plan.lifecycle.occupies) →
    ∀ rs : ReservationState, st.reservations[t]? = some rs →
      rs.reservedSlots = 0 ∧ rs.reservedWorkspace = 0

-- The operation loses track of no share, judged by the state in which it starts: admitting a plan
-- does not overflow the workspace counter, no plan is found stale or completed with a wrong digest,
-- no plan is cancelled whose workspace was forgotten in a recovery, and plans are only withdrawn
-- at large if they hold no share or are in flight.
def Op.KeepsShares (op : Op) (h : List (Event RuntimeState Op Outcome)) (st : RuntimeState) :
    Prop :=
  match op with
  | .reserve p => ∀ plan ∈ st.plans[p]?, plan.lifecycle = .planned →
    (st.reservation plan.target).reservedWorkspace.toNat + (st.workspaceOf plan).toNat < 2 ^ 64
  | .prepareDispatch p _ _ => ∀ plan ∈ st.plans[p]?, plan.lifecycle = .reserved →
    stalenessLocked st plan = []
  | .applyResult _ msg => ∀ plan ∈ st.plans[msg.plan]?, completionError st plan msg = none →
    msg.unknown ∨ intact msg
  | .cancelPlan p => ∀ plan ∈ st.plans[p]?, plan.lifecycle = .outcomeUnknown →
    Admitted h p ∨ plan.reservedWorkspace = 0
  | .fenceWorker boot | .onWorkerDisconnected boot =>
    ∀ (p : ExecutionPlanId), ∀ plan ∈ st.plans[p]?,
      plan.authority.snapshot.workerBoot = boot → Holds h plan → plan.lifecycle = .dispatched
  | .retireTarget t =>
    t ∈ st.targetRuntime → ∀ (p : ExecutionPlanId), ∀ plan ∈ st.plans[p]?,
      plan.target = t → ¬Holds h plan
  | .advanceEpoch => ∀ (p : ExecutionPlanId), ∀ plan ∈ st.plans[p]?,
    Holds h plan → plan.lifecycle = .dispatched
  | _ => True

-- The counters of a target are covered by the plans that hold a share in them.
structure Balanced (h : List (Event RuntimeState Op Outcome)) (t : NearMemoryTargetId)
    (plans : Table ExecutionPlanId ExecutionPlan) (rs : ReservationState) : Prop where
  slots     : rs.reservedSlots.toNat ≤ share h t (fun _ => 1) plans
  workspace : rs.reservedWorkspace.toNat = share h t (·.reservedWorkspace.toNat) plans

-- The new plan has the same share in a target as the old one.
structure SameShare (t : NearMemoryTargetId) (h h' : List (Event RuntimeState Op Outcome))
    (plan plan' : ExecutionPlan) : Prop where
  target    : plan'.target = plan.target
  workspace : plan.target = t → plan'.reservedWorkspace = plan.reservedWorkspace
  holds     : plan.target = t → (Holds h' plan' ↔ Holds h plan)

theorem SameShare.held_eq {t : NearMemoryTargetId} {h h' : List (Event RuntimeState Op Outcome)}
    {plan plan' : ExecutionPlan} (hs : SameShare t h h' plan plan') {w : ExecutionPlan → ℕ}
    (hw : plan.target = t → w plan' = w plan) : held h' t w plan' = held h t w plan := by
  by_cases ht : plan.target = t
  case pos =>
    classical
    exact if_congr (and_congr (by rw [hs.target]) (hs.holds ht)) (hw ht) rfl
  case neg => rw [held_of_ne (hs.target ▸ ht), held_of_ne ht]

namespace Balanced

variable {h : List (Event RuntimeState Op Outcome)} {e : Event RuntimeState Op Outcome}
         {t : NearMemoryTargetId} {st : RuntimeState} {l : Ledger} {rs : ReservationState}
         {p : ExecutionPlanId} {plan new : ExecutionPlan}

section

variable (hb : Balanced h t st.plans rs) (hs : Ledger.Step st e.input e.output l)
         (hr : Resolvable st) (hl : ¬Done Op.loads e)

include hb hs hr hl

theorem idle : Balanced (e :: h) t st.plans rs where
  slots     := hb.slots.trans_eq (share_cons hs hr.plans hl).symm
  workspace := hb.workspace.trans (share_cons hs hr.plans hl).symm

theorem create (hp : st.plans[p]? = none) (hn : new.lifecycle = .planned) :
    Balanced (e :: h) t (st.plans.insert p new) rs where
  slots     := by
    rw [share_insert_of_none hs hr.plans hl hp, held_of_not_holds (not_holds_planned hn)]
    exact hb.slots
  workspace := by
    rw [share_insert_of_none hs hr.plans hl hp, held_of_not_holds (not_holds_planned hn)]
    exact hb.workspace

theorem keep (hp : st.plans[p]? = some plan) (hn : SameShare t h (e :: h) plan new) :
    Balanced (e :: h) t (st.plans.insert p new) rs := by
  have h₁ := share_insert (h := h) (t := t) (w := fun _ => 1) hs hr.plans hl hp new
  have h₂ := share_insert (h := h) (t := t) (w := (·.reservedWorkspace.toNat)) hs hr.plans hl hp new
  rw [hn.held_eq fun _ => rfl] at h₁
  rw [hn.held_eq fun ht => congrArg UInt64.toNat (hn.workspace ht)] at h₂
  have := hb.slots
  have := hb.workspace
  constructor <;> omega

omit hs hr hl in
theorem sweep {f : ExecutionPlan → ExecutionPlan}
    (hf : ∀ (p : ExecutionPlanId) (plan : ExecutionPlan), st.plans[p]? = some plan →
      SameShare t h (e :: h) plan (f plan)) :
    Balanced (e :: h) t (st.plans.map fun _ => f) rs where
  slots     := by
    rw [share, Table.total_map]
    refine hb.slots.trans_eq (Table.total_congr fun p plan hp => ?_)
    exact ((hf p plan hp).held_eq fun _ => rfl).symm
  workspace := by
    rw [share, Table.total_map]
    refine hb.workspace.trans (Table.total_congr fun p plan hp => ?_)
    have hs := hf p plan hp
    exact (hs.held_eq fun ht => congrArg UInt64.toNat (hs.workspace ht)).symm

-- A plan that holds a share ends and gives it back. A plan without a share does no harm to the
-- workspace if it has none itself.
theorem give (hp : st.plans[p]? = some plan) (ht : plan.target = t)
    (hh : Holds h plan ∨ plan.reservedWorkspace = 0) (he : new.lifecycle.ended) :
    Balanced (e :: h) t (st.plans.insert p new) (rs.release plan) := by
  have h₁ := share_insert (h := h) (t := t) (w := fun _ => 1) hs hr.plans hl hp new
  have h₂ := share_insert (h := h) (t := t) (w := (·.reservedWorkspace.toNat)) hs hr.plans hl hp new
  rw [held_of_not_holds (not_holds_ended he)] at h₁ h₂
  have hle : held h t (·.reservedWorkspace.toNat) plan = plan.reservedWorkspace.toNat := by
    by_cases hh' : Holds h plan
    case pos => rw [held_of_holds ht hh']
    case neg => simp [held_of_not_holds hh', hh.resolve_left hh']
  have hle₁ : held h t (fun _ => 1) plan ≤ 1 := held_le
  rw [hle] at h₂
  have := hb.slots
  have hw := hb.workspace
  constructor
  · rw [ReservationState.release_slots]
    omega
  · rw [ReservationState.release_workspace (by omega)]
    omega

end

-- A plan takes a share.
theorem take (adm : Admission st p)
    (hb : Balanced h adm.plan.target st.plans (st.reservation adm.plan.target))
    (hs : Ledger.Step st e.input e.output l) (hr : Resolvable st) (hl : ¬Done Op.loads e)
    (hf : (st.reservation adm.plan.target).reservedWorkspace.toNat +
      (st.workspaceOf adm.plan).toNat < 2 ^ 64) :
    Balanced (e :: h) adm.plan.target (st.plans.insert p adm.reserved) adm.reservation := by
  have h₁ := share_insert (h := h) (t := adm.plan.target) (w := fun _ => 1) hs hr.plans hl
    adm.plan_eq adm.reserved
  have h₂ := share_insert (h := h) (t := adm.plan.target) (w := (·.reservedWorkspace.toNat))
    hs hr.plans hl adm.plan_eq adm.reserved
  have ht : adm.reserved.target = adm.plan.target := rfl
  have hh : Holds (e :: h) adm.reserved := .inl rfl
  rw [held_of_not_holds (not_holds_planned adm.planned), held_of_holds ht hh] at h₁ h₂
  have h₃ := hb.slots
  have h₄ := hb.workspace
  constructor
  · rw [adm.reservation_slots]
    omega
  · simp only [Admission.reservation, UInt64.toNat_add, Nat.mod_eq_of_lt hf]
    rw [h₄]
    exact h₂.symm

end Balanced

section Withdrawal

variable {h : List (Event RuntimeState Op Outcome)} {plan : ExecutionPlan}

theorem Holds.not_ended (hh : Holds h plan) : !plan.lifecycle.ended := by
  simpa using fun he => not_holds_ended he hh

theorem onEpoch_not_ended (hd : plan.lifecycle = .dispatched) :
    !plan.onEpoch.lifecycle.ended := by
  simp [ExecutionPlan.onEpoch, hd, ExecutionLifecycle.inFlight, ExecutionLifecycle.ended]

theorem Holds.onFence_not_ended {boot : WorkerBootId} (hh : Holds h plan)
    (hd : plan.authority.snapshot.workerBoot = boot → plan.lifecycle = .dispatched) :
    !(plan.onFence boot).lifecycle.ended := by
  unfold ExecutionPlan.onFence
  split
  case isTrue hb =>
    simp [hd hb.1, ExecutionLifecycle.inFlight, ExecutionLifecycle.ended]
  case isFalse => exact hh.not_ended

theorem Holds.onRetire_not_ended {t : NearMemoryTargetId} (hh : Holds h plan)
    (ht : plan.target ≠ t) : !(plan.onRetire t).lifecycle.ended := by
  unfold ExecutionPlan.onRetire
  rw [if_neg fun hr => ht hr.1]
  exact hh.not_ended

end Withdrawal

-- The books of all targets, what a plan that is not admitted has reserved, and since when the
-- others have been admitted.
structure Books (h : List (Event RuntimeState Op Outcome)) (st : RuntimeState) : Prop where
  balanced : ∀ t, Balanced h t st.plans (st.reservation t)
  planned  : ∀ ⦃p : ExecutionPlanId⦄ ⦃plan : ExecutionPlan⦄, st.plans[p]? = some plan →
    plan.lifecycle = .planned → plan.reservedWorkspace = 0
  admitted : ∀ ⦃p : ExecutionPlanId⦄ ⦃plan : ExecutionPlan⦄, st.plans[p]? = some plan →
    plan.lifecycle.admitted → Admitted h p

namespace Books

variable {h : List (Event RuntimeState Op Outcome)} {st : RuntimeState}

theorem closed (hb : Books h st) : st.Closed := by
  intro t hn rs hrs
  have hz {w : ExecutionPlan → ℕ} : share h t w st.plans = 0 := by
    apply Table.total_eq_zero
    intro p plan hp
    by_cases ht : plan.target = t
    case pos =>
      apply held_of_not_holds
      have ho := hn p plan hp ht
      rintro (hl | hl | ⟨hl, _⟩) <;> simp [hl, ExecutionLifecycle.occupies] at ho
    case neg => exact held_of_ne ht
  have hb := hb.balanced t
  rw [show st.reservation t = rs by simp [RuntimeState.reservation, hrs]] at hb
  have h₁ := hb.slots
  have h₂ := hb.workspace
  rw [hz] at h₁ h₂
  exact ⟨UInt64.toNat_inj.mp (Nat.le_zero.mp h₁), UInt64.toNat_inj.mp h₂⟩

variable {e : Event RuntimeState Op Outcome} {l : Ledger}

theorem planned_step (hb : Books h st) (hs : Ledger.Step st e.input e.output l)
    {p : ExecutionPlanId} {plan : ExecutionPlan} (hp : l.plans[p]? = some plan)
    (hl : plan.lifecycle = .planned) : plan.reservedWorkspace = 0 := by
  rcases hs.planned_origin hp hl with ⟨_, _, _, rfl⟩ | hp
  · rfl
  · exact hb.planned hp hl

theorem admitted_step (hb : Books h st) (hs : Ledger.Step st e.input e.output l)
    {p : ExecutionPlanId} {plan : ExecutionPlan} (hp : l.plans[p]? = some plan)
    (ha : plan.lifecycle.admitted) : Admitted (e :: h) p := by
  have hl := (hs.of_live hp (ExecutionLifecycle.live_of_admitted ha)).2
  obtain ⟨op, pre, out, post⟩ := e
  cases hs.admits hp ha
  case reserve         => exact .now ⟨decide_eq_true rfl, rfl⟩
  case prepare prep _  => exact (hb.admitted prep.plan_eq (prep.reserved ▸ rfl)).later hl
  case confirm hq hr _ => exact (hb.admitted hq (hr ▸ rfl)).later hl
  case stay hq         => exact (hb.admitted hq ha).later hl

variable (hb : Books h st) (hr : Resolvable st) (hs : Ledger.Step st e.input e.output l)

-- A plan that was in flight still holds its share if its outcome is unknown.
include hb hr in
theorem sameShare_unknown {t : NearMemoryTargetId} {p : ExecutionPlanId} {plan : ExecutionPlan}
    (hp : st.plans[p]? = some plan) (hd : plan.lifecycle = .dispatched) (hl : ¬Done Op.loads e) :
    SameShare t h (e :: h) plan { plan with lifecycle := .outcomeUnknown } := by
  have ha : Admitted h plan.id := by
    rw [hr.plans hp]
    exact hb.admitted hp (by simp [hd, ExecutionLifecycle.admitted])
  exact ⟨rfl, fun _ => rfl, fun _ => iff_of_true (.inr (.inr ⟨rfl, ha.later hl⟩)) (.inr (.inl hd))⟩

include hb hr hs in
theorem sameShare_swept {t : NearMemoryTargetId} {p : ExecutionPlanId} {plan plan' : ExecutionPlan}
    (hp : st.plans[p]? = some plan) (hw : plan.Swept plan') (hl : ¬Done Op.loads e)
    (ha : Holds h plan → !plan'.lifecycle.ended) : SameShare t h (e :: h) plan plan' := by
  cases hw
  case spared =>
    exact ⟨rfl, fun _ => rfl, fun _ => holds_cons hl (planned_of_reserves hs hr.plans hp)⟩
  case withdrawn hw =>
    refine ⟨rfl, fun _ => rfl, fun _ => iff_of_false (not_holds_ended ?_) fun hh => ?_⟩
    · rcases hw with rfl | rfl <;> rfl
    · have ha := ha hh
      rcases hw with rfl | rfl <;> contradiction
  case unknown hf =>
    have hd := ExecutionLifecycle.dispatched_of_inFlight hf (hr.used hp)
    exact hb.sameShare_unknown hr hp hd hl

-- The plan that is released holds a share, or it has reserved no workspace.
include hb hr in
theorem holds_of_cancel {p : ExecutionPlanId} {plan : ExecutionPlan} (hp : st.plans[p]? = some plan)
    (hn : !plan.lifecycle.ended)
    (hc : plan.lifecycle = .outcomeUnknown → Admitted h p ∨ plan.reservedWorkspace = 0) :
    Holds h plan ∨ plan.reservedWorkspace = 0 := by
  rcases holds_or (hr.used hp) hn with hh | hl | hl
  · exact .inl hh
  · exact .inr (hb.planned hp hl)
  · exact (hc hl).imp_left fun ha => .inr (.inr ⟨hl, hr.plans hp ▸ ha⟩)

theorem balanced_release {t : NearMemoryTargetId} {p : ExecutionPlanId} {plan new : ExecutionPlan}
    (hb : Books h st) (hr : Resolvable st) (hs : Ledger.Step st e.input e.output l)
    (hl : ¬Done Op.loads e) (hp : st.plans[p]? = some plan)
    (hh : Holds h plan ∨ plan.reservedWorkspace = 0) (ht : new.target = plan.target)
    (he : new.lifecycle.ended) :
    Balanced (e :: h) t (st.plans.insert p new) ((st.ledger.release plan).reservation t) := by
  by_cases htt : plan.target = t
  case pos =>
    subst htt
    rw [Ledger.release_self]
    exact (hb.balanced _).give hs hr hl hp rfl hh he
  case neg =>
    rw [Ledger.release_of_ne _ htt]
    exact (hb.balanced _).keep hs hr hl hp ⟨ht, (absurd · htt), (absurd · htt)⟩

theorem balanced_sweep {t : NearMemoryTargetId} {f : ExecutionPlan → ExecutionPlan}
    (hb : Books h st) (hr : Resolvable st) (hs : Ledger.Step st e.input e.output l)
    (hl : ¬Done Op.loads e) (hf : ∀ plan : ExecutionPlan, plan.Swept (f plan))
    (ha : ∀ (p : ExecutionPlanId) (plan : ExecutionPlan), st.plans[p]? = some plan →
      Holds h plan → !(f plan).lifecycle.ended) :
    Balanced (e :: h) t (st.plans.map fun _ => f) (st.reservation t) :=
  (hb.balanced t).sweep fun p plan hp => hb.sameShare_swept hr hs hp (hf plan) hl (ha p plan hp)

theorem balanced_step (hb : Books h st) (hr : Resolvable st)
    (hs : Ledger.Step st e.input e.output l) (hu : e.input.planIdUnused st)
    (hc : e.input.KeepsShares h st) (t : NearMemoryTargetId) :
    Balanced (e :: h) t l.plans (l.reservation t) := by
  have hs' := hs
  obtain ⟨op, pre, out, post⟩ := e
  cases hs
  case idle hi => exact (hb.balanced t).idle hs' hr (Op.not_loads_of_idle hi)
  case plan id o _ sel =>
    have hn : st.plans[id]? = none := Std.ExtTreeMap.getElem?_eq_none (of_decide_eq_true hu)
    exact (hb.balanced t).create hs' hr nofun hn rfl
  case reserve p adm =>
    by_cases ht : adm.plan.target = t
    case pos =>
      subst ht
      rw [Ledger.hold_self]
      exact (hb.balanced _).take adm hs' hr nofun (hc adm.plan adm.plan_eq adm.planned)
    case neg =>
      rw [Ledger.hold_of_ne _ ht]
      exact (hb.balanced t).keep hs' hr nofun adm.plan_eq ⟨rfl, (absurd · ht), (absurd · ht)⟩
  case prepare prep _ =>
    refine (hb.balanced t).keep hs' hr nofun prep.plan_eq ⟨rfl, fun _ => rfl, fun _ => ?_⟩
    exact iff_of_true (.inl prep.reserved) (.inl prep.reserved)
  case supersede plan _ hp hl hst => exact absurd (hc plan hp hl) hst
  case confirm hp hl _ =>
    refine (hb.balanced t).keep hs' hr nofun hp ⟨rfl, fun _ => rfl, fun _ => ?_⟩
    exact iff_of_true (.inr (.inl rfl)) (.inl hl)
  case ambiguous c _ _ _ _ =>
    have hd := c.dispatched hr
    exact (hb.balanced t).keep hs' hr nofun c.plan_eq (hb.sameShare_unknown hr c.plan_eq hd nofun)
  case mismatch c hnu hni _ _ _ =>
    rcases hc c.plan c.plan_eq c.accepted with hu | hi
    · simp [hu] at hnu
    · simp [hi] at hni
  case commit c _ _ _ _ _ =>
    have hh : Holds h c.plan := .inr (.inl (c.dispatched hr))
    exact hb.balanced_release hr hs' nofun c.plan_eq (.inl hh) rfl rfl
  case cancel p plan hp he =>
    have hh := hb.holds_of_cancel hr hp he (hc plan hp)
    exact hb.balanced_release hr hs' nofun hp hh rfl rfl
  case load => exact ⟨Nat.zero_le _, (share_load ⟨rfl, rfl⟩ _).symm⟩
  case advance =>
    refine hb.balanced_sweep hr hs' nofun (fun _ => ExecutionPlan.swept_onEpoch) ?_
    intro p plan hp hh
    exact onEpoch_not_ended (hc p plan hp hh)
  case fence =>
    refine hb.balanced_sweep hr hs' nofun (fun _ => ExecutionPlan.swept_onFence) ?_
    intro p plan hp hh
    exact hh.onFence_not_ended fun hb => hc p plan hp hb hh
  case disconnect =>
    refine hb.balanced_sweep hr hs' nofun (fun _ => ExecutionPlan.swept_onFence) ?_
    intro p plan hp hh
    exact hh.onFence_not_ended fun hb => hc p plan hp hb hh
  case retire hrt =>
    refine hb.balanced_sweep hr hs' nofun (fun _ => ExecutionPlan.swept_onRetire) ?_
    intro p plan hp hh
    exact hh.onRetire_not_ended fun ht => hc (Table.mem_of_some hrt) p plan hp ht hh

theorem init (cid : CoordinatorId) : Books [] (init cid) where
  balanced t   := ⟨Nat.zero_le _, Table.total_empty.symm⟩
  planned _ _  := by simp [Coordinator.init]
  admitted _ _ := by simp [Coordinator.init]

theorem step [Platform] {op : Op} (hb : Books h st) (hr : Resolvable st)
    (hu : op.planIdUnused st) (hc : op.KeepsShares h st) :
    Books (machine.event op st :: h) (Coordinator.step op st).snd where
  balanced       := hb.balanced_step (e := machine.event op st) hr (step_refines op st) hu hc
  planned _ _    := hb.planned_step (e := machine.event op st) (step_refines op st)
  admitted _ _   := hb.admitted_step (e := machine.event op st) (step_refines op st)

end Books

-- The books of every target close in every state of a run that loses track of no share.
theorem accounting_closes [Platform] {cid : CoordinatorId} {run : List Op}
    (hu : Machine.EachStep (fun past op => op.planIdUnused (after cid past)) run)
    (hc : Machine.EachStep (fun past op =>
      op.KeepsShares (history cid past) (after cid past)) run) :
    ∀ past, past <:+ run → (after cid past).Closed := by
  intro past hs
  have hc : Machine.EachStep (fun past op => op.planIdUnused (after cid past) ∧
      op.KeepsShares (history cid past) (after cid past)) past :=
    fun op past' hs' => ⟨hu (hs'.trans hs), hc (hs'.trans hs)⟩
  refine Books.closed (h := history cid past) ?_
  refine machine.invariant_of_eachStep _ (I := fun past => Books (history cid past)) ?_ ?_ hc
  · exact Books.init cid
  · intro past op ⟨hu, hc⟩ hb
    exact hb.step (resolvable_after cid past) hu hc

section

open Deployment

-- A plan loses its share if its output does not match the digest, if it turns out to be stale, if
-- its worker is fenced or disconnects, if its target is retired, and if a new epoch begins.
def leaks : List (List Op) := [
  [.applyResult { value := 40 } { completion with output := [1] }] ++ dispatch,
  [.prepareDispatch { value := 10 } { value := 20 } { value := 30 },
    .applyRegisterTarget { registration with generation := { value := 2 } },
    .reserve { value := 10 }, .plan { value := 10 } { value := 1 }],
  [.fenceWorker { value := 1 }, .reserve { value := 10 }, .plan { value := 10 } { value := 1 }],
  [.onWorkerDisconnected { value := 1 }, .reserve { value := 10 },
    .plan { value := 10 } { value := 1 }],
  [.retireTarget { value := 1 }] ++ dispatch,
  [.advanceEpoch, .reserve { value := 10 }, .plan { value := 10 } { value := 1 }]]

theorem leaks_not_closed :
    leaks.Forall fun run =>
      Machine.EachStep (fun past op => op.planIdUnused (after { value := 1 } past)) (run ++ setup) ∧
      ¬(after { value := 1 } (run ++ setup)).Closed := by
  refine List.forall_iff_forall_mem.mpr fun run hr => ?_
  have h : ∀ run ∈ leaks,
      (after { value := 1 } (run ++ setup)).plans.toList.all (!·.2.lifecycle.occupies) ∧
      (after { value := 1 } (run ++ setup)).reservations[({ value := 1 } : NearMemoryTargetId)]? =
        some { reservedSlots := 1, reservedWorkspace := 10 } := by
    decide +kernel
  have hu : ∀ run ∈ leaks, Machine.EachStep
      (fun past op => op.planIdUnused (after { value := 1 } past)) (run ++ setup) := by
    decide +kernel
  have ⟨hp, hs⟩ := h run hr
  refine ⟨hu run hr, fun hc => ?_⟩
  have ⟨hz, _⟩ := hc { value := 1 } (fun p plan hq _ => ?_) _ hs
  · contradiction
  · exact List.all_eq_true.mp hp (p, plan) (Std.ExtTreeMap.mem_toList_iff_getElem?_eq_some.mpr hq)

theorem accounting_closes_of_deployment :
    (after { value := 1 }
      (.applyResult { value := 40 } completion :: dispatch ++ setup)).Closed := by
  refine accounting_closes ?_ ?_ _ (List.suffix_refl _)
  · decide +kernel
  · simp only [dispatch, setup, List.cons_append, List.nil_append, Machine.eachStep_cons,
      Machine.eachStep_nil, Op.KeepsShares, and_true, true_and]
    refine ⟨fun _ _ _ => .inr (by decide +kernel), by decide +kernel, by decide +kernel⟩

end
end NMC
