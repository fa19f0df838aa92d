import NearMemoryCompute.Execution.Theorems.Resolvable

namespace NMC

open Coordinator

-- The operation takes back a plan that is not committed. Loading and cancelling do so only if they
-- succeed.
def Op.Withdraws (op : Op) (out : Outcome) (p : ExecutionPlanId) (plan : ExecutionPlan) : Prop :=
  match op with
  | .advanceEpoch              => True
  | .load _                    => out.succeeded
  | .fenceWorker boot          => plan.authority.snapshot.workerBoot = boot
  | .onWorkerDisconnected boot => plan.authority.snapshot.workerBoot = boot
  | .retireTarget t            => plan.target = t
  | .cancelPlan q              => q = p ∧ out.succeeded
  | _                          => False

-- A plan is committed, admitted or sent to a worker.
def Progresses (p : ExecutionPlanId) (e : Event RuntimeState Op Outcome) : Prop :=
  match e.input, e.output with
  | .applyResult _ msg, .result (.ok res)      => msg.plan = p ∧ res.committed
  | .reserve q, .unit (.ok _)                  => q = p
  | .prepareDispatch q _ _, .dispatch (.ok _)  => q = p
  | _, _                                       => False

-- Either the plan does not exist, or nothing can be done with it anymore.
def Ledger.Dead (p : ExecutionPlanId) (l : Ledger) : Prop :=
  ∀ ⦃plan : ExecutionPlan⦄, l.plans[p]? = some plan → plan.lifecycle.dead

namespace Ledger.Dead

variable {st : RuntimeState} {op : Op} {out : Outcome} {l : Ledger} {p : ExecutionPlanId}

theorem of_sweep {f : ExecutionPlan → ExecutionPlan}
    (h : ∀ ⦃plan : ExecutionPlan⦄, l.plans[p]? = some plan → (f plan).lifecycle.dead) :
    (l.sweep f).Dead p := by
  intro plan' hp
  obtain ⟨plan, hq, rfl⟩ := Table.getElem?_map_eq_some hp
  exact h hq

theorem nextEpoch : l.nextEpoch.Dead p :=
  of_sweep (f := ExecutionPlan.onEpoch) fun plan _ => plan.onEpoch_dead

-- Only a new plan under the same identity could be live again.
theorem step (h : Step st op out l) (hn : ∀ o, op ≠ .plan p o) (hd : st.ledger.Dead p) :
    l.Dead p := by
  intro plan' hp
  cases h.origin hp
  case created o _ ho _ => exact absurd ho (hn o)
  case loaded he        => exact he ▸ ExecutionPlan.onEpoch_dead
  case evolved hq he    => exact he.lifecycle.dead (hd hq)

theorem not_progresses (h : Step st op out l) (hd : st.ledger.Dead p) {st' : RuntimeState} :
    ¬Progresses p { input := op, pre := st, output := out, post := st' } := by
  intro hp
  cases h
  case reserve adm =>
    cases hp
    have := hd adm.plan_eq
    simp [adm.planned] at this
    contradiction
  case prepare prep _ =>
    cases hp
    have := hd prep.plan_eq
    simp [prep.reserved] at this
    contradiction
  case commit c _ _ _ _ _ =>
    obtain ⟨rfl, _⟩ := hp
    simpa [ExecutionLifecycle.dead, c.accepts.inFlight] using hd c.plan_eq
  case ambiguous hc     => simp [Progresses, hc] at hp
  case mismatch hc      => simp [Progresses, hc] at hp
  case idle hi =>
    simp only [Progresses] at hp
    split at hp
    case h_4 => exact hp
    all_goals exact absurd (hi rfl) Bool.false_ne_true
  all_goals exact hp

end Ledger.Dead

section Withdrawal

variable {st : RuntimeState} {p : ExecutionPlanId} {plan : ExecutionPlan}

theorem retireTarget_dead (hr : Resolvable st) (hp : st.plans[p]? = some plan) :
    (retireTarget plan.target st).snd.ledger.Dead p := by
  have same {plan' : ExecutionPlan} (hq : st.plans[p]? = some plan') : plan' = plan :=
    Option.some.inj (hq.symm.trans hp)
  simp only [retireTarget]
  split
  case h_2 =>
    refine Ledger.Dead.of_sweep (l := st.ledger) (f := (·.onRetire plan.target)) ?_
    intro plan' hq
    exact same hq ▸ plan.onRetire_dead
  -- The target of a live plan is known, so the operation can only fail for a plan that is dead.
  case h_1 ht =>
    intro plan' hq
    cases same hq
    refine ExecutionLifecycle.dead_of_not_live ?_ (hr.used hp)
    by_contra hl
    obtain ⟨trt, hrt⟩ := Table.exists_of_mem (hr.live hp (by simpa using hl)).targetRuntime
    simp [ht] at hrt

theorem cancelPlan_dead (hs : (cancelPlan p st).fst.isOk) :
    (cancelPlan p st).snd.ledger.Dead p := by
  have h : Ledger.Step st _ _ _ := cancelPlan_refines p
  generalize cancelPlan p st = next at h hs
  obtain ⟨res, st'⟩ := next
  generalize st'.ledger = l at h
  cases h
  case idle hi => exact absurd (hi hs) nofun
  case cancel =>
    intro plan' hq
    rcases Table.getElem?_insert_eq_some hq with ⟨_, rfl⟩ | ⟨hne, _⟩
    · rfl
    · exact absurd rfl hne

theorem load_dead {file : File} (hs : (load file st).fst.isOk) :
    (load file st).snd.ledger.Dead p := by
  have h : Ledger.Step st _ _ _ := load_refines file
  generalize load file st = next at h hs
  obtain ⟨res, st'⟩ := next
  generalize st'.ledger = l at h
  cases h
  case idle hi => exact absurd (hi hs) nofun
  case load    => exact Ledger.Dead.nextEpoch

theorem withdraws_dead [Platform] {op : Op} (hr : Resolvable st) (hp : st.plans[p]? = some plan)
    (hw : op.Withdraws (step op st).fst p plan) : (step op st).snd.ledger.Dead p := by
  have fence {boot : WorkerBootId} (hb : plan.authority.snapshot.workerBoot = boot) :
      (st.ledger.sweep (·.onFence boot)).Dead p := by
    refine .of_sweep fun plan' hq => ?_
    cases hp.symm.trans hq
    exact hb ▸ plan.onFence_dead
  cases op <;> try contradiction
  case advanceEpoch              => exact Ledger.Dead.nextEpoch (l := st.ledger)
  case load file                 => exact load_dead hw
  case fenceWorker boot          => exact fence hw
  case onWorkerDisconnected boot => exact fence hw
  case retireTarget t =>
    cases hw
    exact retireTarget_dead hr hp
  case cancelPlan q =>
    obtain ⟨rfl, hs⟩ := hw
    exact cancelPlan_dead hs

end Withdrawal

-- Once a plan has been withdrawn, no run whatsoever makes any progress with it, as long as its
-- identity is not given to another plan.
theorem withdrawal_final [Platform] (cid : CoordinatorId) (run : List Op) (op : Op)
    (p : ExecutionPlanId) (plan : ExecutionPlan) (hp : (after cid run).plans[p]? = some plan)
    (hw : op.Withdraws (step op (after cid run)).fst p plan)
    (future : List Op) (hf : ∀ o, Op.plan p o ∉ future) :
    ∀ e ∈ machine.events (after cid (op :: run)) future, ¬Progresses p e := by
  have hn : Machine.EachStep (fun _ op => ∀ o, op ≠ Op.plan p o) future := by
    rintro _ past hs o rfl
    exact hf o (hs.subset (.head _))
  intro e he
  obtain ⟨op', past, hs, rfl⟩ := machine.mem_events _ he
  have hd : (machine.after (after cid (op :: run)) past).ledger.Dead p := by
    refine machine.invariant_of_eachStep _ (I := fun _ st => st.ledger.Dead p)
      (withdraws_dead (resolvable_after cid run) hp hw) ?_
      (hn.suffix ((List.suffix_cons _ _).trans hs))
    intro _ op hn hd
    exact hd.step (step_refines op _) hn
  exact hd.not_progresses (step_refines op' _)

open Deployment in
theorem withdrawal_final_of_deployment : ∃ plan : ExecutionPlan,
    (after { value := 1 } (dispatch ++ setup)).plans[({ value := 10 } : ExecutionPlanId)]? =
      some plan ∧
    ∀ e ∈ machine.events (after { value := 1 } (.fenceWorker { value := 1 } :: (dispatch ++ setup)))
      [.applyResult { value := 40 } completion, .applyHeartbeat heartbeat],
    ¬Progresses { value := 10 } e := by
  obtain ⟨plan, hp, hb⟩ : ∃ plan : ExecutionPlan,
      (after { value := 1 } (dispatch ++ setup)).plans[({ value := 10 } : ExecutionPlanId)]? =
        some plan ∧ plan.authority.snapshot.workerBoot = { value := 1 } :=
    Option.map_eq_some_iff.mp (by decide +kernel)
  exact ⟨plan, hp, withdrawal_final _ _ (.fenceWorker _) _ plan hp hb _ (by simp)⟩

end NMC
