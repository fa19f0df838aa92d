import NearMemoryCompute.Execution.Theorems.Accounting

namespace NMC

open Coordinator

def Op.registers (t : NearMemoryTargetId) : Op → Bool
  | applyRegisterTarget msg => msg.target = t
  | _                       => false

-- A counter that is kept for each target, what a plan that is admitted counts, and the limit up to
-- which plans are admitted. Plans that keep their reservation count the same, and a plan that gives
-- its reservation back never gives back more than it counts.
structure Gauge where
  weight        : ExecutionPlan → ℕ
  counter       : ReservationState → ℕ
  limit         : TargetDefinition → ℕ
  weight_eq     : ∀ {plan plan' : ExecutionPlan},
    plan'.reservedWorkspace = plan.reservedWorkspace → weight plan' = weight plan
  counter_empty : counter {} = 0
  release_le    : ∀ rs plan, counter (rs.release plan) ≤ counter rs
  le_release    : ∀ rs plan, counter rs ≤ counter (rs.release plan) + weight plan

-- The operation keeps the counter of a target from falling behind: admitting a plan adds what the
-- plan counts, and a plan is cancelled only if it holds something or if nothing is given back.
structure Gauge.Keeps (g : Gauge) (t : NearMemoryTargetId)
    (h : List (Event RuntimeState Op Outcome)) (op : Op) (st : RuntimeState) : Prop where
  take : ∀ p (adm : Admission st p), op = .reserve p → adm.plan.target = t →
    g.counter (st.reservation t) + g.weight adm.reserved ≤ g.counter adm.reservation
  give : ∀ p plan, op = .cancelPlan p → st.plans[p]? = some plan → plan.target = t →
    !plan.lifecycle.ended → Holds h plan ∨
      g.counter (st.reservation t) ≤ g.counter ((st.reservation t).release plan)

section Counter

variable {g : Gauge} {h : List (Event RuntimeState Op Outcome)}
         {e : Event RuntimeState Op Outcome} {op : Op} {out : Outcome} {t : NearMemoryTargetId}
         {st : RuntimeState} {l : Ledger} {p : ExecutionPlanId} {plan new : ExecutionPlan}

-- A plan that holds a share counts at least as much as any plan that has its reservation.
theorem Gauge.held_le {h' : List (Event RuntimeState Op Outcome)} {plan' : ExecutionPlan}
    (ht : plan'.target = plan.target) (hw : plan'.reservedWorkspace = plan.reservedWorkspace)
    (hh : Holds h plan) : held h' t g.weight plan' ≤ held h t g.weight plan :=
  held_le_of_holds ht (g.weight_eq hw).le hh

section Share

variable (hs : Ledger.Step st e.input e.output l) (hr : Resolvable st) (hl : ¬Done Op.loads e)
         (hi : share h t g.weight st.plans ≤ g.counter (st.reservation t))

include hs hr hl hi

-- Withdrawing plans lets none of them take a share.
theorem share_sweep_le {f : ExecutionPlan → ExecutionPlan}
    (hf : ∀ plan : ExecutionPlan, plan.Swept (f plan)) :
    share (e :: h) t g.weight (st.plans.map fun _ => f) ≤ g.counter (st.reservation t) := by
  refine Nat.le_trans ?_ hi
  rw [share, Table.total_map]
  apply Table.total_le_total
  intro p plan hp
  have hw := hf plan
  simp only [Function.comp_apply]
  generalize f plan = plan' at hw
  cases hw
  case spared => exact (held_cons hl (planned_of_reserves hs hr.plans hp)).le
  case withdrawn hl =>
    rw [held_of_not_holds]
    · exact Nat.zero_le _
    · exact not_holds_ended (by rcases hl with rfl | rfl <;> rfl)
  case unknown hf =>
    have hd := ExecutionLifecycle.dispatched_of_inFlight hf (hr.used hp)
    exact g.held_le rfl rfl (.inr (.inl hd))

-- A plan is replaced by one that does not count more, and the counter stays.
theorem share_keep_le (hp : st.plans[p]? = some plan)
    (hle : held (e :: h) t g.weight new ≤ held h t g.weight plan) :
    share (e :: h) t g.weight (st.plans.insert p new) ≤ g.counter (st.reservation t) := by
  have hx := share_insert (h := h) (t := t) (w := g.weight) hs hr.plans hl hp new
  omega

-- A plan that holds a share ends and gives the share back.
theorem share_give_le (hp : st.plans[p]? = some plan)
    (hh : plan.target = t → Holds h plan ∨
      g.counter (st.reservation t) ≤ g.counter ((st.reservation t).release plan))
    (he : new.lifecycle.ended) :
    share (e :: h) t g.weight (st.plans.insert p new) ≤
      g.counter ((st.ledger.release plan).reservation t) := by
  have hx := share_insert (h := h) (t := t) (w := g.weight) hs hr.plans hl hp new
  rw [held_of_not_holds (not_holds_ended he)] at hx
  by_cases ht : plan.target = t
  case pos =>
    subst ht
    have hle := g.le_release (st.reservation plan.target) plan
    simp only [Ledger.release_self, RuntimeState.ledger]
    cases hh rfl
    case inl hh =>
      rw [held_of_holds rfl hh] at hx
      omega
    case inr hz => omega
  case neg =>
    simp only [Ledger.release_of_ne _ ht, RuntimeState.ledger]
    omega

-- A plan takes a share.
theorem share_take_le (adm : Admission st p)
    (ha : adm.plan.target = t →
      g.counter (st.reservation t) + g.weight adm.reserved ≤ g.counter adm.reservation) :
    share (e :: h) t g.weight (st.plans.insert p adm.reserved) ≤
      g.counter ((st.ledger.hold adm.plan.target adm.reservation).reservation t) := by
  have hx := share_insert (h := h) (t := t) (w := g.weight) hs hr.plans hl adm.plan_eq adm.reserved
  by_cases ht : adm.plan.target = t
  case pos =>
    subst ht
    have hle : held (e :: h) adm.plan.target g.weight adm.reserved ≤ _ := held_le
    have ha := ha rfl
    rw [Ledger.hold_self]
    omega
  case neg =>
    have ht' : adm.reserved.target ≠ t := ht
    rw [held_of_ne ht'] at hx
    simp only [Ledger.hold_of_ne _ ht, RuntimeState.ledger]
    omega

end Share

-- The plans that hold a share in the target do not count more than the counter says.
theorem share_step (hs : Ledger.Step st e.input e.output l) (hr : Resolvable st)
    (hk : g.Keeps t h e.input st)
    (hi : share h t g.weight st.plans ≤ g.counter (st.reservation t)) :
    share (e :: h) t g.weight l.plans ≤ g.counter (l.reservation t) := by
  have hs' := hs
  obtain ⟨op, pre, out, post⟩ := e
  cases hs
  case idle hi' => exact (share_cons hs' hr.plans (Op.not_loads_of_idle hi')).trans_le hi
  case plan id o _ sel =>
    cases hp : st.plans[id]?
    case none =>
      have hx := share_insert_of_none (h := h) (t := t) (w := g.weight) hs' hr.plans nofun hp
        (sel.plan id)
      rw [held_of_not_holds (not_holds_planned rfl)] at hx
      exact hx.le.trans hi
    case some =>
      refine share_keep_le hs' hr nofun hi hp ?_
      rw [held_of_not_holds (not_holds_planned rfl)]
      exact Nat.zero_le _
  case reserve p adm => exact share_take_le hs' hr nofun hi adm (hk.take p adm rfl)
  case prepare prep _ =>
    exact share_keep_le hs' hr nofun hi prep.plan_eq (g.held_le rfl rfl (.inl prep.reserved))
  case supersede hp hl _ =>
    exact share_keep_le hs' hr nofun hi hp (g.held_le rfl rfl (.inl hl))
  case confirm hp hl _ =>
    exact share_keep_le hs' hr nofun hi hp (g.held_le rfl rfl (.inl hl))
  case ambiguous c _ _ _ _ =>
    have hd := c.dispatched hr
    exact share_keep_le hs' hr nofun hi c.plan_eq (g.held_le rfl rfl (.inr (.inl hd)))
  case mismatch c _ _ _ _ _ =>
    have hd := c.dispatched hr
    exact share_keep_le hs' hr nofun hi c.plan_eq (g.held_le rfl rfl (.inr (.inl hd)))
  case commit c _ _ _ _ _ =>
    have hd := c.dispatched hr
    exact share_give_le hs' hr nofun hi c.plan_eq (fun _ => .inl (.inr (.inl hd))) rfl
  case cancel p plan hp he =>
    exact share_give_le hs' hr nofun hi hp (fun ht => hk.give p plan rfl hp ht he) rfl
  case advance    => exact share_sweep_le hs' hr nofun hi fun _ => ExecutionPlan.swept_onEpoch
  case fence      => exact share_sweep_le hs' hr nofun hi fun _ => ExecutionPlan.swept_onFence
  case disconnect => exact share_sweep_le hs' hr nofun hi fun _ => ExecutionPlan.swept_onFence
  case retire     => exact share_sweep_le hs' hr nofun hi fun _ => ExecutionPlan.swept_onRetire
  case load       => exact (share_load ⟨rfl, rfl⟩ _).le.trans (Nat.zero_le _)

-- Only admitting a plan makes the counter grow.
theorem Ledger.Step.counter (hs : Ledger.Step st op out l) (g : Gauge) (t : NearMemoryTargetId) :
    g.counter (l.reservation t) ≤ g.counter (st.reservation t) ∨
    ∃ (p : ExecutionPlanId) (adm : Admission st p), op = .reserve p ∧ out.succeeded ∧
      adm.plan.target = t ∧ l.reservation t = adm.reservation := by
  have release (plan : ExecutionPlan) :
      g.counter ((st.ledger.release plan).reservation t) ≤ g.counter (st.reservation t) := by
    by_cases ht : plan.target = t
    case pos =>
      subst ht
      rw [Ledger.release_self]
      exact g.release_le ..
    case neg =>
      rw [Ledger.release_of_ne _ ht]
      exact le_rfl
  cases hs
  case commit c _ _ _ _ _ => exact .inl (release c.plan)
  case cancel plan _ _    => exact .inl (release plan)
  case load               => exact .inl (g.counter_empty.trans_le (Nat.zero_le _))
  case reserve p adm =>
    by_cases ht : adm.plan.target = t
    case pos => exact .inr ⟨p, adm, rfl, rfl, ht, ht ▸ Ledger.hold_self ..⟩
    case neg =>
      left
      rw [Ledger.hold_of_ne _ ht]
      exact le_rfl
  all_goals exact .inl le_rfl

theorem Ledger.Step.reservation_of_loads (hs : Ledger.Step st op out l)
    (hl : op.loads ∧ out.succeeded) : l.reservation t = {} := by
  obtain ⟨hl, ho⟩ := hl
  cases op <;> try contradiction
  case load file =>
    cases hs
    case idle hi => exact absurd (hi ho) nofun
    case load    => rfl

end Counter

section Registrations

variable {reg reg' : Registry} {op : Op} {out : Outcome} {t : NearMemoryTargetId}

theorem mem_of_mem_setRuntime {rt rt' : TargetRuntime} {t' : NearMemoryTargetId}
    (hr : reg.targetRuntime[t']? = some rt) (ht : t ∈ (reg.setRuntime t' rt').targetRuntime) :
    t ∈ reg.targetRuntime := by
  have ⟨_, ht⟩ := Table.exists_of_mem ht
  rcases Table.getElem?_insert_eq_some ht with ⟨rfl, _⟩ | ⟨_, ht⟩
  · exact Table.mem_of_some hr
  · exact Table.mem_of_some ht

-- The coordinator knows a target only since the target has been registered.
theorem Registry.Step.of_targetRuntime (h : Registry.Step reg op out reg')
    (ht : t ∈ reg'.targetRuntime) :
    t ∈ reg.targetRuntime ∨ op.registers t ∧ out.succeeded := by
  cases h
  case load hl =>
    simp [Registry.withdrawAll, RuntimeState.registry, (decoded_of_load hl).targetRuntime] at ht
  case target msg =>
    obtain ⟨_, ht⟩ := Table.exists_of_mem ht
    rcases Table.getElem?_insert_eq_some ht with ⟨he, _⟩ | ⟨_, ht⟩
    · exact .inr ⟨decide_eq_true he, rfl⟩
    · exact .inl (Table.mem_of_some ht)
  case heartbeat hr => exact .inl (mem_of_mem_setRuntime hr ht)
  case drain hr     => exact .inl (mem_of_mem_setRuntime hr ht)
  case retire hr    => exact .inl (mem_of_mem_setRuntime hr ht)
  case fence        => exact .inl (by simpa [Registry.withdraw] using ht)
  case disconnect   => exact .inl (by simpa [Registry.withdraw] using ht)
  case advance      => exact .inl (by simpa [Registry.withdrawAll] using ht)
  all_goals exact .inl ht

theorem Registry.Step.targets_eq (h : Registry.Step reg op out reg')
    (hr : ¬(op.registers t ∧ out.succeeded)) (hl : ¬(op.loads ∧ out.succeeded))
    (hn : ∀ p, op ≠ .reserve p) : reg'.targets[t]? = reg.targets[t]? := by
  cases h
  case load     => exact absurd ⟨rfl, rfl⟩ hl
  case lookup   => exact absurd rfl (hn _)
  case target msg =>
    refine Table.getElem?_insert_ne _ _ ?_
    intro he
    exact hr ⟨decide_eq_true he, rfl⟩
  all_goals rfl

end Registrations

def RuntimeState.limit (st : RuntimeState) (g : Gauge) (t : NearMemoryTargetId) : ℕ :=
  (st.targets[t]?).elim 0 g.limit

-- Only registering a target or loading a file can change its limits.
theorem limit_step [Platform] {g : Gauge} {t : NearMemoryTargetId} {st : RuntimeState} {op : Op}
    (hr : Resolvable st) (hg : ¬Done (Op.registers t) (machine.event op st))
    (hl : ¬Done Op.loads (machine.event op st)) : (step op st).snd.limit g t = st.limit g t := by
  have ht : (step op st).snd.registry.targets[t]? = st.registry.targets[t]? := by
    by_cases hn : ∃ p, op = .reserve p
    case pos =>
      obtain ⟨p, rfl⟩ := hn
      exact congrArg (·.targets[t]?) (hr.reserve_registry p)
    case neg => exact (step_registry op st).targets_eq hg hl fun p hp => hn ⟨p, hp⟩
  exact congrArg (·.elim 0 g.limit) ht

-- The invariant for a target that is registered at most once.
structure Gauged (g : Gauge) (t : NearMemoryTargetId) (h : List (Event RuntimeState Op Outcome))
    (st : RuntimeState) : Prop where
  holders    : share h t g.weight st.plans ≤ g.counter (st.reservation t)
  bounded    : g.counter (st.reservation t) ≤ st.limit g t
  unknown    : t ∉ st.targetRuntime → g.counter (st.reservation t) = 0
  registered : t ∈ st.targetRuntime → 0 < h.countP (Done (Op.registers t))

namespace Gauged

variable {g : Gauge} {h : List (Event RuntimeState Op Outcome)} {t : NearMemoryTargetId}
         {st : RuntimeState}

-- The plans that occupy the target do not exceed its limit.
theorem total_le (hg : Gauged g t h st) :
    Table.total (fun plan => if plan.target = t ∧
      (plan.lifecycle = .reserved ∨ plan.lifecycle = .dispatched) then g.weight plan else 0)
      st.plans ≤ st.limit g t := by
  refine Nat.le_trans ?_ (hg.holders.trans hg.bounded)
  apply Table.total_le_total
  intro p plan _
  split
  case isTrue hp =>
    obtain ⟨ht, hp⟩ := hp
    rw [held_of_holds ht (hp.imp_right .inl)]
  case isFalse => exact Nat.zero_le _

theorem init (cid : CoordinatorId) : Gauged g t [] (init cid) where
  holders    := by simp [share, Coordinator.init, Table.total_empty]
  bounded    := g.counter_empty.trans_le (Nat.zero_le _)
  unknown _  := g.counter_empty
  registered := by simp [Coordinator.init]

variable [Platform] {op : Op}

theorem step (hi : Gauged g t h st) (hr : Resolvable st) (hk : g.Keeps t h op st)
    (hn : (machine.event op st :: h).countP (Done (Op.registers t)) ≤ 1)
    (ha : ∀ p (adm : Admission st p), op = .reserve p → (step op st).fst.succeeded →
      adm.plan.target = t → g.counter adm.reservation ≤ st.limit g t) :
    Gauged g t (machine.event op st :: h) (step op st).snd := by
  have hl := step_refines op st
  have hg := step_registry op st
  have hh := share_step (e := machine.event op st) hl hr hk hi.holders
  have loaded (hd : Done Op.loads (machine.event op st)) :
      g.counter ((Coordinator.step op st).snd.reservation t) = 0 := by
    rw [show (Coordinator.step op st).snd.reservation t = {} from hl.reservation_of_loads hd]
    exact g.counter_empty
  refine ⟨hh, ?bounded, ?unknown, ?registered⟩
  case registered =>
    intro ht
    rw [List.countP_cons]
    cases hg.of_targetRuntime ht
    case inl ht => exact Nat.lt_add_right _ (hi.registered ht)
    case inr hd => simp [show Done (Op.registers t) (machine.event op st) from hd]
  case unknown =>
    intro ht
    by_cases hd : Done Op.loads (machine.event op st)
    case pos => exact loaded hd
    case neg =>
      have ht' : t ∉ st.targetRuntime := fun h => ht ((hg.retains hd).targetRuntime h)
      rcases hl.counter g t with hle | ⟨p, adm, _, _, rfl, _⟩
      · exact Nat.le_zero.mp (hle.trans (hi.unknown ht').le)
      · exact absurd (Table.mem_of_some adm.targetRuntime_eq) ht'
  case bounded =>
    by_cases hd : Done Op.loads (machine.event op st)
    case pos => exact (loaded hd).trans_le (Nat.zero_le _)
    case neg =>
      by_cases hg : Done (Op.registers t) (machine.event op st)
      case pos =>
        -- Up to its only registration, the target has been unknown.
        have ht : t ∉ st.targetRuntime := by
          intro ht
          have := hi.registered ht
          simp only [List.countP_cons, hg, decide_true, if_true] at hn
          omega
        rcases hl.counter g t with hle | ⟨p, _, rfl, _⟩
        · exact hle.trans ((hi.unknown ht).trans_le (Nat.zero_le _))
        · exact absurd hg.1 nofun
      case neg =>
        rw [limit_step hr hg hd]
        rcases hl.counter g t with hle | ⟨p, adm, hp, ho, ht, he⟩
        · exact hle.trans hi.bounded
        · exact (congrArg g.counter he).trans_le (ha p adm hp ho ht)

end Gauged

-- The rule for gauges: in a run in which a target is registered at most once and every step keeps
-- the counter of the target, the plans on the target never exceed its limit.
theorem gauged_after [Platform] {g : Gauge} {t : NearMemoryTargetId} {cid : CoordinatorId}
    {run : List Op} (hn : (history cid run).countP (Done (Op.registers t)) ≤ 1)
    (hk : Machine.EachStep (fun past op => g.Keeps t (history cid past) op (after cid past) ∧
      ∀ p (adm : Admission (after cid past) p), op = .reserve p →
        (step op (after cid past)).fst.succeeded → adm.plan.target = t →
        g.counter adm.reservation ≤ (after cid past).limit g t) run) :
    Gauged g t (history cid run) (after cid run) := by
  have hk : Machine.EachStep (fun past op =>
      (history cid (op :: past)).countP (Done (Op.registers t)) ≤ 1 ∧
      g.Keeps t (history cid past) op (after cid past) ∧
      ∀ p (adm : Admission (after cid past) p), op = .reserve p →
        (step op (after cid past)).fst.succeeded → adm.plan.target = t →
        g.counter adm.reservation ≤ (after cid past).limit g t) run := by
    intro op past hs
    have hsub := (machine.events_suffix (init cid) hs).sublist
    exact ⟨hsub.countP_le.trans hn, hk hs⟩
  refine machine.invariant_of_eachStep _ (I := fun past => Gauged g t (history cid past)) ?_ ?_ hk
  · exact Gauged.init cid
  · intro past op ⟨hn, hk, ha⟩ hi
    exact hi.step (resolvable_after cid past) hk hn ha

end NMC
