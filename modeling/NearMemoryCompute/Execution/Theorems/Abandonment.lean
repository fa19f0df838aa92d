import NearMemoryCompute.Execution.Theorems.Replies
import NearMemoryCompute.Execution.Theorems.Withdrawal

namespace NMC

open Coordinator Reader

namespace Handler

-- The plan that a handler is about to reserve.
def requests : Handler → Option ExecutionPlanId
  | reserve req => some req.plan
  | _           => none

theorem requests_moved : Moved requests := {}

-- The plan that a handler has reserved, and that it has neither sent nor given up.
def claims : Handler → Option ExecutionPlanId
  | prepare req     => some req.plan
  | lookup req _    => some req.plan
  | confirm req _ _ => some req.plan
  | cancel p _      => some p
  | _               => none

theorem claims_moved : Moved claims := {}

-- The plan of a request that has not come to sending anything.
def unsent (h : Handler) : Option ExecutionPlanId :=
  h.requests.or h.claims

-- The plan that a handler has confirmed and may still withdraw.
def sends : Handler → Option ExecutionPlanId
  | insert req _ _ | send req _ _ => some req.plan
  | fail req | withdraw req       => some req.plan
  | _                             => none

theorem sends_moved : Moved sends := {}

end Handler

-- The client that is answered.
def Output.client : Output → Option ConnectionId
  | reply c _ => some c
  | _         => none

theorem Output.exists_reply {out : Output} {c : ConnectionId} (h : out.client = some c) :
    ∃ msg, out = reply c msg := by
  cases out
  case reply c' msg =>
    cases h
    exact ⟨msg, rfl⟩
  all_goals contradiction

-- The plan is reserved, with the given workspace.
def Reserved (p : ExecutionPlanId) (ws : UInt64) (st : RuntimeState) : Prop :=
  ∃ plan, st.plans[p]? = some plan ∧ plan.lifecycle = .reserved ∧ plan.reservedWorkspace = ws

-- The plan has been reserved, and it will not be so again.
def Advanced (p : ExecutionPlanId) (st : RuntimeState) : Prop :=
  ∃ plan, st.plans[p]? = some plan ∧ plan.lifecycle ≠ .planned ∧ plan.lifecycle ≠ .reserved

theorem Reserved.planIs {p : ExecutionPlanId} {ws : UInt64} {st : RuntimeState}
    (h : Reserved p ws st) : PlanIs p .reserved st := by
  obtain ⟨plan, hp, hl, _⟩ := h
  exact ⟨plan, hp, hl⟩

theorem Advanced.not_reserved {p : ExecutionPlanId} {st : RuntimeState} (h : Advanced p st) :
    ¬PlanIs p .reserved st := by
  obtain ⟨plan, hp, _, hn⟩ := h
  rintro ⟨plan', hp', hl⟩
  cases hp.symm.trans hp'
  exact hn hl

theorem ExecutionLifecycle.Next.advanced {a b : ExecutionLifecycle} (h : Next a b)
    (hp : a ≠ planned) (hr : a ≠ reserved) : b ≠ planned ∧ b ≠ reserved := by
  cases h
  case stay        => exact ⟨hp, hr⟩
  case reserve     => exact absurd rfl hp
  case dispatch    => exact absurd rfl hr
  case settle hb   => rcases hb with rfl | rfl | rfl <;> simp
  case withdraw hb => rcases hb with rfl | rfl | rfl <;> simp

-- The operation leaves a plan alone that is reserved, if it is called from the given state.
def Op.Spares (op : Op) (out : Outcome) (p : ExecutionPlanId) (st : RuntimeState) : Prop :=
  match op with
  | .plan id _               => id ∉ st.plans
  | .prepareDispatch q _ _   => q = p → ∀ plan ∈ st.plans[p]?, stalenessLocked st plan = []
  | .confirmDispatched q _   => q = p → !out.succeeded
  | .cancelPlan q            => q ≠ p
  | .onWorkerDisconnected boot =>
    ∀ plan ∈ st.plans[p]?, plan.authority.snapshot.workerBoot ≠ boot
  | op                       => op.served

section Coordinator

variable {st : RuntimeState} {op : Op} {out : Outcome} {l : Ledger} {p : ExecutionPlanId}
         {plan : ExecutionPlan} {ws : UInt64}

theorem Ledger.Step.reserved (h : Ledger.Step st op out l) (hs : op.Spares out p st)
    (hp : st.plans[p]? = some plan) (hl : plan.lifecycle = .reserved) :
    ∃ plan', l.plans[p]? = some plan' ∧ plan'.lifecycle = .reserved ∧
      plan'.reservedWorkspace = plan.reservedWorkspace := by
  -- A step that replaces one plan replaces another one, or it keeps the reservation.
  have set {q : ExecutionPlanId} {old new : ExecutionPlan} (hq : st.plans[q]? = some old)
      (hn : q = p → old = plan → new.lifecycle = .reserved ∧
        new.reservedWorkspace = plan.reservedWorkspace) :
      ∃ plan', (st.plans.insert q new)[p]? = some plan' ∧ plan'.lifecycle = .reserved ∧
        plan'.reservedWorkspace = plan.reservedWorkspace := by
    by_cases he : q = p
    case pos =>
      subst he
      cases hq.symm.trans hp
      exact ⟨new, Table.getElem?_insert_self .., hn rfl rfl⟩
    case neg => exact ⟨plan, by rw [Table.getElem?_insert_ne _ _ he, hp], hl, rfl⟩
  -- A plan that is reserved can not be completed.
  have settle {msg : ResultMsg} (c : Completion st msg) {new : ExecutionPlan}
      (_ : msg.plan = p) (he : c.plan = plan) :
      new.lifecycle = .reserved ∧ new.reservedWorkspace = plan.reservedWorkspace := by
    have hf := c.accepts.inFlight
    simp [he, hl, ExecutionLifecycle.inFlight] at hf
  cases h
  case idle => exact ⟨plan, hp, hl, rfl⟩
  case plan id o _ _ =>
    have hne : id ≠ p := by
      rintro rfl
      exact hs (Table.mem_of_some hp)
    exact ⟨plan, (Table.getElem?_insert_ne _ _ hne).trans hp, hl, rfl⟩
  case reserve adm =>
    refine set adm.plan_eq ?_
    rintro rfl rfl
    exact absurd (adm.planned.symm.trans hl) (by simp)
  case prepare prep _ =>
    refine set prep.plan_eq ?_
    rintro rfl rfl
    exact ⟨hl, rfl⟩
  case supersede hq _ hn =>
    refine set hq ?_
    rintro rfl rfl
    exact absurd (hs rfl _ hq) hn
  case confirm hq _ _ =>
    refine set hq ?_
    rintro rfl rfl
    exact absurd (hs rfl) (by decide)
  case ambiguous c _ _ _ _  => exact set c.plan_eq (settle c)
  case mismatch c _ _ _ _ _ => exact set c.plan_eq (settle c)
  case commit c _ _ _ _ _   => exact set c.plan_eq (settle c)
  case cancel hq _          => exact set hq fun he => absurd he hs
  case disconnect boot =>
    refine ⟨plan.onFence boot, by simp [Ledger.sweep, RuntimeState.ledger, hp], ?_⟩
    have hf : plan.onFence boot = plan := if_neg fun hb => hs plan hp hb.1
    rw [hf]
    exact ⟨hl, rfl⟩
  all_goals contradiction

theorem Reserved.step [Platform] (hr : Reserved p ws st)
    (hs : op.Spares (step op st).fst p st) : Reserved p ws (step op st).snd := by
  obtain ⟨plan, hp, hl, rfl⟩ := hr
  exact (step_refines op st).reserved hs hp hl

theorem Advanced.step [Platform] (ha : Advanced p st) (hs : op.served)
    (hu : op.planIdUnused st) : Advanced p (step op st).snd := by
  obtain ⟨plan, hp, hn, hr⟩ := ha
  have hne (o : OperationId) : op ≠ .plan p o := by
    rintro rfl
    exact of_decide_eq_true hu (Table.mem_of_some hp)
  have ⟨plan', hp', he⟩ := (step_refines op st).evolves (Op.served.not_loads hs) hne hp
  exact ⟨plan', hp', he.lifecycle.advanced hn hr⟩

-- A plan that is reserved has been planned before.
theorem Ledger.Step.of_reserve (h : Ledger.Step st (.reserve p) out l) (hs : out.succeeded) :
    PlanIs p .planned st ∧ ∃ plan, l.plans[p]? = some plan ∧ plan.lifecycle = .reserved := by
  cases h
  case idle hi => exact absurd (hi hs) nofun
  case reserve adm =>
    refine ⟨⟨adm.plan, adm.plan_eq, adm.planned⟩, adm.reserved, ?_, rfl⟩
    exact Table.getElem?_insert_self ..

theorem Ledger.Step.of_unreserved (h : Ledger.Step st (.reserve p) out l)
    (hs : ¬out.succeeded) : l.plans = st.plans := by
  cases h
  case idle    => rfl
  case reserve => exact absurd rfl hs

theorem Ledger.Step.of_confirm {did : DispatchId}
    (h : Ledger.Step st (.confirmDispatched p did) out l) (hs : out.succeeded) :
    ∃ plan, l.plans[p]? = some plan ∧ plan.lifecycle = .dispatched := by
  cases h
  case idle hi => exact absurd (hi hs) nofun
  case confirm => exact ⟨_, Table.getElem?_insert_self .., rfl⟩

-- A plan that is reserved gives its reservation back when it is cancelled.
theorem cancelPlan_of_reserved (hp : st.plans[p]? = some plan)
    (hl : plan.lifecycle = .reserved) :
    (cancelPlan p st).snd.plans[p]? = some { plan with lifecycle := .cancelled } ∧
    (cancelPlan p st).snd.reservation plan.target =
      (st.reservation plan.target).release plan := by
  have he : plan.lifecycle.ended = false := by simp [hl, ExecutionLifecycle.ended]
  simp only [cancelPlan, hp, he, Bool.false_eq_true, if_false]
  refine ⟨Table.getElem?_insert_self .., ?_⟩
  have hr := congrArg (·.reservation plan.target) (st.releaseReservation_ledger plan)
  exact hr.trans (Ledger.release_self ..)

-- A plan that is up to date can be prepared if there is a session of its worker.
theorem prepareDispatch_isOk (hr : Resolvable st) (hp : st.plans[p]? = some plan)
    (hl : plan.lifecycle = .reserved) (hs : stalenessLocked st plan = [])
    (hw : st.workers.toList.any (·.snd.boot = plan.authority.snapshot.workerBoot))
    (did : DispatchId) (aid : AttemptId) {e : Error} :
    (prepareDispatch p did aid st).fst ≠ .error e := by
  have hres := hr.live hp (hl ▸ rfl)
  have ⟨trt, ht, hb, _⟩ := (hres.fresh hs).targetRuntime
  have ⟨op, ho, _⟩ := hres.operation
  have ⟨w, hw⟩ : ∃ w, st.workers.toList.find? (·.snd.boot = trt.ownerBoot) = some w := by
    rw [← Option.isSome_iff_exists, List.find?_isSome, hb]
    exact List.any_eq_true.mp hw
  simp [prepareDispatch, hp, hl, hs, ho, ht, hw]

end Coordinator

namespace Node

-- The reservation of a request is not disturbed, judged by the state in which a step starts: the
-- plan of a request is not claimed by another one, it is up to date and its worker has a session
-- when the dispatch is prepared, and the worker does not go away while the plan is reserved. New
-- plans get identities that are not in use.
def orderly (node : Node) : Input → Bool
  | .receive _ .clientPlan _ drawn => drawn.plan ∉ node.coord.plans
  | .proceed c _ _ => node.connections[c]?.all fun conn =>
    match conn.handler with
    | .reserve req => node.connections.toList.all (·.snd.handler.claims ≠ some req.plan)
    | .prepare req => node.coord.plans[req.plan]?.all fun plan =>
      stalenessLocked node.coord plan = [] &&
      node.coord.workers.toList.any (·.snd.boot = plan.authority.snapshot.workerBoot)
    | .disconnect => node.coord.plans.toList.all fun e =>
      e.snd.authority.snapshot.workerBoot ≠ conn.boot || e.snd.lifecycle ≠ .reserved
    | _ => true
  | _ => true

variable {node node' : Node} {c c' : ConnectionId} {conn conn' : Connection} {input : Input}
         {op : Option Op} {handler : Handler} {p : ExecutionPlanId} {plan : ExecutionPlan}
         {ws : UInt64} {req : Request} {sent : Bool} {disk : Disk}

section Orderly

variable (hc : node.connections[c]? = some conn) (ho : node.orderly (.proceed c sent disk))

include hc ho

theorem orderly.reserve (hh : conn.handler = .reserve req) (c' : ConnectionId) :
    ¬node.Has Handler.claims c' req.plan := by
  simp [orderly, hc, hh] at ho
  rintro ⟨conn', hc', hr⟩
  exact ho c' conn' hc' hr

theorem orderly.prepare (hh : conn.handler = .prepare req)
    (hp : node.coord.plans[req.plan]? = some plan) :
    stalenessLocked node.coord plan = [] ∧
    node.coord.workers.toList.any (·.snd.boot = plan.authority.snapshot.workerBoot) := by
  simpa [orderly, hc, hh, hp] using ho

theorem orderly.disconnect (hh : conn.handler = .disconnect)
    (hp : node.coord.plans[p]? = some plan) (hl : plan.lifecycle = .reserved) :
    plan.authority.snapshot.workerBoot ≠ conn.boot := by
  simp [orderly, hc, hh] at ho
  intro hb
  exact (ho p plan hp).elim (absurd hb ·) (absurd hl ·)

end Orderly

theorem Has.insert_self {f : Handler → Option ExecutionPlanId}
    (he : node'.connections = node.connections.insert c conn') (h : node'.Has f c p) :
    f conn'.handler = some p := by
  obtain ⟨conn, hc, hp⟩ := h
  rw [he, Table.getElem?_insert_self] at hc
  cases hc
  exact hp

variable [Platform]

theorem orderly.planIdUnused {op : Op} (ho : node.orderly input)
    (h : Step node input (some op) node') : op.planIdUnused node.coord := by
  cases h
  case handle hh =>
    cases hh
    case clientPlan => exact ho
    all_goals rfl
  case hello he => exact he ▸ rfl
  case move hm  => cases hm <;> rfl

omit [Platform] in
theorem Move.claims_origin (h : Move node c conn input op handler)
    (hr : handler.claims = some p) :
    conn.handler.claims = some p ∨ conn.handler.requests = some p ∧
      (∃ sent disk, input = .proceed c sent disk) ∧ op = some (.reserve p) ∧
      (Coordinator.reserve p node.coord).fst.isOk := by
  cases h
  case reserve sent disk hh ho =>
    cases hr
    exact .inr ⟨by simp [hh, Handler.requests], ⟨sent, disk, rfl⟩, rfl, ho⟩
  case prepare hh _     => exact .inl (hh ▸ hr)
  case lookup hh _      => exact .inl (hh ▸ hr)
  case missing hh _     => exact .inl (hh ▸ hr)
  case unconfirmed hh _ => exact .inl (hh ▸ hr)
  all_goals contradiction

-- The plan of a request can be prepared.
theorem orderly.prepares {did : DispatchId} {aid : AttemptId} {e : Error}
    (ho : node.orderly input) (h : Step node input (some (.prepareDispatch p did aid)) node')
    (hv : Resolvable node.coord) (hp : node.coord.plans[p]? = some plan)
    (hl : plan.lifecycle = .reserved) :
    (prepareDispatch p did aid node.coord).fst ≠ .error e := by
  cases h
  case handle hh => cases hh
  case hello he  => cases he
  case move hc hm =>
    cases hm
    all_goals
      rename_i hh _
      have ⟨hs, hw⟩ := orderly.prepare hc ho hh hp
      exact prepareDispatch_isOk hv hp hl hs hw _ _

-- A handler claims a plan once it has reserved it.
theorem Step.claims_origin (h : Step node input op node') (hr : node'.Has Handler.claims c p) :
    node.Has Handler.claims c p ∨ node.Has Handler.requests c p ∧
      (∃ sent disk, input = .proceed c sent disk) ∧ op = some (.reserve p) ∧
      (Coordinator.reserve p node.coord).fst.isOk := by
  rcases h.origin Handler.claims_moved hr with hr | ⟨conn, _, hc, hm, hn⟩
  · exact .inl hr
  · exact (hm.claims_origin hn).imp (⟨conn, hc, ·⟩) fun ⟨hq, ho⟩ => ⟨⟨conn, hc, hq⟩, ho⟩

-- A handler that requests a plan has just received the request.
theorem Step.requests_origin (h : Step node input op node')
    (hr : node'.Has Handler.requests c p) :
    node.Has Handler.requests c p ∨ (node.listening c).isSome := by
  rcases h.origin Handler.requests_moved hr with hr | ⟨_, _, hc, hm, hn⟩
  · exact .inl hr
  · cases hm
    case request hh _ => exact .inr (by simp [listening_eq_some.mpr ⟨hc, hh⟩])
    all_goals contradiction

-- A handler goes on to send what it has confirmed.
theorem Step.sends_origin (h : Step node input op node') (hr : node'.Has Handler.sends c p) :
    node.Has Handler.sends c p ∨ ∃ did, op = some (.confirmDispatched p did) ∧
      (confirmDispatched p did node.coord).fst.isOk := by
  rcases h.origin Handler.sends_moved hr with hr | ⟨conn, _, hc, hm, hn⟩
  · exact .inl hr
  · cases hm
    case confirm ho =>
      cases hn
      exact .inr ⟨_, rfl, ho⟩
    case unsent hh _ => exact .inl ⟨conn, hc, hh ▸ hn⟩
    all_goals contradiction

-- How a handler lets go of a plan.
inductive Drops (st : RuntimeState) (p : ExecutionPlanId) : Op → Prop
  | stale {did aid e} :
    (prepareDispatch p did aid st).fst = .error e → Drops st p (.prepareDispatch p did aid)
  | confirmed {did} :
    (confirmDispatched p did st).fst.isOk → Drops st p (.confirmDispatched p did)
  | cancelled : Drops st p (.cancelPlan p)

omit [Platform] in
theorem Move.keeps_claims (h : Move node c conn input op handler)
    (hr : conn.handler.claims = some p) :
    handler.claims = some p ∨ ∃ o, op = some o ∧ Drops node.coord p o := by
  cases h
  case stale hh he =>
    rw [hh] at hr
    cases hr
    exact .inr ⟨_, rfl, .stale he⟩
  case confirm hh ho =>
    rw [hh] at hr
    cases hr
    exact .inr ⟨_, rfl, .confirmed ho⟩
  case cancel hh =>
    rw [hh] at hr
    cases hr
    exact .inr ⟨_, rfl, .cancelled⟩
  all_goals simp_all [Handler.claims]

theorem Step.keeps_claims (h : Step node input op node') (hr : node.Has Handler.claims c p) :
    node'.Has Handler.claims c p ∨ ∃ o, op = some o ∧ Drops node.coord p o := by
  -- The threads that take the other steps claim nothing.
  have keep {node' : Node} {c₀ : ConnectionId} {conn₀ conn' : Connection}
      (hc : node.connections[c₀]? = some conn₀) (hn : conn₀.handler.claims = none)
      (he : node'.connections = node.connections.insert c₀ conn') :
      node'.Has Handler.claims c p := by
    refine hr.insert he fun conn hc' hp => ?_
    cases hc.symm.trans hc'
    simp [hn] at hp
  cases h
  case stay   => exact .inl hr
  case handle => exact .inl hr
  case accept hn =>
    exact .inl (hr.insert rfl fun conn hc _ => absurd (Table.mem_of_some hc) hn)
  case move c₀ conn₀ handler hc hm =>
    by_cases he : c₀ = c
    case pos =>
      subst he
      obtain ⟨conn, hc', hp⟩ := hr
      cases hc.symm.trans hc'
      exact (hm.keeps_claims hp).imp_left fun hn => ⟨_, Table.getElem?_insert_self .., hn⟩
    case neg => exact .inl (hr.insert_ne rfl he)
  case hello hc hh _ _   => exact .inl (keep hc (hh ▸ rfl) rfl)
  case publish hc hh     => exact .inl (keep hc (hh ▸ rfl) rfl)
  case replace hc hh _   => exact .inl (keep hc (hh ▸ rfl) rfl)
  case resolve hc hh     => exact .inl (keep hc (hh ▸ rfl) (resolveDispatch_connections ..))
  case fail hc hh _ _    => exact .inl (keep hc (hh ▸ rfl) (resolveDispatch_connections ..))
  case insert hc hh      => exact .inl (keep hc (hh ▸ rfl) rfl)
  case answer hc hh _    => exact .inl (keep hc (hh ▸ rfl) rfl)
  case sweep hc hh       => exact .inl (keep hc (hh ▸ rfl) rfl)

-- A plan that has just been reserved or prepared is claimed by the handler that has done so.
theorem Step.claims_of_reserve (h : Step node input (some (.reserve p)) node')
    (ho : (Coordinator.reserve p node.coord).fst.isOk) : ∃ c, node'.Has Handler.claims c p := by
  cases h
  case handle hh => cases hh
  case hello he  => cases he
  case move hm =>
    cases hm
    case reserve         => exact ⟨_, _, Table.getElem?_insert_self .., rfl⟩
    case unreserved _ hn => exact absurd ho hn

theorem Step.claims_of_prepare {did : DispatchId} {aid : AttemptId} {out : DispatchOutput}
    (h : Step node input (some (.prepareDispatch p did aid)) node')
    (ho : (prepareDispatch p did aid node.coord).fst = .ok out) :
    ∃ c, node'.Has Handler.claims c p := by
  cases h
  case handle hh => cases hh
  case hello he  => cases he
  case move hm =>
    cases hm
    case prepare    => exact ⟨_, _, Table.getElem?_insert_self .., rfl⟩
    case stale _ he => cases ho.symm.trans he

-- A handler lets go of a plan only if the plan does not stay reserved.
theorem Step.not_drops {o : Op} (h : Step node input (some o) node') (hg : node.orderly input)
    (hv : Resolvable node.coord) (hp : node.coord.plans[p]? = some plan)
    (hl : plan.lifecycle = .reserved) (hr : PlanIs p .reserved node'.coord) :
    ¬Drops node.coord p o := by
  rw [h.coord] at hr
  intro hd
  cases hd
  case stale he => exact orderly.prepares hg h hv hp hl he
  case confirmed did ho =>
    have hd : PlanIs p .dispatched (node.called (some (.confirmDispatched p did))) :=
      (confirmDispatched_refines p did).of_confirm ho
    exact absurd (planIs_congr hr hd) (by simp)
  case cancelled =>
    have hc : PlanIs p .cancelled (node.called (some (.cancelPlan p))) :=
      ⟨_, (cancelPlan_of_reserved hp hl).1, rfl⟩
    exact absurd (planIs_congr hr hc) (by simp)

-- What is known about the plans of the requests while all steps are orderly.
structure Clean (node : Node) : Prop where
  claimed  : ∀ ⦃c p⦄, node.Has Handler.claims c p → PlanIs p .reserved node.coord
  unique   : ∀ ⦃c c' p⦄, node.Has Handler.claims c p → node.Has Handler.claims c' p → c = c'
  reserved : ∀ ⦃p⦄, PlanIs p .reserved node.coord → ∃ c, node.Has Handler.claims c p
  sent     : ∀ ⦃c p⦄, node.Has Handler.sends c p → Advanced p node.coord

namespace Clean

open ExecutionLifecycle

-- A step by which a handler keeps its claim spares the plan.
theorem spares {op : Op} (hk : node.Clean) (hg : node.orderly input)
    (h : Step node input (some op) node') (hb : node.Has Handler.claims c p)
    (ha : node'.Has Handler.claims c p) :
    op.Spares (Coordinator.step op node.coord).fst p node.coord := by
  obtain ⟨plan, hp, hl⟩ := hk.claimed hb
  cases h
  case hello he  => exact he ▸ rfl
  case handle hh =>
    cases hh
    case clientPlan =>
      have hn : _ ∉ node.coord.plans := of_decide_eq_true hg
      exact hn
    all_goals rfl
  case move c₀ conn₀ handler hc hm =>
    -- If the thread of the handler itself takes the step, it can not lose the claim.
    have own (hq : conn₀.handler.claims = some p) : handler.claims = some p := by
      cases hk.unique ⟨conn₀, hc, hq⟩ hb
      exact ha.insert_self rfl
    have fresh {req : Request} (hh : conn₀.handler = .prepare req)
        (hi : ∃ sent disk, input = .proceed c₀ sent disk) (hq : req.plan = p) :
        ∀ plan ∈ node.coord.plans[p]?, stalenessLocked node.coord plan = [] := by
      obtain ⟨sent, disk, rfl⟩ := hi
      intro plan hp
      exact (orderly.prepare hc hg hh (hq ▸ hp)).1
    cases hm
    case prepare hh _ => exact fresh hh ⟨_, _, rfl⟩
    case stale hh _   => exact fresh hh ⟨_, _, rfl⟩
    case confirm hh _ =>
      rintro rfl
      exact absurd (own (hh ▸ rfl)) (by simp [Handler.claims])
    case unconfirmed hn =>
      intro _
      simpa [Coordinator.step, Coordinator.answer, Outcome.succeeded] using hn
    case withdraw hh =>
      rintro rfl
      exact (hk.sent ⟨conn₀, hc, hh ▸ rfl⟩).not_reserved ⟨plan, hp, hl⟩
    case cancel hh =>
      rintro rfl
      exact absurd (own (hh ▸ rfl)) (by simp [Handler.claims])
    case disconnect hh =>
      intro plan' hp'
      cases hp.symm.trans hp'
      exact orderly.disconnect hc hg hh hp hl
    all_goals rfl

-- A plan stays reserved as long as a handler claims it.
theorem kept (hk : node.Clean) (hg : node.orderly input) (h : Step node input op node')
    (hb : node.Has Handler.claims c p) (ha : node'.Has Handler.claims c p)
    (hr : Reserved p ws node.coord) : Reserved p ws node'.coord := by
  rw [h.coord]
  cases op
  case none    => exact hr
  case some op => exact hr.step (hk.spares hg h hb ha)

theorem not_reserved_of_start (l : Launch) (file : Option Bytes) :
    ¬PlanIs p .reserved (l.start file).coord := by
  have ⟨ops, ho, he⟩ := l.exists_run file
  rw [show (l.start file).coord = _ from he]
  clear he
  induction ops
  case nil => exact not_planIs_init _ _ _
  case cons op ops hi =>
    rintro ⟨plan, hp, hl⟩
    have ⟨hop, hops⟩ := List.forall_mem_cons.mp ho
    have ha := (step_refines op (Coordinator.after l.constructed ops)).admits hp
      (by simp [hl, admitted])
    generalize (Coordinator.step op (Coordinator.after l.constructed ops)).fst = out at ha
    cases ha
    case stay _ hp => exact hi hops ⟨plan, hp, hl⟩
    all_goals contradiction

theorem start (l : Launch) (file : Option Bytes) : (l.start file).Clean where
  claimed _ _ h    := absurd h.choose_spec.1 (by simp [Launch.start])
  unique _ _ _ h _ := absurd h.choose_spec.1 (by simp [Launch.start])
  reserved _ h     := absurd h (not_reserved_of_start l file)
  sent _ _ h       := absurd h.choose_spec.1 (by simp [Launch.start])

section Step

variable (hk : node.Clean) (hg : node.orderly input) (h : Step node input op node')

include hk hg h

theorem claimed_step (ha : node'.Has Handler.claims c p) : PlanIs p .reserved node'.coord := by
  rcases h.claims_origin ha with hb | ⟨_, _, rfl, ho⟩
  · obtain ⟨plan, hp, hl⟩ := hk.claimed hb
    exact (hk.kept hg h hb ha ⟨plan, hp, hl, rfl⟩).planIs
  · rw [h.coord]
    exact ((reserve_refines p).of_reserve ho).2

omit hg in
theorem unique_step (ha : node'.Has Handler.claims c p) (ha' : node'.Has Handler.claims c' p) :
    c = c' := by
  -- A plan that a handler claims can not be reserved by another one.
  have new {c c' : ConnectionId} (hb : node.Has Handler.claims c p)
      (ho : (Coordinator.reserve p node.coord).fst.isOk) : c = c' := by
    have hp := ((reserve_refines p).of_reserve ho).1
    exact absurd (planIs_congr (hk.claimed hb) hp) (by simp)
  rcases h.claims_origin ha with hb | ⟨_, ⟨_, _, hi⟩, _, ho⟩
  · rcases h.claims_origin ha' with hb' | ⟨_, _, _, ho⟩
    · exact hk.unique hb hb'
    · exact new hb ho
  · rcases h.claims_origin ha' with hb' | ⟨_, ⟨_, _, hi'⟩, _⟩
    · exact (new hb' ho).symm
    · cases hi.symm.trans hi'
      rfl

theorem reserved_step (hv : Resolvable node.coord) (hr : PlanIs p .reserved node'.coord) :
    ∃ c, node'.Has Handler.claims c p := by
  -- A plan that has been reserved before is claimed, and the claim is not dropped.
  have old {plan : ExecutionPlan} (hp : node.coord.plans[p]? = some plan)
      (hl : plan.lifecycle = .reserved) : ∃ c, node'.Has Handler.claims c p := by
    have ⟨c, hb⟩ := hk.reserved ⟨plan, hp, hl⟩
    refine ⟨c, (h.keeps_claims hb).resolve_right ?_⟩
    rintro ⟨o, rfl, hd⟩
    exact h.not_drops hg hv hp hl hr hd
  obtain ⟨plan, hp, hl⟩ := hr
  rw [h.coord] at hp
  cases op
  case none => exact old hp hl
  case some op =>
    have ha := (step_refines op node.coord).admits hp (by simp [hl, admitted])
    generalize ho : (Coordinator.step op node.coord).fst = out at ha
    cases ha
    case stay _ hq => exact old hq hl
    case confirm   => contradiction
    case prepare   => exact h.claims_of_prepare (Outcome.dispatch.inj ho)
    case reserve =>
      refine h.claims_of_reserve ?_
      rw [Outcome.unit.inj ho]
      rfl

theorem sent_step (ha : node'.Has Handler.sends c p) : Advanced p node'.coord := by
  rcases h.sends_origin ha with hb | ⟨did, rfl, ho⟩
  · have hb := hk.sent hb
    rw [h.coord]
    cases op
    case none    => exact hb
    case some op => exact hb.step h.served (orderly.planIdUnused hg h)
  · rw [h.coord]
    obtain ⟨plan, hp, hl⟩ := (confirmDispatched_refines p did).of_confirm ho
    exact ⟨plan, hp, by simp [hl], by simp [hl]⟩

theorem step (hv : Resolvable node.coord) : node'.Clean where
  claimed _ _  := hk.claimed_step hg h
  unique _ _ _ := hk.unique_step h
  reserved _   := hk.reserved_step hg h hv
  sent _ _     := hk.sent_step hg h

end Step
end Clean

-- The handler has reserved the plan, with the given workspace.
def Takes (c : ConnectionId) (p : ExecutionPlanId) (ws : UInt64) (e : Event Node Input Output) :
    Prop :=
  e.pre.Has Handler.requests c p ∧ e.post.Has Handler.claims c p ∧ Reserved p ws e.post.coord

-- The plan is cancelled, and its target gets back the slot and the given workspace.
def GivesBack (p : ExecutionPlanId) (ws : UInt64) (e : Event Node Input Output) : Prop :=
  ∃ plan, e.pre.coord.plans[p]? = some plan ∧
    plan.lifecycle = .reserved ∧ plan.reservedWorkspace = ws ∧
    e.post.coord.plans[p]? = some { plan with lifecycle := .cancelled } ∧
    e.post.coord.reservation plan.target = (e.pre.coord.reservation plan.target).release plan

-- The handler has reserved the plan for the request that it is still busy with, and the reservation
-- has not been given back since.
def Owes (h : List (Event Node Input Output)) (c : ConnectionId) (p : ExecutionPlanId)
    (ws : UInt64) : Prop :=
  Since (Takes c p ws) (fun e => GivesBack p ws e ∨ (e.pre.listening c).isSome) h

-- Who owes a reservation claims the plan, which has it.
structure Covered (h : List (Event Node Input Output)) (node : Node) : Prop where
  requested : ∀ ⦃c p q ws⦄, node.Has Handler.requests c p → ¬Owes h c q ws
  claimed   : ∀ ⦃c p ws⦄, Owes h c p ws → node.Has Handler.claims c p → Reserved p ws node.coord

namespace Covered

variable {h : List (Event Node Input Output)}

omit [Platform] in
theorem init (node : Node) : Covered [] node where
  requested _ _ _ _ _ := Since.not_nil
  claimed _ _ _ h     := absurd h Since.not_nil

theorem step (hs : Covered h node) (hk : node.Clean) (hg : node.orderly input) :
    Covered (machine.event input node :: h) (Node.step input node).snd := by
  have ⟨op, hst⟩ := step_cases input node
  constructor
  case requested =>
    intro c p q ws hr ho
    rcases Since.cons_iff.mp ho with ⟨_, hc, _⟩ | ⟨hn, ho⟩
    · obtain ⟨conn, hc, hq⟩ := hc
      obtain ⟨conn', hc', hp⟩ := hr
      cases hc.symm.trans hc'
      cases hh : conn.handler <;> simp [hh, Handler.requests, Handler.claims] at hp hq
    · rcases hst.requests_origin hr with hr | hl
      · exact hs.requested hr ho
      · exact hn (.inr hl)
  case claimed =>
    intro c p ws ho ha
    rcases Since.cons_iff.mp ho with ⟨_, _, hr⟩ | ⟨_, ho⟩
    · exact hr
    · rcases hst.claims_origin ha with hb | ⟨hr, _⟩
      · exact hk.kept hg hst hb ha (hs.claimed ho hb)
      · exact absurd ho (hs.requested hr)

end Covered

-- How a handler can answer without having sent anything.
theorem reply_of_unsent {reply : ClientReplyMsg} (hc : node.connections[c]? = some conn)
    (hu : conn.handler.unsent = some p) (hr : (Node.step input node).fst = .reply c reply) :
    (∃ sent disk, input = .proceed c sent disk) ∧
    ((∃ req, conn.handler = .reserve req ∧ req.plan = p ∧
        ¬(Coordinator.reserve p node.coord).fst.isOk) ∨
      (∃ req e, conn.handler = .prepare req ∧ req.plan = p ∧
        (prepareDispatch p req.dispatch req.attempt node.coord).fst = .error e) ∨
      (∃ note, conn.handler = .cancel p note)) := by
  have hn : conn.handler ≠ .receive := by
    intro hh
    simp [hh, Handler.unsent, Handler.requests, Handler.claims] at hu
  obtain ⟨sent, disk, rfl⟩ := proceed_of_reply hc hn hr
  refine ⟨⟨sent, disk, rfl⟩, ?_⟩
  simp only [Node.step, hc] at hr
  cases hh : conn.handler <;> simp only [hh, Node.proceed] at hr hu
  case reserve req =>
    cases hu
    split at hr
    case isTrue     => contradiction
    case isFalse ho => exact .inl ⟨req, rfl, rfl, ho⟩
  case prepare req =>
    cases hu
    split at hr
    case h_1    => contradiction
    case h_2 he => exact .inr (.inl ⟨req, _, rfl, rfl, he⟩)
  case lookup  => split at hr <;> contradiction
  case confirm => split at hr <;> contradiction
  case cancel note =>
    cases hu
    exact .inr (.inr ⟨note, rfl⟩)
  all_goals contradiction

section Reply

variable {h : List (Event Node Input Output)}

-- Nobody else has the plan reserved, and the handler has not done so either.
theorem Clean.reserve_refused (hk : node.Clean) (hs : Covered h node)
    (hg : node.orderly (.proceed c sent disk)) (hc : node.connections[c]? = some conn)
    (hh : conn.handler = .reserve req)
    (ho : ¬(Coordinator.reserve req.plan node.coord).fst.isOk) :
    ¬PlanIs req.plan .reserved (Node.step (.proceed c sent disk) node).snd.coord ∧
    ∀ ws, ¬Owes (machine.event (.proceed c sent disk) node :: h) c req.plan ws := by
  have hco : (Node.step (.proceed c sent disk) node).snd.coord =
      (Coordinator.reserve req.plan node.coord).snd := by
    simp [Node.step, hc, Node.proceed, hh, ho, Node.answer]
  have hpl : (Coordinator.reserve req.plan node.coord).snd.plans = node.coord.plans :=
    (reserve_refines req.plan).of_unreserved ho
  refine ⟨fun hp => ?_, fun ws how => ?_⟩
  · rw [hco, PlanIs, hpl] at hp
    obtain ⟨c', hcl⟩ := hk.reserved hp
    exact orderly.reserve hc hg hh c' hcl
  · rcases Since.cons_iff.mp how with ⟨_, hcl, _⟩ | ⟨_, how⟩
    · obtain ⟨op, hst⟩ := step_cases (.proceed c sent disk) node
      rcases hst.claims_origin hcl with hb | ⟨_, _, _, hok⟩
      · exact orderly.reserve hc hg hh c hb
      · exact ho hok
    · have hrq : node.Has Handler.requests c req.plan :=
        ⟨conn, hc, by simp [hh, Handler.requests]⟩
      exact hs.requested hrq how

-- The handler still has the reservation that it gives back.
theorem Clean.cancelled {note : String} (hk : node.Clean) (hs : Covered h node)
    (hc : node.connections[c]? = some conn) (hh : conn.handler = .cancel p note) :
    ¬PlanIs p .reserved (Node.step (.proceed c sent disk) node).snd.coord ∧
    ∀ ws, ¬Owes (machine.event (.proceed c sent disk) node :: h) c p ws := by
  have hcl : node.Has Handler.claims c p := ⟨conn, hc, by simp [hh, Handler.claims]⟩
  obtain ⟨plan, hp, hl⟩ := hk.claimed hcl
  have hco : (Node.step (.proceed c sent disk) node).snd.coord = (cancelPlan p node.coord).snd := by
    simp [Node.step, hc, Node.proceed, hh, Node.answer]
  obtain ⟨hq, hrel⟩ := cancelPlan_of_reserved hp hl
  rw [← hco] at hq hrel
  refine ⟨fun hr => ?_, fun ws how => ?_⟩
  · exact absurd (planIs_congr hr ⟨_, hq, rfl⟩) (by simp)
  · rcases Since.cons_iff.mp how with ⟨⟨conn', hc', hrq⟩, _⟩ | ⟨hn, how⟩
    · cases hc.symm.trans hc'
      simp [hh, Handler.requests] at hrq
    · obtain ⟨plan', hp', _, hw⟩ := hs.claimed how hcl
      cases hp.symm.trans hp'
      exact hn (.inl ⟨plan, hp, hl, hw, hq, hrel⟩)

-- A request that fails leaves no plan reserved and no reservation behind.
theorem Clean.reply_unsent {reply : ClientReplyMsg} (hk : node.Clean) (hs : Covered h node)
    (hv : Resolvable node.coord) (hg : node.orderly input)
    (hc : node.connections[c]? = some conn) (hu : conn.handler.unsent = some p)
    (hr : (Node.step input node).fst = .reply c reply) :
    ¬PlanIs p .reserved (Node.step input node).snd.coord ∧
    ∀ ws, ¬Owes (machine.event input node :: h) c p ws := by
  obtain ⟨⟨sent, disk, rfl⟩, hf⟩ := reply_of_unsent hc hu hr
  rcases hf with ⟨req, hh, rfl, ho⟩ | ⟨req, e, hh, rfl, he⟩ | ⟨note, hh⟩
  · exact hk.reserve_refused hs hg hc hh ho
  · have hcl : node.Has Handler.claims c req.plan := ⟨conn, hc, by simp [hh, Handler.claims]⟩
    obtain ⟨plan, hp, hl⟩ := hk.claimed hcl
    obtain ⟨hst, hw⟩ := orderly.prepare hc hg hh hp
    exact absurd he (prepareDispatch_isOk hv hp hl hst hw _ _)
  · exact hk.cancelled hs hc hh

end Reply

theorem resolvable_coord (l : Launch) (file : Option Bytes) (run : List Input) :
    Resolvable (machine.after (l.start file) run).coord := by
  have hc : Machine.EachStep (fun _ _ => True) run := fun _ _ _ => trivial
  have ⟨ops, _, he⟩ := exists_run l file (P := fun _ => True) (fun _ _ => trivial)
    (fun _ _ _ _ _ _ => trivial) hc
  rw [he]
  exact resolvable_after l.constructed ops

end Node

-- A client that is answered before anything has been sent for it leaves no reservation behind.
theorem failed_dispatch_releases [Platform] (l : Launch) (file : Option Bytes) (run : List Input)
    (hc : Machine.EachStep
      (fun past input => (Node.machine.after (l.start file) past).orderly input) run) :
    ∀ (input : Input) (past : List Input), input :: past <:+ run →
    ∀ (c : ConnectionId) (conn : Connection) (p : ExecutionPlanId) (reply : ClientReplyMsg),
      (Node.machine.after (l.start file) past).connections[c]? = some conn →
      conn.handler.unsent = some p →
      (Node.step input (Node.machine.after (l.start file) past)).fst = .reply c reply →
      ¬PlanIs p .reserved (Node.machine.after (l.start file) (input :: past)).coord ∧
      ∀ ws, ¬Node.Owes (Node.machine.events (l.start file) (input :: past)) c p ws := by
  intro input past hs c conn p reply hconn hu hr
  have ⟨hk, hs⟩ : (Node.machine.after (l.start file) past).Clean ∧
      Node.Covered (Node.machine.events (l.start file) past)
        (Node.machine.after (l.start file) past) := by
    refine Node.machine.invariant_of_eachStep
      (I := fun past node =>
        node.Clean ∧ Node.Covered (Node.machine.events (l.start file) past) node)
      (l.start file) ⟨.start l file, .init _⟩ ?_ (hc.suffix ((List.suffix_cons _ _).trans hs))
    intro past input hg ⟨hk, hs⟩
    have ⟨_, hst⟩ := Node.step_cases input (Node.machine.after (l.start file) past)
    exact ⟨hk.step hg hst (Node.resolvable_coord l file past), hs.step hk hg⟩
  exact hk.reply_unsent hs (Node.resolvable_coord l file past) (hc ‹_›) hconn hu hr

namespace Deployment

open Writer

-- The worker greets a second time, with another connection that is then closed. Nothing can be sent
-- to it any more, while its session goes on and it still reports what it offers.
def detached : List Input := [
  .receive 2 .clientPlan (encodeClientPlan { op := { value := 1 } }) { plan := { value := 10 } },
  .receive 2 .clientRegisterOperation
    (encodeClientRegisterOp { op := operation { value := 1 } }) {},
  .accept 2,
  .receive 1 .heartbeat (encodeHeartbeat heartbeat) {},
  .receive 1 .dataEvidence (encodeDataEvidence evidence) {},
  .receive 1 .capability (encodeCapability capability) { evidence := { value := 1 } },
  .receive 1 .registerTarget (encodeRegisterTarget registration) {},
  .proceed 3 true .replaced,
  .proceed 3 true .replaced,
  .hangUp 3,
  .proceed 3 true .replaced,
  .receive 3 .hello (encodeHello greeting) {},
  .accept 3,
  .proceed 1 true .replaced,
  .receive 1 .hello (encodeHello greeting) {},
  .accept 1]

end Deployment

-- The worker is not found, and the target is as idle as before once the client is told so.
open Deployment Writer in
theorem failed_dispatch_releases_of_deployment :
    let past := request 3 ++ detached
    let run := .proceed 2 true .replaced :: past
    let node := Node.machine.after (({} : Launch).start none) past
    node.coord.reservation { value := 1 } = { reservedSlots := 1, reservedWorkspace := 10 } ∧
    PlanIs { value := 10 } .reserved node.coord ∧
    ¬PlanIs { value := 10 } .reserved
      (Node.machine.after (({} : Launch).start none) run).coord ∧
    ∀ ws, ¬Node.Owes (Node.machine.events (({} : Launch).start none) run) 2 { value := 10 } ws := by
  intro past run node
  have hc : Machine.EachStep
      (fun past input => (Node.machine.after (({} : Launch).start none) past).orderly input)
      run := by
    decide +kernel
  have hu : node.connections[2]?.any (·.handler.unsent = some { value := 10 }) := by
    decide +kernel
  have hr : (Node.step (.proceed 2 true .replaced) node).fst.client = some 2 := by
    decide +kernel
  have hp : node.coord.plans[({ value := 10 } : ExecutionPlanId)]?.any
      (·.lifecycle = .reserved) := by
    decide +kernel
  have ⟨conn, hconn, hu⟩ := (Option.any_eq_true _ _).mp hu
  have ⟨plan, hp, hl⟩ := (Option.any_eq_true _ _).mp hp
  have ⟨reply, hr⟩ := Output.exists_reply hr
  have ⟨hn, ho⟩ := failed_dispatch_releases _ none _ hc _ past (List.suffix_refl _) 2 conn
    { value := 10 } reply hconn (of_decide_eq_true hu) hr
  exact ⟨by decide +kernel, ⟨plan, hp, of_decide_eq_true hl⟩, hn, ho⟩

-- The worker greets with a new boot after the plan has been made. Preparing the dispatch fails
-- then, and the plan stays reserved.
open Deployment Writer in
theorem failed_dispatch_wedges :
    let past := request 1 ++ .receive 3 .hello
      (encodeHello { greeting with workerBoot := { value := 2 } }) {} :: .accept 3 :: service
    let node := Node.machine.after (({} : Launch).start none) past
    let node' := (Node.step (.proceed 2 true .replaced) node).snd
    ∃ (conn : Connection) (reply : ClientReplyMsg),
      node.connections[2]? = some conn ∧ conn.handler.unsent = some { value := 10 } ∧
      (Node.step (.proceed 2 true .replaced) node).fst = .reply 2 reply ∧
      PlanIs { value := 10 } .reserved node'.coord ∧
      node'.coord.reservation { value := 1 } =
        { reservedSlots := 1, reservedWorkspace := 10 } := by
  intro past node node'
  have hu : node.connections[2]?.any (·.handler.unsent = some { value := 10 }) := by
    decide +kernel
  have hr : (Node.step (.proceed 2 true .replaced) node).fst.client = some 2 := by
    decide +kernel
  have hp : node'.coord.plans[({ value := 10 } : ExecutionPlanId)]?.any
      (·.lifecycle = .reserved) := by
    decide +kernel
  have ⟨conn, hconn, hu⟩ := (Option.any_eq_true _ _).mp hu
  have ⟨plan, hp, hl⟩ := (Option.any_eq_true _ _).mp hp
  have ⟨reply, hr⟩ := Output.exists_reply hr
  exact ⟨conn, reply, hconn, of_decide_eq_true hu, hr, ⟨plan, hp, of_decide_eq_true hl⟩,
    by decide +kernel⟩

end NMC
