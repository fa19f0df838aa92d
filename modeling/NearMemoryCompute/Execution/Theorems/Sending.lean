import NearMemoryCompute.Execution.Theorems.Replies

namespace NMC

open Coordinator Reader

-- The plan has been dispatched, whatever has become of it since.
def ExecutionLifecycle.begun : ExecutionLifecycle → Bool
  | planned | reserved => false
  | _                  => true

theorem ExecutionLifecycle.begun_of_dead {a : ExecutionLifecycle} (h : a.dead) : a.begun := by
  cases a <;> first | rfl | contradiction

theorem ExecutionLifecycle.Next.begun {a b : ExecutionLifecycle} (h : Next a b) (ha : a.begun) :
    b.begun := by
  cases h
  case stay            => exact ha
  case reserve         => exact ha
  case dispatch        => contradiction
  case settle _ hb     => rcases hb with rfl | rfl | rfl <;> rfl
  case withdraw _ hb   => rcases hb with rfl | rfl | rfl <;> rfl

-- Once a plan has been dispatched, the identity of its dispatch does not change.
theorem Ledger.Step.begun {st : RuntimeState} {op : Op} {out : Outcome} {l : Ledger}
    {p : ExecutionPlanId} {plan : ExecutionPlan} (h : Ledger.Step st op out l)
    (hl : ¬(op.loads ∧ out.succeeded)) (hn : ∀ o, op ≠ .plan p o)
    (hp : st.plans[p]? = some plan) (hb : plan.lifecycle.begun) :
    ∃ plan', l.plans[p]? = some plan' ∧ plan'.lifecycle.begun ∧
      plan'.dispatchId = plan.dispatchId := by
  obtain ⟨plan', hp', he⟩ := h.evolves hl hn hp
  refine ⟨plan', hp', he.lifecycle.begun hb, ?_⟩
  have set {q : ExecutionPlanId} {old new : ExecutionPlan} (hq : st.plans[q]? = some old)
      (hp' : (st.plans.insert q new)[p]? = some plan')
      (hd : old.lifecycle.begun → new.dispatchId = old.dispatchId) :
      plan'.dispatchId = plan.dispatchId := by
    rcases Table.getElem?_insert_eq_some hp' with ⟨rfl, rfl⟩ | ⟨_, hp'⟩
    · cases hp.symm.trans hq
      exact hd hb
    · cases hp.symm.trans hp'
      rfl
  have sweep {f : ExecutionPlan → ExecutionPlan} (hf : ∀ plan : ExecutionPlan, plan.Swept (f plan))
      (hp' : (st.plans.map fun _ => f)[p]? = some plan') :
      plan'.dispatchId = plan.dispatchId := by
    obtain ⟨plan₀, hq, rfl⟩ := Table.getElem?_map_eq_some hp'
    cases hp.symm.trans hq
    exact (hf plan).dispatchId
  cases h
  case idle =>
    cases hp.symm.trans hp'
    rfl
  case plan o _ _ =>
    rcases Table.getElem?_insert_eq_some hp' with ⟨rfl, _⟩ | ⟨_, hp'⟩
    · exact absurd rfl (hn o)
    · cases hp.symm.trans hp'
      rfl
  case prepare prep _ =>
    refine set prep.plan_eq hp' fun hb => ?_
    rw [prep.reserved] at hb
    contradiction
  case reserve adm          => exact set adm.plan_eq hp' fun _ => rfl
  case supersede hq _ _     => exact set hq hp' fun _ => rfl
  case confirm hq _ _       => exact set hq hp' fun _ => rfl
  case ambiguous c _ _ _ _  => exact set c.plan_eq hp' fun _ => rfl
  case mismatch c _ _ _ _ _ => exact set c.plan_eq hp' fun _ => rfl
  case commit c _ _ _ _ _   => exact set c.plan_eq hp' fun _ => rfl
  case cancel hq _          => exact set hq hp' fun _ => rfl
  case advance              => exact sweep (fun _ => ExecutionPlan.swept_onEpoch) hp'
  case fence                => exact sweep (fun _ => ExecutionPlan.swept_onFence) hp'
  case disconnect           => exact sweep (fun _ => ExecutionPlan.swept_onFence) hp'
  case retire               => exact sweep (fun _ => ExecutionPlan.swept_onRetire) hp'
  case load                 => exact absurd ⟨rfl, rfl⟩ hl

-- The plan has been dispatched, if it has ever been, and the identity of its dispatch is the last.
def RuntimeState.Begun (st : RuntimeState) (p : ExecutionPlanId) (d : Option DispatchId) : Prop :=
  ∃ plan, st.plans[p]? = some plan ∧ plan.lifecycle.begun ∧ plan.dispatchId = d

theorem confirmDispatched_begun {st : RuntimeState} {p : ExecutionPlanId} {d : DispatchId}
    (h : (confirmDispatched p d st).fst.isOk) :
    (∃ plan, st.plans[p]? = some plan ∧ plan.lifecycle = .reserved) ∧
    (confirmDispatched p d st).snd.Begun p (some d) := by
  unfold confirmDispatched at h ⊢
  split at h
  case h_1 => contradiction
  case h_2 plan hp =>
    split_ifs at h with hd hl
    · contradiction
    · contradiction
    · rw [not_not] at hd hl
      simp only [hp, hd, hl]
      refine ⟨⟨plan, rfl, hl⟩, ?_⟩
      simp [RuntimeState.Begun, RuntimeState.setPlan, ExecutionLifecycle.begun]

-- What has been loaded belongs to an earlier epoch.
theorem Launch.plans_dead (l : Launch) (file : Option Bytes) :
    (l.start file).coord.plans.All fun _ plan => plan.lifecycle.dead := by
  have swept (st : RuntimeState) : st.nextEpoch.plans.All fun _ plan => plan.lifecycle.dead := by
    intro p plan hp
    obtain ⟨plan, _, rfl⟩ := Table.getElem?_map_eq_some hp
    exact plan.onEpoch_dead
  have hrec : (l.recovered file).plans.All fun _ plan => plan.lifecycle.dead := by
    unfold recovered
    split
    case h_2 => exact .empty
    case h_1 =>
      split
      case isFalse => exact .empty
      case isTrue =>
        unfold Coordinator.load
        split
        case h_1 => exact .empty
        case h_2 st _ =>
          show st.recover.plans.All _
          rw [RuntimeState.recover_eq]
          exact swept st
  show (l.coordinator file).plans.All _
  unfold coordinator
  split
  case isFalse => exact hrec
  case isTrue =>
    generalize l.recovered file = st at hrec
    induction st using advanceWhile.induct l.epoch
    case case1 st hlt hi =>
      rw [advanceWhile, if_pos hlt]
      exact hi (swept st)
    case case2 st hlt => rwa [advanceWhile, if_neg hlt]

namespace Handler

-- The request and the message of a handler that has prepared a dispatch and not sent it yet.
def draft : Handler → Option (Request × DispatchMsg)
  | lookup req dm | confirm req dm _ | insert req dm _ | send req dm _ => some (req, dm)
  | _                                                                  => none

theorem draft_moved : Moved draft := {}

-- The request of a handler whose dispatch has been confirmed and not been sent yet.
def cleared : Handler → Option Request
  | insert req _ _ | send req _ _ => some req
  | _                             => none

theorem cleared_moved : Moved cleared := {}

end Handler

namespace Node

-- The identity that is drawn for a plan is not in use.
def planUnused (node : Node) : Input → Bool
  | .receive _ .clientPlan _ drawn => drawn.plan ∉ node.coord.plans
  | _                              => true

variable {node node' : Node} {input : Input} {op : Option Op} {c c' : ConnectionId}
         {conn : Connection} {handler : Handler} {req req' : Request} {dm : DispatchMsg}
         {p : ExecutionPlanId} {d : Option DispatchId}

theorem Move.draft_origin (h : Move node c conn input op handler)
    (hr : handler.draft = some (req, dm)) :
    conn.handler.draft = some (req, dm) ∨ ∃ out : DispatchOutput, dm = out.message ∧
      (prepareDispatch req.plan req.dispatch req.attempt node.coord).fst = .ok out := by
  cases h
  case prepare out _ _ _ ho =>
    cases hr
    exact .inr ⟨out, rfl, ho⟩
  case lookup hh _  => exact .inl (hh ▸ hr)
  case confirm hh _ => exact .inl (hh ▸ hr)
  all_goals contradiction

theorem Move.cleared_origin (h : Move node c conn input op handler)
    (hr : handler.cleared = some req) :
    (∃ sent disk, input = .proceed c sent disk) ∧
    op = some (.confirmDispatched req.plan req.dispatch) ∧
    (confirmDispatched req.plan req.dispatch node.coord).fst.isOk := by
  cases h
  case confirm sent disk _ ho =>
    cases hr
    exact ⟨⟨sent, disk, rfl⟩, rfl, ho⟩
  all_goals contradiction

variable [Platform]

theorem Step.plan_unused {o : OperationId} (h : Step node input (some (.plan p o)) node')
    (hu : node.planUnused input) : p ∉ node.coord.plans := by
  cases h
  case hello ho  => cases ho
  case move hm   => cases hm
  case handle hh =>
    cases hh
    exact of_decide_eq_true hu

theorem Step.begun (h : Step node input op node') (hu : node.planUnused input)
    (hb : node.coord.Begun p d) : node'.coord.Begun p d := by
  obtain ⟨plan, hp, hb, hd⟩ := hb
  rw [h.coord]
  cases op
  case none    => exact ⟨plan, hp, hb, hd⟩
  case some op =>
    have hn : ∀ o, op ≠ .plan p o := by
      rintro o rfl
      exact h.plan_unused hu (Table.mem_of_some hp)
    obtain ⟨plan', hp', hb', hd'⟩ :=
      (step_refines op node.coord).begun (Op.served.not_loads h.served) hn hp hb
    exact ⟨plan', hp', hb', hd'.trans hd⟩

-- A plan that has just been confirmed has not been dispatched before.
theorem Step.cleared_origin (h : Step node input op node') (hc : node'.Has Handler.cleared c req) :
    node.Has Handler.cleared c req ∨ (∃ sent disk, input = .proceed c sent disk) ∧
      node'.coord.Begun req.plan (some req.dispatch) ∧ ∀ d, ¬node.coord.Begun req.plan d := by
  rcases h.origin Handler.cleared_moved hc with hc | ⟨conn, _, _, hm, hn⟩
  · exact .inl hc
  · obtain ⟨hi, rfl, ho⟩ := hm.cleared_origin hn
    obtain ⟨⟨plan, hp, hl⟩, hb⟩ := confirmDispatched_begun ho
    refine .inr ⟨hi, h.coord ▸ hb, ?_⟩
    rintro d ⟨plan', hp', hb', _⟩
    cases hp.symm.trans hp'
    rw [hl] at hb'
    contradiction

-- Which plans have been sent to a worker, and which are about to be.
structure Outgoing (node : Node) (sent : List ExecutionPlanId) : Prop where
  resolvable : Resolvable node.coord
  nodup      : sent.Nodup
  begun      : ∀ p ∈ sent, ∃ d, node.coord.Begun p d
  drafts     : ∀ {c req dm}, node.Has Handler.draft c (req, dm) →
    dm.plan = req.plan ∧ dm.dispatch = req.dispatch
  cleared    : ∀ {c req}, node.Has Handler.cleared c req →
    node.coord.Begun req.plan (some req.dispatch) ∧ req.plan ∉ sent
  apart      : ∀ {c c' req req'}, node.Has Handler.cleared c req →
    node.Has Handler.cleared c' req' → req.plan = req'.plan → c = c'

namespace Outgoing

variable {sent : List ExecutionPlanId}

-- No plan that a process has loaded can be dispatched any more.
theorem start (l : Launch) (file : Option Bytes) :
    (l.start file).Outgoing ((l.start file).coord.plans.toList.map Prod.fst) := by
  have none {α : Type} {f : Handler → Option α} {c : ConnectionId} {a : α} :
      ¬(l.start file).Has f c a := by
    rintro ⟨conn, hc, _⟩
    simp [Launch.start] at hc
  obtain ⟨ops, _, he⟩ := l.exists_run file
  have hr : Resolvable (l.coordinator file) := he ▸ resolvable_after _ ops
  refine ⟨hr, Table.nodup_map_fst_toList _, ?_, fun h => absurd h none, fun h => absurd h none,
    fun h => absurd h none⟩
  intro p hp
  obtain ⟨⟨p, plan⟩, hm, rfl⟩ := List.mem_map.mp hp
  have hp := Std.ExtTreeMap.mem_toList_iff_getElem?_eq_some.mp hm
  exact ⟨_, plan, hp, ExecutionLifecycle.begun_of_dead (l.plans_dead file hp), rfl⟩

variable (hs : node.Outgoing sent) (h : Step node input op node') (hu : node.planUnused input)

include hs h

theorem drafts_step (hd : node'.Has Handler.draft c (req, dm)) :
    dm.plan = req.plan ∧ dm.dispatch = req.dispatch := by
  rcases h.origin Handler.draft_moved hd with hd | ⟨conn, _, hc, hm, hn⟩
  · exact hs.drafts hd
  · rcases hm.draft_origin hn with hd | ⟨out, rfl, ho⟩
    · exact hs.drafts ⟨conn, hc, hd⟩
    · obtain ⟨prep, hm⟩ := prepareDispatch_ok ho
      exact hm ▸ ⟨hs.resolvable.plans prep.plan_eq, rfl⟩

include hu

theorem step : node'.Outgoing sent where
  resolvable := by
    rw [h.coord]
    cases op
    case none    => exact hs.resolvable
    case some op => exact hs.resolvable.step op
  nodup  := hs.nodup
  begun  := by
    intro p hp
    obtain ⟨d, hb⟩ := hs.begun p hp
    exact ⟨d, h.begun hu hb⟩
  drafts := hs.drafts_step h
  cleared := by
    intro c req hc
    rcases h.cleared_origin hc with hc | ⟨_, hb, hn⟩
    · exact ⟨h.begun hu (hs.cleared hc).1, (hs.cleared hc).2⟩
    · refine ⟨hb, fun hm => ?_⟩
      obtain ⟨d, hb⟩ := hs.begun _ hm
      exact hn d hb
  apart := by
    intro c c' req req' hc hc' he
    rcases h.cleared_origin hc with hc | ⟨⟨_, _, hi⟩, _, hn⟩
    · rcases h.cleared_origin hc' with hc' | ⟨_, _, hn'⟩
      · exact hs.apart hc hc' he
      · exact absurd (he ▸ (hs.cleared hc).1) (hn' _)
    · rcases h.cleared_origin hc' with hc' | ⟨⟨_, _, hi'⟩, _, _⟩
      · exact absurd (he ▸ (hs.cleared hc').1) (hn _)
      · cases hi.symm.trans hi'
        rfl

end Outgoing

-- A dispatch is sent by a handler that has confirmed it.
theorem send_of_dispatch {sock : ConnectionId}
    (h : (Node.step input node).fst = .dispatch sock dm) :
    ∃ c conn req, node.connections[c]? = some conn ∧ conn.handler = .send req dm sock ∧
      (Node.step input node).snd = node.update c { conn with handler := .wait req } := by
  cases input <;> simp only [Node.step] at h ⊢
  case accept => contradiction
  case hangUp => split at h <;> contradiction
  case receive type _ _ =>
    split at h
    case h_1 => contradiction
    case h_2 =>
      cases type <;> simp only [Node.receive] at h
      all_goals repeat' split at h
      all_goals contradiction
  case proceed c _ _ =>
    split at h
    case h_1 => contradiction
    case h_2 conn hc =>
      cases hh : conn.handler <;> simp only [Node.proceed, hh, Node.answer] at h ⊢
      case send req dm' sock' =>
        split at h
        case isTrue ho =>
          cases h
          exact ⟨c, conn, req, hc, hh, by simp only [if_pos ho]⟩
        case isFalse => contradiction
      all_goals repeat' split at h
      all_goals contradiction

-- What is sent has been confirmed before, and not been sent.
theorem Outgoing.send {sent : List ExecutionPlanId} {sock : ConnectionId} (hs : node.Outgoing sent)
    (h : (Node.step input node).fst = .dispatch sock dm)
    (hs' : (Node.step input node).snd.Outgoing sent) :
    node.coord.Begun dm.plan (some dm.dispatch) ∧
    (Node.step input node).snd.Outgoing (dm.plan :: sent) := by
  obtain ⟨c, conn, req, hc, hh, he⟩ := send_of_dispatch h
  have hd : node.Has Handler.draft c (req, dm) := ⟨conn, hc, by simp [hh, Handler.draft]⟩
  have hcl : node.Has Handler.cleared c req := ⟨conn, hc, by simp [hh, Handler.cleared]⟩
  obtain ⟨hp, hdi⟩ := hs.drafts hd
  obtain ⟨hb, hn⟩ := hs.cleared hcl
  rw [hp, hdi]
  refine ⟨hb, { hs' with nodup := List.nodup_cons.mpr ⟨hn, hs.nodup⟩, begun := ?_, cleared := ?_ }⟩
  · exact List.forall_mem_cons.mpr ⟨⟨_, by rwa [he]⟩, hs'.begun⟩
  · intro c' req' hc'
    refine ⟨(hs'.cleared hc').1, ?_⟩
    rw [List.mem_cons, not_or]
    refine ⟨fun hp' => ?_, (hs'.cleared hc').2⟩
    -- Another handler that is about to send the same plan is the same handler, which waits now.
    have hne : c ≠ c' := by
      rintro rfl
      obtain ⟨conn', hcon, hr⟩ := hc'
      rw [he, update, Table.getElem?_insert_self] at hcon
      cases hcon
      contradiction
    rw [he] at hc'
    rcases hc'.of_insert rfl with ⟨rfl, _⟩ | hc'
    · contradiction
    · exact hne (hs.apart hcl hc' hp'.symm)

end Node

-- The plan that has been sent to a worker in a step.
def Output.sent : Output → Option ExecutionPlanId
  | dispatch _ dm => some dm.plan
  | _             => none

theorem Output.dispatch_of_sent {out : Output} {p : ExecutionPlanId} (h : out.sent = some p) :
    ∃ c dm, out = .dispatch c dm := by
  cases out
  case dispatch c dm => exact ⟨c, dm, rfl⟩
  all_goals contradiction

end NMC
