import NearMemoryCompute.Execution.Theorems.Custody

namespace NMC

open Coordinator Reader Writer

namespace Node

variable {node node' : Node} {input : Input} {op : Option Op} {c : ConnectionId} {d : DispatchId}
         {p : ExecutionPlanId} {req : Request}

-- The dispatch belongs to the plan, or a client has asked for it.
def Owner (node : Node) (d : DispatchId) (p : ExecutionPlanId) : Prop :=
  (∃ plan, node.coord.plans[p]? = some plan ∧ plan.dispatchId = some d) ∨
  ∃ c req, node.Has Handler.request c req ∧ req.plan = p ∧ req.dispatch = d

theorem owner_of_begun (h : node.coord.Begun p (some d)) : node.Owner d p := by
  obtain ⟨plan, hp, _, hd⟩ := h
  exact .inl ⟨plan, hp, hd⟩

theorem Unused.not_owner (h : node.Unused d) : ¬node.Owner d p := by
  rintro (⟨plan, hp, hd⟩ | ⟨c, req, hr, _, hd⟩)
  · exact h.plans hp hd
  · exact h.request c req hr hd

variable [Platform]

theorem Step.owner_origin (h : Step node input op node') (ho : node'.Owner d p) :
    node.Owner d p ∨ ∃ c payload drawn req, input = .receive c .clientDispatch payload drawn ∧
      node'.Has Handler.request c req ∧ req.plan = p ∧ req.dispatch = d ∧ drawn.dispatch = d := by
  rcases ho with ⟨plan', hp, hd⟩ | ⟨c, req, hr, hp, hd⟩
  · rw [h.coord] at hp
    cases op
    case none => exact .inl (.inl ⟨plan', hp, hd⟩)
    case some op =>
      rcases (step_refines op node.coord).dispatchId (Op.served.not_loads h.served) hp hd with
        ho | ⟨aid, rfl⟩
      · exact .inl (.inl ho)
      · exact .inl (.inr h.prepares)
  · rcases h.request_origin hr with hr | ⟨_, payload, drawn, hi, he⟩
    · exact .inl (.inr ⟨c, req, hr, hp, hd⟩)
    · exact .inr ⟨c, payload, drawn, req, hi, hr, hp, hd, he.symm.trans hd⟩

-- A client that has asked for a dispatch has asked for that of the plan to which it belongs.
theorem Step.owner_unique (h : Step node input op node')
    (hu : ∀ c payload drawn, input = .receive c .clientDispatch payload drawn →
      node.Unused drawn.dispatch)
    (ho : ∀ {p c req}, node.Has Handler.request c req → node.Owner req.dispatch p → p = req.plan)
    (hr : node'.Has Handler.request c req) (hp : node'.Owner req.dispatch p) : p = req.plan := by
  rcases h.owner_origin hp with hp | ⟨c', payload, drawn, req', hi, hr', rfl, hd, hd'⟩
  · rcases h.request_origin hr with hr | ⟨_, payload, drawn, hi, hd⟩
    · exact ho hr hp
    · exact absurd (hd ▸ hp) (hu c payload drawn hi).not_owner
  · rcases h.request_origin hr with hr | ⟨_, _, _, hi', _⟩
    · exact absurd hd'.symm ((hu c' payload drawn hi).request c req hr)
    · cases hi.symm.trans hi'
      exact congrArg Request.plan (hr'.unique hr)

theorem Step.stays_committed (h : Step node input op node') (hu : node.planUnused input)
    (hc : node.coord.committed p) : node'.coord.committed p := by
  obtain ⟨plan, hp, hl⟩ := RuntimeState.committed_iff.mp hc
  rw [h.coord]
  cases op
  case none    => exact hc
  case some op =>
    have hn : ∀ o, op ≠ .plan p o := by
      rintro o rfl
      exact h.plan_unused hu (Table.mem_of_some hp)
    obtain ⟨plan', hp', he⟩ :=
      (step_refines op node.coord).evolves (Op.served.not_loads h.served) hn hp
    exact RuntimeState.committed_iff.mpr ⟨plan', hp', (hl ▸ he.lifecycle).of_committed⟩

end Node

namespace Cluster

-- Unless it says that nobody knows, the reply says what has become of the plan, and that is final.
def Conclusive (s : Cluster) (p : ExecutionPlanId) (reply : ClientReplyMsg) : Prop :=
  !reply.ambiguous → (∃ d, s.node.coord.Begun p d) ∧ s.Spent p ∧
    reply.committed = s.node.coord.committed p

-- Every reply that is passed on or promised is conclusive for the plan that its client has asked
-- for.
structure Agreed (s : Cluster) : Prop where
  paired   : s.node.Paired
  owner    : ∀ {p c req}, s.node.Has Handler.request c req → s.node.Owner req.dispatch p →
    p = req.plan
  held     : ∀ {c d reply}, s.node.Has Handler.held c (d, reply) →
    ∃ p, s.node.coord.Begun p (some d) ∧ s.Conclusive p reply
  promised : ∀ {c reply req}, s.node.promises[c]? = some reply →
    s.node.Has Handler.request c req → s.Conclusive req.plan reply

theorem Spent.anti {s : Cluster} {peers : Table ConnectionId Peer} {p : ExecutionPlanId}
    (h : s.Spent p) (hp : ∀ q, Cluster.inFlight { s with peers } q ≤ s.inFlight q) :
    Spent { s with peers } p :=
  ⟨Nat.le_zero.mp ((hp _).trans_eq h.inFlight), h.cleared⟩

theorem Agreed.anti {s : Cluster} {peers : Table ConnectionId Peer} (h : s.Agreed)
    (hp : ∀ q, inFlight { s with peers } q ≤ s.inFlight q) : Agreed { s with peers } where
  paired   := h.paired
  owner    := h.owner
  held hh  := by
    obtain ⟨p, hb, hc⟩ := h.held hh
    exact ⟨p, hb, fun ha => (hc ha).imp_right (And.imp_left (·.anti hp))⟩
  promised hv hr ha := (h.promised hv hr ha).imp_right (And.imp_left (·.anti hp))

variable [Platform] {s : Cluster} {input : Input} {arrived : NMC.Input}
         {peers : Table ConnectionId Peer} {p : ExecutionPlanId} {reply : ClientReplyMsg}
         {c : ConnectionId} {d : DispatchId} {req : Request}

section Run

variable (ha : Arrival s input arrived peers) (hf : s.fresh input)

include ha hf

-- The outcome of a plan for which nothing is on its way is not going to change.
theorem committed_run (hp : s.Spent p) :
    (s.node.step arrived).snd.coord.committed p = s.node.coord.committed p := by
  obtain ⟨op, hst⟩ := Node.step_cases arrived s.node
  refine Bool.eq_iff_iff.mpr ⟨fun hco => ?_, hst.stays_committed (planUnused_of_arrival ha hf)⟩
  rcases hst.committed_origin hco with hco | ⟨_, _, _, m, _, _, rfl, hm, rfl, _⟩
  · exact hco
  · have hl := inFlight_result ha hm (·.fst = m.plan) (by simp)
    rw [hp.inFlight] at hl
    omega

variable (hc : s.Custody) (hs : s.Sound)

include hc hs

theorem Conclusive.run (h : s.Conclusive p reply) :
    ({ s with peers }.run arrived).snd.Conclusive p reply := by
  intro hna
  obtain ⟨⟨d, hb⟩, hp, he⟩ := h hna
  obtain ⟨op, hst⟩ := Node.step_cases arrived s.node
  have hp' : Spent { s with peers } p := hp.anti (inFlight_arrival ha)
  rw [run_node]
  refine ⟨⟨d, hst.begun (planUnused_of_arrival ha hf) hb⟩, hp'.run (hc.arrive ha) hs.node hb, ?_⟩
  exact he.trans (committed_run ha hf hp).symm

theorem Agreed.held_run (h : s.Agreed)
    (hh : (s.node.step arrived).snd.Has Handler.held c (d, reply)) :
    ∃ p, (s.node.step arrived).snd.coord.Begun p (some d) ∧
      ({ s with peers }.run arrived).snd.Conclusive p reply := by
  obtain ⟨op, hst⟩ := Node.step_cases arrived s.node
  have hu := planUnused_of_arrival ha hf
  rcases hst.held_origin hh with hh | ⟨payload, drawn, m, rest, rfl, hm, rfl, rfl, rfl⟩
  · obtain ⟨p, hb, hco⟩ := h.held hh
    exact ⟨p, hst.begun hu hb, hco.run ha hf hc hs⟩
  · obtain ⟨hb, hn, hp⟩ := hc.spent_of_result ha hm
    refine ⟨m.plan, hst.begun hu hb, fun hna => ?_⟩
    rw [run_node]
    refine ⟨⟨_, hst.begun hu hb⟩, hp.run (hc.arrive ha) hs.node hb, ?_⟩
    by_cases hac : ∃ plan, s.node.coord.plans[m.plan]? = some plan ∧ Accepts s.node.coord plan m
    case pos =>
      obtain ⟨plan, hq, hac⟩ := hac
      have hag : (resultReply m.plan (applyResult drawn.result m s.node.coord).fst).Agrees _ _ :=
        agrees_of_accepts hq hac
      rw [hst.coord]
      cases hr : (resultReply m.plan (applyResult drawn.result m s.node.coord).fst).committed
      case true  => exact (hag.committed hr).symm
      case false =>
        have hl := hag.lost (by simp [hr]) hna
        exact (Bool.eq_false_iff.mpr (RuntimeState.lost.not_committed hl)).symm
    case neg =>
      rw [not_committed_of_refused hac, eq_comm, Bool.eq_false_iff]
      intro hco
      rcases hst.committed_origin hco with hco | ⟨_, _, _, m', _, plan, hi, hm', he, hq, hac'⟩
      · exact hn hco
      · cases hi
        cases hm.symm.trans hm'
        exact hac ⟨plan, hq, hac'⟩

theorem Agreed.promised_run (h : s.Agreed)
    (hv : (s.node.step arrived).snd.promises[c]? = some reply)
    (hr : (s.node.step arrived).snd.Has Handler.request c req) :
    ({ s with peers }.run arrived).snd.Conclusive req.plan reply := by
  obtain ⟨op, hst⟩ := Node.step_cases arrived s.node
  rcases hst.request_origin hr with ho | ⟨hn, _⟩
  · rcases hst.promise_origin hv with hv | ⟨d, p, hpe, rfl, hv⟩
    · exact (h.promised hv ho).run ha hf hc hs
    · obtain ⟨_, req', hr', rfl⟩ := h.paired.pending hpe
      cases ho.unique hr'.request
      rcases hv with ⟨hamb, _⟩ | ⟨c', hh⟩
      · intro hna
        simp [hamb] at hna
      · -- The reply is about the plan that the client has asked for.
        obtain ⟨p', hb, hco⟩ := h.held hh
        exact h.owner ho (Node.owner_of_begun hb) ▸ hco.run ha hf hc hs
  · -- Nothing is promised to a client that has just made its request.
    rcases hst.promise_origin hv with hv | ⟨d, p, hpe, rfl, _⟩
    · obtain ⟨req', hr'⟩ := h.paired.promises hv
      exact absurd hr'.request (hn req')
    · obtain ⟨_, req', hr', _⟩ := h.paired.pending hpe
      exact absurd hr'.request (hn req')

theorem Agreed.run (h : s.Agreed) : ({ s with peers }.run arrived).snd.Agreed := by
  obtain ⟨op, hst⟩ := Node.step_cases arrived s.node
  constructor
  case paired => simpa only [run_node] using h.paired.step hst
  case owner =>
    intro p c req hr hp
    rw [run_node] at hr hp
    refine hst.owner_unique ?_ h.owner hr hp
    rintro c payload drawn rfl
    exact unused_of_arrival ha hf
  case held =>
    intro c d reply hh
    rw [run_node] at hh ⊢
    have hh := h.held_run ha hf hc hs hh
    exact hh
  case promised =>
    intro c reply req hv hr
    rw [run_node] at hv hr
    have hv := h.promised_run ha hf hc hs hv hr
    exact hv

end Run

theorem Agreed.step (h : s.Agreed) (hc : s.Custody) (hs : s.Sound) (input : Input)
    (hf : s.fresh input) : (step input s).snd.Agreed := by
  have hst := step_cases input s
  generalize Cluster.step input s = next at hst
  cases hst
  case stay           => exact h
  case work c peer hp => exact h.anti fun q => inFlight_insert_le hp (carried_work (hs.peers hp) q)
  case run ha         => exact h.run ha hf hc hs

omit [Platform] in
theorem Agreed.start (l : Launch) (file : Option Bytes) : Agreed { node := l.start file } := by
  have none {α : Type} {f : Handler → Option α} {c : ConnectionId} {a : α} :
      ¬(l.start file).Has f c a := by
    rintro ⟨conn, hc, _⟩
    simp [Launch.start] at hc
  exact ⟨.start l file, fun h => absurd h none, fun h => absurd h none, fun _ h => absurd h none⟩

theorem Conclusive.step (h : s.Conclusive p reply) (hc : s.Custody) (hs : s.Sound) (input : Input)
    (hf : s.fresh input) : (Cluster.step input s).snd.Conclusive p reply := by
  have hst := step_cases input s
  generalize Cluster.step input s = next at hst
  cases hst
  case stay           => exact h
  case work c peer hp =>
    have hq q := inFlight_insert_le hp (carried_work (hs.peers hp) q)
    exact fun ha => (h ha).imp_right (And.imp_left (·.anti hq))
  case run ha         => exact h.run ha hf hc hs

-- Whoever waits is answered by what it has been promised.
theorem promise_of_reply {conn : Connection} (hc : s.node.connections[c]? = some conn)
    (hw : conn.handler = .wait req) (h : (Cluster.step input s).fst = .reply c reply) :
    s.node.promises[c]? = some reply := by
  have hst := step_cases input s
  generalize Cluster.step input s = next at h hst
  cases hst
  case stay => contradiction
  case work => contradiction
  case run  => exact Node.promise_of_reply hc hw h

namespace Incarnation

variable {i : Incarnation} {file : Option Bytes} (hr : i.Regular file)
         (hb : ∀ bytes ∈ file, NMC.Backed bytes) {past : List Input}

include hr hb

theorem Regular.custody (hp : past <:+ i.inputs) : (machine.after (i.start file) past).Custody := by
  induction past
  case nil => exact .start i.launch file
  case cons input past hi =>
    have hp' := (List.suffix_cons input past).trans hp
    exact (hi hp').step (hr.sound hb hp') input (hr.fresh hp)

theorem Regular.agreed (hp : past <:+ i.inputs) : (machine.after (i.start file) past).Agreed := by
  induction past
  case nil => exact .start i.launch file
  case cons input past hi =>
    have hp' := (List.suffix_cons input past).trans hp
    exact (hi hp').step (hr.custody hb hp') (hr.sound hb hp') input (hr.fresh hp)

-- What is conclusive stays so.
theorem Regular.conclusive (hp : past <:+ i.inputs)
    (hc : (machine.after (i.start file) past).Conclusive p reply) :
    (i.cluster file).Conclusive p reply := by
  refine machine.stable_of_eachStep (C := fun past input => input :: past <:+ i.inputs)
    (P := fun s => s.Conclusive p reply) (i.start file) ?step (fun _ _ hs => hs) hp hc
  intro past input hs hc
  have hp := (List.suffix_cons input past).trans hs
  exact hc.step (hr.custody hb hp) (hr.sound hb hp) input (hr.fresh hs)

end Incarnation
end Cluster

-- A client that has waited for its dispatch and is told how it has ended, is told how the plan ends
-- for good.
theorem outcome_final [Platform] (history : List Cluster.Incarnation)
    (hc : Machine.EachStep (fun past i => i.Regular (Cluster.service.after none past)) history) :
    ∀ (i : Cluster.Incarnation) (past : List Cluster.Incarnation), i :: past <:+ history →
    ∀ (input : Cluster.Input) (earlier : List Cluster.Input), input :: earlier <:+ i.inputs →
      let file := Cluster.service.after none past
      let s := Cluster.machine.after (i.start file) earlier
      ∀ (c : ConnectionId) (conn : Connection) (req : Request) (reply : ClientReplyMsg),
        s.node.connections[c]? = some conn → conn.handler = .wait req →
        (Cluster.step input s).fst = .reply c reply → !reply.ambiguous →
        reply.committed = s.node.coord.committed req.plan ∧
        reply.committed = (i.cluster file).node.coord.committed req.plan := by
  intro i past hs input earlier hi file s c conn req reply hconn hw ho ha
  have hr := hc hs
  have hb := Cluster.backed_after (hc.suffix ((List.suffix_cons i past).trans hs))
  have hp := (List.suffix_cons input earlier).trans hi
  have hv := Cluster.promise_of_reply hconn hw ho
  have hreq : s.node.Has Handler.request c req := ⟨conn, hconn, by simp [hw, Handler.request]⟩
  have hcon := (hr.agreed hb hp).promised hv hreq
  exact ⟨(hcon ha).2.2, (hr.conclusive hb hp hcon ha).2.2⟩

open Cluster.Deployment NMC.Deployment in
theorem outcome_final_of_deployment :
    let earlier := List.replicate 3 (.proceed 1 true .replaced) ++ answered
    let s := Cluster.machine.after (serving.start none) earlier
    ∃ (conn : Connection) (req : Request) (reply : ClientReplyMsg),
      s.node.connections[2]? = some conn ∧ conn.handler = .wait req ∧
      (Cluster.step (.proceed 2 true .replaced) s).fst = .reply 2 reply ∧ !reply.ambiguous ∧
      reply.committed ∧ (serving.cluster none).node.coord.committed req.plan := by
  intro earlier s
  have hw : s.node.connections[2]?.any (·.handler.waits.isSome) := by decide +kernel
  have ht : ((Cluster.step (.proceed 2 true .replaced) s).fst.told).any fun r =>
      r.fst = 2 && r.snd.committed && !r.snd.ambiguous := by
    decide +kernel
  obtain ⟨conn, hconn, hw⟩ := (Option.any_eq_true _ _).mp hw
  obtain ⟨req, hw⟩ := Option.isSome_iff_exists.mp hw
  have hw := Handler.waits_eq_some.mp hw
  obtain ⟨⟨c, reply⟩, ht, hr⟩ := (Option.any_eq_true _ _).mp ht
  simp only [Bool.and_eq_true, decide_eq_true_eq] at hr
  obtain ⟨⟨rfl, hco⟩, ha⟩ := hr
  have ho := Output.told_eq_some.mp ht
  have hc : Machine.EachStep (fun past i => i.Regular (Cluster.service.after none past))
      [serving] :=
    Machine.eachStep_cons.mpr ⟨serving_regular, Machine.eachStep_nil⟩
  have h := outcome_final _ hc serving [] (List.suffix_refl _) (.proceed 2 true .replaced) earlier
    (List.suffix_refl _)
  simp only [show Cluster.service.after none [] = none from rfl,
    show Cluster.machine.after (serving.start none) earlier = s from rfl] at h
  have hf := (h 2 conn req reply hconn hw ho ha).2
  exact ⟨conn, req, reply, hconn, hw, ho, ha, hco, hf ▸ hco⟩

end NMC
