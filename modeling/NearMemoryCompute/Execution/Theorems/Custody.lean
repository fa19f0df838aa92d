import NearMemoryCompute.Execution.Theorems.Service

namespace NMC

open Coordinator Reader Writer

-- A plan is committed only by a completion that is accepted.
theorem Ledger.Step.committed_origin {st : RuntimeState} {op : Op} {out : Outcome} {l : Ledger}
    {p : ExecutionPlanId} {plan' : ExecutionPlan} (h : Ledger.Step st op out l)
    (hl : ¬(op.loads ∧ out.succeeded)) (hp : l.plans[p]? = some plan')
    (hc : plan'.lifecycle = .committed) :
    st.committed p ∨ ∃ id msg plan, op = .applyResult id msg ∧ msg.plan = p ∧
      st.plans[p]? = some plan ∧ Accepts st plan msg := by
  have same (hp : st.plans[p]? = some plan') : st.committed p :=
    RuntimeState.committed_iff.mpr ⟨plan', hp, hc⟩
  have set {q : ExecutionPlanId} {new : ExecutionPlan}
      (hp : (st.plans.insert q new)[p]? = some plan') (hn : new.lifecycle ≠ .committed) :
      st.committed p := by
    rcases Table.getElem?_insert_eq_some hp with ⟨_, rfl⟩ | ⟨_, hp⟩
    · exact absurd hc hn
    · exact same hp
  have sweep {f : ExecutionPlan → ExecutionPlan} (hf : ∀ plan : ExecutionPlan, plan.Swept (f plan))
      (hp : (st.plans.map fun _ => f)[p]? = some plan') : st.committed p := by
    obtain ⟨plan, hq, rfl⟩ := Table.getElem?_map_eq_some hp
    exact RuntimeState.committed_iff.mpr ⟨plan, hq, (hf plan).committed hc⟩
  cases h
  case idle                 => exact .inl (same hp)
  case plan                 => exact .inl (set hp (by simp [Selection.plan, newPlan]))
  case reserve adm          => exact .inl (set hp (by simp [Admission.reserved]))
  case prepare prep _       =>
    exact .inl (set hp (by simp [Preparation.prepared, prep.reserved]))
  case supersede            => exact .inl (set hp (by simp))
  case confirm              => exact .inl (set hp (by simp))
  case ambiguous            => exact .inl (set hp (by simp))
  case mismatch             => exact .inl (set hp (by simp))
  case cancel               => exact .inl (set hp (by simp))
  case advance              => exact .inl (sweep (fun _ => ExecutionPlan.swept_onEpoch) hp)
  case fence                => exact .inl (sweep (fun _ => ExecutionPlan.swept_onFence) hp)
  case disconnect           => exact .inl (sweep (fun _ => ExecutionPlan.swept_onFence) hp)
  case retire               => exact .inl (sweep (fun _ => ExecutionPlan.swept_onRetire) hp)
  case load                 => exact absurd ⟨rfl, rfl⟩ hl
  case commit id msg _ c _ _ _ _ _ =>
    rcases Table.getElem?_insert_eq_some hp with ⟨rfl, _⟩ | ⟨_, hp⟩
    · exact .inr ⟨id, msg, c.plan, rfl, rfl, c.plan_eq, completionError_eq_none.mp c.accepted⟩
    · exact .inl (same hp)

theorem RuntimeState.begun_of_committed {st : RuntimeState} {p : ExecutionPlanId}
    (h : st.committed p) : ∃ d, st.Begun p d := by
  obtain ⟨plan, hp, hl⟩ := committed_iff.mp h
  exact ⟨_, plan, hp, hl ▸ rfl, rfl⟩

namespace Node

variable [Platform] {node node' : Node} {input : Input} {op : Option Op} {p : ExecutionPlanId}

theorem Step.applies {id : ResultId} {m : ResultMsg}
    (h : Step node input (some (.applyResult id m)) node') :
    ∃ c payload drawn rest, input = .receive c .result payload drawn ∧
      decodeResult payload = some (m, rest) := by
  cases h
  case handle hh => cases hh
  case hello ho  => cases ho
  case move c _ _ _ hm =>
    cases hm
    case commit payload drawn rest _ _ hm _ => exact ⟨c, payload, drawn, rest, rfl, hm⟩
    case result payload drawn rest _ _ hm _ => exact ⟨c, payload, drawn, rest, rfl, hm⟩

theorem Step.committed_origin (h : Step node input op node') (hc : node'.coord.committed p) :
    node.coord.committed p ∨ ∃ c payload drawn m rest plan,
      input = .receive c .result payload drawn ∧ decodeResult payload = some (m, rest) ∧
      m.plan = p ∧ node.coord.plans[p]? = some plan ∧ Accepts node.coord plan m := by
  obtain ⟨plan', hp, hl⟩ := RuntimeState.committed_iff.mp hc
  rw [h.coord] at hp
  cases op
  case none    => exact .inl (RuntimeState.committed_iff.mpr ⟨plan', hp, hl⟩)
  case some op =>
    rcases (step_refines op node.coord).committed_origin (Op.served.not_loads h.served) hp hl with
      hc | ⟨id, m, plan, rfl, hm, hp, ha⟩
    · exact .inl hc
    · obtain ⟨c, payload, drawn, rest, rfl, hd⟩ := h.applies
      exact .inr ⟨c, payload, drawn, m, rest, plan, rfl, hd, hm, hp, ha⟩

end Node

namespace Cluster

-- The plan and the dispatch that a frame is about. A dispatch and its result are about the same.
def ticket (frame : FrameType × Bytes) : Option (ExecutionPlanId × DispatchId) :=
  match frame.fst with
  | .dispatch => (decodeDispatch frame.snd).map fun r => (r.fst.plan, r.fst.dispatch)
  | .result   => (decodeResult frame.snd).map fun r => (r.fst.plan, r.fst.dispatch)
  | _         => none

-- How many of the frames are about a plan or a dispatch of that kind.
def carried (q : ExecutionPlanId × DispatchId → Bool) (frames : List (FrameType × Bytes)) : ℕ :=
  frames.countP fun f => (ticket f).any q

-- How many such frames are on their way, to a worker or back.
def inFlight (s : Cluster) (q : ExecutionPlanId × DispatchId → Bool) : ℕ :=
  s.peers.total fun peer => carried q peer.inbox + carried q peer.outbox

section Frames

variable {st : RuntimeState} {q : ExecutionPlanId × DispatchId → Bool} {f : FrameType × Bytes}
         {frames : List (FrameType × Bytes)} {peer : Peer} {t : ExecutionPlanId × DispatchId}

theorem ticket_dispatch {dm : DispatchMsg} (h : dm.Genuine st) :
    ticket (.dispatch, encodeDispatch dm) = some (dm.plan, dm.dispatch) := by
  simp only [ticket, h.decode]
  rfl

theorem ticket_result {m : ResultMsg} (h : m.Normal) :
    ticket (.result, encodeResult m) = some (m.plan, m.dispatch) := by
  have hr := (decodeResult_reads h).run []
  simp only [List.append_nil] at hr
  simp only [ticket, hr]
  rfl

theorem carried_append (q : ExecutionPlanId × DispatchId → Bool)
    (frames frames' : List (FrameType × Bytes)) :
    carried q (frames ++ frames') = carried q frames + carried q frames' :=
  List.countP_append

theorem carried_cons (q : ExecutionPlanId × DispatchId → Bool) (f : FrameType × Bytes)
    (frames : List (FrameType × Bytes)) :
    carried q (f :: frames) = carried q [f] + carried q frames :=
  carried_append q [f] frames

theorem carried_eq_zero (h : ∀ f ∈ frames, ticket f = none) : carried q frames = 0 := by
  refine List.countP_eq_zero.mpr fun f hf => ?_
  simp [h f hf]

theorem carried_singleton (h : ticket f = some t) : carried q [f] = if q t then 1 else 0 := by
  simp [carried, List.countP_singleton, h]

-- Some frame has a ticket of that kind.
theorem exists_ticket (h : carried q frames ≠ 0) :
    ∃ f ∈ frames, ∃ t, ticket f = some t ∧ q t := by
  obtain ⟨f, hf, ht⟩ := List.countP_pos_iff.mp (Nat.pos_of_ne_zero h)
  exact ⟨f, hf, (Option.any_eq_true _ _).mp ht⟩

theorem carried_ne_zero (hf : f ∈ frames) (ht : ticket f = some t) (hq : q t) :
    carried q frames ≠ 0 :=
  (List.countP_pos_iff.mpr ⟨f, hf, by simpa [ht] using hq⟩).ne'

-- A worker answers a frame by at most one that is about the same.
theorem carried_onFrame {w : Worker} {type : FrameType} {payload : Bytes}
    (hi : Inward st (type, payload)) (h : w.onFrame type payload = some frames) :
    carried q frames ≤ carried q [(type, payload)] := by
  cases type <;> simp only [Worker.onFrame] at h
  case dispatch =>
    obtain ⟨dm, hd, rfl⟩ := hi rfl
    rw [show decodeDispatch _ = _ from hd.decode] at h
    dsimp only at h
    split at h
    · cases h
      exact Nat.zero_le _
    · cases h
      obtain ⟨_, hn⟩ := hd.resultMsg w
      have he : carried q [(.result, encodeResult _)] = _ := carried_singleton (ticket_result hn)
      rw [he, carried_singleton (ticket_dispatch hd)]
      rfl
  case shutdown => contradiction
  case ping =>
    cases h
    exact (carried_eq_zero (by simp [ticket])).le.trans (Nat.zero_le _)
  all_goals
    cases h
    exact Nat.zero_le _

theorem carried_takeWhile (q : ExecutionPlanId × DispatchId → Bool)
    (frames : List (FrameType × Bytes)) :
    carried q (frames.takeWhile sendable) ≤ carried q frames :=
  (List.takeWhile_sublist _).countP_le

theorem carried_work (h : Fair st peer) (q : ExecutionPlanId × DispatchId → Bool) :
    carried q peer.work.inbox + carried q peer.work.outbox ≤
      carried q peer.inbox + carried q peer.outbox := by
  unfold Peer.work
  split
  case h_1 => exact le_rfl
  case h_2 type payload inbox hi =>
    split
    case isFalse => exact le_rfl
    case isTrue =>
      have hc := carried_cons q (type, payload) inbox
      rw [← hi] at hc
      split
      case h_1 =>
        show carried q inbox + carried q peer.outbox ≤ _
        omega
      case h_2 frames ho =>
        have hin : Inward st (type, payload) := h.inbox _ (by simp [hi])
        have hf := (carried_takeWhile q frames).trans (carried_onFrame hin ho)
        show carried q inbox + carried q (peer.outbox ++ frames.takeWhile sendable) ≤ _
        rw [carried_append]
        omega

theorem carried_new (w : Worker) (q : ExecutionPlanId × DispatchId → Bool) :
    carried q (Peer.new w).inbox + carried q (Peer.new w).outbox = 0 := by
  have h : carried q (Peer.new w).outbox ≤ carried q w.startup := carried_takeWhile q w.startup
  have hs : carried q w.startup = 0 := carried_eq_zero (by simp [Worker.startup, ticket])
  have hi : carried q (Peer.new w).inbox = 0 := rfl
  omega

end Frames

section InFlight

variable {s : Cluster} {input : Input} {arrived : NMC.Input} {peers : Table ConnectionId Peer}
         {q : ExecutionPlanId × DispatchId → Bool} {c : ConnectionId} {peer : Peer}

theorem inFlight_insert_le {peer' : Peer} (hc : s.peers[c]? = some peer)
    (h : carried q peer'.inbox + carried q peer'.outbox ≤
      carried q peer.inbox + carried q peer.outbox) :
    inFlight { s with peers := s.peers.insert c peer' } q ≤ s.inFlight q := by
  have ht := Table.total_insert_of_some (a := peer')
    (f := fun peer : Peer => carried q peer.inbox + carried q peer.outbox) hc
  simp only [inFlight]
  omega

theorem inFlight_push (s : Cluster) (c : ConnectionId) (f : FrameType × Bytes)
    (q : ExecutionPlanId × DispatchId → Bool) :
    (s.push c f).inFlight q ≤ s.inFlight q + carried q [f] := by
  unfold push
  split
  case h_1 => exact Nat.le_add_right ..
  case h_2 peer hc =>
    have ht := Table.total_insert_of_some (a := { peer with inbox := peer.inbox ++ [f] })
      (f := fun peer : Peer => carried q peer.inbox + carried q peer.outbox) hc
    simp only [carried_append] at ht
    simp only [inFlight]
    omega

-- A dispatch that is sent is the only frame from the coordinator that is about a plan.
theorem inFlight_route (s : Cluster) (out : Output) (q : ExecutionPlanId × DispatchId → Bool) :
    (s.route out).inFlight q ≤ s.inFlight q ∨ ∃ c dm, out = .dispatch c dm ∧
      (s.route out).inFlight q ≤ s.inFlight q + carried q [(.dispatch, encodeDispatch dm)] := by
  have other {c : ConnectionId} {f : FrameType × Bytes} (h : ticket f = none) :
      (s.push c f).inFlight q ≤ s.inFlight q := by
    have hp := inFlight_push s c f q
    rwa [carried_eq_zero (by simpa using h)] at hp
  cases out
  case silent        => exact .inl le_rfl
  case pong          => exact .inl (other rfl)
  case reply         => exact .inl (other rfl)
  case dispatch c dm => exact .inr ⟨c, dm, rfl, inFlight_push ..⟩

-- A result that arrives is not on its way any more.
theorem inFlight_result {drawn : Drawn} {payload rest : Bytes} {m : ResultMsg}
    (h : Arrival s input (.receive c .result payload drawn) peers)
    (hm : decodeResult payload = some (m, rest)) (q : ExecutionPlanId × DispatchId → Bool)
    (hq : q (m.plan, m.dispatch)) : inFlight { s with peers } q + 1 ≤ s.inFlight q := by
  cases h
  case request => contradiction
  case deliver peer outbox hc _ hp =>
    have ht : ticket (.result, payload) = some (m.plan, m.dispatch) := by simp [ticket, hm]
    have hi := Table.total_insert_of_some (a := { peer with outbox })
      (f := fun peer : Peer => carried q peer.inbox + carried q peer.outbox) hc
    simp only [hp, carried_cons q (.result, payload) outbox, carried_singleton ht, if_pos hq] at hi
    simp only [inFlight]
    omega

theorem inFlight_arrival (h : Arrival s input arrived peers)
    (q : ExecutionPlanId × DispatchId → Bool) : inFlight { s with peers } q ≤ s.inFlight q := by
  cases h
  case join c w _ =>
    have ht := Table.total_insert_le
      (fun peer : Peer => carried q peer.inbox + carried q peer.outbox) s.peers c (.new w)
    rwa [carried_new] at ht
  case deliver hc hp _ =>
    refine inFlight_insert_le hc ?_
    rw [hp, carried_cons]
    dsimp only
    omega
  all_goals exact le_rfl

-- Whatever is on its way for a plan is for one of its dispatches.
theorem exists_dispatch {p : ExecutionPlanId} (h : s.inFlight (·.fst = p) ≠ 0) :
    ∃ d, s.inFlight (· = (p, d)) ≠ 0 := by
  by_contra hn
  push Not at hn
  refine h (Table.total_eq_zero fun c peer hc => ?_)
  have zero {frames : List (FrameType × Bytes)}
      (hf : ∀ d, carried (· = (p, d)) frames = 0) : carried (·.fst = p) frames = 0 := by
    by_contra hz
    obtain ⟨f, hm, ⟨p', d⟩, ht, hp⟩ := exists_ticket hz
    cases of_decide_eq_true hp
    exact carried_ne_zero hm ht (by simp) (hf d)
  have hz (d : DispatchId) := Table.le_total
    (f := fun peer : Peer => carried (· = (p, d)) peer.inbox + carried (· = (p, d)) peer.outbox) hc
  have hle (d : DispatchId) : carried (· = (p, d)) peer.inbox +
      carried (· = (p, d)) peer.outbox ≤ 0 :=
    (hn d) ▸ hz d
  have hi : carried (·.fst = p) peer.inbox = 0 := zero fun d => by have := hle d; omega
  have ho : carried (·.fst = p) peer.outbox = 0 := zero fun d => by have := hle d; omega
  rw [hi, ho]

end InFlight

section Arrivals

variable {s : Cluster} {input : Input} {arrived : NMC.Input} {peers : Table ConnectionId Peer}

theorem planUnused_of_arrival (h : Arrival s input arrived peers) (hf : s.fresh input) :
    s.node.planUnused arrived := by
  cases h
  case deliver type _ _ _ _ _ _ =>
    cases type
    case clientPlan => exact decide_eq_true (Sound.fresh_plan hf)
    all_goals rfl
  case request type _ _ _ _ =>
    cases type
    case clientPlan => exact decide_eq_true (Sound.fresh_plan hf)
    all_goals rfl
  all_goals rfl

theorem unused_of_arrival {c : ConnectionId} {payload : Bytes} {drawn : Drawn}
    (h : Arrival s input (.receive c .clientDispatch payload drawn) peers) (hf : s.fresh input) :
    s.node.Unused drawn.dispatch := by
  cases h
  case deliver => exact Node.genuine.unused (Bool.and_eq_true_iff.mp hf).2
  case request => exact Node.genuine.unused (Bool.and_eq_true_iff.mp hf).2

end Arrivals

-- Nothing is on its way for the plan any more, nor will be.
structure Spent (s : Cluster) (p : ExecutionPlanId) : Prop where
  inFlight : s.inFlight (·.fst = p) = 0
  cleared  : ∀ c req, s.node.Has Handler.cleared c req → req.plan ≠ p

-- A plan that has been dispatched is on its way to a worker or back, or it has yet to be sent, or
-- neither, but never twice.
structure Custody (s : Cluster) : Prop where
  outgoing  : ∃ sent, s.node.Outgoing sent
  begun     : ∀ {p d}, s.inFlight (· = (p, d)) ≠ 0 → s.node.coord.Begun p (some d)
  single    : ∀ p, s.inFlight (·.fst = p) ≤ 1
  cleared   : ∀ {c req}, s.node.Has Handler.cleared c req → s.inFlight (·.fst = req.plan) = 0
  committed : ∀ {p}, s.node.coord.committed p → s.Spent p

namespace Custody

variable {s : Cluster}

-- Frames may get lost.
theorem anti {peers : Table ConnectionId Peer} (h : s.Custody)
    (hp : ∀ q, inFlight { s with peers } q ≤ s.inFlight q) : Custody { s with peers } where
  outgoing    := h.outgoing
  begun hd    := h.begun (Nat.ne_of_gt ((Nat.pos_of_ne_zero hd).trans_le (hp _)))
  single p    := (hp _).trans (h.single p)
  cleared hc  := Nat.le_zero.mp ((hp _).trans_eq (h.cleared hc))
  committed hc :=
    ⟨Nat.le_zero.mp ((hp _).trans_eq (h.committed hc).inFlight), (h.committed hc).cleared⟩

-- The result of a plan is the last frame about it.
theorem spent_of_result {input : Input} {peers : Table ConnectionId Peer} {c : ConnectionId}
    {payload rest : Bytes} {drawn : Drawn} {m : ResultMsg} (h : s.Custody)
    (ha : Arrival s input (.receive c .result payload drawn) peers)
    (hm : decodeResult payload = some (m, rest)) :
    s.node.coord.Begun m.plan (some m.dispatch) ∧ ¬s.node.coord.committed m.plan ∧
    Spent { s with peers } m.plan := by
  have hd := inFlight_result ha hm (· = (m.plan, m.dispatch)) (by simp)
  have hp := inFlight_result ha hm (·.fst = m.plan) (by simp)
  have h1 := h.single m.plan
  refine ⟨h.begun (by omega), fun hc => ?_, by omega, fun c req hc he => ?_⟩
  · have := (h.committed hc).inFlight
    omega
  · have := h.cleared hc
    rw [he] at this
    omega

variable [Platform]

theorem start (l : Launch) (file : Option Bytes) : Custody { node := l.start file } where
  outgoing      := ⟨_, .start l file⟩
  begun h       := absurd rfl h
  single _      := Nat.zero_le _
  cleared _     := rfl
  committed _   := by
    refine ⟨rfl, ?_⟩
    rintro c req ⟨conn, hc, _⟩
    simp [Launch.start] at hc

end Custody

section Run

variable [Platform] {s : Cluster} {arrived : NMC.Input} {p : ExecutionPlanId}

theorem run_node (s : Cluster) (arrived : NMC.Input) :
    (s.run arrived).snd.node = (s.node.step arrived).snd := by
  simp only [run, route_node]

theorem inFlight_run (hs : s.node.Sound) (arrived : NMC.Input)
    (q : ExecutionPlanId × DispatchId → Bool) :
    (s.run arrived).snd.inFlight q ≤ s.inFlight q ∨ ∃ c dm,
      (s.node.step arrived).fst = .dispatch c dm ∧ q (dm.plan, dm.dispatch) ∧
      (s.run arrived).snd.inFlight q ≤ s.inFlight q + 1 := by
  rcases inFlight_route { s with node := (s.node.step arrived).snd } (s.node.step arrived).fst q
    with h | ⟨c, dm, ho, h⟩
  · exact .inl h
  · obtain ⟨_, hm⟩ := Node.message_of_dispatch ho
    rw [carried_singleton (ticket_dispatch (hs.messages hm))] at h
    split at h
    case isTrue hq => exact .inr ⟨c, dm, ho, hq, h⟩
    case isFalse   => exact .inl h

-- What is sent has been about to be sent.
theorem Custody.cleared_of_dispatch (h : s.Custody) {c : ConnectionId} {dm : DispatchMsg}
    (ho : (s.node.step arrived).fst = .dispatch c dm) :
    ∃ c req, s.node.Has Handler.cleared c req ∧ req.plan = dm.plan := by
  obtain ⟨sent, hs⟩ := h.outgoing
  obtain ⟨c, conn, req, hc, hh, _⟩ := Node.send_of_dispatch ho
  have hd : s.node.Has Handler.draft c (req, dm) := ⟨conn, hc, by simp [hh, Handler.draft]⟩
  exact ⟨c, req, ⟨conn, hc, by simp [hh, Handler.cleared]⟩, (hs.drafts hd).1.symm⟩

theorem Spent.run (hp : s.Spent p) (h : s.Custody) (hs : s.node.Sound)
    {d : Option DispatchId} (hb : s.node.coord.Begun p d) : (s.run arrived).snd.Spent p where
  inFlight := by
    rcases inFlight_run hs arrived (·.fst = p) with hl | ⟨c, dm, ho, he, _⟩
    · exact Nat.le_zero.mp (hl.trans_eq hp.inFlight)
    · obtain ⟨c, req, hc, hr⟩ := h.cleared_of_dispatch ho
      exact absurd (hr.trans (of_decide_eq_true he)) (hp.cleared c req hc)
  cleared := by
    intro c req hc
    rw [run_node] at hc
    obtain ⟨op, hst⟩ := Node.step_cases arrived s.node
    rcases hst.cleared_origin hc with hc | ⟨_, _, hn⟩
    · exact hp.cleared c req hc
    · rintro rfl
      exact hn d hb

-- The process of the coordinator takes a step. What it commits is spent.
theorem Custody.run (h : s.Custody) (hs : s.node.Sound) (hu : s.node.planUnused arrived)
    (hn : ∀ {p}, (s.node.step arrived).snd.coord.committed p →
      (∃ d, s.node.coord.Begun p d) ∧ s.Spent p) : (s.run arrived).snd.Custody := by
  obtain ⟨sent, hse⟩ := h.outgoing
  obtain ⟨op, hst⟩ := Node.step_cases arrived s.node
  have hse' := hse.step hst hu
  constructor
  case outgoing => exact ⟨sent, by rwa [run_node]⟩
  case begun =>
    intro p d hd
    rw [run_node]
    rcases inFlight_run hs arrived (· = (p, d)) with hl | ⟨c, dm, ho, he, _⟩
    · exact hst.begun hu (h.begun (Nat.ne_of_gt ((Nat.pos_of_ne_zero hd).trans_le hl)))
    · cases of_decide_eq_true he
      exact hst.begun hu (hse.send ho hse').1
  case single =>
    intro p
    rcases inFlight_run hs arrived (·.fst = p) with hl | ⟨c, dm, ho, he, hl⟩
    · exact hl.trans (h.single p)
    · obtain ⟨c, req, hc, hr⟩ := h.cleared_of_dispatch ho
      cases hr.trans (of_decide_eq_true he)
      exact hl.trans_eq (by rw [h.cleared hc])
  case cleared =>
    intro c req hc
    rw [run_node] at hc
    have hz : s.inFlight (·.fst = req.plan) = 0 := by
      rcases hst.cleared_origin hc with hc | ⟨_, _, hnb⟩
      · exact h.cleared hc
      · by_contra hz
        obtain ⟨d, hd⟩ := exists_dispatch hz
        exact hnb _ (h.begun hd)
    rcases inFlight_run hs arrived (·.fst = req.plan) with hl | ⟨c', dm, ho, he, _⟩
    · exact Nat.le_zero.mp (hl.trans_eq hz)
    · -- The plan that has just been sent is not about to be sent again.
      have hm := ((hse.send ho hse').2.cleared hc).2
      rw [← of_decide_eq_true he] at hm
      exact absurd List.mem_cons_self hm
  case committed =>
    intro p hc
    rw [run_node] at hc
    obtain ⟨⟨d, hb⟩, hp⟩ := hn hc
    exact hp.run h hs hb

end Run

namespace Custody

variable [Platform] {s : Cluster} {input : Input} {arrived : NMC.Input}
         {peers : Table ConnectionId Peer}

omit [Platform] in
theorem arrive (h : s.Custody) (ha : Arrival s input arrived peers) : Custody { s with peers } :=
  h.anti (inFlight_arrival ha)

-- A plan that is committed now has been so before, or its result has just arrived.
theorem spent_of_committed (h : s.Custody) (ha : Arrival s input arrived peers)
    {p : ExecutionPlanId} (hc : (s.node.step arrived).snd.coord.committed p) :
    (∃ d, s.node.coord.Begun p d) ∧ Spent { s with peers } p := by
  obtain ⟨op, hst⟩ := Node.step_cases arrived s.node
  rcases hst.committed_origin hc with hc | ⟨c, payload, drawn, m, rest, _, rfl, hm, rfl, _⟩
  · exact ⟨RuntimeState.begun_of_committed hc, (h.arrive ha).committed hc⟩
  · have ⟨hb, _, hp⟩ := h.spent_of_result ha hm
    exact ⟨⟨_, hb⟩, hp⟩

theorem step (h : s.Custody) (hs : s.Sound) (input : Input) (hf : s.fresh input) :
    (step input s).snd.Custody := by
  have hst := step_cases input s
  generalize Cluster.step input s = next at hst
  cases hst
  case stay => exact h
  case work c peer hc =>
    exact h.anti fun q => inFlight_insert_le hc (carried_work (hs.peers hc) q)
  case run arrived peers ha =>
    have hu := planUnused_of_arrival ha hf
    exact (h.arrive ha).run hs.node hu (h.spent_of_committed ha)

end Custody
end Cluster
end NMC
