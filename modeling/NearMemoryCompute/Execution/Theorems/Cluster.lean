import NearMemoryCompute.Execution.Theorems.Computation
import NearMemoryCompute.Execution.Theorems.Sending

namespace NMC

open Coordinator Reader Writer

namespace Handler

-- The dispatch that a handler is about to send.
def message : Handler → Option DispatchMsg
  | lookup _ dm | confirm _ dm _ | insert _ dm _ | send _ dm _ => some dm
  | _                                                          => none

theorem message_moved : Moved message := {}

end Handler

-- What a client is told to be committed is right.
def ClientReplyMsg.Right (reply : ClientReplyMsg) (st : RuntimeState) : Prop :=
  reply.committed → st.Confirms reply.plan reply.outputBytes reply.outputDigest

theorem ClientReplyMsg.Right.of_not_committed {reply : ClientReplyMsg} {st : RuntimeState}
    (h : reply.committed = false) : reply.Right st := by
  simp [Right, h]

-- Neither who sends the frame nor the identity source misleads the coordinator.
def Input.Sincere (node : Node) : Input → Prop
  | .receive _ .result payload _ =>
    ∀ m rest, decodeResult payload = some (m, rest) → m.Honest node.coord
  | .receive _ .registerTarget payload _ =>
    ∀ m rest, decodeRegisterTarget payload = some (m, rest) →
      m.ops ⊆ advertised.map Raw.member
  | .receive _ .clientPlan _ drawn => drawn.plan ∉ node.coord.plans
  | _ => True

namespace Node

-- What is recorded, promised, held or on its way is right.
structure Sound (node : Node) : Prop where
  resolvable : Resolvable node.coord
  trusted    : node.coord.Trusted
  messages   : ∀ {c dm}, node.Has Handler.message c dm → dm.Genuine node.coord
  held       : ∀ {c d reply}, node.Has Handler.held c (d, reply) → reply.Right node.coord
  promises   : node.promises.All fun _ reply => reply.Right node.coord

variable [Platform] {node node' : Node} {input : Input} {op : Option Op} {c : ConnectionId}

theorem Step.sincere {op : Op} (h : Step node input (some op) node') (hi : input.Sincere node) :
    op.Sincere node.coord := by
  cases h
  case hello ho => exact ho ▸ trivial
  case handle hh =>
    cases hh
    case registerTarget m rest hm => exact hi m rest hm
    case clientPlan               => exact hi
    all_goals trivial
  case move hm =>
    cases hm
    case commit hm _ => exact hi _ _ hm
    case result hm _ => exact hi _ _ hm
    all_goals trivial

-- What every call of the coordinator preserves is preserved by a step.
theorem Step.stable (h : Step node input op node') (hi : input.Sincere node)
    {P : RuntimeState → Prop}
    (hP : ∀ op : Op, op.served → op.Sincere node.coord → P node.coord →
      P (Coordinator.step op node.coord).snd)
    (hp : P node.coord) : P node'.coord := by
  rw [h.coord]
  cases op
  case none    => exact hp
  case some op => exact hP op h.served (h.sincere hi) hp

theorem Step.right (h : Step node input op node') (hi : input.Sincere node)
    {reply : ClientReplyMsg} (hr : reply.Right node.coord) : reply.Right node'.coord := by
  intro hc
  exact h.stable hi (P := fun st => st.Confirms reply.plan reply.outputBytes reply.outputDigest)
    (fun _ ho hi hr => hr.step ho hi) (hr hc)

omit [Platform] in
theorem Move.message_origin {conn : Connection} {handler : Handler} {dm : DispatchMsg}
    (h : Move node c conn input op handler) (hr : handler.message = some dm) :
    conn.handler.message = some dm ∨ ∃ (req : Request) (out : DispatchOutput),
      op = some (.prepareDispatch req.plan req.dispatch req.attempt) ∧
      (prepareDispatch req.plan req.dispatch req.attempt node.coord).fst = .ok out ∧
      dm = out.message := by
  cases h
  case prepare req out _ _ hh ho =>
    cases hr
    exact .inr ⟨req, out, rfl, ho, rfl⟩
  case lookup hh _  => exact .inl (hh ▸ hr)
  case confirm hh _ => exact .inl (hh ▸ hr)
  all_goals contradiction

omit [Platform] in
-- What is prepared is for the operation of the plan.
theorem Sound.prepared (hs : node.Sound) {p : ExecutionPlanId} {d : DispatchId} {a : AttemptId}
    {out : DispatchOutput} (h : (prepareDispatch p d a node.coord).fst = .ok out) :
    out.message.Genuine node.coord := by
  obtain ⟨prep, hm⟩ := prepareDispatch_ok h
  obtain ⟨spec, c, ha⟩ := hs.trusted.plans prep.plan_eq (prep.reserved ▸ rfl)
  obtain ⟨plan, hp, ho⟩ := ha.operation
  cases prep.plan_eq.symm.trans hp
  cases prep.operation_eq.symm.trans ho
  have hid : prep.plan.id = p := hs.resolvable.plans prep.plan_eq
  rw [hm]
  refine ⟨⟨prep.op, c, ?_, ha.opClass, rfl⟩, ?_⟩
  · show node.coord.Asks prep.plan.id prep.op c
    rwa [hid]
  · intro hn
    exact if_neg hn

namespace Sound

variable (hs : node.Sound) (h : Step node input op node') (hi : input.Sincere node)

include hs h hi

theorem messages_step {dm : DispatchMsg} (hm : node'.Has Handler.message c dm) :
    dm.Genuine node'.coord := by
  refine h.stable hi (fun op ho hi hd => hd.step ho hi) ?_
  rcases h.origin Handler.message_moved hm with hm | ⟨conn, _, hc, hm, hn⟩
  · exact hs.messages hm
  · rcases hm.message_origin hn with hr | ⟨req, out, _, ho, rfl⟩
    · exact hs.messages ⟨conn, hc, hr⟩
    · exact hs.prepared ho

theorem held_step {d : DispatchId} {reply : ClientReplyMsg}
    (hh : node'.Has Handler.held c (d, reply)) : reply.Right node'.coord := by
  refine h.right hi ?_
  rcases h.held_origin hh with hh | ⟨payload, drawn, m, rest, rfl, hm, _, _, rfl⟩
  · exact hs.held hh
  · intro hc
    cases hr : (applyResult drawn.result m node.coord).fst
    case error =>
      rw [hr] at hc
      contradiction
    case ok res =>
      rw [hr] at hc
      obtain ⟨hp, hf⟩ := (hi m rest hm).confirms hr hc
      exact hp ▸ hf

theorem promises_step : node'.promises.All fun _ reply => reply.Right node'.coord := by
  intro c reply hv
  refine h.right hi ?_
  rcases h.promise_origin hv with hv | ⟨d, p, _, _, ⟨_, hn⟩ | ⟨c', hh⟩⟩
  · exact hs.promises hv
  · exact .of_not_committed (by simpa using hn)
  · exact hs.held hh

theorem step : node'.Sound where
  resolvable := h.stable hi (fun op _ _ hr => hr.step op) hs.resolvable
  trusted    := h.stable hi (fun _ ho hi ht => ht.step ho hi hs.resolvable) hs.trusted
  messages   := hs.messages_step h hi
  held       := hs.held_step h hi
  promises   := hs.promises_step h hi

end Sound

section Output

variable {reply : ClientReplyMsg}

omit [Platform] in
-- Asking for a result gives one that is recorded, if it is committed.
theorem Sound.resultOf (hs : node.Sound) (p : ExecutionPlanId) :
    (resultReply (resultOf node.coord p).plan (.ok (resultOf node.coord p))).Right node.coord := by
  intro hc
  have hc : (Coordinator.resultOf node.coord p).committed := hc
  unfold Coordinator.resultOf at hc ⊢
  cases hf : node.coord.results.toList.find? (·.snd.plan = p)
  case none =>
    rw [hf] at hc
    contradiction
  case some e =>
    rw [hf] at hc
    have hm := Std.ExtTreeMap.mem_toList_iff_getElem?_eq_some.mp (List.mem_of_find?_eq_some hf)
    exact hs.trusted.results hm hc

theorem receive_reply_not_committed {conn : Connection} {type : FrameType} {payload : Bytes}
    {drawn : Drawn} {c' : ConnectionId}
    (h : (node.receive c conn type payload drawn).fst = .reply c' reply) :
    reply.committed = false := by
  cases type <;> simp only [Node.receive] at h
  case clientPlan =>
    split at h
    case h_1 =>
      cases h
      rfl
    case h_2 =>
      cases h
      unfold planReply
      split <;> rfl
  all_goals repeat' split at h
  all_goals first | contradiction | (cases h; rfl)

omit [Platform] in
theorem Sound.proceed_reply (hs : node.Sound) {conn : Connection} {sent : Bool} {disk : Disk}
    {c' : ConnectionId} (h : (node.proceed c conn sent disk).fst = .reply c' reply) :
    reply.Right node.coord := by
  cases hh : conn.handler <;> simp only [Node.proceed, hh, Node.answer] at h
  case fetch p =>
    cases h
    exact hs.resultOf p
  case wait =>
    split at h
    case h_1 => contradiction
    case h_2 hv =>
      cases h
      exact hs.promises hv
  all_goals repeat' split at h
  all_goals first | contradiction | (cases h; exact .of_not_committed rfl)

-- Whatever a client is told, it is right if it is told to be committed.
theorem Sound.right_of_reply (hs : node.Sound) {c' : ConnectionId}
    (h : (Node.step input node).fst = .reply c' reply) : reply.Right node.coord := by
  cases input <;> simp only [Node.step] at h
  case accept => contradiction
  case receive =>
    split at h
    case h_1 => contradiction
    case h_2 => exact .of_not_committed (receive_reply_not_committed h)
  case hangUp => split at h <;> contradiction
  case proceed =>
    split at h
    case h_1 => contradiction
    case h_2 => exact hs.proceed_reply h

theorem message_of_dispatch {sock : ConnectionId} {dm : DispatchMsg}
    (h : (step input node).fst = .dispatch sock dm) : ∃ c, node.Has Handler.message c dm := by
  obtain ⟨c, conn, req, hc, hh, _⟩ := send_of_dispatch h
  exact ⟨c, conn, hc, by simp [hh, Handler.message]⟩

end Output

end Node

namespace Cluster

-- A frame to a worker that is a dispatch is for the operation of a plan.
def Inward (st : RuntimeState) (frame : FrameType × Bytes) : Prop :=
  frame.fst = .dispatch → ∃ dm : DispatchMsg, dm.Genuine st ∧ frame.snd = encodeDispatch dm

-- A frame from a worker is honest, and the coordinator can read it.
structure Outward (st : RuntimeState) (frame : FrameType × Bytes) : Prop where
  result         : frame.fst = .result → ∃ m : ResultMsg, m.Honest st ∧ m.Normal ∧
    frame.snd = encodeResult m
  registerTarget : frame.fst = .registerTarget → ∃ w : Worker, sendable frame ∧
    frame.snd = encodeRegisterTarget w.registration

structure Fair (st : RuntimeState) (peer : Peer) : Prop where
  inbox  : ∀ f ∈ peer.inbox, Inward st f
  outbox : ∀ f ∈ peer.outbox, Outward st f

structure Sound (s : Cluster) : Prop where
  node  : s.node.Sound
  peers : s.peers.All fun _ peer => Fair s.node.coord peer

-- Identities are drawn that are not in use.
def fresh (s : Cluster) : Input → Bool
  | .deliver c drawn | .request c _ _ drawn =>
    s.node.genuine (.receive c .clientPlan [] drawn) &&
    s.node.genuine (.receive c .clientDispatch [] drawn)
  | _ => true

section Frames

variable {st : RuntimeState} {peer : Peer}

theorem outward_startup (w : Worker) {f : FrameType × Bytes} (hf : f ∈ w.startup)
    (hs : sendable f) : Outward st f := by
  simp only [Worker.startup, List.mem_cons, List.not_mem_nil, or_false] at hf
  rcases hf with rfl | rfl | rfl | rfl | rfl
  case inr.inl => exact ⟨by simp, fun _ => ⟨w, hs, rfl⟩⟩
  all_goals exact ⟨by simp, by simp⟩

-- A worker answers honest frames by honest ones.
theorem outward_onFrame {w : Worker} {type : FrameType} {payload : Bytes}
    {frames : List (FrameType × Bytes)} (hi : Inward st (type, payload))
    (h : w.onFrame type payload = some frames) : ∀ f ∈ frames, Outward st f := by
  cases type <;> simp only [Worker.onFrame] at h
  case dispatch =>
    obtain ⟨dm, hd, rfl⟩ := hi rfl
    rw [show decodeDispatch _ = _ from hd.decode] at h
    dsimp only at h
    split at h
    · cases h
      simp
    · cases h
      obtain ⟨hh, hn⟩ := hd.resultMsg w
      simpa using ⟨fun _ => ⟨_, hh, hn, rfl⟩, by simp⟩
  case shutdown => contradiction
  all_goals
    cases h
    simp
  exact ⟨by simp, by simp⟩

theorem outward_post {frames : List (FrameType × Bytes)} (hp : ∀ f ∈ peer.outbox, Outward st f)
    (hf : ∀ f ∈ frames, sendable f → Outward st f) :
    ∀ f ∈ (peer.post frames).outbox, Outward st f := by
  refine List.forall_mem_append.mpr ⟨hp, fun f hm => hf f ?_ ?_⟩
  · exact (List.takeWhile_sublist _).subset hm
  · exact List.mem_takeWhile_imp hm

theorem fair_new (w : Worker) : Fair st (.new w) where
  inbox  := by simp [Peer.new, Peer.post]
  outbox := outward_post (by simp) fun _ hf hs => outward_startup w hf hs

theorem Fair.work (h : Fair st peer) : Fair st peer.work := by
  unfold Peer.work
  split
  case h_1 => exact h
  case h_2 type payload inbox hi =>
    have hin := List.forall_mem_cons.mp (hi ▸ h.inbox)
    split
    case isFalse => exact h
    case isTrue =>
      split
      case h_1    => exact ⟨hin.2, h.outbox⟩
      case h_2 ho =>
        exact ⟨hin.2, outward_post h.outbox fun f hf _ => outward_onFrame hin.1 ho f hf⟩

theorem Fair.push {frame : FrameType × Bytes} (h : Fair st peer) (hf : Inward st frame) :
    Fair st { peer with inbox := peer.inbox ++ [frame] } where
  inbox  := List.forall_mem_append.mpr ⟨h.inbox, by simpa using hf⟩
  outbox := h.outbox

end Frames

-- How a frame or something else gets to the coordinator, and what becomes of the frames that are on
-- their way to it.
inductive Arrival (s : Cluster) : Input → NMC.Input → Table ConnectionId Peer → Prop
  | join {c w} :
    c ∉ s.node.connections → Arrival s (.join c w) (.accept c) (s.peers.insert c (.new w))
  | visit {c} : Arrival s (.visit c) (.accept c) s.peers
  | deliver {c peer type payload outbox drawn} :
    s.peers[c]? = some peer → peer.outbox = (type, payload) :: outbox →
    (s.node.listening c).isSome →
    Arrival s (.deliver c drawn) (.receive c type payload drawn)
      (s.peers.insert c { peer with outbox })
  | request {c type payload drawn} :
    c ∉ s.peers → type.ofWorker = false →
    Arrival s (.request c type payload drawn) (.receive c type payload drawn) s.peers
  | hangUp {c} : Arrival s (.hangUp c) (.hangUp c) s.peers
  | proceed {c sent disk} : Arrival s (.proceed c sent disk) (.proceed c sent disk) s.peers

-- What a step of the processes can do.
inductive Step [Platform] (s : Cluster) : Input → Output × Cluster → Prop
  | stay {input} : Step s input (.silent, s)
  | work {c peer} :
    s.peers[c]? = some peer →
    Step s (.work c) (.silent, { s with peers := s.peers.insert c peer.work })
  | run {input arrived peers} :
    Arrival s input arrived peers → Step s input ({ s with peers }.run arrived)

theorem push_node (s : Cluster) (c : ConnectionId) (frame : FrameType × Bytes) :
    (s.push c frame).node = s.node := by
  unfold push
  split <;> rfl

theorem route_node (s : Cluster) (out : Output) : (s.route out).node = s.node := by
  cases out <;> simp only [route, push_node]

-- What holds of all workers still does after one of them has been sent a frame.
theorem push_peers {s : Cluster} {P : Peer → Prop} (h : s.peers.All fun _ => P) (c : ConnectionId)
    {frame : FrameType × Bytes}
    (hf : ∀ peer, P peer → P { peer with inbox := peer.inbox ++ [frame] }) :
    (s.push c frame).peers.All fun _ => P := by
  unfold push
  split
  case h_1         => exact h
  case h_2 peer hc => exact h.insert (hf peer (h hc))

variable [Platform] {s : Cluster}

theorem step_cases (input : Input) (s : Cluster) : Step s input (step input s) := by
  cases input <;> simp only [step]
  case join c w =>
    split
    case isTrue     => exact .stay
    case isFalse hn => exact .run (.join hn)
  case visit => exact .run .visit
  case deliver c drawn =>
    split
    case h_1 => exact .stay
    case h_2 peer hc =>
      split
      case h_1 => exact .stay
      case h_2 hp =>
        split
        case isTrue hl => exact .run (.deliver hc hp hl)
        case isFalse   => exact .stay
  case request c type payload drawn =>
    split
    case isTrue     => exact .stay
    case isFalse hn =>
      obtain ⟨hp, ht⟩ := not_or.mp hn
      exact .run (.request hp (by simpa using ht))
  case work c =>
    split
    case h_1    => exact .stay
    case h_2 hc => exact .work hc
  case hangUp  => exact .run .hangUp
  case proceed => exact .run .proceed

-- The process of the coordinator takes a step of its own, or none.
theorem step_node (input : Input) (s : Cluster) :
    (step input s).snd.node = s.node ∨ ∃ arrived peers, Arrival s input arrived peers ∧
      (step input s).fst = (s.node.step arrived).fst ∧
      (step input s).snd.node = (s.node.step arrived).snd := by
  have h := step_cases input s
  generalize step input s = next at h
  cases h
  case stay               => exact .inl rfl
  case work               => exact .inl rfl
  case run arrived peers ha => exact .inr ⟨arrived, peers, ha, rfl, by simp only [run, route_node]⟩

namespace Sound

variable {input : Input} {arrived : NMC.Input} {peers : Table ConnectionId Peer}

omit [Platform] in
theorem fresh_plan {c : ConnectionId} {drawn : Drawn}
    (hf : s.node.genuine (.receive c .clientPlan [] drawn) &&
      s.node.genuine (.receive c .clientDispatch [] drawn)) : drawn.plan ∉ s.node.coord.plans :=
  of_decide_eq_true (Bool.and_eq_true_iff.mp hf).1

omit [Platform] in
-- Workers do not mislead the coordinator, and clients can not.
theorem sincere (hs : s.Sound) (h : Arrival s input arrived peers) (hf : s.fresh input) :
    arrived.Sincere s.node := by
  cases h
  case deliver c peer type payload outbox drawn hc hp _ =>
    have ho := (hs.peers hc).outbox (type, payload) (by simp [hp])
    cases type
    case result =>
      obtain ⟨m, hm, hn, rfl⟩ := ho.result rfl
      intro m' rest hd
      have hr := (decodeResult_reads hn).run []
      simp only [List.append_nil] at hr
      cases hr.symm.trans hd
      exact hm
    case registerTarget =>
      obtain ⟨w, hw, rfl⟩ := ho.registerTarget rfl
      intro m rest hd
      cases (decodeRegisterTarget_startup hw).symm.trans hd
      simp [Worker.registration, advertised]
    case clientPlan => exact fresh_plan hf
    all_goals trivial
  case request type payload drawn _ _ =>
    cases type
    case clientPlan => exact fresh_plan hf
    all_goals trivial
  all_goals trivial

omit [Platform] in
-- The frames that the coordinator has not received yet have been fair before.
theorem fair_of_arrival (hs : s.Sound) (h : Arrival s input arrived peers) :
    peers.All fun _ peer => Fair s.node.coord peer := by
  cases h
  case join w _ => exact hs.peers.insert (fair_new w)
  case deliver c peer type payload outbox drawn hc hp _ =>
    have ho := (hs.peers hc).outbox
    rw [hp] at ho
    exact hs.peers.insert ⟨(hs.peers hc).inbox, (List.forall_mem_cons.mp ho).2⟩
  all_goals exact hs.peers

theorem fair_of_step {node node' : Node} {op : Option Op} (h : Node.Step node arrived op node')
    (hi : arrived.Sincere node) {peer : Peer} (hp : Fair node.coord peer) :
    Fair node'.coord peer where
  inbox f hf hd := by
    obtain ⟨dm, hg, he⟩ := hp.inbox f hf hd
    exact ⟨dm, h.stable hi (fun _ ho hi hg => hg.step ho hi) hg, he⟩
  outbox f hf := by
    refine ⟨fun hr => ?_, (hp.outbox f hf).registerTarget⟩
    obtain ⟨m, hm, hn, he⟩ := (hp.outbox f hf).result hr
    exact ⟨m, h.stable hi (fun _ ho hi hm => hm.step ho hi) hm, hn, he⟩

omit [Platform] in
theorem routed {node : Node} (hp : peers.All fun _ peer => Fair node.coord peer)
    {out : Output} (hd : ∀ c dm, out = .dispatch c dm → dm.Genuine node.coord) :
    (route { node, peers } out).peers.All fun _ peer => Fair node.coord peer := by
  cases out
  case silent     => exact hp
  case pong       => exact push_peers hp _ fun _ h => h.push (by simp [Inward])
  case reply      => exact push_peers hp _ fun _ h => h.push (by simp [Inward])
  case dispatch c dm =>
    exact push_peers hp _ fun _ h => h.push fun _ => ⟨dm, hd c dm rfl, rfl⟩

theorem step (hs : s.Sound) (input : Input) (hf : s.fresh input) : (step input s).snd.Sound := by
  have h := step_cases input s
  generalize Cluster.step input s = next at h
  cases h
  case stay           => exact hs
  case work c peer hc => exact ⟨hs.node, hs.peers.insert (hs.peers hc).work⟩
  case run arrived peers ha =>
    have hi := hs.sincere ha hf
    obtain ⟨op, hst⟩ := Node.step_cases arrived s.node
    constructor
    case node => simpa only [run, route_node] using hs.node.step hst hi
    case peers =>
      simp only [run, route_node]
      refine routed (fun c peer hc => fair_of_step hst hi (hs.fair_of_arrival ha hc)) ?_
      intro c dm ho
      obtain ⟨c', hm⟩ := Node.message_of_dispatch ho
      exact hst.stable hi (fun _ ho hi hg => hg.step ho hi) (hs.node.messages hm)

-- Whatever a client is told, it is right if it is told to be committed.
theorem right_of_reply (hs : s.Sound) {c : ConnectionId} {reply : ClientReplyMsg}
    (h : (Cluster.step input s).fst = .reply c reply) : reply.Right s.node.coord := by
  have hc := step_cases input s
  generalize Cluster.step input s = next at h hc
  cases hc
  case stay => contradiction
  case work => contradiction
  case run  => exact hs.node.right_of_reply h

theorem start (l : Launch) (file : Option Bytes) (ht : (l.coordinator file).Trusted) :
    Sound { node := l.start file } := by
  have none {α : Type} {f : Handler → Option α} {c : ConnectionId} {a : α} :
      ¬(l.start file).Has f c a := by
    rintro ⟨conn, hc, _⟩
    simp [Launch.start] at hc
  obtain ⟨ops, _, he⟩ := l.exists_run file
  refine ⟨⟨?_, ht, fun h => absurd h none, fun h => absurd h none, .empty⟩, .empty⟩
  show Resolvable (l.coordinator file)
  exact he ▸ resolvable_after _ ops

end Sound

end Cluster
end NMC
