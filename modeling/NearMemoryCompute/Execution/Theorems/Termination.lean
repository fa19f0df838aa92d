import NearMemoryCompute.Execution.Theorems.Cluster

namespace NMC

open Coordinator Reader Writer

@[simp]
-- How many steps are left for a handler, and for what it is going to cause, at most.
def Handler.weight : Handler → ℕ
  | receive | closed                                   => 0
  | publish | resolve .. | close                       => 1
  | replace .. | fetch _ | cancel .. | sweep           => 2
  | save .. | wait _ | disconnect                      => 3
  | withdraw _                                         => 4
  | fail _                                             => 5
  | send ..                                            => 9
  | insert ..                                          => 10
  | confirm ..                                         => 11
  | lookup ..                                          => 12
  | prepare _                                          => 13
  | reserve _                                          => 14

namespace FrameType

-- A frame that is on its way to a worker, which answers some of them.
def inward : FrameType → ℕ
  | dispatch | ping => 5
  | _               => 1

-- A frame that is on its way to the coordinator.
def outward : FrameType → ℕ
  | clientDispatch => 15
  | _              => 4

end FrameType

@[simp]
def Output.weight : Output → ℕ
  | silent            => 0
  | pong _ | reply .. => 1
  | dispatch ..       => 5

def Peer.weight (peer : Peer) : ℕ :=
  (peer.inbox.map (·.fst.inward)).sum + (peer.outbox.map (·.fst.outward)).sum

namespace Node

def weight (node : Node) : ℕ :=
  node.connections.total (·.handler.weight)

variable {node node' : Node} {c : ConnectionId} {conn conn' : Connection}

theorem weight_insert (hc : node.connections[c]? = some conn)
    (he : node'.connections = node.connections.insert c conn') :
    node'.weight + conn.handler.weight = node.weight + conn'.handler.weight := by
  simp only [weight, he]
  exact Table.total_insert_of_some hc

-- The thread of the connection has nothing to do, unless something happens elsewhere.
inductive Stuck (node : Node) (c : ConnectionId) (conn : Connection) (disk : Disk) : Prop
  | receive : conn.handler = .receive → Stuck node c conn disk
  | closed : conn.handler = .closed → Stuck node c conn disk
  | wait {req} : conn.handler = .wait req → node.promises[c]? = none → Stuck node c conn disk
  | replace {d reply copy} :
    conn.handler = .replace d reply copy → Coordinator.save disk copy = none →
    Stuck node c conn disk

theorem Stuck.proceed {disk : Disk} (h : node.Stuck c conn disk) (sent : Bool) :
    node.proceed c conn sent disk = (.silent, node) := by
  cases h
  case receive hh    => simp only [Node.proceed, hh]
  case closed hh     => simp only [Node.proceed, hh]
  case wait hh hv    => simp only [Node.proceed, hh, hv]
  case replace hh hs => simp only [Node.proceed, hh, hs]

-- A thread that has something to do gets nearer to its end.
theorem weight_proceed (hc : node.connections[c]? = some conn) (sent : Bool) (disk : Disk) :
    node.Stuck c conn disk ∨
    (node.proceed c conn sent disk).fst.weight + (node.proceed c conn sent disk).snd.weight <
      node.weight := by
  have drop {out : Output} {node' : Node} (h : Handler)
      (he : node'.connections = node.connections.insert c { conn with handler := h })
      (hw : out.weight + h.weight < conn.handler.weight) :
      out.weight + node'.weight < node.weight := by
    have := weight_insert hc he
    dsimp only at this
    omega
  cases hh : conn.handler <;> simp only [Node.proceed, hh, Node.answer] <;> rw [hh] at drop
  case receive => exact .inl (.receive hh)
  case closed  => exact .inl (.closed hh)
  case wait    =>
    split
    case h_1 hv => exact .inl (.wait hh hv)
    case h_2    => exact .inr (drop .receive rfl (by simp))
  case replace =>
    split
    case h_1 hs => exact .inl (.replace hh hs)
    case h_2    => exact .inr (drop (.resolve _ _) rfl (by simp))
  all_goals refine .inr ?_
  case publish => exact drop .receive rfl (by simp)
  case save    => exact drop (.replace _ _ _) rfl (by simp)
  case resolve => exact drop .receive (resolveDispatch_connections ..) (by simp)
  case fetch   => exact drop .receive rfl (by simp)
  case reserve =>
    split
    case isTrue  => exact drop (.prepare _) rfl (by simp)
    case isFalse => exact drop .receive rfl (by simp)
  case prepare =>
    split
    case h_1 => exact drop (.lookup _ _) rfl (by simp)
    case h_2 => exact drop .receive rfl (by simp)
  case lookup =>
    split
    case h_1 => exact drop (.cancel _ _) rfl (by simp)
    case h_2 => exact drop (.confirm _ _ _) rfl (by simp)
  case confirm =>
    split
    case isTrue  => exact drop (.insert _ _ _) rfl (by simp)
    case isFalse => exact drop (.cancel _ _) rfl (by simp)
  case insert => exact drop (.send _ _ _) rfl (by simp)
  case send   =>
    split
    case isTrue  => exact drop (.wait _) rfl (by simp)
    case isFalse => exact drop (.fail _) rfl (by simp)
  case cancel     => exact drop .receive rfl (by simp)
  case fail       => exact drop (.withdraw _) (resolveDispatch_connections ..) (by simp)
  case withdraw   => exact drop (.wait _) rfl (by simp)
  case disconnect => exact drop .sweep rfl (by simp)
  case sweep      => exact drop .close rfl (by simp)
  case close      => exact drop .closed rfl (by simp)

variable [Platform]

-- What a frame causes is less than the frame.
theorem weight_receive (hc : node.connections[c]? = some conn) (hr : conn.handler = .receive)
    (type : FrameType) (payload : Bytes) (drawn : Drawn) :
    (node.receive c conn type payload drawn).fst.weight +
        (node.receive c conn type payload drawn).snd.weight <
      node.weight + type.outward := by
  have goto {out : Output} {node' : Node} (conn' : Connection)
      (he : node'.connections = node.connections.insert c conn')
      (hw : out.weight + conn'.handler.weight < type.outward) :
      out.weight + node'.weight < node.weight + type.outward := by
    have hi := weight_insert hc he
    have hz : conn.handler.weight = 0 := by simp [hr]
    omega
  have stay {out : Output} {node' : Node} (he : node'.connections = node.connections)
      (hw : out.weight < type.outward) :
      out.weight + node'.weight < node.weight + type.outward := by
    have hw' : node'.weight = node.weight := by simp only [weight, he]
    omega
  cases type <;> simp only [Node.receive]
  case hello =>
    split
    case h_1 => exact stay rfl (by simp [FrameType.outward])
    case h_2 => exact goto _ rfl (by simp [FrameType.outward])
  case result =>
    split
    case h_1 => exact stay rfl (by simp [FrameType.outward])
    case h_2 =>
      refine goto _ rfl ?_
      dsimp only
      split <;> simp [FrameType.outward]
  case clientDispatch =>
    split
    case h_1 => exact stay rfl (by simp [FrameType.outward])
    case h_2 => exact goto _ rfl (by simp [FrameType.outward])
  case clientGetResult =>
    split
    case h_1 => exact stay rfl (by simp [FrameType.outward])
    case h_2 =>
      split
      case isTrue  => exact goto _ rfl (by simp [FrameType.outward])
      case isFalse => exact stay rfl (by simp [FrameType.outward])
  all_goals
    try split
    all_goals exact stay rfl (by simp [FrameType.outward])

end Node

namespace Peer

variable {peer : Peer}

theorem weight_post (peer : Peer) (frames : List (FrameType × Bytes)) :
    (peer.post frames).weight ≤ peer.weight + (frames.map (·.fst.outward)).sum := by
  have h : ((frames.takeWhile sendable).map (·.fst.outward)).sum ≤
      (frames.map (·.fst.outward)).sum :=
    ((List.takeWhile_sublist _).map _).sum_le_sum (by simp)
  simp only [weight, post, List.map_append, List.sum_append]
  omega

-- What a worker answers is less than what it has been sent.
theorem weight_onFrame {w : Worker} {type : FrameType} {payload : Bytes}
    {frames : List (FrameType × Bytes)} (h : w.onFrame type payload = some frames) :
    (frames.map (·.fst.outward)).sum < type.inward := by
  cases type <;> simp only [Worker.onFrame] at h
  case dispatch =>
    repeat' split at h
    all_goals
      cases h
      simp [FrameType.inward, FrameType.outward]
  case shutdown => contradiction
  all_goals
    cases h
    simp [FrameType.inward, FrameType.outward]

theorem weight_work (peer : Peer) :
    (peer.inbox = [] ∨ peer.running = false) ∧ peer.work = peer ∨
      peer.work.weight < peer.weight := by
  unfold work
  split
  case h_1 hi => exact .inl ⟨.inl hi, rfl⟩
  case h_2 type payload inbox hi =>
    have hw : peer.weight = type.inward + { peer with inbox }.weight := by
      simp only [weight, hi, List.map_cons, List.sum_cons]
      omega
    split
    case isFalse hr => exact .inl ⟨.inr (by simpa using hr), rfl⟩
    case isTrue =>
      refine .inr ?_
      split
      case h_1 =>
        show ({ peer with inbox } : Peer).weight < _
        have : 0 < type.inward := by cases type <;> simp [FrameType.inward]
        omega
      case h_2 frames ho =>
        have := weight_post { peer with inbox } frames
        have := weight_onFrame ho
        omega

end Peer

namespace Cluster

variable [Platform]

def weight (s : Cluster) : ℕ :=
  s.node.weight + s.peers.total Peer.weight

-- The steps that the processes take on their own.
def Input.internal : Input → Bool
  | deliver .. | work _ | proceed .. => true
  | _                                => false

omit [Platform] in
theorem weight_push (s : Cluster) (c : ConnectionId) (frame : FrameType × Bytes) :
    (s.push c frame).weight ≤ s.weight + frame.fst.inward := by
  unfold push
  split
  case h_1 => omega
  case h_2 peer hc =>
    have h := Table.total_insert_of_some (f := Peer.weight)
      (a := { peer with inbox := peer.inbox ++ [frame] }) hc
    have hp : Peer.weight { peer with inbox := peer.inbox ++ [frame] } =
        peer.weight + frame.fst.inward := by
      simp only [Peer.weight, List.map_append, List.map_cons, List.map_nil, List.sum_append,
        List.sum_cons, List.sum_nil]
      omega
    simp only [weight]
    omega

omit [Platform] in
theorem weight_route (s : Cluster) (out : Output) :
    (s.route out).weight ≤ s.weight + out.weight := by
  cases out
  case silent => exact le_rfl
  all_goals exact weight_push ..

theorem run_of_silent {s : Cluster} {arrived : NMC.Input}
    (h : s.node.step arrived = (.silent, s.node)) : s.run arrived = (.silent, s) := by
  simp only [run, h, route]

theorem weight_run (s : Cluster) (arrived : NMC.Input) :
    (s.run arrived).snd.weight ≤
      (s.node.step arrived).fst.weight + (s.node.step arrived).snd.weight +
        s.peers.total Peer.weight := by
  have h := weight_route { s with node := (s.node.step arrived).snd } (s.node.step arrived).fst
  simp only [weight] at h
  simp only [run, weight]
  omega

-- Whatever the processes do on their own, it either makes no difference or gets them nearer to
-- where they have nothing left to do.
theorem weight_step (input : Input) (s : Cluster) (hi : input.internal) :
    (step input s).snd = s ∨ (step input s).snd.weight < s.weight := by
  cases input <;> simp only [step]
  case deliver c drawn =>
    split
    case h_1 => exact .inl rfl
    case h_2 peer hc =>
      split
      case h_1 => exact .inl rfl
      case h_2 type payload outbox hp =>
        split
        case isFalse => exact .inl rfl
        case isTrue hl =>
          obtain ⟨conn, hl⟩ := Option.isSome_iff_exists.mp hl
          obtain ⟨hconn, hr⟩ := Node.listening_eq_some.mp hl
          have hn := Node.weight_receive hconn hr type payload drawn
          have hrun := weight_run { s with peers := s.peers.insert c { peer with outbox } }
            (.receive c type payload drawn)
          have ht := Table.total_insert_of_some (f := Peer.weight) (a := { peer with outbox }) hc
          have hw : peer.weight = type.outward + Peer.weight { peer with outbox } := by
            simp only [Peer.weight, hp, List.map_cons, List.sum_cons]
            omega
          simp only [Node.step, hl] at hrun
          refine .inr (hrun.trans_lt ?_)
          simp only [weight]
          omega
  case work c =>
    split
    case h_1 => exact .inl rfl
    case h_2 peer hc =>
      rcases peer.weight_work with ⟨_, he⟩ | hw
      · exact .inl (by rw [he, Table.insert_of_some hc])
      · have ht := Table.total_insert_of_some (f := Peer.weight) (a := peer.work) hc
        refine .inr ?_
        simp only [weight]
        omega
  case proceed c sent disk =>
    cases hc : s.node.connections[c]?
    case none => exact .inl (by rw [run_of_silent (by simp only [Node.step, hc])])
    case some conn =>
      rcases Node.weight_proceed hc sent disk with hs | hw
      · exact .inl (by rw [run_of_silent (by simp only [Node.step, hc, hs.proceed])])
      · have hrun := weight_run s (.proceed c sent disk)
        simp only [Node.step, hc] at hrun
        refine .inr (hrun.trans_lt ?_)
        simp only [weight]
        omega
  all_goals contradiction

-- The processes have nothing left to do on their own.
def Quiet (s : Cluster) : Prop :=
  ∀ input : Input, input.internal → (step input s).snd = s

end Cluster

-- However the processes are scheduled, they have nothing left to do on their own after a number of
-- steps that is known from the start, and they can always be scheduled so that they get there.
theorem internal_steps_bounded [Platform] (s : Cluster) :
    (∀ more : List Cluster.Input, (∀ input ∈ more, input.internal) →
      Machine.EachStep (fun past input => (Cluster.step input (Cluster.machine.after s past)).snd ≠
        Cluster.machine.after s past) more → more.length ≤ s.weight) ∧
    ∃ more : List Cluster.Input, (∀ input ∈ more, input.internal) ∧ more.length ≤ s.weight ∧
      (Cluster.machine.after s more).Quiet := by
  refine ⟨fun more hi he => ?_, Cluster.machine.exists_final s Cluster.weight Cluster.weight_step⟩
  have h := Cluster.machine.length_add_le (C := fun past input => input.internal ∧
    (Cluster.step input (Cluster.machine.after s past)).snd ≠ Cluster.machine.after s past)
    s Cluster.weight (fun past input hc => (Cluster.weight_step input _ hc.1).resolve_left hc.2)
    (fun input past hs => ⟨hi input (hs.subset List.mem_cons_self), he hs⟩)
  omega

end NMC
