import NearMemoryCompute.Execution.Node
import NearMemoryCompute.Execution.Theorems.Evolution

namespace NMC

open Coordinator Reader

-- What a handler gets only by moving on. In the other steps of its thread it keeps or drops it.
structure Handler.Moved {α : Type} (f : Handler → Option α) : Prop where
  receive  : f .receive = none := by rfl
  publish  : f .publish = none := by rfl
  close    : f .close = none   := by rfl
  resolve  : ∀ ⦃d reply copy a⦄, f (.resolve d reply) = some a →
    f (.replace d reply copy) = some a := by intros; first | assumption | contradiction
  withdraw : ∀ ⦃req a⦄, f (.withdraw req) = some a →
    f (.fail req) = some a := by intros; first | assumption | contradiction
  send     : ∀ ⦃req dm sock a⦄, f (.send req dm sock) = some a →
    f (.insert req dm sock) = some a := by intros; first | assumption | contradiction

namespace Node

@[simp]
theorem update_coord (node : Node) (c : ConnectionId) (conn : Connection) :
    (node.update c conn).coord = node.coord :=
  rfl

@[simp]
theorem resolveDispatch_coord (node : Node) (d : DispatchId) (reply : ClientReplyMsg) :
    (node.resolveDispatch d reply).coord = node.coord := by
  unfold resolveDispatch
  split <;> rfl

@[simp]
theorem resolveDispatch_connections (node : Node) (d : DispatchId) (reply : ClientReplyMsg) :
    (node.resolveDispatch d reply).connections = node.connections := by
  unfold resolveDispatch
  split <;> rfl

@[simp]
theorem resolveDispatch_workers (node : Node) (d : DispatchId) (reply : ClientReplyMsg) :
    (node.resolveDispatch d reply).workers = node.workers := by
  unfold resolveDispatch
  split <;> rfl

@[simp]
theorem resolveDispatch_pending (node : Node) (d : DispatchId) (reply : ClientReplyMsg) :
    (node.resolveDispatch d reply).pending = node.pending.erase d := by
  unfold resolveDispatch
  split
  case h_1 h => exact (Table.erase_of_none h).symm
  case h_2   => rfl

@[simp]
theorem resolveDisconnect_coord (node : Node) (boot : WorkerBootId) :
    (node.resolveDisconnect boot).coord = node.coord :=
  rfl

theorem listening_eq_some {node : Node} {c : ConnectionId} {conn : Connection} :
    node.listening c = some conn ↔
      node.connections[c]? = some conn ∧ conn.handler = .receive := by
  have hr : conn.handler.isReceive ↔ conn.handler = .receive := by
    cases conn.handler <;> simp [Handler.isReceive]
  rw [listening, Option.filter_eq_some_iff, hr]

-- The handler of the connection has something.
def Has {α : Type} (node : Node) (f : Handler → Option α) (c : ConnectionId) (a : α) : Prop :=
  ∃ conn, node.connections[c]? = some conn ∧ f conn.handler = some a

namespace Has

variable {α : Type} {f : Handler → Option α} {a : α} {node node' : Node} {c c' : ConnectionId}
         {conn conn' : Connection}

theorem unique {a' : α} (h : node.Has f c a) (h' : node.Has f c a') : a = a' := by
  obtain ⟨conn, hc, ha⟩ := h
  obtain ⟨conn', hc', ha'⟩ := h'
  cases hc.symm.trans hc'
  exact Option.some.inj (ha.symm.trans ha')

-- What a handler has after a thread has moved on.
theorem of_insert (he : node'.connections = node.connections.insert c conn')
    (h : node'.Has f c' a) : (c = c' ∧ f conn'.handler = some a) ∨ node.Has f c' a := by
  obtain ⟨conn, hc, ha⟩ := h
  rw [he] at hc
  rcases Table.getElem?_insert_eq_some hc with ⟨rfl, rfl⟩ | ⟨_, hc⟩
  · exact .inl ⟨rfl, ha⟩
  · exact .inr ⟨conn, hc, ha⟩

theorem of_idle (he : node'.connections = node.connections.insert c conn')
    (hn : f conn'.handler = none) (h : node'.Has f c' a) : node.Has f c' a := by
  rcases h.of_insert he with ⟨_, ha⟩ | h
  · simp [hn] at ha
  · exact h

theorem of_kept (hc : node.connections[c]? = some conn)
    (he : node'.connections = node.connections.insert c conn')
    (hk : f conn'.handler = some a → f conn.handler = some a) (h : node'.Has f c' a) :
    node.Has f c' a := by
  rcases h.of_insert he with ⟨rfl, ha⟩ | h
  · exact ⟨conn, hc, hk ha⟩
  · exact h

theorem insert_ne (h : node.Has f c' a) (he : node'.connections = node.connections.insert c conn')
    (hne : c ≠ c') : node'.Has f c' a := by
  obtain ⟨conn, hc, ha⟩ := h
  exact ⟨conn, by rw [he, Table.getElem?_insert_ne _ _ hne, hc], ha⟩

-- What a handler keeps while a thread moves on.
theorem insert (h : node.Has f c' a) (he : node'.connections = node.connections.insert c conn')
    (hk : ∀ conn, node.connections[c]? = some conn → f conn.handler = some a →
      f conn'.handler = some a) : node'.Has f c' a := by
  by_cases hne : c = c'
  case neg => exact h.insert_ne he hne
  case pos =>
    subst hne
    obtain ⟨conn, hc, ha⟩ := h
    exact ⟨conn', by rw [he, Table.getElem?_insert_self], hk conn hc ha⟩

end Has

variable [Platform]

-- The state of the coordinator after a call, if there is one.
def called (node : Node) (op : Option Op) : RuntimeState :=
  op.elim node.coord fun op => (Coordinator.step op node.coord).snd

-- The frames that are dealt with by a single call.
inductive Handles (boot : WorkerBootId) (payload : Bytes) (drawn : Drawn) : FrameType → Op → Prop
  | registerTarget {m rest} :
    decodeRegisterTarget payload = some (m, rest) →
    Handles boot payload drawn .registerTarget (.applyRegisterTarget { m with ownerBoot := boot })
  | capability {m} :
    Handles boot payload drawn .capability (.applyCapability drawn.evidence drawn.capability m)
  | dataEvidence {m} : Handles boot payload drawn .dataEvidence (.applyDataEvidence m)
  | heartbeat {m} : Handles boot payload drawn .heartbeat (.applyHeartbeat m)
  | clientRegisterOperation {m rest} :
    decodeClientRegisterOp payload = some (m, rest) →
    Handles boot payload drawn .clientRegisterOperation (.createOperation m.op)
  | clientPlan {m rest} :
    decodeClientPlan payload = some (m, rest) →
    Handles boot payload drawn .clientPlan (.plan drawn.plan m.op)

-- The steps by which a thread moves on without touching what is shared, except for a call.
inductive Move (node : Node) (c : ConnectionId) (conn : Connection) :
    Input → Option Op → Handler → Prop
  | commit {payload drawn m rest reply} :
    conn.handler = .receive → decodeResult payload = some (m, rest) →
    reply = resultReply m.plan (applyResult drawn.result m node.coord).fst →
    Move node c conn (.receive c .result payload drawn) (some (.applyResult drawn.result m))
      (.save m.dispatch reply)
  | result {payload drawn m rest reply} :
    conn.handler = .receive → decodeResult payload = some (m, rest) →
    reply = resultReply m.plan (applyResult drawn.result m node.coord).fst →
    Move node c conn (.receive c .result payload drawn) (some (.applyResult drawn.result m))
      (.resolve m.dispatch reply)
  | request {payload drawn m rest} :
    conn.handler = .receive → decodeClientDispatch payload = some (m, rest) →
    Move node c conn (.receive c .clientDispatch payload drawn) none
      (.reserve { plan := m.plan, dispatch := drawn.dispatch, attempt := drawn.attempt })
  | inquire {payload drawn p} :
    conn.handler = .receive →
    Move node c conn (.receive c .clientGetResult payload drawn) none (.fetch p)
  | copy {d reply sent disk} :
    conn.handler = .save d reply →
    Move node c conn (.proceed c sent disk) none (.replace d reply node.coord)
  | hangUp : conn.handler = .receive → conn.isWorker → Move node c conn (.hangUp c) none .disconnect
  | leave : conn.handler = .receive → ¬conn.isWorker → Move node c conn (.hangUp c) none .close
  | fetch {p sent disk} :
    conn.handler = .fetch p → Move node c conn (.proceed c sent disk) none .receive
  | reserve {req sent disk} :
    conn.handler = .reserve req → (Coordinator.reserve req.plan node.coord).fst.isOk →
    Move node c conn (.proceed c sent disk) (some (.reserve req.plan)) (.prepare req)
  | unreserved {req sent disk} :
    conn.handler = .reserve req → ¬(Coordinator.reserve req.plan node.coord).fst.isOk →
    Move node c conn (.proceed c sent disk) (some (.reserve req.plan)) .receive
  | prepare {req out sent disk} :
    conn.handler = .prepare req →
    (prepareDispatch req.plan req.dispatch req.attempt node.coord).fst = .ok out →
    Move node c conn (.proceed c sent disk)
      (some (.prepareDispatch req.plan req.dispatch req.attempt)) (.lookup req out.message)
  | stale {req e sent disk} :
    conn.handler = .prepare req →
    (prepareDispatch req.plan req.dispatch req.attempt node.coord).fst = .error e →
    Move node c conn (.proceed c sent disk)
      (some (.prepareDispatch req.plan req.dispatch req.attempt)) .receive
  | lookup {req dm sock sent disk} :
    conn.handler = .lookup req dm → node.workers[dm.workerBoot]? = some sock →
    Move node c conn (.proceed c sent disk) none (.confirm req dm sock)
  | missing {req dm note sent disk} :
    conn.handler = .lookup req dm → node.workers[dm.workerBoot]? = none →
    Move node c conn (.proceed c sent disk) none (.cancel req.plan note)
  | confirm {req dm sock sent disk} :
    conn.handler = .confirm req dm sock →
    (confirmDispatched req.plan req.dispatch node.coord).fst.isOk →
    Move node c conn (.proceed c sent disk) (some (.confirmDispatched req.plan req.dispatch))
      (.insert req dm sock)
  | unconfirmed {req dm sock note sent disk} :
    conn.handler = .confirm req dm sock →
    ¬(confirmDispatched req.plan req.dispatch node.coord).fst.isOk →
    Move node c conn (.proceed c sent disk) (some (.confirmDispatched req.plan req.dispatch))
      (.cancel req.plan note)
  | send {req dm sock sent disk} :
    conn.handler = .send req dm sock → sent && node.isOpen sock →
    Move node c conn (.proceed c sent disk) none (.wait req)
  | unsent {req dm sock sent disk} :
    conn.handler = .send req dm sock → ¬(sent && node.isOpen sock) →
    Move node c conn (.proceed c sent disk) none (.fail req)
  | withdraw {req sent disk} :
    conn.handler = .withdraw req →
    Move node c conn (.proceed c sent disk) (some (.cancelPlan req.plan)) (.wait req)
  | cancel {p note sent disk} :
    conn.handler = .cancel p note →
    Move node c conn (.proceed c sent disk) (some (.cancelPlan p)) .receive
  | disconnect {sent disk} :
    conn.handler = .disconnect →
    Move node c conn (.proceed c sent disk) (some (.onWorkerDisconnected conn.boot)) .sweep
  | close {sent disk} :
    conn.handler = .close → Move node c conn (.proceed c sent disk) none .closed

-- What a step of the process can do, and which operation of the coordinator it calls.
inductive Step (node : Node) : Input → Option Op → Node → Prop
  | stay {input} : Step node input none node
  | accept {c} : c ∉ node.connections → Step node (.accept c) none (node.update c {})
  | handle {c conn type payload drawn op} :
    node.connections[c]? = some conn → conn.handler = .receive →
    Handles conn.boot payload drawn type op →
    Step node (.receive c type payload drawn) (some op) { node with coord := node.called (some op) }
  | hello {c conn payload drawn m rest op} :
    node.connections[c]? = some conn → conn.handler = .receive →
    decodeHello payload = some (m, rest) →
    op = .bindWorkerSession m.worker m.workerBoot m.name →
    Step node (.receive c .hello payload drawn) (some op)
      ({ node with coord := node.called (some op) }.update c
        { conn with boot := m.workerBoot, isWorker := true, handler := .publish })
  | move {c conn input op handler} :
    node.connections[c]? = some conn → Move node c conn input op handler →
    Step node input op ({ node with coord := node.called op }.update c { conn with handler })
  | publish {c conn sent disk} :
    node.connections[c]? = some conn → conn.handler = .publish →
    Step node (.proceed c sent disk) none
      ({ node with workers := node.workers.insert conn.boot c }.update c
        { conn with handler := .receive })
  | replace {c conn d reply copy sent disk res} :
    node.connections[c]? = some conn → conn.handler = .replace d reply copy →
    Coordinator.save disk copy = some res →
    Step node (.proceed c sent disk) none
      ({ node with file := res.toOption.or node.file }.update c
        { conn with handler := .resolve d reply })
  | resolve {c conn d reply sent disk} :
    node.connections[c]? = some conn → conn.handler = .resolve d reply →
    Step node (.proceed c sent disk) none
      ((node.update c { conn with handler := .receive }).resolveDispatch d reply)
  | fail {c conn req reply sent disk} :
    node.connections[c]? = some conn → conn.handler = .fail req →
    reply.ambiguous → !reply.committed →
    Step node (.proceed c sent disk) none
      ((node.update c { conn with handler := .withdraw req }).resolveDispatch req.dispatch reply)
  | insert {c conn req dm sock sent disk} :
    node.connections[c]? = some conn → conn.handler = .insert req dm sock →
    Step node (.proceed c sent disk) none
      ({ node with
          pending  := node.pending.insert req.dispatch { client := c, boot := dm.workerBoot }
          promises := node.promises.erase c
        }.update c { conn with handler := .send req dm sock })
  | answer {c conn req reply sent disk} :
    node.connections[c]? = some conn → conn.handler = .wait req →
    node.promises[c]? = some reply →
    Step node (.proceed c sent disk) none
      ({ node with promises := node.promises.erase c }.update c { conn with handler := .receive })
  | sweep {c conn sent disk} :
    node.connections[c]? = some conn → conn.handler = .sweep →
    Step node (.proceed c sent disk) none
      ((node.update c { conn with handler := .close }).resolveDisconnect conn.boot)

variable {node : Node} {c : ConnectionId} {conn : Connection}

theorem receive_cases (hc : node.connections[c]? = some conn) (hr : conn.handler = .receive)
    (type : FrameType) (payload : Bytes) (drawn : Drawn) :
    ∃ op, Step node (.receive c type payload drawn) op
      (node.receive c conn type payload drawn).snd := by
  cases type <;> simp only [Node.receive]
  case hello =>
    split
    case h_1    => exact ⟨none, .stay⟩
    case h_2 hm => exact ⟨_, .hello hc hr hm rfl⟩
  case registerTarget =>
    split
    case h_1    => exact ⟨none, .stay⟩
    case h_2 hm => exact ⟨_, .handle hc hr (.registerTarget hm)⟩
  case capability =>
    split
    case h_1 => exact ⟨none, .stay⟩
    case h_2 => exact ⟨_, .handle hc hr .capability⟩
  case dataEvidence =>
    split
    case h_1 => exact ⟨none, .stay⟩
    case h_2 => exact ⟨_, .handle hc hr .dataEvidence⟩
  case heartbeat =>
    split
    case h_1 => exact ⟨none, .stay⟩
    case h_2 => exact ⟨_, .handle hc hr .heartbeat⟩
  case result =>
    split
    case h_1 => exact ⟨none, .stay⟩
    case h_2 hm =>
      split
      case isTrue  => exact ⟨_, .move hc (.commit hr hm rfl)⟩
      case isFalse => exact ⟨_, .move hc (.result hr hm rfl)⟩
  case clientRegisterOperation =>
    split
    case h_1    => exact ⟨none, .stay⟩
    case h_2 hm => exact ⟨_, .handle hc hr (.clientRegisterOperation hm)⟩
  case clientPlan =>
    split
    case h_1    => exact ⟨none, .stay⟩
    case h_2 hm => exact ⟨_, .handle hc hr (.clientPlan hm)⟩
  case clientDispatch =>
    split
    case h_1    => exact ⟨none, .stay⟩
    case h_2 hm => exact ⟨_, .move hc (.request hr hm)⟩
  case clientGetResult =>
    split
    case h_1 => exact ⟨none, .stay⟩
    case h_2 =>
      split
      case isTrue  => exact ⟨_, .move hc (.inquire hr)⟩
      case isFalse => exact ⟨none, .stay⟩
  all_goals exact ⟨none, .stay⟩

theorem proceed_cases (hc : node.connections[c]? = some conn) (sent : Bool) (disk : Disk) :
    ∃ op, Step node (.proceed c sent disk) op (node.proceed c conn sent disk).snd := by
  cases hh : conn.handler <;> simp only [Node.proceed, hh]
  case receive => exact ⟨none, .stay⟩
  case publish => exact ⟨none, .publish hc hh⟩
  case save => exact ⟨none, .move hc (.copy hh)⟩
  case replace =>
    split
    case h_1    => exact ⟨none, .stay⟩
    case h_2 hs => exact ⟨none, .replace hc hh hs⟩
  case resolve => exact ⟨none, .resolve hc hh⟩
  case fetch   => exact ⟨none, .move hc (.fetch hh)⟩
  case reserve req =>
    split
    case isTrue ho  => exact ⟨_, .move hc (.reserve hh ho)⟩
    case isFalse ho => exact ⟨_, .move hc (.unreserved hh ho)⟩
  case prepare req =>
    split
    case h_1 ho => exact ⟨_, .move hc (.prepare hh ho)⟩
    case h_2 he => exact ⟨_, .move hc (.stale hh he)⟩
  case lookup req dm =>
    split
    case h_1 hw => exact ⟨none, .move hc (.missing hh hw)⟩
    case h_2 hw => exact ⟨none, .move hc (.lookup hh hw)⟩
  case confirm req dm sock =>
    split
    case isTrue ho  => exact ⟨_, .move hc (.confirm hh ho)⟩
    case isFalse ho => exact ⟨_, .move hc (.unconfirmed hh ho)⟩
  case insert => exact ⟨none, .insert hc hh⟩
  case send req dm sock =>
    split
    case isTrue ho  => exact ⟨none, .move hc (.send hh ho)⟩
    case isFalse ho => exact ⟨none, .move hc (.unsent hh ho)⟩
  case wait req =>
    split
    case h_1    => exact ⟨none, .stay⟩
    case h_2 hp => exact ⟨none, .answer hc hh hp⟩
  case cancel     => exact ⟨_, .move hc (.cancel hh)⟩
  case fail req   => exact ⟨none, .fail hc hh rfl rfl⟩
  case withdraw   => exact ⟨_, .move hc (.withdraw hh)⟩
  case disconnect => exact ⟨_, .move hc (.disconnect hh)⟩
  case sweep      => exact ⟨none, .sweep hc hh⟩
  case close      => exact ⟨none, .move hc (.close hh)⟩
  case closed     => exact ⟨none, .stay⟩

theorem step_cases (input : Input) (node : Node) :
    ∃ op, Step node input op (step input node).snd := by
  cases input <;> simp only [step]
  case accept c =>
    split
    case isTrue     => exact ⟨none, .stay⟩
    case isFalse hn => exact ⟨none, .accept hn⟩
  case receive c type payload drawn =>
    split
    case h_1 => exact ⟨none, .stay⟩
    case h_2 hl =>
      have ⟨hc, hr⟩ := listening_eq_some.mp hl
      exact receive_cases hc hr type payload drawn
  case hangUp c =>
    split
    case h_1 => exact ⟨none, .stay⟩
    case h_2 hl =>
      have ⟨hc, hr⟩ := listening_eq_some.mp hl
      refine ⟨none, ?_⟩
      split
      case isTrue hw  => exact .move hc (.hangUp hr hw)
      case isFalse hw => exact .move hc (.leave hr hw)
  case proceed c sent disk =>
    split
    case h_1    => exact ⟨none, .stay⟩
    case h_2 hc => exact proceed_cases hc sent disk

-- A handler has had before what it has, or it has just moved on to it.
theorem Step.origin {α : Type} {f : Handler → Option α} {a : α} {input : Input} {op : Option Op}
    {node' : Node} (h : Step node input op node') (hf : Handler.Moved f) (hr : node'.Has f c a) :
    node.Has f c a ∨ ∃ conn handler, node.connections[c]? = some conn ∧
      Move node c conn input op handler ∧ f handler = some a := by
  cases h
  case stay             => exact .inl hr
  case handle           => exact .inl hr
  case accept           => exact .inl (hr.of_idle rfl hf.receive)
  case hello            => exact .inl (hr.of_idle rfl hf.publish)
  case publish          => exact .inl (hr.of_idle rfl hf.receive)
  case replace hc hh _  => exact .inl (hr.of_kept hc rfl fun hn => hh ▸ hf.resolve hn)
  case resolve          => exact .inl (hr.of_idle (resolveDispatch_connections ..) hf.receive)
  case insert hc hh     => exact .inl (hr.of_kept hc rfl fun hn => hh ▸ hf.send hn)
  case answer           => exact .inl (hr.of_idle rfl hf.receive)
  case sweep            => exact .inl (hr.of_idle rfl hf.close)
  case fail hc hh _ _ =>
    refine .inl (hr.of_kept hc (resolveDispatch_connections ..) fun hn => ?_)
    exact hh ▸ hf.withdraw hn
  case move conn handler hc hm =>
    rcases hr.of_insert rfl with ⟨rfl, hn⟩ | hr
    · exact .inr ⟨conn, handler, hc, hm, hn⟩
    · exact .inl hr

theorem Step.coord {input : Input} {op : Option Op} {node' : Node}
    (h : Step node input op node') : node'.coord = node.called op := by
  cases h <;> simp [called]

end Node

-- The operations of the coordinator that the process calls while it runs.
def Op.served : Op → Bool
  | createOperation .. | bindWorkerSession .. | applyRegisterTarget .. | applyCapability ..
  | applyDataEvidence .. | applyHeartbeat .. | plan .. | reserve .. | prepareDispatch ..
  | confirmDispatched .. | applyResult .. | cancelPlan .. | onWorkerDisconnected .. => true
  | _ => false

theorem Op.served.not_loads {op : Op} {out : Outcome} (h : op.served) :
    ¬(op.loads ∧ out.succeeded) := by
  cases op <;> first | contradiction | exact Op.not_loads rfl

-- The operations that it calls when it is started.
def Op.launched : Op → Bool
  | attachCoordinator .. | load .. | advanceEpoch => true
  | _                                             => false

theorem Ledger.Step.epoch {st : RuntimeState} {op : Op} {out : Outcome} {l : Ledger}
    (h : Ledger.Step st op out l) (hs : op.served) : l.epoch = st.epoch := by
  cases h <;> first | rfl | contradiction

section Run

variable [Platform]

-- Whatever epoch is asked for, it is reached by single advances.
theorem exists_run_advanceWhile (epoch : UInt64) (st : RuntimeState) :
    ∃ ops, (∀ op ∈ ops, op = .advanceEpoch) ∧
      advanceWhile epoch st = Coordinator.machine.after st ops := by
  induction st using advanceWhile.induct epoch
  case case1 st h hi =>
    have ⟨ops, ho, he⟩ := hi
    refine ⟨ops ++ [.advanceEpoch], List.forall_mem_append.mpr ⟨ho, by simp⟩, ?_⟩
    rw [advanceWhile, if_pos h, he, Machine.after_append]
    rfl
  case case2 st h =>
    refine ⟨[], by simp, ?_⟩
    rw [advanceWhile, if_neg h]
    rfl

namespace Launch

variable (l : Launch) (file : Option Bytes)

theorem exists_run_recovered :
    ∃ ops, (∀ op ∈ ops, op.launched) ∧ l.recovered file = Coordinator.after l.constructed ops := by
  have new : ∃ ops, (∀ op ∈ ops, op.launched) ∧
      (attachCoordinator l.attached (init l.constructed)).snd =
        Coordinator.after l.constructed ops :=
    ⟨[.attachCoordinator l.attached], by simp [Op.launched], rfl⟩
  cases file
  case none => exact new
  case some bytes =>
    simp only [recovered]
    split
    case isFalse => exact new
    case isTrue =>
      refine ⟨[.load (l.read bytes), .attachCoordinator l.attached], ?_, rfl⟩
      simp [Op.launched]

-- A process is started by operations of its coordinator.
theorem exists_run :
    ∃ ops, (∀ op ∈ ops, op.launched) ∧
      l.coordinator file = Coordinator.after l.constructed ops := by
  have ⟨ops, ho, he⟩ := l.exists_run_recovered file
  unfold coordinator
  split
  case isFalse => exact ⟨ops, ho, he⟩
  case isTrue =>
    have ⟨ops', ho', he'⟩ := exists_run_advanceWhile l.epoch (l.recovered file)
    refine ⟨ops' ++ ops, List.forall_mem_append.mpr ⟨fun op hm => ho' op hm ▸ rfl, ho⟩, ?_⟩
    rw [he', he]
    exact (Machine.after_append ..).symm

end Launch

namespace Node

variable {node node' : Node} {input : Input}

theorem Step.served {op : Op} (h : Step node input (some op) node') : op.served := by
  cases h
  case handle hh => cases hh <;> rfl
  case hello ho  => exact ho ▸ rfl
  case move hm   => cases hm <;> rfl

theorem Step.epoch {op : Option Op} (h : Step node input op node') :
    node'.coord.epoch = node.coord.epoch := by
  rw [h.coord]
  cases op
  case none    => rfl
  case some op => exact (step_refines op node.coord).epoch h.served

-- A process stays in the epoch in which it has been started.
theorem epoch_after (node : Node) (run : List Input) :
    (machine.after node run).coord.epoch = node.coord.epoch := by
  induction run
  case nil => rfl
  case cons input run hi =>
    have ⟨_, hs⟩ := step_cases input (machine.after node run)
    exact hs.epoch.trans hi

-- The coordinator within a process behaves as one on its own, to which the calls of the process are
-- made.
theorem exists_run (l : Launch) (file : Option Bytes) {P : Op → Prop}
    (hl : ∀ op : Op, op.launched → P op) {C : List Input → Input → Prop}
    (hs : ∀ past input op node', C past input →
      Step (machine.after (l.start file) past) input (some op) node' → P op)
    {run : List Input} (hc : Machine.EachStep C run) :
    ∃ ops, (∀ op ∈ ops, P op) ∧
      (machine.after (l.start file) run).coord = Coordinator.after l.constructed ops := by
  have ⟨ops, ho, he⟩ := machine.after_part (l.start file) Coordinator.machine Node.coord
    (P := P) (C := C) ?step hc
  case step =>
    intro past input hi
    have ⟨op, hst⟩ := step_cases input (machine.after (l.start file) past)
    have hco := hst.coord
    cases op
    case none    => exact ⟨[], by simp, hco⟩
    case some op => exact ⟨[op], by simpa using hs past input op _ hi hst, hco⟩
  have ⟨ops', ho', he'⟩ := l.exists_run file
  have hp := List.forall_mem_append.mpr ⟨ho, fun op hm => hl op (ho' op hm)⟩
  refine ⟨ops ++ ops', hp, ?_⟩
  rw [he, show (l.start file).coord = _ from he']
  exact (Machine.after_append ..).symm

end Node
end Run
end NMC
