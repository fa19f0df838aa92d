import NearMemoryCompute.Execution.Step
import NearMemoryCompute.Execution.Wire
import NearMemoryCompute.Library.Word

namespace NMC

namespace Coordinator

def hasResult (st : RuntimeState) (p : ExecutionPlanId) : Bool :=
  st.results.toList.any (·.snd.plan = p)

def resultOf (st : RuntimeState) (p : ExecutionPlanId) : ExecutionResult :=
  (st.results.toList.find? (·.snd.plan = p)).elim {} Prod.snd

end Coordinator

-- Stands for the socket of a connection as well as for the thread that serves it.
abbrev ConnectionId := ℕ

-- A plan that a client wants to have dispatched, with the identities that have been drawn for it.
structure Request where
  plan     : ExecutionPlanId
  dispatch : DispatchId
  attempt  : AttemptId
deriving DecidableEq

-- What the thread of a connection does next. A step of a thread goes up to where it releases a lock
-- or has sent a frame to a worker. Answering a client touches nothing that is shared, so it is left
-- to the step before.
inductive Handler
  -- The next frame
  | receive
  -- `HELLO`, once the session is bound
  | publish
  -- `RESULT`, once it has been applied
  | save (dispatch : DispatchId) (reply : ClientReplyMsg)
  | replace (dispatch : DispatchId) (reply : ClientReplyMsg) (copy : RuntimeState)
  | resolve (dispatch : DispatchId) (reply : ClientReplyMsg)
  -- `CLIENT_GET_RESULT`, once there is a result
  | fetch (plan : ExecutionPlanId)
  -- `CLIENT_DISPATCH`
  | reserve (req : Request)
  | prepare (req : Request)
  | lookup (req : Request) (dm : DispatchMsg)
  | confirm (req : Request) (dm : DispatchMsg) (sock : ConnectionId)
  | insert (req : Request) (dm : DispatchMsg) (sock : ConnectionId)
  | send (req : Request) (dm : DispatchMsg) (sock : ConnectionId)
  | wait (req : Request)
  | cancel (plan : ExecutionPlanId) (note : String)
  -- `CLIENT_DISPATCH`, once the frame could not be sent
  | fail (req : Request)
  | withdraw (req : Request)
  -- The end of the connection
  | disconnect
  | sweep
  | close
  | closed

def Handler.isReceive : Handler → Bool
  | receive => true
  | _       => false

def Handler.isClosed : Handler → Bool
  | closed => true
  | _      => false

structure Connection where
  boot     : WorkerBootId := {}
  isWorker : Bool         := false
  handler  : Handler      := .receive

-- A promise is identified by the client that waits for it, since a handler makes one at a time.
structure Pending where
  client : ConnectionId
  boot   : WorkerBootId
deriving DecidableEq

-- The process of the coordinator, with its connections, the values that promises have been given
-- and nobody has got yet, and the contents of the file that it saves to.
structure Node where
  coord       : RuntimeState
  workers     : Table WorkerBootId ConnectionId   := ∅
  pending     : Table DispatchId Pending          := ∅
  persist     : Bytes                             := []
  connections : Table ConnectionId Connection     := ∅
  promises    : Table ConnectionId ClientReplyMsg := ∅
  file        : Option Bytes                      := none

-- What is drawn from the identity source in a step.
structure Drawn where
  evidence   : EvidenceId       := {}
  capability : ℕ → CapabilityId := fun _ => {}
  plan       : ExecutionPlanId  := {}
  dispatch   : DispatchId       := {}
  attempt    : AttemptId        := {}
  result     : ResultId         := {}

-- What can happen next. How a send ends and what the disk does is up to the environment.
inductive Input
  | accept (c : ConnectionId)
  | receive (c : ConnectionId) (type : FrameType) (payload : Bytes) (drawn : Drawn)
  | hangUp (c : ConnectionId)
  | proceed (c : ConnectionId) (sent : Bool) (disk : Disk)

inductive Output
  | silent
  | pong (c : ConnectionId)
  | reply (c : ConnectionId) (msg : ClientReplyMsg)
  | dispatch (c : ConnectionId) (msg : DispatchMsg)

-- What a client is told about a completion.
def resultReply (plan : ExecutionPlanId) : Result ExecutionResult → ClientReplyMsg
  | .ok res => {
      plan
      ok           := true
      committed    := res.committed
      ambiguous    := res.ambiguous
      verification := res.verification
      outputBytes  := res.outputBytes
      outputDigest := res.outputDigest
      note         := res.note }
  | .error e => { plan, note := ascii e.message }

def planReply : Result Coordinator.PlanOutput → ClientReplyMsg
  | .ok out => {
      ok       := true
      created  := out.created
      decision := out.decision
      plan     := if out.created then out.plan.id else {}
      note     := out.explanation.getLastD [] }
  | .error e => { note := ascii e.message }

namespace Node

def update (node : Node) (c : ConnectionId) (conn : Connection) : Node :=
  { node with connections := node.connections.insert c conn }

-- A connection whose thread waits for a frame.
def listening (node : Node) (c : ConnectionId) : Option Connection :=
  node.connections[c]?.filter (·.handler.isReceive)

-- A socket can be written to until its thread has closed it.
def isOpen (node : Node) (c : ConnectionId) : Bool :=
  node.connections[c]?.any fun conn => !conn.handler.isClosed

-- The promise gets its value after the lock has been released. Until then nobody can tell the
-- difference, since the client may be late to look at it anyway.
def resolveDispatch (node : Node) (d : DispatchId) (reply : ClientReplyMsg) : Node :=
  match node.pending[d]? with
  | none   => node
  | some p =>
    { node with
      pending  := node.pending.erase d
      promises := node.promises.insert p.client reply }

def resolveDisconnect (node : Node) (boot : WorkerBootId) : Node :=
  let toSet := node.pending.filter fun _ p => p.boot = boot
  let reply := { ambiguous := true, note := ascii "worker disconnected; outcome unknown" }
  { node with
    pending  := node.pending.filter fun _ p => p.boot ≠ boot
    workers  := node.workers.erase boot
    promises := toSet.toList.foldl (fun promises e => promises.insert e.snd.client reply)
      node.promises }

-- Ends the handling of a frame with an answer to the client.
def answer (node : Node) (c : ConnectionId) (conn : Connection) (reply : ClientReplyMsg) :
    Output × Node :=
  (.reply c reply, node.update c { conn with handler := .receive })

section Step

variable [Platform]

open Coordinator Reader

-- Frames whose payload can not be decoded are ignored, except that a client gets an answer. What
-- follows the message in a payload is never looked at.
def receive (node : Node) (c : ConnectionId) (conn : Connection) (type : FrameType)
    (payload : Bytes) (drawn : Drawn) : Output × Node :=
  match type with
  | .hello =>
    match decodeHello payload with
    | none => (.silent, node)
    | some (m, _) =>
      let coord := (bindWorkerSession m.worker m.workerBoot m.name node.coord).snd
      (.silent, { node with coord }.update c
        { conn with boot := m.workerBoot, isWorker := true, handler := .publish })
  | .registerTarget =>
    match decodeRegisterTarget payload with
    | none => (.silent, node)
    | some (m, _) =>
      let coord := (applyRegisterTarget { m with ownerBoot := conn.boot } node.coord).snd
      (.silent, { node with coord })
  | .capability =>
    match decodeCapability payload with
    | none => (.silent, node)
    | some (m, _) =>
      let m := { m with publisher := if m.publisher.isNull then conn.boot else m.publisher }
      let coord := (applyCapability drawn.evidence drawn.capability m node.coord).snd
      (.silent, { node with coord })
  | .dataEvidence =>
    match decodeDataEvidence payload with
    | none => (.silent, node)
    | some (m, _) =>
      let m := { m with publisher := if m.publisher.isNull then conn.boot else m.publisher }
      (.silent, { node with coord := (applyDataEvidence m node.coord).snd })
  | .heartbeat =>
    match decodeHeartbeat payload with
    | none        => (.silent, node)
    | some (m, _) => (.silent, { node with coord := (applyHeartbeat m node.coord).snd })
  | .ping => (.pong c, node)
  | .result =>
    match decodeResult payload with
    | none => (.silent, node)
    | some (m, _) =>
      let res := applyResult drawn.result m node.coord
      let reply := resultReply m.plan res.fst
      let handler : Handler :=
        if reply.committed ∧ node.persist ≠ [] then .save m.dispatch reply
        else .resolve m.dispatch reply
      (.silent, { node with coord := res.snd }.update c { conn with handler })
  | .clientRegisterOperation =>
    match decodeClientRegisterOp payload with
    | none => (.reply c {}, node)
    | some (m, _) =>
      let res := createOperation m.op node.coord
      (.reply c { ok := res.fst.isOk }, { node with coord := res.snd })
  | .clientPlan =>
    match decodeClientPlan payload with
    | none => (.reply c {}, node)
    | some (m, _) =>
      let res := plan drawn.plan m.op node.coord
      (.reply c (planReply res.fst), { node with coord := res.snd })
  | .clientDispatch =>
    match decodeClientDispatch payload with
    | none => (.reply c { note := ascii "bad dispatch request" }, node)
    | some (m, _) =>
      let req := { plan := m.plan, dispatch := drawn.dispatch, attempt := drawn.attempt }
      (.silent, node.update c { conn with handler := .reserve req })
  | .clientGetResult =>
    match decodeClientGetResult payload with
    | none => (.reply c {}, node)
    | some (m, _) =>
      if hasResult node.coord m.plan then
        (.silent, node.update c { conn with handler := .fetch m.plan })
      else (.reply c { note := ascii "no result" }, node)
  -- After `SHUTDOWN` the process ends with the next connection, but it can end anywhere.
  | _ => (.silent, node)

-- The thread of a connection goes on with what it has received.
def proceed (node : Node) (c : ConnectionId) (conn : Connection) (sent : Bool) (disk : Disk) :
    Output × Node :=
  let goto (handler : Handler) (node : Node) : Output × Node :=
    (.silent, node.update c { conn with handler })
  match conn.handler with
  | .receive => (.silent, node)
  | .publish => goto .receive { node with workers := node.workers.insert conn.boot c }
  | .save d reply => goto (.replace d reply node.coord) node
  | .replace d reply copy =>
    match save disk copy with
    -- An exception that nobody catches
    | none     => (.silent, node)
    | some res => goto (.resolve d reply) { node with file := res.toOption.or node.file }
  | .resolve d reply =>
    (.silent, (node.update c { conn with handler := .receive }).resolveDispatch d reply)
  | .fetch p => node.answer c conn (resultReply (resultOf node.coord p).plan
      (.ok (resultOf node.coord p)))
  | .reserve req =>
    let res := Coordinator.reserve req.plan node.coord
    let node := { node with coord := res.snd }
    if res.fst.isOk then goto (.prepare req) node
    else node.answer c conn { plan := req.plan, note := ascii "reserve failed" }
  | .prepare req =>
    let res := prepareDispatch req.plan req.dispatch req.attempt node.coord
    let node := { node with coord := res.snd }
    match res.fst with
    | .ok out  => goto (.lookup req out.message) node
    | .error _ =>
      node.answer c conn { plan := req.plan, note := ascii "dispatch not reserved / stale" }
  | .lookup req dm =>
    match node.workers[dm.workerBoot]? with
    | none      => goto (.cancel req.plan "no worker connected") node
    | some sock => goto (.confirm req dm sock) node
  | .confirm req dm sock =>
    let res := confirmDispatched req.plan req.dispatch node.coord
    let node := { node with coord := res.snd }
    if res.fst.isOk then goto (.insert req dm sock) node
    else goto (.cancel req.plan "confirm dispatched failed") node
  | .insert req dm sock =>
    let entry := { client := c, boot := dm.workerBoot }
    goto (.send req dm sock) { node with
      pending  := node.pending.insert req.dispatch entry
      promises := node.promises.erase c }
  | .send req dm sock =>
    if sent && node.isOpen sock then
      (.dispatch sock dm, node.update c { conn with handler := .wait req })
    else goto (.fail req) node
  | .fail req =>
    let err := { ambiguous := true, plan := req.plan, note := ascii "send dispatch failed" }
    (.silent, (node.update c { conn with handler := .withdraw req }).resolveDispatch
      req.dispatch err)
  | .withdraw req =>
    goto (.wait req) { node with coord := (cancelPlan req.plan node.coord).snd }
  | .wait _ =>
    match node.promises[c]? with
    | none       => (.silent, node)
    | some reply => { node with promises := node.promises.erase c }.answer c conn reply
  | .cancel p note =>
    { node with coord := (cancelPlan p node.coord).snd }.answer c conn
      { plan := p, note := ascii note }
  | .disconnect =>
    goto .sweep { node with coord := (onWorkerDisconnected conn.boot node.coord).snd }
  | .sweep =>
    (.silent, (node.update c { conn with handler := .close }).resolveDisconnect conn.boot)
  | .close  => goto .closed node
  | .closed => (.silent, node)

-- Threads take their steps in any order. An input that does not fit the state has no effect.
def step (input : Input) (node : Node) : Output × Node :=
  match input with
  | .accept c => (.silent, if c ∈ node.connections then node else node.update c {})
  | .receive c type payload drawn =>
    match node.listening c with
    | none      => (.silent, node)
    | some conn => node.receive c conn type payload drawn
  | .hangUp c =>
    match node.listening c with
    | none => (.silent, node)
    | some conn =>
      let handler := if conn.isWorker then .disconnect else .close
      (.silent, node.update c { conn with handler })
  | .proceed c sent disk =>
    match node.connections[c]? with
    | none      => (.silent, node)
    | some conn => node.proceed c conn sent disk

def machine : Machine Node Input Output where
  step := step

end Step
end Node

-- The loop that raises the epoch to the one that has been asked for.
def advanceWhile (epoch : UInt64) (st : RuntimeState) : RuntimeState :=
  if st.epoch.value < epoch then advanceWhile epoch (Coordinator.advanceEpoch st).snd else st
termination_by epoch.toNat - st.epoch.value.toNat
decreasing_by
  rename_i h
  have hn : (Coordinator.advanceEpoch st).snd.epoch.value.toNat = st.epoch.value.toNat + 1 :=
    UInt64.toNat_add_one_of_lt h
  have h := UInt64.lt_iff_toNat_lt.mp h
  omega

-- How the process is started: the identities that it draws for its coordinator, its arguments, and
-- what comes of reading the file.
structure Launch where
  constructed : CoordinatorId := {}
  attached    : CoordinatorId := {}
  persist     : Bytes         := []
  epoch       : UInt64        := 1
  read        : Bytes → File  := .contents

namespace Launch

open Coordinator

-- If the file can not be loaded, the coordinator goes on as a new one.
def recovered (l : Launch) (file : Option Bytes) : RuntimeState :=
  let st := (attachCoordinator l.attached (init l.constructed)).snd
  match file with
  | some bytes => if l.persist ≠ [] then (load (l.read bytes) st).snd else st
  | none       => st

def coordinator (l : Launch) (file : Option Bytes) : RuntimeState :=
  if l.epoch > 1 then advanceWhile l.epoch (l.recovered file) else l.recovered file

def start (l : Launch) (file : Option Bytes) : Node where
  coord   := l.coordinator file
  persist := l.persist
  file    := file

end Launch

-- A process from its start to where it is stopped, be it by a crash.
structure Incarnation where
  launch : Launch     := {}
  inputs : List Input := []

def Incarnation.node [Platform] (i : Incarnation) (file : Option Bytes) : Node :=
  Node.machine.after (i.launch.start file) i.inputs

-- The processes that are started one after the other with the same file. Of each the epoch is told
-- in which it runs.
def processes [Platform] : Machine (Option Bytes) Incarnation CoordinatorEpoch where
  step i file := ((i.node file).coord.epoch, (i.node file).file)

-- The same deployment as it comes about by frames, from a worker with the first connection and a
-- client with the second one.
namespace Deployment

open Writer

def greeting : HelloMsg where
  worker     := { value := 1 }
  workerBoot := { value := 1 }
  name       := ascii "worker"

-- The steps up to where the plan `10` exists, the latest one first.
def service : List Input := [
  .receive 2 .clientPlan (encodeClientPlan { op := { value := 1 } }) { plan := { value := 10 } },
  .receive 2 .clientRegisterOperation
    (encodeClientRegisterOp { op := operation { value := 1 } }) {},
  .accept 2,
  .receive 1 .heartbeat (encodeHeartbeat heartbeat) {},
  .receive 1 .dataEvidence (encodeDataEvidence evidence) {},
  .receive 1 .capability (encodeCapability capability) { evidence := { value := 1 } },
  .receive 1 .registerTarget (encodeRegisterTarget registration) {},
  .proceed 1 true .replaced,
  .receive 1 .hello (encodeHello greeting) {},
  .accept 1]

-- Some steps of the client's thread, after it has received the request to dispatch that plan.
def request (steps : ℕ) : List Input :=
  List.replicate steps (.proceed 2 true .replaced) ++ [
  .receive 2 .clientDispatch (encodeClientDispatch { plan := { value := 10 } })
    { dispatch := { value := 20 }, attempt := { value := 30 } }]

end Deployment
end NMC
