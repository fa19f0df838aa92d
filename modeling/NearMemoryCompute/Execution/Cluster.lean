import NearMemoryCompute.Execution.Frame
import NearMemoryCompute.Execution.Node
import NearMemoryCompute.Execution.Worker

namespace NMC

open Writer

-- The frames by which a worker makes itself known, in the order in which it sends them.
def Worker.startup (w : Worker) : List (FrameType × Bytes) := [
  (.hello, encodeHello w.hello),
  (.registerTarget, encodeRegisterTarget w.registration),
  (.capability, encodeCapability w.capability),
  (.dataEvidence, encodeDataEvidence w.evidence),
  (.heartbeat, encodeHeartbeat w.heartbeat)]

-- The frames that make a difference to the coordinator and are sent by workers only.
def FrameType.ofWorker : FrameType → Bool
  | hello | registerTarget | capability | dataEvidence | heartbeat | result => true
  | _                                                                       => false

def sendable (frame : FrameType × Bytes) : Bool :=
  frame.snd.length ≤ kMaxFramePayload.toNat

-- A worker process at the other end of a connection. The frames that are on their way to it are in
-- its inbox, those that are on their way to the coordinator in its outbox, the oldest one first.
structure Peer where
  worker  : Worker
  running : Bool                     := true
  inbox   : List (FrameType × Bytes) := []
  outbox  : List (FrameType × Bytes) := []

namespace Peer

-- A worker ends if it can not send a frame.
def post (peer : Peer) (frames : List (FrameType × Bytes)) : Peer :=
  { peer with
    running := frames.all sendable
    outbox  := peer.outbox ++ frames.takeWhile sendable }

def new (w : Worker) : Peer :=
  { worker := w : Peer }.post w.startup

-- The worker deals with the next frame. It may as well have crashed, and then it never does.
def work (peer : Peer) : Peer :=
  match peer.inbox with
  | [] => peer
  | (type, payload) :: inbox =>
    if peer.running then
      match peer.worker.onFrame type payload with
      | none        => { peer with inbox, running := false }
      | some frames => { peer with inbox }.post frames
    else peer

end Peer

-- The process of the coordinator along with the processes of its workers.
structure Cluster where
  node  : Node
  peers : Table ConnectionId Peer := ∅

-- What a client has been told in a step.
def Output.told : Output → Option (ConnectionId × ClientReplyMsg)
  | reply c msg => some (c, msg)
  | _           => none

namespace Cluster

-- What can happen next. Clients are not modelled: they send whatever they like, other than what
-- workers send. Each call of `::send` is taken to pass on all of a frame.
inductive Input
  | join (c : ConnectionId) (w : Worker)
  | visit (c : ConnectionId)
  | deliver (c : ConnectionId) (drawn : Drawn)
  | request (c : ConnectionId) (type : FrameType) (payload : Bytes) (drawn : Drawn)
  | work (c : ConnectionId)
  | hangUp (c : ConnectionId)
  | proceed (c : ConnectionId) (sent : Bool) (disk : Disk)

def push (s : Cluster) (c : ConnectionId) (frame : FrameType × Bytes) : Cluster :=
  match s.peers[c]? with
  | none      => s
  | some peer => { s with peers := s.peers.insert c { peer with inbox := peer.inbox ++ [frame] } }

-- What the coordinator sends on the connection of a worker is on its way to this one.
def route (s : Cluster) : Output → Cluster
  | .silent         => s
  | .pong c         => s.push c (.pong, [])
  | .reply c msg    => s.push c (.clientReply, encodeClientReply msg)
  | .dispatch c msg => s.push c (.dispatch, encodeDispatch msg)

variable [Platform]

-- The process of the coordinator takes a step.
def run (s : Cluster) (input : NMC.Input) : Output × Cluster :=
  let (out, node) := s.node.step input
  (out, { s with node }.route out)

def step (input : Input) (s : Cluster) : Output × Cluster :=
  match input with
  | .join c w =>
    if c ∈ s.node.connections then (.silent, s)
    else { s with peers := s.peers.insert c (.new w) }.run (.accept c)
  | .visit c => s.run (.accept c)
  | .deliver c drawn =>
    match s.peers[c]? with
    | none => (.silent, s)
    | some peer =>
      match peer.outbox with
      | [] => (.silent, s)
      | (type, payload) :: outbox =>
        -- As long as the thread of the connection is busy, the frame has not arrived.
        if (s.node.listening c).isSome then
          { s with peers := s.peers.insert c { peer with outbox } }.run
            (.receive c type payload drawn)
        else (.silent, s)
  | .request c type payload drawn =>
    if c ∈ s.peers ∨ type.ofWorker then (.silent, s) else s.run (.receive c type payload drawn)
  | .work c =>
    match s.peers[c]? with
    | none      => (.silent, s)
    | some peer => (.silent, { s with peers := s.peers.insert c peer.work })
  | .hangUp c            => s.run (.hangUp c)
  | .proceed c sent disk => s.run (.proceed c sent disk)

def machine : Machine Cluster Input Output where
  step := step

-- A process of the coordinator from its start to where it is stopped, along with the workers that
-- have connected to it. The workers have to connect to the next one anew.
structure Incarnation where
  launch : Launch     := {}
  inputs : List Input := []

namespace Incarnation

def start (i : Incarnation) (file : Option Bytes) : Cluster where
  node := i.launch.start file

def cluster (i : Incarnation) (file : Option Bytes) : Cluster :=
  machine.after (i.start file) i.inputs

-- What clients have been told, the latest reply first.
def replies (i : Incarnation) (file : Option Bytes) : List (ConnectionId × ClientReplyMsg) :=
  (machine.events (i.start file) i.inputs).filterMap (·.output.told)

end Incarnation

-- The processes of the coordinator that are started one after the other with the same file.
def service : Machine (Option Bytes) Incarnation (List (ConnectionId × ClientReplyMsg)) where
  step i file := (i.replies file, (i.cluster file).node.file)

end Cluster
end NMC
