import NearMemoryCompute.Execution.Frame
import NearMemoryCompute.Library.Machine

namespace NMC

def kIntMax : ℕ :=
  2 ^ 31 - 1

def kWsaEConnAborted : ℕ :=
  10053

def kWsaEConnReset : ℕ :=
  10054

-- How a call of `::send` ends. It takes at least one byte unless it reports an end or an error, but
-- it need not take all of them.
inductive SendCall
  | accepted (more : ℕ)
  | closed
  | interrupted
  | failed (error : ℕ)
deriving DecidableEq

-- How a call of `::recv` ends. Of what the peer has sent it returns at least one byte, or none if
-- the peer has closed the connection and everything has been returned.
inductive RecvCall
  | arrived (more : ℕ)
  | interrupted
  | failed (error : ℕ)
deriving DecidableEq

-- What has become of `send_all` after some calls of `::send`: its result if it has returned, the
-- bytes that have been taken, and the calls that it has not made.
structure Sending where
  result : Option (Result Unit)
  wire   : Bytes := []
  calls  : List SendCall

-- The same for `recv_all`, which takes its bytes from a stream.
structure Receiving where
  result     : Option (Result Unit)
  peerClosed : Bool := false
  buffer     : Bytes := []
  calls      : List RecvCall
  rest       : Bytes

structure TcpSocket where
  valid : Bool := true

namespace TcpSocket

def sendAll (sock : TcpSocket) (calls : List SendCall) (data : Bytes) : Sending :=
  if !sock.valid then { result := some (makeError "E_NET_SEND" "socket not valid"), calls }
  else go calls data
where
  go : List SendCall → Bytes → Sending
    | calls, [] => { result := some (.ok ()), calls }
    | [], _ :: _ => { result := none, calls := [] }
    | .interrupted :: calls, data => go calls data
    | .failed e :: calls, _ :: _ =>
      { result := some (makeError "E_NET_SEND" s!"send failed: {e}"), calls }
    | .closed :: calls, _ :: _ =>
      { result := some (makeError "E_NET_SEND" "send returned 0 (connection closed)"), calls }
    | .accepted more :: calls, data =>
      let chunk := min data.length kIntMax
      let r := min (more + 1) chunk
      let later := go calls (data.drop r)
      { later with wire := data.take r ++ later.wire }

def recvAll (sock : TcpSocket) (calls : List RecvCall) (n : ℕ) (stream : Bytes) : Receiving :=
  if !sock.valid then
    { result := some (makeError "E_NET_RECV" "socket not valid"), calls, rest := stream }
  else go calls n stream
where
  go : List RecvCall → ℕ → Bytes → Receiving
    | calls, 0, stream => { result := some (.ok ()), calls, rest := stream }
    | [], _ + 1, stream => { result := none, calls := [], rest := stream }
    | .interrupted :: calls, n, stream => go calls n stream
    | .failed e :: calls, _ + 1, stream =>
      if e = kWsaEConnReset ∨ e = kWsaEConnAborted then
        { result     := some (makeError "E_NET_EOF" "connection reset")
          peerClosed := true
          calls
          rest       := stream }
      else
        { result := some (makeError "E_NET_RECV" s!"recv failed: {e}"), calls, rest := stream }
    | .arrived _ :: calls, _ + 1, [] =>
      { result     := some (makeError "E_NET_EOF" "peer closed")
        peerClosed := true
        calls
        rest       := [] }
    | .arrived more :: calls, n, stream =>
      let chunk := min n kIntMax
      let r := min (more + 1) (min chunk stream.length)
      let later := go calls (n - r) (stream.drop r)
      { later with buffer := stream.take r ++ later.buffer }

-- A frame is put together as a whole before any of it is sent.
def sendFrame (sock : TcpSocket) (calls : List SendCall) (type : FrameType) (payload : Bytes)
    (correlation : UInt64) : Sending :=
  match NMC.sendFrame type payload correlation with
  | .error e => { result := some (.error e), calls }
  | .ok wire => sock.sendAll calls wire

-- The bytes of a payload. The socket is asked for them only if there are any.
def recvBody (sock : TcpSocket) (header : FrameHeader) (calls : List RecvCall) (stream : Bytes) :
    Receiving :=
  if header.payloadLen > 0 then sock.recvAll calls header.payloadLen.toNat stream
  else { result := some (.ok ()), calls, rest := stream }

-- The result is missing as long as `recv_frame` waits for bytes.
def recvPayload (sock : TcpSocket) (header : FrameHeader) (calls : List RecvCall)
    (stream : Bytes) : Option FrameReceive × List RecvCall × Bytes :=
  let r := sock.recvBody header calls stream
  let payload :=
    r.buffer ++ List.replicate (header.payloadLen.toNat - r.buffer.length) 0
  if r.peerClosed then (some { status := .truncated, header, payload }, r.calls, r.rest)
  else
    match r.result with
    | none => (none, r.calls, r.rest)
    | some (.error _) => (some { status := .truncated, header, payload }, r.calls, r.rest)
    | some (.ok _) =>
      let status := if header.digest payload ≠ header.checksum then .malformed else .ok
      (some { status, header, payload }, r.calls, r.rest)

def recvFrame (sock : TcpSocket) (calls : List RecvCall) (stream : Bytes) :
    Option FrameReceive × List RecvCall × Bytes :=
  let r := sock.recvAll calls kFrameHeaderBytes stream
  if r.peerClosed then (some { status := .disconnect }, r.calls, r.rest)
  else
    match r.result with
    | none => (none, r.calls, r.rest)
    | some (.error _) => (some { status := .disconnect }, r.calls, r.rest)
    | some (.ok _) =>
      match decodeHeader r.buffer with
      | none => (some { status := .malformed }, r.calls, r.rest)
      | some (header, _) =>
        if header.magic ≠ kProtocolMagic ∨ header.version ≠ kProtocolVersion then
          (some { status := .malformed }, r.calls, r.rest)
        else if header.payloadLen > kMaxFramePayload then
          (some { status := .oversized }, r.calls, r.rest)
        else
          sock.recvPayload header r.calls r.rest

-- The frames that a process sends one after the other, until one can not be sent.
def sendFrames (sock : TcpSocket) : List SendCall → List (FrameType × Bytes × UInt64) → Sending
  | calls, [] => { result := some (.ok ()), calls }
  | calls, (type, payload, correlation) :: frames =>
    let s := sock.sendFrame calls type payload correlation
    match s.result with
    | some (.ok _) =>
      let later := sock.sendFrames s.calls frames
      { later with wire := s.wire ++ later.wire }
    | _ => s

-- The loop in which both processes receive: it goes on as long as frames are in order. So many
-- frames are handled at most.
def handled (sock : TcpSocket) : ℕ → List RecvCall → Bytes → List FrameReceive
  | 0, _, _ => []
  | n + 1, calls, stream =>
    match sock.recvFrame calls stream with
    | (none, _, _) => []
    | (some fr, calls, rest) => if fr.status = .ok then fr :: sock.handled n calls rest else []

end TcpSocket

-- Threads that are in `send_all` on the same socket. Of each it is known what it has left to send
-- and what `send_all` has returned. Nothing keeps a thread from calling `::send` between two calls
-- of another one.
structure Senders (ι : Type) where
  left   : ι → Bytes
  result : ι → Option (Result Unit) := fun _ => none
  wire   : Bytes                    := []

namespace Senders

variable {ι : Type} [DecidableEq ι]

-- A thread makes one more round of its loop.
def call (s : Senders ι) (i : ι) (call : SendCall) : Senders ι :=
  if (s.result i).isSome then s
  else
    let round := TcpSocket.sendAll.go [call] (s.left i)
    { left   := Function.update s.left i ((s.left i).drop round.wire.length)
      result := Function.update s.result i round.result
      wire   := s.wire ++ round.wire }

def machine : Machine (Senders ι) (ι × SendCall) Unit where
  step input s := ((), s.call input.fst input.snd)

end Senders
end NMC
