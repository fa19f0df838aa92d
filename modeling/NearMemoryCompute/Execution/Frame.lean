import NearMemoryCompute.Execution.Wire

namespace NMC

def kProtocolMagic : UInt32 :=
  0x4D4F434E

def kProtocolVersion : UInt16 :=
  1

def kMaxFramePayload : UInt32 :=
  64 * 1024 * 1024

def kFrameHeaderBytes : ℕ :=
  24

namespace FrameType

def code : FrameType → UInt16
  | hello                   => 0
  | registerTarget          => 1
  | capability              => 2
  | dataEvidence            => 3
  | heartbeat               => 4
  | dispatch                => 5
  | dispatchAck             => 6
  | result                  => 7
  | commitAck               => 8
  | error                   => 9
  | ping                    => 10
  | pong                    => 11
  | shutdown                => 12
  | revalidate              => 13
  | clientRegisterOperation => 14
  | clientPlan              => 15
  | clientDispatch          => 16
  | clientGetResult         => 17
  | clientReply             => 18

def kFrameTypes : List FrameType := [
  hello, registerTarget, capability, dataEvidence, heartbeat, dispatch, dispatchAck, result,
  commitAck, error, ping, pong, shutdown, revalidate, clientRegisterOperation, clientPlan,
  clientDispatch, clientGetResult, clientReply]

-- A code that the table does not list is no frame type.
def ofCode (code : UInt16) : Option FrameType :=
  kFrameTypes.find? (·.code = code)

end FrameType

structure FrameHeader where
  magic       : UInt32    := 0
  version     : UInt16    := 0
  type        : FrameType := .ping
  payloadLen  : UInt32    := 0
  correlation : UInt64    := 0
  checksum    : UInt32    := 0

open Writer in
def encodeHeader (h : FrameHeader) : Bytes := [
  writeU32 h.magic,
  writeU16 h.version,
  writeU16 h.type.code,
  writeU32 h.payloadLen,
  writeU64 h.correlation,
  writeU32 h.checksum].flatten

open Reader in
def decodeHeader : Reader FrameHeader := do
  let magic ← readU32
  let version ← readU16
  let typeRaw ← readU16
  let type ← FrameType.ofCode typeRaw
  let payloadLen ← readU32
  let correlation ← readU64
  let checksum ← readU32
  return { magic, version, type, payloadLen, correlation, checksum }

namespace Crc32

open Writer

-- An integer is fed as it lies in memory, the least significant byte first.
def updateU16 (c : Crc32) (v : UInt16) : Crc32 :=
  c.update (writeU16 v)

def updateU32 (c : Crc32) (v : UInt32) : Crc32 :=
  c.update (writeU32 v)

def updateU64 (c : Crc32) (v : UInt64) : Crc32 :=
  c.update (writeU64 v)

end Crc32

-- The checksum over a payload and all fields of its header but the checksum.
open Writer in
def FrameHeader.digest (h : FrameHeader) (payload : Bytes) : UInt32 :=
  let c : Crc32 := {}
  let c := c.update (writeU32 h.magic)
  let c := c.update (writeU16 h.version)
  let c := c.update (writeU16 h.type.code)
  let c := c.update (writeU32 h.payloadLen)
  let c := c.update (writeU64 h.correlation)
  let c := c.update payload
  c.digest

-- The bytes that a frame puts on the stream.
def sendFrame (type : FrameType) (payload : Bytes) (correlation : UInt64) : Result Bytes :=
  if payload.length > kMaxFramePayload.toNat then
    makeError "E_FRAME_OVERSIZE" "payload exceeds frame maximum"
  else
    let h : FrameHeader := {
      magic      := kProtocolMagic
      version    := kProtocolVersion
      payloadLen := .ofNat payload.length
      type, correlation }
    .ok (encodeHeader { h with checksum := h.digest payload } ++ payload)

-- The bytes that were asked for, or those up to the end of the stream.
def recvAll (n : ℕ) (stream : Bytes) : Except Bytes Bytes × Bytes :=
  if n ≤ stream.length then (.ok (stream.take n), stream.drop n) else (.error stream, [])

inductive FrameReceive.Status
  | ok | disconnect | malformed | truncated | oversized
deriving DecidableEq

structure FrameReceive where
  status  : FrameReceive.Status := .ok
  header  : FrameHeader         := {}
  payload : Bytes               := []

-- What follows the header of a frame.
def recvPayload (header : FrameHeader) (stream : Bytes) : FrameReceive × Bytes :=
  let len := header.payloadLen.toNat
  match if header.payloadLen > 0 then recvAll len stream else (.ok [], stream) with
  | (.error got, rest) =>
    -- The buffer has its full size even if the stream does not fill it.
    let payload := got ++ List.replicate (len - got.length) 0
    ({ status := .truncated, header, payload }, rest)
  | (.ok payload, rest) =>
    let status := if header.digest payload ≠ header.checksum then .malformed else .ok
    ({ status, header, payload }, rest)

def recvFrame (stream : Bytes) : FrameReceive × Bytes :=
  match recvAll kFrameHeaderBytes stream with
  | (.error _, rest) => ({ status := .disconnect }, rest)
  | (.ok hdr, rest)  =>
    match decodeHeader hdr with
    | none             => ({ status := .malformed }, rest)
    | some (header, _) =>
      if header.magic ≠ kProtocolMagic ∨ header.version ≠ kProtocolVersion then
        ({ status := .malformed }, rest)
      else if header.payloadLen > kMaxFramePayload then
        ({ status := .oversized }, rest)
      else
        recvPayload header rest

end NMC
