import NearMemoryCompute.Objects.Checksum
import NearMemoryCompute.Objects.Enums

namespace NMC

structure BackendRequest where
  opClass    : Raw OperationClass := OperationClass.sum
  dataType   : Raw DataType       := DataType.u8
  input      : Bytes              := []
  inputBytes : UInt64             := 0

-- What a backend returns. The time that it has measured is not part of any message.
structure BackendResult where
  ok     : Bool          := false
  output : Bytes         := []
  digest : ContentDigest := {}
  note   : Bytes         := []

def byteMin (p : Bytes) : UInt8 :=
  p.foldl (fun m b => if b < m then b else m) 0xFF

def byteMax (p : Bytes) : UInt8 :=
  p.foldl (fun m b => if m < b then b else m) 0

def byteSum (p : Bytes) : UInt64 :=
  p.foldl (fun s b => s + b.toUInt64) 0

-- How many bytes pass the filter.
def byteCount (p : Bytes) : UInt64 :=
  p.foldl (fun cnt b => if b ≥ 128 then cnt + 1 else cnt) 0

-- The eight bytes of a result, the least significant one first.
def packU64 (s : UInt64) : Bytes :=
  (List.range 8).map fun i => ((s >>> (8 * i).toUInt64) &&& 0xFF).toUInt8

-- The operations of the synthetic engine.
def syntheticOutput (opClass : Raw OperationClass) (p : Bytes) : Option Bytes :=
  match opClass with
  | .member .sum | .member .reduce            => some (packU64 (byteSum p))
  | .member .count                            => some (packU64 (.ofNat p.length))
  | .member .min                              => some [byteMin p]
  | .member .max                              => some [byteMax p]
  | .member .checksum                         => some (packU64 (byteSum p))
  | .member .hash                             => some (packU64 (contentDigest p).value)
  | .member .filter                           => some (packU64 (byteCount p))
  | .member .elementwise | .member .transform => some p
  | _                                         => none

-- The operations of the host-local engine.
def hostLocalOutput (opClass : Raw OperationClass) (p : Bytes) : Option Bytes :=
  match opClass with
  | .member .sum | .member .reduce => some (packU64 (byteSum p))
  | .member .count                 => some (packU64 (.ofNat p.length))
  | .member .min                   => some [byteMin p]
  | .member .max                   => some [byteMax p]
  | .member .filter                => some (packU64 (byteCount p))
  | _                              => none

-- What both engines do around their operations. A pointer is only null if the input is empty, so
-- its size is all that is checked.
def BackendRequest.execute (req : BackendRequest)
    (outputOf : Raw OperationClass → Bytes → Option Bytes) (done unsupported : Bytes) :
    BackendResult :=
  if req.inputBytes.toNat ≠ req.input.length then { note := ascii "input size mismatch" }
  else
    match outputOf req.opClass req.input with
    | none        => { note := unsupported }
    | some output => { ok := true, output, digest := contentDigest output, note := done }

def syntheticExecute (req : BackendRequest) : BackendResult :=
  req.execute syntheticOutput
    (if req.inputBytes = 0 then ascii "empty input" else ascii "synthetic result")
    (ascii "operation not supported by synthetic engine")

def hostLocalExecute (req : BackendRequest) : BackendResult :=
  req.execute hostLocalOutput (ascii "real host-local result")
    (ascii "operation not supported by host-local engine")

end NMC
