import NearMemoryCompute.Objects.Primitives

namespace NMC

-- A reflected CRC-32 that starts at all ones and is not complemented at the end.
structure Crc32 where
  value : UInt32 := 0xFFFFFFFF

namespace Crc32

def table (i : Fin 256) : UInt32 :=
  Nat.repeat
    (fun c : UInt32 => if c &&& 1 = 1 then (0xEDB88320 : UInt32) ^^^ (c >>> 1) else c >>> 1)
    8 (.ofNat i)

def updateByte (c : Crc32) (b : UInt8) : Crc32 where
  value := (c.value >>> 8) ^^^ table (Fin.ofNat 256 (c.value ^^^ b.toUInt32).toNat)

def update (c : Crc32) (data : Bytes) : Crc32 :=
  data.foldl updateByte c

def digest (c : Crc32) : UInt32 :=
  c.value

end Crc32

-- The FNV-1a hash of a result or a program.
structure ContentDigest where
  value : UInt64 := 0
deriving DecidableEq

def contentDigest (data : Bytes) : ContentDigest where
  value := data.foldl (fun h b => (h ^^^ b.toUInt64) * 0x100000001b3) 0xcbf29ce484222325

def hexDigit (d : UInt64) : UInt8 :=
  if d < 10 then 48 + d.toUInt8 else 87 + d.toUInt8

def toHex (d : ContentDigest) : Bytes :=
  (List.range 16).map fun i => hexDigit ((d.value >>> (60 - 4 * i.toUInt64)) &&& 0xF)

example : toHex (contentDigest []) = ascii "cbf29ce484222325" := by
  decide

end NMC
