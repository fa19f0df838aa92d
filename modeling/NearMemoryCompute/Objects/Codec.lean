import NearMemoryCompute.Objects.Enums

namespace NMC

def kMaxCodecBlobBytes : UInt64 :=
  64 * 1024 * 1024

-- The number that little-endian bytes stand for.
def ofLittleEndian (bytes : Bytes) : ℕ :=
  bytes.foldr (fun b n => b.toNat + 256 * n) 0

-- A `ByteReader` by the bytes that it has not read yet.
abbrev Reader := StateT Bytes Option

namespace Reader

def readFixed (n : ℕ) : Reader Bytes := fun bytes =>
  if n > bytes.length then none else some (bytes.take n, bytes.drop n)

def readU8 : Reader UInt8 := do
  return .ofNat (ofLittleEndian (← readFixed 1))

def readU16 : Reader UInt16 := do
  return .ofNat (ofLittleEndian (← readFixed 2))

def readU32 : Reader UInt32 := do
  return .ofNat (ofLittleEndian (← readFixed 4))

def readU64 : Reader UInt64 := do
  return .ofNat (ofLittleEndian (← readFixed 8))

def readF64 : Reader F64 := do
  return { bits := ← readU64 }

def readString : Reader Bytes := do
  let len ← readU64
  guard (len ≤ kMaxCodecBlobBytes)
  readFixed len.toNat

def getId {t : Tag} : Reader (Id t) := do
  return { value := ← readU64 }

def getGen {t : Tag} : Reader (Generation t) := do
  return { value := ← readU64 }

def getBool : Reader Bool := do
  return (← readU8) != 0

def getEnum {α : Type} [CppEnum α] : Reader α := do
  let name ← readString
  CppEnum.parseEnum name

-- An optional value behind a flag.
def getOption {α : Type} (get : Reader α) : Reader (Option α) := do
  if ← getBool then return some (← get) else return none

def repeatedly {α : Type} (get : Reader α) : ℕ → Reader (List α)
  | 0     => return []
  | n + 1 => return (← get) :: (← repeatedly get n)

-- A list whose stored length is trusted only up to 64. The elements beyond are not skipped.
def getList {α : Type} (get : Reader α) : Reader (List α) := do
  let n ← readU64
  repeatedly get (min n.toNat 64)

end Reader
end NMC
