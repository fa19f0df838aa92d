import NearMemoryCompute.Execution.Backend

namespace NMC

-- The value of a signed expression. An expression that overflows has none.
def checkedInt (z : ℤ) : Option Int32 :=
  if z < -2 ^ 31 ∨ 2 ^ 31 ≤ z then none else some (Int32.ofInt z)

-- The dimensions of a kernel launch.
structure KernelLaunch where
  gridDim  : UInt32
  blockDim : UInt32

namespace KernelLaunch

-- All threads of the launch, by their block and their place in it.
def threads (l : KernelLaunch) : List (UInt32 × UInt32) :=
  (List.range l.gridDim.toNat).flatMap fun b =>
    (List.range l.blockDim.toNat).map fun t => (.ofNat b, .ofNat t)

-- The indices are computed without a sign, and then converted back to `int`.
def first (l : KernelLaunch) (thread : UInt32 × UInt32) : Int32 :=
  (thread.fst * l.blockDim + thread.snd).toInt32

def next (l : KernelLaunch) (i : Int32) : Int32 :=
  (i.toUInt32 + l.gridDim * l.blockDim).toInt32

-- The indices at which a thread reads. There are none if its loop has not ended yet.
def indices (l : KernelLaunch) (n : Int32) : ℕ → Int32 → Option (List Int32)
  | 0,        _ => none
  | fuel + 1, i => if i < n then (l.indices n fuel (l.next i)).map (i :: ·) else some []

end KernelLaunch

-- A read outside of the input has no value.
def readAt (input : Bytes) (i : Int32) : Option UInt8 :=
  if i < 0 then none else input[i.toInt.toNat]?

-- What a thread has added up at its indices.
def threadSum (input : Bytes) (indices : List Int32) : Option UInt64 :=
  indices.foldlM (fun s i => (readAt input i).map fun b => s + b.toUInt64) 0

-- The threads add their sums to `out` one after the other, in the order of the schedule.
def reduceSumKernel (l : KernelLaunch) (input : Bytes) (n : Int32) (fuel : ℕ)
    (schedule : List (UInt32 × UInt32)) (out : UInt64) : Option UInt64 :=
  schedule.foldlM
    (fun out thread => do
      let indices ← l.indices n fuel (l.first thread)
      let s ← threadSum input indices
      return out + s)
    out

-- The device, by what it answers to the calls of the runtime.
structure CudaDevice where
  count       : ℕ    := 1
  mallocIn    : Bool := true
  mallocOut   : Bool := true
  memset      : Bool := true
  copyIn      : Bool := true
  synchronize : Bool := true
  copyOut     : Bool := true

def CudaDevice.works (device : CudaDevice) : Bool :=
  device.count ≠ 0 && device.mallocIn && device.mallocOut && device.memset && device.copyIn &&
  device.synchronize && device.copyOut

def kThreads : Int32 :=
  256

def cudaLaunch (n : Int32) : Option KernelLaunch := do
  let s ← checkedInt (n.toInt + kThreads.toInt)
  let s ← checkedInt (s.toInt - 1)
  return { gridDim := (s / kThreads).toUInt32, blockDim := kThreads.toUInt32 }

-- There is no value if the behaviour is undefined or a thread has not ended.
def cudaReduceU8 (device : CudaDevice) (fuel : ℕ) (schedule : List (UInt32 × UInt32))
    (input : Bytes) : Option Bytes :=
  if input.isEmpty || device.count = 0 then some []
  else
    let n := Int32.ofNat input.length
    if !device.mallocIn || !device.mallocOut || !device.memset || !device.copyIn then some []
    else do
      let l ← cudaLaunch n
      let result ← reduceSumKernel l input n fuel schedule 0
      if !device.synchronize || !device.copyOut then return [] else return packU64 result

end NMC
