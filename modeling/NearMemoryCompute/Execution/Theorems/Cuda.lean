import NearMemoryCompute.Library.Fold
import NearMemoryCompute.Execution.Cuda
import NearMemoryCompute.Execution.Theorems.Backend

namespace NMC

-- Every loop ends, every index of the input is read exactly once, and no other index is read.
def KernelLaunch.CoversExactly (l : KernelLaunch) (n : ℕ) : Prop :=
  ∃ fuel reads, l.threads.mapM (fun thread => l.indices (.ofNat n) fuel (l.first thread)) =
      some reads ∧
    ∀ i : ℤ, (reads.flatten.map Int32.toInt).count i = if 0 ≤ i ∧ i < n then 1 else 0

-- The index that is computed from a number.
def index (k : ℕ) : Int32 :=
  (UInt32.ofNat k).toInt32

section Index

variable {k : ℕ}

theorem toInt_index (h : k < 2 ^ 32) :
    (index k).toInt = if k < 2 ^ 31 then (k : ℤ) else k - 2 ^ 32 := by
  have hk : (UInt32.ofNat k).toNat = k := UInt32.toNat_ofNat_of_lt' h
  have hc := BitVec.toInt_eq_toNat_cond (UInt32.ofNat k).toBitVec
  rw [UInt32.toNat_toBitVec, hk] at hc
  refine Eq.trans hc ?_
  split_ifs <;> first | rfl | omega

-- The first half of the numbers keep their value.
theorem toInt_index_of_lt (h : k < 2 ^ 31) : (index k).toInt = k := by
  rw [toInt_index (by omega), if_pos h]

-- The others become negative.
theorem toInt_index_neg (h : 2 ^ 31 ≤ k) (h' : k < 2 ^ 32) : (index k).toInt < 0 := by
  rw [toInt_index h', if_neg (by omega)]
  omega

theorem index_lt_iff {n : ℕ} (hn : n < 2 ^ 31) (hk : k < 2 ^ 31) :
    index k < Int32.ofNat n ↔ k < n := by
  rw [Int32.lt_iff_toInt_lt, toInt_index_of_lt hk, Int32.toInt_ofNat_of_lt hn]
  omega

end Index

namespace KernelLaunch

variable {l : KernelLaunch}

def stride (l : KernelLaunch) : ℕ :=
  l.gridDim.toNat * l.blockDim.toNat

theorem next_index (l : KernelLaunch) (k : ℕ) : l.next (index k) = index (k + l.stride) := by
  rw [next, index, UInt32.toUInt32_toInt32, index, UInt32.ofNat_add, stride, UInt32.ofNat_mul,
    UInt32.ofNat_toNat, UInt32.ofNat_toNat]

theorem map_first_threads (l : KernelLaunch) :
    l.threads.map l.first = (List.range l.stride).map index := by
  have first (b t : ℕ) : l.first (.ofNat b, .ofNat t) = index (b * l.blockDim.toNat + t) := by
    rw [KernelLaunch.first, index, UInt32.ofNat_add, UInt32.ofNat_mul, UInt32.ofNat_toNat]
  rw [threads, stride, List.range_mul, List.map_flatMap, List.map_flatMap]
  simp only [List.map_map, Function.comp_def, first]

section Threads

variable {n k : ℕ}

-- There is a thread for every index, so that none of them gets to a second one. This needs room for
-- twice as many indices.
theorem indices_index (hn : n ≤ l.stride) (hl : 2 * l.stride ≤ 2 ^ 31) (hk : k < l.stride)
    (fuel : ℕ) : l.indices (.ofNat n) (fuel + 2) (index k) =
      some (if k < n then [index k] else []) := by
  have here : index k < Int32.ofNat n ↔ k < n := index_lt_iff (by omega) (by omega)
  have there : ¬index (k + l.stride) < Int32.ofNat n := by
    rw [index_lt_iff (by omega) (by omega)]
    omega
  simp only [indices, next_index, here, if_neg there, Option.map_some]
  split <;> rfl

theorem coversExactly (hn : n ≤ l.stride) (hl : 2 * l.stride ≤ 2 ^ 31) : l.CoversExactly n := by
  let reads := (List.range l.stride).map fun k => if k < n then [index k] else []
  have hm : l.threads.mapM (fun thread => l.indices (.ofNat n) 2 (l.first thread)) =
      some reads := by
    have h : (l.threads.map l.first).mapM (l.indices (.ofNat n) 2) = some reads := by
      rw [map_first_threads, List.mapM_map]
      exact List.mapM_eq_some fun k hk => indices_index hn hl (List.mem_range.mp hk) 0
    rwa [List.mapM_map] at h
  have hr : reads.flatten.map Int32.toInt = (List.range n).map Int.ofNat := by
    rw [← List.flatMap_def, List.flatMap_range_ite hn, List.map_map]
    refine List.map_congr_left fun k hk => toInt_index_of_lt ?_
    have hk := List.mem_range.mp hk
    omega
  refine ⟨2, reads, hm, fun i => ?_⟩
  have nodup : ((List.range n).map Int.ofNat).Nodup :=
    List.nodup_range.map fun _ _ => Int.ofNat.inj
  rw [hr, nodup.count]
  congr 1
  simp only [List.mem_map, List.mem_range, Int.ofNat_eq_natCast, eq_iff_iff]
  constructor
  · rintro ⟨k, hk, rfl⟩
    omega
  · exact fun ⟨h, h'⟩ => ⟨i.toNat, by omega, by omega⟩

-- A thread whose second index is computed as a negative one reads there.
theorem not_coversExactly (hn : n < 2 ^ 31) (hk : k < n) (hs : k < l.stride)
    (hl : 2 ^ 31 ≤ k + l.stride) (hl' : k + l.stride < 2 ^ 32) : ¬l.CoversExactly n := by
  rintro ⟨fuel, reads, hm, hc⟩
  have here : index k < Int32.ofNat n := (index_lt_iff hn (by omega)).mpr hk
  have neg := toInt_index_neg hl hl'
  have there : index (k + l.stride) < Int32.ofNat n := by
    rw [Int32.lt_iff_toInt_lt, Int32.toInt_ofNat_of_lt hn]
    omega
  have hf : index k ∈ l.threads.map l.first := by
    rw [map_first_threads]
    exact List.mem_map_of_mem (List.mem_range.mpr hs)
  obtain ⟨thread, ht, hf⟩ := List.mem_map.mp hf
  obtain ⟨is, hi, he⟩ := List.exists_of_mapM_eq_some hm ht
  have hr : index (k + l.stride) ∈ is := by
    rw [hf] at he
    obtain _ | _ | fuel := fuel
    · cases he
    · simp [indices, here] at he
    · simp only [indices, next_index, if_pos here, if_pos there, Option.map_map,
        Option.map_eq_some_iff] at he
      obtain ⟨tail, _, rfl⟩ := he
      simp
  have hz := hc (index (k + l.stride)).toInt
  rw [if_neg (by omega), List.count_eq_zero] at hz
  exact hz (List.mem_map_of_mem (List.mem_flatten_of_mem hi hr))

end Threads

section Sum

variable {input : Bytes} {schedule : List (UInt32 × UInt32)} {fuel : ℕ}

-- What the thread that starts at the index adds to the sum.
def share (input : Bytes) (i : Int32) : UInt64 :=
  (input[i.toInt.toNat]?.getD 0).toUInt64

theorem threadSum_index {k : ℕ} (hk : k < 2 ^ 31) :
    threadSum input (if k < input.length then [index k] else []) =
      some (share input (index k)) := by
  have hi := toInt_index_of_lt hk
  have nonneg : ¬index k < 0 := by
    rw [Int32.lt_iff_toInt_lt, hi]
    exact Int.not_lt.mpr (Int.natCast_nonneg k)
  have hs : share input (index k) = (input[k]?.getD 0).toUInt64 := by
    rw [share, hi, Int.toNat_natCast]
  rw [hs]
  split_ifs with h
  · have hr : readAt input (index k) = some input[k] := by
      rw [readAt, if_neg nonneg, hi]
      exact List.getElem?_eq_getElem h
    simp [threadSum, hr, h]
  · simp [threadSum, h]

theorem sum_range_getD {m : ℕ} (h : input.length ≤ m) :
    ((List.range m).map fun k => (input[k]?.getD 0).toNat).sum = (input.map UInt8.toNat).sum := by
  obtain ⟨r, rfl⟩ := Nat.exists_eq_add_of_le h
  have low : (List.range input.length).map (fun k => (input[k]?.getD 0).toNat) =
      input.map UInt8.toNat := by
    apply List.ext_getElem
    · simp
    · intro k hk _
      have hk : k < input.length := by simpa using hk
      simp [hk]
  have high :
      (((List.range r).map (input.length + ·)).map fun k => (input[k]?.getD 0).toNat).sum = 0 := by
    apply List.sum_eq_zero
    simp
  rw [List.range_add, List.map_append, low, List.sum_append, high, Nat.add_zero]

-- Whatever the schedule, the sum is the one that the host computes.
theorem reduceSumKernel_eq (hn : input.length ≤ l.stride) (hl : 2 * l.stride ≤ 2 ^ 31)
    (hs : schedule.Perm l.threads) :
    reduceSumKernel l input (.ofNat input.length) (fuel + 2) schedule 0 = some (byteSum input) := by
  have starts (thread : UInt32 × UInt32) (ht : thread ∈ schedule) :
      ∃ k < l.stride, index k = l.first thread := by
    have hm := List.mem_map_of_mem (f := l.first) (hs.mem_iff.mp ht)
    rw [map_first_threads] at hm
    simpa using hm
  have step (out : UInt64) (thread : UInt32 × UInt32) (ht : thread ∈ schedule) :
      (do
        let indices ← l.indices (.ofNat input.length) (fuel + 2) (l.first thread)
        let s ← threadSum input indices
        return out + s) = some (out + share input (l.first thread)) := by
    obtain ⟨k, hk, he⟩ := starts thread ht
    rw [← he, indices_index hn hl hk, Option.bind_eq_bind, Option.bind_some,
      threadSum_index (by omega)]
    rfl
  have shares : (schedule.map fun thread => (share input (l.first thread)).toNat).sum =
      (input.map UInt8.toNat).sum := by
    calc (schedule.map fun thread => (share input (l.first thread)).toNat).sum
        = (l.threads.map fun thread => (share input (l.first thread)).toNat).sum :=
          (hs.map _).sum_eq
      _ = ((l.threads.map l.first).map fun i => (share input i).toNat).sum := by
          rw [List.map_map]
          rfl
      _ = ((List.range l.stride).map fun k => (input[k]?.getD 0).toNat).sum := by
          rw [map_first_threads, List.map_map]
          refine congrArg List.sum (List.map_congr_left fun k hk => ?_)
          have hk := List.mem_range.mp hk
          simp only [Function.comp_apply, share]
          rw [toInt_index_of_lt (by omega), Int.toNat_natCast, UInt8.toNat_toUInt64]
      _ = (input.map UInt8.toNat).sum := sum_range_getD hn
  rw [reduceSumKernel, List.foldlM_eq_some step, Option.some.injEq, ← UInt64.toNat_inj,
    toNat_byteSum, ← shares, ← List.foldl_map, UInt64.toNat_foldl_add, UInt64.exactSum,
    List.map_map]
  simp [Function.comp_def]

end Sum

end KernelLaunch

section Geometry

variable {z : ℤ}

theorem checkedInt_eq (h : 0 ≤ z) (h' : z < 2 ^ 31) : checkedInt z = some (.ofInt z) := by
  rw [checkedInt, if_neg (by omega)]

theorem toInt_div_kThreads (h : 0 ≤ z) (h' : z < 2 ^ 31) :
    (Int32.ofInt z / kThreads).toInt = z / 256 := by
  have hz : (Int32.ofInt z).toInt = z := Int32.toInt_ofInt_of_le (by omega) h'
  have hk : kThreads.toInt = 256 := rfl
  rw [Int32.toInt_div, hz, hk, Int.tdiv_eq_ediv_of_nonneg h]
  exact Int.bmod_eq_of_le (by simp; omega) (by simp; omega)

end Geometry

-- The launch with just as many blocks as the input needs.
def launchFor (n : ℕ) : KernelLaunch where
  gridDim  := .ofNat ((n + 255) / 256)
  blockDim := 256

theorem cudaLaunch_eq {n : ℕ} (h : n + 256 < 2 ^ 31) :
    cudaLaunch (.ofNat n) = some (launchFor n) := by
  have hn : (Int32.ofNat n).toInt = n := Int32.toInt_ofNat_of_lt (by omega)
  have hk : kThreads.toInt = 256 := rfl
  have hg : (Int32.ofInt ((n : ℤ) + 256 - 1) / kThreads).toUInt32 = .ofNat ((n + 255) / 256) := by
    have hi : Int32.ofInt ((n : ℤ) + 256 - 1) / kThreads = index ((n + 255) / 256) := by
      apply Int32.toInt_inj.mp
      rw [toInt_div_kThreads (by omega) (by omega), toInt_index_of_lt (by omega)]
      omega
    rw [hi, index, UInt32.toUInt32_toInt32]
  rw [cudaLaunch, hn, hk, checkedInt_eq (by omega) (by omega)]
  simp only [Option.bind_eq_bind, Option.bind_some]
  rw [Int32.toInt_ofInt_of_le (by omega) (by omega), checkedInt_eq (by omega) (by omega)]
  simp only [Option.bind_some, hg]
  rfl

-- Rounding up overflows for the longest inputs.
theorem cudaLaunch_none {n : ℕ} (h : 2 ^ 31 ≤ n + 256) (h' : n < 2 ^ 31) :
    cudaLaunch (.ofNat n) = none := by
  have hn : (Int32.ofNat n).toInt = n := Int32.toInt_ofNat_of_lt h'
  have hk : kThreads.toInt = 256 := rfl
  rw [cudaLaunch, hn, hk, checkedInt, if_pos (by omega)]
  rfl

theorem stride_launchFor {n : ℕ} (h : n < 2 ^ 31) :
    (launchFor n).stride = (n + 255) / 256 * 256 := by
  have hg : (UInt32.ofNat ((n + 255) / 256)).toNat = (n + 255) / 256 :=
    UInt32.toNat_ofNat_of_lt' (show _ < 2 ^ 32 by omega)
  rw [KernelLaunch.stride, launchFor, hg]
  rfl

theorem not_coversExactly_launchFor {n : ℕ} (h : 2 ^ 30 < n) (h' : n < 2 ^ 31) :
    ¬(launchFor n).CoversExactly n := by
  have hs := stride_launchFor h'
  exact KernelLaunch.not_coversExactly (k := n - 1) h' (by omega) (by omega) (by omega) (by omega)

theorem hostLocalExecute_sum {input : Bytes} (h : input.length < 2 ^ 64) :
    (hostLocalExecute
      { opClass := OperationClass.sum, input, inputBytes := .ofNat input.length }).output =
        packU64 (byteSum input) := by
  have hl : (UInt64.ofNat input.length).toNat = input.length := UInt64.toNat_ofNat_of_lt' h
  simp [hostLocalExecute, BackendRequest.execute, hl, hostLocalOutput]

theorem cudaReduceU8_eq {device : CudaDevice} (hd : device.works) {fuel : ℕ}
    {schedule : List (UInt32 × UInt32)} {input : Bytes} (hi : input ≠ []) {l : KernelLaunch}
    (hl : cudaLaunch (.ofNat input.length) = some l) {result : UInt64}
    (hk : reduceSumKernel l input (.ofNat input.length) fuel schedule 0 = some result) :
    cudaReduceU8 device fuel schedule input = some (packU64 result) := by
  simp only [CudaDevice.works, Bool.and_eq_true, decide_eq_true_eq] at hd
  simp [cudaReduceU8, hi, hd, hl, hk]

-- Up to half of the indices that an `int` can count, the device reads every byte once and returns
-- what the host does. Beyond, the thread of the last byte goes on at a negative index.
theorem cuda_exact_iff {input : Bytes} (hpos : 1 ≤ input.length)
    (hmax : input.length ≤ 2 ^ 31 - 1) {device : CudaDevice} (hd : device.works) :
    (∃ l, cudaLaunch (.ofNat input.length) = some l ∧ l.CoversExactly input.length ∧
      ∃ enough, ∀ fuel ≥ enough, ∀ schedule, schedule.Perm l.threads →
        cudaReduceU8 device fuel schedule input = some (hostLocalExecute
          { opClass := OperationClass.sum, input, inputBytes := .ofNat input.length }).output) ↔
    input.length ≤ 2 ^ 30 := by
  constructor
  case mp =>
    rintro ⟨l, hl, hc, _⟩
    by_contra hn
    by_cases ho : input.length + 256 < 2 ^ 31
    case pos =>
      rw [cudaLaunch_eq ho] at hl
      cases hl
      exact not_coversExactly_launchFor (by omega) (by omega) hc
    case neg =>
      rw [cudaLaunch_none (by omega) (by omega)] at hl
      cases hl
  case mpr =>
    intro hn
    have hs := stride_launchFor (n := input.length) (by omega)
    have hl : cudaLaunch (.ofNat input.length) = some (launchFor input.length) :=
      cudaLaunch_eq (by omega)
    refine ⟨_, hl, KernelLaunch.coversExactly (by omega) (by omega), 2, ?_⟩
    intro fuel hf schedule hp
    obtain ⟨fuel, rfl⟩ := Nat.exists_eq_add_of_le' hf
    rw [hostLocalExecute_sum (by omega)]
    have hi : input ≠ [] := List.ne_nil_of_length_pos hpos
    exact cudaReduceU8_eq hd hi hl (KernelLaunch.reduceSumKernel_eq (by omega) (by omega) hp)

-- The threads can also add their sums in the opposite order.
theorem cuda_exact_iff_of_bytes :
    ∃ l, cudaLaunch 3 = some l ∧ ∃ fuel,
      cudaReduceU8 {} fuel l.threads.reverse [1, 2, 3] = some [6, 0, 0, 0, 0, 0, 0, 0] := by
  have ⟨l, hl, _, fuel, h⟩ :=
    (@cuda_exact_iff [1, 2, 3] (by decide) (by decide) {} (by decide)).mpr (by decide)
  exact ⟨l, hl, fuel, h fuel le_rfl _ (List.reverse_perm _)⟩

-- With one byte more, the thread of the last byte reads in front of the input.
theorem cuda_reads_before_input :
    ∃ l, cudaLaunch 1073741825 = some l ∧ (l.first (4194304, 0)).toInt = 1073741824 ∧
      (l.next (l.first (4194304, 0))).toInt = -2147483392 ∧ ¬l.CoversExactly 1073741825 :=
  ⟨launchFor 1073741825, cudaLaunch_eq (by decide), by decide, by decide,
    not_coversExactly_launchFor (by decide) (by decide)⟩

end NMC
