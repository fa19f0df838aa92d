import NearMemoryCompute.Execution.Cluster
import NearMemoryCompute.Execution.Theorems.Backend
import NearMemoryCompute.Execution.Theorems.Messages
import NearMemoryCompute.Execution.Theorems.Replies
import NearMemoryCompute.Execution.Theorems.Revalidation
import NearMemoryCompute.Execution.Theorems.Durability

namespace NMC

open Coordinator Parser Reader Writer

-- The operations that every worker advertises.
def advertised : List OperationClass :=
  [.sum, .min, .count, .max, .filter, .checksum, .hash]

section Payload

theorem length_buildSamplePayload_go (n : ℕ) (state : UInt64) :
    (buildSamplePayload.go n state).length = n := by
  induction n generalizing state
  case zero      => rfl
  case succ n hi => simp [buildSamplePayload.go, hi]

theorem length_buildSamplePayload (op : OperationSpec) :
    (buildSamplePayload op).length ≤ kMaxSamplePayload.toNat := by
  rw [buildSamplePayload, length_buildSamplePayload_go]
  show (if op.inputBytes ≤ kMaxSamplePayload then op.inputBytes else kMaxSamplePayload).toNat ≤ _
  split
  case isTrue h  => exact UInt64.le_iff_toNat_le.mp h
  case isFalse h => exact le_rfl

theorem length_reduction {c : OperationClass} (hc : c ∈ advertised) (p : Bytes) :
    (reduction c p).length ≤ 8 := by
  fin_cases hc <;> simp [reduction, PersistentStore.length_littleEndian]

end Payload

section Wire

variable {m : DispatchMsg}

-- A frame that can be sent holds no string that is too long to be read.
theorem fits_of_sendable {type : FrameType} {s : Bytes} {l : List Bytes}
    (hm : writeString s ∈ l) (h : sendable (type, l.flatten)) : Fits s := by
  have hl : (writeString s).length ≤ l.flatten.length := (List.sublist_flatten_of_mem hm).length_le
  have hs : s.length ≤ (writeString s).length := by simp [writeString]
  exact (hs.trans hl).trans (of_decide_eq_true h)

theorem decodeRegisterTarget_startup {w : Worker}
    (h : sendable (.registerTarget, encodeRegisterTarget w.registration)) :
    decodeRegisterTarget (encodeRegisterTarget w.registration) = some (w.registration, []) := by
  have hn : w.registration.Normal := {
    provider  := by unfold Worker.registration; split <;> rfl
    kind      := by unfold Worker.registration; split <;> rfl
    name      := fits_of_sendable (by simp) h
    ops       := by simp [Worker.registration, Short, Raw.canonical]
    dataTypes := by simp [Worker.registration, Short, Raw.canonical]
    layouts   := by simp [Worker.registration, Short, Raw.canonical] }
  simpa using (decodeRegisterTarget_reads hn).run []

-- What a worker receives of a dispatch. The class of the operation is one that it advertises.
def DispatchMsg.received (m : DispatchMsg) : DispatchMsg :=
  { m with
    dataType   := .ofCode m.dataType.toCode
    retryClass := .ofCode m.retryClass.toCode }

theorem decodeDispatch_received (ho : m.opClass.canonical) (hg : ¬m.hasProgram → m.programGen = {})
    (hp : Fits m.payload) : decodeDispatch (encodeDispatch m) = some (m.received, []) := by
  have code {α : Type} [CppEnum α] [DecidableEq α] (a : Raw α) :
      Reads getCode (putCode a) (Raw.ofCode (α := α) a.toCode) :=
    (readU16_reads a.toCode).map
  have program : Reads (if m.hasProgram then getGen else pure {})
      (if m.hasProgram then putGen m.programGen else []) m.programGen := by
    split
    case isTrue     => exact getGen_reads _
    case isFalse hn => exact hg hn ▸ .nil
  have h : Reads decodeDispatch (encodeDispatch m) m.received :=
    .cons (getId_reads _) <| .cons (getGen_reads _) <| .cons (getId_reads _) <|
    .cons (getId_reads _) <| .cons (getId_reads _) <| .cons (getGen_reads _) <|
    .cons (getId_reads _) <| .cons (getGen_reads _) <| .cons (getGen_reads _) <|
    .cons (getGen_reads _) <| .cons (getGen_reads _) <| .cons (getBool_reads _) <|
    .cons program <| .cons (getCode_reads ho) <| .cons (code _) <| .cons (code _) <|
    .cons (getBool_reads _) <| .cons (getBool_reads _) <| .cons (readBlob_reads hp) .nil
  simpa using h.run []

end Wire

section Execution

variable {dm : DispatchMsg} {c : OperationClass}

-- Whichever engine a worker has, it computes what is asked for or it says that it does not know.
theorem Worker.execute_computes (w : Worker) (ho : dm.opClass = c) (hc : c ∈ advertised)
    (hn : 255 * dm.payload.length < 2 ^ 64) (hok : (w.execute dm).ok) :
    (w.execute dm).Computes (reduction c dm.payload) := by
  cases hs : w.synthetic
  case true =>
    rw [execute, if_pos hs]
    exact syntheticExecute_computes ho hn hc
  case false =>
    rw [execute, if_neg (by simp [hs])] at hok ⊢
    refine (hostLocalExecute_computes_iff ho hn hc).mpr ?_
    constructor <;> rintro rfl
    all_goals
      unfold hostLocalExecute BackendRequest.execute at hok
      simp [request, ho, hostLocalOutput] at hok
      split at hok <;> contradiction

end Execution

-- The operation that the plan is for is one that workers advertise.
structure RuntimeState.Asks (st : RuntimeState) (p : ExecutionPlanId) (op : OperationSpec)
    (c : OperationClass) : Prop where
  operation : ∃ plan, st.plans[p]? = some plan ∧ st.operations[plan.operation]? = some op
  opClass   : op.opClass = c
  mem       : c ∈ advertised

-- The output is what the work on the plan has to come to.
def RuntimeState.Answers (st : RuntimeState) (p : ExecutionPlanId) (output : Bytes) : Prop :=
  ∃ op c, st.Asks p op c ∧ output = reduction c (buildSamplePayload op)

-- What has been recorded of an output fits the right one.
def RuntimeState.Confirms (st : RuntimeState) (p : ExecutionPlanId) (outputBytes : UInt64)
    (outputDigest : Bytes) : Prop :=
  ∃ output, st.Answers p output ∧ outputBytes = .ofNat output.length ∧
    outputDigest = toHex (contentDigest output)

-- The dispatch is for the operation of its plan.
structure DispatchMsg.Genuine (dm : DispatchMsg) (st : RuntimeState) : Prop where
  asks    : ∃ op c, st.Asks dm.plan op c ∧ dm.opClass = c ∧ dm.payload = buildSamplePayload op
  program : ¬dm.hasProgram → dm.programGen = {}

-- The completion has the right output unless it says that the outcome is unknown.
structure ResultMsg.Honest (m : ResultMsg) (st : RuntimeState) : Prop where
  output : m.unknown = false → st.Answers m.plan m.output

section Execution

variable {st : RuntimeState} {dm : DispatchMsg}

theorem DispatchMsg.Genuine.length_payload (h : dm.Genuine st) : dm.payload.length ≤ 16384 := by
  obtain ⟨op, c, _, _, hp⟩ := h.asks
  exact hp ▸ length_buildSamplePayload op

theorem DispatchMsg.Genuine.decode (h : dm.Genuine st) :
    decodeDispatch (encodeDispatch dm) = some (dm.received, []) := by
  obtain ⟨op, c, _, hc, _⟩ := h.asks
  refine decodeDispatch_received (hc ▸ rfl) h.program ?_
  exact h.length_payload.trans (by decide)

section Backend

variable {req : BackendRequest} {outputOf : Raw OperationClass → Bytes → Option Bytes}
         {done unsupported : Bytes}

theorem BackendRequest.fits_note (hd : Fits done) (hu : Fits unsupported) :
    Fits (req.execute outputOf done unsupported).note := by
  unfold execute
  split
  case isTrue => decide
  case isFalse =>
    split
    case h_1 => exact hu
    case h_2 => exact hd

theorem BackendRequest.output_of_not_ok (h : ¬(req.execute outputOf done unsupported).ok) :
    (req.execute outputOf done unsupported).output = [] := by
  unfold execute at h ⊢
  repeat' split
  all_goals simp_all

end Backend

theorem Worker.fits_note (w : Worker) (dm : DispatchMsg) : Fits (w.execute dm).note := by
  unfold execute
  split
  case isTrue  => exact BackendRequest.fits_note (by split <;> decide) (by decide)
  case isFalse => exact BackendRequest.fits_note (by decide) (by decide)

theorem Worker.output_of_not_ok (w : Worker) (dm : DispatchMsg) (h : ¬(w.execute dm).ok) :
    (w.execute dm).output = [] := by
  unfold execute at h ⊢
  split
  case isTrue hs =>
    rw [if_pos hs] at h
    exact BackendRequest.output_of_not_ok h
  case isFalse hs =>
    rw [if_neg hs] at h
    exact BackendRequest.output_of_not_ok h

-- What a worker makes of a dispatch is honest, and the coordinator can read it.
theorem DispatchMsg.Genuine.resultMsg (h : dm.Genuine st) (w : Worker) :
    (Worker.resultMsg dm.received (w.execute dm.received)).Honest st ∧
    (Worker.resultMsg dm.received (w.execute dm.received)).Normal := by
  obtain ⟨op, c, ha, hc, hp⟩ := h.asks
  have hn : 255 * dm.received.payload.length < 2 ^ 64 := by
    have := h.length_payload
    show 255 * dm.payload.length < 2 ^ 64
    omega
  have computes (hok : (w.execute dm.received).ok) :
      (w.execute dm.received).Computes (reduction c dm.payload) :=
    w.execute_computes hc ha.mem hn hok
  constructor
  case left =>
    refine ⟨fun hu => ⟨op, c, ha, ?_⟩⟩
    have hok : (w.execute dm.received).ok := by simpa [Worker.resultMsg] using hu
    exact hp ▸ (computes hok).2.1
  case right =>
    refine ⟨?_, ?_, w.fits_note _⟩
    · show Fits (w.execute dm.received).output
      by_cases hok : (w.execute dm.received).ok
      case pos =>
        rw [(computes hok).2.1]
        exact (length_reduction ha.mem _).trans (by decide)
      case neg =>
        rw [w.output_of_not_ok _ hok]
        decide
    · show (toHex _).length ≤ _
      simp [toHex, kMaxCodecBlobBytes]

end Execution

-- Targets do what workers advertise, plans are for such operations, and what is recorded as
-- committed is right.
structure RuntimeState.Trusted (st : RuntimeState) : Prop where
  targets : st.targets.All fun _ tdef => tdef.supportedOps ⊆ advertised.map Raw.member
  plans   : st.plans.All fun p plan => plan.lifecycle.live → ∃ op c, st.Asks p op c
  results : st.results.All fun _ res =>
    res.committed → st.Confirms res.plan res.outputBytes res.outputDigest

-- Neither a worker nor the identity source misleads the coordinator.
def Op.Sincere (st : RuntimeState) : Op → Prop
  | plan id _               => id ∉ st.plans
  | applyRegisterTarget msg => msg.ops ⊆ advertised.map Raw.member
  | applyResult _ msg       => msg.Honest st
  | _                       => True

theorem applyResult_intact {st : RuntimeState} {rid : ResultId} {msg : ResultMsg}
    {r : ExecutionResult} (h : (applyResult rid msg st).fst = .ok r) (hc : r.committed) :
    msg.unknown = false ∧ intact msg := by
  simp only [applyResult] at h
  split at h
  case h_1 => contradiction
  case h_2 =>
    split at h
    case h_1 => contradiction
    case h_2 =>
      split_ifs at h with hu hi
      · cases h
        contradiction
      · cases h
        contradiction
      · exact ⟨by simpa using hu, by simpa using hi⟩

-- The result of an honest completion is right if it is committed.
theorem ResultMsg.Honest.confirms {st : RuntimeState} {rid : ResultId} {msg : ResultMsg}
    {r : ExecutionResult} (hm : msg.Honest st) (h : (applyResult rid msg st).fst = .ok r)
    (hc : r.committed) : r.plan = msg.plan ∧ st.Confirms r.plan r.outputBytes r.outputDigest := by
  have ⟨hu, hi⟩ := applyResult_intact h hc
  obtain ⟨_, _, _, rfl⟩ := applyResult_committed h hc
  exact ⟨rfl, msg.output, hm.output hu, rfl, (of_decide_eq_true hi).symm⟩

section Stability

variable [Platform] {st : RuntimeState} {op : Op} {p : ExecutionPlanId}

-- Neither the operation of a plan nor what the operation says ever changes.
theorem RuntimeState.Asks.step {spec : OperationSpec} {c : OperationClass} (h : st.Asks p spec c)
    (hs : op.served) (ht : op.Sincere st) : (step op st).snd.Asks p spec c := by
  obtain ⟨plan, hp, ho⟩ := h.operation
  have hl : ¬(op.loads ∧ (Coordinator.step op st).fst.succeeded) := Op.served.not_loads hs
  have hn : ∀ o, op ≠ .plan p o := by
    rintro o rfl
    exact ht (Table.mem_of_some hp)
  obtain ⟨plan', hp', he⟩ := (step_refines op st).evolves hl hn hp
  refine ⟨⟨plan', hp', ?_⟩, h.opClass, h.mem⟩
  rw [he.operation]
  exact ((step_registry op st).retains hl).operations ho

theorem RuntimeState.Answers.step {output : Bytes} (h : st.Answers p output) (hs : op.served)
    (ht : op.Sincere st) : (step op st).snd.Answers p output := by
  obtain ⟨spec, c, ha, he⟩ := h
  exact ⟨spec, c, ha.step hs ht, he⟩

theorem RuntimeState.Confirms.step {outputBytes : UInt64} {outputDigest : Bytes}
    (h : st.Confirms p outputBytes outputDigest) (hs : op.served) (ht : op.Sincere st) :
    (step op st).snd.Confirms p outputBytes outputDigest := by
  obtain ⟨output, ha, he⟩ := h
  exact ⟨output, ha.step hs ht, he⟩

theorem DispatchMsg.Genuine.step {dm : DispatchMsg} (h : dm.Genuine st) (hs : op.served)
    (ht : op.Sincere st) : dm.Genuine (step op st).snd := by
  obtain ⟨spec, c, ha, he⟩ := h.asks
  exact ⟨⟨spec, c, ha.step hs ht, he⟩, h.program⟩

theorem ResultMsg.Honest.step {m : ResultMsg} (h : m.Honest st) (hs : op.served)
    (ht : op.Sincere st) : m.Honest (step op st).snd :=
  ⟨fun hu => (h.output hu).step hs ht⟩

end Stability

namespace RuntimeState.Trusted

variable [Platform] {st : RuntimeState} {op : Op} (h : st.Trusted) (hs : op.served)
         (ht : op.Sincere st)

include h hs ht

theorem targets_step : (step op st).snd.targets.All fun _ tdef =>
    tdef.supportedOps ⊆ advertised.map Raw.member := by
  have hg := step_registry op st
  generalize Coordinator.step op st = next at hg
  obtain ⟨out, st'⟩ := next
  suffices st'.registry.targets.All fun _ tdef =>
    tdef.supportedOps ⊆ advertised.map Raw.member from this
  generalize st'.registry = reg at hg
  cases hg
  case target msg => exact h.targets.insert ht
  case lookup t =>
    by_cases hm : t ∈ st.targets
    case pos =>
      obtain ⟨tdef, hm⟩ := Table.exists_of_mem hm
      show Table.All _ (Table.subscript st.targets t).snd
      rw [Table.subscript_snd_of_some _ _ hm]
      exact h.targets
    case neg =>
      show Table.All _ (Table.subscript st.targets t).snd
      rw [Table.subscript_snd_of_notMem _ _ hm]
      exact h.targets.insert (List.nil_subset _)
  case load => contradiction
  all_goals exact h.targets

theorem plans_step (hr : Resolvable st) : (step op st).snd.plans.All fun p plan =>
    plan.lifecycle.live → ∃ spec c, (step op st).snd.Asks p spec c := by
  intro p plan hp hl
  rcases step_live_origin op hp hl with ⟨o, sel, rfl, rfl, he⟩ | ⟨plan₀, hp₀, he⟩
  · have hc := (sel.hardFilter_eq_nil he).1.operation
    obtain ⟨c, hm, hc⟩ := List.mem_map.mp (h.targets sel.targets_eq hc)
    refine ⟨sel.op, c, ⟨⟨_, hp, ?_⟩, hc.symm, hm⟩⟩
    apply ((step_registry _ st).retains (Op.served.not_loads hs)).operations
    exact (Grounded.create sel p he hr.operations).operation
  · obtain ⟨spec, c, ha⟩ := h.plans hp₀ (he.lifecycle.live hl)
    exact ⟨spec, c, ha.step hs ht⟩

theorem results_step : (step op st).snd.results.All fun _ res =>
    res.committed → (step op st).snd.Confirms res.plan res.outputBytes res.outputDigest := by
  refine (step_refines op st).all_results ?complete ?load ?keep
  case complete =>
    rintro id msg res rfl ho hc
    exact (ResultMsg.Honest.confirms ht (Outcome.result.inj ho) hc).2.step hs ht
  case load =>
    rintro file _ rfl
    contradiction
  case keep => exact fun id res hres hc => (h.results hres hc).step hs ht

theorem step (hr : Resolvable st) : (step op st).snd.Trusted where
  targets := h.targets_step hs ht
  plans   := h.plans_step hs ht hr
  results := h.results_step hs ht

end RuntimeState.Trusted

end NMC
