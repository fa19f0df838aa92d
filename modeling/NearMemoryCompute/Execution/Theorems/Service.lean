import NearMemoryCompute.Execution.Theorems.Incarnations
import NearMemoryCompute.Execution.Theorems.Cluster

namespace NMC

open Coordinator Reader Writer

namespace RuntimeState

variable {st st' : RuntimeState}

-- The plans have been swept, and the operations restored, in a way that does not matter for what
-- has to be computed.
structure Image (st st' : RuntimeState) (f : ExecutionPlan → ExecutionPlan)
    (g : OperationSpec → OperationSpec) : Prop where
  targets    : st'.targets = st.targets
  plans      : st'.plans = st.plans.map fun _ => f
  operations : st'.operations = st.operations.map fun _ => g
  results    : st'.results = st.results
  swept      : ∀ plan, ExecutionPlan.Swept plan (f plan)
  opClass    : ∀ op, (g op).opClass = op.opClass
  payload    : ∀ op, buildSamplePayload (g op) = buildSamplePayload op

namespace Image

variable {f : ExecutionPlan → ExecutionPlan} {g : OperationSpec → OperationSpec}
         (hi : Image st st' f g) {p : ExecutionPlanId}

include hi

theorem asks {op : OperationSpec} {c : OperationClass} (h : st.Asks p op c) :
    st'.Asks p (g op) c := by
  obtain ⟨plan, hp, ho⟩ := h.operation
  refine ⟨⟨f plan, by simp [hi.plans, hp], ?_⟩, (hi.opClass op).trans h.opClass, h.mem⟩
  rw [hi.operations, (hi.swept plan).evolves.operation]
  simp [ho]

theorem confirms {outputBytes : UInt64} {outputDigest : Bytes}
    (h : st.Confirms p outputBytes outputDigest) : st'.Confirms p outputBytes outputDigest := by
  obtain ⟨output, ⟨op, c, ha, he⟩, ho⟩ := h
  exact ⟨output, ⟨g op, c, hi.asks ha, by rw [hi.payload, he]⟩, ho⟩

theorem trusted (h : st.Trusted) : st'.Trusted where
  targets := hi.targets ▸ h.targets
  plans   := by
    intro p plan' hp hl
    rw [hi.plans] at hp
    obtain ⟨plan, hq, rfl⟩ := Table.getElem?_map_eq_some hp
    obtain ⟨op, c, ha⟩ := h.plans hq ((hi.swept plan).evolves.lifecycle.live hl)
    exact ⟨g op, c, hi.asks ha⟩
  results := hi.results ▸ fun _ _ hr hc => hi.confirms (h.results hr hc)

end Image

theorem image_nextEpoch (st : RuntimeState) :
    Image st st.nextEpoch ExecutionPlan.onEpoch id where
  targets    := rfl
  plans      := rfl
  operations := (Table.map_eq_self fun _ _ _ => rfl).symm
  results    := rfl
  swept _    := ExecutionPlan.swept_onEpoch
  opClass _  := rfl
  payload _  := rfl

theorem image_recover (st : RuntimeState) :
    Image st st.durable.rebuilt.recover ExecutionPlan.onEpoch OperationSpec.rebuilt where
  targets    := rfl
  plans      := by rw [recover_eq]; rfl
  operations := rfl
  results    := rfl
  swept _    := ExecutionPlan.swept_onEpoch
  opClass _  := rfl
  payload _  := rfl

theorem Trusted.advanceWhile (h : st.Trusted) (epoch : UInt64) :
    (advanceWhile epoch st).Trusted := by
  induction st using advanceWhile.induct epoch
  case case1 st hlt hi =>
    rw [NMC.advanceWhile, if_pos hlt]
    exact hi ((image_nextEpoch st).trusted h)
  case case2 st hlt => rwa [NMC.advanceWhile, if_neg hlt]

end RuntimeState

-- The file has been written by a coordinator that was not misled, and can be read back.
def Backed (bytes : Bytes) : Prop :=
  ∃ st : RuntimeState, st.Trusted ∧ st.Meets .keyed ∧ st.SelfNamed ∧ st.Bounded ∧ st.Unbound ∧
    Coordinator.save .replaced st = some (.ok bytes)

namespace Launch

theorem trusted_new (l : Launch) :
    (attachCoordinator l.attached (init l.constructed)).snd.Trusted where
  targets := .empty
  plans   := .empty
  results := .empty

theorem trusted (l : Launch) {file : Option Bytes} (hb : ∀ bytes ∈ file, Backed bytes)
    (hr : ∀ bytes ∈ file, l.read bytes = .contents bytes) : (l.coordinator file).Trusted := by
  have hrec : (l.recovered file).Trusted := by
    cases file
    case none => exact l.trusted_new
    case some bytes =>
      simp only [recovered]
      split
      case isFalse => exact l.trusted_new
      case isTrue =>
        obtain ⟨st, ht, hk, hn, hbd, hu, hs⟩ := hb bytes rfl
        rw [hr bytes rfl, load_of_saved (hbd.storable hk) hn hu.persists hs]
        exact st.image_recover.trusted ht
  unfold coordinator
  split
  case isTrue  => exact hrec.advanceWhile _
  case isFalse => exact hrec

end Launch

theorem Output.told_eq_some {out : Output} {c : ConnectionId} {reply : ClientReplyMsg} :
    out.told = some (c, reply) ↔ out = .reply c reply := by
  cases out <;> simp [told]

namespace Cluster

-- What the process has written and what it is about to write is right.
structure Backed (s : Cluster) : Prop where
  copies : ∀ {c st}, s.node.Has Handler.copy c st → st.Trusted
  file   : ∀ bytes ∈ s.node.file, NMC.Backed bytes

-- The state that is written in a step.
def writes (s : Cluster) : Input → Option RuntimeState
  | .proceed c sent disk => s.node.writes (.proceed c sent disk)
  | _                    => none

theorem writes_of_arrival {s : Cluster} {input : Input} {arrived : NMC.Input}
    {peers : Table ConnectionId Peer} {st : RuntimeState} (h : Arrival s input arrived peers)
    (hw : s.node.writes arrived = some st) : s.writes input = some st := by
  cases h
  case proceed => exact hw
  all_goals contradiction

namespace Incarnation

-- The process reads what has been written, draws identities that are not in use, and what it writes
-- itself can be read back.
structure Regular [Platform] (i : Incarnation) (file : Option Bytes) : Prop where
  read     : ∀ bytes ∈ file, i.launch.read bytes = .contents bytes
  fresh    : Machine.EachStep (fun past input =>
    (machine.after (i.start file) past).fresh input) i.inputs
  readable : Machine.EachStep (fun past input =>
    ∀ st ∈ (machine.after (i.start file) past).writes input, st.Bounded ∧ st.Unbound) i.inputs

variable [Platform] (i : Incarnation) (file : Option Bytes)

-- The process of the coordinator behaves as one on its own.
theorem exists_run (past : List Input) : ∃ run, (machine.after (i.start file) past).node =
    Node.machine.after (i.launch.start file) run := by
  induction past
  case nil => exact ⟨[], rfl⟩
  case cons input past hi =>
    obtain ⟨run, he⟩ := hi
    rcases step_node input (machine.after (i.start file) past) with hs | ⟨arrived, _, _, _, hs⟩
    · exact ⟨run, hs.trans he⟩
    · exact ⟨arrived :: run, hs.trans (by rw [he]; rfl)⟩

variable {i file} (hr : i.Regular file)

include hr

theorem Regular.sound (hb : ∀ bytes ∈ file, NMC.Backed bytes) {past : List Input}
    (hp : past <:+ i.inputs) : (machine.after (i.start file) past).Sound :=
  machine.invariant_of_eachStep (I := fun _ s => s.Sound) (i.start file)
    (.start i.launch file (i.launch.trusted hb hr.read))
    (fun _ input hf hs => hs.step input hf) (hr.fresh.suffix hp)

theorem Regular.backed (hb : ∀ bytes ∈ file, NMC.Backed bytes) {past : List Input}
    (hp : past <:+ i.inputs) : (machine.after (i.start file) past).Backed := by
  induction past
  case nil =>
    refine ⟨?_, hb⟩
    rintro c st ⟨conn, hc, _⟩
    simp [Machine.after, start, Launch.start] at hc
  case cons input past hi =>
    have hp' := (List.suffix_cons input past).trans hp
    obtain ⟨hcopies, hfile⟩ := hi hp'
    rcases step_node input (machine.after (i.start file) past) with he | ⟨arrived, _, ha, _, he⟩
    · exact ⟨he ▸ hcopies, he ▸ hfile⟩
    obtain ⟨op, hst⟩ := Node.step_cases arrived (machine.after (i.start file) past).node
    rw [← he] at hst
    constructor
    case copies =>
      intro c st hc
      rcases hst.copy_origin hc with hc | rfl
      · exact hcopies hc
      · exact (hr.sound hb hp').node.trusted
    case file =>
      rcases hst.file_origin with hf | ⟨c, st, bytes, hc, hw, hs, hf⟩
      · exact hf ▸ hfile
      · intro bytes' hb'
        cases hf.symm.trans hb'
        obtain ⟨run, hrun⟩ := i.exists_run file past
        have hre : i.launch.Reaches file st := Launch.reaches_of_copy (hrun ▸ hc)
        obtain ⟨hbd, hu⟩ := hr.readable hp st (writes_of_arrival ha hw)
        exact ⟨st, hcopies hc, hre.keyed, hre.named, hbd, hu, hs⟩

-- What a client has been told stays right.
theorem Regular.confirms (hb : ∀ bytes ∈ file, NMC.Backed bytes) {c : ConnectionId}
    {reply : ClientReplyMsg} (hm : (c, reply) ∈ i.replies file) (hc : reply.committed) :
    (i.cluster file).node.coord.Confirms reply.plan reply.outputBytes reply.outputDigest := by
  obtain ⟨e, he, ho⟩ := List.mem_filterMap.mp hm
  obtain ⟨input, past, hs, rfl⟩ := machine.mem_events (i.start file) he
  have hp := (List.suffix_cons input past).trans hs
  have hrep : (step input (machine.after (i.start file) past)).fst = .reply c reply :=
    Output.told_eq_some.mp ho
  refine machine.stable_of_eachStep (C := fun past input => input :: past <:+ i.inputs)
    (P := fun s => s.node.coord.Confirms reply.plan reply.outputBytes reply.outputDigest)
    (i.start file) ?step (fun _ _ hs => hs) hp ((hr.sound hb hp).right_of_reply hrep hc)
  intro past input hs hco
  have hsound := hr.sound hb ((List.suffix_cons input past).trans hs)
  rcases step_node input (machine.after (i.start file) past) with he | ⟨arrived, _, ha, _, he⟩
  · exact he ▸ hco
  · obtain ⟨op, hst⟩ := Node.step_cases arrived (machine.after (i.start file) past).node
    rw [← he] at hst
    exact hst.right (hsound.sincere ha (hr.fresh hs)) (fun _ => hco) hc

end Incarnation

-- Every process starts from a file that has been written by a process that was not misled.
theorem backed_after [Platform] {history : List Incarnation}
    (hc : Machine.EachStep (fun past i => i.Regular (service.after none past)) history) :
    ∀ bytes ∈ service.after none history, NMC.Backed bytes :=
  service.invariant_of_eachStep (I := fun _ file => ∀ bytes ∈ file, NMC.Backed bytes) none
    (by simp) (fun _ _ hr hb => (hr.backed hb (List.suffix_refl _)).file) hc

end Cluster

-- Whatever a client is told to be committed, in this process or in an earlier one, is what the
-- operation comes to.
theorem committed_is_computed [Platform] (history : List Cluster.Incarnation)
    (hc : Machine.EachStep (fun past i => i.Regular (Cluster.service.after none past)) history) :
    ∀ (i : Cluster.Incarnation) (past : List Cluster.Incarnation), i :: past <:+ history →
    ∀ (c : ConnectionId) (reply : ClientReplyMsg),
      (c, reply) ∈ i.replies (Cluster.service.after none past) → reply.committed →
      let st := (i.cluster (Cluster.service.after none past)).node.coord
      ∃ (plan : ExecutionPlan) (op : OperationSpec) (cls : OperationClass),
        st.plans[reply.plan]? = some plan ∧ st.operations[plan.operation]? = some op ∧
        op.opClass = cls ∧
        reply.outputBytes = .ofNat (reduction cls (buildSamplePayload op)).length ∧
        reply.outputDigest = toHex (contentDigest (reduction cls (buildSamplePayload op))) := by
  intro i past hs c reply hm hco st
  have hr := hc hs
  have hb := Cluster.backed_after (hc.suffix ((List.suffix_cons i past).trans hs))
  obtain ⟨output, ⟨op, cls, ha, rfl⟩, ho, hd⟩ := hr.confirms hb hm hco
  obtain ⟨plan, hp, hop⟩ := ha.operation
  exact ⟨plan, op, cls, hp, hop, ha.opClass, ho, hd⟩

-- A worker joins, and a client has an operation planned and carried out.
namespace Cluster.Deployment

open NMC.Deployment

def worker : Worker where
  worker  := { value := 1 }
  boot    := { value := 1 }
  target  := { value := 1 }
  latency := 0

def operation : OperationSpec :=
  { NMC.Deployment.operation { value := 1 } with
    dataset          := worker.dataset
    region           := worker.region
    regionGeneration := { value := 1 }
    inputBytes       := 64 }

-- The steps up to where the plan `10` exists, the latest one first.
def planned : List Input := [
  .request 2 .clientPlan (encodeClientPlan { op := { value := 1 } }) { plan := { value := 10 } },
  .request 2 .clientRegisterOperation (encodeClientRegisterOp { op := operation }) {},
  .visit 2,
  .deliver 1 {},
  .deliver 1 {},
  .deliver 1 { evidence := { value := 1 } },
  .deliver 1 {},
  .proceed 1 true .replaced,
  .deliver 1 {},
  .join 1 worker]

-- The plan is sent to the worker, and its result gets back to the coordinator.
def answered : List Input :=
  .deliver 1 { result := { value := 40 } } ::
  .work 1 ::
  List.replicate 6 (.proceed 2 true .replaced) ++
  .request 2 .clientDispatch (encodeClientDispatch { plan := { value := 10 } })
    { dispatch := { value := 20 }, attempt := { value := 30 } } ::
  planned

def serving : Incarnation where
  launch := { persist := ascii "state" }
  inputs := .proceed 2 true .replaced :: List.replicate 3 (.proceed 1 true .replaced) ++ answered

theorem serving_regular : serving.Regular none where
  read     := by simp
  fresh    := by decide +kernel
  readable := by
    have idle {past : List Input} {input : Input}
        (h : (machine.after (serving.start none) past).writes input = none) :
        ∀ st ∈ (machine.after (serving.start none) past).writes input, st.Bounded ∧ st.Unbound := by
      simp [h]
    -- The second step after the result has arrived writes the state.
    refine Machine.eachStep_cons.mpr ⟨idle (by decide +kernel), Machine.eachStep_cons.mpr
      ⟨idle (by decide +kernel), Machine.eachStep_cons.mpr ⟨?writing, ?before⟩⟩⟩
    case writing =>
      let copied := machine.after (serving.start none) (.proceed 1 true .replaced :: answered)
      have hst : ((copied.writes (.proceed 1 true .replaced)).getD (init {})).Storable := by
        decide +kernel
      have hu : ((copied.writes (.proceed 1 true .replaced)).getD (init {})).Unbound :=
        RuntimeState.unbound_iff.mpr (by decide +kernel)
      intro st hw
      change copied.writes _ = some st at hw
      rw [hw] at hst hu
      exact ⟨hst.bounded, hu⟩
    case before =>
      have hn : Machine.EachStep (fun past input =>
          (machine.after (serving.start none) past).writes input = none)
          (.proceed 1 true .replaced :: answered) := by
        decide +kernel
      exact fun _ _ hs => idle (hn hs)

end Cluster.Deployment

open Cluster.Deployment NMC.Deployment in
theorem committed_is_computed_of_deployment :
    ∃ c reply, (c, reply) ∈ serving.replies none ∧ reply.committed ∧
      ∃ (plan : ExecutionPlan) (op : OperationSpec) (cls : OperationClass),
        (serving.cluster none).node.coord.plans[reply.plan]? = some plan ∧
        (serving.cluster none).node.coord.operations[plan.operation]? = some op ∧
        op.opClass = cls ∧
        reply.outputDigest = toHex (contentDigest (reduction cls (buildSamplePayload op))) := by
  have hr : (serving.replies none).any (·.snd.committed) := by decide +kernel
  obtain ⟨⟨c, reply⟩, hm, hco⟩ := List.any_eq_true.mp hr
  have hc : Machine.EachStep (fun past i => i.Regular (Cluster.service.after none past))
      [serving] :=
    Machine.eachStep_cons.mpr ⟨serving_regular, Machine.eachStep_nil⟩
  have h := committed_is_computed _ hc serving [] (List.suffix_refl _) c reply
  rw [show Cluster.service.after none [] = none from rfl] at h
  obtain ⟨plan, op, cls, hp, ho, hcl, _, hd⟩ := h hm hco
  exact ⟨c, reply, hm, hco, plan, op, cls, hp, ho, hcl, hd⟩

end NMC
