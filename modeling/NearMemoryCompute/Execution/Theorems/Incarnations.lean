import NearMemoryCompute.Execution.Theorems.Durability
import NearMemoryCompute.Execution.Theorems.Node

namespace NMC

open Coordinator

theorem save_eq_ok {disk : Disk} {st : RuntimeState} {bytes : Bytes}
    (h : Coordinator.save disk st = some (.ok bytes)) : disk = .replaced := by
  have ⟨payload, _, hb⟩ := Option.bind_eq_some_iff.mp h
  have hb := Option.some.inj hb
  cases hp : PersistentStore.buildEnvelope payload <;> rw [PersistentStore.save, hp] at hb
  case error => cases hb
  case ok    => cases disk <;> first | rfl | cases hb

-- The state that a handler is about to write.
def Handler.copy : Handler → Option RuntimeState
  | replace _ _ copy => some copy
  | _                => none

theorem Handler.copy_moved : Moved copy := {}

namespace Node

-- The state that a step writes to the file.
def writes (node : Node) : Input → Option RuntimeState
  | .proceed c _ .replaced => node.connections[c]?.bind (·.handler.copy)
  | _                      => none

@[simp]
theorem resolveDispatch_file (node : Node) (d : DispatchId) (reply : ClientReplyMsg) :
    (node.resolveDispatch d reply).file = node.file := by
  unfold resolveDispatch
  split <;> rfl

section Step

variable {node node' : Node} {c : ConnectionId} {conn : Connection} {input : Input}
         {op : Option Op} {handler : Handler} {st : RuntimeState} {bytes : Bytes}

theorem Move.copy_origin (h : Move node c conn input op handler) (hr : handler.copy = some st) :
    st = node.coord := by
  cases h
  case copy =>
    cases hr
    rfl
  all_goals contradiction

theorem has_of_writes (h : node.writes input = some st) : ∃ c, node.Has Handler.copy c st := by
  unfold writes at h
  split at h
  case h_1 c _ =>
    have ⟨conn, hc, hcp⟩ := Option.bind_eq_some_iff.mp h
    exact ⟨c, conn, hc, hcp⟩
  case h_2 => cases h

variable [Platform]

theorem Step.copy_origin (h : Step node input op node') (hr : node'.Has Handler.copy c st) :
    node.Has Handler.copy c st ∨ st = node.coord := by
  rcases h.origin Handler.copy_moved hr with hr | ⟨_, _, _, hm, hn⟩
  · exact .inl hr
  · exact .inr (hm.copy_origin hn)

-- The file stays as it is, or it is what comes of writing a copy.
theorem Step.file_origin (h : Step node input op node') :
    node'.file = node.file ∨
    ∃ c st bytes, node.Has Handler.copy c st ∧ node.writes input = some st ∧
      Coordinator.save .replaced st = some (.ok bytes) ∧ node'.file = some bytes := by
  cases h
  case replace c conn _ _ st _ _ res hc hh hs =>
    cases res
    case error => exact .inl rfl
    case ok bytes =>
      cases save_eq_ok hs
      have hcp : conn.handler.copy = some st := by simp [hh, Handler.copy]
      exact .inr ⟨c, st, bytes, ⟨conn, hc, hcp⟩, by simp [writes, hc, hcp], hs, rfl⟩
  case resolve => exact .inl (resolveDispatch_file ..)
  case fail    => exact .inl (resolveDispatch_file ..)
  all_goals exact .inl rfl

theorem file_of_writes (h : node.writes input = some st)
    (hs : Coordinator.save .replaced st = some (.ok bytes)) :
    (step input node).snd.file = some bytes := by
  unfold writes at h
  split at h
  case h_2 => cases h
  case h_1 c sent =>
    have ⟨conn, hc, hcp⟩ := Option.bind_eq_some_iff.mp h
    cases hh : conn.handler <;> rw [hh] at hcp <;> try contradiction
    cases hcp
    simp only [step, hc, Node.proceed, hh, hs]
    rfl

end Step
end Node

-- The loop never takes the epoch back.
theorem le_advanceWhile (epoch : UInt64) (st : RuntimeState) :
    st.epoch.value ≤ (advanceWhile epoch st).epoch.value := by
  induction st using advanceWhile.induct epoch
  case case1 st h hi =>
    rw [advanceWhile, if_pos h]
    refine UInt64.le_trans ?_ hi
    have hn : (advanceEpoch st).snd.epoch.value.toNat = st.epoch.value.toNat + 1 :=
      UInt64.toNat_add_one_of_lt h
    rw [UInt64.le_iff_toNat_le, hn]
    exact Nat.le_succ _
  case case2 st h =>
    rw [advanceWhile, if_neg h]
    exact UInt64.le_refl _

namespace Launch

-- The process has the file, and gets to know what is in it.
structure Reads (l : Launch) (file : Option Bytes) : Prop where
  persist : l.persist ≠ []
  read    : ∀ bytes ∈ file, l.read bytes = .contents bytes

-- A state in which the coordinator of the process may be.
structure Reaches (l : Launch) (file : Option Bytes) (st : RuntimeState) : Prop where
  epoch : st.epoch = (l.coordinator file).epoch
  keyed : st.Meets .keyed
  named : st.SelfNamed

-- The process has written a state that can be read back.
def Saved (l : Launch) (file : Option Bytes) (bytes : Bytes) : Prop :=
  ∃ st, l.Reaches file st ∧ st.Bounded ∧ st.Unbound ∧
    Coordinator.save .replaced st = some (.ok bytes)

variable {l l' : Launch} {file : Option Bytes} {bytes : Bytes}

theorem le_coordinator (l : Launch) (file : Option Bytes) :
    (l.recovered file).epoch.value ≤ (l.coordinator file).epoch.value := by
  unfold coordinator
  split
  case isTrue  => exact le_advanceWhile _ _
  case isFalse => exact UInt64.le_refl _

theorem Saved.recovered_epoch (h : l.Saved file bytes) (hr : l'.Reads (some bytes)) :
    (l'.recovered (some bytes)).epoch.value = (l.coordinator file).epoch.value + 1 := by
  have ⟨st, hst, hb, hu, hs⟩ := h
  have hl := load_of_saved (hb.storable hst.keyed) hst.named hu.persists hs
  simp only [recovered, if_pos hr.persist, hr.read bytes rfl, hl]
  exact congrArg (·.value + 1) hst.epoch

-- Whoever reads what a process has written starts with a later epoch.
theorem Saved.epoch_lt (h : l.Saved file bytes) (hr : l'.Reads (some bytes))
    (he : (l.coordinator file).epoch.value ≠ 0xFFFFFFFFFFFFFFFF) :
    (l.coordinator file).epoch.value < (l'.coordinator (some bytes)).epoch.value := by
  have hle := l'.le_coordinator (some bytes)
  rw [h.recovered_epoch hr] at hle
  exact UInt64.lt_of_lt_of_le (UInt64.lt_add_one_of_ne he) hle

section Run

variable [Platform]

theorem reaches_after (l : Launch) (file : Option Bytes) (run : List Input) :
    l.Reaches file (Node.machine.after (l.start file) run).coord := by
  have hc : Machine.EachStep (fun _ _ => True) run := fun _ _ _ => trivial
  have ⟨ops, _, he⟩ := Node.exists_run l file (P := fun _ => True) (fun _ _ => trivial)
    (fun _ _ _ _ _ _ => trivial) hc
  exact ⟨Node.epoch_after .., he ▸ keyed_after _ ops, he ▸ selfNamed_after _ ops⟩

-- Copies are taken from the coordinator.
theorem reaches_of_copy {run : List Input} {c : ConnectionId} {st : RuntimeState}
    (h : (Node.machine.after (l.start file) run).Has Handler.copy c st) : l.Reaches file st := by
  induction run
  case nil =>
    obtain ⟨conn, hc, _⟩ := h
    simp [Machine.after, start] at hc
  case cons input run hi =>
    obtain ⟨_, hs⟩ := Node.step_cases input (Node.machine.after (l.start file) run)
    rcases hs.copy_origin h with h | rfl
    · exact hi h
    · exact l.reaches_after file run

end Run
end Launch

namespace Incarnation

-- The process has written its state, and whatever it has written can be read back.
structure Durable [Platform] (i : Incarnation) (file : Option Bytes) : Prop where
  epoch    : (i.launch.coordinator file).epoch.value ≠ 0xFFFFFFFFFFFFFFFF
  written  : ∃ input past st bytes, input :: past <:+ i.inputs ∧
    (Node.machine.after (i.launch.start file) past).writes input = some st ∧
    Coordinator.save .replaced st = some (.ok bytes)
  readable : Machine.EachStep (fun past input =>
    ∀ st ∈ (Node.machine.after (i.launch.start file) past).writes input,
      st.Bounded ∧ st.Unbound) i.inputs

variable [Platform] {i : Incarnation} {file : Option Bytes}

theorem node_epoch : (i.node file).coord.epoch = (i.launch.coordinator file).epoch :=
  Node.epoch_after ..

theorem Durable.saved (h : i.Durable file) :
    ∃ bytes, (i.node file).file = some bytes ∧ i.launch.Saved file bytes := by
  have ⟨input, past, st, bytes, hs, hw, hb⟩ := h.written
  refine Node.machine.stable_of_eachStep (i.launch.start file)
    (P := fun node => ∃ bytes, node.file = some bytes ∧ i.launch.Saved file bytes)
    ?step h.readable hs ?start
  case start =>
    have ⟨c, hc⟩ := Node.has_of_writes hw
    have ⟨hbd, hu⟩ := h.readable hs st hw
    exact ⟨bytes, Node.file_of_writes hw hb, st, Launch.reaches_of_copy hc, hbd, hu, hb⟩
  case step =>
    intro past input hr ⟨bytes, hf, hsv⟩
    have ⟨_, hst⟩ := Node.step_cases input (Node.machine.after (i.launch.start file) past)
    rcases hst.file_origin with he | ⟨c, st, bytes', hc, hw, hb, he⟩
    · exact ⟨bytes, he.trans hf, hsv⟩
    · have ⟨hbd, hu⟩ := hr st hw
      exact ⟨bytes', he, st, Launch.reaches_of_copy hc, hbd, hu, hb⟩

end Incarnation

section Processes

variable [Platform] (file : Option Bytes) (i : Incarnation) (past : List Incarnation)

theorem processes_after_cons :
    processes.after file (i :: past) = (i.node (processes.after file past)).file :=
  rfl

theorem processes_epochs_cons :
    (processes.events file (i :: past)).map (·.output.value) =
      (i.node (processes.after file past)).coord.epoch.value ::
        (processes.events file past).map (·.output.value) :=
  rfl

end Processes

-- Every process runs in a later epoch than all the processes before, if each of them has made its
-- own epoch known.
theorem epochs_increase [Platform] (file : Option Bytes) (history : List Incarnation)
    (hc : Machine.EachStep (fun past i => ∀ j past', past = j :: past' →
      j.Durable (processes.after file past') ∧ i.launch.Reads (processes.after file past))
      history) :
    ((processes.events file history).map (·.output.value)).Pairwise (· > ·) := by
  apply List.isChain_iff_pairwise.mp
  induction history
  case nil => exact .nil
  case cons i past hi =>
    have ⟨hci, hcs⟩ := Machine.eachStep_cons.mp hc
    cases past
    case nil => exact .singleton _
    case cons j past =>
      rw [processes_epochs_cons, processes_epochs_cons]
      refine .cons_cons ?_ (hi hcs)
      have ⟨hd, hr⟩ := hci j past rfl
      have ⟨bytes, hf, hs⟩ := hd.saved
      rw [← processes_after_cons] at hf
      rw [hf] at hr ⊢
      have hlt := hs.epoch_lt hr hd.epoch
      rwa [← Incarnation.node_epoch, ← Incarnation.node_epoch] at hlt

-- A process that commits the plan `10` and writes its state, and one that does nothing.
namespace Deployment

open Writer

def launch : Launch where
  persist := ascii "state"

-- The completion is applied, and its handler takes a copy.
def completed : List Input :=
  .proceed 1 true .replaced ::
  .receive 1 .result (encodeResult completion) { result := { value := 40 } } ::
  (request 6 ++ service)

def committing : Incarnation where
  launch := launch
  inputs := .proceed 1 true .replaced :: completed

def idle : Incarnation where
  launch := launch

theorem committing_durable : committing.Durable none where
  epoch   := by decide
  written := by
    have hw : ((Node.machine.after (launch.start none) completed).writes
        (.proceed 1 true .replaced)).any fun st =>
        (encodeState st).any (·.length ≤ PersistentStore.kMaxPayload) := by
      decide +kernel
    have ⟨st, hw, hm⟩ := (Option.any_eq_true _ _).mp hw
    have ⟨payload, he, hl⟩ := (Option.any_eq_true _ _).mp hm
    have ⟨bytes, hb, _⟩ := save_of_encodeState he (of_decide_eq_true hl)
    exact ⟨_, completed, st, bytes, List.suffix_refl _, hw, hb⟩
  readable := by
    refine Machine.eachStep_cons.mpr ⟨?last, ?before⟩
    case last =>
      have hst : (((Node.machine.after (launch.start none) completed).writes
          (.proceed 1 true .replaced)).getD (init {})).Storable := by
        constructor <;> decide +kernel
      have hu : (((Node.machine.after (launch.start none) completed).writes
          (.proceed 1 true .replaced)).getD (init {})).Unbound :=
        RuntimeState.unbound_iff.mpr (by decide +kernel)
      intro st hw
      change (Node.machine.after (launch.start none) completed).writes _ = some st at hw
      rw [hw] at hst hu
      exact ⟨hst.bounded, hu⟩
    case before =>
      have hn : Machine.EachStep (fun past input =>
          (Node.machine.after (launch.start none) past).writes input = none) completed := by
        decide +kernel
      intro input past hs st hw
      cases (hn hs).symm.trans hw

theorem launch_reads (file : Option Bytes) : launch.Reads file where
  persist := by decide
  read    := fun _ _ => rfl

end Deployment

open Deployment in
theorem epochs_increase_of_deployment :
    ((processes.events none [idle, committing]).map (·.output.value)).Pairwise (· > ·) := by
  apply epochs_increase
  refine Machine.eachStep_cons.mpr ⟨?_, Machine.eachStep_cons.mpr ⟨nofun, Machine.eachStep_nil⟩⟩
  rintro j past ⟨⟩
  exact ⟨committing_durable, launch_reads _⟩

-- The first process saves its state in epoch `1`. The second one starts from the file in epoch `2`
-- and ends before there is something to commit, so the third one starts from the same file.
open Deployment in
theorem epoch_repeated :
    (processes.events none [idle, idle, committing]).map (·.output.value) = [2, 2, 1] ∧
    ¬((processes.events none [idle, idle, committing]).map (·.output.value)).Pairwise (· > ·) := by
  have ⟨bytes, hf, hs⟩ := committing_durable.saved
  have he : (idle.node (some bytes)).coord.epoch.value = 2 :=
    hs.recovered_epoch (launch_reads _)
  have hc : (committing.node none).coord.epoch.value = 1 := by
    rw [Incarnation.node_epoch]
    rfl
  have h₀ : processes.after none [] = none := rfl
  have h₁ : processes.after none [committing] = some bytes := by
    rw [processes_after_cons, h₀, hf]
  have h₂ : processes.after none [idle, committing] = some bytes := by
    rw [processes_after_cons, h₁]
    rfl
  rw [processes_epochs_cons, processes_epochs_cons, processes_epochs_cons, h₂, h₁, h₀, he, hc]
  exact ⟨rfl, by decide⟩

end NMC
