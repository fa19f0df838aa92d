import NearMemoryCompute.Execution.Theorems.Completion
import NearMemoryCompute.Execution.Theorems.Incarnations
import NearMemoryCompute.Execution.Theorems.Sending

namespace NMC

open Coordinator Reader

namespace RuntimeState

-- The reply is what there is to tell about a plan that is committed.
def Records (st : RuntimeState) (reply : ClientReplyMsg) : Prop :=
  ∃ r res, res.committed ∧ CommittedAs res.plan r res st.plans st.results ∧
    reply = resultReply res.plan (.ok res)

-- Whatever the first state records, the second one does.
def Within (st st' : RuntimeState) : Prop :=
  ∀ ⦃reply⦄, st.Records reply → st'.Records reply

-- Nobody gets a different answer who asks for the result.
theorem Records.resultOf {st : RuntimeState} {reply : ClientReplyMsg} (h : st.Records reply)
    (hs : Settled st.plans st.results) :
    hasResult st reply.plan ∧
    resultReply (resultOf st reply.plan).plan (.ok (resultOf st reply.plan)) = reply := by
  obtain ⟨r, res, _, hc, rfl⟩ := h
  obtain ⟨hr, _⟩ := hc.result
  have hm := Std.ExtTreeMap.mem_toList_iff_getElem?_eq_some.mpr hr
  show hasResult st res.plan ∧ resultReply (Coordinator.resultOf st res.plan).plan _ = _
  refine ⟨List.any_eq_true.mpr ⟨(r, res), hm, by simp⟩, ?_⟩
  suffices Coordinator.resultOf st res.plan = res by
    simp only [resultReply, this]
  unfold Coordinator.resultOf
  cases hf : st.results.toList.find? (·.snd.plan = res.plan)
  case none =>
    have := List.find?_eq_none.mp hf (r, res) hm
    simp at this
  case some e =>
    obtain ⟨r', res'⟩ := e
    have he : res'.plan = res.plan := by simpa using List.find?_some hf
    have hr' := Std.ExtTreeMap.mem_toList_iff_getElem?_eq_some.mp (List.mem_of_find?_eq_some hf)
    cases hs.unique hr' hr he
    cases hr'.symm.trans hr
    rfl

-- An advance of the epoch neither drops nor adds a commit.
theorem records_nextEpoch {st : RuntimeState} {reply : ClientReplyMsg} :
    st.nextEpoch.Records reply ↔ st.Records reply := by
  constructor
  all_goals
    rintro ⟨r, res, hc, ⟨⟨plan, hp, hl⟩, hr⟩, rfl⟩
    refine ⟨r, res, hc, ⟨?_, hr⟩, rfl⟩
  · obtain ⟨plan', hq, rfl⟩ := Table.getElem?_map_eq_some hp
    exact ⟨plan', hq, ExecutionPlan.swept_onEpoch.committed hl⟩
  · refine ⟨plan.onEpoch, ?_, (hl ▸ ExecutionPlan.swept_onEpoch.evolves.lifecycle).of_committed⟩
    show (st.plans.map fun _ => ExecutionPlan.onEpoch)[res.plan]? = _
    simp [hp]

theorem settled_nextEpoch {st : RuntimeState} (h : Settled st.plans st.results) :
    Settled st.nextEpoch.plans st.nextEpoch.results :=
  h.map fun _ => ExecutionPlan.swept_onEpoch

theorem within_advanceWhile (epoch : UInt64) (st : RuntimeState)
    (hs : Settled st.plans st.results) :
    st.Within (advanceWhile epoch st) ∧
    Settled (advanceWhile epoch st).plans (advanceWhile epoch st).results := by
  induction st using advanceWhile.induct epoch
  case case1 st hlt hi =>
    rw [advanceWhile, if_pos hlt]
    obtain ⟨hw, hs'⟩ := hi (settled_nextEpoch hs)
    exact ⟨fun _ hr => hw (records_nextEpoch.mpr hr), hs'⟩
  case case2 st hlt =>
    rw [advanceWhile, if_neg hlt]
    exact ⟨fun _ hr => hr, hs⟩

-- What a coordinator makes of a file.
def ofFile (file : Option Bytes) : RuntimeState :=
  file.elim (init {}) fun bytes => (load (.contents bytes) (init {})).snd

theorem not_records_init {id : CoordinatorId} {reply : ClientReplyMsg} :
    ¬(init id).Records reply := by
  rintro ⟨r, res, _, ⟨_, hr, _⟩, _⟩
  simp [init] at hr

section Saved

variable {st : RuntimeState} {bytes : Bytes} (hk : st.Meets .keyed) (hn : st.SelfNamed)
         (hb : st.Bounded) (hu : st.Unbound) (hs : save .replaced st = some (.ok bytes))

include hk hn hb hu hs

theorem ofFile_saved : ofFile (some bytes) = st.durable.rebuilt.recover := by
  show (load (.contents bytes) (init {})).snd = _
  rw [load_of_saved (hb.storable hk) hn hu.persists hs]

theorem records_ofFile {reply : ClientReplyMsg} :
    (ofFile (some bytes)).Records reply ↔ st.Records reply := by
  rw [ofFile_saved hk hn hb hu hs, recover_eq]
  exact records_nextEpoch

theorem settled_ofFile (h : Settled st.plans st.results) :
    Settled (ofFile (some bytes)).plans (ofFile (some bytes)).results := by
  rw [ofFile_saved hk hn hb hu hs, recover_eq]
  exact settled_nextEpoch h

end Saved
end RuntimeState

theorem Launch.within_coordinator {l : Launch} {file : Option Bytes} (hr : l.Reads file)
    (hs : Settled (RuntimeState.ofFile file).plans (RuntimeState.ofFile file).results) :
    (RuntimeState.ofFile file).Within (l.coordinator file) ∧
    Settled (l.coordinator file).plans (l.coordinator file).results := by
  have hrec : (RuntimeState.ofFile file).Within (l.recovered file) ∧
      Settled (l.recovered file).plans (l.recovered file).results := by
    cases file
    case none => exact ⟨fun _ h => absurd h RuntimeState.not_records_init, .empty⟩
    case some bytes =>
      simp only [recovered, if_pos hr.persist, hr.read bytes rfl]
      simp only [RuntimeState.ofFile, Option.elim_some] at hs ⊢
      unfold load at hs ⊢
      split at hs
      case h_1 he =>
        exact ⟨fun _ h => absurd h RuntimeState.not_records_init, .empty⟩
      case h_2 he =>
        exact ⟨fun _ h => h, hs⟩
  unfold coordinator
  split
  case isFalse => exact hrec
  case isTrue =>
    obtain ⟨hw, hs'⟩ := RuntimeState.within_advanceWhile l.epoch _ hrec.2
    exact ⟨fun _ h => hw (hrec.1 h), hs'⟩

section Ledger

variable [Platform] {st : RuntimeState} {op : Op}

theorem within_step (ho : op.served) (hup : op.planIdUnused st) (hur : op.resultIdUnused st) :
    st.Within (step op st).snd := by
  rintro _ ⟨r, res, hc, hco, rfl⟩
  have hl : op.loads = false := by cases op <;> first | contradiction | rfl
  exact ⟨r, res, hc, hco.step (step_refines op st) hl hup hur, rfl⟩

theorem settled_step (ho : op.served) (hup : op.planIdUnused st) (hur : op.resultIdUnused st)
    (hs : Settled st.plans st.results) :
    Settled (step op st).snd.plans (step op st).snd.results := by
  have hl : op.loads = false := by cases op <;> first | contradiction | rfl
  exact Settled.step (step_refines op st) hl hup hur hs

-- What is committed is recorded.
theorem records_applyResult {rid : ResultId} {m : ResultMsg}
    (hc : (resultReply m.plan (applyResult rid m st).fst).committed) :
    (applyResult rid m st).snd.Records (resultReply m.plan (applyResult rid m st).fst) := by
  have h : Ledger.Step st (.applyResult rid m) (.result (applyResult rid m st).fst)
      (applyResult rid m st).snd.ledger :=
    step_refines (.applyResult rid m) st
  generalize hl : (applyResult rid m st).snd.ledger = l at h
  generalize (applyResult rid m st).fst = res at h hc ⊢
  have hp := congrArg Ledger.plans hl
  have hr := congrArg Ledger.results hl
  cases res
  case error => contradiction
  case ok res =>
    cases h
    case idle h           => exact absurd (h rfl) (by simp [Op.onLedger])
    case ambiguous hn _ _ => simp [resultReply, hn] at hc
    case mismatch hn _ _  => simp [resultReply, hn] at hc
    case commit c _ _ hco _ hm =>
      change (applyResult rid m st).snd.plans = st.plans.insert _ _ at hp
      change (applyResult rid m st).snd.results = st.results.insert _ _ at hr
      refine ⟨res.id, res, hco, ⟨?_, ?_, rfl⟩, by rw [hm]⟩
      · rw [hp, hm]
        exact ⟨_, Table.getElem?_insert_self .., rfl⟩
      · rw [hr]
        exact Table.getElem?_insert_self ..

end Ledger

namespace Handler

def saving : Handler → Option ClientReplyMsg
  | save _ reply => some reply
  | _            => none

theorem saving_moved : Moved saving := {}

def replacing : Handler → Option (ClientReplyMsg × RuntimeState)
  | replace _ reply st => some (reply, st)
  | _                  => none

theorem replacing_moved : Moved replacing := {}

def resolving : Handler → Option ClientReplyMsg
  | resolve _ reply => some reply
  | _               => none

end Handler

namespace Node

variable {node node' : Node} {input : Input} {op : Option Op} {c c' : ConnectionId}
         {conn : Connection} {handler : Handler} {reply : ClientReplyMsg} {st : RuntimeState}

-- Identities are drawn that are not in use. No thread copies the state while another one has yet to
-- write its copy, and what is written can be read back.
structure Careful (node : Node) (input : Input) : Prop where
  plan   : node.planUnused input
  result : ∀ {c payload drawn}, input = .receive c .result payload drawn →
    drawn.result ∉ node.coord.results
  alone  : ∀ {c sent disk reply}, input = .proceed c sent disk →
    node.Has Handler.saving c reply → ∀ {c' st}, ¬node.Has Handler.copy c' st
  stored : ∀ {c sent disk st}, input = .proceed c sent disk → node.Has Handler.copy c st →
    disk = .replaced ∧ st.Bounded ∧ st.Unbound ∧
      ∃ bytes, Coordinator.save disk st = some (.ok bytes)

theorem Move.saving_origin (h : Move node c conn input op handler)
    (hr : handler.saving = some reply) : ∃ payload drawn m,
      op = some (.applyResult drawn.result m) ∧ input = .receive c .result payload drawn ∧
      reply = resultReply m.plan (applyResult drawn.result m node.coord).fst := by
  cases h
  case commit payload drawn m _ _ _ _ he =>
    cases hr
    exact ⟨payload, drawn, m, rfl, rfl, he⟩
  all_goals contradiction

theorem Move.replacing_origin (h : Move node c conn input op handler)
    (hr : handler.replacing = some (reply, st)) :
    conn.handler.saving = some reply ∧ st = node.coord ∧
      ∃ sent disk, input = .proceed c sent disk := by
  cases h
  case copy sent disk hh =>
    cases hr
    exact ⟨hh ▸ rfl, rfl, sent, disk, rfl⟩
  all_goals contradiction

theorem has_copy :
    node.Has Handler.copy c st ↔ ∃ reply, node.Has Handler.replacing c (reply, st) := by
  have (h : Handler) : h.copy = some st ↔ ∃ reply, h.replacing = some (reply, st) := by
    cases h <;> simp [Handler.copy, Handler.replacing]
  simp only [Has, this]
  tauto

variable [Platform]

theorem Step.ids_unused {op : Op} (h : Step node input (some op) node') (hc : node.Careful input) :
    op.planIdUnused node.coord ∧ op.resultIdUnused node.coord := by
  cases op
  case plan p o         => exact ⟨decide_eq_true (h.plan_unused hc.plan), rfl⟩
  case applyResult id m =>
    refine ⟨rfl, ?_⟩
    cases h
    case handle hh => cases hh
    case hello ho  => cases ho
    case move hm   => cases hm <;> exact decide_eq_true (hc.result rfl)
  all_goals exact ⟨rfl, rfl⟩

theorem Step.within (h : Step node input op node') (hc : node.Careful input) :
    node.coord.Within node'.coord := by
  rw [h.coord]
  cases op
  case none    => exact fun _ hr => hr
  case some op =>
    have ⟨hp, hr⟩ := h.ids_unused hc
    exact within_step h.served hp hr

theorem Step.settled (h : Step node input op node') (hc : node.Careful input)
    (hs : Settled node.coord.plans node.coord.results) :
    Settled node'.coord.plans node'.coord.results := by
  rw [h.coord]
  cases op
  case none    => exact hs
  case some op =>
    have ⟨hp, hr⟩ := h.ids_unused hc
    exact settled_step h.served hp hr hs

omit [Platform] in
@[simp]
theorem resolveDispatch_persist (node : Node) (d : DispatchId) (reply : ClientReplyMsg) :
    (node.resolveDispatch d reply).persist = node.persist := by
  unfold resolveDispatch
  split <;> rfl

theorem Step.persist (h : Step node input op node') : node'.persist = node.persist := by
  cases h
  case resolve => exact resolveDispatch_persist ..
  case fail    => exact resolveDispatch_persist ..
  all_goals rfl

-- A reply is about to be passed on if it has been saved, or if there is no need to save it.
theorem Step.resolving_origin (h : Step node input op node')
    (hr : node'.Has Handler.resolving c reply) :
    node.Has Handler.resolving c reply ∨
    (∃ sent disk, input = .proceed c sent disk ∧ ∃ st, node.Has Handler.copy c st) ∨
    ∃ payload drawn, input = .receive c .result payload drawn ∧
      ∀ reply, ¬node.Has Handler.resolving c reply := by
  cases h
  case stay    => exact .inl hr
  case handle  => exact .inl hr
  case accept  => exact .inl (hr.of_idle rfl rfl)
  case hello   => exact .inl (hr.of_idle rfl rfl)
  case publish => exact .inl (hr.of_idle rfl rfl)
  case resolve => exact .inl (hr.of_idle (resolveDispatch_connections ..) rfl)
  case fail    => exact .inl (hr.of_idle (resolveDispatch_connections ..) rfl)
  case insert  => exact .inl (hr.of_idle rfl rfl)
  case answer  => exact .inl (hr.of_idle rfl rfl)
  case sweep   => exact .inl (hr.of_idle rfl rfl)
  case replace st sent disk _ hc hh _ =>
    rcases hr.of_insert rfl with ⟨rfl, _⟩ | hr
    · exact .inr (.inl ⟨sent, disk, rfl, st, _, hc, by simp [hh, Handler.copy]⟩)
    · exact .inl hr
  case move conn _ hc hm =>
    rcases hr.of_insert rfl with ⟨rfl, hn⟩ | hr
    · cases hm
      case result payload drawn _ _ _ hh _ _ =>
        refine .inr (.inr ⟨payload, drawn, rfl, ?_⟩)
        rintro reply ⟨conn', hc', hr'⟩
        cases hc.symm.trans hc'
        simp [hh, Handler.resolving] at hr'
      all_goals contradiction
    · exact .inl hr

-- A commit is saved before it is passed on.
theorem resolving_of_result {payload : Bytes} {drawn : Drawn} (hp : node.persist ≠ [])
    (hn : ∀ reply, ¬node.Has Handler.resolving c reply)
    (h : (Node.step (.receive c .result payload drawn) node).snd.Has Handler.resolving c reply) :
    reply.committed = false := by
  simp only [Node.step] at h
  split at h
  case h_1 => exact absurd h (hn reply)
  case h_2 conn hl =>
    simp only [Node.receive] at h
    split at h
    case h_1 => exact absurd h (hn reply)
    case h_2 =>
      obtain ⟨conn', hc, hr⟩ := h
      rw [update, Table.getElem?_insert_self] at hc
      cases hc
      dsimp only at hr
      split at hr
      case isTrue => contradiction
      case isFalse hnc =>
        cases hr
        simpa [hp] using hnc

-- A promise gets the reply that some handler has just passed on, or it is ambiguous.
theorem Step.promise_resolved (h : Step node input op node')
    (hv : node'.promises[c]? = some reply) :
    node.promises[c]? = some reply ∨ reply.committed = false ∨
      ∃ c', node.Has Handler.resolving c' reply := by
  cases h
  case resolve c' conn d _ _ _ hc hh =>
    rcases resolveDispatch_promises hv with hv | ⟨rfl, _⟩
    · exact .inl hv
    · exact .inr (.inr ⟨c', conn, hc, by simp [hh, Handler.resolving]⟩)
  case fail hn =>
    rcases resolveDispatch_promises hv with hv | ⟨rfl, _⟩
    · exact .inl hv
    · exact .inr (.inl (by simpa using hn))
  case sweep =>
    rcases resolveDisconnect_promises hv with hv | ⟨⟨_, hn⟩, _⟩
    · exact .inl hv
    · exact .inr (.inl (by simpa using hn))
  case insert => exact .inl (Table.getElem?_erase_eq_some hv).2
  case answer => exact .inl (Table.getElem?_erase_eq_some hv).2
  all_goals exact .inl hv

-- What a client has been told or is going to be told is on file, or it is going to be written. A
-- copy that has yet to be written has everything that is on file.
structure Filed (node : Node) : Prop where
  persist   : node.persist ≠ []
  settled   : Settled node.coord.plans node.coord.results
  file      : (RuntimeState.ofFile node.file).Within node.coord ∧
    Settled (RuntimeState.ofFile node.file).plans (RuntimeState.ofFile node.file).results
  copies    : ∀ {c st}, node.Has Handler.copy c st → Settled st.plans st.results ∧
    (RuntimeState.ofFile node.file).Within st ∧ st.Within node.coord
  single    : ∀ {c c' st st'}, node.Has Handler.copy c st → node.Has Handler.copy c' st' → c = c'
  saving    : ∀ {c reply}, node.Has Handler.saving c reply → reply.committed →
    node.coord.Records reply
  replacing : ∀ {c reply st}, node.Has Handler.replacing c (reply, st) → reply.committed →
    st.Records reply
  resolving : ∀ {c reply}, node.Has Handler.resolving c reply → reply.committed →
    (RuntimeState.ofFile node.file).Records reply
  promised  : ∀ {c : ConnectionId} {reply}, node.promises[c]? = some reply → reply.committed →
    (RuntimeState.ofFile node.file).Records reply

namespace Filed

omit [Platform] in
theorem start {l : Launch} {file : Option Bytes} (hr : l.Reads file)
    (hs : Settled (RuntimeState.ofFile file).plans (RuntimeState.ofFile file).results) :
    (l.start file).Filed := by
  have none {α : Type} {f : Handler → Option α} {c : ConnectionId} {a : α} :
      ¬(l.start file).Has f c a := by
    rintro ⟨conn, hc, _⟩
    simp [Launch.start] at hc
  obtain ⟨hw, hs'⟩ := Launch.within_coordinator hr hs
  exact ⟨hr.persist, hs', ⟨hw, hs⟩, fun h => absurd h none, fun h => absurd h none,
    fun h => absurd h none, fun h => absurd h none, fun h => absurd h none,
    fun h => by simp [Launch.start] at h⟩

omit [Platform] in
-- The only copy is written, and with it everything that has been on file before.
theorem write {d : DispatchId} {bytes : Bytes} (h : node.Filed)
    (hc : node.connections[c]? = some conn) (hh : conn.handler = .replace d reply st)
    (hk : st.Meets .keyed) (hn : st.SelfNamed) (hb : st.Bounded) (hu : st.Unbound)
    (hs : Coordinator.save .replaced st = some (.ok bytes)) :
    ({ node with file := some bytes }.update c
      { conn with handler := .resolve d reply }).Filed := by
  have hcopy : node.Has Handler.copy c st := ⟨conn, hc, by simp [hh, Handler.copy]⟩
  obtain ⟨hset, hfile, hcoord⟩ := h.copies hcopy
  have hrec {reply : ClientReplyMsg} :
      (RuntimeState.ofFile (some bytes)).Records reply ↔ st.Records reply :=
    RuntimeState.records_ofFile hk hn hb hu hs
  have no_copy {c' : ConnectionId} {st' : RuntimeState} :
      ¬({ node with file := some bytes }.update c
        { conn with handler := .resolve d reply }).Has Handler.copy c' st' := by
    rintro ⟨conn', hc', hr⟩
    rcases Table.getElem?_insert_eq_some hc' with ⟨rfl, rfl⟩ | ⟨hne, hc'⟩
    · contradiction
    · exact hne (h.single hcopy ⟨conn', hc', hr⟩)
  refine ⟨h.persist, h.settled, ⟨?_, RuntimeState.settled_ofFile hk hn hb hu hs hset⟩,
    fun hc => absurd hc no_copy, fun hc => absurd hc no_copy, ?_, ?_, ?_, ?_⟩
  · exact fun _ hr => hcoord (hrec.mp hr)
  · exact fun hr hco => h.saving (hr.of_idle rfl rfl) hco
  · exact fun hr => absurd (has_copy.mpr ⟨_, hr⟩) no_copy
  · intro c' reply' hr hco
    refine hrec.mpr ?_
    rcases hr.of_insert rfl with ⟨_, he⟩ | hr
    · cases he
      exact h.replacing ⟨conn, hc, by simp [hh, Handler.replacing]⟩ hco
    · exact hfile (h.resolving hr hco)
  · exact fun hv hco => hrec.mpr (hfile (h.promised hv hco))

-- Nothing is written.
theorem keep (h : node.Filed) (hst : Step node input op node') (hc : node.Careful input)
    (hf : node'.file = node.file)
    (hr : ∀ {c reply}, node'.Has Handler.resolving c reply →
      node.Has Handler.resolving c reply ∨ reply.committed = false) : node'.Filed := by
  have hw := hst.within hc
  have replacing {c : ConnectionId} {reply : ClientReplyMsg} {st : RuntimeState}
      (hr : node'.Has Handler.replacing c (reply, st)) :
      node.Has Handler.replacing c (reply, st) ∨ node.Has Handler.saving c reply ∧
        st = node.coord ∧ ∃ sent disk, input = .proceed c sent disk := by
    rcases hst.origin Handler.replacing_moved hr with hr | ⟨conn, _, hc, hm, hn⟩
    · exact .inl hr
    · obtain ⟨hs, he, hi⟩ := hm.replacing_origin hn
      exact .inr ⟨⟨conn, hc, hs⟩, he, hi⟩
  have copy {c : ConnectionId} {st : RuntimeState} (hr : node'.Has Handler.copy c st) :
      node.Has Handler.copy c st ∨ st = node.coord ∧ (∃ sent disk, input = .proceed c sent disk) ∧
        ∀ {c' st'}, ¬node.Has Handler.copy c' st' := by
    obtain ⟨reply, hr⟩ := has_copy.mp hr
    rcases replacing hr with hr | ⟨hs, he, sent, disk, hi⟩
    · exact .inl (has_copy.mpr ⟨reply, hr⟩)
    · exact .inr ⟨he, ⟨sent, disk, hi⟩, hc.alone hi hs⟩
  constructor
  case persist => exact hst.persist ▸ h.persist
  case settled => exact hst.settled hc h.settled
  case file    => exact hf ▸ ⟨fun _ hr => hw (h.file.1 hr), h.file.2⟩
  case copies  =>
    intro c st hr
    rw [hf]
    rcases copy hr with hr | ⟨rfl, _⟩
    · obtain ⟨hs, hl, hu⟩ := h.copies hr
      exact ⟨hs, hl, fun _ hr => hw (hu hr)⟩
    · exact ⟨h.settled, h.file.1, hw⟩
  case single =>
    intro c c' st st' hr hr'
    rcases copy hr with hr | ⟨_, ⟨_, _, hi⟩, hn⟩
    · rcases copy hr' with hr' | ⟨_, _, hn⟩
      · exact h.single hr hr'
      · exact absurd hr hn
    · rcases copy hr' with hr' | ⟨_, ⟨_, _, hi'⟩, _⟩
      · exact absurd hr' hn
      · cases hi.symm.trans hi'
        rfl
  case saving =>
    intro c reply hr hco
    rcases hst.origin Handler.saving_moved hr with hr | ⟨_, _, _, hm, hn⟩
    · exact hw (h.saving hr hco)
    · obtain ⟨_, drawn, m, rfl, _, rfl⟩ := hm.saving_origin hn
      rw [hst.coord]
      exact records_applyResult hco
  case replacing =>
    intro c reply st hr hco
    rcases replacing hr with hr | ⟨hs, rfl, _⟩
    · exact h.replacing hr hco
    · exact h.saving hs hco
  case resolving =>
    intro c reply hre hco
    rw [hf]
    rcases hr hre with hre | hn
    · exact h.resolving hre hco
    · simp [hn] at hco
  case promised =>
    intro c reply hv hco
    rw [hf]
    rcases hst.promise_resolved hv with hv | hn | ⟨_, hre⟩
    · exact h.promised hv hco
    · simp [hn] at hco
    · exact h.resolving hre hco

theorem step (h : node.Filed) (hc : node.Careful input)
    (hk : ∀ {c st}, node.Has Handler.copy c st → st.Meets .keyed ∧ st.SelfNamed) :
    (Node.step input node).snd.Filed ∧
    (RuntimeState.ofFile node.file).Within
      (RuntimeState.ofFile (Node.step input node).snd.file) := by
  obtain ⟨op, hst⟩ := Node.step_cases input node
  by_cases hw : ∃ c sent disk st, input = .proceed c sent disk ∧ node.Has Handler.copy c st
  case pos =>
    obtain ⟨c, sent, disk, st, rfl, hcopy⟩ := hw
    obtain ⟨rfl, hb, hu, bytes, hs⟩ := hc.stored rfl hcopy
    obtain ⟨hkey, hn⟩ := hk hcopy
    obtain ⟨_, hfile, _⟩ := h.copies hcopy
    obtain ⟨conn, hconn, hcp⟩ := hcopy
    cases hh : conn.handler <;> rw [hh] at hcp <;> try contradiction
    case replace d reply st' =>
      cases hcp
      simp only [Node.step, hconn, Node.proceed, hh, hs]
      refine ⟨h.write hconn hh hkey hn hb hu hs, fun _ hr => ?_⟩
      exact (RuntimeState.records_ofFile hkey hn hb hu hs).mpr (hfile hr)
  case neg =>
    have hf : (Node.step input node).snd.file = node.file := by
      rcases hst.file_origin with hf | ⟨c, st, _, _, hwr, _⟩
      · exact hf
      · unfold writes at hwr
        split at hwr
        case h_1 =>
          obtain ⟨conn, hconn, hcp⟩ := Option.bind_eq_some_iff.mp hwr
          exact absurd ⟨_, _, _, st, rfl, conn, hconn, hcp⟩ hw
        case h_2 => contradiction
    refine ⟨h.keep hst hc hf fun {c reply} hr => ?_, by rw [hf]; exact fun _ hr => hr⟩
    rcases hst.resolving_origin hr with hr' | ⟨sent, disk, hi, st, hcp⟩ | ⟨payload, drawn, rfl, hn⟩
    · exact .inl hr'
    · exact absurd ⟨c, sent, disk, st, hi, hcp⟩ hw
    · exact .inr (resolving_of_result h.persist hn hr)

end Filed
end Node

-- The process reads what has been written and takes care of what it writes.
structure Incarnation.Careful [Platform] (i : Incarnation) (file : Option Bytes) : Prop where
  reads : i.launch.Reads file
  steps : Machine.EachStep (fun past input =>
    (Node.machine.after (i.launch.start file) past).Careful input) i.inputs

namespace Incarnation.Careful

variable [Platform] {i : Incarnation} {file : Option Bytes} (hc : i.Careful file)
         (hs : Settled (RuntimeState.ofFile file).plans (RuntimeState.ofFile file).results)

include hc hs

theorem filed {past : List Input} (hp : past <:+ i.inputs) :
    (Node.machine.after (i.launch.start file) past).Filed := by
  induction past
  case nil => exact .start hc.reads hs
  case cons input past hi =>
    have hf := hi ((List.suffix_cons input past).trans hp)
    refine (hf.step (hc.steps hp) fun hcopy => ?_).1
    have hr := Launch.reaches_of_copy hcopy
    exact ⟨hr.keyed, hr.named⟩

-- Nothing that is on file gets lost.
theorem within {past : List Input} (hp : past <:+ i.inputs) :
    (RuntimeState.ofFile (Node.machine.after (i.launch.start file) past).file).Within
      (RuntimeState.ofFile (i.node file).file) := by
  intro reply hr
  refine Node.machine.stable_of_eachStep (C := fun past input => input :: past <:+ i.inputs)
    (P := fun node => (RuntimeState.ofFile node.file).Records reply) (i.launch.start file) ?step
    (fun _ _ hs => hs) hp hr
  intro past input hp hr
  have hf := hc.filed hs ((List.suffix_cons input past).trans hp)
  refine (hf.step (hc.steps hp) fun hcopy => ?_).2 hr
  have hr := Launch.reaches_of_copy hcopy
  exact ⟨hr.keyed, hr.named⟩

end Incarnation.Careful

section Processes

variable [Platform] {history : List Incarnation}
         (hc : Machine.EachStep (fun past i => i.Careful (processes.after none past)) history)

include hc

theorem settled_processes :
    Settled (RuntimeState.ofFile (processes.after none history)).plans
      (RuntimeState.ofFile (processes.after none history)).results :=
  processes.invariant_of_eachStep (I := fun _ file => Settled (RuntimeState.ofFile file).plans
    (RuntimeState.ofFile file).results) none .empty
    (fun _ _ hc hs => (hc.filed hs (List.suffix_refl _)).file.2) hc

theorem within_processes {past : List Incarnation} (hp : past <:+ history) :
    (RuntimeState.ofFile (processes.after none past)).Within
      (RuntimeState.ofFile (processes.after none history)) := by
  intro reply hr
  refine processes.stable_of_eachStep (C := fun past i => i :: past <:+ history)
    (P := fun file => (RuntimeState.ofFile file).Records reply) none ?step (fun _ _ hs => hs) hp hr
  intro past i hs hr
  have hset := settled_processes (hc.suffix ((List.suffix_cons i past).trans hs))
  exact (hc hs).within hset (List.nil_suffix) hr

end Processes

-- Whoever has been told by its dispatch that its plan is committed, gets the same answer from every
-- process that is started later.
theorem acknowledged_durable [Platform] (history : List Incarnation)
    (hc : Machine.EachStep (fun past i => i.Careful (processes.after none past)) history) :
    ∀ (i : Incarnation) (past : List Incarnation), i :: past <:+ history →
    ∀ (input : Input) (earlier : List Input), input :: earlier <:+ i.inputs →
      let node := Node.machine.after (i.launch.start (processes.after none past)) earlier
      ∀ (c : ConnectionId) (conn : Connection) (req : Request) (reply : ClientReplyMsg),
        node.connections[c]? = some conn → conn.handler = .wait req →
        (Node.step input node).fst = .reply c reply → reply.committed →
        ∀ l : Launch, l.Reads (processes.after none history) →
          let st := (l.start (processes.after none history)).coord
          hasResult st reply.plan ∧
          resultReply (resultOf st reply.plan).plan (.ok (resultOf st reply.plan)) = reply := by
  intro i past hs input earlier hi node c conn req reply hconn hw ho hco l hl st
  have hset := settled_processes (hc.suffix ((List.suffix_cons i past).trans hs))
  have hp := (List.suffix_cons input earlier).trans hi
  have hf := (hc hs).filed hset hp
  have hr := hf.promised (Node.promise_of_reply hconn hw ho) hco
  have hr := within_processes hc hs ((hc hs).within hset hp hr)
  obtain ⟨hwi, hst⟩ := Launch.within_coordinator hl (settled_processes hc)
  exact (hwi hr).resultOf hst

namespace Deployment

-- The commit is saved and passed on, and the client gets its answer.
def acknowledging : Incarnation where
  launch := launch
  inputs := .proceed 2 true .replaced :: .proceed 1 true .replaced :: committing.inputs

-- Identities that are not in use are drawn, and nothing has to be written.
def unhurried (node : Node) (input : Input) : Bool :=
  node.planUnused input &&
  (match input with
    | .receive _ .result _ drawn => drawn.result ∉ node.coord.results
    | _                          => true) &&
  node.connections.toList.all (·.snd.handler.copy.isNone)

theorem careful_of_unhurried {node : Node} {input : Input} (h : unhurried node input) :
    node.Careful input := by
  simp only [unhurried, Bool.and_eq_true] at h
  have hn {c : ConnectionId} {st : RuntimeState} : ¬node.Has Handler.copy c st := by
    rintro ⟨conn, hc, hcp⟩
    have hm := Std.ExtTreeMap.mem_toList_iff_getElem?_eq_some.mpr hc
    have := List.all_eq_true.mp h.2 _ hm
    simp [hcp] at this
  refine ⟨h.1.1, ?_, fun _ _ => hn, fun _ hc => absurd hc hn⟩
  rintro c payload drawn rfl
  exact of_decide_eq_true h.1.2

theorem careful_of_writes {node : Node} {c : ConnectionId} {sent : Bool} {st : RuntimeState}
    {bytes : Bytes} (h : node.writes (.proceed c sent .replaced) = some st) (hb : st.Bounded)
    (hu : st.Unbound) (hs : save .replaced st = some (.ok bytes)) :
    node.Careful (.proceed c sent .replaced) := by
  obtain ⟨conn, hc, hcp⟩ := Option.bind_eq_some_iff.mp h
  refine ⟨rfl, by simp, ?_, ?_⟩
  · rintro _ _ _ reply ⟨⟩ ⟨conn', hc', hr⟩
    cases hc.symm.trans hc'
    cases hh : conn.handler <;> rw [hh] at hcp hr <;> contradiction
  · rintro _ _ _ st' ⟨⟩ ⟨conn', hc', hcp'⟩
    cases hc.symm.trans hc'
    cases hcp.symm.trans hcp'
    exact ⟨rfl, hb, hu, bytes, hs⟩

theorem acknowledging_careful : acknowledging.Careful none where
  reads := launch_reads none
  steps := by
    have before : Machine.EachStep (fun past input =>
        unhurried (Node.machine.after (launch.start none) past) input) completed := by
      decide +kernel
    refine Machine.eachStep_cons.mpr ⟨careful_of_unhurried (by decide +kernel),
      Machine.eachStep_cons.mpr ⟨careful_of_unhurried (by decide +kernel),
      Machine.eachStep_cons.mpr ⟨?writing, fun _ _ hs => careful_of_unhurried (before hs)⟩⟩⟩
    have hw : ((Node.machine.after (launch.start none) completed).writes
        (.proceed 1 true .replaced)).any fun st =>
        (encodeState st).any (·.length ≤ PersistentStore.kMaxPayload) := by
      decide +kernel
    obtain ⟨st, hw, hm⟩ := (Option.any_eq_true _ _).mp hw
    obtain ⟨payload, he, hl⟩ := (Option.any_eq_true _ _).mp hm
    obtain ⟨bytes, hb, _⟩ := save_of_encodeState he (of_decide_eq_true hl)
    have hr := committing_durable.readable (List.suffix_refl _) st hw
    exact careful_of_writes hw hr.1 hr.2 hb

end Deployment

open Deployment in
theorem acknowledged_durable_of_deployment :
    let earlier := .proceed 1 true .replaced :: committing.inputs
    let node := Node.machine.after (launch.start none) earlier
    let st := (launch.start (processes.after none [acknowledging])).coord
    ∃ (conn : Connection) (req : Request) (reply : ClientReplyMsg),
      node.connections[2]? = some conn ∧ conn.handler = .wait req ∧
      (Node.step (.proceed 2 true .replaced) node).fst = .reply 2 reply ∧ reply.committed ∧
      hasResult st reply.plan ∧
      resultReply (resultOf st reply.plan).plan (.ok (resultOf st reply.plan)) = reply := by
  intro earlier node st
  have hw : node.connections[2]?.any (·.handler.waits.isSome) := by decide +kernel
  have hv : node.promises[2]?.any (·.committed) := by decide +kernel
  obtain ⟨conn, hconn, hw⟩ := (Option.any_eq_true _ _).mp hw
  obtain ⟨req, hw⟩ := Option.isSome_iff_exists.mp hw
  have hw := Handler.waits_eq_some.mp hw
  obtain ⟨reply, hv, hr⟩ := (Option.any_eq_true _ _).mp hv
  have ho := Node.reply_of_promise hconn hw hv true .replaced
  have hc : Machine.EachStep (fun past i => i.Careful (processes.after none past))
      [acknowledging] :=
    Machine.eachStep_cons.mpr ⟨acknowledging_careful, Machine.eachStep_nil⟩
  have h := acknowledged_durable _ hc acknowledging [] (List.suffix_refl _)
    (.proceed 2 true .replaced) earlier (List.suffix_refl _)
  simp only [show processes.after none [] = none from rfl,
    show acknowledging.launch = launch from rfl,
    show Node.machine.after (launch.start none) earlier = node from rfl] at h
  have hd := h 2 conn req reply hconn hw ho hr launch (launch_reads _)
  exact ⟨conn, req, reply, hconn, hw, ho, hr, hd⟩

namespace Deployment

open Writer

-- Another plan is carried out and saved, while the copy that has been taken for the first one has
-- yet to be written.
def overtaken : List Input :=
  List.replicate 3 (.proceed 3 true .replaced) ++
  .receive 3 .result (encodeResult { completion with
    plan     := { value := 11 }
    dispatch := { value := 21 }
    attempt  := { value := 31 } }) { result := { value := 41 } } ::
  List.replicate 6 (.proceed 4 true .replaced) ++
  .receive 4 .clientDispatch (encodeClientDispatch { plan := { value := 11 } })
    { dispatch := { value := 21 }, attempt := { value := 31 } } ::
  .receive 4 .clientPlan (encodeClientPlan { op := { value := 2 } }) { plan := { value := 11 } } ::
  .receive 4 .clientRegisterOperation
    (encodeClientRegisterOp { op := operation { value := 2 } }) {} ::
  .accept 4 ::
  .accept 3 ::
  completed

end Deployment

-- A thread that is late to write its copy undoes what another one has saved, although a client has
-- been told about it.
open Deployment in
theorem acknowledged_overwritten :
    let node := Node.machine.after (launch.start none) overtaken
    let later := Node.machine.after (launch.start none) (.proceed 4 true .replaced :: overtaken)
    ∃ (reply : ClientReplyMsg) (st : RuntimeState) (bytes : Bytes),
      (Node.step (.proceed 4 true .replaced) node).fst = .reply 4 reply ∧ reply.committed ∧
      save .replaced st = some (.ok bytes) ∧ ¬st.committed reply.plan ∧
      (Node.step (.proceed 1 true .replaced) later).snd.file = some bytes := by
  intro node later
  have hv : node.promises[4]?.any fun reply => reply.committed &&
      node.connections[4]?.any (·.handler.waits.isSome) &&
      (later.writes (.proceed 1 true .replaced)).any fun st => !st.committed reply.plan &&
        (encodeState st).any (·.length ≤ PersistentStore.kMaxPayload) := by
    decide +kernel
  obtain ⟨reply, hv, h⟩ := (Option.any_eq_true _ _).mp hv
  simp only [Bool.and_eq_true] at h
  obtain ⟨⟨hco, hw⟩, h⟩ := h
  obtain ⟨conn, hconn, hw⟩ := (Option.any_eq_true _ _).mp hw
  obtain ⟨req, hw⟩ := Option.isSome_iff_exists.mp hw
  have ho := Node.reply_of_promise hconn (Handler.waits_eq_some.mp hw) hv true .replaced
  obtain ⟨st, hwr, h⟩ := (Option.any_eq_true _ _).mp h
  obtain ⟨hn, he⟩ := Bool.and_eq_true_iff.mp h
  obtain ⟨payload, he, hl⟩ := (Option.any_eq_true _ _).mp he
  obtain ⟨bytes, hb, _⟩ := save_of_encodeState he (of_decide_eq_true hl)
  exact ⟨reply, st, bytes, ho, hco, hb, by simpa using hn, Node.file_of_writes hwr hb⟩

end NMC
