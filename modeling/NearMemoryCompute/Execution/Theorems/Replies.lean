import NearMemoryCompute.Execution.Theorems.Honest
import NearMemoryCompute.Execution.Theorems.Node

namespace NMC

open Coordinator Reader

namespace RuntimeState

def committed (st : RuntimeState) (p : ExecutionPlanId) : Bool :=
  st.plans[p]?.any (·.lifecycle = .committed)

-- The plan is dead without having been committed.
def lost (st : RuntimeState) (p : ExecutionPlanId) : Bool :=
  st.plans[p]?.any fun plan => plan.lifecycle.dead && plan.lifecycle ≠ .committed

variable {st st' : RuntimeState} {p : ExecutionPlanId}

theorem committed_iff :
    st.committed p ↔ ∃ plan, st.plans[p]? = some plan ∧ plan.lifecycle = .committed := by
  simp [committed, Option.any_eq_true]

theorem lost_iff :
    st.lost p ↔ ∃ plan, st.plans[p]? = some plan ∧ plan.lifecycle.dead ∧
      plan.lifecycle ≠ .committed := by
  simp [lost, Option.any_eq_true]

theorem lost.not_committed (h : st.lost p) : ¬st.committed p := by
  have ⟨plan, hp, _, hn⟩ := lost_iff.mp h
  intro hc
  have ⟨plan', hp', hc⟩ := committed_iff.mp hc
  cases hp.symm.trans hp'
  exact hn hc

end RuntimeState

instance {st : RuntimeState} {plan : ExecutionPlan} {msg : ResultMsg} :
    Decidable (Accepts st plan msg) :=
  decidable_of_iff _ completionError_eq_none

-- What the client is told is what becomes of its plan.
structure ClientReplyMsg.Agrees (reply : ClientReplyMsg) (st : RuntimeState) (p : ExecutionPlanId) :
    Prop where
  committed : reply.committed → st.committed p
  lost      : !reply.committed → !reply.ambiguous → st.lost p

theorem ClientReplyMsg.Agrees.of_ambiguous {reply : ClientReplyMsg} {st : RuntimeState}
    {p : ExecutionPlanId} (ha : reply.ambiguous) (hc : !reply.committed) : reply.Agrees st p where
  committed h := by simp [h] at hc
  lost _ h    := by simp [ha] at h

section Completion

variable {st : RuntimeState} {rid : ResultId} {msg : ResultMsg} {plan : ExecutionPlan}

theorem agrees_of_accepts (hp : st.plans[msg.plan]? = some plan) (ha : Accepts st plan msg) :
    (resultReply msg.plan (applyResult rid msg st).fst).Agrees (applyResult rid msg st).snd
      msg.plan := by
  have he := completionError_eq_none.mpr ha
  by_cases hu : msg.unknown
  case pos =>
    have h : (applyResult rid msg st).fst =
        .ok { executionResult rid msg with ambiguous := true, verification := .unknown } := by
      simp only [applyResult, hp, he, hu, if_true]
    rw [h]
    exact .of_ambiguous rfl rfl
  case neg =>
    by_cases hi : intact msg
    case pos =>
      have hco : Commits st rid msg := commits_of_accepts hp ha (by simpa using hu) hi
      obtain ⟨r, plan', hr, hc, hp', hl⟩ := hco
      rw [hr]
      exact ⟨fun _ => RuntimeState.committed_iff.mpr ⟨plan', hp', hl⟩, by simp [resultReply, hc]⟩
    case neg =>
      rw [applyResult_mismatch hp ha (by simpa using hu) hi rid]
      refine ⟨by simp [resultReply, executionResult], fun _ _ => RuntimeState.lost_iff.mpr ?_⟩
      exact ⟨_, Table.getElem?_insert_self .., rfl, by simp⟩

-- Whoever is told that a plan is committed is told so by a completion that has been accepted.
theorem not_committed_of_refused
    (h : ¬∃ plan, st.plans[msg.plan]? = some plan ∧ Accepts st plan msg) :
    (resultReply msg.plan (applyResult rid msg st).fst).committed = false := by
  cases hr : (applyResult rid msg st).fst
  case error => rfl
  case ok res =>
    by_contra hc
    have hc : res.committed := by simpa [resultReply] using hc
    have ⟨plan, hp, he, _⟩ := applyResult_committed hr hc
    exact h ⟨plan, hp, completionError_eq_none.mp he⟩

end Completion

namespace Handler

-- The request that a handler is busy with.
def request : Handler → Option Request
  | reserve req | prepare req | wait req | fail req | withdraw req => some req
  | lookup req _                                                   => some req
  | confirm req _ _ | insert req _ _ | send req _ _                => some req
  | _                                                              => none

theorem request_moved : Moved request := {}

-- The request for which a handler has made a promise.
def enlisted : Handler → Option Request
  | send req _ _ | fail req | withdraw req | wait req => some req
  | _                                                 => none

-- The reply that a handler is about to pass on.
def held : Handler → Option (DispatchId × ClientReplyMsg)
  | save d reply | replace d reply _ | resolve d reply => some (d, reply)
  | _                                                  => none

theorem held_moved : Moved held := {}

def waits : Handler → Option Request
  | wait req => some req
  | _        => none

theorem waits_eq_some {h : Handler} {req : Request} : h.waits = some req ↔ h = .wait req := by
  cases h <;> simp [waits]

theorem request_of_enlisted {h : Handler} {req : Request} (he : h.enlisted = some req) :
    h.request = some req := by
  cases h <;> first | exact he | contradiction

end Handler

namespace Node

-- Identities are drawn that are not in use. A completion that names the dispatch of a request is
-- accepted, unless the plan is lost anyway.
def genuine (node : Node) : Input → Bool
  | .receive _ .clientPlan _ drawn => drawn.plan ∉ node.coord.plans
  | .receive _ .clientDispatch _ drawn =>
    node.coord.plans.toList.all (·.snd.dispatchId ≠ some drawn.dispatch) &&
    node.connections.toList.all fun e =>
      e.snd.handler.request.all (·.dispatch ≠ drawn.dispatch) &&
      e.snd.handler.held.all (·.fst ≠ drawn.dispatch)
  | .receive _ .result payload _ =>
    (decodeResult payload).all fun (m, _) => node.connections.toList.all fun e =>
      e.snd.handler.request.all fun req =>
        req.dispatch ≠ m.dispatch || node.coord.lost req.plan ||
        node.coord.plans[m.plan]?.any (Accepts node.coord · m)
  | _ => true

variable {node node' : Node} {c c' : ConnectionId} {conn conn' : Connection} {input : Input}
         {op : Option Op} {handler : Handler} {req : Request} {d : DispatchId}
         {reply reply' : ClientReplyMsg}

theorem Has.request (h : node.Has Handler.enlisted c req) : node.Has Handler.request c req :=
  h.imp fun _ ⟨hc, he⟩ => ⟨hc, Handler.request_of_enlisted he⟩

theorem Move.request_origin (h : Move node c conn input op handler)
    (hr : handler.request = some req) :
    conn.handler.request = some req ∨ conn.handler = .receive ∧
      ∃ payload drawn, input = .receive c .clientDispatch payload drawn ∧
        req.dispatch = drawn.dispatch := by
  cases h
  case request payload drawn _ _ hh _ =>
    cases hr
    exact .inr ⟨hh, payload, drawn, rfl, rfl⟩
  case reserve hh _  => exact .inl (hh ▸ hr)
  case prepare hh _  => exact .inl (hh ▸ hr)
  case lookup hh _   => exact .inl (hh ▸ hr)
  case confirm hh _  => exact .inl (hh ▸ hr)
  case send hh _     => exact .inl (hh ▸ hr)
  case unsent hh _   => exact .inl (hh ▸ hr)
  case withdraw hh   => exact .inl (hh ▸ hr)
  all_goals contradiction

theorem Move.keeps_enlisted (h : Move node c conn input op handler)
    (hr : conn.handler.enlisted = some req) : handler.enlisted = some req := by
  cases h <;> simp_all [Handler.enlisted]

theorem Move.held_origin (h : Move node c conn input op handler)
    (hr : handler.held = some (d, reply)) :
    conn.handler.held = some (d, reply) ∨
    ∃ payload drawn m rest, input = .receive c .result payload drawn ∧
      decodeResult payload = some (m, rest) ∧ op = some (.applyResult drawn.result m) ∧
      d = m.dispatch ∧ reply = resultReply m.plan (applyResult drawn.result m node.coord).fst := by
  cases h
  case commit payload drawn m rest _ _ hm he =>
    cases hr
    exact .inr ⟨payload, drawn, m, rest, rfl, hm, rfl, rfl, he⟩
  case result payload drawn m rest _ _ hm he =>
    cases hr
    exact .inr ⟨payload, drawn, m, rest, rfl, hm, rfl, rfl, he⟩
  case copy hh => exact .inl (hh ▸ hr)
  all_goals contradiction

-- Every promise is made by a handler that waits or will wait for it. It is pending until it gets
-- its value.
structure Paired (node : Node) : Prop where
  pending  : node.pending.All fun d p => node.promises[p.client]? = none ∧
    ∃ req, node.Has Handler.enlisted p.client req ∧ req.dispatch = d
  promises : node.promises.All fun c _ => ∃ req, node.Has Handler.enlisted c req

-- What has been promised to a client, or what it has now been told.
theorem resolveDispatch_promises
    (h : (node.resolveDispatch d reply).promises[c]? = some reply') :
    node.promises[c]? = some reply' ∨ reply' = reply ∧
      ∃ p, node.pending[d]? = some p ∧ p.client = c := by
  unfold resolveDispatch at h
  split at h
  case h_1 => exact .inl h
  case h_2 p hp =>
    rcases Table.getElem?_insert_eq_some h with ⟨hc, rfl⟩ | ⟨_, h⟩
    · exact .inr ⟨rfl, p, hp, hc⟩
    · exact .inl h

theorem resolveDisconnect_promises {boot : WorkerBootId}
    (h : (node.resolveDisconnect boot).promises[c]? = some reply) :
    node.promises[c]? = some reply ∨ (reply.ambiguous ∧ !reply.committed) ∧
      ∃ (d : DispatchId) (p : Pending),
        node.pending[d]? = some p ∧ p.boot = boot ∧ p.client = c := by
  rcases Table.getElem?_foldl_insert_eq_some h with h | ⟨rfl, ⟨d, p⟩, hm, hc⟩
  · exact .inl h
  · have hp := Std.ExtTreeMap.mem_toList_iff_getElem?_eq_some.mp hm
    have ⟨hp, hb⟩ := Table.getElem?_filter_eq_some.mp hp
    exact .inr ⟨⟨rfl, rfl⟩, d, p, hp, of_decide_eq_true hb, hc⟩

namespace Paired

theorem start (l : Launch) (file : Option Bytes) : (l.start file).Paired where
  pending  := .empty
  promises := .empty

-- A step after which everything that is pending has been so before, while some promises may have
-- got their values.
theorem deliver (hp : node.Paired)
    (hk : ∀ c req, node.Has Handler.enlisted c req → node'.Has Handler.enlisted c req)
    (hn : node'.pending.All fun d p => node.pending[d]? = some p)
    (hv : node'.promises.All fun c _ => c ∈ node.promises ∨
      ∃ (d : DispatchId) (p : Pending),
        node.pending[d]? = some p ∧ p.client = c ∧ d ∉ node'.pending) : node'.Paired where
  pending := by
    intro d p h
    have ⟨hf, req, hr, hd⟩ := hp.pending (hn h)
    refine ⟨?_, req, hk _ _ hr, hd⟩
    by_contra hs
    have ⟨reply, hs⟩ := Option.ne_none_iff_exists'.mp hs
    rcases hv hs with hm | ⟨d', p', hp', hc, hd'⟩
    · exact absurd hm (by simpa using hf)
    · -- A handler makes one promise at a time
      have ⟨_, req', hr', hd''⟩ := hp.pending hp'
      rw [hc] at hr'
      cases hr.unique hr'
      exact hd' (hd''.symm.trans hd ▸ Table.mem_of_some h)
  promises := by
    intro c reply h
    rcases hv h with hm | ⟨d, p, hp', rfl, _⟩
    · have ⟨reply, hs⟩ := Table.exists_of_mem hm
      exact (hp.promises hs).imp fun req hr => hk c req hr
    · have ⟨_, req, hr, _⟩ := hp.pending hp'
      exact ⟨req, hk _ _ hr⟩

-- A step by which a thread moves on, without giving up its promise.
theorem move (hp : node.Paired) (hc : node.connections[c]? = some conn)
    (he : node'.connections = node.connections.insert c conn')
    (hk : ∀ req, conn.handler.enlisted = some req → conn'.handler.enlisted = some req)
    (hn : node'.pending = node.pending) (hv : node'.promises = node.promises) :
    node'.Paired := by
  refine hp.deliver ?_ (hn ▸ fun _ _ h => h) (hv ▸ fun _ _ h => .inl (Table.mem_of_some h))
  intro c' req h
  refine h.insert he fun conn₀ hc₀ hr => ?_
  cases hc.symm.trans hc₀
  exact hk req hr

theorem resolveDispatch (hp : node.Paired) : (node.resolveDispatch d reply).Paired := by
  refine hp.deliver ?_ ?_ ?_
  · intro c req h
    simpa [Has] using h
  · rw [resolveDispatch_pending]
    exact fun _ _ h => (Table.getElem?_erase_eq_some h).2
  · intro c reply' h
    rcases resolveDispatch_promises h with h | ⟨_, p, hp, hc⟩
    · exact .inl (Table.mem_of_some h)
    · exact .inr ⟨d, p, hp, hc, by simp⟩

theorem resolveDisconnect (hp : node.Paired) (boot : WorkerBootId) :
    (node.resolveDisconnect boot).Paired := by
  refine hp.deliver (fun _ _ h => h) ?_ ?_
  · exact fun _ _ h => (Table.getElem?_filter_eq_some.mp h).1
  · intro c reply h
    rcases resolveDisconnect_promises h with h | ⟨_, d, p, hp, hb, hc⟩
    · exact .inl (Table.mem_of_some h)
    · refine .inr ⟨d, p, hp, hc, fun hm => ?_⟩
      have ⟨p', hp'⟩ := Table.exists_of_mem hm
      have ⟨hp', hb'⟩ := Table.getElem?_filter_eq_some.mp hp'
      cases hp.symm.trans hp'
      exact of_decide_eq_true hb' hb

-- The handler makes a promise, having made none before.
theorem enlist {dm : DispatchMsg} {sock : ConnectionId} (hp : node.Paired)
    (hc : node.connections[c]? = some conn) (hh : conn.handler = .insert req dm sock) :
    ({ node with
        pending  := node.pending.insert req.dispatch { client := c, boot := dm.workerBoot }
        promises := node.promises.erase c
      }.update c { conn with handler := .send req dm sock }).Paired := by
  have keep {c' : ConnectionId} {req' : Request} (h : node.Has Handler.enlisted c' req')
      {node' : Node} (he : node'.connections = node.connections.insert c
        { conn with handler := .send req dm sock }) : node'.Has Handler.enlisted c' req' := by
    refine h.insert he fun conn₀ hc₀ hr => ?_
    cases hc.symm.trans hc₀
    simp [hh, Handler.enlisted] at hr
  constructor
  case pending =>
    intro d p h
    rcases Table.getElem?_insert_eq_some h with ⟨rfl, rfl⟩ | ⟨_, h⟩
    · exact ⟨by simp [update], req, ⟨_, Table.getElem?_insert_self .., rfl⟩, rfl⟩
    · obtain ⟨hf, req', hr, hd⟩ := hp.pending h
      refine ⟨?_, req', keep hr rfl, hd⟩
      simp [update, Std.ExtTreeMap.getElem?_erase, hf]
  case promises =>
    intro c' reply h
    obtain ⟨_, h⟩ := Table.getElem?_erase_eq_some h
    exact (hp.promises h).imp fun _ hr => keep hr rfl

-- The handler passes on what it has been promised.
theorem answer (hp : node.Paired) (hv : node.promises[c]? = some reply) :
    ({ node with promises := node.promises.erase c }.update c
      { conn with handler := .receive }).Paired where
  pending := by
    intro d p h
    have ⟨hf, req', hr, hd⟩ := hp.pending h
    have hne : c ≠ p.client := by
      rintro rfl
      simp [hv] at hf
    refine ⟨?_, req', hr.insert_ne rfl hne, hd⟩
    simp [update, Std.ExtTreeMap.getElem?_erase, hf]
  promises := by
    intro c' reply' h
    have ⟨hne, h⟩ := Table.getElem?_erase_eq_some h
    exact (hp.promises h).imp fun _ hr => hr.insert_ne rfl hne

variable [Platform]

theorem step (hp : node.Paired) (h : Step node input op node') : node'.Paired := by
  cases h
  case stay => exact hp
  case accept c hn =>
    refine hp.deliver ?_ (fun _ _ h => h) fun _ _ h => .inl (Table.mem_of_some h)
    intro c' req h
    refine h.insert rfl fun conn hc _ => ?_
    exact absurd (Table.mem_of_some hc) hn
  case handle            => exact ⟨hp.pending, hp.promises⟩
  case hello hc hr _ _   => exact hp.move hc rfl (by simp [hr, Handler.enlisted]) rfl rfl
  case move hc hm        => exact hp.move hc rfl (fun _ => hm.keeps_enlisted) rfl rfl
  case publish hc hh     => exact hp.move hc rfl (by simp [hh, Handler.enlisted]) rfl rfl
  case replace hc hh _   => exact hp.move hc rfl (by simp [hh, Handler.enlisted]) rfl rfl
  case resolve c conn _ _ _ _ hc hh =>
    refine resolveDispatch (hp.move hc rfl ?_ rfl rfl)
    simp [hh, Handler.enlisted]
  case fail hc hh _ _ =>
    refine resolveDispatch (hp.move hc rfl ?_ rfl rfl)
    simp [hh, Handler.enlisted]
  case sweep c conn _ _ hc hh =>
    have hp : (node.update c { conn with handler := .close }).Paired :=
      hp.move hc rfl (by simp [hh, Handler.enlisted]) rfl rfl
    exact hp.resolveDisconnect conn.boot
  case insert hc hh   => exact hp.enlist hc hh
  case answer hv      => exact hp.answer hv

end Paired

section Origin

variable [Platform] {p : ExecutionPlanId} {plan : ExecutionPlan}

-- A handler is busy with a request that it has received.
theorem Step.request_origin (h : Step node input op node')
    (hr : node'.Has Handler.request c req) :
    node.Has Handler.request c req ∨ (∀ req', ¬node.Has Handler.request c req') ∧
      ∃ payload drawn, input = .receive c .clientDispatch payload drawn ∧
        req.dispatch = drawn.dispatch := by
  rcases h.origin Handler.request_moved hr with hr | ⟨conn, _, hc, hm, hn⟩
  · exact .inl hr
  · rcases hm.request_origin hn with hr | ⟨hh, hi⟩
    · exact .inl ⟨conn, hc, hr⟩
    · refine .inr ⟨?_, hi⟩
      rintro req' ⟨conn', hc', hr'⟩
      cases hc.symm.trans hc'
      simp [hh, Handler.request] at hr'

theorem Step.held_origin (h : Step node input op node')
    (hr : node'.Has Handler.held c (d, reply)) :
    node.Has Handler.held c (d, reply) ∨
    ∃ payload drawn m rest, input = .receive c .result payload drawn ∧
      decodeResult payload = some (m, rest) ∧ op = some (.applyResult drawn.result m) ∧
      d = m.dispatch ∧ reply = resultReply m.plan (applyResult drawn.result m node.coord).fst := by
  rcases h.origin Handler.held_moved hr with hr | ⟨conn, _, hc, hm, hn⟩
  · exact .inl hr
  · exact (hm.held_origin hn).imp_left fun hr => ⟨conn, hc, hr⟩

-- A promise gets the reply that some handler was about to pass on, or it is ambiguous.
theorem Step.promise_origin (h : Step node input op node')
    (hv : node'.promises[c]? = some reply) :
    node.promises[c]? = some reply ∨
    ∃ (d : DispatchId) (p : Pending), node.pending[d]? = some p ∧ p.client = c ∧
      ((reply.ambiguous ∧ !reply.committed) ∨ ∃ c', node.Has Handler.held c' (d, reply)) := by
  cases h
  case resolve c' conn d _ _ _ hc hh =>
    rcases resolveDispatch_promises hv with hv | ⟨rfl, p, hp, hcl⟩
    · exact .inl hv
    · exact .inr ⟨d, p, hp, hcl, .inr ⟨c', conn, hc, by simp [hh, Handler.held]⟩⟩
  case fail req _ _ _ hc hh ha hn =>
    rcases resolveDispatch_promises hv with hv | ⟨rfl, p, hp, hcl⟩
    · exact .inl hv
    · exact .inr ⟨req.dispatch, p, hp, hcl, .inl ⟨ha, hn⟩⟩
  case sweep =>
    rcases resolveDisconnect_promises hv with hv | ⟨ha, d, p, hp, _, hcl⟩
    · exact .inl hv
    · exact .inr ⟨d, p, hp, hcl, .inl ha⟩
  case insert => exact .inl (Table.getElem?_erase_eq_some hv).2
  case answer => exact .inl (Table.getElem?_erase_eq_some hv).2
  all_goals exact .inl hv

theorem Step.prepares {aid : AttemptId}
    (h : Step node input (some (.prepareDispatch p d aid)) node') :
    ∃ c req, node.Has Handler.request c req ∧ req.plan = p ∧ req.dispatch = d := by
  cases h
  case handle hh => cases hh
  case hello ho  => cases ho
  case move c conn _ hc hm =>
    cases hm
    case prepare req _ _ _ hh _ => exact ⟨c, req, ⟨conn, hc, hh ▸ rfl⟩, rfl, rfl⟩
    case stale req _ _ _ hh _   => exact ⟨c, req, ⟨conn, hc, hh ▸ rfl⟩, rfl, rfl⟩

-- A plan is neither dropped nor replaced.
theorem Step.evolves (h : Step node input op node') (hg : node.genuine input)
    (hp : node.coord.plans[p]? = some plan) :
    ∃ plan', node'.coord.plans[p]? = some plan' ∧ plan.Evolves plan' := by
  rw [h.coord]
  cases op
  case none => exact ⟨plan, hp, .refl⟩
  case some op =>
    refine (step_refines op node.coord).evolves (Op.served.not_loads h.served) ?_ hp
    rintro o rfl
    cases h
    case hello ho => cases ho
    case move hm  => cases hm
    case handle hh =>
      cases hh
      exact of_decide_eq_true hg (Table.mem_of_some hp)

theorem Step.committed (h : Step node input op node') (hg : node.genuine input)
    (hc : node.coord.committed p) : node'.coord.committed p := by
  have ⟨plan, hp, hl⟩ := RuntimeState.committed_iff.mp hc
  have ⟨plan', hp', he⟩ := h.evolves hg hp
  exact RuntimeState.committed_iff.mpr ⟨plan', hp', (hl ▸ he.lifecycle).of_committed⟩

theorem Step.lost (h : Step node input op node') (hg : node.genuine input)
    (hl : node.coord.lost p) : node'.coord.lost p := by
  have ⟨plan, hp, hd, hn⟩ := RuntimeState.lost_iff.mp hl
  have ⟨plan', hp', he⟩ := h.evolves hg hp
  refine RuntimeState.lost_iff.mpr ⟨plan', hp', he.lifecycle.dead hd, ?_⟩
  exact he.lifecycle.not_committed hd hn

theorem Step.agrees (h : Step node input op node') (hg : node.genuine input)
    (ha : reply.Agrees node.coord p) : reply.Agrees node'.coord p where
  committed hc := h.committed hg (ha.committed hc)
  lost hc hn   := h.lost hg (ha.lost hc hn)

end Origin

section Genuine

variable {payload rest : Bytes} {drawn : Drawn} {m : ResultMsg}

-- The identity of a dispatch is not in use when it is drawn.
structure Unused (node : Node) (d : DispatchId) : Prop where
  plans   : node.coord.plans.All fun _ plan => plan.dispatchId ≠ some d
  request : ∀ c req, node.Has Handler.request c req → req.dispatch ≠ d
  held    : ∀ c reply, ¬node.Has Handler.held c (d, reply)

theorem genuine.unused (hg : node.genuine (.receive c .clientDispatch payload drawn)) :
    node.Unused drawn.dispatch := by
  simp [genuine] at hg
  constructor
  case plans => exact fun p plan h => hg.1 p plan h
  case request =>
    rintro c req ⟨conn, hc, hr⟩
    simpa [hr] using (hg.2 c conn hc).1
  case held =>
    rintro c reply ⟨conn, hc, hr⟩
    simpa [hr] using (hg.2 c conn hc).2

theorem genuine.accepts (hg : node.genuine (.receive c .result payload drawn))
    (hm : decodeResult payload = some (m, rest)) (hr : node.Has Handler.request c' req)
    (hd : req.dispatch = m.dispatch) :
    node.coord.lost req.plan ∨
      ∃ plan, node.coord.plans[m.plan]? = some plan ∧ Accepts node.coord plan m := by
  simp [genuine, hm] at hg
  obtain ⟨conn, hc, hr⟩ := hr
  simpa [hr, hd, Option.any_eq_true] using hg c' conn hc

end Genuine

-- Every reply that is passed on or promised agrees with what has become of the plan that its
-- client has asked for.
structure Faithful (node : Node) : Prop where
  distinct : ∀ {c c' req req'}, node.Has Handler.request c req → node.Has Handler.request c' req' →
    req.dispatch = req'.dispatch → c = c'
  owned    : ∀ {p plan c req}, node.coord.plans[p]? = some plan →
    node.Has Handler.request c req → plan.dispatchId = some req.dispatch → p = req.plan
  held     : ∀ {c d reply c' req}, node.Has Handler.held c (d, reply) →
    node.Has Handler.request c' req → req.dispatch = d → reply.Agrees node.coord req.plan
  promised : ∀ {c reply req}, node.promises[c]? = some reply → node.Has Handler.request c req →
    reply.Agrees node.coord req.plan

namespace Faithful

theorem start (l : Launch) (file : Option Bytes) : (l.start file).Faithful := by
  have none {α : Type} {f : Handler → Option α} {c : ConnectionId} {a : α} :
      ¬(l.start file).Has f c a := by
    rintro ⟨conn, hc, _⟩
    simp [Launch.start] at hc
  constructor
  case distinct => exact fun h => absurd h none
  case owned    => exact fun _ h => absurd h none
  case held     => exact fun h => absurd h none
  case promised => exact fun _ h => absurd h none

variable [Platform]

section Step

variable (hf : node.Faithful) (h : Step node input op node') (hg : node.genuine input)

include hf h hg

theorem distinct_step {req' : Request} (hr : node'.Has Handler.request c req)
    (hr' : node'.Has Handler.request c' req') (hd : req.dispatch = req'.dispatch) : c = c' := by
  rcases h.request_origin hr with ho | ⟨_, _, _, hi, he⟩
  · rcases h.request_origin hr' with ho' | ⟨_, _, _, hi', he'⟩
    · exact hf.distinct ho ho' hd
    · subst hi'
      exact absurd (hd.trans he') ((genuine.unused hg).request c req ho)
  · subst hi
    rcases h.request_origin hr' with ho' | ⟨_, _, _, hi', _⟩
    · exact absurd (hd.symm.trans he) ((genuine.unused hg).request c' req' ho')
    · cases hi'
      rfl

theorem owned_step {p : ExecutionPlanId} {plan' : ExecutionPlan}
    (hq : node'.coord.plans[p]? = some plan') (hr : node'.Has Handler.request c req)
    (hd : plan'.dispatchId = some req.dispatch) : p = req.plan := by
  -- The plan has had its dispatch before, or a handler has just prepared it.
  have hd' : (∃ plan, node.coord.plans[p]? = some plan ∧ plan.dispatchId = some req.dispatch) ∨
      ∃ c₀ req₀, node.Has Handler.request c₀ req₀ ∧ req₀.plan = p ∧
        req₀.dispatch = req.dispatch := by
    rw [h.coord] at hq
    cases op
    case none => exact .inl ⟨plan', hq, hd⟩
    case some op =>
      rcases (step_refines op node.coord).dispatchId (Op.served.not_loads h.served) hq hd with
        ho | ⟨aid, rfl⟩
      · exact .inl ho
      · exact .inr h.prepares
  rcases h.request_origin hr with ho | ⟨_, _, _, hi, he⟩
  · rcases hd' with ⟨plan, hq, hd⟩ | ⟨c₀, req₀, ho₀, rfl, hd⟩
    · exact hf.owned hq ho hd
    · cases hf.distinct ho₀ ho hd
      exact congrArg Request.plan (ho₀.unique ho)
  · subst hi
    have hu := genuine.unused hg
    rcases hd' with ⟨plan, hq, hd⟩ | ⟨c₀, req₀, ho₀, rfl, hd⟩
    · exact absurd (he ▸ hd) (hu.plans hq)
    · exact absurd (hd.trans he) (hu.request c₀ req₀ ho₀)

theorem held_step (hh : node'.Has Handler.held c (d, reply))
    (hr : node'.Has Handler.request c' req) (hd : req.dispatch = d) :
    reply.Agrees node'.coord req.plan := by
  rcases h.held_origin hh with ho | ⟨payload, drawn, m, rest, rfl, hm, rfl, rfl, rfl⟩
  · rcases h.request_origin hr with ho' | ⟨_, _, _, hi, he⟩
    · exact h.agrees hg (hf.held ho ho' hd)
    · subst hi
      rw [← hd, he] at ho
      exact absurd ho ((genuine.unused hg).held c reply)
  · rcases h.request_origin hr with ho' | ⟨_, _, _, hi, _⟩
    · by_cases ha : ∃ plan, node.coord.plans[m.plan]? = some plan ∧ Accepts node.coord plan m
      case pos =>
        have ⟨plan, hq, ha⟩ := ha
        rw [h.coord, ← hf.owned hq ho' (hd ▸ ha.dispatchId)]
        exact agrees_of_accepts hq ha
      case neg =>
        have hl := (genuine.accepts hg hm ho' hd).resolve_right ha
        have hn : (resultReply m.plan (applyResult drawn.result m node.coord).fst).committed =
            false :=
          not_committed_of_refused ha
        exact ⟨by simp [hn], fun _ _ => h.lost hg hl⟩
    · cases hi

theorem promised_step (hp : node.Paired) (hv : node'.promises[c]? = some reply)
    (hr : node'.Has Handler.request c req) : reply.Agrees node'.coord req.plan := by
  rcases h.request_origin hr with ho | ⟨hn, _⟩
  · rcases h.promise_origin hv with ho' | ⟨d, p, hpe, rfl, ho'⟩
    · exact h.agrees hg (hf.promised ho' ho)
    · have ⟨_, req', hr', hd⟩ := hp.pending hpe
      cases ho.unique hr'.request
      rcases ho' with ⟨ha, hc⟩ | ⟨c', ho'⟩
      · exact .of_ambiguous ha hc
      · exact h.agrees hg (hf.held ho' ho hd)
  · -- Nothing is promised to a client that has just made its request
    rcases h.promise_origin hv with hv | ⟨d, p, hpe, rfl, _⟩
    · have ⟨req', hr'⟩ := hp.promises hv
      exact absurd hr'.request (hn req')
    · have ⟨_, req', hr', _⟩ := hp.pending hpe
      exact absurd hr'.request (hn req')

theorem step (hp : node.Paired) : node'.Faithful where
  distinct := hf.distinct_step h hg
  owned    := hf.owned_step h hg
  held     := hf.held_step h hg
  promised := hf.promised_step h hg hp

end Step
end Faithful

theorem proceed_reply {sent : Bool} {disk : Disk}
    (h : (node.proceed c conn sent disk).fst = .reply c' reply) : c = c' := by
  cases hh : conn.handler <;> simp only [Node.proceed, hh, Node.answer] at h
  all_goals repeat' split at h
  all_goals first | contradiction | (cases h; rfl)

section Reply

variable [Platform]

theorem receive_reply {type : FrameType} {payload : Bytes} {drawn : Drawn}
    (h : (node.receive c conn type payload drawn).fst = .reply c' reply) : c = c' := by
  cases type <;> simp only [Node.receive] at h
  all_goals repeat' split at h
  all_goals first | contradiction | (cases h; rfl)

-- A thread that does not wait for a frame answers on its own.
theorem proceed_of_reply (hc : node.connections[c]? = some conn) (hn : conn.handler ≠ .receive)
    (h : (step input node).fst = .reply c reply) : ∃ sent disk, input = .proceed c sent disk := by
  cases input <;> simp only [step] at h
  case accept => contradiction
  case receive =>
    split at h
    case h_1 => contradiction
    case h_2 hl =>
      obtain ⟨hc', hr⟩ := listening_eq_some.mp hl
      cases receive_reply h
      cases hc.symm.trans hc'
      exact absurd hr hn
  case hangUp => split at h <;> contradiction
  case proceed sent disk =>
    split at h
    case h_1 => contradiction
    case h_2 =>
      cases proceed_reply h
      exact ⟨sent, disk, rfl⟩

-- Whoever waits is answered by what it has been promised.
theorem promise_of_reply (hc : node.connections[c]? = some conn) (hh : conn.handler = .wait req)
    (h : (step input node).fst = .reply c reply) : node.promises[c]? = some reply := by
  obtain ⟨sent, disk, rfl⟩ := proceed_of_reply hc (by simp [hh]) h
  simp only [step, hc, Node.proceed, hh] at h
  split at h
  case h_1 => contradiction
  case h_2 hv =>
    cases h
    exact hv

theorem reply_of_promise (hc : node.connections[c]? = some conn) (hh : conn.handler = .wait req)
    (hv : node.promises[c]? = some reply) (sent : Bool) (disk : Disk) :
    (step (.proceed c sent disk) node).fst = .reply c reply := by
  simp [step, hc, Node.proceed, hh, hv, Node.answer]

end Reply
end Node

-- A client that has waited for its dispatch is told what becomes of its plan.
theorem reply_agrees [Platform] (l : Launch) (file : Option Bytes) (run : List Input)
    (hc : Machine.EachStep
      (fun past input => (Node.machine.after (l.start file) past).genuine input) run) :
    ∀ (input : Input) (past : List Input), input :: past <:+ run →
    ∀ (c : ConnectionId) (conn : Connection) (req : Request) (reply : ClientReplyMsg),
      (Node.machine.after (l.start file) past).connections[c]? = some conn →
      conn.handler = .wait req →
      (Node.step input (Node.machine.after (l.start file) past)).fst = .reply c reply →
      (reply.committed → (Node.machine.after (l.start file) past).coord.committed req.plan) ∧
      (!reply.committed → !reply.ambiguous →
        ¬(Node.machine.after (l.start file) run).coord.committed req.plan) := by
  intro input past hs c conn req reply hconn hw hr
  have hs := (List.suffix_cons input past).trans hs
  have ⟨_, hf⟩ : (Node.machine.after (l.start file) past).Paired ∧
      (Node.machine.after (l.start file) past).Faithful := by
    refine Node.machine.invariant_of_eachStep (I := fun _ node => node.Paired ∧ node.Faithful)
      (l.start file) ⟨.start l file, .start l file⟩ ?_ (hc.suffix hs)
    intro past input hg ⟨hp, hf⟩
    have ⟨_, hs⟩ := Node.step_cases input (Node.machine.after (l.start file) past)
    exact ⟨hp.step hs, hf.step hs hg hp⟩
  have hv := Node.promise_of_reply hconn hw hr
  have hreq : (Node.machine.after (l.start file) past).Has Handler.request c req :=
    ⟨conn, hconn, by simp [hw, Handler.request]⟩
  have ha := hf.promised hv hreq
  refine ⟨ha.committed, fun hn hna => RuntimeState.lost.not_committed ?_⟩
  refine Node.machine.stable_of_eachStep (P := fun node => node.coord.lost req.plan)
    (l.start file) ?_ hc hs (ha.lost hn hna)
  intro past input hg hl
  have ⟨_, hs⟩ := Node.step_cases input (Node.machine.after (l.start file) past)
  exact hs.lost hg hl

open Deployment Writer in
theorem reply_agrees_of_deployment :
    let past := .proceed 1 true .replaced ::
      .receive 1 .result (encodeResult completion) { result := { value := 40 } } ::
      (request 6 ++ service)
    let node := Node.machine.after (({} : Launch).start none) past
    ∃ (conn : Connection) (req : Request) (reply : ClientReplyMsg),
      node.connections[2]? = some conn ∧ conn.handler = .wait req ∧
      (Node.step (.proceed 2 true .replaced) node).fst = .reply 2 reply ∧
      reply.committed ∧ node.coord.committed req.plan := by
  intro past node
  have hc : Machine.EachStep
      (fun past input => (Node.machine.after (({} : Launch).start none) past).genuine input)
      (.proceed 2 true .replaced :: past) := by
    decide +kernel
  have hw : node.connections[2]?.any (·.handler.waits.isSome) := by
    decide +kernel
  have hv : node.promises[2]?.any (·.committed) := by
    decide +kernel
  have ⟨conn, hconn, hw⟩ := (Option.any_eq_true _ _).mp hw
  have ⟨req, hw⟩ := Option.isSome_iff_exists.mp hw
  have hw := Handler.waits_eq_some.mp hw
  have ⟨reply, hv, hr⟩ := (Option.any_eq_true _ _).mp hv
  have ho := Node.reply_of_promise hconn hw hv true .replaced
  have ⟨ha, _⟩ := reply_agrees _ none _ hc _ past (List.suffix_refl _) 2 conn req reply hconn hw ho
  exact ⟨conn, req, reply, hconn, hw, ho, hr, ha hr⟩

-- A completion with a wrong attempt is refused, but the client is told so as if it were the
-- outcome. After that the genuine completion arrives.
open Deployment Writer in
theorem reply_contradicted :
    let past := .proceed 1 true .replaced ::
      .receive 1 .result (encodeResult { completion with attempt := { value := 31 } }) {} ::
      (request 6 ++ service)
    let run := .receive 1 .result (encodeResult completion) { result := { value := 40 } } ::
      .proceed 2 true .replaced :: past
    let node := Node.machine.after (({} : Launch).start none) past
    ∃ (conn : Connection) (req : Request) (reply : ClientReplyMsg),
      node.connections[2]? = some conn ∧ conn.handler = .wait req ∧
      (Node.step (.proceed 2 true .replaced) node).fst = .reply 2 reply ∧
      !reply.committed ∧ !reply.ambiguous ∧
      (Node.machine.after (({} : Launch).start none) run).coord.committed req.plan := by
  intro past run node
  have hw : node.connections[2]?.any fun conn => conn.handler.waits.any fun req =>
      (Node.machine.after (({} : Launch).start none) run).coord.committed req.plan := by
    decide +kernel
  have hv : node.promises[2]?.any fun reply => !reply.committed && !reply.ambiguous := by
    decide +kernel
  have ⟨conn, hconn, hw⟩ := (Option.any_eq_true _ _).mp hw
  have ⟨req, hw, hp⟩ := (Option.any_eq_true _ _).mp hw
  have hw := Handler.waits_eq_some.mp hw
  have ⟨reply, hv, hr⟩ := (Option.any_eq_true _ _).mp hv
  have ⟨hn, hna⟩ := Bool.and_eq_true_iff.mp hr
  exact ⟨conn, req, reply, hconn, hw, Node.reply_of_promise hconn hw hv true .replaced, hn, hna, hp⟩

end NMC
