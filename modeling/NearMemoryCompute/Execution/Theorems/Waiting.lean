import NearMemoryCompute.Execution.Theorems.Node

namespace NMC

open Reader

namespace Handler

-- The dispatch that a client waits for.
def awaits : Handler → Option DispatchId
  | wait req => some req.dispatch
  | _        => none

-- The boot whose socket has been looked up while nothing is pending for it yet.
def seeks : Handler → Option WorkerBootId
  | confirm _ dm _ | insert _ dm _ => some dm.workerBoot
  | _                              => none

def isSweep : Handler → Bool
  | sweep => true
  | _     => false

-- The end of the connection has been made known to those who wait.
def swept : Handler → Bool
  | close | closed => true
  | _              => false

end Handler

namespace Node

-- The connection belongs to a worker with the boot, and has still to make its end known.
def Serves (node : Node) (boot : WorkerBootId) (c : ConnectionId) : Prop :=
  ∃ conn, node.connections[c]? = some conn ∧ conn.isWorker ∧ conn.boot = boot ∧
    conn.handler.swept = false

-- A worker does not change its boot, and its end is not made known while there is a handler that
-- has looked up its socket and will wait for it.
def undisturbed (node : Node) : Input → Bool
  | .receive c .hello payload _ =>
    node.connections[c]?.all fun conn =>
      !conn.isWorker || (decodeHello payload).all (·.fst.workerBoot = conn.boot)
  | .proceed c _ _ =>
    node.connections[c]?.all fun conn =>
      !conn.handler.isSweep || node.connections.toList.all (·.snd.handler.seeks ≠ some conn.boot)
  | _ => true

-- Whoever is known as a worker or waited for can still make the end of its connection known.
structure Attended (node : Node) : Prop where
  greeted : node.connections.All fun _ conn => conn.handler = .publish → conn.isWorker
  workers : node.workers.All node.Serves
  sought  : node.connections.All fun _ conn =>
    ∀ boot, conn.handler.seeks = some boot → ∃ c, node.Serves boot c
  pending : node.pending.All fun _ p => ∃ c, node.Serves p.boot c

variable {node node' : Node} {c : ConnectionId} {conn conn' : Connection} {boot : WorkerBootId}

-- What the thread of a connection may do without ending its service.
def Maintains (node : Node) (c : ConnectionId) (conn' : Connection) : Prop :=
  ∀ conn, node.connections[c]? = some conn → conn.isWorker → conn.handler.swept = false →
    conn'.boot = conn.boot ∧ conn'.isWorker ∧ conn'.handler.swept = false

theorem Maintains.of_handler {h : Handler} (hc : node.connections[c]? = some conn)
    (hs : conn.isWorker → conn.handler.swept = false → h.swept = false) :
    node.Maintains c { conn with handler := h } := by
  intro conn₀ hc₀ hw hn
  cases hc.symm.trans hc₀
  exact ⟨rfl, hw, hs hw hn⟩

theorem Serves.update {w : ConnectionId} (h : node.Serves boot w) (hk : node.Maintains c conn')
    (he : node'.connections = node.connections.insert c conn') : node'.Serves boot w := by
  obtain ⟨conn, hw, hi, rfl, hs⟩ := h
  by_cases hcw : c = w
  case pos =>
    subst hcw
    have ⟨hb, hi, hs⟩ := hk conn hw hi hs
    exact ⟨conn', by rw [he, Table.getElem?_insert_self], hi, hb, hs⟩
  case neg =>
    exact ⟨conn, by rw [he, Table.getElem?_insert_ne _ _ hcw, hw], hi, rfl, hs⟩

variable {input : Input} {op : Option Op} {handler : Handler}

theorem Move.not_swept (h : Move node c conn input op handler) (hw : conn.isWorker)
    (hs : conn.handler.swept = false) : handler.swept = false := by
  cases h
  case leave hn => exact absurd hw hn
  case close hc => simp [hc, Handler.swept] at hs
  all_goals rfl

theorem Move.not_publish (h : Move node c conn input op handler) : handler ≠ .publish := by
  cases h <;> nofun

theorem Move.seeks (h : Move node c conn input op handler) (hs : handler.seeks = some boot) :
    conn.handler.seeks = some boot ∨ ∃ w, node.workers[boot]? = some w := by
  cases h
  case lookup hw =>
    cases hs
    exact .inr ⟨_, hw⟩
  case confirm hh _ =>
    cases hs
    simp [hh, Handler.seeks]
  all_goals contradiction

theorem Attended.start (l : Launch) (file : Option Bytes) : (l.start file).Attended where
  greeted := .empty
  workers := .empty
  sought  := .empty
  pending := .empty

-- A step of a thread that does not end its service, after which whoever is known or waited for has
-- been so before.
theorem Attended.update (ha : node.Attended)
    (he : node'.connections = node.connections.insert c conn') (hk : node.Maintains c conn')
    (hg : conn'.handler = .publish → conn'.isWorker)
    (hs : ∀ boot, conn'.handler.seeks = some boot → ∃ w, node.Serves boot w)
    (hw : node'.workers.All fun boot w => node.Serves boot w ∨ node'.Serves boot w)
    (hp : node'.pending.All fun _ p => ∃ w, node.Serves p.boot w) : node'.Attended := by
  have keep {boot w} (h : node.Serves boot w) : node'.Serves boot w := h.update hk he
  have kept {boot} (h : ∃ w, node.Serves boot w) : ∃ w, node'.Serves boot w :=
    h.imp fun _ => keep
  constructor
  case greeted => exact he ▸ ha.greeted.insert hg
  case workers =>
    intro boot w h
    exact (hw h).elim keep id
  case sought =>
    rw [he]
    refine Table.All.insert ?_ fun boot h => kept (hs boot h)
    exact fun c conn h boot hb => kept (ha.sought h boot hb)
  case pending => exact fun d p h => kept (hp h)

theorem Attended.resolveDispatch (ha : node.Attended) {d : DispatchId} {reply : ClientReplyMsg} :
    (node.resolveDispatch d reply).Attended := by
  have serves {boot : WorkerBootId} {w : ConnectionId} (h : node.Serves boot w) :
      (node.resolveDispatch d reply).Serves boot w := by
    simpa [Serves] using h
  constructor
  case greeted => simpa using ha.greeted
  case workers =>
    rw [resolveDispatch_workers]
    exact fun _ _ h => serves (ha.workers h)
  case sought =>
    rw [resolveDispatch_connections]
    exact fun _ _ h boot hb => (ha.sought h boot hb).imp fun _ => serves
  case pending =>
    rw [resolveDispatch_pending]
    exact fun _ _ h => (ha.pending.erase d h).imp fun _ => serves

-- The end of a connection takes everything with it that depends on its boot.
theorem Attended.sweep (ha : node.Attended) (hc : node.connections[c]? = some conn)
    (hu : node.connections.All fun _ conn' => conn'.handler.seeks ≠ some conn.boot) :
    ((node.update c { conn with handler := .close }).resolveDisconnect conn.boot).Attended := by
  have keep {boot w} (hb : boot ≠ conn.boot) (h : node.Serves boot w) :
      ((node.update c { conn with handler := .close }).resolveDisconnect conn.boot).Serves
        boot w := by
    obtain ⟨conn₀, hw, hi, rfl, hs⟩ := h
    refine ⟨conn₀, ?_, hi, rfl, hs⟩
    have hne : c ≠ w := by
      rintro rfl
      cases hc.symm.trans hw
      exact hb rfl
    exact (Table.getElem?_insert_ne _ _ hne).trans hw
  constructor
  case greeted => exact ha.greeted.insert nofun
  case workers =>
    intro boot w h
    have ⟨hb, hw⟩ := Table.getElem?_erase_eq_some h
    exact keep hb.symm (ha.workers hw)
  case sought =>
    refine Table.All.insert ?_ nofun
    intro c' conn' h boot hb
    have ⟨w, hw⟩ := ha.sought h boot hb
    exact ⟨w, keep (fun he => hu h (he ▸ hb)) hw⟩
  case pending =>
    intro d p h
    have ⟨h, hb⟩ := Table.getElem?_filter_eq_some.mp h
    have ⟨w, hw⟩ := ha.pending h
    exact ⟨w, keep (of_decide_eq_true hb) hw⟩

variable [Platform]

theorem Attended.step (ha : node.Attended) (h : Step node input op node')
    (hu : node.undisturbed input) : node'.Attended := by
  -- What holds of most steps: nobody becomes known, and nobody is waited for in addition
  have workers {node' : Node} :
      node.workers.All fun boot w => node.Serves boot w ∨ node'.Serves boot w :=
    fun _ _ h => .inl (ha.workers h)
  have idle {h : Handler} (hn : h.seeks = none) (boot : WorkerBootId)
      (hs : h.seeks = some boot) : ∃ w, node.Serves boot w := by
    simp [hn] at hs
  cases h
  case stay => exact ha
  case accept hn =>
    refine ha.update rfl ?_ nofun (idle rfl) workers ha.pending
    intro conn hc
    exact absurd (Table.mem_of_some hc) hn
  case handle => exact ⟨ha.greeted, ha.workers, ha.sought, ha.pending⟩
  case hello c conn _ _ m _ hc hr hm _ =>
    refine ha.update rfl ?_ (fun _ => rfl) (idle rfl) workers ha.pending
    intro conn₀ hc₀ hw _
    cases hc.symm.trans hc₀
    simp [undisturbed, hc, hm, hw] at hu
    exact ⟨hu, rfl, rfl⟩
  case move hc hm =>
    refine ha.update rfl (.of_handler hc hm.not_swept) (absurd · hm.not_publish) ?_ workers
      ha.pending
    intro boot hs
    cases hm.seeks hs
    case inl hs => exact ha.sought hc boot hs
    case inr hw => exact hw.imp fun _ h => ha.workers h
  case publish c conn _ _ hc hh =>
    refine ha.update rfl (.of_handler hc fun _ _ => rfl) nofun (idle rfl) ?_ ha.pending
    have hw := ha.greeted hc hh
    exact workers.insert (.inr ⟨_, Table.getElem?_insert_self .., hw, rfl, rfl⟩)
  case replace hc _ _ =>
    exact ha.update rfl (.of_handler hc fun _ _ => rfl) nofun (idle rfl) workers ha.pending
  case resolve hc _ =>
    apply Attended.resolveDispatch
    exact ha.update rfl (.of_handler hc fun _ _ => rfl) nofun (idle rfl) workers ha.pending
  case fail hc _ _ _ =>
    apply Attended.resolveDispatch
    exact ha.update rfl (.of_handler hc fun _ _ => rfl) nofun (idle rfl) workers ha.pending
  case insert hc hh =>
    refine ha.update rfl (.of_handler hc fun _ _ => rfl) nofun (idle rfl) workers ?_
    exact ha.pending.insert (ha.sought hc _ (by simp [hh, Handler.seeks]))
  case answer hc _ _ =>
    exact ha.update rfl (.of_handler hc fun _ _ => rfl) nofun (idle rfl) workers ha.pending
  case sweep c conn _ _ hc hh =>
    refine ha.sweep hc fun c' conn' hc' => ?_
    simp [undisturbed, hc, hh, Handler.isSweep] at hu
    exact hu c' conn' hc'

end Node

-- Whoever waits for a dispatch can still be told that the worker is gone.
theorem no_orphaned_waiter [Platform] (l : Launch) (file : Option Bytes) (run : List Input)
    (hc : Machine.EachStep
      (fun past input => (Node.machine.after (l.start file) past).undisturbed input) run) :
    ∀ (c : ConnectionId) (conn : Connection) (d : DispatchId) (p : Pending),
      (Node.machine.after (l.start file) run).connections[c]? = some conn →
      conn.handler.awaits = some d →
      (Node.machine.after (l.start file) run).pending[d]? = some p →
      ∃ w, (Node.machine.after (l.start file) run).Serves p.boot w := by
  have ha : (Node.machine.after (l.start file) run).Attended := by
    refine Node.machine.invariant_of_eachStep (I := fun _ => Node.Attended) (l.start file) ?_ ?_ hc
    · exact .start l file
    · intro past input hu ha
      have ⟨_, hs⟩ := Node.step_cases input (Node.machine.after (l.start file) past)
      exact ha.step hs hu
  intro c conn d p _ _ hp
  exact ha.pending hp

open Deployment in
theorem no_orphaned_waiter_of_deployment :
    let node := Node.machine.after (({} : Launch).start none) (request 6 ++ service)
    (∃ conn, node.connections[2]? = some conn ∧ conn.handler.awaits = some { value := 20 }) ∧
    (∃ p, node.pending[({ value := 20 } : DispatchId)]? = some p ∧
      ∃ w, node.Serves p.boot w) := by
  intro node
  have hc : Machine.EachStep (fun past input =>
      (Node.machine.after (({} : Launch).start none) past).undisturbed input)
      (request 6 ++ service) := by
    decide +kernel
  have hw : node.connections[2]?.any (·.handler.awaits = some { value := 20 }) := by
    decide +kernel
  have hp : node.pending[({ value := 20 } : DispatchId)]?.isSome := by
    decide +kernel
  have ⟨conn, hconn, hw⟩ := (Option.any_eq_true _ _).mp hw
  have hw := of_decide_eq_true hw
  have ⟨p, hp⟩ := Option.isSome_iff_exists.mp hp
  have hs := no_orphaned_waiter {} none (request 6 ++ service) hc 2 conn _ p hconn hw hp
  exact ⟨⟨conn, hconn, hw⟩, p, hp, hs⟩

-- The connection of the worker ends between the lookup of its socket and the entry of the client.
-- The frame can still be sent, but nobody is left to tell the client.
open Deployment in
theorem waiter_orphaned :
    let run : List Input :=
      List.replicate 2 (.proceed 2 true .replaced) ++
      [.proceed 1 true .replaced, .proceed 1 true .replaced, .hangUp 1] ++ request 4 ++ service
    let node := Node.machine.after (({} : Launch).start none) run
    (∃ conn, node.connections[2]? = some conn ∧ conn.handler.awaits = some { value := 20 }) ∧
    (∃ p, node.pending[({ value := 20 } : DispatchId)]? = some p ∧
      ¬∃ w, node.Serves p.boot w) := by
  intro run node
  have hw : node.connections[2]?.any (·.handler.awaits = some { value := 20 }) := by
    decide +kernel
  have hp : node.pending[({ value := 20 } : DispatchId)]?.any (·.boot = { value := 1 }) := by
    decide +kernel
  have hs : ∀ e ∈ node.connections.toList,
      e.snd.isWorker → e.snd.boot = { value := 1 } → e.snd.handler.swept := by
    decide +kernel
  have ⟨conn, hconn, hw⟩ := (Option.any_eq_true _ _).mp hw
  have ⟨p, hp, hb⟩ := (Option.any_eq_true _ _).mp hp
  have hb := of_decide_eq_true hb
  refine ⟨⟨conn, hconn, of_decide_eq_true hw⟩, p, hp, ?_⟩
  rintro ⟨w, conn', hc', hi, hb', hn⟩
  have hs := hs (w, conn') (Std.ExtTreeMap.mem_toList_iff_getElem?_eq_some.mpr hc') hi
  exact absurd (hs (hb'.trans hb)) (by simp [hn])

end NMC
