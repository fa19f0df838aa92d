import NearMemoryCompute.Execution.Theorems.Provenance

namespace NMC

open Coordinator

-- The target still has the generation and the owner for which the dispatch was made.
def DispatchMsg.Current (m : DispatchMsg) (st : RuntimeState) : Prop :=
  (∃ tdef, st.targets[m.target]? = some tdef ∧ tdef.generation = m.targetGen) ∧
  (∃ trt, st.targetRuntime[m.target]? = some trt ∧ trt.ownerBoot = m.workerBoot)

-- The completion commits its plan.
def Commits (st : RuntimeState) (rid : ResultId) (msg : ResultMsg) : Prop :=
  ∃ r plan, (applyResult rid msg st).fst = .ok r ∧ r.committed ∧
    (applyResult rid msg st).snd.plans[msg.plan]? = some plan ∧ plan.lifecycle = .committed

-- The completion is refused without any effect.
def RefusedAsStale (st : RuntimeState) (rid : ResultId) (msg : ResultMsg) : Prop :=
  ∃ e, applyResult rid msg st = (.error e, st) ∧ e.code = "E_RESULT_STALE"

section Honest

variable {st : RuntimeState} {plan : ExecutionPlan} {m : DispatchMsg} {rid : ResultId}
         {r : BackendResult}

theorem applyResult_refused {msg : ResultMsg} {e : Error} (hp : st.plans[msg.plan]? = some plan)
    (he : completionError st plan msg = some e) : applyResult rid msg st = (.error e, st) := by
  simp only [applyResult, hp, he]

theorem commits_of_accepts {msg : ResultMsg} (hp : st.plans[msg.plan]? = some plan)
    (ha : Accepts st plan msg) (hu : !msg.unknown) (hi : intact msg) : Commits st rid msg := by
  have he := completionError_eq_none.mpr ha
  have hu : msg.unknown = false := by simpa using hu
  let res : ExecutionResult := { executionResult rid msg with
    verification := .verified
    outputDigest := msg.outputDigest
    committed    := true }
  have h : applyResult rid msg st =
      (.ok res, (complete st plan .committed res).releaseReservation plan) := by
    simp only [applyResult, hp, he, hu, hi]
    rfl
  rw [Commits, h]
  refine ⟨res, { plan with lifecycle := .committed }, rfl, rfl, ?_, rfl⟩
  change (RuntimeState.ledger _).plans[msg.plan]? = _
  rw [RuntimeState.releaseReservation_ledger]
  exact Table.getElem?_insert_self ..

-- An output that does not have the digest it comes with fails its plan.
theorem applyResult_mismatch {msg : ResultMsg} (hp : st.plans[msg.plan]? = some plan)
    (ha : Accepts st plan msg) (hu : !msg.unknown) (hi : ¬intact msg) (rid : ResultId) :
    let res := { executionResult rid msg with
      verification := .mismatch
      outputDigest := msg.outputDigest }
    applyResult rid msg st = (.ok res, complete st plan .failed res) := by
  have he := completionError_eq_none.mpr ha
  have hu : msg.unknown = false := by simpa using hu
  simp [applyResult, hp, he, hu, hi]

-- The worker's echo of a dispatch is accepted exactly if the dispatch is current. Everything else
-- agrees as long as the plan is dispatched.
theorem DispatchMsg.Carries.accepts_iff (hca : m.Carries plan) (hr : Resolves st plan)
    (hd : plan.lifecycle = .dispatched) :
    Accepts st plan (Worker.resultMsg m r) ↔ m.Current st := by
  have ⟨tdef, ht⟩ := Table.exists_of_mem hr.target
  have ⟨trt, hrt⟩ := Table.exists_of_mem hr.targetRuntime
  rw [← hca.target] at ht hrt
  constructor
  case mp =>
    intro ha
    exact ⟨⟨tdef, ht, ha.targets tdef ht⟩, ⟨trt, hrt, ha.targetRuntime trt hrt⟩⟩
  case mpr =>
    intro ⟨⟨tdef', ht', hg⟩, ⟨trt', hrt', hb⟩⟩
    exact {
      inFlight      := hd ▸ rfl
      epoch         := hca.authority.epoch.trans hr.epoch
      targets       := fun _ h => Option.some.inj (h.symm.trans ht') ▸ hg
      targetRuntime := fun _ h => Option.some.inj (h.symm.trans hrt') ▸ hb
      authority     := ⟨hca.authority.plan, hca.authority.planGeneration,
        hca.authority.targetGeneration, hca.authority.workerBoot, hca.authority.epoch,
        hca.authority.datasetGeneration, hca.authority.regionGeneration,
        hca.authority.operationGeneration⟩
      dispatchId    := hca.dispatch
      attemptId     := hca.attempt }

-- A completion for a target that has moved is stale, whatever else it says.
theorem stale_of_moved {msg : ResultMsg} (hd : plan.lifecycle = .dispatched)
    (he : msg.epoch = st.epoch)
    (hm : (∃ tdef ∈ st.targets[msg.target]?, tdef.generation ≠ msg.targetGen) ∨
      (∃ trt ∈ st.targetRuntime[msg.target]?, trt.ownerBoot ≠ msg.workerBoot)) :
    ∃ e, completionError st plan msg = some e ∧ e.code = "E_RESULT_STALE" := by
  unfold completionError
  rw [if_neg (by simp [hd]), if_neg (by simp [hd]),
    if_neg (by simp [hd, ExecutionLifecycle.inFlight]), if_neg (not_not.mpr he)]
  by_cases hg : ∃ tdef ∈ st.targets[msg.target]?, tdef.generation ≠ msg.targetGen
  case pos => exact ⟨_, if_pos hg, rfl⟩
  case neg =>
    rw [if_neg hg, if_pos (hm.resolve_left hg)]
    exact ⟨_, rfl, rfl⟩

theorem DispatchMsg.Carries.moved (hca : m.Carries plan) (hr : Resolves st plan)
    (hn : ¬m.Current st) :
    (∃ tdef ∈ st.targets[m.target]?, tdef.generation ≠ m.targetGen) ∨
    (∃ trt ∈ st.targetRuntime[m.target]?, trt.ownerBoot ≠ m.workerBoot) := by
  have ⟨tdef, ht⟩ := Table.exists_of_mem hr.target
  have ⟨trt, hrt⟩ := Table.exists_of_mem hr.targetRuntime
  rw [← hca.target] at ht hrt
  by_cases hg : tdef.generation = m.targetGen
  case pos => exact .inr ⟨trt, hrt, fun hb => hn ⟨⟨tdef, ht, hg⟩, ⟨trt, hrt, hb⟩⟩⟩
  case neg => exact .inl ⟨tdef, ht, hg⟩

end Honest

-- The completion of an honest worker is never lost.
theorem honest_completion [Platform] {cid : CoordinatorId} {run : List Op} {p : ExecutionPlanId}
    {plan : ExecutionPlan} (hp : (after cid run).plans[p]? = some plan)
    (hd : plan.lifecycle = .dispatched) :
    ∃ m, lastDispatch p (history cid run) = some m ∧
      ∀ rid output note,
        let msg := Worker.resultMsg m { ok := true, output, digest := contentDigest output, note }
        (Commits (after cid run) rid msg ↔ m.Current (after cid run)) ∧
        (¬m.Current (after cid run) → RefusedAsStale (after cid run) rid msg) := by
  have hr := (resolvable_after cid run).live hp (hd ▸ rfl)
  have ⟨m, hm, hca⟩ := (recorded_after cid run hp).dispatched hd
  refine ⟨m, hm, ?_⟩
  intro rid output note msg
  have hmp : msg.plan = p :=
    hca.authority.plan.trans (hr.authority.trans ((resolvable_after cid run).plans hp))
  have hp : (after cid run).plans[msg.plan]? = some plan := by rw [hmp, hp]
  have hep : msg.epoch = (after cid run).epoch := hca.authority.epoch.trans hr.epoch
  have refused (hn : ¬m.Current (after cid run)) : RefusedAsStale (after cid run) rid msg := by
    have ⟨e, he, hs⟩ := stale_of_moved hd hep (hca.moved hr hn)
    exact ⟨e, applyResult_refused hp he, hs⟩
  refine ⟨⟨?_, ?_⟩, refused⟩
  · intro ⟨r, _, hc, _⟩
    by_contra hn
    have ⟨e, he, _⟩ := refused hn
    rw [he] at hc
    contradiction
  · intro hcur
    have hi : intact msg := decide_eq_true rfl
    exact commits_of_accepts hp ((hca.accepts_iff hr hd).mpr hcur) rfl hi

open Deployment in
theorem honest_completion_of_deployment :
    ∃ m, lastDispatch { value := 10 } (history { value := 1 } (dispatch ++ setup)) = some m ∧
      ∀ rid output note,
        Commits (after { value := 1 } (dispatch ++ setup)) rid (Worker.resultMsg m
          { ok := true, output, digest := contentDigest output, note }) := by
  have hl : (after { value := 1 } (dispatch ++ setup)).plans[({ value := 10 } :
      ExecutionPlanId)]?.map (·.lifecycle) = some .dispatched := by
    decide +kernel
  have hx : (lastDispatch { value := 10 } (history { value := 1 } (dispatch ++ setup))).map
      (fun m => (m.target, m.targetGen, m.workerBoot)) =
        some ({ value := 1 }, { value := 1 }, { value := 1 }) := by
    decide +kernel
  have ht : (after { value := 1 } (dispatch ++ setup)).targets[({ value := 1 } :
      NearMemoryTargetId)]?.map (·.generation) = some { value := 1 } := by
    decide +kernel
  have hb : (after { value := 1 } (dispatch ++ setup)).targetRuntime[({ value := 1 } :
      NearMemoryTargetId)]?.map (·.ownerBoot) = some { value := 1 } := by
    decide +kernel
  have ⟨plan, hp, hl⟩ := Option.map_eq_some_iff.mp hl
  have ⟨m, hm, hall⟩ := honest_completion hp hl
  rw [hm, Option.map_some, Option.some.injEq, Prod.mk.injEq, Prod.mk.injEq] at hx
  obtain ⟨hmt, hmg, hmb⟩ := hx
  refine ⟨m, hm, fun rid output note => (hall rid output note).1.mpr ⟨?_, ?_⟩⟩
  · rw [hmt, hmg]
    exact Option.map_eq_some_iff.mp ht
  · rw [hmt, hmb]
    exact Option.map_eq_some_iff.mp hb

end NMC
