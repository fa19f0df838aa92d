import NearMemoryCompute.Execution.Theorems.Capacity
import NearMemoryCompute.Execution.Theorems.Freshness
import NearMemoryCompute.Execution.Theorems.Revalidation

namespace NMC

open Coordinator

-- The capability set has been published for the given definition of its target.
def Describes (t : NearMemoryTargetId) (tdef : TargetDefinition) (caps : CapabilitySet)
    (e : Event RuntimeState Op Outcome) : Prop :=
  ∃ eid cid msg, e.input = .applyCapability eid cid msg ∧ e.output.succeeded ∧ msg.target = t ∧
    caps = msg.capabilitySet eid cid tdef

-- A target is registered only while it has no capability set that counts as current.
def Op.RegistersUndescribed (op : Op) (st : RuntimeState) : Prop :=
  match op with
  | .applyRegisterTarget msg =>
    ∀ caps, st.capabilities[msg.target]? = some caps → !caps.dynamicCurrent
  | _ => True

-- Every capability set that counts as current has been published for the definition that its target
-- now has, and the target has not been registered since.
def Bound (h : List (Event RuntimeState Op Outcome)) (reg : Registry) : Prop :=
  ∀ ⦃t : NearMemoryTargetId⦄ ⦃caps : CapabilitySet⦄, reg.capabilities[t]? = some caps →
    caps.dynamicCurrent → ∃ tdef, reg.targets[t]? = some tdef ∧
      Since (Describes t tdef caps) (Done (Op.registers t)) h

theorem onRegistry_of_registers {t : NearMemoryTargetId} (op : Op) (h : op.registers t) :
    op.onRegistry := by
  cases op <;> first | rfl | contradiction

theorem Bound.step {h : List (Event RuntimeState Op Outcome)} {e : Event RuntimeState Op Outcome}
    {st : RuntimeState} {reg : Registry} (hs : Registry.Step st.registry e.input e.output reg)
    (hc : e.input.RegistersUndescribed st) (hb : Bound h st.registry) : Bound (e :: h) reg := by
  intro t caps ht hcur
  have keep {reg' : Registry} (hn : ¬Done (Op.registers t) e)
      (ht : st.registry.capabilities[t]? = some caps) (hr : reg'.targets = st.registry.targets) :
      ∃ tdef, reg'.targets[t]? = some tdef ∧
        Since (Describes t tdef caps) (Done (Op.registers t)) (e :: h) := by
    have ⟨tdef, hd, hs⟩ := hb ht hcur
    exact ⟨tdef, hr ▸ hd, hs.later hn⟩
  obtain ⟨op, pre, out, post⟩ := e
  cases hs
  case idle hi =>
    exact keep (Registry.Step.not_done_of_idle onRegistry_of_registers hi) ht rfl
  case target msg =>
    have hne : msg.target ≠ t := by
      rintro rfl
      simpa [hcur] using hc caps ht
    have ⟨tdef, hd, hs⟩ := hb ht hcur
    refine ⟨tdef, (Table.getElem?_insert_ne _ _ hne).trans hd, hs.later fun hr => ?_⟩
    exact hne (of_decide_eq_true hr.1)
  case capability eid cid msg tdef hd =>
    rcases Table.getElem?_insert_eq_some ht with ⟨rfl, rfl⟩ | ⟨_, ht⟩
    · exact ⟨tdef, hd, .now ⟨eid, cid, msg, rfl, rfl, rfl, rfl⟩⟩
    · exact keep nofun ht rfl
  case lookup t' =>
    have ⟨tdef, hd, hs⟩ := hb ht hcur
    refine ⟨tdef, ?_, hs.later nofun⟩
    by_cases ht' : t' ∈ st.registry.targets
    case pos =>
      have ⟨_, ht'⟩ := Table.exists_of_mem ht'
      rwa [Table.subscript_snd_of_some _ _ ht']
    case neg =>
      have hne : t' ≠ t := by
        rintro rfl
        exact ht' (Table.mem_of_some hd)
      rwa [Table.subscript_snd_of_notMem _ _ ht', Table.getElem?_insert_ne _ _ hne]
  case fence =>
    have ⟨ht, _⟩ := current_of_map_ite (g := (·.dynamicCurrent)) (fun _ => rfl) ht hcur
    exact keep nofun ht rfl
  case disconnect =>
    have ⟨ht, _⟩ := current_of_map_ite (g := (·.dynamicCurrent)) (fun _ => rfl) ht hcur
    exact keep nofun ht rfl
  case advance =>
    obtain ⟨_, _, rfl⟩ := Table.getElem?_map_eq_some ht
    contradiction
  case load =>
    obtain ⟨_, _, rfl⟩ := Table.getElem?_map_eq_some ht
    contradiction
  all_goals exact keep nofun ht rfl

theorem bound_after [Platform] {cid : CoordinatorId} {run : List Op}
    (hc : Machine.EachStep (fun past op => op.RegistersUndescribed (after cid past)) run) :
    Bound (history cid run) (after cid run).registry := by
  refine machine.invariant_of_eachStep _ (I := fun past st => Bound (history cid past) st.registry)
    ?_ ?_ hc
  · intro t caps ht
    simp [init, RuntimeState.registry] at ht
  · intro past op hop hb
    exact hb.step (e := machine.event op (after cid past)) (step_registry op _) hop

-- The capabilities that a plan is made on have been published for the current definition of its
-- target, unless a target is registered again while its capabilities are current.
theorem capabilities_bound [Platform] {cid : CoordinatorId} {run : List Op}
    (hc : Machine.EachStep (fun past op => op.RegistersUndescribed (after cid past)) run)
    {id : ExecutionPlanId} {o : OperationId} {out : PlanOutput}
    (h : (plan id o (after cid run)).fst = .ok out) (hcr : out.created) :
    ∃ tdef caps, (after cid run).targets[out.plan.target]? = some tdef ∧
      (after cid run).capabilities[out.plan.target]? = some caps ∧
      out.plan.authority.snapshot.capabilityGeneration = caps.generation ∧
      out.plan.authority.snapshot.evidenceGeneration = caps.evidenceGeneration ∧
      caps.targetGeneration = tdef.generation ∧
      Since (Describes out.plan.target tdef caps) (Done (Op.registers out.plan.target))
        (history cid run) := by
  have ⟨sel, he, hp, _⟩ := plan_created h hcr
  have hcur := (sel.hardFilter_eq_nil he).2.2.1
  have ⟨tdef, ht, hs⟩ := bound_after hc sel.capabilities_eq hcur
  rw [hp]
  have ⟨_, _, _, _, ⟨eid, cid', msg, _, _, _, hcaps⟩, _⟩ := hs
  exact ⟨tdef, sel.caps, ht, sel.capabilities_eq, rfl, rfl, congrArg (·.targetGeneration) hcaps, hs⟩

section

open Deployment

-- The target is registered with a new generation, and the capabilities of the old one stay current.
def renewed : List Op :=
  .applyHeartbeat heartbeat ::
  .applyRegisterTarget { registration with generation := { value := 2 } } :: setup

theorem capabilities_outdated :
    let st := after { value := 1 } renewed
    (plan { value := 10 } { value := 1 } st).fst.toOption.any (fun out =>
      out.created ∧ out.plan.target = { value := 1 }) ∧
    st.capabilities[({ value := 1 } : NearMemoryTargetId)]?.any (fun caps =>
      st.targets[({ value := 1 } : NearMemoryTargetId)]?.any (fun tdef =>
        caps.targetGeneration ≠ tdef.generation)) := by
  decide +kernel

theorem capabilities_bound_of_deployment :
    ∃ tdef caps, (after { value := 1 } setup).targets[({ value := 1 } : NearMemoryTargetId)]? =
        some tdef ∧
      Since (Describes { value := 1 } tdef caps) (Done (Op.registers { value := 1 }))
        (history { value := 1 } setup) := by
  have ⟨out, ho, hc⟩ := exists_ok_of_map (f := fun out => (out.created, out.plan.target))
    (show (plan { value := 10 } { value := 1 } (after { value := 1 } setup)).fst.toOption.map _ =
      some (true, { value := 1 }) by decide +kernel)
  have ⟨hcr, ht⟩ := Prod.mk.inj hc
  have hr : Machine.EachStep
      (fun past op => op.RegistersUndescribed (after { value := 1 } past)) setup := by
    simp only [setup, Machine.eachStep_cons, Machine.eachStep_nil, Op.RegistersUndescribed,
      and_true, true_and]
    intro caps hcaps
    have hn : ((after { value := 1 } [.createOperation (operation { value := 3 }),
        .createOperation (operation { value := 2 }),
        .createOperation (operation { value := 1 })]).capabilities)[registration.target]?
          |>.isNone := by
      decide +kernel
    simp [hcaps] at hn
  obtain ⟨tdef, caps, hd, _, _, _, _, hs⟩ := capabilities_bound hr ho hcr
  rw [ht] at hd hs
  exact ⟨tdef, caps, hd, hs⟩

end
end NMC
