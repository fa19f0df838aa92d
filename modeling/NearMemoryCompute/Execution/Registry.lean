import NearMemoryCompute.Execution.Step

namespace NMC

-- What the coordinator knows about its surroundings: what has been registered, and the dynamic
-- evidence that workers have published.
structure Registry where
  operations    : Table OperationId OperationSpec
  policies      : Table PolicyId Policy
  targets       : Table NearMemoryTargetId TargetDefinition
  targetRuntime : Table NearMemoryTargetId TargetRuntime
  capabilities  : Table NearMemoryTargetId CapabilitySet
  dataEvidence  : Table DataRegionId DataEvidence

def RuntimeState.registry (st : RuntimeState) : Registry where
  operations    := st.operations
  policies      := st.policies
  targets       := st.targets
  targetRuntime := st.targetRuntime
  capabilities  := st.capabilities
  dataEvidence  := st.dataEvidence

namespace Registry

variable (reg : Registry)

def setRuntime (t : NearMemoryTargetId) (rt : TargetRuntime) : Registry :=
  { reg with targetRuntime := reg.targetRuntime.insert t rt }

-- Withdraws the evidence of one worker boot, and all of it.
def withdraw (boot : WorkerBootId) : Registry :=
  { reg with
    targetRuntime := reg.targetRuntime.map fun _ rt =>
      if rt.ownerBoot = boot then rt.invalidate else rt
    capabilities  := reg.capabilities.map fun _ cs =>
      if cs.publisher = boot then { cs with dynamicCurrent := false } else cs
    dataEvidence  := reg.dataEvidence.map fun _ ev =>
      if ev.publisher = boot then { ev with dynamicCurrent := false } else ev }

def withdrawAll : Registry :=
  { reg with
    targetRuntime := reg.targetRuntime.map fun _ rt => rt.invalidate
    capabilities  := reg.capabilities.map fun _ cs => { cs with dynamicCurrent := false }
    dataEvidence  := reg.dataEvidence.map fun _ ev => { ev with dynamicCurrent := false } }

end Registry

-- The operations that change the registry whenever they succeed.
def Op.onRegistry : Op → Bool
  | registerPolicy .. | createOperation .. | applyRegisterTarget .. | applyCapability ..
  | applyDataEvidence .. | applyHeartbeat .. | beginDrain .. | fenceWorker ..
  | onWorkerDisconnected .. | retireTarget .. | advanceEpoch | load .. => true
  | _ => false

-- The ways in which an operation can change the registry.
inductive Registry.Step (reg : Registry) : Op → Outcome → Registry → Prop
  | idle {op out} :
    (out.succeeded → !op.onRegistry) → Step reg op out reg
  | policy {pl} :
    pl.id ∉ reg.policies →
    Step reg (.registerPolicy pl) (.unit (.ok ()))
      { reg with policies := reg.policies.insert pl.id pl }
  | operation {op} :
    op.id ∉ reg.operations →
    Step reg (.createOperation op) (.unit (.ok ()))
      { reg with operations := reg.operations.insert op.id op }
  | target {msg} :
    Step reg (.applyRegisterTarget msg) (.unit (.ok ()))
      ({ reg with targets := reg.targets.insert msg.target msg.definition }.setRuntime
        msg.target msg.runtime)
  | capability {eid cid msg tdef} :
    reg.targets[msg.target]? = some tdef →
    Step reg (.applyCapability eid cid msg) (.unit (.ok ())) { reg with
      capabilities := reg.capabilities.insert msg.target (msg.capabilitySet eid cid tdef) }
  | evidence {msg} :
    Step reg (.applyDataEvidence msg) (.unit (.ok ()))
      { reg with dataEvidence := reg.dataEvidence.insert msg.region msg.dataEvidence }
  | heartbeat {msg rt} :
    reg.targetRuntime[msg.target]? = some rt →
    Step reg (.applyHeartbeat msg) (.unit (.ok ())) (reg.setRuntime msg.target (rt.heartbeat msg))
  | drain {t rt} :
    reg.targetRuntime[t]? = some rt →
    Step reg (.beginDrain t) (.unit (.ok ())) (reg.setRuntime t rt.drain)
  | lookup {p out t} :
    Step reg (.reserve p) out { reg with targets := (Table.subscript reg.targets t).snd }
  | fence {boot} :
    Step reg (.fenceWorker boot) (.unit (.ok ())) (reg.withdraw boot)
  | disconnect {boot} :
    Step reg (.onWorkerDisconnected boot) (.unit (.ok ())) (reg.withdraw boot)
  | retire {t rt} :
    reg.targetRuntime[t]? = some rt →
    Step reg (.retireTarget t) (.unit (.ok ())) (reg.setRuntime t rt.retire)
  | advance :
    Step reg .advanceEpoch (.unit (.ok ())) reg.withdrawAll
  | load {file loaded} :
    PersistentStore.load file decodeState = .ok loaded →
    Step reg (.load file) (.unit (.ok ())) loaded.registry.withdrawAll

-- The descriptions that operations refer to. They are written once and never change.
structure Catalog where
  memoryDomains : Table MemoryDomainId MemoryDomainDescriptor
  datasets      : Table DatasetId DatasetDescriptor
  regions       : Table DataRegionId DataRegionDescriptor
  programs      : Table KernelOrProgramId Program

def RuntimeState.catalog (st : RuntimeState) : Catalog where
  memoryDomains := st.memoryDomains
  datasets      := st.datasets
  regions       := st.regions
  programs      := st.programs

-- The ways in which an operation can change the catalog.
inductive Catalog.Step (cat : Catalog) : Op → Outcome → Catalog → Prop
  | idle {op out} :
    Step cat op out cat
  | memoryDomain {md} :
    md.id ∉ cat.memoryDomains →
    Step cat (.registerMemoryDomain md) (.unit (.ok ()))
      { cat with memoryDomains := cat.memoryDomains.insert md.id md }
  | dataset {ds} :
    ds.id ∉ cat.datasets →
    Step cat (.registerDataset ds) (.unit (.ok ()))
      { cat with datasets := cat.datasets.insert ds.id ds }
  | region {rg} :
    rg.id ∉ cat.regions →
    Step cat (.registerRegion rg) (.unit (.ok ()))
      { cat with regions := cat.regions.insert rg.id rg }
  | program {pg} :
    pg.id ∉ cat.programs →
    Step cat (.registerProgram pg) (.unit (.ok ()))
      { cat with programs := cat.programs.insert pg.id pg }
  | load {file loaded} :
    PersistentStore.load file decodeState = .ok loaded →
    Step cat (.load file) (.unit (.ok ())) loaded.catalog

end NMC
