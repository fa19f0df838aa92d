import NearMemoryCompute.Execution.Theorems.Codec

namespace NMC

open Parser Reader Writer

-- What is required of a record so that it can be read back: its strings and lists are short enough,
-- and its enumerations have no other values than the enumerators.
@[mk_iff]
structure DataShape.Storable (s : DataShape) : Prop where
  dataType : s.dataType.canonical
  layout   : s.layout.canonical

@[mk_iff]
structure MemoryDomainDescriptor.Storable (v : MemoryDomainDescriptor) : Prop where
  name : Fits v.name

@[mk_iff]
structure DatasetDescriptor.Storable (v : DatasetDescriptor) : Prop where
  name     : Fits v.name
  producer : Fits v.producer

@[mk_iff]
structure DataRegionDescriptor.Storable (v : DataRegionDescriptor) : Prop where
  shape     : v.shape.Storable
  integrity : v.integrity.canonical

@[mk_iff]
structure Program.Storable (v : Program) : Prop where
  name       : Fits v.name
  opClass    : v.opClass.canonical
  targetKind : v.targetKind.canonical
  digest     : Fits v.digest
  dataTypes  : Short (Raw.canonical ·) v.dataTypes
  layouts    : Short (Raw.canonical ·) v.layouts
  lifecycle  : v.lifecycle.canonical

@[mk_iff]
structure Policy.Storable (v : Policy) : Prop where
  name               : Fits v.name
  outcome            : v.outcome.canonical
  permittedFallbacks : Short (Raw.canonical ·) v.permittedFallbacks

@[mk_iff]
structure OperationSpec.Storable (v : OperationSpec) : Prop where
  opClass        : v.opClass.canonical
  shape          : v.shape.Storable
  outputDataType : v.outputDataType.canonical
  integrity      : v.integrity.canonical
  retryClass     : v.retryClass.canonical
  description    : Fits v.description

@[mk_iff]
structure TargetDefinition.Storable (v : TargetDefinition) : Prop where
  provider           : v.provider.canonical
  kind               : v.kind.canonical
  name               : Fits v.name
  description        : Fits v.description
  memoryDomains      : Short (fun _ => True) v.memoryDomains
  supportedOps       : Short (Raw.canonical ·) v.supportedOps
  supportedDataTypes : Short (Raw.canonical ·) v.supportedDataTypes
  supportedLayouts   : Short (Raw.canonical ·) v.supportedLayouts
  accessSemantics    : v.accessSemantics.canonical
  authorityOwner     : Fits v.authorityOwner

@[mk_iff]
structure ExecutionPlan.Storable (v : ExecutionPlan) : Prop where
  opClass    : v.opClass.canonical
  retryClass : v.retryClass.canonical
  notes      : Short Fits v.notes

-- The authority of the plan names the plan that carries it.
@[mk_iff]
structure ExecutionPlan.SelfNamed (v : ExecutionPlan) : Prop where
  plan           : v.authority.plan = v.id
  planGeneration : v.authority.planGeneration = v.generation

@[mk_iff]
structure ExecutionResult.Storable (v : ExecutionResult) : Prop where
  outputDigest : Fits v.outputDigest
  note         : Fits v.note

instance : DecidablePred DataShape.Storable :=
  fun s => decidable_of_iff' _ (DataShape.storable_iff s)

instance : DecidablePred MemoryDomainDescriptor.Storable :=
  fun v => decidable_of_iff' _ (MemoryDomainDescriptor.storable_iff v)

instance : DecidablePred DatasetDescriptor.Storable :=
  fun v => decidable_of_iff' _ (DatasetDescriptor.storable_iff v)

instance : DecidablePred DataRegionDescriptor.Storable :=
  fun v => decidable_of_iff' _ (DataRegionDescriptor.storable_iff v)

instance : DecidablePred Program.Storable :=
  fun v => decidable_of_iff' _ (Program.storable_iff v)

instance : DecidablePred Policy.Storable :=
  fun v => decidable_of_iff' _ (Policy.storable_iff v)

instance : DecidablePred OperationSpec.Storable :=
  fun v => decidable_of_iff' _ (OperationSpec.storable_iff v)

instance : DecidablePred TargetDefinition.Storable :=
  fun v => decidable_of_iff' _ (TargetDefinition.storable_iff v)

instance : DecidablePred ExecutionPlan.Storable :=
  fun v => decidable_of_iff' _ (ExecutionPlan.storable_iff v)

instance : DecidablePred ExecutionPlan.SelfNamed :=
  fun v => decidable_of_iff' _ (ExecutionPlan.selfNamed_iff v)

instance : DecidablePred ExecutionResult.Storable :=
  fun v => decidable_of_iff' _ (ExecutionResult.storable_iff v)

theorem shape_codec : Codec getShape putShape DataShape.Storable where
  reads _ h :=
    .cons (getRaw_reads h.dataType) <| .cons (getRaw_reads h.layout) <|
    .cons (readU64_reads _) <| .cons (readU64_reads _) .nil
  ensures :=
    .bind getRaw_ensures fun _ hd => .bind getRaw_ensures fun _ hl =>
    .skip fun _ => .skip fun _ => .pure ⟨hd, hl⟩

theorem getSnapshot_reads (s : AuthoritySnapshot) : Reads getSnapshot (putSnapshot s) s :=
  .cons (getGen_reads _) <| .cons (getId_reads _) <| .cons (getId_reads _) <|
  .cons (getGen_reads _) <| .cons (getGen_reads _) <| .cons (getGen_reads _) <|
  .cons (getGen_reads _) <| .cons (getGen_reads _) <|
  .cons (getOption_reads getGen_reads _) <|
  .cons (getGen_reads _) <| .cons (getGen_reads _) <| .cons (getGen_reads _) <|
  .cons (getGen_reads _) .nil

theorem memoryDomain_codec :
    Codec getMemoryDomain putMemoryDomain MemoryDomainDescriptor.Storable where
  reads _ h :=
    .cons (getId_reads _) <| .cons (getGen_reads _) <| .cons (readString_reads h.name) <|
    .cons (getBool_reads _) .nil
  ensures :=
    .skip fun _ => .skip fun _ => .bind readString_ensures fun _ hn => .skip fun _ => .pure ⟨hn⟩

theorem dataset_codec : Codec getDataset putDataset DatasetDescriptor.Storable where
  reads _ h :=
    .cons (getId_reads _) <| .cons (getGen_reads _) <| .cons (readString_reads h.name) <|
    .cons (readString_reads h.producer) <| .cons (getBool_reads _) .nil
  ensures :=
    .skip fun _ => .skip fun _ => .bind readString_ensures fun _ hn =>
    .bind readString_ensures fun _ hp => .skip fun _ => .pure ⟨hn, hp⟩

theorem region_codec : Codec getRegion putRegion DataRegionDescriptor.Storable where
  reads _ h :=
    .cons (getId_reads _) <| .cons (getGen_reads _) <| .cons (getId_reads _) <|
    .cons (getGen_reads _) <| .cons (getId_reads _) <| .cons (readU64_reads _) <|
    .cons (readU64_reads _) <| .cons (shape_codec.reads h.shape) <|
    .cons (getRaw_reads h.integrity) <| .cons (getBool_reads _) .nil
  ensures := by
    iterate 7 refine .skip fun _ => ?_
    refine .bind shape_codec.ensures fun _ hs => .bind getRaw_ensures fun _ hi => ?_
    exact .skip fun _ => .pure ⟨hs, hi⟩

theorem program_codec : Codec getProgram putProgram Program.Storable where
  reads _ h :=
    .cons (getId_reads _) <| .cons (getGen_reads _) <| .cons (readString_reads h.name) <|
    .cons (getRaw_reads h.opClass) <| .cons (getRaw_reads h.targetKind) <|
    .cons (readString_reads h.digest) <|
    .cons (getList_reads (fun _ => getRaw_reads) h.dataTypes) <|
    .cons (getList_reads (fun _ => getRaw_reads) h.layouts) <| .cons (readU64_reads _) <|
    .cons (getRaw_reads h.lifecycle) <| .cons (getBool_reads _) <| .cons (getBool_reads _) .nil
  ensures := by
    refine .skip fun _ => .skip fun _ => ?_
    refine .bind readString_ensures fun _ hn => .bind getRaw_ensures fun _ ho => ?_
    refine .bind getRaw_ensures fun _ ht => .bind readString_ensures fun _ hd => ?_
    refine .bind (getList_ensures getRaw_ensures) fun _ hdt => ?_
    refine .bind (getList_ensures getRaw_ensures) fun _ hl => ?_
    refine .skip fun _ => .bind getRaw_ensures fun _ hc => ?_
    exact .skip fun _ => .skip fun _ => .pure ⟨hn, ho, ht, hd, hdt, hl, hc⟩

theorem policy_codec : Codec getPolicy putPolicy Policy.Storable where
  reads _ h :=
    .cons (getId_reads _) <| .cons (getGen_reads _) <| .cons (readString_reads h.name) <|
    .cons (getRaw_reads h.outcome) <|
    .cons (getList_reads (fun _ => getRaw_reads) h.permittedFallbacks) <|
    .cons (readF64_reads _) <| .cons (readF64_reads _) <| .cons (getBool_reads _) <|
    .cons (readU64_reads _) <| .cons (getBool_reads _) .nil
  ensures := by
    refine .skip fun _ => .skip fun _ => ?_
    refine .bind readString_ensures fun _ hn => .bind getRaw_ensures fun _ ho => ?_
    refine .bind (getList_ensures getRaw_ensures) fun _ hf => ?_
    iterate 5 refine .skip fun _ => ?_
    exact .pure ⟨hn, ho, hf⟩

theorem target_codec : Codec getTarget putTarget TargetDefinition.Storable where
  reads _ h :=
    .cons (getId_reads _) <| .cons (getGen_reads _) <| .cons (getRaw_reads h.provider) <|
    .cons (getRaw_reads h.kind) <| .cons (readString_reads h.name) <|
    .cons (readString_reads h.description) <| .cons (getId_reads _) <|
    .cons (getList_reads (fun a _ => getId_reads a) h.memoryDomains) <|
    .cons (getList_reads (fun _ => getRaw_reads) h.supportedOps) <|
    .cons (getList_reads (fun _ => getRaw_reads) h.supportedDataTypes) <|
    .cons (getList_reads (fun _ => getRaw_reads) h.supportedLayouts) <|
    .cons (readU64_reads _) <| .cons (readU64_reads _) <| .cons (readU32_reads _) <|
    .cons (readU64_reads _) <| .cons (readU64_reads _) <|
    .cons (getRaw_reads h.accessSemantics) <| .cons (getBool_reads _) <|
    .cons (getBool_reads _) <| .cons (getBool_reads _) <| .cons (getBool_reads _) <|
    .cons (getBool_reads _) <| .cons (readString_reads h.authorityOwner) .nil
  ensures := by
    refine .skip fun _ => .skip fun _ => ?_
    refine .bind getRaw_ensures fun _ hp => .bind getRaw_ensures fun _ hk => ?_
    refine .bind readString_ensures fun _ hn => .bind readString_ensures fun _ hd => ?_
    refine .skip fun _ => .bind (getList_ensures fun _ _ _ _ => trivial) fun _ hm => ?_
    refine .bind (getList_ensures getRaw_ensures) fun _ ho => ?_
    refine .bind (getList_ensures getRaw_ensures) fun _ hdt => ?_
    refine .bind (getList_ensures getRaw_ensures) fun _ hl => ?_
    iterate 5 refine .skip fun _ => ?_
    refine .bind getRaw_ensures fun _ ha => ?_
    iterate 5 refine .skip fun _ => ?_
    refine .bind readString_ensures fun _ hw => ?_
    exact .pure ⟨hp, hk, hn, hd, hm, ho, hdt, hl, ha, hw⟩

-- What is read back of a plan, whose authority is rebuilt.
def ExecutionPlan.rebuilt (v : ExecutionPlan) : ExecutionPlan :=
  { v with authority := { v.authority with plan := v.id, planGeneration := v.generation } }

theorem ExecutionPlan.SelfNamed.rebuilt_eq {v : ExecutionPlan} (h : v.SelfNamed) :
    v.rebuilt = v := by
  have ha : { v.authority with plan := v.id, planGeneration := v.generation } = v.authority := by
    rw [← h.plan, ← h.planGeneration]
  rw [rebuilt, ha]

theorem getPlan_reads {v : ExecutionPlan} (h : v.Storable) :
    Reads getPlan (putPlan v) v.rebuilt :=
  .cons (getId_reads _) <| .cons (getGen_reads _) <| .cons (getSnapshot_reads _) <|
  .cons (getId_reads _) <| .cons (getGen_reads _) <| .cons (getId_reads _) <|
  .cons (getRaw_reads h.opClass) <| .cons (getId_reads _) <| .cons (getGen_reads _) <|
  .cons (getId_reads _) <| .cons (getGen_reads _) <| .cons (getEnum_reads _) <|
  .cons (readU64_reads _) <| .cons (readU64_reads _) <|
  .cons (getOption_reads getId_reads _) <| .cons (getOption_reads getId_reads _) <|
  .cons (getRaw_reads h.retryClass) <| .cons (getEnum_reads _) <|
  .cons (getList_reads (fun _ => readString_reads) h.notes) .nil

theorem plan_codec : Codec getPlan putPlan fun v => v.Storable ∧ v.SelfNamed where
  reads v h := by
    have hr := getPlan_reads h.1
    rwa [h.2.rebuilt_eq] at hr
  ensures := by
    iterate 6 refine .skip fun _ => ?_
    refine .bind getRaw_ensures fun _ ho => ?_
    iterate 9 refine .skip fun _ => ?_
    refine .bind getRaw_ensures fun _ hr => .skip fun _ => ?_
    refine .bind (getList_ensures readString_ensures) fun _ hn => ?_
    exact .pure ⟨⟨ho, hr, hn⟩, rfl, rfl⟩

theorem result_codec : Codec getResult putResult ExecutionResult.Storable where
  reads _ h :=
    .cons (getId_reads _) <| .cons (getGen_reads _) <| .cons (getId_reads _) <|
    .cons (getGen_reads _) <| .cons (getId_reads _) <| .cons (getId_reads _) <|
    .cons (getId_reads _) <| .cons (getGen_reads _) <| .cons (getId_reads _) <|
    .cons (getGen_reads _) <| .cons (getGen_reads _) <| .cons (getGen_reads _) <|
    .cons (getGen_reads _) <| .cons (getEnum_reads _) <|
    .cons (readString_reads h.outputDigest) <| .cons (readU64_reads _) <|
    .cons (getBool_reads _) <| .cons (getBool_reads _) <| .cons (readString_reads h.note) .nil
  ensures := by
    iterate 14 refine .skip fun _ => ?_
    refine .bind readString_ensures fun _ hd => ?_
    iterate 3 refine .skip fun _ => ?_
    exact .bind readString_ensures fun _ hn => .pure ⟨hd, hn⟩

-- How an operation is read after the flag for the program.
def getDescribed (v : OperationSpec) : Reader OperationSpec := do
  let description ← readString
  let op := { v with description, program := none, programGeneration := none }
  if v.program.isSome then
    let program ← getId
    let programGeneration ← getGen
    return { op with program := some program, programGeneration := some programGeneration }
  else return op

-- The program of an operation is written before its description and read after it. The operation
-- can be read back nevertheless if both orders yield the same bytes.
def OperationSpec.Persists (v : OperationSpec) : Prop :=
  ∀ p ∈ v.program, ∃ g ∈ v.programGeneration,
    putId p ++ putGen g ++ writeString v.description =
      writeString v.description ++ (putId p ++ putGen g)

instance : DecidablePred OperationSpec.Persists :=
  fun v => inferInstanceAs (Decidable (∀ p ∈ v.program, ∃ g ∈ v.programGeneration,
    putId p ++ putGen g ++ writeString v.description =
      writeString v.description ++ (putId p ++ putGen g)))

-- The length of the description stands where the identity of the program is written, so an
-- operation persists only if the two are equal.
theorem OperationSpec.Persists.program_eq {v : OperationSpec} {p : KernelOrProgramId}
    (h : v.Persists) (hp : p ∈ v.program) : p.value = .ofNat v.description.length := by
  have ⟨g, _, h⟩ := h p hp
  simp only [writeString, List.append_assoc] at h
  have hw : writeU64 p.value = writeU64 (.ofNat v.description.length) := (List.append_inj h rfl).1
  have hr := (readU64_reads p.value).run []
  rw [hw, (readU64_reads _).run []] at hr
  exact (Prod.mk.inj (Option.some.inj hr)).1.symm

-- A generation of a program is stored only together with the program.
def OperationSpec.Versioned (v : OperationSpec) : Prop :=
  v.program = none → v.programGeneration = none

def OperationSpec.rebuilt (v : OperationSpec) : OperationSpec :=
  { v with programGeneration := v.program.bind fun _ => v.programGeneration }

theorem OperationSpec.Versioned.rebuilt_eq {v : OperationSpec} (h : v.Versioned) :
    v.rebuilt = v := by
  have hg : v.program.bind (fun _ => v.programGeneration) = v.programGeneration := by
    cases hn : v.program
    case none => exact (h hn).symm
    case some => rfl
  rw [rebuilt, hg]

section Operation

variable {v : OperationSpec} {w : Bytes}

theorem getOperation_ensures : Ensures getOperation fun v => v.Storable ∧ v.Versioned := by
  refine .skip fun _ => .skip fun _ => .bind getRaw_ensures fun _ ho => ?_
  iterate 4 refine .skip fun _ => ?_
  refine .bind shape_codec.ensures fun _ hs => ?_
  iterate 3 refine .skip fun _ => ?_
  refine .bind getRaw_ensures fun _ hd => ?_
  iterate 3 refine .skip fun _ => ?_
  refine .bind getRaw_ensures fun _ hi => .bind getRaw_ensures fun _ hr => ?_
  refine .skip fun _ => .skip fun _ => .skip fun hasProg => ?_
  refine .bind readString_ensures fun _ hn => ?_
  cases hasProg
  case false => exact .pure ⟨⟨ho, hs, hd, hi, hr, hn⟩, fun _ => rfl⟩
  case true  => exact .skip fun _ => .skip fun _ => .pure ⟨⟨ho, hs, hd, hi, hr, hn⟩, nofun⟩

-- Up to the flag, the operation is read in the order in which it has been written.
theorem putOperation_leads (h : v.Storable) (hw : putOperation v = some w) :
    ∃ head program, putProgramOf v = some program ∧
      w = head ++ (program ++ writeString v.description) ∧
      Leads getOperation head (getDescribed v) := by
  have ⟨program, hp, hw⟩ := Option.bind_eq_some_iff.mp hw
  cases hw
  refine ⟨_, program, hp, ?_,
    .cons (getId_reads _) <| .cons (getGen_reads _) <| .cons (getRaw_reads h.opClass) <|
    .cons (getId_reads _) <| .cons (getGen_reads _) <| .cons (getId_reads _) <|
    .cons (getGen_reads _) <| .cons (shape_codec.reads h.shape) <| .cons (readU64_reads _) <|
    .cons (readU64_reads _) <| .cons (readU64_reads _) <|
    .cons (getRaw_reads h.outputDataType) <| .cons (getBool_reads _) <|
    .cons (readU64_reads _) <| .cons (readU64_reads _) <| .cons (getRaw_reads h.integrity) <|
    .cons (getRaw_reads h.retryClass) <| .cons (getId_reads _) <| .cons (getGen_reads _) <|
    .cons (getBool_reads v.program.isSome) .nil⟩
  simp [List.append_assoc]

theorem getDescribed_of_none (h : v.program = none) : getDescribed v = do
    let description ← readString
    return { v with description, program := none, programGeneration := none } := by
  simp [getDescribed, h]

theorem getDescribed_of_some {p : KernelOrProgramId} (h : v.program = some p) :
    getDescribed v = do
      let description ← readString
      let program ← getId
      let programGeneration ← getGen
      return { v with
        description, program := some program, programGeneration := some programGeneration } := by
  simp [getDescribed, h]

theorem getDescribed_reads {program : Bytes} (hf : Fits v.description) (hp : v.Persists)
    (hw : putProgramOf v = some program) :
    Reads (getDescribed v) (program ++ writeString v.description) v.rebuilt := by
  cases hn : v.program
  case none =>
    have hv : v.rebuilt = { v with program := none, programGeneration := none } := by
      rw [OperationSpec.rebuilt, hn]
      rfl
    simp only [putProgramOf, hn] at hw
    cases hw
    rw [getDescribed_of_none hn, hv]
    exact (readString_reads hf).map
  case some p =>
    have ⟨g, hg, hp⟩ := hp p hn
    have hv : v.rebuilt = { v with program := some p, programGeneration := some g } := by
      rw [OperationSpec.rebuilt, hn, ← hg]
      rfl
    simp only [putProgramOf, hn, Option.mem_def.mp hg] at hw
    cases hw
    show Reads _ (putId p ++ putGen g ++ writeString v.description) _
    rw [getDescribed_of_some hn, hp, hv]
    exact .bind (readString_reads hf) (.bind (getId_reads p) (getGen_reads g).map)

theorem getOperation_reads (h : v.Storable) (hp : v.Persists) (hw : putOperation v = some w) :
    Reads getOperation w v.rebuilt := by
  obtain ⟨head, program, hr, rfl, hl⟩ := putOperation_leads h hw
  exact hl.trans (getDescribed_reads h.description hp hr)

-- The operation has been read back with its program.
structure OperationSpec.Agrees (v v' : OperationSpec) : Prop where
  program           : v'.program = v.program
  programGeneration : v.program.isSome → v'.programGeneration = v.programGeneration
  description       : v'.description = v.description

theorem getDescribed_persists {v' : OperationSpec} {program rest rest' : Bytes}
    (hw : putProgramOf v = some program)
    (hr : getDescribed v (program ++ writeString v.description ++ rest) = some (v', rest')) :
    v'.id = v.id ∧ (v.Agrees v' → v.Persists ∧ rest' = rest) := by
  cases hn : v.program
  case none =>
    rw [getDescribed_of_none hn] at hr
    have ⟨description, _, hd, hr⟩ := bind_some hr
    cases hr
    refine ⟨rfl, fun ha => ?_⟩
    simp only [putProgramOf, hn] at hw
    cases hw
    have he := readString_exact hd
    rw [show description = v.description from ha.description] at he
    exact ⟨by simp [OperationSpec.Persists, hn], (List.append_cancel_left he).symm⟩
  case some p =>
    rw [getDescribed_of_some hn] at hr
    have ⟨description, _, hd, hr⟩ := bind_some hr
    have ⟨p', _, hp, hr⟩ := bind_some hr
    have ⟨g, _, hg, hr⟩ := bind_some hr
    cases hr
    refine ⟨rfl, fun ha => ?_⟩
    have hp' : some p' = some p := ha.program.trans hn
    have hg' : v.programGeneration = some g := (ha.programGeneration (by simp [hn])).symm
    cases hp'
    simp only [putProgramOf, hn, hg'] at hw
    cases hw
    have he : putId p ++ putGen g ++ writeString v.description ++ rest =
        writeString v.description ++ (putId p ++ putGen g) ++ rest' := by
      have he := readString_exact hd
      rw [getId_exact hp, getGen_exact hg, show description = v.description from ha.description]
        at he
      simpa using he
    have ⟨heq, hrest⟩ := List.append_inj he (by simp only [List.length_append]; omega)
    exact ⟨by simpa [OperationSpec.Persists, hn, hg'] using heq, hrest.symm⟩

-- An operation is read back with its program only if it persists.
theorem getOperation_persists {v' : OperationSpec} {rest rest' : Bytes} (h : v.Storable)
    (hw : putOperation v = some w) (hr : getOperation (w ++ rest) = some (v', rest')) :
    v'.id = v.id ∧ (v.Agrees v' → v.Persists ∧ rest' = rest) := by
  obtain ⟨head, program, hp, rfl, hl⟩ := putOperation_leads h hw
  rw [List.append_assoc, hl] at hr
  exact getDescribed_persists hp hr

end Operation
end NMC
