import NearMemoryCompute.Execution.Theorems.Evolution
import NearMemoryCompute.Execution.Theorems.Storable

namespace NMC

open Parser Reader Writer

-- A table that can be read back if its entries can.
structure Stored {t : Tag} {α : Type} (id : α → Id t) (P : α → Prop) (m : Table (Id t) α) :
    Prop where
  size  : m.size ≤ kMaxPersistCount.toNat
  keyed : Table.Keyed id m
  each  : ∀ ⦃k : Id t⦄ ⦃a : α⦄, m[k]? = some a → P a

section Tables

variable {t : Tag} {α : Type} {id : α → Id t} {P Q : α → Prop} {m : Table (Id t) α}
         {get : Reader α} {put : α → Bytes}

theorem Stored.mem_toList (h : Stored id P m) {a : α} (ha : a ∈ m.toList.map Prod.snd) : P a := by
  obtain ⟨⟨k, a⟩, hm, rfl⟩ := List.mem_map.mp ha
  exact h.each (Std.ExtTreeMap.mem_toList_iff_getElem?_eq_some.mp hm)

theorem Stored.imp (h : Stored id P m) (hq : ∀ (k : Id t) (a : α), m[k]? = some a → P a → Q a) :
    Stored id Q m :=
  ⟨h.size, h.keyed, fun k a ha => hq k a ha (h.each ha)⟩

theorem stored_iff : Stored id P m ↔
    m.size ≤ kMaxPersistCount.toNat ∧ ∀ e ∈ m.toList, id e.snd = e.fst ∧ P e.snd := by
  constructor
  case mp =>
    intro h
    refine ⟨h.size, fun e he => ?_⟩
    have he := Std.ExtTreeMap.mem_toList_iff_getElem?_eq_some.mp he
    exact ⟨h.keyed he, h.each he⟩
  case mpr =>
    intro ⟨hs, he⟩
    have hm {k : Id t} {a : α} (ha : m[k]? = some a) : (k, a) ∈ m.toList :=
      Std.ExtTreeMap.mem_toList_iff_getElem?_eq_some.mpr ha
    exact ⟨hs, fun k a ha => (he _ (hm ha)).1, fun k a ha => (he _ (hm ha)).2⟩

instance [DecidablePred P] : DecidablePred (Stored id P) :=
  fun _ => decidable_of_iff' _ stored_iff

-- Reading a table is reading a list of entries and storing them.
theorem getTable_go_eq (n : ℕ) (table : Table (Id t) α) :
    getTable.go id get n table = do return Table.store id (← repeatedly get n) table := by
  induction n generalizing table
  case zero => rfl
  case succ n hi => simp [getTable.go, repeatedly, hi, Table.store]

theorem toNat_bounded (h : m.size ≤ kMaxPersistCount.toNat) :
    (UInt64.ofNat (bounded m.size)).toNat = m.size := by
  rw [bounded, if_neg (Nat.not_lt.mpr h)]
  exact UInt64.toNat_ofNat_of_lt' (h.trans_lt (by decide))

theorem getTable_leads (hs : m.size ≤ kMaxPersistCount.toNat) :
    Leads (getTable id get) (writeU64 (.ofNat (bounded m.size)))
      (do return Table.store id (← repeatedly get m.size) ∅) := by
  have hn := toNat_bounded hs
  have hle : UInt64.ofNat (bounded m.size) ≤ kMaxPersistCount := by
    rw [UInt64.le_iff_toNat_le, hn]
    exact hs
  have hl := Leads.first (f := fun n => guard (n ≤ kMaxPersistCount) >>= fun _ =>
    getTable.go id get n.toNat ∅) (readU64_reads (.ofNat (bounded m.size)))
  rwa [guard_bind hle, getTable_go_eq, hn] at hl

theorem getTable_reads {ws : List Bytes} (hs : m.size ≤ kMaxPersistCount.toNat)
    (hk : Table.Keyed id m) (hw : List.Forall₂ (Reads get) ws (m.toList.map Prod.snd)) :
    Reads (getTable id get) (writeU64 (.ofNat (bounded m.size)) ++ ws.flatten) m := by
  have hr := (repeatedly_reads hw).map (f := (Table.store id · ∅))
  rw [Table.store_toList hk, List.length_map, Std.ExtTreeMap.length_toList] at hr
  exact (getTable_leads hs).trans hr

theorem getTable_ensures (h : Ensures get P) : Ensures (getTable id get) (Stored id P) := by
  refine .skip fun n => .check fun hn => ?_
  rw [getTable_go_eq]
  refine .bind (repeatedly_ensures h n.toNat) fun l ⟨hlen, hp⟩ => .pure ?_
  constructor
  case size =>
    refine Table.size_store_le.trans ?_
    simpa [hlen] using UInt64.le_iff_toNat_le.mp hn
  case keyed => exact Table.Keyed.empty.store
  case each =>
    intro k a ha
    rcases Table.getElem?_store_eq_some ha with hm | hm
    · exact hp a hm
    · simp at hm

theorem table_codec (h : Codec get put P) :
    Codec (getTable id get) (putTable put) (Stored id P) where
  reads m hm := by
    have hw := forall₂_reads fun a ha => h.reads (hm.mem_toList ha)
    have hr := getTable_reads hm.size hm.keyed hw
    rwa [List.map_map] at hr
  ensures := getTable_ensures h.ensures

end Tables

namespace RuntimeState

-- What is stored of a state.
def durable (st : RuntimeState) : RuntimeState :=
  { st with
    dataEvidence  := ∅
    targetRuntime := ∅
    capabilities  := ∅
    activePlans   := ∅
    reservations  := ∅
    workers       := ∅ }

structure Storable (st : RuntimeState) : Prop where
  epoch         : !st.epoch.isNull
  memoryDomains : Stored (·.id) MemoryDomainDescriptor.Storable st.memoryDomains
  datasets      : Stored (·.id) DatasetDescriptor.Storable st.datasets
  regions       : Stored (·.id) DataRegionDescriptor.Storable st.regions
  programs      : Stored (·.id) Program.Storable st.programs
  policies      : Stored (·.id) Policy.Storable st.policies
  operations    : Stored (·.id) OperationSpec.Storable st.operations
  targets       : Stored (·.id) TargetDefinition.Storable st.targets
  plans         : Stored (·.id) ExecutionPlan.Storable st.plans
  results       : Stored (·.id) ExecutionResult.Storable st.results

instance decidableStorable (st : RuntimeState) : Decidable st.Storable :=
  decidable_of_iff
    (!st.epoch.isNull ∧ Stored (·.id) MemoryDomainDescriptor.Storable st.memoryDomains ∧
      Stored (·.id) DatasetDescriptor.Storable st.datasets ∧
      Stored (·.id) DataRegionDescriptor.Storable st.regions ∧
      Stored (·.id) Program.Storable st.programs ∧ Stored (·.id) Policy.Storable st.policies ∧
      Stored (·.id) OperationSpec.Storable st.operations ∧
      Stored (·.id) TargetDefinition.Storable st.targets ∧
      Stored (·.id) ExecutionPlan.Storable st.plans ∧
      Stored (·.id) ExecutionResult.Storable st.results)
    ⟨fun ⟨he, hm, hd, hr, hp, hl, ho, ht, hn, hs⟩ => ⟨he, hm, hd, hr, hp, hl, ho, ht, hn, hs⟩,
      fun ⟨he, hm, hd, hr, hp, hl, ho, ht, hn, hs⟩ => ⟨he, hm, hd, hr, hp, hl, ho, ht, hn, hs⟩⟩

def SelfNamed (st : RuntimeState) : Prop :=
  ∀ (p : ExecutionPlanId) (plan : ExecutionPlan), st.plans[p]? = some plan → plan.SelfNamed

def Persists (st : RuntimeState) : Prop :=
  ∀ (o : OperationId) (op : OperationSpec), st.operations[o]? = some op → op.Persists

def Versioned (st : RuntimeState) : Prop :=
  ∀ (o : OperationId) (op : OperationSpec), st.operations[o]? = some op → op.Versioned

-- What is read back of the operations.
def rebuilt (st : RuntimeState) : RuntimeState :=
  { st with operations := st.operations.map fun _ => OperationSpec.rebuilt }

theorem Versioned.rebuilt_eq {st : RuntimeState} (h : st.Versioned) : st.rebuilt = st := by
  rw [rebuilt, Table.map_eq_self fun o op ho => (h o op ho).rebuilt_eq]

end RuntimeState

section Encoding

variable {α β : Type} {f : α → Option β} {l : List α}

theorem forall₂_of_mapM {ws : List β} (h : l.mapM f = some ws) :
    List.Forall₂ (fun w a => f a = some w) ws l := by
  induction l generalizing ws
  case nil =>
    cases h
    exact .nil
  case cons a l hi =>
    rw [List.mapM_cons] at h
    have ⟨w, hw, h⟩ := Option.bind_eq_some_iff.mp h
    have ⟨ws', hws, h⟩ := Option.bind_eq_some_iff.mp h
    cases h
    exact .cons hw (hi hws)

theorem mapM_eq_none : l.mapM f = none ↔ ∃ a ∈ l, f a = none := by
  induction l
  case nil => simp
  case cons a l hi =>
    rw [List.mapM_cons]
    cases ha : f a <;> cases hl : l.mapM f <;> simp_all

end Encoding

section Decoding

variable {st : RuntimeState} {payload : Bytes}

theorem getOperations_reads {ws : List Bytes} (h : st.Storable) (hp : st.Persists)
    (hw : st.operations.toList.mapM (fun e => putOperation e.snd) = some ws) :
    Reads (getTable (·.id) getOperation)
      (writeU64 (.ofNat (bounded st.operations.size)) ++ ws.flatten) st.rebuilt.operations := by
  have hsize : st.rebuilt.operations.size = st.operations.size := Std.ExtTreeMap.size_map
  have hkeyed : Table.Keyed (·.id) st.rebuilt.operations := by
    intro o op ho
    obtain ⟨v, hv, rfl⟩ := Table.getElem?_map_eq_some ho
    have hk : v.id = o := h.operations.keyed hv
    exact hk
  rw [← hsize]
  refine getTable_reads (hsize ▸ h.operations.size) hkeyed ?_
  have ⟨hl, hw⟩ := List.forall₂_iff_zip.mp (forall₂_of_mapM hw)
  rw [RuntimeState.rebuilt, Std.ExtTreeMap.toList_map, List.map_map]
  refine List.forall₂_map_right_iff.mpr (List.forall₂_iff_zip.mpr ⟨hl, fun {w e} hz => ?_⟩)
  have he := Std.ExtTreeMap.mem_toList_iff_getElem?_eq_some.mp (List.of_mem_zip hz).2
  exact getOperation_reads (h.operations.each he) (hp _ _ he) (hw hz)

theorem decodeState_reads (h : st.Storable) (hn : st.SelfNamed) (hp : st.Persists)
    (he : encodeState st = some payload) : Reads decodeState payload st.durable.rebuilt := by
  have ⟨ws, hw, he⟩ := Option.bind_eq_some_iff.mp he
  cases he
  have hplans : Stored (·.id) (fun v => v.Storable ∧ v.SelfNamed) st.plans :=
    h.plans.imp fun p plan hp hs => ⟨hs, hn p plan hp⟩
  exact
    .cons (getId_reads _) <| .cons (getGen_reads _) <| .check h.epoch <|
    .cons ((table_codec memoryDomain_codec).reads h.memoryDomains) <|
    .cons ((table_codec dataset_codec).reads h.datasets) <|
    .cons ((table_codec region_codec).reads h.regions) <|
    .cons ((table_codec program_codec).reads h.programs) <|
    .cons ((table_codec policy_codec).reads h.policies) <|
    .cons (getOperations_reads h hp hw) <|
    .cons ((table_codec target_codec).reads h.targets) <|
    .cons ((table_codec plan_codec).reads hplans) <|
    .cons ((table_codec result_codec).reads h.results) .nil

theorem decodeState_storable :
    Ensures decodeState fun st => st.Storable ∧ st.SelfNamed ∧ st.Versioned := by
  refine .skip fun _ => .skip fun epoch => .check fun he => ?_
  refine .bind (table_codec memoryDomain_codec).ensures fun _ hmd => ?_
  refine .bind (table_codec dataset_codec).ensures fun _ hds => ?_
  refine .bind (table_codec region_codec).ensures fun _ hrg => ?_
  refine .bind (table_codec program_codec).ensures fun _ hpr => ?_
  refine .bind (table_codec policy_codec).ensures fun _ hpo => ?_
  refine .bind (getTable_ensures getOperation_ensures) fun _ hop => ?_
  refine .bind (table_codec target_codec).ensures fun _ htg => ?_
  refine .bind (table_codec plan_codec).ensures fun _ hpl => ?_
  refine .bind (table_codec result_codec).ensures fun _ hrs => ?_
  refine .pure ⟨⟨he, hmd, hds, hrg, hpr, hpo, hop.imp fun _ _ _ h => h.1, htg,
    hpl.imp fun _ _ _ h => h.1, hrs⟩, ?_, ?_⟩
  · exact fun p plan hp => (hpl.each hp).2
  · exact fun o op ho => (hop.each ho).2

-- As long as each operation is read back with its program, the next one is read from the place to
-- which it has been written.
theorem repeatedly_persists {ws : List Bytes} {ops ops' : List OperationSpec} {rest rest' : Bytes}
    (hw : List.Forall₂ (fun w op => putOperation op = some w) ws ops)
    (hs : ∀ op ∈ ops, op.Storable)
    (hr : repeatedly getOperation ops.length (ws.flatten ++ rest) = some (ops', rest'))
    (ha : ∀ op ∈ ops, ∀ op' ∈ ops', op'.id = op.id → op.Agrees op') :
    ∀ op ∈ ops, op.Persists := by
  induction hw generalizing ops'
  case nil => simp
  case cons w op ws ops hw _ hi =>
    rw [List.flatten_cons, List.append_assoc] at hr
    have ⟨op', _, ho, hr⟩ := bind_some hr
    have ⟨ops', _, hrs, hr⟩ := bind_some hr
    cases hr
    have ⟨hid, hp⟩ := getOperation_persists (hs op (.head _)) hw ho
    obtain ⟨hop, rfl⟩ := hp (ha op (.head _) op' (.head _) hid)
    intro op₁ hm
    cases hm
    case head    => exact hop
    case tail hm =>
      refine hi (fun op ho => hs op (.tail _ ho)) hrs ?_ op₁ hm
      exact fun op ho op' ho' => ha op (.tail _ ho) op' (.tail _ ho')

-- Up to the operations, the state is read in the order in which it has been written.
theorem encodeState_leads (h : st.Storable) (he : encodeState st = some payload) :
    ∃ head ws tail, ∃ k : Table OperationId OperationSpec → Reader RuntimeState,
      payload = head ++ (writeU64 (.ofNat (bounded st.operations.size)) ++ (ws.flatten ++ tail)) ∧
      List.Forall₂ (fun w op => putOperation op = some w) ws
        (st.operations.toList.map Prod.snd) ∧
      Leads decodeState head (getTable (·.id) getOperation >>= k) ∧
      ∀ operations, Ensures (k operations) (·.operations = operations) := by
  have ⟨ws, hw, he⟩ := Option.bind_eq_some_iff.mp he
  cases he
  let tables := [putTable putTarget st.targets, putTable putPlan st.plans,
    putTable putResult st.results]
  refine ⟨_, ws, tables.flatten, _, ?_, List.forall₂_map_right_iff.mpr (forall₂_of_mapM hw),
    .cons (getId_reads st.coordinatorId) <| .cons (getGen_reads _) <| .check h.epoch <|
    .cons ((table_codec memoryDomain_codec).reads h.memoryDomains) <|
    .cons ((table_codec dataset_codec).reads h.datasets) <|
    .cons ((table_codec region_codec).reads h.regions) <|
    .cons ((table_codec program_codec).reads h.programs) <|
    .cons ((table_codec policy_codec).reads h.policies) .nil, ?_⟩
  · simp [tables, List.append_assoc]
  · exact fun _ => .skip fun _ => .skip fun _ => .skip fun _ => .pure rfl

-- If every operation is read back with its program, all operations persist. As many operations are
-- read as have been written, so none of them is stored over another one.
theorem persists_of_decodeState {loaded : RuntimeState} {rest : Bytes} (h : st.Storable)
    (he : encodeState st = some payload) (hd : decodeState payload = some (loaded, rest))
    (ha : ∀ (o : OperationId) (op : OperationSpec), st.operations[o]? = some op →
      ∃ op', loaded.operations[o]? = some op' ∧ op.Agrees op') : st.Persists := by
  obtain ⟨head, ws, tail, k, rfl, hw, hl, hk⟩ := encodeState_leads h he
  rw [hl] at hd
  have ⟨operations, _, ht, hd⟩ := bind_some hd
  have hops := hk operations hd
  rw [getTable_leads h.operations.size] at ht
  have ⟨ops', _, hr, ht⟩ := bind_some ht
  cases ht
  have hmem {op} (ho : op ∈ st.operations.toList.map Prod.snd) :
      ∃ op', (Table.store (·.id) ops' ∅)[op.id]? = some op' ∧ op.Agrees op' := by
    rw [← hops]
    exact ha op.id op (h.operations.keyed.getElem?_of_mem ho)
  have hlen : (st.operations.toList.map Prod.snd).length = st.operations.size := by simp
  have hnodup : (ops'.map (·.id)).Nodup := by
    have hn := Table.nodup_map_fst_toList st.operations
    rw [← h.operations.keyed.map_toList] at hn
    refine Table.nodup_of_store hn ?_ fun op ho => ?_
    · have hl := repeatedly_ensures (P := fun _ => True) (fun _ _ _ _ => trivial) _ hr
      rw [hl.1, hlen]
    · have ⟨_, ho, _⟩ := hmem ho
      exact Table.mem_of_some ho
  have hp := repeatedly_persists hw (fun _ => h.operations.mem_toList) (hlen ▸ hr) ?_
  · intro o op ho
    have hm := Std.ExtTreeMap.mem_toList_iff_getElem?_eq_some.mpr ho
    exact hp op (List.mem_map_of_mem hm)
  · intro op ho op' ho' hid
    have ⟨op₁, ho₁, hag⟩ := hmem ho
    rw [← hid, Table.getElem?_store_of_mem hnodup ho'] at ho₁
    cases ho₁
    exact hag

-- What a state has to recover: the operations with their programs, and the tables after them.
structure Recovers (st loaded : RuntimeState) : Prop where
  operations : ∀ (o : OperationId) (op : OperationSpec), st.operations[o]? = some op →
    ∃ op', loaded.operations[o]? = some op' ∧ op.Agrees op'
  targets    : loaded.targets = st.targets
  plans      : loaded.plans = st.plans
  results    : loaded.results = st.results

theorem recovers_rebuilt : Recovers st st.durable.rebuilt where
  operations _ op ho := by
    refine ⟨op.rebuilt, by simp [RuntimeState.rebuilt, RuntimeState.durable, ho], rfl, ?_, rfl⟩
    intro hs
    obtain ⟨p, hp⟩ := Option.isSome_iff_exists.mp hs
    simp [OperationSpec.rebuilt, hp]
  targets    := rfl
  plans      := rfl
  results    := rfl

theorem decodeState_recovers_iff (h : st.Storable) (hn : st.SelfNamed)
    (he : encodeState st = some payload) :
    (∃ loaded, decodeState payload = some (loaded, []) ∧ Recovers st loaded) ↔ st.Persists := by
  constructor
  case mp =>
    intro ⟨loaded, hd, hr⟩
    exact persists_of_decodeState h he hd hr.operations
  case mpr =>
    intro hp
    have hd := decodeState_reads h hn hp he
    exact ⟨_, List.append_nil payload ▸ hd.run [], recovers_rebuilt⟩

theorem decodeState_durable_iff (he : encodeState st = some payload) :
    decodeState payload = some (st.durable, []) ↔
      st.Storable ∧ st.SelfNamed ∧ st.Versioned ∧ st.Persists := by
  constructor
  case mp =>
    intro hd
    have ⟨hs, hn, hb⟩ := decodeState_storable hd
    have hs : st.Storable := ⟨hs.epoch, hs.memoryDomains, hs.datasets, hs.regions, hs.programs,
      hs.policies, hs.operations, hs.targets, hs.plans, hs.results⟩
    refine ⟨hs, hn, hb, persists_of_decodeState hs he hd fun o op ho => ?_⟩
    exact ⟨op, ho, rfl, fun _ => rfl, rfl⟩
  case mpr =>
    intro ⟨hs, hn, hb, hp⟩
    have hb : st.durable.rebuilt = st.durable := RuntimeState.Versioned.rebuilt_eq hb
    have hd := decodeState_reads hs hn hp he
    rw [hb] at hd
    exact List.append_nil payload ▸ hd.run []

theorem putOperation_eq_none {op : OperationSpec} :
    putOperation op = none ↔ op.program.isSome ∧ op.programGeneration = none := by
  cases hp : op.program <;> cases hg : op.programGeneration <;>
    simp [putOperation, putProgramOf, hp, hg]

theorem encodeState_eq_none : encodeState st = none ↔
    ∃ (o : OperationId) (op : OperationSpec), st.operations[o]? = some op ∧
      op.program.isSome ∧ op.programGeneration = none := by
  have he : encodeState st = none ↔
      st.operations.toList.mapM (fun e => putOperation e.snd) = none := by
    cases hm : st.operations.toList.mapM (fun e => putOperation e.snd) <;>
      simp [encodeState, hm]
  simp [he, mapM_eq_none, putOperation_eq_none, Std.ExtTreeMap.mem_toList_iff_getElem?_eq_some]

end Decoding

namespace PersistentStore

variable {payload bytes : Bytes}

theorem orError_reads {α : Type} {get : Reader α} {w rest : Bytes} {a : α} {code message : String}
    (h : Reads get w a) : orError (get (w ++ rest)) code message = .ok (a, rest) := by
  rw [h.run]
  rfl

theorem require_true {c : Prop} [Decidable c] {code message : String} (h : c) :
    require c code message = .ok () :=
  if_pos h

theorem buildEnvelope_ok (h : buildEnvelope payload = .ok bytes) :
    openEnvelope bytes = .ok payload ∧ bytes.length ≤ kMaxPayload + 64 := by
  unfold buildEnvelope at h
  split at h
  case isTrue => cases h
  case isFalse hl =>
    cases h
    have hl := Nat.not_lt.mp hl
    have hn : (UInt64.ofNat payload.length).toNat = payload.length :=
      UInt64.toNat_ofNat_of_lt' (hl.trans_lt (by decide))
    constructor
    case left =>
      simp only [openEnvelope, List.flatten_cons, List.flatten_nil, bind, Except.bind,
        orError_reads (readU32_reads _), orError_reads (readU16_reads _),
        orError_reads (readU64_reads _), orError_reads (readFixed_reads hn.symm), require_true]
      rw [require_true (hn.trans_le hl)]
      rfl
    case right =>
      simp [writeU16, writeU32, writeU64]
      omega

-- What has been saved is loaded as the payload that has been written.
theorem load_eq_of_save {α : Type} {disk : Disk} {decode : Reader α}
    (h : save disk payload = .ok bytes) :
    load (.contents bytes) decode = do
      let (decoded, r) ← orError (decode payload)
        "E_PERSIST_DECODE" "malformed persistence payload"
      require (r = []) "E_PERSIST_TRAILING" "trailing garbage inside payload"
      return decoded := by
  have ⟨bytes', hb, h⟩ := bind_eq_ok h
  cases disk <;> cases h
  have ⟨ho, hl⟩ := buildEnvelope_ok hb
  have hr : readWholeFile (.contents bytes) = .ok bytes := if_neg (Nat.not_lt.mpr hl)
  simp only [load, hr, ho, bind, Except.bind]

theorem load_saved {α : Type} {disk : Disk} {decode : Reader α} {a : α}
    (h : save disk payload = .ok bytes) :
    load (.contents bytes) decode = .ok a ↔ decode payload = some (a, []) := by
  rw [load_eq_of_save h]
  cases decode payload
  case none => constructor <;> nofun
  case some r =>
    obtain ⟨b, rest⟩ := r
    cases rest
    case cons => constructor <;> nofun
    case nil =>
      constructor
      · intro h
        cases h
        rfl
      · intro h
        cases h
        rfl

theorem load_malformed {α : Type} {disk : Disk} {decode : Reader α}
    (h : save disk payload = .ok bytes) (hd : decode payload = none) :
    load (.contents bytes) decode =
      makeError "E_PERSIST_DECODE" "malformed persistence payload" := by
  rw [load_eq_of_save h, hd]
  rfl

end PersistentStore

open Coordinator

theorem ExecutionPlan.SelfNamed.evolve {plan plan' : ExecutionPlan} (h : plan.SelfNamed)
    (he : plan.Evolves plan') : plan'.SelfNamed where
  plan           := by rw [he.authority, he.id, h.plan]
  planGeneration := by rw [he.authority, he.generation, h.planGeneration]

-- The plans of a coordinator always carry their own authority.
theorem selfNamed_after [Platform] (cid : CoordinatorId) (run : List Op) :
    (after cid run).SelfNamed := by
  refine machine.invariant (init cid) (I := fun _ => RuntimeState.SelfNamed) ?_ ?_ run
  · intro p plan hp
    simp [init] at hp
  · intro past op hi p plan' hp
    cases (step_refines op (after cid past)).origin hp
    case created he    => exact he ▸ ⟨rfl, rfl⟩
    case evolved hq he => exact (hi _ _ hq).evolve he
    case loaded hl hq he =>
      have ⟨_, _, hd⟩ := PersistentStore.load_ok hl
      have hs := (decodeState_storable hd).2.1 _ _ hq
      exact he ▸ hs.evolve ExecutionPlan.swept_onEpoch.evolves

-- A state without programs is restored from what has been written, up to what is not durable.
theorem durable_round_trip (st : RuntimeState) (hs : st.Storable) (hn : st.SelfNamed)
    (hp : ∀ (o : OperationId) (op : OperationSpec), st.operations[o]? = some op →
      op.program = none ∧ op.programGeneration = none) :
    ∃ payload, encodeState st = some payload ∧ decodeState payload = some (st.durable, []) := by
  cases he : encodeState st
  case none =>
    have ⟨o, op, ho, hsome, _⟩ := encodeState_eq_none.mp he
    simp [(hp o op ho).1] at hsome
  case some payload =>
    refine ⟨payload, rfl, (decodeState_durable_iff he).mpr ⟨hs, hn, ?_, ?_⟩⟩
    · exact fun o op ho _ => (hp o op ho).2
    · intro o op ho
      simp [OperationSpec.Persists, (hp o op ho).1]

open Deployment in
theorem durable_round_trip_of_deployment :
    let st := after { value := 1 } (dispatch ++ setup)
    ∃ payload, encodeState st = some payload ∧ decodeState payload = some (st.durable, []) := by
  intro st
  have hs : st.Storable := by
    constructor <;> decide +kernel
  have hp : ∀ e ∈ st.operations.toList, e.snd.program = none ∧ e.snd.programGeneration = none := by
    decide +kernel
  refine durable_round_trip st hs (selfNamed_after _ _) fun o op ho => ?_
  exact hp (o, op) (Std.ExtTreeMap.mem_toList_iff_getElem?_eq_some.mpr ho)

-- The authority of a plan that names another one is rebuilt.
theorem foreign_authority_rebuilt :
    let plan : ExecutionPlan := { id := { value := 10 }, generation := { value := 1 } }
    let st : RuntimeState :=
      { epoch := { value := 1 }, plans := Std.ExtTreeMap.insert ∅ plan.id plan }
    st.Storable ∧ st.operations = ∅ ∧
    ¬∃ payload, encodeState st = some payload ∧ decodeState payload = some (st.durable, []) := by
  intro plan st
  have hs : st.Storable := by
    constructor <;> decide +kernel
  refine ⟨hs, rfl, ?_⟩
  intro ⟨payload, _, hd⟩
  have hn := (decodeState_storable hd).2.1 plan.id plan (Table.getElem?_insert_self _ _ _)
  exact absurd hn (by decide)

theorem save_of_encodeState {st : RuntimeState} {payload : Bytes}
    (he : encodeState st = some payload) (hl : payload.length ≤ PersistentStore.kMaxPayload) :
    ∃ bytes, Coordinator.save .replaced st = some (.ok bytes) ∧
      PersistentStore.save .replaced payload = .ok bytes := by
  have hb : ∃ bytes, PersistentStore.buildEnvelope payload = .ok bytes := by
    rw [PersistentStore.buildEnvelope, if_neg (Nat.not_lt.mpr hl)]
    exact ⟨_, rfl⟩
  have ⟨bytes, hb⟩ := hb
  have hs : PersistentStore.save .replaced payload = .ok bytes := by
    rw [PersistentStore.save, hb]
    rfl
  exact ⟨bytes, by simp [Coordinator.save, he, hs], hs⟩

theorem eq_ok_of_toOption {r : Option (Result Bytes)} {bytes : Bytes}
    (h : r.bind Except.toOption = some bytes) : r = some (.ok bytes) := by
  have ⟨r, hr, h⟩ := Option.bind_eq_some_iff.mp h
  cases r <;> cases h
  exact hr

-- A state that has been saved is restored exactly if it is storable and its operations persist.
-- Nothing is saved if an operation has a program without a generation.
theorem restored_iff (st : RuntimeState) (disk : Disk) :
    (Coordinator.save disk st = none ↔ ∃ (o : OperationId) (op : OperationSpec),
      st.operations[o]? = some op ∧ op.program.isSome ∧ op.programGeneration = none) ∧
    ∀ bytes, Coordinator.save disk st = some (.ok bytes) →
      (PersistentStore.load (.contents bytes) decodeState = .ok st.durable ↔
        st.Storable ∧ st.SelfNamed ∧ st.Versioned ∧ st.Persists) ∧
      (st.Storable → st.SelfNamed →
        ((∃ loaded, PersistentStore.load (.contents bytes) decodeState = .ok loaded ∧
          Recovers st loaded) ↔ st.Persists)) := by
  constructor
  case left =>
    rw [← encodeState_eq_none]
    cases he : encodeState st <;> simp [Coordinator.save, he]
  case right =>
    intro bytes hb
    have ⟨payload, he, hb⟩ := Option.bind_eq_some_iff.mp hb
    have hb := Option.some.inj hb
    simp only [PersistentStore.load_saved hb]
    exact ⟨decodeState_durable_iff he, fun hs hn => decodeState_recovers_iff hs hn he⟩

-- The program and its generation are spelled by the description and its length.
open Deployment in
theorem restored_of_deployment :
    let op := { operation { value := 4 } with
      program           := some { value := 8 }
      programGeneration := some { value := 1 }
      description       := [1, 0, 0, 0, 0, 0, 0, 0] }
    let st := after { value := 1 } (.createOperation op :: setup)
    (createOperation op (after { value := 1 } setup)).1 = .ok () ∧
    ∃ bytes, Coordinator.save .replaced st = some (.ok bytes) ∧
      PersistentStore.load (.contents bytes) decodeState = .ok st.durable := by
  intro op st
  have hs : st.Storable := by
    constructor <;> decide +kernel
  have ho : ∀ e ∈ st.operations.toList, e.snd.Persists ∧
      (e.snd.program = none → e.snd.programGeneration = none) := by
    decide +kernel
  have hm {o op} (h : st.operations[o]? = some op) :=
    ho (o, op) (Std.ExtTreeMap.mem_toList_iff_getElem?_eq_some.mpr h)
  have hb : ((Coordinator.save .replaced st).bind Except.toOption).isSome := by
    decide +kernel
  obtain ⟨bytes, hb⟩ := Option.isSome_iff_exists.mp hb
  have hb := eq_ok_of_toOption hb
  refine ⟨by decide +kernel, bytes, hb, ((restored_iff st .replaced).2 bytes hb).1.mpr ?_⟩
  exact ⟨hs, selfNamed_after _ _, fun _ _ h => (hm h).2, fun _ _ h => (hm h).1⟩

-- Without a generation, the operation is accepted and can not be written. With one, it is written
-- and can not be read.
open Deployment in
theorem program_not_restored :
    let op      := { operation { value := 1 } with program := some { value := 7 } }
    let bound   := { op with programGeneration := some { value := 1 } }
    let created := fun op => (createOperation op (init { value := 1 })).2
    (createOperation op (init { value := 1 })).1 = .ok () ∧
    (createOperation bound (init { value := 1 })).1 = .ok () ∧
    (created op).Storable ∧ (created bound).Storable ∧
    Coordinator.save .replaced (created op) = none ∧
    ∃ bytes, Coordinator.save .replaced (created bound) = some (.ok bytes) ∧
      PersistentStore.load (.contents bytes) decodeState =
        makeError "E_PERSIST_DECODE" "malformed persistence payload" := by
  intro op bound created
  have hs : (created op).Storable := by
    constructor <;> decide +kernel
  have hs' : (created bound).Storable := by
    constructor <;> decide +kernel
  have hm : (encodeState (created bound)).any fun payload =>
      payload.length ≤ PersistentStore.kMaxPayload ∧ (decodeState payload).isNone := by
    decide +kernel
  have ⟨payload, he, hm⟩ := (Option.any_eq_true _ _).mp hm
  have ⟨hl, hd⟩ := of_decide_eq_true hm
  have ⟨bytes, hb, hw⟩ := save_of_encodeState he hl
  refine ⟨by decide, by decide, hs, hs', by decide +kernel, bytes, hb, ?_⟩
  exact PersistentStore.load_malformed hw (Option.isNone_iff_eq_none.mp hd)

end NMC
