import NearMemoryCompute.Execution.Theorems.Ranking
import NearMemoryCompute.Execution.Theorems.Revalidation
import NearMemoryCompute.Library.Word

namespace NMC

open Coordinator

-- The estimates that planning makes for an operation, and for running it on a target.
namespace OperationSpec

def transfer (op : OperationSpec) : TransferEstimate where
  bytesToMove  := op.inputBytes
  bandwidthBps := kDefaultConventionalBandwidthBps
  latencyNs    := kDefaultConventionalLatencyNs

def conventional (op : OperationSpec) : ComputeCostEstimate where
  executionNs       := op.inputBytes
  resultReturnBytes := op.outputBytes

def near (op : OperationSpec) (perf : PerfEstimate) : ComputeCostEstimate where
  executionNs       := perf.latencyNs
  setupNs           := perf.setupNs
  queueDelayNs      := perf.latencyNs
  resultReturnBytes := op.outputBytes
  confidence        := perf.confidence

variable [Platform] (op : OperationSpec) (perf : PerfEstimate)

def terms : EconomicTerms :=
  evaluateTerms op.transfer op.conventional (op.near perf)

def economics : EconomicsResult :=
  choosePath op.transfer op.conventional (op.near perf)

-- The terms of the two totals, in the order in which they are added up.
def nearTerms : List UInt64 :=
  [perf.latencyNs, perf.latencyNs, (op.terms perf).resultTransferNs]

def conventionalTerms : List UInt64 :=
  [0, 0, op.inputBytes, kDefaultConventionalLatencyNs, (op.terms perf).transferBytesTimeNs]

end OperationSpec

section Economics

variable [Platform] {op : OperationSpec} {perf : PerfEstimate}

theorem candidate_eq (op : OperationSpec) (t : NearMemoryTargetId) (tdef : TargetDefinition)
    (perf : PerfEstimate) :
    candidate op t tdef perf = {
      target               := t
      generation           := tdef.generation
      decision             := (op.economics perf).decision
      movementAvoidedBytes := op.inputBytes
      totalCostNs          := (op.economics perf).nearTotalNs
      estimatedLatencyNs   := perf.latencyNs + perf.setupNs + perf.latencyNs
      confidence           := perf.confidence
      factors              := (op.economics perf).explanation } :=
  rfl

theorem economics_decision : (op.economics perf).decision =
    if (op.economics perf).nearTotalNs ≤ (op.economics perf).conventionalTotalNs then
      .nearMemorySelected
    else .conventionalCpuSelected :=
  rfl

theorem economics_decision_eq : (op.economics perf).decision = .nearMemorySelected ↔
    (op.economics perf).nearTotalNs ≤ (op.economics perf).conventionalTotalNs := by
  rw [economics_decision]
  split <;> simp_all

-- Moving the data costs the same whichever target it is compared with.
theorem economics_conventionalTotalNs_congr (perf' : PerfEstimate) :
    (op.economics perf).conventionalTotalNs = (op.economics perf').conventionalTotalNs :=
  rfl

theorem exactSum_nearTerms : UInt64.exactSum perf.setupNs (op.nearTerms perf) =
    perf.setupNs.toNat + 2 * perf.latencyNs.toNat + (op.terms perf).resultTransferNs.toNat := by
  simp only [UInt64.exactSum, OperationSpec.nearTerms, List.map_cons, List.map_nil, List.sum_cons,
    List.sum_nil]
  omega

theorem exactSum_conventionalTerms : UInt64.exactSum 0 (op.conventionalTerms perf) =
    op.inputBytes.toNat + 50000 + (op.terms perf).transferBytesTimeNs.toNat := by
  simp only [UInt64.exactSum, OperationSpec.conventionalTerms, kDefaultConventionalLatencyNs,
    List.map_cons, List.map_nil, List.sum_cons, List.sum_nil, UInt64.toNat_zero,
    UInt64.reduceToNat]
  omega

-- The totals are the sums of their terms, and so is the choice that is made between them, just if
-- both sums can be represented.
theorem economics_exact_iff (op : OperationSpec) (perf : PerfEstimate) :
    ((op.economics perf).nearTotalNs.toNat = UInt64.exactSum perf.setupNs (op.nearTerms perf) ∧
      (op.economics perf).conventionalTotalNs.toNat =
        UInt64.exactSum 0 (op.conventionalTerms perf) ∧
      ((op.economics perf).decision = .nearMemorySelected ↔
        UInt64.exactSum perf.setupNs (op.nearTerms perf) ≤
          UInt64.exactSum 0 (op.conventionalTerms perf)) ∧
      UInt64.NoWrap perf.setupNs (op.nearTerms perf) ∧
      UInt64.NoWrap 0 (op.conventionalTerms perf)) ↔
    perf.setupNs.toNat + 2 * perf.latencyNs.toNat + (op.terms perf).resultTransferNs.toNat
      < 2 ^ 64 ∧
    op.inputBytes.toNat + 50000 + (op.terms perf).transferBytesTimeNs.toNat < 2 ^ 64 := by
  rw [← exactSum_nearTerms, ← exactSum_conventionalTerms, ← UInt64.noWrap_iff, ← UInt64.noWrap_iff]
  constructor
  case mp =>
    intro ⟨_, _, _, hw⟩
    exact hw
  case mpr =>
    intro ⟨hn, hc⟩
    have hn' : (op.economics perf).nearTotalNs.toNat = _ := UInt64.toNat_foldl_add_eq.mpr hn
    have hc' : (op.economics perf).conventionalTotalNs.toNat = _ := UInt64.toNat_foldl_add_eq.mpr hc
    refine ⟨hn', hc', ?_, hn, hc⟩
    rw [economics_decision_eq, UInt64.le_iff_toNat_le, hn', hc']

end Economics

section

open Deployment

-- A heartbeat reports a latency of `2 ^ 63` nanoseconds, which is twice a term of the total.
def slow : HeartbeatMsg :=
  { heartbeat with latencyNs := 0x8000000000000000 }

-- The slowest target of all costs nothing, and it is selected.
theorem economics_wraps :
    let st := after { value := 1 } (.applyHeartbeat slow :: setup)
    let op := operation { value := 1 }
    let perf : PerfEstimate := { latencyNs := 0x8000000000000000 }
    st.targetRuntime[({ value := 1 } : NearMemoryTargetId)]?.any (fun trt =>
      trt.performance.latencyNs = perf.latencyNs ∧ trt.performance.setupNs = perf.setupNs) ∧
    (op.economics perf).nearTotalNs.toNat ≠ UInt64.exactSum perf.setupNs (op.nearTerms perf) ∧
    UInt64.exactSum 0 (op.conventionalTerms perf) <
      UInt64.exactSum perf.setupNs (op.nearTerms perf) ∧
    (op.economics perf).decision = .nearMemorySelected ∧
    (plan { value := 10 } { value := 1 } st).fst.toOption.any (·.created) := by
  decide +kernel

end

-- The performance that a target has last reported.
def RuntimeState.performance (st : RuntimeState) (t : NearMemoryTargetId) : PerfEstimate :=
  (st.targetRuntime[t]?).elim {} (·.performance)

theorem RuntimeState.performance_eq (st : RuntimeState) {t : NearMemoryTargetId}
    {trt : TargetRuntime} (h : st.targetRuntime[t]? = some trt) :
    st.performance t = trt.performance := by
  simp [performance, h]

theorem RuntimeState.performance_numeric {st : RuntimeState}
    (h : Table.All (fun _ trt => !trt.performance.confidence.isNaN) st.targetRuntime)
    (t : NearMemoryTargetId) : !(st.performance t).confidence.isNaN := by
  cases ht : st.targetRuntime[t]?
  case none     => simp [performance, ht, F64.isNaN, F64.magnitude]
  case some trt => simpa [st.performance_eq ht] using h ht

namespace Coordinator

-- What planning decides, without the account that it gives of its reasons.
def PlanOutput.choice (out : PlanOutput) : PlanOutput :=
  { out with rejected := [], explanation := [] }

theorem PlanOutput.of_choice {out out' : PlanOutput} (h : out.choice = out') :
    out.decision = out'.decision ∧ out.created = out'.created ∧ out.plan = out'.plan :=
  h ▸ ⟨rfl, rfl, rfl⟩

section Offers

variable [Platform] {st : RuntimeState} {op : OperationSpec} {policy : Policy}
         {data : Option DataEvidence} {c : RankedCandidate}

-- What a target contributes to the ranking.
def offer (st : RuntimeState) (op : OperationSpec) (policy : Policy) (data : Option DataEvidence)
    (e : NearMemoryTargetId × TargetDefinition) : Option RankedCandidate := do
  let trt ← st.targetRuntime[e.fst]?
  let caps ← st.capabilities[e.fst]?
  if hardFilter (filterInput st op policy data e.fst e.snd trt caps) = [] then
    some (candidate op e.fst e.snd trt.performance)
  else none

def offers (st : RuntimeState) (op : OperationSpec) (policy : Policy) (data : Option DataEvidence) :
    List RankedCandidate :=
  st.targets.toList.filterMap (offer st op policy data)

theorem considerTarget_choice (st : RuntimeState) (out : PlanOutput)
    (e : NearMemoryTargetId × TargetDefinition) :
    (considerTarget op policy data (st, out) e).snd.choice =
      { out.choice with ranked := out.ranked ++ (offer st op policy data e).toList } := by
  simp only [considerTarget, offer]
  cases ht : st.targetRuntime[e.fst]?
  case none => simp [PlanOutput.choice]
  case some trt =>
    cases hc : st.capabilities[e.fst]?
    case none => simp [PlanOutput.choice]
    case some caps =>
      cases hf : hardFilter (filterInput st op policy data e.fst e.snd trt caps) <;>
        simp [hf, PlanOutput.choice]

theorem foldl_considerTarget_choice {l : List (NearMemoryTargetId × TargetDefinition)}
    {out : PlanOutput} (hl : ∀ e ∈ l, st.targets[e.fst]? = some e.snd) :
    (l.foldl (considerTarget op policy data) (st, out)).snd.choice =
      { out.choice with ranked := out.ranked ++ l.filterMap (offer st op policy data) } := by
  induction l generalizing out
  case nil => simp [PlanOutput.choice]
  case cons e l hi =>
    have hs : considerTarget op policy data (st, out) e =
        (st, (considerTarget op policy data (st, out) e).snd) :=
      Prod.ext (considerTarget_fst (hl e (.head _))) rfl
    have hc := @considerTarget_choice _ op policy data st out e
    have hr : (considerTarget op policy data (st, out) e).snd.ranked =
        out.ranked ++ (offer st op policy data e).toList :=
      congrArg (PlanOutput.ranked ·) hc
    rw [List.foldl_cons, hs, hi fun e he => hl e (.tail _ he), hc, hr]
    cases ho : offer st op policy data e <;> simp [ho]

theorem exists_offer (h : c ∈ offers st op policy data) : ∃ t tdef,
    Eligible st op policy data t ∧ c = candidate op t tdef (st.performance t) := by
  obtain ⟨⟨t, tdef⟩, hm, ho⟩ := List.mem_filterMap.mp h
  have ht := Std.ExtTreeMap.mem_toList_iff_getElem?_eq_some.mp hm
  obtain ⟨trt, hrt, caps, hc, ho⟩ : ∃ trt, st.targetRuntime[t]? = some trt ∧
      ∃ caps, st.capabilities[t]? = some caps ∧
      (if hardFilter (filterInput st op policy data t tdef trt caps) = [] then
        some (candidate op t tdef trt.performance) else none) = some c := by
    simpa [offer, Option.bind_eq_some_iff] using ho
  obtain ⟨hf, ho⟩ := Option.ite_none_right_eq_some.mp ho
  refine ⟨t, tdef, ⟨tdef, trt, caps, ht, hrt, hc, hf⟩, ?_⟩
  rw [st.performance_eq hrt]
  exact (Option.some.inj ho).symm

theorem offer_of_eligible {t : NearMemoryTargetId} (h : Eligible st op policy data t) :
    ∃ tdef, candidate op t tdef (st.performance t) ∈ offers st op policy data := by
  obtain ⟨tdef, trt, caps, ht, hrt, hc, hf⟩ := h
  refine ⟨tdef, List.mem_filterMap.mpr ⟨(t, tdef), ?_, ?_⟩⟩
  · exact Std.ExtTreeMap.mem_toList_iff_getElem?_eq_some.mpr ht
  · simp [offer, hrt, hc, hf, st.performance_eq hrt]

end Offers
end Coordinator

namespace RankedCandidate

variable {a b : RankedCandidate}

-- The keys by which the candidates for an operation are told apart, of which the least is the best.
def rank (c : RankedCandidate) : ℕ ×ₗ ℕ ×ₗ ℤᵒᵈ ×ₗ ℕ :=
  toLex (c.totalCostNs.toNat, toLex (c.estimatedLatencyNs.toNat,
    toLex (OrderDual.toDual c.confidence.key, c.target.value.toNat)))

theorem before_iff (hm : a.movementAvoidedBytes = b.movementAvoidedBytes)
    (ha : !a.confidence.isNaN) (hb : !b.confidence.isNaN) : a.before b ↔ a.rank < b.rank := by
  rw [before_iff_keys ha hb]
  simp only [keys, rank, Prod.Lex.toLex_lt_toLex, hm, lt_irrefl, false_or, true_and]

-- Whatever the confidences are, the cheaper candidate comes first.
theorem totalCostNs_le (h : a.before b) : a.totalCostNs.toNat ≤ b.totalCostNs.toNat := by
  by_cases hc : a.totalCostNs = b.totalCostNs
  case pos => rw [hc]
  case neg =>
    have h : a.totalCostNs < b.totalCostNs := by simpa [before, hc] using h
    exact (UInt64.lt_iff_toNat_lt.mp h).le

theorem totalCostNs_le_of_not_before (h : ¬a.before b) :
    b.totalCostNs.toNat ≤ a.totalCostNs.toNat := by
  by_cases hc : a.totalCostNs = b.totalCostNs
  case pos => rw [hc]
  case neg =>
    have h : b.totalCostNs ≤ a.totalCostNs := by simpa [before, hc] using h
    exact UInt64.le_iff_toNat_le.mp h

end RankedCandidate

-- The rank of a target for an operation.
def RuntimeState.rank [Platform] (st : RuntimeState) (op : OperationSpec) (t : NearMemoryTargetId) :
    ℕ ×ₗ ℕ ×ₗ ℤᵒᵈ ×ₗ ℕ :=
  let perf := st.performance t
  let latency := perf.latencyNs + perf.setupNs + perf.latencyNs
  toLex ((op.economics perf).nearTotalNs.toNat, toLex (latency.toNat,
    toLex (OrderDual.toDual perf.confidence.key, t.value.toNat)))

namespace Coordinator

-- Candidates for one operation are compared by their ranks, if all confidences are numbers.
theorem offers_before_iff [Platform] {st : RuntimeState} {op : OperationSpec} {policy : Policy}
    {data : Option DataEvidence} (hn : ∀ t, !(st.performance t).confidence.isNaN) :
    ∀ a ∈ offers st op policy data, ∀ b ∈ offers st op policy data,
      a.before b ↔ a.rank < b.rank := by
  intro a ha b hb
  obtain ⟨t, _, _, rfl⟩ := exists_offer ha
  obtain ⟨t', _, _, rfl⟩ := exists_offer hb
  exact RankedCandidate.before_iff rfl (hn t) (hn t')

-- The decision that is taken on a ranking. Only its first candidate is looked at.
def choose (st : RuntimeState) (id : ExecutionPlanId) (op : OperationSpec) (policy : Policy)
    (ranked : List RankedCandidate) : PlanOutput :=
  match ranked with
  | [] => {
      ranked
      decision :=
        if policy.outcome = PolicyOutcome.nearMemoryRequired then .reject else .movementRequired }
  | best :: _ =>
    if best.decision = .nearMemorySelected then {
      ranked
      plan     := newPlan st id op st.dataEvidence[op.region]? best.target
        (Table.subscript st.targetRuntime best.target).fst
        (Table.subscript st.targets best.target).fst
        (Table.subscript st.capabilities best.target).fst
      decision := .nearMemorySelected
      created  := true }
    else { ranked, decision := best.decision }

section Choose

variable {st : RuntimeState} {op : OperationSpec} {policy : Policy} {id : ExecutionPlanId}
         {best : RankedCandidate} {rest ranked : List RankedCandidate}

theorem choose_created : (choose st id op policy ranked).created ↔
    ∃ best rest, ranked = best :: rest ∧ best.decision = .nearMemorySelected := by
  cases ranked
  case nil => simp [choose]
  case cons best rest => by_cases hb : best.decision = .nearMemorySelected <;> simp [choose, hb]

theorem choose_decision : (choose st id op policy (best :: rest)).decision = best.decision := by
  by_cases hb : best.decision = .nearMemorySelected <;> simp [choose, hb]

theorem choose_target (hb : best.decision = .nearMemorySelected) :
    (choose st id op policy (best :: rest)).plan.target = best.target := by
  simp [choose, hb, newPlan]

end Choose

section Choice

variable [Platform] {st : RuntimeState} {op : OperationSpec} {policy : Policy}
         {id : ExecutionPlanId} {o : OperationId} {out : PlanOutput}

def ranking (st : RuntimeState) (op : OperationSpec) (policy : Policy) : List RankedCandidate :=
  rankCandidates (offers st op policy st.dataEvidence[op.region]?)

theorem plan_choice (hop : st.operations[o]? = some op)
    (hpol : st.policies[op.policy]? = some policy) (hact : op.id ∉ st.activePlans) :
    (plan id o st).fst.map PlanOutput.choice =
      .ok (choose st id op policy (ranking st op policy)) := by
  have hl : ∀ e ∈ st.targets.toList, st.targets[e.fst]? = some e.snd :=
    fun e he => Std.ExtTreeMap.mem_toList_iff_getElem?_eq_some.mp he
  have ⟨hst, _⟩ := @foldl_considerTarget st op policy st.dataEvidence[op.region]? _ _ {} hl
  have hc := @foldl_considerTarget_choice _ st op policy st.dataEvidence[op.region]? _ {} hl
  simp only [plan, hop, hpol, hact, if_false]
  generalize st.targets.toList.foldl _ _ = acc at hst hc
  obtain ⟨st', out⟩ := acc
  simp only at hst hc
  subst hst
  obtain ⟨hp, hcr, hr⟩ : out.plan = {} ∧ out.created = false ∧
      out.ranked = offers st' op policy st'.dataEvidence[op.region]? := by
    simp_all [PlanOutput.choice, offers]
  simp only [ranking, hr]
  split
  case h_1 he => simp [he, choose, PlanOutput.choice, Except.map, hp, hcr]
  case h_2 best rest he =>
    split
    case isTrue hb => simp [he, choose, PlanOutput.choice, Except.map, hb, hp, hcr]
    case isFalse hb => simp [he, choose, PlanOutput.choice, Except.map, hb]

theorem plan_registered (id : ExecutionPlanId) (hop : st.operations[o]? = some op)
    (hpol : st.policies[op.policy]? = some policy) (hact : op.id ∉ st.activePlans) :
    ∃ out, (plan id o st).fst = .ok out ∧
      out.choice = choose st id op policy (ranking st op policy) := by
  have hc := @plan_choice _ _ _ _ id _ hop hpol hact
  cases hp : (plan id o st).fst <;> rw [hp] at hc
  case error  => contradiction
  case ok out => exact ⟨out, rfl, Except.ok.inj hc⟩

theorem plan_ok (h : (plan id o st).fst = .ok out) : ∃ op policy,
    st.operations[o]? = some op ∧ st.policies[op.policy]? = some policy ∧
    op.id ∉ st.activePlans ∧ out.choice = choose st id op policy (ranking st op policy) := by
  cases hop : st.operations[o]?
  case none => simp [plan, hop, makeError] at h
  case some op =>
    cases hpol : st.policies[op.policy]?
    case none => simp [plan, hop, hpol, makeError] at h
    case some policy =>
      by_cases hact : op.id ∈ st.activePlans
      case pos => simp [plan, hop, hpol, hact, makeError] at h
      case neg =>
        obtain ⟨out', ho, hc⟩ := plan_registered id hop hpol hact
        cases h.symm.trans ho
        exact ⟨op, policy, rfl, hpol, hact, hc⟩

theorem mem_ranking {c : RankedCandidate} :
    c ∈ ranking st op policy ↔ c ∈ offers st op policy st.dataEvidence[op.region]? :=
  mem_rankCandidates

theorem ranking_eq_nil : ranking st op policy = [] ↔
    ∀ t, ¬Eligible st op policy st.dataEvidence[op.region]? t := by
  simp only [List.eq_nil_iff_forall_not_mem, mem_ranking]
  constructor
  case mp =>
    intro h t he
    have ⟨tdef, hm⟩ := offer_of_eligible he
    exact h _ hm
  case mpr =>
    intro h c hc
    have ⟨t, _, he, _⟩ := exists_offer hc
    exact h t he

section Best

variable {best : RankedCandidate} {rest : List RankedCandidate}
         (h : ranking st op policy = best :: rest)

include h in
theorem best_offer : ∃ t tdef, Eligible st op policy st.dataEvidence[op.region]? t ∧
    best = candidate op t tdef (st.performance t) :=
  exists_offer <| mem_ranking.mp (by simp [h])

-- No eligible target is cheaper than the best one, even if there are confidences that are not
-- numbers, for which sorting gives no guarantee.
include h in
theorem best_cheapest {t : NearMemoryTargetId}
    (he : Eligible st op policy st.dataEvidence[op.region]? t) :
    best.totalCostNs.toNat ≤ (op.economics (st.performance t)).nearTotalNs.toNat := by
  have ⟨tdef, hm⟩ := offer_of_eligible he
  refine List.key_head_insertionSort_le (fun c => c.totalCostNs.toNat) ?_ ?_ h _ hm
  · intro a _ b _ hb
    exact RankedCandidate.totalCostNs_le_of_not_before (by simpa using hb)
  · intro a _ b _ hb
    exact RankedCandidate.totalCostNs_le (by simpa using hb)

-- The best candidate is worth it just if some eligible target is.
include h in
theorem best_decision : best.decision = .nearMemorySelected ↔
    ∃ t, Eligible st op policy st.dataEvidence[op.region]? t ∧
      (op.economics (st.performance t)).nearTotalNs ≤
        (op.economics (st.performance t)).conventionalTotalNs := by
  have ⟨t, tdef, he, hb⟩ := best_offer h
  constructor
  case mp =>
    intro hd
    rw [hb] at hd
    exact ⟨t, he, economics_decision_eq.mp hd⟩
  case mpr =>
    intro ⟨t', he', hle⟩
    have hc := best_cheapest h he'
    rw [hb] at hc ⊢
    apply economics_decision_eq.mpr
    rw [UInt64.le_iff_toNat_le] at hle ⊢
    rw [economics_conventionalTotalNs_congr (st.performance t')]
    exact hc.trans hle

include h in
theorem best_conventional (hb : best.decision ≠ .nearMemorySelected) :
    best.decision = .conventionalCpuSelected := by
  obtain ⟨t, tdef, _, rfl⟩ := best_offer h
  exact if_neg fun hle => hb (economics_decision_eq.mpr hle)

-- The target of the best candidate has the least rank, if all confidences are numbers.
include h in
theorem best_rank_le (hn : ∀ t, !(st.performance t).confidence.isNaN) {t : NearMemoryTargetId}
    (he : Eligible st op policy st.dataEvidence[op.region]? t) :
    best.rank ≤ st.rank op t := by
  have ⟨tdef, hm⟩ := offer_of_eligible he
  refine List.key_head_insertionSort_le RankedCandidate.rank ?_ ?_ h _ hm
  · intro a ha b hb hr
    exact not_lt.mp ((offers_before_iff hn b hb a ha).not.mp (by simpa using hr))
  · intro a ha b hb hr
    exact le_of_lt ((offers_before_iff hn b hb a ha).mp (by simpa using hr))

end Best

-- If near-memory is required, planning falls back to conventional compute just if there are
-- eligible targets and none of them is worth it.
theorem required_decision_iff (hop : st.operations[o]? = some op)
    (hpol : st.policies[op.policy]? = some policy)
    (hr : policy.outcome = PolicyOutcome.nearMemoryRequired)
    (h : (plan id o st).fst = .ok out) :
    (out.decision = .nearMemorySelected ∨ out.decision = .reject ∨ out.decision = .defer) ↔
    (∀ t, ¬Eligible st op policy st.dataEvidence[op.region]? t) ∨
    ∃ t, Eligible st op policy st.dataEvidence[op.region]? t ∧
      (op.economics (st.performance t)).nearTotalNs ≤
        (op.economics (st.performance t)).conventionalTotalNs := by
  obtain ⟨op', policy', hop', hpol', _, hc⟩ := plan_ok h
  cases hop.symm.trans hop'
  cases hpol.symm.trans hpol'
  rw [(PlanOutput.of_choice hc).1, ← ranking_eq_nil]
  cases hs : ranking st op policy
  case nil => simp [choose, hr]
  case cons best rest =>
    rw [choose_decision, ← best_decision hs]
    by_cases hb : best.decision = .nearMemorySelected
    case pos => simp [hb]
    case neg => simp [best_conventional hs hb]

end Choice

section

open Deployment

def nearMemoryOnly : Policy where
  id         := { value := 2 }
  generation := { value := 1 }
  outcome    := PolicyOutcome.nearMemoryRequired

-- An operation for which near-memory is required, on a target with the given latency.
def demanding (latency : UInt64) : List Op :=
  .applyHeartbeat { heartbeat with latencyNs := latency } ::
  .createOperation { operation { value := 4 } with policy := { value := 2 } } ::
  .registerPolicy nearMemoryOnly :: setup

-- The target is too slow, and the operation falls back to the processor.
theorem required_falls_back :
    let st := after { value := 1 } (demanding 1000000)
    (st.operations[({ value := 4 } : OperationId)]?.bind (st.policies[·.policy]?)).any
      (fun policy : Policy => policy.outcome = PolicyOutcome.nearMemoryRequired) ∧
    (plan { value := 10 } { value := 4 } st).fst.toOption.any
      (·.decision = .conventionalCpuSelected) := by
  decide +kernel

theorem required_decision_iff_of_demanding :
    let st := after { value := 1 } (demanding 0)
    ∃ (op : OperationSpec) (policy : Policy),
      st.operations[({ value := 4 } : OperationId)]? = some op ∧
      policy.outcome = PolicyOutcome.nearMemoryRequired ∧
      ((∀ t, ¬Eligible st op policy st.dataEvidence[op.region]? t) ∨
        ∃ t, Eligible st op policy st.dataEvidence[op.region]? t ∧
          (op.economics (st.performance t)).nearTotalNs ≤
            (op.economics (st.performance t)).conventionalTotalNs) := by
  have ⟨out, ho, hd⟩ := exists_ok_of_map (f := PlanOutput.decision)
    (show (plan { value := 10 } { value := 4 }
        (after { value := 1 } (demanding 0))).fst.toOption.map _ = some .nearMemorySelected by
      decide +kernel)
  have ⟨op, policy, hop, hpol, _, _⟩ := plan_ok ho
  have hr : ((after { value := 1 } (demanding 0)).operations[({ value := 4 } : OperationId)]?.bind
      ((after { value := 1 } (demanding 0)).policies[·.policy]?)).all
      fun policy : Policy => policy.outcome = PolicyOutcome.nearMemoryRequired := by
    decide +kernel
  simp only [hop, Option.bind_some, hpol, Option.all_some, decide_eq_true_eq] at hr
  exact ⟨op, policy, hop, hr, (required_decision_iff hop hpol hr ho).mp (.inl hd)⟩

end

section Least

variable [Platform] {st : RuntimeState} {op : OperationSpec} {policy : Policy}
         {id : ExecutionPlanId} {o : OperationId} {out : PlanOutput}

-- The eligible target with the least rank.
structure Least (st : RuntimeState) (op : OperationSpec) (policy : Policy)
    (t : NearMemoryTargetId) : Prop where
  eligible : Eligible st op policy st.dataEvidence[op.region]? t
  le       : ∀ t', Eligible st op policy st.dataEvidence[op.region]? t' →
    st.rank op t ≤ st.rank op t'

theorem rank_inj {t t' : NearMemoryTargetId} (h : st.rank op t = st.rank op t') : t = t' := by
  simp only [RuntimeState.rank, toLex_inj, Prod.mk.injEq, UInt64.toNat_inj] at h
  exact Id.ext h.2.2.2

theorem Least.unique {t t' : NearMemoryTargetId} (h : Least st op policy t)
    (h' : Least st op policy t') : t = t' :=
  rank_inj <| le_antisymm (h.le t' h'.eligible) (h'.le t h.eligible)

theorem best_least {best : RankedCandidate} {rest : List RankedCandidate}
    (hn : ∀ t, !(st.performance t).confidence.isNaN) (h : ranking st op policy = best :: rest) :
    Least st op policy best.target := by
  obtain ⟨t, tdef, he, rfl⟩ := best_offer h
  exact ⟨he, fun t' he' => best_rank_le h hn he'⟩

theorem plan_created_iff (hn : ∀ t, !(st.performance t).confidence.isNaN) (t : NearMemoryTargetId) :
    (∃ out, (plan id o st).fst = .ok out ∧ out.created ∧ out.plan.target = t) ↔
    ∃ op policy, st.operations[o]? = some op ∧ st.policies[op.policy]? = some policy ∧
      op.id ∉ st.activePlans ∧ Least st op policy t ∧
      (op.economics (st.performance t)).nearTotalNs ≤
        (op.economics (st.performance t)).conventionalTotalNs := by
  constructor
  case mp =>
    intro ⟨out, h, hc, ht⟩
    obtain ⟨op, policy, hop, hpol, hact, ho⟩ := plan_ok h
    have ⟨_, hcr, hp⟩ := PlanOutput.of_choice ho
    obtain ⟨best, rest, hs, hb⟩ := choose_created.mp (hcr ▸ hc)
    rw [hp, hs, choose_target hb] at ht
    subst ht
    refine ⟨op, policy, hop, hpol, hact, best_least hn hs, ?_⟩
    obtain ⟨t, tdef, _, rfl⟩ := best_offer hs
    exact economics_decision_eq.mp hb
  case mpr =>
    intro ⟨op, policy, hop, hpol, hact, hl, hle⟩
    have ⟨out, h, ho⟩ := plan_registered id hop hpol hact
    have ⟨_, hcr, hp⟩ := PlanOutput.of_choice ho
    cases hs : ranking st op policy
    case nil => exact absurd hl.eligible (ranking_eq_nil.mp hs t)
    case cons best rest =>
      have hb : best.decision = .nearMemorySelected := (best_decision hs).mpr ⟨t, hl.eligible, hle⟩
      refine ⟨out, h, hcr.trans ?_, ?_⟩
      · exact choose_created.mpr ⟨best, rest, hs, hb⟩
      · rw [hp, hs, choose_target hb]
        exact (best_least hn hs).unique hl

-- If nothing is planned although it could be, no eligible target is worth it.
theorem plan_declined (hop : st.operations[o]? = some op)
    (hpol : st.policies[op.policy]? = some policy) (h : (plan id o st).fst = .ok out)
    (hc : out.created = false) {t : NearMemoryTargetId}
    (he : Eligible st op policy st.dataEvidence[op.region]? t) :
    (op.economics (st.performance t)).conventionalTotalNs <
      (op.economics (st.performance t)).nearTotalNs := by
  obtain ⟨op', policy', hop', hpol', _, ho⟩ := plan_ok h
  cases hop.symm.trans hop'
  cases hpol.symm.trans hpol'
  have ⟨_, hcr, _⟩ := PlanOutput.of_choice ho
  cases hs : ranking st op policy
  case nil => exact absurd he (ranking_eq_nil.mp hs t)
  case cons best rest =>
    by_contra hle
    have hb := (best_decision hs).mpr ⟨t, he, UInt64.not_lt.mp hle⟩
    have hcr : out.created := hcr.trans (choose_created.mpr ⟨best, rest, hs, hb⟩)
    exact Bool.false_ne_true (hc.symm.trans hcr)

theorem offer_eq_none {data : Option DataEvidence} {e : NearMemoryTargetId × TargetDefinition}
    (ht : st.targets[e.fst]? = some e.snd) (h : ¬Eligible st op policy data e.fst) :
    offer st op policy data e = none := by
  cases hrt : st.targetRuntime[e.fst]?
  case none => simp [offer, hrt]
  case some trt =>
    cases hc : st.capabilities[e.fst]?
    case none => simp [offer, hrt, hc]
    case some caps =>
      have hf : hardFilter (filterInput st op policy data e.fst e.snd trt caps) ≠ [] :=
        fun hf => h ⟨e.snd, trt, caps, ht, hrt, hc, hf⟩
      simp [offer, hrt, hc, hf]

-- The targets that differ are eligible neither before nor after their performance has changed.
def DiffersIneligibly (st : RuntimeState) (o : OperationId)
    (rt : Table NearMemoryTargetId TargetRuntime) : Prop :=
  ∀ t, rt[t]? = st.targetRuntime[t]? ∨
    (∃ trt perf, st.targetRuntime[t]? = some trt ∧ rt[t]? = some { trt with performance := perf }) ∧
    ∀ op policy, st.operations[o]? = some op → st.policies[op.policy]? = some policy →
      ¬Eligible st op policy st.dataEvidence[op.region]? t ∧
      ¬Eligible { st with targetRuntime := rt } op policy st.dataEvidence[op.region]? t

section Independence

variable {rt : Table NearMemoryTargetId TargetRuntime} (hd : DiffersIneligibly st o rt)
         (hop : st.operations[o]? = some op) (hpol : st.policies[op.policy]? = some policy)

include hd hop hpol in
theorem ranking_of_differs :
    ranking { st with targetRuntime := rt } op policy = ranking st op policy := by
  have ho : offers { st with targetRuntime := rt } op policy st.dataEvidence[op.region]? =
      offers st op policy st.dataEvidence[op.region]? := by
    apply List.filterMap_congr
    intro e he
    have ht := Std.ExtTreeMap.mem_toList_iff_getElem?_eq_some.mp he
    cases hd e.fst
    case inl hrt =>
      simp only [offer, hrt]
      rfl
    case inr h =>
      have ⟨hn, hn'⟩ := h.2 op policy hop hpol
      have ho : offer st op policy _ e = none := offer_eq_none ht hn
      have ho' : offer { st with targetRuntime := rt } op policy _ e = none := offer_eq_none ht hn'
      exact ho'.trans ho.symm
  exact congrArg rankCandidates ho

include hd hop hpol in
theorem choose_of_differs :
    choose { st with targetRuntime := rt } id op policy (ranking st op policy) =
      choose st id op policy (ranking st op policy) := by
  cases hs : ranking st op policy
  case nil => rfl
  case cons best rest =>
    obtain ⟨t, tdef, he, rfl⟩ := best_offer hs
    have hrt : rt[t]? = st.targetRuntime[t]? := by
      cases hd t
      case inl hrt => exact hrt
      case inr h   => exact absurd he (h.2 op policy hop hpol).1
    have hsub : (Table.subscript rt t).fst = (Table.subscript st.targetRuntime t).fst := by
      simp [Table.subscript, Std.ExtTreeMap.getD_eq_getD_getElem?, hrt]
    simp only [choose, candidate_eq, hsub]
    rfl

end Independence

theorem plan_of_differs {rt : Table NearMemoryTargetId TargetRuntime}
    (hd : DiffersIneligibly st o rt) :
    (plan id o { st with targetRuntime := rt }).fst.map PlanOutput.choice =
      (plan id o st).fst.map PlanOutput.choice := by
  cases hop : st.operations[o]?
  case none => simp [plan, hop]
  case some op =>
    cases hpol : st.policies[op.policy]?
    case none => simp [plan, hop, hpol]
    case some policy =>
      by_cases hact : op.id ∈ st.activePlans
      case pos => simp [plan, hop, hpol, hact]
      case neg =>
        have hc := @plan_choice _ { st with targetRuntime := rt } op policy id o hop hpol hact
        rw [hc, plan_choice hop hpol hact, ranking_of_differs hd hop hpol,
          choose_of_differs hd hop hpol]

end Least

section

open Deployment

end
end Coordinator
end NMC
