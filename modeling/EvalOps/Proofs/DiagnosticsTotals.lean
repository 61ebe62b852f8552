import EvalOps.Proofs.Diagnostics
import Mathlib.Data.Set.Card

/-!
# `EvalOps.Proofs.DiagnosticsTotals`: the totals account for every finding

`diagnoseRegressions` regroups one list of findings by category, by evaluator, by case, and within
a case by repeat. `TotalsAccount` says what the four regroupings owe to the list, in terms of the
list alone.

* `categoryCounts_rows`, `evaluatorCounts_rows`, `regressingCases_rows`: each grouping has one row
  for each key that occurs.
* `sum_evaluatorCounts`: the verdicts and the drops of the evaluators, and the provider failures,
  are all the findings.
* `representative_most`: the representative of a case is the repeat with the most findings.
* `diagnoseRegressions_totals`: all of it, for every diagnosis that returns.
-/

set_option autoImplicit false

namespace EvalOps

/-! ### What the totals owe to the findings -/

/-- How many values `g` takes on the findings with the property `p`. -/
noncomputable def distinctCount {β : Type} (findings : List PairFinding)
    (p : PairFinding → Prop) (g : PairFinding → β) : ℕ :=
  {x | ∃ f ∈ findings, p f ∧ g f = x}.ncard

/-- There is exactly one row for each key that a finding has, and no other row. -/
def OneRowEach {α β : Type} (rows : List α) (key : α → β) (findings : List PairFinding)
    (has : PairFinding → β → Prop) : Prop :=
  (rows.map key).Nodup ∧ ∀ k, k ∈ rows.map key ↔ ∃ f ∈ findings, has f k

/-- The findings of one case and repeat. -/
def findingsAt (findings : List PairFinding) (caseId : EntityId) (repeatIndex : ℕ) :
    List PairFinding :=
  findings.filter fun f => decide (f.caseId = caseId) && decide (f.repeatIndex = repeatIndex)

/-- A repeat of a case with the most findings, the lowest of them. -/
def MostFindings (findings : List PairFinding) (caseId : EntityId) (repeatIndex : ℕ) : Prop :=
  findingsAt findings caseId repeatIndex ≠ [] ∧
    ∀ other, (findingsAt findings caseId other).length
        < (findingsAt findings caseId repeatIndex).length ∨
      ((findingsAt findings caseId other).length
        = (findingsAt findings caseId repeatIndex).length ∧ repeatIndex ≤ other)

/-- The place of a finding: its pair, then the provider failure, then the evaluators by name. -/
def PairFinding.place (f : PairFinding) : PairKey ×ₗ WithBot NonBlank :=
  toLex (f.key, f.evaluator)

/-- The totals of a diagnosis account for its findings. -/
structure TotalsAccount (experiment : Experiment) (outcome : RunOutcome)
    (d : RegressionDiagnostics) : Prop where
  regressing_pairs : d.regressingPairs = distinctCount d.findings (fun _ => True) PairFinding.key
  regressing_cases :
    d.regressingCases = distinctCount d.findings (fun _ => True) PairFinding.caseId
  category_rows : OneRowEach d.categories CategoryCount.category d.findings fun f category =>
    f.category = category
  category_counts : ∀ row ∈ d.categories,
    row.pairs = distinctCount d.findings (fun f => f.category = row.category) PairFinding.key ∧
    row.cases = distinctCount d.findings (fun f => f.category = row.category) PairFinding.caseId
  evaluator_rows : OneRowEach d.evaluators EvaluatorCount.evaluator d.findings fun f name =>
    f.evaluator = some name
  evaluator_counts : ∀ row ∈ d.evaluators,
    row.pairs
      = distinctCount d.findings (fun f => f.evaluator = some row.evaluator) PairFinding.key ∧
    row.cases
      = distinctCount d.findings (fun f => f.evaluator = some row.evaluator) PairFinding.caseId ∧
    row.passToFail = d.findings.countP (fun f =>
      decide (f.evaluator = some row.evaluator) && decide (f.kind = .evaluatorPassToFail)) ∧
    row.scoreDrop = d.findings.countP fun f =>
      decide (f.evaluator = some row.evaluator) && decide (f.kind = .evaluatorScoreDrop)
  evaluators_and_providers :
    (d.evaluators.map fun row => row.passToFail + row.scoreDrop).sum
        + d.findings.countP (fun f => decide (f.kind = .providerFailure))
      = d.findings.length
  case_rows : OneRowEach d.cases RegressingCase.caseId d.findings fun f caseId =>
    f.caseId = caseId
  case_counts : ∀ case ∈ d.cases,
    case.findingCount = d.findings.countP fun f => decide (f.caseId = case.caseId)
  case_counts_sum : (d.cases.map RegressingCase.findingCount).sum = d.findings.length
  case_contents : ∀ case ∈ d.cases,
    (∀ category, category ∈ case.categories ↔
      ∃ f ∈ d.findings, f.caseId = case.caseId ∧ f.category = category) ∧
    (∀ name, name ∈ case.evaluators ↔
      ∃ f ∈ d.findings, f.caseId = case.caseId ∧ f.evaluator = some name) ∧
    (case.providerFailure = true ↔
      ∃ f ∈ d.findings, f.caseId = case.caseId ∧ f.kind = .providerFailure)
  representative_most : ∀ case ∈ d.cases,
    MostFindings d.findings case.caseId case.representative.repeatIndex
  representative_runs : ∀ case ∈ d.cases, ∃ b c,
    Matched experiment outcome (toLex (case.caseId, case.representative.repeatIndex)) b c ∧
      case.representative.baselineRunId = b.id ∧ case.representative.candidateRunId = c.id
  categories_ordered : d.categories.Pairwise fun a b =>
    toLex (-(a.pairs : ℤ), a.category.value) < toLex (-(b.pairs : ℤ), b.category.value)
  evaluators_ordered : d.evaluators.Pairwise fun a b =>
    toLex (-(a.pairs : ℤ), a.evaluator) < toLex (-(b.pairs : ℤ), b.evaluator)
  cases_ordered : d.cases.Pairwise fun a b =>
    toLex (-(a.findingCount : ℤ), a.caseId) < toLex (-(b.findingCount : ℤ), b.caseId)
  case_lists_ordered : ∀ case ∈ d.cases,
    (case.categories.Pairwise fun a b => a.value < b.value) ∧
      case.evaluators.Pairwise (· < ·)
  findings_ordered : d.findings.Pairwise fun f g => f.place < g.place

/-! ### Distinct counts -/

/-- A count of distinct values is the size of the set that the code builds. -/
theorem distinctCount_eq_card {β : Type} [DecidableEq β] {findings : List PairFinding}
    {p : PairFinding → Prop} [DecidablePred p] {g : PairFinding → β} :
    distinctCount findings p g
      = ((findings.filter fun f => decide (p f)).map g).toFinset.card := by
  unfold distinctCount
  rw [← Set.ncard_coe_finset]
  congr 1
  ext x
  simp [and_assoc]

theorem distinctCount_true {β : Type} [DecidableEq β] {findings : List PairFinding}
    {g : PairFinding → β} :
    distinctCount findings (fun _ => True) g = (findings.map g).toFinset.card := by
  rw [distinctCount_eq_card]
  simp

/-! ### The categories -/

/-- Distinct categories have distinct literals. -/
theorem RegressionCategory.value_injective : Function.Injective RegressionCategory.value := by
  intro a b
  cases a <;> cases b <;> decide

/-- The rows of `_category_counts` before the sort. -/
def categoryRows (findings : List PairFinding) : List CategoryCount :=
  (Dict.collect PairFinding.category PairFinding.key findings).entries.map fun (category, keys) =>
    { category
      pairs := keys.card
      cases := (((Dict.collect PairFinding.category PairFinding.caseId findings).get?
        category).getD ∅).card }

theorem categoryCounts_perm (findings : List PairFinding) :
    (categoryCounts findings).Perm (categoryRows findings) :=
  Sorting.sortedOn_perm _ _

/-- The categories of the rows are distinct. -/
theorem categoryRows_nodup (findings : List PairFinding) :
    ((categoryRows findings).map CategoryCount.category).Nodup := by
  unfold categoryRows
  rw [List.map_map]
  exact (Dict.collect PairFinding.category PairFinding.key findings).nodup

/-- A category has a row exactly when a finding has the category. -/
theorem categoryCounts_rows (findings : List PairFinding) :
    OneRowEach (categoryCounts findings) CategoryCount.category findings
      fun f category => f.category = category := by
  have hperm := (categoryCounts_perm findings).map CategoryCount.category
  refine ⟨hperm.nodup_iff.mpr (categoryRows_nodup findings), fun category => ?_⟩
  rw [hperm.mem_iff]
  have hkeys : (categoryRows findings).map CategoryCount.category
      = (Dict.collect PairFinding.category PairFinding.key findings).keys := by
    unfold categoryRows
    rw [List.map_map]
    rfl
  rw [hkeys, Dict.mem_keys_collect]

/-- The counts of a row are the distinct pairs and cases of its category. -/
theorem categoryCounts_counts {findings : List PairFinding} {row : CategoryCount}
    (h : row ∈ categoryCounts findings) :
    row.pairs = distinctCount findings (fun f => f.category = row.category) PairFinding.key ∧
      row.cases
        = distinctCount findings (fun f => f.category = row.category) PairFinding.caseId := by
  obtain ⟨⟨category, keys⟩, hentry, rfl⟩ :=
    List.mem_map.mp ((categoryCounts_perm findings).mem_iff.mp h)
  have hkeys := (Dict.get?_eq_some_iff _ _ _).mpr hentry
  rw [Dict.get?_collect] at hkeys
  split at hkeys
  · exact nomatch hkeys
  · -- The findings of the category are there, so both dictionaries have its set.
    rename_i hne
    cases hkeys
    dsimp only
    rw [Dict.get?_collect, if_neg hne, distinctCount_eq_card, distinctCount_eq_card]
    exact ⟨rfl, rfl⟩

/-- The most affected category comes first, and the values break the ties. -/
theorem categoryCounts_ordered (findings : List PairFinding) :
    (categoryCounts findings).Pairwise fun a b =>
      toLex (-(a.pairs : ℤ), a.category.value) < toLex (-(b.pairs : ℤ), b.category.value) := by
  apply Sorting.sortedOn_pairwise_lt
  -- Distinct categories have distinct values.
  apply List.Nodup.of_map fun key => (ofLex key).2
  rw [List.map_map]
  have hvalues := (categoryRows_nodup findings).map RegressionCategory.value_injective
  rw [List.map_map] at hvalues
  exact hvalues

/-! ### The evaluators -/

/-- The findings with an evaluator, grouped by it. -/
def byEvaluator (findings : List PairFinding) : Dict NonBlank (List (NonBlank × PairFinding)) :=
  Dict.group Prod.fst (evaluatorEntries findings)

/-- The findings of one evaluator. -/
def findingsBy (findings : List PairFinding) (name : NonBlank) : List PairFinding :=
  findings.filter fun f => decide (f.evaluator = some name)

/-- The entries of one evaluator carry its findings. -/
theorem evaluatorEntries_filter (findings : List PairFinding) (name : NonBlank) :
    ((evaluatorEntries findings).filter fun e => decide (e.1 = name)).map Prod.snd
      = findingsBy findings name := by
  unfold evaluatorEntries findingsBy
  induction findings with
  | nil => rfl
  | cons f findings ih =>
      cases hevaluator : f.evaluator with
      | none => simpa [hevaluator] using ih
      | some other =>
          by_cases hname : other = name
          · simpa [hevaluator, hname] using ih
          · simpa [hevaluator, hname] using ih

theorem mem_keys_byEvaluator {findings : List PairFinding} {name : NonBlank} :
    name ∈ (byEvaluator findings).keys ↔ ∃ f ∈ findings, f.evaluator = some name := by
  unfold byEvaluator evaluatorEntries
  rw [Dict.mem_keys_group]
  constructor
  · rintro ⟨e, he, rfl⟩
    obtain ⟨f, hf, hentry⟩ := List.mem_filterMap.mp he
    obtain ⟨other, hother, rfl⟩ := Option.map_eq_some_iff.mp hentry
    exact ⟨f, hf, hother⟩
  · rintro ⟨f, hf, hname⟩
    exact ⟨(name, f), List.mem_filterMap.mpr ⟨f, hf, by rw [hname]; rfl⟩, rfl⟩

/-- The rows of `_evaluator_counts`, up to the sort: one for each evaluator. -/
theorem evaluatorCounts_perm (findings : List PairFinding) :
    (evaluatorCounts findings).Perm
      ((byEvaluator findings).keys.map fun name =>
        evaluatorCount name (findingsBy findings name)) := by
  have hrows : ((byEvaluator findings).entries.map fun e =>
      evaluatorCount e.1 (e.2.map Prod.snd))
      = (byEvaluator findings).keys.map fun name =>
          evaluatorCount name (findingsBy findings name) := by
    unfold byEvaluator
    rw [Dict.entries_group, List.map_map]
    apply List.map_congr_left
    intro name _
    show evaluatorCount name _ = _
    rw [evaluatorEntries_filter]
  rw [← hrows]
  exact Sorting.sortedOn_perm _ _

/-- An evaluator has a row exactly when it has a finding. -/
theorem evaluatorCounts_rows (findings : List PairFinding) :
    OneRowEach (evaluatorCounts findings) EvaluatorCount.evaluator findings
      fun f name => f.evaluator = some name := by
  have hperm := (evaluatorCounts_perm findings).map EvaluatorCount.evaluator
  have hkeys : ((byEvaluator findings).keys.map fun name =>
      evaluatorCount name (findingsBy findings name)).map EvaluatorCount.evaluator
      = (byEvaluator findings).keys := by
    rw [List.map_map]
    exact List.map_id _
  rw [hkeys] at hperm
  refine ⟨hperm.nodup_iff.mpr (byEvaluator findings).nodup, fun name => ?_⟩
  rw [hperm.mem_iff, mem_keys_byEvaluator]

/-- The counts of a row are those of the findings of its evaluator. -/
theorem evaluatorCounts_counts {findings : List PairFinding} {row : EvaluatorCount}
    (h : row ∈ evaluatorCounts findings) :
    row.pairs
      = distinctCount findings (fun f => f.evaluator = some row.evaluator) PairFinding.key ∧
    row.cases
      = distinctCount findings (fun f => f.evaluator = some row.evaluator) PairFinding.caseId ∧
    row.passToFail = findings.countP (fun f =>
      decide (f.evaluator = some row.evaluator) && decide (f.kind = .evaluatorPassToFail)) ∧
    row.scoreDrop = findings.countP fun f =>
      decide (f.evaluator = some row.evaluator) && decide (f.kind = .evaluatorScoreDrop) := by
  obtain ⟨name, _, rfl⟩ := List.mem_map.mp ((evaluatorCounts_perm findings).mem_iff.mp h)
  have hcount : ∀ kind : FindingKind,
      (findingsBy findings name).countP (fun f => decide (f.kind = kind))
        = findings.countP fun f =>
            decide (f.evaluator = some name) && decide (f.kind = kind) := by
    intro kind
    unfold findingsBy
    rw [List.countP_filter]
    exact List.countP_congr fun f _ => by rw [Bool.and_comm]
  refine ⟨?_, ?_, hcount _, hcount _⟩
  · rw [distinctCount_eq_card]
    rfl
  · rw [distinctCount_eq_card]
    rfl

/-- The most affected evaluator comes first, and the names break the ties. -/
theorem evaluatorCounts_ordered (findings : List PairFinding) :
    (evaluatorCounts findings).Pairwise fun a b =>
      toLex (-(a.pairs : ℤ), a.evaluator) < toLex (-(b.pairs : ℤ), b.evaluator) := by
  apply Sorting.sortedOn_pairwise_lt
  apply List.Nodup.of_map fun key => (ofLex key).2
  rw [List.map_map, List.map_map]
  exact (byEvaluator findings).nodup

/-- Findings of an evaluator are verdicts or drops, and the others are provider failures. -/
def KindsByEvaluator (findings : List PairFinding) : Prop :=
  ∀ f ∈ findings, f.kind = .providerFailure ↔ f.evaluator = none

/-- The verdicts and the drops of an evaluator are all its findings. -/
theorem evaluatorCount_total {findings : List PairFinding} (hkinds : KindsByEvaluator findings)
    (name : NonBlank) :
    (evaluatorCount name (findingsBy findings name)).passToFail
        + (evaluatorCount name (findingsBy findings name)).scoreDrop
      = (findingsBy findings name).length := by
  show (findingsBy findings name).countP (fun f => decide (f.kind = .evaluatorPassToFail))
      + (findingsBy findings name).countP (fun f => decide (f.kind = .evaluatorScoreDrop)) = _
  rw [List.length_eq_countP_add_countP fun f => decide (f.kind = .evaluatorPassToFail)]
  congr 1
  apply List.countP_congr
  intro f hf
  obtain ⟨hmem, hname⟩ := List.mem_filter.mp hf
  -- A finding with an evaluator is no provider failure, so two kinds are left.
  have hkind : f.kind ≠ .providerFailure := by
    intro hprovider
    rw [(hkinds f hmem).mp hprovider] at hname
    simp at hname
  cases hcase : f.kind with
  | providerFailure => exact absurd hcase hkind
  | evaluatorPassToFail => simp
  | evaluatorScoreDrop => simp

/-- The verdicts and the drops of all evaluators, and the provider failures, are all the
findings. -/
theorem sum_evaluatorCounts {findings : List PairFinding} (hkinds : KindsByEvaluator findings) :
    ((evaluatorCounts findings).map fun row => row.passToFail + row.scoreDrop).sum
        + findings.countP (fun f => decide (f.kind = .providerFailure))
      = findings.length := by
  have hgroups : ((byEvaluator findings).keys.map fun name =>
      (findingsBy findings name).length).sum = (evaluatorEntries findings).length := by
    rw [← Dict.sum_length_group Prod.fst (evaluatorEntries findings), Dict.entries_group,
      List.map_map]
    congr 1
    apply List.map_congr_left
    intro name _
    rw [← evaluatorEntries_filter, List.length_map]
    rfl
  have hproviders : (evaluatorEntries findings).length
      + findings.countP (fun f => decide (f.kind = .providerFailure)) = findings.length := by
    have hnone : findings.countP (fun f => decide (f.kind = .providerFailure))
        = findings.countP fun f => decide (f.evaluator = none) :=
      List.countP_congr fun f hf => by simp [hkinds f hf]
    have hsome : (evaluatorEntries findings).length
        = findings.countP fun f => !decide (f.evaluator = none) := by
      unfold evaluatorEntries
      rw [List.length_filterMap_eq_countP]
      apply List.countP_congr
      intro f _
      cases f.evaluator <;> simp
    rw [hnone, hsome, List.length_eq_countP_add_countP fun f => decide (f.evaluator = none)]
    simp [Nat.add_comm]
  rw [← hproviders, ← hgroups, ((evaluatorCounts_perm findings).map _).sum_eq, List.map_map]
  congr 2
  apply List.map_congr_left
  intro name _
  exact evaluatorCount_total hkinds name

/-! ### The cases -/

/-- The findings of one case. -/
def findingsOfCase (findings : List PairFinding) (caseId : EntityId) : List PairFinding :=
  findings.filter fun f => decide (f.caseId = caseId)

theorem filter_findingsOfCase (findings : List PairFinding) (caseId : EntityId)
    (repeatIndex : ℕ) :
    (findingsOfCase findings caseId).filter (fun f => decide (f.repeatIndex = repeatIndex))
      = findingsAt findings caseId repeatIndex := by
  unfold findingsOfCase findingsAt
  rw [List.filter_filter]
  exact List.filter_congr fun f _ => by rw [Bool.and_comm]

/-- What `_regressing_cases` reports of one case. -/
structure CaseRow (findings : List PairFinding) (case : RegressingCase) : Prop where
  finding_count : case.findingCount = (findingsOfCase findings case.caseId).length
  categories : case.categories = Sorting.sortedOn RegressionCategory.value
    ((findingsOfCase findings case.caseId).map PairFinding.category).dedup
  evaluators : case.evaluators = Sorting.sorted
    ((findingsOfCase findings case.caseId).filterMap PairFinding.evaluator).dedup
  provider_failure : case.providerFailure
    = (findingsOfCase findings case.caseId).any fun f => decide (f.kind = .providerFailure)
  representative : representative
      (Dict.group PairFinding.repeatIndex (findingsOfCase findings case.caseId))
    = .ok case.representative

/-- What `regressingCase` returns. -/
theorem regressingCase_eq_ok {findings : List PairFinding} {caseId : EntityId}
    {case : RegressingCase}
    (h : regressingCase caseId (findingsOfCase findings caseId) = .ok case) :
    case.caseId = caseId ∧ CaseRow findings case := by
  obtain ⟨ref, href, hcase⟩ := ExceptRules.bind_eq_ok.mp h
  cases hcase
  exact ⟨rfl, rfl, rfl, rfl, rfl, href⟩

/-- The cases of `_regressing_cases`, up to the sort: one for each case of a finding. -/
theorem regressingCases_eq_ok {findings : List PairFinding} {cases : List RegressingCase}
    (h : regressingCases findings = .ok cases) :
    ∃ rows : List RegressingCase,
      cases = Sorting.sortedOn (fun c => toLex (-(c.findingCount : ℤ), c.caseId)) rows ∧
      rows.map RegressingCase.caseId = (Dict.group PairFinding.caseId findings).keys ∧
      ∀ case ∈ rows, CaseRow findings case := by
  obtain ⟨rows, hrows, hcases⟩ := ExceptRules.bind_eq_ok.mp h
  cases hcases
  rw [Dict.entries_group] at hrows
  have hall := ExceptRules.mapM_eq_ok_iff.mp hrows
  rw [List.forall₂_map_left_iff] at hall
  have hrow : List.Forall₂ (fun caseId case => case.caseId = caseId ∧ CaseRow findings case)
      (Dict.group PairFinding.caseId findings).keys rows :=
    hall.imp fun _ _ hcase => regressingCase_eq_ok hcase
  refine ⟨rows, rfl, ?_, ?_⟩
  · have hids := ListRules.map_eq_map_of_forall₂ (f := id) (g := RegressingCase.caseId)
      (hrow.imp fun _ _ hcase => hcase.1.symm)
    rw [← hids, List.map_id]
  · intro case hmem
    obtain ⟨_, _, _, hcase⟩ := ListRules.exists_of_forall₂_of_mem hrow.flip hmem
    exact hcase

section

variable {findings : List PairFinding} {cases : List RegressingCase}

/-- A case has a row exactly when it has a finding. -/
theorem regressingCases_rows (h : regressingCases findings = .ok cases) :
    OneRowEach cases RegressingCase.caseId findings fun f caseId => f.caseId = caseId := by
  obtain ⟨rows, rfl, hids, _⟩ := regressingCases_eq_ok h
  have hperm := (Sorting.sortedOn_perm (fun c : RegressingCase =>
    toLex (-(c.findingCount : ℤ), c.caseId)) rows).map RegressingCase.caseId
  rw [hids] at hperm
  refine ⟨hperm.nodup_iff.mpr (Dict.group PairFinding.caseId findings).nodup, fun caseId => ?_⟩
  rw [hperm.mem_iff, Dict.mem_keys_group]

theorem caseRow_of_mem (h : regressingCases findings = .ok cases) {case : RegressingCase}
    (hmem : case ∈ cases) : CaseRow findings case := by
  obtain ⟨rows, rfl, _, hrows⟩ := regressingCases_eq_ok h
  exact hrows case ((Sorting.sortedOn_perm _ rows).mem_iff.mp hmem)

/-- The counts of the cases add up to the number of findings. -/
theorem sum_regressingCases (h : regressingCases findings = .ok cases) :
    (cases.map RegressingCase.findingCount).sum = findings.length := by
  obtain ⟨rows, rfl, hids, hrows⟩ := regressingCases_eq_ok h
  have hcounts : rows.map RegressingCase.findingCount
      = (rows.map RegressingCase.caseId).map fun caseId =>
          (findingsOfCase findings caseId).length := by
    rw [List.map_map]
    exact List.map_congr_left fun case hcase => (hrows case hcase).finding_count
  rw [((Sorting.sortedOn_perm _ rows).map _).sum_eq, hcounts, hids,
    ← Dict.sum_length_group PairFinding.caseId findings, Dict.entries_group, List.map_map]
  rfl

/-- The case with the most findings comes first, and the identifiers break the ties. -/
theorem regressingCases_ordered (h : regressingCases findings = .ok cases) :
    cases.Pairwise fun a b =>
      toLex (-(a.findingCount : ℤ), a.caseId) < toLex (-(b.findingCount : ℤ), b.caseId) := by
  obtain ⟨rows, rfl, hids, _⟩ := regressingCases_eq_ok h
  apply Sorting.sortedOn_pairwise_lt
  apply List.Nodup.of_map fun key => (ofLex key).2
  rw [List.map_map]
  show (rows.map RegressingCase.caseId).Nodup
  rw [hids]
  exact (Dict.group PairFinding.caseId findings).nodup

end

/-- What the row of a case lists. -/
theorem CaseRow.contents {findings : List PairFinding} {case : RegressingCase}
    (h : CaseRow findings case) :
    (∀ category, category ∈ case.categories ↔
      ∃ f ∈ findings, f.caseId = case.caseId ∧ f.category = category) ∧
    (∀ name, name ∈ case.evaluators ↔
      ∃ f ∈ findings, f.caseId = case.caseId ∧ f.evaluator = some name) ∧
    (case.providerFailure = true ↔
      ∃ f ∈ findings, f.caseId = case.caseId ∧ f.kind = .providerFailure) := by
  refine ⟨fun category => ?_, fun name => ?_, ?_⟩
  · rw [h.categories, (Sorting.sortedOn_perm _ _).mem_iff, List.mem_dedup]
    simp [findingsOfCase, and_assoc]
  · rw [h.evaluators, Sorting.mem_sorted, List.mem_dedup]
    simp [findingsOfCase, and_assoc]
  · rw [h.provider_failure]
    simp [findingsOfCase]

/-- The lists of the row are strictly ordered. -/
theorem CaseRow.lists_ordered {findings : List PairFinding} {case : RegressingCase}
    (h : CaseRow findings case) :
    (case.categories.Pairwise fun a b => a.value < b.value) ∧
      case.evaluators.Pairwise (· < ·) := by
  rw [h.categories, h.evaluators]
  constructor
  · apply Sorting.sortedOn_pairwise_lt
    exact (List.nodup_dedup _).map RegressionCategory.value_injective
  · exact Sorting.sorted_pairwise_lt (List.nodup_dedup _)

/-! ### The representatives -/

/-- What `representative` returns: a finding of the repeat with the most findings. -/
theorem representative_eq_ok {group : List PairFinding} {ref : PairRef}
    (h : representative (Dict.group PairFinding.repeatIndex group) = .ok ref) :
    (∃ sample ∈ group, sample.repeatIndex = ref.repeatIndex ∧
      ref.baselineRunId = sample.baselineRunId ∧
      ref.candidateRunId = sample.candidateRunId) ∧
    ∀ other ∈ (Dict.group PairFinding.repeatIndex group).entries,
      toLex (-((group.filter fun f => decide (f.repeatIndex = ref.repeatIndex)).length : ℤ),
          ref.repeatIndex)
        ≤ toLex (-(other.2.length : ℤ), other.1) := by
  unfold representative at h
  split at h
  · cases h
  · cases h
  · rename_i repeatIndex sample rest hargmin
    cases h
    have hpart := (Dict.group_ne_nil (List.argmin_mem hargmin)).1
    have hsample : sample ∈ group.filter fun f => decide (f.repeatIndex = repeatIndex) :=
      hpart ▸ List.mem_cons_self
    obtain ⟨hmem, hrepeat⟩ := List.mem_filter.mp hsample
    refine ⟨⟨sample, hmem, of_decide_eq_true hrepeat, rfl, rfl⟩, fun other hother => ?_⟩
    dsimp only
    rw [← hpart]
    exact List.le_of_mem_argmin
      (f := fun e : ℕ × List PairFinding => toLex (-(e.2.length : ℤ), e.1)) hother hargmin

/-- The representative of a case is the lowest repeat with the most findings. -/
theorem CaseRow.representative_most {findings : List PairFinding} {case : RegressingCase}
    (h : CaseRow findings case) :
    MostFindings findings case.caseId case.representative.repeatIndex := by
  obtain ⟨⟨sample, hsample, hrepeat, _, _⟩, hleast⟩ := representative_eq_ok h.representative
  have hmem : sample ∈ findingsAt findings case.caseId case.representative.repeatIndex := by
    rw [← filter_findingsOfCase]
    exact List.mem_filter.mpr ⟨hsample, decide_eq_true hrepeat⟩
  refine ⟨List.ne_nil_of_mem hmem, fun other => ?_⟩
  have hpos := List.length_pos_of_mem hmem
  by_cases hother : findingsAt findings case.caseId other = []
  · -- A repeat without findings has fewer.
    rw [hother]
    exact .inl hpos
  · have hget := Dict.get?_group PairFinding.repeatIndex (findingsOfCase findings case.caseId) other
    rw [filter_findingsOfCase, if_neg hother, Dict.get?_eq_some_iff] at hget
    have hle := hleast _ hget
    rw [filter_findingsOfCase, Prod.Lex.le_iff] at hle
    simp only [ofLex_toLex] at hle
    rcases hle with hlt | ⟨heq, hle⟩
    · exact .inl (by omega)
    · exact .inr ⟨by omega, hle⟩

/-! ### The findings of an outcome -/

section

variable {outcome : RunOutcome} {threshold : ℚ} {key : PairKey} {b c : EvaluationRun}

/-- A finding of an evaluator is a verdict or a drop. -/
theorem kind_of_mem_evaluatorFindingsOf {name : NonBlank} {f : PairFinding}
    (h : f ∈ evaluatorFindingsOf outcome threshold key b c name) :
    f.kind ≠ .providerFailure := by
  unfold evaluatorFindingsOf evaluatorFindings at h
  split at h
  · dsimp only at h
    split at h
    · rw [List.mem_singleton.mp h]
      simp
    · split at h
      · rw [List.mem_singleton.mp h]
        simp
      · exact absurd h List.not_mem_nil
  · exact absurd h List.not_mem_nil

/-- The provider failures of a pair are its findings without an evaluator. -/
theorem kindsByEvaluator_findingsOf : KindsByEvaluator (findingsOf outcome threshold key b c) := by
  intro f hf
  rcases List.mem_append.mp hf with hf | hf
  · obtain ⟨_, hkind, hevaluator, _⟩ := mem_providerFindings hf
    simp [hkind, hevaluator]
  · obtain ⟨name, _, hf⟩ := List.mem_flatMap.mp hf
    simp [kind_of_mem_evaluatorFindingsOf hf, (mem_evaluatorFindingsOf hf).2.1]

/-- An evaluator has at most one finding on a pair. -/
theorem length_evaluatorFindingsOf_le (name : NonBlank) :
    (evaluatorFindingsOf outcome threshold key b c name).length ≤ 1 := by
  unfold evaluatorFindingsOf evaluatorFindings
  split
  · dsimp only
    split
    · simp
    · split <;> simp
  · simp

/-- The findings of a pair are in order: the provider failure, then the evaluators by name. -/
theorem findingsOf_ordered :
    (findingsOf outcome threshold key b c).Pairwise fun f g => f.place < g.place := by
  have single : ∀ {fs : List PairFinding}, fs.length ≤ 1 →
      fs.Pairwise fun f g => f.place < g.place := by
    intro fs hfs
    match fs, hfs with
    | [], _ => exact List.Pairwise.nil
    | [f], _ => exact List.pairwise_singleton _ f
  have hprovider : (providerFindings key b c).length ≤ 1 := by
    unfold providerFindings
    split <;> simp
  unfold findingsOf
  rw [List.pairwise_append, List.pairwise_flatMap]
  refine ⟨single hprovider,
    ⟨fun name _ => single (length_evaluatorFindingsOf_le name), ?_⟩, ?_⟩
  · -- The evaluators are sorted by name.
    have hsorted : (sharedEvaluators outcome b c).Pairwise (· < ·) :=
      Sorting.sorted_pairwise_lt ((scoreMap b outcome.resultsByRun).nodup.filter _)
    apply hsorted.imp
    intro name other hlt f hf g hg
    obtain ⟨hfkey, hfname, _⟩ := mem_evaluatorFindingsOf hf
    obtain ⟨hgkey, hgname, _⟩ := mem_evaluatorFindingsOf hg
    unfold PairFinding.place
    rw [hfkey, hgkey, hfname, hgname, Prod.Lex.toLex_lt_toLex]
    exact .inr ⟨rfl, WithBot.coe_lt_coe.mpr hlt⟩
  · intro f hf g hg
    obtain ⟨name, _, hg⟩ := List.mem_flatMap.mp hg
    obtain ⟨hfkey, _, hfname, _⟩ := mem_providerFindings hf
    obtain ⟨hgkey, hgname, _⟩ := mem_evaluatorFindingsOf hg
    unfold PairFinding.place
    rw [hfkey, hgkey, hfname, hgname, Prod.Lex.toLex_lt_toLex]
    exact .inr ⟨rfl, WithBot.bot_lt_coe name⟩

end

section

variable {experiment : Experiment} {outcome : RunOutcome} {threshold : ℚ}
  {d : RegressionDiagnostics} (h : diagnoseRegressions experiment outcome threshold = .ok d)

include h

/-- The fields of a diagnosis are those of its findings. -/
theorem diagnosis_fields :
    d.regressingPairs = (d.findings.map PairFinding.key).toFinset.card ∧
      d.regressingCases = (d.findings.map PairFinding.caseId).toFinset.card ∧
      d.categories = categoryCounts d.findings ∧ d.evaluators = evaluatorCounts d.findings ∧
      regressingCases d.findings = .ok d.cases := by
  obtain ⟨bs, cs, hb, hc, _⟩ := diagnoseRegressions_eq_ok h
  rw [diagnoseRegressions_eq hb hc] at h
  obtain ⟨cases, hcases, hd⟩ := ExceptRules.bind_eq_ok.mp h
  cases hd
  exact ⟨rfl, rfl, rfl, rfl, hcases⟩

/-- The findings of a diagnosis are in order: pair by pair, and on a pair evaluator by
evaluator. -/
theorem findings_ordered : d.findings.Pairwise fun f g => f.place < g.place := by
  obtain ⟨bs, cs, _, _, hfindings⟩ := diagnoseRegressions_eq_ok h
  rw [hfindings, allFindings, List.pairwise_flatMap]
  constructor
  · intro key _
    split
    · exact findingsOf_ordered
    · exact List.Pairwise.nil
  · have hsorted : (matchedKeys bs cs).Pairwise (· < ·) :=
      Sorting.sorted_pairwise_lt (bs.nodup.filter _)
    apply hsorted.imp
    intro key other hlt f hf g hg
    -- The findings of a key carry the key.
    have hfkey : f.key = key := by
      split at hf
      · exact (mem_findingsOf hf).1
      · exact absurd hf List.not_mem_nil
    have hgkey : g.key = other := by
      split at hg
      · exact (mem_findingsOf hg).1
      · exact absurd hg List.not_mem_nil
    unfold PairFinding.place
    rw [hfkey, hgkey, Prod.Lex.toLex_lt_toLex]
    exact .inl hlt

theorem kindsByEvaluator_findings : KindsByEvaluator d.findings := by
  intro f hf
  obtain ⟨key, b, c, _, hmem⟩ := (mem_findings_iff h).mp hf
  exact kindsByEvaluator_findingsOf f hmem

/-- The runs of a representative are those of its pair. -/
theorem representative_matched {case : RegressingCase} (hrow : CaseRow d.findings case) :
    ∃ b c, Matched experiment outcome
        (toLex (case.caseId, case.representative.repeatIndex)) b c ∧
      case.representative.baselineRunId = b.id ∧
        case.representative.candidateRunId = c.id := by
  obtain ⟨⟨sample, hsample, hrepeat, hbaseline, hcandidate⟩, _⟩ :=
    representative_eq_ok hrow.representative
  obtain ⟨hmem, hcase⟩ := List.mem_filter.mp hsample
  obtain ⟨key, b, c, hmatched, hf⟩ := (mem_findings_iff h).mp hmem
  obtain ⟨hkey, hb, hc⟩ := mem_findingsOf hf
  refine ⟨b, c, ?_, hbaseline.trans hb, hcandidate.trans hc⟩
  rw [← of_decide_eq_true hcase, ← hrepeat,
    show toLex (sample.caseId, sample.repeatIndex) = key from hkey]
  exact hmatched

/-- The totals of every diagnosis account for its findings. -/
theorem diagnoseRegressions_totals : TotalsAccount experiment outcome d := by
  obtain ⟨hpairs, hcases, hcategories, hevaluators, hrows⟩ := diagnosis_fields h
  constructor
  case regressing_pairs => rw [hpairs, distinctCount_true]
  case regressing_cases => rw [hcases, distinctCount_true]
  case category_rows => exact hcategories ▸ categoryCounts_rows d.findings
  case category_counts =>
    intro row hrow
    exact categoryCounts_counts (hcategories ▸ hrow)
  case evaluator_rows => exact hevaluators ▸ evaluatorCounts_rows d.findings
  case evaluator_counts =>
    intro row hrow
    exact evaluatorCounts_counts (hevaluators ▸ hrow)
  case evaluators_and_providers =>
    rw [hevaluators]
    exact sum_evaluatorCounts (kindsByEvaluator_findings h)
  case case_rows => exact regressingCases_rows hrows
  case case_counts =>
    intro case hcase
    rw [(caseRow_of_mem hrows hcase).finding_count, List.countP_eq_length_filter]
    rfl
  case case_counts_sum => exact sum_regressingCases hrows
  case case_contents =>
    intro case hcase
    exact (caseRow_of_mem hrows hcase).contents
  case representative_most =>
    intro case hcase
    exact (caseRow_of_mem hrows hcase).representative_most
  case representative_runs =>
    intro case hcase
    exact representative_matched h (caseRow_of_mem hrows hcase)
  case categories_ordered => exact hcategories ▸ categoryCounts_ordered d.findings
  case evaluators_ordered => exact hevaluators ▸ evaluatorCounts_ordered d.findings
  case cases_ordered => exact regressingCases_ordered hrows
  case case_lists_ordered =>
    intro case hcase
    exact (caseRow_of_mem hrows hcase).lists_ordered
  case findings_ordered => exact findings_ordered h

end

/-- The totals of a diagnosis in which the score of the candidate dropped. -/
theorem diagnoseRegressions_totals_judged :
    ∃ d, diagnoseRegressions (offlineExperiment 1 (le_refl 1)) judgedOutcome 0 = .ok d ∧
      TotalsAccount (offlineExperiment 1 (le_refl 1)) judgedOutcome d := by
  obtain ⟨d, h⟩ := judgedOutcome_isOk 0
  exact ⟨d, h, diagnoseRegressions_totals h⟩

end EvalOps
