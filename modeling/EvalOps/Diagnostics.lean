import EvalOps.Lib.Grouping
import EvalOps.Stats

/-!
# `EvalOps.Diagnostics`: case-level regression diagnostics

`diagnostics.py`. `diagnoseRegressions` pairs the baseline and the candidate runs by case and
repeat, compares each pair, and counts the findings by category, by evaluator and by case. It
explains a decision and changes none.

The module has its own `_runs_by_key`, word for word the one of `stats.py`, and `runsByKey` stands
for both.
-/

set_option autoImplicit false

namespace EvalOps

/-- `RegressionCategory`. -/
inductive RegressionCategory
  | evaluatorRegression
  | providerExecutionFailure
  | retrievalRegression
  | groundednessRegression
  | toolSelectionRegression
  | toolArgumentRegression
  | toolExecutionFailure
  | trajectoryRegression
deriving DecidableEq, Repr

/-- The literal of the category. Categories are ordered by it. -/
def RegressionCategory.value : RegressionCategory → String
  | evaluatorRegression => "evaluator_regression"
  | providerExecutionFailure => "provider_execution_failure"
  | retrievalRegression => "retrieval_regression"
  | groundednessRegression => "groundedness_regression"
  | toolSelectionRegression => "tool_selection_regression"
  | toolArgumentRegression => "tool_argument_regression"
  | toolExecutionFailure => "tool_execution_failure"
  | trajectoryRegression => "trajectory_regression"

/-- `FindingKind`. -/
inductive FindingKind
  | providerFailure
  | evaluatorPassToFail
  | evaluatorScoreDrop
deriving DecidableEq, Repr

/-- `MIN_SCORE_DROP`. -/
def minScoreDrop : ℚ := 5 / 100

/-- `_EVALUATOR_CATEGORY`. -/
def evaluatorCategory : Dict String RegressionCategory :=
  .ofList
    [("retrieval_recall", .retrievalRegression),
     ("context_precision", .retrievalRegression),
     ("groundedness_lexical", .groundednessRegression),
     ("tool_selection", .toolSelectionRegression),
     ("tool_arguments", .toolArgumentRegression),
     ("tool_success", .toolExecutionFailure),
     ("tool_trajectory", .trajectoryRegression)]

/-- `_category_for_evaluator`. -/
def categoryForEvaluator (name : String) : RegressionCategory :=
  match evaluatorCategory.get? name with
  | some known => known
  | none =>
      if PyText.startswith name "groundedness" then .groundednessRegression
      else .evaluatorRegression

/-- `PairFinding`: one regression of the candidate on one pair. -/
structure PairFinding where
  caseId : EntityId
  repeatIndex : ℕ
  baselineRunId : EntityId
  candidateRunId : EntityId
  category : RegressionCategory
  kind : FindingKind
  evaluator : Option NonBlank
  baselineDetail : String
  candidateDetail : String
deriving DecidableEq

/-- `CategoryCount`. -/
structure CategoryCount where
  category : RegressionCategory
  pairs : ℕ
  cases : ℕ
deriving DecidableEq

/-- `EvaluatorCount`. -/
structure EvaluatorCount where
  evaluator : NonBlank
  pairs : ℕ
  cases : ℕ
  passToFail : ℕ
  scoreDrop : ℕ
deriving DecidableEq

/-- `PairRef`. -/
structure PairRef where
  repeatIndex : ℕ
  baselineRunId : EntityId
  candidateRunId : EntityId
deriving DecidableEq

/-- `RegressingCase`: one case with at least one finding. -/
structure RegressingCase where
  caseId : EntityId
  categories : List RegressionCategory
  evaluators : List NonBlank
  providerFailure : Bool
  findingCount : ℕ
  representative : PairRef
deriving DecidableEq

/-- `RegressionDiagnostics`. -/
structure RegressionDiagnostics where
  experimentId : EntityId
  baselineVersionId : EntityId
  candidateVersionId : EntityId
  matchedPairs : ℕ
  regressingPairs : ℕ
  regressingCases : ℕ
  categories : List CategoryCount
  evaluators : List EvaluatorCount
  cases : List RegressingCase
  findings : List PairFinding
  available : Bool
deriving DecidableEq

/-- The `(case_id, repeat_index)` of a finding. -/
def PairFinding.key (f : PairFinding) : PairKey := toLex (f.caseId, f.repeatIndex)

/-! ### Findings -/

/-- `_score_map`: the scores of a run by evaluator, none for a failed run or a run without a case
result. -/
def scoreMap (run : EvaluationRun) (caseResults : Dict EntityId CaseResult) :
    Dict NonBlank EvaluatorScore :=
  if run.error.isSome then .empty
  else
    match caseResults.get? run.id with
    | none => .empty
    | some caseResult => .ofList (caseResult.scores.map fun s => (s.evaluator, s))

/-- `_short_error`. -/
def shortError (text : String) : String :=
  let cleaned := " ".intercalate (PyText.split text)
  if cleaned.length ≤ 160 then cleaned
  else String.ofList (cleaned.toList.take 159) ++ "…"

/-- The finding for an error of the candidate alone. -/
def providerFindings (key : PairKey) (baseline candidate : EvaluationRun) : List PairFinding :=
  match candidate.error, baseline.error with
  | some error, none =>
      [{ caseId := (ofLex key).1
         repeatIndex := (ofLex key).2
         baselineRunId := baseline.id
         candidateRunId := candidate.id
         category := .providerExecutionFailure
         kind := .providerFailure
         evaluator := none
         baselineDetail := "completed"
         candidateDetail := shortError error.text }]
  | _, _ => []

/-- One turn of `_pair_findings`' loop over the evaluators that scored both runs. -/
def evaluatorFindings (key : PairKey) (baseline candidate : EvaluationRun)
    (scoreDropThreshold : ℚ) (name : NonBlank) (bScore cScore : EvaluatorScore) :
    List PairFinding :=
  let finding (kind : FindingKind) (baselineDetail candidateDetail : String) : PairFinding :=
    { caseId := (ofLex key).1
      repeatIndex := (ofLex key).2
      baselineRunId := baseline.id
      candidateRunId := candidate.id
      category := categoryForEvaluator name.text
      kind
      evaluator := some name
      baselineDetail
      candidateDetail }
  if bScore.passed = some true ∧ cScore.passed = some false then
    [finding .evaluatorPassToFail "pass" "fail"]
  else if cScore.score < bScore.score - scoreDropThreshold then
    [finding .evaluatorScoreDrop (PyText.fixed 3 bScore.score) (PyText.fixed 3 cScore.score)]
  else []

/-- `baseline_scores[name]`. -/
def scoreAt (scores : Dict NonBlank EvaluatorScore) (name : NonBlank) : Py EvaluatorScore :=
  match scores.get? name with
  | some s => pure s
  | none => throw ⟨.keyError, PyText.repr name.text⟩

/-- `_pair_findings`. -/
def pairFindings (key : PairKey) (baseline candidate : EvaluationRun)
    (caseResults : Dict EntityId CaseResult) (scoreDropThreshold : ℚ) : Py (List PairFinding) := do
  let baselineScores := scoreMap baseline caseResults
  let candidateScores := scoreMap candidate caseResults
  let names := Sorting.sorted (baselineScores.keys.filter candidateScores.contains)
  let perEvaluator ← names.mapM fun name => do
    let bScore ← scoreAt baselineScores name
    let cScore ← scoreAt candidateScores name
    pure (evaluatorFindings key baseline candidate scoreDropThreshold name bScore cScore)
  pure (providerFindings key baseline candidate ++ perEvaluator.flatten)

/-! ### Counts -/

/-- `_category_counts`: the most affected category first. -/
def categoryCounts (findings : List PairFinding) : List CategoryCount :=
  let pairs := Dict.collect PairFinding.category PairFinding.key findings
  let cases := Dict.collect PairFinding.category PairFinding.caseId findings
  let counts := pairs.entries.map fun (category, keys) =>
    ({ category, pairs := keys.card, cases := ((cases.get? category).getD ∅).card }
      : CategoryCount)
  Sorting.sortedOn (fun c => toLex (-(c.pairs : ℤ), c.category.value)) counts

/-- The row of one evaluator in `_evaluator_counts`. -/
def evaluatorCount (evaluator : NonBlank) (group : List PairFinding) : EvaluatorCount where
  evaluator
  pairs := (group.map PairFinding.key).toFinset.card
  cases := (group.map PairFinding.caseId).toFinset.card
  passToFail := group.countP fun f => decide (f.kind = .evaluatorPassToFail)
  scoreDrop := group.countP fun f => decide (f.kind = .evaluatorScoreDrop)

/-- The findings that `_evaluator_counts` groups, each with its evaluator. -/
def evaluatorEntries (findings : List PairFinding) : List (NonBlank × PairFinding) :=
  findings.filterMap fun f => f.evaluator.map fun name => (name, f)

/-- `_evaluator_counts`: the most affected evaluator first. -/
def evaluatorCounts (findings : List PairFinding) : List EvaluatorCount :=
  let byName := Dict.group Prod.fst (evaluatorEntries findings)
  let counts := byName.entries.map fun (name, group) => evaluatorCount name (group.map Prod.snd)
  Sorting.sortedOn (fun c => toLex (-(c.pairs : ℤ), c.evaluator)) counts

/-- The order of the integers, under which `min` below evaluates whatever else is imported. -/
local instance instPreorderOfInt : Preorder ℤ := Int.instLinearOrder.toPreorder

/-- `min(by_repeat, key=lambda r: (-len(by_repeat[r]), r))`, and the first finding of it. -/
def representative (byRepeat : Dict ℕ (List PairFinding)) : Py PairRef :=
  match byRepeat.entries.argmin fun e => toLex (-(e.2.length : ℤ), e.1) with
  | none => throw ⟨.other "ValueError", "min() iterable argument is empty"⟩
  | some (_, []) => throw ⟨.indexError, "list index out of range"⟩
  | some (repeatIndex, sample :: _) =>
      pure
        { repeatIndex
          baselineRunId := sample.baselineRunId
          candidateRunId := sample.candidateRunId }

/-- The case of one group in `_regressing_cases`. -/
def regressingCase (caseId : EntityId) (group : List PairFinding) : Py RegressingCase := do
  let representative ← representative (Dict.group PairFinding.repeatIndex group)
  pure
    { caseId
      categories :=
        Sorting.sortedOn RegressionCategory.value (group.map PairFinding.category).dedup
      evaluators := Sorting.sorted (group.filterMap PairFinding.evaluator).dedup
      providerFailure := group.any fun f => decide (f.kind = .providerFailure)
      findingCount := group.length
      representative }

/-- `_regressing_cases`: the case with the most findings first. -/
def regressingCases (findings : List PairFinding) : Py (List RegressingCase) := do
  let byCase := Dict.group PairFinding.caseId findings
  let cases ← byCase.entries.mapM fun (caseId, group) => regressingCase caseId group
  pure (Sorting.sortedOn (fun c => toLex (-(c.findingCount : ℤ), c.caseId)) cases)

/-! ### The diagnosis -/

/-- `diagnose_regressions`. -/
def diagnoseRegressions (experiment : Experiment) (outcome : RunOutcome)
    (scoreDropThreshold : ℚ) : Py RegressionDiagnostics := do
  let baselineId := experiment.baselineVersionId
  let candidateId := experiment.candidateVersionId
  let baselineByKey ← runsByKey outcome.runs baselineId
  let candidateByKey ← runsByKey outcome.runs candidateId
  let common := Sorting.sorted (baselineByKey.keys.filter candidateByKey.contains)
  let caseResults := Dict.ofList (outcome.caseResults.map fun cr => (cr.runId, cr))
  let findings := (← common.mapM fun key => do
    pairFindings key (← runAt baselineByKey key) (← runAt candidateByKey key) caseResults
      scoreDropThreshold).flatten
  pure
    { experimentId := experiment.id
      baselineVersionId := baselineId
      candidateVersionId := candidateId
      matchedPairs := common.length
      regressingPairs := (findings.map PairFinding.key).toFinset.card
      regressingCases := (findings.map PairFinding.caseId).toFinset.card
      categories := categoryCounts findings
      evaluators := evaluatorCounts findings
      cases := ← regressingCases findings
      findings
      available := decide (0 < common.length) }

end EvalOps
