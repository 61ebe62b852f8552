import EvalOps.Diagnostics

/-!
# `EvalOps.Api.Diagnostics`: the diagnosis of a persisted experiment

The route `GET /experiments/{id}/diagnostics` up to its response, with the two queries of
`EvaluationRunRepository` that it makes. The rows are taken as the domain objects that they map
to.
-/

set_option autoImplicit false

namespace EvalOps

/-- The `evaluation_runs` and `case_results` tables. -/
structure EvaluationRecords where
  runs : List EvaluationRun
  caseResults : List CaseResult

/-- `EvaluationRunRepository.list_for_experiment`: by `created_at` and then by `id`. -/
def EvaluationRecords.listForExperiment (records : EvaluationRecords) (experimentId : EntityId) :
    List EvaluationRun :=
  Sorting.sortedOn (fun run => toLex (run.createdAt, run.id))
    (records.runs.filter fun run => decide (run.experimentId = experimentId))

/-- `EvaluationRunRepository.get_case_result_for_run`. -/
def EvaluationRecords.getCaseResultForRun (records : EvaluationRecords) (runId : EntityId) :
    Py (Option CaseResult) :=
  match records.caseResults.filter fun cr => decide (cr.runId = runId) with
  | [] => pure none
  | [caseResult] => pure (some caseResult)
  | _ => throw ⟨.other "MultipleResultsFound",
      "Multiple rows were found when one or none was required"⟩

/-- The outcome that the route rebuilds: the runs in order, each with its case result if it has
one. -/
def EvaluationRecords.outcome (records : EvaluationRecords) (experimentId : EntityId) :
    Py RunOutcome := do
  let runs := records.listForExperiment experimentId
  let caseResults ← runs.mapM fun run => records.getCaseResultForRun run.id
  pure { runs, caseResults := caseResults.reduceOption }

/-- `get_experiment_diagnostics`, up to the response. -/
def getExperimentDiagnostics (records : EvaluationRecords) (experiment : Experiment) :
    Py RegressionDiagnostics := do
  let outcome ← records.outcome experiment.id
  diagnoseRegressions experiment outcome minScoreDrop

end EvalOps
