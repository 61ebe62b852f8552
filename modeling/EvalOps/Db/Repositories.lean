import EvalOps.Db.Mapping
import EvalOps.ExecutionService

/-!
# `EvalOps.Db.Repositories`: the tables behind an evaluation

The tables that `execute_experiment` reads and writes, as rows, and the repositories of
`db/repositories.py` over them. A read maps the rows it finds, so what an evaluation gets from the
database has passed through both conversions. What the database answers to the flush of a row is a
`Flushes`.
-/

set_option autoImplicit false

namespace EvalOps

/-- The rows, table by table. -/
structure DbTables where
  projects : List ProjectRow
  datasets : List DatasetRow
  systemVersions : List SystemVersionRow
  releasePolicies : List ReleasePolicyRow
  experiments : List ExperimentRow
  evaluationRuns : List EvaluationRunRow
  caseResults : List CaseResultRow
  evaluationResults : List EvaluationResultRow

/-- `session.get`, and the mapping of the row it finds. -/
def getById {ρ α : Type} (rows : List ρ) (rowId : ρ → String) (fromOrm : ρ → Py α)
    (id : String) : Py (Option α) :=
  match rows.find? fun row => decide (rowId row = id) with
  | none => pure none
  | some row => some <$> fromOrm row

/-- The rows of an experiment by `created_at` and then by `id`, each mapped. -/
def listByExperiment {ρ α : Type} (rows : List ρ) (experimentId rowId : ρ → String)
    (createdAt : ρ → Moment) (fromOrm : ρ → Py α) (id : String) : Py (List α) :=
  (Sorting.sortedOn (fun row => toLex ((createdAt row).attachUtc, rowId row))
    (rows.filter fun row => decide (experimentId row = id))).mapM fromOrm

namespace DbTables

/-- The tables after the migrations. -/
def empty : DbTables := ⟨[], [], [], [], [], [], [], []⟩

variable (conv : Conversions) (tables : DbTables)

/-- `ProjectRepository.get`. -/
def getProject (id : String) : Py (Option Project) :=
  getById tables.projects ProjectRow.id projectFromOrm id

/-- `DatasetRepository.get`. -/
def getDataset (id : String) : Py (Option Dataset) :=
  getById tables.datasets DatasetRow.id (datasetFromOrm conv) id

/-- `SystemVersionRepository.get`. -/
def getSystemVersion (id : String) : Py (Option SystemVersion) :=
  getById tables.systemVersions SystemVersionRow.id systemVersionFromOrm id

/-- `ReleasePolicyRepository.get`. -/
def getReleasePolicy (id : String) : Py (Option ReleasePolicy) :=
  getById tables.releasePolicies ReleasePolicyRow.id releasePolicyFromOrm id

/-- `ExperimentRepository.get`. -/
def getExperiment (id : String) : Py (Option Experiment) :=
  getById tables.experiments ExperimentRow.id experimentFromOrm id

/-- `EvaluationRunRepository.list_for_experiment`. -/
def listRuns (experimentId : String) : Py (List EvaluationRun) :=
  listByExperiment tables.evaluationRuns EvaluationRunRow.experimentId EvaluationRunRow.id
    EvaluationRunRow.createdAt (evaluationRunFromOrm conv) experimentId

/-- `EvaluationResultRepository.list_for_experiment`. -/
def listResults (experimentId : String) : Py (List EvaluationResult) :=
  listByExperiment tables.evaluationResults EvaluationResultRow.experimentId
    EvaluationResultRow.id EvaluationResultRow.createdAt evaluationResultFromOrm experimentId

end DbTables

/-- What the database answers to the flush of each row. It raises no `ConfigError`. -/
structure Flushes where
  run : EvaluationRun → Py Unit
  caseResult : CaseResult → Py Unit
  result : EvaluationResult → Py Unit
  run_foreign : ∀ row, RaisesNoConfigError (run row)
  caseResult_foreign : ∀ row, RaisesNoConfigError (caseResult row)
  result_foreign : ∀ row, RaisesNoConfigError (result row)

/-- The repositories of one session on the tables. -/
def DbTables.repositories (conv : Conversions) (tables : DbTables) (flushes : Flushes) :
    Repositories where
  experiment id := tables.getExperiment id.text
  listRuns id := tables.listRuns conv id.text
  project id := tables.getProject id.text
  dataset id := tables.getDataset conv id.text
  systemVersion id := tables.getSystemVersion id.text
  releasePolicy id := tables.getReleasePolicy id.text
  addRun := flushes.run
  addCaseResult := flushes.caseResult
  addResult result := (flushes.result result).map fun _ => result
  addRun_foreign := flushes.run_foreign
  addCaseResult_foreign := flushes.caseResult_foreign
  addResult_foreign result := by
    intro exc h
    refine flushes.result_foreign result exc ?_
    cases hflush : flushes.result result with
    | error exc' =>
        rw [hflush] at h
        cases h
        rfl
    | ok _ =>
        rw [hflush] at h
        exact nomatch h

/-- The tables after the inserts of an execution. -/
def DbTables.persisted (tables : DbTables) (evaluation : EvaluationOutcome) : DbTables :=
  { tables with
    evaluationRuns :=
      tables.evaluationRuns ++ evaluation.outcome.runs.map evaluationRunToOrm
    caseResults := tables.caseResults ++ evaluation.outcome.caseResults.map caseResultToOrm
    evaluationResults :=
      tables.evaluationResults ++ [evaluationResultToOrm evaluation.result] }

end EvalOps
