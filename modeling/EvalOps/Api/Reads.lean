import EvalOps.Api.Create

/-!
# `EvalOps.Api.Reads`: what the create routes answer and what the read routes find

The response schemas of `api/schemas.py` for projects, datasets, system versions, release policies,
experiments and traces, and the `GET` routes of `api/routes.py` for one record and for the records
of a project. A create route answers with the view of the record that it added, and a `GET` route
with the view of the row that it reads.

A list query names an order, and the database is free in the order of texts and of rows with equal
keys: a `Collation` is the order it has for each kind of record.
-/

set_option autoImplicit false

namespace EvalOps

/-! ### Response schemas -/

/-- `ProjectRead`. -/
structure ProjectRead where
  id : String
  name : String
  createdAt : Timestamp

/-- `ProjectRead.of`. -/
def ProjectRead.of (value : Project) : ProjectRead where
  id := value.id.text
  name := value.name.text
  createdAt := value.createdAt

/-- `ExpectedToolCallRead`. -/
structure ExpectedToolCallRead where
  name : String
  arguments : Option (List (String × Json))

/-- `DatasetCaseRead`. -/
structure DatasetCaseRead where
  id : String
  input : String
  expectedOutput : Option String
  origin : CaseOrigin
  sourceTraceId : Option String
  expectedRetrievalIds : List String
  expectedToolCalls : List ExpectedToolCallRead

/-- One case in `DatasetRead.of`. -/
def DatasetCaseRead.of (case : DatasetCase) : DatasetCaseRead where
  id := case.id.text
  input := case.input.text
  expectedOutput := case.expectedOutput
  origin := case.origin
  sourceTraceId := case.sourceTraceId
  expectedRetrievalIds := case.expectedRetrievalIds.map NonBlank.text
  expectedToolCalls := case.expectedToolCalls.map fun e =>
    { name := e.name.text, arguments := e.arguments }

/-- `DatasetRead`. -/
structure DatasetRead where
  id : String
  projectId : String
  name : String
  version : ℕ
  createdAt : Timestamp
  cases : List DatasetCaseRead

/-- `DatasetRead.of`. -/
def DatasetRead.of (value : Dataset) : DatasetRead where
  id := value.id.text
  projectId := value.projectId.text
  name := value.name.text
  version := value.version
  createdAt := value.createdAt
  cases := value.cases.map .of

/-- `SystemVersionRead`. -/
structure SystemVersionRead where
  id : String
  projectId : String
  name : String
  version : String
  provider : ProviderName
  model : String
  promptTemplate : String
  parameters : List (String × Json)
  ragConfig : Option (List (String × Json))
  toolPolicy : Option (List (String × Json))
  createdAt : Timestamp

/-- `SystemVersionRead.of`. -/
def SystemVersionRead.of (value : SystemVersion) : SystemVersionRead where
  id := value.id.text
  projectId := value.projectId.text
  name := value.name.text
  version := value.version.text
  provider := value.provider
  model := value.model.text
  promptTemplate := value.promptTemplate.text
  parameters := value.parameters
  ragConfig := value.ragConfig
  toolPolicy := value.toolPolicy
  createdAt := value.createdAt

/-- `ReleasePolicyRead`. -/
structure ReleasePolicyRead where
  id : String
  name : String
  thresholds : Dict String ℚ
  maxSafetyViolations : ℕ

/-- `ReleasePolicyRead.of`. -/
def ReleasePolicyRead.of (value : ReleasePolicy) : ReleasePolicyRead where
  id := value.id.text
  name := value.name.text
  thresholds := value.thresholds
  maxSafetyViolations := value.maxSafetyViolations

/-- `ExperimentRead`. -/
structure ExperimentRead where
  id : String
  projectId : String
  datasetId : String
  baselineVersionId : String
  candidateVersionId : String
  repeats : ℕ
  releasePolicyId : Option String
  createdAt : Timestamp

/-- `ExperimentRead.of`. -/
def ExperimentRead.of (value : Experiment) : ExperimentRead where
  id := value.id.text
  projectId := value.projectId.text
  datasetId := value.datasetId.text
  baselineVersionId := value.baselineVersionId.text
  candidateVersionId := value.candidateVersionId.text
  repeats := value.repeats
  releasePolicyId := value.releasePolicyId.map NonBlank.text
  createdAt := value.createdAt

/-- `TraceRead`. -/
structure TraceRead where
  id : String
  projectId : String
  systemVersionId : String
  createdAt : Timestamp
  input : String
  output : String
  referenceOutput : Option String
  metadata : List (String × Json)
  latencyMs : Option ℚ
  costUsd : Option ℚ
  error : Option String
  origin : TraceOrigin

/-- `TraceRead.of`. -/
def TraceRead.of (value : ProductionTrace) : TraceRead where
  id := value.id.text
  projectId := value.projectId.text
  systemVersionId := value.systemVersionId.text
  createdAt := value.createdAt
  input := value.input.text
  output := value.output
  referenceOutput := value.referenceOutput
  metadata := value.metadata
  latencyMs := value.latencyMs
  costUsd := value.costUsd
  error := value.error.map NonBlank.text
  origin := value.origin

/-! ### The create routes, with their responses -/

/-- A response that shows one record. -/
inductive View
  | project (view : ProjectRead)
  | dataset (view : DatasetRead)
  | systemVersion (view : SystemVersionRead)
  | releasePolicy (view : ReleasePolicyRead)
  | experiment (view : ExperimentRead)
  | trace (view : TraceRead)

/-- The response of a create route. -/
def Call.respond (db : Database) : Call → Tx Store View
  | .project stamp body => do
      let project ← createProject db stamp body
      pure (.project (.of project))
  | .dataset stamp caseIds projectId body => do
      let dataset ← createDataset db stamp caseIds projectId body
      pure (.dataset (.of dataset))
  | .traceDataset stamp caseIds projectId body => do
      let dataset ← createTraceDataset db stamp caseIds projectId body
      pure (.dataset (.of dataset))
  | .systemVersion stamp projectId body => do
      let version ← createSystemVersion db stamp projectId body
      pure (.systemVersion (.of version))
  | .releasePolicy id body => do
      let policy ← createReleasePolicy db id body
      pure (.releasePolicy (.of policy))
  | .experiment stamp projectId body => do
      let experiment ← createExperiment db stamp projectId body
      pure (.experiment (.of experiment))
  | .trace stamp projectId body => do
      let trace ← createTrace db stamp projectId body
      pure (.trace (.of trace))

/-- What a create request is answered with: the view that a `201` carries, or the exception. -/
def Request.response (request : Request) (store : Store) : Py View :=
  (Effect.exec (unitOfWork request.db.commit (request.call.respond request.db)) store).1

/-! ### Reading one record -/

namespace Store

/-- `ExperimentRepository.get`. -/
def getExperiment (store : Store) (id : String) : Option Experiment :=
  store.experiments.find? fun e => decide (e.id.text = id)

end Store

/-- A path that names one record: `GET /projects/{project_id}`, `GET /datasets/{dataset_id}`,
`GET /system-versions/{system_version_id}`, `GET /release-policies/{policy_id}`,
`GET /experiments/{experiment_id}` and `GET /traces/{trace_id}`. -/
inductive Path
  | project (projectId : String)
  | dataset (datasetId : String)
  | systemVersion (systemVersionId : String)
  | releasePolicy (policyId : String)
  | experiment (experimentId : String)
  | trace (traceId : String)
deriving DecidableEq

/-- `get_project`, `get_dataset`, `get_system_version`, `get_release_policy`, `get_experiment` and
`get_trace`. -/
def Path.get (path : Path) (store : Store) : Py View :=
  match path with
  | .project projectId => do
      let project ← found (store.getProject projectId) "project not found"
      pure (.project (.of project))
  | .dataset datasetId => do
      let dataset ← found (store.getDataset datasetId) "dataset not found"
      pure (.dataset (.of dataset))
  | .systemVersion systemVersionId => do
      let version ← found (store.getSystemVersion systemVersionId) "system version not found"
      pure (.systemVersion (.of version))
  | .releasePolicy policyId => do
      let policy ← found (store.getReleasePolicy policyId) "release policy not found"
      pure (.releasePolicy (.of policy))
  | .experiment experimentId => do
      let experiment ← found (store.getExperiment experimentId) "experiment not found"
      pure (.experiment (.of experiment))
  | .trace traceId => do
      let trace ← found (store.getTrace traceId) "trace not found"
      pure (.trace (.of trace))

/-- The path of the record that a response shows. -/
def View.path : View → Path
  | .project view => .project view.id
  | .dataset view => .dataset view.id
  | .systemVersion view => .systemVersion view.id
  | .releasePolicy view => .releasePolicy view.id
  | .experiment view => .experiment view.id
  | .trace view => .trace view.id

/-! ### Reading the records of a project -/

/-- The order that the database answers a list query in. -/
structure Collation where
  projects : Project → Project → Bool
  datasets : Dataset → Dataset → Bool
  systemVersions : SystemVersion → SystemVersion → Bool
  releasePolicies : ReleasePolicy → ReleasePolicy → Bool
  experiments : Experiment → Experiment → Bool
  traces : ProductionTrace → ProductionTrace → Bool

/-- A path that names a list: `GET /projects`, `GET /release-policies`, and the lists below
`/projects/{project_id}`. -/
inductive ListPath
  | projects
  | datasets (projectId : String)
  | systemVersions (projectId : String)
  | releasePolicies
  | experiments (projectId : String)
  | traces (projectId : String)
deriving DecidableEq

/-- `scalars(select(...).where(...).order_by(...))`, mapped to the response. -/
def selectRows {α : Type} (before : α → α → Bool) (kept : α → Bool) (view : α → View)
    (rows : List α) : List View :=
  ((rows.filter kept).mergeSort before).map view

/-- `list_projects`, `list_datasets`, `list_system_versions`, `list_release_policies`,
`list_experiments` and `list_traces`. -/
def ListPath.get (path : ListPath) (collation : Collation) (store : Store) : Py (List View) :=
  match path with
  | .projects =>
      pure (selectRows collation.projects (fun _ => true) (fun p => .project (.of p))
        store.projects)
  | .datasets projectId => do
      let _ ← found (store.getProject projectId) "project not found"
      pure (selectRows collation.datasets (fun d => decide (d.projectId.text = projectId))
        (fun d => .dataset (.of d)) store.datasets)
  | .systemVersions projectId => do
      let _ ← found (store.getProject projectId) "project not found"
      pure (selectRows collation.systemVersions (fun v => decide (v.projectId.text = projectId))
        (fun v => .systemVersion (.of v)) store.systemVersions)
  | .releasePolicies =>
      pure (selectRows collation.releasePolicies (fun _ => true)
        (fun p => .releasePolicy (.of p)) store.releasePolicies)
  | .experiments projectId => do
      let _ ← found (store.getProject projectId) "project not found"
      pure (selectRows collation.experiments (fun e => decide (e.projectId.text = projectId))
        (fun e => .experiment (.of e)) store.experiments)
  | .traces projectId => do
      let _ ← found (store.getProject projectId) "project not found"
      pure (selectRows collation.traces (fun t => decide (t.projectId.text = projectId))
        (fun t => .trace (.of t)) store.traces)

end EvalOps
