import EvalOps.Api.Store
import EvalOps.Lib.Sorting

/-!
# `EvalOps.Api.Create`: the routes that create records

The `POST` routes of `api/routes.py` that add a project, a dataset, a system version, a release
policy, an experiment or a trace, and the promotion of traces into a dataset of `promotion.py`.
The body of a request is what its schema in `api/schemas.py` has parsed. A route runs in one unit
of work, so it either adds its rows or leaves the tables as they were.
-/

set_option autoImplicit false

namespace EvalOps

/-! ### Request bodies -/

/-- `ProjectCreate`. -/
structure ProjectCreate where
  name : String

/-- `ExpectedToolCallSpec`. -/
structure ExpectedToolCallSpec where
  name : String
  arguments : Option (List (String × Json))

/-- `DatasetCaseCreate`. -/
structure DatasetCaseCreate where
  input : String
  expectedOutput : Option String
  origin : CaseOrigin
  sourceTraceId : Option String
  expectedRetrievalIds : List String
  expectedToolCalls : List ExpectedToolCallSpec

/-- `DatasetCreate`. -/
structure DatasetCreate where
  name : String
  version : ℤ
  cases : List DatasetCaseCreate

/-- `TraceDatasetCreate`. The promotion itself rejects an empty list. -/
structure TraceDatasetCreate where
  name : String
  traceIds : List String

/-- `SystemVersionCreate`. -/
structure SystemVersionCreate where
  name : String
  version : String
  provider : ProviderName
  model : String
  promptTemplate : String
  parameters : List (String × Json)
  ragConfig : Option (List (String × Json))
  toolPolicy : Option (List (String × Json))

/-- `ReleasePolicyCreate`. -/
structure ReleasePolicyCreate where
  name : String
  thresholds : Dict String ℚ
  maxSafetyViolations : ℤ

/-- `ExperimentCreate`. -/
structure ExperimentCreate where
  datasetId : String
  baselineVersionId : String
  candidateVersionId : String
  repeats : ℤ
  releasePolicyId : Option String

/-- `TraceCreate`. -/
structure TraceCreate where
  systemVersionId : String
  input : String
  output : String
  referenceOutput : Option String
  metadata : List (String × Json)
  latencyMs : Option ℚ
  costUsd : Option ℚ
  error : Option String

/-! ### The routes -/

/-- `raise HTTPException(status_code, detail)`. -/
def httpException (statusCode : ℕ) (detail : String) : PyError :=
  ⟨.other "HTTPException", s!"{statusCode}: " ++ detail⟩

/-- `_found`. -/
def found {α : Type} (value : Option α) (detail : String) : Py α :=
  match value with
  | some value => pure value
  | none => throw (httpException 404 detail)

/-- `create_project`. -/
def createProject (db : Database) (stamp : Stamp) (body : ProjectCreate) : Tx Store Project := do
  let project ← Effect.lift (Project.init body.name stamp.id.text stamp.createdAt)
  addProject db project

/-- The case of `create_dataset` for one case of the body. -/
def caseOf (body : DatasetCaseCreate) (id : EntityId) : Py DatasetCase := do
  let expectedToolCalls ← body.expectedToolCalls.mapM fun e =>
    ExpectedToolCall.init e.name e.arguments
  DatasetCase.init body.input body.expectedOutput body.origin body.sourceTraceId
    body.expectedRetrievalIds expectedToolCalls id.text

/-- `create_dataset`. The `k`-th case draws the id `caseIds k`. -/
def createDataset (db : Database) (stamp : Stamp) (caseIds : ℕ → EntityId) (projectId : String)
    (body : DatasetCreate) : Tx Store Dataset := do
  let store ← get
  let _ ← Effect.lift (found (store.getProject projectId) "project not found")
  let cases ← Effect.lift (body.cases.zipIdx.mapM fun (case, k) => caseOf case (caseIds k))
  let dataset ← Effect.lift
    (Dataset.init projectId body.name body.version cases stamp.id.text stamp.createdAt)
  addDataset db dataset

/-- `_PROMOTED_VERSION`. -/
def promotedVersion : ℤ := 1

/-- One turn of the loop of `promote_traces_to_dataset`. -/
def promotedCase (store : Store) (projectId traceId : String) (id : EntityId) :
    Py DatasetCase :=
  match store.getTrace traceId with
  | none =>
      throw ⟨.recordNotFound, "production trace " ++ PyText.repr traceId ++ " not found"⟩
  | some trace =>
      if trace.projectId.text ≠ projectId then
        throw (.config ("production trace " ++ PyText.repr traceId ++ " belongs to project " ++
          PyText.repr trace.projectId.text ++ ", not " ++ PyText.repr projectId))
      else
        DatasetCase.init trace.input.text trace.referenceOutput .promotedTrace
          (some trace.id.text) [] [] id.text

/-- `promote_traces_to_dataset`. -/
def promoteTracesToDataset (db : Database) (stamp : Stamp) (caseIds : ℕ → EntityId)
    (projectId : String) (traceIds : List String) (name : String) : Tx Store Dataset := do
  if traceIds = [] then
    throw (.config "at least one trace id is required to build a dataset")
  let duplicates :=
    Sorting.sorted (traceIds.filter fun tid => decide (1 < traceIds.count tid)).dedup
  if duplicates ≠ [] then
    throw (.config ("duplicate trace id(s) in the selection: " ++ PyText.reprList duplicates))
  let store ← get
  if (store.getProject projectId).isNone then
    throw ⟨.recordNotFound, "project " ++ PyText.repr projectId ++ " not found"⟩
  let cases ← Effect.lift
    (traceIds.zipIdx.mapM fun (traceId, k) => promotedCase store projectId traceId (caseIds k))
  let dataset ← Effect.lift
    (Dataset.init projectId name promotedVersion cases stamp.id.text stamp.createdAt)
  addDataset db dataset

/-- `create_trace_dataset`. -/
def createTraceDataset (db : Database) (stamp : Stamp) (caseIds : ℕ → EntityId)
    (projectId : String) (body : TraceDatasetCreate) : Tx Store Dataset :=
  promoteTracesToDataset db stamp caseIds projectId body.traceIds body.name

/-- `create_system_version`. -/
def createSystemVersion (db : Database) (stamp : Stamp) (projectId : String)
    (body : SystemVersionCreate) : Tx Store SystemVersion := do
  let store ← get
  let _ ← Effect.lift (found (store.getProject projectId) "project not found")
  let version ← Effect.lift
    (SystemVersion.init projectId body.name body.version body.provider body.model
      body.promptTemplate body.parameters body.ragConfig body.toolPolicy stamp.id.text
      stamp.createdAt)
  addSystemVersion db version

/-- `create_release_policy`. -/
def createReleasePolicy (db : Database) (id : EntityId) (body : ReleasePolicyCreate) :
    Tx Store ReleasePolicy := do
  let policy ← Effect.lift
    (ReleasePolicy.init body.name body.thresholds body.maxSafetyViolations id.text)
  addReleasePolicy db policy

/-- `create_experiment`. Each reference must exist. -/
def createExperiment (db : Database) (stamp : Stamp) (projectId : String)
    (body : ExperimentCreate) : Tx Store Experiment := do
  let store ← get
  let _ ← Effect.lift (found (store.getProject projectId) "project not found")
  let _ ← Effect.lift (found (store.getDataset body.datasetId) "dataset not found")
  let _ ← Effect.lift
    (found (store.getSystemVersion body.baselineVersionId) "baseline system version not found")
  let _ ← Effect.lift
    (found (store.getSystemVersion body.candidateVersionId) "candidate system version not found")
  match body.releasePolicyId with
  | none => pure ()
  | some policyId => do
      let _ ← Effect.lift (found (store.getReleasePolicy policyId) "release policy not found")
      pure ()
  let experiment ← Effect.lift
    (Experiment.init projectId body.datasetId body.baselineVersionId body.candidateVersionId
      body.repeats body.releasePolicyId stamp.id.text stamp.createdAt)
  addExperiment db experiment

/-- `create_trace`. The system version must exist and belong to the project. -/
def createTrace (db : Database) (stamp : Stamp) (projectId : String) (body : TraceCreate) :
    Tx Store ProductionTrace := do
  let store ← get
  let _ ← Effect.lift (found (store.getProject projectId) "project not found")
  let systemVersion ← Effect.lift
    (found (store.getSystemVersion body.systemVersionId) "system version not found")
  if systemVersion.projectId.text ≠ projectId then
    throw (httpException 422 "system version does not belong to this project")
  let trace ← Effect.lift
    (ProductionTrace.init projectId body.systemVersionId body.input body.output
      body.referenceOutput body.metadata body.latencyMs body.costUsd body.error .production
      stamp.id.text stamp.createdAt)
  addTrace db trace

/-! ### Sequences of requests -/

/-- A create request: the path parameters, the body, and the ids and the moment it draws. -/
inductive Call
  | project (stamp : Stamp) (body : ProjectCreate)
  | dataset (stamp : Stamp) (caseIds : ℕ → EntityId) (projectId : String) (body : DatasetCreate)
  | traceDataset (stamp : Stamp) (caseIds : ℕ → EntityId) (projectId : String)
      (body : TraceDatasetCreate)
  | systemVersion (stamp : Stamp) (projectId : String) (body : SystemVersionCreate)
  | releasePolicy (id : EntityId) (body : ReleasePolicyCreate)
  | experiment (stamp : Stamp) (projectId : String) (body : ExperimentCreate)
  | trace (stamp : Stamp) (projectId : String) (body : TraceCreate)

/-- The route of a request, without its response. -/
def Call.route (db : Database) : Call → Tx Store Unit
  | .project stamp body => do let _ ← createProject db stamp body
  | .dataset stamp caseIds projectId body => do
      let _ ← createDataset db stamp caseIds projectId body
  | .traceDataset stamp caseIds projectId body => do
      let _ ← createTraceDataset db stamp caseIds projectId body
  | .systemVersion stamp projectId body => do let _ ← createSystemVersion db stamp projectId body
  | .releasePolicy id body => do let _ ← createReleasePolicy db id body
  | .experiment stamp projectId body => do let _ ← createExperiment db stamp projectId body
  | .trace stamp projectId body => do let _ ← createTrace db stamp projectId body

/-- A request, and what the database answers while it runs. -/
structure Request where
  call : Call
  db : Database

/-- The request in its unit of work, from given tables. -/
def Request.run (request : Request) (store : Store) : Py Unit × Store :=
  Effect.exec (unitOfWork request.db.commit (request.call.route request.db)) store

/-- The request is answered with `201`. -/
def Request.Created (request : Request) (store : Store) : Prop :=
  (request.run store).1 = .ok ()

/-- The tables after a request. -/
def Store.after (store : Store) (request : Request) : Store := (request.run store).2

/-- The tables after a sequence of requests, from an empty store. -/
def storeAfter (requests : List Request) : Store := requests.foldl Store.after Store.empty

end EvalOps
