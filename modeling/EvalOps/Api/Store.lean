import EvalOps.Db.AsyncJobs
import EvalOps.Domain.Constructors

/-!
# `EvalOps.Api.Store`: the tables that the create routes write

The repositories of `db/repositories.py` for projects, datasets, system versions, policies,
experiments and traces. A table is the list of the domain objects that its rows map to, in the
order of their insertion.

Primary keys, the two uniqueness constraints and the lengths of the `VARCHAR` columns are modelled.
Which longer texts a column takes, and what else the database answers to a flush (a lost connection)
and to the commit, is a `Database`. A foreign key can not dangle here: each route looks its
references up in the transaction that writes them.
-/

set_option autoImplicit false

namespace EvalOps

/-- The tables. -/
structure Store where
  projects : List Project
  datasets : List Dataset
  systemVersions : List SystemVersion
  releasePolicies : List ReleasePolicy
  experiments : List Experiment
  traces : List ProductionTrace

/-- A text that a `VARCHAR` column of every database keeps: no longer than the column, and without
the character zero. -/
def FitsColumn (limit : ℕ) (text : String) : Prop :=
  text.length ≤ limit ∧ Char.ofNat 0 ∉ text.toList

instance (limit : ℕ) (text : String) : Decidable (FitsColumn limit text) :=
  inferInstanceAs (Decidable (_ ∧ _))

/-- What the database answers to one request. A `VARCHAR` column keeps a text as it is or refuses
it: `takes limit text` says which. -/
structure Database where
  conflictText : String
  refusalText : String
  takes : ℕ → String → Bool
  flush : Py Unit
  commit : Py Unit
  takes_of_fits : ∀ {limit : ℕ} {text : String}, FitsColumn limit text → takes limit text = true

theorem sqlite_takes {limit : ℕ} {text : String} : FitsColumn limit text → true = true :=
  fun _ => rfl

/-- The database that accepts every statement that the constraints allow, and enforces no length,
as SQLite does. -/
def Database.accepting : Database where
  conflictText := "UNIQUE constraint failed"
  refusalText := ""
  takes := fun _ _ => true
  flush := .ok ()
  commit := .ok ()
  takes_of_fits := sqlite_takes

theorem postgres_takes {limit : ℕ} {text : String} (h : FitsColumn limit text) :
    decide (FitsColumn limit text) = true := decide_eq_true h

/-- The database that enforces the lengths, as PostgreSQL does. -/
def Database.enforcing : Database where
  conflictText := "duplicate key value violates unique constraint"
  refusalText := "value too long for type character varying"
  takes := fun limit text => decide (FitsColumn limit text)
  flush := .ok ()
  commit := .ok ()
  takes_of_fits := postgres_takes

namespace Store

/-- The tables after the migrations. -/
def empty : Store := ⟨[], [], [], [], [], []⟩

/-! ### Reading by primary key -/

/-- `ProjectRepository.get`. -/
def getProject (store : Store) (id : String) : Option Project :=
  store.projects.find? fun p => decide (p.id.text = id)

/-- `DatasetRepository.get`. -/
def getDataset (store : Store) (id : String) : Option Dataset :=
  store.datasets.find? fun d => decide (d.id.text = id)

/-- `SystemVersionRepository.get`. -/
def getSystemVersion (store : Store) (id : String) : Option SystemVersion :=
  store.systemVersions.find? fun v => decide (v.id.text = id)

/-- `ReleasePolicyRepository.get`. -/
def getReleasePolicy (store : Store) (id : String) : Option ReleasePolicy :=
  store.releasePolicies.find? fun p => decide (p.id.text = id)

/-- `ProductionTraceRepository.get`. -/
def getTrace (store : Store) (id : String) : Option ProductionTrace :=
  store.traces.find? fun t => decide (t.id.text = id)

end Store

/-! ### Inserting -/

/-- `_add` of a row with texts in `VARCHAR` columns of some lengths, which violates a uniqueness
constraint or does not. Only an `IntegrityError` is mapped. -/
def addRow (db : Database) (entity : String) (columns : List (ℕ × String)) (conflicts : Bool)
    (insert : Store → Store) : Tx Store Unit := do
  let flushed : Py Unit :=
    if columns.any fun column => !db.takes column.1 column.2 then
      throw ⟨.other "DataError", db.refusalText⟩
    else if conflicts then throw ⟨.integrityError, db.conflictText⟩
    else db.flush
  Effect.lift (flushed.mapError (flushError entity))
  let store ← get
  set (insert store)

/-- `ProjectRepository.add`. -/
def addProject (db : Database) (project : Project) : Tx Store Project := do
  let store ← get
  addRow db "Project" [(200, project.name.text)]
    (store.projects.any fun p => decide (p.id = project.id)) fun store =>
      { store with projects := store.projects ++ [project] }
  pure project

/-- The row violates the primary key of `dataset`, that of `dataset_case`, or the uniqueness of
`(project_id, name, version)`. -/
def datasetConflicts (store : Store) (dataset : Dataset) : Bool :=
  store.datasets.any fun d =>
    decide (d.id = dataset.id) ||
      decide (d.projectId = dataset.projectId ∧ d.name = dataset.name ∧
        d.version = dataset.version) ||
      d.cases.any fun c => decide (c.id ∈ dataset.cases.map DatasetCase.id)

/-- `DatasetRepository.add`. -/
def addDataset (db : Database) (dataset : Dataset) : Tx Store Dataset := do
  let store ← get
  addRow db "Dataset" [(200, dataset.name.text)] (datasetConflicts store dataset) fun store =>
    { store with datasets := store.datasets ++ [dataset] }
  pure dataset

/-- `SystemVersionRepository.add`. -/
def addSystemVersion (db : Database) (version : SystemVersion) : Tx Store SystemVersion := do
  let store ← get
  let conflicts := store.systemVersions.any fun v =>
    decide (v.id = version.id) ||
      decide (v.projectId = version.projectId ∧ v.name = version.name ∧
        v.version = version.version)
  addRow db "SystemVersion"
    [(200, version.name.text), (100, version.version.text), (200, version.model.text)]
    conflicts fun store => { store with systemVersions := store.systemVersions ++ [version] }
  pure version

/-- `ReleasePolicyRepository.add`. -/
def addReleasePolicy (db : Database) (policy : ReleasePolicy) : Tx Store ReleasePolicy := do
  let store ← get
  addRow db "ReleasePolicy" [(200, policy.name.text)]
    (store.releasePolicies.any fun p => decide (p.id = policy.id)) fun store =>
      { store with releasePolicies := store.releasePolicies ++ [policy] }
  pure policy

/-- `ExperimentRepository.add`. -/
def addExperiment (db : Database) (experiment : Experiment) : Tx Store Experiment := do
  let store ← get
  addRow db "Experiment" [] (store.experiments.any fun e => decide (e.id = experiment.id))
    fun store => { store with experiments := store.experiments ++ [experiment] }
  pure experiment

/-- `ProductionTraceRepository.add`. -/
def addTrace (db : Database) (trace : ProductionTrace) : Tx Store ProductionTrace := do
  let store ← get
  addRow db "ProductionTrace" [] (store.traces.any fun t => decide (t.id = trace.id)) fun store =>
    { store with traces := store.traces ++ [trace] }
  pure trace

end EvalOps
