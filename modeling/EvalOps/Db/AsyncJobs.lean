import EvalOps.Db.Session
import EvalOps.Domain.Entities
import Mathlib.Logic.Function.Basic

/-!
# `EvalOps.Db.AsyncJobs`: the `async_job` table and its repository

The row of `db/models.py`, its mapping of `db/mapping.py`, and the `AsyncJobRepository` of
`db/repositories.py`. Each `mark_*` reads a row, changes some columns, flushes, and maps the
changed row back to the domain, where the checks of `AsyncJob` run.

The primary key is modelled. What else the database answers to a flush (foreign keys, column
lengths) and to a commit is a `Backend`.
-/

set_option autoImplicit false

namespace EvalOps

/-- A datetime column: naive, as its UTC reading, or aware. -/
inductive Moment
  | naive (utc : Timestamp)
  | aware (instant : Timestamp)
deriving DecidableEq

/-- `_aware`: a naive datetime is read as UTC. -/
def Moment.attachUtc : Moment → Timestamp
  | naive utc => utc
  | aware instant => instant

@[simp] theorem Moment.attachUtc_aware (instant : Timestamp) :
    (Moment.aware instant).attachUtc = instant := rfl

/-- `orm.AsyncJob`: one row. -/
structure AsyncJobRow where
  id : String
  experimentId : String
  status : JobStatus
  celeryTaskId : Option String
  evaluationResultId : Option String
  error : Option String
  createdAt : Moment
  startedAt : Option Moment
  completedAt : Option Moment
deriving DecidableEq

/-- `async_job_to_orm`. -/
def asyncJobToOrm (job : AsyncJob) : AsyncJobRow where
  id := job.id
  experimentId := job.experimentId
  status := job.status
  celeryTaskId := job.celeryTaskId
  evaluationResultId := job.evaluationResultId
  error := job.error
  createdAt := .aware job.createdAt
  startedAt := job.startedAt.map .aware
  completedAt := job.completedAt.map .aware

/-- The arguments that `async_job_from_orm` passes to `AsyncJob`. -/
def AsyncJobRow.data (row : AsyncJobRow) : AsyncJobData where
  experimentId := row.experimentId
  status := row.status
  celeryTaskId := row.celeryTaskId
  evaluationResultId := row.evaluationResultId
  error := row.error
  id := row.id
  createdAt := row.createdAt.attachUtc
  startedAt := row.startedAt.map Moment.attachUtc
  completedAt := row.completedAt.map Moment.attachUtc

/-- `async_job_from_orm`. -/
def asyncJobFromOrm (row : AsyncJobRow) : Py AsyncJob := AsyncJob.make row.data

/-- The table, by primary key. -/
abbrev JobTable := String → Option AsyncJobRow

/-- What the database answers to one transaction: to the flush of a row, and to the commit. -/
structure Backend where
  flush : AsyncJobRow → Py Unit
  commit : Py Unit

/-- The database that accepts every statement. -/
def Backend.accepting : Backend where
  flush := fun _ => .ok ()
  commit := .ok ()

/-- What `_flush` makes of an exception. -/
def flushError (entity : String) (exc : PyError) : PyError :=
  if exc.kind = .integrityError then
    ⟨.recordConflict, entity ++ " conflicts with an existing record: " ++ exc.message⟩
  else exc

/-- `_flush` of one row. -/
def flushRow (backend : Backend) (row : AsyncJobRow) : Tx JobTable Unit := do
  Effect.lift ((backend.flush row).mapError (flushError "AsyncJob"))
  let table ← get
  set (Function.update table row.id (some row))

/-! ### The stored error text -/

/-- `_MAX_ERROR_LEN`. -/
def maxErrorLen : ℕ := 2000

/-- `_bound_error`. -/
def boundError (text : String) : String :=
  let cleaned := PyText.strip text
  let bounded :=
    if maxErrorLen < cleaned.length then
      String.ofList (cleaned.toList.take (maxErrorLen - 1) ++ [Char.ofNat 0x2026])
    else cleaned
  if bounded = "" then "unknown error" else bounded

/-! ### The changes of the three transitions -/

/-- What `mark_running` makes of the row. -/
def runningRow (jobId : String) (celeryTaskId : Option String) (moment : Timestamp)
    (row : AsyncJobRow) : Py AsyncJobRow :=
  if row.status ≠ .queued then
    throw ⟨.recordConflict, "async job " ++ PyText.repr jobId ++ " is " ++ row.status.value ++
      "; only a queued job can start"⟩
  else
    pure
      { row with
        status := .running
        startedAt := some (.aware moment)
        celeryTaskId := celeryTaskId.or row.celeryTaskId }

/-- What `mark_completed` makes of the row. -/
def completedRow (jobId : String) (evaluationResultId : Option String) (moment : Timestamp)
    (row : AsyncJobRow) : Py AsyncJobRow :=
  if row.status ≠ .running then
    throw ⟨.recordConflict, "async job " ++ PyText.repr jobId ++ " is " ++ row.status.value ++
      "; only a running job can complete"⟩
  else
    pure
      { row with
        status := .completed
        evaluationResultId
        error := none
        completedAt := some (.aware moment) }

/-- What `mark_failed` makes of the row. -/
def failedRow (jobId : String) (error : String) (moment : Timestamp) (row : AsyncJobRow) :
    Py AsyncJobRow :=
  if row.status = .completed ∨ row.status = .failed then
    throw ⟨.recordConflict, "async job " ++ PyText.repr jobId ++ " is already " ++
      row.status.value ++ " (terminal)"⟩
  else
    pure
      { row with
        status := .failed
        error := some (boundError error)
        evaluationResultId := none
        completedAt := some (.aware moment) }

/-! ### The repository -/

namespace AsyncJobRepository

/-- `add`: an insert, and a flush. A taken primary key is an integrity error. -/
def add (backend : Backend) (job : AsyncJob) : Tx JobTable AsyncJob := do
  let table ← get
  if (table job.id).isSome then
    throw (flushError "AsyncJob"
      ⟨.integrityError, "duplicate key value violates unique constraint pk_async_job"⟩)
  flushRow backend (asyncJobToOrm job)
  pure job

/-- `get`. -/
def get (jobId : String) : Tx JobTable (Option AsyncJob) := do
  let table ← MonadState.get
  match table jobId with
  | none => pure none
  | some row => do
      let job ← Effect.lift (asyncJobFromOrm row)
      pure (some job)

/-- `_row`. -/
def row (jobId : String) : Tx JobTable AsyncJobRow := do
  let table ← MonadState.get
  match table jobId with
  | none => throw ⟨.recordNotFound, "async job " ++ PyText.repr jobId ++ " not found"⟩
  | some row => pure row

/-- What the three transitions share: read the row, change it, flush it and map it back. -/
def mark (backend : Backend) (jobId : String) (change : AsyncJobRow → Py AsyncJobRow) :
    Tx JobTable AsyncJob := do
  let row ← row jobId
  let changed ← Effect.lift (change row)
  flushRow backend changed
  Effect.lift (asyncJobFromOrm changed)

/-- `mark_running`. The clock reads `now`. -/
def markRunning (backend : Backend) (now : Timestamp) (jobId : String)
    (celeryTaskId : Option String) (moment : Option Timestamp) : Tx JobTable AsyncJob :=
  mark backend jobId (runningRow jobId celeryTaskId (moment.getD now))

/-- `mark_completed`. -/
def markCompleted (backend : Backend) (now : Timestamp) (jobId : String)
    (evaluationResultId : Option String) (moment : Option Timestamp) : Tx JobTable AsyncJob :=
  mark backend jobId (completedRow jobId evaluationResultId (moment.getD now))

/-- `mark_failed`. -/
def markFailed (backend : Backend) (now : Timestamp) (jobId : String) (error : String)
    (moment : Option Timestamp) : Tx JobTable AsyncJob :=
  mark backend jobId (failedRow jobId error (moment.getD now))

end AsyncJobRepository

end EvalOps
