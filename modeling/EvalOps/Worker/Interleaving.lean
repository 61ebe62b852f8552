import EvalOps.Worker.Tasks

/-!
# `EvalOps.Worker.Interleaving`: two writers of one job

The transactions of `enqueueExperimentRun` and `executeExperimentTask` on one `async_job` row,
in any order. Isolation is READ COMMITTED without row locks or version checks: a `mark_*`
transaction reads the committed row, and its UPDATE writes the columns that it changed over the
row that is committed by then. The row lock of the UPDATE is held until the commit, so a write
and its commit are one step here.
-/

set_option autoImplicit false

namespace EvalOps

/-- A column after an UPDATE: it is part of the statement only when its value was changed. -/
def column {α : Type} [DecidableEq α] (loaded modified committed : α) : α :=
  if modified = loaded then committed else modified

/-- The committed row after the flush of a row that was loaded and then modified. -/
def AsyncJobRow.merge (loaded modified committed : AsyncJobRow) : AsyncJobRow where
  id := column loaded.id modified.id committed.id
  experimentId := column loaded.experimentId modified.experimentId committed.experimentId
  status := column loaded.status modified.status committed.status
  celeryTaskId := column loaded.celeryTaskId modified.celeryTaskId committed.celeryTaskId
  evaluationResultId :=
    column loaded.evaluationResultId modified.evaluationResultId committed.evaluationResultId
  error := column loaded.error modified.error committed.error
  createdAt := column loaded.createdAt modified.createdAt committed.createdAt
  startedAt := column loaded.startedAt modified.startedAt committed.startedAt
  completedAt := column loaded.completedAt modified.completedAt committed.completedAt

/-- The three transitions. -/
inductive Mark
  | running (celeryTaskId : Option String)
  | completed (evaluationResultId : String)
  | failed (error : String)
deriving DecidableEq

/-- What a transition makes of the row it read. -/
def Mark.change (mark : Mark) (jobId : String) (moment : Timestamp) (row : AsyncJobRow) :
    Py AsyncJobRow :=
  match mark with
  | .running celeryTaskId => runningRow jobId celeryTaskId moment row
  | .completed evaluationResultId => completedRow jobId (some evaluationResultId) moment row
  | .failed error => failedRow jobId error moment row

/-- A transaction that has read its row: the transition, the row, the moment it records, and the
database's answer to the write. -/
structure PendingWrite where
  mark : Mark
  loaded : AsyncJobRow
  moment : Timestamp
  answer : Py Unit

/-- The write: the check of the loaded row, the flush, the mapping of the changed row, and the
database's answer. -/
def PendingWrite.attempt (write : PendingWrite) (committed : AsyncJobRow) : Py AsyncJobRow := do
  let modified ← write.mark.change write.loaded.id write.moment write.loaded
  let _ ← asyncJobFromOrm modified
  write.answer
  pure (write.loaded.merge modified committed)

/-- The row that is committed once the transaction has ended, and whether it committed. -/
def PendingWrite.commit (write : PendingWrite) (committed : AsyncJobRow) : AsyncJobRow × Bool :=
  match write.attempt committed with
  | .ok row => (row, true)
  | .error _ => (committed, false)

/-- Where `enqueueExperimentRun` stands. -/
inductive EnqueuerState
  | inserting (job : AsyncJob)
  | dispatching
  | reading (error : String)
  | writing (error : String) (loaded : AsyncJobRow)
  | finished

/-- Where `executeExperimentTask` stands. -/
inductive WorkerState
  | waiting
  | starting (loaded : AsyncJobRow)
  | evaluating
  | reading (mark : Mark)
  | ending (mark : Mark) (loaded : AsyncJobRow)
  | finished

/-- The committed row, and the two parties. -/
structure JobSystem where
  committed : Option AsyncJobRow
  enqueuer : EnqueuerState
  worker : WorkerState

/-- Before the job is inserted. -/
def JobSystem.initial (job : AsyncJob) : JobSystem := ⟨none, .inserting job, .waiting⟩

/-- One step of a party, with what the outside answers. -/
inductive JobStep
  | insert
  | delay (answer : Py Unit)
  | enqueuerRead
  | enqueuerWrite (now : Timestamp) (answer : Py Unit)
  | workerRead
  | workerStart (now : Timestamp) (celeryTaskId : Option String) (answer : Py Unit)
  | evaluate (answer : Py String)
  | workerReadAgain
  | workerEnd (now : Timestamp) (answer : Py Unit)

namespace JobSystem

/-- The write that a step makes. -/
def pendingWrite (s : JobSystem) (step : JobStep) : Option PendingWrite :=
  match step, s.enqueuer, s.worker with
  | .enqueuerWrite now answer, .writing error loaded, _ =>
      some ⟨.failed error, loaded, now, answer⟩
  | .workerStart now celeryTaskId answer, _, .starting loaded =>
      some ⟨.running celeryTaskId, loaded, now, answer⟩
  | .workerEnd now answer, _, .ending mark loaded => some ⟨mark, loaded, now, answer⟩
  | _, _, _ => none

/-- The task is on its way to a worker once `delay` has been called. -/
def dispatched (s : JobSystem) : Bool :=
  match s.enqueuer with
  | .inserting _ => false
  | _ => true

/-- One step, when the party can make it. -/
def next (s : JobSystem) (step : JobStep) : Option JobSystem :=
  match step, s.enqueuer, s.worker, s.committed with
  | .insert, .inserting job, _, none =>
      some { s with committed := some (asyncJobToOrm job), enqueuer := .dispatching }
  | .delay answer, .dispatching, _, _ =>
      match answer with
      | .ok () => some { s with enqueuer := .finished }
      | .error exc =>
          if exc.isException then
            some { s with enqueuer := .reading (dispatchFailureText exc) }
          else some { s with enqueuer := .finished }
  | .enqueuerRead, .reading error, _, some row =>
      some { s with enqueuer := .writing error row }
  | .enqueuerWrite now answer, .writing error loaded, _, some row =>
      let (row, _) := PendingWrite.commit ⟨.failed error, loaded, now, answer⟩ row
      some { s with committed := some row, enqueuer := .finished }
  | .workerRead, _, .waiting, some row =>
      if s.dispatched then some { s with worker := .starting row } else none
  | .workerStart now celeryTaskId answer, _, .starting loaded, some row =>
      -- `jobs.get` maps the loaded row first.
      match asyncJobFromOrm loaded with
      | .error _ => some { s with worker := .finished }
      | .ok _ =>
          let (row, done) := PendingWrite.commit ⟨.running celeryTaskId, loaded, now, answer⟩ row
          some { s with
            committed := some row
            worker := if done then .evaluating else .finished }
  | .evaluate answer, _, .evaluating, _ =>
      match answer with
      | .ok evaluationResultId =>
          some { s with worker := .reading (.completed evaluationResultId) }
      | .error exc =>
          if exc.isException then some { s with worker := .reading (.failed exc.describe) }
          else some { s with worker := .finished }
  | .workerReadAgain, _, .reading mark, some row =>
      some { s with worker := .ending mark row }
  | .workerEnd now answer, _, .ending mark loaded, some row =>
      let (row, _) := PendingWrite.commit ⟨mark, loaded, now, answer⟩ row
      some { s with committed := some row, worker := .finished }
  | _, _, _, _ => none

end JobSystem

end EvalOps
