import EvalOps.Proofs.AsyncJobs
import EvalOps.Worker.Tasks

/-!
# `EvalOps.Proofs.StuckJobs`: when a task leaves its job behind

Under a database that accepts every statement, `task_ends_job_iff` says for which clock readings
and outcomes of the evaluation the job is completed or failed once `execute_experiment_task` has
returned or raised.
-/

set_option autoImplicit false

namespace EvalOps

open Effect

variable {table : JobTable} {jobId : String} {row changed : AsyncJobRow}
  {change : AsyncJobRow → Py AsyncJobRow}

/-- A transition on an accepting database, up to the mapping of the changed row. -/
theorem exec_mark_accepting (hrow : table jobId = some row) (hchange : change row = .ok changed) :
    exec (AsyncJobRepository.mark .accepting jobId change) table
      = (asyncJobFromOrm changed, Function.update table changed.id (some changed)) := by
  unfold AsyncJobRepository.mark AsyncJobRepository.row
  simp only [exec_bind, exec_get, hrow, exec_pure, exec_lift, hchange]
  rfl

/-- A transition in its unit of work, when the changed row loads. -/
theorem exec_unitOfWork_mark_of_loads (hrow : table jobId = some row)
    (hchange : change row = .ok changed) (hloads : changed.Loads) :
    ∃ job, exec (unitOfWork Backend.accepting.commit
        (AsyncJobRepository.mark .accepting jobId change)) table
      = (.ok job, Function.update table changed.id (some changed)) := by
  obtain ⟨job, hjob⟩ := hloads
  exact ⟨job, exec_unitOfWork_eq_ok.mpr ⟨by rw [exec_mark_accepting hrow hchange, hjob], rfl⟩⟩

/-- A transition in its unit of work, when the changed row does not load. -/
theorem exec_unitOfWork_mark_of_not_loads (hrow : table jobId = some row)
    (hchange : change row = .ok changed) (hloads : ¬changed.Loads) :
    ∃ e, exec (unitOfWork Backend.accepting.commit
        (AsyncJobRepository.mark .accepting jobId change)) table = (.error e, table) := by
  rw [exec_unitOfWork, exec_mark_accepting hrow hchange]
  cases hjob : asyncJobFromOrm changed with
  | ok job => exact absurd ⟨job, hjob⟩ hloads
  | error e => exact ⟨e, rfl⟩

/-- The first transaction of the task. -/
theorem exec_startJob (hrow : table jobId = some row) (hloads : row.Loads)
    {celeryTaskId : Option String} {now : Timestamp}
    (hchange : runningRow jobId celeryTaskId now row = .ok changed) :
    if row.data.createdAt ≤ now then
      exec (unitOfWork Backend.accepting.commit (startJob .accepting now jobId celeryTaskId)) table
        = (.ok row.experimentId, Function.update table changed.id (some changed))
    else
      ∃ e, exec (unitOfWork Backend.accepting.commit
        (startJob .accepting now jobId celeryTaskId)) table = (.error e, table) := by
  obtain ⟨job, hjob⟩ := hloads
  have hexperiment : job.experimentId = row.experimentId :=
    congrArg AsyncJobData.experimentId (AsyncJob.make_eq_ok hjob)
  have hmark := exec_mark_accepting hrow hchange
  -- The row was loaded before, so only its changed form can fail to load.
  have hbody : exec (startJob .accepting now jobId celeryTaskId) table
      = match asyncJobFromOrm changed with
        | .ok _ => (.ok row.experimentId, Function.update table changed.id (some changed))
        | .error e => (.error e, Function.update table changed.id (some changed)) := by
    unfold startJob AsyncJobRepository.get AsyncJobRepository.markRunning
    simp only [exec_bind, exec_get, hrow, exec_lift, hjob, exec_pure, Option.getD_none, hmark,
      hexperiment]
    cases asyncJobFromOrm changed <;> rfl
  rw [exec_unitOfWork, hbody]
  split
  · rename_i hnow
    obtain ⟨job', hjob'⟩ := (loads_runningRow_iff ⟨job, hjob⟩ hchange).mpr hnow
    rw [hjob']
    rfl
  · rename_i hnow
    cases hjob' : asyncJobFromOrm changed with
    | ok job' => exact absurd ((loads_runningRow_iff ⟨job, hjob⟩ hchange).mp ⟨job', hjob'⟩) hnow
    | error e => exact ⟨e, rfl⟩

/-- The job has come to an end. -/
def Ended (table : JobTable) (jobId : String) : Prop :=
  ∃ row, table jobId = some row ∧ row.status.IsTerminal

theorem not_ended (hrow : table jobId = some row) (hstatus : ¬row.status.IsTerminal) :
    ¬Ended table jobId := by
  rintro ⟨found, hfound, hterminal⟩
  cases hrow.symm.trans hfound
  exact hstatus hterminal

/-- The last transaction of the task on a running job. -/
theorem ended_mark_iff (hrow : table jobId = some row) (hid : row.id = jobId)
    (hrunning : row.status = .running) (hchange : change row = .ok changed)
    (hchanges : Changes row changed) :
    Ended (exec (unitOfWork Backend.accepting.commit
        (AsyncJobRepository.mark .accepting jobId change)) table).2 jobId ↔ changed.Loads := by
  have hnot : ¬row.status.IsTerminal := by
    rw [hrunning]
    decide
  -- A running job only moves to one of the two ends.
  have hterminal : changed.status.IsTerminal := by
    have hmoves := hchanges.moves
    rw [hrunning] at hmoves
    generalize changed.status = status at hmoves ⊢
    cases hmoves <;> decide
  constructor
  · intro hended
    by_contra hloads
    obtain ⟨e, he⟩ := exec_unitOfWork_mark_of_not_loads hrow hchange hloads
    rw [he] at hended
    exact not_ended hrow hnot hended
  · intro hloads
    obtain ⟨job, hjob⟩ := exec_unitOfWork_mark_of_loads hrow hchange hloads
    rw [hjob]
    exact ⟨changed, by rw [hchanges.id, hid]; exact Function.update_self .., hterminal⟩

/-- Returning a value changes no table. -/
theorem snd_exec_bind_pure {σ α β : Type} (x : Tx σ α) (b : β) (s : σ) :
    (exec (do let _ ← x; pure b) s).2 = (exec x s).2 := by
  rw [exec_bind]
  rcases exec x s with ⟨result, t⟩
  cases result <;> rfl

/-- Raising changes no table. -/
theorem exec_bind_throw {σ α β : Type} (x : Tx σ α) (e : PyError) (s : σ) :
    ∃ e', exec (do let _ ← x; throw e : Tx σ β) s = (.error e', (exec x s).2) := by
  rw [exec_bind]
  rcases exec x s with ⟨result, t⟩
  cases result with
  | ok _ => exact ⟨e, rfl⟩
  | error e' => exact ⟨e', rfl⟩

/-- Once the task has returned or raised, a job that was queued is completed or failed exactly
when the worker's clock read no earlier moment than the job's creation at the start and than the
start at the end, and the evaluation raised nothing that `except Exception` lets through. -/
theorem task_ends_job_iff (hrow : table jobId = some row) (hid : row.id = jobId)
    (hloads : row.Loads) (hqueued : row.status = .queued) (startNow endNow : Timestamp)
    (celeryTaskId : Option String) (evaluate : String → Py String) :
    Ended (exec (executeExperimentTask .accepting startNow endNow jobId celeryTaskId evaluate)
        table).2 jobId ↔
      row.data.createdAt ≤ startNow ∧ startNow ≤ endNow ∧
        ∀ e, evaluate row.experimentId = .error e → e.isException = true := by
  obtain ⟨changed, hchange⟩ : ∃ changed, runningRow jobId celeryTaskId startNow row = .ok changed :=
    ⟨_, runningRow_eq_ok.mpr ⟨hqueued, rfl⟩⟩
  have hstart := exec_startJob hrow hloads hchange
  obtain ⟨_, hfields⟩ := runningRow_eq_ok.mp hchange
  have hid' : changed.id = jobId := by rw [← hfields, ← hid]
  have hrow' : Function.update table changed.id (some changed) jobId = some changed := by
    rw [hid', Function.update_self]
  have hrunning : changed.status = .running := by rw [← hfields]
  have hstarted : changed.data.startedAt = some startNow := by
    rw [← hfields]
    rfl
  unfold executeExperimentTask
  rw [exec_bind]
  -- The start: a clock before the creation fails the first transaction.
  by_cases hnow : row.data.createdAt ≤ startNow
  · rw [if_pos hnow] at hstart
    have hloads' : changed.Loads := (loads_runningRow_iff hloads hchange).mpr hnow
    have hend : precedes (some endNow) changed.data.startedAt = false ↔ startNow ≤ endNow := by
      rw [hstarted]
      simp [precedes]
    rw [hstart]
    dsimp only
    rw [exec_bind, exec_tryCatch, exec_lift]
    -- The end: the result is stored, or the error, or nothing at all.
    cases heval : evaluate row.experimentId with
    | ok evaluationResultId =>
        obtain ⟨completed, hcompleted⟩ : ∃ completed,
            completedRow jobId (some evaluationResultId) endNow changed = .ok completed :=
          ⟨_, completedRow_eq_ok.mpr ⟨hrunning, rfl⟩⟩
        dsimp only
        rw [snd_exec_bind_pure]
        unfold AsyncJobRepository.markCompleted
        rw [Option.getD_none, ended_mark_iff hrow' hid' hrunning hcompleted
          (changes_completedRow hcompleted), loads_completedRow_iff hloads' hcompleted, hend]
        simp [hnow]
    | error e =>
        obtain ⟨failed, hfailed⟩ : ∃ failed,
            failedRow jobId e.describe endNow changed = .ok failed :=
          ⟨_, failedRow_eq_ok.mpr ⟨by rw [hrunning]; decide, rfl⟩⟩
        dsimp only
        by_cases hexception : e.isException = true
        · rw [if_pos hexception]
          obtain ⟨e', he'⟩ := exec_bind_throw (β := String) (unitOfWork Backend.accepting.commit
            (AsyncJobRepository.markFailed .accepting endNow jobId e.describe none)) e
            (Function.update table changed.id (some changed))
          rw [he']
          unfold AsyncJobRepository.markFailed
          rw [Option.getD_none, ended_mark_iff hrow' hid' hrunning hfailed
            (changes_failedRow hfailed), loads_failedRow_iff hloads' hfailed, hend]
          simp [hnow, hexception]
        · rw [if_neg hexception]
          have hstuck := not_ended hrow' (by rw [hrunning]; decide)
          simpa [hexception] using hstuck
  · rw [if_neg hnow] at hstart
    obtain ⟨e, he⟩ := hstart
    rw [he]
    have hstuck := not_ended hrow (by rw [hqueued]; decide)
    simpa [hnow] using hstuck

/-- The table with one queued job, created at the moment `0`. -/
def queuedTable : JobTable :=
  Function.update JobTable.empty queuedJob.id (some (asyncJobToOrm queuedJob))

/-- A worker whose clock is behind leaves the job queued, and a clock that is set back during the
evaluation leaves it running. -/
theorem slow_clock_leaves_job_behind :
    ((exec (executeExperimentTask .accepting (-1) 5 "j" none fun _ => .ok "r") queuedTable).2
        "j").map AsyncJobRow.status = some .queued ∧
      ((exec (executeExperimentTask .accepting 1 0 "j" none fun _ => .ok "r") queuedTable).2
        "j").map AsyncJobRow.status = some .running := by
  constructor <;> decide +kernel

/-- With clocks in step a failing evaluation ends its job. -/
theorem task_ends_job_unavailable :
    Ended (exec (executeExperimentTask .accepting 1 2 "j" (some "t")
      fun _ => .error ⟨.providerError, "unavailable"⟩) queuedTable).2 "j" :=
  (task_ends_job_iff (show queuedTable "j" = some (asyncJobToOrm queuedJob) from rfl) rfl
    (loads_asyncJobToOrm _) rfl 1 2 (some "t") _).mpr
      ⟨by decide, by decide, fun e he => by cases he; rfl⟩

end EvalOps
