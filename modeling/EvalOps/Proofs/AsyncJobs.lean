import EvalOps.Db.AsyncJobs
import EvalOps.Lib.Runs

/-!
# `EvalOps.Proofs.AsyncJobs`: the lifecycle of a job, one transaction at a time

`AsyncJobData.postInit_eq_ok_iff` says which rows load. `mark_cases` is what a transition that
returns has done, and `JobCall.run_cases` what a unit of work around an operation has done. From
these `async_job_lifecycle` follows for every sequence of operations.
-/

set_option autoImplicit false

namespace EvalOps

open Effect

/-! ### Rows that load -/

/-- The fields that go with a status. -/
def AsyncJobData.StatusFields (job : AsyncJobData) : Prop :=
  match job.status with
  | .queued =>
      job.startedAt = none ∧ job.completedAt = none ∧ truthy job.error = false ∧
        truthy job.evaluationResultId = false
  | .running =>
      job.startedAt ≠ none ∧ job.completedAt = none ∧ truthy job.error = false ∧
        truthy job.evaluationResultId = false
  | .completed =>
      job.startedAt ≠ none ∧ job.completedAt ≠ none ∧ job.evaluationResultId ≠ none ∧
        job.error = none
  | .failed => job.completedAt ≠ none ∧ job.error ≠ none ∧ job.evaluationResultId = none

/-- What `__post_init__` accepts. -/
structure AsyncJobData.Valid (job : AsyncJobData) : Prop where
  experimentId : PyText.isBlank job.experimentId = false
  id : PyText.isBlank job.id = false
  started : precedes job.startedAt (some job.createdAt) = false
  completed : precedes job.completedAt job.startedAt = false
  error : job.errorBlank = false
  fields : job.StatusFields

theorem AsyncJobData.checkStatus_eq_ok_iff {job : AsyncJobData} :
    job.checkStatus = .ok () ↔ job.StatusFields := by
  unfold checkStatus StatusFields
  cases job.status <;>
    simp [ExceptRules.guard_then_eq_ok, not_or, and_assoc]

/-- The checks pass exactly on the valid fields. -/
theorem AsyncJobData.postInit_eq_ok_iff {job : AsyncJobData} :
    job.postInit = .ok () ↔ job.Valid := by
  unfold postInit
  simp only [ExceptRules.throw_eq_error, ExceptRules.error_bind, ExceptRules.guard_then_eq_ok,
    Bool.not_eq_true, checkStatus_eq_ok_iff]
  constructor
  · rintro ⟨hexperiment, hid, hstarted, hcompleted, herror, hfields⟩
    exact ⟨hexperiment, hid, hstarted, hcompleted, herror, hfields⟩
  · rintro ⟨hexperiment, hid, hstarted, hcompleted, herror, hfields⟩
    exact ⟨hexperiment, hid, hstarted, hcompleted, herror, hfields⟩

/-- The row loads as a valid `AsyncJob`. -/
def AsyncJobRow.Loads (row : AsyncJobRow) : Prop := ∃ job, asyncJobFromOrm row = .ok job

theorem AsyncJobRow.loads_iff {row : AsyncJobRow} : row.Loads ↔ row.data.Valid := by
  unfold Loads asyncJobFromOrm
  rw [AsyncJob.make_isOk_iff, AsyncJobData.postInit_eq_ok_iff]

/-- The row of a job keeps its fields. -/
theorem data_asyncJobToOrm (job : AsyncJob) : (asyncJobToOrm job).data = job.toAsyncJobData := by
  have hattach : Moment.attachUtc ∘ Moment.aware = id := rfl
  unfold asyncJobToOrm AsyncJobRow.data
  simp only [Option.map_map, hattach, Option.map_id, id_eq, Moment.attachUtc_aware]

theorem loads_asyncJobToOrm (job : AsyncJob) : (asyncJobToOrm job).Loads := by
  rw [AsyncJobRow.loads_iff, data_asyncJobToOrm]
  exact AsyncJobData.postInit_eq_ok_iff.mp job.valid

/-- A moment is set in the row exactly when it is set in the job. -/
theorem completedAt_eq_none_iff {row : AsyncJobRow} :
    row.data.completedAt = none ↔ row.completedAt = none := Option.map_eq_none_iff

/-- The status is one that a job does not leave. -/
def JobStatus.IsTerminal (status : JobStatus) : Prop := status = .completed ∨ status = .failed

instance (status : JobStatus) : Decidable status.IsTerminal :=
  inferInstanceAs (Decidable (_ ∨ _))

/-- A job that has not come to its end has no completion and no error. -/
theorem AsyncJobRow.Loads.pending {row : AsyncJobRow} (h : row.Loads)
    (hstatus : ¬row.status.IsTerminal) : row.completedAt = none ∧ row.error = none := by
  have hvalid := loads_iff.mp h
  have hfields : row.completedAt = none ∧ truthy row.error = false := by
    have hfields := hvalid.fields
    unfold AsyncJobData.StatusFields at hfields
    rw [show row.data.status = row.status from rfl] at hfields
    cases hcase : row.status with
    | queued =>
        rw [hcase] at hfields
        exact ⟨completedAt_eq_none_iff.mp hfields.2.1, hfields.2.2.1⟩
    | running =>
        rw [hcase] at hfields
        exact ⟨completedAt_eq_none_iff.mp hfields.2.1, hfields.2.2.1⟩
    | completed => exact absurd (Or.inl hcase) hstatus
    | failed => exact absurd (Or.inr hcase) hstatus
  refine ⟨hfields.1, ?_⟩
  -- An error that is falsy is `None` or empty, and the check of blank errors rules out empty.
  have hblank : row.data.errorBlank = false := hvalid.error
  unfold AsyncJobData.errorBlank at hblank
  rw [show row.data.error = row.error from rfl] at hblank
  cases herror : row.error with
  | none => rfl
  | some error =>
      rw [herror] at hfields hblank
      have hempty : error = "" := by simpa [truthy] using hfields.2
      rw [hempty] at hblank
      exact nomatch hblank

/-! ### The stored error text -/

/-- The stored text of an error: it says something, in a bounded number of characters. -/
def ErrorBounded (error : String) : Prop :=
  PyText.isBlank error = false ∧ error.length ≤ maxErrorLen

theorem errorBounded_boundError (text : String) : ErrorBounded (boundError text) := by
  unfold boundError
  dsimp only
  -- Cut text ends in an ellipsis, which is not blank; other text is stripped or replaced.
  by_cases hlong : maxErrorLen < (PyText.strip text).length
  · rw [if_pos hlong]
    have hmem : Char.ofNat 0x2026 ∈ (String.ofList ((PyText.strip text).toList.take
        (maxErrorLen - 1) ++ [Char.ofNat 0x2026])).toList := by simp
    have hblank := PyText.isBlank_eq_false_of_mem hmem (by decide)
    have hne : String.ofList ((PyText.strip text).toList.take (maxErrorLen - 1) ++
        [Char.ofNat 0x2026]) ≠ "" := by
      intro hempty
      rw [hempty] at hmem
      exact nomatch hmem
    rw [if_neg hne]
    refine ⟨hblank, ?_⟩
    rw [String.length_ofList, List.length_append, List.length_take]
    simp only [List.length_singleton, maxErrorLen]
    omega
  · rw [if_neg hlong]
    by_cases hempty : PyText.strip text = ""
    · rw [if_pos hempty]
      exact ⟨by decide +kernel, by decide⟩
    · rw [if_neg hempty]
      exact ⟨PyText.isBlank_strip_of_ne hempty, not_lt.mp hlong⟩

/-! ### One transition -/

variable {backend : Backend} {jobId : String} {change : AsyncJobRow → Py AsyncJobRow}
  {table table' : JobTable} {job : AsyncJob}

theorem exec_flushRow_eq_ok {row : AsyncJobRow} :
    exec (flushRow backend row) table = (.ok (), table') ↔
      backend.flush row = .ok () ∧ table' = Function.update table row.id (some row) := by
  unfold flushRow
  rw [exec_lift_bind_eq_ok]
  constructor
  · rintro ⟨_, hflush, hrest⟩
    cases hresult : backend.flush row with
    | error e =>
        rw [hresult] at hflush
        exact nomatch hflush
    | ok _ => exact ⟨rfl, (Prod.mk.inj hrest).2.symm⟩
  · rintro ⟨hflush, rfl⟩
    exact ⟨(), by rw [hflush]; rfl, rfl⟩

/-- A transition that returns has changed a row into one that loads. -/
theorem mark_cases
    (h : exec (AsyncJobRepository.mark backend jobId change) table = (.ok job, table')) :
    ∃ row changed, table jobId = some row ∧ change row = .ok changed ∧
      backend.flush changed = .ok () ∧ asyncJobFromOrm changed = .ok job ∧
        table' = Function.update table changed.id (some changed) := by
  obtain ⟨row, s, hrow, hrest⟩ := exec_bind_eq_ok.mp h
  obtain ⟨changed, hchange, hrest⟩ := exec_lift_bind_eq_ok.mp hrest
  obtain ⟨_, t, hflush, hload⟩ := exec_bind_eq_ok.mp hrest
  -- The operation raises when there is no row.
  have hget : table jobId = some row ∧ s = table := by
    unfold AsyncJobRepository.row at hrow
    rw [exec_bind, exec_get] at hrow
    dsimp only at hrow
    cases hfound : table jobId with
    | none =>
        rw [hfound] at hrow
        exact nomatch hrow
    | some found =>
        rw [hfound] at hrow
        cases hrow
        exact ⟨rfl, rfl⟩
  obtain ⟨hfound, rfl⟩ := hget
  obtain ⟨haccepted, rfl⟩ := exec_flushRow_eq_ok.mp hflush
  rw [exec_lift] at hload
  obtain ⟨hjob, rfl⟩ := Prod.mk.inj hload
  exact ⟨row, changed, hfound, hchange, haccepted, hjob, rfl⟩

/-- An insert that returns has found its primary key free. -/
theorem exec_add_eq_ok {new : AsyncJob}
    (h : exec (AsyncJobRepository.add backend new) table = (.ok job, table')) :
    table new.id = none ∧
      table' = Function.update table new.id (some (asyncJobToOrm new)) := by
  unfold AsyncJobRepository.add at h
  obtain ⟨found, s, hget, hrest⟩ := exec_bind_eq_ok.mp h
  cases hget
  cases hfree : table new.id with
  | some row =>
      rw [hfree] at hrest
      exact nomatch hrest
  | none =>
      rw [hfree] at hrest
      obtain ⟨_, t, hflush, hpure⟩ := exec_bind_eq_ok.mp hrest
      obtain ⟨_, rfl⟩ := exec_flushRow_eq_ok.mp hflush
      exact ⟨rfl, (Prod.mk.inj hpure).2.symm⟩

/-! ### The three changes -/

/-- The legal moves of a status. -/
inductive Moves : JobStatus → JobStatus → Prop
  | start : Moves .queued .running
  | reject : Moves .queued .failed
  | complete : Moves .running .completed
  | fail : Moves .running .failed

theorem Moves.not_isTerminal {status status' : JobStatus} (h : Moves status status') :
    ¬status.IsTerminal := by
  cases h <;> decide

theorem runningRow_eq_ok {celeryTaskId : Option String} {moment : Timestamp}
    {row changed : AsyncJobRow} :
    runningRow jobId celeryTaskId moment row = .ok changed ↔
      row.status = .queued ∧
        { row with
          status := .running
          startedAt := some (.aware moment)
          celeryTaskId := celeryTaskId.or row.celeryTaskId } = changed := by
  unfold runningRow
  by_cases h : row.status = .queued <;> simp [h]

theorem completedRow_eq_ok {evaluationResultId : Option String} {moment : Timestamp}
    {row changed : AsyncJobRow} :
    completedRow jobId evaluationResultId moment row = .ok changed ↔
      row.status = .running ∧
        { row with
          status := .completed
          evaluationResultId
          error := none
          completedAt := some (.aware moment) } = changed := by
  unfold completedRow
  by_cases h : row.status = .running <;> simp [h]

theorem failedRow_eq_ok {error : String} {moment : Timestamp} {row changed : AsyncJobRow} :
    failedRow jobId error moment row = .ok changed ↔
      ¬row.status.IsTerminal ∧
        { row with
          status := .failed
          error := some (boundError error)
          evaluationResultId := none
          completedAt := some (.aware moment) } = changed := by
  unfold failedRow JobStatus.IsTerminal
  by_cases h : row.status = .completed ∨ row.status = .failed <;> simp [h]

/-- What each change keeps and what it does. -/
structure Changes (row changed : AsyncJobRow) : Prop where
  id : changed.id = row.id
  moves : Moves row.status changed.status
  error : ∀ error, changed.error = some error → row.error = some error ∨ ErrorBounded error

theorem changes_runningRow {celeryTaskId : Option String} {moment : Timestamp}
    {row changed : AsyncJobRow} (h : runningRow jobId celeryTaskId moment row = .ok changed) :
    Changes row changed := by
  obtain ⟨hstatus, rfl⟩ := runningRow_eq_ok.mp h
  exact ⟨rfl, hstatus ▸ Moves.start, fun error herror => Or.inl herror⟩

theorem changes_completedRow {evaluationResultId : Option String} {moment : Timestamp}
    {row changed : AsyncJobRow}
    (h : completedRow jobId evaluationResultId moment row = .ok changed) :
    Changes row changed := by
  obtain ⟨hstatus, rfl⟩ := completedRow_eq_ok.mp h
  exact ⟨rfl, hstatus ▸ Moves.complete, fun error herror => nomatch herror⟩

theorem changes_failedRow {error : String} {moment : Timestamp} {row changed : AsyncJobRow}
    (h : failedRow jobId error moment row = .ok changed) : Changes row changed := by
  obtain ⟨hstatus, rfl⟩ := failedRow_eq_ok.mp h
  refine ⟨rfl, ?_, fun stored hstored => ?_⟩
  · unfold JobStatus.IsTerminal at hstatus
    cases hrow : row.status with
    | queued => exact Moves.reject
    | running => exact Moves.fail
    | completed => exact absurd (Or.inl hrow) hstatus
    | failed => exact absurd (Or.inr hrow) hstatus
  · have htext : boundError error = stored := Option.some.inj hstored
    exact Or.inr (htext ▸ errorBounded_boundError error)

/-! ### When a changed row loads -/

section

variable {row changed : AsyncJobRow} {moment : Timestamp}

/-- The start of a job loads when it is not before the job's creation. -/
theorem loads_runningRow_iff (hloads : row.Loads) {celeryTaskId : Option String}
    (h : runningRow jobId celeryTaskId moment row = .ok changed) :
    changed.Loads ↔ row.data.createdAt ≤ moment := by
  obtain ⟨hstatus, rfl⟩ := runningRow_eq_ok.mp h
  rw [AsyncJobRow.loads_iff] at hloads ⊢
  have hfields := hloads.fields
  unfold AsyncJobData.StatusFields at hfields
  rw [show row.data.status = .queued from hstatus] at hfields
  obtain ⟨_, hcompleted, herror, hresult⟩ := hfields
  -- Only the check that a start is not before the creation can fail.
  constructor
  · intro hvalid
    simpa [precedes, AsyncJobRow.data] using hvalid.started
  · intro hmoment
    refine ⟨hloads.experimentId, hloads.id, ?_, ?_, hloads.error, ?_⟩
    · simpa [precedes, AsyncJobRow.data] using hmoment
    · simp [precedes, AsyncJobRow.data, completedAt_eq_none_iff.mp hcompleted]
    · exact ⟨nofun, hcompleted, herror, hresult⟩

/-- The completion of a job loads when it is not before the job's start and has a result. -/
theorem loads_completedRow_iff (hloads : row.Loads) {evaluationResultId : Option String}
    (h : completedRow jobId evaluationResultId moment row = .ok changed) :
    changed.Loads ↔
      evaluationResultId ≠ none ∧ precedes (some moment) row.data.startedAt = false := by
  obtain ⟨hstatus, rfl⟩ := completedRow_eq_ok.mp h
  rw [AsyncJobRow.loads_iff] at hloads ⊢
  have hfields := hloads.fields
  unfold AsyncJobData.StatusFields at hfields
  rw [show row.data.status = .running from hstatus] at hfields
  obtain ⟨hstarted, _⟩ := hfields
  -- The result and the order of the moments are what a running row does not settle.
  constructor
  · exact fun hvalid => ⟨hvalid.fields.2.2.1, hvalid.completed⟩
  · rintro ⟨hresult, hmoment⟩
    exact ⟨hloads.experimentId, hloads.id, hloads.started, hmoment, rfl,
      ⟨hstarted, nofun, hresult, rfl⟩⟩

/-- The failure of a job loads when it is not before the job's start. -/
theorem loads_failedRow_iff (hloads : row.Loads) {error : String}
    (h : failedRow jobId error moment row = .ok changed) :
    changed.Loads ↔ precedes (some moment) row.data.startedAt = false := by
  obtain ⟨_, rfl⟩ := failedRow_eq_ok.mp h
  rw [AsyncJobRow.loads_iff] at hloads ⊢
  -- The stored text is never blank, so only the moment is left.
  constructor
  · exact fun hvalid => hvalid.completed
  · intro hmoment
    exact ⟨hloads.experimentId, hloads.id, hloads.started, hmoment,
      (errorBounded_boundError error).1, ⟨nofun, nofun, rfl⟩⟩

end

/-! ### Sequences of operations -/

/-- One operation of the repository. A job that is added is queued. -/
inductive JobOp
  | add (job : AsyncJob) (queued : job.status = .queued)
  | markRunning (jobId : String) (celeryTaskId : Option String) (moment : Option Timestamp)
  | markCompleted (jobId : String) (evaluationResultId : Option String)
      (moment : Option Timestamp)
  | markFailed (jobId : String) (error : String) (moment : Option Timestamp)

/-- An operation with the clock's reading and the database's answers. -/
structure JobCall where
  op : JobOp
  now : Timestamp
  backend : Backend

/-- The operation in its own unit of work. -/
def JobCall.run (call : JobCall) : Tx JobTable AsyncJob :=
  unitOfWork call.backend.commit
    (match call.op with
    | .add job _ => AsyncJobRepository.add call.backend job
    | .markRunning jobId celeryTaskId moment =>
        AsyncJobRepository.markRunning call.backend call.now jobId celeryTaskId moment
    | .markCompleted jobId evaluationResultId moment =>
        AsyncJobRepository.markCompleted call.backend call.now jobId evaluationResultId moment
    | .markFailed jobId error moment =>
        AsyncJobRepository.markFailed call.backend call.now jobId error moment)

/-- The committed table before and after an operation. -/
def JobCall.Step (table : JobTable) (call : JobCall) (table' : JobTable) : Prop :=
  (exec call.run table).2 = table'

/-- The table without rows. -/
def JobTable.empty : JobTable := fun _ => none

/-- Every row loads, under its own key, with a bounded error. -/
structure JobTable.Valid (table : JobTable) : Prop where
  keyed : ∀ id row, table id = some row → row.id = id
  loads : ∀ id row, table id = some row → row.Loads
  bounded : ∀ id row, table id = some row → ∀ error, row.error = some error → ErrorBounded error

theorem JobTable.valid_empty : JobTable.empty.Valid where
  keyed := fun _ _ h => nomatch h
  loads := fun _ _ h => nomatch h
  bounded := fun _ _ h => nomatch h

/-- What an operation commits: a new queued row, or one row changed. -/
inductive Commits (table : JobTable) : JobTable → Prop
  | added (row : AsyncJobRow) : table row.id = none → row.status = .queued → row.Loads →
      Commits table (Function.update table row.id (some row))
  | marked (row changed : AsyncJobRow) : table row.id = some row → Changes row changed →
      changed.Loads → Commits table (Function.update table row.id (some changed))

/-- An operation that returns has committed a row, and one that raises nothing. -/
theorem JobCall.run_cases (hvalid : table.Valid) (call : JobCall) :
    (∃ job, (exec call.run table).1 = .ok job ∧ Commits table (exec call.run table).2) ∨
      ∃ e, exec call.run table = (.error e, table) := by
  rcases hrun : exec call.run table with ⟨result, table'⟩
  cases result with
  | error e =>
      rw [eq_of_exec_unitOfWork_eq_error hrun]
      exact Or.inr ⟨e, rfl⟩
  | ok job =>
      refine Or.inl ⟨job, rfl, ?_⟩
      obtain ⟨hbody, _⟩ := exec_unitOfWork_eq_ok.mp hrun
      -- All three transitions read a row, change it and load what they changed.
      have hmark : ∀ {jobId : String} {change : AsyncJobRow → Py AsyncJobRow},
          (∀ row changed, change row = .ok changed → Changes row changed) →
          exec (AsyncJobRepository.mark call.backend jobId change) table = (.ok job, table') →
          Commits table table' := by
        intro jobId change hchange hexec
        obtain ⟨row, changed, hrow, hchanged, _, hload, rfl⟩ := mark_cases hexec
        have hid := hvalid.keyed jobId row hrow
        have hchanges := hchange row changed hchanged
        rw [hchanges.id]
        exact Commits.marked row changed (hid ▸ hrow) hchanges ⟨job, hload⟩
      cases hop : call.op with
      | add new queued =>
          rw [hop] at hbody
          obtain ⟨hfree, hadded⟩ := exec_add_eq_ok hbody
          rw [hadded]
          exact Commits.added (asyncJobToOrm new) hfree queued (loads_asyncJobToOrm new)
      | markRunning jobId celeryTaskId moment =>
          rw [hop] at hbody
          exact hmark (fun _ _ h => changes_runningRow h) hbody
      | markCompleted jobId evaluationResultId moment =>
          rw [hop] at hbody
          exact hmark (fun _ _ h => changes_completedRow h) hbody
      | markFailed jobId error moment =>
          rw [hop] at hbody
          exact hmark (fun _ _ h => changes_failedRow h) hbody

/-- Writing a row that loads and has a bounded error keeps the table valid. -/
theorem JobTable.Valid.update (hvalid : table.Valid) {row : AsyncJobRow} (hloads : row.Loads)
    (hbounded : ∀ error, row.error = some error → ErrorBounded error) :
    JobTable.Valid (Function.update table row.id (some row)) := by
  -- A row of the new table is the one written or one of before.
  have hcases : ∀ id found, Function.update table row.id (some row) id = some found →
      (id = row.id ∧ found = row) ∨ table id = some found := by
    intro id found hfound
    by_cases hid : id = row.id
    · rw [hid, Function.update_self] at hfound
      exact Or.inl ⟨hid, (Option.some.inj hfound).symm⟩
    · rw [Function.update_of_ne hid] at hfound
      exact Or.inr hfound
  refine ⟨fun id found hfound => ?_, fun id found hfound => ?_, fun id found hfound => ?_⟩
  · rcases hcases id found hfound with ⟨rfl, rfl⟩ | hold
    · rfl
    · exact hvalid.keyed id found hold
  · rcases hcases id found hfound with ⟨rfl, rfl⟩ | hold
    · exact hloads
    · exact hvalid.loads id found hold
  · rcases hcases id found hfound with ⟨rfl, rfl⟩ | hold
    · exact hbounded
    · exact hvalid.bounded id found hold

/-- A commit keeps the table valid. -/
theorem Commits.valid (h : Commits table table') (hvalid : table.Valid) : table'.Valid := by
  cases h with
  | added row hfree hqueued hloads =>
      refine hvalid.update hloads fun error herror => ?_
      rw [(hloads.pending (by rw [hqueued]; decide)).2] at herror
      exact nomatch herror
  | marked row changed hrow hchanges hloads =>
      rw [← hchanges.id]
      exact hvalid.update hloads fun error herror =>
        (hchanges.error error herror).elim (hvalid.bounded _ _ hrow error) id

/-- What an operation does to the committed rows: a row stays or makes a legal move, and a new
row is queued. -/
structure JobTable.Evolves (table table' : JobTable) : Prop where
  row : ∀ id row, table id = some row → ∃ row', table' id = some row' ∧
    (row' = row ∨ Moves row.status row'.status)
  new : ∀ id row', table id = none → table' id = some row' → row'.status = .queued

theorem Commits.evolves (h : Commits table table') : table.Evolves table' := by
  cases h with
  | added row hfree hqueued hloads =>
      refine ⟨fun id found hfound => ?_, fun id found hnone hfound => ?_⟩
      · -- the key that is added was free
        have hid : id ≠ row.id := by
          rintro rfl
          exact nomatch hfree.symm.trans hfound
        exact ⟨found, by rw [Function.update_of_ne hid]; exact hfound, Or.inl rfl⟩
      · by_cases hid : id = row.id
        · rw [hid, Function.update_self] at hfound
          cases hfound
          exact hqueued
        · rw [Function.update_of_ne hid] at hfound
          exact nomatch hnone.symm.trans hfound
  | marked row changed hrow hchanges hloads =>
      refine ⟨fun id found hfound => ?_, fun id found hnone hfound => ?_⟩
      · by_cases hid : id = row.id
        · subst hid
          cases hrow.symm.trans hfound
          exact ⟨changed, Function.update_self .., Or.inr hchanges.moves⟩
        · exact ⟨found, by rw [Function.update_of_ne hid]; exact hfound, Or.inl rfl⟩
      · by_cases hid : id = row.id
        · rw [hid] at hnone
          exact nomatch hnone.symm.trans hrow
        · rw [Function.update_of_ne hid] at hfound
          exact nomatch hnone.symm.trans hfound

/-- The terminal rows of the first table are in the second one, unchanged. -/
def JobTable.KeepsTerminal (table table' : JobTable) : Prop :=
  ∀ id row, table id = some row → row.status.IsTerminal → table' id = some row

theorem JobTable.Evolves.keepsTerminal (h : table.Evolves table') :
    table.KeepsTerminal table' := by
  intro id row hrow hterminal
  obtain ⟨row', hrow', rfl | hmoves⟩ := h.row id row hrow
  · exact hrow'
  · exact absurd hterminal hmoves.not_isTerminal

theorem JobCall.step_valid (hvalid : table.Valid) {call : JobCall}
    (hstep : JobCall.Step table call table') : table'.Valid := by
  cases hstep
  rcases call.run_cases hvalid with ⟨_, _, hcommits⟩ | ⟨e, he⟩
  · exact hcommits.valid hvalid
  · rw [he]
    exact hvalid

theorem JobCall.step_evolves (hvalid : table.Valid) {call : JobCall}
    (hstep : JobCall.Step table call table') : table.Evolves table' := by
  cases hstep
  rcases call.run_cases hvalid with ⟨_, _, hcommits⟩ | ⟨e, he⟩
  · exact hcommits.evolves
  · rw [he]
    exact ⟨fun _ row hrow => ⟨row, hrow, Or.inl rfl⟩,
      fun _ _ hnone hrow => nomatch hnone.symm.trans hrow⟩

/-- After every sequence of operations on the empty table: every row loads and has a bounded
error, every operation makes legal moves only and changes nothing when it raises, and terminal
rows stay as they are through every further sequence. -/
theorem async_job_lifecycle {calls : List JobCall}
    (hrun : Run JobCall.Step JobTable.empty calls table) :
    table.Valid ∧
      (∀ call : JobCall, table.Evolves (exec call.run table).2 ∧
        ∀ e, (exec call.run table).1 = .error e → (exec call.run table).2 = table) ∧
      ∀ calls' table', Run JobCall.Step table calls' table' → table.KeepsTerminal table' := by
  have hvalid : table.Valid :=
    hrun.invariant (fun _ _ _ hI h => JobCall.step_valid hI h) JobTable.valid_empty
  refine ⟨hvalid, fun call => ⟨JobCall.step_evolves hvalid rfl, fun e he => ?_⟩,
    fun calls' table' hrest => ?_⟩
  · -- an operation that raises changes nothing
    rcases call.run_cases hvalid with ⟨_, hok, _⟩ | ⟨_, herror⟩
    · exact nomatch hok.symm.trans he
    · rw [herror]
  · -- keeping the terminal rows is transitive, so one step is enough
    refine hrest.relation (I := JobTable.Valid) (fun _ _ _ hI h => JobCall.step_valid hI h)
      (fun _ _ _ h _ => h) (fun s t u hst htu id row hrow hterminal =>
        htu id row (hst id row hrow hterminal) hterminal)
      (fun _ _ _ hI hstep => (JobCall.step_evolves hI hstep).keepsTerminal) hvalid

/-- A queued job, created at the moment `0`. -/
def queuedJob : AsyncJob where
  experimentId := "e"
  status := .queued
  celeryTaskId := none
  evaluationResultId := none
  error := none
  id := "j"
  createdAt := 0
  startedAt := none
  completedAt := none
  valid := by decide +kernel

/-- A job that is added, started, completed and then reported as failed. -/
def lifecycleCalls : List JobCall :=
  [⟨.add queuedJob rfl, 0, .accepting⟩,
    ⟨.markRunning "j" (some "t") none, 1, .accepting⟩,
    ⟨.markCompleted "j" (some "r") none, 2, .accepting⟩,
    ⟨.markFailed "j" " " none, 3, .accepting⟩]

/-- The completed job survives the last call. -/
theorem async_job_lifecycle_completed :
    let table := lifecycleCalls.foldl (fun table call => (exec call.run table).2) .empty
    (table "j").map AsyncJobRow.status = some .completed ∧ table.Valid :=
  ⟨by decide +kernel, (async_job_lifecycle (Run.of_foldl _ _ _)).1⟩

end EvalOps
