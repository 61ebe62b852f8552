import EvalOps.Db.Mapping
import EvalOps.Proofs.AsyncJobs

/-!
# `EvalOps.Proofs.Mapping`: the conversions are faithful

`xFromOrm` of `xToOrm` returns the object, for every object that the domain accepts. The proof
follows the conversion. A codec of one entry gives the codec of the JSON list. A codec of one child
gives that of the child rows, in whatever order the table keeps them (`Positions.readBack_number`).
The constructor then accepts the fields, since they came from an object (the `init_eq` lemmas).
-/

set_option autoImplicit false

namespace EvalOps

/-! ### The JSON lists -/

/-- No entry is filtered out of a list of objects that all have a true value at the key. -/
theorem entriesWith_map {α : Type} {encode : α → List (String × Json)} {key : String}
    (h : ∀ x, Json.truthy (entryGet (encode x) key) = true) (xs : List α) :
    entriesWith key (.arr (xs.map fun x => .obj (encode x)))
      = xs.zipIdx.map fun (x, position) => (encode x, position) := by
  unfold entriesWith
  dsimp only
  -- Every entry passes the filter, so the filter is a map.
  rw [List.zipIdx_map, List.filterMap_map, ← List.filterMap_eq_map]
  apply List.filterMap_congr
  rintro ⟨x, position⟩ _
  simp [h x]

/-- A codec of one entry, with or without its position, is one of the list. -/
theorem mapM_entriesWith {α : Type} (encode : α → List (String × Json)) (key : String)
    {decode : List (String × Json) × ℕ → Py α}
    (hkey : ∀ x, Json.truthy (entryGet (encode x) key) = true)
    (hdecode : ∀ x position, decode (encode x, position) = .ok x) (xs : List α) :
    (entriesWith key (.arr (xs.map fun x => .obj (encode x)))).mapM decode = .ok xs := by
  rw [entriesWith_map hkey]
  exact Positions.mapM_number hdecode xs

/-- An identifier is a true value. -/
theorem truthy_text (x : NonBlank) : Json.truthy (.str x.text) = true := by
  -- The empty text is blank.
  have hne : x.text ≠ "" := by
    intro h
    have hblank := x.nonblank
    rw [h] at hblank
    exact nomatch hblank
  simp [Json.truthy, hne]

variable (conv : Conversions)

/-- An absent value is `null`, and no value of the right type is. -/
theorem whenSet_nullable {α : Type} (encode : α → Json) {convert : Json → Py α}
    (hnull : ∀ x, encode x ≠ .null) (h : ∀ x, convert (encode x) = .ok x) (value : Option α) :
    whenSet convert (nullable encode value) = .ok value := by
  cases value with
  | none => rfl
  | some x =>
      -- `whenSet` takes `null` for an absent value, and `encode` never writes it.
      rw [nullable]
      unfold whenSet
      split
      · rename_i hx
        exact absurd hx (hnull x)
      · rw [h]
        rfl

/-- Empty arguments are a false value, and the default is the empty dictionary. -/
theorem dictOrEmpty_obj (fields : List (String × Json)) :
    conv.dictOrEmpty (.obj fields) = .ok fields := by
  cases fields <;> rfl

theorem retrievedItemOf_entry (item : RetrievedItem) (position : ℕ) :
    retrievedItemOf conv (retrievedItemEntry item) position = .ok item := by
  -- Each key is there, so no default is taken.
  show (do
    let rank ← conv.toInt (.int item.rank)
    let score ← whenSet conv.toFloat (nullable .float item.score)
    RetrievedItem.init item.docId.text item.content rank score) = _
  rw [whenSet_nullable Json.float (fun _ h => nomatch h) (fun _ => rfl)]
  exact item.init_eq

theorem toolCallOf_entry (call : ToolCall) : toolCallOf conv (toolCallEntry call) = .ok call := by
  -- The error is written as `null` or as a text, and both can be stripped.
  have herror : strippedText (nullable .str (call.error.map NonBlank.text))
      = .ok (call.error.map NonBlank.text) := by
    cases call.error <;> rfl
  show (do
    let arguments ← conv.dictOrEmpty (.obj call.arguments)
    let _ ← requireNonEmpty call.name.text "ToolCall.name"
    let error ← strippedText (nullable .str (call.error.map NonBlank.text))
    ToolCall.init call.name.text arguments call.result call.ok error) = _
  rw [dictOrEmpty_obj, ExceptRules.ok_bind, requireNonEmpty_text, ExceptRules.ok_bind, herror,
    ExceptRules.ok_bind]
  exact call.init_eq

theorem expectedToolCallOf_entry (call : ExpectedToolCall) :
    expectedToolCallOf conv (expectedToolCallEntry call) = .ok call := by
  -- Only missing arguments are `null`; empty ones stay an empty dictionary.
  show (do
    let arguments ← whenSet conv.toDict (nullable .obj call.arguments)
    ExpectedToolCall.init call.name.text arguments) = _
  rw [whenSet_nullable Json.obj (fun _ h => nomatch h) (fun _ => rfl)]
  exact call.init_eq

theorem retrievalFromJson_retrievalToJson (items : List RetrievedItem) :
    retrievalFromJson conv (retrievalToJson items) = .ok items :=
  mapM_entriesWith retrievedItemEntry "doc_id" (fun item => truthy_text item.docId)
    (retrievedItemOf_entry conv) items

theorem toolCallsFromJson_toolCallsToJson (calls : List ToolCall) :
    toolCallsFromJson conv (toolCallsToJson calls) = .ok calls :=
  mapM_entriesWith toolCallEntry "name" (fun call => truthy_text call.name)
    (fun call _ => toolCallOf_entry conv call) calls

theorem expectedToolCallsFromJson_expectedToolCallsToJson (calls : List ExpectedToolCall) :
    expectedToolCallsFromJson conv (expectedToolCallsToJson calls) = .ok calls :=
  mapM_entriesWith expectedToolCallEntry "name" (fun call => truthy_text call.name)
    (fun call _ => expectedToolCallOf_entry conv call) calls

/-! ### The entities -/

theorem projectFromOrm_projectToOrm (p : Project) : projectFromOrm (projectToOrm p) = .ok p :=
  p.init_eq

theorem caseFromOrm_caseToOrm (c : DatasetCase) (position : ℕ) :
    caseFromOrm conv (caseToOrm c position) = .ok c := by
  rw [caseFromOrm, show (caseToOrm c position).expectedToolCalls
      = expectedToolCallsToJson c.expectedToolCalls from rfl,
    expectedToolCallsFromJson_expectedToolCallsToJson]
  exact c.init_eq

theorem datasetFromOrm_datasetToOrm (d : Dataset) {cases : List DatasetCaseRow}
    (h : cases.Perm (datasetToOrm d).cases) :
    datasetFromOrm conv { datasetToOrm d with cases } = .ok d := by
  rw [datasetFromOrm, Positions.readBack_number (fun _ _ => rfl) (caseFromOrm_caseToOrm conv) h]
  exact d.init_eq

theorem systemVersionFromOrm_systemVersionToOrm (v : SystemVersion) :
    systemVersionFromOrm (systemVersionToOrm v) = .ok v := v.init_eq

theorem releasePolicyFromOrm_releasePolicyToOrm (p : ReleasePolicy) :
    releasePolicyFromOrm (releasePolicyToOrm p) = .ok p := p.init_eq

theorem experimentFromOrm_experimentToOrm (e : Experiment) :
    experimentFromOrm (experimentToOrm e) = .ok e := e.init_eq

theorem evaluationRunFromOrm_evaluationRunToOrm (r : EvaluationRun) :
    evaluationRunFromOrm conv (evaluationRunToOrm r) = .ok r := by
  unfold evaluationRunFromOrm evaluationRunToOrm
  dsimp only
  rw [retrievalFromJson_retrievalToJson, ExceptRules.ok_bind, toolCallsFromJson_toolCallsToJson,
    ExceptRules.ok_bind, UsageMetrics.init_eq]
  exact r.init_eq

theorem caseResultFromOrm_caseResultToOrm (cr : CaseResult) {scores : List EvaluatorScoreRow}
    (h : scores.Perm (caseResultToOrm cr).scores) :
    caseResultFromOrm { caseResultToOrm cr with scores } = .ok cr := by
  rw [caseResultFromOrm,
    Positions.readBack_number (fun _ _ => rfl) (fun s _ => s.make_eq) h]
  exact cr.init_eq

/-- The kinds have different literals. -/
theorem kind_of_value (kind : MetricKind) :
    (if kind.value = "binary" then MetricKind.binary else .continuous) = kind := by
  cases kind <;> rfl

/-- A summary whose size is the number of pairs loses nothing. -/
theorem summary_of_size {s : SampleSummary} {n : ℕ} (h : s.n = n) :
    SampleSummary.init n s.mean s.median s.stdev = .ok s := by
  rw [← h]
  exact s.init_eq

/-- The three summaries of an evidence have the size that its row keeps. -/
theorem MetricEvidence.sizes (e : MetricEvidence) :
    e.baseline.n = e.nPairs ∧ e.candidate.n = e.nPairs ∧ e.pairedDelta.n = e.nPairs := by
  have hvalid := e.valid
  -- The constructor checks each size against the number of pairs.
  unfold MetricEvidenceData.postInit MetricEvidenceData.checkSummarySize at hvalid
  simp only [ExceptRules.throw_eq_error, ExceptRules.error_bind, ExceptRules.guard_then_eq_ok,
    ExceptRules.bind_eq_ok, ExceptRules.pure_eq_ok] at hvalid
  obtain ⟨-, -, -, -, _, ⟨hb, -⟩, _, ⟨hc, -⟩, hd, -⟩ := hvalid
  exact ⟨not_not.mp hb, not_not.mp hc, not_not.mp hd⟩

theorem metricEvidenceFromOrm_metricEvidenceToOrm (e : MetricEvidence) (position : ℕ) :
    metricEvidenceFromOrm (metricEvidenceToOrm e position) = .ok e := by
  obtain ⟨hb, hc, hd⟩ := e.sizes
  unfold metricEvidenceFromOrm metricEvidenceToOrm
  dsimp only
  rw [summary_of_size hb, ExceptRules.ok_bind, summary_of_size hc, ExceptRules.ok_bind,
    summary_of_size hd, ExceptRules.ok_bind, kind_of_value]
  exact MetricEvidence.make_eq_ok_iff.mpr rfl

theorem evaluationResultFromOrm_evaluationResultToOrm (r : EvaluationResult)
    {metrics : List MetricComparisonRow} {evidence : List MetricEvidenceRow}
    (hmetrics : metrics.Perm (evaluationResultToOrm r).metrics)
    (hevidence : evidence.Perm (evaluationResultToOrm r).evidence) :
    evaluationResultFromOrm { evaluationResultToOrm r with metrics, evidence } = .ok r := by
  rw [evaluationResultFromOrm,
    Positions.readBack_number (fun _ _ => rfl) (fun m _ => m.make_eq) hmetrics,
    ExceptRules.ok_bind,
    Positions.readBack_number (fun _ _ => rfl) metricEvidenceFromOrm_metricEvidenceToOrm hevidence]
  exact r.init_eq

theorem asyncJobFromOrm_asyncJobToOrm (job : AsyncJob) :
    asyncJobFromOrm (asyncJobToOrm job) = .ok job := by
  obtain ⟨built, hbuilt⟩ := loads_asyncJobToOrm job
  rw [hbuilt, Except.ok.injEq]
  -- The loaded job has the columns of the row, and a job is its data.
  have hdata : built.toAsyncJobData = job.toAsyncJobData :=
    (AsyncJob.make_eq_ok hbuilt).trans (data_asyncJobToOrm job)
  cases built
  cases job
  cases hdata
  rfl

theorem judgeCalibrationFromOrm_judgeCalibrationToOrm (c : JudgeCalibration)
    {cases : List JudgeCalibrationCaseRow} (h : cases.Perm (judgeCalibrationToOrm c).cases) :
    judgeCalibrationFromOrm { judgeCalibrationToOrm c with cases } = .ok c := by
  unfold judgeCalibrationFromOrm judgeCalibrationToOrm
  dsimp only
  rw [JudgeCalibrationMetrics.init_eq, ExceptRules.ok_bind,
    Positions.readBack_number (fun _ _ => rfl) (fun case _ => case.init_eq) h]
  exact c.init_eq

theorem productionTraceFromOrm_productionTraceToOrm (t : ProductionTrace) :
    productionTraceFromOrm (productionTraceToOrm t) = .ok t := t.init_eq

end EvalOps
