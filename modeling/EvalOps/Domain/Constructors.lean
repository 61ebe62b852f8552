import EvalOps.Domain.Entities

/-!
# `EvalOps.Domain.Constructors`: the constructors on unchecked data

A route passes the fields of a request to a domain class, and the persistence layer passes the
columns of a row. `init` is such a call: the class with `__post_init__`, on values whose types are
right and whose invariants are not known. The checks run in the order of the source.

Every `init` accepts the fields of a value that already is one, and returns that value. These are
the `init_eq` lemmas.
-/

set_option autoImplicit false

namespace EvalOps

/-! ### Checks that several classes make -/

@[simp] theorem requireNonEmpty_text (x : NonBlank) (label : String) :
    requireNonEmpty x.text label = .ok x := by
  unfold requireNonEmpty
  rw [dif_pos x.nonblank]
  rfl

/-- What passed `_require_non_empty` has the given text. -/
theorem requireNonEmpty_eq_ok {value label : String} {x : NonBlank}
    (h : requireNonEmpty value label = .ok x) : x.text = value := by
  unfold requireNonEmpty at h
  split at h
  · cases h
    rfl
  · exact nomatch h

/-- An optional text that must not be blank when it is set. -/
def nonBlankWhenSet (value : Option String) (message : String) : Py (Option NonBlank) :=
  match value with
  | none => pure none
  | some text =>
      if h : PyText.isBlank text = false then pure (some ⟨text, h⟩)
      else throw (.domainValidation message)

@[simp] theorem nonBlankWhenSet_text (x : Option NonBlank) (message : String) :
    nonBlankWhenSet (x.map NonBlank.text) message = .ok x := by
  cases x with
  | none => rfl
  | some x =>
      unfold nonBlankWhenSet
      dsimp only [Option.map_some]
      rw [dif_pos x.nonblank]
      rfl

/-- An integer that must not be negative. -/
def requireNat (value : ℤ) (message : String) : Py ℕ :=
  if value < 0 then throw (.domainValidation message) else pure value.toNat

@[simp] theorem requireNat_natCast (n : ℕ) (message : String) :
    requireNat n message = .ok n := by
  unfold requireNat
  rw [if_neg (by omega), Int.toNat_natCast]
  rfl

/-! ### Value objects -/

/-- `UsageMetrics`. -/
def UsageMetrics.init (promptTokens completionTokens : ℤ) (costUsd latencyMs : ℚ) :
    Py UsageMetrics := do
  let prompt ← requireNat promptTokens s!"prompt_tokens must be non-negative, got {promptTokens}"
  let completion ←
    requireNat completionTokens s!"completion_tokens must be non-negative, got {completionTokens}"
  if hc : costUsd < 0 then throw (.domainValidation "cost_usd must be non-negative")
  else if hl : latencyMs < 0 then throw (.domainValidation "latency_ms must be non-negative")
  else
    pure
      { promptTokens := prompt, completionTokens := completion, costUsd, latencyMs,
        costUsd_nonneg := not_lt.mp hc, latencyMs_nonneg := not_lt.mp hl }

theorem UsageMetrics.init_eq (u : UsageMetrics) :
    UsageMetrics.init u.promptTokens u.completionTokens u.costUsd u.latencyMs = .ok u := by
  simp [UsageMetrics.init, not_lt.mpr u.costUsd_nonneg, not_lt.mpr u.latencyMs_nonneg]

/-- `RetrievedItem`. -/
def RetrievedItem.init (docId content : String) (rank : ℤ) (score : Option ℚ) :
    Py RetrievedItem := do
  let docId ← requireNonEmpty docId "RetrievedItem.doc_id"
  let rank ← requireNat rank s!"RetrievedItem.rank must be >= 0, got {rank}"
  pure { docId, content, rank, score }

theorem RetrievedItem.init_eq (item : RetrievedItem) :
    RetrievedItem.init item.docId.text item.content item.rank item.score = .ok item := by
  simp [RetrievedItem.init]

/-- `ToolCall`. -/
def ToolCall.init (name : String) (arguments : List (String × Json)) (result : Json) (ok : Bool)
    (error : Option String) : Py ToolCall := do
  let name ← requireNonEmpty name "ToolCall.name"
  let error ← nonBlankWhenSet error "ToolCall.error must be non-blank when set"
  if h : ok = true ∧ error ≠ none then
    throw (.domainValidation "a successful ToolCall (ok=True) has no error")
  else
    pure { name, arguments, result, ok, error, ok_no_error := by tauto }

theorem ToolCall.init_eq (call : ToolCall) :
    ToolCall.init call.name.text call.arguments call.result call.ok
      (call.error.map NonBlank.text) = .ok call := by
  have hok : ¬(call.ok = true ∧ call.error ≠ none) := fun h => h.2 (call.ok_no_error h.1)
  simp [ToolCall.init, hok]

/-- `ExpectedToolCall`. -/
def ExpectedToolCall.init (name : String) (arguments : Option (List (String × Json))) :
    Py ExpectedToolCall := do
  let name ← requireNonEmpty name "ExpectedToolCall.name"
  pure { name, arguments }

theorem ExpectedToolCall.init_eq (call : ExpectedToolCall) :
    ExpectedToolCall.init call.name.text call.arguments = .ok call := by
  simp [ExpectedToolCall.init]

/-- `EvaluatorScore(evaluator=..., family=..., score=..., passed=...)`. -/
def EvaluatorScore.make (evaluator : String) (family : EvaluatorFamily) (score : ℚ)
    (passed : Option Bool) : Py EvaluatorScore := do
  let evaluator ← requireNonEmpty evaluator "evaluator"
  if h : 0 ≤ score ∧ score ≤ 1 then
    pure { evaluator, family, score, passed, score_nonneg := h.1, score_le_one := h.2 }
  else throw (.domainValidation "score must be within [0.0, 1.0]")

theorem EvaluatorScore.make_eq_ok {evaluator : String} {family : EvaluatorFamily} {score : ℚ}
    {passed : Option Bool} {s : EvaluatorScore} (h : make evaluator family score passed = .ok s) :
    s.evaluator.text = evaluator := by
  obtain ⟨name, hname, h⟩ := ExceptRules.bind_eq_ok.mp h
  split at h
  · cases h
    exact requireNonEmpty_eq_ok hname
  · cases h

theorem EvaluatorScore.make_eq (s : EvaluatorScore) :
    EvaluatorScore.make s.evaluator.text s.family s.score s.passed = .ok s := by
  simp [EvaluatorScore.make, s.score_nonneg, s.score_le_one]

/-- `SampleSummary`. -/
def SampleSummary.init (n : ℤ) (mean median stdev : ℚ) : Py SampleSummary := do
  let n ← requireNat n s!"SampleSummary.n must be >= 0, got {n}"
  if h : stdev < 0 then throw (.domainValidation "SampleSummary.stdev must be >= 0")
  else pure { n, mean, median, stdev, stdev_nonneg := not_lt.mp h }

theorem SampleSummary.init_eq (s : SampleSummary) :
    SampleSummary.init s.n s.mean s.median s.stdev = .ok s := by
  simp [SampleSummary.init, not_lt.mpr s.stdev_nonneg]

theorem MetricComparison.make_eq (mc : MetricComparison) :
    MetricComparison.make mc.metric mc.baselineValue mc.candidateValue = .ok mc := by
  simp [MetricComparison.make, mc.metric_nonblank]

/-- `LabeledJudgeExample`. -/
def LabeledJudgeExample.init (input output : String) (humanPass : Bool)
    (reference : Option String) : Py LabeledJudgeExample := do
  let input ← requireNonEmpty input "LabeledJudgeExample.input"
  let output ← requireNonEmpty output "LabeledJudgeExample.output"
  pure { input, output, humanPass, reference }

theorem LabeledJudgeExample.init_eq (e : LabeledJudgeExample) :
    LabeledJudgeExample.init e.input.text e.output.text e.humanPass e.reference = .ok e := by
  simp [LabeledJudgeExample.init]

/-- `JudgeCalibrationCase`. -/
def JudgeCalibrationCase.init (input output : String) (reference : Option String)
    (humanPass : Bool) (judgePass : Option Bool) (judgeScore : Option ℚ)
    (judgeReasoning error : Option String) : Py JudgeCalibrationCase :=
  if h : judgePass = none ↔ error ≠ none then
    if hs : ∀ score, judgeScore = some score → 0 ≤ score ∧ score ≤ 1 then
      pure
        { input, output, reference, humanPass, judgePass, judgeScore, judgeReasoning, error,
          error_iff_failed := h, judgeScore_unit := hs }
    else throw (.domainValidation "JudgeCalibrationCase.judge_score must be within [0, 1]")
  else throw (.domainValidation "JudgeCalibrationCase.error must be set iff judge_pass is None")

theorem JudgeCalibrationCase.init_eq (c : JudgeCalibrationCase) :
    JudgeCalibrationCase.init c.input c.output c.reference c.humanPass c.judgePass c.judgeScore
      c.judgeReasoning c.error = .ok c := by
  unfold JudgeCalibrationCase.init
  rw [dif_pos c.error_iff_failed, dif_pos c.judgeScore_unit]
  rfl

/-- The first loop of `JudgeCalibrationMetrics.__post_init__`, at one field. -/
def requireCount (name : String) (value : ℤ) : Py ℕ :=
  requireNat value ("JudgeCalibrationMetrics." ++ name ++ " must be >= 0")

/-- `JudgeCalibrationMetrics`. -/
def JudgeCalibrationMetrics.init (total scored failures agreements : ℤ)
    (agreementRate : Option ℚ)
    (truePositives trueNegatives falsePositives falseNegatives : ℤ)
    (precision «recall» f1 : Option ℚ) : Py JudgeCalibrationMetrics := do
  let total ← requireCount "total" total
  let scored ← requireCount "scored" scored
  let failures ← requireCount "failures" failures
  let agreements ← requireCount "agreements" agreements
  if h : scored + failures = total then
    if hc : truePositives + trueNegatives + falsePositives + falseNegatives = scored then
      pure
        { total, scored, failures, agreements, agreementRate, truePositives, trueNegatives,
          falsePositives, falseNegatives, precision, «recall», f1,
          scored_add_failures := h, confusion_sum := hc }
    else throw (.domainValidation "JudgeCalibrationMetrics: TP+TN+FP+FN must equal scored")
  else throw (.domainValidation "JudgeCalibrationMetrics: scored + failures must equal total")

theorem JudgeCalibrationMetrics.init_eq (m : JudgeCalibrationMetrics) :
    JudgeCalibrationMetrics.init m.total m.scored m.failures m.agreements m.agreementRate
      m.truePositives m.trueNegatives m.falsePositives m.falseNegatives m.precision m.recall m.f1
      = .ok m := by
  simp [JudgeCalibrationMetrics.init, requireCount, m.scored_add_failures, m.confusion_sum]

/-! ### Entities -/

/-- `Project`. -/
def Project.init (name id : String) (createdAt : Timestamp) : Py Project := do
  let name ← requireNonEmpty name "Project.name"
  let id ← requireNonEmpty id "Project.id"
  pure { name, id, createdAt }

theorem Project.init_eq (p : Project) : Project.init p.name.text p.id.text p.createdAt = .ok p := by
  simp [Project.init]

/-- `SystemVersion`. -/
def SystemVersion.init (projectId name version : String) (provider : ProviderName)
    (model promptTemplate : String) (parameters : List (String × Json))
    (ragConfig toolPolicy : Option (List (String × Json))) (id : String)
    (createdAt : Timestamp) : Py SystemVersion := do
  let projectId ← requireNonEmpty projectId "SystemVersion.project_id"
  let name ← requireNonEmpty name "SystemVersion.name"
  let version ← requireNonEmpty version "SystemVersion.version"
  let model ← requireNonEmpty model "SystemVersion.model"
  let promptTemplate ← requireNonEmpty promptTemplate "SystemVersion.prompt_template"
  let id ← requireNonEmpty id "SystemVersion.id"
  pure
    { projectId, name, version, provider, model, promptTemplate, parameters, ragConfig,
      toolPolicy, id, createdAt }

theorem SystemVersion.init_eq (v : SystemVersion) :
    SystemVersion.init v.projectId.text v.name.text v.version.text v.provider v.model.text
      v.promptTemplate.text v.parameters v.ragConfig v.toolPolicy v.id.text v.createdAt
      = .ok v := by
  simp [SystemVersion.init]

/-- `bool(source_trace_id and source_trace_id.strip())`. -/
def hasTrace (sourceTraceId : Option String) : Bool :=
  match sourceTraceId with
  | none => false
  | some trace => !PyText.isBlank trace

theorem hasTrace_iff {sourceTraceId : Option String} :
    hasTrace sourceTraceId = true ↔
      ∃ trace, sourceTraceId = some trace ∧ PyText.isBlank trace = false := by
  cases sourceTraceId <;> simp [hasTrace]

/-- The check of one relevant id. -/
def requireRetrievalId (relevantId : String) : Py NonBlank :=
  if h : PyText.isBlank relevantId = false then pure ⟨relevantId, h⟩
  else throw (.domainValidation
    "DatasetCase.expected_retrieval_ids entries must be non-empty strings")

theorem mapM_requireRetrievalId (xs : List NonBlank) :
    (xs.map NonBlank.text).mapM requireRetrievalId = .ok xs := by
  refine ExceptRules.mapM_decode_eq_ok fun x _ => ?_
  rw [requireRetrievalId, dif_pos x.nonblank]
  rfl

/-- `DatasetCase`. -/
def DatasetCase.init (input : String) (expectedOutput : Option String) (origin : CaseOrigin)
    (sourceTraceId : Option String) (expectedRetrievalIds : List String)
    (expectedToolCalls : List ExpectedToolCall) (id : String) : Py DatasetCase := do
  let input ← requireNonEmpty input "DatasetCase.input"
  let id ← requireNonEmpty id "DatasetCase.id"
  let expectedRetrievalIds ← expectedRetrievalIds.mapM requireRetrievalId
  if hp : origin = .promotedTrace ∧ hasTrace sourceTraceId = false then
    throw (.domainValidation
      "DatasetCase.source_trace_id is required when origin is promoted_trace")
  else if ha : origin = .authored ∧ sourceTraceId ≠ none then
    throw (.domainValidation "DatasetCase.source_trace_id must be unset when origin is authored")
  else
    pure
      { input, expectedOutput, origin, sourceTraceId, expectedRetrievalIds, expectedToolCalls, id,
        promoted_has_trace := fun h => hasTrace_iff.mp (by simpa using fun hf => hp ⟨h, hf⟩)
        authored_has_no_trace := fun h => by simpa using fun hs => ha ⟨h, hs⟩ }

theorem DatasetCase.init_eq (c : DatasetCase) :
    DatasetCase.init c.input.text c.expectedOutput c.origin c.sourceTraceId
      (c.expectedRetrievalIds.map NonBlank.text) c.expectedToolCalls c.id.text = .ok c := by
  have hp : ¬(c.origin = .promotedTrace ∧ hasTrace c.sourceTraceId = false) := by
    rintro ⟨h, hf⟩
    rw [hasTrace_iff.mpr (c.promoted_has_trace h)] at hf
    exact nomatch hf
  have ha : ¬(c.origin = .authored ∧ c.sourceTraceId ≠ none) := fun h =>
    h.2 (c.authored_has_no_trace h.1)
  unfold DatasetCase.init
  simp only [requireNonEmpty_text, ExceptRules.ok_bind, mapM_requireRetrievalId,
    dif_neg hp, dif_neg ha]
  rfl

/-- `Dataset`. -/
def Dataset.init (projectId name : String) (version : ℤ) (cases : List DatasetCase) (id : String)
    (createdAt : Timestamp) : Py Dataset := do
  let projectId ← requireNonEmpty projectId "Dataset.project_id"
  let name ← requireNonEmpty name "Dataset.name"
  let id ← requireNonEmpty id "Dataset.id"
  if hv : version < 1 then
    throw (.domainValidation s!"Dataset.version must be >= 1, got {version}")
  else if hc : cases = [] then throw (.domainValidation "Dataset.cases must not be empty")
  else if hn : (cases.map DatasetCase.id).Nodup then
    pure
      { projectId, name, version := version.toNat, cases, id, createdAt,
        version_pos := by omega, cases_ne_nil := hc, cases_nodup := hn }
  else throw (.domainValidation "Dataset.cases contains duplicate case ids")

theorem Dataset.init_eq (d : Dataset) :
    Dataset.init d.projectId.text d.name.text d.version d.cases d.id.text d.createdAt = .ok d := by
  have hv : ¬(d.version : ℤ) < 1 := by
    have := d.version_pos
    omega
  unfold Dataset.init
  simp only [requireNonEmpty_text, ExceptRules.ok_bind, dif_neg hv, dif_neg d.cases_ne_nil,
    dif_pos d.cases_nodup, Int.toNat_natCast]
  rfl

/-- `Experiment`. -/
def Experiment.init (projectId datasetId baselineVersionId candidateVersionId : String)
    (repeats : ℤ) (releasePolicyId : Option String) (id : String) (createdAt : Timestamp) :
    Py Experiment := do
  let projectId ← requireNonEmpty projectId "Experiment.project_id"
  let datasetId ← requireNonEmpty datasetId "Experiment.dataset_id"
  let baselineVersionId ← requireNonEmpty baselineVersionId "Experiment.baseline_version_id"
  let candidateVersionId ← requireNonEmpty candidateVersionId "Experiment.candidate_version_id"
  let id ← requireNonEmpty id "Experiment.id"
  if hb : baselineVersionId = candidateVersionId then
    throw (.domainValidation "Experiment baseline and candidate must be different SystemVersions")
  else if hr : repeats < 1 then
    throw (.domainValidation s!"Experiment.repeats must be >= 1, got {repeats}")
  else
    let releasePolicyId ← nonBlankWhenSet releasePolicyId
      "Experiment.release_policy_id must be a non-empty string"
    pure
      { projectId, datasetId, baselineVersionId, candidateVersionId, repeats := repeats.toNat,
        releasePolicyId, id, createdAt, versions_ne := hb, repeats_pos := by omega }

theorem Experiment.init_eq (e : Experiment) :
    Experiment.init e.projectId.text e.datasetId.text e.baselineVersionId.text
      e.candidateVersionId.text e.repeats (e.releasePolicyId.map NonBlank.text) e.id.text
      e.createdAt = .ok e := by
  have hr : ¬(e.repeats : ℤ) < 1 := by
    have := e.repeats_pos
    omega
  unfold Experiment.init
  simp only [requireNonEmpty_text, ExceptRules.ok_bind, dif_neg e.versions_ne, dif_neg hr,
    nonBlankWhenSet_text, Int.toNat_natCast]
  rfl

/-- A constructed experiment has the given references and id. -/
theorem Experiment.init_eq_ok {projectId datasetId baselineVersionId candidateVersionId : String}
    {repeats : ℤ} {releasePolicyId : Option String} {id : String} {createdAt : Timestamp}
    {e : Experiment}
    (h : Experiment.init projectId datasetId baselineVersionId candidateVersionId repeats
      releasePolicyId id createdAt = .ok e) :
    e.projectId.text = projectId ∧ e.datasetId.text = datasetId ∧
      e.baselineVersionId.text = baselineVersionId ∧
      e.candidateVersionId.text = candidateVersionId ∧ e.id.text = id := by
  unfold Experiment.init at h
  obtain ⟨p, hp, h⟩ := ExceptRules.bind_eq_ok.mp h
  obtain ⟨d, hd, h⟩ := ExceptRules.bind_eq_ok.mp h
  obtain ⟨b, hb, h⟩ := ExceptRules.bind_eq_ok.mp h
  obtain ⟨c, hc, h⟩ := ExceptRules.bind_eq_ok.mp h
  obtain ⟨i, hi, h⟩ := ExceptRules.bind_eq_ok.mp h
  split at h
  · exact nomatch h
  · split at h
    · exact nomatch h
    · obtain ⟨_, _, h⟩ := ExceptRules.bind_eq_ok.mp h
      cases h
      exact ⟨requireNonEmpty_eq_ok hp, requireNonEmpty_eq_ok hd, requireNonEmpty_eq_ok hb,
        requireNonEmpty_eq_ok hc, requireNonEmpty_eq_ok hi⟩

/-- `EvaluationRun`. -/
def EvaluationRun.init (experimentId systemVersionId caseId : String) (repeatIndex : ℤ)
    (output : String) (usage : UsageMetrics) (error : Option String)
    (retrieval : List RetrievedItem) (toolCalls : List ToolCall) (id : String)
    (createdAt : Timestamp) : Py EvaluationRun := do
  let experimentId ← requireNonEmpty experimentId "EvaluationRun.experiment_id"
  let systemVersionId ← requireNonEmpty systemVersionId "EvaluationRun.system_version_id"
  let caseId ← requireNonEmpty caseId "EvaluationRun.case_id"
  let id ← requireNonEmpty id "EvaluationRun.id"
  let repeatIndex ← requireNat repeatIndex
    s!"EvaluationRun.repeat_index must be >= 0, got {repeatIndex}"
  let error ← nonBlankWhenSet error "EvaluationRun.error must be non-blank when set"
  pure
    { experimentId, systemVersionId, caseId, repeatIndex, output, usage, error, retrieval,
      toolCalls, id, createdAt }

theorem EvaluationRun.init_eq (r : EvaluationRun) :
    EvaluationRun.init r.experimentId.text r.systemVersionId.text r.caseId.text r.repeatIndex
      r.output r.usage (r.error.map NonBlank.text) r.retrieval r.toolCalls r.id.text r.createdAt
      = .ok r := by
  simp [EvaluationRun.init]

/-- `CaseResult`. -/
def CaseResult.init (runId : String) (scores : List EvaluatorScore) (id : String)
    (createdAt : Timestamp) : Py CaseResult := do
  let runId ← requireNonEmpty runId "CaseResult.run_id"
  let id ← requireNonEmpty id "CaseResult.id"
  CaseResult.make runId scores ⟨id, createdAt⟩

theorem CaseResult.init_eq (cr : CaseResult) :
    CaseResult.init cr.runId.text cr.scores cr.id.text cr.createdAt = .ok cr := by
  simp [CaseResult.init, CaseResult.make, cr.scores_nodup]

/-- `EvaluationResult`. -/
def EvaluationResult.init (experimentId : String) (metrics : List MetricComparison)
    (evidence : List MetricEvidence) (id : String) (createdAt : Timestamp) :
    Py EvaluationResult := do
  let experimentId ← requireNonEmpty experimentId "EvaluationResult.experiment_id"
  let id ← requireNonEmpty id "EvaluationResult.id"
  EvaluationResult.make experimentId metrics evidence ⟨id, createdAt⟩

theorem EvaluationResult.init_eq (r : EvaluationResult) :
    EvaluationResult.init r.experimentId.text r.metrics r.evidence r.id.text r.createdAt
      = .ok r := by
  simp [EvaluationResult.init, EvaluationResult.make_of_nodup r.metrics_nodup r.evidence_nodup]

/-- The check of one threshold. -/
def requireThreshold (entry : String × ℚ) : Py Unit := do
  if PyText.isBlank entry.1 then
    throw (.domainValidation "ReleasePolicy.thresholds has a blank metric name")
  if entry.2 < 0 then
    throw (.domainValidation
      ("ReleasePolicy threshold for " ++ PyText.repr entry.1 ++ " must be >= 0"))

theorem requireThreshold_eq_ok {entry : String × ℚ} :
    requireThreshold entry = .ok () ↔ PyText.isBlank entry.1 = false ∧ 0 ≤ entry.2 := by
  unfold requireThreshold
  cases PyText.isBlank entry.1 <;> simp

/-- `ReleasePolicy`. -/
def ReleasePolicy.init (name : String) (thresholds : Dict String ℚ) (maxSafetyViolations : ℤ)
    (id : String) : Py ReleasePolicy := do
  let name ← requireNonEmpty name "ReleasePolicy.name"
  let id ← requireNonEmpty id "ReleasePolicy.id"
  let maxSafetyViolations ← requireNat maxSafetyViolations
    s!"ReleasePolicy.max_safety_violations must be >= 0, got {maxSafetyViolations}"
  match h : thresholds.entries.forM requireThreshold with
  | .error exc => .error exc
  | .ok () =>
      pure
        { name, thresholds, maxSafetyViolations, id,
          thresholds_nonblank := fun e he =>
            (requireThreshold_eq_ok.mp (ExceptRules.forM_eq_ok_iff.mp h e he)).1
          thresholds_nonneg := fun e he =>
            (requireThreshold_eq_ok.mp (ExceptRules.forM_eq_ok_iff.mp h e he)).2 }

theorem ReleasePolicy.init_eq (p : ReleasePolicy) :
    ReleasePolicy.init p.name.text p.thresholds p.maxSafetyViolations p.id.text = .ok p := by
  have hall : p.thresholds.entries.forM requireThreshold = .ok () :=
    ExceptRules.forM_eq_ok_iff.mpr fun e he =>
      requireThreshold_eq_ok.mpr ⟨p.thresholds_nonblank e he, p.thresholds_nonneg e he⟩
  unfold ReleasePolicy.init
  simp only [requireNonEmpty_text, requireNat_natCast, ExceptRules.ok_bind]
  split
  · rename_i herror
    exact nomatch hall.symm.trans herror
  · rfl

/-- `JudgeCalibration`. -/
def JudgeCalibration.init (judgeProvider : ProviderName) (judgeModel judgeName : String)
    (judgeTemperature : ℚ) (rubricId : String) (metrics : JudgeCalibrationMetrics)
    (cases : List JudgeCalibrationCase) (id : String) (createdAt : Timestamp) :
    Py JudgeCalibration := do
  let judgeModel ← requireNonEmpty judgeModel "JudgeCalibration.judge_model"
  let judgeName ← requireNonEmpty judgeName "JudgeCalibration.judge_name"
  let rubricId ← requireNonEmpty rubricId "JudgeCalibration.rubric_id"
  let id ← requireNonEmpty id "JudgeCalibration.id"
  if ht : judgeTemperature < 0 then
    throw (.domainValidation "JudgeCalibration.judge_temperature must be >= 0")
  else if hn : metrics.total = cases.length then
    pure
      { judgeProvider, judgeModel, judgeName, judgeTemperature, rubricId, metrics, cases, id,
        createdAt, judgeTemperature_nonneg := not_lt.mp ht, total_eq := hn }
  else throw (.domainValidation
    "JudgeCalibration.metrics.total must equal the number of cases")

theorem JudgeCalibration.init_eq (c : JudgeCalibration) :
    JudgeCalibration.init c.judgeProvider c.judgeModel.text c.judgeName.text c.judgeTemperature
      c.rubricId.text c.metrics c.cases c.id.text c.createdAt = .ok c := by
  simp [JudgeCalibration.init, not_lt.mpr c.judgeTemperature_nonneg, c.total_eq]

/-- The check of one optional measure of a trace. -/
def requireMeasure (label : String) (measure : Option ℚ) :
    Py { x : Option ℚ // ∀ value, x = some value → 0 ≤ value } :=
  if h : ∀ value, measure = some value → 0 ≤ value then pure ⟨measure, h⟩
  else throw (.domainValidation (label ++ " must be non-negative"))

/-- `ProductionTrace`. -/
def ProductionTrace.init (projectId systemVersionId input output : String)
    (referenceOutput : Option String) (metadata : List (String × Json))
    (latencyMs costUsd : Option ℚ) (error : Option String) (origin : TraceOrigin) (id : String)
    (createdAt : Timestamp) : Py ProductionTrace := do
  let projectId ← requireNonEmpty projectId "ProductionTrace.project_id"
  let systemVersionId ← requireNonEmpty systemVersionId "ProductionTrace.system_version_id"
  let input ← requireNonEmpty input "ProductionTrace.input"
  let id ← requireNonEmpty id "ProductionTrace.id"
  let error ← nonBlankWhenSet error "ProductionTrace.error must be non-blank when set"
  let latency ← requireMeasure "ProductionTrace.latency_ms" latencyMs
  let cost ← requireMeasure "ProductionTrace.cost_usd" costUsd
  pure
    { projectId, systemVersionId, input, output, referenceOutput, metadata, error, origin, id,
      createdAt, latencyMs := latency.val, costUsd := cost.val,
      latencyMs_nonneg := latency.property, costUsd_nonneg := cost.property }

theorem ProductionTrace.init_eq (t : ProductionTrace) :
    ProductionTrace.init t.projectId.text t.systemVersionId.text t.input.text t.output
      t.referenceOutput t.metadata t.latencyMs t.costUsd (t.error.map NonBlank.text) t.origin
      t.id.text t.createdAt = .ok t := by
  unfold ProductionTrace.init requireMeasure
  simp only [requireNonEmpty_text, nonBlankWhenSet_text, ExceptRules.ok_bind,
    dif_pos t.latencyMs_nonneg, dif_pos t.costUsd_nonneg]
  rfl

end EvalOps
