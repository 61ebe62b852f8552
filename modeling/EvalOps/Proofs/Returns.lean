import EvalOps.Config
import EvalOps.Evaluators
import EvalOps.Proofs.Runner

/-!
# `EvalOps.Proofs.Returns`: runs that return

The runner returns when the preflight passes, the templates render, the providers raise nothing
but `ProviderError` and the evaluators return. `runExperiment_isOk` states this, and
`offline_grid` applies it to an offline configuration: a provider whose answer depends on the
prompt and the version only.
-/

set_option autoImplicit false

namespace EvalOps

open Effect

/-- Where a trial raises: the check of the version, the reply, or the scoring of a response. -/
theorem trialAt_eq_error {env : Environment} {experiment : Experiment}
    {systemVersion : SystemVersion} {provider : ProviderClient} {evaluators : List Evaluator}
    {case : DatasetCase} {prompt : String} {repeatIndex k : ℕ} {e : PyError}
    (h : trialAt env experiment systemVersion provider evaluators case prompt repeatIndex k
      = .error e) :
    (e.kind ≠ .providerError ∧ (provider.checkConfig systemVersion = .error e ∨
      (provider.checkConfig systemVersion = .ok () ∧
        provider.reply k prompt systemVersion = .error e))) ∨
    ∃ response, provider.checkConfig systemVersion = .ok () ∧
      provider.reply k prompt systemVersion = .ok response ∧
      score (successfulRun experiment systemVersion case repeatIndex response (env.runStamp k))
        case evaluators (env.caseResultStamp k) = .error e := by
  unfold trialAt at h
  cases hcheck : provider.checkConfig systemVersion with
  | error exc =>
      rw [hcheck, ExceptRules.error_bind, recorded] at h
      split at h
      · -- A failed run is never scored.
        cases h
      · rename_i hkind
        cases h
        exact Or.inl ⟨hkind, Or.inl rfl⟩
  | ok _ =>
      rw [hcheck, ExceptRules.ok_bind] at h
      cases hreply : provider.reply k prompt systemVersion with
      | error exc =>
          rw [hreply, recorded] at h
          split at h
          · cases h
          · rename_i hkind
            cases h
            exact Or.inl ⟨hkind, Or.inr ⟨rfl, rfl⟩⟩
      | ok response =>
          rw [hreply, recorded, ExceptRules.ok_bind] at h
          refine Or.inr ⟨response, rfl, rfl, ?_⟩
          cases hscore : score (successfulRun experiment systemVersion case repeatIndex response
              (env.runStamp k)) case evaluators (env.caseResultStamp k) with
          | error exc =>
              rw [hscore] at h
              cases h
              rfl
          | ok caseResult =>
              rw [hscore] at h
              cases h

/-- The loops of one version return when every trial does. They make one call per trial. -/
theorem exec_runVersion_isOk (env : Environment) {experiment : Experiment} {dataset : Dataset}
    {providers : Dict ProviderName ProviderClient} {evaluators : List Evaluator}
    {systemVersion : SystemVersion} {provider : ProviderClient}
    (hprovider : providers.get? systemVersion.provider = some provider)
    (hprompt : ∀ case ∈ dataset.cases, ∃ prompt,
      renderPrompt systemVersion.promptTemplate.text case.input.text = .ok prompt)
    (htrial : ∀ case ∈ dataset.cases, ∀ prompt r k, ∃ t,
      trialAt env experiment systemVersion provider evaluators case prompt r k = .ok t) (s : ℕ) :
    ∃ ts, exec (runVersion env experiment dataset providers evaluators systemVersion) s
      = (.ok ts, s + (trialKeys dataset.caseIds experiment.repeats).length) := by
  have hcase : ∀ case ∈ dataset.cases, ∀ s, ∃ ts t,
      exec (runCase env experiment systemVersion provider evaluators case) s = (.ok ts, t) := by
    intro case hmem s
    obtain ⟨prompt, hrender⟩ := hprompt case hmem
    -- A repeat makes one call, whatever comes of it.
    have hrepeat : ∀ r ∈ List.range experiment.repeats, ∀ k, ∃ trial t,
        exec (runRepeat env experiment systemVersion provider evaluators case prompt r) k
          = (.ok trial, t) := by
      intro r _ k
      obtain ⟨trial, ht⟩ := htrial case hmem prompt r k
      exact ⟨trial, k + 1, by rw [exec_runRepeat, ht]⟩
    obtain ⟨ts, t, hloop⟩ := exec_mapM_isOk hrepeat s
    exact ⟨ts, t, exec_lift_bind_eq_ok.mpr ⟨prompt, hrender, hloop⟩⟩
  obtain ⟨tss, t, hloop⟩ := exec_mapM_isOk hcase s
  have hrun : exec (runVersion env experiment dataset providers evaluators systemVersion) s
      = (.ok tss.flatten, t) := by
    refine exec_lift_bind_eq_ok.mpr ⟨provider, ?_, exec_bind_eq_ok.mpr ⟨tss, t, hloop, rfl⟩⟩
    unfold lookupProvider
    rw [hprovider]
    rfl
  obtain ⟨hran, hstamped⟩ := exec_runVersion_eq_ok hrun
  refine ⟨tss.flatten, ?_⟩
  rw [hrun, hstamped.1, hran.length_eq]

/-- The runner returns when the two versions' loops do. -/
theorem runExperiment_isOk (env : Environment) {experiment : Experiment} {dataset : Dataset}
    {baselineVersion candidateVersion : SystemVersion}
    {providers : Dict ProviderName ProviderClient} {evaluators : List Evaluator}
    (hpreflight : preflight experiment dataset baselineVersion candidateVersion providers
      evaluators = .ok ())
    (hversion : ∀ v ∈ [baselineVersion, candidateVersion], ∀ s, ∃ ts t,
      exec (runVersion env experiment dataset providers evaluators v) s = (.ok ts, t)) (s : ℕ) :
    ∃ outcome t, exec (runExperiment env experiment dataset baselineVersion candidateVersion
      providers evaluators) s = (.ok outcome, t) := by
  obtain ⟨tss, t, hloop⟩ := exec_mapM_isOk hversion s
  exact ⟨_, t, exec_lift_bind_eq_ok.mpr ⟨(), hpreflight,
    exec_bind_eq_ok.mpr ⟨tss, t, hloop, rfl⟩⟩⟩

/-! ### An offline configuration -/

/-- The identifier of `k + 1` letters. -/
def offlineId (k : ℕ) : EntityId where
  text := String.ofList (List.replicate (k + 1) 'x')
  nonblank := PyText.isBlank_eq_false_of_mem (c := 'x') (by simp) (by decide)

theorem offlineId_injective : Function.Injective offlineId := by
  intro j k h
  have htext := congrArg (fun id : EntityId => id.text.toList.length) h
  simpa [offlineId] using htext

/-- Stamps with the identifiers `offlineId`. -/
def offlineStamp (k : ℕ) : Stamp := ⟨offlineId k, 0⟩

/-- The environment of an offline run. -/
def offlineEnv : Environment where
  runStamp := offlineStamp
  caseResultStamp := offlineStamp
  resultStamp := offlineStamp 0
  runStamp_injective := offlineId_injective

/-- A case whose input is its identifier. -/
def offlineCase (k : ℕ) : DatasetCase where
  input := offlineId k
  expectedOutput := none
  origin := .authored
  sourceTraceId := none
  expectedRetrievalIds := []
  expectedToolCalls := []
  id := offlineId k
  promoted_has_trace := fun h => nomatch h
  authored_has_no_trace := fun _ => rfl

/-- One repeat is enough, and so is version `1`. -/
theorem one_le_once : 1 ≤ 1 := le_refl 1

/-- A latency of one millisecond passes its check. -/
theorem nonneg_one : (0 : ℚ) ≤ 1 := zero_le_one

/-- A dataset of `n + 1` cases. -/
def offlineDataset (n : ℕ) : Dataset where
  projectId := offlineId 0
  name := offlineId 0
  version := 1
  cases := (List.range (n + 1)).map offlineCase
  id := offlineId 0
  createdAt := 0
  version_pos := one_le_once
  cases_ne_nil := by simp
  cases_nodup := by
    rw [List.map_map]
    exact List.nodup_range.map offlineId_injective

/-- The version with the identifier `offlineId k`. -/
def offlineVersion (k : ℕ) (promptTemplate : NonBlank) : SystemVersion where
  projectId := offlineId 0
  name := offlineId k
  version := offlineId 0
  provider := .ollama
  model := offlineId 0
  promptTemplate := promptTemplate
  parameters := []
  ragConfig := none
  toolPolicy := none
  id := offlineId k
  createdAt := 0

/-- The template that is the input itself. -/
def inputTemplate : NonBlank := ⟨"$\x7binput\x7d", by decide +kernel⟩

/-- The experiment over version `0` and version `1`. -/
def offlineExperiment (repeats : ℕ) (h : 1 ≤ repeats) : Experiment where
  projectId := offlineId 0
  datasetId := offlineId 0
  baselineVersionId := offlineId 0
  candidateVersionId := offlineId 1
  repeats := repeats
  releasePolicyId := none
  id := offlineId 0
  createdAt := 0
  versions_ne := by
    intro h
    exact absurd (offlineId_injective h) (by decide)
  repeats_pos := h

/-- A provider whose answer depends on the prompt and the version only. -/
def offlineProvider (answer : String → EntityId → Py ProviderResponse) : ProviderClient where
  name := "mock"
  checkConfig := fun _ => .ok ()
  reply := fun _ prompt systemVersion => answer prompt systemVersion.id

/-- The provider map of an offline run. -/
def offlineProviders (answer : String → EntityId → Py ProviderResponse) :
    Dict ProviderName ProviderClient :=
  ⟨[(.ollama, offlineProvider answer)], by simp⟩

/-- The policy that gates one metric. -/
def offlinePolicy (metric : String) (h : PyText.isBlank metric = false) (threshold : ℚ)
    (ht : 0 ≤ threshold) : ReleasePolicy where
  name := offlineId 0
  thresholds := ⟨[(metric, threshold)], by simp⟩
  maxSafetyViolations := 0
  id := offlineId 0
  thresholds_nonblank := by simpa using h
  thresholds_nonneg := by simpa using ht

/-- The policy covers a metric that is produced. -/
theorem unknownMetrics_offlinePolicy {metric : String} (h : PyText.isBlank metric = false)
    {threshold : ℚ} (ht : 0 ≤ threshold) {metrics : List MetricComparison}
    (hmem : metric ∈ metrics.map MetricComparison.metric) :
    unknownMetrics (offlinePolicy metric h threshold ht) metrics = [] := by
  unfold unknownMetrics
  rw [Sorting.sorted_eq_nil_iff, List.filter_eq_nil_iff]
  intro m hm
  have : m = metric := by simpa [offlinePolicy, Dict.keys] using hm
  simpa [this] using hmem

/-- The runtime whose generator always returns `p`, or the last index when there is no index
`p`. The square root is exact to twelve decimals. -/
def offlineRuntime (p : ℕ) : Runtime where
  randrange := fun _ n _ => min p (n - 1)
  randrange_lt := by
    intro seed n k hn
    omega
  sqrt := fun x => Nat.sqrt ⌊x * 10 ^ 24⌋.toNat / 10 ^ 12
  sqrt_nonneg := fun x => div_nonneg (Nat.cast_nonneg _) (by norm_num)

/-- A response without text that took `latencyMs`. -/
def offlineResponse (latencyMs : ℚ) (h : 0 ≤ latencyMs) : ProviderResponse where
  text := ""
  usage := { UsageMetrics.zero with latencyMs, latencyMs_nonneg := h }
  retrieval := []
  toolCalls := []

/-- A failed call. -/
def offlineFailure : PyError := ⟨.providerError, "unavailable"⟩

/-- The candidate fails in every call. -/
def failingAnswer (_ : String) (version : EntityId) : Py ProviderResponse :=
  if version = offlineId 1 then .error offlineFailure else .ok (offlineResponse 1 nonneg_one)

/-- The candidate takes two milliseconds, the baseline one. -/
def slowAnswer (_ : String) (version : EntityId) : Py ProviderResponse :=
  if version = offlineId 1 then .ok (offlineResponse 2 zero_le_two)
  else .ok (offlineResponse 1 nonneg_one)

/-- A tool call that failed. -/
def failedCall : ToolCall where
  name := offlineId 0
  arguments := []
  result := .null
  ok := false
  error := some (offlineId 0)
  ok_no_error := Bool.noConfusion

/-- The candidate answers, but its tool call fails. -/
def brokenToolAnswer (_ : String) (version : EntityId) : Py ProviderResponse :=
  if version = offlineId 1 then
    .ok { offlineResponse 1 nonneg_one with toolCalls := [failedCall] }
  else .ok (offlineResponse 1 nonneg_one)

/-- An offline plan of one case, with one evaluator and no policy. -/
def offlinePlan (candidateTemplate : NonBlank) : RunPlan where
  project := ⟨offlineId 0, offlineId 0, 0⟩
  dataset := offlineDataset 0
  experiment := offlineExperiment 1 one_le_once
  baseline := offlineVersion 0 inputTemplate
  candidate := offlineVersion 1 candidateTemplate
  evaluators := [ToolSuccess.default.toEvaluator]
  policy := none
  providers := offlineProviders fun _ _ => .ok (offlineResponse 0 nonneg_zero)

theorem renderPrompt_inputTemplate (caseInput : String) :
    renderPrompt inputTemplate.text caseInput = .ok caseInput := by
  have hscan : Template.scan inputTemplate.text = [.placeholder "input"] := by decide +kernel
  have hidentifiers : Template.identifiers inputTemplate.text = ["input"] := by
    simp [Template.identifiers, hscan]
  have hsubstitute : Template.substitute inputTemplate.text caseInput = .ok caseInput := by
    unfold Template.substitute
    rw [hscan]
    simp [String.join]
  unfold renderPrompt
  simp [hidentifiers, hsubstitute, Sorting.sorted]

/-- The trial that an answer leads to, without evaluators. -/
def Answered (answer : Py ProviderResponse) (t : Trial) : Prop :=
  t.2.scores = [] ∧
    match answer with
    | .ok response => t.1.error = none ∧ t.1.usage = response.usage
    | .error _ => t.1.error.isSome

/-- The answer decides the trial. -/
theorem answered_of_trialAt {experiment : Experiment} {systemVersion : SystemVersion}
    {answer : String → EntityId → Py ProviderResponse} {case : DatasetCase} {prompt : String}
    {r k : ℕ} {t : Trial}
    (h : trialAt offlineEnv experiment systemVersion (offlineProvider answer) [] case prompt r k
      = .ok t) :
    Answered (answer prompt systemVersion.id) t := by
  obtain ⟨run, hrun, h⟩ := ExceptRules.bind_eq_ok.mp h
  obtain ⟨caseResult, hscore, h⟩ := ExceptRules.bind_eq_ok.mp h
  cases h
  -- There is no evaluator, so there is no score on either branch.
  have hscores : caseResult.scores = [] := by
    unfold score at hscore
    split at hscore
    · exact (CaseResult.make_eq_ok hscore).2
    · rw [List.mapM_nil, ExceptRules.pure_eq_ok, ExceptRules.ok_bind] at hscore
      exact (CaseResult.make_eq_ok hscore).2
  refine ⟨hscores, ?_⟩
  change recorded experiment systemVersion case r (offlineEnv.runStamp k)
    (answer prompt systemVersion.id) = .ok run at hrun
  cases hanswer : answer prompt systemVersion.id with
  | ok response =>
      rw [hanswer] at hrun
      cases hrun
      exact ⟨rfl, rfl⟩
  | error e =>
      rw [hanswer, recorded] at hrun
      split at hrun
      · cases hrun
        rfl
      · cases hrun

/-- The run of an experiment over an offline provider, without evaluators. -/
def offlineRun (n : ℕ) (repeats : ℕ) (hrepeats : 1 ≤ repeats)
    (answer : String → EntityId → Py ProviderResponse) : RunM RunOutcome :=
  runExperiment offlineEnv (offlineExperiment repeats hrepeats) (offlineDataset n)
    (offlineVersion 0 inputTemplate) (offlineVersion 1 inputTemplate) (offlineProviders answer) []

theorem produced_offlineRun {n repeats s t : ℕ} {hrepeats : 1 ≤ repeats}
    {answer : String → EntityId → Py ProviderResponse} {outcome : RunOutcome}
    (h : exec (offlineRun n repeats hrepeats answer) s = (.ok outcome, t)) :
    Produced (offlineExperiment repeats hrepeats) (offlineDataset n) [] outcome :=
  ⟨_, _, _, _, _, _, _, h, rfl⟩

/-- The outcome of an offline run, for every answer that raises at most `ProviderError`. -/
theorem offline_grid (n : ℕ) {repeats : ℕ} (hrepeats : 1 ≤ repeats)
    (answer : String → EntityId → Py ProviderResponse)
    (hanswer : ∀ prompt id e, answer prompt id = .error e → e.kind = .providerError) :
    ∃ (g : Grid (offlineExperiment repeats hrepeats) (offlineDataset n).caseIds []) (t : ℕ),
      exec (offlineRun n repeats hrepeats answer) 0 = (.ok g.outcome, t) ∧ ∀ key ∈ g.keys,
        Answered (answer (ofLex key).1.text (offlineId 0)) (g.baseline key) ∧
        Answered (answer (ofLex key).1.text (offlineId 1)) (g.candidate key) := by
  -- A trial raises only what the answer raises, and that is recorded.
  have htrial : ∀ v : SystemVersion, ∀ case prompt r k, ∃ t,
      trialAt offlineEnv (offlineExperiment repeats hrepeats) v (offlineProvider answer) [] case
        prompt r k = .ok t := by
    intro v case prompt r k
    cases h : trialAt offlineEnv (offlineExperiment repeats hrepeats) v (offlineProvider answer)
        [] case prompt r k with
    | ok t => exact ⟨t, rfl⟩
    | error e =>
        rcases trialAt_eq_error h with ⟨hkind, hcheck | ⟨_, hreply⟩⟩ | ⟨response, _, _, hscore⟩
        · exact nomatch hcheck
        · exact absurd (hanswer _ _ e hreply) hkind
        · simp [score, successfulRun, CaseResult.make] at hscore
  have hprovider : (offlineProviders answer).get? .ollama = some (offlineProvider answer) := rfl
  have hcases : ∀ case ∈ (offlineDataset n).cases, case.input = case.id := by
    intro case hcase
    obtain ⟨k, _, rfl⟩ := List.mem_map.mp hcase
    rfl
  have hpreflight : preflight (offlineExperiment repeats hrepeats) (offlineDataset n)
      (offlineVersion 0 inputTemplate) (offlineVersion 1 inputTemplate) (offlineProviders answer)
      [] = .ok () := by
    have hcontains : (offlineProviders answer).contains .ollama = true := rfl
    simp [preflight, requireId, offlineExperiment, offlineDataset, offlineVersion, hcontains,
      Sorting.sorted]
  obtain ⟨outcome, t, hrun⟩ := runExperiment_isOk offlineEnv hpreflight
    (fun v hv s => by
      have hv' : v.provider = .ollama ∧ v.promptTemplate = inputTemplate := by
        rcases List.mem_pair.mp hv with rfl | rfl <;> exact ⟨rfl, rfl⟩
      obtain ⟨ts, hts⟩ := exec_runVersion_isOk offlineEnv (hv'.1 ▸ hprovider)
        (fun case _ => ⟨_, hv'.2 ▸ renderPrompt_inputTemplate case.input.text⟩)
        (fun case _ prompt r k => htrial v case prompt r k) s
      exact ⟨ts, _, hts⟩) 0
  obtain ⟨g, rfl, hran⟩ := runExperiment_grid hrun
  -- The prompt of a case is its identifier.
  have hanswered : ∀ k key t, Ran offlineEnv (offlineExperiment repeats hrepeats)
      (offlineDataset n) (offlineProviders answer) [] (offlineVersion k inputTemplate) key t →
      Answered (answer (ofLex key).1.text (offlineId k)) t := by
    rintro k key t ⟨provider, case, prompt, j, hget, hmem, hid, hrender, htrial⟩
    rw [show (offlineVersion k inputTemplate).provider = .ollama from rfl, hprovider] at hget
    cases hget
    rw [show (offlineVersion k inputTemplate).promptTemplate = inputTemplate from rfl,
      renderPrompt_inputTemplate] at hrender
    cases hrender
    have := answered_of_trialAt htrial
    rwa [hcases case hmem, hid] at this
  exact ⟨g, t, hrun, fun key hkey =>
    ⟨hanswered 0 key _ (hran key hkey).1, hanswered 1 key _ (hran key hkey).2⟩⟩

end EvalOps
