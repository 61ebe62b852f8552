import EvalOps.Lib.Repetition
import EvalOps.MockProvider
import EvalOps.Proofs.Percentile
import EvalOps.Proofs.Pipeline
import EvalOps.Proofs.Units

/-!
# `EvalOps.Proofs.Replay`: repeating a deterministic run

`MockProvider` answers from the prompt and the version alone, and the built-in evaluators score what
a run reports, not which run it is. Over such parts every repeat of a case gives the same trial. So
the number of repeats changes no metric, except that a total grows with the number of runs.

* `trialAt_again`: a trial that was made once is made again, with the same contents.
* `metrics_do_not_depend_on_repeats`: the metrics of the experiment under another number of repeats.
-/

set_option autoImplicit false

namespace EvalOps

open Effect

/-! ### What is repeated -/

/-- The reply does not depend on how many calls were made before. -/
def ProviderClient.Deterministic (provider : ProviderClient) : Prop :=
  ∀ k k' prompt config, provider.reply k prompt config = provider.reply k' prompt config

theorem mockProvider_deterministic : mockProvider.Deterministic := fun _ _ _ _ => rfl

/-- What a run reports, besides its identity. -/
structure Content where
  output : String
  usage : UsageMetrics
  error : Option NonBlank
  retrieval : List RetrievedItem
  toolCalls : List ToolCall

/-- The content of a run. -/
def EvaluationRun.content (run : EvaluationRun) : Content :=
  ⟨run.output, run.usage, run.error, run.retrieval, run.toolCalls⟩

/-- The score depends on what the run reports, not on which run it is. -/
def Evaluator.ReadsContent (evaluator : Evaluator) : Prop :=
  ∀ (run run' : EvaluationRun) (reference : DatasetCase), run.content = run'.content →
    evaluator.evaluate run reference = evaluator.evaluate run' reference

/-- Two trials report the same, with the same scores. -/
structure SameTrial (t t' : Trial) : Prop where
  content : t.1.content = t'.1.content
  scores : t.2.scores = t'.2.scores

namespace SameTrial

variable {t t' : Trial}

theorem error_eq (h : SameTrial t t') : t.1.error = t'.1.error :=
  congrArg Content.error h.content

theorem usage_eq (h : SameTrial t t') : t.1.usage = t'.1.usage :=
  congrArg Content.usage h.content

theorem trialScore_eq (h : SameTrial t t') (name : String) :
    trialScore name t = trialScore name t' := by
  unfold trialScore
  rw [h.error_eq, h.scores]

end SameTrial

/-! ### One trial again -/

section

variable {env env' : Environment} {experiment experiment' : Experiment} {v : SystemVersion}
  {provider : ProviderClient} {evaluators : List Evaluator} {case : DatasetCase}

/-- A recorded reply is recorded again. -/
theorem recorded_again {r r' : ℕ} {stamp stamp' : Stamp} {reply : Py ProviderResponse}
    {run : EvaluationRun} (h : recorded experiment v case r stamp reply = .ok run) :
    ∃ run', recorded experiment' v case r' stamp' reply = .ok run' ∧
      run.content = run'.content := by
  cases reply with
  | ok response =>
      cases h
      exact ⟨_, rfl, rfl⟩
  | error exc =>
      unfold recorded at h ⊢
      dsimp only at h ⊢
      split at h
      · rename_i hkind
        cases h
        exact ⟨_, if_pos hkind, rfl⟩
      · exact nomatch h

/-- A scored run is scored again. -/
theorem score_again (hevaluators : ∀ e ∈ evaluators, e.ReadsContent) {run run' : EvaluationRun}
    (hcontent : run.content = run'.content) {stamp stamp' : Stamp} {caseResult : CaseResult}
    (h : score run case evaluators stamp = .ok caseResult) :
    ∃ caseResult', score run' case evaluators stamp' = .ok caseResult' ∧
      caseResult.scores = caseResult'.scores := by
  have herror : run.error = run'.error := congrArg Content.error hcontent
  have hmake : ∀ {scores : List EvaluatorScore},
      CaseResult.make run.id scores stamp = .ok caseResult →
      ∃ caseResult', CaseResult.make run'.id scores stamp' = .ok caseResult' ∧
        caseResult.scores = caseResult'.scores := by
    intro scores hscores
    have hnodup : (scores.map EvaluatorScore.evaluator).Nodup :=
      (CaseResult.make_eq_ok hscores).2 ▸ caseResult.scores_nodup
    exact ⟨_, dif_pos hnodup, (CaseResult.make_eq_ok hscores).2⟩
  have hscores : (evaluators.mapM fun evaluator => evaluator.evaluate run case)
      = evaluators.mapM fun evaluator => evaluator.evaluate run' case :=
    ExceptRules.mapM_congr fun e he => hevaluators e he run run' case hcontent
  unfold score at h ⊢
  rw [← herror, ← hscores]
  split at h
  · rename_i hfailed
    rw [if_pos hfailed]
    exact hmake h
  · rename_i hfailed
    rw [if_neg hfailed]
    obtain ⟨scores, hloop, h⟩ := ExceptRules.bind_eq_ok.mp h
    rw [hloop, ExceptRules.ok_bind]
    exact hmake h

/-- A trial that was made once is made again at any call and repeat, with the same contents. -/
theorem trialAt_again (hprovider : provider.Deterministic)
    (hevaluators : ∀ e ∈ evaluators, e.ReadsContent) {prompt : String} {r r' k k' : ℕ} {t : Trial}
    (h : trialAt env experiment v provider evaluators case prompt r k = .ok t) :
    ∃ t', trialAt env' experiment' v provider evaluators case prompt r' k' = .ok t' ∧
      SameTrial t t' := by
  obtain ⟨run, hrun, h⟩ := ExceptRules.bind_eq_ok.mp h
  obtain ⟨caseResult, hscore, h⟩ := ExceptRules.bind_eq_ok.mp h
  cases h
  rw [hprovider k k' prompt v] at hrun
  obtain ⟨run', hrun', hcontent⟩ := recorded_again hrun
  obtain ⟨caseResult', hscore', hscores⟩ := score_again hevaluators hcontent hscore
  refine ⟨(run', caseResult'), ?_, hcontent, hscores⟩
  unfold trialAt
  rw [hrun', ExceptRules.ok_bind, hscore', ExceptRules.ok_bind]
  rfl

end

/-! ### Statistics of repeated observations -/

open Repetition

theorem mean_each {n : ℕ} (hn : 1 ≤ n) (xs : List ℚ) : mean (each n xs) = mean xs :=
  sum_div_length_each hn xs

/-- The percentile is the least observation with enough observations below it, and repeating all of
them changes neither side of that comparison. -/
theorem nearestRank_each {n : ℕ} (hn : 1 ≤ n) (xs : List ℚ) :
    nearestRank (each n xs) = nearestRank xs := by
  by_cases hne : xs = []
  · rw [hne, each_nil]
  have heach : each n xs ≠ [] := by
    intro h
    have hlength := congrArg List.length h
    rw [length_each, List.length_nil, Nat.mul_eq_zero] at hlength
    rcases hlength with h | h
    · omega
    · exact hne (List.length_eq_zero_iff.mp h)
  have hpos : (0 : ℚ) < n := by exact_mod_cast hn
  have hset : {v | v ∈ each n xs ∧ (19 / 20 : ℚ) * (each n xs).length
        ≤ ((each n xs).countP fun x => decide (x ≤ v) : ℕ)}
      = {v | v ∈ xs ∧ (19 / 20 : ℚ) * xs.length ≤ (xs.countP fun x => decide (x ≤ v) : ℕ)} := by
    ext v
    simp only [Set.mem_ofPred_eq, mem_each hn, length_each, countP_each, Nat.cast_mul]
    rw [mul_left_comm, mul_le_mul_iff_right₀ hpos]
  exact (hset ▸ nearestRank_isLeast heach).unique (nearestRank_isLeast hne)

/-! ### The trials of a version, case by case -/

/-- The latency of a trial that succeeded. -/
def latencyOf (t : Trial) : Option ℚ :=
  if t.1.error.isNone then some t.1.usage.latencyMs else none

theorem successfulLatencies_eq (ts : List Trial) :
    successfulLatencies (ts.map Prod.fst) = (ts.map latencyOf).filterMap id := by
  unfold successfulLatencies
  induction ts with
  | nil => rfl
  | cons t ts ih =>
      rw [List.map_cons, List.map_cons, List.filter_cons]
      by_cases h : t.1.error.isNone = true
      · rw [if_pos h, List.map_cons, ih, latencyOf, if_pos h]
        rfl
      · rw [if_neg h, ih, latencyOf, if_neg h]
        rfl

section

variable {caseIds : List EntityId} {n : ℕ} {trial : PairKey → Trial} {first : EntityId → Trial}

/-- What all trials of a case have in common is observed once for each repeat. -/
theorem map_observe_eq_each {β : Type} {observe : Trial → β}
    (hobserve : ∀ t t', SameTrial t t' → observe t = observe t')
    (h : ∀ key ∈ trialKeys caseIds n, SameTrial (first (ofLex key).1) (trial key)) :
    ((trialKeys caseIds n).map trial).map observe
      = each n (caseIds.map fun caseId => observe (first caseId)) := by
  unfold trialKeys at h ⊢
  rw [List.map_map, List.map_flatMap]
  simp only [List.map_map]
  refine flatMap_range_of_const fun caseId hcase r hr => ?_
  exact (hobserve _ _ (h (toLex (caseId, r)) (mem_trialKeys.mpr ⟨hcase, hr⟩))).symm

variable (hn : 1 ≤ n)
  (h : ∀ key ∈ trialKeys caseIds n, SameTrial (first (ofLex key).1) (trial key))

include hn h

theorem meanOf_repeated {observe : Trial → ℚ}
    (hobserve : ∀ t t', SameTrial t t' → observe t = observe t') :
    meanOf observe ((trialKeys caseIds n).map trial)
      = mean (caseIds.map fun caseId => observe (first caseId)) := by
  unfold meanOf
  rw [map_observe_eq_each hobserve h, mean_each hn]

omit hn in
theorem latencies_repeated :
    successfulLatencies (((trialKeys caseIds n).map trial).map Prod.fst)
      = each n ((caseIds.map fun caseId => latencyOf (first caseId)).filterMap id) := by
  have hlatency : ∀ t t', SameTrial t t' → latencyOf t = latencyOf t' := by
    intro t t' hsame
    unfold latencyOf
    rw [hsame.error_eq, hsame.usage_eq]
  rw [successfulLatencies_eq, map_observe_eq_each hlatency h, filterMap_each]

theorem latencyMeanOf_repeated :
    latencyMeanOf ((trialKeys caseIds n).map trial)
      = mean ((caseIds.map fun caseId => latencyOf (first caseId)).filterMap id) := by
  unfold latencyMeanOf
  rw [latencyMean_eq, latencies_repeated h, mean_each hn]

theorem latencyP95Of_repeated :
    latencyP95Of ((trialKeys caseIds n).map trial)
      = nearestRank ((caseIds.map fun caseId => latencyOf (first caseId)).filterMap id) := by
  unfold latencyP95Of
  rw [latencyP95Value_eq, latencies_repeated h, nearestRank_each hn]

omit hn in
theorem costTotalOf_repeated :
    costTotalOf ((trialKeys caseIds n).map trial)
      = n * (caseIds.map fun caseId => (first caseId).1.usage.costUsd).sum := by
  have hcost : ∀ t t', SameTrial t t' → t.1.usage.costUsd = t'.1.usage.costUsd :=
    fun _ _ hsame => by rw [hsame.usage_eq]
  have hmap : (((trialKeys caseIds n).map trial).map Prod.fst).map (fun r => r.usage.costUsd)
      = ((trialKeys caseIds n).map trial).map fun t => t.1.usage.costUsd := List.map_map ..
  unfold costTotalOf costTotal
  rw [hmap, map_observe_eq_each hcost h, sum_each]

end

/-! ### The run again -/

/-- The experiment with another number of repeats. -/
def Experiment.withRepeats (experiment : Experiment) (repeats : ℕ) (h : 1 ≤ repeats) : Experiment :=
  { experiment with repeats, repeats_pos := h }

section

variable {env env' : Environment} {experiment experiment' : Experiment} {dataset : Dataset}
  {providers : Dict ProviderName ProviderClient} {evaluators : List Evaluator} {v : SystemVersion}

/-- Two trials of one case and version are the same, whatever run and repeat they belong to. -/
theorem Ran.same
    (hproviders : ∀ name provider, providers.get? name = some provider → provider.Deterministic)
    (hevaluators : ∀ e ∈ evaluators, e.ReadsContent) {key key' : PairKey} {t t' : Trial}
    (h : Ran env experiment dataset providers evaluators v key t)
    (h' : Ran env' experiment' dataset providers evaluators v key' t')
    (hkey : (ofLex key).1 = (ofLex key').1) : SameTrial t t' := by
  obtain ⟨provider, case, prompt, k, hprovider, hcase, hid, hprompt, htrial⟩ := h
  obtain ⟨provider', case', prompt', k', hprovider', hcase', hid', hprompt', htrial'⟩ := h'
  -- The lookup, the case of the id and the rendered prompt are functions of the key's case.
  obtain rfl : provider = provider' := Option.some.inj (hprovider.symm.trans hprovider')
  obtain rfl : case = case' :=
    List.inj_on_of_nodup_map dataset.cases_nodup hcase hcase' (hid.trans (hkey.trans hid'.symm))
  obtain rfl : prompt = prompt' := Except.ok.inj (hprompt.symm.trans hprompt')
  obtain ⟨t'', hagain, hsame⟩ := trialAt_again (hproviders _ _ hprovider) hevaluators htrial
  rw [hagain] at htrial'
  cases htrial'
  exact hsame

/-- A version that ran once runs again, with any number of repeats. -/
theorem exec_runVersion_again
    (hproviders : ∀ name provider, providers.get? name = some provider → provider.Deterministic)
    (hevaluators : ∀ e ∈ evaluators, e.ReadsContent) {s t : ℕ} {ts : List Trial}
    (h : exec (runVersion env experiment dataset providers evaluators v) s = (.ok ts, t)) (s' : ℕ) :
    ∃ ts' t', exec (runVersion env' experiment' dataset providers evaluators v) s'
      = (.ok ts', t') := by
  have htrials := (exec_runVersion_eq_ok h).1
  obtain ⟨provider, hprovider, _⟩ := exec_lift_bind_eq_ok.mp h
  have hget := lookupProvider_eq_ok hprovider
  have hcase : ∀ case ∈ dataset.cases, ∀ s, ∃ ts t,
      exec (runCase env' experiment' v provider evaluators case) s = (.ok ts, t) := by
    intro case hmem s
    -- The first repeat of the case ran, so its prompt renders and its trial can be made.
    have hkey : toLex (case.id, 0) ∈ trialKeys dataset.caseIds experiment.repeats :=
      mem_trialKeys.mpr ⟨List.mem_map_of_mem hmem, experiment.repeats_pos⟩
    obtain ⟨t, _, provider', case', prompt, k, hget', hmem', hid, hprompt, htrial⟩ :=
      ListRules.exists_of_forall₂_of_mem htrials hkey
    obtain rfl : provider = provider' := Option.some.inj (hget.symm.trans hget')
    obtain rfl : case' = case := List.inj_on_of_nodup_map dataset.cases_nodup hmem' hmem hid
    have hrepeat : ∀ r ∈ List.range experiment'.repeats, ∀ k, ∃ trial t,
        exec (runRepeat env' experiment' v provider evaluators case' prompt r) k
          = (.ok trial, t) := by
      intro r _ k
      obtain ⟨t', hagain, _⟩ := trialAt_again (hproviders _ _ hget) hevaluators htrial
      exact ⟨t', k + 1, by rw [exec_runRepeat, hagain]⟩
    obtain ⟨ts, u, hloop⟩ := exec_mapM_isOk hrepeat s
    exact ⟨ts, u, exec_lift_bind_eq_ok.mpr ⟨prompt, hprompt, hloop⟩⟩
  obtain ⟨tss, u, hloop⟩ := exec_mapM_isOk hcase s'
  exact ⟨tss.flatten, u, exec_lift_bind_eq_ok.mpr ⟨provider, hprovider,
    exec_bind_eq_ok.mpr ⟨tss, u, hloop, rfl⟩⟩⟩

variable (env') in
/-- An experiment that ran once runs again, with any number of repeats. -/
theorem exec_runExperiment_again
    (hproviders : ∀ name provider, providers.get? name = some provider → provider.Deterministic)
    (hevaluators : ∀ e ∈ evaluators, e.ReadsContent) {baseline candidate : SystemVersion}
    {s t : ℕ} {outcome : RunOutcome}
    (h : exec (runExperiment env experiment dataset baseline candidate providers evaluators) s
      = (.ok outcome, t)) {repeats : ℕ} (hrepeats : 1 ≤ repeats) (s' : ℕ) :
    ∃ outcome' t', exec (runExperiment env' (experiment.withRepeats repeats hrepeats) dataset
      baseline candidate providers evaluators) s' = (.ok outcome', t') := by
  obtain ⟨_, hpreflight, h⟩ := exec_lift_bind_eq_ok.mp h
  obtain ⟨perVersion, u, hloop, _⟩ := exec_bind_eq_ok.mp h
  obtain ⟨bs, s₁, rest₁, hbs, hloop₁, _⟩ := exec_mapM_cons_eq_ok.mp hloop
  obtain ⟨cs, s₂, rest₂, hcs, _, _⟩ := exec_mapM_cons_eq_ok.mp hloop₁
  -- The preflight does not read the number of repeats.
  have hpreflight' : preflight (experiment.withRepeats repeats hrepeats) dataset baseline candidate
      providers evaluators = .ok () := hpreflight
  refine runExperiment_isOk env' hpreflight' (fun version hversion s => ?_) s'
  rcases List.mem_pair.mp hversion with rfl | rfl
  · exact exec_runVersion_again hproviders hevaluators hbs s
  · exact exec_runVersion_again hproviders hevaluators hcs s

end

/-! ### The metrics again -/

/-- The factor by which a metric grows when `n` repeats become `n'`. -/
def repeatFactor (n n' : ℕ) (metric : String) : ℚ :=
  if metric = "cost_usd.total" then n' / n else 1

/-- A metric of `n` repeats and of `n'` repeats. The gate's point test sees the same change. -/
structure RepeatedComparison (n n' : ℕ) (mc mc' : MetricComparison) : Prop where
  metric : mc'.metric = mc.metric
  baseline : mc'.baselineValue = repeatFactor n n' mc.metric * mc.baselineValue
  candidate : mc'.candidateValue = repeatFactor n n' mc.metric * mc.candidateValue
  adverse : ∀ direction threshold,
    adverseChange direction mc'.baselineValue mc'.candidateValue threshold
      = adverseChange direction mc.baselineValue mc.candidateValue threshold

theorem repeatFactor_pos {n n' : ℕ} (hn : 1 ≤ n) (hn' : 1 ≤ n') (metric : String) :
    0 < repeatFactor n n' metric := by
  have hpos : (0 : ℚ) < n := by exact_mod_cast hn
  have hpos' : (0 : ℚ) < n' := by exact_mod_cast hn'
  unfold repeatFactor
  split
  · exact div_pos hpos' hpos
  · exact zero_lt_one

/-- The repeats of the two versions, over one list of cases. -/
theorem forall₂_comparisons_repeated {names : List String} {caseIds : List EntityId} {n n' : ℕ}
    (hn : 1 ≤ n) (hn' : 1 ≤ n') {b b' c c' : PairKey → Trial} (firstB firstC : EntityId → Trial)
    (hb : ∀ key ∈ trialKeys caseIds n, SameTrial (firstB (ofLex key).1) (b key))
    (hb' : ∀ key ∈ trialKeys caseIds n', SameTrial (firstB (ofLex key).1) (b' key))
    (hc : ∀ key ∈ trialKeys caseIds n, SameTrial (firstC (ofLex key).1) (c key))
    (hc' : ∀ key ∈ trialKeys caseIds n', SameTrial (firstC (ofLex key).1) (c' key)) :
    List.Forall₂ (RepeatedComparison n n')
      (comparisons names ((trialKeys caseIds n).map b) ((trialKeys caseIds n).map c))
      (comparisons names ((trialKeys caseIds n').map b') ((trialKeys caseIds n').map c')) := by
  have hcomparison : ∀ metric (h : PyText.isBlank metric = false) (value : List Trial → ℚ),
      (∀ (first : EntityId → Trial) (f f' : PairKey → Trial),
        (∀ key ∈ trialKeys caseIds n, SameTrial (first (ofLex key).1) (f key)) →
        (∀ key ∈ trialKeys caseIds n', SameTrial (first (ofLex key).1) (f' key)) →
        value ((trialKeys caseIds n').map f')
          = repeatFactor n n' metric * value ((trialKeys caseIds n).map f)) →
      RepeatedComparison n n'
        (comparison metric h ((trialKeys caseIds n).map b) ((trialKeys caseIds n).map c) value)
        (comparison metric h ((trialKeys caseIds n').map b') ((trialKeys caseIds n').map c')
          value) := by
    intro metric h value hvalue
    have hbaseline := hvalue firstB b b' hb hb'
    have hcandidate := hvalue firstC c c' hc hc'
    refine ⟨rfl, hbaseline, hcandidate, fun direction threshold => ?_⟩
    show adverseChange direction (value ((trialKeys caseIds n').map b'))
      (value ((trialKeys caseIds n').map c')) threshold = _
    rw [hbaseline, hcandidate, adverseChange_mul (repeatFactor_pos hn hn' metric)]
    rfl
  apply forall₂_comparisons
  · -- A quality metric is the mean of an observation that all repeats of a case share.
    intro metric observe hq
    have hobserve : ∀ t t', SameTrial t t' → observe t = observe t' := by
      intro t t' hsame
      cases hq with
      | success =>
          show successObs t.1 = successObs t'.1
          unfold successObs
          rw [hsame.error_eq]
      | pass name _ =>
          unfold passValue
          rw [hsame.trialScore_eq]
      | score name _ =>
          unfold scoreValue
          rw [hsame.trialScore_eq]
    have hfactor : repeatFactor n n' metric = 1 := by
      have hcost := hq.factor ⟨1, 2, one_pos, two_pos⟩
      unfold repeatFactor
      rw [if_neg]
      rintro rfl
      exact absurd hcost (by decide +kernel)
    apply hcomparison
    intro first f f' hf hf'
    rw [meanOf_repeated hn' hf' hobserve, meanOf_repeated hn hf hobserve, hfactor, one_mul]
  · -- `latency_ms.mean`.
    apply hcomparison
    intro first f f' hf hf'
    rw [latencyMeanOf_repeated hn' hf', latencyMeanOf_repeated hn hf]
    exact (one_mul _).symm
  · -- `latency_ms.p95`.
    apply hcomparison
    intro first f f' hf hf'
    rw [latencyP95Of_repeated hn' hf', latencyP95Of_repeated hn hf]
    exact (one_mul _).symm
  · -- `cost_usd.total`.
    apply hcomparison
    intro first f f' hf hf'
    have hpos : (n : ℚ) ≠ 0 := by
      have : n ≠ 0 := by omega
      exact_mod_cast this
    rw [costTotalOf_repeated hf', costTotalOf_repeated hf, repeatFactor, if_pos rfl, ← mul_assoc,
      div_mul_cancel₀ _ hpos]

/-- Under deterministic providers and evaluators that read the contents of a run, an experiment that
runs with some number of repeats runs with every number of repeats. Every metric and every relative
change stays, except that the total cost grows with the number of runs. -/
theorem metrics_do_not_depend_on_repeats {env : Environment} {experiment : Experiment}
    {dataset : Dataset} {baseline candidate : SystemVersion}
    {providers : Dict ProviderName ProviderClient} {evaluators : List Evaluator} {s t : ℕ}
    {outcome : RunOutcome}
    (hproviders : ∀ name provider, providers.get? name = some provider → provider.Deterministic)
    (hevaluators : ∀ e ∈ evaluators, e.ReadsContent)
    (hrun : exec (runExperiment env experiment dataset baseline candidate providers evaluators) s
      = (.ok outcome, t)) (repeats : ℕ) (hrepeats : 1 ≤ repeats) (env' : Environment) (s' : ℕ)
    (stamp stamp' : Stamp) :
    ∃ outcome' t' result result',
      exec (runExperiment env' (experiment.withRepeats repeats hrepeats) dataset baseline candidate
        providers evaluators) s' = (.ok outcome', t') ∧
      aggregateResults experiment outcome (evaluators.map Evaluator.name) stamp = .ok result ∧
      aggregateResults (experiment.withRepeats repeats hrepeats) outcome'
        (evaluators.map Evaluator.name) stamp' = .ok result' ∧
      List.Forall₂ (RepeatedComparison experiment.repeats repeats) result.metrics
        result'.metrics := by
  obtain ⟨outcome', t', hrun'⟩ :=
    exec_runExperiment_again env' hproviders hevaluators hrun hrepeats s'
  obtain ⟨g, rfl, hran⟩ := runExperiment_grid hrun
  obtain ⟨g', rfl, hran'⟩ := runExperiment_grid hrun'
  have hkey : ∀ key ∈ trialKeys dataset.caseIds repeats,
      toLex ((ofLex key).1, 0) ∈ trialKeys dataset.caseIds experiment.repeats := by
    intro key hkey
    exact mem_trialKeys.mpr ⟨(mem_trialKeys.mp hkey).1, experiment.repeats_pos⟩
  have hfirst : ∀ key ∈ trialKeys dataset.caseIds experiment.repeats,
      toLex ((ofLex key).1, 0) ∈ trialKeys dataset.caseIds experiment.repeats := by
    intro key hkey
    exact mem_trialKeys.mpr ⟨(mem_trialKeys.mp hkey).1, experiment.repeats_pos⟩
  refine ⟨_, t', _, _, hrun', g.aggregateResults_eq_ok stamp, g'.aggregateResults_eq_ok stamp',
    forall₂_comparisons_repeated experiment.repeats_pos hrepeats
      (fun c => g.baseline (toLex (c, 0))) (fun c => g.candidate (toLex (c, 0))) ?_ ?_ ?_ ?_⟩
  · intro key h
    exact (hran _ (hfirst key h)).1.same hproviders hevaluators (hran key h).1 rfl
  · intro key h
    exact (hran _ (hkey key h)).1.same hproviders hevaluators (hran' key h).1 rfl
  · intro key h
    exact (hran _ (hfirst key h)).2.same hproviders hevaluators (hran key h).2 rfl
  · intro key h
    exact (hran _ (hkey key h)).2.same hproviders hevaluators (hran' key h).2 rfl

/-- `ToolSuccess` reads the reported tool calls. -/
theorem toolSuccess_readsContent (evaluator : ToolSuccess) :
    evaluator.toEvaluator.ReadsContent := by
  intro run run' reference hcontent
  have hcalls : run.toolCalls = run'.toolCalls := congrArg Content.toolCalls hcontent
  show evaluator.evaluate run reference = evaluator.evaluate run' reference
  unfold ToolSuccess.evaluate
  rw [hcalls]

/-- The provider map of the mock backend, for versions of one provider. -/
def mockedOllama : Dict ProviderName ProviderClient := ⟨[(.ollama, mockProvider)], by simp⟩

/-- The block of a version without one: every prompt is answered with the empty text. -/
def MockSpec.empty : MockSpec where
  responses := []
  default := ""
  latencyMs := 0
  failOn := []
  retrieval := []
  retrievalDefault := []
  toolCalls := []
  toolCallsDefault := []
  latencyMs_nonneg := nonneg_zero

/-- A version without a block runs on the mock backend. -/
theorem fromConfig_of_no_block {parameters : List (String × Json)}
    (h : parameters.lookup "mock" = none) :
    MockSpec.fromConfig parameters = .ok MockSpec.empty := by
  unfold MockSpec.fromConfig
  rw [h]
  rfl

/-- The offline versions on the mock backend. -/
theorem prepared_mocked : Prepared (offlineExperiment 1 one_le_once) (offlineDataset 0)
    (offlineVersion 0 inputTemplate) (offlineVersion 1 inputTemplate) mockedOllama
    [ToolSuccess.default.toEvaluator] := by
  have hempty : ∀ v : SystemVersion, v.parameters = [] →
      MockSpec.fromConfig v.parameters = .ok MockSpec.empty :=
    fun v hv => fromConfig_of_no_block (by rw [hv]; rfl)
  have hprovided : ∀ v : SystemVersion, v.provider = .ollama → v.parameters = [] → ∃ provider,
      mockedOllama.get? v.provider = some provider ∧
      (∀ e, provider.checkConfig v = .error e → e.kind = .providerError) ∧
      ∀ k prompt e, provider.reply k prompt v = .error e → e.kind = .providerError := by
    intro v hv hparameters
    refine ⟨mockProvider, ?_, ?_, ?_⟩
    · rw [hv]
      rfl
    · intro e he
      have hcheck : (MockSpec.fromConfig v.parameters).map (fun _ => ()) = .error e := he
      rw [hempty v hparameters] at hcheck
      cases hcheck
    · intro k prompt e he
      have hreply : mockComplete prompt v = .error e := he
      rw [mockComplete, hempty v hparameters, ExceptRules.ok_bind,
        if_neg (show prompt ∉ MockSpec.empty.failOn from List.not_mem_nil)] at hreply
      cases hreply
  exact
    { dataset_id := rfl
      baseline_id := rfl
      candidate_id := rfl
      renders := by
        intro v hv
        have htemplate : v.promptTemplate = inputTemplate := by
          rcases List.mem_pair.mp hv with rfl | rfl <;> rfl
        exact fun caseInput => ⟨caseInput, htemplate ▸ renderPrompt_inputTemplate caseInput⟩
      provided := by
        intro v hv
        rcases List.mem_pair.mp hv with rfl | rfl <;> exact hprovided _ rfl rfl
      names_nodup := List.nodup_singleton _
      evaluates := by
        intro evaluator he
        rw [List.mem_singleton.mp he]
        exact toolSuccess_isOk }

/-- One case on the mock backend, with one repeat and with three. -/
theorem metrics_of_mocked_repeats :
    ∃ outcome outcome' t' result result',
      exec (runExperiment offlineEnv ((offlineExperiment 1 one_le_once).withRepeats 3 (by decide))
        (offlineDataset 0) (offlineVersion 0 inputTemplate) (offlineVersion 1 inputTemplate)
        mockedOllama [ToolSuccess.default.toEvaluator]) 0 = (.ok outcome', t') ∧
      aggregateResults (offlineExperiment 1 one_le_once) outcome ["tool_success"] (offlineStamp 0)
        = .ok result ∧
      aggregateResults ((offlineExperiment 1 one_le_once).withRepeats 3 (by decide)) outcome'
        ["tool_success"] (offlineStamp 0) = .ok result' ∧
      List.Forall₂ (RepeatedComparison 1 3) result.metrics result'.metrics := by
  have hmocked : ∀ name provider, mockedOllama.get? name = some provider →
      provider.Deterministic := by
    intro name provider hget
    have hmem := List.mem_singleton.mp ((Dict.get?_eq_some_iff _ _ _).mp hget)
    obtain rfl : provider = mockProvider := congrArg Prod.snd hmem
    exact mockProvider_deterministic
  have hreads : ∀ e ∈ [ToolSuccess.default.toEvaluator], e.ReadsContent := by
    intro e he
    rw [List.mem_singleton.mp he]
    exact toolSuccess_readsContent _
  obtain ⟨outcome, t, hrun⟩ := prepared_mocked.runExperiment_isOk offlineEnv 0
  exact ⟨outcome, metrics_do_not_depend_on_repeats hmocked hreads hrun 3 (by decide) offlineEnv 0
    (offlineStamp 0) (offlineStamp 0)⟩

end EvalOps
