import EvalOps.Execution
import EvalOps.Lib.Lists

/-!
# `EvalOps.Proofs.Runner`: what a run of the experiment produces

A `Trial` is a run with its case result. `Records` says which trial the runner stores for a case
and a repeat of a version. A `Grid` has one such trial for each version, case and repeat, with
distinct run ids, and `runExperiment_grid` states that every outcome of `runExperiment` is the
outcome of a grid.

The lemmas go up one loop of the runner at a time: `exec_execute` for one call,
`exec_runRepeat` for one repeat, then the repeats, the cases and the versions.
-/

set_option autoImplicit false

namespace EvalOps

open Effect

/-- A run with its case result. -/
abbrev Trial := EvaluationRun × CaseResult

/-! ### One provider call -/

/-- One call: the check of the version, then the reply to the `k`-th call. -/
theorem exec_complete (provider : ProviderClient) (prompt : String) (config : SystemVersion)
    (k : ℕ) :
    exec (provider.complete prompt config) k
      = (do provider.checkConfig config; provider.reply k prompt config, k + 1) := by
  unfold ProviderClient.complete
  -- The count goes up before the reply is known, so it survives a reply that raises.
  simp only [exec_bind, exec_get, exec_set, exec_lift]
  cases provider.checkConfig config <;> rfl

/-- What `_execute` makes of a reply. -/
def recorded (experiment : Experiment) (systemVersion : SystemVersion) (case : DatasetCase)
    (repeatIndex : ℕ) (stamp : Stamp) : Py ProviderResponse → Py EvaluationRun
  | .ok response =>
      .ok (successfulRun experiment systemVersion case repeatIndex response stamp)
  | .error exc =>
      if exc.kind = .providerError then
        .ok (failedRun experiment systemVersion case repeatIndex exc stamp)
      else .error exc

/-- `_execute` makes one call and records its reply. -/
theorem exec_execute (env : Environment) (experiment : Experiment)
    (systemVersion : SystemVersion) (case : DatasetCase) (repeatIndex : ℕ) (prompt : String)
    (provider : ProviderClient) (k : ℕ) :
    exec (execute env experiment systemVersion case repeatIndex prompt provider) k
      = (recorded experiment systemVersion case repeatIndex (env.runStamp k)
          (do provider.checkConfig systemVersion; provider.reply k prompt systemVersion),
          k + 1) := by
  unfold execute
  simp only [exec_bind, exec_get, exec_tryCatch, exec_complete]
  cases hreply : (do provider.checkConfig systemVersion; provider.reply k prompt systemVersion)
    with
  | ok response => rfl
  -- Only a `ProviderError` is caught.
  | error exc =>
      simp only [recorded]
      split <;> rfl

/-- The trial that the `k`-th call of the run yields. -/
def trialAt (env : Environment) (experiment : Experiment) (systemVersion : SystemVersion)
    (provider : ProviderClient) (evaluators : List Evaluator) (case : DatasetCase)
    (prompt : String) (repeatIndex k : ℕ) : Py Trial := do
  let run ← recorded experiment systemVersion case repeatIndex (env.runStamp k)
    (do provider.checkConfig systemVersion; provider.reply k prompt systemVersion)
  let caseResult ← score run case evaluators (env.caseResultStamp k)
  pure (run, caseResult)

/-- One repeat makes one call. -/
theorem exec_runRepeat (env : Environment) (experiment : Experiment)
    (systemVersion : SystemVersion) (provider : ProviderClient) (evaluators : List Evaluator)
    (case : DatasetCase) (prompt : String) (repeatIndex k : ℕ) :
    exec (runRepeat env experiment systemVersion provider evaluators case prompt repeatIndex) k
      = (trialAt env experiment systemVersion provider evaluators case prompt repeatIndex k,
          k + 1) := by
  unfold runRepeat trialAt
  simp only [exec_bind, exec_get, exec_execute]
  cases recorded experiment systemVersion case repeatIndex (env.runStamp k)
      (do provider.checkConfig systemVersion; provider.reply k prompt systemVersion) with
  | error exc => rfl
  | ok run =>
      simp only [exec_lift, ExceptRules.ok_bind]
      cases score run case evaluators (env.caseResultStamp k) <;> rfl

/-! ### The trials of one version -/

/-- The trial that the runner stores for a case and a repeat of a version. -/
structure Records (experiment : Experiment) (names : List String) (versionId : EntityId)
    (key : PairKey) (t : Trial) : Prop where
  experimentId : t.1.experimentId = experiment.id
  versionId : t.1.systemVersionId = versionId
  caseId : t.1.caseId = (ofLex key).1
  repeatIndex : t.1.repeatIndex = (ofLex key).2
  runId : t.2.runId = t.1.id
  failed : t.1.error.isSome → t.1.output = "" ∧ t.1.usage = UsageMetrics.zero ∧ t.2.scores = []
  scored : t.1.error = none → t.2.scores.map (fun s => s.evaluator.text) = names

/-- A returned trial records its job, under the stamp of its call. -/
theorem trialAt_eq_ok {env : Environment} {experiment : Experiment}
    {systemVersion : SystemVersion} {provider : ProviderClient} {evaluators : List Evaluator}
    {case : DatasetCase} {prompt : String} {repeatIndex k : ℕ} {t : Trial}
    (h : trialAt env experiment systemVersion provider evaluators case prompt repeatIndex k
      = .ok t) :
    Records experiment (evaluators.map Evaluator.name) systemVersion.id
        (toLex (case.id, repeatIndex)) t ∧
      t.1.id = (env.runStamp k).id := by
  obtain ⟨run, hrun, h⟩ := ExceptRules.bind_eq_ok.mp h
  obtain ⟨caseResult, hscore, h⟩ := ExceptRules.bind_eq_ok.mp h
  cases h
  -- The run is the record of a response or of a provider error.
  have hshape : run.experimentId = experiment.id ∧ run.systemVersionId = systemVersion.id ∧
      run.caseId = case.id ∧ run.repeatIndex = repeatIndex ∧ run.id = (env.runStamp k).id ∧
      (run.error.isSome → run.output = "" ∧ run.usage = UsageMetrics.zero) := by
    unfold recorded at hrun
    split at hrun
    · cases hrun
      simp [successfulRun]
    · split at hrun
      · cases hrun
        simp [failedRun]
      · exact nomatch hrun
  obtain ⟨hexperiment, hversion, hcase, hrepeat, hid, hfailed⟩ := hshape
  -- A failed run is not scored, and any other run is scored by every evaluator.
  unfold score at hscore
  split at hscore
  · rename_i herror
    obtain ⟨hrunId, hscores⟩ := CaseResult.make_eq_ok hscore
    refine ⟨⟨hexperiment, hversion, hcase, hrepeat, hrunId, ?_, ?_⟩, hid⟩
    · exact fun he => ⟨(hfailed he).1, (hfailed he).2, hscores⟩
    · intro hnone
      rw [show run.error = none from hnone] at herror
      exact nomatch herror
  · rename_i herror
    obtain ⟨scores, hmapM, hmake⟩ := ExceptRules.bind_eq_ok.mp hscore
    obtain ⟨hrunId, hscores⟩ := CaseResult.make_eq_ok hmake
    refine ⟨⟨hexperiment, hversion, hcase, hrepeat, hrunId, ?_, ?_⟩, hid⟩
    · exact fun he => absurd he herror
    · intro _
      have hnames := (ExceptRules.mapM_eq_ok_iff.mp hmapM).imp
        fun e s hs => (e.evaluate_name run case s hs).symm
      rw [hscores]
      exact (ListRules.map_eq_map_of_forall₂ hnames).symm

/-- The trial is one that the runner made for a case and a repeat of a version, at some call. -/
def Ran (env : Environment) (experiment : Experiment) (dataset : Dataset)
    (providers : Dict ProviderName ProviderClient) (evaluators : List Evaluator)
    (systemVersion : SystemVersion) (key : PairKey) (t : Trial) : Prop :=
  ∃ provider case prompt k, providers.get? systemVersion.provider = some provider ∧
    case ∈ dataset.cases ∧ case.id = (ofLex key).1 ∧
    renderPrompt systemVersion.promptTemplate.text case.input.text = .ok prompt ∧
    trialAt env experiment systemVersion provider evaluators case prompt (ofLex key).2 k = .ok t

theorem Ran.records {env : Environment} {experiment : Experiment} {dataset : Dataset}
    {providers : Dict ProviderName ProviderClient} {evaluators : List Evaluator}
    {systemVersion : SystemVersion} {key : PairKey} {t : Trial}
    (h : Ran env experiment dataset providers evaluators systemVersion key t) :
    Records experiment (evaluators.map Evaluator.name) systemVersion.id key t := by
  obtain ⟨provider, case, prompt, k, _, _, hcase, _, htrial⟩ := h
  have hrecords := (trialAt_eq_ok htrial).1
  rwa [hcase] at hrecords

/-- The run ids of the trials are those of the calls from `s` to `t`. -/
def Stamped (env : Environment) (s t : ℕ) (ts : List Trial) : Prop :=
  t = s + ts.length ∧
    ts.map (fun t => t.1.id) = (List.range' s ts.length).map fun k => (env.runStamp k).id

theorem stamped_nil (env : Environment) (s : ℕ) : Stamped env s s [] := ⟨rfl, rfl⟩

/-- Consecutive calls have consecutive stamps. -/
theorem Stamped.append {env : Environment} {s t u : ℕ} {ts us : List Trial}
    (hts : Stamped env s t ts) (hus : Stamped env t u us) : Stamped env s u (ts ++ us) := by
  obtain ⟨rfl, hts⟩ := hts
  obtain ⟨rfl, hus⟩ := hus
  constructor
  · rw [List.length_append]
    omega
  · rw [List.map_append, hts, hus, List.length_append, ← List.range'_append_1, List.map_append]

/-- The calls of a run have distinct run ids. -/
theorem Stamped.nodup {env : Environment} {s t : ℕ} {ts : List Trial}
    (h : Stamped env s t ts) : (ts.map fun t => t.1.id).Nodup := by
  rw [h.2]
  exact List.Nodup.map env.runStamp_injective List.nodup_range'

/-- The trials of one case. -/
theorem exec_runCase_eq_ok {env : Environment} {experiment : Experiment}
    {systemVersion : SystemVersion} {provider : ProviderClient} {evaluators : List Evaluator}
    {case : DatasetCase} {s t : ℕ} {ts : List Trial}
    (h : exec (runCase env experiment systemVersion provider evaluators case) s = (.ok ts, t)) :
    ∃ prompt, renderPrompt systemVersion.promptTemplate.text case.input.text = .ok prompt ∧
      List.Forall₂ (fun r trial => ∃ k, trialAt env experiment systemVersion provider evaluators
        case prompt r k = .ok trial) (List.range experiment.repeats) ts ∧
      Stamped env s t ts := by
  obtain ⟨prompt, hprompt, hloop⟩ := exec_lift_bind_eq_ok.mp h
  have hrepeat : ∀ r s trial t, exec (runRepeat env experiment systemVersion provider evaluators
      case prompt r) s = (.ok trial, t) →
      trialAt env experiment systemVersion provider evaluators case prompt r s = .ok trial ∧
        t = s + 1 := by
    intro r s trial t h
    rw [exec_runRepeat] at h
    exact ⟨(Prod.mk.inj h).1, (Prod.mk.inj h).2.symm⟩
  refine ⟨prompt, hprompt, ?_, ?_⟩
  · exact mapM_forall₂ (fun r s trial t h => ⟨s, (hrepeat r s trial t h).1⟩) hloop
  · -- The stamps of the calls are consecutive, because each repeat makes one call.
    refine mapM_invariant (I := Stamped env) (stamped_nil env) ?_
      (fun s t u _ _ h₁ h₂ => h₁.append h₂) hloop
    intro r s trial t h
    obtain ⟨htrial, rfl⟩ := hrepeat r s trial t h
    exact ⟨rfl, by simp [(trialAt_eq_ok htrial).2]⟩

/-- The provider that a version is dispatched to. -/
theorem lookupProvider_eq_ok {providers : Dict ProviderName ProviderClient} {name : ProviderName}
    {provider : ProviderClient} (h : lookupProvider providers name = .ok provider) :
    providers.get? name = some provider := by
  unfold lookupProvider at h
  split at h
  · rename_i hget
    cases h
    exact hget
  · exact nomatch h

/-- The case ids of a dataset, in order. -/
def Dataset.caseIds (dataset : Dataset) : List EntityId := dataset.cases.map DatasetCase.id

/-- The keys of one version's trials, in execution order. -/
def trialKeys (caseIds : List EntityId) (repeats : ℕ) : List PairKey :=
  caseIds.flatMap fun caseId => (List.range repeats).map fun r => toLex (caseId, r)

/-- The trials of one version. -/
theorem exec_runVersion_eq_ok {env : Environment} {experiment : Experiment} {dataset : Dataset}
    {providers : Dict ProviderName ProviderClient} {evaluators : List Evaluator}
    {systemVersion : SystemVersion} {s t : ℕ} {ts : List Trial}
    (h : exec (runVersion env experiment dataset providers evaluators systemVersion) s
      = (.ok ts, t)) :
    List.Forall₂ (Ran env experiment dataset providers evaluators systemVersion)
        (trialKeys dataset.caseIds experiment.repeats) ts ∧
      Stamped env s t ts := by
  obtain ⟨provider, hprovider, h⟩ := exec_lift_bind_eq_ok.mp h
  obtain ⟨perCase, s', hloop, h⟩ := exec_bind_eq_ok.mp h
  cases h
  constructor
  · unfold trialKeys Dataset.caseIds
    rw [List.flatMap_map]
    apply ListRules.forall₂_flatMap_flatten
    have hcases : List.Forall₂ (fun case ts => ∃ s t,
        exec (runCase env experiment systemVersion provider evaluators case) s = (.ok ts, t))
        dataset.cases perCase := mapM_forall₂ (fun _ s _ t hcase => ⟨s, t, hcase⟩) hloop
    refine (ListRules.forall₂_and_mem hcases).imp ?_
    rintro case ts ⟨hmem, s, t, hcase⟩
    obtain ⟨prompt, hprompt, htrials, _⟩ := exec_runCase_eq_ok hcase
    rw [List.forall₂_map_left_iff]
    refine htrials.imp ?_
    rintro r t ⟨k, htrial⟩
    exact ⟨provider, case, prompt, k, lookupProvider_eq_ok hprovider, hmem, rfl, hprompt, htrial⟩
  · refine mapM_invariant (I := fun s t (tss : List (List Trial)) => Stamped env s t tss.flatten)
      (stamped_nil env) ?_ ?_ hloop
    · intro case s t ts hcase
      obtain ⟨_, _, _, hstamped⟩ := exec_runCase_eq_ok hcase
      rw [List.flatten_singleton]
      exact hstamped
    · intro s t u tss uss hts hus
      rw [List.flatten_append]
      exact hts.append hus

/-! ### The grid of a run -/

/-- The checks of `_preflight` that passed. -/
theorem preflight_eq_ok {experiment : Experiment} {dataset : Dataset}
    {baselineVersion candidateVersion : SystemVersion}
    {providers : Dict ProviderName ProviderClient} {evaluators : List Evaluator}
    (h : preflight experiment dataset baselineVersion candidateVersion providers evaluators
      = .ok ()) :
    baselineVersion.id = experiment.baselineVersionId ∧
      candidateVersion.id = experiment.candidateVersionId ∧
      providers.contains baselineVersion.provider ∧
      providers.contains candidateVersion.provider ∧
      (evaluators.map Evaluator.name).Nodup := by
  unfold preflight requireId at h
  simp only [ExceptRules.pure_eq_ok, ExceptRules.throw_eq_error, ExceptRules.bind_eq_ok,
    ExceptRules.error_bind, ExceptRules.guard_then_eq_ok, not_not, ne_eq, and_true,
    Sorting.sorted_eq_nil_iff, List.map_eq_nil_iff, List.filter_eq_nil_iff, List.mem_dedup,
    List.dedup_eq_nil, exists_const] at h
  obtain ⟨_, hbaseline, hcandidate, hmissing, hduplicates⟩ := h
  refine ⟨hbaseline, hcandidate, ?_, ?_, ?_⟩
  · simpa using hmissing baselineVersion.provider (by simp)
  · simpa using hmissing candidateVersion.provider (by simp)
  · -- The preflight lists the names that occur twice, and the list is empty.
    rw [List.nodup_iff_count_le_one]
    intro name
    by_cases hname : name ∈ evaluators.map Evaluator.name
    · simpa using hduplicates name hname
    · rw [List.count_eq_zero_of_not_mem hname]
      exact Nat.zero_le 1

theorem mem_trialKeys {caseIds : List EntityId} {repeats : ℕ} {key : PairKey} :
    key ∈ trialKeys caseIds repeats ↔ (ofLex key).1 ∈ caseIds ∧ (ofLex key).2 < repeats := by
  unfold trialKeys
  simp only [List.mem_flatMap, List.mem_map, List.mem_range]
  constructor
  · rintro ⟨c, hc, r, hr, rfl⟩
    exact ⟨hc, hr⟩
  · rintro ⟨hc, hr⟩
    exact ⟨_, hc, _, hr, rfl⟩

/-- Distinct cases have distinct keys. -/
theorem nodup_trialKeys {caseIds : List EntityId} (h : caseIds.Nodup) (repeats : ℕ) :
    (trialKeys caseIds repeats).Nodup := by
  -- The nested loops run over a product.
  have hproduct : trialKeys caseIds repeats = (caseIds ×ˢ List.range repeats).map toLex := by
    simp [trialKeys, List.product, SProd.sprod, List.map_flatMap, Function.comp_def]
  rw [hproduct]
  exact (h.product List.nodup_range).map toLex.injective

/-- There is a key once there are a case and a repeat. -/
theorem trialKeys_ne_nil {caseIds : List EntityId} {repeats : ℕ} (hcases : caseIds ≠ [])
    (hrepeats : 1 ≤ repeats) : trialKeys caseIds repeats ≠ [] := by
  obtain ⟨c, hc⟩ := List.exists_mem_of_ne_nil caseIds hcases
  exact List.ne_nil_of_mem
    (mem_trialKeys.mpr ⟨hc, hrepeats⟩ : toLex (c, 0) ∈ trialKeys caseIds repeats)

/-- One trial for each version, case and repeat of an experiment, with distinct run ids. -/
structure Grid (experiment : Experiment) (caseIds : List EntityId) (names : List String) where
  baseline : PairKey → Trial
  candidate : PairKey → Trial
  caseIds_ne_nil : caseIds ≠ []
  caseIds_nodup : caseIds.Nodup
  names_nodup : names.Nodup
  baseline_records : ∀ key ∈ trialKeys caseIds experiment.repeats,
    Records experiment names experiment.baselineVersionId key (baseline key)
  candidate_records : ∀ key ∈ trialKeys caseIds experiment.repeats,
    Records experiment names experiment.candidateVersionId key (candidate key)
  ids_nodup : (((trialKeys caseIds experiment.repeats).map baseline ++
    (trialKeys caseIds experiment.repeats).map candidate).map fun t => t.1.id).Nodup

namespace Grid

variable {experiment : Experiment} {caseIds : List EntityId} {names : List String}

/-- The keys of each version's trials. -/
def keys (_ : Grid experiment caseIds names) : List PairKey :=
  trialKeys caseIds experiment.repeats

/-- The trials in execution order. -/
def trials (g : Grid experiment caseIds names) : List Trial :=
  g.keys.map g.baseline ++ g.keys.map g.candidate

/-- The outcome whose runs are the trials. -/
def outcome (g : Grid experiment caseIds names) : RunOutcome :=
  ⟨g.trials.map Prod.fst, g.trials.map Prod.snd⟩

theorem nodup_keys (g : Grid experiment caseIds names) : g.keys.Nodup :=
  nodup_trialKeys g.caseIds_nodup experiment.repeats

theorem keys_ne_nil (g : Grid experiment caseIds names) : g.keys ≠ [] :=
  trialKeys_ne_nil g.caseIds_ne_nil experiment.repeats_pos

end Grid

/-- Every outcome of the runner is the outcome of a grid of trials that the runner made. -/
theorem runExperiment_grid {env : Environment} {experiment : Experiment} {dataset : Dataset}
    {baselineVersion candidateVersion : SystemVersion}
    {providers : Dict ProviderName ProviderClient} {evaluators : List Evaluator} {s t : ℕ}
    {outcome : RunOutcome}
    (h : exec (runExperiment env experiment dataset baselineVersion candidateVersion providers
      evaluators) s = (.ok outcome, t)) :
    ∃ g : Grid experiment dataset.caseIds (evaluators.map Evaluator.name),
      outcome = g.outcome ∧ ∀ key ∈ g.keys,
        Ran env experiment dataset providers evaluators baselineVersion key (g.baseline key) ∧
        Ran env experiment dataset providers evaluators candidateVersion key (g.candidate key) := by
  obtain ⟨_, hpreflight, h⟩ := exec_lift_bind_eq_ok.mp h
  obtain ⟨hbaseline, hcandidate, _, _, hnames⟩ := preflight_eq_ok hpreflight
  obtain ⟨perVersion, u, hloop, h⟩ := exec_bind_eq_ok.mp h
  cases h
  -- The loop over the two versions, unrolled.
  obtain ⟨bs, s₁, rest₁, hbs, hloop₁, rfl⟩ := exec_mapM_cons_eq_ok.mp hloop
  obtain ⟨cs, s₂, rest₂, hcs, hloop₂, rfl⟩ := exec_mapM_cons_eq_ok.mp hloop₁
  cases hloop₂
  obtain ⟨hbs, hstampedB⟩ := exec_runVersion_eq_ok hbs
  obtain ⟨hcs, hstampedC⟩ := exec_runVersion_eq_ok hcs
  have hcaseIds : dataset.caseIds ≠ [] := by
    simpa [Dataset.caseIds] using dataset.cases_ne_nil
  have hnodup := nodup_trialKeys dataset.cases_nodup experiment.repeats
  have hne := trialKeys_ne_nil hcaseIds experiment.repeats_pos
  have : Nonempty Trial := by
    obtain ⟨t, _⟩ := List.exists_mem_of_ne_nil bs fun hnil =>
      hne (List.forall₂_nil_right_iff.mp (hnil ▸ hbs))
    exact ⟨t⟩
  -- The keys are distinct, so the trials of a version are a function of the key.
  obtain ⟨b, rfl, hb⟩ := ListRules.exists_map_of_forall₂ hbs hnodup
  obtain ⟨c, rfl, hc⟩ := ListRules.exists_map_of_forall₂ hcs hnodup
  refine ⟨⟨b, c, hcaseIds, dataset.cases_nodup, hnames, fun key hkey => ?_, fun key hkey => ?_,
    (hstampedB.append hstampedC).nodup⟩, ?_, fun key hkey => ⟨hb key hkey, hc key hkey⟩⟩
  · exact hbaseline ▸ (hb key hkey).records
  · exact hcandidate ▸ (hc key hkey).records
  · simp [Grid.outcome, Grid.trials, Grid.keys, Dataset.caseIds]

/-- The outcome is one that `run_experiment` returns, for some versions, providers and
evaluators of these names, after some earlier calls. -/
def Produced (experiment : Experiment) (dataset : Dataset) (names : List String)
    (outcome : RunOutcome) : Prop :=
  ∃ env baselineVersion candidateVersion providers evaluators s t,
    exec (runExperiment env experiment dataset baselineVersion candidateVersion providers
      evaluators) s = (.ok outcome, t) ∧ evaluators.map Evaluator.name = names

theorem Produced.grid {experiment : Experiment} {dataset : Dataset} {names : List String}
    {outcome : RunOutcome} (h : Produced experiment dataset names outcome) :
    ∃ g : Grid experiment dataset.caseIds names, outcome = g.outcome := by
  obtain ⟨_, _, _, _, _, _, _, hrun, rfl⟩ := h
  obtain ⟨g, hg, _⟩ := runExperiment_grid hrun
  exact ⟨g, hg⟩

end EvalOps
