import EvalOps.Lib.Raises
import EvalOps.Proofs.BuiltEvaluators
import EvalOps.Proofs.ConfigFile

/-!
# `EvalOps.Proofs.LoadedPlans`: running a plan that was loaded

`RunsAs` names the parts of the `RunPlan` with the content of a loaded plan. Such a plan passes its
preflight, its evaluators find the labels that they need, and its policy gates produced metrics
only. So what is left of `ConfigSafe` is the templates and what `complete` checks of the versions:
`loaded_plan_errors_first_iff`. Under a real backend that check was made by the loader.
-/

set_option autoImplicit false

namespace EvalOps

open Effect

/-! ### The parts of the plan that runs -/

/-- A loaded plan and the `RunPlan` with its content. -/
structure RunsAs (text : TextEnvironment) (plan : LoadedPlan) (run : RunPlan) : Prop where
  experiment : run.experiment = plan.experiment
  providers : run.providers = plan.providers
  dataset : plan.dataset.toDataset plan.datasetStamp = some run.dataset
  baseline : plan.baseline.toSystemVersion = some run.baseline
  candidate : plan.candidate.toSystemVersion = some run.candidate
  evaluators : List.Forall₂ (fun e evaluator => e.toEvaluator text = some evaluator)
    plan.evaluators run.evaluators
  policy : plan.toPolicy = some run.policy

theorem runsAs_of_toRunPlan {text : TextEnvironment} {plan : LoadedPlan} {run : RunPlan}
    (h : plan.toRunPlan text = some run) : RunsAs text plan run := by
  obtain ⟨dataset, hdataset, h⟩ := Option.bind_eq_some_iff.mp h
  obtain ⟨baseline, hbaseline, h⟩ := Option.bind_eq_some_iff.mp h
  obtain ⟨candidate, hcandidate, h⟩ := Option.bind_eq_some_iff.mp h
  obtain ⟨evaluators, hevaluators, h⟩ := Option.bind_eq_some_iff.mp h
  obtain ⟨policy, hpolicy, h⟩ := Option.bind_eq_some_iff.mp h
  cases h
  exact
    { experiment := rfl, providers := rfl, dataset := hdataset, baseline := hbaseline
      candidate := hcandidate, evaluators := ListRules.mapM_eq_some_iff.mp hevaluators
      policy := hpolicy }

/-- The version that runs has the identity and the provider of the loaded one. -/
theorem toSystemVersion_eq_some {version : LoadedVersion} {v : SystemVersion}
    (h : version.toSystemVersion = some v) :
    v.id = version.id ∧ v.provider = version.provider ∧
      v.promptTemplate = version.promptTemplate ∧
      Yaml.toJsonFields version.parameters = some v.parameters := by
  obtain ⟨parameters, hparameters, rfl⟩ := Option.map_eq_some_iff.mp h
  exact ⟨rfl, rfl, rfl, hparameters⟩

/-- The call that is expected has the name of the loaded one, and arguments when it had some. -/
theorem toCall_eq_some {call : LoadedToolCall} {expected : ExpectedToolCall}
    (h : call.toCall = some expected) :
    expected.arguments.isSome = call.arguments.isSome := by
  unfold LoadedToolCall.toCall at h
  cases harguments : call.arguments with
  | none =>
      rw [harguments] at h
      cases h
      rfl
  | some fields =>
      rw [harguments] at h
      obtain ⟨_, _, rfl⟩ := Option.map_eq_some_iff.mp h
      rfl

theorem toCase_eq_some {loaded : LoadedCase} {case : DatasetCase}
    (h : loaded.toCase = some case) :
    case.expectedOutput = loaded.expectedOutput ∧
      case.expectedRetrievalIds = loaded.expectedRetrievalIds ∧
      List.Forall₂ (fun call expected => call.toCall = some expected) loaded.expectedToolCalls
        case.expectedToolCalls := by
  obtain ⟨calls, hcalls, rfl⟩ := Option.map_eq_some_iff.mp h
  exact ⟨rfl, rfl, ListRules.mapM_eq_some_iff.mp hcalls⟩

theorem toDataset_eq_some {loaded : LoadedDataset} {stamp : Stamp} {dataset : Dataset}
    (h : loaded.toDataset stamp = some dataset) :
    dataset.id = stamp.id ∧
      List.Forall₂ (fun loaded case => loaded.toCase = some case) loaded.cases dataset.cases := by
  obtain ⟨cases', hcases, h⟩ := Option.bind_eq_some_iff.mp h
  have hcases := ListRules.mapM_eq_some_iff.mp hcases
  unfold Dataset.init at h
  simp only [requireNonEmpty_text, ExceptRules.ok_bind] at h
  split at h
  · cases h
  · split at h
    · cases h
    · split at h
      · cases h
        exact ⟨rfl, hcases⟩
      · cases h

/-- The thresholds of the policy that gates are among the loaded ones. -/
theorem toReleasePolicy_eq_some {loaded : LoadedPolicy} {policy : ReleasePolicy}
    (h : loaded.toReleasePolicy = some policy) :
    ∀ metric ∈ policy.thresholds.keys, metric ∈ loaded.thresholds.map Prod.fst := by
  obtain ⟨thresholds, hthresholds, h⟩ := Option.bind_eq_some_iff.mp h
  have hkeys : thresholds.map Prod.fst = loaded.thresholds.map Prod.fst := by
    refine (ListRules.map_eq_map_of_forall₂
      ((ListRules.mapM_eq_some_iff.mp hthresholds).imp fun e e' he => ?_)).symm
    obtain ⟨_, _, rfl⟩ := Option.map_eq_some_iff.mp he
    rfl
  unfold ReleasePolicy.init at h
  simp only [requireNonEmpty_text, requireNat_natCast, ExceptRules.ok_bind] at h
  split at h
  · cases h
  · cases h
    intro metric hmetric
    exact hkeys ▸ Dict.mem_keys_ofList hmetric

namespace RunsAs

variable {text : TextEnvironment} {plan : LoadedPlan} {run : RunPlan} (h : RunsAs text plan run)

include h

theorem map_name : run.evaluators.map Evaluator.name = plan.evaluators.map BuiltEvaluator.name :=
  (ListRules.map_eq_map_of_forall₂ (h.evaluators.imp fun _ _ he =>
    (toEvaluator_eq_some he).1.symm)).symm

/-- Each evaluator that runs is one that was built. -/
theorem exists_built {evaluator : Evaluator} (he : evaluator ∈ run.evaluators) :
    ∃ e ∈ plan.evaluators, e.toEvaluator text = some evaluator := by
  obtain ⟨e, hmem, hbuilt⟩ := ListRules.exists_of_forall₂_of_mem h.evaluators.flip he
  exact ⟨e, hmem, hbuilt⟩

/-- Each case has the labels that the evaluators need. -/
theorem labelsFor (hplan : plan.Consistent) {e : BuiltEvaluator} (he : e ∈ plan.evaluators)
    {case : DatasetCase} (hcase : case ∈ run.dataset.cases) : LabelsFor e case := by
  obtain ⟨loaded, hloaded, hsame⟩ :=
    ListRules.exists_of_forall₂_of_mem (toDataset_eq_some h.dataset).2.flip hcase
  obtain ⟨hreference, hids, hcalls⟩ := toCase_eq_some hsame
  exact
    { reference := fun hneeds => hreference ▸ hplan.references e he hneeds loaded hloaded
      retrievalIds := fun hneeds => hids ▸ hplan.retrievalIds e he hneeds loaded hloaded
      toolCalls := fun hneeds hnil => by
        rw [hnil, List.forall₂_nil_right_iff] at hcalls
        exact hplan.toolCalls e he hneeds loaded hloaded hcalls
      toolArguments := fun hneeds hnil => by
        obtain ⟨call, hcall, harguments⟩ := hplan.toolArguments e he hneeds loaded hloaded
        obtain ⟨expected, hexpected, hsame⟩ := ListRules.exists_of_forall₂_of_mem hcalls hcall
        refine List.not_mem_nil (a := expected) (hnil ▸ List.mem_filter.mpr ⟨hexpected, ?_⟩)
        rw [toCall_eq_some hsame]
        exact harguments }

/-- The evaluators score every run of every case with a share. -/
theorem scoresShare (hplan : plan.Consistent) {evaluator : Evaluator}
    (he : evaluator ∈ run.evaluators) {case : DatasetCase} (hcase : case ∈ run.dataset.cases)
    (r : EvaluationRun) : ScoresShare evaluator.name (evaluator.evaluate r case) := by
  obtain ⟨e, hmem, hbuilt⟩ := h.exists_built he
  obtain ⟨hname, hevaluate⟩ := toEvaluator_eq_some hbuilt
  rw [hname]
  exact scoresShare_evaluate hevaluate (h.labelsFor hplan hmem hcase)

theorem policyProduced (hplan : plan.Consistent) : run.PolicyProduced := by
  intro policy hpolicy metric hmetric
  have hread := h.policy
  unfold LoadedPlan.toPolicy at hread
  cases hloaded : plan.policy with
  | none =>
      rw [hloaded, hpolicy] at hread
      cases hread
  | some loaded =>
      rw [hloaded, hpolicy] at hread
      obtain ⟨policy', hsome, heq⟩ := Option.map_eq_some_iff.mp hread
      obtain rfl : policy' = policy := Option.some.inj heq
      obtain ⟨e, he, rfl⟩ := List.mem_map.mp (toReleasePolicy_eq_some hsome metric hmetric)
      rw [h.map_name]
      exact (hplan.thresholds loaded hloaded e he).1

/-- The provider of each version is in the map. -/
theorem contains_provider (hplan : plan.Consistent) {v : SystemVersion}
    (hv : v ∈ [run.baseline, run.candidate]) :
    run.providers.contains v.provider = true := by
  rw [Dict.contains_iff, h.providers]
  rcases List.mem_pair.mp hv with rfl | rfl
  · rw [(toSystemVersion_eq_some h.baseline).2.1]
    exact hplan.provided _ List.mem_cons_self
  · rw [(toSystemVersion_eq_some h.candidate).2.1]
    exact hplan.provided _ (by simp)

/-- The preflight of the plan passes. -/
theorem preflight_eq_ok (hplan : plan.Consistent) :
    preflight run.experiment run.dataset run.baseline run.candidate run.providers run.evaluators
      = .ok () := by
  obtain ⟨_, hdataset, hbaseline, hcandidate⟩ := hplan.links
  have hd : run.dataset.id = run.experiment.datasetId := by
    rw [(toDataset_eq_some h.dataset).1, h.experiment, hdataset]
  have hb : run.baseline.id = run.experiment.baselineVersionId := by
    rw [(toSystemVersion_eq_some h.baseline).1, h.experiment, hbaseline]
  have hc : run.candidate.id = run.experiment.candidateVersionId := by
    rw [(toSystemVersion_eq_some h.candidate).1, h.experiment, hcandidate]
  have hmissing : ([run.baseline.provider, run.candidate.provider].dedup.filter
      fun name => !run.providers.contains name) = [] := by
    rw [List.filter_eq_nil_iff]
    intro name hname
    rcases List.mem_pair.mp (List.mem_dedup.mp hname) with rfl | rfl
    · simp [h.contains_provider hplan (v := run.baseline) (by simp)]
    · simp [h.contains_provider hplan (v := run.candidate) (by simp)]
  have hduplicates : ((run.evaluators.map Evaluator.name).filter fun name =>
      1 < (run.evaluators.map Evaluator.name).count name) = [] := by
    rw [List.filter_eq_nil_iff, h.map_name]
    intro name _
    simpa using List.nodup_iff_count_le_one.mp hplan.names_nodup name
  unfold preflight requireId
  simp [hd, hb, hc, hmissing, hduplicates, Sorting.sorted]

/-- No evaluator raises a `ConfigError` on a response. -/
theorem scoringSafe (hplan : plan.Consistent) (v : SystemVersion) : run.ScoringSafe v := by
  intro case hcase r _ response stamp stamp'
  have hmake : ∀ scores, RaisesNoConfigError (CaseResult.make (successfulRun run.experiment v case
      r response stamp).id scores stamp') := fun scores =>
    CaseResult.make_raisesNoConfigError _ scores _
  unfold score
  rw [if_neg (by simp [successfulRun])]
  refine RaisesNoConfigError.bind (RaisesNoConfigError.mapM fun evaluator he e herror => ?_) hmake
  rw [(h.scoresShare hplan he hcase _).error herror]
  decide

end RunsAs

/-! ### The plan of the sample config -/

/-- The text functions, on a config without patterns. -/
def plainText : TextEnvironment := ⟨id, fun _ _ => false⟩

/-- The sample config, loaded, and the plan that runs. -/
def sampleRun (backend : ProviderBackend) : Option (LoadedPlan × RunPlan) := do
  let plan ← (loadRunPlan (sampleEnvironment backend) "evalops.yml"
    (sampleFile backend)).toOption
  let run ← plan.toRunPlan plainText
  pure (plan, run)

theorem sampleRun_eq_some {backend : ProviderBackend} {plan : LoadedPlan} {run : RunPlan}
    (h : sampleRun backend = some (plan, run)) :
    loadRunPlan (sampleEnvironment backend) "evalops.yml" (sampleFile backend) = .ok plan ∧
      plan.toRunPlan plainText = some run := by
  obtain ⟨plan', hplan, h⟩ := Option.bind_eq_some_iff.mp h
  obtain ⟨run', hrun, h⟩ := Option.bind_eq_some_iff.mp h
  cases h
  exact ⟨ExceptRules.toOption_eq_some.mp hplan, hrun⟩

/-! ### When a config error comes late -/

/-- The calls for a version can be made: what `complete` checks passes, or fails as a provider
does. -/
def RunPlan.CallsMade (plan : RunPlan) (v : SystemVersion) : Prop :=
  ∀ e, plan.checkVersion v = .error e → e.kind = .providerError

theorem RunPlan.callsSafe_of_scoringSafe {plan : RunPlan} {v : SystemVersion} {next : Prop}
    (hsafe : plan.ScoringSafe v) :
    plan.CallsSafe v next ↔
      RaisesNoConfigError (plan.checkVersion v) ∧ (plan.CallsMade v → next) := by
  unfold RunPlan.CallsSafe RunPlan.CallsMade RaisesNoConfigError
  cases plan.checkVersion v with
  | ok _ => simp [hsafe]
  | error e => simp

/-- A consistent plan raises its config errors first, exactly when the templates and the checks of
`complete` do. -/
theorem RunsAs.configErrorsFirst_iff {text : TextEnvironment} {plan : LoadedPlan} {run : RunPlan}
    (h : RunsAs text plan run) (hplan : plan.Consistent) :
    ConfigErrorsFirst (fun env rt answers => runConfig env rt (.ok (run.withAnswers answers))) ↔
      (Renders run.baseline →
        RaisesNoConfigError (run.checkVersion run.baseline) ∧ (run.CallsMade run.baseline →
          Renders run.candidate ∧ RaisesNoConfigError (run.checkVersion run.candidate))) := by
  have hfirst : ConfigErrorsFirst (fun env rt answers =>
        runConfig env rt (.ok (run.withAnswers answers))) ↔ run.ConfigSafe := by
    have hfinish : ∀ outcome : EvaluationOutcome,
        RaisesNoConfigError (pure outcome : Py EvaluationOutcome) := fun _ => Raises.pure _
    refine (EvalOps.configErrorsFirst_iff hfinish).trans
      ⟨fun h => h run rfl, fun h plan hplan => ?_⟩
    cases hplan
    exact h
  rw [hfirst]
  unfold RunPlan.ConfigSafe
  rw [forall_prop_of_true (h.preflight_eq_ok hplan),
    RunPlan.callsSafe_of_scoringSafe (h.scoringSafe hplan _),
    RunPlan.callsSafe_of_scoringSafe (h.scoringSafe hplan _)]
  have hpolicy := h.policyProduced hplan
  simp only [hpolicy, implies_true, and_true]

/-- A loaded plan ends in a `ConfigError` behind a provider call, for some answers, exactly when the
templates or the checks of `complete` say so: every other part of the plan was checked by the
loader. -/
theorem loaded_plan_errors_first_iff {env : ConfigEnvironment} {path : String}
    {file : FileContent} {plan : LoadedPlan} {text : TextEnvironment} {run : RunPlan}
    (hload : loadRunPlan env path file = .ok plan) (hrun : plan.toRunPlan text = some run) :
    ConfigErrorsFirst (fun env rt answers => runConfig env rt (.ok (run.withAnswers answers))) ↔
      (Renders run.baseline →
        RaisesNoConfigError (run.checkVersion run.baseline) ∧ (run.CallsMade run.baseline →
          Renders run.candidate ∧ RaisesNoConfigError (run.checkVersion run.candidate))) := by
  obtain ⟨_, _, _, hloaded⟩ := loaded_of_loadRunPlan hload
  exact (runsAs_of_toRunPlan hrun).configErrorsFirst_iff hloaded.consistent

/-- The sample config, for the mock backend. -/
theorem sample_errors_first : ∃ plan run, sampleRun .mock = some (plan, run) ∧
    (ConfigErrorsFirst (fun env rt answers => runConfig env rt (.ok (run.withAnswers answers))) ↔
      (Renders run.baseline →
        RaisesNoConfigError (run.checkVersion run.baseline) ∧ (run.CallsMade run.baseline →
          Renders run.candidate ∧ RaisesNoConfigError (run.checkVersion run.candidate)))) := by
  have hsome : (sampleRun .mock).isSome = true := by decide +kernel
  obtain ⟨⟨plan, run⟩, h⟩ := Option.isSome_iff_exists.mp hsome
  obtain ⟨hload, hrun⟩ := sampleRun_eq_some h
  exact ⟨plan, run, h, loaded_plan_errors_first_iff hload hrun⟩

/-! ### A real backend -/

theorem toJsonFields_eq_some {entries : YamlMapping} {fields : List (String × Json)}
    (h : Yaml.toJsonFields entries = some fields) :
    List.Forall₂ (fun e f => e.1 = f.1 ∧ e.2.toJson = some f.2) entries fields := by
  induction entries generalizing fields with
  | nil =>
      cases h
      exact List.Forall₂.nil
  | cons e entries ih =>
      obtain ⟨json, hjson, h⟩ := Option.bind_eq_some_iff.mp h
      obtain ⟨rest, hrest, h⟩ := Option.bind_eq_some_iff.mp h
      cases h
      exact List.Forall₂.cons ⟨rfl, hjson⟩ (ih hrest)

/-- The loader checks a parameter as the adapter translates it. -/
theorem generationParam_of_checkParam {supporter : String} {floatKeys intKeys : List String}
    {least : ℤ} {key : String} {value : Yaml} {json : Json} (hjson : value.toJson = some json)
    (h : checkParam supporter floatKeys intKeys least (key, value) = .ok ()) :
    ∃ param, generationParam supporter floatKeys intKeys least (key, json) = .ok param := by
  unfold checkParam at h
  unfold generationParam
  dsimp only at h ⊢
  by_cases hmock : key = "mock"
  · exact ⟨none, by rw [if_pos hmock]; rfl⟩
  · rw [if_neg hmock] at h ⊢
    split at h
    · cases h
    · rename_i hknown
      rw [if_neg hknown]
      split at h
      · rename_i hfloat
        rw [if_pos hfloat]
        -- A float parameter is an integer in range or a finite float.
        split at h
        · cases hjson
          split at h
          · cases h
          · rename_i hnonneg
            obtain ⟨x, hx, _⟩ := ExceptRules.map_eq_ok.mp h
            exact ⟨_, by
              dsimp only
              rw [if_neg hnonneg, hx]
              rfl⟩
        · rename_i x
          cases x with
          | finite x =>
              cases hjson
              split at h
              · cases h
              · rename_i hnonneg
                have hx : ¬x < 0 := by simpa [PyFloat.isNegative] using hnonneg
                exact ⟨_, if_neg hx⟩
          | inf negative => cases hjson
          | nan => cases hjson
        · cases h
      · rename_i hfloat
        rw [if_neg hfloat]
        split at h
        · cases hjson
          split at h
          · cases h
          · rename_i hleast
            exact ⟨_, if_neg hleast⟩
        · cases h

/-- Parameters that the loader accepted are translated. -/
theorem generationParams_of_validate {version : LoadedVersion} {v : SystemVersion}
    (hv : version.toSystemVersion = some v) (h : version.validateGenerationParams = .ok ()) :
    ∃ params, generationParams v.provider v.parameters = .ok params := by
  obtain ⟨_, hprovider, _, hparameters⟩ := toSystemVersion_eq_some hv
  have htranslate : ∀ (supporter : String) (floatKeys intKeys : List String) (least : ℤ),
      version.parameters.forM (checkParam supporter floatKeys intKeys least) = .ok () →
      ∃ params, v.parameters.mapM (generationParam supporter floatKeys intKeys least)
        = .ok params := by
    intro supporter floatKeys intKeys least hchecked
    refine ExceptRules.exists_mapM_eq_ok_iff.mpr fun field hfield => ?_
    obtain ⟨⟨key, value⟩, hentry, hkey, hjson⟩ :=
      ListRules.exists_of_forall₂_of_mem (toJsonFields_eq_some hparameters).flip hfield
    obtain rfl : key = field.1 := hkey
    exact generationParam_of_checkParam hjson (ExceptRules.forM_eq_ok_iff.mp hchecked _ hentry)
  unfold LoadedVersion.validateGenerationParams at h
  rw [hprovider]
  cases hname : version.provider with
  | ollama =>
      rw [hname] at h
      obtain ⟨params, hparams⟩ := htranslate _ _ _ _ h
      exact ⟨_, by simp only [generationParams, buildOptions, hparams, ExceptRules.ok_bind]; rfl⟩
  | openai =>
      rw [hname] at h
      obtain ⟨params, hparams⟩ := htranslate _ _ _ _ h
      exact ⟨_, by simp only [generationParams, cloudParams, hparams, ExceptRules.ok_bind]; rfl⟩
  | anthropic =>
      rw [hname] at h
      obtain ⟨params, hparams⟩ := htranslate _ _ _ _ h
      exact ⟨_, by simp only [generationParams, cloudParams, hparams, ExceptRules.ok_bind]; rfl⟩

/-- Under a real backend, what an adapter checks of a version was checked by the loader. -/
theorem checkAdapter_of_loaded {env : ConfigEnvironment} {root : YamlMapping}
    {backend : ProviderBackend} {plan : LoadedPlan} (h : Loaded env root backend plan)
    (hreal : backend ≠ .mock) {version : LoadedVersion}
    (hversion : version ∈ [plan.baseline, plan.candidate]) {v : SystemVersion}
    (hv : version.toSystemVersion = some v) :
    checkAdapter env.providers.world v.provider v = .ok () ∧
      ∃ baseUrl timeoutSeconds, plan.providers.get? v.provider
        = some (adapterClient env.providers v.provider baseUrl timeoutSeconds) := by
  obtain ⟨spec, hspec, hserved⟩ := readProviders_eq_ok h.providers
  obtain ⟨provider, hget, hserves⟩ := hserved version hversion
  have hprovider := (toSystemVersion_eq_some hv).2.1
  cases hserves with
  | mock hmock => exact absurd (hspec ▸ hmock) hreal
  | real baseUrl _ hvalid hkey =>
      obtain ⟨params, hparams⟩ := generationParams_of_validate hv hvalid
      refine ⟨?_, baseUrl, spec.timeoutSeconds, ?_⟩
      · unfold checkAdapter requireProvider
        rw [if_neg (not_not.mpr rfl), ExceptRules.pure_eq_ok, ExceptRules.ok_bind, hparams,
          ExceptRules.ok_bind, hprovider]
        exact hkey
      · rw [hprovider]
        exact hget

theorem RunsAs.checkVersion_eq_ok {text : TextEnvironment} {env : ConfigEnvironment}
    {root : YamlMapping} {backend : ProviderBackend} {plan : LoadedPlan} {run : RunPlan}
    (hruns : RunsAs text plan run) (h : Loaded env root backend plan) (hreal : backend ≠ .mock)
    {v : SystemVersion} (hv : v ∈ [run.baseline, run.candidate]) :
    run.checkVersion v = .ok () := by
  have hversion : ∃ version ∈ [plan.baseline, plan.candidate],
      version.toSystemVersion = some v := by
    rcases List.mem_pair.mp hv with rfl | rfl
    · exact ⟨plan.baseline, List.mem_cons_self, hruns.baseline⟩
    · exact ⟨plan.candidate, by simp, hruns.candidate⟩
  obtain ⟨version, hmem, hsome⟩ := hversion
  obtain ⟨hcheck, baseUrl, timeoutSeconds, hget⟩ := checkAdapter_of_loaded h hreal hmem hsome
  unfold RunPlan.checkVersion
  rw [hruns.providers, lookupProvider_of_get? hget, ExceptRules.ok_bind]
  exact hcheck

/-! ### The adapters -/

section

variable {world : World} {endpoint : Endpoint} {config : SystemVersion}

/-- What the request and its reply raise is no `ConfigError`. -/
theorem postJson_raisesNoConfigError (label url : String) (timeout : ℚ) :
    RaisesNoConfigError (postJson world label url timeout) := by
  have hforeign : ∀ exc : PyError, exc.isEvalOpsError = false → exc.kind ≠ .configError := by
    intro exc hexc hkind
    unfold PyError.isEvalOpsError at hexc
    rw [hkind] at hexc
    cases hexc
  unfold postJson
  dsimp only
  split
  · exact Raises.throw nofun
  · exact Raises.throw nofun
  · exact Raises.throw nofun
  · rename_i exc huncaught _
    exact Raises.throw (hforeign exc huncaught.1)
  · split
    · rename_i exc hexc
      exact Raises.ite (Raises.throw nofun)
        (Raises.throw (hforeign exc (world.loads_foreign _ _ hexc)))
    · exact Raises.pure _
    · exact Raises.throw nofun

theorem floatUsage_init_raisesNoConfigError (promptTokens completionTokens : ℤ)
    (costUsd latencyMs : PyFloat) :
    RaisesNoConfigError (FloatUsage.init promptTokens completionTokens costUsd latencyMs) := by
  unfold FloatUsage.init
  repeat' first
    | exact Raises.pure _
    | exact Raises.throw nofun
    | refine Raises.bind ?_ fun _ => ?_
    | refine Raises.ite ?_ ?_

theorem parse_raisesNoConfigError (body : List (String × Decoded)) (model : String)
    (latencyMs : ℚ) :
    RaisesNoConfigError (parseOpenai body model latencyMs) ∧
      RaisesNoConfigError (parseAnthropic body model latencyMs) ∧
      RaisesNoConfigError (parseGenerateResponse body model) := by
  have hcount : ∀ key, RaisesNoConfigError (requireCountField body key model) := by
    intro key
    unfold requireCountField
    split
    · exact Raises.ite (Raises.throw nofun) (Raises.pure _)
    · exact Raises.throw nofun
  have hduration : ∀ duration, RaisesNoConfigError (durationMs duration) := by
    intro duration
    unfold durationMs
    split
    · split
      · exact Raises.pure _
      · exact Raises.throw nofun
    · exact Raises.pure _
  have husage : ∀ (text : String) (p c : ℤ) (latency : PyFloat), RaisesNoConfigError (do
      let usage ← FloatUsage.init p c (.finite 0) latency
      pure (⟨text, usage⟩ : FloatResponse)) := fun text p c latency =>
    Raises.bind (floatUsage_init_raisesNoConfigError p c _ latency) fun _ => Raises.pure _
  refine ⟨?_, ?_, ?_⟩
  · unfold parseOpenai
    split
    · split
      · exact Raises.throw nofun
      · exact husage _ _ _ _
    · exact Raises.throw nofun
  · unfold parseAnthropic
    split
    · split
      · exact Raises.throw nofun
      · exact husage _ _ _ _
    · exact Raises.throw nofun
  · unfold parseGenerateResponse
    split
    · split
      · exact Raises.throw nofun
      · exact Raises.bind (hcount _) fun _ => Raises.bind (hcount _) fun _ =>
          Raises.bind (hduration _) fun _ => husage _ _ _ _
    · exact Raises.throw nofun

/-- A version that passes the checks of its adapter meets no `ConfigError` in `complete`. -/
theorem complete_raisesNoConfigError {name : ProviderName}
    (h : checkAdapter world name config = .ok ()) :
    RaisesNoConfigError (complete name endpoint world config) := by
  obtain ⟨_, hprovider, h⟩ := ExceptRules.bind_eq_ok.mp h
  obtain ⟨params, hparams, hkey⟩ := ExceptRules.bind_eq_ok.mp h
  have hparse := fun body => parse_raisesNoConfigError body config.model.text world.elapsedMs
  have hkeyOf : (apiKey world name).map (fun _ => ()) = .ok () →
      ∃ key, apiKey world name = .ok key := fun hmap => by
    obtain ⟨key, hkey, _⟩ := ExceptRules.map_eq_ok.mp hmap
    exact ⟨key, hkey⟩
  cases name with
  | openai =>
      obtain ⟨key, hkey⟩ := hkeyOf hkey
      show RaisesNoConfigError (openaiComplete endpoint world config)
      unfold openaiComplete
      rw [show requireProvider config .openai "OpenAIProvider" = .ok () from hprovider,
        ExceptRules.ok_bind, show cloudParams config.parameters "OpenAI" = .ok params from hparams,
        ExceptRules.ok_bind, hkey, ExceptRules.ok_bind]
      exact Raises.bind (postJson_raisesNoConfigError _ _ _) fun body => (hparse body).1
  | anthropic =>
      obtain ⟨key, hkey⟩ := hkeyOf hkey
      show RaisesNoConfigError (anthropicComplete endpoint world config)
      unfold anthropicComplete
      rw [show requireProvider config .anthropic "AnthropicProvider" = .ok () from hprovider,
        ExceptRules.ok_bind,
        show cloudParams config.parameters "Anthropic" = .ok params from hparams,
        ExceptRules.ok_bind, hkey, ExceptRules.ok_bind]
      exact Raises.bind (postJson_raisesNoConfigError _ _ _) fun body => (hparse body).2.1
  | ollama =>
      show RaisesNoConfigError (ollamaComplete endpoint world config)
      unfold ollamaComplete
      rw [show requireProvider config .ollama "OllamaProvider" = .ok () from hprovider,
        ExceptRules.ok_bind, show buildOptions config.parameters = .ok params from hparams,
        ExceptRules.ok_bind]
      refine Raises.bind ?_ fun body => (hparse body).2.2
      unfold ollamaPost
      refine Raises.bind (postJson_raisesNoConfigError _ _ _) fun parsed => ?_
      split
      · exact Raises.throw nofun
      · exact Raises.pure _

end

/-- The checks of an adapter read nothing of the world but its environment variables. -/
theorem checkAdapter_congr {world world' : World} (h : world'.environ = world.environ)
    (name : ProviderName) (config : SystemVersion) :
    checkAdapter world' name config = checkAdapter world name config := by
  unfold checkAdapter requireApiKey apiKey
  rw [h]

/-- Under a real backend the loader makes every check of `complete`: as long as the environment
variables stay, no call for a version of the plan raises a `ConfigError`, whatever the transport
does. So a `ConfigError` behind a call can only be the candidate's template. -/
theorem real_backend_is_checked_by_the_loader {env : ConfigEnvironment} {path : String}
    {file : FileContent} {plan : LoadedPlan} {text : TextEnvironment} {run : RunPlan}
    {root : YamlMapping} {backend : ProviderBackend}
    (hload : loadRunPlan env path file = .ok plan) (hrun : plan.toRunPlan text = some run)
    (hroot : readRoot env path file = .ok root) (hbackend : readBackend root = .ok backend)
    (hreal : backend ≠ .mock) :
    (∀ v ∈ [run.baseline, run.candidate], ∀ world : World,
      world.environ = env.providers.world.environ → ∀ endpoint,
        RaisesNoConfigError (complete v.provider endpoint world v)) ∧
    (ConfigErrorsFirst (fun env rt answers => runConfig env rt (.ok (run.withAnswers answers))) ↔
      (Renders run.baseline → Renders run.candidate)) := by
  have hruns := runsAs_of_toRunPlan hrun
  obtain ⟨root', backend', hroot', hloaded⟩ := loaded_of_loadRunPlan hload
  obtain rfl : root = root' := Except.ok.inj (hroot.symm.trans hroot')
  obtain rfl : backend = backend' := Except.ok.inj (hbackend.symm.trans hloaded.reads)
  have hcheck : ∀ v ∈ [run.baseline, run.candidate], run.checkVersion v = .ok () :=
    fun v hv => hruns.checkVersion_eq_ok hloaded hreal hv
  constructor
  · intro v hv world hworld endpoint
    apply complete_raisesNoConfigError
    rw [checkAdapter_congr hworld]
    rcases List.mem_pair.mp hv with rfl | rfl
    · exact (checkAdapter_of_loaded hloaded hreal List.mem_cons_self hruns.baseline).1
    · exact (checkAdapter_of_loaded hloaded hreal (by simp) hruns.candidate).1
  · rw [hruns.configErrorsFirst_iff hloaded.consistent]
    have hb := hcheck run.baseline (by simp)
    have hc := hcheck run.candidate (by simp)
    simp [RunPlan.CallsMade, RaisesNoConfigError, hb, hc]

/-- The document of the sample config is read, and so is its backend. -/
theorem readRoot_sample (backend : ProviderBackend)
    (h : (TextFiles.readText (sampleText backend).toUTF8).isSome = true) :
    readRoot (sampleEnvironment backend) "evalops.yml" (sampleFile backend)
      = .ok (sampleRoot backend) := by
  obtain ⟨text, htext⟩ := Option.isSome_iff_exists.mp h
  unfold readRoot sampleFile
  dsimp only
  rw [htext]
  rfl

theorem readBackend_sample (backend : ProviderBackend) :
    readBackend (sampleRoot backend) = .ok backend := by
  refine ExceptRules.toOption_eq_some.mp ?_
  cases backend <;> decide

/-- The sample config, for the Ollama backend. -/
theorem sample_is_checked_by_the_loader : ∃ plan run, sampleRun .ollama = some (plan, run) ∧
    (∀ v ∈ [run.baseline, run.candidate], ∀ world : World,
      world.environ = resetWorld.environ → ∀ endpoint,
        RaisesNoConfigError (complete v.provider endpoint world v)) ∧
    (ConfigErrorsFirst (fun env rt answers => runConfig env rt (.ok (run.withAnswers answers))) ↔
      (Renders run.baseline → Renders run.candidate)) := by
  have hsome : (sampleRun .ollama).isSome = true := by decide +kernel
  obtain ⟨⟨plan, run⟩, h⟩ := Option.isSome_iff_exists.mp hsome
  obtain ⟨hload, hrun⟩ := sampleRun_eq_some h
  exact ⟨plan, run, h, real_backend_is_checked_by_the_loader hload hrun
    (readRoot_sample .ollama (by decide +kernel)) (readBackend_sample .ollama) nofun⟩

/-! ### A plan that ends in a verdict -/

/-- The versions of the plan have providers that answer or fail as a provider does. -/
def RunPlan.Answered (run : RunPlan) : Prop :=
  ∀ v ∈ [run.baseline, run.candidate], ∃ provider, run.providers.get? v.provider = some provider ∧
    (∀ e, provider.checkConfig v = .error e → e.kind = .providerError) ∧
    ∀ k prompt e, provider.reply k prompt v = .error e → e.kind = .providerError

/-- A plan whose templates render, whose evaluators have names and whose providers answer is
evaluated, and the gate decides. -/
theorem RunsAs.evaluate_isOk {text : TextEnvironment} {plan : LoadedPlan} {run : RunPlan}
    (h : RunsAs text plan run) (hplan : plan.Consistent)
    (hnames : ∀ e ∈ plan.evaluators, PyText.isBlank e.name = false)
    (hrenders : ∀ v ∈ [run.baseline, run.candidate], Renders v) (hanswered : run.Answered)
    (env : Environment) (rt : Runtime) (s : ℕ) :
    ∃ evaluation t, exec (run.evaluate env rt) s = (.ok evaluation, t) ∧
      Decided evaluation.result run.policy evaluation.gate := by
  have hnodup : (run.evaluators.map Evaluator.name).Nodup := by
    rw [h.map_name]
    exact hplan.names_nodup
  have hscores : ∀ case ∈ run.dataset.cases, ∀ r, ∀ evaluator ∈ run.evaluators,
      ∃ s, evaluator.evaluate r case = .ok s := by
    intro case hcase r evaluator he
    obtain ⟨e, hmem, hbuilt⟩ := h.exists_built he
    refine (h.scoresShare hplan he hcase r).isOk_iff.mpr ?_
    rw [(toEvaluator_eq_some hbuilt).1]
    exact hnames e hmem
  obtain ⟨outcome, t, hrun⟩ := runExperiment_isOk env (h.preflight_eq_ok hplan)
    (fun v hv s => by
      obtain ⟨provider, hget, hcheck, hreply⟩ := hanswered v hv
      have htrial : ∀ case ∈ run.dataset.cases, ∀ prompt r k, ∃ t,
          trialAt env run.experiment v provider run.evaluators case prompt r k = .ok t := by
        intro case hcase prompt r k
        cases htrial : trialAt env run.experiment v provider run.evaluators case prompt r k with
        | ok t => exact ⟨t, rfl⟩
        | error e =>
            -- A trial raises what no provider and no evaluator of the plan raises.
            rcases trialAt_eq_error htrial with
              ⟨hkind, herror | ⟨_, herror⟩⟩ | ⟨response, _, _, hscore⟩
            · exact absurd (hcheck e herror) hkind
            · exact absurd (hreply k prompt e herror) hkind
            · obtain ⟨caseResult, hok⟩ := score_isOk hnodup (hscores case hcase _)
                (env.caseResultStamp k)
              exact nomatch hscore.symm.trans hok
      obtain ⟨ts, hts⟩ := exec_runVersion_isOk env hget
        (fun case _ => hrenders v hv case.input.text) htrial s
      exact ⟨ts, _, hts⟩) s
  obtain ⟨g, rfl, _⟩ := runExperiment_grid hrun
  obtain ⟨evaluation, hassess, _, _, hdecided⟩ := g.assess_eq_ok rt env.resultStamp
    (RunPlan.policyProduced_iff.mp (h.policyProduced hplan))
  refine ⟨evaluation, t, exec_bind_eq_ok.mpr ⟨g.outcome, t, hrun, ?_⟩, hdecided⟩
  exact congrArg (·, t) hassess

/-- What is evaluated has a report, so the attempt of the command succeeds. -/
theorem attempt_of_evaluate {env : Environment} {rt : Runtime} {run : RunPlan}
    {evaluation : EvaluationOutcome} {t : ℕ}
    (h : exec (run.evaluate env rt) 0 = (.ok evaluation, t))
    (hdecided : Decided evaluation.result run.policy evaluation.gate) :
    ∃ report, attempt env rt (.ok run) = .ok (evaluation, report) := by
  obtain ⟨report, hreport⟩ := buildReport_isOk run evaluation.outcome hdecided
  refine ⟨report, ?_⟩
  have hexec : exec (evaluateAndReport env rt (.ok run)) 0 = (.ok (evaluation, report), t) :=
    exec_lift_bind_eq_ok.mpr ⟨run, rfl, exec_bind_eq_ok.mpr ⟨evaluation, t, h,
      exec_lift_bind_eq_ok.mpr ⟨report, hreport, rfl⟩⟩⟩
  unfold attempt
  rw [hexec]

/-- The provider map of the mock backend answers versions whose blocks parse. -/
theorem RunsAs.answered_of_mock {text : TextEnvironment} {env : ConfigEnvironment}
    {root : YamlMapping} {plan : LoadedPlan} {run : RunPlan} (h : RunsAs text plan run)
    (hloaded : Loaded env root .mock plan)
    (hblocks : ∀ v ∈ [run.baseline, run.candidate], ∃ spec,
      MockSpec.fromConfig v.parameters = .ok spec) : run.Answered := by
  obtain ⟨spec, hspec, hserved⟩ := readProviders_eq_ok hloaded.providers
  have hmock : ∀ version ∈ [plan.baseline, plan.candidate],
      plan.providers.get? version.provider = some mockProvider := by
    intro version hversion
    obtain ⟨provider, hget, hserves⟩ := hserved version hversion
    cases hserves with
    | mock _ => exact hget
    | real _ hreal => exact absurd hspec hreal
  intro v hv
  refine ⟨mockProvider, ?_, ?_, ?_⟩
  · rw [h.providers]
    rcases List.mem_pair.mp hv with rfl | rfl
    · rw [(toSystemVersion_eq_some h.baseline).2.1]
      exact hmock _ List.mem_cons_self
    · rw [(toSystemVersion_eq_some h.candidate).2.1]
      exact hmock _ (by simp)
  · intro e he
    obtain ⟨block, hblock⟩ := hblocks v hv
    have hcheck : (MockSpec.fromConfig v.parameters).map (fun _ => ()) = .error e := he
    rw [hblock] at hcheck
    exact nomatch hcheck
  · intro k prompt e he
    obtain ⟨block, hblock⟩ := hblocks v hv
    have hreply : mockComplete prompt v = .error e := he
    unfold mockComplete at hreply
    rw [hblock, ExceptRules.ok_bind] at hreply
    -- A listed prompt fails as a provider does, and any other prompt is answered.
    split at hreply
    · cases hreply
      rfl
    · exact nomatch hreply

/-- A config for the mock backend that loads, with templates that render, blocks that parse and
evaluators with names, always ends in a verdict: the evaluation returns, whatever the clock and the
random numbers, and the exit status is `1` when the gate blocks and `0` otherwise. -/
theorem mocked_config_ends_in_a_verdict {env : ConfigEnvironment} {path : String}
    {file : FileContent} {plan : LoadedPlan} {text : TextEnvironment} {run : RunPlan}
    {root : YamlMapping} (hload : loadRunPlan env path file = .ok plan)
    (hrun : plan.toRunPlan text = some run) (hroot : readRoot env path file = .ok root)
    (hbackend : readBackend root = .ok .mock)
    (hnames : ∀ e ∈ plan.evaluators, PyText.isBlank e.name = false)
    (hrenders : ∀ v ∈ [run.baseline, run.candidate], Renders v)
    (hblocks : ∀ v ∈ [run.baseline, run.candidate], ∃ spec,
      MockSpec.fromConfig v.parameters = .ok spec) (env' : Environment) (rt : Runtime) :
    ∃ evaluation report, attempt env' rt (.ok run) = .ok (evaluation, report) ∧
      (evaluation.gate.decision = .block ↔
        ∃ v ∈ verdictsOf evaluation.result run.policy, v.outcome = .regression) ∧
      ∀ (output : Output) (args : RunArgs), output.AcceptsReport args report →
        evalopsRun output args env' rt (.ok run)
          = if evaluation.gate.decision = .block then 1 else 0 := by
  obtain ⟨root', backend, hroot', hloaded⟩ := loaded_of_loadRunPlan hload
  obtain rfl : root = root' := Except.ok.inj (hroot.symm.trans hroot')
  obtain rfl : ProviderBackend.mock = backend := Except.ok.inj (hbackend.symm.trans hloaded.reads)
  have hruns := runsAs_of_toRunPlan hrun
  obtain ⟨evaluation, t, heval, hdecided⟩ := hruns.evaluate_isOk hloaded.consistent hnames hrenders
    (hruns.answered_of_mock hloaded hblocks) env' rt 0
  obtain ⟨report, hattempt⟩ := attempt_of_evaluate heval hdecided
  refine ⟨evaluation, report, hattempt, ?_, fun output args haccepts =>
    evalopsRun_of_accepted hattempt haccepts⟩
  rw [hdecided.decision, hdecided.verdicts]

/-- The evaluators of a plan have names, the templates are the input and the blocks parse. -/
def answersPlainly (sample : LoadedPlan × RunPlan) : Bool :=
  sample.1.evaluators.all (fun e => !PyText.isBlank e.name) &&
    [sample.2.baseline, sample.2.candidate].all fun v =>
      decide (v.promptTemplate.text = inputTemplate.text) &&
        (MockSpec.fromConfig v.parameters).toOption.isSome

/-- The sample config, for the mock backend. -/
theorem sample_ends_in_a_verdict : ∃ plan run, sampleRun .mock = some (plan, run) ∧
    ∀ (env : Environment) (rt : Runtime), ∃ evaluation report,
      attempt env rt (.ok run) = .ok (evaluation, report) ∧
      (evaluation.gate.decision = .block ↔
        ∃ v ∈ verdictsOf evaluation.result run.policy, v.outcome = .regression) ∧
      ∀ (output : Output) (args : RunArgs), output.AcceptsReport args report →
        evalopsRun output args env rt (.ok run)
          = if evaluation.gate.decision = .block then 1 else 0 := by
  have hanswers : (sampleRun .mock).any answersPlainly = true := by decide +kernel
  obtain ⟨⟨plan, run⟩, h, hchecks⟩ := (Option.any_eq_true _ _).mp hanswers
  obtain ⟨hload, hrun⟩ := sampleRun_eq_some h
  obtain ⟨hnames, hversions⟩ := Bool.and_eq_true_iff.mp hchecks
  have hversion : ∀ v ∈ [run.baseline, run.candidate],
      v.promptTemplate.text = inputTemplate.text ∧
        ∃ spec, MockSpec.fromConfig v.parameters = .ok spec := by
    intro v hv
    obtain ⟨htemplate, hspec⟩ := Bool.and_eq_true_iff.mp (List.all_eq_true.mp hversions v hv)
    obtain ⟨spec, hspec⟩ := Option.isSome_iff_exists.mp hspec
    exact ⟨of_decide_eq_true htemplate, spec, ExceptRules.toOption_eq_some.mp hspec⟩
  refine ⟨plan, run, h, mocked_config_ends_in_a_verdict hload hrun
    (readRoot_sample .mock (by decide +kernel)) (readBackend_sample .mock) ?_ ?_
    fun v hv => (hversion v hv).2⟩
  · intro e he
    simpa using List.all_eq_true.mp hnames e he
  · intro v hv
    -- A template that renders one input renders them all.
    rcases renders_or_configError v with hrenders | hfails
    · exact hrenders
    · obtain ⟨message, hmessage⟩ := hfails ""
      have hprompt : (renderPrompt inputTemplate.text "").toOption.isSome = true := by
        decide +kernel
      rw [← (hversion v hv).1, hmessage] at hprompt
      exact nomatch hprompt

end EvalOps
