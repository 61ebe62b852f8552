import EvalOps.ConfigFile
import EvalOps.Proofs.Adapters
import EvalOps.Proofs.Cli
import EvalOps.Proofs.Datasets
import EvalOps.Proofs.Returns

/-!
# `EvalOps.Proofs.ConfigFile`: what a plan that loads is good for

`Loaded` names what the loader read, one field for each step of `load_run_plan`. From it,
`loadRunPlan_consistent` says that the parts of a loaded plan fit together.
-/

set_option autoImplicit false

namespace EvalOps

open Effect

/-! ### What was read -/

/-- What a constructor under `_build` returns. -/
theorem buildEntity_eq_ok {α : Type} {label : String} {factory : Py α} {value : α} :
    buildEntity label factory = .ok value ↔ factory = .ok value := by
  unfold buildEntity
  cases factory with
  | ok value => simp
  | error exc =>
      dsimp only
      split <;> simp

/-- The steps of the loader that ended in a plan. -/
structure Loaded (env : ConfigEnvironment) (root : YamlMapping) (backend : ProviderBackend)
    (plan : LoadedPlan) : Prop where
  project : readProject env root = .ok plan.project
  dataset : readDataset env root plan.project = .ok plan.dataset
  datasetStamp : plan.datasetStamp = env.datasetStamp
  reads : readBackend root = .ok backend
  baseline : buildSystemVersion root "baseline" plan.project.id.text env.baselineStamp
    = .ok plan.baseline
  candidate : buildSystemVersion root "candidate" plan.project.id.text env.candidateStamp
    = .ok plan.candidate
  experiment : ∃ repeats, readExperiment env plan.project plan.baseline plan.candidate repeats
    = .ok plan.experiment
  evaluators : readEvaluators env.specs root = .ok plan.evaluators
  references : checkReferenceOutputs plan.evaluators plan.dataset = .ok ()
  retrievalIds : checkRetrievalLabels plan.evaluators plan.dataset = .ok ()
  toolLabels : checkToolLabels plan.evaluators plan.dataset = .ok ()
  policy : buildPolicy root (plan.evaluators.map BuiltEvaluator.name) env.policyId
    = .ok plan.policy
  providers : readProviders env.providers backend root plan.baseline plan.candidate
    = .ok plan.providers

theorem loaded_of_loadRunPlan {env : ConfigEnvironment} {path : String} {file : FileContent}
    {plan : LoadedPlan} (h : loadRunPlan env path file = .ok plan) :
    ∃ root backend, readRoot env path file = .ok root ∧ Loaded env root backend plan := by
  obtain ⟨root, hroot, h⟩ := ExceptRules.bind_eq_ok.mp h
  obtain ⟨project, hproject, h⟩ := ExceptRules.bind_eq_ok.mp h
  obtain ⟨dataset, hdataset, h⟩ := ExceptRules.bind_eq_ok.mp h
  obtain ⟨backend, hbackend, h⟩ := ExceptRules.bind_eq_ok.mp h
  obtain ⟨repeats, _, h⟩ := ExceptRules.bind_eq_ok.mp h
  obtain ⟨baseline, hbaseline, h⟩ := ExceptRules.bind_eq_ok.mp h
  obtain ⟨candidate, hcandidate, h⟩ := ExceptRules.bind_eq_ok.mp h
  obtain ⟨experiment, hexperiment, h⟩ := ExceptRules.bind_eq_ok.mp h
  obtain ⟨evaluators, hevaluators, h⟩ := ExceptRules.bind_eq_ok.mp h
  obtain ⟨_, hreferences, h⟩ := ExceptRules.bind_eq_ok.mp h
  obtain ⟨_, hretrievalIds, h⟩ := ExceptRules.bind_eq_ok.mp h
  obtain ⟨_, htoolLabels, h⟩ := ExceptRules.bind_eq_ok.mp h
  obtain ⟨policy, hpolicy, h⟩ := ExceptRules.bind_eq_ok.mp h
  obtain ⟨providers, hproviders, h⟩ := ExceptRules.bind_eq_ok.mp h
  cases h
  exact ⟨root, backend, hroot,
    { project := hproject, dataset := hdataset, datasetStamp := rfl, reads := hbackend
      baseline := hbaseline, candidate := hcandidate, experiment := ⟨repeats, hexperiment⟩
      evaluators := hevaluators, references := hreferences, retrievalIds := hretrievalIds
      toolLabels := htoolLabels, policy := hpolicy, providers := hproviders }⟩

/-! ### The entities -/

/-- A version of a config belongs to the project, and has its own stamp. -/
theorem buildSystemVersion_eq_ok {root : YamlMapping} {key : String} {projectId : EntityId}
    {stamp : Stamp} {version : LoadedVersion}
    (h : buildSystemVersion root key projectId.text stamp = .ok version) :
    version.projectId = projectId ∧ version.id = stamp.id := by
  obtain ⟨_, _, h⟩ := ExceptRules.bind_eq_ok.mp h
  obtain ⟨_, _, h⟩ := ExceptRules.bind_eq_ok.mp h
  obtain ⟨providerName, _, h⟩ := ExceptRules.bind_eq_ok.mp h
  cases hname : providerNameOf providerName with
  | none =>
      rw [hname] at h
      cases h
  | some provider =>
      rw [hname] at h
      obtain ⟨_, _, h⟩ := ExceptRules.bind_eq_ok.mp h
      obtain ⟨_, _, h⟩ := ExceptRules.bind_eq_ok.mp (buildEntity_eq_ok.mp h)
      obtain ⟨_, _, h⟩ := ExceptRules.bind_eq_ok.mp h
      obtain ⟨_, _, h⟩ := ExceptRules.bind_eq_ok.mp h
      obtain ⟨_, _, h⟩ := ExceptRules.bind_eq_ok.mp h
      unfold LoadedVersion.init at h
      rw [requireNonEmpty_text, ExceptRules.ok_bind] at h
      obtain ⟨_, _, h⟩ := ExceptRules.bind_eq_ok.mp h
      obtain ⟨_, _, h⟩ := ExceptRules.bind_eq_ok.mp h
      obtain ⟨_, _, h⟩ := ExceptRules.bind_eq_ok.mp h
      obtain ⟨_, _, h⟩ := ExceptRules.bind_eq_ok.mp h
      cases h
      exact ⟨rfl, rfl⟩

/-- The experiment of a config links the entities of the config. -/
theorem readExperiment_eq_ok {env : ConfigEnvironment} {project : Project}
    {baseline candidate : LoadedVersion} {repeats : ℤ} {experiment : Experiment}
    (h : readExperiment env project baseline candidate repeats = .ok experiment) :
    experiment.projectId = project.id ∧ experiment.datasetId = env.datasetStamp.id ∧
      experiment.baselineVersionId = baseline.id ∧
      experiment.candidateVersionId = candidate.id := by
  have h := buildEntity_eq_ok.mp h
  unfold Experiment.init at h
  simp only [requireNonEmpty_text, ExceptRules.ok_bind] at h
  split at h
  · cases h
  · split at h
    · cases h
    · obtain ⟨_, _, h⟩ := ExceptRules.bind_eq_ok.mp h
      cases h
      exact ⟨rfl, rfl, rfl, rfl⟩

/-- A loaded dataset belongs to the project. -/
theorem loadJsonl_projectId {env : LoadEnvironment} {path stem : String} {file : FileContent}
    {projectId : EntityId} {name : Option String} {dataset : LoadedDataset}
    (h : loadJsonl env path stem file projectId.text name = .ok dataset) :
    dataset.projectId = projectId := by
  unfold loadJsonl at h
  cases file with
  | error reason => cases h
  | ok data =>
      dsimp only at h
      cases htext : TextFiles.readText data with
      | none =>
          rw [htext] at h
          cases h
      | some text =>
          rw [htext] at h
          obtain ⟨cases', _, h⟩ := ExceptRules.bind_eq_ok.mp h
          split at h
          · cases h
          · unfold LoadedDataset.init at h
            rw [requireNonEmpty_text, ExceptRules.ok_bind] at h
            obtain ⟨_, _, h⟩ := ExceptRules.bind_eq_ok.mp h
            split at h
            · cases h
            · split at h
              · cases h
                rfl
              · cases h

/-! ### The labels -/

/-- The check of labels passes when each case has what an evaluator needs. -/
theorem requireLabels_eq_ok_iff {needs : BuiltEvaluator → Bool} {hasLabel : LoadedCase → Bool}
    {message : String} {evaluators : List BuiltEvaluator} {dataset : LoadedDataset} :
    requireLabels needs hasLabel message evaluators dataset = .ok () ↔
      ∀ e ∈ evaluators, needs e = true → ∀ case ∈ dataset.cases, hasLabel case = true := by
  unfold requireLabels
  dsimp only
  rw [ExceptRules.throw_eq_error, ExceptRules.pure_eq_ok]
  constructor
  · intro h e he hneeds case hcase
    by_contra hlabel
    rw [if_pos] at h
    · cases h
    · have hany : evaluators.any needs = true := List.any_eq_true.mpr ⟨e, he, hneeds⟩
      have hmem : case.id.text ∈ (dataset.cases.filter fun case => !hasLabel case).map
          fun case => case.id.text :=
        List.mem_map_of_mem (List.mem_filter.mpr ⟨hcase, by simpa using hlabel⟩)
      rw [hany, Bool.true_and, Bool.not_eq_true', List.isEmpty_eq_false_iff]
      exact List.ne_nil_of_mem hmem
  · intro h
    rw [if_neg]
    intro hmissing
    rw [Bool.and_eq_true, Bool.not_eq_true', List.isEmpty_eq_false_iff, ne_eq,
      List.map_eq_nil_iff, List.filter_eq_nil_iff] at hmissing
    obtain ⟨e, he, hneeds⟩ := List.any_eq_true.mp hmissing.1
    exact hmissing.2 fun case hcase => by simpa using h e he hneeds case hcase

/-! ### The evaluators -/

/-- The names that the builder keeps are distinct, and they are those of what it built. -/
theorem foldlM_buildTurn_nodup {env : SpecEnvironment}
    {entries : List (Option SpecMapping × ℕ)} {built : List BuiltEvaluator} {seen : List String}
    {state : List BuiltEvaluator × List String}
    (h : entries.foldlM (buildTurn env) (built, seen) = .ok state)
    (hnodup : (built.map BuiltEvaluator.name).Nodup)
    (hseen : ∀ e ∈ built, e.name ∈ seen) :
    (state.1.map BuiltEvaluator.name).Nodup := by
  induction entries generalizing built seen with
  | nil =>
      cases h
      exact hnodup
  | cons entry entries ih =>
      rw [List.foldlM_cons] at h
      obtain ⟨next, hturn, h⟩ := ExceptRules.bind_eq_ok.mp h
      obtain ⟨evaluator, _, hturn⟩ := ExceptRules.bind_eq_ok.mp hturn
      split at hturn
      · cases hturn
      · rename_i hnew
        cases hturn
        refine ih h ?_ ?_
        · -- The new name was not seen, so it is none of those built.
          rw [List.map_append, List.map_cons, List.map_nil, List.nodup_append]
          refine ⟨hnodup, List.nodup_singleton _, ?_⟩
          rintro a ha b hb rfl
          rw [List.mem_singleton.mp hb] at ha
          obtain ⟨e, he, hname⟩ := List.mem_map.mp ha
          exact hnew (hname ▸ hseen e he)
        · intro e he
          rcases List.mem_append.mp he with he | he
          · exact List.mem_cons_of_mem _ (hseen e he)
          · rw [List.mem_singleton.mp he]
            exact List.mem_cons_self

theorem buildEvaluators_nodup {env : SpecEnvironment} {specs : List (Option SpecMapping)}
    {evaluators : List BuiltEvaluator} (h : buildEvaluators env specs = .ok evaluators) :
    (evaluators.map BuiltEvaluator.name).Nodup := by
  obtain ⟨state, hloop, h⟩ := ExceptRules.bind_eq_ok.mp h
  cases h
  exact foldlM_buildTurn_nodup hloop List.nodup_nil nofun

theorem readEvaluators_nodup {env : SpecEnvironment} {root : YamlMapping}
    {evaluators : List BuiltEvaluator} (h : readEvaluators env root = .ok evaluators) :
    (evaluators.map BuiltEvaluator.name).Nodup := by
  obtain ⟨value, _, h⟩ := ExceptRules.bind_eq_ok.mp h
  split at h
  · exact buildEvaluators_nodup h
  · cases h

/-! ### The policy -/

/-- A loaded policy has thresholds of metrics that the run produces, none of them negative. -/
theorem buildPolicy_eq_ok {root : YamlMapping} {names : List String} {id : EntityId}
    {policy : LoadedPolicy} (h : buildPolicy root names id = .ok (some policy)) :
    ∀ e ∈ policy.thresholds, e.1 ∈ expectedMetricNames names ∧
      PyText.isBlank e.1 = false ∧ e.2.isNegative = false := by
  unfold buildPolicy at h
  split at h
  · cases h
  · cases h
  · obtain ⟨_, _, h⟩ := ExceptRules.bind_eq_ok.mp h
    obtain ⟨_, _, h⟩ := ExceptRules.bind_eq_ok.mp h
    obtain ⟨thresholds, _, h⟩ := ExceptRules.bind_eq_ok.mp h
    dsimp only at h
    split at h
    · cases h
    · rename_i hunknown
      obtain ⟨policy', hpolicy, h⟩ := ExceptRules.bind_eq_ok.mp h
      cases h
      obtain ⟨_, _, hpolicy⟩ := ExceptRules.bind_eq_ok.mp (buildEntity_eq_ok.mp hpolicy)
      obtain ⟨_, _, hpolicy⟩ := ExceptRules.bind_eq_ok.mp hpolicy
      obtain ⟨_, _, hpolicy⟩ := ExceptRules.bind_eq_ok.mp hpolicy
      obtain ⟨_, _, hpolicy⟩ := ExceptRules.bind_eq_ok.mp hpolicy
      obtain ⟨_, hceilings, hpolicy⟩ := ExceptRules.bind_eq_ok.mp hpolicy
      cases hpolicy
      intro e he
      refine ⟨?_, ?_⟩
      · -- No threshold is left over by the check against the metrics.
        by_contra hmetric
        rw [not_not, Sorting.sorted_eq_nil_iff, List.filter_eq_nil_iff] at hunknown
        exact hunknown e.1 (List.mem_map_of_mem he) (by simpa using hmetric)
      · have hceiling := ExceptRules.forM_eq_ok_iff.mp hceilings e he
        unfold requireCeiling at hceiling
        cases hblank : PyText.isBlank e.1 <;> cases hnegative : e.2.isNegative <;>
          simp [hblank, hnegative] at hceiling ⊢

/-! ### The providers -/

section

variable {V : Type} {providerOf : V → ProviderName} {validate : V → Py Unit}
  {env : ProviderEnvironment} {spec : ExecutionSpec} {baseline candidate : V}

/-- What the provider map holds for a version. -/
inductive Serves (env : ProviderEnvironment) (spec : ExecutionSpec) (validate : V → Py Unit)
    (name : ProviderName) (v : V) : ProviderClient → Prop
  | mock : spec.backend = .mock → Serves env spec validate name v mockProvider
  | real (baseUrl : String) : spec.backend ≠ .mock → validate v = .ok () →
      requireApiKey env.world name = .ok () →
      Serves env spec validate name v (adapterClient env name baseUrl spec.timeoutSeconds)

/-- A client that was made is the adapter, and its key is there. -/
theorem makeProvider_eq_ok {name : ProviderName} {baseUrl : Option String}
    {timeoutSeconds : PyFloat} {client : ProviderClient}
    (h : makeProvider env name baseUrl timeoutSeconds = .ok client) :
    requireApiKey env.world name = .ok () ∧
      ∃ url, client = adapterClient env name url timeoutSeconds := by
  unfold makeProvider at h
  by_cases hpositive : nonPositive timeoutSeconds = true
  · rw [if_pos hpositive] at h
    cases h
  · rw [if_neg hpositive] at h
    obtain ⟨_, hkey, h⟩ := ExceptRules.bind_eq_ok.mp h
    cases h
    exact ⟨hkey, _, rfl⟩

/-- The client of a real backend is the adapter, under the name of its provider. -/
theorem realClient_eq_ok {name : ProviderName} {entry : ProviderName × ProviderClient}
    (h : realClient env spec name = .ok entry) :
    entry.1 = name ∧ requireApiKey env.world name = .ok () ∧
      ∃ baseUrl, entry.2 = adapterClient env name baseUrl spec.timeoutSeconds := by
  obtain ⟨client, hclient, h⟩ := ExceptRules.bind_eq_ok.mp h
  cases h
  exact ⟨rfl, makeProvider_eq_ok hclient⟩

/-- A real backend uses the provider of each version. -/
theorem mem_usedProviders {used : List ProviderName}
    (h : usedProviders providerOf spec baseline candidate = .ok used) :
    used.Nodup ∧ ∀ v ∈ [baseline, candidate], providerOf v ∈ used := by
  unfold usedProviders at h
  cases htarget : spec.backend.realProvider with
  | none =>
      rw [htarget] at h
      cases h
      refine ⟨List.nodup_dedup _, fun v hv => List.mem_dedup.mpr ?_⟩
      rcases List.mem_pair.mp hv with rfl | rfl <;> simp
  | some target =>
      rw [htarget] at h
      obtain ⟨_, hdeclared, h⟩ := ExceptRules.bind_eq_ok.mp h
      cases h
      refine ⟨List.nodup_singleton _, fun v hv => ?_⟩
      -- The check of the declared providers leaves the target for both versions.
      have hentry : ∃ label, (label, v) ∈ [("baseline", baseline), ("candidate", candidate)] := by
        rcases List.mem_pair.mp hv with rfl | rfl
        · exact ⟨"baseline", List.mem_cons_self⟩
        · exact ⟨"candidate", List.mem_cons_of_mem _ List.mem_cons_self⟩
      obtain ⟨label, hmem⟩ := hentry
      have hcheck := ExceptRules.forM_eq_ok_iff.mp hdeclared _ hmem
      unfold requireDeclared at hcheck
      split at hcheck
      · exact nomatch hcheck
      · rename_i hsame
        rw [not_not] at hsame
        exact List.mem_singleton.mpr hsame

/-- A provider map that was built serves both versions. -/
theorem buildProviders_eq_ok {providers : Dict ProviderName ProviderClient}
    (h : buildProviders providerOf validate env spec baseline candidate = .ok providers) :
    ∀ v ∈ [baseline, candidate], ∃ provider, providers.get? (providerOf v) = some provider ∧
      Serves env spec validate (providerOf v) v provider := by
  intro v hv
  unfold buildProviders at h
  split at h
  · rename_i hmock
    cases h
    refine ⟨mockProvider, ?_, .mock hmock⟩
    have hkeys : (([providerOf baseline, providerOf candidate].dedup.map
        fun name => (name, mockProvider)).map Prod.fst)
          = [providerOf baseline, providerOf candidate].dedup := by
      rw [List.map_map]
      exact List.map_id _
    rw [Dict.get?_eq_some_iff, Dict.ofList_entries (by rw [hkeys]; exact List.nodup_dedup _)]
    refine List.mem_map.mpr ⟨providerOf v, List.mem_dedup.mpr ?_, rfl⟩
    rcases List.mem_pair.mp hv with rfl | rfl <;> simp
  · rename_i hreal
    dsimp only at h
    split at h
    · cases h
    · obtain ⟨used, hused, h⟩ := ExceptRules.bind_eq_ok.mp h
      obtain ⟨_, hvalid, h⟩ := ExceptRules.bind_eq_ok.mp h
      obtain ⟨clients, hclients, h⟩ := ExceptRules.bind_eq_ok.mp h
      cases h
      obtain ⟨hnodup, hmem⟩ := mem_usedProviders hused
      have hloop := ExceptRules.mapM_eq_ok_iff.mp hclients
      have hkeys : clients.map Prod.fst = used := by
        have := ListRules.map_eq_map_of_forall₂ (f := id) (g := Prod.fst)
          (hloop.imp fun _ _ hclient => (realClient_eq_ok hclient).1.symm)
        rw [← this, List.map_id]
      obtain ⟨entry, hentry, hclient⟩ :=
        ListRules.exists_of_forall₂_of_mem hloop (hmem v hv)
      obtain ⟨hname, hkey, baseUrl, hadapter⟩ := realClient_eq_ok hclient
      refine ⟨entry.2, ?_, ?_⟩
      · rw [Dict.get?_eq_some_iff, Dict.ofList_entries (hkeys ▸ hnodup), ← hname]
        exact hentry
      · rw [hadapter]
        exact .real baseUrl hreal (ExceptRules.forM_eq_ok_iff.mp hvalid v hv) hkey

end

/-- The provider map of a config serves both versions under its backend. -/
theorem readProviders_eq_ok {env : ProviderEnvironment} {backend : ProviderBackend}
    {root : YamlMapping} {baseline candidate : LoadedVersion}
    {providers : Dict ProviderName ProviderClient}
    (h : readProviders env backend root baseline candidate = .ok providers) :
    ∃ spec : ExecutionSpec, spec.backend = backend ∧ ∀ v ∈ [baseline, candidate], ∃ provider,
      providers.get? v.provider = some provider ∧
      Serves env spec LoadedVersion.validateGenerationParams v.provider v provider := by
  obtain ⟨_, _, h⟩ := ExceptRules.bind_eq_ok.mp h
  obtain ⟨_, _, h⟩ := ExceptRules.bind_eq_ok.mp h
  obtain ⟨_, _, h⟩ := ExceptRules.bind_eq_ok.mp h
  obtain ⟨_, _, h⟩ := ExceptRules.bind_eq_ok.mp h
  exact ⟨_, rfl, buildProviders_eq_ok h⟩

/-! ### A config that loads -/

/-- A version of the sample config, whose prompt is its input. -/
def sampleVersion (name : String) : Yaml :=
  .map [("name", .str name), ("version", .str "1"), ("provider", .str "ollama"),
    ("model", .str "m"), ("prompt_template", .str inputTemplate.text)]

/-- The sample config, with one evaluator and one threshold. -/
def sampleRoot (backend : ProviderBackend) : YamlMapping :=
  [("project", .str "p"), ("dataset", .map [("path", .str "cases.jsonl")]),
    ("execution", .map [("backend", .str backend.value)]), ("baseline", sampleVersion "a"),
    ("candidate", sampleVersion "b"), ("evaluators", .seq [.map [("type", .str "contains")]]),
    ("release_policy", .map [("name", .str "gate"),
      ("thresholds", .map [("success_rate", .int 0)])])]

/-- The text of the sample config. -/
def sampleText (backend : ProviderBackend) : String :=
  let version := fun name => "\x7bname: " ++ name ++ ", version: '1', provider: ollama, " ++
    "model: m, prompt_template: '" ++ inputTemplate.text ++ "'\x7d\n"
  "project: p\ndataset: \x7bpath: cases.jsonl\x7d\n" ++
    "execution: \x7bbackend: " ++ backend.value ++ "\x7d\n" ++
    "baseline: " ++ version "a" ++ "candidate: " ++ version "b" ++
    "evaluators: [\x7btype: contains\x7d]\n" ++
    "release_policy: \x7bname: gate, thresholds: \x7bsuccess_rate: 0\x7d\x7d\n"

/-- The bytes of the sample config. -/
def sampleFile (backend : ProviderBackend) : FileContent := .ok (sampleText backend).toUTF8

/-- The surroundings of the sample config: a dataset of one case, and no server. -/
def sampleEnvironment (backend : ProviderBackend) : ConfigEnvironment where
  load := usualEnvironment
  specs := ⟨fun _ => none, compiles_foreign, fun _ label _ => .error (.config label)⟩
  providers := ⟨resetWorld, fun _ _ _ _ _ _ => .error (.provider "unreachable")⟩
  safeLoad _ := .ok (.map (sampleRoot backend))
  resolve name := .ok (name, "cases")
  readFile _ := .ok "\x7b\"input\": \"a\", \"expected_output\": \"a\"\x7d\n".toUTF8
  projectStamp := offlineStamp 0
  datasetStamp := offlineStamp 1
  baselineStamp := offlineStamp 2
  candidateStamp := offlineStamp 3
  experimentStamp := offlineStamp 4
  policyId := offlineId 5
  versions_ne h := absurd (offlineId_injective h) (by decide)

/-! ### The plan fits together -/

/-- The parts of a plan fit together. -/
structure LoadedPlan.Consistent (plan : LoadedPlan) : Prop where
  links : plan.experiment.projectId = plan.project.id ∧
    plan.experiment.datasetId = plan.datasetStamp.id ∧
    plan.experiment.baselineVersionId = plan.baseline.id ∧
    plan.experiment.candidateVersionId = plan.candidate.id
  projects : plan.dataset.projectId = plan.project.id ∧
    plan.baseline.projectId = plan.project.id ∧ plan.candidate.projectId = plan.project.id
  names_nodup : (plan.evaluators.map BuiltEvaluator.name).Nodup
  references : ∀ e ∈ plan.evaluators, e.needsReference = true → ∀ case ∈ plan.dataset.cases,
    case.expectedOutput.isSome = true
  retrievalIds : ∀ e ∈ plan.evaluators, e.needsRetrievalIds = true →
    ∀ case ∈ plan.dataset.cases, case.expectedRetrievalIds ≠ []
  toolCalls : ∀ e ∈ plan.evaluators, e.needsToolCalls = true → ∀ case ∈ plan.dataset.cases,
    case.expectedToolCalls ≠ []
  toolArguments : ∀ e ∈ plan.evaluators, e.needsToolArguments = true →
    ∀ case ∈ plan.dataset.cases, ∃ call ∈ case.expectedToolCalls, call.arguments.isSome = true
  thresholds : ∀ policy, plan.policy = some policy → ∀ e ∈ policy.thresholds,
    e.1 ∈ expectedMetricNames (plan.evaluators.map BuiltEvaluator.name) ∧
      e.2.isNegative = false
  provided : ∀ v ∈ [plan.baseline, plan.candidate],
    ∃ provider, plan.providers.get? v.provider = some provider

theorem Loaded.consistent {env : ConfigEnvironment} {root : YamlMapping}
    {backend : ProviderBackend} {plan : LoadedPlan} (h : Loaded env root backend plan) :
    plan.Consistent := by
  obtain ⟨_, hexperiment⟩ := h.experiment
  obtain ⟨hbaseline, _⟩ := buildSystemVersion_eq_ok h.baseline
  obtain ⟨hcandidate, _⟩ := buildSystemVersion_eq_ok h.candidate
  obtain ⟨_, _, hproviders⟩ := readProviders_eq_ok h.providers
  obtain ⟨_, htoolCalls, htoolArguments⟩ := ExceptRules.bind_eq_ok.mp h.toolLabels
  exact
    { links := by
        rw [h.datasetStamp]
        exact readExperiment_eq_ok hexperiment
      projects := by
        refine ⟨?_, hbaseline, hcandidate⟩
        obtain ⟨_, _, hdataset⟩ := ExceptRules.bind_eq_ok.mp h.dataset
        obtain ⟨_, _, hdataset⟩ := ExceptRules.bind_eq_ok.mp hdataset
        obtain ⟨_, _, hdataset⟩ := ExceptRules.bind_eq_ok.mp hdataset
        obtain ⟨_, _, hdataset⟩ := ExceptRules.bind_eq_ok.mp hdataset
        obtain ⟨_, _, hdataset⟩ := ExceptRules.bind_eq_ok.mp hdataset
        exact loadJsonl_projectId (buildEntity_eq_ok.mp hdataset)
      names_nodup := readEvaluators_nodup h.evaluators
      references := requireLabels_eq_ok_iff.mp h.references
      retrievalIds := fun e he hneeds case hcase => by
        simpa using requireLabels_eq_ok_iff.mp h.retrievalIds e he hneeds case hcase
      toolCalls := fun e he hneeds case hcase => by
        simpa using requireLabels_eq_ok_iff.mp htoolCalls e he hneeds case hcase
      toolArguments := fun e he hneeds case hcase =>
        List.any_eq_true.mp (requireLabels_eq_ok_iff.mp htoolArguments e he hneeds case hcase)
      thresholds := fun policy hpolicy e he => by
        have hread := buildPolicy_eq_ok (hpolicy ▸ h.policy) e he
        exact ⟨hread.1, hread.2.2⟩
      provided := fun v hv => by
        obtain ⟨provider, hget, _⟩ := hproviders v hv
        exact ⟨provider, hget⟩ }

/-- A plan that `load_run_plan` returns fits together: the experiment links the project, the dataset
and the two versions, the evaluator names are distinct, every label that an evaluator needs is on
every case, every threshold is one of a metric that the run produces, and there is a client for the
provider of each version. -/
theorem loadRunPlan_consistent {env : ConfigEnvironment} {path : String} {file : FileContent}
    {plan : LoadedPlan} (h : loadRunPlan env path file = .ok plan) : plan.Consistent := by
  obtain ⟨_, _, _, hloaded⟩ := loaded_of_loadRunPlan h
  exact hloaded.consistent

/-- The sample config loads, and its parts fit together. -/
theorem sample_consistent : ∃ plan,
    loadRunPlan (sampleEnvironment .mock) "evalops.yml" (sampleFile .mock) = .ok plan ∧
      plan.Consistent := by
  have hsome : (loadRunPlan (sampleEnvironment .mock) "evalops.yml"
      (sampleFile .mock)).toOption.isSome = true := by decide +kernel
  obtain ⟨plan, hplan⟩ := Option.isSome_iff_exists.mp hsome
  have hload := ExceptRules.toOption_eq_some.mp hplan
  exact ⟨plan, hload, loadRunPlan_consistent hload⟩

end EvalOps
