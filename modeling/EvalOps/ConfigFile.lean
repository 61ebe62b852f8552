import EvalOps.BuiltEvaluators
import EvalOps.Config
import EvalOps.Datasets
import EvalOps.Providers
import EvalOps.Yaml

/-!
# `EvalOps.ConfigFile`: loading a run config

`load_run_plan` of `config.py`: a YAML file becomes a plan. The sections are read in the order of
the source, so the first bad one is the one that is reported.

A loaded plan holds what the files hold: parameters that are YAML, tool arguments that `json.loads`
built, and thresholds that may be `nan`. `LoadedPlan.toRunPlan` is the `RunPlan` with the same
content. It is there when that content is JSON and no evaluator is a judge.

The outside is a `ConfigEnvironment`: `yaml.safe_load`, the file system, fresh ids and the clock.
-/

set_option autoImplicit false

namespace EvalOps

/-- `yaml.YAMLError`. -/
def yamlError : ErrorKind := .other "YAMLError"

/-- What the loader takes from its surroundings. -/
structure ConfigEnvironment where
  load : LoadEnvironment
  specs : SpecEnvironment
  providers : ProviderEnvironment
  /-- `yaml.safe_load`. -/
  safeLoad : List Char → Py Yaml
  /-- `(path.parent / name).resolve()`: the resolved path and its stem. -/
  resolve : String → Py (String × String)
  /-- Opening the file at a resolved path. -/
  readFile : String → FileContent
  projectStamp : Stamp
  datasetStamp : Stamp
  baselineStamp : Stamp
  candidateStamp : Stamp
  experimentStamp : Stamp
  policyId : EntityId
  /-- `uuid4` identifiers are taken to be distinct. -/
  versions_ne : baselineStamp.id ≠ candidateStamp.id

/-! ### Versions -/

/-- A `SystemVersion` with the parameters of a YAML document. -/
structure LoadedVersion where
  projectId : EntityId
  name : NonBlank
  version : NonBlank
  provider : ProviderName
  model : NonBlank
  promptTemplate : NonBlank
  parameters : YamlMapping
  id : EntityId
  createdAt : Timestamp

/-- The constructor of a system version. -/
def LoadedVersion.init (projectId name version : String) (provider : ProviderName)
    (model promptTemplate : String) (parameters : YamlMapping) (stamp : Stamp) :
    Py LoadedVersion := do
  let projectId ← requireNonEmpty projectId "SystemVersion.project_id"
  let name ← requireNonEmpty name "SystemVersion.name"
  let version ← requireNonEmpty version "SystemVersion.version"
  let model ← requireNonEmpty model "SystemVersion.model"
  let promptTemplate ← requireNonEmpty promptTemplate "SystemVersion.prompt_template"
  pure
    { projectId, name, version, provider, model, promptTemplate, parameters, id := stamp.id
      createdAt := stamp.createdAt }

/-- `ProviderName(value)`. -/
def providerNameOf (value : String) : Option ProviderName :=
  [ProviderName.openai, .anthropic, .ollama].find? fun name => decide (name.value = value)

/-- `_build_system_version`. -/
def buildSystemVersion (root : YamlMapping) (key projectId : String) (stamp : Stamp) :
    Py LoadedVersion := do
  let sectionOf ← asMapping (← req root key "config") key
  let providerName ← reqStr sectionOf "provider" key
  match providerNameOf providerName with
  | none => throw (.config (key ++ ".provider " ++ PyText.repr providerName ++
      " is not one of ['anthropic', 'ollama', 'openai']"))
  | some provider => do
      let parameters ← optMapping sectionOf "parameters" key
      buildEntity key do
        let name ← reqStr sectionOf "name" key
        let version ← reqStr sectionOf "version" key
        let model ← reqStr sectionOf "model" key
        let promptTemplate ← reqStr sectionOf "prompt_template" key
        LoadedVersion.init projectId name version provider model promptTemplate parameters stamp

/-- The check of one generation parameter, as `cloud_params` and `build_options` make it. -/
def checkParam (supporter : String) (floatKeys intKeys : List String) (least : ℤ)
    (entry : String × Yaml) : Py Unit := do
  let (key, value) := entry
  if key = "mock" then pure ()
  else if key ∉ floatKeys ++ intKeys then
    throw (.config ("parameters." ++ PyText.repr key ++ " is not a supported " ++ supporter ++
      " generation parameter; supported: " ++
      PyText.reprList (Sorting.sorted (floatKeys ++ intKeys)) ++
      " (plus 'mock' for the mock backend)"))
  else if key ∈ floatKeys then
    match value with
    | .int n =>
        if n < 0 then throw (.config ("parameters." ++ key ++ " must be a number >= 0"))
        else (floatOfInt n).map fun _ => ()
    | .float x =>
        if x.isNegative then throw (.config ("parameters." ++ key ++ " must be a number >= 0"))
        else pure ()
    | _ => throw (.config ("parameters." ++ key ++ " must be a number >= 0"))
  else
    match value with
    | .int n =>
        if n < least then
          throw (.config ("parameters." ++ key ++ s!" must be an integer >= {least}"))
        else pure ()
    | _ => throw (.config ("parameters." ++ key ++ s!" must be an integer >= {least}"))

/-- `_validate_generation_params`, of YAML parameters. -/
def LoadedVersion.validateGenerationParams (version : LoadedVersion) : Py Unit :=
  match version.provider with
  | .ollama => version.parameters.forM
      (checkParam "Ollama" ["temperature", "top_p"] ["seed", "num_predict"] 0)
  | .openai => version.parameters.forM
      (checkParam "OpenAI" ["temperature", "top_p"] ["max_tokens"] 1)
  | .anthropic => version.parameters.forM
      (checkParam "Anthropic" ["temperature", "top_p"] ["max_tokens"] 1)

/-! ### Evaluators and their labels -/

/-- A value in a spec, as the builder sees it. -/
def Yaml.toSpecValue : Yaml → SpecValue
  | null => .none
  | bool b => .bool b
  | int n => .int n
  | float x => .float x
  | str s => .str s
  | seq _ | map _ | other _ => .other

/-- A spec, if it is a mapping. -/
def Yaml.toSpec : Yaml → Option SpecMapping
  | map entries => some (Dict.ofList (entries.map fun e => (e.1, e.2.toSpecValue)))
  | _ => none

/-- `_build_evaluators`. -/
def readEvaluators (env : SpecEnvironment) (root : YamlMapping) : Py (List BuiltEvaluator) := do
  match ← req root "evaluators" "config" with
  | .seq (spec :: specs) => buildEvaluators env ((spec :: specs).map Yaml.toSpec)
  | _ => throw (.config "config.evaluators must be a non-empty list")

/-- Some evaluators need a label on every case. -/
def requireLabels (needs : BuiltEvaluator → Bool) (hasLabel : LoadedCase → Bool)
    (message : String) (evaluators : List BuiltEvaluator) (dataset : LoadedDataset) : Py Unit :=
  let missing := (dataset.cases.filter fun case => !hasLabel case).map fun case => case.id.text
  if evaluators.any needs && !missing.isEmpty then
    throw (.config (message ++ "; missing for: " ++ PyText.reprList missing))
  else pure ()

/-- `isinstance(e, ExactMatch | Contains)`. -/
def BuiltEvaluator.needsReference : BuiltEvaluator → Bool
  | exactMatch _ _ | contains _ _ => true
  | _ => false

/-- `isinstance(e, RetrievalRecall | ContextPrecision)`. -/
def BuiltEvaluator.needsRetrievalIds : BuiltEvaluator → Bool
  | graded .retrievalRecall _ | graded .contextPrecision _ => true
  | _ => false

/-- `isinstance(e, ToolSelection | ToolTrajectory)`. -/
def BuiltEvaluator.needsToolCalls : BuiltEvaluator → Bool
  | graded .toolSelection _ | graded .toolTrajectory _ => true
  | _ => false

/-- `isinstance(e, ToolArguments)`. -/
def BuiltEvaluator.needsToolArguments : BuiltEvaluator → Bool
  | graded .toolArguments _ => true
  | _ => false

/-- `_check_reference_outputs`. -/
def checkReferenceOutputs : List BuiltEvaluator → LoadedDataset → Py Unit :=
  requireLabels BuiltEvaluator.needsReference (fun case => case.expectedOutput.isSome)
    "exact_match/contains require expected_output on every case"

/-- `_check_retrieval_labels`. -/
def checkRetrievalLabels : List BuiltEvaluator → LoadedDataset → Py Unit :=
  requireLabels BuiltEvaluator.needsRetrievalIds (fun case => !case.expectedRetrievalIds.isEmpty)
    "retrieval_recall/context_precision require expected_retrieval_ids on every case"

/-- `_check_tool_labels`. -/
def checkToolLabels (evaluators : List BuiltEvaluator) (dataset : LoadedDataset) : Py Unit := do
  requireLabels BuiltEvaluator.needsToolCalls (fun case => !case.expectedToolCalls.isEmpty)
    "tool_selection/tool_trajectory require expected_tool_calls on every case" evaluators dataset
  requireLabels BuiltEvaluator.needsToolArguments
    (fun case => case.expectedToolCalls.any fun call => call.arguments.isSome)
    ("tool_arguments requires at least one expected_tool_calls entry with explicit arguments " ++
      "on every case") evaluators dataset

/-! ### The policy -/

/-- A `ReleasePolicy` whose thresholds may be `nan` or infinite. -/
structure LoadedPolicy where
  name : NonBlank
  thresholds : List (String × PyFloat)
  maxSafetyViolations : ℕ
  id : EntityId

/-- The check of one threshold. -/
def requireCeiling (entry : String × PyFloat) : Py Unit := do
  if PyText.isBlank entry.1 then
    throw (.domainValidation "ReleasePolicy.thresholds has a blank metric name")
  if entry.2.isNegative then
    throw (.domainValidation ("ReleasePolicy threshold for " ++ PyText.repr entry.1 ++
      " must be >= 0, got " ++ (Decoded.float entry.2).repr))

/-- The constructor of a release policy. -/
def LoadedPolicy.init (name : String) (thresholds : List (String × PyFloat))
    (maxSafetyViolations : ℤ) (id : EntityId) : Py LoadedPolicy := do
  let name ← requireNonEmpty name "ReleasePolicy.name"
  let maxSafetyViolations ← requireNat maxSafetyViolations
    s!"ReleasePolicy.max_safety_violations must be >= 0, got {maxSafetyViolations}"
  thresholds.forM requireCeiling
  pure { name, thresholds, maxSafetyViolations, id }

/-- One turn of the loop over the thresholds. -/
def readThreshold (entry : String × Yaml) : Py (String × PyFloat) :=
  match entry.2 with
  | .int n => do
      let x ← floatOfInt n
      pure (entry.1, .finite x)
  | .float x => pure (entry.1, x)
  | _ => throw (.config
      ("release_policy.thresholds[" ++ PyText.repr entry.1 ++ "] must be a number"))

/-- `_build_policy`. -/
def buildPolicy (root : YamlMapping) (evaluatorNames : List String) (id : EntityId) :
    Py (Option LoadedPolicy) :=
  match root.lookup "release_policy" with
  | none | some .null => pure none
  | some value => do
      let sectionOf ← asMapping value "release_policy"
      let rawThresholds ← optMapping sectionOf "thresholds" "release_policy"
      let thresholds ← rawThresholds.mapM readThreshold
      let producible := (expectedMetricNames evaluatorNames).dedup
      let unknown := Sorting.sorted ((thresholds.map Prod.fst).filter fun m => m ∉ producible)
      if unknown ≠ [] then
        throw (.config ("release_policy.thresholds names metric(s) this run cannot produce: " ++
          PyText.reprList unknown ++ "; producible metrics are " ++
          PyText.reprList (Sorting.sorted producible)))
      else
        let policy ← buildEntity "release_policy" do
          let name ← reqStr sectionOf "name" "release_policy"
          let maxSafetyViolations ←
            optInt sectionOf "max_safety_violations" "release_policy" 0
          LoadedPolicy.init name thresholds maxSafetyViolations id
        pure (some policy)

/-! ### The execution -/

/-- A supported backend. -/
def backendOf (value : String) : Option ProviderBackend :=
  [ProviderBackend.anthropic, .live, .mock, .ollama, .openai].find? fun backend =>
    decide (backend.value = value)

/-- `_read_backend`. -/
def readBackend (root : YamlMapping) : Py ProviderBackend := do
  let execution ← asMapping (← req root "execution" "config") "execution"
  let backend ← reqStr execution "backend" "execution"
  match backendOf backend with
  | some backend => pure backend
  | none => throw (.config ("execution.backend " ++ PyText.repr backend ++
      " is not supported; supported backends: " ++
      "['anthropic', 'live', 'mock', 'ollama', 'openai']"))

/-- `_build_providers`. -/
def readProviders (env : ProviderEnvironment) (backend : ProviderBackend) (root : YamlMapping)
    (baseline candidate : LoadedVersion) : Py (Dict ProviderName ProviderClient) := do
  let execution ← asMapping (← req root "execution" "config") "execution"
  let baseUrl ← optStr execution "base_url" "execution"
  let timeoutSeconds ← optNumber execution "timeout_seconds" "execution" defaultTimeoutSeconds
  let spec : ExecutionSpec :=
    { backend, timeoutSeconds
      -- `base_url or DEFAULT_BASE_URL`
      baseUrl := if baseUrl.getD "" = "" then defaultOllamaBaseUrl else baseUrl.getD "" }
  buildProviders LoadedVersion.provider LoadedVersion.validateGenerationParams env spec baseline
    candidate

/-! ### The plan -/

/-- `RunPlan`, as the loader assembles it. -/
structure LoadedPlan where
  project : Project
  dataset : LoadedDataset
  datasetStamp : Stamp
  experiment : Experiment
  baseline : LoadedVersion
  candidate : LoadedVersion
  evaluators : List BuiltEvaluator
  policy : Option LoadedPolicy
  providers : Dict ProviderName ProviderClient

/-- The document of a config file, which must be a mapping. -/
def readRoot (env : ConfigEnvironment) (path : String) (file : FileContent) : Py YamlMapping :=
  match file with
  | .error reason => throw (.config ("cannot read config file " ++ path ++ ": " ++ reason))
  | .ok data =>
      match TextFiles.readText data with
      | none => throw ⟨.other "UnicodeDecodeError", "invalid UTF-8"⟩
      | some text =>
          match env.safeLoad text with
          | .ok loaded => asMapping loaded "config root"
          | .error exc =>
              if exc.kind = yamlError then
                throw (.config (path ++ ": invalid YAML (" ++ exc.message ++ ")"))
              else throw exc

/-- The project of a config. -/
def readProject (env : ConfigEnvironment) (root : YamlMapping) : Py Project :=
  buildEntity "project" do
    let name ← reqStr root "project" "config"
    Project.init name env.projectStamp.id.text env.projectStamp.createdAt

/-- The dataset of a config. -/
def readDataset (env : ConfigEnvironment) (root : YamlMapping) (project : Project) :
    Py LoadedDataset := do
  let sectionOf ← asMapping (← req root "dataset" "config") "dataset"
  let name ← reqStr sectionOf "path" "dataset"
  let (path, stem) ← env.resolve name
  let datasetName ← optStr sectionOf "name" "dataset"
  buildEntity "dataset"
    (loadJsonl env.load path stem (env.readFile path) project.id.text datasetName)

/-- The number of repeats of a config. -/
def readRepeats (root : YamlMapping) : Py ℤ := do
  let repeats ← optInt root "repeats" "config" 1
  if repeats < 1 then throw (.config s!"config.repeats must be >= 1, got {repeats}")
  else pure repeats

/-- The experiment of a config. -/
def readExperiment (env : ConfigEnvironment) (project : Project)
    (baseline candidate : LoadedVersion) (repeats : ℤ) : Py Experiment :=
  buildEntity "experiment" (Experiment.init project.id.text env.datasetStamp.id.text
    baseline.id.text candidate.id.text repeats none env.experimentStamp.id.text
    env.experimentStamp.createdAt)

/-- `load_run_plan`, of a file at a path. -/
def loadRunPlan (env : ConfigEnvironment) (path : String) (file : FileContent) :
    Py LoadedPlan := do
  let root ← readRoot env path file
  let project ← readProject env root
  let dataset ← readDataset env root project
  let backend ← readBackend root
  let repeats ← readRepeats root
  let baseline ← buildSystemVersion root "baseline" project.id.text env.baselineStamp
  let candidate ← buildSystemVersion root "candidate" project.id.text env.candidateStamp
  let experiment ← readExperiment env project baseline candidate repeats
  let evaluators ← readEvaluators env.specs root
  checkReferenceOutputs evaluators dataset
  checkRetrievalLabels evaluators dataset
  checkToolLabels evaluators dataset
  let policy ← buildPolicy root (evaluators.map BuiltEvaluator.name) env.policyId
  let providers ← readProviders env.providers backend root baseline candidate
  pure
    { project, dataset, datasetStamp := env.datasetStamp, experiment, baseline, candidate,
      evaluators, policy, providers }

/-! ### The plan that runs -/

mutual

/-- The JSON value with the same content, if there is one. -/
def Decoded.toJson : Decoded → Option Json
  | .null => some .null
  | .bool b => some (.bool b)
  | .int n => some (.int n)
  | .float (.finite x) => some (.float x)
  | .float _ => none
  | .str s => some (.str s)
  | .arr items => (Decoded.toJsonItems items).map .arr
  | .obj fields => (Decoded.toJsonFields fields).map .obj

/-- The JSON values of the items of a list. -/
def Decoded.toJsonItems : List Decoded → Option (List Json)
  | [] => some []
  | item :: items => do
      let json ← Decoded.toJson item
      let jsons ← Decoded.toJsonItems items
      pure (json :: jsons)

/-- The fields of the JSON object of a `dict`. -/
def Decoded.toJsonFields : List (String × Decoded) → Option (List (String × Json))
  | [] => some []
  | (key, value) :: fields => do
      let json ← Decoded.toJson value
      let rest ← Decoded.toJsonFields fields
      pure ((key, json) :: rest)

end

/-- The expected call with JSON arguments. -/
def LoadedToolCall.toCall (call : LoadedToolCall) : Option ExpectedToolCall :=
  match call.arguments with
  | none => some ⟨call.name, none⟩
  | some fields => (Decoded.toJsonFields fields).map fun fields => ⟨call.name, some fields⟩

theorem LoadedCase.authored_not_promoted : CaseOrigin.authored = .promotedTrace →
    ∃ trace, (none : Option String) = some trace ∧ PyText.isBlank trace = false :=
  fun horigin => by cases horigin

theorem LoadedCase.authored_untraced :
    CaseOrigin.authored = .authored → (none : Option String) = none := fun _ => rfl

/-- The case with JSON arguments. -/
def LoadedCase.toCase (case : LoadedCase) : Option DatasetCase :=
  (case.expectedToolCalls.mapM LoadedToolCall.toCall).map fun calls =>
    { input := case.input, expectedOutput := case.expectedOutput, origin := .authored
      sourceTraceId := none, expectedRetrievalIds := case.expectedRetrievalIds
      expectedToolCalls := calls, id := case.id
      promoted_has_trace := LoadedCase.authored_not_promoted
      authored_has_no_trace := LoadedCase.authored_untraced }

/-- The dataset with JSON arguments. -/
def LoadedDataset.toDataset (dataset : LoadedDataset) (stamp : Stamp) : Option Dataset := do
  let cases ← dataset.cases.mapM LoadedCase.toCase
  (Dataset.init dataset.projectId.text dataset.name.text 1 cases stamp.id.text
    stamp.createdAt).toOption

/-- The version with JSON parameters. -/
def LoadedVersion.toSystemVersion (version : LoadedVersion) : Option SystemVersion :=
  (Yaml.toJsonFields version.parameters).map fun parameters =>
    { projectId := version.projectId, name := version.name, version := version.version
      provider := version.provider, model := version.model
      promptTemplate := version.promptTemplate, parameters, ragConfig := none, toolPolicy := none
      id := version.id, createdAt := version.createdAt }

/-- The number of a finite float. -/
def finite? : PyFloat → Option ℚ
  | .finite x => some x
  | _ => none

/-- The policy with finite thresholds. -/
def LoadedPolicy.toReleasePolicy (policy : LoadedPolicy) : Option ReleasePolicy := do
  let thresholds ← policy.thresholds.mapM fun e => (finite? e.2).map fun x => (e.1, x)
  (ReleasePolicy.init policy.name.text (Dict.ofList thresholds) policy.maxSafetyViolations
    policy.id.text).toOption

/-- The policy of a plan, if all is finite. -/
def LoadedPlan.toPolicy (plan : LoadedPlan) : Option (Option ReleasePolicy) :=
  match plan.policy with
  | none => some none
  | some policy => policy.toReleasePolicy.map some

/-- The `RunPlan` with the content of a loaded plan. -/
def LoadedPlan.toRunPlan (text : TextEnvironment) (plan : LoadedPlan) : Option RunPlan := do
  let dataset ← plan.dataset.toDataset plan.datasetStamp
  let baseline ← plan.baseline.toSystemVersion
  let candidate ← plan.candidate.toSystemVersion
  let evaluators ← plan.evaluators.mapM (BuiltEvaluator.toEvaluator text)
  let policy ← plan.toPolicy
  pure
    { project := plan.project, dataset, experiment := plan.experiment, baseline, candidate,
      evaluators, policy, providers := plan.providers }

end EvalOps
