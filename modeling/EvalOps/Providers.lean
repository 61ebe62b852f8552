import EvalOps.MockProvider

/-!
# `EvalOps.Providers`: the provider map of an execution

`build_providers` of `execution.py` and `make_provider` of `provider_registry.py`. The `mock`
backend stands in for every declared provider, a real backend is one adapter for both versions, and
`live` is the adapter that each version declares.

A real backend checks the generation parameters and the API keys here, so that a run does not fail
over them later. The adapters are those of `Adapters`: what one checks before its request is
`checkAdapter`, and what the request answers is the outside.

The set of providers is walked with the baseline's first. Python's order is another one at times,
which decides between two missing keys.
-/

set_option autoImplicit false

namespace EvalOps

/-- `Backend`. -/
inductive ProviderBackend
  | mock
  | ollama
  | openai
  | anthropic
  | live
deriving DecidableEq, Repr

/-- The name of a backend. -/
def ProviderBackend.value : ProviderBackend → String
  | mock => "mock"
  | ollama => "ollama"
  | openai => "openai"
  | anthropic => "anthropic"
  | live => "live"

/-- `_REAL_BACKENDS`: the provider of a backend that is a single provider. -/
def ProviderBackend.realProvider : ProviderBackend → Option ProviderName
  | ollama => some .ollama
  | openai => some .openai
  | anthropic => some .anthropic
  | mock | live => none

/-- `DEFAULT_BASE_URL` of `ollama.py`. -/
def defaultOllamaBaseUrl : String := "http://localhost:11434"

/-- `_DEFAULT_BASE_URL`. -/
def defaultBaseUrl : ProviderName → String
  | .ollama => defaultOllamaBaseUrl
  | .openai => "https://api.openai.com/v1"
  | .anthropic => "https://api.anthropic.com/v1"

/-- `DEFAULT_TIMEOUT_SECONDS`. -/
def defaultTimeoutSeconds : ℚ := 120

/-- `ExecutionSpec`. -/
structure ExecutionSpec where
  backend : ProviderBackend
  baseUrl : String
  timeoutSeconds : PyFloat

/-- What the adapters take from the process and from the network. -/
structure ProviderEnvironment where
  /-- The environment variables are those of this world. -/
  world : World
  /-- What the request of an adapter answers. -/
  reply : ProviderName → String → PyFloat → ℕ → String → SystemVersion → Py ProviderResponse

/-! ### The adapters as clients -/

/-- The name of the adapter's class. -/
def adapterName : ProviderName → String
  | .openai => "OpenAIProvider"
  | .anthropic => "AnthropicProvider"
  | .ollama => "OllamaProvider"

/-- The translation of the generation parameters of a provider, with its `_PROVIDER_LABEL`. -/
def generationParams (name : ProviderName) (parameters : List (String × Json)) :
    Py (List (String × Json)) :=
  match name with
  | .ollama => buildOptions parameters
  | .openai => cloudParams parameters "OpenAI"
  | .anthropic => cloudParams parameters "Anthropic"

/-- `require_api_key`. -/
def requireApiKey (world : World) (provider : ProviderName) : Py Unit :=
  if (envVar provider).isSome then (apiKey world provider).map fun _ => () else pure ()

/-- What `complete` of an adapter checks before its request. -/
def checkAdapter (world : World) (name : ProviderName) (config : SystemVersion) : Py Unit := do
  requireProvider config name (adapterName name)
  let _ ← generationParams name config.parameters
  requireApiKey world name

/-- The adapter of a provider, as a client. -/
def adapterClient (env : ProviderEnvironment) (name : ProviderName) (baseUrl : String)
    (timeoutSeconds : PyFloat) : ProviderClient where
  name := name.value
  checkConfig := checkAdapter env.world name
  reply := env.reply name baseUrl timeoutSeconds

/-! ### Building the map -/

/-- `x <= 0`. -/
def nonPositive : PyFloat → Bool
  | .finite x => decide (x ≤ 0)
  | .inf negative => negative
  | .nan => false

/-- `make_provider`, which requires the credentials. -/
def makeProvider (env : ProviderEnvironment) (name : ProviderName) (baseUrl : Option String)
    (timeoutSeconds : PyFloat) : Py ProviderClient := do
  if nonPositive timeoutSeconds then
    throw (.config "provider timeout_seconds must be greater than 0")
  -- `base_url or _DEFAULT_BASE_URL.get(name)`: every provider has a default.
  let resolved := if baseUrl.getD "" = "" then defaultBaseUrl name else baseUrl.getD ""
  requireApiKey env.world name
  pure (adapterClient env name resolved timeoutSeconds)

/-- `_validate_generation_params`. -/
def SystemVersion.validateGenerationParams (version : SystemVersion) : Py Unit :=
  (generationParams version.provider version.parameters).map fun _ => ()

section

variable {V : Type} (providerOf : V → ProviderName) (validate : V → Py Unit)

/-- The check that a version declares the provider of the backend. -/
def requireDeclared (backend : ProviderBackend) (target : ProviderName) (entry : String × V) :
    Py Unit :=
  if providerOf entry.2 ≠ target then
    throw (.config ("execution backend is " ++ PyText.repr backend.value ++ " but " ++ entry.1 ++
      ".provider is " ++ PyText.repr (providerOf entry.2).value ++ "; it must be " ++
      PyText.repr backend.value))
  else pure ()

/-- The providers that a real backend uses. -/
def usedProviders (spec : ExecutionSpec) (baseline candidate : V) : Py (List ProviderName) :=
  match spec.backend.realProvider with
  | none => pure [providerOf baseline, providerOf candidate].dedup
  | some target => do
      [("baseline", baseline), ("candidate", candidate)].forM
        (requireDeclared providerOf spec.backend target)
      pure [target]

/-- The client of a real backend for a provider. Only Ollama takes the URL of the execution. -/
def realClient (env : ProviderEnvironment) (spec : ExecutionSpec) (name : ProviderName) :
    Py (ProviderName × ProviderClient) := do
  let baseUrl := if name = .ollama then some spec.baseUrl else none
  let client ← makeProvider env name baseUrl spec.timeoutSeconds
  pure (name, client)

/-- `build_providers`, over versions of either source. -/
def buildProviders (env : ProviderEnvironment) (spec : ExecutionSpec) (baseline candidate : V) :
    Py (Dict ProviderName ProviderClient) := do
  if spec.backend = .mock then
    pure (Dict.ofList ([providerOf baseline, providerOf candidate].dedup.map (·, mockProvider)))
  else
    if nonPositive spec.timeoutSeconds then
      throw (.config "execution timeout_seconds must be greater than 0")
    let used ← usedProviders providerOf spec baseline candidate
    [baseline, candidate].forM validate
    let clients ← used.mapM (realClient env spec)
    pure (Dict.ofList clients)

end

end EvalOps
