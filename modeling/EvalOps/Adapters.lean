import EvalOps.Domain.Constructors
import EvalOps.Lib.PyFloat
import EvalOps.Lib.Sorting

/-!
# `EvalOps.Adapters`: the OpenAI, Anthropic and Ollama adapters

`cloud_providers.py` and `ollama.py`. `complete` validates the version, makes one HTTP request and
walks the decoded reply. What the request meets on the way is a `World`: the environment
variables, the transport, `json.loads`, and the clock. The payload of the request is left out, as
nothing reads it here.
-/

set_option autoImplicit false

namespace EvalOps

/-! ### Replies -/

/-- What `json.loads` returns: JSON, and the special floats that it accepts. An object is a `dict`,
so its keys are distinct. -/
inductive Decoded
  | null
  | bool (b : Bool)
  | int (n : ℤ)
  | float (x : PyFloat)
  | str (s : String)
  | arr (items : List Decoded)
  | obj (fields : List (String × Decoded))

/-- `UsageMetrics`, before its floats are known to be numbers. -/
structure FloatUsage where
  promptTokens : ℤ
  completionTokens : ℤ
  costUsd : PyFloat
  latencyMs : PyFloat

/-- `UsageMetrics.__post_init__`: a float that is not a number is not negative either. -/
def FloatUsage.init (promptTokens completionTokens : ℤ) (costUsd latencyMs : PyFloat) :
    Py FloatUsage := do
  if promptTokens < 0 then
    throw (.domainValidation s!"prompt_tokens must be non-negative, got {promptTokens}")
  if completionTokens < 0 then
    throw (.domainValidation s!"completion_tokens must be non-negative, got {completionTokens}")
  if costUsd.isNegative then throw (.domainValidation "cost_usd must be non-negative")
  if latencyMs.isNegative then throw (.domainValidation "latency_ms must be non-negative")
  pure { promptTokens, completionTokens, costUsd, latencyMs }

/-- A usage of finite, non-negative numbers. -/
def UsageMetrics.floats (u : UsageMetrics) : FloatUsage where
  promptTokens := u.promptTokens
  completionTokens := u.completionTokens
  costUsd := .finite u.costUsd
  latencyMs := .finite u.latencyMs

/-- `ProviderResponse`, of a provider that reports neither retrieval nor tool calls. -/
structure FloatResponse where
  text : String
  usage : FloatUsage

/-- `raise ProviderError(message)`. -/
def PyError.provider (message : String) : PyError := ⟨.providerError, message⟩

/-! ### The world of one request -/

/-- None of the three `except` clauses around the request catches the exception, and it is not one
of `evalops`. -/
def PyError.Uncaught (exc : PyError) : Prop :=
  exc.isEvalOpsError = false ∧
    exc.kind ∉ [.other "HTTPError", .other "TimeoutError", .other "URLError"]

/-- How `urlopen` and `response.read()` end. -/
inductive Transport
  /-- `HTTPError`: the status, and what reading and decoding its body gives. -/
  | httpError (code : ℤ) (errorBody : Py String)
  /-- `TimeoutError`. -/
  | timeoutError
  /-- `URLError`. -/
  | urlError (reason : String)
  /-- Any other exception, such as a `ConnectionResetError` or an `IncompleteRead`. -/
  | raises (exc : PyError) (uncaught : exc.Uncaught)
  /-- The bytes of the body. -/
  | response (body : List UInt8)

/-- `json.JSONDecodeError`. -/
def jsonDecodeError : ErrorKind := .other "JSONDecodeError"

/-- What one `complete` meets outside the adapter. -/
structure World where
  /-- `os.environ.get`. -/
  environ : String → Option String
  transport : Transport
  /-- `json.loads`. -/
  loads : List UInt8 → Py Decoded
  loads_foreign : ∀ raw exc, loads raw = .error exc → exc.isEvalOpsError = false
  /-- `str` of a decoded value. -/
  strOf : Decoded → String
  /-- What `time.perf_counter` measures around the request, in milliseconds. -/
  elapsedMs : ℚ
  elapsedMs_nonneg : 0 ≤ elapsedMs

/-! ### The HTTP request -/

/-- `_MAX_ERROR_CHARS`. -/
def maxErrorChars : ℕ := 300

/-- `_truncate`. -/
def truncateText (text : String) : String :=
  let joined := " ".intercalate (PyText.split text)
  if joined.length ≤ maxErrorChars then joined
  else String.ofList (joined.toList.take maxErrorChars) ++ "..."

/-- `_read_error_body`. -/
def readErrorBody (errorBody : Py String) : String :=
  match errorBody with
  | .ok text => truncateText text
  | .error _ => ""

/-- `_post_json`. -/
def postJson (world : World) (label url : String) (timeout : ℚ) :
    Py (List (String × Decoded)) :=
  let request := label ++ " request to " ++ url
  match world.transport with
  | .httpError code errorBody =>
      let detail := readErrorBody errorBody
      let suffix := if detail = "" then "" else " (" ++ detail ++ ")"
      throw (.provider (request ++ s!" failed: HTTP {code}" ++ suffix))
  | .timeoutError =>
      throw (.provider (request ++ " timed out after " ++ PyText.general 6 timeout ++ "s"))
  | .urlError reason => throw (.provider (request ++ " failed: " ++ reason))
  | .raises exc _ => throw exc
  | .response raw =>
      match world.loads raw with
      | .error exc =>
          if exc.kind = jsonDecodeError then
            throw (.provider (label ++ " returned a non-JSON response from " ++ url))
          else throw exc
      | .ok (.obj fields) => pure fields
      | .ok _ =>
          throw (.provider (label ++ " returned an unexpected response shape from " ++ url))

/-! ### Generation parameters -/

/-- `float(value)` of an integer. -/
def floatOfInt (n : ℤ) : Py ℚ :=
  if (PyFloat.ofRat n).isNone then
    throw ⟨.other "OverflowError", "int too large to convert to float"⟩
  else pure n

/-- One turn of the loop that `cloud_params` and `build_options` share. -/
def generationParam (supporter : String) (floatKeys intKeys : List String) (least : ℤ)
    (entry : String × Json) : Py (Option (String × Json)) := do
  let (key, value) := entry
  if key = "mock" then pure none
  else if key ∉ floatKeys ++ intKeys then
    throw (.config ("parameters." ++ PyText.repr key ++ " is not a supported " ++ supporter ++
      " generation parameter; supported: " ++
      PyText.reprList (Sorting.sorted (floatKeys ++ intKeys)) ++
      " (plus 'mock' for the mock backend)"))
  else if key ∈ floatKeys then
    match value with
    | .int n =>
        if n < 0 then throw (.config ("parameters." ++ key ++ " must be a number >= 0"))
        else do
          let x ← floatOfInt n
          pure (some (key, .float x))
    | .float x =>
        if x < 0 then throw (.config ("parameters." ++ key ++ " must be a number >= 0"))
        else pure (some (key, .float x))
    | _ => throw (.config ("parameters." ++ key ++ " must be a number >= 0"))
  else
    match value with
    | .int n =>
        if n < least then
          throw (.config ("parameters." ++ key ++ s!" must be an integer >= {least}"))
        else pure (some (key, .int n))
    | _ => throw (.config ("parameters." ++ key ++ s!" must be an integer >= {least}"))

/-- `cloud_params`. -/
def cloudParams (parameters : List (String × Json)) (provider : String) :
    Py (List (String × Json)) := do
  let params ← parameters.mapM
    (generationParam provider ["temperature", "top_p"] ["max_tokens"] 1)
  pure params.reduceOption

/-- `build_options`. -/
def buildOptions (parameters : List (String × Json)) : Py (List (String × Json)) := do
  let options ← parameters.mapM
    (generationParam "Ollama" ["temperature", "top_p"] ["seed", "num_predict"] 0)
  pure options.reduceOption

/-! ### Keys -/

/-- `_ENV_VAR`. Ollama has no key. -/
def envVar : ProviderName → Option String
  | .openai => some "OPENAI_API_KEY"
  | .anthropic => some "ANTHROPIC_API_KEY"
  | .ollama => none

/-- `_api_key`. A provider without a key is not in `_ENV_VAR`. -/
def apiKey (world : World) (provider : ProviderName) : Py String :=
  match envVar provider with
  | none => throw ⟨.keyError, provider.value⟩
  | some name =>
      let key := PyText.strip ((world.environ name).getD "")
      if key = "" then
        throw (.config ("the " ++ provider.value ++ " provider requires the " ++ name ++
          " environment variable, which is not set. API keys are read from the environment only " ++
          "-- never from a config file, the database, or a request body."))
      else pure key

/-! ### Walking the reply -/

/-- `_int_or_zero` of an optional field. -/
def intOrZero (value : Option Decoded) : ℤ :=
  match value with
  | some (.int n) => if 0 ≤ n then n else 0
  | _ => 0

/-- `_usage_map`. -/
def usageMap (body : List (String × Decoded)) : List (String × Decoded) :=
  match body.lookup "usage" with
  | some (.obj fields) => fields
  | _ => []

/-- `choices[0].message.content` of one choice, if it is text. -/
def messageContent (choice : List (String × Decoded)) : Option String :=
  match choice.lookup "message" with
  | some (.obj message) =>
      match message.lookup "content" with
      | some (.str text) => some text
      | _ => none
  | _ => none

/-- `_parse_openai`. -/
def parseOpenai (body : List (String × Decoded)) (model : String) (latencyMs : ℚ) :
    Py FloatResponse :=
  match body.lookup "choices" with
  | some (.arr (.obj choice :: _)) =>
      match messageContent choice with
      | none =>
          throw (.provider ("OpenAI response for model " ++ PyText.repr model ++
            " is missing choices[0].message.content"))
      | some text => do
          let usage ← FloatUsage.init (intOrZero ((usageMap body).lookup "prompt_tokens"))
            (intOrZero ((usageMap body).lookup "completion_tokens")) (.finite 0)
            (.finite latencyMs)
          pure { text, usage }
  | _ => throw (.provider ("OpenAI response for model " ++ PyText.repr model ++ " has no choices"))

/-- The text of a content block, if it is a text block. -/
def blockText (block : Decoded) : Option String :=
  match block with
  | .obj fields =>
      match fields.lookup "type", fields.lookup "text" with
      | some (.str "text"), some (.str text) => some text
      | _, _ => none
  | _ => none

/-- `_parse_anthropic`. -/
def parseAnthropic (body : List (String × Decoded)) (model : String) (latencyMs : ℚ) :
    Py FloatResponse :=
  match body.lookup "content" with
  | some (.arr blocks) =>
      match blocks.filterMap blockText with
      | [] =>
          throw (.provider ("Anthropic response for model " ++ PyText.repr model ++
            " contains no text content block"))
      | parts => do
          let usage ← FloatUsage.init (intOrZero ((usageMap body).lookup "input_tokens"))
            (intOrZero ((usageMap body).lookup "output_tokens")) (.finite 0) (.finite latencyMs)
          pure { text := String.join parts, usage }
  | _ =>
      throw (.provider ("Anthropic response for model " ++ PyText.repr model ++ " has no content"))

/-- `_require_count`. -/
def requireCountField (body : List (String × Decoded)) (key model : String) : Py ℤ :=
  match body.lookup key with
  | some (.int n) =>
      if n < 0 then
        throw (.provider ("Ollama response for model " ++ PyText.repr model ++
          " has missing or invalid " ++ PyText.repr key))
      else pure n
  | _ =>
      throw (.provider ("Ollama response for model " ++ PyText.repr model ++
        " has missing or invalid " ++ PyText.repr key))

/-- `_NS_PER_MS`. -/
def nsPerMs : ℕ := 1000000

/-- `total_duration / _NS_PER_MS`. -/
def durationMs (totalDuration : ℤ ⊕ PyFloat) : Py PyFloat :=
  match totalDuration with
  | .inl n =>
      match PyFloat.ofRat ((n : ℚ) / nsPerMs) with
      | some x => pure x
      | none => throw ⟨.other "OverflowError", "integer division result too large for a float"⟩
  | .inr x => pure (x.divNat nsPerMs)

/-- `total_duration`, when it is a number that is not negative. -/
def totalDuration (body : List (String × Decoded)) : Option (ℤ ⊕ PyFloat) :=
  match body.lookup "total_duration" with
  | some (.int n) => if n < 0 then none else some (.inl n)
  | some (.float x) => if x.isNegative then none else some (.inr x)
  | _ => none

/-- `_parse_generate_response`. -/
def parseGenerateResponse (body : List (String × Decoded)) (model : String) :
    Py FloatResponse :=
  match body.lookup "response" with
  | some (.str text) =>
      match totalDuration body with
      | none =>
          throw (.provider ("Ollama response for model " ++ PyText.repr model ++
            " has missing or invalid 'total_duration'"))
      | some duration => do
          let promptTokens ← requireCountField body "prompt_eval_count" model
          let completionTokens ← requireCountField body "eval_count" model
          let latencyMs ← durationMs duration
          let usage ← FloatUsage.init promptTokens completionTokens (.finite 0) latencyMs
          pure { text, usage }
  | _ =>
      throw (.provider ("Ollama response for model " ++ PyText.repr model ++
        " is missing 'response' text"))

/-! ### The adapters -/

/-- The fields of an adapter: `base_url` and `timeout_seconds`. -/
structure Endpoint where
  baseUrl : String
  timeoutSeconds : ℚ

/-- `__post_init__`: `base_url.rstrip("/")`. -/
def Endpoint.init (baseUrl : String) (timeoutSeconds : ℚ) : Endpoint where
  baseUrl := String.ofList (baseUrl.toList.reverse.dropWhile (· = '/')).reverse
  timeoutSeconds := timeoutSeconds

/-- The check that the version is for this adapter. -/
def requireProvider (config : SystemVersion) (provider : ProviderName) (adapter : String) :
    Py Unit :=
  if config.provider ≠ provider then
    throw (.provider (adapter ++ " requires a SystemVersion with provider '" ++ provider.value ++
      "', got " ++ PyText.repr config.provider.value))
  else pure ()

/-- `OpenAIProvider.complete`. -/
def openaiComplete (endpoint : Endpoint) (world : World) (config : SystemVersion) :
    Py FloatResponse := do
  requireProvider config .openai "OpenAIProvider"
  let _ ← cloudParams config.parameters "OpenAI"
  let _ ← apiKey world .openai
  let body ← postJson world "OpenAI" (endpoint.baseUrl ++ "/chat/completions")
    endpoint.timeoutSeconds
  parseOpenai body config.model.text world.elapsedMs

/-- `AnthropicProvider.complete`. -/
def anthropicComplete (endpoint : Endpoint) (world : World) (config : SystemVersion) :
    Py FloatResponse := do
  requireProvider config .anthropic "AnthropicProvider"
  let _ ← cloudParams config.parameters "Anthropic"
  let _ ← apiKey world .anthropic
  let body ← postJson world "Anthropic" (endpoint.baseUrl ++ "/messages") endpoint.timeoutSeconds
  parseAnthropic body config.model.text world.elapsedMs

/-- `OllamaProvider._post`. -/
def ollamaPost (endpoint : Endpoint) (world : World) (path : String) :
    Py (List (String × Decoded)) := do
  let parsed ← postJson world "Ollama" (endpoint.baseUrl ++ path) endpoint.timeoutSeconds
  match parsed.lookup "error" with
  | some err => throw (.provider ("Ollama error: " ++ truncateText (world.strOf err)))
  | none => pure parsed

/-- `OllamaProvider.complete`. -/
def ollamaComplete (endpoint : Endpoint) (world : World) (config : SystemVersion) :
    Py FloatResponse := do
  requireProvider config .ollama "OllamaProvider"
  let _ ← buildOptions config.parameters
  let body ← ollamaPost endpoint world "/api/generate"
  parseGenerateResponse body config.model.text

/-- `complete` of the adapter for a provider. -/
def complete (provider : ProviderName) (endpoint : Endpoint) (world : World)
    (config : SystemVersion) : Py FloatResponse :=
  match provider with
  | .openai => openaiComplete endpoint world config
  | .anthropic => anthropicComplete endpoint world config
  | .ollama => ollamaComplete endpoint world config

end EvalOps
