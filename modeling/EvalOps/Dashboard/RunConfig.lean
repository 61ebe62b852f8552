import EvalOps.EvaluatorSpecs
import EvalOps.Lib.JsText

/-!
# `EvalOps.Dashboard.RunConfig`: the run form of the dashboard

`dashboard/src/lib/run-config.ts`. `validateRunConfig` checks the state of the form, and
`buildRunRequest` turns it into the body of a run request. `EvaluatorSpec.toMapping` is the spec of
the body as the mapping that `build_evaluators` receives.

The texts of `EVALUATOR_META` that only the page shows are left out.
-/

set_option autoImplicit false

namespace EvalOps.Dashboard

/-- `EvaluatorType`. -/
inductive EvaluatorType
  | exactMatch
  | contains
  | regexMatch
  | retrievalRecall
  | contextPrecision
  | groundedness
  | toolSelection
  | toolArguments
  | toolSuccess
  | toolTrajectory
deriving DecidableEq

/-- The text of a type. -/
def EvaluatorType.text : EvaluatorType → String
  | exactMatch => "exact_match"
  | contains => "contains"
  | regexMatch => "regex_match"
  | retrievalRecall => "retrieval_recall"
  | contextPrecision => "context_precision"
  | groundedness => "groundedness"
  | toolSelection => "tool_selection"
  | toolArguments => "tool_arguments"
  | toolSuccess => "tool_success"
  | toolTrajectory => "tool_trajectory"

/-- `thresholdKey`. -/
inductive ThresholdKey
  | minRecall
  | minPrecision
  | minGroundedness
  | minScore
deriving DecidableEq

/-- The field of a spec. -/
def ThresholdKey.text : ThresholdKey → String
  | minRecall => "min_recall"
  | minPrecision => "min_precision"
  | minGroundedness => "min_groundedness"
  | minScore => "min_score"

/-- The `thresholdKey` of `EVALUATOR_META`. The `thresholdLabel` has the same text. -/
def EvaluatorType.thresholdKey : EvaluatorType → Option ThresholdKey
  | exactMatch | contains | regexMatch => none
  | retrievalRecall => some .minRecall
  | contextPrecision => some .minPrecision
  | groundedness => some .minGroundedness
  | toolSelection | toolArguments | toolSuccess | toolTrajectory => some .minScore

/-- `EvaluatorRow`. -/
structure EvaluatorRow where
  type : EvaluatorType
  name : String
  caseSensitive : Bool
  pattern : String
  threshold : String
deriving DecidableEq

/-- `ExecutionBackend`. -/
inductive ExecutionBackend
  | mock
  | ollama
deriving DecidableEq

/-- `RunConfigState`. -/
structure RunConfigState where
  backend : ExecutionBackend
  baseUrl : String
  timeoutSeconds : String
  evaluators : List EvaluatorRow

/-- `effectiveEvaluatorName`. -/
def effectiveEvaluatorName (row : EvaluatorRow) : String :=
  if JsText.trim row.name = "" then row.type.text else JsText.trim row.name

/-! ### Validation -/

/-- `RunConfigErrors`. -/
structure RunConfigErrors where
  evaluators : Option String
  rows : List (Option String)
  ollama : Option String

/-- `!Number.isFinite(value) || value < 0 || value > 1` does not hold. -/
def isShare : PyFloat → Bool
  | .finite x => decide (0 ≤ x ∧ x ≤ 1)
  | _ => false

/-- `thresholdError`. -/
def thresholdError (row : EvaluatorRow) : Option String :=
  match row.type.thresholdKey with
  | none => none
  | some key =>
      if JsText.trim row.threshold = "" then none
      else if isShare (JsText.toNumber row.threshold) then none
      else some (key.text ++ " must be a number between 0 and 1.")

/-- The error of a row. -/
def rowError (row : EvaluatorRow) : Option String :=
  if row.type = .regexMatch ∧ JsText.trim row.pattern = "" then
    some "Pattern is required for regex_match."
  else thresholdError row

/-- The error of the list of evaluators. `new Set(names).size` is the number of distinct names. -/
def evaluatorsError (rows : List EvaluatorRow) : Option String :=
  if rows.isEmpty then some "Add at least one evaluator."
  else if (rows.map effectiveEvaluatorName).dedup.length ≠ rows.length then
    some "Evaluator names must be unique."
  else none

/-- `Number.isNaN(timeout) || timeout <= 0`. -/
def isBadTimeout : PyFloat → Bool
  | .finite x => decide (x ≤ 0)
  | .inf negative => negative
  | .nan => true

/-- The error of the connection to Ollama. -/
def ollamaError (state : RunConfigState) : Option String :=
  if state.backend = .ollama then
    if JsText.trim state.baseUrl = "" then some "Base URL is required."
    else if JsText.trim state.timeoutSeconds = "" ||
        isBadTimeout (JsText.toNumber state.timeoutSeconds) then
      some "Timeout must be a number greater than 0."
    else none
  else none

/-- `validateRunConfig`. -/
def validateRunConfig (state : RunConfigState) : RunConfigErrors where
  evaluators := evaluatorsError state.evaluators
  rows := state.evaluators.map rowError
  ollama := ollamaError state

/-! ### The request -/

/-- `EvaluatorSpec`: the fields that are set. -/
structure EvaluatorSpec where
  type : EvaluatorType
  name : Option String
  caseSensitive : Option Bool
  pattern : Option String
  threshold : Option (ThresholdKey × PyFloat)

/-- `ExecutionOptions`. -/
inductive ExecutionOptions
  | mock
  | ollama (baseUrl : String) (timeoutSeconds : PyFloat)

/-- `RunRequest`. -/
structure RunRequest where
  execution : ExecutionOptions
  evaluators : List EvaluatorSpec

/-- The spec of a row, with only the fields that its type supports. -/
def evaluatorSpec (row : EvaluatorRow) : EvaluatorSpec where
  type := row.type
  name := if JsText.trim row.name = "" then none else some (JsText.trim row.name)
  caseSensitive :=
    if row.type = .exactMatch ∨ row.type = .contains then some row.caseSensitive else none
  pattern := if row.type = .regexMatch then some row.pattern else none
  threshold :=
    match row.type.thresholdKey with
    | none => none
    | some key =>
        if JsText.trim row.threshold = "" then none
        else some (key, JsText.toNumber row.threshold)

/-- `OLLAMA_DEFAULT_BASE_URL`. -/
def ollamaDefaultBaseUrl : String := "http://localhost:11434"

/-- `OLLAMA_DEFAULT_TIMEOUT_SECONDS`. -/
def ollamaDefaultTimeoutSeconds : ℚ := 120

/-- The execution of a request. -/
def executionOptions (state : RunConfigState) : ExecutionOptions :=
  match state.backend with
  | .mock => .mock
  | .ollama =>
      .ollama
        (if JsText.trim state.baseUrl = "" then ollamaDefaultBaseUrl
          else JsText.trim state.baseUrl)
        (match JsText.toNumber state.timeoutSeconds with
          | .finite x => .finite x
          | _ => .finite ollamaDefaultTimeoutSeconds)

/-- `buildRunRequest`. -/
def buildRunRequest (state : RunConfigState) : RunRequest where
  execution := executionOptions state
  evaluators := state.evaluators.map evaluatorSpec

/-! ### The request at the backend -/

namespace EvaluatorSpec

/-- The fields of a spec, set or not. -/
def fields (spec : EvaluatorSpec) : List (String × Option SpecValue) :=
  [("type", some (.str spec.type.text)), ("name", spec.name.map .str),
    ("case_sensitive", spec.caseSensitive.map .bool), ("pattern", spec.pattern.map .str)] ++
    spec.threshold.toList.map fun threshold => (threshold.1.text, some (.float threshold.2))

/-- The spec as a mapping. -/
def toMapping (spec : EvaluatorSpec) : SpecMapping := Dict.ofList (Dict.setFields spec.fields)

end EvaluatorSpec

/-- `build_evaluators` on the evaluators of a request. -/
def buildRequested (env : SpecEnvironment) (request : RunRequest) : Py (List BuiltEvaluator) :=
  buildEvaluators env (request.evaluators.map fun spec => some spec.toMapping)

end EvalOps.Dashboard
