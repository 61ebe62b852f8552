import EvalOps.Evaluators
import EvalOps.Judge
import EvalOps.Lib.Dict

/-!
# `EvalOps.EvaluatorSpecs`: building evaluators from specs

`build_evaluators` of `evaluators.py`: one evaluator for each `{"type": ..., ...}` spec, with
effective names that must be unique. A spec is a mapping of values, of which the builder only tells
the types apart that it accepts.

Two parts are parameters, the `SpecEnvironment`: `re.compile`, which raises `re.error` or another
exception of its own for a pattern that it rejects, and `_build_llm_judge`, which reads API keys and
opens a client.
-/

set_option autoImplicit false

namespace EvalOps

/-- A value in a spec. -/
inductive SpecValue
  | none
  | bool (b : Bool)
  | int (n : ℤ)
  | float (x : PyFloat)
  | str (s : String)
  | other

/-- A spec that is a mapping. -/
abbrev SpecMapping := Dict String SpecValue

/-- The class of `re.error`. -/
def reError : ErrorKind := .other "error"

/-- What the builder uses of its surroundings. -/
structure SpecEnvironment where
  /-- `re.compile`: the exception that it raises, if there is one. -/
  compileError : String → Option PyError
  compileError_foreign : ∀ pattern exc, compileError pattern = some exc →
    exc.kind ≠ .configError
  /-- `_build_llm_judge`. -/
  buildLlmJudge : SpecMapping → String → Option String → Py LLMJudge

/-- A compiler that accepts every pattern raises nothing. -/
theorem compiles_foreign (_ : String) (exc : PyError) (h : none = some exc) :
    exc.kind ≠ .configError := by
  cases h

/-- The evaluators with a minimum score. -/
inductive GradedType
  | retrievalRecall
  | contextPrecision
  | groundedness
  | toolSelection
  | toolArguments
  | toolSuccess
  | toolTrajectory
deriving DecidableEq

namespace GradedType

/-- The evaluators with a minimum score, in the order of the builder. -/
def all : List GradedType :=
  [.retrievalRecall, .contextPrecision, .groundedness, .toolSelection, .toolArguments, .toolSuccess,
    .toolTrajectory]

/-- The `type` of a spec. -/
def type : GradedType → String
  | retrievalRecall => "retrieval_recall"
  | contextPrecision => "context_precision"
  | groundedness => "groundedness"
  | toolSelection => "tool_selection"
  | toolArguments => "tool_arguments"
  | toolSuccess => "tool_success"
  | toolTrajectory => "tool_trajectory"

/-- The field of the minimum score. -/
def field : GradedType → String
  | retrievalRecall => "min_recall"
  | contextPrecision => "min_precision"
  | groundedness => "min_groundedness"
  | toolSelection | toolArguments | toolSuccess | toolTrajectory => "min_score"

/-- The minimum score of a spec without one. -/
def defaultMinimum : GradedType → ℚ
  | groundedness => 8 / 10
  | _ => 1

/-- The name of a spec without one. -/
def defaultName : GradedType → String
  | retrievalRecall => "retrieval_recall"
  | contextPrecision => "context_precision"
  | groundedness => "groundedness_lexical"
  | toolSelection => "tool_selection"
  | toolArguments => "tool_arguments"
  | toolSuccess => "tool_success"
  | toolTrajectory => "tool_trajectory"

/-- The class that a `type` selects. -/
def ofType (type : String) : Option GradedType := all.find? fun graded => graded.type == type

end GradedType

/-- An evaluator as the builder constructs it. -/
inductive BuiltEvaluator
  | exactMatch (caseSensitive : Bool) (name : String)
  | contains (caseSensitive : Bool) (name : String)
  | regexMatch (pattern name : String)
  | llmJudge (judge : LLMJudge)
  | graded (type : GradedType) (evaluator : Thresholded)

/-- `evaluator.name`. -/
def BuiltEvaluator.name : BuiltEvaluator → String
  | exactMatch _ name | contains _ name | regexMatch _ name => name
  | llmJudge judge => judge.name
  | graded _ evaluator => evaluator.name

/-- `name or default`. -/
def nameOr (name : Option String) (default : String) : String :=
  match name with
  | some name => if name = "" then default else name
  | none => default

/-- `_spec_bool`. -/
def specBool (spec : SpecMapping) (key label : String) (default : Bool) : Py Bool :=
  match spec.get? key with
  | none => pure default
  | some (.bool b) => pure b
  | some _ => throw (.config (label ++ "." ++ key ++ " must be a boolean"))

/-- `_spec_float`. -/
def specFloat (spec : SpecMapping) (key label : String) (default : ℚ) : Py PyFloat :=
  match spec.get? key with
  | none => pure (.finite default)
  | some (.int n) => do
      let x ← floatOfInt n
      pure (.finite x)
  | some (.float x) => pure x
  | some _ => throw (.config (label ++ "." ++ key ++ " must be a number"))

/-- An evaluator with a minimum score, which `_threshold` checks. -/
def thresholded (value : PyFloat) (name field : String) : Py Thresholded :=
  let rejection : PyError :=
    .config ("evaluator " ++ PyText.repr name ++ " " ++ field ++ " must be a number within [0, 1]")
  match value with
  | .finite x =>
      if h0 : 0 ≤ x then
        if h1 : x ≤ 1 then pure ⟨x, name, h0, h1⟩ else throw rejection
      else throw rejection
  | _ => throw rejection

/-- `RegexMatch(pattern, name)`. Only `re.error` is caught. -/
def regexMatch (env : SpecEnvironment) (pattern name : String) : Py BuiltEvaluator :=
  match env.compileError pattern with
  | some exc =>
      if exc.kind = reError then throw (.config
        ("invalid regex pattern for evaluator " ++ PyText.repr name ++ ": " ++ exc.message))
      else throw exc
  | none => pure (.regexMatch pattern name)

/-- `_EVALUATOR_TYPES`. -/
def evaluatorTypes : List String :=
  ["exact_match", "contains", "regex_match", "llm_judge", "retrieval_recall", "context_precision",
    "groundedness", "tool_selection", "tool_arguments", "tool_success", "tool_trajectory"]

/-- The `name` of a spec. -/
def specName (spec : SpecMapping) (label : String) : Py (Option String) :=
  match spec.get? "name" with
  | none | some .none => pure none
  | some (.str name) => pure (some name)
  | some _ => throw (.config (label ++ ".name must be a string"))

/-- The evaluator of one spec, before its name is compared. -/
def buildEvaluator (env : SpecEnvironment) (label : String) (spec : Option SpecMapping) :
    Py BuiltEvaluator :=
  match spec with
  | none => throw (.config (label ++ " must be a mapping"))
  | some spec =>
      match spec.get? "type" with
      | some (.str evaluatorType) => do
          let name ← specName spec label
          if evaluatorType = "exact_match" then
            let caseSensitive ← specBool spec "case_sensitive" label true
            pure (.exactMatch caseSensitive (nameOr name "exact_match"))
          else if evaluatorType = "contains" then
            let caseSensitive ← specBool spec "case_sensitive" label false
            pure (.contains caseSensitive (nameOr name "contains"))
          else if evaluatorType = "regex_match" then
            match spec.get? "pattern" with
            | some (.str pattern) => regexMatch env pattern (nameOr name "regex_match")
            | _ => throw (.config (label ++ ": missing required field 'pattern'"))
          else if evaluatorType = "llm_judge" then
            let judge ← env.buildLlmJudge spec label name
            pure (.llmJudge judge)
          else
            match GradedType.ofType evaluatorType with
            | some graded =>
                let minimum ← specFloat spec graded.field label graded.defaultMinimum
                let evaluator ← thresholded minimum (nameOr name graded.defaultName) graded.field
                pure (.graded graded evaluator)
            | none => throw (.config (label ++ ".type " ++ PyText.repr evaluatorType ++
                " is not one of " ++ PyText.reprList evaluatorTypes))
      | _ => throw (.config (label ++ ": missing required field 'type'"))

/-- The error of a name that was seen before. -/
def duplicateName (name : String) : PyError :=
  .config ("duplicate evaluator name " ++ PyText.repr name)

/-- One turn of the loop of `build_evaluators`. The state is `(built, seen)`. -/
def buildTurn (env : SpecEnvironment) (state : List BuiltEvaluator × List String)
    (entry : Option SpecMapping × ℕ) : Py (List BuiltEvaluator × List String) := do
  let (spec, index) := entry
  let evaluator ← buildEvaluator env s!"evaluators[{index}]" spec
  if evaluator.name ∈ state.2 then throw (duplicateName evaluator.name)
  else pure (state.1 ++ [evaluator], evaluator.name :: state.2)

/-- `build_evaluators`. -/
def buildEvaluators (env : SpecEnvironment) (specs : List (Option SpecMapping)) :
    Py (List BuiltEvaluator) := do
  let (built, _) ← specs.zipIdx.foldlM (buildTurn env) ([], [])
  pure built

end EvalOps
