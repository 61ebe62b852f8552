import EvalOps.AgentEvaluators
import EvalOps.EvaluatorSpecs
import EvalOps.RagEvaluators

/-!
# `EvalOps.BuiltEvaluators`: the evaluators that the builder constructs

`ExactMatch`, `Contains` and `RegexMatch` of `evaluators.py`, `ToolSelection` of
`agent_evaluators.py`, and the `Evaluator` of each `BuiltEvaluator`. An LLM judge calls its own
provider when it scores, so it is no `Evaluator` here.

`str.casefold` and `re.search` are parameters, the `TextEnvironment`.
-/

set_option autoImplicit false

namespace EvalOps

/-- What the text evaluators use of Python. -/
structure TextEnvironment where
  /-- `str.casefold`. -/
  casefold : String → String
  /-- `re.search(pattern, text) is not None`. -/
  search : String → String → Bool

/-- `_score`. -/
def passOrFail (name : String) (passed : Bool) : Py EvaluatorScore :=
  EvaluatorScore.make name .deterministic (if passed then 1 else 0) (some passed)

/-- `_reference_output`. -/
def referenceOutput (reference : DatasetCase) (evaluatorName : String) : Py String :=
  match reference.expectedOutput with
  | none => throw (.config ("evaluator " ++ PyText.repr evaluatorName ++
      " requires expected_output, but case " ++ PyText.repr reference.id.text ++ " has none"))
  | some expected => pure expected

/-- `text.casefold()`, unless the case matters. -/
def foldCase (env : TextEnvironment) (caseSensitive : Bool) (text : String) : String :=
  if caseSensitive then text else env.casefold text

/-- `ExactMatch.evaluate`. -/
def exactMatchEvaluate (env : TextEnvironment) (caseSensitive : Bool) (name : String)
    (run : EvaluationRun) (reference : DatasetCase) : Py EvaluatorScore := do
  let actual := PyText.strip run.output
  let target := PyText.strip (← referenceOutput reference name)
  passOrFail name
    (decide (foldCase env caseSensitive actual = foldCase env caseSensitive target))

/-- `Contains.evaluate`. -/
def containsEvaluate (env : TextEnvironment) (caseSensitive : Bool) (name : String)
    (run : EvaluationRun) (reference : DatasetCase) : Py EvaluatorScore := do
  let needle := foldCase env caseSensitive (← referenceOutput reference name)
  let haystack := foldCase env caseSensitive run.output
  passOrFail name (decide (needle.toList <:+: haystack.toList))

/-- `RegexMatch.evaluate`. -/
def regexMatchEvaluate (env : TextEnvironment) (pattern name : String) (run : EvaluationRun)
    (_ : DatasetCase) : Py EvaluatorScore :=
  passOrFail name (env.search pattern run.output)

/-- The score of `ToolSelection.evaluate`: the Jaccard overlap of two sets of names. -/
def jaccard {α : Type} [DecidableEq α] (expected observed : Finset α) : ℚ :=
  if expected ∪ observed = ∅ then 1 else (expected ∩ observed).card / (expected ∪ observed).card

/-- `ToolSelection.evaluate`. -/
def toolSelectionEvaluate (evaluator : Thresholded) (run : EvaluationRun)
    (reference : DatasetCase) : Py EvaluatorScore := do
  let expected := ((← expectedCalls reference evaluator.name).map ExpectedToolCall.name).toFinset
  let observed := (run.toolCalls.map ToolCall.name).toFinset
  evaluator.scored .deterministic (jaccard expected observed)

/-- `ToolSuccess`, of its minimum score and its name. -/
def Thresholded.toolSuccess (evaluator : Thresholded) : ToolSuccess where
  minScore := evaluator.minScore
  name := evaluator.name
  minScore_nonneg := evaluator.minScore_nonneg
  minScore_le_one := evaluator.minScore_le_one

/-- `evaluate` of an evaluator with a minimum score. -/
def gradedEvaluate (type : GradedType) (evaluator : Thresholded) :
    EvaluationRun → DatasetCase → Py EvaluatorScore :=
  match type with
  | .retrievalRecall => RetrievalRecall.evaluate ⟨evaluator⟩
  | .contextPrecision => ContextPrecision.evaluate ⟨evaluator⟩
  | .groundedness => GroundednessLexical.evaluate ⟨evaluator⟩
  | .toolSelection => toolSelectionEvaluate evaluator
  | .toolArguments => ToolArguments.evaluate ⟨evaluator⟩
  | .toolSuccess => evaluator.toolSuccess.evaluate
  | .toolTrajectory => ToolTrajectory.evaluate ⟨evaluator⟩

/-- `family` of an evaluator with a minimum score. -/
def GradedType.family : GradedType → EvaluatorFamily
  | retrievalRecall | contextPrecision => .statistical
  | _ => .deterministic

/-- `evaluate` of a built evaluator that is no judge. -/
def BuiltEvaluator.evaluate (env : TextEnvironment) :
    BuiltEvaluator → Option (EvaluationRun → DatasetCase → Py EvaluatorScore)
  | exactMatch caseSensitive name => some (exactMatchEvaluate env caseSensitive name)
  | contains caseSensitive name => some (containsEvaluate env caseSensitive name)
  | regexMatch pattern name => some (regexMatchEvaluate env pattern name)
  | graded type evaluator => some (gradedEvaluate type evaluator)
  | llmJudge _ => none

/-- `family` of a built evaluator. -/
def BuiltEvaluator.family : BuiltEvaluator → EvaluatorFamily
  | exactMatch _ _ | contains _ _ | regexMatch _ _ => .deterministic
  | graded type _ => type.family
  | llmJudge _ => .llmJudge

/-! ### Every score carries the name of its evaluator -/

theorem passOrFail_name {name : String} {passed : Bool} {s : EvaluatorScore}
    (h : passOrFail name passed = .ok s) : s.evaluator.text = name :=
  EvaluatorScore.make_eq_ok h

theorem Thresholded.scored_name {evaluator : Thresholded} {family : EvaluatorFamily} {score : ℚ}
    {s : EvaluatorScore} (h : evaluator.scored family score = .ok s) :
    s.evaluator.text = evaluator.name :=
  EvaluatorScore.make_eq_ok h

theorem gradedEvaluate_name {type : GradedType} {evaluator : Thresholded} {run : EvaluationRun}
    {reference : DatasetCase} {s : EvaluatorScore}
    (h : gradedEvaluate type evaluator run reference = .ok s) :
    s.evaluator.text = evaluator.name := by
  cases type with
  | retrievalRecall =>
      obtain ⟨_, _, h⟩ := ExceptRules.bind_eq_ok.mp h
      exact Thresholded.scored_name h
  | contextPrecision =>
      obtain ⟨_, _, h⟩ := ExceptRules.bind_eq_ok.mp h
      exact Thresholded.scored_name h
  | groundedness =>
      -- An answer without words is scored apart.
      simp only [gradedEvaluate, GroundednessLexical.evaluate] at h
      split at h
      · exact EvaluatorScore.make_eq_ok h
      · exact Thresholded.scored_name h
  | toolSelection =>
      obtain ⟨_, _, h⟩ := ExceptRules.bind_eq_ok.mp h
      exact Thresholded.scored_name h
  | toolArguments =>
      obtain ⟨_, _, h⟩ := ExceptRules.bind_eq_ok.mp h
      dsimp only at h
      split at h
      · cases h
      · exact Thresholded.scored_name h
  | toolSuccess => exact EvaluatorScore.make_eq_ok h
  | toolTrajectory =>
      obtain ⟨_, _, h⟩ := ExceptRules.bind_eq_ok.mp h
      obtain ⟨_, _, h⟩ := ExceptRules.bind_eq_ok.mp h
      exact Thresholded.scored_name h

theorem BuiltEvaluator.evaluate_name {env : TextEnvironment} {evaluator : BuiltEvaluator}
    {evaluate : EvaluationRun → DatasetCase → Py EvaluatorScore}
    (he : evaluator.evaluate env = some evaluate) (run : EvaluationRun) (reference : DatasetCase)
    (s : EvaluatorScore) (h : evaluate run reference = .ok s) :
    s.evaluator.text = evaluator.name := by
  cases evaluator with
  | llmJudge judge => cases he
  | regexMatch pattern name =>
      cases he
      exact passOrFail_name h
  | graded type evaluator =>
      cases he
      exact gradedEvaluate_name h
  | exactMatch caseSensitive name =>
      cases he
      obtain ⟨_, _, h⟩ := ExceptRules.bind_eq_ok.mp h
      exact passOrFail_name h
  | contains caseSensitive name =>
      cases he
      obtain ⟨_, _, h⟩ := ExceptRules.bind_eq_ok.mp h
      exact passOrFail_name h

/-- The `Evaluator` of a built evaluator that is no judge. -/
def BuiltEvaluator.toEvaluator (env : TextEnvironment) (evaluator : BuiltEvaluator) :
    Option Evaluator :=
  match h : evaluator.evaluate env with
  | none => none
  | some evaluate => some
      { name := evaluator.name
        family := evaluator.family
        evaluate
        evaluate_name := evaluator.evaluate_name h }

end EvalOps
