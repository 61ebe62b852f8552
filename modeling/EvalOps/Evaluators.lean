import EvalOps.Contracts
import EvalOps.Domain.Constructors

/-!
# `EvalOps.Evaluators`: the evaluator of reported tool calls

`ToolSuccess` of `agent_evaluators.py`, which needs no authored labels. `Thresholded` is what the
evaluators of authored labels have in common.
-/

set_option autoImplicit false

namespace EvalOps

/-- `ToolSuccess`: the share of the observed tool calls that succeeded. -/
structure ToolSuccess where
  minScore : ℚ
  name : String
  minScore_nonneg : 0 ≤ minScore
  minScore_le_one : minScore ≤ 1

namespace ToolSuccess

/-- `ToolSuccess.evaluate`. -/
def evaluate (evaluator : ToolSuccess) (run : EvaluationRun) (_ : DatasetCase) :
    Py EvaluatorScore :=
  let calls := run.toolCalls
  let score : ℚ := if calls.isEmpty then 1 else calls.countP ToolCall.ok / calls.length
  EvaluatorScore.make evaluator.name .deterministic score
    (some (decide (evaluator.minScore ≤ score)))

/-- `ToolSuccess` as an `Evaluator`. -/
def toEvaluator (evaluator : ToolSuccess) : Evaluator where
  name := evaluator.name
  family := .deterministic
  evaluate := evaluator.evaluate
  evaluate_name := fun _ _ _ h => EvaluatorScore.make_eq_ok h

/-- `build_evaluators([{"type": "tool_success"}])`. -/
def default : ToolSuccess where
  minScore := 1
  name := "tool_success"
  minScore_nonneg := zero_le_one
  minScore_le_one := le_refl 1

end ToolSuccess

/-- A name, and a minimum score that `_threshold` accepts. -/
structure Thresholded where
  minScore : ℚ
  name : String
  minScore_nonneg : 0 ≤ minScore
  minScore_le_one : minScore ≤ 1

/-- A minimum score of `1` passes the check. -/
theorem one_nonneg : (0 : ℚ) ≤ 1 := zero_le_one

theorem one_le_unit : (1 : ℚ) ≤ 1 := le_refl 1

/-- `EvaluatorScore(evaluator=self.name, family=self.family, score=score,
passed=score >= self.min_score)`. -/
def Thresholded.scored (evaluator : Thresholded) (family : EvaluatorFamily) (score : ℚ) :
    Py EvaluatorScore :=
  EvaluatorScore.make evaluator.name family score (some (decide (evaluator.minScore ≤ score)))

end EvalOps
