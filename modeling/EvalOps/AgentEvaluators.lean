import EvalOps.Evaluators
import EvalOps.Lib.Grouping

/-!
# `EvalOps.AgentEvaluators`: the evaluators of authored tool calls

`ToolArguments` and `ToolTrajectory` of `agent_evaluators.py`. They compare the tool calls that an
agent reported with the `expected_tool_calls` of the case, the first by the arguments and the
second by the order of the names.

`canonical` builds Python values, which `Canonical` stands for, and `Canonical.pyEq` is Python's
`==` on them. It compares numbers by value across their types, and a `bool` is a number.
-/

set_option autoImplicit false

namespace EvalOps

/-! ### Canonical forms -/

/-- The Python values that `_canonical` builds. -/
inductive Canonical
  | none
  | bool (b : Bool)
  | int (n : ℤ)
  | float (x : ℚ)
  | str (s : String)
  | tuple (items : List Canonical)

namespace Canonical

/-- The numeric value of a number. `True` is `1` and `False` is `0`. -/
def number? : Canonical → Option ℚ
  | bool b => some (if b then 1 else 0)
  | int n => some n
  | float x => some x
  | _ => Option.none

mutual

/-- Python's `==`. -/
def pyEq : Canonical → Canonical → Bool
  | none, none => true
  | str s, str t => decide (s = t)
  | tuple xs, tuple ys => pyEqItems xs ys
  | a, b =>
      match a.number?, b.number? with
      | some x, some y => decide (x = y)
      | _, _ => false

/-- `==` on the items of two tuples. -/
def pyEqItems : List Canonical → List Canonical → Bool
  | [], [] => true
  | x :: xs, y :: ys => pyEq x y && pyEqItems xs ys
  | _, _ => false

end

end Canonical

mutual

/-- `_canonical`: the fields of an object become pairs in the order of their keys. -/
def canonical : Json → Canonical
  | .null => .none
  | .bool b => .bool b
  | .int n => .int n
  | .float x => .float x
  | .str s => .str s
  | .arr items => .tuple (canonicalItems items)
  | .obj fields =>
      .tuple ((Sorting.sortedOn Prod.fst (canonicalFields fields)).map fun p =>
        .tuple [.str p.1, p.2])

/-- `_canonical` of each item. -/
def canonicalItems : List Json → List Canonical
  | [] => []
  | item :: items => canonical item :: canonicalItems items

/-- The keys of an object with the canonical forms of their values. -/
def canonicalFields : List (String × Json) → List (String × Canonical)
  | [] => []
  | (key, value) :: fields => (key, canonical value) :: canonicalFields fields

end

/-- `_canonical` of the arguments of an expectation. -/
def canonicalArguments : Option (List (String × Json)) → Canonical
  | none => .none
  | some fields => canonical (.obj fields)

/-! ### Names in order -/

section

variable {α : Type} [DecidableEq α]

/-- One turn of the outer loop of `_lcs_len`: the row of one more element of `a`. -/
def lcsRow (b : List α) (prev : List ℕ) (x : α) : Py (List ℕ) :=
  (b.zipIdx 1).foldlM (fun curr (y, j) => do
    if x = y then pure (curr ++ [(← pyIndex prev ((j : ℤ) - 1)) + 1])
    else pure (curr ++ [max (← pyIndex prev j) (← pyIndex curr ((j : ℤ) - 1))])) [0]

/-- `_lcs_len`. -/
def lcsLen (a b : List α) : Py ℕ := do
  if a.isEmpty || b.isEmpty then pure 0
  else
    let last ← a.foldlM (lcsRow b) (List.replicate (b.length + 1) 0)
    pyIndex last (-1)

/-- The score of `ToolTrajectory.evaluate`. -/
def trajectoryScore (expected observed : List α) : Py ℚ := do
  let denom := expected.length + observed.length
  if denom ≠ 0 then pure ((2 * (← lcsLen expected observed) : ℕ) / denom) else pure 1

end

/-! ### The evaluators -/

/-- `_expected_calls`. -/
def expectedCalls (reference : DatasetCase) (evaluatorName : String) :
    Py (List ExpectedToolCall) :=
  if reference.expectedToolCalls.isEmpty then
    throw (.config ("evaluator " ++ PyText.repr evaluatorName ++
      " requires expected_tool_calls, but case " ++ PyText.repr reference.id.text ++
      " has none"))
  else pure reference.expectedToolCalls

/-- `ToolArguments`. -/
structure ToolArguments extends Thresholded

namespace ToolArguments

/-- `ToolArguments()`. -/
def default : ToolArguments where
  minScore := 1
  name := "tool_arguments"
  minScore_nonneg := one_nonneg
  minScore_le_one := one_le_unit

/-- One turn of the loop over the labelled expectations. The state is `(seen, matched)`. -/
def matchTurn (observedByName : Dict NonBlank (List ToolCall)) (state : Dict NonBlank ℕ × ℕ)
    (expected : ExpectedToolCall) : Dict NonBlank ℕ × ℕ :=
  let index := (state.1.get? expected.name).getD 0
  let seen := state.1.insert expected.name (index + 1)
  let candidates := (observedByName.get? expected.name).getD []
  match candidates[index]? with
  | some call =>
      if (canonical (.obj call.arguments)).pyEq (canonicalArguments expected.arguments) then
        (seen, state.2 + 1)
      else (seen, state.2)
  | none => (seen, state.2)

/-- The number of labelled expectations whose observed call has their arguments. -/
def matched (calls : List ToolCall) (labelled : List ExpectedToolCall) : ℕ :=
  (labelled.foldl (matchTurn (Dict.group ToolCall.name calls)) (.empty, 0)).2

/-- `ToolArguments.evaluate`. -/
def evaluate (evaluator : ToolArguments) (run : EvaluationRun) (reference : DatasetCase) :
    Py EvaluatorScore := do
  let labelled := (← expectedCalls reference evaluator.name).filter fun e => e.arguments.isSome
  if labelled.isEmpty then
    throw (.config ("evaluator " ++ PyText.repr evaluator.name ++
      " requires at least one expected_tool_calls entry with explicit arguments, but case " ++
      PyText.repr reference.id.text ++ " has none"))
  evaluator.scored .deterministic (matched run.toolCalls labelled / labelled.length)

end ToolArguments

/-- `ToolTrajectory`. -/
structure ToolTrajectory extends Thresholded

namespace ToolTrajectory

/-- `ToolTrajectory()`. -/
def default : ToolTrajectory where
  minScore := 1
  name := "tool_trajectory"
  minScore_nonneg := one_nonneg
  minScore_le_one := one_le_unit

/-- `ToolTrajectory.evaluate`. -/
def evaluate (evaluator : ToolTrajectory) (run : EvaluationRun)
    (reference : DatasetCase) : Py EvaluatorScore := do
  let expectedSeq := (← expectedCalls reference evaluator.name).map ExpectedToolCall.name
  let observedSeq := run.toolCalls.map ToolCall.name
  evaluator.scored .deterministic (← trajectoryScore expectedSeq observedSeq)

end ToolTrajectory

end EvalOps
