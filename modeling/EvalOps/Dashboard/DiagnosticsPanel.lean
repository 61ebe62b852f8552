import EvalOps.Api.Runs
import EvalOps.Lib.JsText

/-!
# `EvalOps.Dashboard.DiagnosticsPanel`: the regressing cases on the page

`scoreTransitions` of `diagnostics.ts`, and the rows of `regression-diagnostics.tsx` that show one
case with its runs. The labels of the categories and the layout are left out.
-/

set_option autoImplicit false

namespace EvalOps.Dashboard

/-- The UTF-16 code units of a text, by which JavaScript orders strings. -/
def codeUnits (s : String) : List ℕ :=
  s.toList.flatMap fun c =>
    let n := c.toNat
    if n < 0x10000 then [n] else [0xD800 + (n - 0x10000) / 0x400, 0xDC00 + (n - 0x10000) % 0x400]

/-- `ScoreTransition`. -/
structure ScoreTransition where
  evaluator : String
  baseline : Option EvaluatorScoreRead
  candidate : Option EvaluatorScoreRead
  regressed : Bool
deriving DecidableEq

/-- `new Map(scores.map((s) => [s.evaluator, s]))`. -/
def scoresByEvaluator (run : Option EvaluationRunRead) : Dict String EvaluatorScoreRead :=
  Dict.ofList (((run.map EvaluationRunRead.scores).getD []).map fun s => (s.evaluator, s))

/-- The `regressed` of two scores. -/
def regressed : Option EvaluatorScoreRead → Option EvaluatorScoreRead → Bool
  | some baseline, some candidate =>
      decide (baseline.passed = some true ∧ candidate.passed = some false) ||
        decide (candidate.score < baseline.score)
  | _, _ => false

/-- `scoreTransitions`. -/
def scoreTransitions (baseline candidate : Option EvaluationRunRead) : List ScoreTransition :=
  let b := scoresByEvaluator baseline
  let c := scoresByEvaluator candidate
  let names := Sorting.sortedOn codeUnits (b.keys ++ c.keys).dedup
  names.map fun evaluator =>
    { evaluator
      baseline := b.get? evaluator
      candidate := c.get? evaluator
      regressed := regressed (b.get? evaluator) (c.get? evaluator) }

/-- `runsById.get(id)`. -/
def runById (runs : List EvaluationRunRead) (id : String) : Option EvaluationRunRead :=
  (Dict.ofList (runs.map fun run => (run.id, run))).get? id

/-- What `CaseRow` shows: the runs of a case, and its `TransitionTable`. -/
structure CaseRowView where
  baseline : Option EvaluationRunRead
  candidate : Option EvaluationRunRead
  rows : List ScoreTransition

/-- `CaseRow`. -/
def caseRowView (runs : List EvaluationRunRead) (entry : RegressingCase) : CaseRowView :=
  let baseline := runById runs entry.representative.baselineRunId.text
  let candidate := runById runs entry.representative.candidateRunId.text
  { baseline, candidate
    rows := (scoreTransitions baseline candidate).filter fun t =>
      t.baseline.isSome || t.candidate.isSome }

end EvalOps.Dashboard
