import EvalOps.Report

/-!
# `EvalOps.Cli`: the command line

`_run` of `cli.py`, after `argparse`. Loading, running and building the report are inside the
`try`; the writes are not. The output channels are the outside: `Output.accepts` says what a
write answers, after the writes made so far. A print to the standard error stream succeeds.
-/

set_option autoImplicit false

namespace EvalOps

/-- Where the command writes. -/
inductive Channel
  | stdout
  | stderr
  | file (path : String)
deriving DecidableEq

/-- One text that was written. -/
structure Write where
  channel : Channel
  text : String
deriving DecidableEq

/-- The outside of one command: the digits of a float, and what a write answers. -/
structure Output where
  floatRepr : ℚ → String
  accepts : List Write → Channel → String → Py Unit

/-- A command: it may raise, and it keeps the texts written. -/
abbrev CliM (α : Type) := Effect (List Write) PyError α

/-- `sys.stdout.write(text)` and `Path(path).write_text(text)`. -/
def Output.write (output : Output) (channel : Channel) (text : String) : CliM Unit := do
  let written ← get
  Effect.lift (output.accepts written channel text)
  set (written ++ [⟨channel, text⟩])

/-- `print(text, file=sys.stderr)`. -/
def printError (text : String) : CliM Unit := do
  let written ← get
  set (written ++ [⟨.stderr, text ++ "\n"⟩])

/-- The text that the two `except` clauses print. -/
def errorText (exc : PyError) : String :=
  if exc.isEvalOpsError then "error: " ++ exc.message
  else "error: unexpected failure: " ++ exc.kind.className ++ ": " ++ exc.message

/-- The arguments of `evalops run`, besides the config. -/
structure RunArgs where
  jsonPath : Option String
  quiet : Bool

/-- `json_to_stdout`. -/
def RunArgs.jsonToStdout (args : RunArgs) : Bool := decide (args.jsonPath = some "-")

/-- `show_human`. -/
def RunArgs.showHuman (args : RunArgs) : Bool := !args.quiet && !args.jsonToStdout

/-- The body of the `try`: the evaluation and its report. -/
def evaluateAndReport (env : Environment) (rt : Runtime) (load : Py RunPlan) :
    RunM (EvaluationOutcome × RunReport) := do
  let plan ← Effect.lift load
  let evaluation ← plan.evaluate env rt
  let report ← Effect.lift
    (buildReport plan evaluation.outcome evaluation.result evaluation.gate)
  pure (evaluation, report)

/-- The text of `json_report`. -/
def Output.jsonText (output : Output) (report : RunReport) : String :=
  Json.dumps output.floatRepr (jsonReport report) ++ "\n"

/-- The write of the JSON report. -/
def Output.writeJson (output : Output) (args : RunArgs) (report : RunReport) : CliM Unit :=
  match args.jsonPath with
  | none => pure ()
  | some path =>
      if args.jsonToStdout then output.write .stdout (output.jsonText report)
      else output.write (.file path) (output.jsonText report)

/-- The writes behind the `try`. -/
def Output.writeReport (output : Output) (args : RunArgs) (report : RunReport) : CliM Unit := do
  if args.showHuman then
    output.write .stdout (humanReport report)
  output.writeJson args report

/-- `_run`: the number it returns. -/
def run (output : Output) (args : RunArgs) (attempt : Py (EvaluationOutcome × RunReport)) :
    CliM ℕ := do
  match attempt with
  | .error exc =>
      if exc.isException then
        printError (errorText exc)
        pure 2
      else throw exc
  | .ok (evaluation, report) =>
      output.writeReport args report
      pure (if evaluation.gate.decision = .block then 1 else 0)

/-- The exit status of a process that ends in `raise SystemExit(main())`. An uncaught exception
ends it with status 1. -/
def exitStatus : Py ℕ → ℕ
  | .ok n => n
  | .error _ => 1

/-- The exit status of `evalops run`. -/
def evalopsRun (output : Output) (args : RunArgs) (env : Environment) (rt : Runtime)
    (load : Py RunPlan) : ℕ :=
  let attempt := (Effect.exec (evaluateAndReport env rt load) 0).1
  exitStatus (Effect.exec (run output args attempt) []).1

end EvalOps
