import EvalOps.Judge

/-!
# `EvalOps.Calibration`: a judge against human labels

`calibration.py`. `calibrateJudge` asks the judge for a verdict on each labeled example, in order.
A `ProviderError` or a `JudgeError` becomes a case without a verdict. Every other exception ends the
calibration.
-/

set_option autoImplicit false

namespace EvalOps

/-! ### Metrics -/

/-- `_ratio`. -/
def ratio (numerator denominator : ℕ) : Option ℚ :=
  if denominator = 0 then none else some ((numerator : ℚ) / denominator)

/-- `f1` of a precision and a recall. -/
def f1Score (precision «recall» : Option ℚ) : Option ℚ :=
  match precision, «recall» with
  | some p, some r => if p + r = 0 then none else some (2 * p * r / (p + r))
  | _, _ => none

/-- The number of scored cases with a human label and a verdict. -/
def countCells (cases : List JudgeCalibrationCase) (human judge : Bool) : ℕ :=
  cases.countP fun c => decide (c.humanPass = human ∧ c.judgePass = some judge)

/-- `compute_metrics`. -/
def computeMetrics (cases : List JudgeCalibrationCase) : Py JudgeCalibrationMetrics :=
  let total := cases.length
  let scored := cases.filter fun c => c.judgePass.isSome
  let failures : ℤ := total - scored.length
  let tp := countCells scored true true
  let tn := countCells scored false false
  let fp := countCells scored false true
  let fn := countCells scored true false
  let agreements := tp + tn
  let precision := ratio tp (tp + fp)
  let «recall» := ratio tp (tp + fn)
  JudgeCalibrationMetrics.init total scored.length failures agreements
    (ratio agreements scored.length) tp tn fp fn precision «recall» (f1Score precision «recall»)

/-! ### One example -/

/-- `_bounded`, with `_MAX_ERROR_CHARS`. -/
def boundedError (text : String) : String :=
  let cleaned := " ".intercalate (PyText.split text)
  let cleaned :=
    if 2000 < cleaned.length then String.ofList (cleaned.toList.take 1999 ++ [Char.ofNat 0x2026])
    else cleaned
  if cleaned = "" then "unknown error" else cleaned

/-- `except (ProviderError, JudgeError)` catches this exception. -/
def isJudgeFailure (exc : PyError) : Bool :=
  decide (exc.kind = .providerError) || decide (exc.kind = .judgeError)

/-- The case of an example on which the judge failed. -/
def failedCase (labeled : LabeledJudgeExample) (exc : PyError) : Py JudgeCalibrationCase :=
  JudgeCalibrationCase.init labeled.input.text labeled.output.text labeled.reference
    labeled.humanPass none none none
    (some (boundedError (exc.kind.className ++ ": " ++ exc.message)))

/-- The case of an example with a verdict. -/
def judgedCase (labeled : LabeledJudgeExample) (verdict : JudgeVerdict) :
    Py JudgeCalibrationCase :=
  JudgeCalibrationCase.init labeled.input.text labeled.output.text labeled.reference
    labeled.humanPass (some verdict.passed) (some verdict.score) verdict.reasoning none

/-- One turn of the loop of `calibrate_judge`. -/
def calibrateExample (judge : LLMJudge) (limits : JsonReader.Limits) (stamps : ℕ → Stamp)
    (labeled : LabeledJudgeExample) : RunM JudgeCalibrationCase := do
  let outcome ← tryCatch
    (do
      let verdict ← judge.judge limits stamps labeled.input.text labeled.output.text
        labeled.reference
      pure (Except.ok verdict))
    (fun exc => if isJudgeFailure exc then pure (Except.error exc) else throw exc)
  match outcome with
  | .error exc => Effect.lift (failedCase labeled exc)
  | .ok verdict => Effect.lift (judgedCase labeled verdict)

/-! ### The calibration -/

/-- `calibrate_judge`. -/
def calibrateJudge (judge : LLMJudge) (limits : JsonReader.Limits) (stamps : ℕ → Stamp)
    (stamp : Stamp) (rubricId : String) (examples : List LabeledJudgeExample) :
    RunM JudgeCalibration := do
  let cases ← examples.mapM (calibrateExample judge limits stamps)
  let metrics ← Effect.lift (computeMetrics cases)
  Effect.lift (JudgeCalibration.init judge.providerName judge.model judge.name judge.temperature
    rubricId metrics cases stamp.id.text stamp.createdAt)

end EvalOps
