import EvalOps.Gate

/-!
# `EvalOps.Execution`: run, aggregate, attach the evidence, gate

`execution.py`. `runEvaluation` is the pipeline that the command line and the persisted path
share. Its part after the provider calls is `assess`: it is pure, and it reads nothing but the
outcome.
-/

set_option autoImplicit false

namespace EvalOps

/-- `EvaluationOutcome`. -/
structure EvaluationOutcome where
  outcome : RunOutcome
  result : EvaluationResult
  gate : GateReport

/-- `replace(result, evidence=evidence)`. -/
def EvaluationResult.replaceEvidence (result : EvaluationResult)
    (evidence : List MetricEvidence) : Py EvaluationResult :=
  EvaluationResult.make result.experimentId result.metrics evidence
    ⟨result.id, result.createdAt⟩

/-- What `run_evaluation` does with the outcome of the run. -/
def assess (rt : Runtime) (experiment : Experiment) (evaluatorNames : List String)
    (policy : Option ReleasePolicy) (stamp : Stamp) (outcome : RunOutcome) :
    Py EvaluationOutcome := do
  let aggregated ← aggregateResults experiment outcome evaluatorNames stamp
  let evidence ← buildStatisticalEvidence rt .default experiment outcome evaluatorNames
  let result ← aggregated.replaceEvidence evidence
  let gate ← evaluateGate result policy
  pure { outcome, result, gate }

/-- `run_evaluation`. -/
def runEvaluation (env : Environment) (rt : Runtime) (experiment : Experiment)
    (dataset : Dataset) (baseline candidate : SystemVersion) (policy : Option ReleasePolicy)
    (evaluators : List Evaluator) (providers : Dict ProviderName ProviderClient) :
    RunM EvaluationOutcome := do
  let outcome ← runExperiment env experiment dataset baseline candidate providers evaluators
  Effect.lift
    (assess rt experiment (evaluators.map Evaluator.name) policy env.resultStamp outcome)

end EvalOps
