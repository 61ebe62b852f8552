import EvalOps.Execution

/-!
# `EvalOps.Config`: the plan of one evaluation

`RunPlan` is what `load_run_plan` assembles from a config file and what `execute_experiment`
assembles from the database. Both paths then run it: `runPlanned` loads a plan, evaluates it and
finishes with what the path does with the evaluation. Loading calls no provider.
-/

set_option autoImplicit false

namespace EvalOps

/-- `RunPlan`: everything that one evaluation needs. -/
structure RunPlan where
  project : Project
  dataset : Dataset
  experiment : Experiment
  baseline : SystemVersion
  candidate : SystemVersion
  evaluators : List Evaluator
  policy : Option ReleasePolicy
  providers : Dict ProviderName ProviderClient

/-- `run_evaluation` on the fields of a plan. -/
def RunPlan.evaluate (env : Environment) (rt : Runtime) (plan : RunPlan) :
    RunM EvaluationOutcome :=
  runEvaluation env rt plan.experiment plan.dataset plan.baseline plan.candidate plan.policy
    plan.evaluators plan.providers

/-- Load a plan, evaluate it, and finish. -/
def runPlanned {β : Type} (env : Environment) (rt : Runtime) (load : Py RunPlan)
    (finish : EvaluationOutcome → Py β) : RunM β := do
  let plan ← Effect.lift load
  let evaluation ← plan.evaluate env rt
  Effect.lift (finish evaluation)

/-- The command line's evaluation: `load_run_plan`, then `run_evaluation`. -/
def runConfig (env : Environment) (rt : Runtime) (load : Py RunPlan) : RunM EvaluationOutcome :=
  runPlanned env rt load pure

end EvalOps
