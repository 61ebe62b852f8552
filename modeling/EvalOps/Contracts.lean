import EvalOps.Domain.Entities
import EvalOps.Lib.EffectRules

/-!
# `EvalOps.Contracts`: providers, evaluators and their effects

The protocols of `domain/contracts.py`. A provider call leaves the process, so its reply is
whatever the outside says: a `ProviderClient` answers the `k`-th `complete` call of a run by a
function of `k`. `RunM` is the monad of a run. Its state counts the `complete` calls made, and
the count survives an exception.

`complete` first validates the version it is given (`_MockSpec.from_config`, `cloud_params`,
`build_options`, the provider check), which depends on nothing but the version. Then it asks the
outside. The two parts are the fields `checkConfig` and `reply`.
-/

set_option autoImplicit false

namespace EvalOps

/-- `ProviderResponse`. -/
structure ProviderResponse where
  text : String
  usage : UsageMetrics
  retrieval : List RetrievedItem
  toolCalls : List ToolCall

/-- `ProviderClient`: a synchronous client for one model provider. -/
structure ProviderClient where
  name : String
  /-- What `complete` validates about the version before it asks for a completion. -/
  checkConfig : SystemVersion → Py Unit
  /-- The outside's answer to the `k`-th call of the run. -/
  reply : ℕ → String → SystemVersion → Py ProviderResponse

/-- `Evaluator`: a scorer for one dimension. The score it returns carries its own name. -/
structure Evaluator where
  name : String
  family : EvaluatorFamily
  evaluate : EvaluationRun → DatasetCase → Py EvaluatorScore
  evaluate_name : ∀ run reference score,
    evaluate run reference = .ok score → score.evaluator.text = name

/-- A run: it may raise, and it counts the `complete` calls made. -/
abbrev RunM (α : Type) := Effect ℕ PyError α

/-- `provider.complete(prompt, config)`. The call is counted when it is made. -/
def ProviderClient.complete (provider : ProviderClient) (prompt : String)
    (config : SystemVersion) : RunM ProviderResponse := do
  let k ← get
  set (k + 1)
  Effect.lift (provider.checkConfig config)
  Effect.lift (provider.reply k prompt config)

end EvalOps
