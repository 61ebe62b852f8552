import EvalOps.Domain.Errors
import EvalOps.Lib.Watched
import EvalOps.Obs.Logging

/-!
# `EvalOps.Obs.LogScopes`: programs that log

A program over a state that logs events, and opens correlation scopes around its parts. `log_event`
and `correlation_scope` are the two ways in which the code does so.
-/

set_option autoImplicit false

namespace EvalOps

open Obs Watched

/-- A program over a state that logs. -/
abbrev Logged (σ α : Type) := Effect (Watched σ Correlation LogEvent) PyError α

variable {σ α : Type}

/-- `log_event(_logger, ...)`, under the fields in scope. -/
def logTo (unicodeAlnum : Char → Bool) (logger event : String) (level : LogLevel)
    (fields : List (String × LogValue)) : Logged σ Unit :=
  emit fun context => [logEvent unicodeAlnum logger event level fields context]

/-- `correlation_scope(**fields)`. -/
def correlationScope (fields : List (String × Option String)) (body : Logged σ α) : Logged σ α :=
  within (fun context => context.bind fields) body

end EvalOps
