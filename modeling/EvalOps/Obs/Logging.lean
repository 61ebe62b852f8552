import EvalOps.Lib.Dict
import EvalOps.Lib.Json
import EvalOps.Obs.Redact

/-!
# `EvalOps.Obs.Logging`: correlation fields and log events

`obs/context.py` and `log_event` of `obs/logging.py`. A `Correlation` is the value of the context
variable, and an event is the payload that the formatter gets: the event's name, the correlation
fields in scope, and the fields of the call.
-/

set_option autoImplicit false

namespace EvalOps.Obs

/-- The correlation fields in scope. -/
abbrev Correlation := Dict String String

namespace Correlation

/-- What `bind` makes of the fields in scope: the fields that are set are merged. -/
def bind (context : Correlation) (fields : List (String × Option String)) : Correlation :=
  fields.foldl
    (fun merged field =>
      match field.2 with
      | none => merged
      | some value => merged.insert field.1 value)
    context

/-- `snapshot_for_dispatch`. -/
def snapshotForDispatch (context : Correlation) : Correlation :=
  ["request_id", "experiment_id"].foldl
    (fun snapshot k =>
      match context.get? k with
      | none => snapshot
      | some value => snapshot.insert k value)
    .empty

end Correlation

/-- The level of a log call. -/
inductive LogLevel
  | debug
  | info
  | warning
  | error
deriving DecidableEq

/-- A value of a log call. -/
inductive LogValue
  | none
  | bool (b : Bool)
  | int (n : ℤ)
  | float (x : ℚ)
  | str (text : String)

/-- An optional text as a value of a log call. -/
def LogValue.ofText? : Option String → LogValue
  | Option.none => .none
  | some text => .str text

/-- `_RESERVED`: the attributes of a `LogRecord`, and the two that a formatter adds. -/
def reserved : List String :=
  ["name", "msg", "args", "levelname", "levelno", "pathname", "filename", "module", "exc_info",
    "exc_text", "stack_info", "lineno", "funcName", "created", "msecs", "relativeCreated", "thread",
    "threadName", "processName", "process", "taskName", "message", "asctime"]

/-- One event: the logger, the level and the payload of the record. -/
structure LogEvent where
  logger : String
  level : LogLevel
  payload : Dict String Json

variable (unicodeAlnum : Char → Bool)

/-- `_coerce`, for a value that is set. -/
def LogValue.coerce : LogValue → Option Json
  | .none => Option.none
  | .bool b => some (.bool b)
  | .int n => some (.int n)
  | .float x => some (.float x)
  | .str text => some (.str (safeStr unicodeAlnum text defaultLimit))

/-- `payload[key] = value` for each pair. -/
def assign (payload : Dict String Json) (pairs : List (String × Json)) : Dict String Json :=
  pairs.foldl (fun payload pair => payload.insert pair.1 pair.2) payload

/-- The fields of a call that reach the payload: those that are set and not reserved. -/
def loggedFields (fields : List (String × LogValue)) : List (String × Json) :=
  fields.filterMap fun field =>
    if field.1 ∈ reserved then none
    else (field.2.coerce unicodeAlnum).map fun value => (field.1, value)

/-- The payload of `log_event`. -/
def eventPayload (context : Correlation) (event : String) (fields : List (String × LogValue)) :
    Dict String Json :=
  assign
    (assign (Dict.empty.insert "event" (.str event))
      (context.entries.map fun entry => (entry.1, .str entry.2)))
    (loggedFields unicodeAlnum fields)

/-- `log_event`, under the fields in scope. -/
def logEvent (logger event : String) (level : LogLevel) (fields : List (String × LogValue))
    (context : Correlation) : LogEvent where
  logger := logger
  level := level
  payload := eventPayload unicodeAlnum context event fields

end EvalOps.Obs
