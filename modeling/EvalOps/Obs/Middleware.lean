import EvalOps.Domain.Errors
import EvalOps.Lib.PyText
import EvalOps.Lib.Watched
import EvalOps.Lib.WireText
import EvalOps.Obs.Logging

/-!
# `EvalOps.Obs.Middleware`: one request, one id, one event

`obs/middleware.py`. The application below the middleware is what it does under the correlation
fields in scope: the messages that it sends and the events that it logs, in order, and how it ends.

`MutableHeaders` is Starlette's: writing one header is the parameter `setHeader`. The fresh id is
what `uuid4().hex` draws, and the duration is what the clock says.
-/

set_option autoImplicit false

namespace EvalOps.Obs

open Watched

/-- `_REQUEST_ID_HEADER`. -/
def requestIdHeader : String := "x-request-id"

/-- `[A-Za-z0-9._\-]`. -/
def isRequestIdChar (c : Char) : Bool := c.isAlphanum || c == '.' || c == '_' || c == '-'

/-- `_VALID_REQUEST_ID.match(candidate)`. The `$` of the pattern also matches in front of a last
line feed. -/
def validRequestId (candidate : String) : Bool :=
  let cs := candidate.toList
  let body := if cs.getLast? = some '\n' then cs.dropLast else cs
  body.all isRequestIdChar && decide (1 ≤ body.length ∧ body.length ≤ 128)

/-- What `uuid4().hex` draws. -/
structure FreshId where
  text : String
  length : text.toList.length = 32
  hex : ∀ c ∈ text.toList, c.isDigit = true ∨ c ∈ ['a', 'b', 'c', 'd', 'e', 'f']

/-- The fields of an ASGI scope that the middleware reads. -/
structure HttpScope where
  type : String
  method : Option String
  path : Option String
  headers : List (List UInt8 × List UInt8)

/-- `_resolve_request_id`. -/
def resolveRequestId (fresh : FreshId) (scope : HttpScope) : String :=
  let rawName := WireText.asciiBytes requestIdHeader
  match scope.headers.find? fun header => decide (header.1 = rawName) with
  | none => fresh.text
  | some header =>
      let candidate := PyText.strip (WireText.decodeLatin1 header.2)
      if validRequestId candidate then candidate else fresh.text

/-- `_route`. `route` is the templated path, when routing matched. -/
def routeOf (scope : HttpScope) (route : Option String) : String :=
  let rawPath := scope.path.getD ""
  let path := route.getD ""
  if path ≠ "" then path else if rawPath ≠ "" then rawPath else "/"

/-- The headers of a response. -/
abbrev Headers := List (String × String)

/-- An ASGI message. -/
inductive Message
  | responseStart (status : ℕ) (headers : Headers)
  | other (type : String)

/-- One step of the application. -/
inductive AppStep
  | send (message : Message)
  | log (event : LogEvent)

/-- What the application does: its steps, the route that it matched, and what it raised. -/
structure AppRun where
  steps : List AppStep
  route : Option String
  raised : Option PyError

/-- The status that the middleware keeps, and what went out to the client. -/
structure Exchange where
  statusCode : ℕ
  sent : List Message

/-- A program that answers a request and logs. -/
abbrev HttpTx (α : Type) := Effect (Watched Exchange Correlation LogEvent) PyError α

/-- `send`. -/
def send (message : Message) : HttpTx Unit :=
  onState (modify fun exchange => { exchange with sent := exchange.sent ++ [message] })

/-- `status_code = status`. -/
def setStatusCode (status : ℕ) : HttpTx Unit :=
  onState (modify fun exchange => { exchange with statusCode := status })

/-- `send_wrapper`. -/
def sendWrapper (setHeader : Headers → String → String → Headers) (requestId : String) :
    Message → HttpTx Unit
  | .responseStart status headers => do
      setStatusCode status
      send (.responseStart status (setHeader headers requestIdHeader requestId))
  | .other type => send (.other type)

/-- The steps of the application, with what it sends with. -/
def runSteps (sendMessage : Message → HttpTx Unit) : List AppStep → HttpTx Unit
  | [] => pure ()
  | .send message :: steps => do
      sendMessage message
      runSteps sendMessage steps
  | .log event :: steps => do
      emit fun _ => [event]
      runSteps sendMessage steps

/-- `self.app(scope, receive, send)`. -/
def runApp (sendMessage : Message → HttpTx Unit) (run : AppRun) : HttpTx Unit := do
  runSteps sendMessage run.steps
  match run.raised with
  | none => pure ()
  | some exc => throw exc

section Events

variable (unicodeAlnum : Char → Bool) (duration : ℚ) (request : HttpScope) (route : Option String)

/-- `method = scope.get("method", "GET")`. -/
def methodOf (request : HttpScope) : String := request.method.getD "GET"

/-- The event of a request that was answered. -/
def requestCompleted (status : ℕ) (context : Correlation) : LogEvent :=
  logEvent unicodeAlnum "evalops.http" "http_request_completed"
    (if 500 ≤ status then .error else .info)
    [("method", .str (methodOf request)), ("route", .str (routeOf request route)),
      ("status", .int status), ("duration_ms", .float duration)] context

/-- The event of a request whose application raised. -/
def requestFailed (exc : PyError) (context : Correlation) : LogEvent :=
  logEvent unicodeAlnum "evalops.http" "http_request_failed" .error
    [("method", .str (methodOf request)), ("route", .str (routeOf request route)),
      ("duration_ms", .float duration), ("error_type", .str exc.kind.className)] context

end Events

/-- `RequestContextMiddleware.__call__`. -/
def requestContextMiddleware (unicodeAlnum : Char → Bool)
    (setHeader : Headers → String → String → Headers) (fresh : FreshId) (duration : ℚ)
    (request : HttpScope) (app : Correlation → AppRun) : HttpTx Unit := do
  if request.type ≠ "http" then
    let context ← scope
    runApp send (app context)
  else
    let requestId := resolveRequestId fresh request
    setStatusCode 500
    within (fun context => context.bind [("request_id", some requestId)]) do
      let context ← scope
      let run := app context
      tryCatch (runApp (sendWrapper setHeader requestId) run) fun exc =>
        if exc.isException then do
          emit fun context => [requestFailed unicodeAlnum duration request run.route exc context]
          throw exc
        else throw exc
      let exchange ← onState get
      emit fun context =>
        [requestCompleted unicodeAlnum duration request run.route exchange.statusCode context]

end EvalOps.Obs
