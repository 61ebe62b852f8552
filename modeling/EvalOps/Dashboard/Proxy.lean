import EvalOps.Lib.Trimming
import EvalOps.Lib.WireText

/-!
# `EvalOps.Dashboard.Proxy`: the same-origin proxy

`app/api/[...path]/route.ts`. The browser talks to the dashboard's server only, which forwards each
request and decides by itself which credential reaches the API. The upstream server is the
parameter `fetch`, which answers or throws. The parameter `newUrl` is the URL parser, which throws
on an empty or malformed text, and a URL is kept in its parts.
-/

set_option autoImplicit false

namespace EvalOps.Dashboard

/-- A `Headers` object, as `forEach` visits it. -/
abbrev FetchHeaders := List (String × String)

/-- `HOP_BY_HOP_HEADERS`. -/
def hopByHopHeaders : List String :=
  ["connection", "keep-alive", "proxy-authenticate", "proxy-authorization", "te", "trailer",
    "transfer-encoding", "upgrade"]

/-- `STRIP_FROM_REQUEST`. -/
def stripFromRequest : List String :=
  hopByHopHeaders ++ ["host", "content-length", "accept-encoding", "authorization"]

/-- `STRIP_FROM_RESPONSE`. -/
def stripFromResponse : List String := hopByHopHeaders ++ ["content-encoding", "content-length"]

/-- `filteredHeaders`. -/
def filteredHeaders (source : FetchHeaders) (strip : List String) : FetchHeaders :=
  source.filter fun header => decide (WireText.lower header.1 ∉ strip)

/-- The whitespace that a header value loses at its ends. -/
def isHttpSpace (c : Char) : Bool := c == '\t' || c == '\n' || c == '\r' || c == ' '

/-- `headers.set(name, value)`. It throws on a value that is no byte string, or that holds a line
break or a null. -/
def FetchHeaders.set (headers : FetchHeaders) (name value : String) : Option FetchHeaders :=
  let normalized := Trimming.trim isHttpSpace value.toList
  if normalized.all fun c => decide (c.toNat ≤ 255) && c != '\n' && c != '\r' && c.toNat != 0 then
    some (headers.filter (fun header => decide (WireText.lower header.1 ≠ name)) ++
      [(name, String.ofList normalized)])
  else none

/-- What the handler reads of a request. -/
structure ProxyRequest where
  method : String
  path : List String
  search : String
  headers : FetchHeaders
  body : Option (List UInt8)

/-- The variables of the dashboard's server that the handler reads. -/
structure ProxyEnv where
  apiProxyTarget : Option String
  apiKey : Option String

/-- A `URL` object: what stands before the path, and the two parts that the handler sets. -/
structure Url where
  origin : String
  pathname : String
  search : String

/-- The request that is sent to the API. -/
structure UpstreamRequest where
  url : Url
  method : String
  headers : FetchHeaders
  body : Option (List UInt8)

/-- A response of the API. -/
structure UpstreamResponse where
  status : ℕ
  statusText : String
  headers : FetchHeaders
  body : List UInt8

/-- What the browser gets. -/
inductive ProxyResponse
  | forwarded (response : UpstreamResponse)
  | unreachable (status : ℕ) (detail : String)

section Handle

variable (newUrl : String → Option Url) (encodeURIComponent : String → String)

/-- `DEFAULT_API_PROXY_TARGET`. -/
def defaultApiProxyTarget : String := "http://127.0.0.1:8000"

/-- `upstreamUrl`. It throws on a target that is no URL. -/
def upstreamUrl (env : ProxyEnv) (pathSegments : List String) (search : String) : Option Url := do
  let url ← newUrl (env.apiProxyTarget.getD defaultApiProxyTarget)
  let pathname := "/" ++ String.intercalate "/" (pathSegments.map encodeURIComponent)
  pure { url with pathname, search }

/-- The headers of the upstream request. -/
def upstreamHeaders (env : ProxyEnv) (request : ProxyRequest) : Option FetchHeaders :=
  let headers := filteredHeaders request.headers stripFromRequest
  match env.apiKey with
  | none => some headers
  | some apiKey =>
      if apiKey = "" then some headers
      else headers.set "authorization" ("Bearer " ++ apiKey)

/-- The upstream request, with the URL and the headers that were made for it. -/
def upstreamRequest (request : ProxyRequest) (url : Url) (headers : FetchHeaders) :
    UpstreamRequest where
  url := url
  method := request.method
  headers := headers
  body :=
    if request.method ∈ ["GET", "HEAD"] then none
    else request.body.filter fun buffered => !buffered.isEmpty

/-- The answer to the browser, from what the API answered. -/
def answerBrowser : Option UpstreamResponse → ProxyResponse
  | none => .unreachable 502 "The API is temporarily unreachable."
  | some response =>
      .forwarded { response with headers := filteredHeaders response.headers stripFromResponse }

/-- `handle`. The URL and the headers are made outside the `try`: where one of them throws, nothing
is sent and the handler answers nothing itself. -/
def handle (env : ProxyEnv) (fetch : UpstreamRequest → Option UpstreamResponse)
    (request : ProxyRequest) : Option ProxyResponse := do
  let url ← upstreamUrl newUrl encodeURIComponent env request.path request.search
  let headers ← upstreamHeaders env request
  pure (answerBrowser (fetch (upstreamRequest request url headers)))

end Handle

end EvalOps.Dashboard
