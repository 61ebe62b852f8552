import EvalOps.Adapters
import EvalOps.Contracts

/-!
# `EvalOps.MockProvider`: the deterministic offline provider

`providers.py`. A `SystemVersion` carries the whole behaviour of `MockProvider` in the `mock` block
of its parameters. `MockSpec.fromConfig` reads the block, and `mockComplete` answers a prompt by
looking it up. No call leaves the process, so the answer depends on the prompt and the version
alone.
-/

set_option autoImplicit false

namespace EvalOps

/-- `_MOCK_KEYS`, sorted. -/
def mockKeys : List String :=
  ["default", "fail_on", "latency_ms", "responses", "retrieval", "retrieval_default", "tool_calls",
    "tool_calls_default"]

/-- The keys of an entry of a retrieval list. -/
def retrievalKeys : List String := ["doc_id", "content", "rank", "score"]

/-- `_TOOL_CALL_KEYS`. -/
def mockCallKeys : List String := ["name", "arguments", "result", "ok", "error"]

/-- `sorted(k for k in mapping if k not in allowed)`. -/
def unknownKeys (allowed : List String) (fields : List (String × Json)) : List String :=
  Sorting.sorted ((fields.map Prod.fst).filter fun key => key ∉ allowed)

/-- A value that is a non-empty string. -/
def nonBlankOf : Json → Option NonBlank
  | .str s => if h : PyText.isBlank s = false then some ⟨s, h⟩ else none
  | _ => none

/-- The entry of a list, which must be an object with known keys. -/
def entryFields (allowed : List String) (location : String) (entry : Json) :
    Py (List (String × Json)) :=
  match entry with
  | .obj fields => do
      let unknown := unknownKeys allowed fields
      if unknown ≠ [] then
        throw (.config (location ++ " has unknown key(s) " ++ PyText.reprList unknown))
      else pure fields
  | _ => throw (.config (location ++ " must be an object"))

/-! ### Retrieved items -/

/-- The check of `rank`. -/
def parseRank (location : String) (rank : Json) : Py ℕ :=
  match rank with
  | .int n =>
      if n < 0 then throw (.config (location ++ ".rank must be an integer >= 0"))
      else pure n.toNat
  | _ => throw (.config (location ++ ".rank must be an integer >= 0"))

/-- The check of `score`. -/
def parseItemScore (location : String) (score : Json) : Py (Option ℚ) :=
  match score with
  | .null => pure none
  | .int n => do
      let x ← floatOfInt n
      pure (some x)
  | .float x => pure (some x)
  | _ => throw (.config (location ++ ".score must be a number"))

/-- One entry of `_parse_retrieval`. -/
def parseRetrievedItem (location : String) (position : ℕ) (entry : Json) : Py RetrievedItem := do
  let fields ← entryFields retrievalKeys location entry
  match (fields.lookup "doc_id").bind nonBlankOf with
  | none => throw (.config (location ++ ".doc_id must be a non-empty string"))
  | some docId =>
      match (fields.lookup "content").getD (.str "") with
      | .str content => do
          let rank ← parseRank location ((fields.lookup "rank").getD (.int position))
          let score ← parseItemScore location ((fields.lookup "score").getD .null)
          pure { docId, content, rank, score }
      | _ => throw (.config (location ++ ".content must be a string"))

/-- A list whose entries are parsed at their positions. -/
def parseEntries {α : Type} (kind whereText : String) (parse : String → ℕ → Json → Py α)
    (raw : Json) : Py (List α) :=
  match raw with
  | .arr entries => entries.zipIdx.mapM fun (entry, position) =>
      parse s!"{whereText}[{position}]" position entry
  | _ => throw (.config (whereText ++ " must be a list of " ++ kind ++ " objects"))

/-- `_parse_retrieval`. -/
def parseRetrieval (raw : Json) (whereText : String) : Py (List RetrievedItem) :=
  parseEntries "retrieved-item" whereText parseRetrievedItem raw

/-! ### Tool calls -/

/-- The check of `error`. -/
def parseCallError (location : String) (error : Json) : Py (Option String) :=
  match error with
  | .null => pure none
  | .str error => pure (some error)
  | _ => throw (.config (location ++ ".error must be a string"))

/-- One entry of `_parse_tool_calls`. The constructor of the call checks its error text. -/
def parseToolCall (location : String) (_ : ℕ) (entry : Json) : Py ToolCall := do
  let fields ← entryFields mockCallKeys location entry
  match (fields.lookup "name").bind nonBlankOf with
  | none => throw (.config (location ++ ".name must be a non-empty string"))
  | some name =>
      match (fields.lookup "arguments").getD (.obj []) with
      | .obj arguments =>
          match (fields.lookup "ok").getD (.bool true) with
          | .bool ok => do
              let error ← parseCallError location ((fields.lookup "error").getD .null)
              ToolCall.init name.text arguments ((fields.lookup "result").getD .null) ok error
          | _ => throw (.config (location ++ ".ok must be a boolean"))
      | _ => throw (.config (location ++ ".arguments must be an object"))

/-- `_parse_tool_calls`. -/
def parseToolCalls (raw : Json) (whereText : String) : Py (List ToolCall) :=
  parseEntries "tool-call" whereText parseToolCall raw

/-! ### The block -/

/-- `_MockSpec`: the parsed `mock` block. -/
structure MockSpec where
  responses : List (String × String)
  default : String
  latencyMs : ℚ
  failOn : List String
  retrieval : List (String × List RetrievedItem)
  retrievalDefault : List RetrievedItem
  toolCalls : List (String × List ToolCall)
  toolCallsDefault : List ToolCall
  latencyMs_nonneg : 0 ≤ latencyMs

/-- `parameters['mock']['key']`, as the messages name it. -/
def mockField (key : String) : String := "parameters['mock']['" ++ key ++ "']"

/-- A value that is a string. -/
def textOf : Json → Option String
  | .str s => some s
  | _ => none

/-- The check of `responses`. -/
def parseResponses (raw : Json) : Py (List (String × String)) :=
  let exc := PyError.config
    (mockField "responses" ++ " must map prompt strings to response strings")
  match raw with
  | .obj fields =>
      match fields.mapM fun field => (textOf field.2).map fun text => (field.1, text) with
      | some responses => pure responses
      | none => throw exc
  | _ => throw exc

/-- The check of `default`. -/
def parseDefault (raw : Json) : Py String :=
  match raw with
  | .str text => pure text
  | _ => throw (.config (mockField "default" ++ " must be a string"))

/-- The check of `latency_ms`. -/
def parseLatency (raw : Json) : Py { x : ℚ // 0 ≤ x } :=
  let exc := PyError.config (mockField "latency_ms" ++ " must be a number >= 0")
  match raw with
  | .int n => if h : (0 : ℚ) ≤ n then pure ⟨n, h⟩ else throw exc
  | .float x => if h : 0 ≤ x then pure ⟨x, h⟩ else throw exc
  | _ => throw exc

/-- `float(value)` of a checked number, which stays the same number. -/
def requireFloat (raw : Json) : Py Unit :=
  match raw with
  | .int n => (floatOfInt n).map fun _ => ()
  | _ => pure ()

/-- The check of `fail_on`. -/
def parseFailOn (raw : Json) : Py (List String) :=
  let exc := PyError.config (mockField "fail_on" ++ " must be a list of strings")
  match raw with
  | .arr items =>
      match items.mapM textOf with
      | some prompts => pure prompts
      | none => throw exc
  | _ => throw exc

/-- The lists of a block by their prompts. -/
def parseByPrompt {α : Type} (key kind : String) (parse : Json → String → Py (List α))
    (raw : Json) : Py (List (String × List α)) :=
  match raw with
  | .obj fields => fields.mapM fun (prompt, value) => do
      let entries ← parse value (mockField key ++ "[" ++ PyText.repr prompt ++ "]")
      pure (prompt, entries)
  | _ => throw (.config (mockField key ++ " must map prompt strings to " ++ kind ++ " lists"))

/-- `_MockSpec.from_config`, of the parameters of a version. -/
def MockSpec.fromConfig (parameters : List (String × Json)) : Py MockSpec :=
  match (parameters.lookup "mock").getD (.obj []) with
  | .obj raw => do
      let unknown := unknownKeys mockKeys raw
      if unknown ≠ [] then
        throw (.config ("unknown key(s) " ++ PyText.reprList unknown ++
          " in parameters['mock']; allowed: " ++ PyText.reprList mockKeys))
      let responses ← parseResponses ((raw.lookup "responses").getD (.obj []))
      let default ← parseDefault ((raw.lookup "default").getD (.str ""))
      let rawLatency := (raw.lookup "latency_ms").getD (.float 0)
      let latencyMs ← parseLatency rawLatency
      let failOn ← parseFailOn ((raw.lookup "fail_on").getD (.arr []))
      let retrieval ← parseByPrompt "retrieval" "retrieved-item" parseRetrieval
        ((raw.lookup "retrieval").getD (.obj []))
      let retrievalDefault ← parseRetrieval ((raw.lookup "retrieval_default").getD (.arr []))
        (mockField "retrieval_default")
      let toolCalls ← parseByPrompt "tool_calls" "tool-call" parseToolCalls
        ((raw.lookup "tool_calls").getD (.obj []))
      let toolCallsDefault ← parseToolCalls ((raw.lookup "tool_calls_default").getD (.arr []))
        (mockField "tool_calls_default")
      -- The latency becomes a float where the block is constructed, behind every check.
      requireFloat rawLatency
      pure
        { responses, default, latencyMs := latencyMs.val, failOn, retrieval, retrievalDefault,
          toolCalls, toolCallsDefault, latencyMs_nonneg := latencyMs.property }
  | _ => throw (.config "parameters['mock'] must be a mapping")

/-! ### Answering -/

/-- The answer to a prompt. -/
def MockSpec.response (spec : MockSpec) (prompt : String) : ProviderResponse :=
  let text := (spec.responses.lookup prompt).getD spec.default
  { text
    usage :=
      { promptTokens := (PyText.split prompt).length
        completionTokens := (PyText.split text).length
        costUsd := 0
        latencyMs := spec.latencyMs
        costUsd_nonneg := nonneg_zero
        latencyMs_nonneg := spec.latencyMs_nonneg }
    retrieval := (spec.retrieval.lookup prompt).getD spec.retrievalDefault
    toolCalls := (spec.toolCalls.lookup prompt).getD spec.toolCallsDefault }

/-- `MockProvider.complete`. -/
def mockComplete (prompt : String) (config : SystemVersion) : Py ProviderResponse := do
  let spec ← MockSpec.fromConfig config.parameters
  if prompt ∈ spec.failOn then
    throw (.provider "mock provider is configured to fail for this prompt")
  else pure (spec.response prompt)

/-- `MockProvider`. Each call reads the block first. -/
def mockProvider : ProviderClient where
  name := "mock"
  checkConfig config := (MockSpec.fromConfig config.parameters).map fun _ => ()
  reply _ prompt config := mockComplete prompt config

end EvalOps
