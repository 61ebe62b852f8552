import EvalOps.Domain.ValueObjects
import EvalOps.Lib.JsonLimits
import EvalOps.Lib.JsText

/-!
# `EvalOps.Dashboard.Jsonl`: dataset cases pasted into the dashboard

`dashboard/src/lib/jsonl.ts`. `parseCasesJsonl` reads one JSON object per line. `jsonParse` is
`JSON.parse`: it has no limits, and its numbers are doubles.
-/

set_option autoImplicit false

namespace EvalOps.Dashboard

/-- A value of `JSON.parse`. An object has its keys in the order of the text. -/
inductive JsValue
  | null
  | bool (b : Bool)
  | number (x : PyFloat)
  | str (s : String)
  | arr (items : List JsValue)
  | obj (fields : List (String × JsValue))

/-- What `JSON.parse` builds. -/
def jsonBuilder : JsonReader.Hooks JsValue where
  null := .null
  bool := .bool
  int n := .number (PyFloat.nearest n)
  float := .number
  str := .str
  arr := .arr
  obj := .obj
  extended := false

/-- `JSON.parse`, or nothing when it throws. -/
def jsonParse (text : List Char) : Option JsValue := JsonReader.readAll jsonBuilder text

/-- `ExpectedToolCallInput`. -/
structure ExpectedToolCallInput where
  name : String
  arguments : Option (List (String × JsValue))

/-- `DatasetCaseInput`. -/
structure DatasetCaseInput where
  input : String
  expectedOutput : Option String
  origin : Option CaseOrigin
  sourceTraceId : Option String
  expectedRetrievalIds : Option (List String)
  expectedToolCalls : Option (List ExpectedToolCallInput)

/-- `JsonlError`. -/
structure JsonlError where
  line : ℕ
  message : String
deriving DecidableEq

/-- `JsonlParseResult`. -/
structure JsonlParseResult where
  cases : List DatasetCaseInput
  errors : List JsonlError

/-- `ORIGINS`, with their texts. -/
def origins : List (String × CaseOrigin) :=
  [("authored", .authored), ("promoted_trace", .promotedTrace)]

/-- A value that is a string with something in it. -/
def JsValue.filled? : JsValue → Option String
  | .str s => if JsText.trim s = "" then none else some s
  | _ => none

/-- An entry of `parseExpectedToolCalls`. Keys besides `name` and `arguments` are not looked at. -/
def parseExpectedToolCall : JsValue → Option ExpectedToolCallInput
  | .obj row =>
      match (row.lookup "name").bind JsValue.filled? with
      | none => none
      | some name =>
          match row.lookup "arguments" with
          | none | some .null => some ⟨name, none⟩
          | some (.obj arguments) => some ⟨name, some arguments⟩
          | some _ => none
  | _ => none

/-- `parseExpectedToolCalls`. -/
def parseExpectedToolCalls : JsValue → Option (List ExpectedToolCallInput)
  | .arr entries => entries.mapM parseExpectedToolCall
  | _ => none

/-- A field that is a string when it is present and not null. -/
def optionalString (obj : List (String × JsValue)) (key : String) :
    Except String (Option String) :=
  match obj.lookup key with
  | none | some .null => pure none
  | some (.str s) => pure (some s)
  | some _ => throw s!"\"{key}\" must be a string"

/-- The check of `origin`. -/
def parseOrigin (obj : List (String × JsValue)) : Except String (Option CaseOrigin) :=
  let message := "\"origin\" must be \"authored\" or \"promoted_trace\""
  match obj.lookup "origin" with
  | none => pure none
  | some (.str s) =>
      match origins.lookup s with
      | some origin => pure (some origin)
      | none => throw message
  | some _ => throw message

/-- The check of `expected_retrieval_ids`. -/
def parseRetrievalIds (obj : List (String × JsValue)) : Except String (Option (List String)) :=
  let message := "\"expected_retrieval_ids\" must be a list of non-empty strings"
  match obj.lookup "expected_retrieval_ids" with
  | none => pure none
  | some (.arr items) =>
      match items.mapM JsValue.filled? with
      | some ids => pure (some ids)
      | none => throw message
  | some _ => throw message

/-- The check of `expected_tool_calls`. -/
def parseToolCalls (obj : List (String × JsValue)) :
    Except String (Option (List ExpectedToolCallInput)) :=
  match obj.lookup "expected_tool_calls" with
  | none => pure none
  | some value =>
      match parseExpectedToolCalls value with
      | some calls => pure (some calls)
      | none => throw ("\"expected_tool_calls\" must be a list of " ++
          "\x7b\"name\": string, \"arguments\"?: object\x7d")

/-- The case of an object. -/
def parseCase (obj : List (String × JsValue)) : Except String DatasetCaseInput := do
  match (obj.lookup "input").bind JsValue.filled? with
  | none => throw "\"input\" must be a non-empty string"
  | some input =>
      let expectedOutput ← optionalString obj "expected_output"
      let origin ← parseOrigin obj
      let sourceTraceId ← optionalString obj "source_trace_id"
      let expectedRetrievalIds ← parseRetrievalIds obj
      let expectedToolCalls ← parseToolCalls obj
      pure { input, expectedOutput, origin, sourceTraceId, expectedRetrievalIds,
             expectedToolCalls }

/-- A line without the whitespace around it, which is not empty. -/
def parseTrimmed (trimmed : List Char) : Except String DatasetCaseInput :=
  match jsonParse trimmed with
  | none => throw "not valid JSON"
  | some (.obj obj) => parseCase obj
  | some _ => throw "expected a JSON object"

/-- The turn of the loop for a line. -/
def JsonlParseResult.step (result : JsonlParseResult) (row : List Char × ℕ) : JsonlParseResult :=
  let trimmed := JsText.trimChars row.1
  if trimmed = [] then result
  else
    match parseTrimmed trimmed with
    | .error message => { result with errors := result.errors ++ [⟨row.2, message⟩] }
    | .ok case => { result with cases := result.cases ++ [case] }

/-- `parseCasesJsonl`. -/
def parseCasesJsonl (text : List Char) : JsonlParseResult :=
  ((text.splitOn '\n').zipIdx 1).foldl JsonlParseResult.step ⟨[], []⟩

end EvalOps.Dashboard
