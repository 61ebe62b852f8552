import EvalOps.Domain.Constructors
import EvalOps.Judge
import EvalOps.Lib.Grouping
import EvalOps.Lib.TextFiles

/-!
# `EvalOps.Datasets`: loading a JSONL dataset

`datasets.py`: one JSON object per non-blank line of a file. A bad line is a `ConfigError` with the
path and the line number. A loaded case is a `LoadedCase`: an authored case whose expected arguments
are what `json.loads` built, which a `Json` cannot always hold.

What the loader takes from its surroundings is a `LoadEnvironment`: the limits and the wording of
`json.loads`, and fresh ids.
-/

set_option autoImplicit false

namespace EvalOps

/-- An `ExpectedToolCall`, with decoded arguments. -/
structure LoadedToolCall where
  name : NonBlank
  arguments : Option (List (String × Decoded))

/-- A `DatasetCase` with the origin `authored`, and with decoded arguments. -/
structure LoadedCase where
  input : NonBlank
  expectedOutput : Option String
  expectedRetrievalIds : List NonBlank
  expectedToolCalls : List LoadedToolCall
  id : EntityId

/-- A `Dataset` of loaded cases, at version 1. -/
structure LoadedDataset where
  projectId : EntityId
  name : NonBlank
  cases : List LoadedCase
  cases_ne_nil : cases ≠ []
  cases_nodup : (cases.map LoadedCase.id).Nodup

/-- What the loader takes from its surroundings. -/
structure LoadEnvironment where
  limits : JsonReader.Limits
  /-- The message of the `JSONDecodeError` of a text that is not JSON. -/
  decodeMessage : List Char → String
  /-- `new_id()` at a line. -/
  newId : ℕ → EntityId
  newId_injective : Function.Injective newId

/-- What opening a file gives: its bytes, or the text of an `OSError`. -/
abbrev FileContent := Except String ByteArray

/-- `_ALLOWED_KEYS`, sorted. -/
def allowedKeys : List String :=
  ["expected_output", "expected_retrieval_ids", "expected_tool_calls", "id", "input"]

/-- The keys of an entry of `expected_tool_calls`. -/
def toolCallKeys : List String := ["name", "arguments"]

/-- `type(value).__name__`. -/
def Decoded.typeName : Decoded → String
  | .null => "NoneType"
  | .bool _ => "bool"
  | .int _ => "int"
  | .float _ => "float"
  | .str _ => "str"
  | .arr _ => "list"
  | .obj _ => "dict"

/-- A value that is a non-empty string. -/
def Decoded.nonBlank? : Decoded → Option NonBlank
  | .str s => if h : PyText.isBlank s = false then some ⟨s, h⟩ else none
  | _ => none

/-- One entry of `_parse_expected_tool_calls`. -/
def parseExpectedToolCall (location : String) (i : ℕ) (entry : Decoded) : Py LoadedToolCall :=
  let shapeError := PyError.config
    s!"{location}: expected_tool_calls[{i}] must be an object with 'name' and optional 'arguments'"
  match entry with
  | .obj fields =>
      if fields.all fun field => decide (field.1 ∈ toolCallKeys) then
        match (fields.lookup "name").bind Decoded.nonBlank? with
        | none => throw (.config
            s!"{location}: expected_tool_calls[{i}].name must be a non-empty string")
        | some name =>
            match (fields.lookup "arguments").getD .null with
            | .null => pure ⟨name, none⟩
            | .obj arguments => pure ⟨name, some arguments⟩
            | _ => throw (.config
                s!"{location}: expected_tool_calls[{i}].arguments must be an object when present")
      else throw shapeError
  | _ => throw shapeError

/-- The loop of `_parse_expected_tool_calls` over the entries from a position on. -/
def parseToolCallsFrom (location : String) : ℕ → List Decoded → Py (List LoadedToolCall)
  | _, [] => pure []
  | i, entry :: entries => do
      let call ← parseExpectedToolCall location i entry
      let calls ← parseToolCallsFrom location (i + 1) entries
      pure (call :: calls)

/-- `_parse_expected_tool_calls`. -/
def parseExpectedToolCalls (location : String) : Decoded → Py (List LoadedToolCall)
  | .arr entries => parseToolCallsFrom location 0 entries
  | _ => throw (.config s!"{location}: 'expected_tool_calls' must be a list when present")

/-- The check of `input`. -/
def parseInput (location : String) (fields : List (String × Decoded)) : Py NonBlank :=
  match (fields.lookup "input").bind Decoded.nonBlank? with
  | some input => pure input
  | none => throw (.config s!"{location}: 'input' must be a non-empty string")

/-- The check of `expected_output`. -/
def parseExpectedOutput (location : String) (fields : List (String × Decoded)) :
    Py (Option String) :=
  match (fields.lookup "expected_output").getD .null with
  | .null => pure none
  | .str expected => pure (some expected)
  | _ => throw (.config s!"{location}: 'expected_output' must be a string when present")

/-- The check of `expected_retrieval_ids`. -/
def parseRetrievalIds (location : String) (fields : List (String × Decoded)) :
    Py (List NonBlank) :=
  let error := PyError.config
    s!"{location}: 'expected_retrieval_ids' must be a list of non-empty strings when present"
  match (fields.lookup "expected_retrieval_ids").getD (.arr []) with
  | .arr items =>
      match items.mapM Decoded.nonBlank? with
      | some ids => pure ids
      | none => throw error
  | _ => throw error

/-- The check of `id`: a given id is remembered with the line where it stands. -/
def parseId (env : LoadEnvironment) (location : String) (lineno : ℕ)
    (firstSeen : List (String × ℕ)) (fields : List (String × Decoded)) :
    Py (EntityId × List (String × ℕ)) :=
  match (fields.lookup "id").getD .null with
  | .null => pure (env.newId lineno, firstSeen)
  | value =>
      match value.nonBlank? with
      | none => throw (.config s!"{location}: 'id' must be a non-empty string when present")
      | some id =>
          match firstSeen.lookup id.text with
          | some first => throw (.config
              s!"{location}: duplicate id {PyText.repr id.text} (first seen at line {first})")
          | none => pure (id, firstSeen ++ [(id.text, lineno)])

/-- The case of a JSON object. -/
def parseFields (env : LoadEnvironment) (location : String) (lineno : ℕ)
    (firstSeen : List (String × ℕ)) (fields : List (String × Decoded)) :
    Py (LoadedCase × List (String × ℕ)) := do
  let unknown := Sorting.sortedOn id ((fields.map Prod.fst).filter fun key => key ∉ allowedKeys)
  if unknown ≠ [] then
    throw (.config (s!"{location}: unknown field(s) {PyText.reprList unknown}; allowed: " ++
      PyText.reprList allowedKeys))
  let input ← parseInput location fields
  let expectedOutput ← parseExpectedOutput location fields
  let expectedRetrievalIds ← parseRetrievalIds location fields
  let expectedToolCalls ← parseExpectedToolCalls location
    ((fields.lookup "expected_tool_calls").getD (.arr []))
  let (id, firstSeen) ← parseId env location lineno firstSeen fields
  pure (⟨input, expectedOutput, expectedRetrievalIds, expectedToolCalls, id⟩, firstSeen)

/-- `_parse_line`. -/
def parseLine (env : LoadEnvironment) (path : String) (line : List Char) (lineno : ℕ)
    (firstSeen : List (String × ℕ)) : Py (LoadedCase × List (String × ℕ)) :=
  let location := s!"{path}:{lineno}"
  match JsonReader.loads decodedHooks env.limits line with
  | .error .malformed =>
      throw (.config s!"{location}: not valid JSON ({env.decodeMessage line})")
  | .error e => throw (readException env.limits e)
  | .ok (.obj fields) => parseFields env location lineno firstSeen fields
  | .ok value => throw (.config s!"{location}: expected a JSON object, got {value.typeName}")

/-- The line holds something besides whitespace. -/
def holdsText (line : List Char) : Bool := line.any fun c => !PyText.isSpace c

/-- The loop over the lines from a line number on. -/
def parseLines (env : LoadEnvironment) (path : String) :
    ℕ → List (String × ℕ) → List (List Char) → Py (List LoadedCase)
  | _, _, [] => pure []
  | lineno, firstSeen, line :: lines =>
      if holdsText line then do
        let (case, firstSeen) ← parseLine env path line lineno firstSeen
        let cases ← parseLines env path (lineno + 1) firstSeen lines
        pure (case :: cases)
      else parseLines env path (lineno + 1) firstSeen lines

/-- The constructor of the dataset, at version 1. -/
def LoadedDataset.init (projectId name : String) (cases : List LoadedCase) : Py LoadedDataset := do
  let projectId ← requireNonEmpty projectId "Dataset.project_id"
  let name ← requireNonEmpty name "Dataset.name"
  if hc : cases = [] then throw (.domainValidation "Dataset.cases must not be empty")
  else if hn : (cases.map LoadedCase.id).Nodup then
    pure { projectId, name, cases, cases_ne_nil := hc, cases_nodup := hn }
  else throw (.domainValidation "Dataset.cases contains duplicate case ids")

/-- `name or file_path.stem`. -/
def datasetName (stem : String) (name : Option String) : String :=
  if name.getD "" = "" then stem else name.getD ""

/-- `load_jsonl`, of a file with a path, a stem and some content. -/
def loadJsonl (env : LoadEnvironment) (path stem : String) (file : FileContent)
    (projectId : String) (name : Option String) : Py LoadedDataset := do
  match file with
  | .error reason => throw (.config s!"cannot read dataset file {path}: {reason}")
  | .ok data =>
      match TextFiles.readText data with
      | none => throw ⟨.other "UnicodeDecodeError", "invalid UTF-8"⟩
      | some text => do
          let cases ← parseLines env path 1 [] (TextFiles.splitlines text)
          if cases = [] then throw (.config s!"dataset file {path} contains no cases")
          else LoadedDataset.init projectId (datasetName stem name) cases

end EvalOps
