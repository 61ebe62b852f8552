import EvalOps.Adapters
import EvalOps.Contracts
import EvalOps.Lib.FloatText
import EvalOps.Lib.JsonReader

/-!
# `EvalOps.Judge`: the LLM judge

`judge.py`. A judge asks its own provider for a verdict on one answer. `parseJudgeVerdict` takes the
first `{` to the last `}` of the reply, decodes it and checks the three fields. A reply that is no
JSON object, or that has a bad field, is a `JudgeError`.

What `json.loads` raises beside a `JSONDecodeError` depends on the limits of the interpreter, which
are a parameter. The other messages of `json.loads` are not kept, as nothing here reads them.
-/

set_option autoImplicit false

namespace EvalOps

/-- `raise JudgeError(message)`. -/
def PyError.judge (message : String) : PyError := ⟨.judgeError, message⟩

/-! ### The prompt -/

/-- `JUDGE_RUBRIC_ID`. -/
def judgeRubricId : String := "judge-v1"

/-- `render_judge_prompt`, with the text of `JUDGE_RUBRIC`. -/
def renderJudgePrompt (caseInput candidateOutput : String) (reference : Option String) : String :=
  let referenceSection :=
    match reference with
    | none => ""
    | some reference => "REFERENCE ANSWER:\n" ++ reference ++ "\n\n"
  "You are a strict, impartial evaluation judge. Decide whether the CANDIDATE " ++
    "ANSWER is a correct and appropriate response to the INPUT. If a REFERENCE " ++
    "ANSWER is given, the candidate must be consistent with it in meaning.\n\n" ++
    "Reply with ONE JSON object and nothing else, exactly this shape:\n" ++
    "\x7b\"verdict\": \"pass\" | \"fail\", \"score\": <number between 0 and 1>, " ++
    "\"reasoning\": \"<one short sentence>\"\x7d\n\n" ++
    "INPUT:\n" ++ caseInput ++ "\n\n" ++
    referenceSection ++
    "CANDIDATE ANSWER:\n" ++ candidateOutput ++ "\n"

/-! ### The text of the object -/

/-- Three backticks. -/
def fence : List Char := List.replicate 3 (Char.ofNat 96)

/-- The part of a text between its first two fences, if there are two. -/
def fencedBlock (candidate : List Char) : List Char :=
  match PyText.partitionChars fence candidate with
  | none => candidate
  | some (_, rest) =>
      match PyText.partitionChars fence rest with
      | none => candidate
      | some (block, _) => block

/-- The text without the word `json` in front. -/
def dropLanguage (candidate : List Char) : List Char :=
  let word := PyText.lower (String.ofList (PyText.lstripChars candidate))
  if PyText.startswith word "json" then (PyText.lstripChars candidate).drop 4 else candidate

/-- What is left of a text that starts with a fence. -/
def stripFence (candidate : List Char) : List Char :=
  PyText.stripChars (dropLanguage (fencedBlock candidate))

/-- From the first `{` to the last `}`, if the braces come in this order. -/
def braced (candidate : List Char) : Option (List Char) :=
  let fromStart := candidate.dropWhile fun c => c ≠ '{'
  let upToEnd := (fromStart.reverse.dropWhile fun c => c ≠ '}').reverse
  if upToEnd.isEmpty then none else some upToEnd

/-- The candidate of `_extract_json_object` that is searched for braces. -/
def judgeCandidate (text : String) : List Char :=
  let candidate := PyText.stripChars text.toList
  if fence.isPrefixOf candidate then stripFence candidate else candidate

/-- The text that `_extract_json_object` decodes. -/
def jsonText (text : String) : Option (List Char) := braced (judgeCandidate text)

/-! ### Decoding -/

/-- What `json.loads` builds. -/
def decodedHooks : JsonReader.Hooks Decoded where
  null := .null
  bool := .bool
  int := .int
  float := .float
  str := .str
  arr := .arr
  obj := .obj

/-- The exception for a text that cannot be read. -/
def readException (limits : JsonReader.Limits) : JsonReader.ReadError → PyError
  | .malformed => ⟨jsonDecodeError, ""⟩
  | .tooManyDigits =>
      ⟨.other "ValueError", s!"Exceeds the limit ({limits.maxDigits} digits) for integer string " ++
        "conversion"⟩
  | .tooDeep => ⟨.other "RecursionError", "maximum recursion depth exceeded"⟩

/-- `json.loads` of a string. -/
def jsonLoads (limits : JsonReader.Limits) (text : List Char) : Py Decoded :=
  (JsonReader.loads decodedHooks limits text).mapError (readException limits)

/-- `_extract_json_object`. -/
def extractJsonObject (limits : JsonReader.Limits) (text : String) :
    Py (Option (List (String × Decoded))) :=
  match jsonText text with
  | none => pure none
  | some body =>
      match jsonLoads limits body with
      | .error exc => if exc.kind = jsonDecodeError then pure none else throw exc
      | .ok (.obj fields) => pure (some fields)
      | .ok _ => pure none

mutual

/-- `repr` of a decoded value. -/
def Decoded.repr : Decoded → String
  | .null => "None"
  | .bool b => if b then "True" else "False"
  | .int n => toString n
  | .float (.finite x) => FloatText.repr x
  | .float (.inf negative) => if negative then "-inf" else "inf"
  | .float .nan => "nan"
  | .str s => PyText.repr s
  | .arr items => "[" ++ ", ".intercalate (Decoded.reprItems items) ++ "]"
  | .obj fields => "\x7b" ++ ", ".intercalate (Decoded.reprFields fields) ++ "\x7d"

/-- `repr` of the items of a list. -/
def Decoded.reprItems : List Decoded → List String
  | [] => []
  | item :: items => Decoded.repr item :: Decoded.reprItems items

/-- `repr` of the entries of a `dict`. -/
def Decoded.reprFields : List (String × Decoded) → List String
  | [] => []
  | (key, value) :: fields =>
      (PyText.repr key ++ ": " ++ Decoded.repr value) :: Decoded.reprFields fields

end

/-- `repr(obj.get(key))`. -/
def reprField (field : Option Decoded) : String := (field.getD .null).repr

/-! ### The verdict -/

/-- `JudgeVerdict`. -/
structure JudgeVerdict where
  passed : Bool
  score : ℚ
  reasoning : Option String
deriving DecidableEq

/-- `_snippet`. -/
def snippet (text : String) : String :=
  let flat := " ".intercalate (PyText.split text)
  if flat.length ≤ 120 then flat else String.ofList (flat.toList.take 120) ++ "..."

/-- `verdict.strip().lower() == "pass"`, for a string that is `pass` or `fail`. -/
def parseVerdict : Option Decoded → Option Bool
  | some (.str verdict) =>
      let word := PyText.lower (PyText.strip verdict)
      if word = "pass" then some true else if word = "fail" then some false else none
  | _ => none

/-- The check that a score is within `[0, 1]`. -/
def requireUnitScore (evaluator : String) (raw : Decoded) (value : PyFloat) : Py ℚ :=
  let exc := PyError.judge ("evaluator " ++ PyText.repr evaluator ++
    ": judge 'score' must be within [0, 1], got " ++ raw.repr)
  match value with
  | .finite x => if 0 ≤ x ∧ x ≤ 1 then pure x else throw exc
  | _ => throw exc

/-- The score of a verdict. A missing score follows from the verdict. -/
def parseScore (evaluator : String) (passed : Bool) (rawScore : Option Decoded) : Py ℚ :=
  match rawScore with
  | none | some .null => pure (if passed then 1 else 0)
  | some (.int n) => do
      let x ← floatOfInt n
      requireUnitScore evaluator (.int n) (.finite x)
  | some (.float x) => requireUnitScore evaluator (.float x) x
  | some raw =>
      throw (.judge ("evaluator " ++ PyText.repr evaluator ++
        ": judge 'score' must be a number, got " ++ raw.repr))

/-- `raw_reasoning.strip()`, or `None` when nothing is left. -/
def parseReasoning : Option Decoded → Option String
  | some (.str reasoning) =>
      if PyText.isBlank reasoning then none else some (PyText.strip reasoning)
  | _ => none

/-- `parse_judge_verdict`. -/
def parseJudgeVerdict (limits : JsonReader.Limits) (text evaluator : String) :
    Py JudgeVerdict := do
  match ← extractJsonObject limits text with
  | none =>
      throw (.judge ("evaluator " ++ PyText.repr evaluator ++
        ": judge reply is not a JSON object: " ++ snippet text))
  | some obj =>
      match parseVerdict (obj.lookup "verdict") with
      | none =>
          throw (.judge ("evaluator " ++ PyText.repr evaluator ++
            ": judge 'verdict' must be 'pass' or 'fail', got " ++ reprField (obj.lookup "verdict")))
      | some passed => do
          let score ← parseScore evaluator passed (obj.lookup "score")
          pure { passed, score, reasoning := parseReasoning (obj.lookup "reasoning") }

/-! ### The judge -/

/-- `LLMJudge`. -/
structure LLMJudge where
  providerName : ProviderName
  providerClient : ProviderClient
  model : String
  temperature : ℚ
  name : String

namespace LLMJudge

/-- The configuration that a judge sends with its prompt. -/
def config (judge : LLMJudge) (stamp : Stamp) : Py SystemVersion :=
  SystemVersion.init "judge" judge.name judgeRubricId judge.providerName judge.model
    "$\x7binput\x7d" [("temperature", .float judge.temperature)] none none stamp.id.text
    stamp.createdAt

/-- `LLMJudge.judge`. The `k`-th call takes the `k`-th stamp. -/
def judge (judge : LLMJudge) (limits : JsonReader.Limits) (stamps : ℕ → Stamp)
    (caseInput candidateOutput : String) (reference : Option String) : RunM JudgeVerdict := do
  let k ← get
  let judgeConfig ← Effect.lift (judge.config (stamps k))
  let response ← judge.providerClient.complete
    (renderJudgePrompt caseInput candidateOutput reference) judgeConfig
  Effect.lift (parseJudgeVerdict limits response.text judge.name)

end LLMJudge

end EvalOps
