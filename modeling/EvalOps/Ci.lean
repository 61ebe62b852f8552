import EvalOps.Cli
import EvalOps.Datasets
import EvalOps.Lib.CodePoints
import EvalOps.Lib.LossyText

/-!
# `EvalOps.Ci`: the summary of a release check

`ci.py`: the JSON report of a run is read back and rendered as Markdown, and the exit code of the
run is returned. `ciMain` is `main` behind its argument parser.

The report is untrusted, so its strings are those of Python: `json.loads` builds lone surrogates
from escapes. The text of a float does not tell the two zeros apart.
-/

set_option autoImplicit false

namespace EvalOps

/-! ### The report -/

/-- A decoded value of the report. -/
inductive ReportValue
  | null
  | bool (b : Bool)
  | int (n : ℤ)
  | float (x : PyFloat)
  | str (s : PyStr)
  | arr (items : List ReportValue)
  | obj (fields : List (PyStr × ReportValue))

/-- A decoded JSON object. -/
abbrev ReportFields := List (PyStr × ReportValue)

/-- What `json.loads` builds. -/
def reportBuilder : JsonReader.Builder PyStr ReportValue where
  null := .null
  bool := .bool
  int := .int
  float := .float
  str := .str
  arr := .arr
  obj := .obj

/-- `report.get(key)`. -/
def getField (key : String) (report : ReportFields) : Option ReportValue :=
  List.lookup (PyStr.ofString key) report

/-- `load_report`, of a file. -/
def loadReport (limits : JsonReader.Limits) (file : FileContent) : Py (Option ReportFields) :=
  match file with
  | .error _ => pure none
  | .ok data =>
      match TextFiles.readText data with
      | none => throw ⟨.other "UnicodeDecodeError", "invalid UTF-8"⟩
      | some raw =>
          match JsonReader.loads reportBuilder limits raw with
          | .error .malformed => pure none
          | .error e => throw (readException limits e)
          | .ok (.obj parsed) => pure (some parsed)
          | .ok _ => pure none

/-! ### The log -/

/-- `_MAX_LOG_CHARS`. -/
def maxLogChars : ℕ := 4000

/-- `_bound`. -/
def boundLog (text : PyStr) : PyStr :=
  let text := text.strip
  if maxLogChars < text.length then
    PyStr.ofString "…(truncated)…\n" ++ text.takeEnd maxLogChars
  else text

/-- `_read_tail`. -/
def readTail : Option FileContent → PyStr
  | none | some (.error _) => []
  | some (.ok data) => boundLog (PyStr.ofChars (TextFiles.readTextReplace data))

/-! ### Texts of values -/

namespace ReportValue

mutual

/-- `repr(value)`. -/
def repr : ReportValue → PyStr
  | null => PyStr.ofString "None"
  | bool b => PyStr.ofString (if b then "True" else "False")
  | int n => PyStr.ofString (toString n)
  | float (.finite x) => PyStr.ofString (FloatText.repr x)
  | float (.inf negative) => PyStr.ofString (if negative then "-inf" else "inf")
  | float .nan => PyStr.ofString "nan"
  | str s => PyStr.repr s
  | arr items =>
      PyStr.ofString "[" ++ PyStr.join ", " (reprItems items) ++ PyStr.ofString "]"
  | obj fields =>
      PyStr.ofString "\x7b" ++ PyStr.join ", " (reprFields fields) ++ PyStr.ofString "\x7d"

/-- `repr` of the items of a list. -/
def reprItems : List ReportValue → List PyStr
  | [] => []
  | item :: items => repr item :: reprItems items

/-- `repr` of the entries of a `dict`. -/
def reprFields : List (PyStr × ReportValue) → List PyStr
  | [] => []
  | (key, value) :: fields =>
      (PyStr.repr key ++ PyStr.ofString ": " ++ repr value) :: reprFields fields

end

mutual

/-- The levels below a value: `repr` goes down to each item of a container, a leaf or not. -/
def nesting : ReportValue → ℕ
  | arr items => nestingItems items
  | obj fields => nestingFields fields
  | _ => 0

/-- The levels below a list. -/
def nestingItems : List ReportValue → ℕ
  | [] => 0
  | item :: items => max (nesting item + 1) (nestingItems items)

/-- The levels below a `dict`: its keys are leaves. -/
def nestingFields : List (PyStr × ReportValue) → ℕ
  | [] => 0
  | (_, value) :: fields => max (nesting value + 1) (nestingFields fields)

end

/-- `f"\x7bvalue\x7d"`, with a limit on the levels that `repr` goes down to. -/
def format (reprDepth : ℕ) : ReportValue → Py PyStr
  | str s => pure s
  | value =>
      if reprDepth < value.nesting then
        throw ⟨.other "RecursionError", "maximum recursion depth exceeded"⟩
      else pure value.repr

/-- `bool(value)`. -/
def isTruthy : ReportValue → Bool
  | null => false
  | bool b => b
  | int n => decide (n ≠ 0)
  | float (.finite x) => decide (x ≠ 0)
  | float _ => true
  | str s => !s.isEmpty
  | arr items => !items.isEmpty
  | obj fields => !fields.isEmpty

/-- `value or {}`, of a value that may be missing. -/
def orEmpty (value : Option ReportValue) : ReportValue :=
  match value with
  | some value => if value.isTruthy then value else obj []
  | none => obj []

end ReportValue

/-- What stands for no number. -/
def noNumber : PyStr := PyStr.ofString "—"

/-- A number in a format for floats. An integer is converted first. -/
def formatNumber (format : PyFloat → String) : Option ReportValue → Py PyStr
  | some (.int n) =>
      match PyFloat.nearest n with
      | .finite x => pure (PyStr.ofString (format (.finite x)))
      | _ => throw ⟨.other "OverflowError", "int too large to convert to float"⟩
  | some (.float x) => pure (PyStr.ofString (format x))
  | _ => pure noNumber

/-- The format `.4g`. -/
def generalText : PyFloat → String
  | .finite x => PyText.general 4 x
  | .inf negative => if negative then "-inf" else "inf"
  | .nan => "nan"

/-- The format `+.4g`. -/
def signedText (x : PyFloat) : String :=
  if x.isNegative then generalText x else "+" ++ generalText x

/-- The format `.0%`. -/
def percentText : PyFloat → String
  | .finite x => PyFloat.percent 0 x
  | special => generalText special ++ "%"

/-- `_num`. -/
def ciNum : Option ReportValue → Py PyStr := formatNumber generalText

/-- `_signed`. -/
def ciSigned : Option ReportValue → Py PyStr := formatNumber signedText

/-- `_pct`. -/
def ciPct : Option ReportValue → Py PyStr := formatNumber percentText

/-- `_OUTCOME_LABEL`. -/
def outcomeLabels : List (String × String) :=
  [("pass", "pass"), ("regression", "**regression**"),
    ("regression_inconclusive", "breach (inconclusive)"),
    ("regression_low_evidence", "breach (low evidence)")]

/-- `_outcome_label`. -/
def outcomeLabel : Option ReportValue → PyStr
  | some (.str outcome) =>
      match outcomeLabels.find? fun e => decide (PyStr.ofString e.1 = outcome) with
      | some (_, label) => PyStr.ofString label
      | none => outcome
  | _ => noNumber

/-! ### The parts of a section -/

/-- The name and the version of one side. -/
def versionText (reprDepth : ℕ) (start : String) (version : ReportFields) : Py PyStr := do
  let name ← ((getField "name" version).getD .null).format reprDepth
  let number ← ((getField "version" version).getD (.str [])).format reprDepth
  pure (PyStr.rstrip
    (PyStr.ofString start ++ name ++ PyStr.ofString " " ++ number ++ PyStr.ofString "**"))

/-- The two versions of a context line. -/
def versionsPart (reprDepth : ℕ) (report : ReportFields) : Py (List PyStr) :=
  match ReportValue.orEmpty (getField "candidate" report),
    ReportValue.orEmpty (getField "baseline" report) with
  | .obj cand, .obj base =>
      if ((getField "name" cand).getD .null).isTruthy then do
        let candidate ← versionText reprDepth "candidate **" cand
        let baseline ← versionText reprDepth " vs baseline **" base
        pure [candidate ++ baseline]
      else pure []
  | _, _ => pure []

/-- The counts of a context line. -/
def countsPart (reprDepth : ℕ) (report : ReportFields) : Py (List PyStr) :=
  match ReportValue.orEmpty (getField "counts" report) with
  | .obj counts =>
      if (getField "runs" counts).isSome then do
        let count := fun key : String =>
          ((getField key counts).getD (.str (PyStr.ofString "?"))).format reprDepth
        let cases' ← count "cases"
        let runs ← count "runs"
        let failures ← count "failures"
        pure [cases' ++ PyStr.ofString " cases / " ++ runs ++ PyStr.ofString " runs / " ++
          failures ++ PyStr.ofString " failures"]
      else pure []
  | _ => pure []

/-- The config of a context line. -/
def configPart : Option PyStr → List PyStr
  | none | some [] => []
  | some config => [PyStr.ofString "config `" ++ config ++ PyStr.ofString "`"]

/-- `_context_line`. -/
def contextLine (reprDepth : ℕ) (report : Option ReportFields) (config : Option PyStr) :
    Py PyStr :=
  match report with
  | none => pure (PyStr.join " · " (configPart config))
  | some report => do
      let versions ← versionsPart reprDepth report
      let counts ← countsPart reprDepth report
      pure (PyStr.join " · " (configPart config ++ versions ++ counts))

/-- The allowed change of a metric. -/
def allowedText : Option ReportValue → Py PyStr
  | none | some .null => pure noNumber
  | threshold => ciPct threshold

/-- One row of the table. -/
def metricRow (reprDepth : ℕ) (m : ReportFields) : Py PyStr := do
  let metric ← ((getField "metric" m).getD (.str (PyStr.ofString "?"))).format reprDepth
  let baseline ← ciNum (getField "baseline_value" m)
  let candidate ← ciNum (getField "candidate_value" m)
  let delta ← ciSigned (getField "delta" m)
  let threshold ← allowedText (getField "threshold" m)
  let bar := PyStr.ofString " | "
  pure (PyStr.ofString "| `" ++ metric ++ PyStr.ofString "` | " ++ baseline ++ bar ++ candidate ++
    bar ++ delta ++ bar ++ threshold ++ bar ++ outcomeLabel (getField "gate_outcome" m) ++
    PyStr.ofString " |")

/-- The rows that are JSON objects. -/
def ReportValue.rows : Option ReportValue → List ReportFields
  | some (.arr items) => items.filterMap fun
      | .obj m => some m
      | _ => none
  | _ => []

/-- `_metric_table`. -/
def metricTable (reprDepth : ℕ) (report : Option ReportFields) : Py (List PyStr) := do
  let data ← (ReportValue.rows (report.bind (getField "metrics"))).mapM (metricRow reprDepth)
  if data.isEmpty then pure []
  else
    pure (PyStr.ofString "| Metric | Baseline | Candidate | Δ | Allowed | Outcome |" ::
      PyStr.ofString "| --- | ---: | ---: | ---: | ---: | --- |" :: data)

/-- The strings of a list. -/
def ReportValue.strings : Option ReportValue → List PyStr
  | some (.arr items) => items.filterMap fun
      | .str s => some s
      | _ => none
  | _ => []

/-- `_bullets`. -/
def bullets (items : Option ReportValue) : List PyStr :=
  (ReportValue.strings items).map fun item => PyStr.ofString "- " ++ item

/-- `isinstance(items, list) and len(items) > 0`. -/
def ReportValue.isFilled : Option ReportValue → Bool
  | some (.arr (_ :: _)) => true
  | _ => false

/-! ### The sections -/

/-- The section of a summary. -/
inductive CiSection
  | pass
  | block
  | error
deriving DecidableEq

/-- The section of an exit code. -/
def sectionOf (exitCode : ℤ) : CiSection :=
  if exitCode = 0 then .pass else if exitCode = 1 then .block else .error

/-- The first line of a section. -/
def CiSection.heading : CiSection → String
  | pass => "## ✅ EvalOps release gate: PASS"
  | block => "## 🚫 EvalOps release gate: BLOCK"
  | error => "## ⚠️ EvalOps release gate: ERROR"

/-- The lines of a part, and a blank line, if there are any. -/
def part (lines : List PyStr) : List PyStr := if lines.isEmpty then [] else lines ++ [[]]

/-- A context line, if it is not empty. -/
def contextLines (context : PyStr) : List PyStr := part (if context.isEmpty then [] else [context])

/-- The metrics, if there are any. -/
def tableLines (table : List PyStr) : List PyStr :=
  part (if table.isEmpty then [] else PyStr.ofString "### Metrics" :: table)

/-- `"\n".join(lines).rstrip() + "\n"`, behind the heading and a blank line. -/
def sectionText (gate : CiSection) (lines : List PyStr) : PyStr :=
  PyStr.rstrip (PyStr.join "\n" (PyStr.ofString gate.heading :: [] :: lines)) ++
    PyStr.ofString "\n"

/-- The note of a report that was not found. -/
def missingLines (report : Option ReportFields) : List PyStr :=
  if report.isNone then
    [PyStr.ofString "_The run exited 0 but no JSON report was found._", []]
  else []

/-- The advisories behind their heading, if there are any. -/
def adviceLines (heading : List String) (advisories : Option ReportValue) : List PyStr :=
  if ReportValue.isFilled advisories then
    heading.map PyStr.ofString ++ bullets advisories ++ [[]]
  else []

/-- The reasons behind their heading, or a note that there are none. -/
def reasonLines (reasons : List PyStr) : List PyStr :=
  PyStr.ofString "### Blocking reasons" ::
    (if reasons.isEmpty then [PyStr.ofString "- (no reasons recorded in the report)"]
      else reasons) ++ [[]]

/-- `_render_pass`. -/
def renderPass (reprDepth : ℕ) (report : Option ReportFields) (config : Option PyStr) :
    Py PyStr := do
  let advisories := report.bind (getField "advisories")
  let context ← contextLine reprDepth report config
  let table ← metricTable reprDepth report
  let advice := adviceLines
    ["> **Passed with advisories.** A policy threshold was breached at the " ++
      "point estimate, but the statistical evidence is too weak to block. " ++
      "**This is still a PASS** — nothing to fix to merge.", "", "### Advisories"] advisories
  pure (sectionText .pass
    (contextLines context ++ missingLines report ++ advice ++ tableLines table))

/-- `_render_block`. -/
def renderBlock (reprDepth : ℕ) (report : Option ReportFields) (config : Option PyStr) :
    Py PyStr := do
  let context ← contextLine reprDepth report config
  let reasons := bullets (report.bind (getField "reasons"))
  let advisories := report.bind (getField "advisories")
  let table ← metricTable reprDepth report
  let advice := adviceLines ["### Advisories"] advisories
  pure (sectionText .block
    (contextLines context ++ reasonLines reasons ++ advice ++ tableLines table))

/-- `_render_error`. -/
def renderError (exitCode : ℤ) (log : PyStr) (config : Option PyStr) : PyStr :=
  let diagnostic := boundLog log
  let explanation := PyStr.ofString ("EvalOps could not complete the evaluation (exit code " ++
    toString exitCode ++ " — a configuration, execution, dataset, or provider/judge error). " ++
    "**No release decision was produced.** This is not a release BLOCK; fix " ++
    "the error and re-run.")
  let output :=
    if diagnostic.isEmpty then []
    else
      [PyStr.ofString "<details><summary>Diagnostic output</summary>", [], PyStr.ofString "```",
        diagnostic, PyStr.ofString "```", [], PyStr.ofString "</details>", []]
  sectionText .error ([explanation, []] ++ part (configPart config) ++ output)

/-- `render_pr_summary`. -/
def renderPrSummary (reprDepth : ℕ) (report : Option ReportFields) (exitCode : ℤ) (log : PyStr)
    (config : Option PyStr) : Py PyStr :=
  if exitCode = 0 then renderPass reprDepth report config
  else if exitCode = 1 then renderBlock reprDepth report config
  else pure (renderError exitCode log config)

/-! ### The command -/

/-- The standard output, by its encoding and its error handler. An encoding that is not one of
Unicode lacks the signs of the headings. -/
inductive StdoutEncoding
  | unicode (encoder : Encoder)
  | legacy (takes : CodePoint → Bool)
      (lacks : ∀ gate : CiSection, ∃ c ∈ gate.heading.toList, takes (.char c) = false)

/-- The code points that are encoded. -/
def StdoutEncoding.takes : StdoutEncoding → CodePoint → Bool
  | unicode encoder => encoder.takes
  | legacy takes _ => takes

/-- The interpreter and the environment of the command. -/
structure CiEnvironment where
  limits : JsonReader.Limits
  /-- The levels that `repr` goes down to. -/
  reprDepth : ℕ
  /-- `os.environ.get("GITHUB_STEP_SUMMARY")`. -/
  summaryPath : Option String
  /-- `sys.stdout.encoding` and `sys.stdout.errors`. -/
  stdout : StdoutEncoding

/-- The arguments of the command, with the content of the files that they name. -/
structure CiArgs where
  exitCode : ℤ
  report : FileContent
  log : Option FileContent
  config : Option PyStr

/-- Where the summary goes. -/
def CiEnvironment.destination (env : CiEnvironment) : Channel :=
  match env.summaryPath with
  | none | some "" => .stdout
  | some path => .file path

/-- The encoding of the destination. A file is opened with UTF-8, which is strict. -/
def CiEnvironment.encoding (env : CiEnvironment) : StdoutEncoding :=
  match env.summaryPath with
  | none | some "" => env.stdout
  | some _ => .unicode .strict

/-- A text that was written to a stream, before its encoding. -/
structure TextWrite where
  channel : Channel
  text : PyStr
deriving DecidableEq

/-- A command that may raise, and the texts that it has written. -/
abbrev CiM (α : Type) := Effect (List TextWrite) PyError α

/-- Writing a text, which has to be encoded. -/
def CiEnvironment.writeSummary (env : CiEnvironment) (text : PyStr) : CiM Unit := do
  if text.all env.encoding.takes then
    let written ← get
    set (written ++ [⟨env.destination, text⟩])
  else throw ⟨.other "UnicodeEncodeError", "can't encode character"⟩

/-- `main`, of parsed arguments: the exit code that it returns. -/
def ciMain (env : CiEnvironment) (args : CiArgs) : CiM ℤ := do
  let report ← Effect.lift (loadReport env.limits args.report)
  let log := if args.exitCode = 0 ∨ args.exitCode = 1 then [] else readTail args.log
  let summary ← Effect.lift
    (renderPrSummary env.reprDepth report args.exitCode log args.config)
  env.writeSummary (summary ++ PyStr.ofString "\n")
  pure args.exitCode

end EvalOps
