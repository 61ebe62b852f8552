import EvalOps.Proofs.Ci
import EvalOps.Proofs.Cli
import EvalOps.Proofs.Returns

/-!
# `EvalOps.Proofs.CiReport`: the summary of a report that was written

`evalops run --json` writes a report, each number of it as the double next to it
(`RunReport.rounded`), and `ci.py` reads it back. `RunReport.ciSummary` renders a report itself,
without a file between the two. `ci_shows_the_gate` says that the summary of the file is that of
the rounded report, and that its section and the exit code are those of the gate.
-/

set_option autoImplicit false

namespace EvalOps

open Effect JsonReader

/-! ### The report without a file -/

/-- The label of an outcome. -/
def GateOutcome.ciLabel : GateOutcome → String
  | pass => "pass"
  | regression => "**regression**"
  | regressionInconclusive => "breach (inconclusive)"
  | regressionLowEvidence => "breach (low evidence)"

/-- The row of a metric. -/
def MetricLine.ciRow (m : MetricLine) : PyStr :=
  let allowed := match m.threshold with
    | none => "—"
    | some threshold => percentText (.finite threshold)
  PyStr.ofString ("| `" ++ m.metric ++ "` | " ++ generalText (.finite m.baselineValue) ++ " | " ++
    generalText (.finite m.candidateValue) ++ " | " ++ signedText (.finite m.delta) ++ " | " ++
    allowed ++ " | " ++ m.gateOutcome.ciLabel ++ " |")

/-- The table of a report. -/
def RunReport.ciTable (report : RunReport) : List PyStr :=
  if report.metrics.isEmpty then []
  else
    PyStr.ofString "| Metric | Baseline | Candidate | Δ | Allowed | Outcome |" ::
      PyStr.ofString "| --- | ---: | ---: | ---: | ---: | --- |" ::
        report.metrics.map MetricLine.ciRow

/-- The context of a report. -/
def RunReport.ciContext (report : RunReport) (config : Option PyStr) : PyStr :=
  let versions :=
    if report.candidateName = "" then []
    else
      [PyStr.ofString ("candidate **" ++ report.candidateName ++ " " ++ report.candidateVersion ++
        "** vs baseline **" ++ report.baselineName ++ " " ++ report.baselineVersion ++ "**")]
  let counts := PyStr.ofString (toString report.caseCount ++ " cases / " ++
    toString report.runCount ++ " runs / " ++ toString report.failureCount ++ " failures")
  PyStr.join " · " (configPart config ++ versions ++ [counts])

/-- One bullet for each string. -/
def ciBullets (items : List String) : List PyStr :=
  items.map fun item => PyStr.ofString ("- " ++ item)

/-- The advisories of a report. -/
def RunReport.ciAdvice (report : RunReport) (heading : List String) : List PyStr :=
  if report.advisories.isEmpty then []
  else heading.map PyStr.ofString ++ ciBullets report.advisories ++ [[]]

/-- The summary of a report, in the section of its gate. -/
def RunReport.ciSummary (report : RunReport) (config : Option PyStr) : PyStr :=
  if report.decision = .block then
    sectionText .block (contextLines (report.ciContext config) ++
      reasonLines (ciBullets report.reasons) ++ report.ciAdvice ["### Advisories"] ++
      tableLines report.ciTable)
  else
    sectionText .pass (contextLines (report.ciContext config) ++
      report.ciAdvice
        ["> **Passed with advisories.** A policy threshold was breached at the " ++
          "point estimate, but the statistical evidence is too weak to block. " ++
          "**This is still a PASS** — nothing to fix to merge.", "", "### Advisories"] ++
      tableLines report.ciTable)

/-! ### Reading the fields back -/

/-- The fields of an object. -/
def objectFields : Json → List (String × Json)
  | .obj fields => fields
  | _ => []

/-- What `json.loads` returns for the report. -/
def RunReport.decoded (report : RunReport) : ReportFields :=
  ofJsonFields reportBuilder (objectFields (jsonReport report))

theorem getField_ofJsonFields (key : String) (fields : List (String × Json)) :
    getField key (ofJsonFields reportBuilder fields)
      = (fields.lookup key).map (ofJson reportBuilder) := by
  unfold getField
  induction fields with
  | nil => rfl
  | cons field fields ih =>
      obtain ⟨key', v⟩ := field
      rw [ofJsonFields, List.lookup_cons, List.lookup_cons]
      by_cases h : key = key'
      · subst h
        simp [TextUnits.ofText]
      · have hne : PyStr.ofString key ≠ PyStr.ofString key' := fun heq =>
          h (PyStr.ofString_injective heq)
        have hbeq : (PyStr.ofString key == (TextUnits.ofText key' : PyStr)) = false :=
          beq_eq_false_iff_ne.mpr hne
        rw [hbeq, beq_eq_false_iff_ne.mpr h]
        exact ih

/-- The report of a run is read back from the file that holds it. -/
theorem loadReport_written {limits : Limits} {report : RunReport}
    (h : JsonReader.Readable limits.maxDigits limits.maxDepth (jsonReport report)) :
    loadReport limits (.ok (Json.dumps FloatText.repr (jsonReport report) ++ "\n").toUTF8)
      = .ok (some report.decoded) := by
  have hspace : Spaces ['\n'] := by simp [Spaces, isSpace]
  have htext : (Json.dumps FloatText.repr (jsonReport report) ++ "\n").toList
      = (Json.dumps FloatText.repr (jsonReport report)).toList ++ ['\n'] := String.toList_append
  have hreturn : NoReturn ((Json.dumps FloatText.repr (jsonReport report)).toList ++ ['\n']) :=
    noReturn_append.mpr ⟨noReturn_dumpsAt h 0, JsonReader.noReturn_of_all (by decide)⟩
  have hloads : loads reportBuilder limits
      ((Json.dumps FloatText.repr (jsonReport report)).toList ++ ['\n'])
        = .ok (.obj report.decoded) := loads_dumps reportBuilder limits h hspace
  unfold loadReport
  dsimp only
  rw [TextFiles.readText_toUTF8, htext, TextFiles.universalNewlines_of_forall hreturn]
  dsimp only
  rw [hloads]
  rfl

/-! ### Rendering the fields -/

variable {reprDepth : ℕ} {report : RunReport}

/-- A string of the report is shown as it is. -/
theorem format_text (s : String) :
    (ReportValue.str (PyStr.ofString s)).format reprDepth = .ok (PyStr.ofString s) := rfl

theorem format_int (n : ℤ) :
    (ReportValue.int n).format reprDepth = .ok (PyStr.ofString (toString n)) := by
  unfold ReportValue.format
  dsimp only
  rw [if_neg (by simp [ReportValue.nesting])]
  rfl

theorem ofString_append (s t : String) :
    PyStr.ofString (s ++ t) = PyStr.ofString s ++ PyStr.ofString t := by
  simp [PyStr.ofString, PyStr.ofChars]

theorem outcomeLabel_value (outcome : GateOutcome) :
    outcomeLabel (some (.str (PyStr.ofString outcome.value)))
      = PyStr.ofString outcome.ciLabel := by
  cases outcome <;> decide

/-- A number of the report is a float or missing. -/
theorem formatNumber_float (format : PyFloat → String) (x : ℚ) :
    formatNumber format (some (ofJson reportBuilder (.float x)))
      = .ok (PyStr.ofString (format (.finite x))) := rfl

theorem allowedText_optFloat (threshold : Option ℚ) :
    allowedText (some (ofJson reportBuilder (optFloat threshold))) = .ok (PyStr.ofString
      (match threshold with
        | none => "—"
        | some threshold => percentText (.finite threshold))) := by
  cases threshold <;> rfl

/-- The decoded object of a metric. -/
def MetricLine.decoded (m : MetricLine) : ReportFields :=
  ofJsonFields reportBuilder (objectFields m.payload)

theorem metricRow_decoded (m : MetricLine) : metricRow reprDepth m.decoded = .ok m.ciRow := by
  have hget : ∀ (key : String) (v : Json), (objectFields m.payload).lookup key = some v →
      getField key m.decoded = some (ofJson reportBuilder v) := by
    intro key v h
    rw [MetricLine.decoded, getField_ofJsonFields, h]
    rfl
  have hmetric := hget "metric" (.str m.metric) rfl
  have hbaseline := hget "baseline_value" (.float m.baselineValue) rfl
  have hcandidate := hget "candidate_value" (.float m.candidateValue) rfl
  have hdelta := hget "delta" (.float m.delta) rfl
  have hthreshold := hget "threshold" (optFloat m.threshold) rfl
  have houtcome := hget "gate_outcome" (.str m.gateOutcome.value) rfl
  have hname : (ofJson reportBuilder (.str m.metric)).format reprDepth
      = .ok (PyStr.ofString m.metric) := rfl
  have hlabel : outcomeLabel (some (ofJson reportBuilder (.str m.gateOutcome.value)))
      = PyStr.ofString m.gateOutcome.ciLabel := outcomeLabel_value m.gateOutcome
  unfold metricRow ciNum ciSigned
  rw [hmetric, hbaseline, hcandidate, hdelta, hthreshold, houtcome, Option.getD_some, hname,
    formatNumber_float, formatNumber_float, formatNumber_float, allowedText_optFloat, hlabel]
  simp only [ExceptRules.ok_bind, MetricLine.ciRow, ofString_append]
  rfl

/-- A field of the decoded report. -/
theorem getField_decoded (key : String) {v : Json}
    (h : (objectFields (jsonReport report)).lookup key = some v) :
    getField key report.decoded = some (ofJson reportBuilder v) := by
  rw [RunReport.decoded, getField_ofJsonFields, h]
  rfl

/-- The table of the decoded report is the table of the report. -/
theorem metricTable_decoded : metricTable reprDepth (some report.decoded) = .ok report.ciTable := by
  have hlookup : (objectFields (jsonReport report)).lookup "metrics"
      = some (.arr (report.metrics.map MetricLine.payload)) := rfl
  have hget := getField_decoded "metrics" hlookup
  have hitems : ofJson reportBuilder (.arr (report.metrics.map MetricLine.payload))
      = .arr (report.metrics.map fun m => .obj m.decoded) := by
    rw [ofJson, ofJsonItems_eq_map, List.map_map]
    rfl
  have hrows : ReportValue.rows (some (.arr (report.metrics.map fun m => .obj m.decoded)))
      = report.metrics.map MetricLine.decoded := by
    unfold ReportValue.rows
    dsimp only
    rw [List.filterMap_map]
    show report.metrics.filterMap (some ∘ MetricLine.decoded) = _
    rw [List.filterMap_eq_map]
  have hdata : (report.metrics.map MetricLine.decoded).mapM (metricRow reprDepth)
      = .ok (report.metrics.map MetricLine.ciRow) := by
    rw [ExceptRules.mapM_eq_ok_iff, List.forall₂_map_left_iff, List.forall₂_map_right_iff,
      List.forall₂_same]
    exact fun m _ => metricRow_decoded m
  unfold metricTable RunReport.ciTable
  rw [Option.bind_some, hget, hitems, hrows, hdata, ExceptRules.ok_bind]
  cases report.metrics <;> rfl

/-- The strings of a list of the decoded report. -/
theorem bullets_decoded (key : String) {items : List String}
    (h : (objectFields (jsonReport report)).lookup key = some (.arr (items.map Json.str))) :
    bullets (getField key report.decoded) = ciBullets items ∧
      ReportValue.isFilled (getField key report.decoded) = !items.isEmpty := by
  have hitems : ofJson reportBuilder (.arr (items.map Json.str))
      = .arr (items.map fun item => .str (PyStr.ofString item)) := by
    rw [ofJson, ofJsonItems_eq_map, List.map_map]
    rfl
  rw [getField_decoded key h, hitems]
  constructor
  · unfold bullets ciBullets ReportValue.strings
    dsimp only
    rw [List.filterMap_map]
    show (items.filterMap (some ∘ PyStr.ofString)).map _ = _
    rw [List.filterMap_eq_map, List.map_map]
    exact List.map_congr_left fun item _ => (ofString_append "- " item).symm
  · cases items <;> rfl

/-- A text that does not end in whitespace keeps its end. -/
theorem rstrip_ofString_append (s : String) {t : String}
    (h : (PyStr.ofString t).getLast?.any (fun last => !last.isSpace) = true) :
    PyStr.rstrip (PyStr.ofString s ++ PyStr.ofString t) = PyStr.ofString s ++ PyStr.ofString t := by
  obtain ⟨last, hlast, hspace⟩ := (Option.any_eq_true _ _).mp h
  obtain ⟨start, heq⟩ := List.getLast?_eq_some_iff.mp hlast
  rw [heq, ← List.append_assoc, PyStr.rstrip, List.rdropWhile_concat_neg]
  simpa using hspace

/-- The decoded object of a side. -/
def decodedSide (name number : String) : ReportFields :=
  ofJsonFields reportBuilder [("name", .str name), ("version", .str number)]

theorem name_decodedSide (name number : String) :
    getField "name" (decodedSide name number) = some (.str (PyStr.ofString name)) := by
  rw [decodedSide, getField_ofJsonFields]
  rfl

/-- The name and the version of a side. -/
theorem versionText_decoded (start name number : String) :
    versionText reprDepth start (decodedSide name number)
      = .ok (PyStr.ofString (start ++ name ++ " " ++ number ++ "**")) := by
  have hversion : getField "version" (decodedSide name number)
      = some (.str (PyStr.ofString number)) := by
    rw [decodedSide, getField_ofJsonFields]
    rfl
  unfold versionText
  rw [name_decodedSide, hversion, Option.getD_some, Option.getD_some, format_text, format_text,
    ExceptRules.ok_bind, ExceptRules.ok_bind]
  simp only [← ofString_append]
  rw [ofString_append, rstrip_ofString_append _ (by decide), ← ofString_append]
  rfl

/-- The sides of the decoded report. -/
theorem sides_decoded :
    ReportValue.orEmpty (getField "candidate" report.decoded)
        = .obj (decodedSide report.candidateName report.candidateVersion) ∧
      ReportValue.orEmpty (getField "baseline" report.decoded)
        = .obj (decodedSide report.baselineName report.baselineVersion) := by
  constructor
  · rw [getField_decoded "candidate" (v := .obj [("name", .str report.candidateName),
      ("version", .str report.candidateVersion)]) rfl]
    rfl
  · rw [getField_decoded "baseline" (v := .obj [("name", .str report.baselineName),
      ("version", .str report.baselineVersion)]) rfl]
    rfl

/-- The versions are named when the candidate has a name. -/
theorem versionsPart_decoded : versionsPart reprDepth report.decoded = .ok
    (if report.candidateName = "" then []
    else
      [PyStr.ofString ("candidate **" ++ report.candidateName ++ " " ++ report.candidateVersion ++
        "** vs baseline **" ++ report.baselineName ++ " " ++ report.baselineVersion ++
        "**")]) := by
  have htruthy : (ReportValue.str (PyStr.ofString report.candidateName)).isTruthy = true ↔
      report.candidateName ≠ "" := by
    simp [ReportValue.isTruthy, PyStr.ofString, PyStr.ofChars]
  unfold versionsPart
  rw [sides_decoded.1, sides_decoded.2]
  dsimp only
  rw [name_decodedSide, Option.getD_some]
  by_cases h : report.candidateName = ""
  · rw [if_neg (fun ht => htruthy.mp ht h), if_pos h]
    rfl
  · rw [if_pos (htruthy.mpr h), if_neg h, versionText_decoded, ExceptRules.ok_bind,
      versionText_decoded, ExceptRules.ok_bind, ← ofString_append]
    simp only [String.append_assoc]
    rfl

/-- The counts of the decoded report. -/
theorem countsPart_decoded : countsPart reprDepth report.decoded = .ok
    [PyStr.ofString (toString report.caseCount ++ " cases / " ++ toString report.runCount ++
      " runs / " ++ toString report.failureCount ++ " failures")] := by
  have hcounts : ReportValue.orEmpty (getField "counts" report.decoded)
      = .obj (ofJsonFields reportBuilder [("cases", .int report.caseCount),
        ("runs", .int report.runCount), ("failures", .int report.failureCount)]) := by
    rw [getField_decoded "counts" (v := .obj [("cases", .int report.caseCount),
      ("runs", .int report.runCount), ("failures", .int report.failureCount)]) rfl]
    rfl
  unfold countsPart
  rw [hcounts]
  dsimp only
  have hget : ∀ (key : String) (n : ℤ), List.lookup key [("cases", Json.int report.caseCount),
      ("runs", .int report.runCount), ("failures", .int report.failureCount)] = some (.int n) →
      getField key (ofJsonFields reportBuilder [("cases", .int report.caseCount),
        ("runs", .int report.runCount), ("failures", .int report.failureCount)])
        = some (.int n) := by
    intro key n h
    rw [getField_ofJsonFields, h]
    rfl
  rw [hget "cases" report.caseCount rfl, hget "runs" report.runCount rfl,
    hget "failures" report.failureCount rfl, if_pos Option.isSome_some]
  simp only [Option.getD_some, format_int, ExceptRules.ok_bind, ofString_append]
  rfl

/-- The context line of the decoded report is the context of the report. -/
theorem contextLine_decoded (config : Option PyStr) :
    contextLine reprDepth (some report.decoded) config = .ok (report.ciContext config) := by
  unfold contextLine RunReport.ciContext
  dsimp only
  rw [versionsPart_decoded, countsPart_decoded]
  rfl

/-- The advisories of the decoded report. -/
theorem adviceLines_decoded (heading : List String) :
    adviceLines heading (getField "advisories" report.decoded) = report.ciAdvice heading := by
  have hlookup : (objectFields (jsonReport report)).lookup "advisories"
      = some (.arr (report.advisories.map Json.str)) := rfl
  obtain ⟨hbullets, hfilled⟩ := bullets_decoded "advisories" hlookup
  unfold adviceLines RunReport.ciAdvice
  rw [hbullets, hfilled]
  cases report.advisories <;> rfl

/-- The summary of the decoded report is the summary of the report. -/
theorem renderPrSummary_decoded (log : PyStr) (config : Option PyStr) :
    renderPrSummary reprDepth (some report.decoded) (if report.decision = .block then 1 else 0)
      log config = .ok (report.ciSummary config) := by
  unfold renderPrSummary RunReport.ciSummary
  by_cases hblock : report.decision = .block
  · have hlookup : (objectFields (jsonReport report)).lookup "reasons"
        = some (.arr (report.reasons.map Json.str)) := rfl
    obtain ⟨hreasons, _⟩ := bullets_decoded "reasons" hlookup
    rw [if_pos hblock, if_pos hblock, if_neg one_ne_zero, if_pos rfl]
    unfold renderBlock
    simp only [Option.bind_some, contextLine_decoded, metricTable_decoded, ExceptRules.ok_bind,
      adviceLines_decoded, hreasons, ExceptRules.pure_eq_ok]
  · rw [if_neg hblock, if_neg hblock, if_pos rfl]
    unfold renderPass
    simp only [Option.bind_some, contextLine_decoded, metricTable_decoded, ExceptRules.ok_bind,
      adviceLines_decoded, ExceptRules.pure_eq_ok, missingLines, Option.isNone_some,
      Bool.false_eq_true, if_false, List.append_nil]

/-! ### From the run to the summary -/

/-- The report has the decision of the gate. -/
theorem decision_of_attempt {env : Environment} {rt : Runtime} {load : Py RunPlan}
    {evaluation : EvaluationOutcome} {report : RunReport}
    (h : attempt env rt load = .ok (evaluation, report)) :
    report.decision = evaluation.gate.decision := by
  obtain ⟨plan, t, _, h⟩ := exec_bind_eq_ok.mp (Prod.ext h rfl : exec
    (evaluateAndReport env rt load) 0 = (.ok (evaluation, report), _))
  obtain ⟨evaluation', t', _, h⟩ := exec_bind_eq_ok.mp h
  obtain ⟨report', hreport, h⟩ := exec_lift_bind_eq_ok.mp h
  cases h
  obtain ⟨_, _, hreport⟩ := ExceptRules.bind_eq_ok.mp hreport
  cases hreport
  rfl

/-- The summary of a report is made of texts. -/
theorem encodable_ciSummary {encoder : Encoder} {config : Option PyStr}
    (hconfig : ∀ c, config = some c → c.Encodable encoder) :
    (report.ciSummary config).Encodable encoder := by
  have hbullets : ∀ items, ∀ line ∈ ciBullets items, PyStr.Encodable encoder line := by
    intro items line hline
    obtain ⟨item, _, rfl⟩ := List.mem_map.mp hline
    exact PyStr.encodable_ofString _
  have hcontext : (report.ciContext config).Encodable encoder := by
    unfold RunReport.ciContext
    rw [PyStr.encodable_join]
    simp only [List.forall_mem_append, encodable_configPart]
    refine ⟨⟨hconfig, ?_⟩, by simp [PyStr.encodable_ofString]⟩
    split <;> simp [PyStr.encodable_ofString]
  have hadvice : ∀ heading, ∀ line ∈ report.ciAdvice heading, PyStr.Encodable encoder line := by
    intro heading
    unfold RunReport.ciAdvice
    split
    · simp
    · simp only [List.forall_mem_append, List.forall_mem_map, PyStr.encodable_ofString,
        implies_true, true_and, List.forall_mem_singleton, PyStr.encodable_nil, and_true]
      exact hbullets _
  have htable : ∀ line ∈ report.ciTable, PyStr.Encodable encoder line := by
    unfold RunReport.ciTable
    split
    · simp
    · simp [PyStr.encodable_ofString, MetricLine.ciRow]
  unfold RunReport.ciSummary
  split
  · simp only [encodable_sectionText, List.forall_mem_append, encodable_contextLines,
      encodable_reasonLines, encodable_tableLines]
    exact ⟨⟨⟨hcontext, hbullets _⟩, hadvice _⟩, htable⟩
  · simp only [encodable_sectionText, List.forall_mem_append, encodable_contextLines,
      encodable_tableLines]
    exact ⟨⟨hcontext, hadvice _⟩, htable⟩

/-- The numbers of a metric line. -/
def MetricLine.numbers (m : MetricLine) : List ℚ :=
  [m.baselineValue, m.candidateValue, m.delta] ++
    (m.relativeDelta.toList ++ (m.threshold.toList ++ m.adverseChange.toList))

/-- The numbers of a report are doubles, and its counts are within the digit limit. -/
structure RunReport.Numeric (limits : Limits) (report : RunReport) : Prop where
  numbers : ∀ m ∈ report.metrics, ∀ x ∈ m.numbers, PyFloat.IsDouble x
  counts : ∀ n ∈ [2, report.caseCount, report.repeats, report.runCount, report.failureCount],
    (Nat.toDigits 10 n).length ≤ limits.maxDigits

theorem readable_optFloat {maxDigits depth : ℕ} {x : Option ℚ}
    (h : ∀ y ∈ x.toList, PyFloat.IsDouble y) :
    JsonReader.Readable maxDigits depth (optFloat x) := by
  cases x with
  | none => trivial
  | some y => exact h y List.mem_cons_self

theorem readable_payload {maxDigits depth : ℕ} {m : MetricLine}
    (h : ∀ x ∈ m.numbers, PyFloat.IsDouble x) :
    JsonReader.Readable maxDigits (depth + 1) m.payload := by
  simp only [MetricLine.numbers, List.forall_mem_append, List.forall_mem_cons] at h
  obtain ⟨⟨hbaseline, hcandidate, hdelta, _⟩, hrelative, hthreshold, hadverse⟩ := h
  have hkeys : ["metric", "baseline_value", "candidate_value", "delta", "relative_delta",
      "direction", "threshold", "adverse_change", "regression", "gate_outcome"].Nodup := by
    decide
  exact ⟨hkeys, trivial, hbaseline, hcandidate, hdelta, readable_optFloat hrelative, trivial,
    readable_optFloat hthreshold, readable_optFloat hadverse, trivial, trivial, trivial⟩

theorem readableItems_of_forall {maxDigits depth : ℕ} {items : List Json}
    (h : ∀ v ∈ items, JsonReader.Readable maxDigits depth v) :
    ReadableItems maxDigits depth items := by
  induction items with
  | nil => trivial
  | cons item items ih =>
      exact ⟨h item List.mem_cons_self, ih fun v hv => h v (List.mem_cons_of_mem item hv)⟩

/-- A report with such numbers is read back, when three levels are within the limit. -/
theorem readable_jsonReport {limits : Limits} (hdepth : 3 ≤ limits.maxDepth)
    (h : report.Numeric limits) :
    JsonReader.Readable limits.maxDigits limits.maxDepth (jsonReport report) := by
  obtain ⟨depth, hdepth⟩ := Nat.exists_eq_add_of_le' hdepth
  have hcounts := h.counts
  simp only [List.forall_mem_cons] at hcounts
  obtain ⟨hversion, hcases, hrepeats, hruns, hfailures, _⟩ := hcounts
  have hmetrics : ReadableItems limits.maxDigits (depth + 1)
      (report.metrics.map MetricLine.payload) := by
    refine readableItems_of_forall fun v hv => ?_
    obtain ⟨m, hm, rfl⟩ := List.mem_map.mp hv
    exact readable_payload (h.numbers m hm)
  have hstrings : ∀ items : List String, ReadableItems limits.maxDigits (depth + 1)
      (items.map Json.str) := by
    intro items
    refine readableItems_of_forall fun v hv => ?_
    obtain ⟨item, _, rfl⟩ := List.mem_map.mp hv
    trivial
  have hkeys : ["schema_version", "dataset", "baseline", "candidate", "repeats", "counts",
      "metrics", "gated", "decision", "reasons", "advisories"].Nodup := by decide
  have hside : ["name", "version"].Nodup := by decide
  have hdataset : ["name", "cases"].Nodup := by decide
  have hcount : ["cases", "runs", "failures"].Nodup := by decide
  rw [hdepth]
  exact ⟨hkeys, hversion, ⟨hdataset, trivial, hcases, trivial⟩, ⟨hside, trivial, trivial, trivial⟩,
    ⟨hside, trivial, trivial, trivial⟩, hrepeats, ⟨hcount, hcases, hruns, hfailures, trivial⟩,
    hmetrics, trivial, trivial, hstrings _, hstrings _, trivial⟩

/-! ### Rounded reports -/

/-- A metric line with the doubles next to its numbers. -/
def MetricLine.rounded (m : MetricLine) : MetricLine :=
  { m with
    baselineValue := PyFloat.round m.baselineValue
    candidateValue := PyFloat.round m.candidateValue
    delta := PyFloat.round m.delta
    relativeDelta := m.relativeDelta.map PyFloat.round
    threshold := m.threshold.map PyFloat.round
    adverseChange := m.adverseChange.map PyFloat.round }

/-- A report with the doubles next to its numbers. -/
def RunReport.rounded (report : RunReport) : RunReport :=
  { report with metrics := report.metrics.map MetricLine.rounded }

/-- The digits of the double next to a number. -/
def roundedRepr (x : ℚ) : String := FloatText.repr (PyFloat.round x)

theorem dumpsAt_optFloat (level : ℕ) (x : Option ℚ) :
    Json.dumpsAt roundedRepr level (optFloat x)
      = Json.dumpsAt FloatText.repr level (optFloat (x.map PyFloat.round)) := by
  cases x <;> rfl

theorem dumpsAt_payload (level : ℕ) (m : MetricLine) :
    Json.dumpsAt roundedRepr level m.payload
      = Json.dumpsAt FloatText.repr level m.rounded.payload := by
  simp only [MetricLine.payload, MetricLine.rounded, Json.dumpsAt, Json.dumpsFields,
    dumpsAt_optFloat]
  rfl

/-- The text of a report is that of the rounded report. -/
theorem dumps_rounded (report : RunReport) :
    Json.dumps roundedRepr (jsonReport report)
      = Json.dumps FloatText.repr (jsonReport report.rounded) := by
  have hmetrics : ∀ (level : ℕ) (metrics : List MetricLine),
      Json.dumpsItems roundedRepr level (metrics.map MetricLine.payload)
        = Json.dumpsItems FloatText.repr level
          ((metrics.map MetricLine.rounded).map MetricLine.payload) := by
    intro level metrics
    induction metrics with
    | nil => rfl
    | cons m metrics ih =>
        simp only [List.map_cons, Json.dumpsItems, dumpsAt_payload, ih]
  have hstrings : ∀ (level : ℕ) (items : List String),
      Json.dumpsItems roundedRepr level (items.map Json.str)
        = Json.dumpsItems FloatText.repr level (items.map Json.str) := by
    intro level items
    induction items with
    | nil => rfl
    | cons item items ih => simp only [List.map_cons, Json.dumpsItems, Json.dumpsAt, ih]
  simp only [Json.dumps, jsonReport, RunReport.rounded, Json.dumpsAt, Json.dumpsFields, hmetrics,
    hstrings]

/-- The numbers of a report are in the range of a double, and its counts within the digit limit. -/
structure RunReport.InRange (limits : Limits) (report : RunReport) : Prop where
  numbers : ∀ m ∈ report.metrics, ∀ x ∈ m.numbers, |x| < PyFloat.overflowBound
  counts : ∀ n ∈ [2, report.caseCount, report.repeats, report.runCount, report.failureCount],
    (Nat.toDigits 10 n).length ≤ limits.maxDigits

theorem numbers_rounded (m : MetricLine) : m.rounded.numbers = m.numbers.map PyFloat.round := by
  simp [MetricLine.rounded, MetricLine.numbers, Option.toList_map]

theorem RunReport.InRange.numeric {limits : Limits} (h : report.InRange limits) :
    report.rounded.Numeric limits where
  numbers := by
    intro m hm x hx
    obtain ⟨line, hline, rfl⟩ := List.mem_map.mp hm
    rw [numbers_rounded] at hx
    obtain ⟨y, hy, rfl⟩ := List.mem_map.mp hx
    exact PyFloat.isDouble_round (h.numbers line hline y hy)
  counts := h.counts

/-- A run that writes its JSON report, and the CI step on its exit status and its report: the step
writes the summary of the report, in the section of the gate, and ends with the status of the run.
-/
theorem ci_shows_the_gate {env : Environment} {rt : Runtime} {load : Py RunPlan}
    {evaluation : EvaluationOutcome} {report : RunReport} {output : Output} {args : RunArgs}
    (hattempt : attempt env rt load = .ok (evaluation, report))
    (haccepts : output.AcceptsReport args report) (hfloat : output.floatRepr = roundedRepr)
    {ci : CiEnvironment} (hdepth : 3 ≤ ci.limits.maxDepth) (hrange : report.InRange ci.limits)
    {encoder : Encoder} (hencoding : ci.encoding = .unicode encoder)
    {config : Option PyStr} (hconfig : ∀ c, config = some c → c.Encodable encoder)
    (log : Option FileContent) :
    ∃ text, text = report.rounded.ciSummary config ++ PyStr.ofString "\n" ∧
      exec (ciMain ci
          { exitCode := evalopsRun output args env rt load
            report := .ok (output.jsonText report).toUTF8, log, config }) []
        = (.ok (evalopsRun output args env rt load : ℤ), [⟨ci.destination, text⟩]) ∧
      (PyStr.ofString CiSection.block.heading <+: text ↔ evaluation.gate.decision = .block) ∧
      (PyStr.ofString CiSection.pass.heading <+: text ↔ evaluation.gate.decision ≠ .block) := by
  have hdecision : report.rounded.decision = evaluation.gate.decision := by
    show report.decision = _
    exact decision_of_attempt hattempt
  have hstatus : (evalopsRun output args env rt load : ℤ)
      = if report.rounded.decision = .block then 1 else 0 := by
    rw [evalopsRun_of_accepted hattempt haccepts, hdecision]
    split <;> rfl
  have hfile : (output.jsonText report).toUTF8
      = (Json.dumps FloatText.repr (jsonReport report.rounded) ++ "\n").toUTF8 := by
    rw [Output.jsonText, hfloat, dumps_rounded]
  rw [hstatus, hfile]
  have htakes : ∀ p ∈ report.rounded.ciSummary config ++ PyStr.ofString "\n",
      ci.encoding.takes p = true := by
    rw [hencoding]
    exact PyStr.encodable_append.mpr ⟨encodable_ciSummary hconfig, PyStr.encodable_ofString "\n"⟩
  have hload := loadReport_written (readable_jsonReport hdepth hrange.numeric)
  have hsummary : renderedSummary ci
      { exitCode := if report.rounded.decision = .block then 1 else 0
        report := .ok (Json.dumps FloatText.repr (jsonReport report.rounded) ++ "\n").toUTF8
        log, config } (some report.rounded.decoded) = .ok (report.rounded.ciSummary config) :=
    renderPrSummary_decoded _ config
  have hsection := heading_iff_of_rendered hsummary
  refine ⟨_, rfl, exec_ciMain_of_rendered hload hsummary htakes, ?_, ?_⟩
  · rw [hsection, ← hdecision]
    by_cases h : report.rounded.decision = .block <;> simp [h, sectionOf]
  · rw [hsection, ← hdecision]
    by_cases h : report.rounded.decision = .block <;> simp [h, sectionOf]

/-- A console that takes every write. -/
def openOutput : Output := ⟨roundedRepr, fun _ _ _ => pure ()⟩

/-- The numbers of the blocked run are at most one, and its counts are small. -/
def smallNumbers (report : RunReport) : Bool :=
  report.metrics.all (fun m => m.numbers.all fun x => decide (|x| ≤ 1)) &&
    [2, report.caseCount, report.repeats, report.runCount, report.failureCount].all
      fun n => decide ((Nat.toDigits 10 n).length ≤ defaultLimits.maxDigits)

/-- An offline run that is blocked, and the CI step on its report: the step shows the block. -/
theorem ci_shows_the_offline_gate : ∃ (evaluation : EvaluationOutcome) (report : RunReport)
    (text : PyStr), evaluation.gate.decision = .block ∧
      text = report.rounded.ciSummary none ++ PyStr.ofString "\n" ∧
      exec (ciMain ciDefaults
          { exitCode := evalopsRun openOutput ⟨some "report.json", true⟩ offlineEnv
              (offlineRuntime 0) (.ok blockedPlan)
            report := .ok (openOutput.jsonText report).toUTF8, log := none, config := none }) []
        = (.ok (evalopsRun openOutput ⟨some "report.json", true⟩ offlineEnv (offlineRuntime 0)
            (.ok blockedPlan) : ℤ), [⟨.stdout, text⟩]) ∧
      PyStr.ofString CiSection.block.heading <+: text := by
  obtain ⟨evaluation, report, hattempt, hblock, hsmall⟩ :=
    blocked_attempt (p := smallNumbers) (by decide +kernel)
  obtain ⟨hnumbers, hcounts⟩ := Bool.and_eq_true_iff.mp hsmall
  have hrange : report.InRange ciDefaults.limits :=
    { numbers := fun m hm x hx => by
        have h := of_decide_eq_true
          (List.all_eq_true.mp (List.all_eq_true.mp hnumbers m hm) x hx)
        have hone : (1 : ℚ) < PyFloat.overflowBound := by decide +kernel
        exact h.trans_lt hone
      counts := fun n hn => of_decide_eq_true (List.all_eq_true.mp hcounts n hn) }
  have haccepts : openOutput.AcceptsReport ⟨some "report.json", true⟩ report :=
    ⟨fun _ => rfl, fun _ _ => rfl⟩
  have hdepth : 3 ≤ ciDefaults.limits.maxDepth := by decide
  have hconfig : ∀ c : PyStr, none = some c → c.Encodable .strict := nofun
  obtain ⟨text, htext, hexec, hheading, -⟩ :=
    ci_shows_the_gate hattempt haccepts rfl hdepth hrange rfl hconfig none
  exact ⟨evaluation, report, text, hblock, htext, hexec, hheading.mpr hblock⟩

end EvalOps
