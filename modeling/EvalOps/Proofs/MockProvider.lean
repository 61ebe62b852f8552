import EvalOps.Db.Mapping
import EvalOps.Proofs.Replay

/-!
# `EvalOps.Proofs.MockProvider`: what a `mock` block says and what the runs then are

A `mock` block is written with the JSON that the database stores for retrieved items and tool calls,
and `fromConfig_block` reads it back. Over such a block a run fails exactly when its prompt is
listed, and every other run reports what the block answers. `metrics_of_mock_blocks` draws the
metrics of the two versions from that: they are shares, means and constants of the blocks.
-/

set_option autoImplicit false

namespace EvalOps

open Effect Repetition

/-! ### Lists of entries -/

/-- An object whose keys are known passes the check of its keys. -/
theorem unknownKeys_eq_nil {allowed : List String} {fields : List (String × Json)}
    (h : ∀ key ∈ fields.map Prod.fst, key ∈ allowed) : unknownKeys allowed fields = [] := by
  unfold unknownKeys
  rw [Sorting.sorted_eq_nil_iff, List.filter_eq_nil_iff]
  intro key hkey
  simpa using h key hkey

theorem entryFields_obj {allowed : List String} {fields : List (String × Json)} (location : String)
    (h : ∀ key ∈ fields.map Prod.fst, key ∈ allowed) :
    entryFields allowed location (.obj fields) = .ok fields := by
  unfold entryFields
  simp [unknownKeys_eq_nil h]

/-- Entries that are read back at any position are read back as a list. -/
theorem parseEntries_map {α : Type} {parse : String → ℕ → Json → Py α} {encode : α → Json}
    (h : ∀ location position a, parse location position (encode a) = .ok a)
    (kind whereText : String) (items : List α) :
    parseEntries kind whereText parse (.arr (items.map encode)) = .ok items := by
  have hfrom : ∀ k, ((items.map encode).zipIdx k).mapM (fun entry =>
      parse s!"{whereText}[{entry.2}]" entry.2 entry.1) = .ok items := by
    induction items with
    | nil => exact fun _ => rfl
    | cons a items ih =>
        intro k
        rw [List.map_cons, List.zipIdx_cons, List.mapM_cons]
        dsimp only
        rw [h, ExceptRules.ok_bind, ih, ExceptRules.ok_bind]
        rfl
  exact hfrom 0

theorem parseRetrievedItem_entry (location : String) (position : ℕ) (item : RetrievedItem) :
    parseRetrievedItem location position (.obj (retrievedItemEntry item)) = .ok item := by
  have hfields : entryFields retrievalKeys location (.obj (retrievedItemEntry item))
      = .ok (retrievedItemEntry item) :=
    entryFields_obj location fun key hkey => hkey
  have hdocId : ((retrievedItemEntry item).lookup "doc_id").bind nonBlankOf = some item.docId :=
    dif_pos item.docId.nonblank
  have hcontent : ((retrievedItemEntry item).lookup "content").getD (.str "")
      = .str item.content := rfl
  have hrank : parseRank location (((retrievedItemEntry item).lookup "rank").getD (.int position))
      = .ok item.rank := by
    show parseRank location (.int item.rank) = _
    unfold parseRank
    dsimp only
    rw [if_neg (by omega), Int.toNat_natCast]
    rfl
  have hscore : parseItemScore location (((retrievedItemEntry item).lookup "score").getD .null)
      = .ok item.score := by
    show parseItemScore location (nullable .float item.score) = _
    cases item.score <;> rfl
  unfold parseRetrievedItem
  rw [hfields, ExceptRules.ok_bind]
  -- Each key is there, so no default is taken.
  simp only [hdocId, hcontent, hrank, hscore, ExceptRules.ok_bind]
  rfl

theorem parseToolCall_entry (location : String) (position : ℕ) (call : ToolCall) :
    parseToolCall location position (.obj (toolCallEntry call)) = .ok call := by
  have hfields : entryFields mockCallKeys location (.obj (toolCallEntry call))
      = .ok (toolCallEntry call) :=
    entryFields_obj location fun key hkey => hkey
  have hname : ((toolCallEntry call).lookup "name").bind nonBlankOf = some call.name :=
    dif_pos call.name.nonblank
  have harguments : ((toolCallEntry call).lookup "arguments").getD (.obj [])
      = .obj call.arguments := rfl
  have hok : ((toolCallEntry call).lookup "ok").getD (.bool true) = .bool call.ok := rfl
  have hresult : ((toolCallEntry call).lookup "result").getD .null = call.result := rfl
  have herror : parseCallError location (((toolCallEntry call).lookup "error").getD .null)
      = .ok (call.error.map NonBlank.text) := by
    show parseCallError location (nullable .str (call.error.map NonBlank.text)) = _
    cases call.error <;> rfl
  unfold parseToolCall
  rw [hfields, ExceptRules.ok_bind]
  simp only [hname, harguments, hok, hresult, herror, ExceptRules.ok_bind]
  exact call.init_eq

theorem parseRetrieval_retrievalToJson (whereText : String) (items : List RetrievedItem) :
    parseRetrieval (retrievalToJson items) whereText = .ok items :=
  parseEntries_map parseRetrievedItem_entry _ _ items

theorem parseToolCalls_toolCallsToJson (whereText : String) (calls : List ToolCall) :
    parseToolCalls (toolCallsToJson calls) whereText = .ok calls :=
  parseEntries_map parseToolCall_entry _ _ calls

/-! ### The block -/

/-- The `mock` block of a spec, with the lists as the database stores them. -/
def MockSpec.block (spec : MockSpec) : List (String × Json) :=
  [("responses", .obj (spec.responses.map fun r => (r.1, .str r.2))),
    ("default", .str spec.default),
    ("latency_ms", .float spec.latencyMs),
    ("fail_on", .arr (spec.failOn.map .str)),
    ("retrieval", .obj (spec.retrieval.map fun r => (r.1, retrievalToJson r.2))),
    ("retrieval_default", retrievalToJson spec.retrievalDefault),
    ("tool_calls", .obj (spec.toolCalls.map fun r => (r.1, toolCallsToJson r.2))),
    ("tool_calls_default", toolCallsToJson spec.toolCallsDefault)]

theorem parseResponses_map (responses : List (String × String)) :
    parseResponses (.obj (responses.map fun r => (r.1, .str r.2))) = .ok responses := by
  have hall : (responses.map fun r => (r.1, Json.str r.2)).mapM
      (fun field => (textOf field.2).map fun text => (field.1, text)) = some responses := by
    induction responses with
    | nil => rfl
    | cons r responses ih =>
        rw [List.map_cons, List.mapM_cons, ih]
        rfl
  unfold parseResponses
  simp only [hall]
  rfl

theorem parseFailOn_map (prompts : List String) :
    parseFailOn (.arr (prompts.map .str)) = .ok prompts := by
  have hall : (prompts.map Json.str).mapM textOf = some prompts := by
    induction prompts with
    | nil => rfl
    | cons prompt prompts ih =>
        rw [List.map_cons, List.mapM_cons, ih]
        rfl
  unfold parseFailOn
  simp only [hall]
  rfl

theorem parseByPrompt_map {α : Type} {parse : Json → String → Py (List α)}
    {encode : List α → Json} (h : ∀ whereText xs, parse (encode xs) whereText = .ok xs)
    (key kind : String) (entries : List (String × List α)) :
    parseByPrompt key kind parse (.obj (entries.map fun r => (r.1, encode r.2))) = .ok entries := by
  unfold parseByPrompt
  refine ExceptRules.mapM_decode_eq_ok fun entry _ => ?_
  dsimp only
  rw [h, ExceptRules.ok_bind]
  rfl

/-- Reading the block of a spec gives the spec. -/
theorem fromConfig_block {parameters : List (String × Json)} {spec : MockSpec}
    (h : parameters.lookup "mock" = some (.obj spec.block)) :
    MockSpec.fromConfig parameters = .ok spec := by
  have hunknown : unknownKeys mockKeys spec.block = [] := by
    refine unknownKeys_eq_nil fun key hkey => ?_
    have hkeys : spec.block.map Prod.fst
        = ["responses", "default", "latency_ms", "fail_on", "retrieval", "retrieval_default",
            "tool_calls", "tool_calls_default"] := rfl
    rw [hkeys] at hkey
    revert key
    simp only [List.forall_mem_cons]
    decide
  have hlatency : parseLatency (.float spec.latencyMs)
      = .ok ⟨spec.latencyMs, spec.latencyMs_nonneg⟩ := dif_pos spec.latencyMs_nonneg
  unfold MockSpec.fromConfig
  rw [h]
  dsimp only [Option.getD_some]
  rw [hunknown, if_neg (not_not.mpr rfl)]
  show (do
    let responses ← parseResponses
      (.obj (spec.responses.map fun r : String × String => (r.1, .str r.2)))
    let default ← parseDefault (.str spec.default)
    let latencyMs ← parseLatency (.float spec.latencyMs)
    let failOn ← parseFailOn (.arr (spec.failOn.map .str))
    let retrieval ← parseByPrompt "retrieval" "retrieved-item" parseRetrieval
      (.obj (spec.retrieval.map fun r : String × List RetrievedItem =>
        (r.1, retrievalToJson r.2)))
    let retrievalDefault ← parseRetrieval (retrievalToJson spec.retrievalDefault)
      (mockField "retrieval_default")
    let toolCalls ← parseByPrompt "tool_calls" "tool-call" parseToolCalls
      (.obj (spec.toolCalls.map fun r : String × List ToolCall => (r.1, toolCallsToJson r.2)))
    let toolCallsDefault ← parseToolCalls (toolCallsToJson spec.toolCallsDefault)
      (mockField "tool_calls_default")
    requireFloat (.float spec.latencyMs)
    pure
      { responses, default, latencyMs := latencyMs.val, failOn, retrieval, retrievalDefault,
        toolCalls, toolCallsDefault, latencyMs_nonneg := latencyMs.property } : Py MockSpec) = _
  rw [parseResponses_map, ExceptRules.ok_bind]
  simp only [parseDefault, hlatency, parseFailOn_map, parseRetrieval_retrievalToJson,
    parseToolCalls_toolCallsToJson, parseByPrompt_map parseRetrieval_retrievalToJson,
    parseByPrompt_map parseToolCalls_toolCallsToJson, requireFloat, ExceptRules.ok_bind,
    ExceptRules.pure_eq_ok]

/-- A block with an answer, a retrieved item, a failed tool call and a prompt that fails. -/
def MockSpec.sample : MockSpec where
  responses := [("capital of France?", "Paris")]
  default := "unknown"
  latencyMs := 25
  failOn := ["boom"]
  retrieval := [("capital of France?", [⟨⟨"d1", by decide⟩, "Paris is a city", 0, some (1 / 2)⟩])]
  retrievalDefault := []
  toolCalls := []
  toolCallsDefault := [⟨⟨"search", by decide⟩, [("q", .int 1)], .null, false,
    some ⟨"timeout", by decide⟩, by decide⟩]
  latencyMs_nonneg := by norm_num

/-- The block of the sample, behind another parameter. -/
theorem fromConfig_sample :
    MockSpec.fromConfig [("temperature", .int 0), ("mock", .obj MockSpec.sample.block)]
      = .ok MockSpec.sample :=
  fromConfig_block rfl

/-! ### The runs of a block -/

/-- The prompt of a case under a version, when the template renders. -/
def SystemVersion.promptOf (v : SystemVersion) (case : DatasetCase) : Option String :=
  (renderPrompt v.promptTemplate.text case.input.text).toOption

/-- The block answers the prompt of the case. -/
def MockSpec.answers (spec : MockSpec) (v : SystemVersion) (case : DatasetCase) : Bool :=
  (v.promptOf case).any fun prompt => prompt ∉ spec.failOn

/-- The evaluator's score of the block's answer to a case, none where the case fails. -/
def MockSpec.scoreOf (spec : MockSpec) (experiment : Experiment) (v : SystemVersion)
    (evaluator : Evaluator) (stamp : Stamp) (case : DatasetCase) : Option EvaluatorScore := do
  let prompt ← v.promptOf case
  if prompt ∈ spec.failOn then none
  else
    (evaluator.evaluate
      (successfulRun experiment v case 0 (spec.response prompt) stamp) case).toOption

/-- The score of the block's answer to a case, `0` where the case fails. -/
def MockSpec.scoreValue (spec : MockSpec) (experiment : Experiment) (v : SystemVersion)
    (evaluator : Evaluator) (stamp : Stamp) (case : DatasetCase) : ℚ :=
  ((spec.scoreOf experiment v evaluator stamp case).map EvaluatorScore.score).getD 0

/-- `1` where the block's answer to a case passes, and `0` where it does not or the case fails. -/
def MockSpec.passValue (spec : MockSpec) (experiment : Experiment) (v : SystemVersion)
    (evaluator : Evaluator) (stamp : Stamp) (case : DatasetCase) : ℚ :=
  if (spec.scoreOf experiment v evaluator stamp case).bind EvaluatorScore.passed = some true then 1
  else 0

/-- The trial of a case is the one that the block gives it. -/
structure Mocked (spec : MockSpec) (experiment : Experiment) (v : SystemVersion)
    (evaluators : List Evaluator) (case : DatasetCase) (t : Trial) : Prop where
  answered : t.1.error.isNone = spec.answers v case
  latency : t.1.error.isNone → t.1.usage.latencyMs = spec.latencyMs
  cost : t.1.usage.costUsd = 0
  score : ∀ e ∈ evaluators, e.ReadsContent → ∀ stamp,
    trialScore e.name t = spec.scoreOf experiment v e stamp case

section

variable {env : Environment} {experiment : Experiment} {dataset : Dataset} {v : SystemVersion}
  {providers : Dict ProviderName ProviderClient} {evaluators : List Evaluator} {spec : MockSpec}

/-- The score that a trial carries is what the evaluator made of its run. -/
theorem trialScore_of_trialAt {provider : ProviderClient} {case : DatasetCase} {prompt : String}
    {r k : ℕ} {t : Trial}
    (h : trialAt env experiment v provider evaluators case prompt r k = .ok t)
    (hok : t.1.error = none) {e : Evaluator} (he : e ∈ evaluators) :
    ∃ score, e.evaluate t.1 case = .ok score ∧ trialScore e.name t = some score := by
  obtain ⟨run, _, h⟩ := ExceptRules.bind_eq_ok.mp h
  obtain ⟨caseResult, hscore, h⟩ := ExceptRules.bind_eq_ok.mp h
  cases h
  have hscored : ¬run.error.isSome = true := by simp [show run.error = none from hok]
  unfold EvalOps.score at hscore
  rw [if_neg hscored] at hscore
  obtain ⟨scores, hloop, hmake⟩ := ExceptRules.bind_eq_ok.mp hscore
  obtain ⟨score, hmem, heval⟩ :=
    ListRules.exists_of_forall₂_of_mem (ExceptRules.mapM_eq_ok_iff.mp hloop) he
  have hname := e.evaluate_name _ _ _ heval
  rw [← (CaseResult.make_eq_ok hmake).2] at hmem
  refine ⟨score, heval, ?_⟩
  unfold trialScore
  rw [if_neg hscored]
  -- The names of the scores are distinct, so the lookup finds this one.
  cases hfind : caseResult.scores.find? fun s => decide (s.evaluator.text = e.name) with
  | none =>
      have hnone := List.find?_eq_none.mp hfind score hmem
      simp [hname] at hnone
  | some found =>
      have hfound : found.evaluator.text = e.name := by simpa using List.find?_some hfind
      have hsame : found.evaluator = score.evaluator :=
        NonBlank.text_injective (hfound.trans hname.symm)
      rw [List.inj_on_of_nodup_map caseResult.scores_nodup (List.mem_of_find?_eq_some hfind) hmem
        hsame]

/-- A trial of a version on the mock backend is the one that its block gives the case. -/
theorem Ran.mocked (hprovider : providers.get? v.provider = some mockProvider)
    (hspec : MockSpec.fromConfig v.parameters = .ok spec) {key : PairKey} {t : Trial}
    (h : Ran env experiment dataset providers evaluators v key t) {case : DatasetCase}
    (hcase : case ∈ dataset.cases) (hid : case.id = (ofLex key).1) :
    Mocked spec experiment v evaluators case t := by
  obtain ⟨provider, case', prompt, k, hget, hcase', hid', hprompt, htrial⟩ := h
  obtain rfl : mockProvider = provider := Option.some.inj (hprovider.symm.trans hget)
  obtain rfl : case' = case :=
    List.inj_on_of_nodup_map dataset.cases_nodup hcase' hcase (hid'.trans hid.symm)
  have hpromptOf : v.promptOf case' = some prompt := by
    unfold SystemVersion.promptOf
    rw [hprompt]
    rfl
  have hreply : (do mockProvider.checkConfig v; mockProvider.reply k prompt v)
      = if prompt ∈ spec.failOn then
          .error (.provider "mock provider is configured to fail for this prompt")
        else .ok (spec.response prompt) := by
    show (do
      (MockSpec.fromConfig v.parameters).map fun _ => ()
      mockComplete prompt v) = _
    unfold mockComplete
    rw [hspec]
    rfl
  obtain ⟨run, hrun, hrest⟩ := ExceptRules.bind_eq_ok.mp htrial
  obtain ⟨caseResult, hscore, hpair⟩ := ExceptRules.bind_eq_ok.mp hrest
  cases hpair
  rw [hreply] at hrun
  by_cases hfail : prompt ∈ spec.failOn
  · -- The prompt is listed, so the runner records a provider error.
    rw [if_pos hfail] at hrun
    cases hrun
    exact
      { answered := by
          show false = _
          unfold MockSpec.answers
          simp [hpromptOf, hfail]
        latency := fun herror => nomatch herror
        cost := rfl
        score := by
          intro e _ _ stamp
          unfold MockSpec.scoreOf
          rw [trialScore_of_failed rfl, hpromptOf]
          simp [hfail] }
  · rw [if_neg hfail] at hrun
    cases hrun
    exact
      { answered := by
          show true = _
          unfold MockSpec.answers
          simp [hpromptOf, hfail]
        latency := fun _ => rfl
        cost := rfl
        score := by
          intro e he hreads stamp
          obtain ⟨score, heval, htrialScore⟩ := trialScore_of_trialAt htrial rfl he
          unfold MockSpec.scoreOf
          rw [htrialScore, hpromptOf, Option.bind_eq_bind, Option.bind_some, if_neg hfail]
          have hsame : e.evaluate (successfulRun experiment v case' 0 (spec.response prompt) stamp)
              case' = .ok score := by
            rw [← heval]
            exact hreads _ _ case' rfl
          rw [hsame]
          rfl }

end

/-! ### The metrics of a block -/

/-- The share of the cases that the block answers. -/
def MockSpec.share (spec : MockSpec) (v : SystemVersion) (dataset : Dataset) : ℚ :=
  mean (dataset.cases.map fun case => if spec.answers v case then 1 else 0)

/-- The latency of the answers, `0` when the block answers no case. -/
def MockSpec.latency (spec : MockSpec) (v : SystemVersion) (dataset : Dataset) : ℚ :=
  if dataset.cases.any (spec.answers v) then spec.latencyMs else 0

/-- The comparison of a metric has these two values. -/
def EvaluationResult.Reports (result : EvaluationResult) (metric : String) (b c : ℚ) : Prop :=
  ∃ mc ∈ result.metrics, mc.metric = metric ∧ mc.baselineValue = b ∧ mc.candidateValue = c

theorem mean_replicate {n : ℕ} (hn : n ≠ 0) (x : ℚ) : mean (List.replicate n x) = x := by
  have hpos : (n : ℚ) ≠ 0 := by exact_mod_cast hn
  unfold mean
  rw [List.sum_replicate, List.length_replicate, nsmul_eq_mul, mul_div_cancel_left₀ _ hpos]

theorem nearestRank_replicate {n : ℕ} (hn : n ≠ 0) (x : ℚ) :
    nearestRank (List.replicate n x) = x := by
  have hnonempty : List.replicate n x ≠ [] := by simpa using hn
  exact List.eq_of_mem_replicate (nearestRank_isLeast hnonempty).1.1

section

variable {experiment : Experiment} {dataset : Dataset} {v : SystemVersion} {spec : MockSpec}
  {evaluators : List Evaluator} {trial : PairKey → Trial}
  (h : ∀ key ∈ trialKeys dataset.caseIds experiment.repeats, ∀ case ∈ dataset.cases,
    case.id = (ofLex key).1 → Mocked spec experiment v evaluators case (trial key))

include h

/-- An observation that the case determines is observed once for each repeat. -/
theorem map_mocked {β : Type} {observe : Trial → β} (value : DatasetCase → β)
    (hobserve : ∀ case t, Mocked spec experiment v evaluators case t → observe t = value case) :
    ((trialKeys dataset.caseIds experiment.repeats).map trial).map observe
      = each experiment.repeats (dataset.cases.map value) := by
  have hkeys := h
  unfold trialKeys Dataset.caseIds at hkeys ⊢
  rw [List.map_map, List.map_flatMap, List.flatMap_map]
  simp only [List.map_map]
  refine flatMap_range_of_const fun case hcase r hr => ?_
  refine hobserve case _ (hkeys _ ?_ case hcase rfl)
  exact mem_trialKeys.mpr ⟨List.mem_map_of_mem hcase, hr⟩

theorem meanOf_mocked {observe : Trial → ℚ} {value : DatasetCase → ℚ}
    (hobserve : ∀ case t, Mocked spec experiment v evaluators case t → observe t = value case) :
    meanOf observe ((trialKeys dataset.caseIds experiment.repeats).map trial)
      = mean (dataset.cases.map value) := by
  unfold meanOf
  rw [map_mocked h _ hobserve, mean_each experiment.repeats_pos]

theorem success_mocked :
    meanOf successValue ((trialKeys dataset.caseIds experiment.repeats).map trial)
      = spec.share v dataset := by
  refine meanOf_mocked h fun case t ht => ?_
  show successObs t.1 = _
  unfold successObs
  rw [ht.answered]

/-- The latencies of the answered cases, once for each repeat. -/
theorem latencies_mocked :
    successfulLatencies (((trialKeys dataset.caseIds experiment.repeats).map trial).map Prod.fst)
      = each experiment.repeats
        (List.replicate (dataset.cases.countP (spec.answers v)) spec.latencyMs) := by
  have hlatency : ∀ case t, Mocked spec experiment v evaluators case t →
      latencyOf t = if spec.answers v case then some spec.latencyMs else none := by
    intro case t ht
    unfold latencyOf
    rw [ht.answered]
    split
    · rename_i hanswers
      rw [ht.latency (ht.answered.trans hanswers)]
    · rfl
  rw [successfulLatencies_eq, map_mocked h _ hlatency, filterMap_each, List.filterMap_map,
    Function.id_comp, filterMap_ite_eq_replicate]

/-- Both latency metrics are a statistic of equal values. -/
theorem latency_mocked {statistic : List ℚ → ℚ} (hnil : statistic [] = 0)
    (hreplicate : ∀ n x, n ≠ 0 → statistic (List.replicate n x) = x)
    (heach : ∀ xs, statistic (each experiment.repeats xs) = statistic xs) :
    statistic (successfulLatencies
      (((trialKeys dataset.caseIds experiment.repeats).map trial).map Prod.fst))
      = spec.latency v dataset := by
  rw [latencies_mocked h, heach]
  unfold MockSpec.latency
  by_cases hany : dataset.cases.any (spec.answers v) = true
  · rw [if_pos hany]
    refine hreplicate _ _ ?_
    obtain ⟨case, hcase, hanswers⟩ := List.any_eq_true.mp hany
    have hpos := List.countP_pos_iff.mpr ⟨case, hcase, hanswers⟩
    omega
  · rw [if_neg hany, List.countP_eq_zero.mpr]
    · exact hnil
    · intro case hcase hanswers
      exact hany (List.any_eq_true.mpr ⟨case, hcase, hanswers⟩)

theorem cost_mocked :
    costTotalOf ((trialKeys dataset.caseIds experiment.repeats).map trial) = 0 := by
  have hmap : (((trialKeys dataset.caseIds experiment.repeats).map trial).map Prod.fst).map
      (fun r => r.usage.costUsd) = ((trialKeys dataset.caseIds experiment.repeats).map trial).map
        fun t => t.1.usage.costUsd := List.map_map ..
  unfold costTotalOf costTotal
  rw [hmap, map_mocked h (fun _ => 0) fun _ _ ht => ht.cost, sum_each]
  simp

theorem scoreValue_mocked {e : Evaluator} (he : e ∈ evaluators) (hreads : e.ReadsContent)
    (stamp : Stamp) :
    meanOf (scoreValue e.name) ((trialKeys dataset.caseIds experiment.repeats).map trial)
      = mean (dataset.cases.map (spec.scoreValue experiment v e stamp)) := by
  refine meanOf_mocked h fun case t ht => ?_
  unfold EvalOps.scoreValue MockSpec.scoreValue
  rw [ht.score e he hreads stamp]

theorem passValue_mocked {e : Evaluator} (he : e ∈ evaluators) (hreads : e.ReadsContent)
    (stamp : Stamp) :
    meanOf (passValue e.name) ((trialKeys dataset.caseIds experiment.repeats).map trial)
      = mean (dataset.cases.map (spec.passValue experiment v e stamp)) := by
  refine meanOf_mocked h fun case t ht => ?_
  unfold EvalOps.passValue MockSpec.passValue
  rw [ht.score e he hreads stamp]

end

/-- Over the mock backend, the metrics of an experiment are given by the two blocks: the success
rate is the share of the cases whose prompt is not listed in `fail_on`, both latencies are the
block's constant, the cost is `0`, and the pass rate and the mean score of an evaluator that reads
contents only are the means of its verdicts and of its scores of the block's answers. -/
theorem metrics_of_mock_blocks {env : Environment} {experiment : Experiment} {dataset : Dataset}
    {baseline candidate : SystemVersion} {providers : Dict ProviderName ProviderClient}
    {evaluators : List Evaluator} {s t : ℕ} {outcome : RunOutcome} {b c : MockSpec}
    (hproviders : ∀ v ∈ [baseline, candidate], providers.get? v.provider = some mockProvider)
    (hb : MockSpec.fromConfig baseline.parameters = .ok b)
    (hc : MockSpec.fromConfig candidate.parameters = .ok c)
    (hrun : exec (runExperiment env experiment dataset baseline candidate providers evaluators) s
      = (.ok outcome, t)) (stamp runStamp : Stamp) :
    ∃ result, aggregateResults experiment outcome (evaluators.map Evaluator.name) stamp
        = .ok result ∧
      result.metrics.map MetricComparison.metric
        = expectedMetricNames (evaluators.map Evaluator.name) ∧
      result.Reports "success_rate" (b.share baseline dataset) (c.share candidate dataset) ∧
      result.Reports "latency_ms.mean" (b.latency baseline dataset)
        (c.latency candidate dataset) ∧
      result.Reports "latency_ms.p95" (b.latency baseline dataset)
        (c.latency candidate dataset) ∧
      result.Reports "cost_usd.total" 0 0 ∧
      ∀ e ∈ evaluators, e.ReadsContent →
        result.Reports (passRateMetric e.name)
          (mean (dataset.cases.map (b.passValue experiment baseline e runStamp)))
          (mean (dataset.cases.map (c.passValue experiment candidate e runStamp))) ∧
        result.Reports (meanScoreMetric e.name)
          (mean (dataset.cases.map (b.scoreValue experiment baseline e runStamp)))
          (mean (dataset.cases.map (c.scoreValue experiment candidate e runStamp))) := by
  obtain ⟨g, rfl, hran⟩ := runExperiment_grid hrun
  have hmockedB : ∀ key ∈ g.keys, ∀ case ∈ dataset.cases, case.id = (ofLex key).1 →
      Mocked b experiment baseline evaluators case (g.baseline key) :=
    fun key hkey case hcase hid =>
      (hran key hkey).1.mocked (hproviders _ List.mem_cons_self) hb hcase hid
  have hmockedC : ∀ key ∈ g.keys, ∀ case ∈ dataset.cases, case.id = (ofLex key).1 →
      Mocked c experiment candidate evaluators case (g.candidate key) :=
    fun key hkey case hcase hid =>
      (hran key hkey).2.mocked (hproviders _ (by simp)) hc hcase hid
  have hlatency : ∀ statistic : List ℚ → ℚ, statistic [] = 0 →
      (∀ n x, n ≠ 0 → statistic (List.replicate n x) = x) →
      (∀ xs, statistic (each experiment.repeats xs) = statistic xs) →
      statistic (successfulLatencies (g.baselineTrials.map Prod.fst)) = b.latency baseline dataset ∧
      statistic (successfulLatencies (g.candidateTrials.map Prod.fst))
        = c.latency candidate dataset :=
    fun statistic hnil hreplicate heach =>
      ⟨latency_mocked hmockedB hnil hreplicate heach,
        latency_mocked hmockedC hnil hreplicate heach⟩
  refine ⟨_, g.aggregateResults_eq_ok stamp, map_metric_comparisons _ _ _, ?_, ?_, ?_, ?_, ?_⟩
  · exact ⟨_, List.mem_cons_self, rfl, success_mocked hmockedB, success_mocked hmockedC⟩
  · have hmean := hlatency mean (by simp [mean]) (fun _ x hn => mean_replicate hn x)
      (fun xs => mean_each experiment.repeats_pos xs)
    refine ⟨_, List.mem_append_right _ List.mem_cons_self, rfl, ?_, ?_⟩
    · exact (latencyMean_eq _).trans hmean.1
    · exact (latencyMean_eq _).trans hmean.2
  · have hrank := hlatency nearestRank rfl (fun _ x hn => nearestRank_replicate hn x)
      (fun xs => nearestRank_each experiment.repeats_pos xs)
    refine ⟨_, List.mem_append_right _ (List.mem_cons_of_mem _ List.mem_cons_self), rfl, ?_, ?_⟩
    · exact (latencyP95Value_eq _).trans hrank.1
    · exact (latencyP95Value_eq _).trans hrank.2
  · exact ⟨_, List.mem_append_right _ (List.mem_cons_of_mem _ (List.mem_cons_of_mem _
      List.mem_cons_self)), rfl, cost_mocked hmockedB, cost_mocked hmockedC⟩
  · intro e he hreads
    -- The two comparisons of the evaluator stand behind the success rate.
    have hmem : ∀ mc ∈ [comparison (passRateMetric e.name) (passRateMetric_nonblank e.name)
          g.baselineTrials g.candidateTrials (meanOf (passValue e.name)),
        comparison (meanScoreMetric e.name) (meanScoreMetric_nonblank e.name)
          g.baselineTrials g.candidateTrials (meanOf (scoreValue e.name))],
        mc ∈ (g.aggregated stamp).metrics := fun mc hmc =>
      List.mem_append_left _ (List.mem_cons_of_mem _
        (List.mem_flatMap.mpr ⟨e.name, List.mem_map_of_mem he, hmc⟩))
    exact ⟨⟨_, hmem _ List.mem_cons_self, rfl,
        passValue_mocked hmockedB he hreads runStamp, passValue_mocked hmockedC he hreads runStamp⟩,
      ⟨_, hmem _ (List.mem_cons_of_mem _ List.mem_cons_self), rfl,
        scoreValue_mocked hmockedB he hreads runStamp,
        scoreValue_mocked hmockedC he hreads runStamp⟩⟩

/-- How often the empty block's answers pass `tool_success`. -/
def emptyBlockPasses (version : ℕ) : ℚ :=
  mean ((offlineDataset 0).cases.map
    (MockSpec.empty.passValue (offlineExperiment 1 one_le_once)
      (offlineVersion version inputTemplate) ToolSuccess.default.toEvaluator (offlineStamp 0)))

/-- One case on the mock backend, under versions without a block. -/
theorem metrics_without_blocks : ∃ outcome result,
    aggregateResults (offlineExperiment 1 one_le_once) outcome ["tool_success"] (offlineStamp 0)
        = .ok result ∧
      result.Reports "success_rate"
        (MockSpec.empty.share (offlineVersion 0 inputTemplate) (offlineDataset 0))
        (MockSpec.empty.share (offlineVersion 1 inputTemplate) (offlineDataset 0)) ∧
      result.Reports "tool_success.pass_rate" (emptyBlockPasses 0) (emptyBlockPasses 1) := by
  have hmocked : ∀ v ∈ [offlineVersion 0 inputTemplate, offlineVersion 1 inputTemplate],
      mockedOllama.get? v.provider = some mockProvider := by
    intro v hv
    rcases List.mem_pair.mp hv with rfl | rfl <;> rfl
  obtain ⟨outcome, t, hrun⟩ := prepared_mocked.runExperiment_isOk offlineEnv 0
  obtain ⟨result, hresult, _, hsuccess, _, _, _, hscored⟩ := metrics_of_mock_blocks hmocked
    (fromConfig_of_no_block rfl) (fromConfig_of_no_block rfl) hrun (offlineStamp 0)
    (offlineStamp 0)
  have hpasses := (hscored _ List.mem_cons_self (toolSuccess_readsContent _)).1
  exact ⟨outcome, result, hresult, hsuccess, hpasses⟩

end EvalOps
