import EvalOps.Proofs.Framing

/-!
# `EvalOps.Proofs.Calibration`: when a calibration returns its cases

A calibration asks once for each example, and each turn of its loop counts one call
(`exec_calibrateExample`). A turn returns its case unless an exception escapes
(`recordCase_isOk_iff`), and the metrics of the cases never raise (`computeMetrics_isOk`).
`calibrateJudge_isOk_iff` puts these together: with a provider that replies or raises a
`ProviderError`, the calibration returns one case for each example, in order, exactly when the judge
can be recorded and every reply is harmless.
-/

set_option autoImplicit false

namespace EvalOps

open Effect

/-! ### One example -/

/-- A judge whose configuration and calibration can be built. -/
structure LLMJudge.Usable (judge : LLMJudge) (rubricId : String) : Prop where
  name : PyText.isBlank judge.name = false
  model : PyText.isBlank judge.model = false
  rubricId : PyText.isBlank rubricId = false
  temperature : 0 ≤ judge.temperature

/-- What the outside says to the `k`-th call of a calibration. -/
def LLMJudge.answer (judge : LLMJudge) (stamps : ℕ → Stamp) (k : ℕ)
    (labeled : LabeledJudgeExample) : Py ProviderResponse := do
  let judgeConfig ← judge.config (stamps k)
  judge.providerClient.checkConfig judgeConfig
  judge.providerClient.reply k
    (renderJudgePrompt labeled.input.text labeled.output.text labeled.reference) judgeConfig

/-- A client that replies or raises a `ProviderError`. -/
def OnlyProviderErrors (provider : ProviderClient) : Prop :=
  ∀ k prompt config exc,
    (do provider.checkConfig config; provider.reply k prompt config) = Except.error exc →
      exc.kind = .providerError

/-- The case records this example. -/
def CaseOf (labeled : LabeledJudgeExample) (case : JudgeCalibrationCase) : Prop :=
  case.input = labeled.input.text ∧ case.output = labeled.output.text ∧
    case.reference = labeled.reference ∧ case.humanPass = labeled.humanPass

/-- What a calibration makes of a judgement. -/
def recordCase (labeled : LabeledJudgeExample) : Py JudgeVerdict → Py JudgeCalibrationCase
  | .ok verdict => judgedCase labeled verdict
  | .error exc => if isJudgeFailure exc then failedCase labeled exc else .error exc

/-- The judgement of the `k`-th call. -/
def LLMJudge.judgement (judge : LLMJudge) (limits : JsonReader.Limits) (stamps : ℕ → Stamp)
    (k : ℕ) (labeled : LabeledJudgeExample) : Py JudgeVerdict := do
  let response ← judge.answer stamps k labeled
  parseJudgeVerdict limits response.text judge.name

/-- The configuration of a judge with a name and a model. -/
theorem LLMJudge.config_isOk {judge : LLMJudge} (hname : PyText.isBlank judge.name = false)
    (hmodel : PyText.isBlank judge.model = false) (stamp : Stamp) :
    ∃ judgeConfig, judge.config stamp = .ok judgeConfig := by
  have hproject : PyText.isBlank "judge" = false := by decide
  have hversion : PyText.isBlank judgeRubricId = false := by decide
  have hprompt : PyText.isBlank "$\x7binput\x7d" = false := by decide
  unfold LLMJudge.config SystemVersion.init
  simp only [requireNonEmpty, dif_pos hproject, dif_pos hname, dif_pos hversion, dif_pos hmodel,
    dif_pos hprompt, dif_pos stamp.id.nonblank, ExceptRules.pure_eq_ok, ExceptRules.ok_bind]
  exact ⟨_, rfl⟩

/-- A judge with a configuration makes one call. -/
theorem exec_judge {judge : LLMJudge} {limits : JsonReader.Limits} {stamps : ℕ → Stamp} {k : ℕ}
    {judgeConfig : SystemVersion} (hconfig : judge.config (stamps k) = .ok judgeConfig)
    (labeled : LabeledJudgeExample) :
    exec (judge.judge limits stamps labeled.input.text labeled.output.text labeled.reference) k
      = (judge.judgement limits stamps k labeled, k + 1) := by
  unfold LLMJudge.judge LLMJudge.judgement LLMJudge.answer
  simp only [exec_bind, exec_get, exec_lift, hconfig, exec_complete, ExceptRules.ok_bind]
  cases (do
    judge.providerClient.checkConfig judgeConfig
    judge.providerClient.reply k
      (renderJudgePrompt labeled.input.text labeled.output.text labeled.reference) judgeConfig) <;>
    rfl

/-- One turn of the loop makes one call and records its judgement. -/
theorem exec_calibrateExample {judge : LLMJudge} {limits : JsonReader.Limits}
    {stamps : ℕ → Stamp} {k : ℕ} {judgeConfig : SystemVersion}
    (hconfig : judge.config (stamps k) = .ok judgeConfig) (labeled : LabeledJudgeExample) :
    exec (calibrateExample judge limits stamps labeled) k
      = (recordCase labeled (judge.judgement limits stamps k labeled), k + 1) := by
  unfold calibrateExample
  simp only [exec_bind, exec_tryCatch, exec_judge hconfig]
  cases judge.judgement limits stamps k labeled with
  | ok verdict => rfl
  | error exc =>
      -- Only the two failures of a judge are caught.
      simp only [recordCase]
      cases isJudgeFailure exc <;> rfl

/-- A failure is always recorded. -/
theorem failedCase_isOk (labeled : LabeledJudgeExample) (exc : PyError) :
    ∃ case, failedCase labeled exc = .ok case := by
  unfold failedCase JudgeCalibrationCase.init
  rw [dif_pos (by simp), dif_pos nofun]
  exact ⟨_, rfl⟩

/-- A verdict is recorded when its score is in the unit interval. -/
theorem judgedCase_isOk (labeled : LabeledJudgeExample) {verdict : JudgeVerdict}
    (h0 : 0 ≤ verdict.score) (h1 : verdict.score ≤ 1) :
    ∃ case, judgedCase labeled verdict = .ok case := by
  unfold judgedCase JudgeCalibrationCase.init
  rw [dif_pos (by simp), dif_pos]
  · exact ⟨_, rfl⟩
  · rintro score ⟨rfl⟩
    exact ⟨h0, h1⟩

/-- A sound judgement is recorded. -/
theorem recordCase_isOk_of_sound (labeled : LabeledJudgeExample) {result : Py JudgeVerdict}
    (h : SoundJudgement result) : ∃ case, recordCase labeled result = .ok case := by
  rcases h with ⟨verdict, rfl, h0, h1⟩ | ⟨exc, rfl, hkind⟩
  · exact judgedCase_isOk labeled h0 h1
  · have hfailure : isJudgeFailure exc = true := by simp [isJudgeFailure, hkind]
    rw [recordCase, if_pos hfailure]
    exact failedCase_isOk labeled exc

/-- An exception that escapes a judgement ends the calibration. -/
theorem recordCase_of_escapes (labeled : LabeledJudgeExample) {result : Py JudgeVerdict}
    (h : Escapes result) : ∃ exc, recordCase labeled result = .error exc := by
  obtain ⟨exc, rfl, hfailure⟩ := h
  refine ⟨exc, ?_⟩
  rw [recordCase, hfailure]
  rfl

/-- The call of an example is recorded exactly when its reply, if there is one, is harmless. -/
theorem recordCase_judgement_isOk_iff {judge : LLMJudge} {stamps : ℕ → Stamp} {k : ℕ}
    {judgeConfig : SystemVersion} (hconfig : judge.config (stamps k) = .ok judgeConfig)
    (hmix : OnlyProviderErrors judge.providerClient) (limits : JsonReader.Limits)
    (labeled : LabeledJudgeExample) :
    (∃ case, recordCase labeled (judge.judgement limits stamps k labeled) = .ok case) ↔
      ∀ response, judge.answer stamps k labeled = .ok response → Harmless limits response.text := by
  unfold LLMJudge.judgement
  cases hanswer : judge.answer stamps k labeled with
  | error exc =>
      refine iff_of_true ?_ (by simp)
      rw [LLMJudge.answer, hconfig] at hanswer
      have hkind : exc.kind = .providerError := hmix k _ judgeConfig exc hanswer
      have hfailure : isJudgeFailure exc = true := by simp [isJudgeFailure, hkind]
      rw [ExceptRules.error_bind, recordCase, if_pos hfailure]
      exact failedCase_isOk labeled exc
  | ok response =>
      rw [ExceptRules.ok_bind]
      rcases parseJudgeVerdict_ends limits response.text judge.name with ⟨hharmless, hsound⟩ |
        ⟨hharmless, hescapes⟩
      · refine iff_of_true (recordCase_isOk_of_sound labeled hsound) ?_
        simpa using hharmless
      · obtain ⟨exc, hexc⟩ := recordCase_of_escapes labeled hescapes
        refine iff_of_false ?_ fun h => hharmless (h response rfl)
        rw [hexc]
        simp

/-- A recorded case is the case of its example. -/
theorem caseOf_of_init {labeled : LabeledJudgeExample} {case : JudgeCalibrationCase}
    {judgePass : Option Bool} {judgeScore : Option ℚ} {judgeReasoning error : Option String}
    (h : JudgeCalibrationCase.init labeled.input.text labeled.output.text labeled.reference
      labeled.humanPass judgePass judgeScore judgeReasoning error = .ok case) :
    CaseOf labeled case := by
  unfold JudgeCalibrationCase.init at h
  split_ifs at h
  cases h
  exact ⟨rfl, rfl, rfl, rfl⟩

theorem caseOf_of_recordCase {labeled : LabeledJudgeExample} {result : Py JudgeVerdict}
    {case : JudgeCalibrationCase} (h : recordCase labeled result = .ok case) :
    CaseOf labeled case := by
  cases result with
  | ok verdict =>
      rw [recordCase, judgedCase] at h
      exact caseOf_of_init h
  | error exc =>
      rw [recordCase] at h
      split_ifs at h
      rw [failedCase] at h
      exact caseOf_of_init h

/-! ### The calibration -/

theorem countCells_cons (c : JudgeCalibrationCase) (cases : List JudgeCalibrationCase)
    (human judge : Bool) :
    countCells (c :: cases) human judge = countCells cases human judge +
      if c.humanPass = human ∧ c.judgePass = some judge then 1 else 0 := by
  simp only [countCells, List.countP_cons, decide_eq_true_eq]

/-- Each scored case is in one cell of the confusion matrix. -/
theorem countCells_sum {cases : List JudgeCalibrationCase}
    (h : ∀ c ∈ cases, c.judgePass.isSome) :
    countCells cases true true + countCells cases false false + countCells cases false true +
      countCells cases true false = cases.length := by
  induction cases with
  | nil => rfl
  | cons c cases ih =>
      have hrest := ih fun c hc => h c (List.mem_cons_of_mem _ hc)
      obtain ⟨judged, hjudged⟩ := Option.isSome_iff_exists.mp (h c List.mem_cons_self)
      simp only [countCells_cons, List.length_cons, hjudged]
      cases c.humanPass <;> cases judged <;> simp <;> omega

/-- The metrics of a list of cases never raise, and count its cases. -/
theorem computeMetrics_isOk (cases : List JudgeCalibrationCase) :
    ∃ metrics, computeMetrics cases = .ok metrics ∧ metrics.total = cases.length := by
  unfold computeMetrics JudgeCalibrationMetrics.init
  generalize hscored : (cases.filter fun c => c.judgePass.isSome) = scored
  have hle : scored.length ≤ cases.length := by
    rw [← hscored]
    exact List.length_filter_le _ _
  have hcells : countCells scored true true + countCells scored false false +
      countCells scored false true + countCells scored true false = scored.length := by
    rw [← hscored]
    exact countCells_sum fun c hc => (List.mem_filter.mp hc).2
  have hfailures : (cases.length : ℤ) - scored.length = ((cases.length - scored.length : ℕ) : ℤ) :=
    (Nat.cast_sub hle).symm
  dsimp only
  simp only [requireCount, hfailures, requireNat_natCast, ExceptRules.ok_bind]
  rw [dif_pos (by omega), dif_pos (by exact_mod_cast hcells)]
  exact ⟨_, rfl, rfl⟩

/-- A calibration that is built holds its cases, and its judge can be recorded. -/
theorem usable_of_init {judge : LLMJudge} {rubricId id : String} {createdAt : Timestamp}
    {metrics : JudgeCalibrationMetrics} {cases : List JudgeCalibrationCase}
    {calibration : JudgeCalibration}
    (h : JudgeCalibration.init judge.providerName judge.model judge.name judge.temperature rubricId
      metrics cases id createdAt = .ok calibration) :
    judge.Usable rubricId ∧ calibration.cases = cases := by
  unfold JudgeCalibration.init at h
  obtain ⟨model, hmodel, h⟩ := ExceptRules.bind_eq_ok.mp h
  obtain ⟨name, hname, h⟩ := ExceptRules.bind_eq_ok.mp h
  obtain ⟨rubric, hrubric, h⟩ := ExceptRules.bind_eq_ok.mp h
  obtain ⟨_, _, h⟩ := ExceptRules.bind_eq_ok.mp h
  split_ifs at h with htemperature htotal
  cases h
  have hrubric' := rubric.nonblank
  have hname' := name.nonblank
  have hmodel' := model.nonblank
  rw [requireNonEmpty_eq_ok hrubric] at hrubric'
  rw [requireNonEmpty_eq_ok hname] at hname'
  rw [requireNonEmpty_eq_ok hmodel] at hmodel'
  exact ⟨⟨hname', hmodel', hrubric', not_lt.mp htemperature⟩, rfl⟩

/-- The calibration of a usable judge is built from any cases. -/
theorem init_of_usable {judge : LLMJudge} {rubricId : String} (h : judge.Usable rubricId)
    {metrics : JudgeCalibrationMetrics} {cases : List JudgeCalibrationCase}
    (htotal : metrics.total = cases.length) (stamp : Stamp) :
    ∃ calibration, JudgeCalibration.init judge.providerName judge.model judge.name
      judge.temperature rubricId metrics cases stamp.id.text stamp.createdAt = .ok calibration ∧
        calibration.cases = cases := by
  unfold JudgeCalibration.init
  simp only [requireNonEmpty, dif_pos h.model, dif_pos h.name, dif_pos h.rubricId,
    dif_pos stamp.id.nonblank, dif_neg (not_lt.mpr h.temperature), dif_pos htotal,
    ExceptRules.pure_eq_ok, ExceptRules.ok_bind]
  exact ⟨_, rfl, rfl⟩

/-- The loop of a usable judge returns exactly when every reply is harmless. -/
theorem exec_mapM_calibrateExample_isOk_iff {judge : LLMJudge} {rubricId : String}
    (husable : judge.Usable rubricId) (hmix : OnlyProviderErrors judge.providerClient)
    (limits : JsonReader.Limits) (stamps : ℕ → Stamp) (examples : List LabeledJudgeExample)
    (k : ℕ) :
    (∃ cases t, exec (examples.mapM (calibrateExample judge limits stamps)) k = (.ok cases, t)) ↔
      ∀ i, ∀ hi : i < examples.length, ∀ response,
        judge.answer stamps (k + i) examples[i] = .ok response →
          Harmless limits response.text := by
  have hconfig := LLMJudge.config_isOk husable.name husable.model
  have hturn : ∀ labeled ∈ examples, ∀ k,
      exec (calibrateExample judge limits stamps labeled) k
        = (recordCase labeled (judge.judgement limits stamps k labeled), k + 1) := by
    intro labeled _ k
    obtain ⟨judgeConfig, hk⟩ := hconfig (stamps k)
    exact exec_calibrateExample hk labeled
  rw [exec_mapM_isOk_iff hturn]
  refine forall_congr' fun i => forall_congr' fun hi => ?_
  obtain ⟨judgeConfig, hk⟩ := hconfig (stamps (k + i))
  exact recordCase_judgement_isOk_iff hk hmix limits examples[i]

/-- A turn that returns, returns the case of its example. -/
theorem caseOf_of_exec_calibrateExample {judge : LLMJudge} {rubricId : String}
    (husable : judge.Usable rubricId) (limits : JsonReader.Limits) (stamps : ℕ → Stamp)
    (labeled : LabeledJudgeExample) (k : ℕ) (case : JudgeCalibrationCase) (t : ℕ)
    (h : exec (calibrateExample judge limits stamps labeled) k = (.ok case, t)) :
    CaseOf labeled case := by
  obtain ⟨judgeConfig, hk⟩ := LLMJudge.config_isOk husable.name husable.model (stamps k)
  rw [exec_calibrateExample hk] at h
  exact caseOf_of_recordCase (Prod.mk.inj h).1

/-- The calibration holds one case for each example, in order. -/
def Calibrated (judge : LLMJudge) (limits : JsonReader.Limits) (stamps : ℕ → Stamp)
    (stamp : Stamp) (rubricId : String) (examples : List LabeledJudgeExample) (k : ℕ) : Prop :=
  ∃ calibration t,
    exec (calibrateJudge judge limits stamps stamp rubricId examples) k = (.ok calibration, t) ∧
      List.Forall₂ CaseOf examples calibration.cases

/-- The calibration returns its cases exactly when its judge can be recorded and every reply is
harmless. -/
theorem calibrated_iff {judge : LLMJudge} (hmix : OnlyProviderErrors judge.providerClient)
    (limits : JsonReader.Limits) (stamps : ℕ → Stamp) (stamp : Stamp) (rubricId : String)
    (examples : List LabeledJudgeExample) (k : ℕ) :
    Calibrated judge limits stamps stamp rubricId examples k ↔
      judge.Usable rubricId ∧ ∀ i, ∀ hi : i < examples.length, ∀ response,
        judge.answer stamps (k + i) examples[i] = .ok response →
          Harmless limits response.text := by
  unfold Calibrated calibrateJudge
  constructor
  · rintro ⟨calibration, t, hrun, _⟩
    obtain ⟨cases, t', hcases, hrest⟩ := exec_bind_eq_ok.mp hrun
    obtain ⟨metrics, _, hinit⟩ := exec_lift_bind_eq_ok.mp hrest
    have husable := (usable_of_init (Prod.mk.inj hinit).1).1
    have hloop := exec_mapM_calibrateExample_isOk_iff husable hmix limits stamps examples k
    exact ⟨husable, hloop.mp ⟨cases, t', hcases⟩⟩
  · rintro ⟨husable, hreplies⟩
    have hloop := exec_mapM_calibrateExample_isOk_iff husable hmix limits stamps examples k
    obtain ⟨cases, t, hcases⟩ := hloop.mpr hreplies
    obtain ⟨metrics, hmetrics, htotal⟩ := computeMetrics_isOk cases
    obtain ⟨calibration, hinit, hheld⟩ := init_of_usable husable htotal stamp
    refine ⟨calibration, t, ?_, ?_⟩
    · simp only [exec_bind, hcases, exec_lift, hmetrics, hinit]
    · rw [hheld]
      exact mapM_forall₂ (caseOf_of_exec_calibrateExample husable limits stamps) hcases

/-! ### Replies of a script -/

/-- A judge whose calls are answered in order by a script. -/
def scriptedJudge (script : ℕ → Py String) : LLMJudge where
  providerName := .ollama
  providerClient :=
    { name := "ollama"
      checkConfig := fun _ => .ok ()
      reply := fun k _ _ => (script k).map fun text => ⟨text, UsageMetrics.zero, [], []⟩ }
  model := "m"
  temperature := 0
  name := "llm_judge"

/-- A stamp for everything that a scripted calibration builds. -/
def scriptedStamp : Stamp := ⟨⟨"s", by decide⟩, 0⟩

/-- An example for a scripted judge. -/
def scriptedExample : LabeledJudgeExample where
  input := ⟨"2 + 2?", by decide⟩
  output := ⟨"4", by decide⟩
  humanPass := true
  reference := none

/-- A script of replies and `ProviderError`s. -/
def ScriptOfReplies (script : ℕ → Py String) : Prop :=
  ∀ k exc, script k = .error exc → exc.kind = .providerError

theorem scriptedJudge_usable (script : ℕ → Py String) :
    (scriptedJudge script).Usable judgeRubricId where
  name := show PyText.isBlank "llm_judge" = false by decide
  model := show PyText.isBlank "m" = false by decide
  rubricId := by decide
  temperature := le_refl 0

theorem scriptedJudge_onlyProviderErrors {script : ℕ → Py String} (h : ScriptOfReplies script) :
    OnlyProviderErrors (scriptedJudge script).providerClient := by
  intro k prompt config exc hexc
  refine h k exc ?_
  exact ExceptRules.map_eq_error.mp hexc

/-- The text of an answer is the one of the script. -/
theorem scriptedJudge_answer {script : ℕ → Py String} {k : ℕ} {labeled : LabeledJudgeExample}
    {stamps : ℕ → Stamp} {response : ProviderResponse}
    (h : (scriptedJudge script).answer stamps k labeled = .ok response) :
    script k = .ok response.text := by
  obtain ⟨config, _, hreply⟩ := ExceptRules.bind_eq_ok.mp h
  obtain ⟨text, htext, rfl⟩ := ExceptRules.map_eq_ok.mp hreply
  exact htext

/-- An object that is sent alone is harmless exactly when its score is. -/
theorem harmless_dumpsLine_iff {limits : JsonReader.Limits} {fields : List (String × Json)}
    (h : JsonReader.Readable limits.maxDigits limits.maxDepth (.obj fields)) :
    Harmless limits (Json.dumpsLine FloatText.repr (.obj fields)) ↔
      ScoreFitsFloat (JsonReader.buildFields decodedHooks fields) := by
  have htext : (Json.dumpsLine FloatText.repr (.obj fields)).toList =
      [] ++ '{' :: (Json.lineFields FloatText.repr fields ++ '}' :: []) := by
    rw [Json.dumpsLine, String.toList_ofList, Json.line]
    rfl
  have hfound := jsonText_unfenced htext List.not_mem_nil List.not_mem_nil (by decide)
  refine harmless_obj_iff hfound ?_
  have hloads := JsonReader.loads_dumpsLine decodedHooks limits h
  rw [htext] at hloads
  exact hloads

/-- The digits of a power of ten. -/
theorem toDigits_ten_pow (n : ℕ) : Nat.toDigits 10 (10 ^ n) = '1' :: List.replicate n '0' := by
  induction n with
  | zero => rfl
  | succ n ih =>
      have hbase : 10 ≤ 10 ^ (n + 1) := Nat.le_self_pow (Nat.succ_ne_zero n) 10
      have hdiv : 10 ^ (n + 1) / 10 = 10 ^ n := by rw [pow_succ, Nat.mul_div_cancel _ (by decide)]
      have hmod : 10 ^ (n + 1) % 10 = 0 := by rw [pow_succ, Nat.mul_mod_left]
      rw [Nat.toDigits_of_base_le (by decide) hbase, hdiv, hmod, ih, List.replicate_succ',
        List.cons_append]
      rfl

/-- A reply whose score is a power of ten. -/
def powerReply (n : ℕ) : String :=
  "\x7b\"verdict\": \"pass\", \"score\": 1" ++ String.ofList (List.replicate n '0') ++ "\x7d"

theorem toList_toString_ten_pow (n : ℕ) :
    (toString ((10 : ℤ) ^ n)).toList = '1' :: List.replicate n '0' := by
  have hpos : ¬ (10 : ℤ) ^ n < 0 := not_lt.mpr (by positivity)
  have hten : Int.natAbs 10 = 10 := rfl
  rw [JsonReader.toList_toString_int, Numeral.ofInt, Int.natAbs_pow, hten, toDigits_ten_pow]
  simp [Numeral.text, hpos, Numeral.fractionText, Numeral.exponentText]

theorem powerReply_eq (n : ℕ) :
    powerReply n = Json.dumpsLine FloatText.repr
      (.obj [("verdict", .str "pass"), ("score", .int (10 ^ n))]) := by
  have hfront : "\x7b\"verdict\": \"pass\", \"score\": 1".toList =
      '{' :: ((Json.encodeString "verdict").toList ++ ':' :: ' ' ::
        ((Json.encodeString "pass").toList ++ ',' :: ' ' ::
          ((Json.encodeString "score").toList ++ ':' :: ' ' :: ['1']))) := by decide +kernel
  have hback : "\x7d".toList = ['}'] := by decide
  unfold powerReply Json.dumpsLine
  apply String.toList_injective
  rw [String.toList_append, String.toList_append, hfront, hback, String.toList_ofList,
    String.toList_ofList]
  simp only [Json.line, Json.lineFields, toList_toString_ten_pow, List.append_assoc,
    List.cons_append, List.nil_append]

/-- A score of that size is harmless exactly when it is in the range of a double. -/
theorem harmless_powerReply_iff {limits : JsonReader.Limits} {n : ℕ}
    (hdigits : n + 1 ≤ limits.maxDigits) :
    Harmless limits (powerReply n) ↔ (10 : ℚ) ^ n < PyFloat.overflowBound := by
  obtain ⟨depth, hdepth⟩ := Nat.exists_eq_succ_of_ne_zero (Nat.ne_of_gt limits.maxDepth_pos)
  have hkeys : ["verdict", "score"].Nodup := by decide
  have hlength : (Nat.toDigits 10 ((10 : ℤ) ^ n).natAbs).length ≤ limits.maxDigits := by
    rw [Int.natAbs_pow]
    show (Nat.toDigits 10 (10 ^ n)).length ≤ limits.maxDigits
    rw [toDigits_ten_pow, List.length_cons, List.length_replicate]
    exact hdigits
  have hreadable : JsonReader.Readable limits.maxDigits limits.maxDepth
      (.obj [("verdict", .str "pass"), ("score", .int (10 ^ n))]) := by
    rw [hdepth]
    exact ⟨hkeys, trivial, hlength, trivial⟩
  have habs : |(((10 : ℤ) ^ n : ℤ) : ℚ)| = (10 : ℚ) ^ n := by
    push_cast
    exact abs_of_pos (by positivity)
  rw [powerReply_eq, harmless_dumpsLine_iff hreadable, ← habs]
  constructor
  · exact fun h => h (10 ^ n) rfl rfl
  · rintro h _ _ ⟨rfl⟩
    exact h

theorem overflowBound_le_ten_pow {n : ℕ} (h : 1024 ≤ 3 * n) :
    PyFloat.overflowBound ≤ (10 : ℚ) ^ n := by
  have hbound : PyFloat.overflowBound ≤ (2 : ℚ) ^ 1024 := by
    unfold PyFloat.overflowBound
    exact sub_le_self _ (by positivity)
  calc PyFloat.overflowBound ≤ (2 : ℚ) ^ 1024 := hbound
    _ ≤ 2 ^ (3 * n) := pow_le_pow_right₀ (by norm_num) h
    _ = (2 ^ 3) ^ n := pow_mul 2 3 n
    _ ≤ 10 ^ n := pow_le_pow_left₀ (by norm_num) (by norm_num) n

/-! ### Which replies are answered -/

/-- A reply is answered with a verdict or a `JudgeError` exactly when it is harmless. So a
calibration over replies and `ProviderError`s returns one case for each example exactly when its
judge can be recorded and every reply is harmless. -/
theorem judgements_return_iff (limits : JsonReader.Limits) :
    (∀ text evaluator,
      SoundJudgement (parseJudgeVerdict limits text evaluator) ↔ Harmless limits text) ∧
    ∀ (judge : LLMJudge) (stamps : ℕ → Stamp) (stamp : Stamp) (rubricId : String)
      (examples : List LabeledJudgeExample) (k : ℕ), OnlyProviderErrors judge.providerClient →
      (Calibrated judge limits stamps stamp rubricId examples k ↔
        judge.Usable rubricId ∧ ∀ i, ∀ hi : i < examples.length, ∀ response,
          judge.answer stamps (k + i) examples[i] = .ok response →
            Harmless limits response.text) :=
  ⟨parseJudgeVerdict_sound_iff limits, fun _ stamps stamp rubricId examples k hmix =>
    calibrated_iff hmix limits stamps stamp rubricId examples k⟩

/-- A reply without a score and a `ProviderError` are both recorded. -/
theorem scripted_calibration_returns :
    Calibrated (scriptedJudge fun k => if k = 0 then .ok "\x7b\"verdict\": \"pass\"\x7d"
        else .error (.provider "HTTP 503")) defaultLimits (fun _ => scriptedStamp) scriptedStamp
      judgeRubricId [scriptedExample, scriptedExample] 0 := by
  have hscript : ScriptOfReplies fun k => if k = 0 then .ok "\x7b\"verdict\": \"pass\"\x7d"
      else .error (.provider "HTTP 503") := by
    intro k exc hexc
    dsimp only at hexc
    split_ifs at hexc
    cases hexc
    rfl
  have htext : "\x7b\"verdict\": \"pass\"\x7d" =
      Json.dumpsLine FloatText.repr (.obj [("verdict", .str "pass")]) := by decide +kernel
  have hreadable : JsonReader.Readable defaultLimits.maxDigits defaultLimits.maxDepth
      (.obj [("verdict", .str "pass")]) := ⟨List.nodup_singleton "verdict", trivial, trivial⟩
  refine ((judgements_return_iff defaultLimits).2 _ _ _ _ _ 0
    (scriptedJudge_onlyProviderErrors hscript)).mpr ⟨scriptedJudge_usable _, ?_⟩
  intro i _ response hresponse
  have hreply := scriptedJudge_answer hresponse
  split_ifs at hreply
  rw [← Except.ok.inj hreply, htext, harmless_dumpsLine_iff hreadable]
  exact fun n _ hscore => nomatch hscore

/-- A score of four hundred and one digits beside a verdict: no `JudgeError` is raised, and a
calibration that gets this reply returns no case. -/
theorem long_score_escapes :
    ¬ SoundJudgement (parseJudgeVerdict defaultLimits (powerReply 400) "llm_judge") ∧
      ¬ Calibrated (scriptedJudge fun _ => .ok (powerReply 400)) defaultLimits
        (fun _ => scriptedStamp) scriptedStamp judgeRubricId [scriptedExample] 0 := by
  have hdigits : 400 + 1 ≤ defaultLimits.maxDigits := by decide
  have hharmful : ¬ Harmless defaultLimits (powerReply 400) := by
    rw [harmless_powerReply_iff hdigits]
    exact not_lt.mpr (overflowBound_le_ten_pow (by norm_num))
  have hscript : ScriptOfReplies fun _ => .ok (powerReply 400) := fun _ _ h => nomatch h
  refine ⟨fun h => hharmful ((parseJudgeVerdict_sound_iff _ _ _).mp h), fun h => ?_⟩
  have hall := ((calibrated_iff (scriptedJudge_onlyProviderErrors hscript) _ _ _ _ _ _).mp h).2
  obtain ⟨config, hconfig⟩ := LLMJudge.config_isOk
    (scriptedJudge_usable fun _ => .ok (powerReply 400)).name
    (scriptedJudge_usable fun _ => .ok (powerReply 400)).model scriptedStamp
  refine hharmful (hall 0 (by decide) ⟨powerReply 400, UsageMetrics.zero, [], []⟩ ?_)
  rw [LLMJudge.answer, hconfig]
  rfl

end EvalOps
