import EvalOps.Adapters
import EvalOps.Proofs.Returns

/-!
# `EvalOps.Proofs.Adapters`: how a call to a provider ends

A call answers when it returns a usage of finite, non-negative numbers, or raises `ProviderError`.
The runner records both. Any other exception ends the experiment.

`complete_handled_iff` gives the replies to which an adapter answers. The request answers when the
body was read and decoded (`postJson_of_none`). The OpenAI and the Anthropic parser answer to every
object, since they measure the latency themselves. The Ollama parser takes the latency from the
reply, and answers when it fits a float (`parseGenerateResponse_handled_iff`).
-/

set_option autoImplicit false

namespace EvalOps

/-- The call returns finite, non-negative usage, or raises `ProviderError`. -/
def Handled (result : Py FloatResponse) : Prop :=
  (∃ (reply : FloatResponse) (u : UsageMetrics), result = .ok reply ∧ reply.usage = u.floats) ∨
    ∃ exc, result = .error exc ∧ exc.kind = .providerError

theorem handled_provider (message : String) : Handled (.error (.provider message)) :=
  Or.inr ⟨_, rfl, rfl⟩

/-- A call that raises answers exactly when it raises `ProviderError`. -/
theorem handled_error_iff {exc : PyError} :
    Handled (.error exc) ↔ exc.kind = .providerError := by
  constructor
  · rintro (⟨_, _, h, _⟩ | ⟨_, h, hkind⟩)
    · exact nomatch h
    · cases h
      exact hkind
  · intro hkind
    exact Or.inr ⟨exc, rfl, hkind⟩

theorem handled_ok_iff {reply : FloatResponse} :
    Handled (.ok reply) ↔ ∃ u : UsageMetrics, reply.usage = u.floats := by
  constructor
  · rintro (⟨_, u, h, husage⟩ | ⟨_, h, _⟩)
    · cases h
      exact ⟨u, husage⟩
    · exact nomatch h
  · rintro ⟨u, husage⟩
    exact Or.inl ⟨reply, u, rfl, husage⟩

/-! ### The request -/

/-- The request was answered with a body that decodes, unless it failed in a way that an `except`
clause names. -/
def World.Read (world : World) : Prop :=
  match world.transport with
  | .raises _ _ => False
  | .response raw => ∀ exc, world.loads raw = .error exc → exc.kind = jsonDecodeError
  | _ => True

/-- The object that the body decodes to. -/
def World.reply (world : World) : Option (List (String × Decoded)) :=
  match world.transport with
  | .response raw =>
      match world.loads raw with
      | .ok (.obj fields) => some fields
      | _ => none
  | _ => none

/-- With no object in the body, the request raises `ProviderError`, unless the reading failed. -/
theorem postJson_of_none {world : World} (h : world.reply = none) (label url : String)
    (timeout : ℚ) :
    ∃ exc, postJson world label url timeout = .error exc ∧
      (exc.kind = .providerError ↔ world.Read) := by
  unfold World.reply at h
  unfold postJson World.Read
  cases ht : world.transport with
  -- The first three ends are named by an `except` clause each.
  | httpError code errorBody => exact ⟨_, rfl, by simp [PyError.provider]⟩
  | timeoutError => exact ⟨_, rfl, by simp [PyError.provider]⟩
  | urlError reason => exact ⟨_, rfl, by simp [PyError.provider]⟩
  | raises exc uncaught =>
      -- No `except` clause names the exception, so it leaves `complete` as it is.
      refine ⟨exc, rfl, ?_⟩
      have hforeign := uncaught.1
      simp only [iff_false]
      intro hkind
      simp [PyError.isEvalOpsError, hkind] at hforeign
  | response raw =>
      rw [ht] at h
      cases hloads : world.loads raw with
      | error exc =>
          simp only [hloads, Except.error.injEq, forall_eq']
          by_cases hkind : exc.kind = jsonDecodeError
          · rw [if_pos hkind]
            exact ⟨_, rfl, by simp [PyError.provider, hkind]⟩
          · -- A `UnicodeDecodeError`, for one.
            rw [if_neg hkind]
            refine ⟨exc, rfl, ?_⟩
            have hforeign := world.loads_foreign raw exc hloads
            constructor
            · intro hprovider
              simp [PyError.isEvalOpsError, hprovider] at hforeign
            · intro hdecode
              exact absurd hdecode hkind
      | ok decoded =>
          simp only [hloads] at h ⊢
          -- Every value but an object meets the type check of `_post_json`.
          cases decoded with
          | obj fields => exact nomatch h
          | null => exact ⟨_, rfl, by simp [PyError.provider]⟩
          | bool b => exact ⟨_, rfl, by simp [PyError.provider]⟩
          | int n => exact ⟨_, rfl, by simp [PyError.provider]⟩
          | float x => exact ⟨_, rfl, by simp [PyError.provider]⟩
          | str s => exact ⟨_, rfl, by simp [PyError.provider]⟩
          | arr items => exact ⟨_, rfl, by simp [PyError.provider]⟩

/-- The request returns the object in the body. -/
theorem postJson_of_some {world : World} {body : List (String × Decoded)}
    (h : world.reply = some body) (label url : String) (timeout : ℚ) :
    postJson world label url timeout = .ok body ∧ world.Read := by
  unfold World.reply at h
  unfold postJson World.Read
  cases ht : world.transport with
  | response raw =>
      rw [ht] at h
      cases hloads : world.loads raw with
      | error exc =>
          simp [hloads] at h
      | ok decoded =>
          simp only [hloads] at h ⊢
          -- Only a body that decodes to an object is returned.
          cases decoded with
          | obj fields =>
              cases h
              exact ⟨rfl, fun _ hexc => nomatch hexc⟩
          | _ => exact nomatch h
  | _ =>
      rw [ht] at h
      exact nomatch h

/-- What follows the request answers, so the call does exactly when the body was read. -/
theorem handled_postJson_bind_iff {world : World} {label url : String} {timeout : ℚ}
    {parse : List (String × Decoded) → Py FloatResponse}
    {Good : List (String × Decoded) → Prop} (hparse : ∀ body, Handled (parse body) ↔ Good body) :
    Handled (postJson world label url timeout >>= parse) ↔
      world.Read ∧ ∀ body, world.reply = some body → Good body := by
  cases hreply : world.reply with
  -- The parser does not run.
  | none =>
      obtain ⟨exc, hpost, hkind⟩ := postJson_of_none hreply label url timeout
      rw [hpost, ExceptRules.error_bind, handled_error_iff, hkind]
      simp
  | some body =>
      obtain ⟨hpost, hread⟩ := postJson_of_some hreply label url timeout
      rw [hpost, ExceptRules.ok_bind, hparse]
      simp [hread]

/-! ### The parsers -/

/-- A usage of finite numbers passes `__post_init__` when none is negative. -/
theorem FloatUsage.init_finite {promptTokens completionTokens : ℤ} {latencyMs : ℚ}
    (hprompt : 0 ≤ promptTokens) (hcompletion : 0 ≤ completionTokens) (hlatency : 0 ≤ latencyMs) :
    ∃ u : UsageMetrics,
      FloatUsage.init promptTokens completionTokens (.finite 0) (.finite latencyMs)
        = .ok u.floats := by
  refine ⟨⟨promptTokens.toNat, completionTokens.toNat, 0, latencyMs, le_refl 0, hlatency⟩, ?_⟩
  have hfloats : (UsageMetrics.floats ⟨promptTokens.toNat, completionTokens.toNat, 0, latencyMs,
      le_refl 0, hlatency⟩) = ⟨promptTokens, completionTokens, .finite 0, .finite latencyMs⟩ := by
    simp [UsageMetrics.floats, Int.toNat_of_nonneg hprompt, Int.toNat_of_nonneg hcompletion]
  -- None of the four checks of `__post_init__` fires.
  rw [hfloats, FloatUsage.init, if_neg (by omega), if_neg (by omega),
    if_neg (by simp [PyFloat.isNegative]), if_neg (by simp [PyFloat.isNegative, hlatency])]
  rfl

theorem intOrZero_nonneg (value : Option Decoded) : 0 ≤ intOrZero value := by
  unfold intOrZero
  split
  · split <;> omega
  · omega

/-- A reply with counts and a latency that are not negative is a response. -/
theorem handled_counted {promptTokens completionTokens : ℤ} {latencyMs : ℚ}
    (hprompt : 0 ≤ promptTokens) (hcompletion : 0 ≤ completionTokens) (hlatency : 0 ≤ latencyMs)
    (text : String) :
    Handled (do
      let usage ← FloatUsage.init promptTokens completionTokens (.finite 0) (.finite latencyMs)
      pure { text, usage }) := by
  obtain ⟨u, hu⟩ := FloatUsage.init_finite hprompt hcompletion hlatency
  rw [hu]
  exact handled_ok_iff.mpr ⟨u, rfl⟩

/-- The OpenAI parser answers to every object. -/
theorem parseOpenai_handled (body : List (String × Decoded)) (model : String) {latencyMs : ℚ}
    (hlatency : 0 ≤ latencyMs) : Handled (parseOpenai body model latencyMs) := by
  unfold parseOpenai
  -- No `choices`, or no text in the first choice, is a `ProviderError`. The counts never raise.
  split
  · split
    · exact handled_provider _
    · exact handled_counted (intOrZero_nonneg _) (intOrZero_nonneg _) hlatency _
  · exact handled_provider _

/-- The Anthropic parser answers to every object. -/
theorem parseAnthropic_handled (body : List (String × Decoded)) (model : String) {latencyMs : ℚ}
    (hlatency : 0 ≤ latencyMs) : Handled (parseAnthropic body model latencyMs) := by
  unfold parseAnthropic
  split
  · split
    · exact handled_provider _
    · exact handled_counted (intOrZero_nonneg _) (intOrZero_nonneg _) hlatency _
  · exact handled_provider _

/-- The count under a key, when it is an integer that is not negative. -/
def countField (body : List (String × Decoded)) (key : String) : Option ℤ :=
  match body.lookup key with
  | some (.int n) => if n < 0 then none else some n
  | _ => none

theorem countField_nonneg {body : List (String × Decoded)} {key : String} {n : ℤ}
    (h : countField body key = some n) : 0 ≤ n := by
  unfold countField at h
  -- A count below zero is no count.
  split at h
  · split at h
    · exact nomatch h
    · cases h
      omega
  · exact nomatch h

/-- `_require_count` returns the count, or raises `ProviderError`. -/
theorem requireCountField_eq (body : List (String × Decoded)) (key model : String) :
    requireCountField body key model =
      match countField body key with
      | some n => .ok n
      | none => .error (.provider ("Ollama response for model " ++ PyText.repr model ++
          " has missing or invalid " ++ PyText.repr key)) := by
  unfold requireCountField countField
  cases body.lookup key with
  | none => rfl
  | some value =>
      cases value with
      | int n => by_cases hneg : n < 0 <;> simp [hneg]
      | _ => rfl

/-- The duration in milliseconds is a finite float. -/
def InRange : ℤ ⊕ PyFloat → Prop
  | .inl n => (n : ℚ) / nsPerMs < PyFloat.overflowBound
  | .inr (.finite _) => True
  | .inr _ => False

/-- A reply that Ollama counts and times has a duration in range. -/
def Timed (body : List (String × Decoded)) : Prop :=
  ∀ text prompt completion duration, body.lookup "response" = some (.str text) →
    countField body "prompt_eval_count" = some prompt →
    countField body "eval_count" = some completion →
    totalDuration body = some duration → InRange duration

/-- What `total_duration` may be: an integer, a number or positive infinity, and `nan`. -/
theorem totalDuration_cases {body : List (String × Decoded)} {duration : ℤ ⊕ PyFloat}
    (h : totalDuration body = some duration) :
    (∃ n, duration = .inl n ∧ 0 ≤ n) ∨ (∃ x, duration = .inr (.finite x) ∧ 0 ≤ x) ∨
      duration = .inr (.inf false) ∨ duration = .inr .nan := by
  unfold totalDuration at h
  split at h
  · split at h
    · exact nomatch h
    · rename_i n _ hn
      cases h
      exact Or.inl ⟨n, rfl, by omega⟩
  · rename_i x _
    split at h
    · exact nomatch h
    · rename_i hx
      cases h
      cases x with
      | finite x => exact Or.inr (Or.inl ⟨x, rfl, by simpa [PyFloat.isNegative] using hx⟩)
      -- The check on the sign stops the negative infinity only.
      | inf negative =>
          rw [PyFloat.isNegative, Bool.not_eq_true] at hx
          exact Or.inr (Or.inr (Or.inl (by rw [hx])))
      | nan => exact Or.inr (Or.inr (Or.inr rfl))
  · exact nomatch h

/-- No usage of numbers has this latency. -/
theorem not_handled_latency {text : String} {promptTokens completionTokens : ℤ}
    {latencyMs : PyFloat} (h : ∀ x, latencyMs ≠ .finite x) :
    ¬Handled (.ok ⟨text, ⟨promptTokens, completionTokens, .finite 0, latencyMs⟩⟩) := by
  rw [handled_ok_iff]
  -- The latency of a `UsageMetrics` is a rational number, and `floats` makes it a finite float.
  rintro ⟨u, husage⟩
  exact h u.latencyMs (congrArg FloatUsage.latencyMs husage)

/-- With the counts there, the response is in order exactly when the duration is in range. -/
theorem handled_timed_iff {body : List (String × Decoded)} {duration : ℤ ⊕ PyFloat}
    (hduration : totalDuration body = some duration) {promptTokens completionTokens : ℤ}
    (hprompt : 0 ≤ promptTokens) (hcompletion : 0 ≤ completionTokens) (text : String) :
    Handled (do
      let latencyMs ← durationMs duration
      let usage ← FloatUsage.init promptTokens completionTokens (.finite 0) latencyMs
      pure { text, usage }) ↔ InRange duration := by
  have hns : (0 : ℚ) < nsPerMs := by norm_num [nsPerMs]
  -- A float that is no number passes the checks, and is the latency of no usage.
  have special : ∀ x : PyFloat, x.isNegative = false → (∀ y, x ≠ .finite y) → ¬Handled (do
      let usage ← FloatUsage.init promptTokens completionTokens (.finite 0) x
      pure { text, usage }) := by
    intro x hx hnot
    rw [FloatUsage.init, if_neg (by omega), if_neg (by omega),
      if_neg (by simp [PyFloat.isNegative]), if_neg (by simp [hx])]
    exact not_handled_latency hnot
  obtain ⟨n, rfl, hn⟩ | ⟨x, rfl, hx⟩ | rfl | rfl := totalDuration_cases hduration
  · -- An integer is divided exactly, and the quotient has to round into the range of a float.
    have hquot : (0 : ℚ) ≤ (n : ℚ) / nsPerMs := by positivity
    unfold InRange durationMs
    dsimp only
    rcases le_or_gt PyFloat.overflowBound ((n : ℚ) / nsPerMs) with hover | hfits
    · rw [PyFloat.ofRat_of_le (by rwa [abs_of_nonneg hquot])]
      exact iff_of_false (fun h => nomatch handled_error_iff.mp h) (not_lt.mpr hover)
    · rw [PyFloat.ofRat_of_lt (by rwa [abs_of_nonneg hquot])]
      exact iff_of_true (handled_counted hprompt hcompletion hquot _) hfits
  · exact iff_of_true (handled_counted hprompt hcompletion (div_nonneg hx hns.le) _) trivial
  · -- Infinity and `nan` pass every check of the adapter and of `UsageMetrics`.
    exact iff_of_false (special _ rfl (fun _ h => nomatch h)) (fun h => h)
  · exact iff_of_false (special _ rfl (fun _ h => nomatch h)) (fun h => h)

/-- The Ollama parser answers to the objects whose duration fits a float. -/
theorem parseGenerateResponse_handled_iff (body : List (String × Decoded)) (model : String) :
    Handled (parseGenerateResponse body model) ↔ Timed body := by
  unfold parseGenerateResponse Timed
  split
  · rename_i text htext
    cases hduration : totalDuration body with
    -- A duration that is missing or negative is a `ProviderError`.
    | none => exact iff_of_true (handled_provider _) (fun _ _ _ _ _ _ _ h => nomatch h)
    | some duration =>
        dsimp only
        -- Both counts are read before the duration is divided.
        rw [requireCountField_eq, requireCountField_eq]
        cases hprompt : countField body "prompt_eval_count" with
        | none => exact iff_of_true (handled_provider _) (fun _ _ _ _ _ h => nomatch h)
        | some prompt =>
            cases hcompletion : countField body "eval_count" with
            | none => exact iff_of_true (handled_provider _) (fun _ _ _ _ _ _ h => nomatch h)
            | some completion =>
                refine (handled_timed_iff hduration (countField_nonneg hprompt)
                  (countField_nonneg hcompletion) text).trans ?_
                constructor
                · intro h text' prompt' completion' duration' _ _ _ hsome
                  cases hsome
                  exact h
                · intro h
                  exact h text prompt completion duration htext rfl rfl rfl
  · rename_i hnone
    exact iff_of_true (handled_provider _) (fun text _ _ _ h => absurd h (hnone text))

/-! ### The adapters -/

/-- The version is one that the provider takes: its parameters are valid and its key is set. -/
def Ready (provider : ProviderName) (world : World) (config : SystemVersion) : Prop :=
  config.provider = provider ∧
    match provider with
    | .openai => (∃ params, cloudParams config.parameters "OpenAI" = .ok params) ∧
        ∃ key, apiKey world .openai = .ok key
    | .anthropic => (∃ params, cloudParams config.parameters "Anthropic" = .ok params) ∧
        ∃ key, apiKey world .anthropic = .ok key
    | .ollama => ∃ options, buildOptions config.parameters = .ok options

/-- The replies that the adapter for a provider handles. The body has to be read and to decode. The
duration that Ollama reports has to fit a float, in a reply that is complete and not an error. -/
def GoodReply (provider : ProviderName) (world : World) : Prop :=
  world.Read ∧
    (provider = .ollama →
      ∀ body, world.reply = some body → body.lookup "error" = none → Timed body)

theorem requireProvider_eq_ok {config : SystemVersion} {provider : ProviderName}
    (h : config.provider = provider) (adapter : String) :
    requireProvider config provider adapter = .ok () := by
  rw [requireProvider, if_neg (by simp [h])]
  rfl

/-- A body with an `error` is a `ProviderError`, and any other body goes to the parser. -/
theorem handled_ollamaPost_bind_iff {endpoint : Endpoint} {world : World} {path : String}
    {parse : List (String × Decoded) → Py FloatResponse}
    {Good : List (String × Decoded) → Prop} (hparse : ∀ body, Handled (parse body) ↔ Good body) :
    Handled (ollamaPost endpoint world path >>= parse) ↔ world.Read ∧
      ∀ body, world.reply = some body → body.lookup "error" = none → Good body := by
  rw [ollamaPost, bind_assoc]
  refine handled_postJson_bind_iff fun body => ?_
  cases body.lookup "error" with
  | none =>
      rw [ExceptRules.pure_eq_ok, ExceptRules.ok_bind, hparse]
      simp
  | some err =>
      exact iff_of_true (handled_provider _) fun hnone => absurd hnone (Option.some_ne_none _)

/-- After its checks, an adapter is the request and the parser. -/
theorem complete_handled_iff {provider : ProviderName} {world : World} {config : SystemVersion}
    (ready : Ready provider world config) (endpoint : Endpoint) :
    Handled (complete provider endpoint world config) ↔ GoodReply provider world := by
  obtain ⟨hprovider, hready⟩ := ready
  cases provider with
  -- The cloud parsers answer to every object, so nothing more than the reading is asked.
  | openai =>
      obtain ⟨⟨params, hparams⟩, key, hkey⟩ := hready
      rw [complete, openaiComplete, requireProvider_eq_ok hprovider, ExceptRules.ok_bind, hparams,
        ExceptRules.ok_bind, hkey, ExceptRules.ok_bind, handled_postJson_bind_iff fun body =>
          iff_true_intro (parseOpenai_handled body config.model.text world.elapsedMs_nonneg)]
      simp [GoodReply]
  | anthropic =>
      obtain ⟨⟨params, hparams⟩, key, hkey⟩ := hready
      rw [complete, anthropicComplete, requireProvider_eq_ok hprovider, ExceptRules.ok_bind,
        hparams, ExceptRules.ok_bind, hkey, ExceptRules.ok_bind,
        handled_postJson_bind_iff fun body =>
          iff_true_intro (parseAnthropic_handled body config.model.text world.elapsedMs_nonneg)]
      simp [GoodReply]
  -- What the parser asks of a reply is asked of those without an `error`.
  | ollama =>
      obtain ⟨options, hoptions⟩ := hready
      rw [complete, ollamaComplete, requireProvider_eq_ok hprovider, ExceptRules.ok_bind,
        hoptions, ExceptRules.ok_bind,
        handled_ollamaPost_bind_iff fun body =>
          parseGenerateResponse_handled_iff body config.model.text]
      simp [GoodReply]

/-! ### Three calls that do not answer -/

/-- A world with keys, whose clock stands still. -/
def worldOf (transport : Transport) (loads : List UInt8 → Py Decoded)
    (h : ∀ raw exc, loads raw = .error exc → exc.isEvalOpsError = false) : World where
  environ _ := some "key"
  transport := transport
  loads := loads
  loads_foreign := h
  strOf _ := ""
  elapsedMs := 0
  elapsedMs_nonneg := nonneg_zero

/-- The server closes the connection while the body is read. -/
def resetWorld : World :=
  worldOf (.raises ⟨.other "ConnectionResetError", "[Errno 104] Connection reset by peer"⟩
    ⟨rfl, by decide⟩) (fun _ => .ok .null) (fun _ _ h => nomatch h)

/-- What `json.loads` raises on the byte `0xff`. -/
def invalidStartByte : PyError :=
  ⟨.other "UnicodeDecodeError",
    "'utf-8' codec can't decode byte 0xff in position 0: invalid start byte"⟩

/-- A body that is not UTF-8. -/
def garbledWorld : World :=
  worldOf (.response [0xff]) (fun _ => .error invalidStartByte) (fun _ _ h => by cases h; rfl)

/-- The fields of a complete reply whose `total_duration` is `NaN`. -/
def untimedReply : List (String × Decoded) :=
  [("response", .str "answer"), ("total_duration", .float .nan), ("prompt_eval_count", .int 1),
    ("eval_count", .int 1)]

/-- A body that decodes to `untimedReply`. -/
def untimedWorld : World :=
  worldOf (.response ("\x7b\"response\": \"answer\", \"total_duration\": NaN, " ++
      "\"prompt_eval_count\": 1, \"eval_count\": 1\x7d").toUTF8.toList)
    (fun _ => .ok (.obj untimedReply)) (fun _ _ h => nomatch h)

/-- A version of a provider, without parameters. -/
def versionOf (provider : ProviderName) : SystemVersion :=
  { offlineVersion 1 inputTemplate with provider }

/-- A local endpoint. -/
def localEndpoint : Endpoint := .init "http://localhost/" 120

theorem ready_versionOf (provider : ProviderName) (transport : Transport)
    (loads : List UInt8 → Py Decoded)
    (h : ∀ raw exc, loads raw = .error exc → exc.isEvalOpsError = false) :
    Ready provider (worldOf transport loads h) (versionOf provider) := by
  have hkey : PyText.strip "key" = "key" := by decide +kernel
  refine ⟨rfl, ?_⟩
  cases provider with
  | openai => exact ⟨⟨[], rfl⟩, "key", by simp [apiKey, envVar, worldOf, hkey]⟩
  | anthropic => exact ⟨⟨[], rfl⟩, "key", by simp [apiKey, envVar, worldOf, hkey]⟩
  | ollama => exact ⟨[], rfl⟩

/-- The condition at a connection that is reset. -/
theorem complete_handled_iff_reset :
    Ready .openai resetWorld (versionOf .openai) ∧
      (Handled (complete .openai localEndpoint resetWorld (versionOf .openai)) ↔
        GoodReply .openai resetWorld) :=
  ⟨ready_versionOf _ _ _ _, complete_handled_iff (ready_versionOf _ _ _ _) localEndpoint⟩

/-- A reset connection and a body that is not UTF-8 escape as they are, and `NaN` is returned as
the latency. -/
theorem unhandled_calls :
    (Ready .openai resetWorld (versionOf .openai) ∧
      ¬Handled (complete .openai localEndpoint resetWorld (versionOf .openai))) ∧
    (Ready .anthropic garbledWorld (versionOf .anthropic) ∧
      ¬Handled (complete .anthropic localEndpoint garbledWorld (versionOf .anthropic))) ∧
    (Ready .ollama untimedWorld (versionOf .ollama) ∧
      ¬Handled (complete .ollama localEndpoint untimedWorld (versionOf .ollama))) := by
  refine ⟨⟨ready_versionOf _ _ _ _, ?_⟩, ⟨ready_versionOf _ _ _ _, ?_⟩, ready_versionOf _ _ _ _, ?_⟩
  · rw [show complete .openai localEndpoint resetWorld (versionOf .openai)
        = .error ⟨.other "ConnectionResetError", "[Errno 104] Connection reset by peer"⟩ by
        with_unfolding_all rfl, handled_error_iff]
    exact fun h => nomatch h
  · rw [show complete .anthropic localEndpoint garbledWorld (versionOf .anthropic)
        = .error invalidStartByte by with_unfolding_all rfl, handled_error_iff]
    exact fun h => nomatch h
  · rw [show complete .ollama localEndpoint untimedWorld (versionOf .ollama)
        = .ok ⟨"answer", ⟨1, 1, .finite 0, .nan⟩⟩ by with_unfolding_all rfl]
    exact not_handled_latency (fun _ h => nomatch h)

end EvalOps
