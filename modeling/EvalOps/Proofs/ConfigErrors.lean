import EvalOps.Evaluators
import EvalOps.ExecutionService
import EvalOps.Proofs.Assess
import EvalOps.Proofs.Returns

/-!
# `EvalOps.Proofs.ConfigErrors`: which configuration errors come late

The state of a run counts the provider calls made. A `ConfigError` costs nothing when the count
is still `0`. `config_errors_cost_nothing_iff` says for which plans that holds whatever the
providers answer: the order of the checks is the preflight, the baseline's template, the
baseline's calls, the candidate's template, the candidate's calls, the policy.
-/

set_option autoImplicit false

namespace EvalOps

open Effect

/-! ### Templates -/

/-- The version's template renders, whatever the input. -/
def Renders (v : SystemVersion) : Prop :=
  ∀ caseInput, ∃ prompt, renderPrompt v.promptTemplate.text caseInput = .ok prompt

/-- Whether a substitution succeeds does not depend on the input. -/
theorem exists_substitute_iff (template a b : String) :
    (∃ prompt, Template.substitute template a = .ok prompt) ↔
      ∃ prompt, Template.substitute template b = .ok prompt := by
  have htokens : ∀ caseInput, (∃ prompt, Template.substitute template caseInput = .ok prompt) ↔
      ∀ token ∈ Template.scan template, ∀ name position,
        (token = .placeholder name → name = "input") ∧ token ≠ .invalid position := by
    intro caseInput
    -- `substitute` fails at a token alone; the input only fills the placeholders.
    unfold Template.substitute
    have hloop : ∀ f : TemplateToken → Except String String,
        (∃ prompt, (do let parts ← (Template.scan template).mapM f; pure (String.join parts))
          = .ok prompt) ↔ ∃ parts, (Template.scan template).mapM f = .ok parts := by
      intro f
      cases (Template.scan template).mapM f <;> simp
    rw [hloop, ExceptRules.exists_mapM_eq_ok_iff]
    refine forall₂_congr fun token _ => ?_
    cases token with
    | literal c => simp
    | escaped => simp
    | placeholder name =>
        by_cases hname : name = "input" <;> simp [hname]
    | invalid position => simp
  rw [htokens, htokens]

/-- A template renders every input, or raises a `ConfigError` on every input. -/
theorem renders_or_configError (v : SystemVersion) :
    Renders v ∨ ∀ caseInput, ∃ message,
      renderPrompt v.promptTemplate.text caseInput = .error (.config message) := by
  unfold Renders renderPrompt
  dsimp only
  split
  · -- it references another placeholder
    exact Or.inr fun _ => ⟨_, rfl⟩
  · split
    · -- it does not reference the input
      exact Or.inr fun _ => ⟨_, rfl⟩
    · -- The empty input decides for every input.
      by_cases hok : ∃ prompt, Template.substitute v.promptTemplate.text "" = .ok prompt
      · refine Or.inl fun caseInput => ?_
        obtain ⟨prompt, hprompt⟩ := (exists_substitute_iff _ "" caseInput).mp hok
        exact ⟨prompt, by rw [hprompt]; rfl⟩
      · refine Or.inr fun caseInput => ?_
        cases hsub : Template.substitute v.promptTemplate.text caseInput with
        | ok prompt => exact absurd ((exists_substitute_iff _ caseInput "").mp ⟨prompt, hsub⟩) hok
        | error exc => exact ⟨_, rfl⟩

/-! ### What the providers answer -/

/-- The outside's answer to each call of a run. It raises no `ConfigError`: these come from the
checks of `complete`. -/
structure Answers where
  reply : ProviderName → ℕ → String → SystemVersion → Py ProviderResponse
  foreign : ∀ name k prompt config, RaisesNoConfigError (reply name k prompt config)

/-- The client, with other answers from the outside. -/
def ProviderClient.answering (answers : Answers) (name : ProviderName)
    (provider : ProviderClient) : ProviderClient :=
  { provider with reply := answers.reply name }

@[simp] theorem answering_checkConfig (answers : Answers) (name : ProviderName)
    (provider : ProviderClient) :
    (provider.answering answers name).checkConfig = provider.checkConfig := rfl

@[simp] theorem answering_reply (answers : Answers) (name : ProviderName)
    (provider : ProviderClient) :
    (provider.answering answers name).reply = answers.reply name := rfl

/-- The clients, with other answers from the outside. -/
def withAnswers (answers : Answers) (providers : Dict ProviderName ProviderClient) :
    Dict ProviderName ProviderClient where
  entries := providers.entries.map fun e => (e.1, e.2.answering answers e.1)
  nodup := by
    rw [List.map_map]
    exact providers.nodup

/-- The plan, with other answers from the outside. -/
def RunPlan.withAnswers (answers : Answers) (plan : RunPlan) : RunPlan :=
  { plan with providers := EvalOps.withAnswers answers plan.providers }

theorem get?_withAnswers (answers : Answers) (providers : Dict ProviderName ProviderClient)
    (name : ProviderName) :
    (withAnswers answers providers).get? name
      = (providers.get? name).map (ProviderClient.answering answers name) := by
  unfold Dict.get? withAnswers
  rw [List.find?_map]
  simp only [Function.comp_def, Option.map_map]
  cases hfind : providers.entries.find? fun e => decide (e.1 = name) with
  | none => rfl
  | some e =>
      have hname : e.1 = name := by simpa using List.find?_some hfind
      simp [hname]

/-! ### The condition -/

/-- What `complete` validates about a version before it asks the outside. -/
def RunPlan.checkVersion (plan : RunPlan) (v : SystemVersion) : Py Unit := do
  let provider ← lookupProvider plan.providers v.provider
  provider.checkConfig v

/-- No evaluator raises a `ConfigError` on a response to a version. -/
def RunPlan.ScoringSafe (plan : RunPlan) (v : SystemVersion) : Prop :=
  ∀ case ∈ plan.dataset.cases, ∀ r < plan.experiment.repeats, ∀ response stamp stamp',
    RaisesNoConfigError
      (score (successfulRun plan.experiment v case r response stamp) case plan.evaluators stamp')

/-- The calls of a version raise no `ConfigError`, and when they can all be made then `next`. -/
def RunPlan.CallsSafe (plan : RunPlan) (v : SystemVersion) (next : Prop) : Prop :=
  match plan.checkVersion v with
  | .ok () => plan.ScoringSafe v ∧ next
  | .error e => e.kind ≠ .configError ∧ (e.kind = .providerError → next)

/-- The policy gates produced metrics only. -/
def RunPlan.PolicyProduced (plan : RunPlan) : Prop :=
  ∀ policy, plan.policy = some policy → ∀ metric ∈ policy.thresholds.keys,
    metric ∈ expectedMetricNames (plan.evaluators.map Evaluator.name)

/-- No check that can raise a `ConfigError` fails behind a provider call. -/
def RunPlan.ConfigSafe (plan : RunPlan) : Prop :=
  preflight plan.experiment plan.dataset plan.baseline plan.candidate plan.providers
      plan.evaluators = .ok () →
    Renders plan.baseline →
      plan.CallsSafe plan.baseline
        (Renders plan.candidate ∧ plan.CallsSafe plan.candidate plan.PolicyProduced)

/-! ### Where a version raises -/

section

variable {env : Environment} {experiment : Experiment} {dataset : Dataset}
  {providers : Dict ProviderName ProviderClient} {evaluators : List Evaluator}
  {v : SystemVersion} {provider : ProviderClient} {s t : ℕ} {e : PyError}

theorem lookupProvider_of_get? (h : providers.get? v.provider = some provider) :
    lookupProvider providers v.provider = .ok provider := by
  unfold lookupProvider
  rw [h]
  rfl

/-- One case raises before its calls, when the template does not render, or at a trial. -/
theorem exec_runCase_eq_error {case : DatasetCase}
    (h : exec (runCase env experiment v provider evaluators case) s = (.error e, t)) :
    (renderPrompt v.promptTemplate.text case.input.text = .error e ∧ s = t) ∨
      ∃ prompt r k, r < experiment.repeats ∧
        trialAt env experiment v provider evaluators case prompt r k = .error e := by
  rcases exec_lift_bind_eq_error.mp h with hrender | ⟨prompt, _, hloop⟩
  · exact Or.inl hrender
  · obtain ⟨before, r, after, _, k, hrange, _, htrial⟩ := exec_mapM_eq_error.mp hloop
    rw [exec_runRepeat] at htrial
    have hr : r ∈ List.range experiment.repeats := by
      rw [hrange]
      simp
    exact Or.inr ⟨prompt, r, k, List.mem_range.mp hr, (Prod.mk.inj htrial).1⟩

/-- A version raises before its calls, when the template does not render, or at a trial. -/
theorem exec_runVersion_eq_error (hprovider : providers.get? v.provider = some provider)
    (h : exec (runVersion env experiment dataset providers evaluators v) s = (.error e, t)) :
    (¬Renders v ∧ s = t) ∨
      (Renders v ∧ ∃ case ∈ dataset.cases, ∃ prompt r k, r < experiment.repeats ∧
        trialAt env experiment v provider evaluators case prompt r k = .error e) := by
  rcases exec_lift_bind_eq_error.mp h with ⟨hlookup, _⟩ | ⟨provider', hlookup, hrest⟩
  · rw [lookupProvider_of_get? hprovider] at hlookup
    exact nomatch hlookup
  · rw [lookupProvider_of_get? hprovider] at hlookup
    cases hlookup
    rcases exec_bind_eq_error.mp hrest with hloop | ⟨_, _, _, hpure⟩
    · obtain ⟨before, case, after, _, u, hcases, hbefore, hcase⟩ := exec_mapM_eq_error.mp hloop
      rcases renders_or_configError v with hrenders | hbad
      · rcases exec_runCase_eq_error hcase with ⟨hrender, _⟩ | htrial
        · obtain ⟨prompt, hprompt⟩ := hrenders case.input.text
          exact nomatch hprompt.symm.trans hrender
        · exact Or.inr ⟨hrenders, case, by rw [hcases]; simp, htrial⟩
      · refine Or.inl ⟨fun hrenders => ?_, ?_⟩
        · obtain ⟨prompt, hprompt⟩ := hrenders case.input.text
          obtain ⟨message, hmessage⟩ := hbad case.input.text
          exact nomatch hprompt.symm.trans hmessage
        · -- The first case already raises, so no call is made.
          cases before with
          | nil =>
              cases hbefore
              rcases exec_runCase_eq_error hcase with ⟨_, hsame⟩ | ⟨prompt, r, k, _, _⟩
              · exact hsame
              · obtain ⟨message, hmessage⟩ := hbad case.input.text
                unfold runCase at hcase
                rw [hmessage] at hcase
                exact (Prod.mk.inj hcase).2
          | cons first before =>
              obtain ⟨_, _, _, hfirst, _, _⟩ := exec_mapM_cons_eq_ok.mp hbefore
              obtain ⟨prompt, hprompt, _⟩ := exec_runCase_eq_ok hfirst
              obtain ⟨message, hmessage⟩ := hbad first.input.text
              exact nomatch hprompt.symm.trans hmessage
    · exact nomatch hpure

/-- A version that returns has a template that renders, and each of its calls passed the check
or failed it with a `ProviderError`. -/
theorem exec_runVersion_checked {ts : List Trial}
    (hprovider : providers.get? v.provider = some provider)
    (h : exec (runVersion env experiment dataset providers evaluators v) s = (.ok ts, t)) :
    Renders v ∧ ∀ e, provider.checkConfig v = .error e → e.kind = .providerError := by
  obtain ⟨hran, _⟩ := exec_runVersion_eq_ok h
  -- There is a case and a repeat, so at least one call was made.
  have hcases : dataset.caseIds ≠ [] := by
    simpa [Dataset.caseIds] using dataset.cases_ne_nil
  obtain ⟨key, hkey⟩ := List.exists_mem_of_ne_nil _
    (trialKeys_ne_nil hcases experiment.repeats_pos)
  obtain ⟨trial, _, provider', case, prompt, k, hget, _, _, hrender, htrial⟩ :=
    ListRules.exists_of_forall₂_of_mem hran hkey
  cases hprovider.symm.trans hget
  constructor
  · rcases renders_or_configError v with hrenders | hbad
    · exact hrenders
    · obtain ⟨message, hmessage⟩ := hbad case.input.text
      cases hrender.symm.trans hmessage
  · intro e he
    obtain ⟨run, hrun, _⟩ := ExceptRules.bind_eq_ok.mp htrial
    rw [he, ExceptRules.error_bind, recorded] at hrun
    by_contra hkind
    rw [if_neg hkind] at hrun
    cases hrun

/-- The runner raises in the preflight, or in the calls of one of the two versions. -/
theorem exec_runExperiment_eq_error {baseline candidate : SystemVersion} :
    exec (runExperiment env experiment dataset baseline candidate providers evaluators) s
        = (.error e, t) ↔
      (preflight experiment dataset baseline candidate providers evaluators = .error e ∧ s = t) ∨
      (preflight experiment dataset baseline candidate providers evaluators = .ok () ∧
        (exec (runVersion env experiment dataset providers evaluators baseline) s
            = (.error e, t) ∨
          ∃ bs u, exec (runVersion env experiment dataset providers evaluators baseline) s
              = (.ok bs, u) ∧
            exec (runVersion env experiment dataset providers evaluators candidate) u
              = (.error e, t))) := by
  unfold runExperiment
  rw [exec_lift_bind_eq_error]
  refine or_congr Iff.rfl ?_
  constructor
  · rintro ⟨_, hpreflight, hrest⟩
    refine ⟨hpreflight, ?_⟩
    rcases exec_bind_eq_error.mp hrest with hloop | ⟨_, _, _, hpure⟩
    · rcases exec_mapM_cons_eq_error.mp hloop with hb | ⟨bs, u, hb, hloop'⟩
      · exact Or.inl hb
      · rcases exec_mapM_cons_eq_error.mp hloop' with hc | ⟨_, _, _, hnil⟩
        · exact Or.inr ⟨bs, u, hb, hc⟩
        · exact nomatch hnil
    · exact nomatch hpure
  · rintro ⟨hpreflight, hcalls⟩
    refine ⟨(), hpreflight, exec_bind_eq_error.mpr (Or.inl ?_)⟩
    rcases hcalls with hb | ⟨bs, u, hb, hc⟩
    · exact exec_mapM_cons_eq_error.mpr (Or.inl hb)
    · exact exec_mapM_cons_eq_error.mpr
        (Or.inr ⟨bs, u, hb, exec_mapM_cons_eq_error.mpr (Or.inl hc)⟩)

/-- What an outcome of the runner says about its parts. -/
theorem exec_runExperiment_eq_ok {baseline candidate : SystemVersion} {outcome : RunOutcome}
    (h : exec (runExperiment env experiment dataset baseline candidate providers evaluators) s
      = (.ok outcome, t)) :
    preflight experiment dataset baseline candidate providers evaluators = .ok () ∧
      ∃ bs u cs, exec (runVersion env experiment dataset providers evaluators baseline) s
          = (.ok bs, u) ∧
        exec (runVersion env experiment dataset providers evaluators candidate) u
          = (.ok cs, t) := by
  obtain ⟨_, hpreflight, hrest⟩ := exec_lift_bind_eq_ok.mp h
  obtain ⟨_, u, hloop, hpure⟩ := exec_bind_eq_ok.mp hrest
  cases hpure
  obtain ⟨bs, v, _, hbaseline, hloop', rfl⟩ := exec_mapM_cons_eq_ok.mp hloop
  obtain ⟨cs, w, _, hcandidate, hnil, rfl⟩ := exec_mapM_cons_eq_ok.mp hloop'
  cases hnil
  exact ⟨hpreflight, bs, v, cs, hbaseline, hcandidate⟩

/-- The runner returns when the preflight passes and both versions return. -/
theorem exec_runExperiment_of_ok {baseline candidate : SystemVersion} {u : ℕ}
    {bs cs : List Trial}
    (hpreflight : preflight experiment dataset baseline candidate providers evaluators = .ok ())
    (hbaseline : exec (runVersion env experiment dataset providers evaluators baseline) s
      = (.ok bs, u))
    (hcandidate : exec (runVersion env experiment dataset providers evaluators candidate) u
      = (.ok cs, t)) :
    exec (runExperiment env experiment dataset baseline candidate providers evaluators) s
      = (.ok ⟨([bs, cs].flatten).map Prod.fst, ([bs, cs].flatten).map Prod.snd⟩, t) :=
  exec_lift_bind_eq_ok.mpr ⟨(), hpreflight, exec_bind_eq_ok.mpr ⟨[bs, cs], t,
    exec_mapM_cons_eq_ok.mpr ⟨bs, u, [cs], hbaseline,
      exec_mapM_cons_eq_ok.mpr ⟨cs, t, [], hcandidate, rfl, rfl⟩, rfl⟩, rfl⟩⟩

end

/-! ### Safe plans -/

namespace RunPlan

variable {plan : RunPlan} {v : SystemVersion} {answers : Answers} {env : Environment}
  {rt : Runtime} {s t : ℕ} {e : PyError}

/-- A call of the version can raise a `ConfigError`. -/
def CallsFail (plan : RunPlan) (v : SystemVersion) : Prop :=
  (∃ e, plan.checkVersion v = .error e ∧ e.kind = .configError) ∨
    (plan.checkVersion v = .ok () ∧ ¬plan.ScoringSafe v)

/-- All calls of the version can be made. -/
def CallsPass (plan : RunPlan) (v : SystemVersion) : Prop :=
  ∀ e, plan.checkVersion v = .error e → e.kind = .providerError

theorem callsSafe_iff {next : Prop} :
    plan.CallsSafe v next ↔ ¬plan.CallsFail v ∧ (plan.CallsPass v → next) := by
  unfold CallsSafe CallsFail CallsPass
  cases hcheck : plan.checkVersion v with
  | ok _ => simp
  | error e => simp

theorem get?_provider (h : plan.providers.contains v.provider = true) :
    ∃ provider, plan.providers.get? v.provider = some provider ∧
      plan.checkVersion v = provider.checkConfig v := by
  obtain ⟨provider, hprovider⟩ := (Dict.mem_keys_iff _ _).mp (of_decide_eq_true h)
  refine ⟨provider, hprovider, ?_⟩
  unfold checkVersion
  rw [lookupProvider_of_get? hprovider]
  rfl

/-- A trial under other answers raises a `ConfigError` only where the calls can fail. -/
theorem callsFail_of_trialAt {provider : ProviderClient}
    (hcheck : plan.checkVersion v = provider.checkConfig v) {case : DatasetCase}
    (hcase : case ∈ plan.dataset.cases) {prompt : String} {r k : ℕ}
    (hr : r < plan.experiment.repeats) {name : ProviderName}
    (h : trialAt env plan.experiment v (provider.answering answers name)
      plan.evaluators case prompt r k = .error e) (he : e.kind = .configError) :
    plan.CallsFail v := by
  rcases trialAt_eq_error h with ⟨_, hconfig | ⟨_, hreply⟩⟩ | ⟨response, hconfig, _, hscore⟩
  · -- the check of the version raised
    exact Or.inl ⟨e, hcheck.trans hconfig, he⟩
  · -- an answer from outside is never a `ConfigError`
    exact absurd he (answers.foreign _ _ _ _ _ hreply)
  · -- an evaluator raised on the response
    exact Or.inr ⟨hcheck.trans hconfig, fun hsafe => hsafe case hcase r hr _ _ _ _ hscore he⟩

/-- A version that ends in a `ConfigError` made no call, or its calls can fail. -/
theorem runVersion_configError (hcontains : plan.providers.contains v.provider = true)
    (h : exec (runVersion env plan.experiment plan.dataset (plan.withAnswers answers).providers
      plan.evaluators v) s = (.error e, t)) (he : e.kind = .configError) :
    (¬Renders v ∧ s = t) ∨ (Renders v ∧ plan.CallsFail v) := by
  obtain ⟨provider, hprovider, hcheck⟩ := get?_provider hcontains
  have hget : (plan.withAnswers answers).providers.get? v.provider
      = some (provider.answering answers v.provider) := by
    unfold withAnswers
    rw [get?_withAnswers, hprovider]
    rfl
  rcases exec_runVersion_eq_error hget h with hrender | ⟨hrenders, case, hcase, _, r, k, hr, htrial⟩
  · exact Or.inl hrender
  · exact Or.inr ⟨hrenders, callsFail_of_trialAt hcheck hcase hr htrial he⟩

/-- A version that returns has passed its calls. -/
theorem runVersion_callsPass (hcontains : plan.providers.contains v.provider = true)
    {ts : List Trial}
    (h : exec (runVersion env plan.experiment plan.dataset (plan.withAnswers answers).providers
      plan.evaluators v) s = (.ok ts, t)) : Renders v ∧ plan.CallsPass v := by
  obtain ⟨provider, hprovider, hcheck⟩ := get?_provider hcontains
  have hget : (plan.withAnswers answers).providers.get? v.provider
      = some (provider.answering answers v.provider) := by
    unfold withAnswers
    rw [get?_withAnswers, hprovider]
    rfl
  obtain ⟨hrenders, hpass⟩ := exec_runVersion_checked hget h
  exact ⟨hrenders, fun e he => hpass e (hcheck.symm.trans he)⟩

variable (plan answers) in
/-- The preflight does not ask what the providers answer. -/
theorem preflight_withAnswers :
    preflight plan.experiment plan.dataset plan.baseline plan.candidate
        (plan.withAnswers answers).providers plan.evaluators
      = preflight plan.experiment plan.dataset plan.baseline plan.candidate plan.providers
        plan.evaluators := by
  have hcontains : ∀ name, (plan.withAnswers answers).providers.contains name
      = plan.providers.contains name := by
    intro name
    unfold Dict.contains Dict.keys withAnswers EvalOps.withAnswers
    simp only [List.map_map]
    rfl
  unfold preflight
  simp only [hcontains]

/-- On the outcome of a grid the policy is covered exactly when it gates produced metrics. -/
theorem policyProduced_iff {bs cs : List Trial} :
    plan.PolicyProduced ↔ PolicyCovered plan.policy
      (comparisons (plan.evaluators.map Evaluator.name) bs cs) := by
  unfold PolicyProduced PolicyCovered unknownMetrics
  refine forall₂_congr fun policy _ => ?_
  rw [map_metric_comparisons, Sorting.sorted_eq_nil_iff, List.filter_eq_nil_iff]
  simp

/-- A safe plan that ends in a `ConfigError` made no call. -/
theorem ConfigSafe.evaluate (hsafe : plan.ConfigSafe)
    (h : exec ((plan.withAnswers answers).evaluate env rt) 0 = (.error e, t))
    (he : e.kind = .configError) : t = 0 := by
  rcases exec_bind_eq_error.mp h with hrun | ⟨outcome, u, hrun, hassess⟩
  · -- The runner raised: in the preflight, in the baseline, or in the candidate.
    rcases exec_runExperiment_eq_error.mp hrun with ⟨_, hzero⟩ | ⟨hpreflight, hcalls⟩
    · exact hzero.symm
    · have hpre : preflight plan.experiment plan.dataset plan.baseline plan.candidate
          plan.providers plan.evaluators = .ok () := by
        rw [← plan.preflight_withAnswers answers]
        exact hpreflight
      obtain ⟨_, _, hb, hc, _⟩ := preflight_eq_ok hpre
      rcases hcalls with hbaseline | ⟨bs, u, hbaseline, hcandidate⟩
      · rcases runVersion_configError hb hbaseline he with ⟨_, hzero⟩ | ⟨hrenders, hfail⟩
        · exact hzero.symm
        · exact absurd hfail (callsSafe_iff.mp (hsafe hpre hrenders)).1
      · obtain ⟨hrenders, hpass⟩ := runVersion_callsPass hb hbaseline
        obtain ⟨hrenders', hcandidateSafe⟩ := (callsSafe_iff.mp (hsafe hpre hrenders)).2 hpass
        rcases runVersion_configError hc hcandidate he with ⟨hbad, _⟩ | ⟨_, hfail⟩
        · exact absurd hrenders' hbad
        · exact absurd hfail (callsSafe_iff.mp hcandidateSafe).1
  · -- The runner returned, so all calls passed and the policy is covered.
    obtain ⟨hpreflight, bs, w, cs, hbaseline, hcandidate⟩ := exec_runExperiment_eq_ok hrun
    have hpre : preflight plan.experiment plan.dataset plan.baseline plan.candidate
        plan.providers plan.evaluators = .ok () := by
      rw [← plan.preflight_withAnswers answers]
      exact hpreflight
    obtain ⟨_, _, hb, hc, _⟩ := preflight_eq_ok hpre
    obtain ⟨hrenders, hpass⟩ := runVersion_callsPass hb hbaseline
    obtain ⟨_, hpass'⟩ := runVersion_callsPass hc hcandidate
    have hcandidateSafe := ((callsSafe_iff.mp (hsafe hpre hrenders)).2 hpass).2
    have hpolicy := (callsSafe_iff.mp hcandidateSafe).2 hpass'
    obtain ⟨g, rfl, _⟩ := runExperiment_grid hrun
    obtain ⟨a, ha, _⟩ := g.assess_eq_ok rt env.resultStamp (policyProduced_iff.mp hpolicy)
    have hok := (Prod.mk.inj hassess).1
    exact nomatch ha.symm.trans hok

/-! ### Runs that raise late -/

/-- A call that answers `response` at `k₀` and fails at every other call. -/
def answerAt (k₀ : ℕ) (response : ProviderResponse) : Answers where
  reply := fun _ k _ _ => if k = k₀ then .ok response else .error offlineFailure
  foreign := by
    intro name k prompt config e he
    split at he
    · exact nomatch he
    · cases he
      decide

/-- The environment with given stamps at the call `k₀`. -/
def stampedEnv (k₀ : ℕ) (stamp stamp' : Stamp) : Environment where
  runStamp := fun k =>
    ⟨Equiv.swap (offlineId k₀) stamp.id (offlineId k), if k = k₀ then stamp.createdAt else 0⟩
  caseResultStamp := fun _ => stamp'
  resultStamp := offlineStamp 0
  runStamp_injective := (Equiv.injective _).comp offlineId_injective

theorem stampedEnv_runStamp (k₀ : ℕ) (stamp stamp' : Stamp) :
    (stampedEnv k₀ stamp stamp').runStamp k₀ = stamp := by
  unfold stampedEnv
  simp

/-- The number of calls of a version. -/
def callCount (plan : RunPlan) : ℕ := plan.dataset.cases.length * plan.experiment.repeats

theorem callCount_pos : 0 < plan.callCount :=
  Nat.mul_pos (List.length_pos_iff.mpr plan.dataset.cases_ne_nil) plan.experiment.repeats_pos

variable {k₀ : ℕ} {response : ProviderResponse} {provider : ProviderClient}

theorem get?_answerAt (hprovider : plan.providers.get? v.provider = some provider) :
    lookupProvider (plan.withAnswers (answerAt k₀ response)).providers v.provider
      = .ok (provider.answering (answerAt k₀ response) v.provider) := by
  apply lookupProvider_of_get?
  unfold withAnswers
  rw [get?_withAnswers, hprovider]
  rfl

section

variable (plan env) (k₀ : ℕ) (response : ProviderResponse)

/-- A failed call is recorded. -/
theorem exists_trialAt (hpass : ∀ e, provider.checkConfig v = .error e → e.kind = .providerError)
    (name : ProviderName) {k : ℕ} (hk : k ≠ k₀) (case : DatasetCase) (prompt : String) (r : ℕ) :
    ∃ t, trialAt env plan.experiment v
      (provider.answering (answerAt k₀ response) name) plan.evaluators case prompt r k
        = .ok t := by
  cases h : trialAt env plan.experiment v
      (provider.answering (answerAt k₀ response) name) plan.evaluators case prompt r k
    with
  | ok t => exact ⟨t, rfl⟩
  | error e =>
      have hreply : (answerAt k₀ response).reply name k prompt v = .error offlineFailure :=
        if_neg hk
      rcases trialAt_eq_error h with ⟨hkind, hcheck | ⟨_, hanswer⟩⟩ | ⟨_, _, hanswer, _⟩
      · -- the check raised, which is recorded
        exact absurd (hpass e hcheck) hkind
      · -- the answer is a `ProviderError`, which is recorded
        cases hreply.symm.trans hanswer
        exact absurd rfl hkind
      · -- there is no response to score
        exact nomatch hreply.symm.trans hanswer

/-- The calls of some repeats before `k₀` are all recorded. -/
theorem exists_runRepeats
    (hpass : ∀ e, provider.checkConfig v = .error e → e.kind = .providerError)
    (name : ProviderName) (case : DatasetCase) (prompt : String) (repeats : List ℕ)
    (hs : s + repeats.length ≤ k₀) :
    ∃ ts, exec (repeats.mapM (runRepeat env plan.experiment v
      (provider.answering (answerAt k₀ response) name) plan.evaluators case prompt)) s
        = (.ok ts, s + repeats.length) := by
  -- One call a repeat, and all of them come before `k₀`.
  have hturn : ∀ r ∈ repeats, ∀ k, k + 1 ≤ k₀ → ∃ t, exec (runRepeat env plan.experiment v
      (provider.answering (answerAt k₀ response) name) plan.evaluators case prompt r) k
        = (.ok t, k + 1) := by
    intro r _ k hk
    obtain ⟨t, ht⟩ := plan.exists_trialAt env k₀ response hpass name (show k ≠ k₀ by omega) case
      prompt r
    exact ⟨t, by rw [exec_runRepeat, ht]⟩
  obtain ⟨ts, hts⟩ := exec_mapM_counts hturn (s := s) (by omega)
  rw [Nat.mul_one] at hts
  exact ⟨ts, hts⟩

/-- The calls of some cases before `k₀` are all recorded. -/
theorem exists_runCases (hrenders : Renders v)
    (hpass : ∀ e, provider.checkConfig v = .error e → e.kind = .providerError)
    (name : ProviderName) (cases : List DatasetCase)
    (hs : s + cases.length * plan.experiment.repeats ≤ k₀) :
    ∃ tss, exec (cases.mapM (runCase env plan.experiment v
      (provider.answering (answerAt k₀ response) name) plan.evaluators)) s
        = (.ok tss, s + cases.length * plan.experiment.repeats) := by
  have hturn : ∀ case ∈ cases, ∀ k, k + plan.experiment.repeats ≤ k₀ →
      ∃ ts, exec (runCase env plan.experiment v (provider.answering (answerAt k₀ response) name)
        plan.evaluators case) k = (.ok ts, k + plan.experiment.repeats) := by
    intro case _ k hk
    obtain ⟨prompt, hprompt⟩ := hrenders case.input.text
    obtain ⟨ts, hts⟩ := plan.exists_runRepeats env k₀ response hpass name case prompt
      (List.range plan.experiment.repeats) (s := k) (by simpa using hk)
    rw [List.length_range] at hts
    exact ⟨ts, exec_lift_bind_eq_ok.mpr ⟨prompt, hprompt, hts⟩⟩
  exact exec_mapM_counts hturn hs

/-- A version whose calls come before `k₀` returns. -/
theorem exists_runVersion (hcontains : plan.providers.contains v.provider = true)
    (hrenders : Renders v) (hpass : plan.CallsPass v) (hs : s + plan.callCount ≤ k₀) :
    ∃ ts, exec (runVersion env plan.experiment plan.dataset
      (plan.withAnswers (answerAt k₀ response)).providers plan.evaluators v) s
        = (.ok ts, s + plan.callCount) := by
  obtain ⟨provider, hprovider, hcheck⟩ := get?_provider hcontains
  obtain ⟨tss, htss⟩ := plan.exists_runCases env k₀ response hrenders
    (fun e he => hpass e (hcheck.trans he)) v.provider plan.dataset.cases hs
  exact ⟨tss.flatten, exec_lift_bind_eq_ok.mpr ⟨_, get?_answerAt hprovider,
    exec_bind_eq_ok.mpr ⟨tss, _, htss, rfl⟩⟩⟩

/-- A version whose template does not render raises. -/
theorem runVersion_of_not_renders (hcontains : plan.providers.contains v.provider = true)
    (hbad : ¬Renders v) (s : ℕ) :
    ∃ message, exec (runVersion env plan.experiment plan.dataset
      (plan.withAnswers (answerAt k₀ response)).providers plan.evaluators v) s
        = (.error (.config message), s) := by
  obtain ⟨provider, hprovider, _⟩ := get?_provider hcontains
  obtain ⟨case, rest, hcases⟩ := List.exists_cons_of_ne_nil plan.dataset.cases_ne_nil
  obtain ⟨message, hmessage⟩ := ((renders_or_configError v).resolve_left hbad) case.input.text
  refine ⟨message, exec_lift_bind_eq_error.mpr (Or.inr ⟨_, get?_answerAt hprovider, ?_⟩)⟩
  refine exec_bind_eq_error.mpr (Or.inl ?_)
  rw [hcases]
  exact exec_mapM_cons_eq_error.mpr (Or.inl (exec_lift_bind_eq_error.mpr (Or.inl ⟨hmessage, rfl⟩)))

end

/-- A call at which the check of the version raises. -/
theorem trialAt_of_checkConfig {e : PyError} (hcheck : provider.checkConfig v = .error e)
    (he : e.kind = .configError) (case : DatasetCase) (prompt : String) (r k : ℕ) :
    trialAt env plan.experiment v provider plan.evaluators case prompt r k = .error e := by
  unfold trialAt
  rw [hcheck, ExceptRules.error_bind, recorded, if_neg (by rw [he]; decide)]
  rfl

/-- A call whose response cannot be scored. -/
theorem trialAt_of_score {case : DatasetCase} {r : ℕ} {stamp stamp' : Stamp}
    (hcheck : provider.checkConfig v = .ok ())
    (hscore : score (successfulRun plan.experiment v case r response stamp) case plan.evaluators
      stamp' = .error e) (name : ProviderName) (prompt : String) :
    trialAt (stampedEnv k₀ stamp stamp') plan.experiment v
      (provider.answering (answerAt k₀ response) name) plan.evaluators case prompt r
        k₀ = .error e := by
  have hreply : (answerAt k₀ response).reply name k₀ prompt v = .ok response := if_pos rfl
  unfold trialAt
  rw [answering_checkConfig, hcheck, ExceptRules.ok_bind, answering_reply, hreply, recorded,
    stampedEnv_runStamp, ExceptRules.ok_bind,
    show (stampedEnv k₀ stamp stamp').caseResultStamp k₀ = stamp' from rfl, hscore]
  rfl

/-- A version whose calls can fail raises a `ConfigError` behind a call, for some answers. -/
theorem exists_runVersion_configError (hcontains : plan.providers.contains v.provider = true)
    (hrenders : Renders v) (hfail : plan.CallsFail v) (s : ℕ) :
    ∃ k₀ ≥ s, ∃ response env e t, exec (runVersion env plan.experiment plan.dataset
      (plan.withAnswers (answerAt k₀ response)).providers plan.evaluators v) s = (.error e, t) ∧
        e.kind = .configError ∧ t ≠ 0 := by
  obtain ⟨provider, hprovider, hcheck⟩ := get?_provider hcontains
  rcases hfail with ⟨e, he, hkind⟩ | ⟨hok, hscoring⟩
  · -- The check raises at the first call.
    obtain ⟨case, rest, hcases⟩ := List.exists_cons_of_ne_nil plan.dataset.cases_ne_nil
    obtain ⟨prompt, hprompt⟩ := hrenders case.input.text
    refine ⟨s, le_rfl, ⟨"", UsageMetrics.zero, [], []⟩, stampedEnv s (offlineStamp 0)
      (offlineStamp 0), e, s + 1, ?_, hkind, by omega⟩
    refine exec_lift_bind_eq_error.mpr (Or.inr ⟨_, get?_answerAt hprovider, ?_⟩)
    refine exec_bind_eq_error.mpr (Or.inl ?_)
    rw [hcases]
    refine exec_mapM_cons_eq_error.mpr (Or.inl ?_)
    refine exec_lift_bind_eq_error.mpr (Or.inr ⟨prompt, hprompt, ?_⟩)
    obtain ⟨n, hn⟩ := Nat.exists_eq_succ_of_ne_zero
      (Nat.one_le_iff_ne_zero.mp plan.experiment.repeats_pos)
    rw [hn, List.range_succ_eq_map]
    refine exec_mapM_cons_eq_error.mpr (Or.inl ?_)
    rw [exec_runRepeat]
    have hchecked : ∀ answers name, (provider.answering answers name).checkConfig v = .error e :=
      fun _ _ => hcheck.symm.trans he
    exact congrArg (·, s + 1) (trialAt_of_checkConfig (hchecked _ _) hkind case prompt 0 s)
  · -- The response to one call cannot be scored, and the calls before it fail.
    unfold ScoringSafe RaisesNoConfigError at hscoring
    push Not at hscoring
    obtain ⟨case, hcase, r, hr, response, stamp, stamp', e, hscore, hkind⟩ := hscoring
    obtain ⟨before, after, hcases⟩ := List.append_of_mem hcase
    have hpass : ∀ e, provider.checkConfig v = .error e → e.kind = .providerError := by
      intro e he
      exact nomatch hok.symm.trans (hcheck.trans he)
    obtain ⟨prompt, hprompt⟩ := hrenders case.input.text
    have hrange : List.range plan.experiment.repeats
        = List.range r ++ r :: (List.range plan.experiment.repeats).drop (r + 1) := by
      have hsplit := List.take_append_drop r (List.range plan.experiment.repeats)
      rw [List.take_range, min_eq_left hr.le,
        List.drop_eq_getElem_cons (by rw [List.length_range]; exact hr), List.getElem_range]
        at hsplit
      exact hsplit.symm
    let k₀ := s + before.length * plan.experiment.repeats + r
    refine ⟨k₀, by omega, response, stampedEnv k₀ stamp stamp', e, k₀ + 1, ?_, hkind, by omega⟩
    refine exec_lift_bind_eq_error.mpr (Or.inr ⟨_, get?_answerAt hprovider, ?_⟩)
    obtain ⟨tss, htss⟩ := plan.exists_runCases (stampedEnv k₀ stamp stamp') k₀ response (s := s)
      hrenders hpass v.provider before (by omega)
    obtain ⟨ts, hts⟩ := plan.exists_runRepeats (stampedEnv k₀ stamp stamp') k₀ response
      (s := s + before.length * plan.experiment.repeats) hpass v.provider case prompt
      (List.range r) (by rw [List.length_range])
    rw [List.length_range] at hts
    refine exec_bind_eq_error.mpr (Or.inl ?_)
    refine exec_mapM_eq_error.mpr ⟨before, case, after, tss, _, hcases, htss, ?_⟩
    refine exec_lift_bind_eq_error.mpr (Or.inr ⟨prompt, hprompt, ?_⟩)
    refine exec_mapM_eq_error.mpr ⟨List.range r, r, _, ts, _, hrange, hts, ?_⟩
    rw [exec_runRepeat, trialAt_of_score (hcheck.symm.trans hok) hscore]

/-! ### The equivalence -/

/-- Some answers make the plan end in a `ConfigError` behind a call. -/
def EndsLate (plan : RunPlan) : Prop :=
  ∃ env rt answers e t, exec ((plan.withAnswers answers).evaluate env rt) 0 = (.error e, t) ∧
    e.kind = .configError ∧ t ≠ 0

/-- A version that raises late makes the plan end late. -/
theorem endsLate_of_runVersion
    (hpre : preflight plan.experiment plan.dataset plan.baseline plan.candidate plan.providers
      plan.evaluators = .ok ())
    (hcalls : exec (runVersion env plan.experiment plan.dataset
          (plan.withAnswers answers).providers plan.evaluators plan.baseline) 0 = (.error e, t) ∨
        ∃ bs u, exec (runVersion env plan.experiment plan.dataset
            (plan.withAnswers answers).providers plan.evaluators plan.baseline) 0 = (.ok bs, u) ∧
          exec (runVersion env plan.experiment plan.dataset
            (plan.withAnswers answers).providers plan.evaluators plan.candidate) u
              = (.error e, t))
    (he : e.kind = .configError) (ht : t ≠ 0) : plan.EndsLate := by
  have hrun := exec_runExperiment_eq_error.mpr
    (Or.inr ⟨(plan.preflight_withAnswers answers).trans hpre, hcalls⟩)
  exact ⟨env, offlineRuntime 0, answers, e, t, exec_bind_eq_error.mpr (Or.inl hrun), he, ht⟩

/-- A policy that gates a metric that is not produced raises behind all the calls. -/
theorem endsLate_of_not_policyProduced
    (hpre : preflight plan.experiment plan.dataset plan.baseline plan.candidate plan.providers
      plan.evaluators = .ok ())
    (hbaseline : Renders plan.baseline ∧ plan.CallsPass plan.baseline)
    (hcandidate : Renders plan.candidate ∧ plan.CallsPass plan.candidate)
    (hpolicy : ¬plan.PolicyProduced) : plan.EndsLate := by
  obtain ⟨_, _, hb, hc, _⟩ := preflight_eq_ok hpre
  -- All calls come before the one that would be answered, so both versions return.
  let answers := answerAt (plan.callCount + plan.callCount) ⟨"", UsageMetrics.zero, [], []⟩
  obtain ⟨bs, hbs⟩ := plan.exists_runVersion offlineEnv (plan.callCount + plan.callCount)
    ⟨"", UsageMetrics.zero, [], []⟩ (s := 0) hb hbaseline.1 hbaseline.2 (by omega)
  obtain ⟨cs, hcs⟩ := plan.exists_runVersion offlineEnv (plan.callCount + plan.callCount)
    ⟨"", UsageMetrics.zero, [], []⟩ (s := 0 + plan.callCount) hc hcandidate.1 hcandidate.2
    (by omega)
  have hrun := exec_runExperiment_of_ok
    ((plan.preflight_withAnswers answers).trans hpre) hbs hcs
  obtain ⟨g, hg, _⟩ := runExperiment_grid hrun
  obtain ⟨message, hassess⟩ := g.assess_eq_error (offlineRuntime 0) offlineEnv.resultStamp
    fun h => hpolicy (policyProduced_iff.mpr h)
  have hpos := plan.callCount_pos
  refine ⟨offlineEnv, offlineRuntime 0, answers, .config message,
    0 + plan.callCount + plan.callCount, exec_bind_eq_error.mpr (Or.inr ⟨_, _, hrun, ?_⟩), rfl,
    by omega⟩
  rw [hg]
  exact congrArg (·, _) hassess

/-- A plan that never ends late is safe. -/
theorem ConfigSafe.of_not_endsLate (h : ¬plan.EndsLate) : plan.ConfigSafe := by
  intro hpre hbaseline
  obtain ⟨_, _, hb, hc, _⟩ := preflight_eq_ok hpre
  refine callsSafe_iff.mpr ⟨fun hfail => h ?_, fun hpass => ?_⟩
  · -- the calls of the baseline can fail
    obtain ⟨k₀, _, response, env, e, t, hrun, he, ht⟩ :=
      exists_runVersion_configError hb hbaseline hfail 0
    exact endsLate_of_runVersion hpre (Or.inl hrun) he ht
  · have hbs := fun (k₀ : ℕ) (response : ProviderResponse) (env : Environment)
        (hk : plan.callCount ≤ k₀) => plan.exists_runVersion env k₀ response (s := 0) hb
      hbaseline hpass (by omega)
    -- The baseline has returned when the template of the candidate is rendered.
    have hcandidate : Renders plan.candidate := by
      by_contra hbad
      obtain ⟨bs, hbs⟩ := hbs plan.callCount ⟨"", UsageMetrics.zero, [], []⟩ offlineEnv le_rfl
      obtain ⟨message, hcs⟩ := plan.runVersion_of_not_renders offlineEnv plan.callCount
        ⟨"", UsageMetrics.zero, [], []⟩ hc hbad (0 + plan.callCount)
      have := plan.callCount_pos
      exact h (endsLate_of_runVersion hpre (Or.inr ⟨bs, _, hbs, hcs⟩) rfl (by omega))
    refine ⟨hcandidate, callsSafe_iff.mpr ⟨fun hfail => h ?_, fun hpass' => ?_⟩⟩
    · obtain ⟨k₀, hk, response, env, e, t, hcs, he, ht⟩ :=
        exists_runVersion_configError hc hcandidate hfail (0 + plan.callCount)
      obtain ⟨bs, hbs⟩ := hbs k₀ response env (by omega)
      exact endsLate_of_runVersion hpre (Or.inr ⟨bs, _, hbs, hcs⟩) he ht
    · -- both versions return, so only the policy is left
      by_contra hpolicy
      exact h (endsLate_of_not_policyProduced hpre ⟨hbaseline, hpass⟩ ⟨hcandidate, hpass'⟩ hpolicy)

end RunPlan

/-- Whatever the environment draws and the providers answer, a `ConfigError` of the path comes
before the first call. -/
def ConfigErrorsFirst {β : Type} (path : Environment → Runtime → Answers → RunM β) : Prop :=
  ∀ env rt answers e t, exec (path env rt answers) 0 = (.error e, t) → e.kind = .configError →
    t = 0

/-- A path that loads a plan, evaluates it and finishes without a `ConfigError`. -/
theorem configErrorsFirst_iff {β : Type} {load : Py RunPlan}
    {finish : EvaluationOutcome → Py β}
    (hfinish : ∀ evaluation, RaisesNoConfigError (finish evaluation)) :
    ConfigErrorsFirst (fun env rt answers =>
        runPlanned env rt (load.map (RunPlan.withAnswers answers)) finish) ↔
      ∀ plan, load = .ok plan → plan.ConfigSafe := by
  constructor
  · -- An unsafe plan ends late for some answers.
    rintro h plan rfl
    refine RunPlan.ConfigSafe.of_not_endsLate ?_
    rintro ⟨env, rt, answers, e, t, hrun, he, ht⟩
    exact ht (h env rt answers e t (exec_lift_bind_eq_error.mpr
      (Or.inr ⟨_, rfl, exec_bind_eq_error.mpr (Or.inl hrun)⟩)) he)
  · -- A `ConfigError` of `load` comes before any call.
    intro h env rt answers e t hrun he
    rcases exec_lift_bind_eq_error.mp hrun with ⟨_, hzero⟩ | ⟨plan', hload, hrest⟩
    · exact hzero.symm
    · cases load with
      | error _ => exact nomatch hload
      | ok plan =>
          cases hload
          rcases exec_bind_eq_error.mp hrest with heval | ⟨evaluation, u, _, hdone⟩
          · exact (h plan rfl).evaluate heval he
          · exact absurd he (hfinish evaluation e (Prod.mk.inj hdone).1)

/-- Loading with other answers is loading the plan with other answers. -/
theorem loadPersisted_withAnswers (repos : Repositories) (experimentId : EntityId)
    (buildEvaluators : Py (List Evaluator))
    (buildProviders : SystemVersion → SystemVersion → Py (Dict ProviderName ProviderClient))
    (answers : Answers) :
    loadPersisted repos experimentId buildEvaluators
        (fun b c => (buildProviders b c).map (withAnswers answers))
      = (loadPersisted repos experimentId buildEvaluators buildProviders).map
          (RunPlan.withAnswers answers) := by
  unfold loadPersisted
  simp only [ExceptRules.map_bind]
  refine bind_congr fun persisted => bind_congr fun evaluators => ?_
  -- Only the last step, which builds the clients, sees the answers.
  cases buildProviders persisted.baseline persisted.candidate <;> rfl

theorem RaisesNoConfigError.bind {α β : Type} {x : Py α} {f : α → Py β}
    (hx : RaisesNoConfigError x) (hf : ∀ a, RaisesNoConfigError (f a)) :
    RaisesNoConfigError (x >>= f) := by
  cases x with
  | error e =>
      intro e' h
      cases h
      exact hx e rfl
  | ok a => exact hf a

theorem RaisesNoConfigError.forM {α : Type} {f : α → Py Unit}
    (hf : ∀ a, RaisesNoConfigError (f a)) (xs : List α) : RaisesNoConfigError (xs.forM f) := by
  induction xs with
  | nil => exact fun _ h => nomatch h
  | cons x xs ih =>
      rw [List.forM]
      exact (hf x).bind fun _ => ih

theorem RaisesNoConfigError.mapM {α β : Type} {f : α → Py β} {xs : List α}
    (hf : ∀ x ∈ xs, RaisesNoConfigError (f x)) : RaisesNoConfigError (xs.mapM f) := by
  induction xs with
  | nil => exact fun _ h => nomatch h
  | cons x xs ih =>
      rw [List.mapM_cons]
      refine (hf x List.mem_cons_self).bind fun _ => ?_
      exact (ih fun y hy => hf y (List.mem_cons_of_mem x hy)).bind fun _ _ h => nomatch h

/-- Adding the rows of an evaluation raises no `ConfigError`. -/
theorem persist_raisesNoConfigError (repos : Repositories) (evaluation : EvaluationOutcome) :
    RaisesNoConfigError (persist repos evaluation) := by
  refine (RaisesNoConfigError.forM repos.addRun_foreign _).bind fun _ => ?_
  refine (RaisesNoConfigError.forM repos.addCaseResult_foreign _).bind fun _ => ?_
  exact (repos.addResult_foreign _).bind fun _ _ h => nomatch h

/-- On both paths a `ConfigError` comes before the first call, whatever the providers answer,
exactly when the loaded plan is safe. -/
theorem config_errors_cost_nothing_iff (load : Py RunPlan) (repos : Repositories)
    (experimentId : EntityId) (buildEvaluators : Py (List Evaluator))
    (buildProviders : SystemVersion → SystemVersion → Py (Dict ProviderName ProviderClient)) :
    (ConfigErrorsFirst (fun env rt answers =>
          runConfig env rt (load.map (RunPlan.withAnswers answers))) ↔
        ∀ plan, load = .ok plan → plan.ConfigSafe) ∧
      (ConfigErrorsFirst (fun env rt answers =>
          executeExperiment env rt repos experimentId buildEvaluators
            fun baseline candidate => (buildProviders baseline candidate).map
              (withAnswers answers)) ↔
        ∀ plan, loadPersisted repos experimentId buildEvaluators buildProviders = .ok plan →
          plan.ConfigSafe) := by
  constructor
  · exact configErrorsFirst_iff fun evaluation e he => nomatch he
  · rw [← configErrorsFirst_iff (persist_raisesNoConfigError repos)]
    simp only [executeExperiment, loadPersisted_withAnswers]

/-! ### Checks that come late -/

/-- A template without a placeholder. -/
def greetingTemplate : NonBlank := ⟨"Hello", by decide +kernel⟩

/-- A session that stores the entities of the offline plan, with a policy. -/
def offlineRepositories (policy : ReleasePolicy) : Repositories where
  experiment := fun _ =>
    .ok (some { offlineExperiment 1 one_le_once with releasePolicyId := some policy.id })
  listRuns := fun _ => .ok []
  project := fun _ => .ok (some ⟨offlineId 0, offlineId 0, 0⟩)
  dataset := fun _ => .ok (some (offlineDataset 0))
  systemVersion := fun id =>
    .ok (some (offlineVersion (if id = offlineId 0 then 0 else 1) inputTemplate))
  releasePolicy := fun _ => .ok (some policy)
  addRun := fun _ => .ok ()
  addCaseResult := fun _ => .ok ()
  addResult := fun result => .ok result
  addRun_foreign := accepts_raisesNoConfigError
  addCaseResult_foreign := accepts_raisesNoConfigError
  addResult_foreign := fun _ _ h => nomatch h

/-- The candidate's template is rendered behind the baseline's calls, and a persisted policy is
compared with the produced metrics behind all of them. -/
theorem template_and_policy_checked_late :
    exec (runConfig offlineEnv (offlineRuntime 0) (.ok (offlinePlan greetingTemplate))) 0
        = (.error (.config "prompt_template must reference ${input}"), 1) ∧
      exec (executeExperiment offlineEnv (offlineRuntime 0)
          (offlineRepositories (offlinePolicy "recall.pass_rate" (by decide) 0 (le_refl 0)))
          (offlineId 0) (.ok [ToolSuccess.default.toEvaluator]) fun _ _ =>
            .ok (offlineProviders fun _ _ => .ok (offlineResponse 0 (le_refl 0)))) 0
        = (.error (.config ("release policy references metric(s) not produced by the " ++
            "evaluation: ['recall.pass_rate']")), 2) := by
  constructor
  · rfl
  · with_unfolding_all rfl

theorem CaseResult.make_raisesNoConfigError (runId : EntityId) (scores : List EvaluatorScore)
    (stamp : Stamp) : RaisesNoConfigError (CaseResult.make runId scores stamp) := by
  intro e he
  unfold make at he
  split at he
  · cases he
  · cases he
    decide

theorem EvaluatorScore.make_raisesNoConfigError (evaluator : String) (family : EvaluatorFamily)
    (score : ℚ) (passed : Option Bool) :
    RaisesNoConfigError (EvaluatorScore.make evaluator family score passed) := by
  refine RaisesNoConfigError.bind ?_ fun name => ?_
  · intro e he
    unfold requireNonEmpty at he
    split at he
    · cases he
    · cases he
      decide
  · intro e he
    split at he
    · cases he
    · cases he
      decide

/-- Evaluators that raise no `ConfigError` score safely. -/
theorem RunPlan.scoringSafe_of_evaluators {plan : RunPlan}
    (h : ∀ evaluator ∈ plan.evaluators, ∀ run reference,
      RaisesNoConfigError (evaluator.evaluate run reference)) (v : SystemVersion) :
    plan.ScoringSafe v := by
  intro case _ r _ response stamp stamp'
  unfold score
  split
  · exact CaseResult.make_raisesNoConfigError _ _ _
  · exact (RaisesNoConfigError.mapM fun evaluator he => h evaluator he _ _).bind fun scores =>
      CaseResult.make_raisesNoConfigError _ scores _

/-- With both templates in order the offline plan is safe. -/
theorem config_errors_cost_nothing_offline :
    ConfigErrorsFirst fun env rt answers =>
      runConfig env rt ((.ok (offlinePlan inputTemplate) : Py RunPlan).map
        (RunPlan.withAnswers answers)) := by
  refine (config_errors_cost_nothing_iff _
    (offlineRepositories (offlinePolicy "recall.pass_rate" (by decide) 0 (le_refl 0))) (offlineId 0)
    (.ok []) fun _ _ => .ok Dict.empty).1.mpr ?_
  intro plan hplan
  cases hplan
  have hscoring : ∀ v, (offlinePlan inputTemplate).ScoringSafe v := by
    refine RunPlan.scoringSafe_of_evaluators fun evaluator hevaluator => ?_
    rw [List.mem_singleton.mp hevaluator]
    exact fun _ _ => EvaluatorScore.make_raisesNoConfigError _ _ _ _
  intro _ _
  exact ⟨hscoring _, fun caseInput => ⟨caseInput, renderPrompt_inputTemplate caseInput⟩,
    hscoring _, fun _ hpolicy => nomatch hpolicy⟩

end EvalOps
