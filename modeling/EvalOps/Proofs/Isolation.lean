import EvalOps.Api.Create
import EvalOps.Lib.Lists
import EvalOps.Lib.Runs

/-!
# `EvalOps.Proofs.Isolation`: what one project may refer to

Every record that refers to another should refer inside its own project. The routes that create
traces and promote them look at the project of what they refer to. The routes that create
experiments and datasets do not: an experiment needs its dataset and its versions to exist
somewhere, and a case says where it was promoted from in a text that nothing reads.

`isolation_iff_within` is the exact condition on a sequence of requests. Its step lemma is
`isolated_after_iff`, over one spec lemma for each route. The tables only grow, so what a lookup
has found it finds again.
-/

set_option autoImplicit false

namespace EvalOps

/-! ### Isolation -/

/-- The dataset of this id belongs to the project. -/
def DatasetIn (store : Store) (projectId : EntityId) (datasetId : EntityId) : Prop :=
  ∃ dataset, store.getDataset datasetId.text = some dataset ∧ dataset.projectId = projectId

/-- The system version of this id belongs to the project. -/
def VersionIn (store : Store) (projectId : EntityId) (versionId : EntityId) : Prop :=
  ∃ version, store.getSystemVersion versionId.text = some version ∧ version.projectId = projectId

/-- A case that is promoted from a trace names a trace of the project. -/
def SourceIn (store : Store) (projectId : EntityId) (origin : CaseOrigin)
    (sourceTraceId : Option String) : Prop :=
  origin = .promotedTrace →
    ∃ trace, sourceTraceId.bind store.getTrace = some trace ∧ trace.projectId = projectId

/-- Every stored reference stays inside one project. -/
structure Isolated (store : Store) : Prop where
  dataset : ∀ e ∈ store.experiments, DatasetIn store e.projectId e.datasetId
  baseline : ∀ e ∈ store.experiments, VersionIn store e.projectId e.baselineVersionId
  candidate : ∀ e ∈ store.experiments, VersionIn store e.projectId e.candidateVersionId
  trace : ∀ t ∈ store.traces, VersionIn store t.projectId t.systemVersionId
  source : ∀ d ∈ store.datasets, ∀ c ∈ d.cases,
    SourceIn store d.projectId c.origin c.sourceTraceId

/-- The request refers inside its own project, as far as the tables know what it refers to. Only
the requests whose route does not look have something to say. -/
def Call.Within (store : Store) : Call → Prop
  | .experiment _ projectId body =>
      (∀ d, store.getDataset body.datasetId = some d → d.projectId.text = projectId) ∧
      (∀ v, store.getSystemVersion body.baselineVersionId = some v →
        v.projectId.text = projectId) ∧
      ∀ v, store.getSystemVersion body.candidateVersionId = some v → v.projectId.text = projectId
  | .dataset _ _ projectId body =>
      ∀ c ∈ body.cases, c.origin = .promotedTrace →
        ∃ trace, c.sourceTraceId.bind store.getTrace = some trace ∧
          trace.projectId.text = projectId
  | _ => True

/-! ### The tables only grow -/

/-- Every table of `t` begins with that of `s`. -/
structure Grows (s t : Store) : Prop where
  datasets : s.datasets <+: t.datasets
  systemVersions : s.systemVersions <+: t.systemVersions
  traces : s.traces <+: t.traces

/-- A lookup in a longer list finds what it found. -/
theorem find?_of_prefix {α : Type} {p : α → Bool} {xs ys : List α} {x : α} (h : xs <+: ys)
    (hx : xs.find? p = some x) : ys.find? p = some x := by
  obtain ⟨zs, rfl⟩ := h
  rw [List.find?_append, hx]
  rfl

theorem DatasetIn.mono {s t : Store} (h : Grows s t) {projectId datasetId : EntityId}
    (hs : DatasetIn s projectId datasetId) : DatasetIn t projectId datasetId := by
  obtain ⟨d, hd, hproject⟩ := hs
  exact ⟨d, find?_of_prefix h.datasets hd, hproject⟩

theorem VersionIn.mono {s t : Store} (h : Grows s t) {projectId versionId : EntityId}
    (hs : VersionIn s projectId versionId) : VersionIn t projectId versionId := by
  obtain ⟨v, hv, hproject⟩ := hs
  exact ⟨v, find?_of_prefix h.systemVersions hv, hproject⟩

theorem SourceIn.mono {s t : Store} (h : Grows s t) {projectId : EntityId} {origin : CaseOrigin}
    {sourceTraceId : Option String} (hs : SourceIn s projectId origin sourceTraceId) :
    SourceIn t projectId origin sourceTraceId := by
  intro horigin
  obtain ⟨trace, htrace, hproject⟩ := hs horigin
  -- A case that names no trace does not meet the condition, so it names one.
  obtain ⟨id, rfl, hget⟩ := Option.bind_eq_some_iff.mp htrace
  exact ⟨trace, by rw [Option.bind_some]; exact find?_of_prefix h.traces hget, hproject⟩

/-! ### What each insertion does -/

theorem exec_addRow_eq_ok {db : Database} {entity : String} {columns : List (ℕ × String)}
    {conflicts : Bool} {insert : Store → Store} {s t : Store} {u : Unit}
    (h : Effect.exec (addRow db entity columns conflicts insert) s = (.ok u, t)) :
    t = insert s := by
  -- The flush did not raise.
  obtain ⟨_, _, h⟩ := Effect.exec_lift_bind_eq_ok.mp h
  obtain ⟨_, _, hget, h⟩ := Effect.exec_bind_eq_ok.mp h
  cases hget
  cases h
  rfl

/-- An `add` that reads the tables for conflicts, inserts, and returns what it was given. -/
theorem exec_addRecord_eq_ok {α : Type} {db : Database} {entity : String}
    {columns : List (ℕ × String)} {conflicts : Store → Bool} {insert : Store → Store} {a x : α}
    {s t : Store}
    (h : Effect.exec (do
      let store ← get
      addRow db entity columns (conflicts store) insert
      pure a) s = (.ok x, t)) : t = insert s := by
  obtain ⟨_, _, hget, h⟩ := Effect.exec_bind_eq_ok.mp h
  cases hget
  obtain ⟨_, _, hadd, h⟩ := Effect.exec_bind_eq_ok.mp h
  cases h
  exact exec_addRow_eq_ok hadd

/-- A route whose response is dropped. -/
theorem exec_discard_eq_ok {α : Type} {x : Tx Store α} {s t : Store} {u : Unit}
    (h : Effect.exec (do let _ ← x) s = (.ok u, t)) : ∃ a, Effect.exec x s = (.ok a, t) := by
  obtain ⟨a, _, hx, hdone⟩ := Effect.exec_bind_eq_ok.mp h
  cases hdone
  exact ⟨a, hx⟩

/-! ### The constructed records -/

theorem DatasetCase.init_eq_ok {input : String} {expectedOutput : Option String}
    {origin : CaseOrigin} {sourceTraceId : Option String} {expectedRetrievalIds : List String}
    {expectedToolCalls : List ExpectedToolCall} {id : String} {c : DatasetCase}
    (h : DatasetCase.init input expectedOutput origin sourceTraceId expectedRetrievalIds
      expectedToolCalls id = .ok c) : c.origin = origin ∧ c.sourceTraceId = sourceTraceId := by
  unfold DatasetCase.init at h
  obtain ⟨_, _, h⟩ := ExceptRules.bind_eq_ok.mp h
  obtain ⟨_, _, h⟩ := ExceptRules.bind_eq_ok.mp h
  obtain ⟨_, _, h⟩ := ExceptRules.bind_eq_ok.mp h
  -- The texts have passed. The two checks on the origin raise or change nothing.
  split at h
  · cases h
  · split at h
    · cases h
    · cases h
      exact ⟨rfl, rfl⟩

theorem Dataset.init_eq_ok {projectId name : String} {version : ℤ} {cases : List DatasetCase}
    {id : String} {createdAt : Timestamp} {d : Dataset}
    (h : Dataset.init projectId name version cases id createdAt = .ok d) :
    d.projectId.text = projectId ∧ d.cases = cases := by
  unfold Dataset.init at h
  obtain ⟨p, hp, h⟩ := ExceptRules.bind_eq_ok.mp h
  obtain ⟨_, _, h⟩ := ExceptRules.bind_eq_ok.mp h
  obtain ⟨_, _, h⟩ := ExceptRules.bind_eq_ok.mp h
  -- The version, the number of the cases, and their ids.
  split at h
  · cases h
  · split at h
    · cases h
    · split at h
      · cases h
        exact ⟨requireNonEmpty_eq_ok hp, rfl⟩
      · cases h

theorem ProductionTrace.init_eq_ok {projectId systemVersionId input output : String}
    {referenceOutput : Option String} {metadata : List (String × Json)}
    {latencyMs costUsd : Option ℚ} {error : Option String} {origin : TraceOrigin} {id : String}
    {createdAt : Timestamp} {t : ProductionTrace}
    (h : ProductionTrace.init projectId systemVersionId input output referenceOutput metadata
      latencyMs costUsd error origin id createdAt = .ok t) :
    t.projectId.text = projectId ∧ t.systemVersionId.text = systemVersionId := by
  unfold ProductionTrace.init at h
  obtain ⟨p, hp, h⟩ := ExceptRules.bind_eq_ok.mp h
  obtain ⟨v, hv, h⟩ := ExceptRules.bind_eq_ok.mp h
  obtain ⟨_, _, h⟩ := ExceptRules.bind_eq_ok.mp h
  obtain ⟨_, _, h⟩ := ExceptRules.bind_eq_ok.mp h
  obtain ⟨_, _, h⟩ := ExceptRules.bind_eq_ok.mp h
  obtain ⟨_, _, h⟩ := ExceptRules.bind_eq_ok.mp h
  obtain ⟨_, _, h⟩ := ExceptRules.bind_eq_ok.mp h
  cases h
  exact ⟨requireNonEmpty_eq_ok hp, requireNonEmpty_eq_ok hv⟩

theorem found_eq_ok {α : Type} {value : Option α} {detail : String} {x : α}
    (h : found value detail = .ok x) : value = some x := by
  unfold found at h
  split at h
  · cases h
    rfl
  · exact nomatch h

/-! ### What each route does -/

variable {db : Database} {stamp : Stamp} {caseIds : ℕ → EntityId} {projectId : String}
  {s t : Store}

theorem exec_createProject_eq_ok {body : ProjectCreate} {p : Project}
    (h : Effect.exec (createProject db stamp body) s = (.ok p, t)) :
    ∃ p, t = { s with projects := s.projects ++ [p] } := by
  obtain ⟨p, _, h⟩ := Effect.exec_lift_bind_eq_ok.mp h
  exact ⟨p, exec_addRecord_eq_ok h⟩

theorem exec_createSystemVersion_eq_ok {body : SystemVersionCreate} {v : SystemVersion}
    (h : Effect.exec (createSystemVersion db stamp projectId body) s = (.ok v, t)) :
    ∃ v, t = { s with systemVersions := s.systemVersions ++ [v] } := by
  obtain ⟨_, _, hget, h⟩ := Effect.exec_bind_eq_ok.mp h
  cases hget
  obtain ⟨_, _, h⟩ := Effect.exec_lift_bind_eq_ok.mp h
  obtain ⟨v, _, h⟩ := Effect.exec_lift_bind_eq_ok.mp h
  exact ⟨v, exec_addRecord_eq_ok h⟩

theorem exec_createReleasePolicy_eq_ok {id : EntityId} {body : ReleasePolicyCreate}
    {p : ReleasePolicy} (h : Effect.exec (createReleasePolicy db id body) s = (.ok p, t)) :
    ∃ p, t = { s with releasePolicies := s.releasePolicies ++ [p] } := by
  obtain ⟨p, _, h⟩ := Effect.exec_lift_bind_eq_ok.mp h
  exact ⟨p, exec_addRecord_eq_ok h⟩

/-- A created experiment refers to what exists. -/
theorem exec_createExperiment_eq_ok {body : ExperimentCreate} {x : Experiment}
    (h : Effect.exec (createExperiment db stamp projectId body) s = (.ok x, t)) :
    ∃ e : Experiment, t = { s with experiments := s.experiments ++ [e] } ∧
      e.projectId.text = projectId ∧ e.datasetId.text = body.datasetId ∧
      e.baselineVersionId.text = body.baselineVersionId ∧
      e.candidateVersionId.text = body.candidateVersionId ∧
      (∃ d, s.getDataset body.datasetId = some d) ∧
      (∃ v, s.getSystemVersion body.baselineVersionId = some v) ∧
      ∃ v, s.getSystemVersion body.candidateVersionId = some v := by
  obtain ⟨_, _, hget, h⟩ := Effect.exec_bind_eq_ok.mp h
  cases hget
  -- The project, the dataset and the two versions are looked up. None is compared.
  obtain ⟨_, _, h⟩ := Effect.exec_lift_bind_eq_ok.mp h
  obtain ⟨d, hd, h⟩ := Effect.exec_lift_bind_eq_ok.mp h
  obtain ⟨b, hb, h⟩ := Effect.exec_lift_bind_eq_ok.mp h
  obtain ⟨c, hc, h⟩ := Effect.exec_lift_bind_eq_ok.mp h
  -- The policy may be looked up; the tables stay as they are.
  have hrest : Effect.exec (do
      let experiment ← Effect.lift
        (Experiment.init projectId body.datasetId body.baselineVersionId body.candidateVersionId
          body.repeats body.releasePolicyId stamp.id.text stamp.createdAt)
      addExperiment db experiment) s = (.ok x, t) := by
    cases hpolicy : body.releasePolicyId with
    | none =>
        rw [hpolicy] at h
        exact h
    | some policyId =>
        rw [hpolicy] at h
        obtain ⟨_, _, h⟩ := Effect.exec_lift_bind_eq_ok.mp h
        exact h
  obtain ⟨e, he, h⟩ := Effect.exec_lift_bind_eq_ok.mp hrest
  obtain ⟨hproject, hdataset, hbaseline, hcandidate, -⟩ := Experiment.init_eq_ok he
  exact ⟨e, exec_addRecord_eq_ok h, hproject, hdataset, hbaseline, hcandidate,
    ⟨d, found_eq_ok hd⟩, ⟨b, found_eq_ok hb⟩, ⟨c, found_eq_ok hc⟩⟩

/-- The version of a created trace belongs to the project. -/
theorem exec_createTrace_eq_ok {body : TraceCreate} {x : ProductionTrace}
    (h : Effect.exec (createTrace db stamp projectId body) s = (.ok x, t)) :
    ∃ trace : ProductionTrace, t = { s with traces := s.traces ++ [trace] } ∧
      VersionIn s trace.projectId trace.systemVersionId := by
  obtain ⟨_, _, hget, h⟩ := Effect.exec_bind_eq_ok.mp h
  cases hget
  obtain ⟨_, _, h⟩ := Effect.exec_lift_bind_eq_ok.mp h
  obtain ⟨v, hv, h⟩ := Effect.exec_lift_bind_eq_ok.mp h
  split at h
  · exact nomatch h
  · -- The route compares the project of the version with the one of the path.
    rename_i hproject
    obtain ⟨trace, htrace, h⟩ := Effect.exec_lift_bind_eq_ok.mp h
    obtain ⟨hp, hversion⟩ := ProductionTrace.init_eq_ok htrace
    refine ⟨trace, exec_addRecord_eq_ok h, v, ?_, ?_⟩
    · rw [hversion]
      exact found_eq_ok hv
    · exact NonBlank.text_injective ((not_not.mp hproject).trans hp.symm)

/-- The case of a request has the origin and the source of its body. -/
theorem caseOf_eq_ok {body : DatasetCaseCreate} {id : EntityId} {c : DatasetCase}
    (h : caseOf body id = .ok c) :
    c.origin = body.origin ∧ c.sourceTraceId = body.sourceTraceId := by
  obtain ⟨_, _, h⟩ := ExceptRules.bind_eq_ok.mp h
  exact DatasetCase.init_eq_ok h

/-- The cases of a created dataset are those of the body, in order. -/
theorem exec_createDataset_eq_ok {body : DatasetCreate} {x : Dataset}
    (h : Effect.exec (createDataset db stamp caseIds projectId body) s = (.ok x, t)) :
    ∃ d : Dataset, t = { s with datasets := s.datasets ++ [d] } ∧ d.projectId.text = projectId ∧
      List.Forall₂ (fun (b : DatasetCaseCreate) (c : DatasetCase) =>
        c.origin = b.origin ∧ c.sourceTraceId = b.sourceTraceId) body.cases d.cases := by
  obtain ⟨_, _, hget, h⟩ := Effect.exec_bind_eq_ok.mp h
  cases hget
  obtain ⟨_, _, h⟩ := Effect.exec_lift_bind_eq_ok.mp h
  obtain ⟨_, hcases, h⟩ := Effect.exec_lift_bind_eq_ok.mp h
  obtain ⟨d, hd, hadd⟩ := Effect.exec_lift_bind_eq_ok.mp h
  obtain ⟨hproject, rfl⟩ := Dataset.init_eq_ok hd
  refine ⟨d, exec_addRecord_eq_ok hadd, hproject, ?_⟩
  -- The route numbers the cases of the body, and the numbers only draw the ids.
  rw [← List.zipIdx_map_fst 0 body.cases, List.forall₂_map_left_iff]
  exact (ExceptRules.mapM_eq_ok_iff.mp hcases).imp fun b c hc => caseOf_eq_ok hc

/-- A promoted case names the trace that it was read from. -/
theorem promotedCase_eq_ok {traceId : String} {id : EntityId} {c : DatasetCase}
    (h : promotedCase s projectId traceId id = .ok c) :
    ∃ trace, c.sourceTraceId.bind s.getTrace = some trace ∧ trace.projectId.text = projectId := by
  unfold promotedCase at h
  split at h
  · exact nomatch h
  · rename_i trace htrace
    split at h
    · exact nomatch h
    · rename_i hproject
      refine ⟨trace, ?_, not_not.mp hproject⟩
      have hid : trace.id.text = traceId := by simpa using List.find?_some htrace
      rw [(DatasetCase.init_eq_ok h).2, Option.bind_some, hid]
      exact htrace

/-- A promoted dataset names traces of its project. -/
theorem exec_createTraceDataset_eq_ok {body : TraceDatasetCreate} {x : Dataset}
    (h : Effect.exec (createTraceDataset db stamp caseIds projectId body) s = (.ok x, t)) :
    ∃ d : Dataset, t = { s with datasets := s.datasets ++ [d] } ∧
      ∀ c ∈ d.cases, SourceIn s d.projectId c.origin c.sourceTraceId := by
  unfold createTraceDataset promoteTracesToDataset at h
  split at h
  · -- An empty list of traces, a trace named twice, and a project that is not there are rejected.
    exact nomatch h
  · dsimp only at h
    split at h
    · exact nomatch h
    · obtain ⟨_, _, hget, h⟩ := Effect.exec_bind_eq_ok.mp h
      cases hget
      split at h
      · exact nomatch h
      · obtain ⟨_, hcases, h⟩ := Effect.exec_lift_bind_eq_ok.mp h
        obtain ⟨d, hd, hadd⟩ := Effect.exec_lift_bind_eq_ok.mp h
        obtain ⟨hproject, rfl⟩ := Dataset.init_eq_ok hd
        refine ⟨d, exec_addRecord_eq_ok hadd, ?_⟩
        intro c hc _
        -- Each case is one of the promoted ones.
        obtain ⟨_, _, hpromoted⟩ := ListRules.exists_of_forall₂_of_mem
          (ExceptRules.mapM_eq_ok_iff.mp hcases).flip hc
        obtain ⟨trace, hsource, hin⟩ := promotedCase_eq_ok hpromoted
        exact ⟨trace, hsource, NonBlank.text_injective (hin.trans hproject.symm)⟩

/-! ### One request -/

/-- Tables that only grew, without a new record that refers to another. -/
theorem Isolated.of_grows {s t : Store} (h : Isolated s) (hg : Grows s t)
    (hexperiments : t.experiments = s.experiments) (htraces : t.traces = s.traces)
    (hdatasets : t.datasets = s.datasets) : Isolated t where
  dataset := fun e he => (h.dataset e (hexperiments ▸ he)).mono hg
  baseline := fun e he => (h.baseline e (hexperiments ▸ he)).mono hg
  candidate := fun e he => (h.candidate e (hexperiments ▸ he)).mono hg
  trace := fun t ht => (h.trace t (htraces ▸ ht)).mono hg
  source := fun d hd c hc => (h.source d (hdatasets ▸ hd) c hc).mono hg

/-- A new experiment brings three references. -/
theorem isolated_addExperiment_iff (hs : Isolated s) (e : Experiment) :
    Isolated { s with experiments := s.experiments ++ [e] } ↔
      DatasetIn s e.projectId e.datasetId ∧ VersionIn s e.projectId e.baselineVersionId ∧
        VersionIn s e.projectId e.candidateVersionId := by
  constructor
  · intro h
    have hmem : e ∈ s.experiments ++ [e] := by simp
    exact ⟨h.dataset e hmem, h.baseline e hmem, h.candidate e hmem⟩
  · rintro ⟨hdataset, hbaseline, hcandidate⟩
    -- A condition on every experiment holds of the old ones, and is asked of the new one.
    have hall : ∀ {P : Experiment → Prop}, (∀ e ∈ s.experiments, P e) → P e →
        ∀ e' ∈ s.experiments ++ [e], P e' := by
      intro P hold hnew
      simpa [or_imp, forall_and] using And.intro hold hnew
    exact ⟨hall hs.dataset hdataset, hall hs.baseline hbaseline, hall hs.candidate hcandidate,
      hs.trace, hs.source⟩

/-- A new dataset brings the sources of its cases. -/
theorem isolated_addDataset_iff (hs : Isolated s) (d : Dataset) :
    Isolated { s with datasets := s.datasets ++ [d] } ↔
      ∀ c ∈ d.cases, SourceIn s d.projectId c.origin c.sourceTraceId := by
  constructor
  · intro h
    exact h.source d (by simp)
  · intro hsource
    have hg : Grows s { s with datasets := s.datasets ++ [d] } :=
      ⟨List.prefix_append _ _, List.prefix_refl _, List.prefix_refl _⟩
    -- Nothing but the datasets has changed, and a dataset that was found is found again.
    constructor
    · exact fun e he => (hs.dataset e he).mono hg
    · exact hs.baseline
    · exact hs.candidate
    · exact hs.trace
    · intro d' hd'
      rcases List.mem_append.mp hd' with hold | hnew
      · exact hs.source d' hold
      · rw [List.mem_singleton.mp hnew]
        exact hsource

/-- A new trace brings its version. -/
theorem isolated_addTrace (hs : Isolated s) {trace : ProductionTrace}
    (hversion : VersionIn s trace.projectId trace.systemVersionId) :
    Isolated { s with traces := s.traces ++ [trace] } := by
  have hg : Grows s { s with traces := s.traces ++ [trace] } :=
    ⟨List.prefix_refl _, List.prefix_refl _, List.prefix_append _ _⟩
  -- No reference to a trace is lost, since the new trace stands behind the old ones.
  constructor
  · exact hs.dataset
  · exact hs.baseline
  · exact hs.candidate
  · intro t ht
    rcases List.mem_append.mp ht with hold | hnew
    · exact hs.trace t hold
    · rw [List.mem_singleton.mp hnew]
      exact hversion
  · exact fun d hd c hc => (hs.source d hd c hc).mono hg

/-- What is found belongs to the project exactly when whatever is found does. -/
theorem exists_in_iff {α : Type} {found : Option α} {project : α → EntityId} {id : EntityId}
    (h : ∃ x, found = some x) :
    (∃ x, found = some x ∧ project x = id) ↔ ∀ x, found = some x → (project x).text = id.text := by
  -- There is only one thing to find.
  obtain ⟨x, rfl⟩ := h
  simp only [Option.some.injEq, exists_eq_left', forall_eq']
  exact NonBlank.text_injective.eq_iff.symm

/-- The sources of the cases of a dataset are those of the body. -/
theorem sourceIn_iff {d : Dataset} {bodies : List DatasetCaseCreate}
    (hproject : d.projectId.text = projectId)
    (hcases : List.Forall₂ (fun (b : DatasetCaseCreate) (c : DatasetCase) =>
      c.origin = b.origin ∧ c.sourceTraceId = b.sourceTraceId) bodies d.cases) :
    (∀ c ∈ d.cases, SourceIn s d.projectId c.origin c.sourceTraceId) ↔
      ∀ b ∈ bodies, b.origin = .promotedTrace →
        ∃ trace, b.sourceTraceId.bind s.getTrace = some trace ∧
          trace.projectId.text = projectId := by
  constructor
  · intro h b hb horigin
    obtain ⟨c, hc, hsame, hsource⟩ := ListRules.exists_of_forall₂_of_mem hcases hb
    obtain ⟨trace, htrace, hin⟩ := h c hc (hsame.trans horigin)
    exact ⟨trace, hsource ▸ htrace, by rw [hin, hproject]⟩
  · intro h c hc horigin
    obtain ⟨b, hb, hsame, hsource⟩ := ListRules.exists_of_forall₂_of_mem hcases.flip hc
    obtain ⟨trace, htrace, hin⟩ := h b hb (hsame.symm.trans horigin)
    exact ⟨trace, hsource.symm ▸ htrace, NonBlank.text_injective (hin.trans hproject.symm)⟩

/-- From isolated tables, a request that is created keeps them isolated exactly when it refers
inside its own project. -/
theorem isolated_after_iff {request : Request} {s : Store} (hs : Isolated s) :
    Isolated (s.after request) ↔ (request.Created s → request.call.Within s) := by
  unfold Store.after Request.Created
  rcases hrun : request.run s with ⟨result, t⟩
  cases result with
  | error e =>
      -- A request that raises has left the tables alone.
      rw [show t = s from eq_of_exec_unitOfWork_eq_error hrun]
      exact ⟨fun _ h => (nomatch h), fun _ => hs⟩
  | ok u =>
      obtain ⟨hroute, _⟩ := exec_unitOfWork_eq_ok.mp hrun
      dsimp only
      rw [imp_iff_right rfl]
      -- One case for each route. Only a dataset and an experiment leave something to ask.
      cases hcall : request.call with
      | project stamp body =>
          rw [hcall] at hroute
          obtain ⟨_, hcreate⟩ := exec_discard_eq_ok hroute
          obtain ⟨p, rfl⟩ := exec_createProject_eq_ok hcreate
          have hg : Grows s { s with projects := s.projects ++ [p] } :=
            ⟨List.prefix_refl _, List.prefix_refl _, List.prefix_refl _⟩
          exact iff_of_true (hs.of_grows hg rfl rfl rfl) trivial
      | dataset stamp caseIds projectId body =>
          rw [hcall] at hroute
          obtain ⟨_, hcreate⟩ := exec_discard_eq_ok hroute
          obtain ⟨d, rfl, hproject, hcases⟩ := exec_createDataset_eq_ok hcreate
          rw [isolated_addDataset_iff hs]
          exact sourceIn_iff hproject hcases
      | traceDataset stamp caseIds projectId body =>
          rw [hcall] at hroute
          obtain ⟨_, hcreate⟩ := exec_discard_eq_ok hroute
          obtain ⟨d, rfl, hsource⟩ := exec_createTraceDataset_eq_ok hcreate
          exact iff_of_true ((isolated_addDataset_iff hs d).mpr hsource) trivial
      | systemVersion stamp projectId body =>
          rw [hcall] at hroute
          obtain ⟨_, hcreate⟩ := exec_discard_eq_ok hroute
          obtain ⟨v, rfl⟩ := exec_createSystemVersion_eq_ok hcreate
          have hg : Grows s { s with systemVersions := s.systemVersions ++ [v] } :=
            ⟨List.prefix_refl _, List.prefix_append _ _, List.prefix_refl _⟩
          exact iff_of_true (hs.of_grows hg rfl rfl rfl) trivial
      | releasePolicy id body =>
          rw [hcall] at hroute
          obtain ⟨_, hcreate⟩ := exec_discard_eq_ok hroute
          obtain ⟨p, rfl⟩ := exec_createReleasePolicy_eq_ok hcreate
          have hg : Grows s { s with releasePolicies := s.releasePolicies ++ [p] } :=
            ⟨List.prefix_refl _, List.prefix_refl _, List.prefix_refl _⟩
          exact iff_of_true (hs.of_grows hg rfl rfl rfl) trivial
      | experiment stamp projectId body =>
          rw [hcall] at hroute
          obtain ⟨_, hcreate⟩ := exec_discard_eq_ok hroute
          obtain ⟨e, rfl, rfl, hdataset, hbaseline, hcandidate, hd, hb, hc⟩ :=
            exec_createExperiment_eq_ok hcreate
          rw [isolated_addExperiment_iff hs]
          unfold DatasetIn VersionIn Call.Within
          rw [hdataset, hbaseline, hcandidate, exists_in_iff hd, exists_in_iff hb,
            exists_in_iff hc]
      | trace stamp projectId body =>
          rw [hcall] at hroute
          obtain ⟨_, hcreate⟩ := exec_discard_eq_ok hroute
          obtain ⟨trace, rfl, hversion⟩ := exec_createTrace_eq_ok hcreate
          exact iff_of_true (isolated_addTrace hs hversion) trivial

/-! ### Sequences of requests -/

theorem isolated_empty : Isolated Store.empty := by
  constructor <;> simp [Store.empty]

/-- Every store that a sequence of requests reaches is isolated exactly when every request that is
created refers inside its own project, at the moment it is made. -/
theorem isolation_iff_within (requests : List Request) :
    (∀ before after, requests = before ++ after → Isolated (storeAfter before)) ↔
      ∀ before request after, requests = before ++ request :: after →
        request.Created (storeAfter before) → request.call.Within (storeAfter before) :=
  -- The invariant is the isolation, and each step keeps it exactly on the condition.
  Run.foldl_invariant_iff (fun _ _ hs => isolated_after_iff hs) isolated_empty requests

/-! ### Two projects in one experiment -/

/-- The `k`-th id that a request draws. -/
def drawnId (k : ℕ) : EntityId where
  text := "id-" ++ String.ofList (List.replicate k 'x')
  nonblank := PyText.isBlank_eq_false_of_mem (c := 'i') (by simp) (by decide)

/-- A request to a database that accepts it. -/
def accepted (call : Call) : Request := ⟨call, Database.accepting⟩

/-- The body of a system version. -/
def versionBody (version : String) : SystemVersionCreate where
  name := "assistant"
  version := version
  provider := .ollama
  model := "model"
  promptTemplate := "$\x7binput\x7d"
  parameters := []
  ragConfig := none
  toolPolicy := none

/-- Two projects, a dataset in the second, two versions in the first, and an experiment of the first
project over the dataset of the second. -/
def mixedRequests : List Request :=
  [accepted (.project ⟨drawnId 0, 0⟩ ⟨"first"⟩),
   accepted (.project ⟨drawnId 1, 1⟩ ⟨"second"⟩),
   accepted (.dataset ⟨drawnId 2, 2⟩ (fun _ => drawnId 3) (drawnId 1).text
     ⟨"cases", 1, [⟨"question", none, .authored, none, [], []⟩]⟩),
   accepted (.systemVersion ⟨drawnId 4, 3⟩ (drawnId 0).text (versionBody "1")),
   accepted (.systemVersion ⟨drawnId 5, 4⟩ (drawnId 0).text (versionBody "2")),
   accepted (.experiment ⟨drawnId 6, 5⟩ (drawnId 0).text
     ⟨(drawnId 2).text, (drawnId 4).text, (drawnId 5).text, 1, none⟩)]

/-- The experiment is created, and its dataset is another project's. -/
theorem experiment_over_foreign_dataset :
    ¬∀ requests : List Request, Isolated (storeAfter requests) := by
  intro h
  have hstored : ((storeAfter mixedRequests).experiments.map fun e =>
      (e.projectId, ((storeAfter mixedRequests).getDataset e.datasetId.text).map Dataset.projectId))
      = [(drawnId 0, some (drawnId 1))] := by
    decide +kernel
  obtain ⟨e, he, hpair⟩ := List.mem_map.mp
    (hstored ▸ List.mem_singleton_self (drawnId 0, some (drawnId 1)))
  -- Isolation would put the dataset into the first project.
  obtain ⟨d, hd, hproject⟩ := (h mixedRequests).dataset e he
  rw [hd, Prod.mk.injEq, Option.map_some, Option.some.injEq, hproject] at hpair
  exact absurd (hpair.1.symm.trans hpair.2) (by decide)

end EvalOps
