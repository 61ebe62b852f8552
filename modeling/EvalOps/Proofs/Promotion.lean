import EvalOps.Proofs.Isolation

/-!
# `EvalOps.Proofs.Promotion`: promoting traces into a dataset

`promote_traces_to_dataset` in its unit of work either raises and leaves the tables as they were, or
adds one dataset that holds a case for each selected trace, in the order of the selection.
`promote_all_or_nothing` also says when it returns: with a database that accepts what its
constraints allow and ids that are new, exactly for a selection that is `Promotable` under a name
that the column takes. `long_name_is_refused` is why the name matters.
-/

set_option autoImplicit false

namespace EvalOps

variable {db : Database} {stamp : Stamp} {caseIds : ℕ → EntityId} {projectId name : String}
  {traceIds : List String} {s t : Store}

/-! ### One case -/

/-- The case that a trace becomes. -/
def caseOfTrace (trace : ProductionTrace) (id : EntityId) : DatasetCase where
  input := trace.input
  expectedOutput := trace.referenceOutput
  origin := .promotedTrace
  sourceTraceId := some trace.id.text
  expectedRetrievalIds := []
  expectedToolCalls := []
  id := id
  promoted_has_trace := fun _ => ⟨trace.id.text, rfl, trace.id.nonblank⟩
  authored_has_no_trace := fun h => by cases h

/-- A trace is promoted when it exists and belongs to the project. -/
theorem promotedCase_eq_ok_iff {traceId : String} {id : EntityId} {c : DatasetCase} :
    promotedCase s projectId traceId id = .ok c ↔
      ∃ trace, s.getTrace traceId = some trace ∧ trace.projectId.text = projectId ∧
        c = caseOfTrace trace id := by
  unfold promotedCase
  cases htrace : s.getTrace traceId with
  | none => simp
  | some trace =>
      have hinit : DatasetCase.init trace.input.text trace.referenceOutput .promotedTrace
          (some trace.id.text) [] [] id.text = .ok (caseOfTrace trace id) :=
        DatasetCase.init_eq (caseOfTrace trace id)
      by_cases hproject : trace.projectId.text = projectId
      · simp [hproject, hinit, eq_comm]
      · simp [hproject]

/-! ### The dataset -/

/-- The `i`-th case is the case of the `i`-th selected trace. -/
def PromotesEach (s : Store) (projectId : String) (traceIds : List String)
    (cases : List DatasetCase) : Prop :=
  List.Forall₂ (fun traceId (c : DatasetCase) => ∃ trace, s.getTrace traceId = some trace ∧
    trace.projectId.text = projectId ∧ c.input = trace.input ∧
    c.expectedOutput = trace.referenceOutput ∧ c.sourceTraceId = some traceId ∧
    c.origin = .promotedTrace) traceIds cases

/-- What a promotion adds: version `1` of a dataset with a case for each selected trace. -/
structure PromotedDataset (s : Store) (projectId : String) (traceIds : List String) (name : String)
    (d : Dataset) : Prop where
  project : d.projectId.text = projectId
  named : d.name.text = name
  version : d.version = 1
  cases : PromotesEach s projectId traceIds d.cases

/-- A selection that can become a dataset. -/
structure Promotable (s : Store) (projectId : String) (traceIds : List String) (name : String) :
    Prop where
  selected : traceIds ≠ []
  distinct : traceIds.Nodup
  project : ∃ project, s.getProject projectId = some project
  traces : ∀ traceId ∈ traceIds, ∃ trace, s.getTrace traceId = some trace ∧
    trace.projectId.text = projectId
  named : PyText.isBlank name = false
  free : ∀ d ∈ s.datasets,
    ¬(d.projectId.text = projectId ∧ d.name.text = name ∧ d.version = 1)

/-- The ids that a promotion draws are new. -/
structure FreshIds (s : Store) (stamp : Stamp) (caseIds : ℕ → EntityId) : Prop where
  dataset : ∀ d ∈ s.datasets, d.id ≠ stamp.id
  cases : ∀ d ∈ s.datasets, ∀ c ∈ d.cases, ∀ k, c.id ≠ caseIds k
  distinct : Function.Injective caseIds

theorem getTrace_id {traceId : String} {trace : ProductionTrace}
    (h : s.getTrace traceId = some trace) : trace.id.text = traceId := by
  simpa using List.find?_some h

theorem getProject_id {project : Project} (h : s.getProject projectId = some project) :
    project.id.text = projectId := by
  simpa using List.find?_some h

/-- The loop of the promotion returns the cases of the selected traces. -/
theorem promotesEach_of_mapM {cases : List DatasetCase}
    (h : (traceIds.zipIdx.mapM fun (traceId, k) => promotedCase s projectId traceId (caseIds k))
      = .ok cases) : PromotesEach s projectId traceIds cases := by
  unfold PromotesEach
  -- The numbers of the traces only draw the ids of the cases.
  rw [← List.zipIdx_map_fst 0 traceIds, List.forall₂_map_left_iff]
  refine (ExceptRules.mapM_eq_ok_iff.mp h).imp fun entry c hc => ?_
  obtain ⟨trace, htrace, hproject, rfl⟩ := promotedCase_eq_ok_iff.mp hc
  refine ⟨trace, htrace, hproject, rfl, rfl, ?_, rfl⟩
  rw [← getTrace_id htrace]
  rfl

variable (caseIds) in
/-- The loop returns when each trace exists in the project, and its cases draw their ids in
order. -/
theorem exists_mapM_promotedCase
    (h : ∀ traceId ∈ traceIds, ∃ trace, s.getTrace traceId = some trace ∧
      trace.projectId.text = projectId) :
    ∃ cases : List DatasetCase,
      (traceIds.zipIdx.mapM fun (traceId, k) => promotedCase s projectId traceId (caseIds k))
        = .ok cases ∧
      cases.map DatasetCase.id = (List.range' 0 traceIds.length).map caseIds := by
  have hcase : ∀ entry ∈ traceIds.zipIdx, ∃ c,
      promotedCase s projectId entry.1 (caseIds entry.2) = .ok c ∧ c.id = caseIds entry.2 := by
    intro entry hentry
    have hmem : entry.1 ∈ traceIds := by
      rw [← List.zipIdx_map_fst 0 traceIds]
      exact List.mem_map_of_mem hentry
    obtain ⟨trace, htrace, hproject⟩ := h entry.1 hmem
    exact ⟨caseOfTrace trace _, promotedCase_eq_ok_iff.mpr ⟨trace, htrace, hproject, rfl⟩, rfl⟩
  obtain ⟨cases, hcases, hids⟩ := ExceptRules.exists_mapM_eq_ok hcase
  refine ⟨cases, hcases, ?_⟩
  rw [hids, ← List.zipIdx_map_snd 0 traceIds, List.map_map]
  rfl

/-- A promoted dataset as the constructor returns it. -/
theorem promotedDataset_of_init {cases : List DatasetCase} {d : Dataset}
    (hcases : PromotesEach s projectId traceIds cases)
    (h : Dataset.init projectId name promotedVersion cases stamp.id.text stamp.createdAt = .ok d) :
    PromotedDataset s projectId traceIds name d ∧ PyText.isBlank name = false ∧
      d.id = stamp.id ∧ d.cases = cases := by
  unfold Dataset.init at h
  obtain ⟨p, hp, h⟩ := ExceptRules.bind_eq_ok.mp h
  obtain ⟨n, hn, h⟩ := ExceptRules.bind_eq_ok.mp h
  obtain ⟨id, hid, h⟩ := ExceptRules.bind_eq_ok.mp h
  split_ifs at h
  cases h
  refine ⟨⟨requireNonEmpty_eq_ok hp, requireNonEmpty_eq_ok hn, rfl, hcases⟩, ?_, ?_, rfl⟩
  · rw [← requireNonEmpty_eq_ok hn]
    exact n.nonblank
  · exact NonBlank.text_injective (requireNonEmpty_eq_ok hid)

variable (stamp) in
/-- The dataset of a project, a name that is not blank and cases with distinct ids is built. -/
theorem exists_init_of_named {cases : List DatasetCase} {project : Project}
    (hproject : project.id.text = projectId) (hname : PyText.isBlank name = false)
    (hne : cases ≠ []) (hids : (cases.map DatasetCase.id).Nodup) :
    ∃ d, Dataset.init projectId name promotedVersion cases stamp.id.text stamp.createdAt
      = .ok d := by
  subst hproject
  exact ⟨_, Dataset.init_eq
    { projectId := project.id, name := ⟨name, hname⟩, version := 1, cases := cases,
      id := stamp.id, createdAt := stamp.createdAt, version_pos := le_refl 1,
      cases_ne_nil := hne, cases_nodup := hids }⟩

theorem ne_nil_of_promotesEach {cases : List DatasetCase} (h : traceIds ≠ [])
    (hcases : PromotesEach s projectId traceIds cases) : cases ≠ [] := by
  rintro rfl
  exact h (List.forall₂_nil_right_iff.mp hcases)

/-! ### The transaction -/

/-- No trace is reported as a duplicate exactly when the selection has none. -/
theorem duplicates_eq_nil_iff :
    Sorting.sorted (traceIds.filter fun tid => decide (1 < traceIds.count tid)).dedup = [] ↔
      traceIds.Nodup := by
  rw [Sorting.sorted_eq_nil_iff, List.dedup_eq_nil, List.filter_eq_nil_iff,
    List.nodup_iff_count_le_one]
  constructor
  · intro h tid
    by_cases hmem : tid ∈ traceIds
    · simpa using h tid hmem
    · rw [List.count_eq_zero_of_not_mem hmem]
      omega
  · intro h tid _
    simpa using h tid

/-- `DatasetRepository.add` returns what it was given, when the column takes the name, the row
conflicts with no other and the flush succeeds. -/
theorem exec_addDataset_eq_ok_iff {d x : Dataset} :
    Effect.exec (addDataset db d) s = (.ok x, t) ↔
      db.takes 200 d.name.text = true ∧ datasetConflicts s d = false ∧ db.flush = .ok () ∧ x = d ∧
        t = { s with datasets := s.datasets ++ [d] } := by
  unfold addDataset addRow
  simp only [Effect.exec_bind, Effect.exec_get, Effect.exec_lift, List.any_cons, List.any_nil,
    Bool.or_false]
  cases db.takes 200 d.name.text with
  | false => simp [Except.mapError]
  | true =>
      cases datasetConflicts s d with
      | true => simp [Except.mapError]
      | false =>
          cases db.flush with
          | error e => simp [Except.mapError]
          | ok u => simp [Except.mapError, eq_comm]

/-- A name that the column does not take is a `DataError`. -/
theorem exec_addDataset_of_refused {d : Dataset} (h : db.takes 200 d.name.text = false) :
    Effect.exec (addDataset db d) s = (.error ⟨.other "DataError", db.refusalText⟩, s) := by
  unfold addDataset addRow
  simp only [Effect.exec_bind, Effect.exec_get, Effect.exec_lift, List.any_cons, h]
  simp [Except.mapError, flushError]

/-- When the promotion returns, and what it leaves. -/
theorem exec_promote_eq_ok_iff {d : Dataset} :
    Effect.exec (promoteTracesToDataset db stamp caseIds projectId traceIds name) s = (.ok d, t) ↔
      traceIds ≠ [] ∧ traceIds.Nodup ∧ (∃ project, s.getProject projectId = some project) ∧
        ∃ cases,
          (traceIds.zipIdx.mapM fun (traceId, k) => promotedCase s projectId traceId (caseIds k))
            = .ok cases ∧
          Dataset.init projectId name promotedVersion cases stamp.id.text stamp.createdAt = .ok d ∧
          db.takes 200 d.name.text = true ∧ datasetConflicts s d = false ∧ db.flush = .ok () ∧
          t = { s with datasets := s.datasets ++ [d] } := by
  unfold promoteTracesToDataset
  by_cases hne : traceIds = []
  · simp [hne]
  · rw [if_neg hne]
    dsimp only
    by_cases hdistinct : traceIds.Nodup
    · rw [if_neg (not_not.mpr (duplicates_eq_nil_iff.mpr hdistinct))]
      simp only [Effect.exec_bind, Effect.exec_get]
      cases hproject : s.getProject projectId with
      | none => simp
      | some project =>
          -- The rest of the transaction only reads the tables until the dataset is added.
          simp only [Option.isNone_some, Bool.false_eq_true, if_false]
          show Effect.exec (Effect.lift _ >>= _) s = _ ↔ _
          simp only [Effect.exec_lift_bind_eq_ok, exec_addDataset_eq_ok_iff]
          constructor
          · rintro ⟨cases, hcases, _, hd, htakes, hconflicts, hflush, rfl, ht⟩
            exact ⟨hne, hdistinct, ⟨project, rfl⟩, cases, hcases, hd, htakes, hconflicts, hflush,
              ht⟩
          · rintro ⟨_, _, _, cases, hcases, hd, htakes, hconflicts, hflush, ht⟩
            exact ⟨cases, hcases, d, hd, htakes, hconflicts, hflush, rfl, ht⟩
    · rw [if_pos (mt duplicates_eq_nil_iff.mp hdistinct)]
      simp [hdistinct]

/-- Each case of a promoted dataset has one of the ids that the promotion draws. -/
theorem exists_id_of_mem {cases : List DatasetCase} {n : ℕ}
    (hids : cases.map DatasetCase.id = (List.range' 0 n).map caseIds) {c : DatasetCase}
    (hc : c ∈ cases) : ∃ k, c.id = caseIds k := by
  have hmem : c.id ∈ cases.map DatasetCase.id := List.mem_map_of_mem hc
  rw [hids] at hmem
  obtain ⟨k, _, hk⟩ := List.mem_map.mp hmem
  exact ⟨k, hk.symm⟩

/-- With new ids, a promoted dataset conflicts with no other exactly when its name is free. -/
theorem datasetConflicts_eq_false_iff (hfresh : FreshIds s stamp caseIds) {d : Dataset}
    (hd : PromotedDataset s projectId traceIds name d) (hid : d.id = stamp.id)
    (hids : ∀ c ∈ d.cases, ∃ k, c.id = caseIds k) :
    datasetConflicts s d = false ↔
      ∀ d' ∈ s.datasets,
        ¬(d'.projectId.text = projectId ∧ d'.name.text = name ∧ d'.version = 1) := by
  unfold datasetConflicts
  rw [List.any_eq_false]
  refine forall₂_congr fun d' hd' => ?_
  have hkey : d'.id ≠ d.id := by
    rw [hid]
    exact hfresh.dataset d' hd'
  have hcases : (d'.cases.any fun c => decide (c.id ∈ d.cases.map DatasetCase.id)) = false := by
    rw [List.any_eq_false]
    intro c hc hmem
    obtain ⟨c', hc', heq⟩ := List.mem_map.mp (of_decide_eq_true hmem)
    obtain ⟨k, hk⟩ := hids c' hc'
    exact hfresh.cases d' hd' c hc k (heq.symm.trans hk)
  have hproject : d'.projectId = d.projectId ↔ d'.projectId.text = projectId := by
    rw [← hd.project]
    exact NonBlank.text_injective.eq_iff.symm
  have hname : d'.name = d.name ↔ d'.name.text = name := by
    rw [← hd.named]
    exact NonBlank.text_injective.eq_iff.symm
  simp only [hcases, hkey, hproject, hname, hd.version, decide_false, Bool.false_or, Bool.or_false,
    decide_eq_true_eq]

/-- With new ids, a selection is promoted when it can become a dataset and the column takes the
name. -/
theorem exists_exec_promote_iff (hflush : db.flush = .ok ()) (hfresh : FreshIds s stamp caseIds) :
    (∃ d t, Effect.exec (promoteTracesToDataset db stamp caseIds projectId traceIds name) s
      = (.ok d, t)) ↔ Promotable s projectId traceIds name ∧ db.takes 200 name = true := by
  constructor
  · rintro ⟨d, t, h⟩
    obtain ⟨hne, hdistinct, hproject, cases, hcases, hinit, htakes, hconflicts, _⟩ :=
      exec_promote_eq_ok_iff.mp h
    have hpromotes := promotesEach_of_mapM hcases
    obtain ⟨hd, hnamed, hid, hdcases⟩ := promotedDataset_of_init hpromotes hinit
    have htraces : ∀ traceId ∈ traceIds, ∃ trace, s.getTrace traceId = some trace ∧
        trace.projectId.text = projectId := by
      intro traceId hmem
      obtain ⟨_, _, trace, htrace, hin, _⟩ := ListRules.exists_of_forall₂_of_mem hpromotes hmem
      exact ⟨trace, htrace, hin⟩
    obtain ⟨_, hcases', hids⟩ := exists_mapM_promotedCase caseIds htraces
    cases hcases.symm.trans hcases'
    have hdrawn : ∀ c ∈ d.cases, ∃ k, c.id = caseIds k := fun c hc =>
      exists_id_of_mem hids (hdcases ▸ hc)
    rw [hd.named] at htakes
    exact ⟨⟨hne, hdistinct, hproject, htraces, hnamed,
      (datasetConflicts_eq_false_iff hfresh hd hid hdrawn).mp hconflicts⟩, htakes⟩
  · rintro ⟨h, htakes⟩
    obtain ⟨project, hproject⟩ := h.project
    obtain ⟨cases, hcases, hids⟩ := exists_mapM_promotedCase caseIds h.traces
    have hpromotes := promotesEach_of_mapM hcases
    have hne : cases ≠ [] := ne_nil_of_promotesEach h.selected hpromotes
    have hnodup : (cases.map DatasetCase.id).Nodup := by
      rw [hids]
      exact List.Nodup.map hfresh.distinct List.nodup_range'
    obtain ⟨d, hinit⟩ := exists_init_of_named stamp (getProject_id hproject) h.named hne hnodup
    obtain ⟨hd, _, hid, hdcases⟩ := promotedDataset_of_init hpromotes hinit
    have hdrawn : ∀ c ∈ d.cases, ∃ k, c.id = caseIds k := fun c hc =>
      exists_id_of_mem hids (hdcases ▸ hc)
    have hconflicts := (datasetConflicts_eq_false_iff hfresh hd hid hdrawn).mpr h.free
    rw [← hd.named] at htakes
    exact ⟨d, _, exec_promote_eq_ok_iff.mpr ⟨h.selected, h.distinct, h.project, cases, hcases,
      hinit, htakes, hconflicts, hflush, rfl⟩⟩

/-- A selection that can become a dataset ends in a `DataError` when the column does not take the
name. -/
theorem exec_promote_of_refused (hdistinct : Function.Injective caseIds)
    (h : Promotable s projectId traceIds name) (hrefused : db.takes 200 name = false) :
    Effect.exec (promoteTracesToDataset db stamp caseIds projectId traceIds name) s
      = (.error ⟨.other "DataError", db.refusalText⟩, s) := by
  obtain ⟨project, hproject⟩ := h.project
  obtain ⟨cases, hcases, hids⟩ := exists_mapM_promotedCase caseIds h.traces
  have hpromotes := promotesEach_of_mapM hcases
  have hne : cases ≠ [] := ne_nil_of_promotesEach h.selected hpromotes
  have hnodup : (cases.map DatasetCase.id).Nodup := by
    rw [hids]
    exact List.Nodup.map hdistinct List.nodup_range'
  obtain ⟨d, hinit⟩ := exists_init_of_named stamp (getProject_id hproject) h.named hne hnodup
  obtain ⟨hd, _⟩ := promotedDataset_of_init hpromotes hinit
  rw [← hd.named] at hrefused
  unfold promoteTracesToDataset
  rw [if_neg h.selected]
  dsimp only
  rw [if_neg (not_not.mpr (duplicates_eq_nil_iff.mpr h.distinct))]
  simp only [Effect.exec_bind, Effect.exec_get, hproject, Option.isNone_some, Bool.false_eq_true,
    if_false, Effect.exec_lift, hcases, hinit]
  exact exec_addDataset_of_refused hrefused

/-- A promotion in its unit of work either raises and leaves the tables as they were, or adds one
dataset and changes nothing else. With new ids and a database that accepts what its constraints
allow, it returns exactly for a selection that can become a dataset under a name that the column
takes, as it does each name of up to 200 characters. -/
theorem promote_all_or_nothing (db : Database) (stamp : Stamp) (caseIds : ℕ → EntityId)
    (projectId : String) (traceIds : List String) (name : String) (s : Store) :
    ((∃ e, Effect.exec (unitOfWork db.commit
        (promoteTracesToDataset db stamp caseIds projectId traceIds name)) s = (.error e, s)) ∨
      ∃ d, Effect.exec (unitOfWork db.commit
          (promoteTracesToDataset db stamp caseIds projectId traceIds name)) s
            = (.ok d, { s with datasets := s.datasets ++ [d] }) ∧
        PromotedDataset s projectId traceIds name d) ∧
    (db.flush = .ok () → db.commit = .ok () → FreshIds s stamp caseIds →
      ((∃ d t, Effect.exec (unitOfWork db.commit
          (promoteTracesToDataset db stamp caseIds projectId traceIds name)) s = (.ok d, t)) ↔
        Promotable s projectId traceIds name ∧ db.takes 200 name = true)) ∧
    (FitsColumn 200 name → db.takes 200 name = true) := by
  refine ⟨?_, ?_, db.takes_of_fits⟩
  · rcases h : Effect.exec (unitOfWork db.commit
        (promoteTracesToDataset db stamp caseIds projectId traceIds name)) s with ⟨result, t⟩
    cases result with
    | error e =>
        rw [eq_of_exec_unitOfWork_eq_error h]
        exact Or.inl ⟨e, rfl⟩
    | ok d =>
        obtain ⟨hbody, _⟩ := exec_unitOfWork_eq_ok.mp h
        obtain ⟨_, _, _, cases, hcases, hinit, _, _, _, rfl⟩ := exec_promote_eq_ok_iff.mp hbody
        exact Or.inr ⟨d, rfl, (promotedDataset_of_init (promotesEach_of_mapM hcases) hinit).1⟩
  · intro hflush hcommit hfresh
    simp only [exec_unitOfWork_eq_ok, hcommit, and_true]
    exact exists_exec_promote_iff hflush hfresh

/-! ### Two recorded traces -/

/-- A trace of a project with a reference output. -/
def recordedTrace (k : ℕ) (reference : String) : ProductionTrace where
  projectId := drawnId 0
  systemVersionId := drawnId 1
  input := drawnId k
  output := "answer"
  referenceOutput := some reference
  metadata := []
  latencyMs := none
  costUsd := none
  error := none
  origin := .production
  id := drawnId k
  createdAt := 0
  latencyMs_nonneg := fun _ h => by cases h
  costUsd_nonneg := fun _ h => by cases h

/-- A project with two traces. -/
def recordedStore : Store :=
  { Store.empty with
    projects := [⟨drawnId 0, drawnId 0, 0⟩]
    traces := [recordedTrace 2 "first", recordedTrace 3 "second"] }

/-- The two traces, the later one first. -/
def recordedIds : List String := [(drawnId 3).text, (drawnId 2).text]

theorem drawnId_injective : Function.Injective drawnId := by
  intro j k h
  have hlength := congrArg (fun id : EntityId => id.text.toList.length) h
  simpa [drawnId] using hlength

theorem recorded_fresh : FreshIds recordedStore ⟨drawnId 4, 0⟩ drawnId :=
  ⟨fun _ hd => absurd hd List.not_mem_nil, fun _ hd => absurd hd List.not_mem_nil,
    drawnId_injective⟩

theorem getTrace_recorded : recordedStore.getTrace (drawnId 3).text
      = some (recordedTrace 3 "second") ∧
    recordedStore.getTrace (drawnId 2).text = some (recordedTrace 2 "first") := by
  constructor <;> rfl

/-- The two traces can become a dataset under every name. -/
theorem recorded_promotable {name : String} (h : PyText.isBlank name = false) :
    Promotable recordedStore (drawnId 0).text recordedIds name where
  selected := List.cons_ne_nil _ _
  distinct := by decide
  project := ⟨⟨drawnId 0, drawnId 0, 0⟩, rfl⟩
  traces := by
    rintro traceId hmem
    rcases List.mem_pair.mp hmem with rfl | rfl
    · exact ⟨_, getTrace_recorded.1, rfl⟩
    · exact ⟨_, getTrace_recorded.2, rfl⟩
  named := h
  free := fun d hd => absurd hd List.not_mem_nil

/-- A name of some length. -/
def nameOfLength (n : ℕ) : String := String.ofList (List.replicate n 'n')

theorem isBlank_nameOfLength {n : ℕ} (h : n ≠ 0) : PyText.isBlank (nameOfLength n) = false := by
  refine PyText.isBlank_eq_false_of_mem (c := 'n') ?_ (by decide)
  rw [nameOfLength, String.toList_ofList]
  exact List.mem_replicate.mpr ⟨h, rfl⟩

theorem not_takes_nameOfLength {limit n : ℕ} (h : limit < n) :
    Database.enforcing.takes limit (nameOfLength n) = false := by
  refine decide_eq_false fun hfits => absurd hfits.1 ?_
  rw [nameOfLength, String.length_ofList, List.length_replicate]
  exact not_le.mpr h

/-- A database that enforces the length of the name refuses a dataset that the selection, the
project and the name allow. -/
theorem long_name_is_refused :
    Promotable recordedStore (drawnId 0).text recordedIds (nameOfLength 201) ∧
    Effect.exec (unitOfWork Database.enforcing.commit (promoteTracesToDataset Database.enforcing
        ⟨drawnId 4, 0⟩ drawnId (drawnId 0).text recordedIds (nameOfLength 201))) recordedStore
      = (.error ⟨.other "DataError", "value too long for type character varying"⟩,
        recordedStore) := by
  have hpromotable := recorded_promotable (isBlank_nameOfLength (show 201 ≠ 0 by norm_num))
  have hrefused := not_takes_nameOfLength (show 200 < 201 by norm_num)
  refine ⟨hpromotable, ?_⟩
  rw [exec_unitOfWork, exec_promote_of_refused drawnId_injective hpromotable hrefused]
  rfl

/-- The two traces are promoted, in the order of the selection and with their references. -/
theorem recorded_traces_are_promoted :
    ∃ d, Effect.exec (unitOfWork Database.enforcing.commit (promoteTracesToDataset
        Database.enforcing ⟨drawnId 4, 0⟩ drawnId (drawnId 0).text recordedIds "regression"))
        recordedStore = (.ok d, { recordedStore with datasets := [d] }) ∧
      d.cases.map DatasetCase.expectedOutput = [some "second", some "first"] := by
  obtain ⟨hframe, hiff, hfits⟩ := promote_all_or_nothing Database.enforcing ⟨drawnId 4, 0⟩ drawnId
    (drawnId 0).text recordedIds "regression" recordedStore
  obtain ⟨_, _, hok⟩ := (hiff rfl rfl recorded_fresh).mpr
    ⟨recorded_promotable (by decide), hfits (by decide +kernel)⟩
  rcases hframe with ⟨e, herror⟩ | ⟨d, hadded, hd⟩
  · rw [herror] at hok
    exact nomatch hok
  · refine ⟨d, hadded, ?_⟩
    -- Each case holds the reference of the trace that it was made from.
    have hcases : List.Forall₂ (fun traceId (c : DatasetCase) => ∃ trace : ProductionTrace,
        recordedStore.getTrace traceId = some trace ∧ c.expectedOutput = trace.referenceOutput)
        recordedIds d.cases :=
      hd.cases.imp fun _ _ ⟨trace, htrace, _, _, hreference, _⟩ => ⟨trace, htrace, hreference⟩
    obtain ⟨c, rest, ⟨trace, htrace, hreference⟩, hrest, hsplit⟩ :=
      List.forall₂_cons_left_iff.mp hcases
    obtain ⟨c', last, ⟨trace', htrace', hreference'⟩, hlast, hsplit'⟩ :=
      List.forall₂_cons_left_iff.mp hrest
    rw [List.forall₂_nil_left_iff] at hlast
    rw [hsplit, hsplit', hlast, List.map_cons, List.map_cons, List.map_nil, hreference, hreference',
      ← Option.some.inj (getTrace_recorded.1.symm.trans htrace),
      ← Option.some.inj (getTrace_recorded.2.symm.trans htrace')]
    rfl

end EvalOps
