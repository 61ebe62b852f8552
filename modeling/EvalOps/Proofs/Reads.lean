import EvalOps.Api.Reads
import EvalOps.Proofs.Isolation

/-!
# `EvalOps.Proofs.Reads`: a created record is read back for good

The tables as one list of views: `Store.views`. A `GET` route is a lookup in that list, and a list
route is a part of it. A create request adds the view that it answers with, under a path that no
other record has, and nothing is ever changed or removed. So what a create route answered is what
every later read shows.
-/

set_option autoImplicit false

namespace EvalOps

/-! ### The tables as one list -/

/-- The records of the tables, as their views. -/
def Store.views (s : Store) : List View :=
  (s.projects.map fun p => .project (.of p)) ++
    ((s.datasets.map fun d => .dataset (.of d)) ++
      ((s.systemVersions.map fun v => .systemVersion (.of v)) ++
        ((s.releasePolicies.map fun p => .releasePolicy (.of p)) ++
          ((s.experiments.map fun e => .experiment (.of e)) ++
            (s.traces.map fun t => .trace (.of t))))))

/-- The list that a record belongs to. -/
def View.listPath : View → ListPath
  | .project _ => .projects
  | .dataset view => .datasets view.projectId
  | .systemVersion view => .systemVersions view.projectId
  | .releasePolicy _ => .releasePolicies
  | .experiment view => .experiments view.projectId
  | .trace view => .traces view.projectId

/-- The project below whose path a list is. -/
def ListPath.projectId : ListPath → Option String
  | .projects | .releasePolicies => none
  | .datasets projectId | .systemVersions projectId | .experiments projectId
  | .traces projectId => some projectId

/-- The list of a record can be asked for: its project exists. -/
def View.Listable (view : View) (s : Store) : Prop :=
  ∀ projectId, view.listPath.projectId = some projectId → ∃ p, s.getProject projectId = some p

/-- No two records have one path, and every record is on a list. -/
structure Store.Keyed (s : Store) : Prop where
  distinct : (s.views.map View.path).Nodup
  listable : ∀ view ∈ s.views, view.Listable s

/-! ### Reading -/

theorem find?_of_keyed {α : Type} {views : List View} (h : (views.map View.path).Nodup)
    {rows : List α} {view : α → View} {key : α → String} {path : String → Path}
    (hrows : (rows.map view).Sublist views) (hpath : ∀ x, (view x).path = path (key x))
    {x : α} (hx : x ∈ rows) :
    rows.find? (fun y => decide (key y = key x)) = some x := by
  have hkeys : (rows.map key).Nodup := by
    have hpaths : ((rows.map key).map path).Nodup := by
      rw [List.map_map, show path ∘ key = View.path ∘ view from funext fun y => (hpath y).symm,
        ← List.map_map]
      exact h.sublist (hrows.map View.path)
    exact hpaths.of_map
  cases hfind : rows.find? (fun y => decide (key y = key x)) with
  | none => exact absurd (decide_eq_true rfl) (List.find?_eq_none.mp hfind x hx)
  | some y =>
      have hkey : key y = key x := by simpa using List.find?_some hfind
      rw [List.inj_on_of_nodup_map hkeys (List.mem_of_find?_eq_some hfind) hx hkey]

theorem row_of_find? {α : Type} {rows : List α} {key : α → String} {id : String} {x : α}
    (h : rows.find? (fun y => decide (key y = id)) = some x) : x ∈ rows ∧ key x = id :=
  ⟨List.mem_of_find?_eq_some h, by simpa using List.find?_some h⟩

/-- What one record route answers, by the lookup behind it. -/
theorem found_view_eq_ok {α : Type} {value : Option α} {detail : String} {view : α → View}
    {w : View} :
    (do let x ← found value detail; pure (view x)) = (.ok w : Py View) ↔
      ∃ x, value = some x ∧ view x = w := by
  cases value with
  | none => simp [found]
  | some x => simp [found]

section Tables

variable {s : Store}

theorem projects_sublist : (s.projects.map fun p => View.project (.of p)).Sublist s.views :=
  List.sublist_append_left _ _

theorem datasets_sublist : (s.datasets.map fun d => View.dataset (.of d)).Sublist s.views :=
  (List.sublist_append_left _ _).trans (List.sublist_append_right _ _)

theorem systemVersions_sublist :
    (s.systemVersions.map fun v => View.systemVersion (.of v)).Sublist s.views :=
  ((List.sublist_append_left _ _).trans (List.sublist_append_right _ _)).trans
    (List.sublist_append_right _ _)

theorem releasePolicies_sublist :
    (s.releasePolicies.map fun p => View.releasePolicy (.of p)).Sublist s.views :=
  (((List.sublist_append_left _ _).trans (List.sublist_append_right _ _)).trans
    (List.sublist_append_right _ _)).trans (List.sublist_append_right _ _)

theorem experiments_sublist :
    (s.experiments.map fun e => View.experiment (.of e)).Sublist s.views :=
  ((((List.sublist_append_left _ _).trans (List.sublist_append_right _ _)).trans
    (List.sublist_append_right _ _)).trans (List.sublist_append_right _ _)).trans
      (List.sublist_append_right _ _)

theorem traces_sublist : (s.traces.map fun t => View.trace (.of t)).Sublist s.views :=
  ((((List.sublist_append_right _ _).trans (List.sublist_append_right _ _)).trans
    (List.sublist_append_right _ _)).trans (List.sublist_append_right _ _)).trans
      (List.sublist_append_right _ _)

/-- A record is one of its table. -/
theorem mem_views_iff {view : View} :
    view ∈ s.views ↔
      (∃ p ∈ s.projects, .project (.of p) = view) ∨ (∃ d ∈ s.datasets, .dataset (.of d) = view) ∨
      (∃ v ∈ s.systemVersions, .systemVersion (.of v) = view) ∨
      (∃ p ∈ s.releasePolicies, .releasePolicy (.of p) = view) ∨
      (∃ e ∈ s.experiments, .experiment (.of e) = view) ∨
      ∃ t ∈ s.traces, .trace (.of t) = view := by
  simp only [Store.views, List.mem_append, List.mem_map]

/-- Every record is found under its path. -/
theorem get_of_mem_views (h : (s.views.map View.path).Nodup) {view : View} (hv : view ∈ s.views) :
    view.path.get s = .ok view := by
  rcases mem_views_iff.mp hv with ⟨x, hx, rfl⟩ | ⟨x, hx, rfl⟩ | ⟨x, hx, rfl⟩ | ⟨x, hx, rfl⟩ |
    ⟨x, hx, rfl⟩ | ⟨x, hx, rfl⟩
  · exact found_view_eq_ok.mpr ⟨x, find?_of_keyed h projects_sublist (fun _ => rfl) hx, rfl⟩
  · exact found_view_eq_ok.mpr ⟨x, find?_of_keyed h datasets_sublist (fun _ => rfl) hx, rfl⟩
  · exact found_view_eq_ok.mpr ⟨x, find?_of_keyed h systemVersions_sublist (fun _ => rfl) hx, rfl⟩
  · exact found_view_eq_ok.mpr
      ⟨x, find?_of_keyed h releasePolicies_sublist (fun _ => rfl) hx, rfl⟩
  · exact found_view_eq_ok.mpr ⟨x, find?_of_keyed h experiments_sublist (fun _ => rfl) hx, rfl⟩
  · exact found_view_eq_ok.mpr ⟨x, find?_of_keyed h traces_sublist (fun _ => rfl) hx, rfl⟩

/-- What is read under a path is a record with that path. -/
theorem mem_views_of_get {path : Path} {view : View} (h : path.get s = .ok view) :
    view ∈ s.views ∧ view.path = path := by
  cases path with
  | project id =>
      obtain ⟨x, hx, rfl⟩ := found_view_eq_ok.mp h
      obtain ⟨hmem, hid⟩ := row_of_find? hx
      exact ⟨mem_views_iff.mpr (.inl ⟨x, hmem, rfl⟩), congrArg Path.project hid⟩
  | dataset id =>
      obtain ⟨x, hx, rfl⟩ := found_view_eq_ok.mp h
      obtain ⟨hmem, hid⟩ := row_of_find? hx
      exact ⟨mem_views_iff.mpr (.inr (.inl ⟨x, hmem, rfl⟩)), congrArg Path.dataset hid⟩
  | systemVersion id =>
      obtain ⟨x, hx, rfl⟩ := found_view_eq_ok.mp h
      obtain ⟨hmem, hid⟩ := row_of_find? hx
      exact ⟨mem_views_iff.mpr (.inr (.inr (.inl ⟨x, hmem, rfl⟩))),
        congrArg Path.systemVersion hid⟩
  | releasePolicy id =>
      obtain ⟨x, hx, rfl⟩ := found_view_eq_ok.mp h
      obtain ⟨hmem, hid⟩ := row_of_find? hx
      exact ⟨mem_views_iff.mpr (.inr (.inr (.inr (.inl ⟨x, hmem, rfl⟩)))),
        congrArg Path.releasePolicy hid⟩
  | experiment id =>
      obtain ⟨x, hx, rfl⟩ := found_view_eq_ok.mp h
      obtain ⟨hmem, hid⟩ := row_of_find? hx
      exact ⟨mem_views_iff.mpr (.inr (.inr (.inr (.inr (.inl ⟨x, hmem, rfl⟩))))),
        congrArg Path.experiment hid⟩
  | trace id =>
      obtain ⟨x, hx, rfl⟩ := found_view_eq_ok.mp h
      obtain ⟨hmem, hid⟩ := row_of_find? hx
      exact ⟨mem_views_iff.mpr (.inr (.inr (.inr (.inr (.inr ⟨x, hmem, rfl⟩))))),
        congrArg Path.trace hid⟩

theorem selectRows_perm {α : Type} (before : α → α → Bool) (kept : α → Bool) (view : α → View)
    (rows : List α) : (selectRows before kept view rows).Perm ((rows.filter kept).map view) :=
  (List.mergeSort_perm _ _).map view

/-- What a list route answers is the records of that list, in some order. -/
theorem perm_of_list {path : ListPath} {collation : Collation} {views : List View}
    (h : path.get collation s = .ok views) :
    views.Perm (s.views.filter fun view => decide (view.listPath = path)) := by
  cases path with
  | projects =>
      cases h
      refine (selectRows_perm _ _ _ _).trans (.of_eq ?_)
      simp [Store.views, View.listPath, List.filter_map, Function.comp_def]
  | releasePolicies =>
      cases h
      refine (selectRows_perm _ _ _ _).trans (.of_eq ?_)
      simp [Store.views, View.listPath, List.filter_map, Function.comp_def]
  | datasets id =>
      obtain ⟨_, _, hviews⟩ := ExceptRules.bind_eq_ok.mp h
      cases hviews
      refine (selectRows_perm _ _ _ _).trans (.of_eq ?_)
      simp [Store.views, View.listPath, List.filter_map, Function.comp_def, DatasetRead.of]
  | systemVersions id =>
      obtain ⟨_, _, hviews⟩ := ExceptRules.bind_eq_ok.mp h
      cases hviews
      refine (selectRows_perm _ _ _ _).trans (.of_eq ?_)
      simp [Store.views, View.listPath, List.filter_map, Function.comp_def, SystemVersionRead.of]
  | experiments id =>
      obtain ⟨_, _, hviews⟩ := ExceptRules.bind_eq_ok.mp h
      cases hviews
      refine (selectRows_perm _ _ _ _).trans (.of_eq ?_)
      simp [Store.views, View.listPath, List.filter_map, Function.comp_def, ExperimentRead.of]
  | traces id =>
      obtain ⟨_, _, hviews⟩ := ExceptRules.bind_eq_ok.mp h
      cases hviews
      refine (selectRows_perm _ _ _ _).trans (.of_eq ?_)
      simp [Store.views, View.listPath, List.filter_map, Function.comp_def, TraceRead.of]

/-- A list is answered when its project exists. -/
theorem exists_list {path : ListPath} (collation : Collation)
    (h : ∀ projectId, path.projectId = some projectId → ∃ p, s.getProject projectId = some p) :
    ∃ views, path.get collation s = .ok views := by
  cases path with
  | projects => exact ⟨_, rfl⟩
  | releasePolicies => exact ⟨_, rfl⟩
  | datasets id | systemVersions id | experiments id | traces id =>
      obtain ⟨p, hp⟩ := h id rfl
      simp [ListPath.get, found, hp]

end Tables

/-! ### One create request -/

/-- A record was added under a new path, and its list can be asked for. -/
structure Store.Added (s : Store) (view : View) (t : Store) : Prop where
  fresh : ∀ v ∈ s.views, v.path ≠ view.path
  perm : t.views.Perm (view :: s.views)
  listable : view.Listable s
  projects : s.projects <+: t.projects

theorem perm_insert {α : Type} (xs : List α) (x : α) (ys : List α) :
    ((xs ++ [x]) ++ ys).Perm (x :: (xs ++ ys)) := by
  rw [List.append_assoc]
  exact List.perm_middle

theorem perm_behind {α : Type} (front : List α) {x : α} {xs ys : List α} (h : xs.Perm (x :: ys)) :
    (front ++ xs).Perm (x :: (front ++ ys)) :=
  (h.append_left front).trans List.perm_middle

/-- An insertion that succeeded met no conflict, and returns the record that it was given. -/
theorem exec_addRecord_fresh {α : Type} {db : Database} {entity : String}
    {columns : List (ℕ × String)} {conflicts : Store → Bool} {insert : Store → Store} {a x : α}
    {s t : Store}
    (h : Effect.exec (do
      let store ← get
      addRow db entity columns (conflicts store) insert
      pure a) s = (.ok x, t)) : a = x ∧ conflicts s = false ∧ t = insert s := by
  have ht := exec_addRecord_eq_ok h
  obtain ⟨_, _, hget, h⟩ := Effect.exec_bind_eq_ok.mp h
  cases hget
  obtain ⟨_, _, hadd, h⟩ := Effect.exec_bind_eq_ok.mp h
  obtain ⟨_, hflush, _⟩ := Effect.exec_lift_bind_eq_ok.mp hadd
  cases h
  refine ⟨rfl, ?_, ht⟩
  cases hconflicts : conflicts s with
  | false => rfl
  | true =>
      rw [hconflicts] at hflush
      split at hflush <;> cases hflush

/-- Rows of which none conflicts have other ids than the new one. -/
theorem id_ne_of_not_any {α : Type} {rows : List α} {id : α → EntityId} {conflict : α → Bool}
    {k : EntityId} (h : rows.any conflict = false)
    (hconflict : ∀ y, id y = k → conflict y = true) : ∀ y ∈ rows, id y ≠ k := by
  intro y hy hid
  exact List.any_eq_false.mp h y hy (hconflict y hid)

section Adds

variable {db : Database} {s t : Store}

theorem added_project {p x : Project} (h : Effect.exec (addProject db p) s = (.ok x, t)) :
    s.Added (.project (.of x)) t := by
  obtain ⟨rfl, hfresh, rfl⟩ := exec_addRecord_fresh h
  have hnew : ∀ y ∈ s.projects, y.id ≠ p.id :=
    id_ne_of_not_any hfresh fun _ hid => decide_eq_true hid
  refine
    { fresh := fun v hv hpath => ?_
      perm := ?_
      listable := fun _ hproject => by cases hproject
      projects := List.prefix_append _ _ }
  · rcases mem_views_iff.mp hv with ⟨y, hy, rfl⟩ | ⟨_, _, rfl⟩ | ⟨_, _, rfl⟩ | ⟨_, _, rfl⟩ |
      ⟨_, _, rfl⟩ | ⟨_, _, rfl⟩
    · exact hnew y hy (NonBlank.text_injective (Path.project.inj hpath))
    all_goals cases hpath
  · simp only [Store.views, List.map_append, List.map_cons, List.map_nil]
    exact perm_insert _ _ _

theorem added_dataset {d x : Dataset} (h : Effect.exec (addDataset db d) s = (.ok x, t))
    (hproject : ∃ p, s.getProject d.projectId.text = some p) :
    d = x ∧ s.Added (.dataset (.of x)) t := by
  obtain ⟨rfl, hfresh, rfl⟩ := exec_addRecord_fresh h
  have hnew : ∀ y ∈ s.datasets, y.id ≠ d.id :=
    id_ne_of_not_any hfresh fun _ hid => by simp [hid]
  refine ⟨rfl,
    { fresh := fun v hv hpath => ?_
      perm := ?_
      listable := fun _ hid => Option.some.inj hid ▸ hproject
      projects := List.prefix_refl _ }⟩
  · rcases mem_views_iff.mp hv with ⟨_, _, rfl⟩ | ⟨y, hy, rfl⟩ | ⟨_, _, rfl⟩ | ⟨_, _, rfl⟩ |
      ⟨_, _, rfl⟩ | ⟨_, _, rfl⟩
    case inr.inl => exact hnew y hy (NonBlank.text_injective (Path.dataset.inj hpath))
    all_goals cases hpath
  · simp only [Store.views, List.map_append, List.map_cons, List.map_nil]
    exact perm_behind _ (perm_insert _ _ _)

theorem added_systemVersion {v x : SystemVersion}
    (h : Effect.exec (addSystemVersion db v) s = (.ok x, t))
    (hproject : ∃ p, s.getProject v.projectId.text = some p) :
    s.Added (.systemVersion (.of x)) t := by
  obtain ⟨rfl, hfresh, rfl⟩ := exec_addRecord_fresh h
  have hnew : ∀ y ∈ s.systemVersions, y.id ≠ v.id :=
    id_ne_of_not_any hfresh fun _ hid => by simp [hid]
  refine
    { fresh := fun w hw hpath => ?_
      perm := ?_
      listable := fun _ hid => Option.some.inj hid ▸ hproject
      projects := List.prefix_refl _ }
  · rcases mem_views_iff.mp hw with ⟨_, _, rfl⟩ | ⟨_, _, rfl⟩ | ⟨y, hy, rfl⟩ | ⟨_, _, rfl⟩ |
      ⟨_, _, rfl⟩ | ⟨_, _, rfl⟩
    case inr.inr.inl =>
      exact hnew y hy (NonBlank.text_injective (Path.systemVersion.inj hpath))
    all_goals cases hpath
  · simp only [Store.views, List.map_append, List.map_cons, List.map_nil]
    exact perm_behind _ (perm_behind _ (perm_insert _ _ _))

theorem added_releasePolicy {p x : ReleasePolicy}
    (h : Effect.exec (addReleasePolicy db p) s = (.ok x, t)) :
    s.Added (.releasePolicy (.of x)) t := by
  obtain ⟨rfl, hfresh, rfl⟩ := exec_addRecord_fresh h
  have hnew : ∀ y ∈ s.releasePolicies, y.id ≠ p.id :=
    id_ne_of_not_any hfresh fun _ hid => decide_eq_true hid
  refine
    { fresh := fun w hw hpath => ?_
      perm := ?_
      listable := fun _ hproject => by cases hproject
      projects := List.prefix_refl _ }
  · rcases mem_views_iff.mp hw with ⟨_, _, rfl⟩ | ⟨_, _, rfl⟩ | ⟨_, _, rfl⟩ | ⟨y, hy, rfl⟩ |
      ⟨_, _, rfl⟩ | ⟨_, _, rfl⟩
    case inr.inr.inr.inl =>
      exact hnew y hy (NonBlank.text_injective (Path.releasePolicy.inj hpath))
    all_goals cases hpath
  · simp only [Store.views, List.map_append, List.map_cons, List.map_nil]
    exact perm_behind _ (perm_behind _ (perm_behind _ (perm_insert _ _ _)))

theorem added_experiment {e x : Experiment}
    (h : Effect.exec (addExperiment db e) s = (.ok x, t))
    (hproject : ∃ p, s.getProject e.projectId.text = some p) :
    s.Added (.experiment (.of x)) t := by
  obtain ⟨rfl, hfresh, rfl⟩ := exec_addRecord_fresh h
  have hnew : ∀ y ∈ s.experiments, y.id ≠ e.id :=
    id_ne_of_not_any hfresh fun _ hid => decide_eq_true hid
  refine
    { fresh := fun w hw hpath => ?_
      perm := ?_
      listable := fun _ hid => Option.some.inj hid ▸ hproject
      projects := List.prefix_refl _ }
  · rcases mem_views_iff.mp hw with ⟨_, _, rfl⟩ | ⟨_, _, rfl⟩ | ⟨_, _, rfl⟩ | ⟨_, _, rfl⟩ |
      ⟨y, hy, rfl⟩ | ⟨_, _, rfl⟩
    case inr.inr.inr.inr.inl =>
      exact hnew y hy (NonBlank.text_injective (Path.experiment.inj hpath))
    all_goals cases hpath
  · simp only [Store.views, List.map_append, List.map_cons, List.map_nil]
    exact perm_behind _ (perm_behind _ (perm_behind _ (perm_behind _ (perm_insert _ _ _))))

theorem added_trace {trace x : ProductionTrace}
    (h : Effect.exec (addTrace db trace) s = (.ok x, t))
    (hproject : ∃ p, s.getProject trace.projectId.text = some p) :
    s.Added (.trace (.of x)) t := by
  obtain ⟨rfl, hfresh, rfl⟩ := exec_addRecord_fresh h
  have hnew : ∀ y ∈ s.traces, y.id ≠ trace.id :=
    id_ne_of_not_any hfresh fun _ hid => decide_eq_true hid
  refine
    { fresh := fun w hw hpath => ?_
      perm := ?_
      listable := fun _ hid => Option.some.inj hid ▸ hproject
      projects := List.prefix_refl _ }
  · rcases mem_views_iff.mp hw with ⟨_, _, rfl⟩ | ⟨_, _, rfl⟩ | ⟨_, _, rfl⟩ | ⟨_, _, rfl⟩ |
      ⟨_, _, rfl⟩ | ⟨y, hy, rfl⟩
    case inr.inr.inr.inr.inr =>
      exact hnew y hy (NonBlank.text_injective (Path.trace.inj hpath))
    all_goals cases hpath
  · simp only [Store.views, List.map_append, List.map_cons, List.map_nil]
    exact perm_behind _ (perm_behind _ (perm_behind _ (perm_behind _ (perm_behind _
      (List.perm_append_singleton _ _)))))

end Adds

theorem SystemVersion.projectId_of_init {projectId name version : String}
    {provider : ProviderName} {model promptTemplate : String} {parameters : List (String × Json)}
    {ragConfig toolPolicy : Option (List (String × Json))} {id : String} {createdAt : Timestamp}
    {v : SystemVersion}
    (h : SystemVersion.init projectId name version provider model promptTemplate parameters
      ragConfig toolPolicy id createdAt = .ok v) : v.projectId.text = projectId := by
  obtain ⟨p, hp, h⟩ := ExceptRules.bind_eq_ok.mp h
  obtain ⟨_, _, h⟩ := ExceptRules.bind_eq_ok.mp h
  obtain ⟨_, _, h⟩ := ExceptRules.bind_eq_ok.mp h
  obtain ⟨_, _, h⟩ := ExceptRules.bind_eq_ok.mp h
  obtain ⟨_, _, h⟩ := ExceptRules.bind_eq_ok.mp h
  obtain ⟨_, _, h⟩ := ExceptRules.bind_eq_ok.mp h
  cases h
  exact requireNonEmpty_eq_ok hp

section Routes

variable {db : Database} {stamp : Stamp} {caseIds : ℕ → EntityId} {projectId : String}
  {s t : Store}

theorem added_of_createProject {body : ProjectCreate} {x : Project}
    (h : Effect.exec (createProject db stamp body) s = (.ok x, t)) :
    s.Added (.project (.of x)) t := by
  obtain ⟨_, _, h⟩ := Effect.exec_lift_bind_eq_ok.mp h
  exact added_project h

theorem added_of_createDataset {body : DatasetCreate} {x : Dataset}
    (h : Effect.exec (createDataset db stamp caseIds projectId body) s = (.ok x, t)) :
    s.Added (.dataset (.of x)) t := by
  obtain ⟨_, _, hget, h⟩ := Effect.exec_bind_eq_ok.mp h
  cases hget
  obtain ⟨p, hp, h⟩ := Effect.exec_lift_bind_eq_ok.mp h
  obtain ⟨_, _, h⟩ := Effect.exec_lift_bind_eq_ok.mp h
  obtain ⟨d, hd, h⟩ := Effect.exec_lift_bind_eq_ok.mp h
  obtain ⟨hproject, _⟩ := Dataset.init_eq_ok hd
  exact (added_dataset h ⟨p, hproject ▸ found_eq_ok hp⟩).2

theorem added_of_createTraceDataset {body : TraceDatasetCreate} {x : Dataset}
    (h : Effect.exec (createTraceDataset db stamp caseIds projectId body) s = (.ok x, t)) :
    s.Added (.dataset (.of x)) t := by
  unfold createTraceDataset promoteTracesToDataset at h
  split at h
  · cases h
  · dsimp only at h
    split at h
    · cases h
    · obtain ⟨_, _, hget, h⟩ := Effect.exec_bind_eq_ok.mp h
      cases hget
      split at h
      · cases h
      · -- Here the project was looked up with an exception of its own.
        rename_i hnone
        obtain ⟨p, hp⟩ := Option.ne_none_iff_exists'.mp
          (fun hnone' => hnone (Option.isNone_iff_eq_none.mpr hnone'))
        obtain ⟨_, _, h⟩ := Effect.exec_lift_bind_eq_ok.mp h
        obtain ⟨d, hd, h⟩ := Effect.exec_lift_bind_eq_ok.mp h
        obtain ⟨hproject, _⟩ := Dataset.init_eq_ok hd
        exact (added_dataset h ⟨p, hproject ▸ hp⟩).2

theorem added_of_createSystemVersion {body : SystemVersionCreate} {x : SystemVersion}
    (h : Effect.exec (createSystemVersion db stamp projectId body) s = (.ok x, t)) :
    s.Added (.systemVersion (.of x)) t := by
  obtain ⟨_, _, hget, h⟩ := Effect.exec_bind_eq_ok.mp h
  cases hget
  obtain ⟨p, hp, h⟩ := Effect.exec_lift_bind_eq_ok.mp h
  obtain ⟨v, hv, h⟩ := Effect.exec_lift_bind_eq_ok.mp h
  exact added_systemVersion h ⟨p, SystemVersion.projectId_of_init hv ▸ found_eq_ok hp⟩

theorem added_of_createReleasePolicy {id : EntityId} {body : ReleasePolicyCreate}
    {x : ReleasePolicy} (h : Effect.exec (createReleasePolicy db id body) s = (.ok x, t)) :
    s.Added (.releasePolicy (.of x)) t := by
  obtain ⟨_, _, h⟩ := Effect.exec_lift_bind_eq_ok.mp h
  exact added_releasePolicy h

theorem added_of_createExperiment {body : ExperimentCreate} {x : Experiment}
    (h : Effect.exec (createExperiment db stamp projectId body) s = (.ok x, t)) :
    s.Added (.experiment (.of x)) t := by
  obtain ⟨_, _, hget, h⟩ := Effect.exec_bind_eq_ok.mp h
  cases hget
  obtain ⟨p, hp, h⟩ := Effect.exec_lift_bind_eq_ok.mp h
  obtain ⟨_, _, h⟩ := Effect.exec_lift_bind_eq_ok.mp h
  obtain ⟨_, _, h⟩ := Effect.exec_lift_bind_eq_ok.mp h
  obtain ⟨_, _, h⟩ := Effect.exec_lift_bind_eq_ok.mp h
  have hrest : Effect.exec (do
      let experiment ← Effect.lift
        (Experiment.init projectId body.datasetId body.baselineVersionId body.candidateVersionId
          body.repeats body.releasePolicyId stamp.id.text stamp.createdAt)
      addExperiment db experiment) s = (.ok x, t) := by
    cases hpolicy : body.releasePolicyId with
    | none =>
        rw [hpolicy] at h
        exact h
    | some policyId =>
        rw [hpolicy] at h
        obtain ⟨_, _, h⟩ := Effect.exec_lift_bind_eq_ok.mp h
        exact h
  obtain ⟨e, he, h⟩ := Effect.exec_lift_bind_eq_ok.mp hrest
  obtain ⟨hproject, -⟩ := Experiment.init_eq_ok he
  exact added_experiment h ⟨p, hproject ▸ found_eq_ok hp⟩

theorem added_of_createTrace {body : TraceCreate} {x : ProductionTrace}
    (h : Effect.exec (createTrace db stamp projectId body) s = (.ok x, t)) :
    s.Added (.trace (.of x)) t := by
  obtain ⟨_, _, hget, h⟩ := Effect.exec_bind_eq_ok.mp h
  cases hget
  obtain ⟨p, hp, h⟩ := Effect.exec_lift_bind_eq_ok.mp h
  obtain ⟨_, _, h⟩ := Effect.exec_lift_bind_eq_ok.mp h
  split at h
  · cases h
  · obtain ⟨trace, htrace, h⟩ := Effect.exec_lift_bind_eq_ok.mp h
    obtain ⟨hproject, _⟩ := ProductionTrace.init_eq_ok htrace
    exact added_trace h ⟨p, hproject ▸ found_eq_ok hp⟩

end Routes

/-- A create route in its unit of work, with and without its response: it raises and leaves the
tables alone, or it answers with the view of what it created. -/
theorem respond_cases {α : Type} (commit : Py Unit) (create : Tx Store α) (view : α → View)
    (s : Store) (hadded : ∀ a t, Effect.exec create s = (.ok a, t) → s.Added (view a) t) :
    (∃ e, (Effect.exec (unitOfWork commit (do
        let a ← create
        pure (view a))) s).1 = .error e ∧
      (Effect.exec (unitOfWork commit (do let _ ← create)) s).2 = s) ∨
    ∃ w, (Effect.exec (unitOfWork commit (do
        let a ← create
        pure (view a))) s).1 = .ok w ∧
      s.Added w (Effect.exec (unitOfWork commit (do let _ ← create)) s).2 := by
  simp only [exec_unitOfWork, Effect.exec_bind]
  rcases hcreate : Effect.exec create s with ⟨result, t⟩
  cases result with
  | error e => exact .inl ⟨e, rfl, rfl⟩
  | ok a =>
      cases commit with
      | error e => exact .inl ⟨e, rfl, rfl⟩
      | ok _ => exact .inr ⟨view a, rfl, hadded a t hcreate⟩

/-- A request is refused and leaves the records alone, or it adds the record that it answers with.
-/
theorem after_cases (s : Store) (request : Request) :
    (∃ e, request.response s = .error e ∧ s.after request = s) ∨
      ∃ view, request.response s = .ok view ∧ s.Added view (s.after request) := by
  rcases request with ⟨call, db⟩
  cases call with
  | project stamp body =>
      exact respond_cases db.commit _ _ s fun _ _ => added_of_createProject
  | dataset stamp caseIds projectId body =>
      exact respond_cases db.commit _ _ s fun _ _ => added_of_createDataset
  | traceDataset stamp caseIds projectId body =>
      exact respond_cases db.commit _ _ s fun _ _ => added_of_createTraceDataset
  | systemVersion stamp projectId body =>
      exact respond_cases db.commit _ _ s fun _ _ => added_of_createSystemVersion
  | releasePolicy id body =>
      exact respond_cases db.commit _ _ s fun _ _ => added_of_createReleasePolicy
  | experiment stamp projectId body =>
      exact respond_cases db.commit _ _ s fun _ _ => added_of_createExperiment
  | trace stamp projectId body =>
      exact respond_cases db.commit _ _ s fun _ _ => added_of_createTrace

/-! ### Sequences of requests -/

theorem View.Listable.mono {view : View} {s t : Store} (h : view.Listable s)
    (hprojects : s.projects <+: t.projects) : view.Listable t := by
  intro projectId hid
  obtain ⟨p, hp⟩ := h projectId hid
  exact ⟨p, find?_of_prefix hprojects hp⟩

theorem Store.Added.keyed {s t : Store} {view : View} (h : s.Added view t) (hs : s.Keyed) :
    t.Keyed where
  distinct := by
    rw [(h.perm.map View.path).nodup_iff, List.map_cons, List.nodup_cons]
    refine ⟨fun hmem => ?_, hs.distinct⟩
    obtain ⟨v, hv, hpath⟩ := List.mem_map.mp hmem
    exact h.fresh v hv hpath
  listable := by
    intro v hv
    rcases List.mem_cons.mp (h.perm.mem_iff.mp hv) with rfl | hold
    · exact h.listable.mono h.projects
    · exact (hs.listable v hold).mono h.projects

theorem Store.Added.subset {s t : Store} {view : View} (h : s.Added view t) : s.views ⊆ t.views :=
  fun _ hv => h.perm.mem_iff.mpr (List.mem_cons_of_mem _ hv)

theorem keyed_after {s : Store} (hs : s.Keyed) (request : Request) : (s.after request).Keyed := by
  rcases after_cases s request with ⟨_, _, hsame⟩ | ⟨_, _, hadded⟩
  · rw [hsame]
    exact hs
  · exact hadded.keyed hs

theorem views_subset_after (s : Store) (request : Request) :
    s.views ⊆ (s.after request).views := by
  rcases after_cases s request with ⟨_, _, hsame⟩ | ⟨_, _, hadded⟩
  · rw [hsame]
    exact List.Subset.refl _
  · exact hadded.subset

/-- Whatever is asked of an empty store, no two of its records have one path. -/
theorem keyed_storeAfter (requests : List Request) : (storeAfter requests).Keyed := by
  suffices h : ∀ s : Store, s.Keyed → (requests.foldl Store.after s).Keyed from
    h Store.empty ⟨List.nodup_nil, fun v hv => absurd hv List.not_mem_nil⟩
  induction requests with
  | nil => exact fun s hs => hs
  | cons request requests ih => exact fun s hs => ih (s.after request) (keyed_after hs request)

/-- Nothing is ever changed or removed. -/
theorem views_subset_foldl (requests : List Request) (s : Store) :
    s.views ⊆ (requests.foldl Store.after s).views := by
  induction requests generalizing s with
  | nil => exact List.Subset.refl _
  | cons request requests ih =>
      intro view hview
      exact ih (s.after request) (views_subset_after s request hview)

/-- A record is read back: its path shows it, the list of its project shows it once, and no other
list does. -/
structure ReadBack (view : View) (s : Store) : Prop where
  get : view.path.get s = .ok view
  listed : ∀ collation, ∃ views, view.listPath.get collation s = .ok views ∧
    views.filter (fun v => decide (v.path = view.path)) = [view]
  unlisted : ∀ collation path views, path ≠ view.listPath → path.get collation s = .ok views →
    ∀ v ∈ views, v.path ≠ view.path

theorem filter_key_eq_singleton {α κ : Type} [DecidableEq κ] {key : α → κ} {xs : List α}
    (h : (xs.map key).Nodup) {x : α} (hx : x ∈ xs) :
    xs.filter (fun y => decide (key y = key x)) = [x] := by
  induction xs with
  | nil => cases hx
  | cons y ys ih =>
      rw [List.map_cons, List.nodup_cons] at h
      rcases List.mem_cons.mp hx with rfl | hmem
      · have hrest : ys.filter (fun z => decide (key z = key x)) = [] := by
          rw [List.filter_eq_nil_iff]
          intro z hz hkey
          exact h.1 (List.mem_map.mpr ⟨z, hz, of_decide_eq_true hkey⟩)
        rw [List.filter_cons, if_pos (decide_eq_true rfl), hrest]
      · have hne : key y ≠ key x := fun hkey => h.1 (hkey ▸ List.mem_map_of_mem hmem)
        rw [List.filter_cons_of_neg (by simpa using hne)]
        exact ih h.2 hmem

theorem readBack_of_mem {s : Store} (hs : s.Keyed) {view : View} (hview : view ∈ s.views) :
    ReadBack view s := by
  have hsame : ∀ v ∈ s.views, v.path = view.path → v = view :=
    fun v hv hpath => List.inj_on_of_nodup_map hs.distinct hv hview hpath
  refine { get := get_of_mem_views hs.distinct hview, listed := ?_, unlisted := ?_ }
  · intro collation
    obtain ⟨views, hviews⟩ := exists_list collation (hs.listable view hview)
    have hperm := perm_of_list hviews
    refine ⟨views, hviews, List.perm_singleton.mp ?_⟩
    -- The list has the records of one project, and among those one has this path.
    have hfilter := hperm.filter fun v => decide (v.path = view.path)
    rw [List.filter_comm, filter_key_eq_singleton hs.distinct hview] at hfilter
    simpa using hfilter
  · intro collation path views hpath hviews v hv hsamePath
    obtain ⟨hmem, hlist⟩ := List.mem_filter.mp ((perm_of_list hviews).mem_iff.mp hv)
    rw [hsame v hmem hsamePath] at hlist
    exact hpath (of_decide_eq_true hlist).symm

/-- What one `GET` route showed is what every later read shows. -/
theorem shown_record_is_read_back (before after : List Request) {path : Path} {view : View}
    (h : path.get (storeAfter before) = .ok view) :
    view.path = path ∧ ReadBack view (storeAfter (before ++ after)) := by
  obtain ⟨hmem, hpath⟩ := mem_views_of_get h
  refine ⟨hpath, readBack_of_mem (keyed_storeAfter _) ?_⟩
  rw [storeAfter, List.foldl_append]
  exact views_subset_foldl after _ hmem

/-- What a create route answered is what every later read shows, whatever is asked in between. -/
theorem created_record_is_read_back (before after : List Request) (request : Request)
    {view : View} (h : request.response (storeAfter before) = .ok view) :
    ReadBack view (storeAfter (before ++ request :: after)) := by
  refine readBack_of_mem (keyed_storeAfter _) ?_
  rcases after_cases (storeAfter before) request with ⟨e, herror, _⟩ | ⟨w, hw, hadded⟩
  · rw [herror] at h
    cases h
  · obtain rfl : w = view := Except.ok.inj (hw.symm.trans h)
    have hmem : w ∈ ((storeAfter before).after request).views :=
      hadded.perm.mem_iff.mpr List.mem_cons_self
    have hstore : storeAfter (before ++ request :: after)
        = after.foldl Store.after ((storeAfter before).after request) := by
      rw [storeAfter, List.foldl_append, List.foldl_cons]
      rfl
    rw [hstore]
    exact views_subset_foldl after _ hmem

/-- The first project of the mixed requests is read back behind all of them. -/
theorem first_project_is_read_back : ∃ view,
    (accepted (.project ⟨drawnId 0, 0⟩ ⟨"first"⟩)).response (storeAfter []) = .ok view ∧
      ReadBack view (storeAfter mixedRequests) := by
  cases h : (accepted (.project ⟨drawnId 0, 0⟩ ⟨"first"⟩)).response (storeAfter []) with
  | error e =>
      have hok : ((accepted (.project ⟨drawnId 0, 0⟩ ⟨"first"⟩)).response
        (storeAfter [])).toOption.isSome = true := by decide +kernel
      rw [h] at hok
      cases hok
  | ok view => exact ⟨view, rfl, created_record_is_read_back [] _ _ h⟩

end EvalOps
