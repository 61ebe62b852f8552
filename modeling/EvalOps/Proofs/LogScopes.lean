import EvalOps.Lib.Grouping
import EvalOps.Obs.LogScopes

/-!
# `EvalOps.Proofs.LogScopes`: what the fields in scope do

An event carries each field in scope that its own fields do not name, and a scope leaves alone each
field that it does not name. So the id of a request stays in scope, and every event of the program
carries it. There is one rule for a log call and one for a scope, next to those of
`EvalOps.Lib.Watched`.
-/

set_option autoImplicit false

namespace EvalOps

open Effect Obs Watched

variable {unicodeAlnum : Char → Bool} {correlation : Correlation}

/-! ### The fields in scope -/

theorem get?_assign_of_notMem {pairs : List (String × Json)} {k : String}
    (hk : k ∉ pairs.map Prod.fst) (payload : Dict String Json) :
    (assign payload pairs).get? k = payload.get? k := by
  induction pairs generalizing payload with
  | nil => rfl
  | cons pair pairs ih =>
      rw [List.map_cons, List.mem_cons, not_or] at hk
      show (assign (payload.insert pair.1 pair.2) pairs).get? k = _
      rw [ih hk.2, Dict.get?_insert, if_neg hk.1]

theorem get?_assign_of_mem {pairs : List (String × Json)} (hnodup : (pairs.map Prod.fst).Nodup)
    {k : String} {v : Json} (hmem : (k, v) ∈ pairs) (payload : Dict String Json) :
    (assign payload pairs).get? k = some v := by
  induction pairs generalizing payload with
  | nil => cases hmem
  | cons pair pairs ih =>
      rw [List.map_cons, List.nodup_cons] at hnodup
      show (assign (payload.insert pair.1 pair.2) pairs).get? k = _
      rcases List.mem_cons.mp hmem with rfl | hmem
      · rw [get?_assign_of_notMem hnodup.1, Dict.get?_insert, if_pos rfl]
      · exact ih hnodup.2 hmem _

/-- An event carries each field in scope that its own fields do not name. -/
theorem payload_of_scope {context : Correlation} {k v event : String}
    {fields : List (String × LogValue)} (hk : context.get? k = some v)
    (hfields : k ∉ fields.map Prod.fst) :
    (eventPayload unicodeAlnum context event fields).get? k = some (.str v) := by
  unfold eventPayload
  have hown : k ∉ (loggedFields unicodeAlnum fields).map Prod.fst := by
    intro hmem
    obtain ⟨pair, hpair, rfl⟩ := List.mem_map.mp hmem
    obtain ⟨field, hfield, hlogged⟩ := List.mem_filterMap.mp hpair
    refine hfields (List.mem_map.mpr ⟨field, hfield, ?_⟩)
    split at hlogged
    · cases hlogged
    · obtain ⟨_, _, rfl⟩ := Option.map_eq_some_iff.mp hlogged
      rfl
  rw [get?_assign_of_notMem hown]
  refine get?_assign_of_mem ?_ (List.mem_map.mpr ⟨(k, v), ?_, rfl⟩) _
  · rw [List.map_map]
    exact context.nodup
  · exact (Dict.get?_eq_some_iff _ _ _).mp hk

theorem bind_append (context : Correlation) (fields more : List (String × Option String)) :
    context.bind (fields ++ more) = (context.bind fields).bind more :=
  List.foldl_append

theorem get?_bind_of_notMem {fields : List (String × Option String)} {k : String}
    (hk : k ∉ fields.map Prod.fst) (context : Correlation) :
    (context.bind fields).get? k = context.get? k := by
  induction fields generalizing context with
  | nil => rfl
  | cons field fields ih =>
      rw [List.map_cons, List.mem_cons, not_or] at hk
      obtain ⟨key, value⟩ := field
      cases value with
      | none => exact ih hk.2 context
      | some v =>
          show (Correlation.bind (context.insert key v) fields).get? k = _
          rw [ih hk.2, Dict.get?_insert, if_neg hk.1]

/-- The fields that came with the task are in scope. -/
theorem get?_bind_entries {k v : String} (hk : correlation.get? k = some v)
    (context : Correlation) :
    (context.bind (correlation.entries.map fun entry => (entry.1, some entry.2))).get? k
      = some v := by
  have hmem := (Dict.get?_eq_some_iff _ _ _).mp hk
  have hnodup := correlation.nodup
  generalize correlation.entries = entries at hmem hnodup
  -- Each field is bound once, so what is bound behind it leaves it alone.
  induction entries generalizing context with
  | nil => cases hmem
  | cons entry entries ih =>
      rw [List.map_cons, List.nodup_cons] at hnodup
      show (Correlation.bind (context.insert entry.1 entry.2)
        (entries.map fun entry => (entry.1, some entry.2))).get? k = some v
      rcases List.mem_cons.mp hmem with rfl | hmem
      · have hrest : k ∉ (entries.map fun entry => (entry.1, some entry.2)).map Prod.fst := by
          rw [List.map_map]
          exact hnodup.1
        rw [get?_bind_of_notMem hrest, Dict.get?_insert, if_pos rfl]
      · exact ih _ hmem hnodup.2

/-- A dispatch carries the request and the experiment, and nothing else. -/
theorem get?_snapshot (context : Correlation) (k : String) :
    context.snapshotForDispatch.get? k
      = if k = "request_id" ∨ k = "experiment_id" then context.get? k else none := by
  have hempty : (Dict.empty : Correlation).get? k = none := rfl
  unfold Correlation.snapshotForDispatch
  simp only [List.foldl_cons, List.foldl_nil]
  by_cases hrequest : k = "request_id"
  · subst hrequest
    cases context.get? "request_id" <;> cases context.get? "experiment_id" <;>
      simp [Dict.get?_insert, hempty]
  · by_cases hexperiment : k = "experiment_id"
    · subst hexperiment
      cases context.get? "request_id" <;> cases context.get? "experiment_id" <;>
        simp [Dict.get?_insert, hempty]
    · cases context.get? "request_id" <;> cases context.get? "experiment_id" <;>
        simp [Dict.get?_insert, hempty, hrequest, hexperiment]

/-- The event carries the id of a request. -/
def FromRequest (requestId : String) (event : LogEvent) : Prop :=
  event.payload.get? "request_id" = some (.str requestId)

theorem fromRequest_of_scope {requestId logger event : String} {level : LogLevel}
    {fields : List (String × LogValue)} {context : Correlation}
    (hrequest : context.get? "request_id" = some requestId)
    (hfields : "request_id" ∉ fields.map Prod.fst) :
    FromRequest requestId (logEvent unicodeAlnum logger event level fields context) :=
  payload_of_scope hrequest hfields

/-! ### Rules for programs that log -/

section Rules

variable {σ α β : Type} {requestId : String}

/-- A log call first makes no difference. -/
theorem erases_logTo_bind {w : Watched σ Correlation LogEvent} {logger event : String}
    {level : LogLevel} {fields : List (String × LogValue)} {x : Logged σ α}
    {y : Effect σ PyError α} (hx : ∀ w', w'.context = w.context → Erases w' x y) :
    Erases w (logTo unicodeAlnum logger event level fields >>= fun _ => x) y :=
  erases_emit_bind fun w' hcontext _ => hx w' hcontext

/-- Run in a request, the program logs only events that carry the request's id. -/
def CarriesRequest (requestId : String) (x : Logged σ α) : Prop :=
  ∀ w : Watched σ Correlation LogEvent, w.context.get? "request_id" = some requestId →
    Emits (FromRequest requestId) w x

theorem carries_pure (a : α) : CarriesRequest requestId (pure a : Logged σ α) :=
  fun _ _ => emits_pure a

theorem carries_throw (e : PyError) : CarriesRequest requestId (throw e : Logged σ α) :=
  fun _ _ => emits_throw e

theorem carries_lift (x : Py α) : CarriesRequest requestId (Effect.lift x : Logged σ α) :=
  fun _ _ => emits_lift x

theorem carries_onState (x : Effect σ PyError α) : CarriesRequest requestId (onState x) :=
  fun _ _ => emits_onState x

theorem CarriesRequest.bind {x : Logged σ α} {f : α → Logged σ β}
    (hx : CarriesRequest requestId x) (hf : ∀ a, CarriesRequest requestId (f a)) :
    CarriesRequest requestId (x >>= f) := by
  intro w hrequest
  refine Emits.bind (hx w hrequest) fun a w' _ hcontext => hf a w' ?_
  rw [hcontext]
  exact hrequest

theorem CarriesRequest.tryCatch {x : Logged σ α} {handler : PyError → Logged σ α}
    (hx : CarriesRequest requestId x) (hhandler : ∀ e, CarriesRequest requestId (handler e)) :
    CarriesRequest requestId (MonadExcept.tryCatch x handler) := by
  intro w hrequest
  refine Emits.tryCatch (hx w hrequest) fun e w' _ hcontext => hhandler e w' ?_
  rw [hcontext]
  exact hrequest

/-- A handler for some exceptions, which lets the others pass. -/
theorem CarriesRequest.orThrow {p : Prop} [Decidable p] {x : Logged σ α} {e : PyError}
    (hx : CarriesRequest requestId x) : CarriesRequest requestId (if p then x else throw e) := by
  by_cases h : p
  · rw [if_pos h]
    exact hx
  · rw [if_neg h]
    exact carries_throw e

/-- A loop, turn by turn. -/
theorem CarriesRequest.mapM {f : α → Logged σ β} (hf : ∀ a, CarriesRequest requestId (f a))
    (items : List α) : CarriesRequest requestId (items.mapM f) := by
  induction items with
  | nil => exact carries_pure _
  | cons a items ih =>
      rw [List.mapM_cons]
      exact (hf a).bind fun _ => ih.bind fun _ => carries_pure _

theorem carries_emit {lines : Correlation → List LogEvent}
    (h : ∀ context : Correlation, context.get? "request_id" = some requestId →
      ∀ line ∈ lines context, FromRequest requestId line) :
    CarriesRequest requestId (emit lines : Logged σ Unit) :=
  fun w hrequest => emits_emit (h w.context hrequest)

theorem carries_logTo {logger event : String} {level : LogLevel}
    {fields : List (String × LogValue)} (hfields : "request_id" ∉ fields.map Prod.fst) :
    CarriesRequest requestId (logTo unicodeAlnum logger event level fields : Logged σ Unit) :=
  carries_emit fun _ hrequest =>
    List.forall_mem_singleton.mpr (fromRequest_of_scope hrequest hfields)

theorem carries_scope_bind {f : Correlation → Logged σ α}
    (hf : ∀ context : Correlation, context.get? "request_id" = some requestId →
      CarriesRequest requestId (f context)) :
    CarriesRequest requestId (scope >>= f) :=
  fun w hrequest => emits_scope_bind (hf w.context hrequest w hrequest)

/-- A scope that does not name the request. -/
theorem CarriesRequest.correlationScope {fields : List (String × Option String)}
    {body : Logged σ α} (hbody : CarriesRequest requestId body)
    (hfields : "request_id" ∉ fields.map Prod.fst) :
    CarriesRequest requestId (correlationScope fields body) := by
  intro w hrequest
  refine emits_within (hbody _ ?_)
  show (w.context.bind fields).get? "request_id" = some requestId
  rw [get?_bind_of_notMem hfields]
  exact hrequest

end Rules

end EvalOps
