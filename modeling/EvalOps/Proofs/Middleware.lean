import EvalOps.Obs.Middleware
import EvalOps.Proofs.Logged

/-!
# `EvalOps.Proofs.Middleware`: the id of a request is safe, and it is everywhere

* `safe_resolveRequestId`: whatever the client sends, the id is short and of safe characters.
* `http_request_is_correlated`: the application runs with the id in scope, each response that starts
  carries it, and one event that carries it closes the request.
-/

set_option autoImplicit false

namespace EvalOps.Obs

open Effect Watched

/-! ### The id -/

/-- An id that can stand in a header and on a log line. -/
structure SafeId (text : String) : Prop where
  chars : ∀ c ∈ text.toList, isRequestIdChar c = true
  nonempty : 1 ≤ text.toList.length
  short : text.toList.length ≤ 128

/-- The last character behind `strip` is not a space. -/
theorem getLast?_strip {text : String} {c : Char}
    (h : (PyText.strip text).toList.getLast? = some c) : PyText.isSpace c = false := by
  unfold PyText.strip PyText.stripChars at h
  rw [String.toList_ofList, List.getLast?_reverse] at h
  have hnot := List.head?_dropWhile_not PyText.isSpace
    (text.toList.dropWhile PyText.isSpace).reverse
  rw [h] at hnot
  exact hnot

/-- So no line feed slips through in front of the pattern's `$`. -/
theorem safe_of_validRequestId {text : String} (h : validRequestId (PyText.strip text) = true) :
    SafeId (PyText.strip text) := by
  have hlast : (PyText.strip text).toList.getLast? ≠ some '\n' := by
    intro hlast
    have hspace : PyText.isSpace '\n' = false := getLast?_strip hlast
    cases hspace
  unfold validRequestId at h
  simp only [if_neg hlast, Bool.and_eq_true, List.all_eq_true, decide_eq_true_eq] at h
  exact ⟨h.1, h.2.1, h.2.2⟩

theorem FreshId.safe (fresh : FreshId) : SafeId fresh.text where
  chars := by
    intro c hc
    unfold isRequestIdChar Char.isAlphanum
    rcases fresh.hex c hc with hdigit | hletter
    · simp [hdigit]
    · simp only [List.mem_cons, List.not_mem_nil, or_false] at hletter
      rcases hletter with rfl | rfl | rfl | rfl | rfl | rfl <;> rfl
  nonempty := by
    rw [fresh.length]
    decide
  short := by
    rw [fresh.length]
    decide

theorem safe_resolveRequestId (fresh : FreshId) (request : HttpScope) :
    SafeId (resolveRequestId fresh request) := by
  unfold resolveRequestId
  dsimp only
  split
  · exact fresh.safe
  · split
    · exact safe_of_validRequestId ‹_›
    · exact fresh.safe

/-! ### What goes out -/

/-- The messages among some steps. -/
def messagesOf (steps : List AppStep) : List Message :=
  steps.filterMap fun step =>
    match step with
    | .send message => some message
    | .log _ => none

/-- The events among some steps. -/
def eventsOf (steps : List AppStep) : List LogEvent :=
  steps.filterMap fun step =>
    match step with
    | .send _ => none
    | .log event => some event

/-- The status of the last response that was started. -/
def lastStatus (status : ℕ) : List Message → ℕ
  | [] => status
  | .responseStart status _ :: messages => lastStatus status messages
  | .other _ :: messages => lastStatus status messages

/-- A message with the id on it. -/
def stamped (setHeader : Headers → String → String → Headers) (requestId : String) :
    Message → Message
  | .responseStart status headers =>
      .responseStart status (setHeader headers requestIdHeader requestId)
  | .other type => .other type

/-- How the application ended. -/
def AppRun.result (run : AppRun) : Py Unit :=
  match run.raised with
  | none => .ok ()
  | some exc => .error exc

variable {unicodeAlnum : Char → Bool} {setHeader : Headers → String → String → Headers}
  {fresh : FreshId} {duration : ℚ} {request : HttpScope} {app : Correlation → AppRun}

theorem exec_runSteps (setHeader : Headers → String → String → Headers) (requestId : String)
    (steps : List AppStep) (w : Watched Exchange Correlation LogEvent) :
    exec (runSteps (sendWrapper setHeader requestId) steps) w
      = (.ok (),
          ⟨⟨lastStatus w.state.statusCode (messagesOf steps),
              w.state.sent ++ (messagesOf steps).map (stamped setHeader requestId)⟩,
            w.context, w.emitted ++ eventsOf steps⟩) := by
  -- The status and what was sent are the accumulators of the loop, so `w` is general.
  induction steps generalizing w with
  | nil => simp [runSteps, messagesOf, eventsOf, lastStatus]
  | cons step steps ih =>
      cases step with
      | log event =>
          rw [runSteps, exec_bind, exec_emit]
          dsimp only
          rw [ih]
          simp [messagesOf, eventsOf]
      | send message =>
          rw [runSteps, exec_bind]
          cases message with
          | responseStart status headers =>
              have hsend : exec (sendWrapper setHeader requestId (.responseStart status headers)) w
                  = (.ok (), { w with state := ⟨status, w.state.sent ++
                      [.responseStart status (setHeader headers requestIdHeader requestId)]⟩ }) :=
                rfl
              rw [hsend]
              dsimp only
              rw [ih]
              simp [messagesOf, eventsOf, lastStatus, stamped]
          | other type =>
              have hsend : exec (sendWrapper setHeader requestId (.other type)) w
                  = (.ok (), { w with state := ⟨w.state.statusCode, w.state.sent ++
                      [.other type]⟩ }) := rfl
              rw [hsend]
              dsimp only
              rw [ih]
              simp [messagesOf, eventsOf, lastStatus, stamped]

/-! ### One request -/

/-- The fields in scope of the application. -/
def requestScope (context : Correlation) (requestId : String) : Correlation :=
  context.bind [("request_id", some requestId)]

/-- What the middleware logs behind the application. -/
def closing (unicodeAlnum : Char → Bool) (duration : ℚ) (request : HttpScope) (run : AppRun)
    (context : Correlation) : List LogEvent :=
  match run.raised with
  | none =>
      [requestCompleted unicodeAlnum duration request run.route
        (lastStatus 500 (messagesOf run.steps)) context]
  | some exc =>
      if exc.isException then [requestFailed unicodeAlnum duration request run.route exc context]
      else []

theorem exec_runApp (setHeader : Headers → String → String → Headers) (requestId : String)
    (run : AppRun) (w : Watched Exchange Correlation LogEvent) :
    exec (runApp (sendWrapper setHeader requestId) run) w
      = (run.result,
          ⟨⟨lastStatus w.state.statusCode (messagesOf run.steps),
              w.state.sent ++ (messagesOf run.steps).map (stamped setHeader requestId)⟩,
            w.context, w.emitted ++ eventsOf run.steps⟩) := by
  unfold runApp AppRun.result
  rw [exec_bind, exec_runSteps]
  cases run.raised <;> rfl

theorem exec_requestContextMiddleware (hhttp : request.type = "http")
    (w : Watched Exchange Correlation LogEvent) {run : AppRun}
    (hrun : app (requestScope w.context (resolveRequestId fresh request)) = run) :
    exec (requestContextMiddleware unicodeAlnum setHeader fresh duration request app) w
      = (run.result,
          ⟨⟨lastStatus 500 (messagesOf run.steps),
              w.state.sent ++ (messagesOf run.steps).map
                (stamped setHeader (resolveRequestId fresh request))⟩,
            w.context,
            w.emitted ++ eventsOf run.steps ++ closing unicodeAlnum duration request run
              (requestScope w.context (resolveRequestId fresh request))⟩) := by
  -- The status is 500 before the application has sent anything.
  have hset : exec (setStatusCode 500) w
      = (.ok (), { w with state := { w.state with statusCode := 500 } }) := rfl
  unfold requestScope at hrun
  unfold requestContextMiddleware closing requestScope
  rw [if_neg (not_not.mpr hhttp), exec_bind, hset]
  dsimp only
  rw [exec_within, exec_bind, exec_scope]
  dsimp only
  rw [hrun, exec_bind, exec_tryCatch, exec_runApp]
  cases hraised : run.raised with
  | none =>
      have hresult : run.result = .ok () := by
        unfold AppRun.result
        rw [hraised]
      rw [hresult]
      rfl
  | some exc =>
      have hresult : run.result = .error exc := by
        unfold AppRun.result
        rw [hraised]
      rw [hresult]
      by_cases hexc : exc.isException = true
      · simp only [hexc, if_true, exec_bind, exec_emit, exec_throw]
      · -- A cancelled request is not `except Exception`'s: nothing is logged behind it.
        simp [hexc]

/-- How a request with an id is handled: the application runs under the id, and everything that
leaves the process on its behalf carries it. -/
structure Correlated (unicodeAlnum : Char → Bool)
    (setHeader : Headers → String → String → Headers) (duration : ℚ) (request : HttpScope)
    (requestId : String) (run : AppRun) (w w' : Watched Exchange Correlation LogEvent) : Prop where
  context : w'.context = w.context
  sent : w'.state.sent = w.state.sent ++ (messagesOf run.steps).map (stamped setHeader requestId)
  header : ∀ status headers, .responseStart status headers ∈
    (messagesOf run.steps).map (stamped setHeader requestId) →
      headers.filter (fun header => decide (header.1 = requestIdHeader))
        = [(requestIdHeader, requestId)]
  emitted : w'.emitted = w.emitted ++ eventsOf run.steps ++
    closing unicodeAlnum duration request run (requestScope w.context requestId)
  closed : ∀ event ∈ closing unicodeAlnum duration request run (requestScope w.context requestId),
    FromRequest requestId event

theorem get?_requestScope (context : Correlation) (requestId : String) :
    (requestScope context requestId).get? "request_id" = some requestId := by
  show (context.insert "request_id" requestId).get? "request_id" = some requestId
  rw [Dict.get?_insert, if_pos rfl]

theorem fromRequest_of_closing {run : AppRun} {requestId : String} {context : Correlation}
    (hrequest : context.get? "request_id" = some requestId) :
    ∀ event ∈ closing unicodeAlnum duration request run context, FromRequest requestId event := by
  unfold closing
  cases run.raised with
  | none => exact List.forall_mem_singleton.mpr (fromRequest_of_scope hrequest (by simp))
  | some exc =>
      dsimp only
      by_cases hexc : exc.isException = true
      · rw [if_pos hexc]
        exact List.forall_mem_singleton.mpr (fromRequest_of_scope hrequest (by simp))
      · rw [if_neg hexc]
        exact fun _ hevent => absurd hevent List.not_mem_nil

/-- Whatever a client puts in its headers and whatever the application does: the request gets a safe
id, the application runs with the id in scope, what it sends goes out in order with the id on each
start of a response, its events are closed by one that carries the id and the status, and the
fields in scope are restored. -/
theorem http_request_is_correlated
    (hset : ∀ headers name value,
      (setHeader headers name value).filter (fun header => decide (header.1 = name))
        = [(name, value)])
    (hhttp : request.type = "http") (w : Watched Exchange Correlation LogEvent) :
    ∃ requestId run, SafeId requestId ∧ app (requestScope w.context requestId) = run ∧
      (requestScope w.context requestId).get? "request_id" = some requestId ∧
      (exec (requestContextMiddleware unicodeAlnum setHeader fresh duration request app) w).1
        = run.result ∧
      Correlated unicodeAlnum setHeader duration request requestId run w
        (exec (requestContextMiddleware unicodeAlnum setHeader fresh duration request app)
          w).2 := by
  refine ⟨resolveRequestId fresh request, _, safe_resolveRequestId fresh request, rfl,
    get?_requestScope _ _, ?_, ?_⟩
  · rw [exec_requestContextMiddleware hhttp w rfl]
  · rw [exec_requestContextMiddleware hhttp w rfl]
    refine ⟨rfl, rfl, ?_, rfl, fromRequest_of_closing (get?_requestScope _ _)⟩
    intro status headers hmem
    obtain ⟨message, _, hstamped⟩ := List.mem_map.mp hmem
    cases message with
    | other type => cases hstamped
    | responseStart status' headers' =>
        obtain ⟨_, rfl⟩ := Message.responseStart.inj hstamped
        exact hset _ _ _

/-- One header in place of all those of its name. -/
def replaceHeader (headers : Headers) (name value : String) : Headers :=
  headers.filter (fun header => decide (header.1 ≠ name)) ++ [(name, value)]

theorem filter_replaceHeader (headers : Headers) (name value : String) :
    (replaceHeader headers name value).filter (fun header => decide (header.1 = name))
      = [(name, value)] := by
  simp [replaceHeader, List.filter_append, List.filter_filter]

/-- A request whose client sends an id of its own, and an application that accepts it. -/
def tracedRequest : HttpScope where
  type := "http"
  method := some "POST"
  path := some "/experiments/e/run-async"
  headers := [(WireText.asciiBytes requestIdHeader, WireText.asciiBytes " client-7 ")]

theorem resolveRequestId_traced (fresh : FreshId) :
    resolveRequestId fresh tracedRequest = "client-7" := by
  with_unfolding_all rfl

/-- The id that is drawn for it. -/
def drawnRequestId : FreshId where
  text := String.ofList (List.replicate 32 'a')
  length := by rw [String.toList_ofList, List.length_replicate]
  hex := by
    intro c hc
    rw [String.toList_ofList] at hc
    obtain rfl := List.eq_of_mem_replicate hc
    exact .inr List.mem_cons_self

/-- What such an application does. -/
def acceptingApp (_ : Correlation) : AppRun where
  steps := [.send (.responseStart 202 []), .send (.other "http.response.body")]
  route := some "/experiments/{experiment_id}/run-async"
  raised := none

/-- A client that waits. -/
def openExchange : Watched Exchange Correlation LogEvent := ⟨⟨500, []⟩, Dict.empty, []⟩

/-- The client's id, without the spaces around it, is the id of the request. -/
theorem traced_request_is_correlated :
    ∃ run, SafeId "client-7" ∧
      acceptingApp (requestScope openExchange.context "client-7") = run ∧
      Correlated (fun _ => false) replaceHeader 0 tracedRequest "client-7" run openExchange
        (exec (requestContextMiddleware (fun _ => false) replaceHeader drawnRequestId 0
          tracedRequest acceptingApp) openExchange).2 := by
  have hhttp : tracedRequest.type = "http" := rfl
  have hrequest : ∃ requestId run, SafeId requestId ∧
      acceptingApp (requestScope openExchange.context requestId) = run ∧ _ ∧ _ ∧
      Correlated (fun _ => false) replaceHeader 0 tracedRequest requestId run openExchange
        (exec (requestContextMiddleware (fun _ => false) replaceHeader drawnRequestId 0
          tracedRequest acceptingApp) openExchange).2 :=
    http_request_is_correlated filter_replaceHeader hhttp openExchange
  obtain ⟨requestId, run, hsafe, hrun, _, _, hcorrelated⟩ := hrequest
  have hid : requestId = "client-7" := by
    have hsent := hcorrelated.sent
    rw [exec_requestContextMiddleware hhttp openExchange rfl, resolveRequestId_traced, ← hrun]
      at hsent
    -- Both texts are the header of the response that went out.
    have hstart : Message.responseStart 202 (replaceHeader [] requestIdHeader "client-7")
        = .responseStart 202 (replaceHeader [] requestIdHeader requestId) :=
      (List.cons.inj hsent).1
    simpa [replaceHeader] using hstart.symm
  subst hid
  exact ⟨run, hsafe, hrun, hcorrelated⟩

end EvalOps.Obs
