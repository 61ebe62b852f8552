import EvalOps.Dashboard.Proxy
import EvalOps.Security

/-!
# `EvalOps.Proofs.Security`: who is let in

* `production_api_is_authenticated`: an API that starts in production lets a request through exactly
  when it brings the key.
* `proxy_decides_the_credential`: through the dashboard's server every request brings the key that
  the server has, whatever the browser sends.
-/

set_option autoImplicit false

namespace EvalOps.Security

open Dashboard Effect Obs Watched

variable {unicodeAlnum : Char → Bool} {environ : String → Option String}

/-! ### The API -/

theorem compareDigest_eq_true_iff {a b : String} :
    compareDigest a b = .ok true ↔ a = b ∧ ∀ c ∈ b.toList, c.toNat < 128 := by
  unfold compareDigest
  constructor
  · intro h
    split at h
    · rename_i hascii
      have hab : a = b := of_decide_eq_true (Except.ok.inj h)
      refine ⟨hab, fun c hc => ?_⟩
      exact of_decide_eq_true (List.all_eq_true.mp hascii c (List.mem_append_right _ hc))
    · cases h
  · rintro ⟨rfl, hascii⟩
    rw [if_pos (List.all_eq_true.mpr ?_), decide_eq_true rfl]
    · rfl
    · intro c hc
      rw [List.mem_append, or_self] at hc
      exact decide_eq_true (hascii c hc)

/-- A request that brings the key as a bearer is let through, and nothing is logged. -/
theorem exec_requireApiKey_of_key {given : Credentials}
    (hkey : (SecuritySettings.fromEnv environ).apiKey = some given.credentials)
    (hscheme : WireText.lower given.scheme = "bearer")
    (hascii : ∀ c ∈ given.credentials.toList, c.toNat < 128)
    (w : Watched Exchange Correlation LogEvent) :
    exec (requireApiKey unicodeAlnum environ (some given)) w = (.ok (), w) := by
  unfold requireApiKey
  rw [hkey]
  dsimp only
  rw [if_neg (not_not.mpr hscheme), compareDigest_eq_true_iff.mpr ⟨rfl, hascii⟩]
  rfl

/-- With a key, a request is let through exactly when it brings the key as a bearer. -/
theorem requireApiKey_ok_iff {configured : String}
    (hkey : (SecuritySettings.fromEnv environ).apiKey = some configured)
    (credentials : Option Credentials) (w : Watched Exchange Correlation LogEvent) :
    (exec (requireApiKey unicodeAlnum environ credentials) w).1 = .ok () ↔
      ∃ given, credentials = some given ∧ WireText.lower given.scheme = "bearer" ∧
        given.credentials = configured ∧ ∀ c ∈ configured.toList, c.toNat < 128 := by
  constructor
  · intro h
    unfold requireApiKey at h
    rw [hkey] at h
    cases credentials with
    | none => cases h
    | some given =>
        dsimp only at h
        by_cases hscheme : WireText.lower given.scheme = "bearer"
        · rw [if_neg (not_not.mpr hscheme), exec_bind, exec_lift] at h
          cases hsame : compareDigest given.credentials configured with
          | error e =>
              -- The comparison itself raises when either text is beyond ASCII.
              rw [hsame] at h
              cases h
          | ok same =>
              cases same with
              | false =>
                  rw [hsame] at h
                  cases h
              | true => exact ⟨given, rfl, hscheme, compareDigest_eq_true_iff.mp hsame⟩
        · rw [if_pos hscheme] at h
          cases h
  · rintro ⟨given, rfl, hscheme, rfl, hascii⟩
    rw [exec_requireApiKey_of_key hkey hscheme hascii]

/-- A production API that starts has a key, shows no documentation, and lets a request through to a
protected route exactly when it brings that key. -/
theorem production_api_is_authenticated (unicodeAlnum : Char → Bool) {surface : ApiSurface}
    (hproduction : environ "EVALOPS_ENV" = some "production")
    (h : createApp environ = .ok surface) :
    surface.docsUrl = none ∧ surface.redocUrl = none ∧ surface.openapiUrl = none ∧
    ∃ key, environ "EVALOPS_API_KEY" = some key ∧ PyText.isBlank key = false ∧
      ∀ (credentials : Option Credentials) (w : Watched Exchange Correlation LogEvent),
        (exec (requireApiKey unicodeAlnum environ credentials) w).1 = .ok () ↔
          ∃ given, credentials = some given ∧ WireText.lower given.scheme = "bearer" ∧
            given.credentials = key ∧ ∀ c ∈ key.toList, c.toNat < 128 := by
  unfold createApp at h
  rw [hproduction, Option.getD_some] at h
  obtain ⟨_, hvalid, h⟩ := ExceptRules.bind_eq_ok.mp h
  cases h
  refine ⟨rfl, rfl, rfl, ?_⟩
  cases hkey : (SecuritySettings.fromEnv environ).apiKey with
  | none =>
      -- Without a key the startup check raises in production.
      unfold validateProductionConfig at hvalid
      rw [if_pos ⟨rfl, hkey⟩] at hvalid
      cases hvalid
  | some key =>
      obtain ⟨hset, hblank⟩ := Option.filter_eq_some_iff.mp hkey
      exact ⟨key, hset, by simpa using hblank, requireApiKey_ok_iff hkey⟩

/-- A production environment with a key. -/
def productionEnviron (name : String) : Option String :=
  if name = "EVALOPS_ENV" then some "production"
  else if name = "EVALOPS_API_KEY" then some "k"
  else none

theorem production_with_key_is_authenticated :
    ∃ key, productionEnviron "EVALOPS_API_KEY" = some key ∧ PyText.isBlank key = false ∧
      ∀ (credentials : Option Credentials) (w : Watched Exchange Correlation LogEvent),
        (exec (requireApiKey (fun _ => false) productionEnviron credentials) w).1 = .ok () ↔
          ∃ given, credentials = some given ∧ WireText.lower given.scheme = "bearer" ∧
            given.credentials = key ∧ ∀ c ∈ key.toList, c.toNat < 128 := by
  have hproduction : productionEnviron "EVALOPS_ENV" = some "production" := rfl
  have hstart : createApp productionEnviron = .ok ⟨none, none, none, []⟩ := by rfl
  obtain ⟨_, _, _, hkey⟩ :=
    production_api_is_authenticated (fun _ => false) hproduction hstart
  exact hkey

/-! ### The proxy -/

/-- A key of visible ASCII characters. -/
structure VisibleKey (key : String) : Prop where
  nonempty : key.toList ≠ []
  visible : ∀ c ∈ key.toList, 33 ≤ c.toNat ∧ c.toNat ≤ 126

namespace VisibleKey

variable {key : String}

theorem ne_of_toNat_lt {c d : Char} (h : d.toNat < c.toNat) : c ≠ d := by
  rintro rfl
  exact lt_irrefl _ h

theorem not_httpSpace {c : Char} (h : 33 ≤ c.toNat) : isHttpSpace c = false := by
  unfold isHttpSpace
  have hne : ∀ d : Char, d.toNat < 33 → c ≠ d := fun d hd => ne_of_toNat_lt (hd.trans_le h)
  simp [hne '\t' (by decide), hne '\n' (by decide), hne '\r' (by decide), hne ' ' (by decide)]

theorem not_space {c : Char} (h : 33 ≤ c.toNat) (h' : c.toNat ≤ 126) :
    PyText.isSpace c = false := by
  unfold PyText.isSpace
  simp
  omega

theorem isBlank (h : VisibleKey key) : PyText.isBlank key = false := by
  obtain ⟨c, hc⟩ := List.exists_mem_of_ne_nil _ h.nonempty
  obtain ⟨hlow, hhigh⟩ := h.visible c hc
  exact PyText.isBlank_eq_false_of_mem hc (not_space hlow hhigh)

/-- The header's value is already as `Headers` keeps it. -/
theorem trim_bearer (h : VisibleKey key) :
    Trimming.trim isHttpSpace ("Bearer " ++ key).toList = ("Bearer " ++ key).toList := by
  have hlast := h.visible _ (List.getLast_mem h.nonempty)
  -- The first and the last character stay, so `trim` finds nothing at either end.
  have hsplit : ("Bearer " ++ key).toList
      = [] ++ 'B' :: (("earer ".toList ++ key.toList.dropLast) ++
          key.toList.getLast h.nonempty :: []) := by
    rw [String.toList_append, List.append_assoc, List.dropLast_append_getLast]
    rfl
  rw [hsplit, Trimming.trim_between (fun _ hx => absurd hx List.not_mem_nil)
    (fun _ hx => absurd hx List.not_mem_nil) rfl (not_httpSpace hlast.1)]
  rfl

theorem range_bearer : ∀ c ∈ "Bearer ".toList, 32 ≤ c.toNat ∧ c.toNat ≤ 126 := by
  have hchars : "Bearer ".toList = ['B', 'e', 'a', 'r', 'e', 'r', ' '] := rfl
  intro c hc
  rw [hchars] at hc
  simp only [List.mem_cons, List.not_mem_nil, or_false] at hc
  rcases hc with rfl | rfl | rfl | rfl | rfl | rfl | rfl <;> decide

theorem set_bearer (h : VisibleKey key) (headers : FetchHeaders) :
    headers.set "authorization" ("Bearer " ++ key)
      = some (headers.filter (fun header => decide (WireText.lower header.1 ≠ "authorization")) ++
          [("authorization", "Bearer " ++ key)]) := by
  unfold FetchHeaders.set
  dsimp only
  rw [h.trim_bearer, String.ofList_toList, if_pos]
  rw [List.all_eq_true, String.toList_append]
  intro c hc
  have hrange : 32 ≤ c.toNat ∧ c.toNat ≤ 126 := by
    rcases List.mem_append.mp hc with hc | hc
    · exact range_bearer c hc
    · have hvisible := h.visible c hc
      omega
  have hne : ∀ d : Char, d.toNat < 32 → c ≠ d :=
    fun d hd => ne_of_toNat_lt (hd.trans_le hrange.1)
  have hnull : c.toNat ≠ 0 := by omega
  have hbyte : c.toNat ≤ 255 := by omega
  simp [hne '\n' (by decide), hne '\r' (by decide), hnull, hbyte]

end VisibleKey

/-- The headers that name a credential. -/
def authorizationsOf (headers : FetchHeaders) : FetchHeaders :=
  headers.filter fun header => decide (WireText.lower header.1 = "authorization")

/-- The headers beside those that name a credential. -/
def withoutAuthorization (headers : FetchHeaders) : FetchHeaders :=
  headers.filter fun header => decide (WireText.lower header.1 ≠ "authorization")

/-- `request.headers.get("Authorization")`. -/
def authorizationOf (headers : FetchHeaders) : Option String :=
  (headers.find? fun header => decide (WireText.lower header.1 = "authorization")).map Prod.snd

theorem lower_authorization : WireText.lower "authorization" = "authorization" := by decide

theorem ne_of_mem_filteredHeaders {source : FetchHeaders} {header : String × String}
    (h : header ∈ filteredHeaders source stripFromRequest) :
    WireText.lower header.1 ≠ "authorization" := by
  intro hname
  have hstrip := of_decide_eq_true (List.mem_filter.mp h).2
  rw [hname] at hstrip
  exact hstrip (by simp [stripFromRequest])

theorem authorizationsOf_filteredHeaders (source : FetchHeaders) :
    authorizationsOf (filteredHeaders source stripFromRequest) = [] :=
  List.filter_eq_nil_iff.mpr fun header h => by simpa using ne_of_mem_filteredHeaders h

theorem authorizationsOf_append (source : FetchHeaders) (value : String) :
    authorizationsOf (filteredHeaders source stripFromRequest ++ [("authorization", value)])
      = [("authorization", value)] := by
  have hfront := authorizationsOf_filteredHeaders source
  unfold authorizationsOf at hfront ⊢
  rw [List.filter_append, hfront]
  simp [lower_authorization]

/-- The API reads the first credential. -/
theorem authorizationOf_eq (headers : FetchHeaders) :
    authorizationOf headers = (authorizationsOf headers).head?.map Prod.snd := by
  unfold authorizationOf authorizationsOf
  rw [List.head?_filter]

/-- What the browser says about its authorization is dropped. -/
theorem filteredHeaders_filter (source : FetchHeaders) :
    filteredHeaders (withoutAuthorization source) stripFromRequest
      = filteredHeaders source stripFromRequest := by
  unfold filteredHeaders withoutAuthorization
  rw [List.filter_filter]
  refine List.filter_congr fun header _ => ?_
  by_cases hname : WireText.lower header.1 = "authorization"
  · simp [hname, stripFromRequest]
  · simp [hname]

theorem upstreamHeaders_of_key {key : String} (hkey : VisibleKey key) (target : Option String)
    (request : ProxyRequest) :
    upstreamHeaders ⟨target, some key⟩ request
      = some (filteredHeaders request.headers stripFromRequest ++
          [("authorization", "Bearer " ++ key)]) := by
  have hne : key ≠ "" := by
    rintro rfl
    exact hkey.nonempty rfl
  have hkept : (filteredHeaders request.headers stripFromRequest).filter
      (fun header => decide (WireText.lower header.1 ≠ "authorization"))
        = filteredHeaders request.headers stripFromRequest :=
    List.filter_eq_self.mpr fun header h => decide_eq_true (ne_of_mem_filteredHeaders h)
  unfold upstreamHeaders
  dsimp only
  rw [if_neg hne, hkey.set_bearer, hkept]

/-- Without a key, the headers are those of the browser that are not dropped. -/
theorem upstreamHeaders_of_no_key {apiKey : Option String} (hkey : apiKey.getD "" = "")
    (target : Option String) (request : ProxyRequest) :
    upstreamHeaders ⟨target, apiKey⟩ request
      = some (filteredHeaders request.headers stripFromRequest) := by
  cases apiKey with
  | none => rfl
  | some key =>
      obtain rfl : key = "" := hkey
      rfl

/-- The dashboard's server with the key of the API. Whatever a browser sends, its own authorization
is dropped and the key is put in its place, so the API lets the request through, which is sent
wherever the target is a URL. Two requests that differ in their authorization only are answered
alike, and a server without a key sends none. -/
theorem proxy_decides_the_credential (unicodeAlnum : Char → Bool) (newUrl : String → Option Url)
    (encodeURIComponent : String → String) {key : String} (hkey : VisibleKey key)
    (hapi : environ "EVALOPS_API_KEY" = some key) {bearer : Option String → Option Credentials}
    (hbearer : bearer (some ("Bearer " ++ key)) = some ⟨"Bearer", key⟩) (target : Option String)
    (fetch : UpstreamRequest → Option UpstreamResponse) (request : ProxyRequest) :
    (∃ headers, upstreamHeaders ⟨target, some key⟩ request = some headers ∧
      (handle newUrl encodeURIComponent ⟨target, some key⟩ fetch request
        = (upstreamUrl newUrl encodeURIComponent ⟨target, some key⟩ request.path
            request.search).map fun url =>
              answerBrowser (fetch (upstreamRequest request url headers))) ∧
      authorizationsOf headers = [("authorization", "Bearer " ++ key)] ∧
      withoutAuthorization headers = filteredHeaders request.headers stripFromRequest ∧
      ∀ w : Watched Exchange Correlation LogEvent,
        exec (requireApiKey unicodeAlnum environ (bearer (authorizationOf headers))) w
          = (.ok (), w)) ∧
    (∀ (env : ProxyEnv) (headers : FetchHeaders),
      withoutAuthorization headers = withoutAuthorization request.headers →
      handle newUrl encodeURIComponent env fetch { request with headers }
        = handle newUrl encodeURIComponent env fetch request) ∧
    ∀ apiKey : Option String, apiKey.getD "" = "" →
      ∃ headers, upstreamHeaders ⟨target, apiKey⟩ request = some headers ∧
        authorizationsOf headers = [] := by
  refine ⟨⟨_, upstreamHeaders_of_key hkey target request, ?_, authorizationsOf_append _ _, ?_, ?_⟩,
    ?_, fun apiKey hnone => ⟨_, upstreamHeaders_of_no_key hnone target request,
      authorizationsOf_filteredHeaders _⟩⟩
  · unfold handle
    rw [upstreamHeaders_of_key hkey]
    cases upstreamUrl newUrl encodeURIComponent ⟨target, some key⟩ request.path request.search <;>
      rfl
  · unfold withoutAuthorization
    rw [List.filter_append, List.filter_eq_self.mpr
      fun header h => decide_eq_true (ne_of_mem_filteredHeaders h)]
    simp [lower_authorization]
  · intro w
    have hset : (SecuritySettings.fromEnv environ).apiKey = some key :=
      Option.filter_eq_some_iff.mpr ⟨hapi, by rw [hkey.isBlank]; rfl⟩
    have hascii : ∀ c ∈ key.toList, c.toNat < 128 := by
      intro c hc
      have hvisible := hkey.visible c hc
      omega
    have hlower : WireText.lower "Bearer" = "bearer" := by decide
    have hread : authorizationOf (filteredHeaders request.headers stripFromRequest ++
        [("authorization", "Bearer " ++ key)]) = some ("Bearer " ++ key) := by
      rw [authorizationOf_eq, authorizationsOf_append]
      rfl
    rw [hread, hbearer]
    exact exec_requireApiKey_of_key hset hlower hascii w
  · -- The handler reads the headers only behind the filter, which drops the difference.
    intro env headers hsame
    have hheaders : filteredHeaders headers stripFromRequest
        = filteredHeaders request.headers stripFromRequest := by
      rw [← filteredHeaders_filter headers, hsame, filteredHeaders_filter]
    unfold handle upstreamHeaders upstreamRequest
    rw [hheaders]

/-- `HTTPBearer`, which splits at the first space. -/
def httpBearer (authorization : Option String) : Option Credentials := do
  let header ← authorization
  let scheme := header.toList.takeWhile fun c => decide (c ≠ ' ')
  let rest := (header.toList.dropWhile fun c => decide (c ≠ ' ')).drop 1
  if scheme = [] ∨ rest = [] then none
  else if WireText.lower (String.ofList scheme) ≠ "bearer" then none
  else pure ⟨String.ofList scheme, String.ofList rest⟩

/-- A request that brings a credential of its own. -/
def forgedRequest : ProxyRequest :=
  ⟨"GET", ["projects"], "", [("authorization", "Bearer forged"), ("accept", "*/*")], none⟩

theorem visibleKey_k : VisibleKey "k" where
  nonempty := by decide
  visible := by
    intro c hc
    obtain rfl : c = 'k' := List.mem_singleton.mp hc
    decide

/-- A parser that knows one target. -/
def oneTarget (text : String) : Option Url :=
  if text = defaultApiProxyTarget then some ⟨text, "/", ""⟩ else none

/-- The key of the server replaces the one that the browser made up, and the request is sent to the
default target. -/
theorem proxy_decides_the_forged_credential :
    ∃ headers, upstreamHeaders ⟨none, some "k"⟩ forgedRequest = some headers ∧
      handle oneTarget (fun text => text) ⟨none, some "k"⟩ (fun _ => some ⟨200, "OK", [], []⟩)
          forgedRequest
        = some (.forwarded ⟨200, "OK", [], []⟩) ∧
      authorizationsOf headers = [("authorization", "Bearer " ++ "k")] ∧
      ∀ w : Watched Exchange Correlation LogEvent,
        exec (requireApiKey (fun _ => false) productionEnviron
          (httpBearer (authorizationOf headers))) w = (.ok (), w) := by
  have hset : productionEnviron "EVALOPS_API_KEY" = some "k" := rfl
  have hbearer : httpBearer (some ("Bearer " ++ "k")) = some ⟨"Bearer", "k"⟩ := by rfl
  obtain ⟨⟨headers, hheaders, hanswer, honly, _, hlet⟩, _⟩ :=
    proxy_decides_the_credential (fun _ => false) oneTarget (fun text => text) visibleKey_k hset
      hbearer none (fun _ => some ⟨200, "OK", [], []⟩) forgedRequest
  exact ⟨headers, hheaders, hanswer, honly, hlet⟩

end EvalOps.Security
