import GrServer.ApiError
import GrServer.TicketLifetime

/-!
# Result and operations credentials

Three gates compare the secrets of a request with the environment: the one of
the operations routes, the one of result reads, and the one of a session's
results, which looks up the site the session is bound to.  They read different
headers and different lists.
-/

namespace GrServer

open Json Text SessionTicket

namespace ResultAuth

abbrev Headers := List (String × String)

/-- The admin database: the digest of a key, and the site of an active backend
key by its digest (`none` also where the query fails). -/
structure AdminHub where
  hashSecret : String → String
  findActiveBackendKey : String → Option String

def header (headers : Headers) (name : String) : Option String :=
  Assoc.find? name headers

def headerCi (headers : Headers) (name : String) : String :=
  (((header headers name).or (header headers (lowered name))).or
    ((headers.find? fun h => eqIgnoreAsciiCase h.1 name).map Prod.snd)).getD ""

def firstHeader (headers : Headers) (names : List String) : String :=
  (names.findSome? (header headers)).getD ""

def stripBearer (auth : String) : Option String :=
  (stripPrefix? auth "Bearer ").or (stripPrefix? auth "bearer ")

section Settings

variable (env : String → Option String)

/-- A variable without its surrounding blanks, or `""`. -/
def setting (name : String) : String := trimmed ((envGet env name).getD "")

def siteEntries : List (String × String) :=
  (splitChar ',' ((envGet env "SITE_RESULT_TOKENS").getD "")).map fun part =>
    match splitOnce ':' part.toList with
    | some (site, tok) => (trimmed (String.ofList site), trimmed (String.ofList tok))
    | none => (trimmed part, "")

def opsAuthRequired : Bool :=
  envFlag env "REQUIRE_OPS_AUTH" ||
    envIsLowered env "DEPLOY_ENV" ["prod", "production", "live"]

/-- The hatches that open the result reads. -/
def openResults : Bool :=
  envIsLowered env "ALLOW_OPEN_RESULTS" ["1", "true", "yes", "on"] ||
    envIsLowered env "REQUIRE_RESULT_TOKEN" ["0", "false", "no", "off", "open"]

end Settings

def opsHeaders : List String :=
  ["x-gr-ops-token", "X-Gr-Ops-Token", "x-gr-result-token", "X-Gr-Result-Token",
    "x-business-token", "X-Business-Token", "x-gr-sdk-key", "X-Gr-Sdk-Key",
    "x-session-token", "X-Session-Token"]

def presentedOpsSecrets (headers : Headers) : List String :=
  let bearer := ((stripBearer (headerCi headers "authorization")).map trimmed).filter (· ≠ "")
  opsHeaders.foldl (fun out k =>
    let v := trimmed (headerCi headers k)
    if v ≠ "" ∧ v ∉ out then out ++ [v] else out) bearer.toList

def opsSecrets (env : String → Option String) : List String :=
  (["OPS_TOKEN", "RESULT_TOKEN"].map (setting env)).filter (· ≠ "") ++
    ((siteEntries env).map Prod.snd).filter (· ≠ "")

def secretMatchesEnv (env : String → Option String) (presented : List String) : Bool :=
  presented.any fun p => (opsSecrets env).any fun a => tokenEq a p

def requireOpsAuth (env : String → Option String) (admin : Option AdminHub)
    (headers : Headers) : Except ApiError Unit :=
  if !opsAuthRequired env then .ok ()
  else if secretMatchesEnv env (presentedOpsSecrets headers) then .ok ()
  else if setting env "OPS_TOKEN" = "" ∧ setting env "RESULT_TOKEN" = "" ∧
      setting env "SITE_RESULT_TOKENS" = "" ∧ admin.isNone then
    .error ⟨503,
      "ops_auth_misconfigured: set GR_OPS_TOKEN or GR_RESULT_TOKEN (or admin hub)"⟩
  else
    .error ⟨401, "ops auth required (X-Gr-Ops-Token / X-Gr-Result-Token / Bearer " ++
      "RESULT_TOKEN / admin session) — set GR_OPS_TOKEN or use result token"⟩

/-- The routes that `dispatch` gates. -/
def opsGated (path : String) : Bool :=
  (startsWith path "/v1/ops/" && path ≠ "/v1/ops/client_event") ||
    startsWith path "/v1/webhook/"

def dispatchGate (env : String → Option String) (admin : Option AdminHub)
    (headers : Headers) (path : String) : Except ApiError Unit :=
  if opsGated path then requireOpsAuth env admin headers else .ok ()

/-! ## Results -/

structure ResultSecrets where
  bearer : String
  businessToken : String
  resultToken : String
  sdkKey : String

def presentedResultSecrets (headers : Headers) : ResultSecrets where
  bearer := (stripBearer (firstHeader headers ["authorization", "Authorization"])).getD ""
  businessToken := firstHeader headers ["x-business-token", "X-Business-Token"]
  resultToken := firstHeader headers
    ["x-gr-result-token", "X-Gr-Result-Token", "x-gr-ops-token", "X-Gr-Ops-Token"]
  sdkKey := firstHeader headers ["x-gr-sdk-key", "X-Gr-Sdk-Key"]

/-- The site a session is bound to: its trimmed, non-empty site id. -/
def boundSite (sessionSiteId : Option String) : Option String :=
  (sessionSiteId.map trimmed).filter (· ≠ "")

def siteVerdict (s : ResultSecrets) (want : Option String) (entry : String × String) :
    Option (Except ApiError Unit) :=
  if entry.2 = "" then none
  else if tokenEq s.sdkKey entry.2 || tokenEq s.businessToken entry.2 ||
      tokenEq s.bearer entry.2 then
    if want.any fun w => entry.1 ≠ "" && entry.1 ≠ w then
      some (.error ⟨403, "result token site mismatch"⟩)
    else some (.ok ())
  else none

def adminVerdict (admin : Option AdminHub) (s : ResultSecrets) (want : Option String) :
    Option (Except ApiError Unit) :=
  if s.sdkKey = "" then none
  else
    admin.bind fun hub =>
      (hub.findActiveBackendKey (hub.hashSecret s.sdkKey)).map fun site =>
        if want.any (site ≠ ·) then .error ⟨403, "sdk key site mismatch"⟩ else .ok ()

def tokenRequired (env : String → Option String) (s : ResultSecrets) : ApiError :=
  if setting env "RESULT_TOKEN" = "" ∧ setting env "SITE_RESULT_TOKENS" = "" ∧ s.bearer = "" ∧
      s.businessToken = "" ∧ s.resultToken = "" ∧ s.sdkKey = "" then
    ⟨503, "result token not configured (set GR_RESULT_TOKEN)"⟩
  else ⟨401, "result token required (GR_RESULT_TOKEN / X-Gr-Sdk-Key) — iss/48 per-tenant"⟩

def requireResultTokenBound (env : String → Option String) (admin : Option AdminHub)
    (headers : Headers) (sessionSiteId : Option String) : Except ApiError Unit :=
  let s := presentedResultSecrets headers
  let expected := setting env "RESULT_TOKEN"
  let want := boundSite sessionSiteId
  if openResults env then .ok ()
  else if expected ≠ "" ∧ (tokenEq s.bearer expected || tokenEq s.businessToken expected ||
      tokenEq s.resultToken expected) then .ok ()
  else
    (((siteEntries env).findSome? (siteVerdict s want)).or (adminVerdict admin s want)).getD
      (.error (tokenRequired env s))

def windowSite (window : Json) : Option String :=
  ((window.pointer ["meta", "site_id"]).bind asStr).filter (· ≠ "")

/-- `window` is the session's window, where it can be read. -/
def requireSessionResultAuth (env : String → Option String) (admin : Option AdminHub)
    (headers : Headers) (window : Option Json) : Except ApiError Unit :=
  requireResultTokenBound env admin headers (window.bind windowSite)

theorem mem_opsSecrets_iff {env : String → Option String} {secret : String} :
    secret ∈ opsSecrets env ↔ secret ≠ "" ∧
      (secret = setting env "OPS_TOKEN" ∨ secret = setting env "RESULT_TOKEN" ∨
        ∃ site, (site, secret) ∈ siteEntries env) := by
  unfold opsSecrets
  rw [List.mem_append, List.mem_filter, List.mem_filter, List.mem_map, List.mem_map]
  generalize siteEntries env = entries
  constructor
  · rintro (⟨⟨name, hname, rfl⟩, hne⟩ | ⟨⟨⟨site, token⟩, hentry, rfl⟩, hne⟩)
    · have hset : name = "OPS_TOKEN" ∨ name = "RESULT_TOKEN" := by
        rwa [List.mem_cons, List.mem_singleton] at hname
      refine ⟨of_decide_eq_true hne, ?_⟩
      cases hset with
      | inl hops => exact Or.inl (by rw [hops])
      | inr hresult => exact Or.inr (Or.inl (by rw [hresult]))
    · exact ⟨of_decide_eq_true hne, Or.inr (Or.inr ⟨site, hentry⟩)⟩
  · rintro ⟨hne, hops | hresult | ⟨site, hentry⟩⟩
    · exact Or.inl ⟨⟨"OPS_TOKEN", by simp only [List.mem_cons, true_or], hops.symm⟩,
        decide_eq_true hne⟩
    · exact Or.inl ⟨⟨"RESULT_TOKEN", by simp only [List.mem_cons, true_or, or_true],
        hresult.symm⟩, decide_eq_true hne⟩
    · exact Or.inr ⟨⟨(site, secret), hentry, rfl⟩, decide_eq_true hne⟩

theorem secretMatchesEnv_iff {env : String → Option String} {presented : List String} :
    secretMatchesEnv env presented = true ↔ ∃ p ∈ presented, p ∈ opsSecrets env := by
  simp [secretMatchesEnv, tokenEq_iff]

theorem requireOpsAuth_eq_ok_iff {env : String → Option String}
    (hops : opsAuthRequired env = true) (admin : Option AdminHub) (headers : Headers) :
    requireOpsAuth env admin headers = .ok () ↔
      ∃ p ∈ presentedOpsSecrets headers, p ∈ opsSecrets env := by
  rw [← secretMatchesEnv_iff]
  unfold requireOpsAuth
  cases secretMatchesEnv env (presentedOpsSecrets headers) with
  | true => simp [hops]
  | false =>
      simp only [hops, Bool.not_true, Bool.false_eq_true, if_false, iff_false]
      split_ifs <;> simp

theorem dispatchGate_eq_ok_iff {env : String → Option String}
    (hops : opsAuthRequired env = true) (admin : Option AdminHub) (headers : Headers)
    (path : String) :
    dispatchGate env admin headers path = .ok () ↔
      (opsGated path = true → ∃ p ∈ presentedOpsSecrets headers, p ∈ opsSecrets env) := by
  unfold dispatchGate
  split_ifs with hgated
  · simp [hgated, requireOpsAuth_eq_ok_iff hops]
  · simp [hgated]

/-! ## Isolation of the result gates -/

/-- Every presented secret that some list accepts is bound to the site `A`. -/
structure OnlyBoundTo (env : String → Option String) (admin : Option AdminHub)
    (headers : Headers) (A : String) : Prop where
  notGlobal : setting env "RESULT_TOKEN" ≠ "" →
    (presentedResultSecrets headers).bearer ≠ setting env "RESULT_TOKEN" ∧
      (presentedResultSecrets headers).businessToken ≠ setting env "RESULT_TOKEN" ∧
      (presentedResultSecrets headers).resultToken ≠ setting env "RESULT_TOKEN"
  siteToken : ∀ entry ∈ siteEntries env, entry.2 ≠ "" →
    (presentedResultSecrets headers).sdkKey = entry.2 ∨
        (presentedResultSecrets headers).businessToken = entry.2 ∨
        (presentedResultSecrets headers).bearer = entry.2 →
      entry.1 = A
  sdkKey : ∀ hub site, admin = some hub →
    hub.findActiveBackendKey (hub.hashSecret (presentedResultSecrets headers).sdkKey) =
        some site →
      site = A

section Isolation

variable {env : String → Option String} {admin : Option AdminHub} {headers : Headers}
  {A B : String}

theorem siteVerdict_ne_ok (hA : A ≠ "") (honly : OnlyBoundTo env admin headers A)
    (hne : B ≠ A) {entry : String × String} (hentry : entry ∈ siteEntries env) :
    siteVerdict (presentedResultSecrets headers) (some B) entry ≠ some (.ok ()) := by
  unfold siteVerdict
  split_ifs with hempty hmatch hsite
  · simp
  · simp
  · have hbound : entry.1 = A := by
      apply honly.siteToken entry hentry hempty
      simpa [tokenEq_iff, or_assoc] using hmatch
    simp [hbound, hA, Ne.symm hne] at hsite
  · simp

theorem adminVerdict_ne_ok (honly : OnlyBoundTo env admin headers A) (hne : B ≠ A) :
    adminVerdict admin (presentedResultSecrets headers) (some B) ≠ some (.ok ()) := by
  unfold adminVerdict
  split_ifs with hempty
  · simp
  · cases hadmin : admin with
    | none => simp
    | some hub =>
        cases hkey : hub.findActiveBackendKey
            (hub.hashSecret (presentedResultSecrets headers).sdkKey) with
        | none => simp [hkey]
        | some site =>
            have hsite := honly.sdkKey hub site hadmin hkey
            simp [hkey, hsite, Ne.symm hne]

theorem requireResultTokenBound_refuses (hA : A ≠ "") (hclosed : openResults env = false)
    (honly : OnlyBoundTo env admin headers A) {sessionSiteId : Option String}
    (hbound : boundSite sessionSiteId = some B) (hne : B ≠ A) :
    requireResultTokenBound env admin headers sessionSiteId ≠ .ok () := by
  intro hok
  unfold requireResultTokenBound at hok
  simp only [hclosed, Bool.false_eq_true, if_false, hbound] at hok
  split_ifs at hok with hglobal
  · obtain ⟨hset, hmatch⟩ := hglobal
    obtain ⟨hbearer, hbusiness, hresult⟩ := honly.notGlobal hset
    simp [tokenEq_iff, hbearer, hbusiness, hresult] at hmatch
  · cases hsite : (siteEntries env).findSome?
        (siteVerdict (presentedResultSecrets headers) (some B)) with
    | some verdict =>
        simp only [hsite, Option.some_or, Option.getD_some] at hok
        obtain ⟨entry, hentry, hverdict⟩ := List.exists_of_findSome?_eq_some hsite
        rw [hok] at hverdict
        exact siteVerdict_ne_ok hA honly hne hentry hverdict
    | none =>
        cases hkey : adminVerdict admin (presentedResultSecrets headers) (some B) with
        | some verdict =>
            simp only [hsite, hkey, Option.none_or, Option.getD_some] at hok
            rw [hok] at hkey
            exact adminVerdict_ne_ok honly hne hkey
        | none => simp [hsite, hkey] at hok

/-- With the hatches closed and operations authorised by secret, a request
whose accepted secrets are all bound to `A` reads no session bound to another
site, and the operations gate decides by the operations secrets alone. -/
theorem result_auth_isolates_sites (hA : A ≠ "") (hclosed : openResults env = false)
    (hops : opsAuthRequired env = true) (honly : OnlyBoundTo env admin headers A) :
    (∀ sessionSiteId B, boundSite sessionSiteId = some B → B ≠ A →
      requireResultTokenBound env admin headers sessionSiteId ≠ .ok ()) ∧
    (∀ window B, boundSite (windowSite window) = some B → B ≠ A →
      requireSessionResultAuth env admin headers (some window) ≠ .ok ()) ∧
    (∀ path, dispatchGate env admin headers path = .ok () ↔
      (opsGated path = true → ∃ p ∈ presentedOpsSecrets headers, p ≠ "" ∧
        (p = setting env "OPS_TOKEN" ∨ p = setting env "RESULT_TOKEN" ∨
          ∃ site, (site, p) ∈ siteEntries env))) := by
  refine ⟨?_, ?_, ?_⟩
  · intro sessionSiteId B hbound hne
    exact requireResultTokenBound_refuses hA hclosed honly hbound hne
  · intro window B hbound hne
    exact requireResultTokenBound_refuses hA hclosed honly hbound hne
  · intro path
    simp only [dispatchGate_eq_ok_iff hops, mem_opsSecrets_iff]

end Isolation

namespace TwoSites

def env (name : String) : Option String :=
  if name = "GR_DEPLOY_ENV" then some "production"
  else if name = "GR_SITE_RESULT_TOKENS" then some "site-a:tok-a,site-b:tok-b"
  else none

def headers : Headers := [("x-gr-sdk-key", "tok-a")]

theorem siteEntries_env : siteEntries env = [("site-a", "tok-a"), ("site-b", "tok-b")] := by
  decide

theorem onlyBoundTo : OnlyBoundTo env none headers "site-a" where
  notGlobal := fun h => absurd (by decide) h
  siteToken := by
    rw [siteEntries_env]
    decide
  sdkKey := by simp

end TwoSites

theorem result_auth_isolates_sites_two_sites :
    requireResultTokenBound TwoSites.env none TwoSites.headers (some "site-b") ≠ .ok () :=
  (result_auth_isolates_sites (by decide) (by decide) (by decide)
    TwoSites.onlyBoundTo).1 (some "site-b") "site-b" (by decide) (by decide)

/-- The token of the first site opens the operations view of every session. -/
theorem site_token_passes_ops_gate :
    opsAuthRequired TwoSites.env = true ∧ openResults TwoSites.env = false ∧
      OnlyBoundTo TwoSites.env none TwoSites.headers "site-a" ∧
      setting TwoSites.env "OPS_TOKEN" = "" ∧ setting TwoSites.env "RESULT_TOKEN" = "" ∧
      opsGated "/v1/ops/session/s1" = true ∧
      dispatchGate TwoSites.env none TwoSites.headers "/v1/ops/session/s1" = .ok () := by
  have hops : opsAuthRequired TwoSites.env = true := by decide
  refine ⟨hops, by decide, TwoSites.onlyBoundTo, by decide,
    by decide, by decide, ?_⟩
  rw [dispatchGate_eq_ok_iff hops, ← secretMatchesEnv_iff]
  intro _
  decide +kernel

end ResultAuth

end GrServer
