import GrServer.GuardedRun
import GrServer.HostLookup
import GrServer.SortedMap

/-!
# Sites of the panel and of the probe plane

A site is written by a request of the panel, statement by statement, in the
control schema, and then copied by a thread of its own into the tables that the
probe plane reads.  Other requests, of this node or of another, come between
any two statements, and so do the copies.  The probe plane serves the script of
a site to whoever brings a token it knows.
-/

namespace GrServer

open Text HostLookup

namespace SiteRegistry

/-! ## Records -/

structure SiteRecord where
  siteId : String
  name : String
  collectEnabled : Bool := true
  edgeMode : String := "dual_domain"
  feLoad : String := "pv"
  uploadIngest : String := "gv"
  rootDomains : List String := []
  embedToken : String := ""
  consentConfirmed : Bool := false
  consentNoticeVersion : String := "v1"
  deriving DecidableEq

def normalizeFeLoad (raw : String) : String :=
  let label := lowered (trimmed raw)
  if label ∈ ["pv", "probe", "cdn", "cross_origin", "dual", "dual_domain", "third_party",
      "third-party", "3p"] then "pv"
  else if label ∈ ["gv", "unified"] then "gv"
  else "first_party"

def normalizeUploadIngest (raw : String) : String :=
  let label := lowered (trimmed raw)
  if label ∈ ["pv", "probe", "cdn", "third_party", "third-party"] then "pv"
  else if label ∈ ["first_party", "first-party", "fp", "g5", "same_origin", "hybrid"] then
    "first_party"
  else "gv"

def rejectProxiedUpload (allowed : Bool) (uploadIngest : String) : Option String :=
  if normalizeUploadIngest uploadIngest ≠ "first_party" then none
  else if allowed then none
  else some "upload_ingest_first_party_forbidden"

def base64Alphabet : List Char :=
  "ABCDEFGHIJKLMNOPQRSTUVWXYZabcdefghijklmnopqrstuvwxyz0123456789-_".toList

def sextet (n : UInt32) : Char := base64Alphabet.getD (n &&& 0x3f).toNat '_'

/-- The sextets that are complete, the lowest `bits` bits kept for the next byte. -/
def drainSextets (acc : UInt32) : ℕ → ℕ → List Char × ℕ
  | 0, bits => ([], bits)
  | fuel + 1, bits =>
      if 6 ≤ bits then
        let rest := drainSextets acc fuel (bits - 6)
        (sextet (acc >>> (bits - 6).toUInt32) :: rest.1, rest.2)
      else ([], bits)

def encodeSextets (acc : UInt32) (bits : ℕ) : List UInt8 → List Char
  | [] => if 0 < bits then [sextet (acc <<< (6 - bits).toUInt32)] else []
  | byte :: bytes =>
      let acc := (acc <<< 8) ||| byte.toUInt32
      let drained := drainSextets acc 2 (bits + 8)
      drained.1 ++ encodeSextets acc drained.2 bytes

def mintEmbedToken (random : List UInt8) : String :=
  "grst_" ++ String.ofList (encodeSextets 0 0 random)

/-! ## The tables -/

structure ControlRow where
  name : String
  collectEnabled : Bool
  edgeMode : String
  feLoad : String
  uploadIngest : String
  embedToken : String
  consentConfirmedAt : ℤ
  consentNoticeVersion : String
  deriving DecidableEq

structure PublicRow where
  name : String
  collectEnabled : Bool
  edgeMode : String
  feLoad : String
  uploadIngest : String
  embedToken : String
  deriving DecidableEq

structure Tables where
  sites : SortedMap String ControlRow := .empty
  /-- `control.root_domains`: the site of a root domain. -/
  roots : SortedMap String String := .empty
  published : SortedMap String PublicRow := .empty
  /-- `public.domains`, by the hostname. -/
  domains : SortedMap String DomainRow := .empty

/-- `CASE WHEN EXCLUDED.embed_token = '' THEN embed_token ELSE EXCLUDED.embed_token END`. -/
def keptToken (old new : String) : String := if new = "" then old else new

/-- The insert of `upsert_site`; an update leaves the consent as it was recorded. -/
def Tables.upsertSite (t : Tables) (site : SiteRecord) (consentAt : ℤ) : Tables :=
  let old := t.sites.get? site.siteId
  { t with
    sites := t.sites.insert site.siteId
      { name := site.name
        collectEnabled := site.collectEnabled
        edgeMode := site.edgeMode
        feLoad := site.feLoad
        uploadIngest := site.uploadIngest
        embedToken := (old.map fun row => keptToken row.embedToken site.embedToken).getD
          site.embedToken
        consentConfirmedAt := (old.map ControlRow.consentConfirmedAt).getD consentAt
        consentNoticeVersion := (old.map ControlRow.consentNoticeVersion).getD
          site.consentNoticeVersion } }

/-- `DELETE FROM control.root_domains WHERE site_id=$1`. -/
def Tables.clearRoots (t : Tables) (siteId : String) : Tables :=
  { t with roots := t.roots.filter fun _ owner => owner != siteId }

/-- `str::trim_start_matches` of a string. -/
def dropPrefixes (p : Text) : ℕ → Text → Text
  | 0, s => s
  | n + 1, s => if p.isPrefixOf s then dropPrefixes p n (s.drop p.length) else s

def normalizeHostname (h : String) : String :=
  let s := toAsciiLowercase ((trim h.toList).rdropWhile (· = '.'))
  let s := dropPrefixes "http://".toList s.length s
  let s := dropPrefixes "https://".toList s.length s
  String.ofList ((s.takeWhile (· ≠ '/')).takeWhile (· ≠ ':'))

/-- The insert of `upsert_site` for one root domain, which another site may have had. -/
def Tables.insertRoot (t : Tables) (siteId root : String) : Tables :=
  { t with roots := t.roots.insert (normalizeHostname root) siteId }

def Tables.deleteSite (t : Tables) (siteId : String) : Tables :=
  { t with sites := t.sites.erase siteId }

/-- The update of `rotate_embed_token`, nothing where there is no such site. -/
def Tables.rotateToken (t : Tables) (siteId token : String) : Option Tables :=
  (t.sites.get? siteId).map fun row =>
    { t with sites := t.sites.insert siteId { row with embedToken := token } }

/-- A row as `list_sites` gives it, read as a record; its roots are another query. -/
def ControlRow.record (row : ControlRow) (siteId : String) : SiteRecord where
  siteId := siteId
  name := row.name
  collectEnabled := row.collectEnabled
  edgeMode := row.edgeMode
  feLoad := row.feLoad
  uploadIngest := row.uploadIngest
  embedToken := row.embedToken
  consentConfirmed := decide (0 < row.consentConfirmedAt)
  consentNoticeVersion := row.consentNoticeVersion

def Tables.rootsOf (t : Tables) (siteId : String) : List String :=
  t.roots.keys.filter fun root => t.roots.get? root == some siteId

/-- The insert of `sync_site_to_probe_admin_pg` in `sites`. -/
def Tables.publish (t : Tables) (site : SiteRecord) : Tables :=
  { t with
    published := t.published.insert site.siteId
      { name := site.name
        collectEnabled := site.collectEnabled
        edgeMode := site.edgeMode
        feLoad := site.feLoad
        uploadIngest := site.uploadIngest
        embedToken := ((t.published.get? site.siteId).map fun row =>
          keptToken row.embedToken site.embedToken).getD site.embedToken } }

/-- Its insert of one host in `domains`.  A host that is there goes to the site, and a new
host whose id another one has is not inserted. -/
def Tables.publishHost (domainId : String → String) (t : Tables) (site : SiteRecord)
    (root : String) (now : ℤ) : Tables :=
  let host := lowered (trimmed root)
  if host = "" then t
  else
    match t.domains.get? host with
    | some row =>
        { t with
          domains := t.domains.insert host
            { row with
              siteId := site.siteId
              collectEnabled := site.collectEnabled
              updatedMs := now } }
    | none =>
        if t.domains.entries.any fun entry => entry.2.domainId == domainId host then t
        else
          { t with
            domains := t.domains.insert host
              { domainId := domainId host
                siteId := site.siteId
                hostname := host
                displayName := site.name
                collectEnabled := site.collectEnabled
                createdMs := now
                updatedMs := now } }

/-! ## Requests of the panel, and copies -/

inductive Request where
  | lookup (site : SiteRecord)
  | token (site : SiteRecord)
  | recheck (site : SiteRecord)
  | write (site : SiteRecord) (known : Bool)
  | clear (site : SiteRecord)
  | root (site : SiteRecord) (host : String) (rest : List String)
  | dropRoots (siteId : String)
  | dropSite (siteId : String)
  | rotate (siteId : String)
  | list (siteId : String) (rotated : Option String)
  | listRoots (site : SiteRecord)
  deriving DecidableEq

def Request.siteId : Request → String
  | .lookup site | .token site | .recheck site | .write site _ | .clear site | .root site _ _
  | .listRoots site => site.siteId
  | .dropRoots siteId | .dropSite siteId | .rotate siteId | .list siteId _ => siteId

inductive Copy where
  | site (site : SiteRecord)
  | host (site : SiteRecord) (name : String) (rest : List String)
  deriving DecidableEq

def Copy.record : Copy → SiteRecord
  | .site s | .host s _ _ => s

def prepared (site : SiteRecord) : SiteRecord :=
  let feLoad := normalizeFeLoad site.feLoad
  let uploadIngest := normalizeUploadIngest site.uploadIngest
  let edgeMode :=
    if (feLoad = "pv" ∨ uploadIngest = "gv") ∧
        (trimmed site.edgeMode = "" ∨ site.edgeMode = "first_party") then "dual_domain"
    else site.edgeMode
  { site with feLoad := feLoad, uploadIngest := uploadIngest, edgeMode := edgeMode }

/-- The handler `upsert_site` once it knows whether the site is new. -/
def admission (allowed : Bool) (site : SiteRecord) (isNew : Bool) (random : List UInt8) :
    Option Request :=
  let site := prepared site
  if (rejectProxiedUpload allowed site.uploadIngest).isSome then none
  else if isNew then
    if site.consentConfirmed then
      some (.recheck
        { site with
          embedToken :=
            if trimmed site.embedToken = "" then mintEmbedToken random else site.embedToken })
    else none
  else if trimmed site.embedToken = "" then some (.token site)
  else some (.recheck site)

abbrev After := Option Request × List Copy

def afterRoots (site : SiteRecord) : List String → After
  | [] => (none, [.site site])
  | host :: rest => (some (.root site host rest), [])

/-- A statement of a request.  A new site is stamped at `now`; `random` goes into its token. -/
def Request.step (allowed : Bool) (t : Tables) (now : ℤ) (random : List UInt8) :
    Request → Tables × After
  | .lookup site => (t, admission allowed site (!t.sites.contains site.siteId) random, [])
  | .token site =>
      (t, some (.recheck
        { site with
          embedToken := ((t.sites.get? site.siteId).map ControlRow.embedToken).getD
            site.embedToken }), [])
  | .recheck site =>
      let known := t.sites.contains site.siteId
      (t, if known || site.consentConfirmed then some (.write site known) else none, [])
  | .write site known => (t.upsertSite site (if known then -1 else now), some (.clear site), [])
  | .clear site => (t.clearRoots site.siteId, afterRoots site site.rootDomains)
  | .root site host rest => (t.insertRoot site.siteId host, afterRoots site rest)
  | .dropRoots siteId => (t.clearRoots siteId, some (.dropSite siteId), [])
  | .dropSite siteId => (t.deleteSite siteId, none, [])
  | .rotate siteId =>
      let token := mintEmbedToken random
      match t.rotateToken siteId token with
      | some t' => (t', some (.list siteId (some token)), [])
      | none => (t, none, [])
  | .list siteId rotated =>
      (t, (t.sites.get? siteId).map fun row =>
        .listRoots
          { row.record siteId with embedToken := rotated.getD row.embedToken }, [])
  | .listRoots site => (t, none, [.site { site with rootDomains := t.rootsOf site.siteId }])

/-- A statement that fails: a lookup that fails counts as a new site, a token that is not
read stays as it came, and any other failure ends the request. -/
def Request.fails (allowed : Bool) (random : List UInt8) : Request → Option Request
  | .lookup s => admission allowed s true random
  | .token s => some (.recheck s)
  | _ => none

def afterHosts (site : SiteRecord) : List String → List Copy
  | [] => []
  | host :: rest => [.host site host rest]

def Copy.step (domainId : String → String) (t : Tables) (now : ℤ) : Copy → Tables × List Copy
  | .site s => (t.publish s, afterHosts s s.rootDomains)
  | .host s name rest => (t.publishHost domainId s name now, afterHosts s rest)

/-- A copy ends where its first insert fails; a host that fails is passed over. -/
def Copy.fails : Copy → List Copy
  | .site _ => []
  | .host s _ rest => afterHosts s rest

structure Registry where
  tables : Tables := {}
  requests : List Request := []
  copies : List Copy := []

inductive Event where
  | upsert (site : SiteRecord)
  /-- A site of the official console, with a token of its own and the owner's consent. -/
  | importSite (siteId name : String) (random : List UInt8)
  | delete (siteId : String)
  | rotate (siteId : String)
  /-- A node that starts copies a site once more. -/
  | backfill (siteId : String)
  | statement (k : ℕ) (now : ℤ) (random : List UInt8)
  | fails (k : ℕ) (random : List UInt8)
  | copy (k : ℕ) (now : ℤ)
  | copyFails (k : ℕ)

def importedRecord (siteId name : String) (random : List UInt8) : SiteRecord where
  siteId := siteId
  name := name
  embedToken := mintEmbedToken random
  rootDomains := [name]
  consentConfirmed := true

section Step

variable (allowed : Bool) (domainId : String → String)

def Registry.statement (s : Registry) (k : ℕ) (r : Request) (now : ℤ) (random : List UInt8) :
    Registry where
  tables := (r.step allowed s.tables now random).1
  requests := (r.step allowed s.tables now random).2.1.toList ++ s.requests.eraseIdx k
  copies := (r.step allowed s.tables now random).2.2 ++ s.copies

def Registry.step (s : Registry) : Event → Registry
  | .upsert site => { s with requests := .lookup site :: s.requests }
  | .importSite siteId name random =>
      { s with requests := .recheck (importedRecord siteId name random) :: s.requests }
  | .delete siteId => { s with requests := .dropRoots siteId :: s.requests }
  | .rotate siteId => { s with requests := .rotate siteId :: s.requests }
  | .backfill siteId => { s with requests := .list siteId none :: s.requests }
  | .statement k now random =>
      (s.requests[k]?.map fun r => s.statement allowed k r now random).getD s
  | .fails k random =>
      (s.requests[k]?.map fun r =>
        { s with
          requests := (r.fails allowed random).toList ++ s.requests.eraseIdx k }).getD s
  | .copy k now =>
      (s.copies[k]?.map fun c =>
        { s with
          tables := (c.step domainId s.tables now).1
          copies := (c.step domainId s.tables now).2 ++ s.copies.eraseIdx k }).getD s
  | .copyFails k =>
      (s.copies[k]?.map fun c =>
        { s with copies := c.fails ++ s.copies.eraseIdx k }).getD s

end Step

end SiteRegistry

end GrServer
