import GrServer.SiteRegistry

/-!
# The gate of a site's script

The probe plane serves the script by the token in the query, whatever the host,
and asks for the token of its site when a session is opened.  A site without a
token has no gate.
-/

namespace GrServer

open Text HostLookup

namespace SiteRegistry

/-- `embed_token_enforce`: the flag, or the kind of deployment where it is not set. -/
def embedTokenEnforce (env : String → Option String) : Bool :=
  let mode := lowered (trimmed ((env "EMBED_TOKEN_ENFORCE").getD ""))
  if mode ∈ ["enforce", "1", "true", "yes", "on"] then true
  else if mode ∈ ["warn", "0", "false", "no", "off"] then false
  else
    decide (lowered (trimmed ((env "DEPLOY_ENV").getD "")) ∈ ["lab", "dev", "test", "local"])

inductive PinDecision where
  | allow
  | allowWarn (code : String)
  | deny (code : String)
  deriving DecidableEq

def filled (t : Option String) : Option String := (t.map trimmed).filter fun s => s ≠ ""

def decidePin (grt tokenSiteId : Option String) (legacyEmptyToken enforce : Bool) :
    PinDecision :=
  match filled grt with
  | none =>
      if legacyEmptyToken then .allow
      else if enforce then .deny "embed_token_required"
      else .allowWarn "embed_token_missing"
  | some _ =>
      match filled tokenSiteId with
      | some _ => .allow
      | none =>
          if enforce then .deny "embed_token_invalid" else .allowWarn "embed_token_invalid"

def headerCi (headers : List (String × String)) (name : String) : Option String :=
  (headers.find? fun h => lowered h.1 == lowered name).map Prod.snd

def requestHost (headers : List (String × String)) : String :=
  let first := ((headerCi headers "host").getD "").toList.takeWhile (· ≠ ',')
  String.ofList (toAsciiLowercase ((trim first).takeWhile (· ≠ ':')))

/-- `LIMIT 1`: the first of the rows as they come. -/
def findSiteByEmbedToken (rows : List (String × PublicRow)) (token : String) : Option String :=
  if trimmed token = "" then none
  else (rows.find? fun entry => entry.2.embedToken == trimmed token).map Prod.fst

structure Reads where
  byToken : Bool := true
  byHost : Bool := true
  site : Bool := true

/-- The host is bound to a site that has no token.  `lower` is that of the database. -/
def legacyEmpty (lower : String → String) (t : Tables) (reads : Reads) (host : String) : Bool :=
  let found :=
    if reads.byHost then
      pgDomainByHostname lower (t.domains.entries.map Prod.snd) none host
    else none
  let siteId := (found.map fun f => f.row.siteId).getD ""
  let site := if reads.site then t.published.get? siteId else none
  siteId ≠ "" && site.any fun row => trimmed row.embedToken == ""

structure Refusal where
  status : ℕ := 403
  error : String
  deriving DecidableEq

section Gate

variable (env : String → Option String) (lower : String → String) (reads : Reads)
  (t : Tables) (rows : List (String × PublicRow))

/-- `check_pin`, with the rows of `sites` as a query lists them; `none` serves the script. -/
def checkPin (grt : Option String) (headers : List (String × String)) : Option Refusal :=
  let grt := filled grt
  let tokenSiteId := grt.bind fun tok =>
    if reads.byToken then findSiteByEmbedToken rows tok else none
  let host := requestHost headers
  let legacy := grt.isNone && host ≠ "" && legacyEmpty lower t reads host
  match decidePin grt tokenSiteId legacy (embedTokenEnforce env) with
  | .allow => none
  | .allowWarn _ => none
  | .deny code => some { error := code }

/-- `check_open_token`; `none` lets the session open. -/
def checkOpenToken (siteId : String) (bodyToken queryToken : Option String) : Option Refusal :=
  if siteId = "" then none
  else
    match if reads.site then t.published.get? siteId else none with
    | none => none
    | some row =>
        let expected := trimmed row.embedToken
        if expected = "" then none
        else
          match (filled bodyToken).or (filled queryToken) with
          | some tok =>
              if tok = expected then none else some { error := "embed_token_site_mismatch" }
          | none =>
              if embedTokenEnforce env then some { error := "embed_token_required" } else none

end Gate

end SiteRegistry

end GrServer
