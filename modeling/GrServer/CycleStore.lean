import GrServer.Json
import GrServer.MapMerge
import GrServer.Text

/-!
# Probe cycles of a visitor

The store keeps a row for each visitor terminal and one for each cycle, the keys
of the stored batches and the analyses.  Opening, completing and purging a cycle
rewrite these rows, each under its own guards.
-/

namespace GrServer

open Json Text

namespace CycleStore

/-! ## Rows -/

structure VisitorRow where
  lastComplete : ℤ
  coolUntil : ℤ
  activeCycle : String
  productVersionLast : String

def VisitorRow.absent : VisitorRow := ⟨0, 0, "", ""⟩

structure SessionRow where
  visitor : String
  created : ℤ
  info : Fields

structure BatchKey where
  session : String
  batch : String
  source : String
  deriving DecidableEq

structure Analysis where
  session : String
  rev : ℤ
  created : ℤ
  productVersion : Option String
  result : Fields

inductive Mark where
  | completed (visitor cycle : String) (silicon : Bool)
  | purged (visitor cycle : String)
  deriving DecidableEq

/-- The store.  `journal` lists what completed and purged cycles; no operation
reads it. -/
structure Store where
  visitors : SortedMap String VisitorRow
  sessions : SortedMap String SessionRow
  batches : List BatchKey
  analyses : List Analysis
  journal : List Mark

def Store.empty : Store := ⟨.empty, .empty, [], [], []⟩

structure Config where
  productVersion : String
  coolMs : String → ℤ
  incompleteMs : ℤ
  completeOnCommercialSilicon : Bool
  historyKeep : ℤ

inductive StoreError where
  | notFound (what : String)
  | sessionExpired (what : String)
  | duplicateKey (session : String)
  | outOfReadings
  deriving DecidableEq

/-- One pass through an operation: the clock at its start, a fresh id, and the
clock of the operations it calls. -/
structure Reading where
  now : ℕ
  mint : String
  inner : ℕ

def productVersionFromMeta (info : Fields) : String :=
  (((((info.get? "product_version").or (info.get? "version")).or (info.get? "sdk_v")).bind
    asStr).map trimmed).getD ""

def cycleStatus (info : Fields) : String :=
  ((info.get? "cycle_status").bind asStr).getD "active"

def coolValidForProductVersion (coolUntil now : ℤ) (productVersionLast current : String) : Bool :=
  if coolUntil ≤ now then false
  else if trimmed current = "" then true
  else if trimmed productVersionLast = "" then false
  else trimmed current = trimmed productVersionLast

def cycleCompatible (info : Fields) (current : String) : Bool :=
  if trimmed current = "" then true
  else if productVersionFromMeta info = "" then false
  else productVersionFromMeta info = trimmed current

inductive ReprobeReason where
  | productVersionMismatch
  | missingProductVersionLast
  | cycleVersionMismatch
  | cycleCompleteSuperseded
  | cycleIncompleteExpired

def ReprobeReason.asStr : ReprobeReason → String
  | productVersionMismatch => "product_version_mismatch"
  | missingProductVersionLast => "missing_product_version_last"
  | cycleVersionMismatch => "cycle_version_mismatch"
  | cycleCompleteSuperseded => "cycle_complete_superseded"
  | cycleIncompleteExpired => "cycle_incomplete_expired"

def coolInvalidReason (coolUntil now : ℤ) (productVersionLast current : String) :
    Option ReprobeReason :=
  if coolUntil ≤ now then none
  else if coolValidForProductVersion coolUntil now productVersionLast current then none
  else if trimmed current = "" then none
  else if trimmed productVersionLast = "" then some .missingProductVersionLast
  else some .productVersionMismatch

def forceIdentity (info : Fields) : Bool :=
  (((info.get? "force_identity").or (info.get? "force_reprobe")).bind asBool).getD false

/-! ## Silicon -/

def flagAt (v : Json) (path : List String) : Bool :=
  ((v.pointer path).bind asBool).getD false

def firstStr (v : Json) (paths : List (List String)) : String :=
  ((paths.findSome? v.pointer).bind Json.asStr).getD ""

def digestPath (result : Json) : String :=
  firstStr result [["device", "digest_path"], ["product", "digest_path"], ["digest_path"]]

def resultHasSilicon (result : Json) : Bool :=
  flagAt result ["b10_present"] || containsStr (digestPath result) "real_curves"

def isCommercialDeviceIdStr (id : String) : Bool :=
  ["dv0-", "dv4-", "dv5-", "dv6-", "dh-", "dh_", "dv-", "dv_", "dg-", "dg_"].any (startsWith id)

def resultCommercialIdentityFinal (result : Json) : Bool :=
  let did := firstStr result [["product", "device_id"], ["device", "device_id"], ["device_id"]]
  let tier :=
    firstStr result [["product", "device_tier"], ["device", "device_tier"], ["device_tier"]]
  let multi := (((result.pointer ["product", "multi_segment"]).or
    (result.pointer ["device", "multi_segment"])).bind asBool).getD false
  let commercial := isCommercialDeviceIdStr did || multi || tier = "dh" || tier = "dv" ||
    tier = "multi"
  resultHasSilicon result && commercial &&
    (containsStr (digestPath result) "real_curves" || flagAt result ["b10_present"])

/-- The wrapped result of an analysis, or the analysis itself. -/
def innerResult (last : Json) : Json := (last.get? "result").getD last

def fieldsHaveSilicon (last : Json) : Bool :=
  let fields := ((last.pointer ["result", "fields"]).or (last.get? "fields")).or
    (last.pointer ["device", "materials"]) |>.getD .null
  let residual := ((fields.get? "residual_std").bind asF64).isSome ||
    ((fields.get? "residual_mean").bind asF64).isSome ||
    (fields.get? "residual_ok").bind asBool == some true
  let curves := ((fields.get? "hw_curve_webgl").map fun v => !isNull v).getD false ||
    ((fields.get? "hw_curve_audio").map fun v => !isNull v).getD false
  let digest := firstStr last
    [["result", "device", "digest_path"], ["device", "digest_path"], ["digest_path"]]
  let tier := firstStr last
    [["result", "device", "device_tier"], ["device", "device_tier"], ["device_tier"]]
  (residual || curves) && (containsStr digest "real_curves" || tier = "dh" || tier = "dv")

def lastIdentityHasSilicon (last : Option Json) : Bool :=
  (last.map fun v =>
    resultHasSilicon (innerResult v) || resultCommercialIdentityFinal (innerResult v) ||
      fieldsHaveSilicon v).getD false

def analysisCompletesCycle (cfg : Config) (result : Json) : Bool :=
  let b10Present := flagAt result ["b10_present"] ||
    flagAt result ["cycle_probe_status", "has_b10"] ||
    flagAt result ["identity_coverage", "has_b10"]
  let stop := (((result.pointer ["route_plan", "stop_probe"]).bind asBool).or
    ((result.get? "stop_probe").bind asBool)).getD false
  let cov := (((result.pointer ["coverage", "coverage_complete"]).bind asBool).or
    ((result.pointer ["brain", "coverage", "coverage_complete"]).bind asBool)).getD false
  let commercial := flagAt result ["commercial_identity_final"] ||
    resultCommercialIdentityFinal result
  if !resultHasSilicon result then false
  else if !b10Present && !containsStr (digestPath result) "real_curves" then false
  else if flagAt result ["analysis_terminal"] then true
  else if flagAt result ["brain_schedule_final"] then true
  else if stop && cov then true
  else if !cfg.completeOnCommercialSilicon then false
  else commercial && !flagAt result ["route_plan", "b10x_must_land"]

/-! ## Queries -/

def hasB10 (s : Store) (cycle : String) : Bool :=
  s.batches.any fun b => b.session = cycle && b.batch = "B10_hw_curves"

def latestRow (s : Store) (cycle : String) : Option Analysis :=
  (s.analyses.filter (·.session = cycle)).foldl
    (fun best a => if best.any (a.rev < ·.rev) then best else some a) none

def latestAnalysis (s : Store) (cycle : String) : Option Json :=
  (latestRow s cycle).map fun a =>
    ofFields ((a.result.insert "analysis_rev" (ofInt a.rev)).insert "analyzed_ms"
      (ofInt a.created))

def analysedVersion (s : Store) (cycle : String) : String :=
  let newest := (s.analyses.filter fun a => a.session = cycle && a.productVersion.any (· ≠ "")).foldl
    (fun best a => if best.any (a.created < ·.created) then best else some a) none
  (newest.bind (·.productVersion)).getD ""

def siliconOk (s : Store) (cycle : String) : Bool :=
  lastIdentityHasSilicon (latestAnalysis s cycle) || hasB10 s cycle

def closesCycle (cfg : Config) (s : Store) (cycle : String) : Bool :=
  (latestAnalysis s cycle).any fun last => analysisCompletesCycle cfg (innerResult last)

def upsertVt (s : Store) (vt : String) (row : VisitorRow) : Store :=
  { s with visitors := s.visitors.insert vt row }

def putSession (s : Store) (cycle : String) (row : SessionRow) : Store :=
  { s with sessions := s.sessions.insert cycle row }

def putBatch (s : Store) (key : BatchKey) : Store :=
  if key ∈ s.batches then s else { s with batches := s.batches ++ [key] }

/-- Another recent session of the visitor that has a gateway batch but no main
bootstrap. -/
def hasOrphanB8 (s : Store) (vt target : String) (since : ℤ) : Bool :=
  s.sessions.entries.any fun (sid, row) =>
    row.visitor = vt && sid ≠ target && since ≤ row.created &&
      (s.batches.any fun b => b.session = sid &&
        (b.batch = "B8_gateway" || b.batch = "B8_gateway_early") && b.source = "gateway") &&
      !(s.batches.any fun b => b.session = sid &&
        (b.batch = "B0_bootstrap" || b.batch = "B0") && b.source = "main")

def attachOrphanB8ForVt (s : Store) (vt target : String) (now : ℕ) : Store × Bool :=
  if vt = "" ∨ target = "" then (s, false)
  else if hasOrphanB8 s vt target ((now : ℤ) - 30000) then
    (putBatch s ⟨target, "B8_gateway", "gateway"⟩, true)
  else (s, false)

/-! ## Completing and purging -/

/-- The version a completion stamps: of the analyses, of the meta, of the process. -/
def completedVersion (cfg : Config) (s : Store) (cycle : String) (info : Fields) : String :=
  if analysedVersion s cycle ≠ "" then analysedVersion s cycle
  else if productVersionFromMeta info ≠ "" then productVersionFromMeta info
  else cfg.productVersion

def completedInfo (info : Fields) (now : ℕ) (silicon : Bool) (version : String) : Fields :=
  let info := (((info.insert "cycle_status" (.str "complete")).insert "completed_ms"
    (ofInt now)).insert "skip_session_probe" (.bool silicon)).insert "cool_silicon_ok"
    (.bool silicon)
  let info := if silicon then info
    else info.insert "cool_denied_reason" (.str "complete_without_silicon")
  if version = "" then info else info.insert "product_version" (.str version)

/-- The cool-down that a completion grants: none without silicon. -/
def grantedCool (cfg : Config) (s : Store) (cycle : String) (info : Fields) (now : ℕ) : ℤ :=
  if siliconOk s cycle then
    (now : ℤ) + cfg.coolMs (((info.get? "site_id").bind Json.asStr).getD "")
  else 0

/-- `complete_cycle_inner` on the row of the cycle. -/
def completeRow (cfg : Config) (now : ℕ) (cycle : String) (row : SessionRow) (s : Store) :
    Store :=
  let version := completedVersion cfg s cycle row.info
  let silicon := siliconOk s cycle
  let s' := upsertVt
    (putSession s cycle { row with info := completedInfo row.info now silicon version })
    row.visitor ⟨now, grantedCool cfg s cycle row.info now, cycle, version⟩
  { s' with journal := s.journal ++ [.completed row.visitor cycle silicon] }

def completeCycle (cfg : Config) (now : ℕ) (cycle : String) (s : Store) :
    Except StoreError Store :=
  match s.sessions.get? cycle with
  | none => .error (.notFound ("cycle " ++ cycle))
  | some row => .ok (completeRow cfg now cycle row s)

def withoutEvidence (s : Store) (cycle : String) : Store :=
  { s with
    batches := s.batches.filter (·.session ≠ cycle)
    analyses := s.analyses.filter (·.session ≠ cycle) }

def forgetActive (s : Store) (vt cycle : String) : Store :=
  match s.visitors.get? vt with
  | none => s
  | some v => if v.activeCycle = cycle then upsertVt s vt { v with activeCycle := "" } else s

def purgedInfo (info : Fields) (now : ℕ) : Fields :=
  (info.insert "cycle_status" (.str "purged")).insert "purged_ms" (ofInt now)

def purgeCycleEvidence (now : ℕ) (cycle : String) (s : Store) : Store :=
  let s' := withoutEvidence s cycle
  match s.sessions.get? cycle with
  | none => s'
  | some row =>
      let s' := putSession s' cycle { row with info := purgedInfo row.info now }
      let s' := { s' with journal := s.journal ++ [.purged row.visitor cycle] }
      if row.visitor = "" then s' else forgetActive s' row.visitor cycle

structure Window where
  status : String
  age : ℤ
  active : Bool
  expiredReason : String

def sessionWindow (cfg : Config) (now : ℕ) (session : String) (s : Store) :
    Except StoreError Window :=
  match s.sessions.get? session with
  | none => .error (.notFound ("session " ++ session))
  | some row =>
      let status := cycleStatus row.info
      let age := now - row.created
      .ok (if status = "complete" then ⟨status, age, false, "cycle_complete"⟩
        else if status = "purged" then ⟨status, age, false, "cycle_purged"⟩
        else if cfg.incompleteMs < age then ⟨status, age, false, "incomplete_ttl"⟩
        else ⟨status, age, true, ""⟩)

def requireActiveSession (cfg : Config) (now : ℕ) (session : String) (s : Store) :
    Except StoreError Window := do
  let w ← sessionWindow cfg now session s
  if w.active then return w
  else throw (.sessionExpired (session ++ " (" ++ w.expiredReason ++ ")"))

def upsertBatch (cfg : Config) (now : ℕ) (key : BatchKey) (s : Store) :
    Except StoreError Store := do
  let _ ← requireActiveSession cfg now key.session s
  if (s.sessions.get? key.session).isNone then throw (.notFound ("session " ++ key.session))
  else return putBatch s key

/-- `COALESCE(MAX(rev), 0) + 1`. -/
def nextRev (s : Store) (session : String) : ℤ :=
  (latestRow s session).elim 0 (·.rev) + 1

def saveAnalysis (cfg : Config) (now created : ℕ) (session : String)
    (productVersion : Option String) (result : Fields) (s : Store) : Except StoreError Store := do
  let _ ← requireActiveSession cfg now session s
  let rev := nextRev s session
  let rows := s.analyses ++ [⟨session, rev, created, productVersion, result⟩]
  return { s with
    analyses := if cfg.historyKeep < rev then
        rows.filter fun a => !(a.session = session && a.rev ≤ rev - cfg.historyKeep)
      else rows }

end CycleStore

end GrServer
