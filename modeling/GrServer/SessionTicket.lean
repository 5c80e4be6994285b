import GrServer.Json
import GrServer.Text

/-!
# Session cool-down tickets

A ticket is a JSON object whose `ticket` member is a truncated HMAC of a
string joined from four of its other members.  This file has the issuing and
the validating function of the session ticket module; what a holder can do to
an issued object is in `GrServer.TicketLifetime`.

HMAC-SHA256, SHA-256 and the JSON printer are library code and enter as
`TicketCrypto`; the environment is a function from variable names.
-/

namespace GrServer

open Json Text

namespace SessionTicket

def ticketTtlMs : ℤ := 24 * 60 * 60 * 1000

def sessionTicketAlgo : String := "session_ticket_v5_hmac"

def commercialSegAlgo : String := "lane_c_multipath_sig_v10_primary_b10"

def defaultChallengeSecret : String := "gr-lab-challenge-secret-v1"

/-- The library functions a ticket depends on: lower-case hex digests, and
`Value::to_string`. -/
structure TicketCrypto where
  hmacSha256Hex : String → String → String
  sha256Hex : List UInt8 → String
  jsonText : Json → String

/-- The signing key: the first non-blank secret of the chain, else the lab
constant outside production. -/
def ticketKey (env : String → Option String) : Option String :=
  let secret := ["GR_TICKET_SECRET", "GR_SEAL_SECRET", "GR_CHALLENGE_SECRET"].findSome?
    fun var => (env var).bind fun v =>
      if trimmed v = "" then none else some (trimmed v)
  match secret with
  | some key => some key
  | none =>
      let deploy := lowered ((env "GR_DEPLOY_ENV").getD "")
      if deploy = "prod" ∨ deploy = "production" ∨ deploy = "live" then none
      else some defaultChallengeSecret

/-- `st_` and the first 25 hex digits of the MAC. -/
def ticketToken (C : TicketCrypto) (key raw : String) : String :=
  "st_" ++ String.ofList ((C.hmacSha256Hex key raw).toList.take 25)

def tokenEq (a b : String) : Bool :=
  let x := asBytes a
  let y := asBytes b
  if x.length ≠ y.length then false
  else (x.zip y).foldl (fun diff p => diff ||| (p.1 ^^^ p.2)) (0 : UInt8) == 0

def ticketRaw (sessionId fp ver : String) (ts : ℤ) : String :=
  sessionId ++ "|" ++ fp ++ "|" ++ ver ++ "|primary_b10|" ++ ts.repr

/-! ## Materials -/

def numOk (v : Option Json) : Bool := (v.bind asF64).isSome

def curveLenOk (v : Option Json) (min : ℕ) : Bool :=
  match v with
  | some (.arr a) => min ≤ a.length
  | some (.str s) =>
      -- a digest or token is not a full curve
      let t := trimmed s
      t ≠ "" && t ≠ "null" && t ≠ "undefined" && startsWith t "[" &&
        20 < t.utf8ByteSize
  | _ => false

def residualPathCurveOk (p : Json) : Bool :=
  (((p.get? "curve").bind asArray).map fun c => decide (8 ≤ c.length)).getD false &&
    (((p.get? "ok").bind asBool).getD true)

/-- Residual mean or std, and the primary webgl curve. -/
def hasSiliconMaterials (fields : Json) : Bool :=
  match fields.asObject with
  | none => false
  | some fo =>
      let residual := numOk (fo.get? "residual_std") ||
        numOk (fo.get? "residual_mean") ||
        (fo.get? "residual_ok").bind asBool == some true
      let webgl := curveLenOk (fo.get? "hw_curve_webgl") 8 ||
        curveLenOk (fo.get? "webgl_residual_multipath") 8 ||
        (((fo.get? "residual_paths").bind asArray).map
          fun a => a.any residualPathCurveOk).getD false
      residual && webgl

def siliconMaterialKeys : List String :=
  ["form_class", "hardware_concurrency", "device_memory", "timezone",
    "platform", "os_family", "residual_std", "residual_mean",
    "hw_curve_webgl", "hw_curve_audio", "hw_curve_canvas", "hw_webgl_stable",
    "hw_audio_stable", "hw_canvas_stable", "residual_paths", "stack_class",
    "webgl_unmasked_renderer", "webrtc_host_ip_hash_v2",
    "webrtc_host_ip_hash", "ja4h_lite", "ja4l_lite", "os_instance_hash",
    "product_version"]

/-- What the digest absorbs of one material; long dumps are cut after 256
bytes and carry their length. -/
def materialBytes (C : TicketCrypto) (v : Json) : List UInt8 :=
  let s := asBytes (C.jsonText v)
  if 512 < s.length then s.take 256 ++ asBytes ("…" ++ s.length.repr) else s

def siliconMaterialsPreimage (C : TicketCrypto) (fields : Json)
    (deviceId : Option String) : List UInt8 :=
  asBytes "gr_silicon_fp_v4|" ++ asBytes commercialSegAlgo ++ asBytes "|" ++
    (deviceId.map asBytes).getD [] ++
    match fields.asObject with
    | none => []
    | some fo => siliconMaterialKeys.flatMap fun k =>
        asBytes k ++ asBytes "=" ++
          ((fo.get? k).map (materialBytes C)).getD [] ++ asBytes "|"

def siliconMaterialsFingerprint (C : TicketCrypto) (fields : Json)
    (deviceId : Option String) : String :=
  String.ofList
    ((C.sha256Hex (siliconMaterialsPreimage C fields deviceId)).toList.take 24)

def materialFingerprint (C : TicketCrypto) (fields : Json)
    (deviceId : Option String) : String :=
  siliconMaterialsFingerprint C fields deviceId

/-- The `f64` nearest to 0.12, in lowest terms. -/
def breadthCoverage : ℚ :=
  { num := 1080863910568919, den := 9007199254740992, reduced := by decide }

def sessionProbeSufficient (product fields : Json) : Bool :=
  let cov := fun leg => ((product.pointer [leg, "coverage"]).bind asF64).getD 0
  let status := fun leg =>
    ((product.pointer [leg, "status"]).bind asStr).getD "unknown"
  let hits := fun leg =>
    (((product.pointer [leg, "field_hits"]).bind asArray).map List.length).getD 0
  let breadth := decide (breadthCoverage ≤ cov "os") ||
    decide (breadthCoverage ≤ cov "br") ||
    decide (3 ≤ hits "os") || decide (3 ≤ hits "br") ||
    (status "os" ≠ "unknown" && status "br" ≠ "unknown")
  hasSiliconMaterials fields && breadth &&
    !(status "os" = "unknown" && status "br" = "unknown" &&
      hits "os" = 0 && hits "br" = 0)

/-- `i64` addition of the release build. -/
def wrapI64 (n : ℤ) : ℤ := n.bmod (2 ^ 64)

def ticketVersion (product : Json) (productVersion : Option String) : String :=
  let given := (productVersion.map trimmed).filter (· ≠ "")
  let fallback := ((product.get? "product_version").or
    (product.get? "version")).bind asStr
  (given.or fallback).getD ""

/-- `ts` is the time argument, or the clock where the caller passes none.  The
last argument of the source function is a documented contract only. -/
def issueSessionTicketVersionedEx (C : TicketCrypto)
    (env : String → Option String) (sessionId : String)
    (fields product : Json) (ts : ℤ) (productVersion : Option String) :
    Option Json :=
  if ¬ sessionProbeSufficient product fields then none
  else
    let fp := materialFingerprint C fields none
    let ver := ticketVersion product productVersion
    (ticketKey env).map fun key =>
      .obj [
        ("algo", .str sessionTicketAlgo),
        ("commercial_seg_algo", .str commercialSegAlgo),
        ("exp_ms", ofInt (wrapI64 (ts + ticketTtlMs))),
        ("issued_ms", ofInt ts),
        ("material_fingerprint", .str fp),
        ("note", .str "session silicon cooled after B10_hw_curves; page rpa must still run"),
        ("page_probe_required", .bool true),
        ("primary_b10", .bool true),
        ("product_version", .str ver),
        ("session_id", .str sessionId),
        ("silicon_ok", .bool true),
        ("skip_session_probe", .bool true),
        ("ticket", .str (ticketToken C key (ticketRaw sessionId fp ver ts)))]

def richFields (f : Json) : Bool :=
  ((f.asObject).map fun o =>
    o.contains "hw_curve_webgl" || o.contains "residual_std" ||
      o.contains "form_class" || o.contains "webgl_unmasked_renderer").getD false

/-- The last check: present fields must not contradict the fingerprint member.
`none` where the source slices a string inside a character. -/
def validateFields (C : TicketCrypto) (ticket : Json) (fields : Option Json) :
    Option Bool :=
  match fields with
  | none => some true
  | some f =>
      if ¬ hasSiliconMaterials f ∧ richFields f then some false
      else if richFields f then
        match (ticket.get? "material_fingerprint").bind asStr with
        | none => some true
        | some fp =>
            let cur := materialFingerprint C f none
            if 8 ≤ fp.utf8ByteSize ∧ 8 ≤ cur.utf8ByteSize then
              (sliceTo 8 fp.toList).bind fun a =>
                (sliceTo 8 cur.toList).map fun b => decide (a = b)
            else some true
      else some true

/-- The ticket declares silicon, or the fields prove it right now. -/
def siliconDeclared (ticket : Json) (fields : Option Json) : Bool :=
  (ticket.get? "silicon_ok").bind asBool == some true ||
    (fields.map hasSiliconMaterials).getD false

def versionMismatch (ticket : Json) (current : Option String) : Bool :=
  match (current.map trimmed).filter (· ≠ "") with
  | none => false
  | some cur =>
      let ticketVer := trimmed (ticket.strOr "product_version")
      ticketVer ≠ "" && ticketVer ≠ cur

/-- `none` is a panic. -/
def validateSessionTicketEx (C : TicketCrypto) (env : String → Option String)
    (ticket : Json) (sessionId : String) (fields : Option Json) (ts : ℤ)
    (currentProductVersion : Option String) (forceIdentity : Bool) :
    Option Bool :=
  if forceIdentity then some false
  else if ticket.strOr "commercial_seg_algo" ≠ commercialSegAlgo then some false
  else if ¬ ticket.boolOr "primary_b10" ∨
      ticket.strOr "algo" ≠ sessionTicketAlgo then some false
  else
    let tok := ticket.strOr "ticket"
    if ¬ startsWith tok "st_" ∨ tok.utf8ByteSize < 10 then some false
    else
      match ticketKey env with
      | none => some false
      | some key =>
          let tSid := ticket.strOr "session_id"
          let tFp := ticket.strOr "material_fingerprint"
          let tVer := ticket.strOr "product_version"
          let tIssued := ticket.i64Or "issued_ms" 0
          if tSid = "" ∨ tIssued ≤ 0 then some false
          else if ¬ tokenEq (ticketToken C key (ticketRaw tSid tFp tVer tIssued)) tok then
            some false
          else if sessionId ≠ "" ∧ tSid ≠ sessionId then some false
          else
            let exp := ticket.i64Or "exp_ms" 0
            if 0 < exp ∧ exp < ts then some false
            else if ¬ ticket.boolOr "skip_session_probe" then some false
            else if ¬ siliconDeclared ticket fields then some false
            else if versionMismatch ticket currentProductVersion then some false
            else validateFields C ticket fields

end SessionTicket

end GrServer
