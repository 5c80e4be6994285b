import GrServer.Json
import GrServer.MapMerge
import GrServer.Text

/-!
# Merging evidence batches

One batch of a session is merged into the session's field map, into the map of
its source and into the gateway and edge maps.  The verification aggregate adds
floats up; `F64Ops` has the operations of `f64` it uses, and nothing here
depends on what they compute.  `none` is the panic of a source entry that is no
object.
-/

namespace GrServer

open Json Text

namespace EvidenceMerge

def isSurfaceLocalKey (key : String) : Bool :=
  (["behavior_events", "behavior_count", "behavior_early_bound",
    "behavior_pagehide", "pagehide_flush", "rpa_flush_reason", "rpa_idle_flush",
    "rpa_source", "worker_rpa", "page_id", "page_url", "page_rev",
    "sandbox_kind", "nest_depth", "sandbox_triggered", "rpa_surface_ready",
    "rpa_multi_source", "collected_at", "rpa_analyze"]).contains key ||
    startsWith key "behavior_" || startsWith key "rpa_"

def isIdentityPreferMainKey (key : String) : Bool :=
  (["user_agent", "platform", "os_family", "language", "languages", "webdriver",
    "hardware_concurrency", "device_memory", "max_touch_points", "vendor",
    "timezone", "timezone_offset_min", "form_class", "screen_width",
    "screen_height", "architecture", "hw_curve_audio", "hw_curve_webgl",
    "hw_curve_cpu", "webgl_unmasked_renderer", "webgl_unmasked_vendor",
    "webrtc_host_ip_hash", "os_instance_hash", "font_count", "fonts_present",
    "plugins_len", "mime_types_len", "chrome_runtime", "product_sub",
    "app_version"]).contains key ||
    startsWith key "hw_curve_" || startsWith key "hw_audio_" ||
    startsWith key "hw_webgl_"

def isVerifySpotcheckBatch (batchId : String) : Bool :=
  let id := trimmed batchId
  id ≠ "" && startsWith id "R" && containsStr id "spotcheck"

def verifyScoreKeys : List String :=
  ["verify_nonempty_ratio", "verify_exec_ratio", "verify_empty_n",
    "verify_nonempty_n", "verify_ok_n", "verify_probe_ops_n", "verify_exec_n",
    "verify_dim_fail_n"]

/-! ## The verification aggregate -/

/-- The operations of `f64` in use. -/
structure F64Ops (φ : Type) where
  /-- `as_f64` of a number. -/
  ofNum : JsonNum → φ
  /-- `json!` of a float, `null` when it is not finite. -/
  toJson : φ → Json
  zero : φ
  add : φ → φ → φ
  sub : φ → φ → φ
  div : φ → φ → φ
  max : φ → φ → φ
  /-- `0.0 < x`. -/
  positive : φ → Bool

section Aggregate

variable {φ : Type} (F : F64Ops φ)

def f64Field (m : Fields) (key : String) : Option φ :=
  match m.get? key with
  | some (.num n) => some (F.ofNum n)
  | _ => none

def f64Or (m : Fields) (key : String) : φ :=
  (f64Field F m key).getD F.zero

def packIds (fields : Fields) (batchId : String) : List String :=
  let ids := (((fields.get? "verify_agg_pack_ids").bind asArray).getD []).filterMap asStr
  if ids.contains batchId then ids
  else
    let ids := ids ++ [batchId]
    ids.drop (ids.length - 32)

/-- Whether a batch that is not named as a spot check marks itself as one. -/
def isMarkedSpotcheck (batchId : String) (pf : Fields) : Bool :=
  (((pf.get? "verify_role").bind asStr).any (containsStr · "authenticity") ||
    (pf.get? "verify_not_score_material").bind asBool = some true ||
    pf.contains "verify_probe_ops_n") && containsStr batchId "spotcheck"

def verifyRatios (ops empty nonempty ok maxDimFail : φ) : List (String × Json) :=
  [("verify_nonempty_ratio", F.toJson (F.div nonempty ops)),
    ("verify_exec_ratio", F.toJson (F.div ok ops)),
    ("verify_empty_n", F.toJson empty),
    ("verify_nonempty_n", F.toJson nonempty),
    ("verify_ok_n", F.toJson ok),
    ("verify_probe_ops_n", F.toJson ops),
    ("verify_exec_n", F.toJson ops),
    ("verify_dim_fail_n", F.toJson maxDimFail)]

def roleMarkers (pf : Fields) : List (String × Json) :=
  ((pf.get? "verify_not_score_material").map fun _ =>
      ("verify_not_score_material", Json.bool true)).toList ++
    ((pf.get? "verify_role").map fun r => ("verify_role", r)).toList ++
    ((pf.get? "verify_algo").map fun a => ("verify_algo", a)).toList

/-- The entries that add the pack `pf` of `ops` operations to the sums in
`fields`. -/
def aggregateEntries (batchId : String) (pf fields : Fields) (ops : φ) :
    List (String × Json) :=
  let empty := f64Or F pf "verify_empty_n"
  let nonempty := (f64Field F pf "verify_nonempty_n").getD
    (F.max (F.sub ops empty) F.zero)
  let ok := (f64Field F pf "verify_ok_n").getD nonempty
  let dimFail := f64Or F pf "verify_dim_fail_n"
  let packN : ℕ :=
    ((((fields.get? "verify_agg_pack_n").bind asU64).getD 0) + 1) % 2 ^ 64
  let sumOps := F.add (f64Or F fields "verify_agg_ops_n") ops
  let sumEmpty := F.add (f64Or F fields "verify_agg_empty_n") empty
  let sumNonempty := F.add (f64Or F fields "verify_agg_nonempty_n") nonempty
  let sumOk := F.add (f64Or F fields "verify_agg_ok_n") ok
  let maxDimFail := F.max (f64Or F fields "verify_agg_dim_fail_n_max") dimFail
  let sumDimFail := F.add (f64Or F fields "verify_agg_dim_fail_n_sum") dimFail
  [("verify_agg_pack_n", ofInt packN),
    ("verify_agg_ops_n", F.toJson sumOps),
    ("verify_agg_empty_n", F.toJson sumEmpty),
    ("verify_agg_nonempty_n", F.toJson sumNonempty),
    ("verify_agg_ok_n", F.toJson sumOk),
    ("verify_agg_dim_fail_n_max", F.toJson maxDimFail),
    ("verify_agg_dim_fail_n_sum", F.toJson sumDimFail),
    ("verify_aggregate_algo", .str "gr_verify_agg_v1"),
    ("verify_last_pack", .str batchId),
    ("verify_agg_pack_ids", .arr ((packIds fields batchId).map Json.str))] ++
    (if F.positive sumOps then
      verifyRatios F sumOps sumEmpty sumNonempty sumOk maxDimFail
    else []) ++
    roleMarkers pf

def applyVerifySpotcheckAggregate (batchId : String) (pf fields : Fields) : Fields :=
  let ops := ((f64Field F pf "verify_probe_ops_n").or
    (f64Field F pf "verify_exec_n")).getD F.zero
  if ¬ isVerifySpotcheckBatch batchId ∧ ¬ isMarkedSpotcheck batchId pf then fields
  else if ¬ F.positive ops then fields
  else fields.insertEach (aggregateEntries F batchId pf fields ops)

end Aggregate

/-! ## Residual paths -/

def isB10PrimaryResidualPathId (pathId : String) : Bool :=
  let p := lowered pathId
  if containsStr p "ulp" || containsStr p "noderiv_hard" || containsStr p "rint_" then
    false
  else if containsStr p "b10x" || containsStr p "legacy" || containsStr p "softgl" then
    false
  else containsStr p "v3f" || containsStr p "fma_pair"

def isB10xBatchId (batchId : Option String) : Bool :=
  batchId.any fun b => startsWith b "B10x_" || startsWith b "b10x_"

def arrayLen (v : Json) (k : String) : ℕ :=
  (((v.get? k).bind asArray).getD []).length

def residualPathOk (v : Json) : Bool :=
  v.boolOr "ok" && 8 ≤ arrayLen v "curve"

/-- Entropy before success before the lengths of curve and timing. -/
def pathScore (v : Json) : ℕ :=
  (if v.boolOr "entropy_ok" then 1000 else 0) + (if v.boolOr "ok" then 100 else 0) +
    arrayLen v "curve" + arrayLen v "eu_timing_ms"

structure PathTable where
  byId : Fields
  order : List String

def PathTable.keyOf (t : PathTable) (e : Json) : String :=
  let pid := e.strOr "path_id"
  if pid = "" then "anon_" ++ t.byId.entries.length.repr else pid

def PathTable.noted (t : PathTable) (key : String) : List String :=
  if t.byId.contains key then t.order else t.order ++ [key]

def PathTable.addExisting (t : PathTable) (e : Json) : PathTable :=
  let key := t.keyOf e
  { byId := t.byId.insert key e, order := t.noted key }

/-- A deepen batch does not replace a healthy primary path, nor any path a
better one. -/
def PathTable.addIncoming (batchId : Option String) (t : PathTable) (e : Json) :
    PathTable :=
  let key := t.keyOf e
  let existing := t.byId.get? key
  let t := { t with order := t.noted key }
  if isB10xBatchId batchId && isB10PrimaryResidualPathId key &&
      existing.any residualPathOk then t
  else if existing.all fun old => pathScore old ≤ pathScore e then
    { t with byId := t.byId.insert key e }
  else t

def mergeResidualPathsFieldEx (fields : Fields) (incoming : Json)
    (batchId : Option String) : Fields :=
  match incoming.asArray with
  | none => fields
  | some inc =>
      let existing := ((fields.get? "residual_paths").bind asArray).getD []
      let t := existing.foldl PathTable.addExisting ⟨SortedMap.empty, []⟩
      let t := inc.foldl (PathTable.addIncoming batchId) t
      let merged := t.order.filterMap t.byId.get?
      fields.insertEach [
        ("residual_paths", .arr merged),
        ("residual_paths_n", ofInt merged.length)]

/-! ## One batch -/

structure MergeState where
  fields : Fields
  fieldsBySource : Fields
  gatewayFields : Fields
  cfFields : Fields

def MergeState.empty : MergeState where
  fields := SortedMap.empty
  fieldsBySource := SortedMap.empty
  gatewayFields := SortedMap.empty
  cfFields := SortedMap.empty

structure Batch where
  baseSrc : String
  batchId : Option String
  pf : Fields

def Batch.isMain (b : Batch) : Bool :=
  b.baseSrc = "main"

def recordSource (fieldsBySource : Fields) (b : Batch) : Option Fields :=
  let fieldsBySource := fieldsBySource.insertNew b.baseSrc (.obj [])
  ((fieldsBySource.get? b.baseSrc).bind asObject).map fun bucket =>
    fieldsBySource.insert b.baseSrc (ofFields (bucket.insertAll b.pf))

def Batch.isVerify (b : Batch) : Bool :=
  b.batchId.any isVerifySpotcheckBatch ||
    (b.pf.get? "verify_not_score_material").bind asBool = some true

def cfKeys : List String :=
  ["cf_ray", "cf_connecting_ip", "cf_ipcountry", "cf_edge_present", "cf_asn",
    "country", "bot_score"]

def mergeGateway (b : Batch) (s : MergeState) : MergeState :=
  let nested := ((b.pf.get? "cf_fields").bind asObject).getD SortedMap.empty
  let cfFields := s.cfFields.fillAll nested
  { s with
    gatewayFields := s.gatewayFields.insertAll b.pf
    fields := s.fields.fillAll b.pf
    cfFields := cfFields.fillAll (b.pf.filterKeys cfKeys.contains) }

def mergeCloudflare (b : Batch) (s : MergeState) : MergeState :=
  { s with
    cfFields := s.cfFields.insertAll b.pf
    fields := s.fields.fillAll b.pf }

/-- One entry of a batch that is neither gateway nor cloudflare. -/
def mergeField (b : Batch) (fields : Fields) (entry : String × Json) : Fields :=
  let (k, v) := entry
  if b.isVerify && verifyScoreKeys.contains k then fields
  else if k = "residual_paths" then mergeResidualPathsFieldEx fields v b.batchId
  else if isSurfaceLocalKey k && ¬ b.isMain then fields.insertNew k v
  else if isIdentityPreferMainKey k then
    if b.isMain then fields.insert k v else fields.insertNew k v
  else if b.isMain then fields.insert k v
  else fields.insertNew k v

def mergePayload (b : Batch) (s : MergeState) : MergeState :=
  if b.baseSrc = "gateway" then mergeGateway b s
  else if b.baseSrc = "cloudflare" then mergeCloudflare b s
  else { s with fields := b.pf.entries.foldl (mergeField b) s.fields }

def mergeVerify {φ : Type} (F : F64Ops φ) (b : Batch) (fields : Fields) : Fields :=
  match b.batchId with
  | some bid => applyVerifySpotcheckAggregate F bid b.pf fields
  | none =>
      if b.isVerify then
        let bid := ((((b.pf.get? "verify_pack").or (b.pf.get? "pack_id")).or
          (b.pf.get? "dense_pack")).bind asStr).getD "Rxx_spotcheck"
        applyVerifySpotcheckAggregate F bid b.pf fields
      else fields

def edgeKeys : List String :=
  ["gateway_user_agent", "server_client_ip", "http_header_order",
    "cf_edge_present", "tls_ja4", "ja4"]

/-- A convergence claim of a gateway batch, against what the edge has seen. -/
def checkEdge (b : Batch) (gatewayFields fields : Fields) : Fields :=
  if b.batchId.any fun bid => startsWith bid "B8_gateway" || bid = "gateway.b8" then
    let feConverged := (ofFields b.pf).boolOr "post_converge" ||
      (ofFields b.pf).boolOr "b8_enrich" || 2 ≤ arrayLen (ofFields b.pf) "b8_bases"
    let edgeSeen := ¬ gatewayFields.isEmpty || edgeKeys.any fields.contains
    fields.insertEach [
      ("b8_edge_seen", .bool edgeSeen),
      ("b8_converge_without_edge", .bool (feConverged && ¬ edgeSeen))]
  else fields

def nonemptyStr (pf : Fields) (k : String) : Option String :=
  ((pf.get? k).bind asStr).filter (· ≠ "")

/-- Drift of the main source's build stamps; `before` is the version that stood
in the fields when the batch came. -/
def checkFeVersion (b : Batch) (before : Option String) (fields : Fields) : Fields :=
  if b.isMain then
    let fields :=
      match nonemptyStr b.pf "fe_code_version", before with
      | some fv, some prev =>
          if prev ≠ fv then fields.insert "fe_version_changed" (.bool true) else fields
      | some fv, none => fields.insert "fe_code_version" (.str fv)
      | none, _ => fields
    match nonemptyStr b.pf "fe_build_impl", nonemptyStr b.pf "fe_impl_version" with
    | some bi, some ev =>
        if bi ≠ ev then fields.insert "fe_build_mismatch" (.bool true) else fields
    | _, _ => fields
  else fields

def checkNestResidual (b : Batch) (fields : Fields) : Fields :=
  match nonemptyStr b.pf "nest_residual_algo" with
  | some nestAlgo =>
      if b.isMain then fields
      else
        let mainAlgo := (ofFields fields).strOr "residual_algo"
        if mainAlgo = "" then fields.erase "sandbox_residual_algo_match"
        else fields.insert "sandbox_residual_algo_match" (.bool (mainAlgo = nestAlgo))
  | none => fields

def mergeBatchWithId {φ : Type} (F : F64Ops φ) (s : MergeState) (b : Batch) :
    Option MergeState :=
  (recordSource s.fieldsBySource b).map fun fieldsBySource =>
    let feVersionBefore := (s.fields.get? "fe_code_version").bind asStr
    let s := mergePayload b { s with fieldsBySource := fieldsBySource }
    let fields := mergeVerify F b s.fields
    let fields := checkEdge b s.gatewayFields fields
    let fields := checkFeVersion b feVersionBefore fields
    { s with fields := checkNestResidual b fields }

def mergeAll {φ : Type} (F : F64Ops φ) (batches : List Batch) : Option MergeState :=
  batches.foldlM (mergeBatchWithId F) MergeState.empty

end EvidenceMerge

end GrServer
