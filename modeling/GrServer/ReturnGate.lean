import GrServer.MapMerge
import GrServer.Json
import GrServer.Text

/-!
# The return gate and the slim response

A product is annotated with the decision whether its identity may be returned,
and a slim projection for the SDK is attached to it.  The browser's response is
a second allowlist over the whole result.
-/

namespace GrServer

open Json Text

namespace ReturnGate

def jsonOf (v : Option Json) : Json := v.getD .null

def record (entries : List (String × Json)) : Json := ofFields (SortedMap.ofEntries entries)

def digestBlock (block : Json) (keys : List String) (constants : List (String × Json)) : Json :=
  record ((keys.map fun k => (k, jsonOf (block.get? k))) ++ constants)

/-! ## The projection -/

def scoreKeys : List String := ["score", "status", "coverage", "environment_flags"]

def scoreOnly (product : Json) (axis : String) : Json :=
  jsonOf ((product.get? axis).map fun a => digestBlock a scoreKeys [])

def behaviorSelfSim (b : Json) : Json :=
  digestBlock b ["algo", "dim", "profile_digest", "vec32"]
    [("promote_to_commercial_id", .bool false)]

def shadowScore (s : Json) : Json :=
  digestBlock s ["algo", "shadow_risk", "shadow_safety"] [("drives_production_gate", .bool false)]

def canaryModel (c : Json) : Json :=
  digestBlock c ["algo", "signals_agree", "delta_shadow_minus_prod", "bucket_hint"]
    [("traffic_split_active", .bool false), ("drives_production_gate", .bool false)]

def claimObsGraph (g : Json) : Json :=
  digestBlock g ["algo", "n_conflict", "engine_claim", "engine_obs"] []

def ja4hLite (j : Json) : Json :=
  digestBlock j ["algo", "present", "ja4h_lite"] [("commercial_mint", .bool false)]

def associationLadder (l : Json) : Json :=
  digestBlock l
    ["association_level", "claims_host_silicon", "continuity_band", "host_separator"] []

/-- What the projection has of the product whatever the decision. -/
def slimEntries (product : Json) (emitIdentity : Bool) : List (String × Json) :=
  [("algo", .str "sdk_slim_projection_v1"),
    ("emit_identity", .bool emitIdentity),
    ("product_version", jsonOf (product.get? "product_version")),
    ("cookie_fields", jsonOf (product.get? "cookie_fields")),
    ("peer_similarity", jsonOf (product.get? "peer_similarity")),
    ("homogenization", jsonOf (product.get? "homogenization")),
    ("environment_homogeneity", jsonOf ((product.get? "environment_homogeneity").or
      (product.pointer ["homogenization", "environment_homogeneity"]))),
    ("rpa_bands", jsonOf (product.get? "rpa_bands")),
    ("behavior_self_sim", jsonOf ((product.get? "behavior_self_sim").map behaviorSelfSim)),
    ("shadow_score", jsonOf ((product.get? "shadow_score").map shadowScore)),
    ("canary_model", jsonOf ((product.get? "canary_model").map canaryModel)),
    ("claim_obs_graph", jsonOf ((product.get? "claim_obs_graph").map claimObsGraph)),
    ("ja4h_lite", jsonOf ((product.get? "ja4h_lite").map ja4hLite)),
    ("config_version", jsonOf ((product.get? "config_version").or
      (product.pointer ["config_snapshot", "config_version"]))),
    ("environment_flags", jsonOf ((product.get? "environment_flags").or
      (product.pointer ["os", "environment_flags"]))),
    ("association_level", jsonOf (product.get? "association_level")),
    ("association_ladder", jsonOf ((product.get? "association_ladder").map associationLadder)),
    ("curve_descriptors", jsonOf (product.get? "curve_descriptors")),
    ("os", scoreOnly product "os"),
    ("br", scoreOnly product "br"),
    ("rpa", scoreOnly product "rpa"),
    ("privacy", record [("silent_probe_no_permission_request",
      (product.pointer ["product_redlines", "silent_probe_no_permission_request"]).getD
        (.bool true))]),
    ("note", .str "slim whitelist for SDK; full product stays on V5 for ops/brain")]

def multiSegment (product : Json) : Json :=
  let did := product.strOr "device_id"
  (product.get? "multi_segment").getD
    (.bool (product.strOr "device_tier" = "multi" ||
      ["dv0-", "dv4-", "dv5-", "dv6-"].any (startsWith did)))

/-- What an emitted identity adds. -/
def identityEntries (product : Json) : List (String × Json) :=
  [("device_id", jsonOf (product.get? "device_id")),
    ("identity", (product.get? "identity").getD
      (record [("confidence_kind", .str "calibrated_estimate_not_uv_sla")])),
    ("mint_posture", (product.get? "mint_posture").getD (.str "stable")),
    ("ephemeral", (product.get? "ephemeral").getD (.bool false)),
    ("ephemeral_ttl_ms", (product.get? "ephemeral_ttl_ms").getD (ofInt 0)),
    ("collision_risk", (product.get? "collision_risk").getD (.bool false)),
    ("effective_bits", jsonOf (product.get? "effective_bits")),
    ("bucket_heat", jsonOf (product.get? "bucket_heat")),
    ("device_id_segments", jsonOf (product.get? "device_id_segments")),
    ("device_id_reserved_compare", jsonOf (product.get? "device_id_reserved_compare")),
    ("device_tier", jsonOf (product.get? "device_tier")),
    ("multi_segment", multiSegment product),
    ("device_algo_group",
      jsonOf ((product.get? "device_algo_group").or (product.get? "algo_group"))),
    ("digest_path", jsonOf (product.get? "digest_path")),
    ("device_confidence",
      jsonOf ((product.get? "device_confidence").or (product.get? "confidence"))),
    ("conf_ceiling", jsonOf (product.get? "conf_ceiling")),
    ("slot_scheme", (product.get? "slot_scheme").getD (.str "extended_curve_v2")),
    ("browser_surface_id", jsonOf (product.get? "browser_surface_id"))]

def sdkSlimProjection (product : Json) (emitIdentity : Bool) : Json :=
  let slim := SortedMap.ofEntries (slimEntries product emitIdentity)
  if emitIdentity then ofFields (slim.insertEach (identityEntries product))
  else ofFields (slim.insert "identity_withheld" (.bool true))

def sdkIdentityLegs : List String :=
  ["os", "br", "device_id", "device_tier", "device_confidence", "identity", "mint_posture",
    "ephemeral", "ephemeral_ttl_ms", "effective_bits", "bucket_heat", "collision_risk",
    "peer_similarity", "homogenization", "curve_descriptors"]

def gateEntries (product gate : Json) : List (String × Json) :=
  let emit := gate.boolOr "emit"
  [("sdk_return", gate), ("sdk_projection", sdkSlimProjection product emit)] ++
    if emit then [("identity_withheld", .bool false)]
    else
      [("identity_withheld", .bool true),
        ("identity_withheld_reason", (gate.get? "reasons").getD (.arr [])),
        ("sdk_identity_legs", .arr (sdkIdentityLegs.map Json.str))]

def applyIdentityReturnGate (product gate : Json) : Json :=
  match product.asObject with
  | some members => ofFields (members.insertEach (gateEntries product gate))
  | none => product

/-! ## The response -/

def coverageKeep : List String :=
  ["has_b10", "received_batch_ids", "coverage_complete", "brain_schedule_final",
    "final_analysis_ok", "analysis_terminal", "probe_complete", "identity_complete",
    "missing_batches", "b10x_missing", "stop_probe", "halt_uploads"]

def resultKeep : List String :=
  ["route_plan", "coverage", "cycle_probe_status", "identity_coverage", "analysis_rev", "rev",
    "plan_epoch", "plan_version", "real_band", "bot_verdict", "analysis_terminal", "stop_probe",
    "halt_uploads", "cycle_complete", "cycle_closes", "brain_schedule_final",
    "final_analysis_ok", "skip_session_probe", "b10x_missing", "b10_present", "probe_complete",
    "session_ticket", "sdk_return", "rpa_analyze", "link", "page", "product_version",
    "session_id", "tenant_id", "analyze_reuse", "analyze_dirty", "product_action"]

def deviceKeep : List String :=
  ["device_id", "device_tier", "digest_path", "confidence", "device_confidence",
    "commercial_identity_final", "peer_similarity", "homogenization"]

def productKeep : List String :=
  ["device_id", "real_band", "sdk_return", "sdk_projection", "recommended_action",
    "product_action"]

def pickFields (src : Json) (keys : List String) : Fields :=
  keys.foldl (fun out k =>
    match src.get? k with
    | some v => out.insert k v
    | none => out) SortedMap.empty

def pick (src : Json) (keys : List String) : Json := ofFields (pickFields src keys)

def slimCoverage (cov : Json) : Json := pick cov coverageKeep

def slimDevice (device : Json) : Json := pick device deviceKeep

def slimProduct (product : Json) : Json := pick product productKeep

def slimBrain (brain : Json) : Json := pick brain ["stop_reason"]

def withBlock (result : Json) (key : String) (slim : Json → Json) (out : Fields) : Fields :=
  match result.get? key with
  | some block => out.insert key (slim block)
  | none => out

def slimAnalyzeResult (result : Json) : Json :=
  let out := pickFields result resultKeep
  let out := withBlock result "coverage" slimCoverage out
  let out := withBlock result "brain" slimBrain out
  let out := withBlock result "device" slimDevice out
  let out := withBlock result "product" slimProduct out
  ofFields (out.insert "response_projection" (.str "slim_v1"))

end ReturnGate

end GrServer
