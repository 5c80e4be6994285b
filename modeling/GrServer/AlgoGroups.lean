import GrServer.DigestParts
import GrServer.Json
import GrServer.MapMerge

/-!
# Algorithm groups

The materials of an observation decide which group of algorithms identifies
it; groups are tried by priority and the first whose materials are complete
wins.  The winning group lists the parts its commercial id is a digest of.
-/

namespace GrServer

open Json Text DigestParts

namespace AlgoGroups

/-- The digest, the renderings of numbers and values, and the verdict of the
software-stack analysis. -/
structure MintEnv where
  sha256Hex : List UInt8 → String
  showF64 : ℚ → String
  /-- `rm_` and the mean, rounded to 0.005, with five decimals. -/
  residualClass : ℚ → String
  showValue : Json → String
  softStack : Json → Bool

def short (hex : String) : String := String.ofList (hex.toList.take 16)

/-- No collision of the shortened digest on two inputs. -/
def MintEnv.Apart (env : MintEnv) (a b : List UInt8) : Prop :=
  DigestParts.Apart (fun input => short (env.sha256Hex input)) a b

/-! ## Groups -/

inductive CompletenessTier where
  | dh
  | dv
  | dg
  deriving DecidableEq

def CompletenessTier.asStr : CompletenessTier → String
  | dh => "dh"
  | dv => "dv"
  | dg => "dg"

inductive GroupId where
  | dhDualResidual
  | dhCoreWebgl
  | dhCoreAudio
  | dhCoreResidual
  | dhUnit
  | dvPartialHw
  | dvPartialAudio
  | dvFeSurface
  | dgGateway
  | dgEmpty
  deriving DecidableEq

namespace GroupId

def asStr : GroupId → String
  | dhDualResidual => "G_DH_DUAL_RESIDUAL"
  | dhCoreWebgl => "G_DH_CORE_WEBGL"
  | dhCoreAudio => "G_DH_CORE_AUDIO"
  | dhCoreResidual => "G_DH_CORE_RESIDUAL"
  | dhUnit => "G_DH_UNIT"
  | dvPartialHw => "G_DV_PARTIAL_HW"
  | dvPartialAudio => "G_DV_PARTIAL_AUDIO"
  | dvFeSurface => "G_DV_FE_SURFACE"
  | dgGateway => "G_DG_GATEWAY"
  | dgEmpty => "G_DG_EMPTY"

def tier : GroupId → CompletenessTier
  | dhDualResidual | dhCoreWebgl | dhCoreAudio | dhCoreResidual | dhUnit => .dh
  | dvPartialHw | dvPartialAudio | dvFeSurface => .dv
  | dgGateway | dgEmpty => .dg

theorem bar_not_mem_asStr (g : GroupId) : '|' ∉ g.asStr.toList := by
  cases g <;> decide

theorem asStr_inj {g g' : GroupId} (h : g.asStr = g'.asStr) : g = g' := by
  cases g <;> cases g' <;> first | rfl | exact absurd h (by decide)

end GroupId

structure AlgoGroupDef where
  id : GroupId
  priority : ℕ
  coreFields : List String
  supportFields : List String
  confFields : List String

def AlgoGroupDef.tier (g : AlgoGroupDef) : CompletenessTier := g.id.tier

def hostSupport : List String :=
  ["webrtc_host_ip_hash", "os_instance_hash", "form_class", "hardware_concurrency"]

def identityGroups : List AlgoGroupDef :=
  [⟨.dhDualResidual, 10, ["residual_mean", "hw_webgl_stable", "hw_audio_stable"],
      ["webrtc_host_ip_hash", "os_instance_hash", "form_class"],
      ["hardware_concurrency", "device_memory", "engine_family"]⟩,
    ⟨.dhCoreWebgl, 20, ["hw_webgl_stable", "residual_mean"], hostSupport,
      ["hw_audio_stable", "engine_family", "device_memory"]⟩,
    ⟨.dhCoreAudio, 30, ["hw_audio_stable", "residual_mean"], hostSupport,
      ["hw_webgl_stable", "engine_family", "device_memory"]⟩,
    ⟨.dhCoreResidual, 40, ["residual_mean", "residual_std"],
      ["webrtc_host_ip_hash", "os_instance_hash", "form_class", "hw_curve_webgl"],
      ["hw_webgl_stable", "hw_audio_stable", "hardware_concurrency"]⟩,
    ⟨.dhUnit, 50, ["unit_surface_id"],
      ["unit_surface_algo", "unit_multiround_stable", "webrtc_host_ip_hash"],
      ["form_class", "residual_mean"]⟩,
    ⟨.dvPartialHw, 100, ["hw_curve_webgl"], ["form_class", "platform"],
      ["residual_mean", "hardware_concurrency"]⟩,
    ⟨.dvPartialAudio, 110, ["hw_curve_audio"], ["form_class", "platform"], ["residual_mean"]⟩,
    ⟨.dvFeSurface, 120, ["form_class", "platform"], ["hardware_concurrency", "timezone"],
      ["user_agent", "screen_width"]⟩,
    ⟨.dgGateway, 200, ["ja4"], ["user_agent", "server_client_ip"],
      ["ja3", "http_header_order_hash", "protocol_engine"]⟩,
    ⟨.dgEmpty, 250, [], [], ["user_agent", "server_client_ip"]⟩]

/-! ## Materials -/

section Materials

def fHas (fields : Json) (key : String) : Bool :=
  match fields.get? key with
  | none | some .null | some (.bool false) => false
  | some (.bool true) | some (.num _) => true
  | some (.str s) => s ≠ ""
  | some (.arr items) => !items.isEmpty
  | some (.obj members) => !members.isEmpty

def filledStr (v : Option Json) : Option String := (v.bind asStr).filter (· ≠ "")

def fStr (fields : Json) (key : String) : Option String := filledStr (fields.get? key)

def fF64 (fields : Json) (key : String) : Option ℚ := (fields.get? key).bind asF64

def fFlag (fields : Json) (key : String) : Bool :=
  ((fields.get? key).bind asBool).getD false

def curveLen (fields : Json) (key : String) : ℕ :=
  (((fields.get? key).bind asArray).map List.length).getD 0

structure GroupMaterials where
  residualMean : Option ℚ
  residualStd : Option ℚ
  residualClass : Option String
  hwWebglStable : Option String
  hwAudioStable : Option String
  webglCurveN : ℕ
  audioCurveN : ℕ
  webrtc : Option String
  osInstance : Option String
  formClass : Option String
  cores : Option String
  unitId : Option String
  unitAlgo : Option String
  unitStable : Bool
  ja4 : Option String
  userAgent : Option String
  platform : Option String
  softStack : Bool
  residualEntropyOk : Bool
  gatewayOnly : Bool
  jsRan : Bool

def stableDigest (fields : Json) (key : String) : Option String :=
  (fStr fields key).or (filledStr ((fields.get? "materials").bind fun m => m.get? key))

def ja4Of (fields : Json) : Option String :=
  ((fStr fields "ja4").or (fStr fields "tls_ja4")).or (fStr fields "gateway_ja4")

def earlyKick (fields : Json) : Bool :=
  fFlag fields "early_kick" || fFlag fields "micro_kick" ||
    ((fields.get? "b8_path_kind").bind asStr).isSome

def hasSilicon (fields : Json) : Bool :=
  (fF64 fields "residual_mean").isSome || 0 < curveLen fields "hw_curve_webgl" ||
    0 < curveLen fields "hw_curve_audio" || (fStr fields "unit_surface_id").isSome ||
    (stableDigest fields "hw_webgl_stable").isSome ||
    (stableDigest fields "hw_audio_stable").isSome

def hasFeEnv (fields : Json) : Bool :=
  (fStr fields "platform").isSome || fHas fields "screen_width" ||
    fHas fields "hardware_concurrency" || fHas fields "device_memory"

def isGatewayOnly (fields : Json) : Bool :=
  (earlyKick fields || (ja4Of fields).isSome || fHas fields "server_client_ip") &&
    !hasSilicon fields && !hasFeEnv fields

def entropyOk (fields : Json) : Bool :=
  (((fields.get? "residual_entropy_ok").or (fields.get? "webgl_residual_entropy_ok")).bind
    asBool).getD ((fF64 fields "residual_mean").isSome &&
      (fF64 fields "residual_std").any fun s => 0 < s)

def GroupMaterials.fromFields (env : MintEnv) (fields : Json) : GroupMaterials where
  residualMean := fF64 fields "residual_mean"
  residualStd := fF64 fields "residual_std"
  residualClass := (fF64 fields "residual_mean").map env.residualClass
  hwWebglStable := stableDigest fields "hw_webgl_stable"
  hwAudioStable := stableDigest fields "hw_audio_stable"
  webglCurveN := curveLen fields "hw_curve_webgl"
  audioCurveN := curveLen fields "hw_curve_audio"
  webrtc := (fStr fields "webrtc_host_ip_hash").or (fStr fields "webrtc_host_ip_hash_v2")
  osInstance := fStr fields "os_instance_hash"
  formClass := fStr fields "form_class"
  cores := ((fields.get? "hardware_concurrency").map env.showValue).filter (· ≠ "null")
  unitId := fStr fields "unit_surface_id"
  unitAlgo := fStr fields "unit_surface_algo"
  unitStable := fFlag fields "unit_multiround_stable"
  ja4 := ja4Of fields
  userAgent := fStr fields "user_agent"
  platform := fStr fields "platform"
  softStack := env.softStack fields
  residualEntropyOk := entropyOk fields
  gatewayOnly := isGatewayOnly fields
  jsRan := !isGatewayOnly fields && (hasSilicon fields || hasFeEnv fields ||
    ((fStr fields "form_class").isSome && (fStr fields "platform").isSome))

namespace GroupMaterials

variable (m : GroupMaterials)

def hasHostSep : Bool := m.webrtc.any (· ≠ "") || m.osInstance.any (· ≠ "")

def dualHwDigests : Bool := m.hwWebglStable.any (· ≠ "") && m.hwAudioStable.any (· ≠ "")

def digestOk (missing stem s : String) : Bool :=
  let t := trimmed s
  t ≠ "" && t ≠ missing && !containsStr t "none" && (startsWith t stem || 12 ≤ t.utf8ByteSize)

def webglCoreOk : Bool :=
  m.hwWebglStable.any (digestOk "webgl_none" "wg_") && 8 ≤ m.webglCurveN

def audioCoreOk : Bool :=
  m.hwAudioStable.any (digestOk "audio_none" "au_") && 16 ≤ m.audioCurveN

def residualOk : Bool := m.residualMean.isSome && m.residualEntropyOk

def unitOk : Bool :=
  m.unitId.isSome && m.unitStable &&
    m.unitAlgo.any fun a => a = "gr_unit_v1" || startsWith a "gr_unit_v"

def supportSwOk : Bool :=
  let formOk := m.formClass.isSome || m.platform.isSome
  formOk && (m.cores.isSome || formOk)

def hostOf : String := (m.webrtc.or m.osInstance).getD "host_unknown"

end GroupMaterials

end Materials

def verdict (ok : Bool) (yes no : String) : Bool × String := (ok, if ok then yes else no)

def groupMatches (g : AlgoGroupDef) (m : GroupMaterials) : Bool × String :=
  if m.softStack ∧ g.tier = .dh ∧ g.id ≠ .dhUnit then
    (false, "soft_stack_blocks_dh_hardware_group")
  else
    match g.id with
    | .dhDualResidual =>
        verdict (m.dualHwDigests && m.residualOk && m.supportSwOk &&
            (m.hasHostSep || m.residualEntropyOk))
          "dual_hw_residual_support_ok" "dual_hw_or_residual_or_support_missing"
    | .dhCoreWebgl =>
        verdict (m.webglCoreOk && m.residualOk && (m.supportSwOk && m.hasHostSep))
          "core_webgl_full_match_with_support" "core_webgl_or_support_incomplete"
    | .dhCoreAudio =>
        verdict (m.audioCoreOk && m.residualOk && (m.supportSwOk && m.hasHostSep))
          "core_audio_full_match_with_support" "core_audio_or_support_incomplete"
    | .dhCoreResidual =>
        verdict (m.residualOk && 8 ≤ m.webglCurveN && (m.supportSwOk && m.hasHostSep))
          "residual_core_with_curve_support" "residual_core_incomplete"
    | .dhUnit =>
        verdict (m.unitOk && m.hasHostSep) "unit_versioned_with_host" "unit_or_host_missing"
    | .dvPartialHw =>
        verdict (m.jsRan && !m.gatewayOnly && (4 ≤ m.webglCurveN || m.webglCoreOk))
          "partial_webgl_fe" "no_partial_webgl"
    | .dvPartialAudio =>
        verdict (m.jsRan && !m.gatewayOnly && (8 ≤ m.audioCurveN || m.audioCoreOk))
          "partial_audio_fe" "no_partial_audio"
    | .dvFeSurface =>
        verdict (m.jsRan && !m.gatewayOnly && (m.platform.isSome || m.cores.isSome ||
            (m.formClass.isSome && m.platform.isSome)))
          "fe_surface" "no_fe_surface"
    | .dgGateway =>
        verdict (m.gatewayOnly || (!m.jsRan && !m.residualOk && m.webglCurveN = 0 &&
            m.audioCurveN = 0 && (m.ja4.isSome || m.userAgent.isSome)))
          "gateway_protocol" "not_gateway_only"
    | .dgEmpty => (true, "fallback_empty")

def algoGroupsAlgo : String := "algo_groups_v1"

def uaPart (env : MintEnv) (ua : String) : String :=
  String.ofList (("ua_" ++ env.sha256Hex (asBytes ua)).toList.take 20)

def recipeParts (env : MintEnv) (g : GroupId) (m : GroupMaterials) : List String :=
  let residual := m.residualClass.getD "rm_none"
  let form := m.formClass.getD "form_unk"
  let cores := m.cores.getD "cores_unk"
  match g with
  | .dhDualResidual =>
      ["residual_led_dual_hw_v1", residual, m.hwAudioStable.getD "audio_none",
        m.hwWebglStable.getD "webgl_none",
        if m.residualEntropyOk && m.dualHwDigests then "xbr_host_deferred" else m.hostOf]
  | .dhCoreWebgl =>
      ["core_webgl_support_v1", residual, m.hwWebglStable.getD "webgl_none", m.hostOf, form,
        cores]
  | .dhCoreAudio =>
      ["core_audio_support_v1", residual, m.hwAudioStable.getD "audio_none", m.hostOf, form,
        cores]
  | .dhCoreResidual =>
      ["core_residual_curve_v1", residual, "wgl_n" ++ m.webglCurveN.repr, m.hostOf, form]
  | .dhUnit => ["unit_host_v1", m.unitId.getD "unit_none", m.hostOf]
  | .dvPartialHw | .dvPartialAudio =>
      ["dv_partial_hw_v1", "wgl_n" ++ m.webglCurveN.repr, "aud_n" ++ m.audioCurveN.repr, form,
        m.platform.getD "plat_unk"]
  | .dvFeSurface => ["dv_fe_surface_v1", form, m.platform.getD "plat_unk", cores]
  | .dgGateway =>
      ["dg_gateway_provisional_v1", m.ja4.getD "ja4_none",
        (m.userAgent.map (uaPart env)).getD "ua_none"]
  | .dgEmpty => ["dg_empty_v1", "empty"]

def buildBucketParts (env : MintEnv) (g : AlgoGroupDef) (m : GroupMaterials) :
    List String × String :=
  (algoGroupsAlgo :: g.id.asStr :: recipeParts env g.id m,
    (recipeParts env g.id m).headD "")

/-! ## Selection -/

abbrev MaterialMap := SortedMap String String

structure GroupSelection where
  groupId : GroupId
  priority : ℕ
  tier : CompletenessTier
  eligible : Bool
  provisional : Bool
  reason : String
  coreMaterials : MaterialMap
  supportMaterials : MaterialMap
  confMaterials : MaterialMap
  bucketParts : List String
  mintRecipe : String

def lenPart (n : ℕ) : String := "len" ++ n.repr

def coreMaterial (env : MintEnv) (m : GroupMaterials) (k : String) : Option String :=
  match k with
  | "residual_mean" => m.residualMean.map env.showF64
  | "residual_std" => m.residualStd.map env.showF64
  | "hw_webgl_stable" => m.hwWebglStable
  | "hw_audio_stable" => m.hwAudioStable
  | "unit_surface_id" => m.unitId
  | "hw_curve_webgl" => some (lenPart m.webglCurveN)
  | "hw_curve_audio" => some (lenPart m.audioCurveN)
  | "form_class" => m.formClass
  | "platform" => m.platform
  | "ja4" => m.ja4
  | _ => none

def supportMaterial (m : GroupMaterials) (k : String) : Option String :=
  match k with
  | "webrtc_host_ip_hash" => m.webrtc
  | "os_instance_hash" => m.osInstance
  | "form_class" => m.formClass
  | "hardware_concurrency" => m.cores
  | "platform" => m.platform
  | "user_agent" => m.userAgent.map fun _ => "ua_present"
  | "server_client_ip" => some "ip_conf"
  | "unit_surface_algo" => m.unitAlgo
  | "unit_multiround_stable" => some (if m.unitStable then "true" else "false")
  | "timezone" => some "tz"
  | "hw_curve_webgl" => some (lenPart m.webglCurveN)
  | _ => none

/-- The materials that are not empty, `mat_put` over the fields. -/
def materialMap (material : String → Option String) (fields : List String) : MaterialMap :=
  SortedMap.empty.insertEach
    (fields.filterMap fun k => ((material k).filter (· ≠ "")).map fun s => (k, s))

def selectionOf (env : MintEnv) (g : AlgoGroupDef) (m : GroupMaterials) : GroupSelection where
  groupId := g.id
  priority := g.priority
  tier := g.tier
  eligible := true
  provisional := g.tier = .dg || g.id = .dgGateway || g.id = .dgEmpty
  reason := (groupMatches g m).2
  coreMaterials := materialMap (coreMaterial env m) g.coreFields
  supportMaterials := materialMap (supportMaterial m) g.supportFields
  confMaterials := materialMap (fun _ => some "present_or_absent") g.confFields
  bucketParts := (buildBucketParts env g m).1
  mintRecipe := (buildBucketParts env g m).2

def fallbackSelection : GroupSelection where
  groupId := .dgEmpty
  priority := 250
  tier := .dg
  eligible := true
  provisional := true
  reason := "no_group_matched"
  coreMaterials := SortedMap.empty
  supportMaterials := SortedMap.empty
  confMaterials := SortedMap.empty
  bucketParts := [algoGroupsAlgo, "G_DG_EMPTY", "dg_empty_v1", "empty"]
  mintRecipe := "dg_empty_v1"

def rankedGroups : List AlgoGroupDef :=
  identityGroups.insertionSort fun a b => a.priority ≤ b.priority

def selectIdentityGroup (env : MintEnv) (fields : Json) : GroupSelection :=
  let m := GroupMaterials.fromFields env fields
  match rankedGroups.find? fun g => (groupMatches g m).1 with
  | some g => selectionOf env g m
  | none => fallbackSelection

def bucketBodyHex (env : MintEnv) (parts : List String) : String :=
  env.sha256Hex (digestInput parts)

def commercialIdFromSelection (env : MintEnv) (sel : GroupSelection) : String :=
  sel.tier.asStr ++ "_" ++ short (bucketBodyHex env sel.bucketParts)

section Selection

variable {env : MintEnv}

/-- A selection's parts start with the algorithm and the group, and the tier is
the group's. -/
structure WellFormed (sel : GroupSelection) : Prop where
  parts : ∃ rest, sel.bucketParts = algoGroupsAlgo :: sel.groupId.asStr :: rest
  tier : sel.tier = sel.groupId.tier

theorem wellFormed_selectIdentityGroup (fields : Json) :
    WellFormed (selectIdentityGroup env fields) := by
  unfold selectIdentityGroup
  dsimp only
  split
  · exact ⟨⟨_, rfl⟩, rfl⟩
  · exact ⟨⟨_, rfl⟩, rfl⟩

theorem pieces_bucketParts {sel : GroupSelection} {rest : List String}
    (h : sel.bucketParts = algoGroupsAlgo :: sel.groupId.asStr :: rest) :
    pieces sel.bucketParts =
      algoGroupsAlgo.toList :: sel.groupId.asStr.toList :: pieces rest := by
  rw [h, pieces_cons _ (by decide), pieces_cons _ sel.groupId.bar_not_mem_asStr]

theorem groupId_of_pieces {a b : GroupSelection} (ha : WellFormed a) (hb : WellFormed b)
    (h : pieces a.bucketParts = pieces b.bucketParts) : a.groupId = b.groupId := by
  obtain ⟨resta, hparta⟩ := ha.parts
  obtain ⟨restb, hpartb⟩ := hb.parts
  rw [pieces_bucketParts hparta, pieces_bucketParts hpartb] at h
  simp only [List.cons.injEq] at h
  exact GroupId.asStr_inj (String.toList_injective h.2.1)

theorem tier_append_inj {t t' : CompletenessTier} {s s' : String}
    (h : t.asStr ++ "_" ++ s = t'.asStr ++ "_" ++ s') : t = t' ∧ s = s' := by
  have hlist := congrArg String.toList h
  simp only [String.toList_append] at hlist
  have hlen : ∀ t : CompletenessTier, (t.asStr.toList ++ "_".toList).length = 3 := by
    intro t
    cases t <;> rfl
  obtain ⟨hhead, htail⟩ := List.append_inj hlist (by rw [hlen, hlen])
  refine ⟨?_, String.toList_injective htail⟩
  cases t <;> cases t' <;> first | rfl | exact absurd hhead (by decide)

theorem commercialId_eq_iff {a b : GroupSelection} (ha : WellFormed a) (hb : WellFormed b)
    (h : env.Apart (digestInput a.bucketParts) (digestInput b.bucketParts)) :
    commercialIdFromSelection env a = commercialIdFromSelection env b ↔
      a.bucketParts = b.bucketParts ∨ Shifted a.bucketParts b.bucketParts := by
  rw [← digest_eq_iff h]
  constructor
  · intro hid
    exact (tier_append_inj hid).2
  · intro hdigest
    have hgroup : a.groupId = b.groupId :=
      groupId_of_pieces ha hb (digestInput_eq_iff.mp (h hdigest))
    have htier : a.tier = b.tier := by rw [ha.tier, hb.tier, hgroup]
    unfold commercialIdFromSelection bucketBodyHex
    rw [htier, hdigest]

theorem groupId_of_parts {a b : GroupSelection} (ha : WellFormed a) (hb : WellFormed b)
    (h : a.bucketParts = b.bucketParts) : a.groupId = b.groupId :=
  groupId_of_pieces ha hb (congrArg pieces h)

end Selection

end AlgoGroups

end GrServer
