import GrServer.RankedChoice
import GrServer.SourceAuth

/-!
# Trust in the sources of a field

Every key has a class, the class and the label of a source say how hard its
value is to forge and whether it may supply the key at all.  Resolution groups
the values of the eligible sources by approximate equality; one group is an
agreement, several are a conflict.
-/

namespace GrServer

open Json Text EvidenceMerge

namespace MintGate

/-! ## Classes of keys -/

inductive KeyClass where
  | protocol
  | network
  | softIdentity
  | silicon
  | viewport
  | inventory
  | other
  deriving DecidableEq

def KeyClass.asStr : KeyClass → String
  | protocol => "Protocol"
  | network => "Network"
  | softIdentity => "SoftIdentity"
  | silicon => "Silicon"
  | viewport => "Viewport"
  | inventory => "Inventory"
  | other => "Other"

def protocolKeys : List String :=
  ["ja4", "tls_ja4", "ja3", "h2_fingerprint", "http2_fingerprint", "protocol_engine",
    "tls_version", "tls_alpn", "ja4_r"]

def networkKeys : List String :=
  ["server_client_ip", "server_asn", "server_country", "cf_connecting_ip", "cf_ipcountry",
    "cf_bot_score", "bot_score"]

def softIdentityKeys : List String :=
  ["user_agent", "gateway_user_agent", "edge_user_agent", "platform", "os_family",
    "hardware_concurrency", "device_memory", "webdriver", "timezone", "timezone_offset_min",
    "language", "languages", "vendor", "architecture", "max_touch_points",
    "gateway_accept_language", "http_header_order_hash"]

def siliconClassKeys : List String :=
  ["residual_std", "residual_mean", "residual_ok", "residual_algo", "unit_surface_id",
    "webgl_unmasked_renderer", "webgl_unmasked_vendor"]

def viewportKeys : List String :=
  ["screen_width", "screen_height", "screen_avail_width", "screen_avail_height", "form_class",
    "device_pixel_ratio", "screen_color_depth"]

def inventoryKeys : List String :=
  ["media_input_count", "media_output_count", "media_video_count", "media_device_count",
    "display_count", "gl_max_texture_size", "webgl_max_texture", "max_texture_size",
    "claimed_max_tex", "caps_claimed_max_tex", "actual_max_tex", "webrtc_host_ip_hash",
    "webrtc_host_ip_hash_v2", "os_instance_hash"]

def keyClass (key : String) : KeyClass :=
  if protocolKeys.contains key then .protocol
  else if networkKeys.contains key then .network
  else if softIdentityKeys.contains key then .softIdentity
  else if siliconClassKeys.contains key || startsWith key "hw_curve_" then .silicon
  else if viewportKeys.contains key then .viewport
  else if inventoryKeys.contains key then .inventory
  else .other

/-! ## Sources -/

inductive SourceTrust where
  | unknown
  | mainSoft
  | mainSilicon
  | iframeNest
  | workerNest
  | cloudflare
  | gatewayEdge
  deriving DecidableEq

namespace SourceTrust

def score : SourceTrust → ℕ
  | unknown => 0
  | mainSoft => 30
  | mainSilicon => 45
  | iframeNest => 55
  | workerNest => 70
  | cloudflare => 85
  | gatewayEdge => 95

def asStr : SourceTrust → String
  | unknown => "unknown"
  | mainSoft => "main_soft"
  | mainSilicon => "main_silicon"
  | iframeNest => "iframe_nest"
  | workerNest => "worker_nest"
  | cloudflare => "cloudflare"
  | gatewayEdge => "gateway_edge"

def isEdge (t : SourceTrust) : Bool := t = gatewayEdge || t = cloudflare

end SourceTrust

def sourceTrustFor (src key : String) : SourceTrust :=
  let base := sourceBase src
  if base = "gateway" then .gatewayEdge
  else if base = "cloudflare" ∨ base = "cf" then .cloudflare
  else if base = "worker" ∨ base = "shared_worker" ∨ base = "service_worker" then .workerNest
  else if base = "iframe" ∨ base = "sandbox" ∨ base = "sandbox_iframe" then .iframeNest
  else if base = "main" then
    if keyClass key = .silicon then .mainSilicon else .mainSoft
  else if base = "merged" ∨ base = "" then .unknown
  else if startsWith base "worker" then .workerNest
  else if startsWith base "iframe" then .iframeNest
  else .unknown

def headerKeys : List String :=
  ["gateway_user_agent", "edge_user_agent", "user_agent", "gateway_accept_language",
    "http_header_order_hash"]

def edgeBases : List String := ["gateway", "cloudflare", "cf"]

def sourceCanSupply (src key : String) : Bool :=
  let base := sourceBase src
  match keyClass key with
  | .protocol | .network => edgeBases.contains base
  | .silicon =>
      ["main", "iframe", "worker", "sandbox", "sandbox_iframe", "merged"].contains base
  | .viewport =>
      base = "main" || base = "merged" ||
        ((base = "iframe" || base = "worker") && key = "form_class")
  | .softIdentity =>
      if headerKeys.contains key then
        ["gateway", "main", "iframe", "worker", "sandbox", "sandbox_iframe", "merged",
          "cloudflare", "cf"].contains base
      else true
  | _ => true

structure Ranked where
  source : String
  value : Json
  trust : SourceTrust

def eligible (key : String) (entries : List (String × Json)) : List (String × Json) :=
  entries.filter fun entry => sourceCanSupply entry.1 key

def rankSourcesForKey (key : String) (entries : List (String × Json)) : List Ranked :=
  ((eligible key entries).map fun entry =>
    ⟨entry.1, entry.2, sourceTrustFor entry.1 key⟩).insertionSort
    (RankedChoice.Ahead Ranked.source fun r => r.trust.score)

def pickAgreed (key : String) (ranked : List Ranked) : Option Ranked :=
  let edge := ranked.find? fun r => r.trust.isEdge
  let worker := ranked.find? fun r => r.trust = .workerNest || startsWith r.source "worker"
  match keyClass key with
  | .silicon =>
      (ranked.find? fun r => r.source = "main" || startsWith r.source "main:").or ranked.head?
  | .softIdentity =>
      if headerKeys.contains key then (edge.or worker).or ranked.head?
      else worker.or ranked.head?
  | .network | .protocol => edge.or ranked.head?
  | _ => ranked.head?

section Resolve

variable (approx : Json → Json → Bool)

/-- Put an entry into the first cluster whose first entry has about its value. -/
def place (entry : String × Json) :
    List (List (String × Json)) → List (List (String × Json))
  | [] => [[entry]]
  | cluster :: rest =>
      if cluster.head?.any fun first => approx first.2 entry.2 then
        (cluster ++ [entry]) :: rest
      else cluster :: place entry rest

def clustersOf (entries : List (String × Json)) : List (List (String × Json)) :=
  entries.foldl (fun clusters entry => place approx entry clusters) []

structure SourceResolution where
  chosenSource : Option String
  chosenTrust : SourceTrust
  conflicted : Bool
  agreed : Bool
  mintValueOk : Bool
  reason : String

def noEligibleSource : SourceResolution :=
  ⟨none, .unknown, false, false, false, "no_eligible_source"⟩

def conflictResolution (r : Ranked) : SourceResolution :=
  let preferHard := r.trust = .workerNest ∨ r.trust = .iframeNest ∨ r.trust.isEdge ∨
    SourceTrust.mainSilicon.score ≤ r.trust.score
  { chosenSource := some r.source
    chosenTrust := r.trust
    conflicted := true
    agreed := false
    mintValueOk := preferHard
    reason := if preferHard then "conflict_resolved_to_harder_source"
      else "conflict_weak_source_conf_only" }

def resolveFieldSource (key : String) (entries : List (String × Json)) : SourceResolution :=
  match eligible key entries with
  | [] => noEligibleSource
  | [(src, _)] =>
      ⟨some src, sourceTrustFor src key, false, false, false, "single_source_conf_only"⟩
  | all@(_ :: _ :: _) =>
      let ranked := rankSourcesForKey key all
      if (clustersOf approx all).length = 1 then
        match pickAgreed key ranked with
        | some r =>
            ⟨some r.source, r.trust, false, true, true, "multi_source_agree_class_prefer"⟩
        | none => noEligibleSource
      else if keyClass key = .silicon then
        ⟨none, .unknown, true, false, false, "silicon_conflict_exclude_mint"⟩
      else
        match ranked.head? with
        | some r => conflictResolution r
        | none => noEligibleSource

end Resolve

/-! ## What resolution chooses -/

section Choice

variable {approx : Json → Json → Bool} {key : String} {entries : List (String × Json)}

theorem mem_eligible {entry : String × Json} :
    entry ∈ eligible key entries ↔ entry ∈ entries ∧ sourceCanSupply entry.1 key = true := by
  simp [eligible]

theorem eligible_eligible : eligible key (eligible key entries) = eligible key entries := by
  simp [eligible]

theorem mem_rankSourcesForKey {r : Ranked} (h : r ∈ rankSourcesForKey key entries) :
    (r.source, r.value) ∈ eligible key entries := by
  rw [rankSourcesForKey, List.mem_insertionSort] at h
  obtain ⟨entry, hentry, rfl⟩ := List.mem_map.mp h
  exact hentry

theorem rankSourcesForKey_ne_nil (h : eligible key entries ≠ []) :
    rankSourcesForKey key entries ≠ [] := by
  rw [rankSourcesForKey, ← List.length_pos_iff_ne_nil, List.length_insertionSort,
    List.length_map]
  exact List.length_pos_of_ne_nil h

theorem pickAgreed_mem {ranked : List Ranked} {r : Ranked} (h : pickAgreed key ranked = some r) :
    r ∈ ranked := by
  have hfind : ∀ p : Ranked → Bool, ranked.find? p = some r → r ∈ ranked :=
    fun _ => List.mem_of_find?_eq_some
  have hhead : ranked.head? = some r → r ∈ ranked := List.mem_of_head?
  unfold pickAgreed at h
  cases hclass : keyClass key <;>
    simp only [hclass, Option.or_eq_some_iff] at h
  case protocol | network | silicon =>
    rcases h with h | ⟨-, h⟩
    · exact hfind _ h
    · exact hhead h
  case softIdentity =>
    split_ifs at h with hheader
    · simp only [Option.or_eq_some_iff] at h
      rcases h with (h | ⟨-, h⟩) | ⟨-, h⟩
      · exact hfind _ h
      · exact hfind _ h
      · exact hhead h
    · simp only [Option.or_eq_some_iff] at h
      rcases h with h | ⟨-, h⟩
      · exact hfind _ h
      · exact hhead h
  all_goals exact hhead h

theorem pickAgreed_isSome {ranked : List Ranked} (h : ranked ≠ []) :
    (pickAgreed key ranked).isSome = true := by
  obtain ⟨r, rest, rfl⟩ := List.exists_cons_of_ne_nil h
  unfold pickAgreed
  cases hclass : keyClass key <;> simp only [Option.isSome_or]
  case softIdentity => split_ifs <;> simp
  all_goals simp

theorem chosen_eligible {src : String}
    (h : (resolveFieldSource approx key entries).chosenSource = some src) :
    ∃ v, (src, v) ∈ eligible key entries := by
  unfold resolveFieldSource at h
  split at h
  case h_1 => simp [noEligibleSource] at h
  case h_2 src' v hone =>
    rw [hone]
    simp only [Option.some.injEq] at h
    exact ⟨v, by simp [h]⟩
  case h_3 a b rest hmany =>
    have hranked : ∀ r ∈ rankSourcesForKey key (a :: b :: rest),
        (r.source, r.value) ∈ eligible key entries := by
      intro r hr
      have hmem := mem_rankSourcesForKey hr
      rwa [← hmany, eligible_eligible] at hmem
    rw [hmany] at hranked ⊢
    dsimp only at h
    split_ifs at h with hcluster hsilicon
    · split at h
      case h_1 r hpick =>
        simp only [Option.some.injEq] at h
        exact ⟨r.value, h ▸ hranked r (pickAgreed_mem hpick)⟩
      case h_2 => simp [noEligibleSource] at h
    · split at h
      case h_1 r hhead =>
        simp only [conflictResolution, Option.some.injEq] at h
        exact ⟨r.value, h ▸ hranked r (List.mem_of_head? hhead)⟩
      case h_2 => simp [noEligibleSource] at h

theorem chosen_of_mintValueOk
    (h : (resolveFieldSource approx key entries).mintValueOk = true) :
    ((resolveFieldSource approx key entries).chosenSource).isSome = true := by
  unfold resolveFieldSource at h ⊢
  split at h
  case h_1 => simp [noEligibleSource] at h
  case h_2 => simp at h
  case h_3 a b rest hmany =>
    dsimp only at h ⊢
    split_ifs at h with hcluster hsilicon
    · split at h <;> simp_all [noEligibleSource]
    · split at h <;> simp_all [noEligibleSource, conflictResolution]

end Choice

section Clusters

variable {approx : Json → Json → Bool}

theorem length_le_place (entry : String × Json) (clusters : List (List (String × Json))) :
    clusters.length ≤ (place approx entry clusters).length := by
  induction clusters with
  | nil => simp
  | cons cluster rest ih =>
      rw [place]
      split_ifs
      · simp
      · simpa using ih

theorem length_le_foldl_place (entries : List (String × Json))
    (clusters : List (List (String × Json))) :
    clusters.length ≤
      (entries.foldl (fun clusters entry => place approx entry clusters) clusters).length := by
  induction entries generalizing clusters with
  | nil => exact le_rfl
  | cons entry rest ih =>
      have hplace := @length_le_place approx entry clusters
      have hrest := ih (place approx entry clusters)
      rw [List.foldl_cons]
      omega

theorem foldl_place_single (first : String × Json) (cluster : List (String × Json))
    (rest : List (String × Json)) :
    (rest.foldl (fun clusters entry => place approx entry clusters)
        [first :: cluster]).length = 1 ↔
      ∀ entry ∈ rest, approx first.2 entry.2 = true := by
  induction rest generalizing cluster with
  | nil => simp
  | cons entry rest ih =>
      by_cases happrox : approx first.2 entry.2 = true
      · simp [place, happrox, ih]
      · have htwo : (place approx entry [first :: cluster]).length = 2 := by
          simp [place, happrox]
        have hgrow := @length_le_foldl_place approx rest
          (place approx entry [first :: cluster])
        rw [List.foldl_cons]
        constructor
        · intro hone
          omega
        · intro hall
          exact absurd (hall entry (by simp)) happrox

theorem clustersOf_single (first : String × Json) (rest : List (String × Json)) :
    (clustersOf approx (first :: rest)).length = 1 ↔
      ∀ entry ∈ rest, approx first.2 entry.2 = true :=
  foldl_place_single first [] rest

end Clusters

end MintGate

end GrServer
