import GrServer.RankedChoice
import GrServer.SourceConflicts

/-!
# Authoritative sources

`buildSourceAuthView` reports which source is authoritative for an identity key
and whether the key may be minted; `authenticFieldsForMint` freezes the fields
that are minted.  The first sorts the sources of a key by trust, the second
keeps the first strict maximum in a loop.
-/

namespace GrServer

open Json Text SortedMap

namespace EvidenceMerge

def sourceBase (src : String) : String :=
  String.ofList (src.toList.takeWhile (· ≠ ':'))

def storeSourceTrustScore (src key : String) : ℕ :=
  let base := sourceBase src
  let silicon := startsWith key "hw_curve_" ||
    ["residual_std", "residual_mean", "webgl_unmasked_renderer",
      "unit_surface_id"].contains key
  if base = "gateway" then 95
  else if base = "cloudflare" ∨ base = "cf" then 85
  else if base = "worker" ∨ base = "shared_worker" ∨ base = "service_worker" then 70
  else if base = "iframe" ∨ base = "sandbox" ∨ base = "sandbox_iframe" then 55
  else if base = "main" then (if silicon then 45 else 30)
  else if startsWith base "worker" then 70
  else if startsWith base "iframe" then 55
  else 0

def conflictKeys (sourceConflicts : List String) : List String :=
  sourceConflicts.filterMap (stripPrefix? · conflictPrefix)

def member (bucket : Json) (k : String) : Option Json :=
  bucket.asObject.bind fun members => members.get? k

def filledMember (bucket : Json) (k : String) : Option Json :=
  (member bucket k).filter fun v => ¬ isBlank v

def mainObject (fieldsBySource : Fields) : Option Fields :=
  (fieldsBySource.get? "main").bind asObject

def mainHas (fieldsBySource : Fields) (k : String) : Bool :=
  (mainObject fieldsBySource).any fun m => (m.get? k).any fun v => ¬ isBlank v

def authKeys : List String :=
  ["user_agent", "platform", "os_family", "hardware_concurrency", "timezone",
    "webdriver", "language", "form_class", "hw_curve_audio", "hw_curve_webgl",
    "webgl_unmasked_renderer", "font_count", "webrtc_host_ip_hash",
    "device_memory", "residual_std", "residual_mean"]

def scoredSources (fieldsBySource : Fields) (k : String) : List (String × ℕ) :=
  fieldsBySource.entries.filterMap fun source =>
    (filledMember source.2 k).map fun _ =>
      (source.1, storeSourceTrustScore source.1 k)

def candidates (fieldsBySource : Fields) (k : String) : List (String × ℕ) :=
  (scoredSources fieldsBySource k).insertionSort
    (RankedChoice.Ahead Prod.fst Prod.snd)

def isSiliconViewKey (k : String) : Bool :=
  startsWith k "hw_curve_" ||
    ["residual_std", "residual_mean", "webgl_unmasked_renderer"].contains k

/-- The authentic source and whether the key is mint usable. -/
def authenticSource (fieldsBySource : Fields) (conflicted : Bool) (k : String) :
    String × Bool :=
  match candidates fieldsBySource k with
  | [] => ("missing", false)
  | (src, _) :: _ =>
      if conflicted && isSiliconViewKey k then ("conflict_silicon_skip", false)
      else if conflicted then (src, true)
      else if isSiliconViewKey k && mainHas fieldsBySource k then ("main", true)
      else (src, true)

def authEntry (fieldsBySource : Fields) (sourceConflicts : List String) (k : String) :
    Json :=
  let conflicted := (conflictKeys sourceConflicts).contains k
  let ranked := candidates fieldsBySource k
  let nests := (ranked.map fun c => sourceBase c.1).filter (· ≠ "main")
  let authentic := authenticSource fieldsBySource conflicted k
  .obj [
    ("authentic_source", .str authentic.1),
    ("conflicted", .bool conflicted),
    ("main_present", .bool (mainHas fieldsBySource k)),
    ("mint_usable", .bool authentic.2),
    ("nest_present", .arr (nests.map Json.str)),
    ("policy", .str "prefer_harder_to_forge_v2"),
    ("trust_score", ofInt (((ranked.head?).map Prod.snd).getD 0 : ℕ))]

def buildSourceAuthView (fieldsBySource : Fields) (sourceConflicts : List String) :
    Json :=
  let keys : Fields := SortedMap.empty.insertEach
    (authKeys.map fun k => (k, authEntry fieldsBySource sourceConflicts k))
  .obj [
    ("algo", .str "gr_source_auth_v2_trust_ladder"),
    ("keys", ofFields keys),
    ("ladder", .arr (["gateway(95)", "cloudflare(85)", "worker(70)", "iframe(55)",
      "main_silicon(45)", "main_soft(30)"].map Json.str)),
    ("policy", .str "prefer_harder_to_forge_on_conflict")]

def siliconKeys : List String :=
  ["hw_curve_audio", "hw_curve_webgl", "hw_curve_cpu", "residual_mean",
    "residual_std", "unit_surface_digest", "unit_surface_id",
    "webgl_unmasked_renderer"]

def softKeys : List String :=
  ["user_agent", "platform", "os_family", "hardware_concurrency",
    "device_memory", "webdriver", "timezone", "timezone_offset_min", "language",
    "form_class", "webrtc_host_ip_hash", "os_instance_hash"]

def freezeSilicon (main : Fields) (conflicts : List String) (out : Fields)
    (k : String) : Fields :=
  if conflicts.contains k then out.erase k
  else
    match main.get? k with
    | some v => if v.isNull then out else out.insert k v
    | none => out

def keepHardest (k : String) (best : Option (ℕ × Json)) (source : String × Json) :
    Option (ℕ × Json) :=
  match filledMember source.2 k with
  | none => best
  | some v =>
      let score := storeSourceTrustScore source.1 k
      if best.all fun b => b.1 < score then some (score, v) else best

def freezeSoft (fieldsBySource : Fields) (conflicts : List String) (out : Fields)
    (k : String) : Fields :=
  match fieldsBySource.entries.foldl (keepHardest k) none with
  | some (_, v) => out.insert k v
  | none => if conflicts.contains k then out.erase k else out

def authenticFieldsForMint (merged fieldsBySource : Fields)
    (sourceConflicts : List String) : Fields :=
  let conflicts := conflictKeys sourceConflicts
  let out :=
    match mainObject fieldsBySource with
    | some main => siliconKeys.foldl (freezeSilicon main conflicts) merged
    | none => merged
  softKeys.foldl (freezeSoft fieldsBySource conflicts) out

end EvidenceMerge

end GrServer
