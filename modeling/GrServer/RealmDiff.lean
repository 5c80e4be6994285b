import GrServer.MapMerge
import GrServer.SourceAuth

/-!
# The structured realm diff

The values of every source are taken as coarse classes and compared layer by
layer.  Beside the keys in conflict the diff names the realms that disagree, the
pairs they disagree in and the one that stands out.  The order in which a hash
map gives its keys is a parameter, and a score is its exact value.
-/

namespace GrServer

open Json Text SortedMap

namespace EvidenceMerge

structure HashOrder where
  pairs : List (String × String) → List (String × String)
  realms : List String → List String

def realmLayers : List (String × List String) :=
  [("L1_identity",
      ["user_agent", "platform", "os_family", "language", "timezone",
        "timezone_offset_min", "webdriver"]),
    ("L2_hardware",
      ["hardware_concurrency", "device_memory", "vendor", "max_touch_points",
        "screen_width", "screen_height", "webgl_unmasked_renderer",
        "webgl_unmasked_vendor"]),
    ("L3_network",
      ["asn", "colo", "country", "bot_score", "cf_edge_present", "ip_reputation"]),
    ("L4_behavior",
      ["form_class", "fonts_present", "plugins_len", "mime_types_len", "chrome_runtime",
        "webrtc_host_ip_hash"])]

def realmOfSource (src : String) : String :=
  let base := sourceBase src
  if base = "main" then "main"
  else if base = "worker" ∨ base = "shared_worker" ∨ base = "service_worker" then "worker"
  else if base = "iframe" ∨ base = "sandbox_iframe" ∨ base = "sandbox:iframe" then "iframe"
  else if base = "sandbox" then "sandbox"
  else if base = "gateway" then "gateway"
  else if base = "cloudflare" ∨ base = "cf" then "cloudflare"
  else if startsWith base "worker" then "worker"
  else if startsWith base "iframe" then "iframe"
  else if startsWith base "sandbox" then "sandbox"
  else "other"

structure RealmEntry where
  src : String
  realm : String
  norm : String

def realmMembers (source : String × Json) : Option Fields :=
  if isConflictSource (sourceBase source.1) then source.2.asObject else none

def realmEntry (T : TextOps) (source : String × Json) (k : String) (v : Json) :
    Option RealmEntry :=
  if isSurfaceLocalKey k || isBlank v then none
  else
    let norm := softNormalizeForCompare T source.1 k v
    if norm = "" then none else some ⟨source.1, realmOfSource source.1, norm⟩

def keyEntries (T : TextOps) (fieldsBySource : Fields) : SortedMap String (List RealmEntry) :=
  collectAll realmMembers (realmEntry T) fieldsBySource.entries

def hardwareClassDriftOk (classes : List String) : Bool :=
  withinOneStep classes

inductive RealmVerdict where
  | agree
  | hardConflict
  | softMismatch
  deriving DecidableEq

def realmKeyVerdict (key layer : String) (classes : List String) : RealmVerdict :=
  if classes.all fun c => some c = classes.head? then .agree
  else if key = "hardware_concurrency" ∨ key = "device_memory" then
    if hardwareClassDriftOk classes then .agree else .softMismatch
  else if isHardEquiKey key ∨
      (layer = "L1_identity" ∨ layer = "L2_hardware") ∧ key ≠ "webdriver" then
    .hardConflict
  else .softMismatch

/-- The verdict on a key that at least two sources have a class for. -/
def comparedVerdict (groups : SortedMap String (List RealmEntry)) (layer key : String) :
    Option RealmVerdict :=
  let entries := (groups.get? key).getD []
  if entries.length < 2 then none
  else some (realmKeyVerdict key layer (entries.map RealmEntry.norm))

/-! ## The conflict graph -/

structure RealmClash where
  a : String
  b : String
  key : String
  verdict : RealmVerdict

def clashesOf (key : String) (verdict : RealmVerdict) : List RealmEntry → List RealmClash
  | [] => []
  | e :: rest =>
      (rest.filter fun e' => e.norm ≠ e'.norm).map (fun e' => ⟨e.realm, e'.realm, key, verdict⟩) ++
        clashesOf key verdict rest

def RealmClash.weight (c : RealmClash) : ℕ :=
  if c.verdict = .hardConflict then 2 else 1

def RealmClash.edge (c : RealmClash) : String × String :=
  if c.a ≤ c.b then (c.a, c.b) else (c.b, c.a)

def sortDedup (keys : List String) : List String :=
  (keys.insertionSort (· ≤ ·)).dedup

def conflictWeight (clashes : List RealmClash) (realm : String) : ℕ :=
  (clashes.map fun c =>
    (if c.a = realm then c.weight else 0) + (if c.b = realm then c.weight else 0)).sum

def strs (items : List String) : Json := .arr (items.map .str)

def edgeJson (clashes : List RealmClash) (edge : String × String) : Json :=
  let own := clashes.filter fun c => c.edge = edge
  let severe := own.any fun c => c.verdict = .hardConflict
  ofFields (SortedMap.ofEntries [
    ("a", .str edge.1), ("b", .str edge.2),
    ("conflicted_keys", strs (sortDedup (own.map RealmClash.key))),
    ("severity", .str (if severe then "hard" else "soft"))])

def edgeList (order : HashOrder) (clashes : List RealmClash) : List Json :=
  let count := fun edge => (clashes.filter fun c => c.edge = edge).length
  let sorted := (order.pairs (clashes.map RealmClash.edge).dedup).insertionSort fun e e' =>
    count e' < count e ∨ count e = count e' ∧ e.1 ≤ e'.1
  (sorted.take 8).map (edgeJson clashes)

/-- The realm whose disagreement clearly exceeds that of every other. -/
def outlierRealm (order : HashOrder) (clashes : List RealmClash) : Json :=
  let weight := conflictWeight clashes
  let realms := order.realms ((clashes.flatMap fun c => [c.a, c.b]).dedup)
  let heaviest := realms.foldl (fun best r =>
    match best with
    | some b => if weight b ≤ weight r then some r else some b
    | none => some r) none
  match heaviest with
  | none => .null
  | some realm =>
      let second := ((realms.filter (· ≠ realm)).map weight).foldl max 0
      if 3 ≤ weight realm ∧ second * 2 ≤ weight realm then
        let keys := clashes.flatMap fun c =>
          (if c.a = realm then [c.key] else []) ++ (if c.b = realm then [c.key] else [])
        ofFields (SortedMap.ofEntries [
          ("realm", .str realm), ("disagree_weight", .num (.float (weight realm))),
          ("keys", strs (sortDedup keys))])
      else .null

def layerJson (groups : SortedMap String (List RealmEntry)) (layer : String × List String) :
    Json :=
  let verdicts := layer.2.filterMap fun key =>
    (comparedVerdict groups layer.1 key).map fun verdict => (key, verdict)
  let conflicted := verdicts.filter fun v => v.2 ≠ .agree
  let verdict :=
    if conflicted.any fun v => v.2 = .hardConflict then "hard_conflict"
    else if conflicted.any fun v => v.2 = .softMismatch then "soft_mismatch"
    else if 0 < verdicts.length then "agree"
    else "not_compared"
  ofFields (SortedMap.ofEntries [
    ("verdict", .str verdict), ("compared", ofInt verdicts.length),
    ("conflicted", ofInt conflicted.length),
    ("conflicted_keys", strs (sortDedup (conflicted.map Prod.fst)))])

def layerOut (groups : SortedMap String (List RealmEntry)) : Fields :=
  SortedMap.empty.insertEach (realmLayers.map fun layer => (layer.1, layerJson groups layer))

def conflictedKeysOf (v : Json) : List String :=
  ((((v.get? "conflicted_keys").bind asArray).getD []).filterMap asStr)

def m1NumericCaps : List String :=
  ["device_memory", "hardware_concurrency", "device_model", "timezone",
    "timezone_offset_min", "max_touch_points", "screen_width", "screen_height",
    "webgl_max_texture"]

/-- `f64::round` of a value that is not negative, to so many parts of one. -/
def roundedTo (parts : ℕ) (x : ℚ) : ℚ :=
  ((x * parts + 1 / 2).floor : ℚ) / parts

def realmCoherence (compared conflicted hard : ℕ) : ℚ × String :=
  if compared = 0 then (1, "qualified")
  else
    let base : ℚ := 1 - (conflicted : ℚ) / compared
    let score := roundedTo 10000 (if 0 < hard then min base (1 / 2) else base)
    (score, if 9 / 10 ≤ score then "agree" else if 6 / 10 ≤ score then "partial" else "conflict")

def structuredRealmDiff (T : TextOps) (order : HashOrder) (fieldsBySource : Fields) : Json :=
  let groups := keyEntries T fieldsBySource
  let verdicts := realmLayers.flatMap fun layer => layer.2.filterMap fun key =>
    (comparedVerdict groups layer.1 key).map fun verdict => (key, verdict)
  let hard := (verdicts.filter fun v => v.2 = .hardConflict).length
  let soft := (verdicts.filter fun v => v.2 = .softMismatch).length
  let clashes := (verdicts.filter fun v => v.2 ≠ .agree).flatMap fun v =>
    clashesOf v.1 v.2 ((groups.get? v.1).getD [])
  let comparable := fun key => 2 ≤ ((groups.get? key).getD []).length
  let nodes := sortDedup (groups.entries.flatMap fun group =>
    if 2 ≤ group.2.length then group.2.map RealmEntry.realm else [])
  let verdict :=
    if 0 < hard then "hard_conflict"
    else if 0 < soft then "soft_mismatch"
    else if 0 < verdicts.length then "agree"
    else "not_compared"
  let coherence := realmCoherence verdicts.length (hard + soft) hard
  ofFields (SortedMap.ofEntries [
    ("algo", .str "gr_realm_conflict_graph_v1"), ("verdict", .str verdict),
    ("severity", .num (.float (roundedTo 100 (hard * (2 / 5) + soft * (3 / 20))))),
    ("conflicted_keys", strs (sortDedup
      ((layerOut groups).entries.flatMap fun layer => conflictedKeysOf layer.2))),
    ("layers", ofFields (layerOut groups)),
    ("graph", ofFields (SortedMap.ofEntries [
      ("nodes", strs nodes), ("edges", .arr (edgeList order clashes))])),
    ("outlier_realm", outlierRealm order clashes),
    ("realm_coherence_score", .num (.float coherence.1)),
    ("realm_coherence_verdict", .str coherence.2),
    ("numeric_caps_compared", ofInt (m1NumericCaps.filter comparable).length)])

end EvidenceMerge

end GrServer
