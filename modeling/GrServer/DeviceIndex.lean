import GrServer.LinkScore
import GrServer.MapMerge

/-!
# The device index

Three maps: the last observation of every device, its fields, and the devices
listed under each binder key.  The file of an index is the JSON value that its
text parses to.  Software-stack analysis, commercial projection, number renderings
and scores come from elsewhere; what the resolver answers is part of a call.
-/

namespace GrServer

open Json Text

namespace DeviceIndex

open LinkScore (BinderObs)

/-! ## Observations -/

structure ObsEnv where
  /-- The soft verdicts of the stack analysis. -/
  stackSoft : Json → Bool
  commercialProjection : Json → Json
  residualFromStd : ℚ → String
  residualFromMeanFine : ℚ → String
  residualFromMeanXbr : ℚ → String
  parseF64 : String → Option ℚ

def strField (fo : Fields) (k : String) : Option String := (fo.get? k).bind asStr

def nonEmptyField (fo : Fields) (k : String) : Option String :=
  (strField fo k).filter (· ≠ "")

def projected (proj : Json) (path : List String) : Option String :=
  ((proj.pointer path).bind asStr).filter (· ≠ "")

def coresClass (fo : Fields) : Option String :=
  ((fo.get? "hardware_concurrency").bind asF64).map fun c =>
    if c ≤ 2 then "c0" else if c ≤ 4 then "c1" else if c ≤ 8 then "c2" else "c3"

/-- The engine's family; the user agent decides where no engine is given. -/
def familyOf (soft : Bool) (fo : Fields) : String :=
  if soft then "chromium_soft"
  else
    match (strField fo "engine_family").map lowered with
    | some engine =>
        if containsStr engine "gecko" then "gecko"
        else if containsStr engine "webkit" then "webkit"
        else if containsStr engine "blink" then "blink_or_real"
        else "real_residual"
    | none =>
        match (strField fo "user_agent").map lowered with
        | some agent =>
            if containsStr agent "firefox" then "gecko"
            else if containsStr agent "edg/" then "blink_or_real"
            else if containsStr agent "safari/" ∧ ¬ containsStr agent "chrome/" ∧
                ¬ containsStr agent "chromium" then "webkit"
            else "blink_or_real"
        | none => "real_residual"

def meanFromFields (fo : Fields) (proj : Json) : Option ℚ :=
  (((fo.get? "residual_mean").bind asF64).or
    ((proj.pointer ["materials", "residual_mean"]).bind asF64)).or
      ((proj.get? "residual_mean").bind asF64)

def hasDualSilicon (proj : Json) : Bool :=
  (projected proj ["materials", "hw_webgl_stable"]).isSome &&
    (projected proj ["materials", "hw_audio_stable"]).isSome

/-- The residual class; the last two sources are taken as they are. -/
def residualClassOf (env : ObsEnv) (fo : Fields) (proj : Json) : Option String :=
  let bucket := (proj.pointer ["materials", "residual_mean_bucket"]).bind asStr
  let std := (((fo.get? "residual_std").bind asF64).filter (0 < ·)).map env.residualFromStd
  if hasDualSilicon proj then
    (((meanFromFields fo proj).map env.residualFromMeanXbr).or
      (((bucket.bind fun s => stripPrefix? s "rm_").bind env.parseF64).map
        env.residualFromMeanXbr)).or std
  else
    ((std.or ((meanFromFields fo proj).map env.residualFromMeanFine)).or
      (strField fo "soft_residual_bucket")).or bucket

def binderObsFromFields (env : ObsEnv) (fields : Json) : BinderObs :=
  let fo := fields.asObject.getD SortedMap.empty
  let soft := env.stackSoft fields || ((fo.get? "residual_soft_like").bind asBool).getD false
  let proj := env.commercialProjection fields
  { family := familyOf soft fo
    softClass := soft
    tenantId := (((fo.get? "tenant_id").or (fo.get? "tenant")).bind asStr).filter (· ≠ "")
    unitSurfaceId := nonEmptyField fo "unit_surface_id"
    unitSurfaceAlgo := strField fo "unit_surface_algo"
    unitMultiroundStable := ((fo.get? "unit_multiround_stable").bind asBool).getD false
    residualClass := residualClassOf env fo proj
    residualEntropyOk := some ((((proj.pointer ["materials", "webgl_residual_entropy_ok"]).bind
      asBool).or ((fo.get? "webgl_residual_entropy_ok").bind asBool)).getD false)
    hwAudioStable := (projected proj ["materials", "hw_audio_stable"]).or
      (nonEmptyField fo "hw_audio_stable")
    hwWebglStable := (projected proj ["materials", "hw_webgl_stable"]).or
      (nonEmptyField fo "hw_webgl_stable")
    osInstanceHash := nonEmptyField fo "os_instance_hash"
    osFamily := (nonEmptyField fo "os_family").map lowered
    coresClass := coresClass fo
    webrtcHostIpHash := (nonEmptyField fo "webrtc_host_ip_hash_v2").or
      (nonEmptyField fo "webrtc_host_ip_hash")
    classDeviceId := projected proj ["device_id"] }

def unitKeys (obs : BinderObs) : List String :=
  match obs.unitSurfaceId with
  | some u =>
      ("unit:" ++ obs.family ++ ":" ++ u) ::
        if !obs.softClass && obs.unitMultiroundStable then ["unit:real:" ++ u] else []
  | none => []

def residualKeys (obs : BinderObs) : List String :=
  match obs.residualClass with
  | some r =>
      ("residual:" ++ obs.family ++ ":" ++ r) ::
        if !obs.softClass then ["residual:real:" ++ r] else []
  | none => []

def osKeys (obs : BinderObs) : List String :=
  match obs.osInstanceHash with
  | some o => ["os:" ++ o]
  | none => []

def binderKeys (obs : BinderObs) : List String :=
  unitKeys obs ++ residualKeys obs ++ osKeys obs

/-! ## Linking or minting -/

structure MemoryDeviceIndex where
  devices : SortedMap String BinderObs
  deviceFields : SortedMap String Json
  index : SortedMap String (List String)

def MemoryDeviceIndex.new : MemoryDeviceIndex where
  devices := SortedMap.empty
  deviceFields := SortedMap.empty
  index := SortedMap.empty

structure LinkEnv where
  obs : ObsEnv
  mint : AlgoGroups.MintEnv
  /-- The score of two field maps, and whether it may link in public. -/
  scoreLinkFields : Json → Json → ℚ × Bool
  scoreLink : BinderObs → BinderObs → ℚ
  linkThreshold : ℚ

variable (env : LinkEnv)

def mintedId (obs : BinderObs) : String :=
  ServerMint.serverMintCommercialId env.mint obs.toBinderObs

def emptyAnchor (obs : BinderObs) : Bool := ServerMint.isEmptyAnchor obs.toBinderObs

def addCandidates (candidates ids : List String) : List String :=
  ids.foldl (fun acc id => if id ∈ acc then acc else acc ++ [id]) candidates

def candidatesOf (ix : MemoryDeviceIndex) (keys : List String) : List String :=
  keys.foldl (fun acc k => addCandidates acc ((ix.index.get? k).getD [])) []

/-- The best score over 0, whose it is, and whether it may link in public. -/
structure Best where
  deviceId : Option String
  score : ℚ
  isPublic : Bool

def scored (ix : MemoryDeviceIndex) (fields : Json) (obs existing : BinderObs) (id : String) :
    ℚ × Bool :=
  match ix.deviceFields.get? id with
  | some existingFields => env.scoreLinkFields existingFields fields
  | none => (env.scoreLink existing obs, true)

def bestOf (ix : MemoryDeviceIndex) (fields : Json) (obs : BinderObs)
    (candidates : List String) : Best :=
  candidates.foldl (fun best id =>
    match ix.devices.get? id with
    | some existing =>
        let score := scored env ix fields obs existing id
        if best.score < score.1 then ⟨some id, score.1, score.2⟩ else best
    | none => best) ⟨none, 0, false⟩

def softOsFork (existing obs : BinderObs) : Bool :=
  (obs.softClass || existing.softClass) && existing.osInstanceHash.isSome &&
    obs.osInstanceHash.isSome && existing.osInstanceHash != obs.osInstanceHash

/-- The action, and the device id or `""`. -/
def decideDevice (ix : MemoryDeviceIndex) (fields fsResolve : Json) (obs : BinderObs)
    (candidates : List String) : String × String :=
  let best := bestOf env ix fields obs candidates
  let minted := mintedId env obs
  let decision := ((fsResolve.get? "decision").bind asStr).getD "mint"
  if emptyAnchor obs ∨ minted = "" then ("mint_refused_empty_anchor", "")
  else if decision = "merge" then
    match (fsResolve.get? "best_device_id").bind asStr with
    | some did =>
        match ix.devices.get? did with
        | some existing =>
            if softOsFork existing obs then ("mint_fork_soft_os", minted) else ("link_fs", did)
        | none => ("link_fs", did)
    | none => ("mint", minted)
  else if decision = "abstain" then ("mint_fs_abstain", minted)
  else
    match best.deviceId with
    | some did =>
        if candidates = [] ∧ env.linkThreshold ≤ best.score ∧ best.isPublic then
          match ix.devices.get? did with
          | some existing =>
              if mintedId env existing ≠ minted then ("mint_materials_diverge", minted)
              else ("link", did)
          | none => ("mint", minted)
        else ("mint_fs_split", minted)
    | none => ("mint", minted)

def pushId (id : String) (index : SortedMap String (List String)) (k : String) :
    SortedMap String (List String) :=
  index.insert k ((index.get? k).getD [] ++ [id])

def MemoryDeviceIndex.record (ix : MemoryDeviceIndex) (id : String) (obs : BinderObs)
    (fields : Json) : MemoryDeviceIndex where
  devices := ix.devices.insert id obs
  deviceFields := ix.deviceFields.insert id fields
  index := (binderKeys obs).foldl (pushId id) ix.index

def linkOrMint (ix : MemoryDeviceIndex) (fields fsResolve : Json) :
    String × Option String × MemoryDeviceIndex :=
  let obs := binderObsFromFields env.obs fields
  let decided := decideDevice env ix fields fsResolve obs (candidatesOf ix (binderKeys obs))
  if decided.2 = "" then (decided.1, none, ix)
  else (decided.1, some decided.2, ix.record decided.2 obs fields)

/-! ## The file -/

def optStr (s : Option String) : Json := (s.map Json.str).getD .null

def obsToJson (obs : BinderObs) : Json :=
  .obj [
    ("class_device_id", optStr obs.classDeviceId),
    ("cores_class", optStr obs.coresClass),
    ("family", .str obs.family),
    ("hw_audio_stable", optStr obs.hwAudioStable),
    ("hw_webgl_stable", optStr obs.hwWebglStable),
    ("os_family", optStr obs.osFamily),
    ("os_instance_hash", optStr obs.osInstanceHash),
    ("residual_class", optStr obs.residualClass),
    ("residual_entropy_ok", (obs.residualEntropyOk.map Json.bool).getD .null),
    ("soft_class", .bool obs.softClass),
    ("tenant_id", optStr obs.tenantId),
    ("unit_multiround_stable", .bool obs.unitMultiroundStable),
    ("unit_surface_algo", optStr obs.unitSurfaceAlgo),
    ("unit_surface_id", optStr obs.unitSurfaceId),
    ("webrtc_host_ip_hash", optStr obs.webrtcHostIpHash)]

/-- Empty strings are read as absent. -/
def readStr (v : Json) (k : String) : Option String :=
  ((v.get? k).bind asStr).filter (· ≠ "")

def obsFromJson (v : Json) : BinderObs where
  family := (readStr v "family").getD "unknown"
  softClass := v.boolOr "soft_class"
  unitSurfaceId := readStr v "unit_surface_id"
  unitSurfaceAlgo := readStr v "unit_surface_algo"
  unitMultiroundStable := v.boolOr "unit_multiround_stable"
  residualClass := readStr v "residual_class"
  osInstanceHash := readStr v "os_instance_hash"
  osFamily := readStr v "os_family"
  coresClass := readStr v "cores_class"
  webrtcHostIpHash := readStr v "webrtc_host_ip_hash"
  classDeviceId := readStr v "class_device_id"
  tenantId := readStr v "tenant_id"
  residualEntropyOk := (v.get? "residual_entropy_ok").bind asBool
  hwAudioStable := readStr v "hw_audio_stable"
  hwWebglStable := readStr v "hw_webgl_stable"

def mapValues {α β : Type} (f : α → β) (m : SortedMap String α) : SortedMap String β :=
  SortedMap.ofEntries (m.entries.map fun entry => (entry.1, f entry.2))

def idsToJson (ids : List String) : Json := .arr (ids.map Json.str)

def idsFromJson (v : Json) : List String := (v.asArray.getD []).filterMap asStr

/-- What `save` writes.  A value stands for the text of it: numbers are taken to
come back from the text as they were. -/
def saved (tenantId : String) (ix : MemoryDeviceIndex) : Json :=
  .obj [
    ("algo", .str "link_or_mint_v1"),
    ("device_fields", ofFields ix.deviceFields),
    ("devices", ofFields (mapValues obsToJson ix.devices)),
    ("index", ofFields (mapValues idsToJson ix.index)),
    ("server_mint_algo", .str ServerMint.serverMintAlgo),
    ("tenant_id", .str tenantId),
    ("version", .str "file_device_index_v1")]

def section? (raw : Json) (k : String) : Fields :=
  ((raw.get? k).bind asObject).getD SortedMap.empty

/-- What `open` reads; no file makes a new index. -/
def opened (file : Option Json) : MemoryDeviceIndex :=
  match file with
  | none => MemoryDeviceIndex.new
  | some raw => {
      devices := mapValues obsFromJson (section? raw "devices")
      deviceFields := section? raw "device_fields"
      index := mapValues idsFromJson (section? raw "index") }

/-- The tenant of the store, where the fields name none. -/
def withTenant (tenantId : String) (fields : Json) : Json :=
  if (readStr fields "tenant_id").isSome then fields
  else fields.setMember "tenant_id" (.str tenantId)

end DeviceIndex

end GrServer
