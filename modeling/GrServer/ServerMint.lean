import GrServer.AlgoGroups

/-!
# Server-minted commercial ids

`serverMintCommercialId` digests one of four lists of parts, depending on what
was observed, and puts the family of the class id in front.  Together with the
ids of the algorithm groups these are the ids that must tell materials and
tenants apart.
-/

namespace GrServer

open Json Text DigestParts AlgoGroups

namespace ServerMint

def unitSurfaceAlgoV1 : String := "gr_unit_v1"

structure BinderObs where
  softClass : Bool
  unitSurfaceId : Option String
  unitSurfaceAlgo : Option String
  unitMultiroundStable : Bool
  residualClass : Option String
  osInstanceHash : Option String
  osFamily : Option String
  coresClass : Option String
  webrtcHostIpHash : Option String
  classDeviceId : Option String
  tenantId : Option String
  residualEntropyOk : Option Bool
  hwAudioStable : Option String
  hwWebglStable : Option String

def BinderObs.unitVersionedOk (obs : BinderObs) : Bool :=
  obs.unitSurfaceId.isSome && obs.unitMultiroundStable &&
    obs.unitSurfaceAlgo.any fun a => a = unitSurfaceAlgoV1 || startsWith a "gr_unit_v"

/-- A class id without its legacy prefix. -/
def classBody (id : String) : String :=
  (((stripPrefix? id "dh_").or (stripPrefix? id "dv_")).or (stripPrefix? id "dg_")).getD id

def isEmptyAnchor (obs : BinderObs) : Bool :=
  (obs.residualClass.all fun s => s = "" || s = "rm_none") &&
    (obs.classDeviceId.all fun id => classBody id = "" || classBody id = "class_none") &&
    !obs.unitVersionedOk

def segmentPrefixes : List String := ["dv0", "dv4", "dv5", "dv6"]

def isMultiSegmentId (id : String) : Bool :=
  segmentPrefixes.any fun p => startsWith id (p ++ "-")

/-- The family of a class id, a tier's name; several segments make it a `dv`. -/
def commercialFamily (id : String) : Option CompletenessTier :=
  if isMultiSegmentId id then some .dv
  else if startsWith id "dh-" || startsWith id "dh_" then some .dh
  else if startsWith id "dv-" || startsWith id "dv_" then some .dv
  else if startsWith id "dg-" || startsWith id "dg_" then some .dg
  else none

def mintPrefix (obs : BinderObs) : CompletenessTier :=
  (obs.classDeviceId.bind commercialFamily).getD .dv

/-! ## Parts -/

def serverMintAlgo : String := "server_mint_v1"

def digestPathUnitV1 : String := "real_curves_unit_v1"

namespace BinderObs

variable (obs : BinderObs)

def tenant : String := obs.tenantId.getD "default"

def residual : String := obs.residualClass.getD "rm_none"

def residualLed : Bool := obs.residual ≠ "rm_none" && obs.residual ≠ ""

/-- An unversioned unit must not fork ids. -/
def unitMint : String :=
  if obs.unitVersionedOk then obs.unitSurfaceId.getD "unit_none" else "unit_conf_only"

/-- The host separator, the WebRTC hash before the instance. -/
def osI : String := (obs.webrtcHostIpHash.or obs.osInstanceHash).getD "os_unknown"

def audio : String := (obs.hwAudioStable.filter (· ≠ "")).getD "audio_none"

def webgl : String := (obs.hwWebglStable.filter (· ≠ "")).getD "webgl_none"

def dualHw : Bool := obs.audio ≠ "audio_none" && obs.webgl ≠ "webgl_none"

/-- The host is left out of the body when both digests stand for the machine. -/
def hostForMint : String :=
  let residualXbr := obs.residualClass.any fun s => startsWith s "rm_"
  if obs.dualHw && (obs.residualEntropyOk.getD false || residualXbr) then "xbr_host_deferred"
  else obs.osI

def pair : String :=
  if obs.dualHw then "dual_hw_audio_webgl"
  else if obs.audio ≠ "audio_none" then "single_hw_audio_incomplete"
  else if obs.webgl ≠ "webgl_none" then "single_hw_webgl_incomplete"
  else "no_hw_curve_digest"

end BinderObs

/-- The parts after the algorithm, starting with the path and the tenant. -/
def mintParts (obs : BinderObs) : List String :=
  let osFamily := obs.osFamily.getD ""
  if obs.softClass then
    ["soft", obs.tenant, obs.residual,
      if obs.residualLed then "unit_conf_only" else obs.unitMint,
      obs.osI, osFamily, obs.coresClass.getD ""]
  else if obs.residualLed then
    ["real_xbr", obs.tenant, obs.residual, "residual_led_xbr_v5", obs.pair, osFamily,
      obs.audio, obs.webgl, obs.hostForMint]
  else if obs.unitVersionedOk then
    [digestPathUnitV1, obs.tenant, obs.residual, obs.unitMint, unitSurfaceAlgoV1, osFamily,
      obs.osI]
  else
    ["real", obs.tenant, obs.residual, (obs.classDeviceId.map classBody).getD "class_none",
      osFamily, obs.osI]

def digestedParts (obs : BinderObs) : List String := serverMintAlgo :: mintParts obs

def serverMintCommercialId (env : MintEnv) (obs : BinderObs) : String :=
  if isEmptyAnchor obs then ""
  else
    (mintPrefix obs).asStr ++ "_" ++ short (env.sha256Hex (digestInput (digestedParts obs)))

section Separation

variable {env : MintEnv}

theorem serverMint_eq_iff {a b : BinderObs} (ha : isEmptyAnchor a = false)
    (hb : isEmptyAnchor b = false)
    (h : env.Apart (digestInput (digestedParts a)) (digestInput (digestedParts b))) :
    serverMintCommercialId env a = serverMintCommercialId env b ↔
      mintPrefix a = mintPrefix b ∧
        (digestedParts a = digestedParts b ∨ Shifted (digestedParts a) (digestedParts b)) := by
  rw [← digest_eq_iff h]
  unfold serverMintCommercialId
  rw [ha, hb, if_neg Bool.false_ne_true, if_neg Bool.false_ne_true]
  constructor
  · intro hid
    exact tier_append_inj hid
  · intro hparts
    rw [hparts.1, hparts.2]

theorem tenant_of_parts {a b : BinderObs} (h : digestedParts a = digestedParts b) :
    a.tenant = b.tenant := by
  have hsecond : ∀ obs : BinderObs, (digestedParts obs)[2]? = some obs.tenant := by
    intro obs
    unfold digestedParts mintParts
    dsimp only
    split_ifs <;> rfl
  have htenant : some a.tenant = some b.tenant := by rw [← hsecond a, ← hsecond b, h]
  exact Option.some.inj htenant

/-- What the ids owe to the materials of two observations. -/
structure SeparatesMaterials (env : MintEnv) (fieldsA fieldsB : Json) (a b : BinderObs) :
    Prop where
  groups : commercialIdFromSelection env (selectIdentityGroup env fieldsA) =
      commercialIdFromSelection env (selectIdentityGroup env fieldsB) →
    (selectIdentityGroup env fieldsA).groupId = (selectIdentityGroup env fieldsB).groupId ∧
      (selectIdentityGroup env fieldsA).bucketParts =
        (selectIdentityGroup env fieldsB).bucketParts
  mints : isEmptyAnchor a = false → isEmptyAnchor b = false →
    serverMintCommercialId env a = serverMintCommercialId env b →
      digestedParts a = digestedParts b
  tenants : isEmptyAnchor a = false → isEmptyAnchor b = false →
    serverMintCommercialId env a = serverMintCommercialId env b → a.tenant = b.tenant

/-- Ids separate materials and tenants as long as no bar inside a part stands
for a bar between two parts of the other observation. -/
theorem separatesMaterials_iff {fieldsA fieldsB : Json} {a b : BinderObs}
    (hgroups : env.Apart (digestInput (selectIdentityGroup env fieldsA).bucketParts)
      (digestInput (selectIdentityGroup env fieldsB).bucketParts))
    (hmints : env.Apart (digestInput (digestedParts a)) (digestInput (digestedParts b))) :
    SeparatesMaterials env fieldsA fieldsB a b ↔
      ¬ Shifted (selectIdentityGroup env fieldsA).bucketParts
          (selectIdentityGroup env fieldsB).bucketParts ∧
        ¬ (isEmptyAnchor a = false ∧ isEmptyAnchor b = false ∧ mintPrefix a = mintPrefix b ∧
          Shifted (digestedParts a) (digestedParts b)) := by
  have hwa := @wellFormed_selectIdentityGroup env fieldsA
  have hwb := @wellFormed_selectIdentityGroup env fieldsB
  constructor
  · intro h
    constructor
    · intro hshifted
      have hid := (commercialId_eq_iff hwa hwb hgroups).mpr (Or.inr hshifted)
      exact hshifted.1 (h.groups hid).2
    · intro hboth
      obtain ⟨ha, hb, htier, hshifted⟩ := hboth
      have hid := (serverMint_eq_iff ha hb hmints).mpr ⟨htier, Or.inr hshifted⟩
      exact hshifted.1 (h.mints ha hb hid)
  · intro h
    obtain ⟨hgroup, hmint⟩ := h
    have hparts : isEmptyAnchor a = false → isEmptyAnchor b = false →
        serverMintCommercialId env a = serverMintCommercialId env b →
          digestedParts a = digestedParts b := by
      intro ha hb hid
      obtain ⟨htier, hor⟩ := (serverMint_eq_iff ha hb hmints).mp hid
      exact hor.resolve_right fun hshifted => hmint ⟨ha, hb, htier, hshifted⟩
    refine ⟨?_, hparts, ?_⟩
    · intro hid
      have hsame := ((commercialId_eq_iff hwa hwb hgroups).mp hid).resolve_right hgroup
      exact ⟨groupId_of_parts hwa hwb hsame, hsame⟩
    · intro ha hb hid
      exact tenant_of_parts (hparts ha hb hid)

end Separation

/-! ## Two observations -/

def desktopFields : Json := .obj [("form_class", .str "desktop"), ("platform", .str "Linux")]

def phoneFields : Json := .obj [("form_class", .str "phone"), ("platform", .str "Android")]

def softObs (tenant : String) (residual unit host : Option String) : BinderObs where
  softClass := true
  unitSurfaceId := unit
  unitSurfaceAlgo := some unitSurfaceAlgoV1
  unitMultiroundStable := true
  residualClass := residual
  osInstanceHash := none
  osFamily := some "linux"
  coresClass := none
  webrtcHostIpHash := host
  classDeviceId := none
  tenantId := some tenant
  residualEntropyOk := none
  hwAudioStable := none
  hwWebglStable := none

def sampleDigests : List (List UInt8 × String) :=
  [(asBytes "algo_groups_v1|G_DV_FE_SURFACE|dv_fe_surface_v1|desktop|Linux|cores_unk|",
      "518a0da8a7c774c2e51accb438a2464d23a1e33a6fad3a718cd81764964a92ec"),
    (asBytes "algo_groups_v1|G_DV_FE_SURFACE|dv_fe_surface_v1|phone|Android|cores_unk|",
      "a40ce6e7f0088af03ce7fd1ef04fcdac2c841c04d7ba92620227decd9d3d25ee"),
    (asBytes "server_mint_v1|soft|acme|rm_0.260|unit_conf_only|h1|linux||",
      "d7253fc50634817e50d438c11195e588ed9378c3b3527ad32cae4169cc651636"),
    (asBytes "server_mint_v1|soft|globex|rm_0.260|unit_conf_only|h1|linux||",
      "13ae05c5c80862a11c5acc627ba89baa96dd8ee9c8147752630ba64adb60c208")]

def sampleEnv : MintEnv where
  sha256Hex input := ((sampleDigests.find? (·.1 = input)).map Prod.snd).getD ""
  showF64 _ := ""
  residualClass _ := "rm_0.26000"
  showValue _ := ""
  softStack _ := false

/-- A desktop and a phone of two tenants get ids of their own. -/
theorem sample_materials_separate :
    SeparatesMaterials sampleEnv desktopFields phoneFields
      (softObs "acme" (some "rm_0.260") none (some "h1"))
      (softObs "globex" (some "rm_0.260") none (some "h1")) := by
  have hgroups : sampleEnv.Apart
      (digestInput (selectIdentityGroup sampleEnv desktopFields).bucketParts)
      (digestInput (selectIdentityGroup sampleEnv phoneFields).bucketParts) :=
    fun hcollision => absurd hcollision (by decide)
  have hmints : sampleEnv.Apart
      (digestInput (digestedParts (softObs "acme" (some "rm_0.260") none (some "h1"))))
      (digestInput (digestedParts (softObs "globex" (some "rm_0.260") none (some "h1")))) :=
    fun hcollision => absurd hcollision (by decide)
  have hfields := @not_shifted_of_no_bar
    ((selectIdentityGroup sampleEnv desktopFields).bucketParts)
    ((selectIdentityGroup sampleEnv phoneFields).bucketParts) (by decide) (by decide)
  have hobs := @not_shifted_of_no_bar
    (digestedParts (softObs "acme" (some "rm_0.260") none (some "h1")))
    (digestedParts (softObs "globex" (some "rm_0.260") none (some "h1")))
    (by decide) (by decide)
  exact (separatesMaterials_iff hgroups hmints).mpr ⟨hfields, fun hboth => hobs hboth.2.2.2⟩

def barFields : Json := .obj [("form_class", .str "a|b"), ("platform", .str "c")]

def shiftedFields : Json := .obj [("form_class", .str "a"), ("platform", .str "b|c")]

/-- Two surfaces share an id, and so does a tenant with another whose name and
unit move the bars; neither takes a collision of the digest. -/
theorem shifted_bars_share_ids :
    sampleEnv.Apart (digestInput (selectIdentityGroup sampleEnv barFields).bucketParts)
        (digestInput (selectIdentityGroup sampleEnv shiftedFields).bucketParts) ∧
      sampleEnv.Apart (digestInput (digestedParts (softObs "t" none (some "u|rm_none|v") none)))
        (digestInput (digestedParts (softObs "t|rm_none|u" none (some "v") none))) ∧
      ¬ SeparatesMaterials sampleEnv barFields shiftedFields
        (softObs "t" none (some "u|rm_none|v") none)
        (softObs "t|rm_none|u" none (some "v") none) := by
  refine ⟨fun _ => by decide, fun _ => by decide, ?_⟩
  intro h
  have htenants := h.tenants (by decide) (by decide) (by decide)
  exact absurd htenants (by decide)

end ServerMint

end GrServer
