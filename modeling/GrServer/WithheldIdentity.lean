import GrServer.ReturnGate

/-!
# Withheld identity

Two results that differ in the identity legs alone should look alike to the
browser as long as the gate withholds the identity.  The projection and the
response copy some of the legs whatever the gate decides, and they look alike
exactly when those legs do.
-/

namespace GrServer

open Json Text

namespace ReturnGate

/-! ## Results -/

/-- An analyze result: the product before the gate, the device block, and
every other member. -/
structure AnalyzeResult where
  rest : Fields
  product : Fields
  device : Option Fields

def AnalyzeResult.gated (r : AnalyzeResult) (gate : Json) : Json :=
  applyIdentityReturnGate (ofFields r.product) gate

def AnalyzeResult.toFields (r : AnalyzeResult) (gate : Json) : Fields :=
  let m := r.rest.insert "product" (r.gated gate)
  r.device.elim m fun d => m.insert "device" (ofFields d)

def AnalyzeResult.response (r : AnalyzeResult) (gate : Json) : Json :=
  slimAnalyzeResult (ofFields (r.toFields gate))

def NoLeg (k : String) : Prop := k ∉ sdkIdentityLegs

/-- The results differ in the legs of the product and of the device block only. -/
structure SameButLegs (r r' : AnalyzeResult) : Prop where
  rest : r.rest = r'.rest
  product : SortedMap.AgreeOn NoLeg r.product r'.product
  deviceThere : r.device.isSome = r'.device.isSome
  device : ∀ d ∈ r.device, ∀ d' ∈ r'.device, SortedMap.AgreeOn NoLeg d d'

/-- The browser cannot tell the results apart. -/
structure Withheld (gate : Json) (r r' : AnalyzeResult) : Prop where
  projection : (r.gated gate).get? "sdk_projection" = (r'.gated gate).get? "sdk_projection"
  response : r.response gate = r'.response gate

def shownDeviceLegs : List String :=
  ["device_id", "device_tier", "device_confidence", "peer_similarity", "homogenization"]

def SameScore (a a' : Option Json) : Prop :=
  a.isSome = a'.isSome ∧
    ∀ k ∈ scoreKeys, jsonOf (a.bind (·.get? k)) = jsonOf (a'.bind (·.get? k))

structure SameShownLegs (r r' : AnalyzeResult) : Prop where
  copied : ∀ k ∈ ["peer_similarity", "homogenization", "curve_descriptors"],
    jsonOf (r.product.get? k) = jsonOf (r'.product.get? k)
  scored : ∀ axis ∈ ["os", "br"], SameScore (r.product.get? axis) (r'.product.get? axis)
  id : r.product.get? "device_id" = r'.product.get? "device_id"
  device : ∀ d ∈ r.device, ∀ d' ∈ r'.device, ∀ k ∈ shownDeviceLegs, d.get? k = d'.get? k

theorem get?_pickFields (src : Json) (keys : List String) (k : String) :
    (pickFields src keys).get? k = if k ∈ keys then src.get? k else none := by
  unfold pickFields
  induction keys using List.reverseRecOn with
  | nil => simp
  | append_singleton init j ih =>
      rw [List.foldl_append, List.foldl_cons, List.foldl_nil]
      cases hj : src.get? j with
      | none =>
          rw [ih]
          by_cases hk : k = j
          · subst hk
            simp [hj]
          · simp [hk]
      | some v =>
          rw [SortedMap.get?_insert, ih]
          by_cases hk : k = j
          · subst hk
            simp [hj]
          · simp [hk]

theorem ofFields_inj {m m' : Fields} : ofFields m = ofFields m' ↔ m = m' := by
  constructor
  · intro h
    refine SortedMap.ext_get? fun k => ?_
    rw [← get?_ofFields, ← get?_ofFields, h]
  · rintro rfl
    rfl

theorem pick_eq_iff {src src' : Json} {keys : List String} :
    pick src keys = pick src' keys ↔ ∀ k ∈ keys, src.get? k = src'.get? k := by
  constructor
  · intro h k hk
    have hget := congrArg (fun v => v.get? k) h
    simpa only [pick, get?_ofFields, get?_pickFields, if_pos hk] using hget
  · intro h
    refine congrArg ofFields (SortedMap.ext_get? fun k => ?_)
    rw [get?_pickFields, get?_pickFields]
    split_ifs with hk
    · exact h k hk
    · rfl

/-! ## The projection -/

instance : DecidablePred NoLeg := fun k => inferInstanceAs (Decidable (k ∉ sdkIdentityLegs))

theorem find?_map (keys : List String) (f : String → Json) (k : String) :
    Assoc.find? k (keys.map fun j => (j, f j)) = if k ∈ keys then some (f k) else none := by
  induction keys with
  | nil => rfl
  | cons j rest ih =>
      by_cases hk : k = j
      · subst hk
        simp [Assoc.find?]
      · simp [Assoc.find?, hk, ih]

theorem digestBlock_eq_iff {a a' : Json} {keys : List String} :
    digestBlock a keys [] = digestBlock a' keys [] ↔
      ∀ k ∈ keys, jsonOf (a.get? k) = jsonOf (a'.get? k) := by
  unfold digestBlock record
  rw [List.append_nil, List.append_nil]
  constructor
  · intro h k hk
    have hget := congrArg (fun v => v.get? k) h
    simp only [get?_ofFields, SortedMap.get?_ofEntries] at hget
    rw [find?_map keys fun j => jsonOf (a.get? j), find?_map keys fun j => jsonOf (a'.get? j),
      if_pos hk, if_pos hk] at hget
    exact Option.some.inj hget
  · intro h
    refine congrArg (fun entries => ofFields (SortedMap.ofEntries entries)) ?_
    exact List.map_congr_left fun k hk => congrArg (Prod.mk k) (h k hk)

theorem scoreOnly_eq_iff {product product' : Json} {axis : String} :
    scoreOnly product axis = scoreOnly product' axis ↔
      SameScore (product.get? axis) (product'.get? axis) := by
  unfold scoreOnly SameScore
  cases product.get? axis with
  | none =>
      cases product'.get? axis with
      | none => simp
      | some a' => simp [jsonOf, digestBlock, record, ofFields]
  | some a =>
      cases product'.get? axis with
      | none => simp [jsonOf, digestBlock, record, ofFields]
      | some a' => simpa [jsonOf] using digestBlock_eq_iff

theorem jsonOf_bind (v : Option Json) (k : String) :
    v.bind (·.get? k) = (jsonOf v).get? k := by
  cases v <;> rfl

theorem jsonOf_or {a a' : Option Json} (v : Option Json) (h : jsonOf a = jsonOf a') :
    jsonOf (v.or a) = jsonOf (v.or a') := by
  cases v with
  | none => simpa using h
  | some v => rfl

theorem pointer_two (m : Fields) (k j : String) :
    (ofFields m).pointer [k, j] = (m.get? k).bind (·.get? j) := by
  rw [pointer_cons, get?_ofFields]
  refine congrArg ((m.get? k).bind) (funext fun v => ?_)
  rw [pointer_cons]
  exact Option.bind_fun_some _

section Projection

variable {q q' : Fields}

theorem slimEntries_eq (hq : SortedMap.AgreeOn NoLeg q q')
    (hcopied : ∀ k ∈ ["peer_similarity", "homogenization", "curve_descriptors"],
      jsonOf (q.get? k) = jsonOf (q'.get? k))
    (hscored : ∀ axis ∈ ["os", "br"], SameScore (q.get? axis) (q'.get? axis)) (emit : Bool) :
    slimEntries (ofFields q) emit = slimEntries (ofFields q') emit := by
  have hflags : jsonOf ((q.get? "os").bind (·.get? "environment_flags")) =
      jsonOf ((q'.get? "os").bind (·.get? "environment_flags")) :=
    (hscored "os" (by decide)).2 "environment_flags" (by decide)
  have hhomogeneity : jsonOf ((q.get? "homogenization").bind (·.get? "environment_homogeneity")) =
      jsonOf ((q'.get? "homogenization").bind (·.get? "environment_homogeneity")) := by
    rw [jsonOf_bind, jsonOf_bind, hcopied "homogenization" (by decide)]
  have hos : scoreOnly (ofFields q) "os" = scoreOnly (ofFields q') "os" :=
    scoreOnly_eq_iff.mpr (hscored "os" (by decide))
  have hbr : scoreOnly (ofFields q) "br" = scoreOnly (ofFields q') "br" :=
    scoreOnly_eq_iff.mpr (hscored "br" (by decide))
  have hrpa : scoreOnly (ofFields q) "rpa" = scoreOnly (ofFields q') "rpa" := by
    unfold scoreOnly
    rw [get?_ofFields, get?_ofFields, hq "rpa" (by decide)]
  unfold slimEntries
  rw [hos, hbr, hrpa]
  simp only [pointer_two, get?_ofFields, hcopied "peer_similarity" (by decide),
    hcopied "homogenization" (by decide), hcopied "curve_descriptors" (by decide)]
  simp (disch := decide) only [hq _ _, jsonOf_or _ hflags, jsonOf_or _ hhomogeneity]

theorem find?_of_nodup {entries : List (String × Json)} (h : (Assoc.keys entries).Nodup)
    {k : String} {v : Json} (hmem : (k, v) ∈ entries) : Assoc.find? k entries = some v := by
  induction entries with
  | nil => cases hmem
  | cons entry rest ih =>
      rw [Assoc.keys_cons, List.nodup_cons] at h
      rcases List.mem_cons.mp hmem with rfl | hrest
      · simp [Assoc.find?]
      · have hne : k ≠ entry.1 := by
          rintro rfl
          exact h.1 (List.mem_map.mpr ⟨_, hrest, rfl⟩)
        simp only [Assoc.find?, if_neg hne]
        exact ih h.2 hrest

def slimKeys : List String :=
  ["algo", "emit_identity", "product_version", "cookie_fields", "peer_similarity",
    "homogenization", "environment_homogeneity", "rpa_bands", "behavior_self_sim",
    "shadow_score", "canary_model", "claim_obs_graph", "ja4h_lite", "config_version",
    "environment_flags", "association_level", "association_ladder", "curve_descriptors", "os",
    "br", "rpa", "privacy", "note"]

theorem keys_slimEntries (product : Json) (emit : Bool) :
    Assoc.keys (slimEntries product emit) = slimKeys := rfl

theorem projection_get? {product : Json} {k : String} {v : Json}
    (h : (k, v) ∈ slimEntries product false) :
    (sdkSlimProjection product false).get? k = some v := by
  have hnodup : (Assoc.keys (slimEntries product false)).Nodup := by
    rw [keys_slimEntries]
    decide
  have hkey : k ∈ slimKeys := by
    rw [← keys_slimEntries product false]
    exact List.mem_map.mpr ⟨(k, v), h, rfl⟩
  have hne : k ≠ "identity_withheld" := by
    rintro rfl
    revert hkey
    decide
  unfold sdkSlimProjection
  simp only [Bool.false_eq_true, if_false, get?_ofFields]
  rw [SortedMap.get?_insert_of_ne hne, SortedMap.get?_ofEntries, find?_of_nodup hnodup h]

theorem projection_eq_iff (hq : SortedMap.AgreeOn NoLeg q q') :
    sdkSlimProjection (ofFields q) false = sdkSlimProjection (ofFields q') false ↔
      (∀ k ∈ ["peer_similarity", "homogenization", "curve_descriptors"],
        jsonOf (q.get? k) = jsonOf (q'.get? k)) ∧
      ∀ axis ∈ ["os", "br"], SameScore (q.get? axis) (q'.get? axis) := by
  constructor
  · intro h
    have hmember : ∀ {k : String} {v v' : Json}, (k, v) ∈ slimEntries (ofFields q) false →
        (k, v') ∈ slimEntries (ofFields q') false → v = v' := by
      intro k v v' hv hv'
      have hget := projection_get? hv
      rw [h, projection_get? hv'] at hget
      exact (Option.some.inj hget).symm
    have hpeer := hmember (List.mem_of_getElem? (i := 4) rfl) (List.mem_of_getElem? (i := 4) rfl)
    have hhomogenization :=
      hmember (List.mem_of_getElem? (i := 5) rfl) (List.mem_of_getElem? (i := 5) rfl)
    have hcurves :=
      hmember (List.mem_of_getElem? (i := 17) rfl) (List.mem_of_getElem? (i := 17) rfl)
    have hos := hmember (List.mem_of_getElem? (i := 18) rfl) (List.mem_of_getElem? (i := 18) rfl)
    have hbr := hmember (List.mem_of_getElem? (i := 19) rfl) (List.mem_of_getElem? (i := 19) rfl)
    refine ⟨?_, ?_⟩
    · intro k hk
      simp only [List.mem_cons, List.not_mem_nil, or_false] at hk
      rcases hk with rfl | rfl | rfl
      · exact hpeer
      · exact hhomogenization
      · exact hcurves
    · intro axis haxis
      simp only [List.mem_cons, List.not_mem_nil, or_false] at haxis
      rcases haxis with rfl | rfl
      · exact scoreOnly_eq_iff.mp hos
      · exact scoreOnly_eq_iff.mp hbr
  · rintro ⟨hcopied, hscored⟩
    unfold sdkSlimProjection
    simp only [Bool.false_eq_true, if_false]
    rw [slimEntries_eq hq hcopied hscored]

end Projection

/-! ## The response -/

theorem gated_eq (q : Fields) (gate : Json) :
    applyIdentityReturnGate (ofFields q) gate =
      ofFields ((SortedMap.ofEntries q.entries).insertEach (gateEntries (ofFields q) gate)) := rfl

theorem gated_projection {q : Fields} {gate : Json} :
    (applyIdentityReturnGate (ofFields q) gate).get? "sdk_projection" =
      some (sdkSlimProjection (ofFields q) (gate.boolOr "emit")) := by
  rw [gated_eq, get?_ofFields, SortedMap.get?_insertEach]
  unfold gateEntries
  cases gate.boolOr "emit" <;> simp [Assoc.find?]

theorem gated_return {q : Fields} {gate : Json} :
    (applyIdentityReturnGate (ofFields q) gate).get? "sdk_return" = some gate := by
  rw [gated_eq, get?_ofFields, SortedMap.get?_insertEach]
  unfold gateEntries
  cases gate.boolOr "emit" <;> simp [Assoc.find?]

theorem gated_other {q : Fields} {gate : Json} {k : String}
    (hk : k ∉ ["sdk_return", "sdk_projection", "identity_withheld", "identity_withheld_reason",
      "sdk_identity_legs"]) :
    (applyIdentityReturnGate (ofFields q) gate).get? k = q.get? k := by
  rw [gated_eq, get?_ofFields, SortedMap.get?_insertEach, SortedMap.get?_ofEntries]
  have hnone : Assoc.find? k (gateEntries (ofFields q) gate).reverse = none := by
    rw [← Option.not_isSome_iff_eq_none, Assoc.find?_isSome]
    intro hmem
    apply hk
    unfold gateEntries at hmem
    cases hemit : gate.boolOr "emit" <;> rw [hemit] at hmem <;> simp_all [Assoc.keys]
  rw [hnone]
  rfl

theorem get?_withBlock (result : Json) (key : String) (slim : Json → Json) (out : Fields)
    (k : String) : (withBlock result key slim out).get? k =
      if k = key then ((result.get? key).map slim).or (out.get? key) else out.get? k := by
  unfold withBlock
  cases result.get? key with
  | none => by_cases hk : k = key <;> simp [hk]
  | some block => rw [SortedMap.get?_insert, Option.map_some, Option.some_or]

theorem withBlock_congr {result result' : Json} {key : String} {slim : Json → Json}
    {out : Fields} (h : (result.get? key).map slim = (result'.get? key).map slim) :
    withBlock result key slim out = withBlock result' key slim out := by
  unfold withBlock
  cases hr : result.get? key <;> cases hr' : result'.get? key <;>
    rw [hr, hr'] at h <;> simp_all

theorem slim_product (result : Json) :
    (slimAnalyzeResult result).get? "product" = (result.get? "product").map slimProduct := by
  have hpick : (pickFields result resultKeep).get? "product" = none := by
    rw [get?_pickFields, if_neg (by decide)]
  simp [slimAnalyzeResult, SortedMap.get?_insert, get?_withBlock, hpick]

theorem slim_device (result : Json) :
    (slimAnalyzeResult result).get? "device" = (result.get? "device").map slimDevice := by
  have hpick : (pickFields result resultKeep).get? "device" = none := by
    rw [get?_pickFields, if_neg (by decide)]
  simp [slimAnalyzeResult, SortedMap.get?_insert, get?_withBlock, hpick]

theorem slim_congr {result result' : Json}
    (hkeep : ∀ k ∈ resultKeep, result.get? k = result'.get? k)
    (hbrain : result.get? "brain" = result'.get? "brain")
    (hdevice : (result.get? "device").map slimDevice = (result'.get? "device").map slimDevice)
    (hproduct : (result.get? "product").map slimProduct =
      (result'.get? "product").map slimProduct) :
    slimAnalyzeResult result = slimAnalyzeResult result' := by
  have hpick : pickFields result resultKeep = pickFields result' resultKeep :=
    ofFields_inj.mp (pick_eq_iff.mpr hkeep)
  have hcoverage : (result.get? "coverage").map slimCoverage =
      (result'.get? "coverage").map slimCoverage := by
    rw [hkeep "coverage" (by decide)]
  have hbrain' : (result.get? "brain").map slimBrain = (result'.get? "brain").map slimBrain := by
    rw [hbrain]
  unfold slimAnalyzeResult
  dsimp only
  rw [hpick, withBlock_congr hcoverage, withBlock_congr hbrain', withBlock_congr hdevice,
    withBlock_congr hproduct]

/-! ## Main result -/

section Response

variable {gate : Json} {r r' : AnalyzeResult}

theorem toFields_product : (ofFields (r.toFields gate)).get? "product" = some (r.gated gate) := by
  unfold AnalyzeResult.toFields
  cases r.device <;> simp [SortedMap.get?_insert]

theorem toFields_device {d : Fields} (hd : r.device = some d) :
    (ofFields (r.toFields gate)).get? "device" = some (ofFields d) := by
  unfold AnalyzeResult.toFields
  rw [hd]
  simp

theorem toFields_noDevice (hd : r.device = none) :
    (ofFields (r.toFields gate)).get? "device" = r.rest.get? "device" := by
  unfold AnalyzeResult.toFields
  rw [hd]
  simp [SortedMap.get?_insert]

theorem toFields_other {k : String} (hproduct : k ≠ "product") (hdevice : k ≠ "device") :
    (ofFields (r.toFields gate)).get? k = r.rest.get? k := by
  unfold AnalyzeResult.toFields
  cases r.device <;> simp [SortedMap.get?_insert, hproduct, hdevice]

theorem slimProduct_eq_iff (hproduct : SortedMap.AgreeOn NoLeg r.product r'.product) :
    slimProduct (r.gated gate) = slimProduct (r'.gated gate) ↔
      r.product.get? "device_id" = r'.product.get? "device_id" ∧
        (r.gated gate).get? "sdk_projection" = (r'.gated gate).get? "sdk_projection" := by
  unfold slimProduct
  rw [pick_eq_iff]
  have hid : (r.gated gate).get? "device_id" = (r'.gated gate).get? "device_id" ↔
      r.product.get? "device_id" = r'.product.get? "device_id" := by
    unfold AnalyzeResult.gated
    rw [gated_other (by decide), gated_other (by decide)]
  have hreturn : (r.gated gate).get? "sdk_return" = (r'.gated gate).get? "sdk_return" :=
    gated_return.trans gated_return.symm
  have hother : ∀ k ∈ ["real_band", "recommended_action", "product_action"],
      (r.gated gate).get? k = (r'.gated gate).get? k := by
    intro k hk
    have hkeys : k ∉ ["sdk_return", "sdk_projection", "identity_withheld",
        "identity_withheld_reason", "sdk_identity_legs"] ∧ NoLeg k := by
      revert k
      decide
    unfold AnalyzeResult.gated
    rw [gated_other hkeys.1, gated_other hkeys.1, hproduct k hkeys.2]
  constructor
  · intro h
    exact ⟨hid.mp (h "device_id" (by decide)), h "sdk_projection" (by decide)⟩
  · rintro ⟨hsame, hprojection⟩ k hk
    simp only [productKeep, List.mem_cons, List.not_mem_nil, or_false] at hk
    rcases hk with rfl | rfl | rfl | rfl | rfl | rfl
    · exact hid.mpr hsame
    · exact hother _ (by decide)
    · exact hreturn
    · exact hprojection
    · exact hother _ (by decide)
    · exact hother _ (by decide)

theorem slimDevice_eq_iff {d d' : Fields} (h : SortedMap.AgreeOn NoLeg d d') :
    slimDevice (ofFields d) = slimDevice (ofFields d') ↔
      ∀ k ∈ shownDeviceLegs, d.get? k = d'.get? k := by
  unfold slimDevice
  rw [pick_eq_iff]
  constructor
  · intro hkeep k hk
    have hshown : ∀ j ∈ shownDeviceLegs, j ∈ deviceKeep := by decide
    exact hkeep k (hshown k hk)
  · intro hlegs k hk
    have hsplit : ∀ j ∈ deviceKeep, j ∈ shownDeviceLegs ∨ NoLeg j := by decide
    rcases hsplit k hk with hleg | hno
    · exact hlegs k hleg
    · exact (h k hno).symm

theorem response_eq_iff (hlegs : SameButLegs r r') :
    r.response gate = r'.response gate ↔
      slimProduct (r.gated gate) = slimProduct (r'.gated gate) ∧
        ∀ d ∈ r.device, ∀ d' ∈ r'.device, slimDevice (ofFields d) = slimDevice (ofFields d') := by
  unfold AnalyzeResult.response
  constructor
  · intro h
    have hmember := fun k => congrArg (fun v => Json.get? v k) h
    have hproduct := hmember "product"
    simp only [slim_product, toFields_product, Option.map_some] at hproduct
    refine ⟨Option.some.inj hproduct, ?_⟩
    intro d hd d' hd'
    have hdevice := hmember "device"
    simp only [slim_device, toFields_device hd, toFields_device hd', Option.map_some] at hdevice
    exact Option.some.inj hdevice
  · rintro ⟨hproduct, hdevice⟩
    have hother : ∀ k, k ≠ "product" → k ≠ "device" →
        (ofFields (r.toFields gate)).get? k = (ofFields (r'.toFields gate)).get? k := by
      intro k hk hk'
      rw [toFields_other hk hk', toFields_other hk hk', hlegs.rest]
    refine slim_congr ?_ (hother "brain" (by decide) (by decide)) ?_ ?_
    · intro k hk
      have hkeep : ∀ j ∈ resultKeep, j ≠ "product" ∧ j ≠ "device" := by decide
      exact hother k (hkeep k hk).1 (hkeep k hk).2
    · have hthere := hlegs.deviceThere
      cases hd : r.device with
      | none =>
          rw [hd] at hthere
          have hd' : r'.device = none := Option.not_isSome_iff_eq_none.mp (by simp [← hthere])
          rw [toFields_noDevice hd, toFields_noDevice hd', hlegs.rest]
      | some d =>
          rw [hd, Option.isSome_some] at hthere
          obtain ⟨d', hd'⟩ := Option.isSome_iff_exists.mp hthere.symm
          rw [toFields_device hd, toFields_device hd', Option.map_some, Option.map_some,
            hdevice d hd d' hd']
    · rw [toFields_product, toFields_product, Option.map_some, Option.map_some, hproduct]

theorem withheld_iff (hgate : gate.boolOr "emit" = false) (hlegs : SameButLegs r r') :
    Withheld gate r r' ↔ SameShownLegs r r' := by
  have hprojection :
      (r.gated gate).get? "sdk_projection" = (r'.gated gate).get? "sdk_projection" ↔
        sdkSlimProjection (ofFields r.product) false =
          sdkSlimProjection (ofFields r'.product) false := by
    unfold AnalyzeResult.gated
    rw [gated_projection, gated_projection, hgate, Option.some.injEq]
  constructor
  · intro h
    obtain ⟨hproduct, hdevice⟩ := (response_eq_iff hlegs).mp h.response
    obtain ⟨hcopied, hscored⟩ :=
      (projection_eq_iff hlegs.product).mp (hprojection.mp h.projection)
    refine ⟨hcopied, hscored, ((slimProduct_eq_iff hlegs.product).mp hproduct).1, ?_⟩
    intro d hd d' hd'
    exact (slimDevice_eq_iff (hlegs.device d hd d' hd')).mp (hdevice d hd d' hd')
  · intro h
    have hsame := hprojection.mpr ((projection_eq_iff hlegs.product).mpr ⟨h.copied, h.scored⟩)
    refine ⟨hsame, (response_eq_iff hlegs).mpr ⟨?_, ?_⟩⟩
    · exact (slimProduct_eq_iff hlegs.product).mpr ⟨h.id, hsame⟩
    · intro d hd d' hd'
      exact (slimDevice_eq_iff (hlegs.device d hd d' hd')).mpr (h.device d hd d' hd')

end Response

/-- The projection has the product's id and tier as they are. -/
def EmittedExactly (gate : Json) (product : Fields) : Prop :=
  ∃ p, (applyIdentityReturnGate (ofFields product) gate).get? "sdk_projection" = some p ∧
    p.get? "device_id" = some (jsonOf (product.get? "device_id")) ∧
    p.get? "device_tier" = some (jsonOf (product.get? "device_tier"))

def identityKeys : List String :=
  ["device_id", "identity", "mint_posture", "ephemeral", "ephemeral_ttl_ms", "collision_risk",
    "effective_bits", "bucket_heat", "device_id_segments", "device_id_reserved_compare",
    "device_tier", "multi_segment", "device_algo_group", "digest_path", "device_confidence",
    "conf_ceiling", "slot_scheme", "browser_surface_id"]

theorem keys_identityEntries (product : Json) :
    Assoc.keys (identityEntries product) = identityKeys := rfl

theorem emitted_get? {product : Json} {k : String} {v : Json}
    (h : (k, v) ∈ identityEntries product) :
    (sdkSlimProjection product true).get? k = some v := by
  have hnodup : (Assoc.keys (identityEntries product).reverse).Nodup := by
    rw [Assoc.keys, List.map_reverse, List.nodup_reverse, ← Assoc.keys, keys_identityEntries]
    decide
  unfold sdkSlimProjection
  simp only [if_true, get?_ofFields]
  rw [SortedMap.get?_insertEach, find?_of_nodup hnodup (List.mem_reverse.mpr h), Option.some_or]

theorem emittedExactly {gate : Json} (hgate : gate.boolOr "emit" = true) (product : Fields) :
    EmittedExactly gate product := by
  refine ⟨_, gated_projection, ?_, ?_⟩
  · rw [hgate]
    exact emitted_get? (List.mem_of_getElem? (i := 0) rfl)
  · rw [hgate]
    exact emitted_get? (List.mem_of_getElem? (i := 10) rfl)

/-- A withheld identity does not show exactly when the legs that are copied all
the same agree; an emitted one is the product's. -/
theorem identity_gate (gate : Json) :
    (gate.boolOr "emit" = false → ∀ r r', SameButLegs r r' →
      (Withheld gate r r' ↔ SameShownLegs r r')) ∧
    (gate.boolOr "emit" = true → ∀ product, EmittedExactly gate product) :=
  ⟨fun hgate _ _ hlegs => withheld_iff hgate hlegs,
    fun hgate product => emittedExactly hgate product⟩

def gateOf (emit : Bool) : Json := .obj [("emit", .bool emit)]

def withLeg (leg value : String) : AnalyzeResult :=
  ⟨SortedMap.empty, SortedMap.empty.insert leg (.str value), none⟩

theorem sameButLegs_withLeg {leg : String} (hleg : leg ∈ sdkIdentityLegs) (value value' : String) :
    SameButLegs (withLeg leg value) (withLeg leg value') := by
  refine ⟨rfl, ?_, rfl, ?_⟩
  · intro k hk
    have hne : k ≠ leg := by
      rintro rfl
      exact hk hleg
    rw [withLeg, withLeg, SortedMap.get?_insert_of_ne hne, SortedMap.get?_insert_of_ne hne]
  · intro d hd
    cases hd

theorem posture_withheld_id_emitted :
    Withheld (gateOf false) (withLeg "mint_posture" "stable")
        (withLeg "mint_posture" "ephemeral") ∧
      EmittedExactly (gateOf true) (withLeg "device_id" "dv0-a").product := by
  refine ⟨((identity_gate (gateOf false)).1 rfl _ _ (sameButLegs_withLeg (by decide) _ _)).mpr ?_,
    (identity_gate (gateOf true)).2 rfl _⟩
  refine ⟨by decide, ?_, rfl, ?_⟩
  · intro axis haxis
    have hnone : (withLeg "mint_posture" "stable").product.get? axis = none ∧
        (withLeg "mint_posture" "ephemeral").product.get? axis = none := by
      revert axis
      decide
    rw [hnone.1, hnone.2]
    exact ⟨rfl, fun _ _ => rfl⟩
  · intro d hd
    cases hd

theorem withheld_id_shows :
    (gateOf false).boolOr "emit" = false ∧
      SameButLegs (withLeg "device_id" "dv0-a") (withLeg "device_id" "dv0-b") ∧
      ¬ Withheld (gateOf false) (withLeg "device_id" "dv0-a") (withLeg "device_id" "dv0-b") := by
  have hlegs := sameButLegs_withLeg (by decide : "device_id" ∈ sdkIdentityLegs) "dv0-a" "dv0-b"
  refine ⟨rfl, hlegs, ?_⟩
  intro h
  have hid := ((withheld_iff rfl hlegs).mp h).id
  revert hid
  decide

end ReturnGate

end GrServer
