import GrServer.DeviceIndex
import GrServer.GuardedRun

/-!
# Runs of a device index

Calls on an index in memory or in a file, and reopening the file, in any order.
An observation of a known device goes on top of what an earlier one left behind.
-/

namespace GrServer

open Json Text

namespace DeviceIndex

open LinkScore (BinderObs)

inductive DeviceCall where
  /-- With the tenant of its store, where the index is in a file. -/
  | linkOrMint (tenantId : Option String) (fields fsResolve : Json)
  | reopen (tenantId : String)

def storedFields : Option String → Json → Json
  | none, fields => fields
  | some tenantId, fields => withTenant tenantId fields

def step (env : LinkEnv) (ix : MemoryDeviceIndex) : DeviceCall → MemoryDeviceIndex
  | .linkOrMint tenantId fields fsResolve =>
      (linkOrMint env ix (storedFields tenantId fields) fsResolve).2.2
  | .reopen tenantId => opened (some (saved tenantId ix))

def Listed (ix : MemoryDeviceIndex) (k id : String) : Prop :=
  ∃ ids, ix.index.get? k = some ids ∧ id ∈ ids

structure IndexKept (ix : MemoryDeviceIndex) : Prop where
  known : ∀ k id, Listed ix k id →
    ix.devices.contains id = true ∧ ix.deviceFields.contains id = true
  nodup : ∀ k ids, ix.index.get? k = some ids → ids.Nodup
  listed : ∀ id obs, ix.devices.get? id = some obs →
    ∀ k, Listed ix k id ↔ k ∈ binderKeys obs
  durable : ∀ tenantId, opened (some (saved tenantId ix)) = ix

structure CallKept (env : LinkEnv) (ix : MemoryDeviceIndex) (c : DeviceCall) : Prop where
  index : IndexKept (step env ix c)
  /-- An observation without an anchor changes nothing. -/
  idle : ∀ tenantId fields fsResolve, c = .linkOrMint tenantId fields fsResolve →
    emptyAnchor (binderObsFromFields env.obs (storedFields tenantId fields)) = true →
      step env ix c = ix

def namedDevice (env : LinkEnv) (ix : MemoryDeviceIndex) (obs : BinderObs)
    (fsResolve : Json) : Option String :=
  let merged := (fsResolve.get? "best_device_id").bind asStr
  if emptyAnchor obs then none
  else if ((fsResolve.get? "decision").bind asStr) = some "merge" then
    match merged with
    | some did =>
        if (ix.devices.get? did).any (softOsFork · obs) then some (mintedId env obs)
        else if did = "" then none else some did
    | none => some (mintedId env obs)
  else some (mintedId env obs)

/-- An observation that is recorded has no empty part, and its device is new or had
nothing to be found by. -/
def Fits (env : LinkEnv) (ix : MemoryDeviceIndex) : DeviceCall → Prop
  | .linkOrMint tenantId fields fsResolve =>
      let obs := binderObsFromFields env.obs (storedFields tenantId fields)
      ∀ id, namedDevice env ix obs fsResolve = some id →
        (∀ old, ix.devices.get? id = some old → binderKeys old = []) ∧
          obs.unitSurfaceAlgo ≠ some "" ∧ obs.residualClass ≠ some ""
  | .reopen _ => True

section Deciding

variable {env : LinkEnv} {ix : MemoryDeviceIndex} {obs : BinderObs}

theorem mintedId_ne_empty (h : emptyAnchor obs = false) : mintedId env obs ≠ "" := by
  unfold mintedId ServerMint.serverMintCommercialId
  have hanchor : ServerMint.isEmptyAnchor obs.toBinderObs = false := h
  rw [hanchor]
  intro heq
  have hlist := congrArg String.toList heq
  simp at hlist

theorem getD_eq_merge_iff (decision : Option String) :
    decision.getD "mint" = "merge" ↔ decision = some "merge" := by
  cases decision <;> simp

theorem decideDevice_eq (fields fsResolve : Json) (candidates : List String) :
    (decideDevice env ix fields fsResolve obs candidates).2 =
      (namedDevice env ix obs fsResolve).getD "" := by
  unfold decideDevice namedDevice
  dsimp only
  simp only [getD_eq_merge_iff]
  cases hanchor : emptyAnchor obs with
  | true => rfl
  | false =>
      have hminted := @mintedId_ne_empty env obs hanchor
      have hnot : ¬ (false = true ∨ mintedId env obs = "") := by
        simp [hminted]
      rw [if_neg hnot, if_neg Bool.false_ne_true]
      split_ifs with hmerge habstain hlink
      · cases (fsResolve.get? "best_device_id").bind asStr with
        | none => rfl
        | some did =>
            dsimp only
            cases ix.devices.get? did with
            | none =>
                simp only [Option.any_none, Bool.false_eq_true, if_false]
                split_ifs with hempty
                · exact hempty
                · rfl
            | some existing =>
                simp only [Option.any_some]
                split_ifs with hfork hempty
                · rfl
                · exact hempty
                · rfl
      · rfl
      · rw [hlink.1]
        rfl
      · cases (bestOf env ix fields obs candidates).deviceId <;> rfl

theorem namedDevice_ne_empty {fsResolve : Json} {id : String}
    (h : namedDevice env ix obs fsResolve = some id) : id ≠ "" := by
  unfold namedDevice at h
  dsimp only at h
  cases hanchor : emptyAnchor obs with
  | true =>
      rw [hanchor] at h
      cases h
  | false =>
      have hminted := @mintedId_ne_empty env obs hanchor
      rw [hanchor, if_neg Bool.false_ne_true] at h
      split_ifs at h with hmerge
      · cases hbest : (fsResolve.get? "best_device_id").bind asStr with
        | none =>
            rw [hbest] at h
            cases h
            exact hminted
        | some did =>
            rw [hbest] at h
            dsimp only at h
            split_ifs at h with hfork hempty
            · cases h
              exact hminted
            · cases h
              exact hempty
      · cases h
        exact hminted

theorem linkOrMint_eq (fields fsResolve : Json) :
    (linkOrMint env ix fields fsResolve).2.2 =
      (namedDevice env ix (binderObsFromFields env.obs fields) fsResolve).elim ix
        fun id => ix.record id (binderObsFromFields env.obs fields) fields := by
  unfold linkOrMint
  dsimp only
  rw [decideDevice_eq]
  cases hnamed : namedDevice env ix (binderObsFromFields env.obs fields) fsResolve with
  | none => rfl
  | some id =>
      rw [Option.getD_some, if_neg (namedDevice_ne_empty hnamed)]
      rfl

end Deciding

/-! ## Keys -/

section Keys

variable {env : ObsEnv} {obs : BinderObs}

theorem familyOf_mem (soft : Bool) (fo : Fields) :
    familyOf soft fo ∈ ["chromium_soft", "gecko", "webkit", "blink_or_real", "real_residual"] := by
  unfold familyOf
  split_ifs
  · simp
  · cases (strField fo "engine_family").map lowered with
    | some engine =>
        dsimp only
        split_ifs <;> simp
    | none =>
        cases (strField fo "user_agent").map lowered with
        | some agent =>
            dsimp only
            split_ifs <;> simp
        | none => simp

theorem family_ne_real (fields : Json) : (binderObsFromFields env fields).family ≠ "real" := by
  have hall : ∀ family ∈ ["chromium_soft", "gecko", "webkit", "blink_or_real",
      "real_residual"], family ≠ "real" := by decide
  exact hall _ (familyOf_mem _ _)

theorem family_ne_empty (fields : Json) : (binderObsFromFields env fields).family ≠ "" := by
  have hall : ∀ family ∈ ["chromium_soft", "gecko", "webkit", "blink_or_real",
      "real_residual"], family ≠ "" := by decide
  exact hall _ (familyOf_mem _ _)

theorem familyKey_ne (start value : String) (h : obs.family ≠ "real") :
    start ++ obs.family ++ ":" ++ value ≠ start ++ "real:" ++ value := by
  intro heq
  have hlist := congrArg String.toList heq
  simp only [String.toList_append, List.append_assoc] at hlist
  have htail := List.append_cancel_left hlist
  rw [← List.append_assoc] at htail
  have hfamily := List.append_cancel_right htail
  have hreal : "real:".toList = "real".toList ++ ":".toList := by decide
  rw [hreal] at hfamily
  exact h (String.toList_injective (List.append_cancel_right hfamily))

theorem unitKeys_nodup (h : obs.family ≠ "real") : (unitKeys obs).Nodup := by
  unfold unitKeys
  cases obs.unitSurfaceId with
  | none => exact List.nodup_nil
  | some u =>
      have hne := familyKey_ne "unit:" u h
      dsimp only
      split_ifs
      · simpa using hne
      · exact List.nodup_singleton _

theorem residualKeys_nodup (h : obs.family ≠ "real") : (residualKeys obs).Nodup := by
  unfold residualKeys
  cases obs.residualClass with
  | none => exact List.nodup_nil
  | some r =>
      have hne := familyKey_ne "residual:" r h
      dsimp only
      split_ifs
      · simpa using hne
      · exact List.nodup_singleton _

theorem head_unitKeys : ∀ k ∈ unitKeys obs, k.toList.head? = some 'u' := by
  unfold unitKeys
  cases obs.unitSurfaceId with
  | none => exact nofun
  | some u =>
      dsimp only
      split_ifs <;> simp

theorem head_residualKeys : ∀ k ∈ residualKeys obs, k.toList.head? = some 'r' := by
  unfold residualKeys
  cases obs.residualClass with
  | none => exact nofun
  | some r =>
      dsimp only
      split_ifs <;> simp

theorem head_osKeys : ∀ k ∈ osKeys obs, k.toList.head? = some 'o' := by
  unfold osKeys
  cases obs.osInstanceHash with
  | none => exact nofun
  | some o => simp

theorem binderKeys_nodup (h : obs.family ≠ "real") : (binderKeys obs).Nodup := by
  have hos : (osKeys obs).Nodup := by
    unfold osKeys
    cases obs.osInstanceHash with
    | none => exact List.nodup_nil
    | some o => exact List.nodup_singleton _
  have hfirst : (unitKeys obs ++ residualKeys obs).Nodup := by
    apply List.Nodup.append (unitKeys_nodup h) (residualKeys_nodup h)
    intro k hu hr
    exact absurd ((head_unitKeys k hu).symm.trans (head_residualKeys k hr)) (by decide)
  apply List.Nodup.append hfirst hos
  intro k hk ho
  rcases List.mem_append.mp hk with hu | hr
  · exact absurd ((head_unitKeys k hu).symm.trans (head_osKeys k ho)) (by decide)
  · exact absurd ((head_residualKeys k hr).symm.trans (head_osKeys k ho)) (by decide)

end Keys

section Recording

variable {ix : MemoryDeviceIndex} {id : String} {obs : BinderObs} {fields : Json}

theorem index_record (hkeys : (binderKeys obs).Nodup) (k : String) :
    (ix.record id obs fields).index.get? k =
      if k ∈ binderKeys obs then some ((ix.index.get? k).getD [] ++ [id])
      else ix.index.get? k := by
  unfold MemoryDeviceIndex.record
  dsimp only
  apply SortedMap.get?_foldl_keys (g := fun ids => some (ids.getD [] ++ [id])) _ _ hkeys
  · intro m j hj
    exact SortedMap.get?_insert_of_ne (Ne.symm hj) _
  · intro m
    exact SortedMap.get?_insert_self m k _

theorem devices_record (j : String) :
    (ix.record id obs fields).devices.get? j = if j = id then some obs else ix.devices.get? j :=
  SortedMap.get?_insert ix.devices id j obs

theorem fields_record (j : String) :
    (ix.record id obs fields).deviceFields.get? j =
      if j = id then some fields else ix.deviceFields.get? j :=
  SortedMap.get?_insert ix.deviceFields id j fields

theorem listed_record (hkeys : (binderKeys obs).Nodup) (k j : String) :
    Listed (ix.record id obs fields) k j ↔ Listed ix k j ∨ k ∈ binderKeys obs ∧ j = id := by
  unfold Listed
  rw [index_record hkeys]
  split_ifs with hk
  · cases ix.index.get? k with
    | none => simp [hk]
    | some ids => simp [hk]
  · simp [hk]

end Recording

/-! ## Saving and opening -/

section Durability

theorem get?_mapValues {α β : Type} (f : α → β) (m : SortedMap String α) (k : String) :
    (mapValues f m).get? k = (m.get? k).map f := by
  have hfind : ∀ entries : List (String × α),
      Assoc.find? k (entries.map fun entry => (entry.1, f entry.2)) =
        (Assoc.find? k entries).map f := by
    intro entries
    induction entries with
    | nil => rfl
    | cons entry rest ih =>
        by_cases hk : k = entry.1 <;> simp [Assoc.find?, hk, ih]
  unfold mapValues
  rw [SortedMap.get?_ofEntries]
  exact hfind m.entries

theorem get?_section {raw : Json} {name : String} {m : Fields}
    (h : raw.get? name = some (ofFields m)) (k : String) :
    (section? raw name).get? k = m.get? k := by
  unfold section?
  rw [h, Option.bind_some, asObject_ofFields_get?, Option.getD_some, SortedMap.get?_ofEntries]
  rfl

theorem idsFromJson_idsToJson (ids : List String) : idsFromJson (idsToJson ids) = ids := by
  unfold idsFromJson idsToJson asArray
  dsimp only
  rw [Option.getD_some, List.filterMap_map]
  exact List.filterMap_some

variable {ix : MemoryDeviceIndex}

theorem get?_saved (tenantId : String) (ix : MemoryDeviceIndex) :
    (saved tenantId ix).get? "devices" = some (ofFields (mapValues obsToJson ix.devices)) ∧
      (saved tenantId ix).get? "device_fields" = some (ofFields ix.deviceFields) ∧
      (saved tenantId ix).get? "index" = some (ofFields (mapValues idsToJson ix.index)) :=
  ⟨rfl, rfl, rfl⟩

theorem opened_saved (tenantId : String) (ix : MemoryDeviceIndex) :
    opened (some (saved tenantId ix)) =
      { ix with devices := mapValues (fun obs => obsFromJson (obsToJson obs)) ix.devices } := by
  rcases get?_saved tenantId ix with ⟨hdevices, hfields, hindex⟩
  have hd : mapValues obsFromJson (section? (saved tenantId ix) "devices") =
      mapValues (fun obs => obsFromJson (obsToJson obs)) ix.devices := by
    apply SortedMap.ext_get?
    intro k
    rw [get?_mapValues, get?_section hdevices, get?_mapValues, get?_mapValues, Option.map_map]
    rfl
  have hf : section? (saved tenantId ix) "device_fields" = ix.deviceFields :=
    SortedMap.ext_get? (get?_section hfields)
  have hi : mapValues idsFromJson (section? (saved tenantId ix) "index") = ix.index := by
    apply SortedMap.ext_get?
    intro k
    rw [get?_mapValues, get?_section hindex, get?_mapValues, Option.map_map]
    have hid : idsFromJson ∘ idsToJson = id := funext idsFromJson_idsToJson
    rw [hid, Option.map_id]
    rfl
  unfold opened
  dsimp only
  rw [hd, hf, hi]

def ReadsBack (obs : BinderObs) : Prop := obsFromJson (obsToJson obs) = obs

theorem durable_iff :
    (∀ tenantId, opened (some (saved tenantId ix)) = ix) ↔
      ∀ id obs, ix.devices.get? id = some obs → ReadsBack obs := by
  constructor
  · intro h id obs hget
    have hdevices := congrArg MemoryDeviceIndex.devices (h "")
    rw [opened_saved] at hdevices
    have hback := congrArg (fun m => SortedMap.get? m id) hdevices
    dsimp only at hback
    rw [get?_mapValues, hget, Option.map_some, Option.some.injEq] at hback
    exact hback
  · intro h tenantId
    have hdevices : mapValues (fun obs => obsFromJson (obsToJson obs)) ix.devices =
        ix.devices := by
      apply SortedMap.ext_get?
      intro k
      rw [get?_mapValues]
      cases hget : ix.devices.get? k with
      | none => rfl
      | some obs =>
          have hback : obsFromJson (obsToJson obs) = obs := h k obs hget
          rw [Option.map_some, hback]
    rw [opened_saved, hdevices]

theorem asStr_optStr (s : Option String) : asStr (optStr s) = s := by
  cases s <;> rfl

theorem filter_eq_self_iff (s : Option String) : s.filter (· ≠ "") = s ↔ s ≠ some "" := by
  cases s with
  | none => simp
  | some s =>
      by_cases hs : s = ""
      · simp [hs, Option.filter]
      · simp [hs, Option.filter]

theorem filter_ne_empty (s : Option String) : s.filter (· ≠ "") ≠ some "" := by
  intro h
  have hmem := Option.filter_eq_some_iff.mp h
  simp at hmem

theorem readStr_optStr {v : Json} {k : String} {s : Option String}
    (h : v.get? k = some (optStr s)) : readStr v k = s.filter (· ≠ "") := by
  unfold readStr
  rw [h, Option.bind_some, asStr_optStr]

theorem family_back (family : String) :
    ((some family).filter (· ≠ "")).getD "unknown" = family ↔ family ≠ "" := by
  by_cases hempty : family = ""
  · simp [hempty, Option.filter]
  · simp [hempty, Option.filter]

theorem readsBack_iff (obs : BinderObs) :
    ReadsBack obs ↔ obs.family ≠ "" ∧
      ∀ s ∈ [obs.unitSurfaceId, obs.unitSurfaceAlgo, obs.residualClass, obs.osInstanceHash,
        obs.osFamily, obs.coresClass, obs.webrtcHostIpHash, obs.classDeviceId, obs.tenantId,
        obs.hwAudioStable, obs.hwWebglStable], s ≠ some "" := by
  rcases obs with ⟨⟨soft, unit, algo, stable, residual, os, osFamily, cores, webrtc, classId,
    tenant, entropy, audio, webgl⟩, family⟩
  have hentropy : ((some ((entropy.map Json.bool).getD .null)).bind asBool) = entropy := by
    cases entropy <;> rfl
  have hread : ReadsBack ⟨⟨soft, unit, algo, stable, residual, os, osFamily, cores, webrtc,
      classId, tenant, entropy, audio, webgl⟩, family⟩ ↔
      ((some family).filter (· ≠ "")).getD "unknown" = family ∧
        ∀ s ∈ [unit, algo, residual, os, osFamily, cores, webrtc, classId, tenant, audio,
          webgl], s.filter (· ≠ "") = s := by
    unfold ReadsBack obsFromJson
    rw [LinkScore.BinderObs.mk.injEq, ServerMint.BinderObs.mk.injEq,
      @readStr_optStr _ "family" (some family) rfl, @readStr_optStr _ "unit_surface_id" unit rfl,
      @readStr_optStr _ "unit_surface_algo" algo rfl,
      @readStr_optStr _ "residual_class" residual rfl,
      @readStr_optStr _ "os_instance_hash" os rfl, @readStr_optStr _ "os_family" osFamily rfl,
      @readStr_optStr _ "cores_class" cores rfl,
      @readStr_optStr _ "webrtc_host_ip_hash" webrtc rfl,
      @readStr_optStr _ "class_device_id" classId rfl, @readStr_optStr _ "tenant_id" tenant rfl,
      @readStr_optStr _ "hw_audio_stable" audio rfl,
      @readStr_optStr _ "hw_webgl_stable" webgl rfl]
    have hrest : ((obsToJson ⟨⟨soft, unit, algo, stable, residual, os, osFamily, cores, webrtc,
        classId, tenant, entropy, audio, webgl⟩, family⟩).get? "residual_entropy_ok").bind
          asBool = entropy := hentropy
    rw [hrest]
    simp only [List.forall_mem_cons, List.not_mem_nil, false_implies, implies_true, and_true]
    constructor
    · rintro ⟨⟨-, h1, h2, -, h3, h4, h5, h6, h7, h8, h9, -, h10, h11⟩, hfamily⟩
      exact ⟨hfamily, h1, h2, h3, h4, h5, h6, h7, h8, h9, h10, h11⟩
    · rintro ⟨hfamily, h1, h2, h3, h4, h5, h6, h7, h8, h9, h10, h11⟩
      exact ⟨⟨rfl, h1, h2, rfl, h3, h4, h5, h6, h7, h8, h9, trivial, h10, h11⟩, hfamily⟩
  rw [hread, family_back]
  simp only [filter_eq_self_iff]

theorem or_ne_empty {s t : Option String} (hs : s ≠ some "") (ht : t ≠ some "") :
    s.or t ≠ some "" := by
  cases s with
  | none => exact ht
  | some s => exact hs

theorem lowered_ne_empty {s : Option String} (hs : s ≠ some "") :
    s.map lowered ≠ some "" := by
  intro h
  rcases Option.map_eq_some_iff.mp h with ⟨t, rfl, ht⟩
  have hlist := congrArg String.toList ht
  rw [lowered, String.toList_ofList, toAsciiLowercase] at hlist
  have hnil := List.map_eq_nil_iff.mp hlist
  apply hs
  rw [String.toList_eq_nil_iff.mp hnil]

theorem coresClass_ne_empty (fo : Fields) : coresClass fo ≠ some "" := by
  unfold coresClass
  intro h
  rcases Option.map_eq_some_iff.mp h with ⟨c, -, hc⟩
  split_ifs at hc <;> exact absurd hc (by decide)

theorem readsBack_fields_iff (env : ObsEnv) (fields : Json) :
    ReadsBack (binderObsFromFields env fields) ↔
      (binderObsFromFields env fields).unitSurfaceAlgo ≠ some "" ∧
        (binderObsFromFields env fields).residualClass ≠ some "" := by
  rw [readsBack_iff]
  simp only [List.forall_mem_cons, List.not_mem_nil, false_implies, implies_true, and_true]
  constructor
  · rintro ⟨-, -, halgo, hresidual, -⟩
    exact ⟨halgo, hresidual⟩
  · rintro ⟨halgo, hresidual⟩
    exact ⟨family_ne_empty fields, filter_ne_empty _, halgo, hresidual, filter_ne_empty _,
      lowered_ne_empty (filter_ne_empty _), coresClass_ne_empty _,
      or_ne_empty (filter_ne_empty _) (filter_ne_empty _), filter_ne_empty _,
      filter_ne_empty _, or_ne_empty (filter_ne_empty _) (filter_ne_empty _),
      or_ne_empty (filter_ne_empty _) (filter_ne_empty _)⟩

end Durability

/-! ## One call -/

section Calls

variable {env : LinkEnv} {ix : MemoryDeviceIndex} {id : String} {fields : Json}

theorem contains_record (obs : BinderObs) (j : String) :
    ((ix.record id obs fields).devices.contains j = true ↔
        j = id ∨ ix.devices.contains j = true) ∧
      ((ix.record id obs fields).deviceFields.contains j = true ↔
        j = id ∨ ix.deviceFields.contains j = true) := by
  unfold SortedMap.contains
  rw [devices_record, fields_record]
  by_cases hj : j = id <;> simp [hj]

theorem indexKept_record {obs : BinderObs} (h : IndexKept ix)
    (hkeys : (binderKeys obs).Nodup) (hfree : ∀ k, ¬ Listed ix k id)
    (hback : ReadsBack obs) : IndexKept (ix.record id obs fields) := by
  constructor
  · intro k j hlisted
    rcases @contains_record ix id fields obs j with ⟨hdevices, hfields⟩
    rw [hdevices, hfields]
    rcases (listed_record hkeys k j).mp hlisted with hold | ⟨-, hj⟩
    · exact ⟨.inr (h.known k j hold).1, .inr (h.known k j hold).2⟩
    · exact ⟨.inl hj, .inl hj⟩
  · intro k ids hget
    rw [index_record hkeys] at hget
    split_ifs at hget with hk
    · cases hget
      cases hold : ix.index.get? k with
      | none => exact List.nodup_singleton _
      | some old =>
          apply List.Nodup.append (h.nodup k old hold) (List.nodup_singleton _)
          intro j hj hid
          rw [List.mem_singleton.mp hid] at hj
          exact hfree k ⟨old, hold, hj⟩
    · exact h.nodup k ids hget
  · intro j o hget k
    rw [listed_record hkeys]
    rw [devices_record] at hget
    split_ifs at hget with hj
    · cases hget
      rw [hj]
      simp only [hfree k, false_or, and_true]
    · simp only [hj, and_false, or_false]
      exact h.listed j o hget k
  · apply durable_iff.mpr
    intro j o hget
    rw [devices_record] at hget
    split_ifs at hget
    · cases hget
      exact hback
    · exact durable_iff.mp h.durable j o hget

theorem listed_free_iff (h : IndexKept ix) :
    (∀ k, ¬ Listed ix k id) ↔ ∀ old, ix.devices.get? id = some old → binderKeys old = [] := by
  constructor
  · intro hfree old hget
    apply List.eq_nil_iff_forall_not_mem.mpr
    intro k hk
    exact hfree k ((h.listed id old hget k).mpr hk)
  · intro hold k hlisted
    have hknown := (h.known k id hlisted).1
    unfold SortedMap.contains at hknown
    rcases Option.isSome_iff_exists.mp hknown with ⟨old, hget⟩
    have hmem := (h.listed id old hget k).mp hlisted
    rw [hold old hget] at hmem
    cases hmem

theorem indexKept_record_iff {obs : BinderObs} (h : IndexKept ix)
    (hkeys : (binderKeys obs).Nodup) :
    IndexKept (ix.record id obs fields) ↔
      (∀ old, ix.devices.get? id = some old → binderKeys old = []) ∧ ReadsBack obs := by
  rw [← listed_free_iff h]
  have hself : (ix.record id obs fields).devices.get? id = some obs := by
    rw [devices_record, if_pos rfl]
  constructor
  · intro hkept
    constructor
    · rintro k ⟨old, hget, hmem⟩
      have hlisted : Listed (ix.record id obs fields) k id :=
        (listed_record hkeys k id).mpr (.inl ⟨old, hget, hmem⟩)
      have hk := (hkept.listed id obs hself k).mp hlisted
      have htwice := hkept.nodup k (old ++ [id]) (by
        rw [index_record hkeys, if_pos hk, hget]
        rfl)
      exact (List.nodup_append.mp htwice).2.2 id hmem id List.mem_cons_self rfl
    · exact durable_iff.mp hkept.durable id obs hself
  · rintro ⟨hfree, hback⟩
    exact indexKept_record h hkeys hfree hback

theorem namedDevice_of_emptyAnchor {obs : BinderObs} (h : emptyAnchor obs = true)
    (fsResolve : Json) : namedDevice env ix obs fsResolve = none := by
  unfold namedDevice
  rw [h]
  rfl

theorem callKept_iff (h : IndexKept ix) (c : DeviceCall) :
    CallKept env ix c ↔ Fits env ix c := by
  cases c with
  | reopen tenantId =>
      have hsame : step env ix (.reopen tenantId) = ix := h.durable tenantId
      apply iff_of_true _ trivial
      constructor
      · rw [hsame]
        exact h
      · intro tenant fields fsResolve hc
        cases hc
  | linkOrMint tenantId fields fsResolve =>
      have hstep : step env ix (.linkOrMint tenantId fields fsResolve) =
          (namedDevice env ix (binderObsFromFields env.obs (storedFields tenantId fields))
            fsResolve).elim ix fun id => ix.record id
              (binderObsFromFields env.obs (storedFields tenantId fields))
              (storedFields tenantId fields) := linkOrMint_eq _ _
      have hidle : ∀ tenant fs resolve,
          DeviceCall.linkOrMint tenantId fields fsResolve = .linkOrMint tenant fs resolve →
          emptyAnchor (binderObsFromFields env.obs (storedFields tenant fs)) = true →
            step env ix (.linkOrMint tenantId fields fsResolve) = ix := by
        intro tenant fs resolve hc hempty
        cases hc
        rw [hstep, namedDevice_of_emptyAnchor hempty]
        rfl
      have hkept : CallKept env ix (.linkOrMint tenantId fields fsResolve) ↔
          IndexKept (step env ix (.linkOrMint tenantId fields fsResolve)) :=
        ⟨fun hc => hc.index, fun hi => ⟨hi, hidle⟩⟩
      have hkeys := binderKeys_nodup (@family_ne_real env.obs (storedFields tenantId fields))
      rw [hkept, hstep]
      unfold Fits
      dsimp only
      cases namedDevice env ix (binderObsFromFields env.obs (storedFields tenantId fields))
          fsResolve with
      | none =>
          apply iff_of_true h
          intro id hid
          cases hid
      | some id =>
          simp only [Option.elim_some, Option.some.injEq, forall_eq']
          rw [indexKept_record_iff h hkeys, readsBack_fields_iff]

theorem indexKept_new : IndexKept MemoryDeviceIndex.new where
  known := by
    rintro k id ⟨ids, hget, -⟩
    cases hget
  nodup := by
    intro k ids hget
    cases hget
  listed := by
    intro id obs hget
    cases hget
  durable := by
    apply durable_iff.mpr
    intro id obs hget
    cases hget

end Calls

/-- Calls keep what is promised exactly as long as what they record fits. -/
theorem calls_kept_iff (env : LinkEnv) (cs : List DeviceCall) :
    Along (step env) (CallKept env) MemoryDeviceIndex.new cs ↔
      Along (step env) (Fits env) MemoryDeviceIndex.new cs := by
  apply Along.iff_of_steps (I := IndexKept) (G := fun _ _ => True)
  · intro ix c h _
    exact callKept_iff h c
  · intro ix c h _ hkept
    exact hkept.index
  · exact along_of_forall fun _ _ _ => trivial
  · exact indexKept_new

def plainEnv : LinkEnv where
  obs :=
    { stackSoft := fun _ => false
      commercialProjection := fun _ => .obj []
      residualFromStd := fun _ => "rs_0.000001"
      residualFromMeanFine := fun _ => "rm_0.26000"
      residualFromMeanXbr := fun _ => "rm_0.260"
      parseF64 := fun _ => none }
  mint :=
    { sha256Hex := fun _ => "0123456789abcdef"
      showF64 := fun _ => ""
      residualClass := fun _ => "rm_0.26000"
      showValue := fun _ => ""
      softStack := fun _ => false }
  scoreLinkFields := fun _ _ => (1, false)
  scoreLink := fun _ _ => 1
  linkThreshold := 65 / 100

def bucketCall (answer : List (String × Json)) : DeviceCall :=
  .linkOrMint none (.obj [("soft_residual_bucket", .str "b1")]) (.obj answer)

def seenAgain : List DeviceCall :=
  [bucketCall [("decision", .str "split")],
    bucketCall [("best_device_id", .str "dv_0123456789abcdef"), ("decision", .str "merge")]]

theorem seen_again_listed_twice :
    ¬ Along (step plainEnv) (CallKept plainEnv) MemoryDeviceIndex.new seenAgain := by
  intro h
  have hlast := h.2.1.index
  have hget : (runFrom (step plainEnv) MemoryDeviceIndex.new seenAgain).index.get?
      "residual:real:b1" = some ["dv_0123456789abcdef", "dv_0123456789abcdef"] := by
    decide
  exact absurd (hlast.nodup _ _ hget) (by decide)

end DeviceIndex

end GrServer
