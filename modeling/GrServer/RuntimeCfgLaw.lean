import GrServer.RuntimeCfg

/-!
# Laws of the runtime configuration

The signed members as a table: what the ranges, the patch and the stored object
do with one is said once for every row.  A configuration whose members are in
their ranges comes back from storage as it was.
-/

namespace GrServer

open Json Text

namespace PanelConfig

structure Knob where
  name : String
  get : RuntimeCfg → ℤ
  lo : ℤ
  hi : ℤ

def knobs : List Knob :=
  [⟨"cycle_cool_ms", fun c => c.cycleCoolMs, 60_000, 7 * 24 * 3600 * 1000⟩,
    ⟨"cycle_incomplete_ms", fun c => c.cycleIncompleteMs, 3_600_000, 14 * 24 * 3600 * 1000⟩,
    ⟨"session_inactivity_ms", fun c => c.sessionInactivityMs, 60_000, 24 * 3600 * 1000⟩,
    ⟨"session_hard_max_ms", fun c => c.sessionHardMaxMs, 3_600_000, 7 * 24 * 3600 * 1000⟩,
    ⟨"hot_idle_ms", fun c => c.hotIdleMs, 60_000, 24 * 3600 * 1000⟩,
    ⟨"cold_ttl_ms", fun c => c.coldTtlMs, 3_600_000, 90 * 24 * 3600 * 1000⟩,
    ⟨"cold_promote_window_ms", fun c => c.coldPromoteWindowMs, 60_000, 7 * 24 * 3600 * 1000⟩,
    ⟨"analyze_idle_upload_ms", fun c => c.analyzeIdleUploadMs, 5000, 600_000⟩,
    ⟨"analyze_debounce_ms", fun c => c.analyzeDebounceMs, 10, 5000⟩,
    ⟨"return_identity_idle_ms", fun c => c.returnIdentityIdleMs, 10_000, 600_000⟩,
    ⟨"rpa_idle_analyze_ms", fun c => c.rpaIdleAnalyzeMs, 5000, 600_000⟩,
    ⟨"hard_max_attempts", fun c => c.hardMaxAttempts, 1, 32⟩,
    ⟨"soft_max_attempts", fun c => c.softMaxAttempts, 1, 16⟩,
    ⟨"deepen_max_attempts", fun c => c.deepenMaxAttempts, 1, 24⟩,
    ⟨"rpa_max_attempts", fun c => c.rpaMaxAttempts, 1, 12⟩,
    ⟨"fail_budget_n", fun c => c.failBudgetN, 3, 200⟩,
    ⟨"fail_budget_window_ms", fun c => c.failBudgetWindowMs, 10_000, 600_000⟩,
    ⟨"rpa_quiet_ms", fun c => c.rpaQuietMs, 5000, 600_000⟩,
    ⟨"hard_sla_retries", fun c => c.hardSlaRetries, 1, 12⟩,
    ⟨"hard_sla_base_delay_ms", fun c => c.hardSlaBaseDelayMs, 1000, 120_000⟩,
    ⟨"multi_tick_max", fun c => c.multiTickMax, 8, 256⟩,
    ⟨"empty_kick_patience", fun c => c.emptyKickPatience, 2, 128⟩,
    ⟨"upload_max_retries", fun c => c.uploadMaxRetries, 1, 16⟩,
    ⟨"client_alive_retry_ms", fun c => c.clientAliveRetryMs, 5000, 600_000⟩,
    ⟨"upload_concurrency", fun c => c.uploadConcurrency, 2, 24⟩,
    ⟨"upload_mid_ramp", fun c => c.uploadMidRamp, 2, 32⟩,
    ⟨"upload_ramp_after", fun c => c.uploadRampAfter, 4, 32⟩,
    ⟨"rate_limit_open_per_min", fun c => c.rateLimitOpenPerMin, 0, 1_000_000⟩,
    ⟨"rate_limit_ingest_per_min", fun c => c.rateLimitIngestPerMin, 0, 1_000_000⟩,
    ⟨"rate_limit_analyze_per_min", fun c => c.rateLimitAnalyzePerMin, 0, 1_000_000⟩,
    ⟨"rate_limit_complete_per_min", fun c => c.rateLimitCompletePerMin, 0, 1_000_000⟩,
    ⟨"rate_limit_result_per_min", fun c => c.rateLimitResultPerMin, 0, 1_000_000⟩,
    ⟨"rate_limit_client_event_per_min", fun c => c.rateLimitClientEventPerMin, 0, 1_000_000⟩,
    ⟨"rate_limit_client_event_per_ip_per_min",
      fun c => c.rateLimitClientEventPerIpPerMin, 0, 1_000_000⟩,
    ⟨"hot_max_vts", fun c => c.hotMaxVts, 0, 4_000_000⟩,
    ⟨"arm_sweep_interval_ms", fun c => c.armSweepIntervalMs, 1000, 600_000⟩,
    ⟨"arm_sweep_cap", fun c => c.armSweepCap, 1, 10_000⟩,
    ⟨"analyze_claim_batch_flood", fun c => c.analyzeClaimBatchFlood, 1, 32⟩]

theorem clamp_knobs :
    ∀ k ∈ knobs, ∀ c, k.get (clampGlobal c) = clamp (k.get c) k.lo k.hi := by
  unfold knobs
  simp only [List.forall_mem_cons]
  and_intros
  all_goals first | exact List.forall_mem_nil _ | exact fun _ => rfl

theorem patch_knobs : ∀ k ∈ knobs, ∀ base patch,
    k.get (parseGlobalPatch base patch) =
      clamp (patchI64 (k.get base) patch k.name) k.lo k.hi := by
  unfold knobs
  simp only [List.forall_mem_cons]
  and_intros
  all_goals first | exact List.forall_mem_nil _ | exact fun _ _ => rfl

theorem range_knobs : ∀ k ∈ knobs, k.lo ≤ k.hi ∧ -2 ^ 63 ≤ k.lo ∧ k.hi < 2 ^ 63 := by
  decide

theorem RuntimeCfg.ext_knobs {a b : RuntimeCfg} (h : ∀ k ∈ knobs, k.get a = k.get b)
    (hversion : a.version = b.version) (hupdated : a.updatedMs = b.updatedMs)
    (hactor : a.actor = b.actor) (hpurge : a.coldPurgeIntervalMs = b.coldPurgeIntervalMs)
    (hcomplete : a.completeOnCommercialSilicon = b.completeOnCommercialSilicon)
    (hrobots : a.robotFastlaneEnabled = b.robotFastlaneEnabled) (hsites : a.sites = b.sites) :
    a = b := by
  unfold knobs at h
  simp only [List.forall_mem_cons] at h
  apply RuntimeCfg.ext
  all_goals
    simp only [h, hversion, hupdated, hactor, hpurge, hcomplete, hrobots, hsites]

theorem get?_object_of_mem {entries : List (String × Json)} {k : String} {v : Json}
    (hmem : (k, v) ∈ entries) (hnodup : (Assoc.keys entries).Nodup) :
    (object entries).get? k = some v :=
  SortedMap.get?_insertEach_of_mem hmem hnodup SortedMap.empty

def globalNames : List String :=
  ["version", "updated_ms", "actor", "cycle_cool_ms", "cycle_incomplete_ms",
    "session_inactivity_ms", "session_hard_max_ms", "hot_idle_ms", "cold_ttl_ms",
    "cold_promote_window_ms", "cold_purge_interval_ms", "analyze_idle_upload_ms",
    "analyze_debounce_ms", "return_identity_idle_ms", "rpa_idle_analyze_ms",
    "hard_max_attempts", "soft_max_attempts", "deepen_max_attempts", "rpa_max_attempts",
    "fail_budget_n", "fail_budget_window_ms", "rpa_quiet_ms", "hard_sla_retries",
    "hard_sla_base_delay_ms", "multi_tick_max", "empty_kick_patience", "upload_max_retries",
    "client_alive_retry_ms", "upload_concurrency", "upload_mid_ramp", "upload_ramp_after",
    "complete_on_commercial_silicon", "rate_limit_open_per_min", "rate_limit_ingest_per_min",
    "rate_limit_analyze_per_min", "rate_limit_complete_per_min", "rate_limit_result_per_min",
    "rate_limit_client_event_per_min", "rate_limit_client_event_per_ip_per_min",
    "robot_fastlane_enabled", "hot_max_vts", "arm_sweep_interval_ms", "arm_sweep_cap",
    "analyze_claim_batch_flood", "fe_retry_policy", "clamp_notes"]

theorem globalNames_nodup : globalNames.Nodup := by
  decide

theorem get?_globalToJson {c : RuntimeCfg} {k : String} {v : Json}
    (h : (k, v) ∈ globalEntries c) : (globalToJson c).get? k = some v :=
  get?_object_of_mem h globalNames_nodup

theorem stored_knobs (c : RuntimeCfg) :
    (knobs.map fun k => (k.name, ofInt (k.get c))).Sublist (globalEntries c) := by
  unfold knobs globalEntries
  simp only [List.map_cons, List.map_nil]
  repeat first | exact List.nil_sublist _ | apply List.Sublist.cons_cons | apply List.Sublist.cons

theorem get?_knob (c : RuntimeCfg) {k : Knob} (hk : k ∈ knobs) :
    (globalToJson c).get? k.name = some (ofInt (k.get c)) :=
  get?_globalToJson ((stored_knobs c).subset (List.mem_map_of_mem hk))

section Ranges

theorem clamp_mem {α : Type} [LinearOrder α] {lo hi : α} (h : lo ≤ hi) (v : α) :
    lo ≤ clamp v lo hi ∧ clamp v lo hi ≤ hi := by
  unfold clamp
  split_ifs with hlt hgt
  · exact ⟨le_rfl, h⟩
  · exact ⟨h, le_rfl⟩
  · exact ⟨not_lt.mp hlt, not_lt.mp hgt⟩

theorem clamp_of_mem {α : Type} [LinearOrder α] {v lo hi : α} (hlo : lo ≤ v) (hhi : v ≤ hi) :
    clamp v lo hi = v := by
  unfold clamp
  rw [if_neg (not_lt.mpr hlo), if_neg (not_lt.mpr hhi)]

structure InRange (c : RuntimeCfg) : Prop where
  knobs : ∀ k ∈ knobs, k.lo ≤ k.get c ∧ k.get c ≤ k.hi
  purge : c.coldPurgeIntervalMs ≤ 24 * 3600 * 1000

theorem inRange_clampGlobal (c : RuntimeCfg) : InRange (clampGlobal c) where
  knobs := by
    intro k hk
    rw [clamp_knobs k hk]
    exact clamp_mem (range_knobs k hk).1 _
  purge := (clamp_mem (Nat.zero_le _) c.coldPurgeIntervalMs).2

theorem clampGlobal_of_inRange {c : RuntimeCfg} (h : InRange c) : clampGlobal c = c := by
  refine RuntimeCfg.ext_knobs ?_ rfl rfl rfl ?_ rfl rfl rfl
  · intro k hk
    rw [clamp_knobs k hk]
    exact clamp_of_mem (h.knobs k hk).1 (h.knobs k hk).2
  · exact clamp_of_mem (Nat.zero_le _) h.purge

theorem clampGlobal_eq_iff {c : RuntimeCfg} : clampGlobal c = c ↔ InRange c := by
  constructor
  · intro heq
    rw [← heq]
    exact inRange_clampGlobal c
  · exact clampGlobal_of_inRange

theorem clampGlobal_clampGlobal (c : RuntimeCfg) : clampGlobal (clampGlobal c) = clampGlobal c :=
  clampGlobal_of_inRange (inRange_clampGlobal c)

end Ranges

section Sites

def I64 (n : ℤ) : Prop := -2 ^ 63 ≤ n ∧ n < 2 ^ 63

def SiteOverride.Fits (o : SiteOverride) : Prop :=
  ∀ v ∈ [o.cycleCoolMs, o.coldTtlMs, o.analyzeIdleUploadMs, o.returnIdentityIdleMs,
    o.rpaIdleAnalyzeMs, o.hardMaxAttempts, o.softMaxAttempts], ∀ n, v = some n → I64 n

theorem asI64_optInt {v : Option ℤ} (h : ∀ n, v = some n → I64 n) :
    (optInt v).asI64 = v := by
  unfold optInt
  cases v with
  | none => rfl
  | some n => exact asI64_ofInt (h n rfl)

theorem asBool_optBool (v : Option Bool) : ((v.map Json.bool).getD .null).asBool = v := by
  cases v with
  | none => rfl
  | some b => rfl

def siteNames : List String :=
  ["cycle_cool_ms", "cold_ttl_ms", "analyze_idle_upload_ms", "return_identity_idle_ms",
    "rpa_idle_analyze_ms", "hard_max_attempts", "soft_max_attempts", "collect_enabled"]

theorem get?_site {o : SiteOverride} {k : String} {v : Json} (h : (k, v) ∈ siteEntries o) :
    (object (siteEntries o)).get? k = some v := by
  have hnames : Assoc.keys (siteEntries o) = siteNames := rfl
  refine get?_object_of_mem h ?_
  rw [hnames]
  decide

theorem parseSiteOverride_stored {o : SiteOverride} (h : o.Fits) :
    parseSiteOverride (object (siteEntries o)) = o := by
  have hint : ∀ k v, (k, optInt v) ∈ siteEntries o → (∀ n, v = some n → I64 n) →
      ((object (siteEntries o)).get? k).bind asI64 = v := by
    intro k v hmem hfits
    rw [get?_site hmem, Option.bind_some, asI64_optInt hfits]
  have hbool : ((object (siteEntries o)).get? "collect_enabled").bind asBool =
      o.collectEnabled := by
    have hmem : ("collect_enabled", (o.collectEnabled.map Json.bool).getD .null) ∈
        siteEntries o := by simp [siteEntries]
    rw [get?_site hmem, Option.bind_some, asBool_optBool]
  unfold SiteOverride.Fits at h
  simp only [List.forall_mem_cons] at h
  rcases h with ⟨hcool, httl, hidle, hreturn, hrpa, hhard, hsoft, -⟩
  unfold parseSiteOverride
  rw [hbool, hint "cycle_cool_ms" _ (by simp [siteEntries]) hcool,
    hint "cold_ttl_ms" _ (by simp [siteEntries]) httl,
    hint "analyze_idle_upload_ms" _ (by simp [siteEntries]) hidle,
    hint "return_identity_idle_ms" _ (by simp [siteEntries]) hreturn,
    hint "rpa_idle_analyze_ms" _ (by simp [siteEntries]) hrpa,
    hint "hard_max_attempts" _ (by simp [siteEntries]) hhard,
    hint "soft_max_attempts" _ (by simp [siteEntries]) hsoft]

theorem sites_stored {c : RuntimeCfg} (h : ∀ site ∈ c.sites.entries, site.2.Fits) :
    ∃ members, (sitesToJson c).asObject = some members ∧
      SortedMap.empty.insertEach
        (members.entries.map fun site => (site.1, parseSiteOverride site.2)) = c.sites := by
  refine ⟨_, rfl, ?_⟩
  refine SortedMap.ext_get? ?_
  intro k
  apply Option.ext
  intro o
  have hsites : (Assoc.keys (c.sites.entries.map
      fun site => (site.1, object (siteEntries site.2)))).Nodup := by
    rw [Assoc.keys_map fun o => object (siteEntries o)]
    exact c.sites.keys_nodup
  rw [SortedMap.get?_eq_some_iff, SortedMap.mem_entries_insertEach, SortedMap.get?_eq_some_iff]
  · rw [List.mem_map]
    constructor
    · rintro ⟨⟨k', w⟩, hmem, heq⟩
      rw [SortedMap.ofEntries_entries, SortedMap.mem_entries_insertEach hsites, List.mem_map] at hmem
      rcases hmem with ⟨⟨k'', o'⟩, hsite, hwritten⟩
      cases hwritten
      dsimp only at heq
      rw [parseSiteOverride_stored (h _ hsite)] at heq
      cases heq
      exact hsite
    · intro hsite
      refine ⟨(k, object (siteEntries o)), ?_, by rw [parseSiteOverride_stored (h _ hsite)]⟩
      rw [SortedMap.ofEntries_entries, SortedMap.mem_entries_insertEach hsites]
      exact List.mem_map.mpr ⟨(k, o), hsite, rfl⟩
  · rw [Assoc.keys_map parseSiteOverride]
    exact SortedMap.keys_nodup _

end Sites

/-! ## Storage -/

section Storage

def RuntimeCfg.stamped (c : RuntimeCfg) (version : ℕ) (actor : String) (updatedMs : ℤ)
    (sites : SortedMap String SiteOverride) : RuntimeCfg :=
  { c with version := version, actor := actor, updatedMs := updatedMs, sites := sites }

theorem stamped_knobs : ∀ k ∈ knobs, ∀ c version actor updatedMs sites,
    k.get (RuntimeCfg.stamped c version actor updatedMs sites) = k.get c := by
  unfold knobs
  simp only [List.forall_mem_cons]
  and_intros
  all_goals first | exact List.forall_mem_nil _ | exact fun _ _ _ _ _ => rfl

section Members

variable (base : RuntimeCfg) (patch : Json)

theorem purge_patch : (parseGlobalPatch base patch).coldPurgeIntervalMs =
    clamp (patchU64 base.coldPurgeIntervalMs patch "cold_purge_interval_ms") 0
      (24 * 3600 * 1000) := rfl

theorem complete_patch : (parseGlobalPatch base patch).completeOnCommercialSilicon =
    patchBool base.completeOnCommercialSilicon patch "complete_on_commercial_silicon" := rfl

theorem robots_patch : (parseGlobalPatch base patch).robotFastlaneEnabled =
    patchBool base.robotFastlaneEnabled patch "robot_fastlane_enabled" := rfl

end Members

theorem patchI64_stored {c : RuntimeCfg} (h : InRange c) {k : Knob} (hk : k ∈ knobs) (v : ℤ) :
    patchI64 v (globalToJson c) k.name = k.get c := by
  rcases range_knobs k hk with ⟨-, hlo, hhi⟩
  rcases h.knobs k hk with ⟨hgetLo, hgetHi⟩
  unfold patchI64
  rw [get?_knob c hk, Option.bind_some,
    asI64_ofInt ⟨hlo.trans hgetLo, hgetHi.trans_lt hhi⟩, Option.getD_some]

theorem patchBool_stored {c : RuntimeCfg} {k : String} {b : Bool}
    (h : (k, Json.bool b) ∈ globalEntries c) (v : Bool) : patchBool v (globalToJson c) k = b := by
  unfold patchBool
  rw [get?_globalToJson h]
  rfl

theorem patchU64_stored {c : RuntimeCfg} (h : InRange c) (v : ℕ) :
    patchU64 v (globalToJson c) "cold_purge_interval_ms" = c.coldPurgeIntervalMs := by
  have hmem : ("cold_purge_interval_ms", ofInt c.coldPurgeIntervalMs) ∈ globalEntries c := by
    simp [globalEntries]
  have hpurge := h.purge
  unfold patchU64
  rw [get?_globalToJson hmem, Option.bind_some, asU64_ofInt (by omega)]
  rfl

theorem parseGlobalPatch_stored {c : RuntimeCfg} (h : InRange c) (base : RuntimeCfg) :
    parseGlobalPatch base (globalToJson c) =
      c.stamped base.version base.actor base.updatedMs base.sites := by
  refine RuntimeCfg.ext_knobs ?_ rfl rfl rfl ?_ ?_ ?_ rfl
  · intro k hk
    rw [patch_knobs k hk, stamped_knobs k hk, patchI64_stored h hk]
    exact clamp_of_mem (h.knobs k hk).1 (h.knobs k hk).2
  · rw [purge_patch, patchU64_stored h]
    exact clamp_of_mem (Nat.zero_le _) h.purge
  · have hmem : ("complete_on_commercial_silicon", Json.bool c.completeOnCommercialSilicon) ∈
        globalEntries c := by simp [globalEntries]
    rw [complete_patch, patchBool_stored hmem]
    rfl
  · have hmem : ("robot_fastlane_enabled", Json.bool c.robotFastlaneEnabled) ∈
        globalEntries c := by simp [globalEntries]
    rw [robots_patch, patchBool_stored hmem]
    rfl

theorem cfgFromStored_eq {sites : Json} {members : Fields} (h : sites.asObject = some members)
    (env : String → Option String) (global : Json) (version : ℕ) (actor : String)
    (updatedMs : ℤ) :
    cfgFromStored env global sites version actor updatedMs =
      clampGlobal ((parseGlobalPatch (RuntimeCfg.default env) global).stamped version actor
        updatedMs (SortedMap.empty.insertEach
          (members.entries.map fun site => (site.1, parseSiteOverride site.2)))) := by
  unfold cfgFromStored
  rw [h]
  rfl

theorem cfgFromStored_stored {c : RuntimeCfg} (h : InRange c)
    (hsites : ∀ site ∈ c.sites.entries, site.2.Fits) (env : String → Option String) :
    cfgFromStored env (globalToJson c) (sitesToJson c) c.version c.actor c.updatedMs = c := by
  rcases sites_stored hsites with ⟨members, hmembers, hback⟩
  rw [cfgFromStored_eq hmembers, hback, parseGlobalPatch_stored h]
  exact clampGlobal_of_inRange h

end Storage

end PanelConfig

end GrServer
