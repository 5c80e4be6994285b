import GrServer.MapMerge
import GrServer.StorageBind

/-!
# The runtime configuration

The panel's business knobs: their defaults, of which some are read from the
environment, the safe ranges, the patch of an administrator, the overrides of a
site, and the JSON under which a published configuration is stored.  The help
texts that the stored object also carries are left out.
-/

namespace GrServer

open Json Text

namespace PanelConfig

structure SiteOverride where
  cycleCoolMs : Option ℤ
  coldTtlMs : Option ℤ
  analyzeIdleUploadMs : Option ℤ
  returnIdentityIdleMs : Option ℤ
  rpaIdleAnalyzeMs : Option ℤ
  hardMaxAttempts : Option ℤ
  softMaxAttempts : Option ℤ
  collectEnabled : Option Bool

/-- The unsigned members are `version` and `cold_purge_interval_ms`. -/
@[ext] structure RuntimeCfg where
  version : ℕ
  updatedMs : ℤ
  actor : String
  cycleCoolMs : ℤ
  cycleIncompleteMs : ℤ
  sessionInactivityMs : ℤ
  sessionHardMaxMs : ℤ
  hotIdleMs : ℤ
  coldTtlMs : ℤ
  coldPromoteWindowMs : ℤ
  coldPurgeIntervalMs : ℕ
  analyzeIdleUploadMs : ℤ
  analyzeDebounceMs : ℤ
  returnIdentityIdleMs : ℤ
  rpaIdleAnalyzeMs : ℤ
  hardMaxAttempts : ℤ
  softMaxAttempts : ℤ
  deepenMaxAttempts : ℤ
  rpaMaxAttempts : ℤ
  failBudgetN : ℤ
  failBudgetWindowMs : ℤ
  rpaQuietMs : ℤ
  hardSlaRetries : ℤ
  hardSlaBaseDelayMs : ℤ
  multiTickMax : ℤ
  emptyKickPatience : ℤ
  uploadMaxRetries : ℤ
  clientAliveRetryMs : ℤ
  uploadConcurrency : ℤ
  uploadMidRamp : ℤ
  uploadRampAfter : ℤ
  completeOnCommercialSilicon : Bool
  rateLimitOpenPerMin : ℤ
  rateLimitIngestPerMin : ℤ
  rateLimitAnalyzePerMin : ℤ
  rateLimitCompletePerMin : ℤ
  rateLimitResultPerMin : ℤ
  rateLimitClientEventPerMin : ℤ
  rateLimitClientEventPerIpPerMin : ℤ
  robotFastlaneEnabled : Bool
  hotMaxVts : ℤ
  armSweepIntervalMs : ℤ
  armSweepCap : ℤ
  analyzeClaimBatchFlood : ℤ
  sites : SortedMap String SiteOverride

/-! ## Defaults -/

def cycleCoolMs : ℤ := 24 * 60 * 60 * 1000

def cycleIncompleteMs : ℤ := 72 * 60 * 60 * 1000

def sessionInactivityMs : ℤ := 30 * 60 * 1000

def sessionHardMaxMs : ℤ := 24 * 60 * 60 * 1000

def defaultHotIdleMs : ℤ := 30 * 60 * 1000

def defaultColdTtlMs : ℤ := 7 * 24 * 60 * 60 * 1000

def defaultColdPromoteWindowMs : ℤ := 24 * 60 * 60 * 1000

section Defaults

-- The variables of the environment, by their names behind `GR_`.
variable (env : String → Option String)

def envI64 (key : String) (default : ℤ) : ℤ :=
  ((((env key).bind fun s => StorageBind.parseI64 (trim s.toList)).map Int64.toInt).filter
    fun n => 0 ≤ n).getD default

def RuntimeCfg.default : RuntimeCfg where
  version := 0
  updatedMs := 0
  actor := "default"
  cycleCoolMs := PanelConfig.cycleCoolMs
  cycleIncompleteMs := PanelConfig.cycleIncompleteMs
  sessionInactivityMs := PanelConfig.sessionInactivityMs
  sessionHardMaxMs := PanelConfig.sessionHardMaxMs
  hotIdleMs := PanelConfig.defaultHotIdleMs
  coldTtlMs := PanelConfig.defaultColdTtlMs
  coldPromoteWindowMs := PanelConfig.defaultColdPromoteWindowMs
  coldPurgeIntervalMs := 300_000
  analyzeIdleUploadMs := 20_000
  analyzeDebounceMs := 40
  returnIdentityIdleMs := 45_000
  rpaIdleAnalyzeMs := 25_000
  hardMaxAttempts := 8
  softMaxAttempts := 4
  deepenMaxAttempts := 6
  rpaMaxAttempts := 3
  failBudgetN := 24
  failBudgetWindowMs := 90_000
  rpaQuietMs := 45_000
  hardSlaRetries := 5
  hardSlaBaseDelayMs := 2000
  multiTickMax := 96
  emptyKickPatience := 20
  uploadMaxRetries := 5
  clientAliveRetryMs := 30_000
  uploadConcurrency := 6
  uploadMidRamp := 12
  uploadRampAfter := 14
  completeOnCommercialSilicon := true
  rateLimitOpenPerMin := envI64 env "RATE_LIMIT_OPEN_PER_MIN" 0
  rateLimitIngestPerMin := envI64 env "RATE_LIMIT_INGEST_PER_MIN" 0
  rateLimitAnalyzePerMin := envI64 env "RATE_LIMIT_ANALYZE_PER_MIN" 0
  rateLimitCompletePerMin := envI64 env "RATE_LIMIT_COMPLETE_PER_MIN" 0
  rateLimitResultPerMin := envI64 env "RATE_LIMIT_RESULT_PER_MIN" 0
  rateLimitClientEventPerMin := envI64 env "RATE_LIMIT_CLIENT_EVENT_PER_MIN" 0
  rateLimitClientEventPerIpPerMin := envI64 env "RATE_LIMIT_CLIENT_EVENT_PER_IP_PER_MIN" 100
  robotFastlaneEnabled := true
  hotMaxVts := envI64 env "HOT_MAX_VTS" 8192
  armSweepIntervalMs := 15_000
  armSweepCap := 256
  analyzeClaimBatchFlood := 16
  sites := SortedMap.empty

end Defaults

def clamp {α : Type} [LinearOrder α] (v lo hi : α) : α :=
  if v < lo then lo else if hi < v then hi else v

def clampGlobal (c : RuntimeCfg) : RuntimeCfg :=
  { c with
    cycleCoolMs := clamp c.cycleCoolMs 60_000 (7 * 24 * 3600 * 1000)
    cycleIncompleteMs := clamp c.cycleIncompleteMs 3_600_000 (14 * 24 * 3600 * 1000)
    sessionInactivityMs := clamp c.sessionInactivityMs 60_000 (24 * 3600 * 1000)
    sessionHardMaxMs := clamp c.sessionHardMaxMs 3_600_000 (7 * 24 * 3600 * 1000)
    hotIdleMs := clamp c.hotIdleMs 60_000 (24 * 3600 * 1000)
    coldTtlMs := clamp c.coldTtlMs 3_600_000 (90 * 24 * 3600 * 1000)
    coldPromoteWindowMs := clamp c.coldPromoteWindowMs 60_000 (7 * 24 * 3600 * 1000)
    coldPurgeIntervalMs := clamp c.coldPurgeIntervalMs 0 (24 * 3600 * 1000)
    analyzeIdleUploadMs := clamp c.analyzeIdleUploadMs 5000 600_000
    analyzeDebounceMs := clamp c.analyzeDebounceMs 10 5000
    returnIdentityIdleMs := clamp c.returnIdentityIdleMs 10_000 600_000
    rpaIdleAnalyzeMs := clamp c.rpaIdleAnalyzeMs 5000 600_000
    hardMaxAttempts := clamp c.hardMaxAttempts 1 32
    softMaxAttempts := clamp c.softMaxAttempts 1 16
    deepenMaxAttempts := clamp c.deepenMaxAttempts 1 24
    rpaMaxAttempts := clamp c.rpaMaxAttempts 1 12
    failBudgetN := clamp c.failBudgetN 3 200
    failBudgetWindowMs := clamp c.failBudgetWindowMs 10_000 600_000
    rpaQuietMs := clamp c.rpaQuietMs 5000 600_000
    hardSlaRetries := clamp c.hardSlaRetries 1 12
    hardSlaBaseDelayMs := clamp c.hardSlaBaseDelayMs 1000 120_000
    multiTickMax := clamp c.multiTickMax 8 256
    emptyKickPatience := clamp c.emptyKickPatience 2 128
    uploadMaxRetries := clamp c.uploadMaxRetries 1 16
    clientAliveRetryMs := clamp c.clientAliveRetryMs 5000 600_000
    uploadConcurrency := clamp c.uploadConcurrency 2 24
    uploadMidRamp := clamp c.uploadMidRamp 2 32
    uploadRampAfter := clamp c.uploadRampAfter 4 32
    rateLimitOpenPerMin := clamp c.rateLimitOpenPerMin 0 1_000_000
    rateLimitIngestPerMin := clamp c.rateLimitIngestPerMin 0 1_000_000
    rateLimitAnalyzePerMin := clamp c.rateLimitAnalyzePerMin 0 1_000_000
    rateLimitCompletePerMin := clamp c.rateLimitCompletePerMin 0 1_000_000
    rateLimitResultPerMin := clamp c.rateLimitResultPerMin 0 1_000_000
    rateLimitClientEventPerMin := clamp c.rateLimitClientEventPerMin 0 1_000_000
    rateLimitClientEventPerIpPerMin := clamp c.rateLimitClientEventPerIpPerMin 0 1_000_000
    hotMaxVts := clamp c.hotMaxVts 0 4_000_000
    armSweepIntervalMs := clamp c.armSweepIntervalMs 1000 600_000
    armSweepCap := clamp c.armSweepCap 1 10_000
    analyzeClaimBatchFlood := clamp c.analyzeClaimBatchFlood 1 32 }

def object (entries : List (String × Json)) : Json :=
  ofFields (SortedMap.empty.insertEach entries)

def nextDelay (d : ℤ) : ℤ :=
  let d := d * 18 / 10
  if 60_000 < d then 60_000 else d

def delaysFrom : ℕ → ℤ → List ℤ
  | 0, _ => []
  | n + 1, d => d :: delaysFrom n (nextDelay d)

def hardSlaDelays (c : RuntimeCfg) : List ℤ :=
  delaysFrom (max c.hardSlaRetries 1).toNat c.hardSlaBaseDelayMs

def feRetryPolicyJson (c : RuntimeCfg) : Json :=
  object
    [("hard_max_attempts", ofInt c.hardMaxAttempts),
      ("soft_max_attempts", ofInt c.softMaxAttempts),
      ("deepen_max_attempts", ofInt c.deepenMaxAttempts),
      ("rpa_max_attempts", ofInt c.rpaMaxAttempts),
      ("fail_budget_n", ofInt c.failBudgetN),
      ("fail_budget_window_ms", ofInt c.failBudgetWindowMs),
      ("rpa_quiet_ms", ofInt c.rpaQuietMs),
      ("hard_sla_retries", ofInt c.hardSlaRetries),
      ("hard_sla_base_delay_ms", ofInt c.hardSlaBaseDelayMs),
      ("hard_sla_delays_ms", .arr ((hardSlaDelays c).map ofInt)),
      ("multi_tick_max", ofInt c.multiTickMax),
      ("empty_kick_patience", ofInt c.emptyKickPatience),
      ("upload_max_retries", ofInt c.uploadMaxRetries),
      ("client_alive_retry_ms", ofInt c.clientAliveRetryMs),
      ("upload_concurrency", ofInt c.uploadConcurrency),
      ("upload_mid_ramp", ofInt c.uploadMidRamp),
      ("upload_ramp_after", ofInt c.uploadRampAfter),
      ("complete_on_commercial_silicon", .bool c.completeOnCommercialSilicon)]

def RuntimeCfg.override (c : RuntimeCfg) (o : SiteOverride) : RuntimeCfg :=
  { c with
    cycleCoolMs := o.cycleCoolMs.getD c.cycleCoolMs
    coldTtlMs := o.coldTtlMs.getD c.coldTtlMs
    analyzeIdleUploadMs := o.analyzeIdleUploadMs.getD c.analyzeIdleUploadMs
    returnIdentityIdleMs := o.returnIdentityIdleMs.getD c.returnIdentityIdleMs
    rpaIdleAnalyzeMs := o.rpaIdleAnalyzeMs.getD c.rpaIdleAnalyzeMs
    hardMaxAttempts := o.hardMaxAttempts.getD c.hardMaxAttempts
    softMaxAttempts := o.softMaxAttempts.getD c.softMaxAttempts }

/-- The configuration in force, `c`, for a site. -/
def effectiveForSite (c : RuntimeCfg) (siteId : String) : RuntimeCfg :=
  if siteId = "" then c
  else
    match c.sites.get? siteId with
    | some o => clampGlobal (c.override o)
    | none => c

def globalEntries (c : RuntimeCfg) : List (String × Json) :=
  [("version", ofInt c.version),
    ("updated_ms", ofInt c.updatedMs),
    ("actor", .str c.actor),
    ("cycle_cool_ms", ofInt c.cycleCoolMs),
    ("cycle_incomplete_ms", ofInt c.cycleIncompleteMs),
    ("session_inactivity_ms", ofInt c.sessionInactivityMs),
    ("session_hard_max_ms", ofInt c.sessionHardMaxMs),
    ("hot_idle_ms", ofInt c.hotIdleMs),
    ("cold_ttl_ms", ofInt c.coldTtlMs),
    ("cold_promote_window_ms", ofInt c.coldPromoteWindowMs),
    ("cold_purge_interval_ms", ofInt c.coldPurgeIntervalMs),
    ("analyze_idle_upload_ms", ofInt c.analyzeIdleUploadMs),
    ("analyze_debounce_ms", ofInt c.analyzeDebounceMs),
    ("return_identity_idle_ms", ofInt c.returnIdentityIdleMs),
    ("rpa_idle_analyze_ms", ofInt c.rpaIdleAnalyzeMs),
    ("hard_max_attempts", ofInt c.hardMaxAttempts),
    ("soft_max_attempts", ofInt c.softMaxAttempts),
    ("deepen_max_attempts", ofInt c.deepenMaxAttempts),
    ("rpa_max_attempts", ofInt c.rpaMaxAttempts),
    ("fail_budget_n", ofInt c.failBudgetN),
    ("fail_budget_window_ms", ofInt c.failBudgetWindowMs),
    ("rpa_quiet_ms", ofInt c.rpaQuietMs),
    ("hard_sla_retries", ofInt c.hardSlaRetries),
    ("hard_sla_base_delay_ms", ofInt c.hardSlaBaseDelayMs),
    ("multi_tick_max", ofInt c.multiTickMax),
    ("empty_kick_patience", ofInt c.emptyKickPatience),
    ("upload_max_retries", ofInt c.uploadMaxRetries),
    ("client_alive_retry_ms", ofInt c.clientAliveRetryMs),
    ("upload_concurrency", ofInt c.uploadConcurrency),
    ("upload_mid_ramp", ofInt c.uploadMidRamp),
    ("upload_ramp_after", ofInt c.uploadRampAfter),
    ("complete_on_commercial_silicon", .bool c.completeOnCommercialSilicon),
    ("rate_limit_open_per_min", ofInt c.rateLimitOpenPerMin),
    ("rate_limit_ingest_per_min", ofInt c.rateLimitIngestPerMin),
    ("rate_limit_analyze_per_min", ofInt c.rateLimitAnalyzePerMin),
    ("rate_limit_complete_per_min", ofInt c.rateLimitCompletePerMin),
    ("rate_limit_result_per_min", ofInt c.rateLimitResultPerMin),
    ("rate_limit_client_event_per_min", ofInt c.rateLimitClientEventPerMin),
    ("rate_limit_client_event_per_ip_per_min", ofInt c.rateLimitClientEventPerIpPerMin),
    ("robot_fastlane_enabled", .bool c.robotFastlaneEnabled),
    ("hot_max_vts", ofInt c.hotMaxVts),
    ("arm_sweep_interval_ms", ofInt c.armSweepIntervalMs),
    ("arm_sweep_cap", ofInt c.armSweepCap),
    ("analyze_claim_batch_flood", ofInt c.analyzeClaimBatchFlood),
    ("fe_retry_policy", feRetryPolicyJson c),
    ("clamp_notes", object
      [("return_identity_idle_ms_min", ofInt 10_000), ("cycle_cool_ms_min", ofInt 60_000),
        ("hard_max_attempts_max", ofInt 32)])]

def globalToJson (c : RuntimeCfg) : Json := object (globalEntries c)

def optInt (v : Option ℤ) : Json := (v.map ofInt).getD .null

def siteEntries (o : SiteOverride) : List (String × Json) :=
  [("cycle_cool_ms", optInt o.cycleCoolMs),
    ("cold_ttl_ms", optInt o.coldTtlMs),
    ("analyze_idle_upload_ms", optInt o.analyzeIdleUploadMs),
    ("return_identity_idle_ms", optInt o.returnIdentityIdleMs),
    ("rpa_idle_analyze_ms", optInt o.rpaIdleAnalyzeMs),
    ("hard_max_attempts", optInt o.hardMaxAttempts),
    ("soft_max_attempts", optInt o.softMaxAttempts),
    ("collect_enabled", (o.collectEnabled.map Json.bool).getD .null)]

def sitesToJson (c : RuntimeCfg) : Json :=
  object (c.sites.entries.map fun site => (site.1, object (siteEntries site.2)))

def patchI64 (v : ℤ) (patch : Json) (k : String) : ℤ := ((patch.get? k).bind asI64).getD v

def patchU64 (v : ℕ) (patch : Json) (k : String) : ℕ := ((patch.get? k).bind asU64).getD v

def patchBool (v : Bool) (patch : Json) (k : String) : Bool := ((patch.get? k).bind asBool).getD v

def parseGlobalPatch (base : RuntimeCfg) (patch : Json) : RuntimeCfg :=
  clampGlobal
    { base with
      cycleCoolMs := patchI64 base.cycleCoolMs patch "cycle_cool_ms"
      cycleIncompleteMs := patchI64 base.cycleIncompleteMs patch "cycle_incomplete_ms"
      sessionInactivityMs := patchI64 base.sessionInactivityMs patch "session_inactivity_ms"
      sessionHardMaxMs := patchI64 base.sessionHardMaxMs patch "session_hard_max_ms"
      hotIdleMs := patchI64 base.hotIdleMs patch "hot_idle_ms"
      coldTtlMs := patchI64 base.coldTtlMs patch "cold_ttl_ms"
      coldPromoteWindowMs := patchI64 base.coldPromoteWindowMs patch "cold_promote_window_ms"
      coldPurgeIntervalMs := patchU64 base.coldPurgeIntervalMs patch "cold_purge_interval_ms"
      analyzeIdleUploadMs := patchI64 base.analyzeIdleUploadMs patch "analyze_idle_upload_ms"
      analyzeDebounceMs := patchI64 base.analyzeDebounceMs patch "analyze_debounce_ms"
      returnIdentityIdleMs := patchI64 base.returnIdentityIdleMs patch "return_identity_idle_ms"
      rpaIdleAnalyzeMs := patchI64 base.rpaIdleAnalyzeMs patch "rpa_idle_analyze_ms"
      hardMaxAttempts := patchI64 base.hardMaxAttempts patch "hard_max_attempts"
      softMaxAttempts := patchI64 base.softMaxAttempts patch "soft_max_attempts"
      deepenMaxAttempts := patchI64 base.deepenMaxAttempts patch "deepen_max_attempts"
      rpaMaxAttempts := patchI64 base.rpaMaxAttempts patch "rpa_max_attempts"
      failBudgetN := patchI64 base.failBudgetN patch "fail_budget_n"
      failBudgetWindowMs := patchI64 base.failBudgetWindowMs patch "fail_budget_window_ms"
      rpaQuietMs := patchI64 base.rpaQuietMs patch "rpa_quiet_ms"
      hardSlaRetries := patchI64 base.hardSlaRetries patch "hard_sla_retries"
      hardSlaBaseDelayMs := patchI64 base.hardSlaBaseDelayMs patch "hard_sla_base_delay_ms"
      multiTickMax := patchI64 base.multiTickMax patch "multi_tick_max"
      emptyKickPatience := patchI64 base.emptyKickPatience patch "empty_kick_patience"
      uploadMaxRetries := patchI64 base.uploadMaxRetries patch "upload_max_retries"
      clientAliveRetryMs := patchI64 base.clientAliveRetryMs patch "client_alive_retry_ms"
      uploadConcurrency := patchI64 base.uploadConcurrency patch "upload_concurrency"
      uploadMidRamp := patchI64 base.uploadMidRamp patch "upload_mid_ramp"
      uploadRampAfter := patchI64 base.uploadRampAfter patch "upload_ramp_after"
      rateLimitOpenPerMin := patchI64 base.rateLimitOpenPerMin patch "rate_limit_open_per_min"
      rateLimitIngestPerMin :=
        patchI64 base.rateLimitIngestPerMin patch "rate_limit_ingest_per_min"
      rateLimitAnalyzePerMin :=
        patchI64 base.rateLimitAnalyzePerMin patch "rate_limit_analyze_per_min"
      rateLimitCompletePerMin :=
        patchI64 base.rateLimitCompletePerMin patch "rate_limit_complete_per_min"
      rateLimitResultPerMin :=
        patchI64 base.rateLimitResultPerMin patch "rate_limit_result_per_min"
      rateLimitClientEventPerMin :=
        patchI64 base.rateLimitClientEventPerMin patch "rate_limit_client_event_per_min"
      rateLimitClientEventPerIpPerMin :=
        patchI64 base.rateLimitClientEventPerIpPerMin patch "rate_limit_client_event_per_ip_per_min"
      hotMaxVts := patchI64 base.hotMaxVts patch "hot_max_vts"
      armSweepIntervalMs := patchI64 base.armSweepIntervalMs patch "arm_sweep_interval_ms"
      armSweepCap := patchI64 base.armSweepCap patch "arm_sweep_cap"
      analyzeClaimBatchFlood :=
        patchI64 base.analyzeClaimBatchFlood patch "analyze_claim_batch_flood"
      completeOnCommercialSilicon :=
        patchBool base.completeOnCommercialSilicon patch "complete_on_commercial_silicon"
      robotFastlaneEnabled := patchBool base.robotFastlaneEnabled patch "robot_fastlane_enabled" }

def parseSiteOverride (v : Json) : SiteOverride where
  cycleCoolMs := (v.get? "cycle_cool_ms").bind asI64
  coldTtlMs := (v.get? "cold_ttl_ms").bind asI64
  analyzeIdleUploadMs := (v.get? "analyze_idle_upload_ms").bind asI64
  returnIdentityIdleMs := (v.get? "return_identity_idle_ms").bind asI64
  rpaIdleAnalyzeMs := (v.get? "rpa_idle_analyze_ms").bind asI64
  hardMaxAttempts := (v.get? "hard_max_attempts").bind asI64
  softMaxAttempts := (v.get? "soft_max_attempts").bind asI64
  collectEnabled := (v.get? "collect_enabled").bind asBool

def cfgFromStored (env : String → Option String) (global sites : Json) (version : ℕ)
    (actor : String) (updatedMs : ℤ) : RuntimeCfg :=
  let c := parseGlobalPatch (RuntimeCfg.default env) global
  let c := { c with version := version, actor := actor, updatedMs := updatedMs }
  let c :=
    match sites.asObject with
    | some members =>
        { c with
          sites := c.sites.insertEach
            (members.entries.map fun site => (site.1, parseSiteOverride site.2)) }
    | none => c
  clampGlobal c

end PanelConfig

end GrServer
