import GrServer.RuntimeCfgLaw

/-!
# Published configurations

Which configurations are reached from the defaults, and when one survives its
storage, keeps to its ranges and gives capped retry delays.
-/

namespace GrServer

open Json

namespace PanelConfig

section Delays

theorem length_delaysFrom (n : ℕ) (d : ℤ) : (delaysFrom n d).length = n := by
  induction n generalizing d with
  | zero => rfl
  | succ n ih =>
      unfold delaysFrom
      rw [List.length_cons, ih]

theorem nextDelay_le (d : ℤ) : nextDelay d ≤ 60_000 := by
  unfold nextDelay
  dsimp only
  split_ifs
  all_goals omega

theorem le_nextDelay {d : ℤ} (hpos : 2 ≤ d) (hle : d ≤ 60_000) : d ≤ nextDelay d := by
  unfold nextDelay
  dsimp only
  split_ifs
  all_goals omega

theorem delaysFrom_spec (n : ℕ) {d : ℤ} (hpos : 2 ≤ d) (hle : d ≤ 60_000) :
    (∀ x ∈ delaysFrom n d, d ≤ x ∧ x ≤ 60_000) ∧ (delaysFrom n d).Pairwise (· ≤ ·) := by
  induction n generalizing d with
  | zero => exact ⟨nofun, List.Pairwise.nil⟩
  | succ n ih =>
      have hnext := le_nextDelay hpos hle
      rcases ih (hpos.trans hnext) (nextDelay_le d) with ⟨hall, hsorted⟩
      have htail : ∀ x ∈ delaysFrom n (nextDelay d), d ≤ x ∧ x ≤ 60_000 :=
        fun x hx => ⟨hnext.trans (hall x hx).1, (hall x hx).2⟩
      refine ⟨?_, List.Pairwise.cons (fun x hx => (htail x hx).1) hsorted⟩
      intro x hx
      rcases List.mem_cons.mp hx with rfl | hx
      · exact ⟨le_rfl, hle⟩
      · exact htail x hx

def DelaysCapped (c : RuntimeCfg) : Prop :=
  ∃ delays : List ℤ,
    (feRetryPolicyJson c).get? "hard_sla_delays_ms" = some (.arr (delays.map ofInt)) ∧
      delays.length = c.hardSlaRetries ∧ delays.Pairwise (· ≤ ·) ∧ ∀ d ∈ delays, d ≤ 60_000

theorem get?_delays (c : RuntimeCfg) :
    (feRetryPolicyJson c).get? "hard_sla_delays_ms" =
      some (.arr ((hardSlaDelays c).map ofInt)) := by
  unfold feRetryPolicyJson
  refine get?_object_of_mem (by simp) ?_
  unfold Assoc.keys
  simp only [List.map_cons, List.map_nil]
  decide

theorem map_ofInt_injective : Function.Injective (List.map ofInt) := by
  refine List.map_injective_iff.mpr ?_
  intro a b h
  cases h
  rfl

theorem delaysCapped_iff {c : RuntimeCfg} (hretries : 1 ≤ c.hardSlaRetries)
    (hbase : 2 ≤ c.hardSlaBaseDelayMs) :
    DelaysCapped c ↔ c.hardSlaBaseDelayMs ≤ 60_000 := by
  have hmax : max c.hardSlaRetries 1 = c.hardSlaRetries := max_eq_left hretries
  constructor
  · rintro ⟨delays, hget, -, -, hcapped⟩
    rw [get?_delays, Option.some.injEq, Json.arr.injEq] at hget
    have hdelays := map_ofInt_injective hget
    refine hcapped _ ?_
    rw [← hdelays]
    unfold hardSlaDelays
    rw [hmax]
    cases hcount : c.hardSlaRetries.toNat with
    | zero => omega
    | succ n => exact List.mem_cons_self
  · intro hle
    rcases delaysFrom_spec (max c.hardSlaRetries 1).toNat hbase hle with ⟨hall, hsorted⟩
    refine ⟨hardSlaDelays c, get?_delays c, ?_, hsorted, fun d hd => (hall d hd).2⟩
    unfold hardSlaDelays
    rw [length_delaysFrom, hmax]
    omega

end Delays

/-! ## Reachable configurations -/

section Reach

variable {env : String → Option String} {c : RuntimeCfg}

/-- What patches and site overrides make of the defaults, with the stamps of a
publication. -/
inductive Reachable (env : String → Option String) : RuntimeCfg → Prop
  | default : Reachable env (RuntimeCfg.default env)
  | patch {c : RuntimeCfg} (h : Reachable env c) (patch : Json) :
      Reachable env (parseGlobalPatch c patch)
  | site {c : RuntimeCfg} (h : Reachable env c) (siteId : String) (o : SiteOverride)
      (fits : o.Fits) : Reachable env { c with sites := c.sites.insert siteId o }
  | unsite {c : RuntimeCfg} (h : Reachable env c) (siteId : String) :
      Reachable env { c with sites := c.sites.erase siteId }
  | stamp {c : RuntimeCfg} (h : Reachable env c) (version : ℕ) (actor : String)
      (updatedMs : ℤ) :
      Reachable env { c with version := version, actor := actor, updatedMs := updatedMs }

def seeded : List String :=
  ["rate_limit_open_per_min", "rate_limit_ingest_per_min", "rate_limit_analyze_per_min",
    "rate_limit_complete_per_min", "rate_limit_result_per_min",
    "rate_limit_client_event_per_min", "rate_limit_client_event_per_ip_per_min", "hot_max_vts"]

/-- In range but for what the environment may have set too high. -/
structure Bounded (c : RuntimeCfg) : Prop where
  knobs : ∀ k ∈ knobs, k.lo ≤ k.get c ∧ (k.name ∉ seeded → k.get c ≤ k.hi)
  purge : c.coldPurgeIntervalMs ≤ 24 * 3600 * 1000
  sites : ∀ site ∈ c.sites.entries, site.2.Fits

theorem envI64_nonneg (key : String) {d : ℤ} (h : 0 ≤ d) : 0 ≤ envI64 env key d := by
  unfold envI64
  generalize ((env key).bind fun s =>
    StorageBind.parseI64 (Text.trim s.toList)).map Int64.toInt = value
  cases hfound : value.filter fun n => 0 ≤ n with
  | none => exact h
  | some n =>
      have hmem := (Option.filter_eq_some_iff.mp hfound).2
      exact of_decide_eq_true hmem

theorem unseeded_default (env : String → Option String) : ∀ k ∈ knobs, k.name ∉ seeded →
    k.get (RuntimeCfg.default env) = k.get (RuntimeCfg.default fun _ => none) := by
  unfold knobs
  simp only [List.forall_mem_cons]
  and_intros
  all_goals first
    | exact List.forall_mem_nil _
    | exact fun _ => rfl
    | exact fun h => absurd (by decide) h

theorem seeded_default (env : String → Option String) : ∀ k ∈ knobs, k.name ∈ seeded →
    k.lo ≤ k.get (RuntimeCfg.default env) := by
  unfold knobs
  simp only [List.forall_mem_cons]
  and_intros
  all_goals first
    | exact List.forall_mem_nil _
    | exact fun h => absurd h (by decide)
    | exact fun _ => envI64_nonneg _ (by decide)

theorem range_default : ∀ k ∈ knobs,
    k.lo ≤ k.get (RuntimeCfg.default fun _ => none) ∧
      k.get (RuntimeCfg.default fun _ => none) ≤ k.hi := by
  decide

theorem bounded_default (env : String → Option String) : Bounded (RuntimeCfg.default env) where
  knobs := by
    intro k hk
    by_cases hseeded : k.name ∈ seeded
    · exact ⟨seeded_default env k hk hseeded, fun hnot => absurd hseeded hnot⟩
    · rw [unseeded_default env k hk hseeded]
      exact ⟨(range_default k hk).1, fun _ => (range_default k hk).2⟩
  purge := by
    have hpurge : (RuntimeCfg.default env).coldPurgeIntervalMs = 300_000 := rfl
    rw [hpurge]
    decide
  sites := by
    have hnone : (RuntimeCfg.default env).sites = SortedMap.empty := rfl
    rw [hnone]
    exact List.forall_mem_nil _

theorem bounded_stamped (h : Bounded c) (version : ℕ) (actor : String) (updatedMs : ℤ)
    {sites : SortedMap String SiteOverride} (hsites : ∀ site ∈ sites.entries, site.2.Fits) :
    Bounded (c.stamped version actor updatedMs sites) where
  knobs := by
    intro k hk
    rw [stamped_knobs k hk]
    exact h.knobs k hk
  purge := h.purge
  sites := hsites

theorem Reachable.bounded (h : Reachable env c) : Bounded c := by
  induction h with
  | default => exact bounded_default env
  | @patch c _ patch ih =>
      have hrange : InRange (parseGlobalPatch c patch) := inRange_clampGlobal _
      exact ⟨fun k hk => ⟨(hrange.knobs k hk).1, fun _ => (hrange.knobs k hk).2⟩, hrange.purge,
        ih.sites⟩
  | @site c _ siteId o fits ih =>
      refine bounded_stamped ih c.version c.actor c.updatedMs ?_
      rintro ⟨k, o'⟩ hsite
      rw [← SortedMap.get?_eq_some_iff, SortedMap.get?_insert] at hsite
      split_ifs at hsite
      · cases hsite
        exact fits
      · exact ih.sites _ (SortedMap.get?_eq_some_iff.mp hsite)
  | @unsite c _ siteId ih =>
      refine bounded_stamped ih c.version c.actor c.updatedMs ?_
      rintro ⟨k, o'⟩ hsite
      rw [← SortedMap.get?_eq_some_iff, SortedMap.get?_erase] at hsite
      split_ifs at hsite
      exact ih.sites _ (SortedMap.get?_eq_some_iff.mp hsite)
  | @stamp c _ version actor updatedMs ih =>
      exact bounded_stamped ih version actor updatedMs ih.sites

/-- What the environment set is not above its range. -/
def SeedsInRange (c : RuntimeCfg) : Prop := ∀ k ∈ knobs, k.name ∈ seeded → k.get c ≤ k.hi

theorem Bounded.inRange_iff (h : Bounded c) : InRange c ↔ SeedsInRange c := by
  constructor
  · intro hrange k hk _
    exact (hrange.knobs k hk).2
  · intro hseeded
    refine ⟨?_, h.purge⟩
    intro k hk
    rcases h.knobs k hk with ⟨hlo, hhi⟩
    by_cases hname : k.name ∈ seeded
    · exact ⟨hlo, hseeded k hk hname⟩
    · exact ⟨hlo, hhi hname⟩

theorem Bounded.sla (h : Bounded c) : 1 ≤ c.hardSlaRetries ∧ 2 ≤ c.hardSlaBaseDelayMs := by
  have hretries := (h.knobs ⟨"hard_sla_retries", fun c => c.hardSlaRetries, 1, 12⟩
    (by simp [PanelConfig.knobs])).1
  have hbase := (h.knobs ⟨"hard_sla_base_delay_ms", fun c => c.hardSlaBaseDelayMs, 1000, 120_000⟩
    (by simp [PanelConfig.knobs])).1
  dsimp only at hretries hbase
  omega

end Reach

/-! ## The law -/

/-- A patch leaves the members that it does not name, up to their ranges. -/
structure PatchLocal (base : RuntimeCfg) (patch : Json) : Prop where
  knobs : ∀ k ∈ knobs, patch.get? k.name = none →
    k.get (parseGlobalPatch base patch) = k.get (clampGlobal base)
  purge : patch.get? "cold_purge_interval_ms" = none →
    (parseGlobalPatch base patch).coldPurgeIntervalMs = (clampGlobal base).coldPurgeIntervalMs
  complete : patch.get? "complete_on_commercial_silicon" = none →
    (parseGlobalPatch base patch).completeOnCommercialSilicon = base.completeOnCommercialSilicon
  robots : patch.get? "robot_fastlane_enabled" = none →
    (parseGlobalPatch base patch).robotFastlaneEnabled = base.robotFastlaneEnabled
  version : (parseGlobalPatch base patch).version = base.version
  updatedMs : (parseGlobalPatch base patch).updatedMs = base.updatedMs
  actor : (parseGlobalPatch base patch).actor = base.actor
  sites : (parseGlobalPatch base patch).sites = base.sites

theorem patchLocal (base : RuntimeCfg) (patch : Json) : PatchLocal base patch where
  knobs := by
    intro k hk hnone
    rw [patch_knobs k hk, clamp_knobs k hk]
    unfold patchI64
    rw [hnone]
    rfl
  purge := by
    intro hnone
    rw [purge_patch]
    unfold patchU64
    rw [hnone]
    rfl
  complete := by
    intro hnone
    rw [complete_patch]
    unfold patchBool
    rw [hnone]
    rfl
  robots := by
    intro hnone
    rw [robots_patch]
    unfold patchBool
    rw [hnone]
    rfl
  version := rfl
  updatedMs := rfl
  actor := rfl
  sites := rfl

structure PublishedLaw (c : RuntimeCfg) : Prop where
  /-- Stored and loaded, whatever the environment is by then. -/
  stored : ∀ env, cfgFromStored env (globalToJson c) (sitesToJson c) c.version c.actor
    c.updatedMs = c
  patches : ∀ patch, PatchLocal c patch
  clamped : clampGlobal (clampGlobal c) = clampGlobal c
  effective : ∀ siteId, clampGlobal (effectiveForSite c siteId) = effectiveForSite c siteId
  delays : DelaysCapped c

section Law

variable {env : String → Option String} {c : RuntimeCfg}

theorem inRange_effective (h : InRange c) (siteId : String) :
    InRange (effectiveForSite c siteId) := by
  unfold effectiveForSite
  split_ifs
  · exact h
  · cases c.sites.get? siteId with
    | none => exact h
    | some o => exact inRange_clampGlobal _

theorem published_law_iff (h : Reachable env c) :
    PublishedLaw c ↔ c.hardSlaBaseDelayMs ≤ 60_000 ∧ SeedsInRange c := by
  have hbounded := h.bounded
  rcases hbounded.sla with ⟨hretries, hbase⟩
  rw [← hbounded.inRange_iff, ← delaysCapped_iff hretries hbase]
  constructor
  · intro hlaw
    refine ⟨hlaw.delays, ?_⟩
    have heffective := hlaw.effective ""
    exact clampGlobal_eq_iff.mp heffective
  · rintro ⟨hdelays, hrange⟩
    exact
      { stored := fun env => cfgFromStored_stored hrange hbounded.sites env
        patches := patchLocal c
        clamped := clampGlobal_clampGlobal c
        effective := fun siteId => clampGlobal_of_inRange (inRange_effective hrange siteId)
        delays := hdelays }

def crowdedEnv : String → Option String := fun key =>
  if key = "HOT_MAX_VTS" then some "5000000" else none

def patchedCfg : RuntimeCfg :=
  parseGlobalPatch (RuntimeCfg.default crowdedEnv)
    (.obj [("hard_max_attempts", ofInt 99), ("hard_sla_base_delay_ms", ofInt 20_000)])

def shopOverride : SiteOverride := ⟨some 1000, none, none, none, none, none, some 3, some true⟩

def shopCfg : RuntimeCfg :=
  patchedCfg.stamped 4 "ops" 1_700_000_000_000 (patchedCfg.sites.insert "shop" shopOverride)

theorem shopCfg_reachable : Reachable crowdedEnv shopCfg := by
  have hpatched : Reachable crowdedEnv patchedCfg := Reachable.default.patch _
  have hfits : shopOverride.Fits := by
    unfold SiteOverride.Fits I64 shopOverride
    simp
  exact (hpatched.site "shop" shopOverride hfits).stamp 4 "ops" 1_700_000_000_000

theorem shopCfg_seeds : SeedsInRange shopCfg := by
  have hrange : InRange patchedCfg := inRange_clampGlobal _
  intro k hk _
  unfold shopCfg
  rw [stamped_knobs k hk]
  exact (hrange.knobs k hk).2

/-- The law holds of it: what was too high is at the end of its range, and so is what
the site asks for. -/
theorem shopCfg_published : PublishedLaw shopCfg ∧
    (RuntimeCfg.default crowdedEnv).hotMaxVts = 5_000_000 ∧ shopCfg.hotMaxVts = 4_000_000 ∧
    shopCfg.hardMaxAttempts = 32 ∧
    hardSlaDelays shopCfg = [20_000, 36_000, 60_000, 60_000, 60_000] ∧
    (effectiveForSite shopCfg "shop").cycleCoolMs = 60_000 ∧
    (effectiveForSite shopCfg "shop").softMaxAttempts = 3 := by
  have hbase : shopCfg.hardSlaBaseDelayMs ≤ 60_000 := by decide
  have hlaw : PublishedLaw shopCfg :=
    (published_law_iff shopCfg_reachable).mpr ⟨hbase, shopCfg_seeds⟩
  refine ⟨hlaw, ?_⟩
  decide

def longDelays : RuntimeCfg :=
  parseGlobalPatch (RuntimeCfg.default fun _ => none)
    (.obj [("hard_sla_base_delay_ms", ofInt 90_000)])

theorem first_delay_over_cap :
    Reachable (fun _ => none) longDelays ∧ hardSlaDelays longDelays = [90_000, 60_000, 60_000,
      60_000, 60_000] ∧ ¬ PublishedLaw longDelays := by
  have hreach : Reachable (fun _ => none) longDelays := Reachable.default.patch _
  rcases hreach.bounded.sla with ⟨hretries, hbase⟩
  have hdelays : longDelays.hardSlaBaseDelayMs = 90_000 := by decide
  refine ⟨hreach, by decide, ?_⟩
  intro hlaw
  have hle := (delaysCapped_iff hretries hbase).mp hlaw.delays
  rw [hdelays] at hle
  exact absurd hle (by decide)

end Law

end PanelConfig

end GrServer
