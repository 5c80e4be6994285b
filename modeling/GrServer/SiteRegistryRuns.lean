import GrServer.SiteGate
import GrServer.UnderWay

/-!
# What every run of the registry keeps

As long as no site is deleted under a request that has found it, every site that
is stored has its owner's consent and a token, and every site that is published
has a token, so that a gate that is enforced serves nobody without one.  A
site that has a gate keeps it whatever runs beside it.  The published token
follows the stored one where the requests for a site, and their copies, come
one after the other.
-/

namespace GrServer

open Text HostLookup UnderWay

namespace SiteRegistry

theorem trimmed_ne_empty {s : String} {c : Char} (hc : c ∈ s.toList)
    (hblank : isWhitespace c = false) : trimmed s ≠ "" := by
  intro hempty
  have htrim : trim s.toList = [] := by
    rw [← String.toList_ofList (l := trim s.toList)]
    exact congrArg String.toList hempty
  have hall := trim_eq_nil_iff.mp htrim c hc
  rw [hblank] at hall
  cases hall

theorem trimmed_mintEmbedToken (random : List UInt8) : trimmed (mintEmbedToken random) ≠ "" := by
  have hmem : 'g' ∈ (mintEmbedToken random).toList := by
    unfold mintEmbedToken
    rw [String.toList_append]
    exact List.mem_append_left _ (by decide)
  exact trimmed_ne_empty hmem (by decide)

theorem ne_empty_of_trimmed {s : String} (h : trimmed s ≠ "") : s ≠ "" := by
  intro hempty
  rw [hempty, trimmed_empty] at h
  exact h rfl

theorem keptToken_of_ne {old new : String} (h : trimmed new ≠ "") : keptToken old new = new :=
  if_neg (ne_empty_of_trimmed h)

/-! ## What is stored -/

structure Wire (allowed : Bool) (token uploadIngest : String) : Prop where
  token : trimmed token ≠ ""
  upload : rejectProxiedUpload allowed uploadIngest = none

abbrev SiteRecord.Wired (allowed : Bool) (site : SiteRecord) : Prop :=
  Wire allowed site.embedToken site.uploadIngest

structure TablesKept (allowed : Bool) (t : Tables) : Prop where
  consent : ∀ id row, t.sites.get? id = some row → 0 < row.consentConfirmedAt
  sites : ∀ id row, t.sites.get? id = some row → Wire allowed row.embedToken row.uploadIngest
  published : ∀ id row, t.published.get? id = some row →
    Wire allowed row.embedToken row.uploadIngest

def Request.leansOn (id : String) : Request → Bool
  | .token site => site.siteId == id
  | .write site known => known && site.siteId == id
  | _ => false

def Request.Sound (allowed : Bool) (t : Tables) : Request → Prop
  | .token site =>
      t.sites.contains site.siteId = true ∧ rejectProxiedUpload allowed site.uploadIngest = none
  | .recheck site | .clear site | .root site _ _ | .listRoots site => site.Wired allowed
  | .write site known =>
      site.Wired allowed ∧ (known = true → t.sites.contains site.siteId = true)
  | .list _ rotated => ∀ token, rotated = some token → trimmed token ≠ ""
  | .lookup _ | .dropRoots _ | .dropSite _ | .rotate _ => True

structure Kept (allowed : Bool) (s : Registry) : Prop where
  tables : TablesKept allowed s.tables
  requests : ∀ r ∈ s.requests, r.Sound allowed s.tables
  copies : ∀ c ∈ s.copies, c.record.Wired allowed

section Steps

variable {allowed : Bool} {t t' : Tables} {r : Request} {site : SiteRecord}

theorem Request.Sound.of_contains (h : r.Sound allowed t)
    (hkept : ∀ id, r.leansOn id = true → t.sites.contains id = true →
      t'.sites.contains id = true) : r.Sound allowed t' := by
  cases r with
  | token site => exact ⟨hkept _ (beq_self_eq_true _) h.1, h.2⟩
  | write site known =>
      refine ⟨h.1, fun hknown => hkept site.siteId ?_ (h.2 hknown)⟩
      rw [Request.leansOn, hknown, beq_self_eq_true, Bool.and_true]
  | _ => exact h

theorem contains_insert {α : Type} {m : SortedMap String α} {k j : String} {v : α}
    (h : m.contains j = true) : (m.insert k v).contains j = true := by
  unfold SortedMap.contains at h ⊢
  rw [SortedMap.get?_insert]
  split_ifs
  · rfl
  · exact h

theorem exists_of_contains {α : Type} {m : SortedMap String α} {k : String}
    (h : m.contains k = true) : ∃ v, m.get? k = some v :=
  Option.isSome_iff_exists.mp h

theorem get?_upsertSite {consentAt : ℤ} {id : String} {row : ControlRow}
    (h : (t.upsertSite site consentAt).sites.get? id = some row) :
    t.sites.get? id = some row ∨
      id = site.siteId ∧ row.uploadIngest = site.uploadIngest ∧
        row.embedToken = ((t.sites.get? id).map fun old =>
          keptToken old.embedToken site.embedToken).getD site.embedToken ∧
        row.consentConfirmedAt =
          ((t.sites.get? id).map ControlRow.consentConfirmedAt).getD consentAt := by
  unfold Tables.upsertSite at h
  dsimp only at h
  rw [SortedMap.get?_insert] at h
  split_ifs at h with hid
  · right
    rw [← Option.some.inj h, hid]
    exact ⟨rfl, rfl, rfl, rfl⟩
  · exact Or.inl h

theorem kept_upsertSite {consentAt : ℤ} (h : TablesKept allowed t) (hwired : site.Wired allowed)
    (hconsent : t.sites.contains site.siteId = true ∨ 0 < consentAt) :
    TablesKept allowed (t.upsertSite site consentAt) where
  consent := by
    intro id row hrow
    rcases get?_upsertSite hrow with hold | ⟨rfl, -, -, hat⟩
    · exact h.consent id row hold
    · rw [hat]
      cases hold : t.sites.get? site.siteId with
      | some old => exact h.consent _ old hold
      | none =>
          rcases hconsent with hcontains | hnow
          · obtain ⟨old, hfound⟩ := exists_of_contains hcontains
            rw [hfound] at hold
            cases hold
          · exact hnow
  sites := by
    intro id row hrow
    rcases get?_upsertSite hrow with hold | ⟨rfl, hupload, htoken, -⟩
    · exact h.sites id row hold
    · refine ⟨?_, by rw [hupload]; exact hwired.upload⟩
      rw [htoken]
      cases hold : t.sites.get? site.siteId with
      | some old =>
          rw [Option.map_some, Option.getD_some, keptToken_of_ne hwired.token]
          exact hwired.token
      | none => exact hwired.token
  published := h.published

theorem kept_publish (h : TablesKept allowed t) (hwired : site.Wired allowed) :
    TablesKept allowed (t.publish site) where
  consent := h.consent
  sites := h.sites
  published := by
    intro id row hrow
    unfold Tables.publish at hrow
    dsimp only at hrow
    rw [SortedMap.get?_insert] at hrow
    split_ifs at hrow with hid
    · rw [← Option.some.inj hrow]
      refine ⟨?_, hwired.upload⟩
      dsimp only
      cases hold : t.published.get? site.siteId with
      | some old =>
          rw [Option.map_some, Option.getD_some, keptToken_of_ne hwired.token]
          exact hwired.token
      | none => exact hwired.token
    · exact h.published id row hrow

theorem kept_deleteSite (h : TablesKept allowed t) (id : String) :
    TablesKept allowed (t.deleteSite id) := by
  have hold : ∀ j row, (t.deleteSite id).sites.get? j = some row → t.sites.get? j = some row := by
    intro j row hrow
    unfold Tables.deleteSite at hrow
    dsimp only at hrow
    rw [SortedMap.get?_erase] at hrow
    split_ifs at hrow
    exact hrow
  exact ⟨fun j row hrow => h.consent j row (hold j row hrow),
    fun j row hrow => h.sites j row (hold j row hrow), h.published⟩

theorem kept_rotateToken {id token : String} (h : TablesKept allowed t)
    (htoken : trimmed token ≠ "") (hrotate : t.rotateToken id token = some t') :
    TablesKept allowed t' := by
  unfold Tables.rotateToken at hrotate
  obtain ⟨old, hold, rfl⟩ := Option.map_eq_some_iff.mp hrotate
  constructor
  · intro j row hrow
    dsimp only at hrow
    rw [SortedMap.get?_insert] at hrow
    split_ifs at hrow
    · rw [← Option.some.inj hrow]
      exact h.consent id old hold
    · exact h.consent j row hrow
  · intro j row hrow
    dsimp only at hrow
    rw [SortedMap.get?_insert] at hrow
    split_ifs at hrow
    · rw [← Option.some.inj hrow]
      exact ⟨htoken, (h.sites id old hold).upload⟩
    · exact h.sites j row hrow
  · exact h.published

theorem sites_publishHost (domainId : String → String) (t : Tables) (site : SiteRecord)
    (root : String) (now : ℤ) :
    (t.publishHost domainId site root now).sites = t.sites ∧
      (t.publishHost domainId site root now).published = t.published := by
  unfold Tables.publishHost
  dsimp only
  by_cases hempty : lowered (trimmed root) = ""
  · rw [if_pos hempty]
    exact ⟨rfl, rfl⟩
  · rw [if_neg hempty]
    cases t.domains.get? (lowered (trimmed root)) with
    | some row => exact ⟨rfl, rfl⟩
    | none =>
        dsimp only
        split_ifs
        · exact ⟨rfl, rfl⟩
        · exact ⟨rfl, rfl⟩

theorem TablesKept.of_eq (h : TablesKept allowed t) (hsites : t'.sites = t.sites)
    (hpublished : t'.published = t.published) : TablesKept allowed t' := by
  constructor
  · rw [hsites]
    exact h.consent
  · rw [hsites]
    exact h.sites
  · rw [hpublished]
    exact h.published

/-! ## One statement -/

theorem siteId_prepared (site : SiteRecord) : (prepared site).siteId = site.siteId := by
  unfold prepared
  rfl

theorem admission_sound {isNew : Bool} {random : List UInt8}
    (hold : isNew = false → t.sites.contains site.siteId = true)
    (h : admission allowed site isNew random = some r) : r.Sound allowed t := by
  have hid := siteId_prepared site
  unfold admission at h
  dsimp only at h
  generalize prepared site = p at h hid
  rw [← hid] at hold
  split_ifs at h with hupload hnew hconsent hblank hblank
  · rw [← Option.some.inj h]
    exact ⟨trimmed_mintEmbedToken random, by simpa using hupload⟩
  · rw [← Option.some.inj h]
    exact ⟨hblank, by simpa using hupload⟩
  · rw [← Option.some.inj h]
    exact ⟨hold (by simpa using hnew), by simpa using hupload⟩
  · rw [← Option.some.inj h]
    refine ⟨?_, by simpa using hupload⟩
    assumption

theorem afterRoots_sound (h : site.Wired allowed) (rest : List String) :
    (∀ next, (afterRoots site rest).1 = some next → next.Sound allowed t) ∧
      ∀ c ∈ (afterRoots site rest).2, c.record.Wired allowed := by
  cases rest with
  | nil =>
      refine ⟨forall_none_eq, ?_⟩
      intro c hc
      rw [List.mem_singleton.mp hc]
      exact h
  | cons host rest => exact ⟨forall_some_eq h, List.forall_mem_nil _⟩

theorem Request.step_sound {now : ℤ} (random : List UInt8) (h : TablesKept allowed t)
    (hr : r.Sound allowed t) (hnow : 0 < now) :
    TablesKept allowed (r.step allowed t now random).1 ∧
      (∀ next, (r.step allowed t now random).2.1 = some next →
        next.Sound allowed (r.step allowed t now random).1) ∧
      ∀ c ∈ (r.step allowed t now random).2.2, c.record.Wired allowed := by
  have hnone : ∀ c ∈ ([] : List Copy), c.record.Wired allowed := List.forall_mem_nil _
  cases r with
  | lookup site =>
      rw [Request.step]
      dsimp only
      exact ⟨h, fun next hnext => admission_sound (by simp) hnext, hnone⟩
  | token site =>
      refine ⟨h, ?_, hnone⟩
      intro next hnext
      obtain ⟨row, hrow⟩ := exists_of_contains hr.1
      rw [← Option.some.inj hnext]
      refine ⟨?_, hr.2⟩
      dsimp only
      rw [hrow]
      exact (h.sites _ row hrow).token
  | recheck site =>
      refine ⟨h, ?_, hnone⟩
      intro next hnext
      change (if _ then some _ else none) = some next at hnext
      split_ifs at hnext
      rw [← Option.some.inj hnext]
      exact ⟨hr, id⟩
  | write site known =>
      refine ⟨?_, forall_some_eq hr.1, hnone⟩
      apply kept_upsertSite h hr.1
      cases known with
      | false => exact Or.inr hnow
      | true => exact Or.inl (hr.2 rfl)
  | clear site =>
      exact ⟨h.of_eq rfl rfl, afterRoots_sound hr site.rootDomains⟩
  | root site host rest =>
      exact ⟨h.of_eq rfl rfl, afterRoots_sound hr rest⟩
  | dropRoots id =>
      exact ⟨h.of_eq rfl rfl, forall_some_eq trivial, hnone⟩
  | dropSite id =>
      exact ⟨kept_deleteSite h id, forall_none_eq, hnone⟩
  | rotate id =>
      have htoken := trimmed_mintEmbedToken random
      unfold Request.step
      dsimp only
      split
      · next t' hrotate =>
          exact ⟨kept_rotateToken h htoken hrotate, forall_some_eq (forall_some_eq htoken), hnone⟩
      · exact ⟨h, forall_none_eq, hnone⟩
  | list id rotated =>
      refine ⟨h, ?_, hnone⟩
      intro next hnext
      obtain ⟨row, hrow, rfl⟩ := Option.map_eq_some_iff.mp hnext
      have hwire := h.sites id row hrow
      refine ⟨?_, hwire.upload⟩
      cases rotated with
      | none => exact hwire.token
      | some token => exact hr token rfl
  | listRoots site =>
      refine ⟨h, forall_none_eq, ?_⟩
      intro c hc
      rw [List.mem_singleton.mp hc]
      exact hr

theorem Request.step_contains {now : ℤ} {random : List UInt8} {id : String}
    (hdrop : r ≠ .dropSite id) (h : t.sites.contains id = true) :
    (r.step allowed t now random).1.sites.contains id = true := by
  cases r with
  | write site known => exact contains_insert h
  | dropSite siteId =>
      change (t.sites.erase siteId).contains id = true
      unfold SortedMap.contains at h ⊢
      rw [SortedMap.get?_erase, if_neg]
      · exact h
      · intro hid
        exact hdrop (by rw [hid])
  | rotate siteId =>
      unfold Request.step
      dsimp only
      split
      · next t' hrotate =>
          obtain ⟨row, -, rfl⟩ := Option.map_eq_some_iff.mp hrotate
          exact contains_insert h
      · exact h
  | _ => exact h

theorem Copy.step_kept (domainId : String → String) (now : ℤ) {c : Copy}
    (h : TablesKept allowed t) (hc : c.record.Wired allowed) :
    TablesKept allowed (c.step domainId t now).1 := by
  cases c with
  | site site => exact kept_publish h hc
  | host site name rest =>
      obtain ⟨hsites, hpublished⟩ := sites_publishHost domainId t site name now
      exact h.of_eq hsites hpublished

theorem record_afterHosts {c : Copy} {hosts : List String} (h : c ∈ afterHosts site hosts) :
    c.record = site := by
  cases hosts with
  | nil => exact absurd h List.not_mem_nil
  | cons host rest => rw [List.mem_singleton.mp h]; rfl

theorem Copy.record_step {domainId : String → String} {now : ℤ} {c next : Copy}
    (h : next ∈ (c.step domainId t now).2) : next.record = c.record := by
  cases c with
  | site site => exact record_afterHosts h
  | host site name rest => exact record_afterHosts h

theorem Copy.record_fails {c next : Copy} (h : next ∈ c.fails) : next.record = c.record := by
  cases c with
  | site site => exact absurd h List.not_mem_nil
  | host site name rest => exact record_afterHosts h

end Steps

/-! ## Every run -/

def Request.deleted : Request → Option String
  | .dropSite siteId => some siteId
  | _ => none

def Request.asksToken : Request → Bool
  | .token _ => true
  | _ => false

/-- No site is deleted under a request that has found it, a token that is asked for is
read, and the clock has started. -/
def Orderly (s : Registry) : Event → Prop
  | .statement k now _ =>
      0 < now ∧ ∀ r ∈ s.requests[k]?, ∀ id ∈ r.deleted, ∀ other ∈ s.requests,
        other.leansOn id = false
  | .fails k _ => ∀ r ∈ s.requests[k]?, r.asksToken = false
  | _ => True

instance decidableOrderly (s : Registry) : DecidablePred (Orderly s)
  | .statement k now _ =>
      inferInstanceAs (Decidable (0 < now ∧ ∀ r ∈ s.requests[k]?, ∀ id ∈ r.deleted,
        ∀ other ∈ s.requests, other.leansOn id = false))
  | .fails k _ => inferInstanceAs (Decidable (∀ r ∈ s.requests[k]?, r.asksToken = false))
  | .upsert _ | .importSite _ _ _ | .delete _ | .rotate _ | .backfill _ | .copy _ _
  | .copyFails _ => isTrue trivial

section Runs

variable {allowed : Bool} {domainId : String → String} {s : Registry}

theorem kept_start : Kept allowed {} where
  tables := ⟨fun _ row h => absurd h.symm (Option.some_ne_none row),
    fun _ row h => absurd h.symm (Option.some_ne_none row),
    fun _ row h => absurd h.symm (Option.some_ne_none row)⟩
  requests := fun _ hr => absurd hr List.not_mem_nil
  copies := fun _ hc => absurd hc List.not_mem_nil

theorem Kept.request (h : Kept allowed s) {r : Request} (hr : r.Sound allowed s.tables) :
    Kept allowed { s with requests := r :: s.requests } where
  tables := h.tables
  requests := List.forall_mem_cons.mpr ⟨hr, h.requests⟩
  copies := h.copies

theorem kept_statement (h : Kept allowed s) {k : ℕ} {r : Request} {now : ℤ}
    {random : List UInt8} (hk : s.requests[k]? = some r) (hnow : 0 < now)
    (hdrop : ∀ id ∈ r.deleted, ∀ other ∈ s.requests, other.leansOn id = false) :
    Kept allowed (s.statement allowed k r now random) := by
  obtain ⟨htables, hnext, hcopies⟩ :=
    Request.step_sound random h.tables (h.requests r (List.mem_of_getElem? hk)) hnow
  refine ⟨htables, forall_replaced ?_ ?_, List.forall_mem_append.mpr ⟨hcopies, h.copies⟩⟩
  · exact fun other hnew => hnext other (Option.mem_toList.mp hnew)
  · intro other hmem
    refine (h.requests other hmem).of_contains ?_
    intro id hleans hcontains
    refine Request.step_contains ?_ hcontains
    intro hr
    have hnot := hdrop id (by rw [hr]; rfl) other hmem
    rw [hleans] at hnot
    cases hnot

theorem kept_step (h : Kept allowed s) {e : Event} (horderly : Orderly s e) :
    Kept allowed (s.step allowed domainId e) := by
  cases e with
  | upsert site => exact h.request trivial
  | importSite siteId name random =>
      refine h.request ⟨trimmed_mintEmbedToken random, ?_⟩
      change rejectProxiedUpload allowed "gv" = none
      unfold rejectProxiedUpload
      exact if_pos (by decide)
  | delete siteId => exact h.request trivial
  | rotate siteId => exact h.request trivial
  | backfill siteId =>
      refine h.request ?_
      intro token htoken
      cases htoken
  | statement k now random =>
      change Kept allowed ((s.requests[k]?.map _).getD s)
      cases hk : s.requests[k]? with
      | none => exact h
      | some r =>
          exact kept_statement h hk horderly.1 (horderly.2 r hk)
  | fails k random =>
      change Kept allowed ((s.requests[k]?.map _).getD s)
      cases hk : s.requests[k]? with
      | none => exact h
      | some r =>
          refine ⟨h.tables, forall_replaced ?_ h.requests, h.copies⟩
          intro other hnew
          have hfails := Option.mem_toList.mp hnew
          cases r with
          | lookup site =>
              rw [Request.fails] at hfails
              exact admission_sound (by simp) hfails
          | token site => exact absurd (horderly _ hk) (by simp [Request.asksToken])
          | _ => cases hfails
  | copy k now =>
      change Kept allowed ((s.copies[k]?.map _).getD s)
      cases hk : s.copies[k]? with
      | none => exact h
      | some c =>
          have hc := h.copies c (List.mem_of_getElem? hk)
          refine ⟨Copy.step_kept domainId now h.tables hc, ?_, forall_replaced ?_ h.copies⟩
          · intro r hr
            refine (h.requests r hr).of_contains ?_
            intro id _ hcontains
            cases c with
            | site site => exact hcontains
            | host site name rest =>
                change (s.tables.publishHost domainId site name now).sites.contains id = true
                rw [(sites_publishHost domainId s.tables site name now).1]
                exact hcontains
          · intro next hnew
            rw [SiteRecord.Wired, Copy.record_step hnew]
            exact hc
  | copyFails k =>
      change Kept allowed ((s.copies[k]?.map _).getD s)
      cases hk : s.copies[k]? with
      | none => exact h
      | some c =>
          refine ⟨h.tables, h.requests, forall_replaced ?_ h.copies⟩
          intro next hnew
          rw [SiteRecord.Wired, Copy.record_fails hnew]
          exact h.copies c (List.mem_of_getElem? hk)

/-- However the requests and the copies run into each other, every site that is stored was
confirmed by its owner and has a token, and so has every site that is published, and no
upload goes through a site unless that is allowed. -/
theorem sites_kept {es : List Event}
    (horderly : Along (Registry.step allowed domainId) Orderly {} es) :
    TablesKept allowed (runFrom (Registry.step allowed domainId) {} es).tables :=
  (horderly.invariant (I := Kept allowed) (fun _ _ h he => kept_step h he) kept_start).tables

def exampleSite : SiteRecord where
  siteId := "shop"
  name := "Shop"
  rootDomains := ["Shop.example."]
  consentConfirmed := true

def exampleRandom : List UInt8 := (List.range 32).map Nat.toUInt8

def createRun : List Event :=
  .upsert exampleSite :: List.replicate 5 (.statement 0 5 exampleRandom) ++
    List.replicate 2 (.copy 0 6)

/-- An update without a token runs beside a rotation and the creation of another site,
which is deleted in the end. -/
def sharedRun : List Event :=
  createRun ++
    [.upsert { exampleSite with consentConfirmed := false }, .statement 0 7 [],
      .upsert { exampleSite with siteId := "blog", rootDomains := [] }, .statement 1 7 [],
      .rotate "shop", .statement 0 8 (List.replicate 32 7), .statement 2 8 exampleRandom,
      .statement 2 8 [], .statement 2 8 [], .statement 2 8 [], .statement 0 8 [],
      .statement 0 8 [], .copy 0 9, .statement 0 9 [], .statement 0 9 [], .statement 0 9 [],
      .statement 0 9 [], .copy 1 9, .copy 0 10, .delete "blog", .statement 0 10 [],
      .statement 0 10 []]

theorem sites_kept_shared :
    TablesKept false (runFrom (Registry.step false id) {} sharedRun).tables ∧
      ((runFrom (Registry.step false id) {} sharedRun).tables.sites.get? "shop").map
        ControlRow.consentConfirmedAt = some 5 ∧
      (runFrom (Registry.step false id) {} sharedRun).tables.sites.contains "blog" = false := by
  refine ⟨sites_kept (by decide), ?_⟩
  decide

-- a deletion between the lookup and the insert of an update leaves a site without consent
example :
    ((runFrom (Registry.step false id) {} (createRun ++ [.upsert { exampleSite with
        consentConfirmed := false }] ++ List.replicate 3 (.statement 0 7 exampleRandom) ++
        [.delete "shop"] ++ List.replicate 2 (.statement 0 8 exampleRandom) ++
        [.statement 0 9 exampleRandom])).tables.sites.get? "shop").map
          ControlRow.consentConfirmedAt = some (-1) := by
  decide

/-! ## The gate -/

theorem filled_eq_some {t : Option String} {tok : String} :
    filled t = some tok ↔ t.map trimmed = some tok ∧ tok ≠ "" := by
  unfold filled
  rw [Option.filter_eq_some_iff]
  simp

theorem filled_self {t : Option String} {tok : String} (h : filled t = some tok) :
    trimmed tok = tok ∧ filled (some tok) = some tok := by
  obtain ⟨hmap, hne⟩ := filled_eq_some.mp h
  obtain ⟨raw, -, htrim⟩ := Option.map_eq_some_iff.mp hmap
  have hself : trimmed tok = tok := by rw [← htrim, trimmed_trimmed]
  exact ⟨hself, filled_eq_some.mpr ⟨congrArg some hself, hne⟩⟩

theorem decidePin_unknown {tok : String} (h : filled (some tok) = some tok) (legacy : Bool) :
    decidePin (some tok) none legacy true = .deny "embed_token_invalid" := by
  unfold decidePin
  rw [h]
  rfl

theorem legacyEmpty_eq_false {t : Tables} (hkept : TablesKept allowed t)
    (lower : String → String) (reads : Reads) (host : String) :
    legacyEmpty lower t reads host = false := by
  unfold legacyEmpty
  dsimp only
  generalize (Option.map (fun f : Found => f.row.siteId) _).getD "" = id
  by_cases hread : reads.site = true
  · rw [if_pos hread]
    cases hrow : t.published.get? id with
    | none => simp
    | some row => simp [(hkept.published id row hrow).token]
  · rw [if_neg hread]
    simp

theorem served_token {env : String → Option String} {lower : String → String} {reads : Reads}
    {t : Tables} {rows : List (String × PublicRow)} {grt : Option String}
    {headers : List (String × String)} (hkept : TablesKept allowed t)
    (henforce : embedTokenEnforce env = true) (hrows : rows.Perm t.published.entries)
    (h : checkPin env lower reads t rows grt headers = none) :
    ∃ id row, t.published.get? id = some row ∧ filled grt = some row.embedToken := by
  unfold checkPin at h
  dsimp only at h
  rw [henforce, legacyEmpty_eq_false hkept, Bool.and_false] at h
  cases hgrt : filled grt with
  | none =>
      have hdeny : decidePin none none false true = .deny "embed_token_required" := rfl
      rw [hgrt, Option.bind_none, hdeny] at h
      cases h
  | some tok =>
      obtain ⟨htok, hself⟩ := filled_self hgrt
      rw [hgrt, Option.bind_some] at h
      cases hfound : (if reads.byToken = true then findSiteByEmbedToken rows tok else none) with
      | none =>
          rw [hfound, decidePin_unknown hself] at h
          cases h
      | some id =>
          split_ifs at hfound
          unfold findSiteByEmbedToken at hfound
          rw [htok, if_neg (filled_eq_some.mp hgrt).2] at hfound
          obtain ⟨entry, hentry, rfl⟩ := Option.map_eq_some_iff.mp hfound
          have hmem := hrows.mem_iff.mp (List.mem_of_find?_eq_some hentry)
          have hsame := List.find?_some hentry
          refine ⟨entry.1, entry.2, SortedMap.get?_eq_some_iff.mpr hmem, ?_⟩
          rw [eq_of_beq hsame]

theorem opened_token {env : String → Option String} {reads : Reads} {t : Tables} {id : String}
    {row : PublicRow} {bodyToken queryToken : Option String} (hid : id ≠ "")
    (hread : reads.site = true) (hrow : t.published.get? id = some row)
    (htoken : trimmed row.embedToken ≠ "")
    (h : checkOpenToken env reads t id bodyToken queryToken = none) :
    (filled bodyToken).or (filled queryToken) = some (trimmed row.embedToken) ∨
      (filled bodyToken).or (filled queryToken) = none ∧ embedTokenEnforce env = false := by
  unfold checkOpenToken at h
  rw [if_neg hid, if_pos hread, hrow] at h
  dsimp only at h
  rw [if_neg htoken] at h
  cases hpresented : (filled bodyToken).or (filled queryToken) with
  | none =>
      rw [hpresented] at h
      dsimp only at h
      split_ifs at h with henforce
      exact Or.inr ⟨rfl, by simpa using henforce⟩
  | some tok =>
      rw [hpresented] at h
      dsimp only at h
      split_ifs at h with hsame
      exact Or.inl (by rw [hsame])

/-- In every such run an enforced gate serves a script only to who brings the token of a
published site, and opens a session of a published site only to who brings its token. -/
theorem gate_closed {es : List Event} {env : String → Option String}
    (horderly : Along (Registry.step allowed domainId) Orderly {} es)
    (henforce : embedTokenEnforce env = true) :
    let t := (runFrom (Registry.step allowed domainId) {} es).tables
    (∀ (lower : String → String) (reads : Reads) (rows : List (String × PublicRow))
        (grt : Option String) (headers : List (String × String)),
      rows.Perm t.published.entries → checkPin env lower reads t rows grt headers = none →
        ∃ id row, t.published.get? id = some row ∧ filled grt = some row.embedToken) ∧
    ∀ (reads : Reads) (id : String) (row : PublicRow) (bodyToken queryToken : Option String),
      id ≠ "" → reads.site = true → t.published.get? id = some row →
        checkOpenToken env reads t id bodyToken queryToken = none →
          (filled bodyToken).or (filled queryToken) = some (trimmed row.embedToken) := by
  have hkept := sites_kept horderly
  refine ⟨?_, ?_⟩
  · intro lower reads rows grt headers hrows hserved
    exact served_token hkept henforce hrows hserved
  · intro reads id row bodyToken queryToken hid hread hrow hopened
    rcases opened_token hid hread hrow (hkept.published id row hrow).token hopened with h | h
    · exact h
    · rw [henforce] at h
      cases h.2

def enforcing (name : String) : Option String :=
  if name = "EMBED_TOKEN_ENFORCE" then some "1" else none

theorem gate_closed_create :
    checkOpenToken enforcing {} (runFrom (Registry.step false id) {} createRun).tables "shop" none
      (some "grst_guess") ≠ none := by
  have hgate := gate_closed
    (by decide : Along (Registry.step false id) Orderly {} createRun)
    (by decide : embedTokenEnforce enforcing = true)
  intro hopened
  cases hrow : (runFrom (Registry.step false id) {} createRun).tables.published.get? "shop" with
  | none => exact absurd hrow (by decide)
  | some row =>
      have hsame := hgate.2 {} "shop" row none (some "grst_guess") (by decide) rfl hrow hopened
      have hguess : ((runFrom (Registry.step false id) {} createRun).tables.published.get?
          "shop").all (fun row => trimmed row.embedToken ≠ "grst_guess") = true := by
        decide
      rw [hrow] at hguess
      have htoken : trimmed row.embedToken = "grst_guess" :=
        (Option.some.inj hsame).symm.trans (by decide)
      simp [htoken] at hguess

end Runs

/-! ## A gate that stays -/

def Tidy (token : String) : Prop := trimmed token = "" → token = ""

theorem tidy_of_ne {token : String} (h : trimmed token ≠ "") : Tidy token :=
  fun hblank => absurd hblank h

theorem Tidy.kept {old new : String} (hold : Tidy old) (hnew : Tidy new) :
    Tidy (keptToken old new) := by
  unfold keptToken
  split_ifs
  · exact hold
  · exact hnew

def Request.Tidy : Request → Prop
  | .lookup site | .token site | .recheck site | .write site _ | .clear site | .root site _ _
  | .listRoots site => SiteRegistry.Tidy site.embedToken
  | .list _ rotated => ∀ token, rotated = some token → SiteRegistry.Tidy token
  | .dropRoots _ | .dropSite _ | .rotate _ => True

structure Tidied (s : Registry) : Prop where
  sites : ∀ id row, s.tables.sites.get? id = some row → Tidy row.embedToken
  requests : ∀ r ∈ s.requests, r.Tidy
  copies : ∀ c ∈ s.copies, Tidy c.record.embedToken

/-- No record comes with a token of blanks. -/
def TidyEvent : Event → Prop
  | .upsert site => Tidy site.embedToken
  | _ => True

/-- A published site that nobody opens without its token. -/
def Gated (t : Tables) (id : String) : Prop :=
  ∃ row, t.published.get? id = some row ∧ trimmed row.embedToken ≠ ""

section Gated

variable {allowed : Bool} {domainId : String → String} {s : Registry} {t : Tables}
  {site : SiteRecord} {r : Request} {id : String}

theorem admission_tidy {isNew : Bool} {random : List UInt8} (hsite : Tidy site.embedToken)
    (h : admission allowed site isNew random = some r) : r.Tidy := by
  have htoken : (prepared site).embedToken = site.embedToken := by
    unfold prepared
    rfl
  unfold admission at h
  dsimp only at h
  generalize prepared site = p at h htoken
  rw [← htoken] at hsite
  split_ifs at h with hupload hnew hconsent hblank
  · rw [← Option.some.inj h]
    exact tidy_of_ne (trimmed_mintEmbedToken random)
  all_goals
    rw [← Option.some.inj h]
    exact hsite

theorem afterRoots_tidy (h : Tidy site.embedToken) (rest : List String) :
    (∀ next, (afterRoots site rest).1 = some next → next.Tidy) ∧
      ∀ c ∈ (afterRoots site rest).2, Tidy c.record.embedToken := by
  cases rest with
  | nil =>
      refine ⟨forall_none_eq, ?_⟩
      intro c hc
      rw [List.mem_singleton.mp hc]
      exact h
  | cons host rest => exact ⟨forall_some_eq h, List.forall_mem_nil _⟩

theorem tidy_upsertSite {consentAt : ℤ}
    (hsites : ∀ id row, t.sites.get? id = some row → Tidy row.embedToken)
    (hsite : Tidy site.embedToken) (id : String) (row : ControlRow)
    (hrow : (t.upsertSite site consentAt).sites.get? id = some row) : Tidy row.embedToken := by
  rcases get?_upsertSite hrow with hold | ⟨-, -, htoken, -⟩
  · exact hsites id row hold
  · rw [htoken]
    cases hold : t.sites.get? id with
    | none => exact hsite
    | some old => exact (hsites id old hold).kept hsite

theorem Request.step_tidy (allowed : Bool) (now : ℤ) (random : List UInt8)
    (hsites : ∀ id row, t.sites.get? id = some row → SiteRegistry.Tidy row.embedToken)
    (hr : r.Tidy) :
    (∀ id row, (r.step allowed t now random).1.sites.get? id = some row →
        SiteRegistry.Tidy row.embedToken) ∧
      (∀ next, (r.step allowed t now random).2.1 = some next → next.Tidy) ∧
      ∀ c ∈ (r.step allowed t now random).2.2, SiteRegistry.Tidy c.record.embedToken := by
  have hnone : ∀ c ∈ ([] : List Copy), SiteRegistry.Tidy c.record.embedToken :=
    List.forall_mem_nil _
  cases r with
  | lookup site =>
      rw [Request.step]
      dsimp only
      exact ⟨hsites, fun next hnext => admission_tidy hr hnext, hnone⟩
  | token site =>
      refine ⟨hsites, ?_, hnone⟩
      intro next hnext
      rw [← Option.some.inj hnext]
      change SiteRegistry.Tidy (((t.sites.get? site.siteId).map _).getD site.embedToken)
      cases hrow : t.sites.get? site.siteId with
      | none => exact hr
      | some row => exact hsites _ row hrow
  | recheck site =>
      refine ⟨hsites, ?_, hnone⟩
      intro next hnext
      change (if _ then some _ else none) = some next at hnext
      split_ifs at hnext
      rw [← Option.some.inj hnext]
      exact hr
  | write site known =>
      exact ⟨tidy_upsertSite hsites hr, forall_some_eq hr, hnone⟩
  | clear site => exact ⟨hsites, afterRoots_tidy hr site.rootDomains⟩
  | root site host rest => exact ⟨hsites, afterRoots_tidy hr rest⟩
  | dropRoots siteId =>
      exact ⟨hsites, forall_some_eq trivial, hnone⟩
  | dropSite siteId =>
      refine ⟨?_, forall_none_eq, hnone⟩
      intro id row hrow
      change (t.sites.erase siteId).get? id = some row at hrow
      rw [SortedMap.get?_erase] at hrow
      split_ifs at hrow
      exact hsites id row hrow
  | rotate siteId =>
      have htoken := tidy_of_ne (trimmed_mintEmbedToken random)
      unfold Request.step
      dsimp only
      split
      · next t' hrotate =>
          obtain ⟨old, hold, rfl⟩ := Option.map_eq_some_iff.mp hrotate
          refine ⟨?_, forall_some_eq (forall_some_eq htoken), hnone⟩
          intro id row hrow
          dsimp only at hrow
          rw [SortedMap.get?_insert] at hrow
          split_ifs at hrow
          · rw [← Option.some.inj hrow]
            exact htoken
          · exact hsites id row hrow
      · exact ⟨hsites, forall_none_eq, hnone⟩
  | list siteId rotated =>
      refine ⟨hsites, ?_, hnone⟩
      intro next hnext
      obtain ⟨row, hrow, rfl⟩ := Option.map_eq_some_iff.mp hnext
      cases rotated with
      | none => exact hsites siteId row hrow
      | some token => exact hr token rfl
  | listRoots site =>
      refine ⟨hsites, forall_none_eq, ?_⟩
      intro c hc
      rw [List.mem_singleton.mp hc]
      exact hr

theorem Request.published_step {now : ℤ} {random : List UInt8} :
    (r.step allowed t now random).1.published = t.published := by
  cases r with
  | rotate siteId =>
      unfold Request.step
      dsimp only
      split
      · next t' hrotate =>
          obtain ⟨row, -, rfl⟩ := Option.map_eq_some_iff.mp hrotate
          rfl
      · rfl
  | _ => rfl

theorem Gated.publish (h : Gated t id) (hsite : Tidy site.embedToken) :
    Gated (t.publish site) id := by
  obtain ⟨row, hrow, htoken⟩ := h
  unfold Gated Tables.publish
  dsimp only
  rw [SortedMap.get?_insert]
  by_cases hid : id = site.siteId
  · rw [if_pos hid]
    refine ⟨_, rfl, ?_⟩
    dsimp only
    rw [← hid, hrow, Option.map_some, Option.getD_some]
    unfold keptToken
    split_ifs with hempty
    · exact htoken
    · exact fun hblank => hempty (hsite hblank)
  · rw [if_neg hid]
    exact ⟨row, hrow, htoken⟩

theorem Gated.copy {c : Copy} {now : ℤ} (h : Gated t id) (hc : Tidy c.record.embedToken) :
    Gated (c.step domainId t now).1 id := by
  cases c with
  | site site => exact h.publish hc
  | host site name rest =>
      obtain ⟨row, hrow, htoken⟩ := h
      refine ⟨row, ?_, htoken⟩
      change (t.publishHost domainId site name now).published.get? id = some row
      rw [(sites_publishHost domainId t site name now).2]
      exact hrow

theorem Tidied.request (h : Tidied s) (hr : r.Tidy) :
    Tidied { s with requests := r :: s.requests } where
  sites := h.sites
  requests := List.forall_mem_cons.mpr ⟨hr, h.requests⟩
  copies := h.copies

theorem tidied_step (h : Tidied s) {e : Event} (he : TidyEvent e) :
    Tidied (s.step allowed domainId e) := by
  cases e with
  | upsert site => exact h.request he
  | importSite siteId name random =>
      exact h.request (tidy_of_ne (trimmed_mintEmbedToken random))
  | delete siteId => exact h.request trivial
  | rotate siteId => exact h.request trivial
  | backfill siteId =>
      refine h.request ?_
      intro token htoken
      cases htoken
  | statement k now random =>
      change Tidied ((s.requests[k]?.map _).getD s)
      cases hk : s.requests[k]? with
      | none => exact h
      | some r =>
          obtain ⟨hsites, hnext, hcopies⟩ :=
            Request.step_tidy allowed now random h.sites (h.requests r (List.mem_of_getElem? hk))
          exact ⟨hsites,
            forall_replaced (fun other hnew => hnext other (Option.mem_toList.mp hnew)) h.requests,
            List.forall_mem_append.mpr ⟨hcopies, h.copies⟩⟩
  | fails k random =>
      change Tidied ((s.requests[k]?.map _).getD s)
      cases hk : s.requests[k]? with
      | none => exact h
      | some r =>
          have hr := h.requests r (List.mem_of_getElem? hk)
          refine ⟨h.sites, forall_replaced ?_ h.requests, h.copies⟩
          intro other hnew
          have hfails := Option.mem_toList.mp hnew
          cases r with
          | lookup site =>
              rw [Request.fails] at hfails
              exact admission_tidy hr hfails
          | token site =>
              rw [← Option.some.inj hfails]
              exact hr
          | _ => cases hfails
  | copy k now =>
      change Tidied ((s.copies[k]?.map _).getD s)
      cases hk : s.copies[k]? with
      | none => exact h
      | some c =>
          refine ⟨?_, h.requests, forall_replaced ?_ h.copies⟩
          · cases c with
            | site site => exact h.sites
            | host site name rest =>
                change ∀ id row, (s.tables.publishHost domainId site name now).sites.get? id =
                  some row → Tidy row.embedToken
                rw [(sites_publishHost domainId s.tables site name now).1]
                exact h.sites
          · intro next hnew
            rw [Copy.record_step hnew]
            exact h.copies c (List.mem_of_getElem? hk)
  | copyFails k =>
      change Tidied ((s.copies[k]?.map _).getD s)
      cases hk : s.copies[k]? with
      | none => exact h
      | some c =>
          refine ⟨h.sites, h.requests, forall_replaced ?_ h.copies⟩
          intro next hnew
          rw [Copy.record_fails hnew]
          exact h.copies c (List.mem_of_getElem? hk)

theorem gated_step (h : Tidied s) (hgated : Gated s.tables id) (e : Event) :
    Gated (s.step allowed domainId e).tables id := by
  cases e with
  | statement k now random =>
      change Gated ((s.requests[k]?.map _).getD s).tables id
      cases hk : s.requests[k]? with
      | none => exact hgated
      | some r =>
          obtain ⟨row, hrow, htoken⟩ := hgated
          refine ⟨row, ?_, htoken⟩
          change (r.step allowed s.tables now random).1.published.get? id = some row
          rw [Request.published_step]
          exact hrow
  | fails k random =>
      change Gated ((s.requests[k]?.map _).getD s).tables id
      cases s.requests[k]? with
      | none => exact hgated
      | some r => exact hgated
  | copy k now =>
      change Gated ((s.copies[k]?.map _).getD s).tables id
      cases hk : s.copies[k]? with
      | none => exact hgated
      | some c => exact hgated.copy (h.copies c (List.mem_of_getElem? hk))
  | copyFails k =>
      change Gated ((s.copies[k]?.map _).getD s).tables id
      cases s.copies[k]? with
      | none => exact hgated
      | some c => exact hgated
  | _ => exact hgated

/-- A site that has a gate keeps it, from any state of any registry and whatever requests and
copies run beside it: updates without a token, rotations, deletions, statements that fail. -/
theorem gate_stays {es : List Event} (htidied : Tidied s) (hgated : Gated s.tables id)
    (htidy : ∀ e ∈ es, TidyEvent e) :
    Gated (runFrom (Registry.step allowed domainId) s es).tables id := by
  have hrun : Along (Registry.step allowed domainId) (fun _ e => TidyEvent e) s es :=
    along_of_forall fun _ => htidy
  exact (hrun.invariant (I := fun s => Tidied s ∧ Gated s.tables id)
    (fun _ e h he => ⟨tidied_step h.1 he, gated_step h.1 h.2 e⟩) ⟨htidied, hgated⟩).2

theorem tidied_start : Tidied {} where
  sites := fun _ row h => absurd h.symm (Option.some_ne_none row)
  requests := fun _ hr => absurd hr List.not_mem_nil
  copies := fun _ hc => absurd hc List.not_mem_nil

end Gated

instance decidableTidy (token : String) : Decidable (Tidy token) :=
  inferInstanceAs (Decidable (trimmed token = "" → token = ""))

instance decidableTidyEvent : DecidablePred TidyEvent
  | .upsert site => inferInstanceAs (Decidable (Tidy site.embedToken))
  | .importSite _ _ _ | .delete _ | .rotate _ | .backfill _ | .statement _ _ _ | .fails _ _
  | .copy _ _ | .copyFails _ => isTrue trivial

def updateRun : List Event :=
  [.upsert exampleSite, .statement 0 7 [], .fails 0 [], .statement 0 7 [], .delete "shop",
    .statement 0 7 [], .statement 0 7 [], .statement 0 8 [], .statement 0 8 [], .statement 0 8 [],
    .copy 0 9]

theorem gate_stays_update :
    Gated (runFrom (Registry.step false id)
      (runFrom (Registry.step false id) {} createRun) updateRun).tables "shop" := by
  have htidy : Along (Registry.step false id) (fun _ e => TidyEvent e) {} createRun :=
    along_of_forall fun _ => by decide
  have htidied : Tidied (runFrom (Registry.step false id) {} createRun) :=
    htidy.invariant (I := Tidied) (fun _ _ h he => tidied_step h he) tidied_start
  have hrow : ((runFrom (Registry.step false id) {} createRun).tables.published.get?
      "shop").any (fun row => trimmed row.embedToken ≠ "") = true := by
    decide
  cases hfound : (runFrom (Registry.step false id) {} createRun).tables.published.get? "shop" with
  | none =>
      rw [hfound] at hrow
      cases hrow
  | some row =>
      rw [hfound] at hrow
      exact gate_stays htidied ⟨row, hfound, by simpa using hrow⟩ (by decide)

end SiteRegistry

end GrServer
