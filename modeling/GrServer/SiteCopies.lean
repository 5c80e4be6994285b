import GrServer.SiteRegistryRuns

/-!
# Published sites follow the stored ones

A site is published by a thread that carries a copy of its record.  Where the
requests for one site start only once nothing is under way for it, and what was
written is copied, the published row is the stored row again each time that
nothing is under way.  Two requests at once can leave an old token published.
-/

namespace GrServer

open Text UnderWay

namespace SiteRegistry

/-! ## One site -/

def ControlRow.shown (row : ControlRow) : PublicRow where
  name := row.name
  collectEnabled := row.collectEnabled
  edgeMode := row.edgeMode
  feLoad := row.feLoad
  uploadIngest := row.uploadIngest
  embedToken := row.embedToken

/-- A site that is stored is published as it is stored. -/
def Agrees (t : Tables) (id : String) : Prop :=
  ∀ row, t.sites.get? id = some row → t.published.get? id = some row.shown

def Due (t : Tables) (site : SiteRecord) : Prop := Agrees (t.publish site) site.siteId

structure SameRows (t t' : Tables) (id : String) : Prop where
  sites : t'.sites.get? id = t.sites.get? id
  published : t'.published.get? id = t.published.get? id

/-- What a request promises of its own site. -/
def Request.Promise (t : Tables) : Request → Prop
  | .lookup site => Agrees t site.siteId
  | .token site => Agrees t site.siteId ∧ t.sites.contains site.siteId = true
  | .recheck site | .write site _ =>
      Agrees t site.siteId ∧ (site.embedToken = "" → t.sites.contains site.siteId = true)
  | .clear site | .root site _ _ | .listRoots site => Due t site
  | .list id none => Agrees t id
  | .list id (some new) =>
      new ≠ "" ∧ ∀ row, t.sites.get? id = some row → row.embedToken = new
  | .dropRoots id | .dropSite id | .rotate id => Agrees t id

def Copy.Promise (t : Tables) : Copy → Prop
  | .site s => Due t s
  | .host s _ _ => Agrees t s.siteId

section OneSite

variable {allowed : Bool} {t t' : Tables} {site : SiteRecord} {r : Request} {id : String}

@[simp] theorem keptToken_self (token : String) : keptToken token token = token := by
  unfold keptToken
  split_ifs with h
  · rfl
  · rfl

theorem SameRows.agrees (h : SameRows t t' id) (hagrees : Agrees t id) : Agrees t' id := by
  intro row hrow
  rw [h.sites] at hrow
  rw [h.published]
  exact hagrees row hrow

theorem get?_publish (t : Tables) (site : SiteRecord) (id : String) :
    (t.publish site).published.get? id =
      if id = site.siteId then
        some
          { name := site.name
            collectEnabled := site.collectEnabled
            edgeMode := site.edgeMode
            feLoad := site.feLoad
            uploadIngest := site.uploadIngest
            embedToken := ((t.published.get? site.siteId).map fun row =>
              keptToken row.embedToken site.embedToken).getD site.embedToken }
      else t.published.get? id :=
  SortedMap.get?_insert t.published site.siteId id _

theorem SameRows.due (h : SameRows t t' site.siteId) (hdue : Due t site) : Due t' site := by
  intro row hrow
  change t'.sites.get? site.siteId = some row at hrow
  rw [h.sites] at hrow
  have hshown := hdue row hrow
  rw [get?_publish, if_pos rfl] at hshown ⊢
  rw [h.published]
  exact hshown

theorem contains_of_sameRows (h : SameRows t t' id) (hold : t.sites.contains id = true) :
    t'.sites.contains id = true := by
  unfold SortedMap.contains at hold ⊢
  rw [h.sites]
  exact hold

theorem SameRows.promise (h : SameRows t t' r.siteId) (hr : r.Promise t) : r.Promise t' := by
  cases r with
  | lookup site => exact h.agrees hr
  | token site => exact ⟨h.agrees hr.1, contains_of_sameRows h hr.2⟩
  | recheck site => exact ⟨h.agrees hr.1, fun hempty => contains_of_sameRows h (hr.2 hempty)⟩
  | write site known => exact ⟨h.agrees hr.1, fun hempty => contains_of_sameRows h (hr.2 hempty)⟩
  | clear site => exact h.due hr
  | root site host rest => exact h.due hr
  | listRoots site => exact h.due hr
  | list id rotated =>
      cases rotated with
      | none => exact h.agrees hr
      | some token =>
          refine ⟨hr.1, ?_⟩
          intro row hrow
          have hsites : t'.sites.get? id = t.sites.get? id := h.sites
          rw [hsites] at hrow
          exact hr.2 row hrow
  | dropRoots id => exact h.agrees hr
  | dropSite id => exact h.agrees hr
  | rotate id => exact h.agrees hr

theorem SameRows.copy {c : Copy} (h : SameRows t t' c.record.siteId) (hc : c.Promise t) :
    c.Promise t' := by
  cases c with
  | site s => exact h.due hc
  | host s name rest => exact h.agrees hc

theorem due_upsertSite {consentAt : ℤ} (hagrees : Agrees t site.siteId)
    (hempty : site.embedToken = "" → t.sites.contains site.siteId = true) :
    Due (t.upsertSite site consentAt) site := by
  intro row hrow
  change (t.upsertSite site consentAt).sites.get? site.siteId = some row at hrow
  unfold Tables.upsertSite at hrow
  dsimp only at hrow
  rw [SortedMap.get?_insert, if_pos rfl] at hrow
  rw [get?_publish, if_pos rfl, ← Option.some.inj hrow]
  congr 1
  unfold ControlRow.shown
  dsimp only
  congr 1
  change ((t.published.get? site.siteId).map _).getD _ = _
  cases hold : t.sites.get? site.siteId with
  | some old =>
      rw [hagrees old hold]
      rfl
  | none =>
      have hne : site.embedToken ≠ "" := by
        intro htoken
        have hcontains := hempty htoken
        unfold SortedMap.contains at hcontains
        rw [hold] at hcontains
        cases hcontains
      cases t.published.get? site.siteId with
      | none => rfl
      | some p => exact if_neg hne

theorem due_record {row : ControlRow} {rotated : Option String}
    (hr : (Request.list id rotated).Promise t) (hrow : t.sites.get? id = some row) :
    Due t { row.record id with embedToken := rotated.getD row.embedToken } := by
  intro row' hrow'
  change t.sites.get? id = some row' at hrow'
  rw [hrow] at hrow'
  rw [get?_publish, if_pos rfl, ← Option.some.inj hrow']
  congr 1
  unfold ControlRow.shown
  dsimp only [ControlRow.record]
  congr 1
  cases rotated with
  | none =>
      change ((t.published.get? id).map _).getD row.embedToken = row.embedToken
      rw [hr row hrow]
      exact keptToken_self row.embedToken
  | some token =>
      change ((t.published.get? id).map fun p => keptToken p.embedToken token).getD token = _
      rw [hr.2 row hrow]
      cases t.published.get? id with
      | none => rfl
      | some p => exact if_neg hr.1

/-! ## One statement -/

/-- What a step leaves of its request or copy: at most one request or copy, of the same
site and with its promise, or a site that agrees. -/
structure Leaves (t : Tables) (id : String) (next : List Request) (new : List Copy) : Prop where
  requests : ∀ r ∈ next, r.siteId = id ∧ r.Promise t
  copies : ∀ c ∈ new, c.record.siteId = id ∧ c.Promise t
  one : next.length + new.length ≤ 1
  done : next = [] → new = [] → Agrees t id

theorem Leaves.nothing (h : Agrees t id) : Leaves t id [] [] where
  requests := fun _ hr => absurd hr List.not_mem_nil
  copies := fun _ hc => absurd hc List.not_mem_nil
  one := Nat.zero_le 1
  done := fun _ _ => h

theorem Leaves.request (hid : r.siteId = id) (h : r.Promise t) : Leaves t id [r] [] where
  requests := by
    intro r' hr'
    rw [List.mem_singleton.mp hr']
    exact ⟨hid, h⟩
  copies := fun _ hc => absurd hc List.not_mem_nil
  one := le_rfl
  done := fun hnil => absurd hnil (List.cons_ne_nil r [])

theorem Leaves.copy {c : Copy} (hid : c.record.siteId = id) (h : c.Promise t) :
    Leaves t id [] [c] where
  requests := fun _ hr => absurd hr List.not_mem_nil
  copies := by
    intro c' hc'
    rw [List.mem_singleton.mp hc']
    exact ⟨hid, h⟩
  one := le_rfl
  done := fun _ hnil => absurd hnil (List.cons_ne_nil c [])

theorem leaves_admission {isNew : Bool} {random : List UInt8} (h : Agrees t site.siteId)
    (hold : isNew = false → t.sites.contains site.siteId = true) :
    Leaves t site.siteId (admission allowed site isNew random).toList [] := by
  have hid := siteId_prepared site
  unfold admission
  dsimp only
  generalize prepared site = p at hid ⊢
  rw [← hid] at h hold ⊢
  split_ifs with hupload hnew hconsent hblank hblank
  · exact .nothing h
  · exact .request rfl
      ⟨h, fun hempty => absurd hempty (ne_empty_of_trimmed (trimmed_mintEmbedToken random))⟩
  · exact .request rfl ⟨h, fun hempty => absurd hempty (ne_empty_of_trimmed hblank)⟩
  · exact .nothing h
  · exact .request rfl ⟨h, hold (by simpa using hnew)⟩
  · refine .request rfl ⟨h, fun _ => hold (by simpa using hnew)⟩

theorem leaves_afterRoots (h : Due t site) (rest : List String) :
    Leaves t site.siteId (afterRoots site rest).1.toList (afterRoots site rest).2 := by
  cases rest with
  | nil => exact Leaves.copy (c := .site site) rfl h
  | cons host rest => exact Leaves.request (r := .root site host rest) rfl h

theorem leaves_afterHosts (h : Agrees t site.siteId) (hosts : List String) :
    Leaves t site.siteId [] (afterHosts site hosts) := by
  cases hosts with
  | nil => exact .nothing h
  | cons host rest => exact Leaves.copy (c := .host site host rest) rfl h

theorem leaves_step {now : ℤ} (random : List UInt8) (hr : r.Promise t) :
    Leaves (r.step allowed t now random).1 r.siteId
      (r.step allowed t now random).2.1.toList (r.step allowed t now random).2.2 := by
  cases r with
  | lookup site =>
      rw [Request.step]
      dsimp only
      exact leaves_admission hr (by simp)
  | token site => exact .request rfl ⟨hr.1, fun _ => hr.2⟩
  | recheck site =>
      rw [Request.step]
      dsimp only
      split_ifs
      · exact .request rfl hr
      · exact .nothing hr.1
  | write site known => exact .request rfl (due_upsertSite hr.1 hr.2)
  | clear site =>
      have hdue : Due (t.clearRoots site.siteId) site := SameRows.due ⟨rfl, rfl⟩ hr
      exact leaves_afterRoots hdue site.rootDomains
  | root site host rest =>
      have hdue : Due (t.insertRoot site.siteId host) site := SameRows.due ⟨rfl, rfl⟩ hr
      exact leaves_afterRoots hdue rest
  | dropRoots id => exact .request rfl (SameRows.agrees ⟨rfl, rfl⟩ hr)
  | dropSite id =>
      refine .nothing ?_
      intro row hrow
      change (t.sites.erase id).get? id = some row at hrow
      rw [SortedMap.get?_erase, if_pos rfl] at hrow
      cases hrow
  | rotate id =>
      have htoken := ne_empty_of_trimmed (trimmed_mintEmbedToken random)
      rw [Request.step]
      split
      · next t' hrotate =>
          obtain ⟨old, -, rfl⟩ := Option.map_eq_some_iff.mp hrotate
          refine .request rfl ⟨htoken, ?_⟩
          intro row hrow
          dsimp only at hrow
          rw [SortedMap.get?_insert, if_pos rfl] at hrow
          rw [← Option.some.inj hrow]
      · exact .nothing hr
  | list id rotated =>
      rw [Request.step]
      dsimp only
      cases hrow : t.sites.get? id with
      | some row => exact .request rfl (due_record hr hrow)
      | none =>
          refine .nothing ?_
          intro row hstored
          change t.sites.get? id = some row at hstored
          rw [hrow] at hstored
          cases hstored
  | listRoots site => exact Leaves.copy (c := .site { site with rootDomains := _ }) rfl hr

theorem Copy.leaves_step {domainId : String → String} {now : ℤ} {c : Copy} (hc : c.Promise t) :
    Leaves (c.step domainId t now).1 c.record.siteId [] (c.step domainId t now).2 := by
  cases c with
  | site s => exact leaves_afterHosts hc s.rootDomains
  | host s name rest =>
      obtain ⟨hsites, hpublished⟩ := sites_publishHost domainId t s name now
      have hsame : SameRows t (t.publishHost domainId s name now) s.siteId :=
        ⟨congrArg (fun m => m.get? s.siteId) hsites,
          congrArg (fun m => m.get? s.siteId) hpublished⟩
      rw [Copy.step, Copy.record]
      dsimp only
      exact leaves_afterHosts (hsame.agrees hc) rest

theorem sameRows_step {now : ℤ} {random : List UInt8} (hne : id ≠ r.siteId) :
    SameRows t (r.step allowed t now random).1 id := by
  cases r with
  | write site known =>
      exact ⟨SortedMap.get?_insert_of_ne hne _, rfl⟩
  | dropSite siteId =>
      have hne' : id ≠ siteId := hne
      refine ⟨?_, rfl⟩
      change (t.sites.erase siteId).get? id = _
      rw [SortedMap.get?_erase, if_neg hne']
  | rotate siteId =>
      rw [Request.step]
      split
      · next t' hrotate =>
          obtain ⟨old, -, rfl⟩ := Option.map_eq_some_iff.mp hrotate
          exact ⟨SortedMap.get?_insert_of_ne hne _, rfl⟩
      · exact ⟨rfl, rfl⟩
  | _ => exact ⟨rfl, rfl⟩

theorem Copy.sameRows_step {domainId : String → String} {now : ℤ} {c : Copy}
    (hne : id ≠ c.record.siteId) : SameRows t (c.step domainId t now).1 id := by
  cases c with
  | site s => exact ⟨rfl, SortedMap.get?_insert_of_ne hne _⟩
  | host s name rest =>
      obtain ⟨hsites, hpublished⟩ := sites_publishHost domainId t s name now
      exact ⟨congrArg (fun m => m.get? id) hsites, congrArg (fun m => m.get? id) hpublished⟩

end OneSite

/-! ## Every run -/

def Registry.load (s : Registry) (id : String) : ℕ :=
  s.requests.countP (fun r => r.siteId == id) + s.copies.countP fun c => c.record.siteId == id

def Request.written : Request → Bool
  | .clear _ | .root _ _ _ | .listRoots _ | .list _ (some _) => true
  | _ => false

/-- The insert in `sites` is still to come. -/
def Copy.publishes : Copy → Bool
  | .site _ => true
  | .host _ _ _ => false

/-- A request for a site starts once nothing is under way for it, and no failure comes
between what is written and its copy. -/
def OneByOne (s : Registry) : Event → Prop
  | .upsert site => s.load site.siteId = 0
  | .importSite siteId _ _ | .delete siteId | .rotate siteId | .backfill siteId =>
      s.load siteId = 0
  | .fails k _ => ∀ r ∈ s.requests[k]?, r.written = false
  | .copyFails k => ∀ c ∈ s.copies[k]?, c.publishes = false
  | .statement _ _ _ | .copy _ _ => True

instance decidableOneByOne (s : Registry) : DecidablePred (OneByOne s)
  | .upsert site => inferInstanceAs (Decidable (s.load site.siteId = 0))
  | .importSite siteId _ _ | .delete siteId | .rotate siteId | .backfill siteId =>
      inferInstanceAs (Decidable (s.load siteId = 0))
  | .fails k _ => inferInstanceAs (Decidable (∀ r ∈ s.requests[k]?, r.written = false))
  | .copyFails k => inferInstanceAs (Decidable (∀ c ∈ s.copies[k]?, c.publishes = false))
  | .statement _ _ _ | .copy _ _ => isTrue trivial

structure Serial (s : Registry) : Prop where
  one : ∀ id, s.load id ≤ 1
  idle : ∀ id, s.load id = 0 → Agrees s.tables id
  requests : ∀ r ∈ s.requests, r.Promise s.tables
  copies : ∀ c ∈ s.copies, c.Promise s.tables

section Runs

variable {allowed : Bool} {domainId : String → String} {s : Registry} {id : String}

theorem countP_own {α : Type} {xs : List α} (site : α → String) (h : ∀ x ∈ xs, site x = id)
    (j : String) : xs.countP (fun x => site x == j) = if j = id then xs.length else 0 := by
  split_ifs with hj
  · rw [List.countP_eq_length]
    intro x hx
    rw [h x hx, hj]
    exact beq_self_eq_true id
  · rw [List.countP_eq_zero]
    intro x hx hsame
    rw [h x hx] at hsame
    exact hj (eq_of_beq hsame).symm

theorem siteId_of_load {r : Request} (h : s.load id = 0) (hr : r ∈ s.requests) :
    r.siteId ≠ id := by
  intro hid
  have hzero : s.requests.countP (fun r => r.siteId == id) = 0 := Nat.eq_zero_of_add_eq_zero_right h
  rw [List.countP_eq_zero] at hzero
  exact hzero r hr (beq_iff_eq.mpr hid)

theorem record_of_load {c : Copy} (h : s.load id = 0) (hc : c ∈ s.copies) :
    c.record.siteId ≠ id := by
  intro hid
  have hzero : s.copies.countP (fun c => c.record.siteId == id) = 0 :=
    Nat.eq_zero_of_add_eq_zero_left h
  rw [List.countP_eq_zero] at hzero
  exact hzero c hc (beq_iff_eq.mpr hid)

theorem Serial.replace {t : Tables} {rs : List Request} {cs : List Copy} (h : Serial s)
    (next : List Request) (new : List Copy)
    (hload : ∀ j, s.load j = Registry.load ⟨s.tables, rs, cs⟩ j + if j = id then 1 else 0)
    (hrs : ∀ r ∈ rs, r ∈ s.requests) (hcs : ∀ c ∈ cs, c ∈ s.copies)
    (hsame : ∀ j, j ≠ id → SameRows s.tables t j) (hleaves : Leaves t id next new) :
    Serial ⟨t, next ++ rs, new ++ cs⟩ := by
  have hrest : Registry.load ⟨s.tables, rs, cs⟩ id = 0 := by
    have hone := h.one id
    rw [hload id, if_pos rfl] at hone
    omega
  have hsum : ∀ j, Registry.load ⟨t, next ++ rs, new ++ cs⟩ j =
      Registry.load ⟨s.tables, rs, cs⟩ j + if j = id then next.length + new.length else 0 := by
    intro j
    unfold Registry.load
    dsimp only
    rw [List.countP_append, List.countP_append,
      countP_own Request.siteId (fun r hr => (hleaves.requests r hr).1),
      countP_own (fun c : Copy => c.record.siteId) fun c hc => (hleaves.copies c hc).1]
    split_ifs <;> omega
  refine ⟨?_, ?_, ?_, ?_⟩
  · intro j
    have hone := h.one j
    have hlen := hleaves.one
    rw [hload j] at hone
    rw [hsum j]
    split_ifs at hone ⊢ with hj
    · rw [hj, hrest]
      omega
    · exact hone
  · intro j hzero
    rw [hsum j] at hzero
    by_cases hj : j = id
    · rw [hj]
      rw [if_pos hj] at hzero
      exact hleaves.done (List.length_eq_zero_iff.mp (by omega))
        (List.length_eq_zero_iff.mp (by omega))
    · rw [if_neg hj] at hzero
      refine (hsame j hj).agrees (h.idle j ?_)
      rw [hload j, if_neg hj]
      exact hzero
  · intro r hr
    rcases List.mem_append.mp hr with hnew | hold
    · exact (hleaves.requests r hnew).2
    · exact (hsame _ (siteId_of_load hrest hold)).promise (h.requests r (hrs r hold))
  · intro c hc
    rcases List.mem_append.mp hc with hnew | hold
    · exact (hleaves.copies c hnew).2
    · exact (hsame _ (record_of_load hrest hold)).copy (h.copies c (hcs c hold))

theorem Serial.request {r : Request} (h : Serial s) (hidle : s.load r.siteId = 0)
    (hr : Agrees s.tables r.siteId → r.Promise s.tables) :
    Serial { s with requests := r :: s.requests } := by
  have hload : ∀ j, Registry.load { s with requests := r :: s.requests } j =
      s.load j + if j = r.siteId then 1 else 0 := by
    intro j
    unfold Registry.load
    dsimp only
    rw [List.countP_cons]
    simp only [beq_iff_eq, eq_comm (a := j)]
    omega
  refine ⟨?_, ?_, ?_, h.copies⟩
  · intro j
    rw [hload j]
    split_ifs with hj
    · rw [hj, hidle]
    · exact h.one j
  · intro j hzero
    rw [hload j] at hzero
    exact h.idle j (by omega)
  · intro r' hr'
    rcases List.mem_cons.mp hr' with rfl | hmem
    · exact hr (h.idle _ hidle)
    · exact h.requests r' hmem

theorem load_eraseIdx_request {k : ℕ} {r : Request} (hk : s.requests[k]? = some r) (j : String) :
    s.load j = Registry.load ⟨s.tables, s.requests.eraseIdx k, s.copies⟩ j +
      if j = r.siteId then 1 else 0 := by
  unfold Registry.load
  dsimp only
  rw [countP_eraseIdx hk]
  simp only [beq_iff_eq, eq_comm (a := j)]
  omega

theorem load_eraseIdx_copy {k : ℕ} {c : Copy} (hk : s.copies[k]? = some c) (j : String) :
    s.load j = Registry.load ⟨s.tables, s.requests, s.copies.eraseIdx k⟩ j +
      if j = c.record.siteId then 1 else 0 := by
  unfold Registry.load
  dsimp only
  rw [countP_eraseIdx hk]
  simp only [beq_iff_eq, eq_comm (a := j)]
  omega

theorem serial_start : Serial {} where
  one := fun _ => Nat.zero_le 1
  idle := fun _ _ row hrow => absurd hrow.symm (Option.some_ne_none row)
  requests := fun _ hr => absurd hr List.not_mem_nil
  copies := fun _ hc => absurd hc List.not_mem_nil

theorem leaves_fails {t : Tables} {r : Request} (random : List UInt8) (hr : r.Promise t)
    (hwritten : r.written = false) : Leaves t r.siteId (r.fails allowed random).toList [] := by
  cases r with
  | lookup site =>
      rw [Request.fails]
      exact leaves_admission hr fun hnew => absurd hnew (by decide)
  | token site => exact .request rfl ⟨hr.1, fun _ => hr.2⟩
  | recheck site => exact .nothing hr.1
  | write site known => exact .nothing hr.1
  | clear site => exact absurd hwritten (by simp [Request.written])
  | root site host rest => exact absurd hwritten (by simp [Request.written])
  | listRoots site => exact absurd hwritten (by simp [Request.written])
  | list id rotated =>
      cases rotated with
      | none => exact .nothing hr
      | some token => exact absurd hwritten (by simp [Request.written])
  | dropRoots id => exact .nothing hr
  | dropSite id => exact .nothing hr
  | rotate id => exact .nothing hr

theorem serial_step (h : Serial s) {e : Event} (he : OneByOne s e) :
    Serial (s.step allowed domainId e) := by
  cases e with
  | upsert site => exact h.request he id
  | importSite siteId name random =>
      refine h.request he ?_
      intro hagrees
      exact ⟨hagrees, fun hempty =>
        absurd hempty (ne_empty_of_trimmed (trimmed_mintEmbedToken random))⟩
  | delete siteId => exact h.request he id
  | rotate siteId => exact h.request he id
  | backfill siteId => exact h.request he id
  | statement k now random =>
      change Serial ((s.requests[k]?.map _).getD s)
      cases hk : s.requests[k]? with
      | none => exact h
      | some r =>
          exact h.replace _ _ (load_eraseIdx_request hk) (fun _ => List.mem_of_mem_eraseIdx)
            (fun _ hc => hc) (fun _ hne => sameRows_step hne)
            (leaves_step random (h.requests r (List.mem_of_getElem? hk)))
  | fails k random =>
      change Serial ((s.requests[k]?.map _).getD s)
      cases hk : s.requests[k]? with
      | none => exact h
      | some r =>
          exact h.replace _ [] (load_eraseIdx_request hk) (fun _ => List.mem_of_mem_eraseIdx)
            (fun _ hc => hc) (fun _ _ => ⟨rfl, rfl⟩)
            (leaves_fails random (h.requests r (List.mem_of_getElem? hk)) (he r hk))
  | copy k now =>
      change Serial ((s.copies[k]?.map _).getD s)
      cases hk : s.copies[k]? with
      | none => exact h
      | some c =>
          exact h.replace [] _ (load_eraseIdx_copy hk) (fun _ hr => hr)
            (fun _ => List.mem_of_mem_eraseIdx) (fun _ hne => Copy.sameRows_step hne)
            (Copy.leaves_step (h.copies c (List.mem_of_getElem? hk)))
  | copyFails k =>
      change Serial ((s.copies[k]?.map _).getD s)
      cases hk : s.copies[k]? with
      | none => exact h
      | some c =>
          have hc := h.copies c (List.mem_of_getElem? hk)
          refine h.replace [] _ (load_eraseIdx_copy hk) (fun _ hr => hr)
            (fun _ => List.mem_of_mem_eraseIdx) (fun _ _ => ⟨rfl, rfl⟩) ?_
          cases c with
          | site s => exact absurd (he _ hk) (by simp [Copy.publishes])
          | host s name rest => exact leaves_afterHosts hc rest

/-- Where the requests for each site come one by one, a site for which nothing is under way is
published as it is stored, with its token as it was last rotated. -/
theorem published_follows {es : List Event}
    (hserial : Along (Registry.step allowed domainId) OneByOne {} es) (id : String)
    (hidle : (runFrom (Registry.step allowed domainId) {} es).load id = 0) :
    Agrees (runFrom (Registry.step allowed domainId) {} es).tables id :=
  (hserial.invariant (I := Serial) (fun _ _ h he => serial_step h he) serial_start).idle id hidle

end Runs

def rotateRun : List Event :=
  createRun ++ .rotate "shop" :: List.replicate 3 (.statement 0 7 (List.replicate 32 1)) ++
    List.replicate 2 (.copy 0 8)

theorem published_follows_rotate :
    Agrees (runFrom (Registry.step false id) {} rotateRun).tables "shop" :=
  published_follows (by decide) "shop" (by decide)

-- the copy of an update that started before the rotation brings the old token back
example :
    let s := runFrom (Registry.step false id) {} (createRun ++ .upsert exampleSite ::
      List.replicate 6 (.statement 0 7 exampleRandom) ++ .rotate "shop" ::
      List.replicate 3 (.statement 0 7 (List.replicate 32 1)) ++ List.replicate 4 (.copy 0 8))
    s.load "shop" = 0 ∧
      (s.tables.published.get? "shop").map PublicRow.embedToken =
        some (mintEmbedToken exampleRandom) ∧
      (s.tables.sites.get? "shop").map ControlRow.embedToken =
        some (mintEmbedToken (List.replicate 32 1)) := by
  decide +kernel

end SiteRegistry

end GrServer
