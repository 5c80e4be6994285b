import GrServer.RankedChoice
import GrServer.Text

/-!
# Hosts of the probe plane

A host is looked up in the table of hostnames and in that of root domains, as
written first and by the longest suffix then.  Postgres sorts the rows by
length and takes the first that matches; SQLite keeps the longest match of a
loop, whatever order the rows come in.
-/

namespace GrServer

open Text

namespace HostLookup

structure DomainRow where
  domainId : String
  siteId : String
  hostname : String
  displayName : String
  collectEnabled : Bool
  sslStatus : String := "none"
  sslExpiresMs : Option ℤ := none
  certPath : Option String := none
  keyPath : Option String := none
  createdMs : ℤ
  updatedMs : ℤ
  deriving DecidableEq

structure RootRow where
  domainId : String
  siteId : String
  rootDomain : String
  collectEnabled : Bool
  createdMs : ℤ
  deriving DecidableEq

/-- What a lookup answers, with the table it comes from where it is not `domains`
at the host itself. -/
structure Found where
  row : DomainRow
  source : Option String
  deriving DecidableEq

def RootRow.found (r : RootRow) (hostname source : String) : Found where
  row :=
    { domainId := r.domainId
      siteId := r.siteId
      hostname := hostname
      displayName := "root_domain"
      collectEnabled := r.collectEnabled
      createdMs := r.createdMs
      updatedMs := r.createdMs }
  source := some source

def covers (name host : String) : Bool :=
  host == name || ('.' :: name.toList).isSuffixOf host.toList

def longestFirst {α : Type} (name : α → String) (rows : List α) : List α :=
  rows.insertionSort fun a b => (name b).length ≤ (name a).length

/-- `get_domain_by_hostname` on Postgres, whose `lower` may know more letters than ASCII.
The roots are missing where the table does not exist. -/
def pgDomainByHostname (lower : String → String) (domains : List DomainRow)
    (roots : Option (List RootRow)) (hostname : String) : Option Found :=
  let host := lowered (trimmed hostname)
  if host = "" then none
  else
    ((domains.find? fun r => r.hostname == host).map fun r => ⟨r, none⟩).or <|
    (((roots.getD []).find? fun r => lower r.rootDomain == host).map fun r =>
      r.found r.rootDomain "root_domains").or <|
    (((longestFirst DomainRow.hostname domains).find? fun r => covers r.hostname host).map
      fun r => ⟨r, some "domains_suffix"⟩).or <|
    ((longestFirst RootRow.rootDomain (roots.getD [])).find? fun r =>
      covers (lowered r.rootDomain) host).map fun r =>
        r.found (lowered r.rootDomain) "root_domains_suffix"

/-- The loop over the rows: the first of the longest names that cover the host. -/
def longestCovering {α : Type} (name : α → String) (rows : List α) (host : String) : Option α :=
  (rows.filter fun r => covers (lowered (name r)) host).foldl
    (RankedChoice.keepBest fun r => (lowered (name r)).utf8ByteSize) none

/-- `get_domain_by_hostname` on SQLite. -/
def sqliteDomainByHostname (domains : List DomainRow) (roots : Option (List RootRow))
    (hostname : String) : Option Found :=
  let host := lowered (trimmed hostname)
  if host = "" then none
  else
    match domains.find? fun r => r.hostname == host with
    | some r =>
        -- the row is read again by its id
        (domains.find? fun other => other.domainId == r.domainId).map fun r => ⟨r, none⟩
    | none =>
        (((roots.getD []).find? fun r => lowered r.rootDomain == host).map fun r =>
          r.found r.rootDomain "root_domains").or <|
        ((longestCovering DomainRow.hostname domains host).map fun r =>
          (⟨{ r with hostname := lowered r.hostname }, some "domains_suffix"⟩ : Found)).or <|
        (longestCovering RootRow.rootDomain (roots.getD []) host).map fun r =>
          r.found (lowered r.rootDomain) "root_domains_suffix"

section Covers

variable {a b host : String}

theorem covers_suffix (h : covers a host = true) : a.toList <:+ host.toList := by
  unfold covers at h
  rcases Bool.or_eq_true _ _ ▸ h with heq | hdot
  · rw [eq_of_beq heq]
  · exact (List.suffix_cons '.' a.toList).trans (List.isSuffixOf_iff_suffix.mp hdot)

theorem suffix_of_covers (ha : covers a host = true) (hb : covers b host = true)
    (hle : a.length ≤ b.length) : a.toList <:+ b.toList :=
  List.suffix_of_suffix_length_le (covers_suffix ha) (covers_suffix hb)
    (by simpa only [String.length_toList] using hle)

theorem eq_of_covers (ha : covers a host = true) (hb : covers b host = true)
    (hlen : a.length = b.length) : a = b := by
  have hsuffix := suffix_of_covers ha hb hlen.le
  apply String.toList_injective
  exact hsuffix.eq_of_length (by simpa only [String.length_toList] using hlen)

theorem utf8ByteSize_le (ha : covers a host = true) (hb : covers b host = true)
    (hle : a.length ≤ b.length) : a.utf8ByteSize ≤ b.utf8ByteSize := by
  obtain ⟨front, hfront⟩ := suffix_of_covers ha hb hle
  have hb' : b = String.ofList front ++ a := by
    apply String.toList_injective
    rw [String.toList_append, String.toList_ofList, hfront]
  rw [hb', String.utf8ByteSize_append]
  exact Nat.le_add_left _ _

theorem length_le_of_utf8ByteSize (ha : covers a host = true) (hb : covers b host = true)
    (hle : a.utf8ByteSize ≤ b.utf8ByteSize) : a.length ≤ b.length := by
  by_contra hlt
  have hsuffix := suffix_of_covers hb ha (by omega)
  have hsize := utf8ByteSize_le hb ha (by omega)
  obtain ⟨front, hfront⟩ := hsuffix
  have ha' : a = String.ofList front ++ b := by
    apply String.toList_injective
    rw [String.toList_append, String.toList_ofList, hfront]
  rw [ha', String.utf8ByteSize_append] at hle
  have hempty : (String.ofList front).utf8ByteSize = 0 := by omega
  rw [String.utf8ByteSize_eq_zero_iff] at hempty
  rw [ha', hempty] at hlt
  simp at hlt

end Covers

/-! ## The longest match -/

section Longest

variable {α : Type} {name : α → String} {rows : List α} {host : String}

structure Longest (name : α → String) (rows : List α) (host : String) (r : α) : Prop where
  mem : r ∈ rows
  covers : covers (name r) host = true
  longest : ∀ other ∈ rows, HostLookup.covers (name other) host = true →
    (name other).length ≤ (name r).length

/-- The names of a table are distinct, and in lower case. -/
structure Stored (name : α → String) (rows : List α) : Prop where
  nodup : (rows.map name).Nodup
  lower : ∀ r ∈ rows, lowered (name r) = name r

theorem Stored.eq_of_name {r other : α} (h : Stored name rows) (hr : r ∈ rows)
    (hother : other ∈ rows) (hname : name r = name other) : r = other :=
  List.inj_on_of_nodup_map h.nodup hr hother hname

theorem Longest.unique {r other : α} (hstored : Stored name rows) (h : Longest name rows host r)
    (h' : Longest name rows host other) : r = other := by
  have hle := h.longest other h'.mem h'.covers
  have hge := h'.longest r h.mem h.covers
  exact hstored.eq_of_name h.mem h'.mem (eq_of_covers h.covers h'.covers (by omega))

theorem longest_of_find? {r : α}
    (h : (longestFirst name rows).find? (fun r => covers (name r) host) = some r) :
    Longest name rows host r := by
  obtain ⟨hcovers, before, after, hrows, hbefore⟩ := List.find?_eq_some_iff_append.mp h
  have hsorted : (longestFirst name rows).Pairwise fun a b => (name b).length ≤ (name a).length :=
    List.pairwise_insertionSort _ rows
  have hmem : ∀ other, other ∈ rows ↔ other ∈ longestFirst name rows :=
    fun other => (List.perm_insertionSort _ rows).mem_iff.symm
  refine ⟨(hmem r).mpr (by simp [hrows]), hcovers, ?_⟩
  intro other hother hothers
  rw [hmem, hrows, List.mem_append, List.mem_cons] at hother
  rcases hother with hfront | rfl | hback
  · exact absurd hothers (by simpa using hbefore other hfront)
  · exact le_rfl
  · rw [hrows, List.pairwise_append] at hsorted
    exact List.rel_of_pairwise_cons hsorted.2.1 hback

theorem find?_longestFirst_eq_none :
    (longestFirst name rows).find? (fun r => covers (name r) host) = none ↔
      ∀ r ∈ rows, covers (name r) host = false := by
  rw [List.find?_eq_none]
  constructor
  · intro h r hr
    simpa using h r ((List.perm_insertionSort _ rows).mem_iff.mpr hr)
  · intro h r hr
    simpa using h r ((List.perm_insertionSort _ rows).mem_iff.mp hr)

theorem longest_of_longestCovering {r : α} (hstored : Stored name rows)
    (h : longestCovering name rows host = some r) : Longest name rows host r := by
  obtain ⟨hmem, hmost, -⟩ := RankedChoice.foldl_keepBest_max h
  rcases hmem with hmem | hnone
  · obtain ⟨hr, hcovers⟩ := List.mem_filter.mp hmem
    rw [hstored.lower r hr] at hcovers
    refine ⟨hr, hcovers, ?_⟩
    intro other hother hothers
    have hle := hmost other
      (List.mem_filter.mpr ⟨hother, by rw [hstored.lower other hother]; exact hothers⟩)
    rw [hstored.lower r hr, hstored.lower other hother] at hle
    exact length_le_of_utf8ByteSize hothers hcovers hle
  · cases hnone

theorem longestCovering_eq_none (hstored : Stored name rows) :
    longestCovering name rows host = none ↔ ∀ r ∈ rows, covers (name r) host = false := by
  constructor
  · intro hnone r hr
    by_contra hcovers
    have hmem : r ∈ rows.filter fun r => covers (lowered (name r)) host := by
      rw [List.mem_filter, hstored.lower r hr]
      exact ⟨hr, by simpa using hcovers⟩
    have hsome : (longestCovering name rows host).isSome :=
      RankedChoice.foldl_keepBest_isSome (Or.inr (List.ne_nil_of_mem hmem))
    rw [hnone] at hsome
    cases hsome
  · intro hnone
    have hempty : (rows.filter fun r => covers (lowered (name r)) host) = [] := by
      rw [List.filter_eq_nil_iff]
      intro r hr
      rw [hstored.lower r hr, hnone r hr]
      simp
    unfold longestCovering
    rw [hempty]
    rfl

theorem find?_longestFirst_eq {others : List α} (hstored : Stored name rows)
    (hperm : rows.Perm others) :
    (longestFirst name rows).find? (fun r => covers (name r) host) =
      longestCovering name others host := by
  have hstored' : Stored name others :=
    ⟨(hperm.map name).nodup_iff.mp hstored.nodup,
      fun r hr => hstored.lower r (hperm.mem_iff.mpr hr)⟩
  cases hfound : (longestFirst name rows).find? fun r => covers (name r) host with
  | none =>
      have hnone := find?_longestFirst_eq_none.mp hfound
      symm
      rw [longestCovering_eq_none hstored']
      exact fun r hr => hnone r (hperm.mem_iff.mpr hr)
  | some r =>
      have hr := longest_of_find? hfound
      cases hloop : longestCovering name others host with
      | none =>
          have hnone := (longestCovering_eq_none hstored').mp hloop
          exact absurd hr.covers (by simp [hnone r (hperm.mem_iff.mp hr.mem)])
      | some other =>
          have hother := longest_of_longestCovering hstored' hloop
          have hsame : Longest name rows host other :=
            ⟨hperm.mem_iff.mpr hother.mem, hother.covers,
              fun r hr => hother.longest r (hperm.mem_iff.mp hr)⟩
          rw [hr.unique hstored hsame]

theorem find?_eq_of_perm {rows others : List α} {p : α → Bool} (hperm : rows.Perm others)
    (hone : ∀ r ∈ rows, ∀ other ∈ rows, p r = true → p other = true → r = other) :
    rows.find? p = others.find? p := by
  cases hfound : rows.find? p with
  | none =>
      symm
      rw [List.find?_eq_none] at hfound ⊢
      exact fun r hr => hfound r (hperm.mem_iff.mpr hr)
  | some r =>
      have hr := List.mem_of_find?_eq_some hfound
      have hp := List.find?_some hfound
      cases hothers : others.find? p with
      | none =>
          rw [List.find?_eq_none] at hothers
          exact absurd hp (hothers r (hperm.mem_iff.mp hr))
      | some other =>
          have hother := hperm.mem_iff.mpr (List.mem_of_find?_eq_some hothers)
          rw [hone r hr other hother hp (List.find?_some hothers)]

end Longest

/-! ## The backends agree -/

/-- The answer that both backends owe: nothing where no name covers the host, else a row
that covers it, the longest of the hostnames, and the longest of the root domains where no
hostname covers it and no root domain is the host. -/
structure Answers (domains : List DomainRow) (roots : List RootRow) (host : String)
    (found : Option Found) : Prop where
  none_iff : found = none ↔
    host = "" ∨ (∀ r ∈ domains, covers r.hostname host = false) ∧
      ∀ r ∈ roots, covers r.rootDomain host = false
  covers : ∀ f, found = some f → HostLookup.covers f.row.hostname host = true
  longest : ∀ f, found = some f → ∀ r ∈ domains, HostLookup.covers r.hostname host = true →
    r.hostname.length ≤ f.row.hostname.length
  longest_root : ∀ f, found = some f → f.source = some "root_domains_suffix" →
    ∀ r ∈ roots, HostLookup.covers r.rootDomain host = true →
      r.rootDomain.length ≤ f.row.hostname.length

section Agree

variable {lower : String → String} {domains domains' : List DomainRow}
  {roots roots' : Option (List RootRow)} {host : String}

theorem covers_self (host : String) : HostLookup.covers host host = true := by
  simp [HostLookup.covers]

theorem length_le_of_covers {a : String} (h : HostLookup.covers a host = true) :
    a.length ≤ host.length := by
  simpa only [String.length_toList] using (covers_suffix h).length_le

theorem find?_hostname_eq (hstored : Stored DomainRow.hostname domains)
    (hperm : domains.Perm domains') :
    domains.find? (fun r => r.hostname == host) = domains'.find? fun r => r.hostname == host := by
  apply find?_eq_of_perm hperm
  intro r hr other hother hhost hhost'
  exact hstored.eq_of_name hr hother ((eq_of_beq hhost).trans (eq_of_beq hhost').symm)

theorem find?_root_eq {rows others : List RootRow} (hstored : Stored RootRow.rootDomain rows)
    (hlower : ∀ r ∈ rows, lower r.rootDomain = r.rootDomain) (hperm : rows.Perm others) :
    rows.find? (fun r => lower r.rootDomain == host) =
      others.find? fun r => lowered r.rootDomain == host := by
  have hsame : rows.find? (fun r => lower r.rootDomain == host) =
      rows.find? fun r => lowered r.rootDomain == host := by
    apply List.find?_congr
    intro r hr
    rw [hlower r hr, hstored.lower r hr]
  rw [hsame]
  apply find?_eq_of_perm hperm
  intro r hr other hother hhost hhost'
  apply hstored.eq_of_name hr hother
  rw [← hstored.lower r hr, ← hstored.lower other hother]
  exact (eq_of_beq hhost).trans (eq_of_beq hhost').symm

theorem find?_lowered_roots {rows : List RootRow} (hstored : Stored RootRow.rootDomain rows) :
    (longestFirst RootRow.rootDomain rows).find? (fun r => covers (lowered r.rootDomain) host) =
      (longestFirst RootRow.rootDomain rows).find? fun r => covers r.rootDomain host := by
  apply List.find?_congr
  intro r hr
  rw [hstored.lower r ((List.perm_insertionSort _ _).mem_iff.mp hr)]

theorem find?_domainId {r : DomainRow} (hids : (domains.map DomainRow.domainId).Nodup)
    (hr : r ∈ domains) :
    domains.find? (fun other => other.domainId == r.domainId) = some r := by
  cases hfound : domains.find? fun other => other.domainId == r.domainId with
  | none =>
      rw [List.find?_eq_none] at hfound
      exact absurd (beq_self_eq_true r.domainId) (hfound r hr)
  | some other =>
      have hother := List.mem_of_find?_eq_some hfound
      have hid := List.find?_some hfound
      rw [List.inj_on_of_nodup_map hids hother hr (eq_of_beq hid)]

theorem sqlite_eq_pg (hids : (domains.map DomainRow.domainId).Nodup)
    (hdomains : Stored DomainRow.hostname domains)
    (hroots : Stored RootRow.rootDomain (roots.getD []))
    (hlower : ∀ r ∈ roots.getD [], lower r.rootDomain = r.rootDomain)
    (hperm : domains.Perm domains') (hperm' : (roots.getD []).Perm (roots'.getD []))
    (hostname : String) :
    sqliteDomainByHostname domains' roots' hostname =
      pgDomainByHostname lower domains roots hostname := by
  have hids' : (domains'.map DomainRow.domainId).Nodup :=
    (hperm.map DomainRow.domainId).nodup_iff.mp hids
  unfold sqliteDomainByHostname pgDomainByHostname
  dsimp only
  split_ifs with hempty
  · rfl
  · rw [find?_hostname_eq hdomains hperm, find?_root_eq hroots hlower hperm',
      find?_longestFirst_eq hdomains hperm]
    cases hfound : domains'.find? fun r => r.hostname == lowered (trimmed hostname) with
    | some r =>
        dsimp only
        rw [find?_domainId hids' (List.mem_of_find?_eq_some hfound)]
        rfl
    | none =>
        rw [find?_lowered_roots hroots, find?_longestFirst_eq hroots hperm']
        dsimp only
        rw [Option.map_none, Option.none_or]
        congr 2
        cases hloop : longestCovering DomainRow.hostname domains' (lowered (trimmed hostname)) with
        | none => rfl
        | some r =>
            have hstored' : Stored DomainRow.hostname domains' :=
              ⟨(hperm.map _).nodup_iff.mp hdomains.nodup,
                fun r hr => hdomains.lower r (hperm.mem_iff.mpr hr)⟩
            have hr := (longest_of_longestCovering hstored' hloop).mem
            rw [Option.map_some, Option.map_some, hstored'.lower r hr]

theorem Answers.of_some {roots : List RootRow} {f : Found} (hne : host ≠ "")
    (hcovers : HostLookup.covers f.row.hostname host = true)
    (hname : (∃ r ∈ domains, r.hostname = f.row.hostname) ∨
      ∃ r ∈ roots, r.rootDomain = f.row.hostname)
    (hlongest : ∀ r ∈ domains, HostLookup.covers r.hostname host = true →
      r.hostname.length ≤ f.row.hostname.length)
    (hroot : f.source = some "root_domains_suffix" → ∀ r ∈ roots,
      HostLookup.covers r.rootDomain host = true → r.rootDomain.length ≤ f.row.hostname.length) :
    Answers domains roots host (some f) where
  none_iff := by
    refine iff_of_false (Option.some_ne_none f) ?_
    rintro (hempty | ⟨hdomains, hroots⟩)
    · exact hne hempty
    · rcases hname with ⟨r, hr, hsame⟩ | ⟨r, hr, hsame⟩
      · rw [← hsame, hdomains r hr] at hcovers
        cases hcovers
      · rw [← hsame, hroots r hr] at hcovers
        cases hcovers
  covers := by
    intro f' hf'
    rw [← Option.some.inj hf']
    exact hcovers
  longest := by
    intro f' hf'
    rw [← Option.some.inj hf']
    exact hlongest
  longest_root := by
    intro f' hf'
    rw [← Option.some.inj hf']
    exact hroot

theorem answers_pg (hroots : Stored RootRow.rootDomain (roots.getD []))
    (hlower : ∀ r ∈ roots.getD [], lower r.rootDomain = r.rootDomain) (hostname : String) :
    Answers domains (roots.getD []) (lowered (trimmed hostname))
      (pgDomainByHostname lower domains roots hostname) := by
  unfold pgDomainByHostname
  dsimp only
  split_ifs with hempty
  · constructor
    · exact iff_of_true rfl (Or.inl hempty)
    all_goals
      intro f hf
      exact absurd hf.symm (Option.some_ne_none f)
  · cases hexact : domains.find? fun r => r.hostname == lowered (trimmed hostname) with
    | some r =>
        have hmem := List.mem_of_find?_eq_some hexact
        have hhost := List.find?_some hexact
        have hname : r.hostname = lowered (trimmed hostname) := eq_of_beq hhost
        rw [Option.map_some, Option.some_or]
        refine .of_some hempty ?_ (Or.inl ⟨r, hmem, rfl⟩) ?_ (by simp)
        · rw [hname]
          exact covers_self _
        · intro other _ hother
          rw [hname]
          exact length_le_of_covers hother
    | none =>
        rw [Option.map_none, Option.none_or]
        cases hroot : (roots.getD []).find? fun r =>
            lower r.rootDomain == lowered (trimmed hostname) with
        | some r =>
            have hmem := List.mem_of_find?_eq_some hroot
            have hhost := List.find?_some hroot
            have hname : r.rootDomain = lowered (trimmed hostname) := by
              rw [← hlower r hmem]
              exact eq_of_beq hhost
            rw [Option.map_some, Option.some_or]
            refine .of_some hempty ?_ (Or.inr ⟨r, hmem, rfl⟩) ?_ ?_
            · change covers r.rootDomain _ = true
              rw [hname]
              exact covers_self _
            · intro other _ hother
              change _ ≤ r.rootDomain.length
              rw [hname]
              exact length_le_of_covers hother
            · intro _ other _ hother
              change _ ≤ r.rootDomain.length
              rw [hname]
              exact length_le_of_covers hother
        | none =>
            rw [Option.map_none, Option.none_or]
            cases hsuffix : (longestFirst DomainRow.hostname domains).find? fun r =>
                covers r.hostname (lowered (trimmed hostname)) with
            | some r =>
                have hr := longest_of_find? hsuffix
                rw [Option.map_some, Option.some_or]
                exact .of_some hempty hr.covers (Or.inl ⟨r, hr.mem, rfl⟩) hr.longest (by simp)
            | none =>
                have hnone := find?_longestFirst_eq_none.mp hsuffix
                rw [Option.map_none, Option.none_or, find?_lowered_roots hroots]
                cases hlast : (longestFirst RootRow.rootDomain (roots.getD [])).find? fun r =>
                    covers r.rootDomain (lowered (trimmed hostname)) with
                | some r =>
                    have hr := longest_of_find? hlast
                    have hsame := hroots.lower r hr.mem
                    rw [Option.map_some, hsame]
                    refine .of_some hempty hr.covers (Or.inr ⟨r, hr.mem, rfl⟩) ?_
                      fun _ => hr.longest
                    intro other hother hothers
                    rw [hnone other hother] at hothers
                    cases hothers
                | none =>
                    rw [Option.map_none]
                    constructor
                    · exact iff_of_true rfl (Or.inr ⟨hnone, find?_longestFirst_eq_none.mp hlast⟩)
                    all_goals
                      intro f hf
                      exact absurd hf.symm (Option.some_ne_none f)

/-- On any two listings of tables whose names are distinct and in lower case, Postgres and
SQLite give one answer, and it is the one that is owed. -/
theorem backends_agree (hids : (domains.map DomainRow.domainId).Nodup)
    (hdomains : Stored DomainRow.hostname domains)
    (hroots : Stored RootRow.rootDomain (roots.getD []))
    (hlower : ∀ r ∈ roots.getD [], lower r.rootDomain = r.rootDomain)
    (hperm : domains.Perm domains') (hperm' : (roots.getD []).Perm (roots'.getD []))
    (hostname : String) :
    sqliteDomainByHostname domains' roots' hostname =
        pgDomainByHostname lower domains roots hostname ∧
      Answers domains (roots.getD []) (lowered (trimmed hostname))
        (pgDomainByHostname lower domains roots hostname) :=
  ⟨sqlite_eq_pg hids hdomains hroots hlower hperm hperm' hostname,
    answers_pg hroots hlower hostname⟩

end Agree

def exampleDomain (id site hostname : String) : DomainRow where
  domainId := id
  siteId := site
  hostname := hostname
  displayName := site
  collectEnabled := true
  createdMs := 1
  updatedMs := 1

def exampleDomains : List DomainRow :=
  [exampleDomain "d_1" "shop" "shop.example", exampleDomain "d_2" "eu" "eu.shop.example"]

def exampleRoots : List RootRow :=
  [⟨"r_1", "mall", "example", true, 1⟩, ⟨"r_2", "news", "news.example", true, 1⟩]

theorem backends_agree_subdomain :
    sqliteDomainByHostname exampleDomains.reverse (some exampleRoots) "WWW.eu.shop.example " =
        pgDomainByHostname lowered exampleDomains (some exampleRoots) "WWW.eu.shop.example " ∧
      Answers exampleDomains exampleRoots "www.eu.shop.example"
        (pgDomainByHostname lowered exampleDomains (some exampleRoots) "WWW.eu.shop.example ") := by
  have hlowered : lowered (trimmed "WWW.eu.shop.example ") = "www.eu.shop.example" := by decide
  rw [← hlowered]
  refine backends_agree (by decide) ⟨by decide, ?_⟩ ⟨by decide, ?_⟩ ?_
    (List.reverse_perm exampleDomains).symm (List.Perm.refl _) "WWW.eu.shop.example "
  all_goals decide

-- a hostname that covers the host goes before any root domain, a longer one too
example : (pgDomainByHostname lowered [exampleDomain "d_1" "mall" "example"]
    (some [⟨"r_1", "shop", "shop.example", true, 1⟩]) "www.shop.example").map
      (fun f => f.row.siteId) = some "mall" := by
  decide

end HostLookup

end GrServer
