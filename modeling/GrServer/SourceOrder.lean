import GrServer.MintGate

/-!
# The order of the sources

Values are grouped by comparing each of them with the first value of a group.
Closeness is symmetric but not transitive, so that the groups, and with them the
answer of the resolution, may depend on which value comes first.
-/

namespace GrServer

open Json Text EvidenceMerge

namespace MintGate

def numbersClose (x y : ℚ) : Bool :=
  let scale := max (max |x| |y|) (1 / 1000000000)
  |x - y| / scale < 1 / 10000 || |x - y| < 1 / 1000000

def meanOf (items : List Json) : ℚ :=
  let numbers := items.filterMap asF64
  if numbers = [] then 0 else numbers.sum / numbers.length

def meansClose (xs ys : List Json) : Bool :=
  let ma := meanOf xs
  let mb := meanOf ys
  |ma - mb| < 5 / 100 * max (max |ma| |mb|) (1 / 100) || |ma - mb| < 1 / 1000

def rationalCompare : FloatCompare := ⟨numbersClose, meansClose⟩

theorem approxEq_self (floats : FloatCompare) (a : Json) : approxEq floats a a = true := by
  simp [approxEq]

/-! ## What resolution answers -/

section Flags

variable {approx : Json → Json → Bool} {key : String} {entries : List (String × Json)}

def SourceResolution.flags (r : SourceResolution) : Bool × Bool × Bool :=
  (r.conflicted, r.agreed, r.mintValueOk)

def Hub (approx : Json → Json → Bool) (all : List (String × Json))
    (hub : String × Json) : Prop :=
  ∀ entry ∈ all, approx hub.2 entry.2 = true

instance (all : List (String × Json)) (hub : String × Json) :
    Decidable (Hub approx all hub) :=
  inferInstanceAs (Decidable (∀ entry ∈ all, approx hub.2 entry.2 = true))

/-- Some eligible source is at least as hard to forge as a main page's silicon. -/
def hardSource (key : String) (all : List (String × Json)) : Bool :=
  all.any fun entry =>
    SourceTrust.mainSilicon.score ≤ (sourceTrustFor entry.1 key).score

theorem clustersOf_single_iff_hub (hrefl : ∀ v, approx v v = true)
    (first : String × Json) (rest : List (String × Json)) :
    (clustersOf approx (first :: rest)).length = 1 ↔ Hub approx (first :: rest) first := by
  rw [clustersOf_single]
  constructor
  · intro h entry hentry
    rcases List.mem_cons.mp hentry with rfl | hrest
    · exact hrefl entry.2
    · exact h entry hrest
  · intro h entry hentry
    exact h entry (List.mem_cons_of_mem first hentry)

theorem trust_of_ranked {r : Ranked} (h : r ∈ rankSourcesForKey key entries) :
    r.trust = sourceTrustFor r.source key := by
  rw [rankSourcesForKey, List.mem_insertionSort] at h
  rcases List.mem_map.mp h with ⟨entry, -, rfl⟩
  rfl

theorem le_head_score {r : Ranked}
    (h : (rankSourcesForKey key entries).head? = some r) :
    ∀ entry ∈ eligible key entries,
      (sourceTrustFor entry.1 key).score ≤ r.trust.score := by
  intro entry hentry
  have hlead := RankedChoice.leads_head_insertionSort h
  rcases hlead.2 _ (List.mem_map_of_mem hentry) with hlt | ⟨heq, -⟩
  · exact hlt.le
  · exact heq.le

theorem preferHard_iff (r : Ranked) :
    (conflictResolution r).mintValueOk = true ↔
      SourceTrust.mainSilicon.score ≤ r.trust.score := by
  cases htrust : r.trust <;>
    simp [conflictResolution, htrust, SourceTrust.score, SourceTrust.isEdge]

theorem conflictResolution_head {r : Ranked}
    (h : (rankSourcesForKey key (eligible key entries)).head? = some r) :
    (conflictResolution r).mintValueOk = hardSource key (eligible key entries) := by
  have hbest := le_head_score h
  rw [eligible_eligible] at hbest
  have hr : r ∈ rankSourcesForKey key (eligible key entries) := List.mem_of_head? h
  have hentry := mem_rankSourcesForKey hr
  rw [eligible_eligible] at hentry
  rw [Bool.eq_iff_iff, preferHard_iff, hardSource, List.any_eq_true]
  simp only [decide_eq_true_eq]
  constructor
  · intro hhard
    rw [trust_of_ranked hr] at hhard
    exact ⟨_, hentry, hhard⟩
  · rintro ⟨entry, hmem, hhard⟩
    exact hhard.trans (hbest entry hmem)

theorem flags_resolveFieldSource (hrefl : ∀ v, approx v v = true) :
    (resolveFieldSource approx key entries).flags =
      match eligible key entries with
      | first :: second :: rest =>
          if Hub approx (first :: second :: rest) first then (false, true, true)
          else (true, false,
            decide (keyClass key ≠ .silicon) && hardSource key (first :: second :: rest))
      | _ => (false, false, false) := by
  unfold resolveFieldSource
  cases hall : eligible key entries with
  | nil => rfl
  | cons first tail =>
      cases tail with
      | nil => rfl
      | cons second rest =>
          have hranked : rankSourcesForKey key (first :: second :: rest) ≠ [] := by
            apply rankSourcesForKey_ne_nil
            rw [← hall, eligible_eligible, hall]
            exact List.cons_ne_nil _ _
          simp only [clustersOf_single_iff_hub hrefl]
          by_cases hhub : Hub approx (first :: second :: rest) first
          · have hsome := @pickAgreed_isSome key _ hranked
            rcases Option.isSome_iff_exists.mp hsome with ⟨r, hr⟩
            rw [if_pos hhub, if_pos hhub, hr]
            rfl
          · rw [if_neg hhub, if_neg hhub]
            by_cases hclass : keyClass key = .silicon
            · simp [hclass, SourceResolution.flags]
            · rw [if_neg hclass]
              rcases List.exists_cons_of_ne_nil hranked with ⟨r, tail, hr⟩
              have hhead : (rankSourcesForKey key (eligible key entries)).head? =
                  some r := by
                rw [hall, hr, List.head?_cons]
              have hhard := conflictResolution_head hhead
              rw [hall] at hhard
              rw [hr, List.head?_cons, decide_eq_true hclass, Bool.true_and, ← hhard]
              rfl

end Flags

section Chosen

variable {approx : Json → Json → Bool} {key : String} {entries : List (String × Json)}

/-- The sources a class prefers to more trusted ones: the main page for silicon,
a worker or the edge for a soft identity. -/
def classPrefers (key src : String) : Prop :=
  (keyClass key = .silicon ∧ (src = "main" ∨ startsWith src "main:" = true)) ∨
  (keyClass key = .softIdentity ∧
    (sourceTrustFor src key = .workerNest ∨ startsWith src "worker" = true ∨
      (sourceTrustFor src key).isEdge = true))

theorem edge_is_head {ranked : List Ranked} {first r : Ranked}
    (hhead : ranked.head? = some first)
    (hbest : ∀ other ∈ ranked, other.trust.score ≤ first.trust.score)
    (hfound : (ranked.find? fun r => r.trust.isEdge) = some r) : first = r := by
  have hr : r.trust.isEdge = true := by simpa using List.find?_some hfound
  have hle := hbest r (List.mem_of_find?_eq_some hfound)
  have hedge : first.trust.isEdge = true := by
    cases htrust : first.trust <;> cases hrtrust : r.trust <;>
      simp_all [SourceTrust.score, SourceTrust.isEdge]
  rcases List.exists_cons_of_ne_nil (List.ne_nil_of_mem (List.mem_of_head? hhead))
    with ⟨a, rest, rfl⟩
  rw [List.head?_cons] at hhead
  rw [List.find?_cons_of_pos (by rw [Option.some.inj hhead]; exact hedge)] at hfound
  rw [← Option.some.inj hhead, Option.some.inj hfound]

theorem pickAgreed_cases {ranked : List Ranked} {r : Ranked}
    (hbest : ∀ first, ranked.head? = some first →
      ∀ other ∈ ranked, other.trust.score ≤ first.trust.score)
    (htrust : ∀ other ∈ ranked, other.trust = sourceTrustFor other.source key)
    (h : pickAgreed key ranked = some r) :
    classPrefers key r.source ∨ ranked.head? = some r := by
  have hr := pickAgreed_mem h
  have hfirst : (ranked.find? fun r => r.trust.isEdge) = some r →
      ranked.head? = some r := by
    intro hfound
    rcases List.exists_cons_of_ne_nil (List.ne_nil_of_mem hr) with ⟨first, rest, rfl⟩
    have hhead : (first :: rest).head? = some first := List.head?_cons
    rw [hhead, edge_is_head hhead (hbest first hhead) hfound]
  unfold pickAgreed at h
  cases hclass : keyClass key <;> simp only [hclass, Option.or_eq_some_iff] at h
  case silicon =>
    rcases h with h | ⟨-, h⟩
    · left
      have hmain := List.find?_some h
      simp only [Bool.or_eq_true, decide_eq_true_eq] at hmain
      exact .inl ⟨hclass, hmain⟩
    · exact .inr h
  case softIdentity =>
    have hworker : (ranked.find? fun r =>
        r.trust = .workerNest || startsWith r.source "worker") = some r →
        classPrefers key r.source := by
      intro hfound
      have hwhich := List.find?_some hfound
      simp only [Bool.or_eq_true, decide_eq_true_eq] at hwhich
      rw [htrust r hr] at hwhich
      exact .inr ⟨hclass, hwhich.imp_right .inl⟩
    split_ifs at h with hheader
    · simp only [Option.or_eq_some_iff] at h
      rcases h with (h | ⟨-, h⟩) | ⟨-, h⟩
      · exact .inr (hfirst h)
      · exact .inl (hworker h)
      · exact .inr h
    · simp only [Option.or_eq_some_iff] at h
      rcases h with h | ⟨-, h⟩
      · exact .inl (hworker h)
      · exact .inr h
  case protocol | network =>
    rcases h with h | ⟨-, h⟩
    · exact .inr (hfirst h)
    · exact .inr h
  all_goals exact .inr h

theorem chosen_best {src : String}
    (h : (resolveFieldSource approx key entries).chosenSource = some src) :
    ((resolveFieldSource approx key entries).agreed = true ∧ classPrefers key src) ∨
      ∀ entry ∈ eligible key entries,
        (sourceTrustFor entry.1 key).score ≤ (sourceTrustFor src key).score := by
  unfold resolveFieldSource at h ⊢
  split at h
  case h_1 => simp [noEligibleSource] at h
  case h_2 src' v hone =>
    right
    intro entry hentry
    rw [hone] at hentry
    rw [List.mem_singleton] at hentry
    simp only [Option.some.injEq] at h
    rw [hentry, h]
  case h_3 a b rest hmany =>
    have htrust : ∀ r ∈ rankSourcesForKey key (a :: b :: rest),
        r.trust = sourceTrustFor r.source key := fun r hr => trust_of_ranked hr
    have hfirst : ∀ r, (rankSourcesForKey key (a :: b :: rest)).head? = some r →
        ∀ entry ∈ a :: b :: rest,
          (sourceTrustFor entry.1 key).score ≤ (sourceTrustFor r.source key).score := by
      intro r hr entry hentry
      have hbest := le_head_score hr
      rw [← hmany, eligible_eligible] at hbest
      rw [← htrust r (List.mem_of_head? hr)]
      exact hbest entry (by rwa [hmany])
    have hhead : ∀ first, (rankSourcesForKey key (a :: b :: rest)).head? = some first →
        ∀ other ∈ rankSourcesForKey key (a :: b :: rest),
          other.trust.score ≤ first.trust.score := by
      intro first hr other hother
      have hmem := mem_rankSourcesForKey hother
      rw [← hmany, eligible_eligible, hmany] at hmem
      rw [htrust other hother, htrust first (List.mem_of_head? hr)]
      exact hfirst first hr (other.source, other.value) hmem
    rw [hmany]
    dsimp only at h ⊢
    split_ifs at h ⊢ with hcluster hsilicon
    · split at h
      case h_1 r hpick =>
        simp only [Option.some.injEq] at h
        subst h
        rcases pickAgreed_cases hhead htrust hpick with hprefer | hbest
        · exact .inl ⟨rfl, hprefer⟩
        · exact .inr (hfirst r hbest)
      case h_2 => simp [noEligibleSource] at h
    · split at h
      case h_1 r hpick =>
        simp only [conflictResolution, Option.some.injEq] at h
        subst h
        exact .inr (hfirst r hpick)
      case h_2 => simp [noEligibleSource] at h

end Chosen

/-! ## When the order does not matter -/

section Order

variable {approx : Json → Json → Bool} {key : String} {entries : List (String × Json)}

def PairwiseClose (approx : Json → Json → Bool) (all : List (String × Json)) : Prop :=
  ∀ a ∈ all, ∀ b ∈ all, approx a.2 b.2 = true

/-- A value that is close to all the others never stands between two that are
far from each other. -/
def HubsOnlyAmongClose (approx : Json → Json → Bool) (all : List (String × Json)) : Prop :=
  ∀ hub ∈ all, Hub approx all hub → PairwiseClose approx all

/-- The answer is one about the sources, not about the order they are listed in. -/
structure OrderFree (approx : Json → Json → Bool) (key : String)
    (entries : List (String × Json)) : Prop where
  sameFlags : ∀ entries', entries'.Perm entries →
    (resolveFieldSource approx key entries').flags =
      (resolveFieldSource approx key entries).flags
  sameUnderNames : ∀ rename : String → String,
    (∀ entry ∈ entries, sourceCanSupply (rename entry.1) key = sourceCanSupply entry.1 key ∧
      sourceTrustFor (rename entry.1) key = sourceTrustFor entry.1 key) →
    (resolveFieldSource approx key (entries.map fun e => (rename e.1, e.2))).flags =
      (resolveFieldSource approx key entries).flags
  apart : ¬ ((resolveFieldSource approx key entries).agreed = true ∧
    (resolveFieldSource approx key entries).conflicted = true)
  close : (resolveFieldSource approx key entries).agreed = true →
    PairwiseClose approx (eligible key entries)
  best : ∀ src, (resolveFieldSource approx key entries).chosenSource = some src →
    ((resolveFieldSource approx key entries).agreed = true ∧ classPrefers key src) ∨
      ∀ entry ∈ eligible key entries,
        (sourceTrustFor entry.1 key).score ≤ (sourceTrustFor src key).score

theorem agreed_iff (hrefl : ∀ v, approx v v = true) :
    (resolveFieldSource approx key entries).agreed = true ↔
      ∃ first second rest, eligible key entries = first :: second :: rest ∧
        Hub approx (first :: second :: rest) first := by
  have hflags := @flags_resolveFieldSource approx key entries hrefl
  have hagreed : (resolveFieldSource approx key entries).agreed =
      (resolveFieldSource approx key entries).flags.2.1 := rfl
  rw [hagreed, hflags]
  match eligible key entries with
  | [] => simp
  | [_] => simp
  | first :: second :: rest =>
      by_cases hhub : Hub approx (first :: second :: rest) first
      · simp only [if_pos hhub, true_iff]
        exact ⟨first, second, rest, rfl, hhub⟩
      · simp only [if_neg hhub, Bool.false_eq_true, false_iff]
        rintro ⟨_, _, _, hcons, hother⟩
        cases hcons
        exact hhub hother

theorem not_agreed_and_conflicted (hrefl : ∀ v, approx v v = true) :
    ¬ ((resolveFieldSource approx key entries).agreed = true ∧
      (resolveFieldSource approx key entries).conflicted = true) := by
  have hflags := @flags_resolveFieldSource approx key entries hrefl
  intro h
  have hboth : (resolveFieldSource approx key entries).flags =
      (true, true, (resolveFieldSource approx key entries).mintValueOk) := by
    simp [SourceResolution.flags, h.1, h.2]
  rw [hflags] at hboth
  split at hboth
  · split_ifs at hboth <;> simp at hboth
  · simp at hboth

theorem hub_of_perm {all all' : List (String × Json)} (hperm : all'.Perm all)
    (hub : String × Json) : Hub approx all' hub ↔ Hub approx all hub := by
  unfold Hub
  simp only [hperm.mem_iff]

theorem hardSource_of_perm {all all' : List (String × Json)} (hperm : all'.Perm all) :
    hardSource key all' = hardSource key all := by
  rw [Bool.eq_iff_iff]
  simp only [hardSource, List.any_eq_true, hperm.mem_iff]

theorem flags_of_perm (hrefl : ∀ v, approx v v = true)
    (hclose : HubsOnlyAmongClose approx (eligible key entries))
    {entries' : List (String × Json)} (hperm : entries'.Perm entries) :
    (resolveFieldSource approx key entries').flags =
      (resolveFieldSource approx key entries).flags := by
  have helig : (eligible key entries').Perm (eligible key entries) := hperm.filter _
  have hlen := helig.length_eq
  rw [flags_resolveFieldSource hrefl, flags_resolveFieldSource hrefl]
  match hall : eligible key entries, hall' : eligible key entries' with
  | [], [] => rfl
  | [_], [_] => rfl
  | first :: second :: rest, first' :: second' :: rest' =>
      rw [hall, hall'] at helig
      rw [hall] at hclose
      have hmem : first' ∈ first :: second :: rest :=
        helig.mem_iff.mp List.mem_cons_self
      have hsame : Hub approx (first' :: second' :: rest') first' ↔
          Hub approx (first :: second :: rest) first := by
        rw [hub_of_perm helig]
        constructor
        · intro hhub
          exact hclose first' hmem hhub first List.mem_cons_self
        · intro hhub
          exact hclose first List.mem_cons_self hhub first' hmem
      simp only [hsame, hardSource_of_perm helig]
  | [], _ :: _ => simp [hall, hall'] at hlen
  | _ :: _, [] => simp [hall, hall'] at hlen
  | [_], _ :: _ :: _ => simp [hall, hall'] at hlen
  | _ :: _ :: _, [_] => simp [hall, hall'] at hlen

theorem eligible_rename {rename : String → String}
    (hsame : ∀ entry ∈ entries,
      sourceCanSupply (rename entry.1) key = sourceCanSupply entry.1 key) :
    eligible key (entries.map fun e => (rename e.1, e.2)) =
      (eligible key entries).map fun e => (rename e.1, e.2) := by
  rw [eligible, eligible, List.filter_map]
  congr 1
  apply List.filter_congr
  intro entry hentry
  exact hsame entry hentry

theorem hardSource_rename {rename : String → String} {all : List (String × Json)}
    (hsame : ∀ entry ∈ all,
      sourceTrustFor (rename entry.1) key = sourceTrustFor entry.1 key) :
    hardSource key (all.map fun e => (rename e.1, e.2)) = hardSource key all := by
  rw [Bool.eq_iff_iff]
  simp only [hardSource, List.any_map, List.any_eq_true, Function.comp_apply]
  apply exists_congr
  intro entry
  apply and_congr_right
  intro hentry
  rw [hsame entry hentry]

theorem hub_rename {rename : String → String} {all : List (String × Json)}
    {hub : String × Json} :
    Hub approx (all.map fun e => (rename e.1, e.2)) (rename hub.1, hub.2) ↔
      Hub approx all hub := by
  simp only [Hub, List.forall_mem_map]

theorem flags_rename (hrefl : ∀ v, approx v v = true) {rename : String → String}
    (hsame : ∀ entry ∈ entries,
      sourceCanSupply (rename entry.1) key = sourceCanSupply entry.1 key ∧
        sourceTrustFor (rename entry.1) key = sourceTrustFor entry.1 key) :
    (resolveFieldSource approx key (entries.map fun e => (rename e.1, e.2))).flags =
      (resolveFieldSource approx key entries).flags := by
  have hsupply := eligible_rename fun entry hentry => (hsame entry hentry).1
  have htrust : ∀ entry ∈ eligible key entries,
      sourceTrustFor (rename entry.1) key = sourceTrustFor entry.1 key :=
    fun entry hentry => (hsame entry (mem_eligible.mp hentry).1).2
  rw [flags_resolveFieldSource hrefl, flags_resolveFieldSource hrefl, hsupply]
  match hall : eligible key entries with
  | [] => rfl
  | [_] => rfl
  | first :: second :: rest =>
      have hhard := hardSource_rename htrust
      rw [hall] at hhard
      simp only [List.map_cons] at hhard ⊢
      rw [hhard]
      have hhub := @hub_rename approx rename (first :: second :: rest) first
      simp only [List.map_cons] at hhub
      simp only [hhub]

theorem orderFree_iff (hrefl : ∀ v, approx v v = true) :
    OrderFree approx key entries ↔ HubsOnlyAmongClose approx (eligible key entries) := by
  constructor
  · intro h hub hmem hhub
    have hfront : (hub :: entries.erase hub).Perm entries :=
      (List.perm_cons_erase (mem_eligible.mp hmem).1).symm
    have helig : (eligible key (hub :: entries.erase hub)).Perm (eligible key entries) :=
      hfront.filter _
    have hcons : eligible key (hub :: entries.erase hub) =
        hub :: eligible key (entries.erase hub) :=
      List.filter_cons_of_pos (mem_eligible.mp hmem).2
    have hhub' := (hub_of_perm helig hub).mpr hhub
    have hsame := h.sameFlags _ hfront
    cases htail : eligible key (entries.erase hub) with
    | nil =>
        rw [hcons, htail] at helig
        intro a ha b hb
        have ha' := List.mem_singleton.mp (helig.mem_iff.mpr ha)
        have hb' := List.mem_singleton.mp (helig.mem_iff.mpr hb)
        rw [ha', hb']
        exact hrefl hub.2
    | cons second rest =>
        rw [htail] at hcons
        rw [hcons] at hhub'
        have hagreed := (agreed_iff hrefl).mpr ⟨hub, second, rest, hcons, hhub'⟩
        apply h.close
        rw [← hagreed]
        exact (congrArg (fun flags => flags.2.1) hsame).symm
  · intro h
    exact
      { sameFlags := fun _ hperm => flags_of_perm hrefl h hperm
        sameUnderNames := fun _ hsame => flags_rename hrefl hsame
        apart := not_agreed_and_conflicted hrefl
        close := by
          intro hagreed
          rcases (agreed_iff hrefl).mp hagreed with ⟨first, second, rest, hall, hhub⟩
          rw [hall] at h ⊢
          exact h first List.mem_cons_self hhub
        best := fun _ hsrc => chosen_best hsrc }

end Order

theorem sources_orderFree_iff (key : String) (entries : List (String × Json)) :
    OrderFree (approxEq rationalCompare) key entries ↔
      HubsOnlyAmongClose (approxEq rationalCompare) (eligible key entries) :=
  orderFree_iff (approxEq_self rationalCompare)

def driftingResidual : List (String × Json) :=
  [("main", .num (.int 1)), ("iframe", .num (.float (100009 / 100000))),
    ("worker", .num (.float (100018 / 100000)))]

theorem drifting_residual_order_matters :
    ¬ ∀ (key : String) (entries : List (String × Json)),
      OrderFree (approxEq rationalCompare) key entries := by
  intro h
  have hmiddle : (resolveFieldSource (approxEq rationalCompare) "residual_std"
      [("iframe", .num (.float (100009 / 100000))), ("main", .num (.int 1)),
        ("worker", .num (.float (100018 / 100000)))]).flags = (false, true, true) := by
    decide +kernel
  have hfirst : (resolveFieldSource (approxEq rationalCompare) "residual_std"
      driftingResidual).flags = (true, false, false) := by
    decide +kernel
  have hsame := (h "residual_std" driftingResidual).sameFlags _ (List.Perm.swap _ _ _)
  rw [hfirst, hmiddle] at hsame
  cases hsame

end MintGate

end GrServer
