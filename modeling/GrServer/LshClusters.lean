import GrServer.DisjointSets
import GrServer.Faults
import GrServer.Json
import GrServer.LshDistance

/-!
# Clusters of curve digests

Sessions whose digests are near are linked with a union-find over their
positions, and the sets that come out are listed with the largest first.  A run
faults on a position out of range, and on a chain of parents longer than its
fuel.  The order in which the hash map gives the sets is a parameter.
-/

namespace GrServer

open Json Faults DisjointSets

namespace CurveLsh

structure Uf where
  p : List ℕ

namespace Uf

def new (n : ℕ) : Uf := ⟨List.range n⟩

def find : ℕ → Uf → ℕ → Run (ℕ × Uf)
  | 0, _, _ => .error .fuel
  | fuel + 1, uf, x => do
      let px ← index uf.p x
      if px ≠ x then
        let (r, uf) ← find fuel uf px
        let uf : Uf := ⟨← modifyAt uf.p x fun _ => r⟩
        return (← index uf.p x, uf)
      else
        return (← index uf.p x, uf)

def union (fuel : ℕ) (uf : Uf) (a b : ℕ) : Run Uf := do
  let (ra, uf) ← uf.find fuel a
  let (rb, uf) ← uf.find fuel b
  if ra ≠ rb then
    return ⟨← modifyAt uf.p ra fun _ => rb⟩
  else
    return uf

end Uf

/-! ## Clustering -/

structure Items where
  values : List Json
  fits : values.length < 2 ^ 63

/-- How a hash map orders its entries. -/
structure HashOrder where
  order : List (ℕ × List ℕ) → List (ℕ × List ℕ)
  perm : ∀ entries, (order entries).Perm entries

def digestOf (v : Json) : String :=
  (((v.get? "lsh").or (v.get? "curve_lsh")).bind asStr).getD ""

def linkRow (fuel : ℕ) (digs : List String) (maxDistance : UInt32) (i : ℕ) (uf : Uf) : Run Uf := do
  let n := digs.length
  if (← index digs i) = "" then
    return uf
  else
    forRange (fun j uf => do
      if (← index digs j) = "" then
        return uf
      else if hexDigestDistance (← index digs i) (← index digs j) ≤ maxDistance then
        uf.union fuel i j
      else
        return uf) (n - (i + 1)) (i + 1) uf

def linkAll (fuel : ℕ) (digs : List String) (maxDistance : UInt32) : Run Uf :=
  forRange (linkRow fuel digs maxDistance) digs.length 0 (Uf.new digs.length)

def collectRoot (fuel i : ℕ) (s : Uf × SortedMap ℕ (List ℕ)) :
    Run (Uf × SortedMap ℕ (List ℕ)) := do
  let (r, uf) ← s.1.find fuel i
  return (uf, s.2.insert r ((s.2.get? r).getD [] ++ [i]))

def memberValue (items : List Json) (digs : List String) (i : ℕ) : Run Json := do
  let item ← index items i
  return .obj [
    ("lsh", .str (← index digs i)),
    ("session_id", (item.get? "session_id").getD .null),
    ("vtid", (item.get? "vtid").getD .null)]

def clusterDoc (size : ℕ) (sessions : List Json) : Json :=
  .obj [
    ("members", .arr sessions),
    ("promote_to_commercial_id", .bool false),
    ("size", ofInt size)]

def clusterValues (items : List Json) (digs : List String) : List (ℕ × List ℕ) → Run (List Json)
  | [] => return []
  | (_, members) :: comps => do
      if members.isEmpty then
        clusterValues items digs comps
      else
        let sessions ← members.mapM (memberValue items digs)
        return clusterDoc members.length sessions :: (← clusterValues items digs comps)

def sizeOfCluster (c : Json) : ℕ := ((c.get? "size").bind asU64).getD 0

def report (nItems : ℕ) (maxDistance : UInt32) (clusters : List Json) : Json :=
  .obj [
    ("algo", .str "curve_lsh_cluster_v1"),
    ("clusters", .arr clusters),
    ("max_distance", ofInt maxDistance.toNat),
    ("n_clusters", ofInt clusters.length),
    ("n_items", ofInt nItems),
    ("promote_to_commercial_id", .bool false),
    ("sdk_use",
      .str "fuse cluster_id with subject_ref; V5 never builds tenant account graph")]

/-- The sets by their root, in the order of the hash map. -/
def components (fuel : ℕ) (order : HashOrder) (digs : List String) (maxDistance : UInt32) :
    Run (List (ℕ × List ℕ)) := do
  let uf ← linkAll fuel digs maxDistance
  let (_, comps) ← forRange (collectRoot fuel) digs.length 0 (uf, SortedMap.empty)
  return order.order comps.entries

def clusterByCurveLsh (fuel : ℕ) (order : HashOrder) (items : Items) (maxDistance : UInt32) :
    Run Json := do
  let digs := items.values.map digestOf
  let comps ← components fuel order digs maxDistance
  let clusters ← clusterValues items.values digs comps
  return report items.values.length maxDistance
    (clusters.mergeSort fun a b => sizeOfCluster b ≤ sizeOfCluster a)

/-! ## The union-find as a forest -/

namespace Uf

def parent (uf : Uf) (x : ℕ) : ℕ := uf.p.getD x x

structure Holds (uf : Uf) (n : ℕ) (rep : ℕ → ℕ) : Prop where
  length : uf.p.length = n
  inRange : ∀ x < n, uf.parent x < n
  roots : Roots uf.parent rep

variable {uf : Uf} {n fuel x a b r k : ℕ} {rep : ℕ → ℕ}

theorem parent_new (n : ℕ) : (new n).parent = id := by
  funext x
  unfold parent new
  by_cases hx : x < n
  · simp [hx]
  · simp [Nat.le_of_not_lt hx]

theorem holds_new (n : ℕ) : (new n).Holds n id where
  length := List.length_range
  inRange x hx := by
    rw [parent_new]
    exact hx
  roots := by
    rw [parent_new]
    exact roots_id

theorem parent_modify (hx : x < uf.p.length) (r : ℕ) :
    (⟨uf.p.modify x fun _ => r⟩ : Uf).parent = Function.update uf.parent x r := by
  funext y
  show (uf.p.modify x fun _ => r).getD y y = Function.update uf.parent x r y
  rw [List.getD_eq_getElem?_getD]
  by_cases hy : y = x
  · subst hy
    rw [List.getElem?_modify_eq, List.getElem?_eq_getElem hx, Function.update_self]
    rfl
  · rw [List.getElem?_modify_ne _ _ (Ne.symm hy), Function.update_of_ne hy, parent,
      List.getD_eq_getElem?_getD]

theorem Holds.returns_parent (h : uf.Holds n rep) (hx : x < n) :
    Returns (index uf.p x) (· = uf.parent x) := by
  refine (returns_index (h.length.symm ▸ hx)).mono ?_
  intro q hq
  unfold parent
  rw [List.getD_eq_getElem?_getD, hq, Option.getD_some]

theorem Holds.rep_lt (h : uf.Holds n rep) (hx : x < n) : rep x < n := by
  rcases h.roots x with ⟨k, hk⟩
  exact @Leads.closed _ _ _ _ _ (· < n) h.inRange hk hx

theorem Holds.returns_modify (h : uf.Holds n rep) {rep' : ℕ → ℕ} (hx : x < n) (hr : r < n)
    (hroots : Roots (Function.update uf.parent x r) rep') :
    Returns (modifyAt uf.p x fun _ => r) fun p =>
      (⟨p⟩ : Uf).Holds n rep' ∧ (⟨p⟩ : Uf).parent = Function.update uf.parent x r := by
  have hlt : x < uf.p.length := h.length.symm ▸ hx
  have hparent := parent_modify hlt r
  refine (returns_modifyAt _ hlt).mono ?_
  rintro p ⟨rfl, hlength⟩
  refine ⟨⟨hlength.trans h.length, ?_, hparent.symm ▸ hroots⟩, hparent⟩
  intro y hy
  rw [hparent]
  by_cases hyx : y = x
  · rw [hyx, Function.update_self]
    exact hr
  · rw [Function.update_of_ne hyx]
    exact h.inRange y hy

theorem Holds.length_le (h : uf.Holds n rep) (hx : Leads uf.parent r k x) : k ≤ n := by
  have hinner : ∀ y, uf.parent y ≠ y → y ∈ Finset.range n := by
    intro y hy
    by_contra hout
    rw [Finset.mem_range, ← h.length, Nat.not_lt] at hout
    apply hy
    unfold parent
    rw [List.getD_eq_getElem?_getD, List.getElem?_eq_none hout, Option.getD_none]
  have hle := hx.length_le hinner
  rwa [Finset.card_range] at hle

theorem returns_find_of_leads (h : uf.Holds n rep) (hk : Leads uf.parent r k x) (hx : x < n)
    (hfuel : k < fuel) :
    Returns (uf.find fuel x) fun out => out.1 = rep x ∧ out.2.Holds n rep := by
  induction hk generalizing fuel with
  | root hroot =>
      cases fuel with
      | zero => omega
      | succ fuel =>
          have hrep : r = rep r := h.roots.eq_of_leads (.root hroot)
          refine (h.returns_parent hx).bind ?_
          rintro px rfl
          refine Returns.ite (fun hne => absurd hroot hne) fun _ => ?_
          refine (h.returns_parent hx).bind ?_
          rintro q rfl
          exact Returns.pure ⟨hroot.trans hrep, h⟩
  | @step k x hne hrest ih =>
      cases fuel with
      | zero => omega
      | succ fuel =>
          refine (h.returns_parent hx).bind ?_
          rintro px rfl
          refine Returns.ite (fun _ => ?_) fun heq => absurd hne heq
          refine (ih (h.inRange x hx) (by omega)).bind ?_
          rintro ⟨root, uf'⟩ ⟨hroot, h'⟩
          have hrep : root = rep x := hroot.trans (h.roots.rep_parent x)
          subst hrep
          refine (h'.returns_modify hx (h.rep_lt hx) (h'.roots.compress x)).bind ?_
          rintro p ⟨hp, hparent⟩
          refine (hp.returns_parent hx).bind ?_
          rintro q rfl
          refine Returns.pure ⟨?_, hp⟩
          rw [hparent, Function.update_self]

theorem Holds.returns_find (h : uf.Holds n rep) (hx : x < n) (hfuel : n < fuel) :
    Returns (uf.find fuel x) fun out => out.1 = rep x ∧ out.2.Holds n rep := by
  rcases h.roots x with ⟨k, hk⟩
  exact returns_find_of_leads h hk hx ((h.length_le hk).trans_lt hfuel)

theorem Holds.returns_union (h : uf.Holds n rep) (ha : a < n) (hb : b < n) (hfuel : n < fuel) :
    Returns (uf.union fuel a b) fun uf => uf.Holds n (merge rep a b) := by
  refine (h.returns_find ha hfuel).bind ?_
  rintro ⟨ra, uf₁⟩ ⟨hra, h₁⟩
  refine (h₁.returns_find hb hfuel).bind ?_
  rintro ⟨rb, uf₂⟩ ⟨hrb, h₂⟩
  dsimp only at hra hrb h₁ h₂ ⊢
  rw [hra, hrb]
  refine Returns.ite (fun hne => ?_) fun heq => ?_
  · refine (h₂.returns_modify (h₂.rep_lt ha) (h₂.rep_lt hb) (h₂.roots.link hne)).bind ?_
    rintro p ⟨hp, -⟩
    exact Returns.pure hp
  · rw [merge_of_eq (not_not.mp heq)]
    exact Returns.pure h₂

theorem find_mono {fuel' : ℕ} {v : ℕ × Uf} (h : uf.find fuel x = .ok v) (hle : fuel ≤ fuel') :
    uf.find fuel' x = .ok v := by
  induction fuel generalizing uf x v fuel' with
  | zero => cases h
  | succ fuel ih =>
      cases fuel' with
      | zero => omega
      | succ fuel' =>
          rw [find] at h ⊢
          rcases bind_eq_ok h with ⟨px, hpx, h⟩
          rw [hpx]
          show (if px ≠ x then _ else _) = _
          split_ifs at h ⊢ with hne
          · rcases bind_eq_ok h with ⟨out, hout, h⟩
            rw [ih hout (Nat.le_of_succ_le_succ hle)]
            exact h
          · rwa [hpx] at h

theorem union_mono {fuel' : ℕ} {v : Uf} (h : uf.union fuel a b = .ok v) (hle : fuel ≤ fuel') :
    uf.union fuel' a b = .ok v := by
  unfold union at h ⊢
  rcases bind_eq_ok h with ⟨out, hout, h⟩
  rcases bind_eq_ok h with ⟨out', hout', h⟩
  rw [find_mono hout hle]
  show (do let (rb, uf) ← out.2.find fuel' b; _) = _
  rw [find_mono hout' hle]
  exact h

/-- What calls with positions in range leave of `n` positions. -/
inductive Reachable (n : ℕ) : Uf → Prop where
  | new : Reachable n (new n)
  | find {uf uf' : Uf} {fuel x r : ℕ} (h : Reachable n uf) (hx : x < n)
      (hrun : uf.find fuel x = .ok (r, uf')) : Reachable n uf'
  | union {uf uf' : Uf} {fuel a b : ℕ} (h : Reachable n uf) (ha : a < n) (hb : b < n)
      (hrun : uf.union fuel a b = .ok uf') : Reachable n uf'

theorem Reachable.holds (h : Reachable n uf) : ∃ rep, uf.Holds n rep := by
  induction h with
  | new => exact ⟨id, holds_new n⟩
  | @find uf uf' fuel x r _ hx hrun ih =>
      rcases ih with ⟨rep, hrep⟩
      have hrun' := find_mono hrun (Nat.le_max_left fuel (n + 1))
      have hfuel : n < max fuel (n + 1) := lt_max_of_lt_right (Nat.lt_succ_self n)
      exact ⟨rep, ((hrep.returns_find hx hfuel).of_eq hrun').2⟩
  | @union uf uf' fuel a b _ ha hb hrun ih =>
      rcases ih with ⟨rep, hrep⟩
      have hrun' := union_mono hrun (Nat.le_max_left fuel (n + 1))
      have hfuel : n < max fuel (n + 1) := lt_max_of_lt_right (Nat.lt_succ_self n)
      exact ⟨merge rep a b, (hrep.returns_union ha hb hfuel).of_eq hrun'⟩

end Uf

/-! ## The links -/

section Links

variable {fuel n i j x y : ℕ} {digs : List String} {maxDistance : UInt32}

def digestAt (digs : List String) (i : ℕ) : String := digs.getD i ""

structure Near (digs : List String) (maxDistance : UInt32) (x y : ℕ) : Prop where
  left : digestAt digs x ≠ ""
  right : digestAt digs y ≠ ""
  close : hexDigestDistance (digestAt digs x) (digestAt digs y) ≤ maxDistance

theorem Near.symm (h : Near digs maxDistance x y) : Near digs maxDistance y x := by
  refine ⟨h.right, h.left, ?_⟩
  rw [hexDigestDistance_comm]
  exact h.close

theorem lt_of_digestAt (h : digestAt digs x ≠ "") : x < digs.length := by
  by_contra hx
  apply h
  unfold digestAt
  rw [List.getD_eq_getElem?_getD, List.getElem?_eq_none (Nat.le_of_not_lt hx), Option.getD_none]

theorem returns_digest (h : i < digs.length) : Returns (index digs i) (· = digestAt digs i) := by
  refine (returns_index h).mono ?_
  intro d hd
  unfold digestAt
  rw [List.getD_eq_getElem?_getD, hd, Option.getD_some]

def Scanned (digs : List String) (maxDistance : UInt32) (i j x y : ℕ) : Prop :=
  (x < i ∨ (x = i ∧ y < j)) ∧ x < y ∧ Near digs maxDistance x y

def Linked (digs : List String) (maxDistance : UInt32) (i j : ℕ) (uf : Uf) : Prop :=
  ∃ rep, uf.Holds digs.length rep ∧ Classifies rep (Scanned digs maxDistance i j)

theorem Linked.congr {uf : Uf} {i' j' : ℕ} (h : Linked digs maxDistance i j uf)
    (hsame : ∀ x y, Scanned digs maxDistance i j x y ↔ Scanned digs maxDistance i' j' x y) :
    Linked digs maxDistance i' j' uf := by
  rcases h with ⟨rep, hholds, hclasses⟩
  exact ⟨rep, hholds, hclasses.congr hsame⟩

theorem scanned_next (hij : i < j) :
    Scanned digs maxDistance i (j + 1) x y ↔
      Scanned digs maxDistance i j x y ∨ ((x = i ∧ y = j) ∧ Near digs maxDistance i j) := by
  unfold Scanned
  constructor
  · rintro ⟨hpos, hlt, hnear⟩
    by_cases hnew : x = i ∧ y = j
    · refine .inr ⟨hnew, ?_⟩
      rwa [hnew.1, hnew.2] at hnear
    · exact .inl ⟨by omega, hlt, hnear⟩
  · rintro (⟨hpos, hlt, hnear⟩ | ⟨⟨rfl, rfl⟩, hnear⟩)
    · exact ⟨by omega, hlt, hnear⟩
    · exact ⟨by omega, hij, hnear⟩

theorem returns_linkRow {uf : Uf} (hfuel : digs.length < fuel) (hi : i < digs.length)
    (h : Linked digs maxDistance i 0 uf) :
    Returns (linkRow fuel digs maxDistance i uf) (Linked digs maxDistance (i + 1) 0) := by
  have hstart : ∀ x y, Scanned digs maxDistance i 0 x y ↔
      Scanned digs maxDistance i (i + 1) x y := by
    intro x y
    unfold Scanned
    constructor <;> exact fun h => ⟨by omega, h.2⟩
  refine (returns_digest hi).bind ?_
  rintro d rfl
  refine Returns.ite (fun hempty => Returns.pure ?_) fun hdigest => ?_
  · apply h.congr
    intro x y
    unfold Scanned
    constructor
    · exact fun h => ⟨by omega, h.2⟩
    · rintro ⟨hpos, hlt, hnear⟩
      have hxi : x ≠ i := by
        rintro rfl
        exact hnear.left hempty
      exact ⟨by omega, hlt, hnear⟩
  · refine (returns_forRange (I := Linked digs maxDistance i) ?_ (h.congr hstart)).mono ?_
    · intro j uf hlo hhi hj
      have hjn : j < digs.length := by omega
      refine (returns_digest hjn).bind ?_
      rintro d rfl
      refine Returns.ite (fun hempty => Returns.pure ?_) fun hother => ?_
      · apply hj.congr
        intro x y
        rw [scanned_next (by omega)]
        exact ⟨.inl, fun h => h.resolve_right fun hnew => hnew.2.right hempty⟩
      · refine (returns_digest hi).bind ?_
        rintro d rfl
        refine (returns_digest hjn).bind ?_
        rintro d rfl
        refine Returns.ite (fun hclose => ?_) fun hfar => Returns.pure ?_
        · rcases hj with ⟨rep, hholds, hclasses⟩
          refine (hholds.returns_union hi hjn hfuel).mono ?_
          intro uf' huf'
          refine ⟨merge rep i j, huf', (hclasses.merge i j).congr ?_⟩
          intro x y
          rw [scanned_next (by omega)]
          have hnear : Near digs maxDistance i j := ⟨hdigest, hother, hclose⟩
          simp only [hnear, and_true]
        · apply hj.congr
          intro x y
          rw [scanned_next (by omega)]
          exact ⟨.inl, fun h => h.resolve_right fun hnew => hfar hnew.2.close⟩
    · intro uf' huf'
      apply huf'.congr
      intro x y
      unfold Scanned
      constructor
      · exact fun h => ⟨by omega, h.2⟩
      · rintro ⟨hpos, hlt, hnear⟩
        have hy := lt_of_digestAt hnear.right
        exact ⟨by omega, hlt, hnear⟩

def Named (digs : List String) (maxDistance : UInt32) (rep : ℕ → ℕ) : Prop :=
  ∀ x y, rep x = rep y ↔ Relation.ReflTransGen (Near digs maxDistance) x y

theorem returns_linkAll (hfuel : digs.length < fuel) :
    Returns (linkAll fuel digs maxDistance) fun uf =>
      ∃ rep, uf.Holds digs.length rep ∧ Named digs maxDistance rep := by
  have hstart : Linked digs maxDistance 0 0 (Uf.new digs.length) :=
    ⟨id, Uf.holds_new _, classifies_id fun x y h => by
      have hpos := h.1
      omega⟩
  refine (returns_forRange (I := fun i => Linked digs maxDistance i 0) ?_ hstart).mono ?_
  · exact fun i uf _ hi h => returns_linkRow hfuel (by omega) h
  · rintro uf ⟨rep, hholds, hclasses⟩
    refine ⟨rep, hholds, ?_⟩
    intro x y
    rw [hclasses, ← eqvGen_iff_reflTransGen fun x y h => h.symm]
    apply eqvGen_oneWay
    · exact fun x y h => h.2.2
    · intro x y hnear
      have hx := lt_of_digestAt hnear.left
      have hy := lt_of_digestAt hnear.right
      rcases Nat.lt_trichotomy x y with hlt | heq | hgt
      · exact .inr (.inl ⟨by omega, hlt, hnear⟩)
      · exact .inl heq
      · exact .inr (.inr ⟨by omega, hgt, hnear.symm⟩)

end Links

/-! ## The sets -/

section Sets

variable {fuel n k r x y : ℕ} {rep : ℕ → ℕ} {groups : List (List ℕ)}

def membersOf (rep : ℕ → ℕ) (k r : ℕ) : List ℕ := (List.range k).filter fun x => rep x = r

theorem mem_membersOf : x ∈ membersOf rep k r ↔ x < k ∧ rep x = r := by
  simp [membersOf]

theorem nodup_membersOf (rep : ℕ → ℕ) (k r : ℕ) : (membersOf rep k r).Nodup :=
  List.nodup_range.filter _

theorem membersOf_succ (rep : ℕ → ℕ) (k r : ℕ) :
    membersOf rep (k + 1) r = membersOf rep k r ++ if rep k = r then [k] else [] := by
  unfold membersOf
  rw [List.range_succ, List.filter_append]
  by_cases hr : rep k = r <;> simp [hr]

def Grouped (rep : ℕ → ℕ) (k : ℕ) (comps : SortedMap ℕ (List ℕ)) : Prop :=
  ∀ r, comps.get? r = if membersOf rep k r = [] then none else some (membersOf rep k r)

theorem Grouped.getD {comps : SortedMap ℕ (List ℕ)} (h : Grouped rep k comps) (r : ℕ) :
    (comps.get? r).getD [] = membersOf rep k r := by
  rw [h r]
  split_ifs with hempty
  · exact hempty.symm
  · rfl

theorem Grouped.insert {comps : SortedMap ℕ (List ℕ)} (h : Grouped rep k comps) :
    Grouped rep (k + 1)
      (comps.insert (rep k) ((comps.get? (rep k)).getD [] ++ [k])) := by
  intro r
  rw [SortedMap.get?_insert, membersOf_succ, h.getD]
  by_cases hr : r = rep k
  · rw [if_pos hr, hr, if_pos rfl, if_neg (by simp)]
  · rw [if_neg hr, if_neg (Ne.symm hr), List.append_nil]
    exact h r

theorem returns_collect {uf : Uf} (h : uf.Holds n rep) (hfuel : n < fuel) :
    Returns (forRange (collectRoot fuel) n 0 (uf, SortedMap.empty)) fun s => Grouped rep n s.2 := by
  have hempty : Grouped rep 0 SortedMap.empty := fun r => rfl
  have hloop := returns_forRange (f := collectRoot fuel) (a := 0) (n := n)
    (s := (uf, SortedMap.empty)) (I := fun k s => s.1.Holds n rep ∧ Grouped rep k s.2) ?_
    ⟨h, hempty⟩
  · rw [Nat.zero_add] at hloop
    exact hloop.mono fun s hs => hs.2
  · rintro k ⟨uf, comps⟩ _ hk ⟨hholds, hgrouped⟩
    refine (hholds.returns_find (by omega) hfuel).bind ?_
    rintro ⟨r, uf'⟩ ⟨hr, huf'⟩
    dsimp only at hr huf'
    subst hr
    exact Returns.pure ⟨huf', hgrouped.insert⟩

structure SetsOf (rep : ℕ → ℕ) (n : ℕ) (groups : List (List ℕ)) : Prop where
  partition : groups.flatten.Perm (List.range n)
  named : ∀ g ∈ groups, g ≠ [] ∧ ∃ r, g = membersOf rep n r

theorem SetsOf.perm {groups' : List (List ℕ)} (h : SetsOf rep n groups)
    (hperm : groups'.Perm groups) : SetsOf rep n groups' where
  partition := hperm.flatten.trans h.partition
  named g hg := h.named g (hperm.mem_iff.mp hg)

theorem Grouped.setsOf {comps : SortedMap ℕ (List ℕ)} (h : Grouped rep n comps) :
    SetsOf rep n (comps.entries.map Prod.snd) := by
  have hentry : ∀ e ∈ comps.entries, e.2 ≠ [] ∧ e.2 = membersOf rep n e.1 := by
    rintro ⟨r, g⟩ he
    have hget := h r
    rw [SortedMap.get?_eq_some_iff.mpr he] at hget
    split_ifs at hget with hempty
    have hg : g = membersOf rep n r := Option.some.inj hget
    exact ⟨hg.symm ▸ hempty, hg⟩
  constructor
  · apply (List.perm_ext_iff_of_nodup ?_ List.nodup_range).mpr
    · intro x
      rw [List.mem_flatten, List.mem_range]
      constructor
      · rintro ⟨g, hg, hx⟩
        rcases List.mem_map.mp hg with ⟨e, he, rfl⟩
        rw [(hentry e he).2] at hx
        exact (mem_membersOf.mp hx).1
      · intro hx
        have hmem : x ∈ membersOf rep n (rep x) := mem_membersOf.mpr ⟨hx, rfl⟩
        have hget := h (rep x)
        rw [if_neg (List.ne_nil_of_mem hmem)] at hget
        exact ⟨_, List.mem_map_of_mem (SortedMap.get?_eq_some_iff.mp hget), hmem⟩
    · rw [List.nodup_flatten]
      constructor
      · intro g hg
        rcases List.mem_map.mp hg with ⟨e, he, rfl⟩
        rw [(hentry e he).2]
        exact nodup_membersOf ..
      · rw [List.pairwise_map]
        have hkeys : comps.entries.Pairwise fun e e' => e.1 < e'.1 :=
          List.pairwise_map.mp comps.sorted
        apply hkeys.imp_of_mem
        intro e e' he he' hlt x hx hx'
        rw [(hentry e he).2] at hx
        rw [(hentry e' he').2] at hx'
        exact hlt.ne ((mem_membersOf.mp hx).2.symm.trans (mem_membersOf.mp hx').2)
  · intro g hg
    rcases List.mem_map.mp hg with ⟨e, he, rfl⟩
    exact ⟨(hentry e he).1, e.1, (hentry e he).2⟩

def Together (groups : List (List ℕ)) (x y : ℕ) : Prop := ∃ g ∈ groups, x ∈ g ∧ y ∈ g

theorem SetsOf.together_iff (h : SetsOf rep n groups) (hx : x < n) (hy : y < n) :
    Together groups x y ↔ rep x = rep y := by
  constructor
  · rintro ⟨g, hg, hxg, hyg⟩
    rcases (h.named g hg).2 with ⟨r, rfl⟩
    exact (mem_membersOf.mp hxg).2.trans (mem_membersOf.mp hyg).2.symm
  · intro hxy
    have hall : x ∈ groups.flatten := h.partition.mem_iff.mpr (List.mem_range.mpr hx)
    rcases List.mem_flatten.mp hall with ⟨g, hg, hxg⟩
    refine ⟨g, hg, hxg, ?_⟩
    rcases (h.named g hg).2 with ⟨r, rfl⟩
    exact mem_membersOf.mpr ⟨hy, hxy.symm.trans (mem_membersOf.mp hxg).2⟩

theorem SetsOf.lt (h : SetsOf rep n groups) {g : List ℕ} (hg : g ∈ groups) (hx : x ∈ g) : x < n :=
  List.mem_range.mp (h.partition.mem_iff.mp (List.mem_flatten.mpr ⟨g, hg, hx⟩))

theorem SetsOf.length_le (h : SetsOf rep n groups) {g : List ℕ} (hg : g ∈ groups) :
    g.length ≤ n := by
  rcases (h.named g hg).2 with ⟨r, rfl⟩
  have hle := List.length_filter_le (fun x => decide (rep x = r)) (List.range n)
  rwa [List.length_range] at hle

end Sets

/-! ## The document -/

section Document

variable {fuel n : ℕ} {digs : List String} {maxDistance : UInt32} {order : HashOrder}
  {items : List Json} {groups : List (List ℕ)}

def memberDoc (items : List Json) (i : ℕ) : Json :=
  .obj [
    ("lsh", .str (digestAt (items.map digestOf) i)),
    ("session_id", ((items.getD i .null).get? "session_id").getD .null),
    ("vtid", ((items.getD i .null).get? "vtid").getD .null)]

def groupDoc (items : List Json) (g : List ℕ) : Json :=
  clusterDoc g.length (g.map (memberDoc items))

theorem returns_memberValue {i : ℕ} (h : i < items.length) :
    Returns (memberValue items (items.map digestOf) i) (· = memberDoc items i) := by
  refine (returns_index h).bind ?_
  intro item hitem
  have hdigest : i < (items.map digestOf).length := by rwa [List.length_map]
  refine (returns_digest hdigest).bind ?_
  rintro d rfl
  refine Returns.pure ?_
  unfold memberDoc
  rw [List.getD_eq_getElem?_getD, hitem, Option.getD_some]

theorem returns_clusterValues {comps : List (ℕ × List ℕ)}
    (h : ∀ c ∈ comps, c.2 ≠ [] ∧ ∀ i ∈ c.2, i < items.length) :
    Returns (clusterValues items (items.map digestOf) comps)
      (· = (comps.map Prod.snd).map (groupDoc items)) := by
  induction comps with
  | nil => exact Returns.pure rfl
  | cons c comps ih =>
      rcases c with ⟨r, members⟩
      rcases h _ List.mem_cons_self with ⟨hne, hlt⟩
      rw [clusterValues]
      refine Returns.ite (fun hempty => absurd (List.isEmpty_iff.mp hempty) hne) fun _ => ?_
      refine (returns_mapM fun i hi => returns_memberValue (hlt i hi)).bind ?_
      rintro sessions rfl
      refine (ih fun c hc => h c (List.mem_cons_of_mem _ hc)).bind ?_
      rintro rest rfl
      exact Returns.pure rfl

theorem sizeOfCluster_groupDoc {g : List ℕ} (hg : g.length < 2 ^ 63) :
    sizeOfCluster (groupDoc items g) = g.length := by
  have hsize : (groupDoc items g).get? "size" = some (ofInt g.length) := rfl
  have hfits : (0 : ℤ) ≤ g.length ∧ (g.length : ℤ) < 2 ^ 64 := by omega
  unfold sizeOfCluster
  rw [hsize, Option.bind_some, asU64_ofInt hfits, Option.getD_some, Int.toNat_natCast]

def clusterMembers (fuel : ℕ) (order : HashOrder) (items : Items) (maxDistance : UInt32) :
    List (List ℕ) :=
  match components fuel order (items.values.map digestOf) maxDistance with
  | .ok comps => (comps.map Prod.snd).mergeSort fun g h => h.length ≤ g.length
  | .error _ => []

theorem clusterMembers_pairwise (fuel : ℕ) (order : HashOrder) (items : Items)
    (maxDistance : UInt32) :
    (clusterMembers fuel order items maxDistance).Pairwise fun g h => h.length ≤ g.length := by
  unfold clusterMembers
  split
  · have hsorted := @List.pairwise_mergeSort _ (fun g h : List ℕ => decide (h.length ≤ g.length))
      (fun a b c hab hbc => by
        simp only [decide_eq_true_eq] at hab hbc ⊢
        omega)
      (fun a b => by
        simp only [Bool.or_eq_true, decide_eq_true_eq]
        omega)
    exact (hsorted _).imp of_decide_eq_true
  · exact .nil

theorem returns_components (order : HashOrder) (maxDistance : UInt32)
    (hfuel : digs.length < fuel) :
    Returns (components fuel order digs maxDistance) fun comps =>
      ∃ rep, Named digs maxDistance rep ∧ SetsOf rep digs.length (comps.map Prod.snd) := by
  refine (returns_linkAll hfuel).bind ?_
  rintro uf ⟨rep, hholds, hnamed⟩
  refine (returns_collect hholds hfuel).bind ?_
  rintro ⟨uf', comps⟩ hgrouped
  exact Returns.pure ⟨rep, hnamed, hgrouped.setsOf.perm ((order.perm _).map _)⟩

theorem clusterMembers_spec (order : HashOrder) (items : Items) (maxDistance : UInt32)
    (hfuel : items.values.length < fuel) :
    (∃ rep, Named (items.values.map digestOf) maxDistance rep ∧
      SetsOf rep items.values.length (clusterMembers fuel order items maxDistance)) ∧
    clusterByCurveLsh fuel order items maxDistance =
      .ok (report items.values.length maxDistance
        ((clusterMembers fuel order items maxDistance).map (groupDoc items.values))) := by
  have hfuel' : (items.values.map digestOf).length < fuel := by rwa [List.length_map]
  rcases returns_components order maxDistance hfuel' with
    ⟨comps, hcomps, rep, hnamed, hsets⟩
  rw [List.length_map] at hsets
  have hdocs : Returns (clusterValues items.values (items.values.map digestOf) comps)
      (· = (comps.map Prod.snd).map (groupDoc items.values)) := by
    apply returns_clusterValues
    intro c hc
    have hmem : c.2 ∈ comps.map Prod.snd := List.mem_map_of_mem hc
    exact ⟨(hsets.named _ hmem).1, fun i hi => hsets.lt hmem hi⟩
  rcases hdocs with ⟨docs, hdocs, rfl⟩
  unfold clusterMembers clusterByCurveLsh
  dsimp only
  rw [hcomps]
  refine ⟨⟨rep, hnamed, hsets.perm (List.mergeSort_perm _ _)⟩, ?_⟩
  have hsort := @List.map_mergeSort _ _
    (fun g h : List ℕ => decide (h.length ≤ g.length))
    (fun a b => decide (sizeOfCluster b ≤ sizeOfCluster a)) (groupDoc items.values)
    (comps.map Prod.snd) ?_
  · rw [hsort]
    show (clusterValues items.values (items.values.map digestOf) comps >>= _) = _
    rw [hdocs]
    rfl
  · intro g hg h hh
    have hsmall : ∀ g ∈ comps.map Prod.snd, g.length < 2 ^ 63 :=
      fun g hg => (hsets.length_le hg).trans_lt items.fits
    rw [sizeOfCluster_groupDoc (hsmall g hg), sizeOfCluster_groupDoc (hsmall h hh)]

end Document

/-! ## The law -/

section Law

variable {n : ℕ} {digs : List String} {maxDistance maxDistance' : UInt32}
  {groups groups' : List (List ℕ)} {rep rep' : ℕ → ℕ}

structure ComponentsOf (digs : List String) (maxDistance : UInt32) (groups : List (List ℕ)) :
    Prop where
  partition : groups.flatten.Perm (List.range digs.length)
  nonempty : ∀ g ∈ groups, g ≠ []
  linked : ∀ x y, digestAt digs x ≠ "" → digestAt digs y ≠ "" →
    (Together groups x y ↔ Relation.ReflTransGen (Near digs maxDistance) x y)
  alone : ∀ g ∈ groups, ∀ x ∈ g, digestAt digs x = "" → g = [x]
  largestFirst : groups.Pairwise fun g h => h.length ≤ g.length

theorem eq_of_reflTransGen_near {x y : ℕ} (h : Relation.ReflTransGen (Near digs maxDistance) x y)
    (hy : digestAt digs y = "") : x = y := by
  cases h with
  | refl => rfl
  | tail _ hnear => exact absurd hy hnear.right

theorem SetsOf.componentsOf (h : SetsOf rep digs.length groups)
    (hnamed : Named digs maxDistance rep)
    (hsorted : groups.Pairwise fun g h => h.length ≤ g.length) :
    ComponentsOf digs maxDistance groups where
  partition := h.partition
  nonempty g hg := (h.named g hg).1
  linked x y hx hy := by
    rw [h.together_iff (lt_of_digestAt hx) (lt_of_digestAt hy)]
    exact hnamed x y
  alone g hg x hx hempty := by
    have hnodup : g.Nodup := by
      rcases (h.named g hg).2 with ⟨r, rfl⟩
      exact nodup_membersOf ..
    apply List.perm_singleton.mp
    apply (List.perm_ext_iff_of_nodup hnodup (List.nodup_singleton x)).mpr
    intro y
    rw [List.mem_singleton]
    constructor
    · intro hy
      have hsame := (h.together_iff (h.lt hg hy) (h.lt hg hx)).mp ⟨g, hg, hy, hx⟩
      exact eq_of_reflTransGen_near ((hnamed y x).mp hsame) hempty
    · rintro rfl
      exact hx
  largestFirst := hsorted

theorem Named.coarser (hnamed : Named digs maxDistance rep) (hnamed' : Named digs maxDistance' rep')
    (hle : maxDistance ≤ maxDistance') (h : SetsOf rep digs.length groups)
    (h' : SetsOf rep' digs.length groups') {g : List ℕ} (hg : g ∈ groups) :
    ∃ g' ∈ groups', g ⊆ g' := by
  rcases List.exists_mem_of_ne_nil g (h.named g hg).1 with ⟨x, hx⟩
  have hxn := h.lt hg hx
  rcases (h'.together_iff hxn hxn).mpr rfl with ⟨g', hg', hx', -⟩
  refine ⟨g', hg', ?_⟩
  intro y hy
  have hsame := (h.together_iff hxn (h.lt hg hy)).mp ⟨g, hg, hx, hy⟩
  have hchain : Relation.ReflTransGen (Near digs maxDistance') x y :=
    ((hnamed x y).mp hsame).lift id fun _ _ hnear =>
      ⟨hnear.left, hnear.right, UInt32.le_trans hnear.close hle⟩
  rcases (h'.named g' hg').2 with ⟨r, rfl⟩
  rw [mem_membersOf] at hx' ⊢
  exact ⟨h.lt hg hy, ((hnamed' x y).mpr hchain).symm.trans hx'.2⟩

theorem reflTransGen_near_of_get {digs' : List String} {f : ℕ → ℕ}
    (hf : ∀ x < digs'.length, digestAt digs (f x) = digestAt digs' x) {x y : ℕ}
    (h : Relation.ReflTransGen (Near digs' maxDistance) x y) :
    Relation.ReflTransGen (Near digs maxDistance) (f x) (f y) := by
  apply h.lift f
  intro a b hnear
  have ha := hf a (lt_of_digestAt hnear.left)
  have hb := hf b (lt_of_digestAt hnear.right)
  refine ⟨?_, ?_, ?_⟩
  · rw [ha]
    exact hnear.left
  · rw [hb]
    exact hnear.right
  · rw [ha, hb]
    exact hnear.close

/-- What the clustering of sessions promises, for digests of at most `L` characters. -/
structure ClusteringLaw (L : ℕ) : Prop where
  reported : ∀ order (items : Items) maxDistance fuel, items.values.length < fuel →
    clusterByCurveLsh fuel order items maxDistance =
      .ok (report items.values.length maxDistance
        ((clusterMembers fuel order items maxDistance).map (groupDoc items.values)))
  components : ∀ order (items : Items) maxDistance fuel, items.values.length < fuel →
    ComponentsOf (items.values.map digestOf) maxDistance
      (clusterMembers fuel order items maxDistance)
  anyOrder : ∀ order order' (items items' : Items) maxDistance fuel fuel'
    (at' : Fin items'.values.length ≃ Fin items.values.length),
    items.values.length < fuel → items'.values.length < fuel' →
    (∀ x, items'.values.get x = items.values.get (at' x)) →
    ∀ x y : Fin items'.values.length,
      Together (clusterMembers fuel' order' items' maxDistance) x y ↔
        Together (clusterMembers fuel order items maxDistance) (at' x) (at' y)
  coarser : ∀ order order' (items : Items) maxDistance maxDistance' fuel,
    items.values.length < fuel → maxDistance ≤ maxDistance' →
    ∀ g ∈ clusterMembers fuel order items maxDistance,
      ∃ g' ∈ clusterMembers fuel order' items maxDistance', g ⊆ g'
  metric : DigestMetric L
  terminates : ∀ n uf, Uf.Reachable n uf → ∀ x < n, ∀ fuel > n,
    ∃ r uf', uf.find fuel x = .ok (r, uf') ∧ r < n

theorem digestAt_of_get {items items' : List Json} {x y : ℕ} (hx : x < items.length)
    (hy : y < items'.length) (h : items'.get ⟨y, hy⟩ = items.get ⟨x, hx⟩) :
    digestAt (items.map digestOf) x = digestAt (items'.map digestOf) y := by
  unfold digestAt
  rw [List.getD_eq_getElem?_getD, List.getD_eq_getElem?_getD, List.getElem?_map,
    List.getElem?_map, List.getElem?_eq_getElem hx, List.getElem?_eq_getElem hy]
  simp only [List.get_eq_getElem] at h
  rw [h]

theorem reflTransGen_near_of_equiv {items items' : List Json}
    (at' : Fin items'.length ≃ Fin items.length) (hat : ∀ x, items'.get x = items.get (at' x))
    {x y : Fin items'.length}
    (h : Relation.ReflTransGen (Near (items'.map digestOf) maxDistance) x y) :
    Relation.ReflTransGen (Near (items.map digestOf) maxDistance) (at' x) (at' y) := by
  have hmoved := @reflTransGen_near_of_get (items.map digestOf) maxDistance
    (items'.map digestOf) (fun x => if hx : x < items'.length then at' ⟨x, hx⟩ else x) ?_ x y h
  · simpa using hmoved
  · intro x hx
    rw [List.length_map] at hx
    rw [dif_pos hx]
    exact digestAt_of_get (at' ⟨x, hx⟩).isLt hx (hat ⟨x, hx⟩)

theorem clusterMembers_anyOrder {order order' : HashOrder} {items items' : Items}
    {fuel fuel' : ℕ} (at' : Fin items'.values.length ≃ Fin items.values.length)
    (hfuel : items.values.length < fuel) (hfuel' : items'.values.length < fuel')
    (hat : ∀ x, items'.values.get x = items.values.get (at' x))
    (x y : Fin items'.values.length) :
    Together (clusterMembers fuel' order' items' maxDistance) x y ↔
      Together (clusterMembers fuel order items maxDistance) (at' x) (at' y) := by
  rcases (clusterMembers_spec order items maxDistance hfuel).1 with
    ⟨rep, hnamed, hsets⟩
  rcases (clusterMembers_spec order' items' maxDistance hfuel').1 with
    ⟨rep', hnamed', hsets'⟩
  rw [hsets'.together_iff x.isLt y.isLt, hsets.together_iff (at' x).isLt (at' y).isLt, hnamed,
    hnamed']
  constructor
  · exact reflTransGen_near_of_equiv at' hat
  · intro h
    have hback : ∀ z, items.values.get z = items'.values.get (at'.symm z) := by
      intro z
      rw [hat, Equiv.apply_symm_apply]
    have hmoved := reflTransGen_near_of_equiv at'.symm hback h
    rwa [Equiv.symm_apply_apply, Equiv.symm_apply_apply] at hmoved

/-- The clustering is right for every input; the distance is a metric as long as no digest
has 2^30 characters, where the length counted in bits wraps to zero. -/
theorem clusteringLaw_iff (L : ℕ) : ClusteringLaw L ↔ L < 2 ^ 30 := by
  constructor
  · exact fun h => digestMetric_iff.mp h.metric
  · intro hL
    constructor
    · exact fun order items maxDistance fuel hfuel => (clusterMembers_spec order items maxDistance hfuel).2
    · intro order items maxDistance fuel hfuel
      rcases (clusterMembers_spec order items maxDistance hfuel).1 with
        ⟨rep, hnamed, hsets⟩
      have hlength : (items.values.map digestOf).length = items.values.length :=
        List.length_map ..
      rw [← hlength] at hsets
      exact hsets.componentsOf hnamed (clusterMembers_pairwise ..)
    · exact fun order order' items items' maxDistance fuel fuel' at' hfuel hfuel' hat x y =>
        clusterMembers_anyOrder at' hfuel hfuel' hat x y
    · intro order order' items maxDistance maxDistance' fuel hfuel hle g hg
      rcases (clusterMembers_spec order items maxDistance hfuel).1 with
        ⟨rep, hnamed, hsets⟩
      rcases (clusterMembers_spec order' items maxDistance' hfuel).1 with
        ⟨rep', hnamed', hsets'⟩
      have hlength : (items.values.map digestOf).length = items.values.length :=
        List.length_map ..
      rw [← hlength] at hsets hsets'
      exact hnamed.coarser hnamed' hle hsets hsets' hg
    · exact digestMetric_iff.mpr hL
    · intro n uf huf x hx fuel hfuel
      rcases huf.holds with ⟨rep, hrep⟩
      rcases hrep.returns_find hx hfuel with ⟨⟨r, uf'⟩, hrun, hr, -⟩
      refine ⟨r, uf', hrun, ?_⟩
      have hlt := hrep.rep_lt hx
      rwa [← hr] at hlt

/-- A digest of 2^30 zeros has the distance zero from the empty one. -/
theorem long_digest_at_distance_zero :
    LowerHex (2 ^ 30) (zeros (2 ^ 30)) ∧ LowerHex (2 ^ 30) "" ∧
      hexDigestDistance (zeros (2 ^ 30)) "" = 0 ∧ zeros (2 ^ 30) ≠ "" := by
  have hempty : "" = zeros 0 := rfl
  rw [hempty]
  refine ⟨lowerHex_zeros le_rfl, lowerHex_zeros (Nat.zero_le _), hexDigestDistance_wraps, ?_⟩
  exact fun h => absurd (zeros_injective h) (by norm_num)

end Law

end CurveLsh

end GrServer
