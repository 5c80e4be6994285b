import GrServer.WriteAmp

/-!
# The slimming walk

The walk fails only where it cuts a string inside a character.  What it returns
keeps the caps and is left as it is by a second walk.
-/

namespace GrServer

open Json Text

namespace WriteAmp

theorem length_asBytes_ofList (cs : Text) :
    (asBytes (String.ofList cs)).length = (cs.map Char.utf8Size).sum := by
  rw [asBytes_eq_flatMap, String.toList_ofList, List.length_flatMap]
  simp

theorem size_of_sliceTo {n : ℕ} {cs head : Text} (h : sliceTo n cs = some head) :
    (head.map Char.utf8Size).sum = n := by
  induction cs generalizing n head with
  | nil =>
      cases n with
      | zero =>
          cases h
          rfl
      | succ n => cases h
  | cons c cs ih =>
      cases n with
      | zero =>
          cases h
          rfl
      | succ n =>
          unfold sliceTo at h
          split_ifs at h with hfits
          obtain ⟨tail, htail, rfl⟩ := Option.map_eq_some_iff.mp h
          rw [List.map_cons, List.sum_cons, ih htail]
          omega

theorem size_le (cs : Text) : (cs.map Char.utf8Size).sum ≤ 4 * cs.length := by
  induction cs with
  | nil => simp
  | cons c cs ih =>
      have hc := c.utf8Size_le_four
      rw [List.map_cons, List.sum_cons, List.length_cons]
      omega

/-- A string the slice at byte 512 does not panic on, or that is not cut. -/
def Cuttable (s : String) : Prop :=
  (asBytes s).length ≤ 4096 ∨ (sliceTo 512 s.toList).isSome

theorem cutString_of_short {s : String} (h : (asBytes s).length ≤ 4096) :
    cutString s = some s := by
  unfold cutString
  rw [if_neg (by omega)]

theorem cutString_short {s s' : String} (h : cutString s = some s') :
    (asBytes s').length ≤ 4096 := by
  unfold cutString at h
  dsimp only at h
  split_ifs at h with hlong
  · obtain ⟨head, hhead, rfl⟩ := Option.map_eq_some_iff.mp h
    have hsize := size_of_sliceTo hhead
    have hdigits : ((asBytes s).length % 2 ^ 64).repr.toList.length ≤ 20 := by
      rw [String.length_toList]
      apply Nat.repr_length _ _ (by omega)
      have hmod := Nat.mod_lt (asBytes s).length (show 0 < 2 ^ 64 by decide)
      exact hmod.trans (by decide)
    have hmark := size_le ("…[trunc:".toList ++
      ((asBytes s).length % 2 ^ 64).repr.toList ++ "]".toList)
    have hlength : ("…[trunc:".toList ++ ((asBytes s).length % 2 ^ 64).repr.toList ++
        "]".toList).length ≤ 29 := by
      simp only [List.length_append]
      have hopen : "…[trunc:".toList.length = 8 := by decide
      have hclose : "]".toList.length = 1 := by decide
      omega
    rw [length_asBytes_ofList, List.append_assoc, List.append_assoc, List.map_append,
      List.sum_append, hsize]
    rw [List.append_assoc] at hmark hlength
    omega
  · cases h
    omega

theorem cutString_isSome {s : String} : (cutString s).isSome = true ↔ Cuttable s := by
  unfold cutString Cuttable
  dsimp only
  split_ifs with hlong
  · rw [Option.isSome_map, or_iff_right (by omega)]
  · exact iff_of_true rfl (Or.inl (by omega))

theorem slimItems_cons (depth limit : ℕ) (item : Json) (rest : List Json) :
    slimItems depth (limit + 1) (item :: rest) = (slimWalk depth none item).bind fun item =>
      (slimItems depth limit rest).map (item :: ·) :=
  rfl

theorem slimMembers_cons (depth : ℕ) (k : String) (v : Json) (rest : Members) :
    slimMembers depth ((k, v) :: rest) =
      if dropAny.contains k then slimMembers depth rest
      else (slimWalk depth (some k) v).bind fun v =>
        (slimMembers depth rest).map ((k, v) :: ·) :=
  rfl

theorem slimItems_isSome {depth limit : ℕ} {items : List Json} :
    (slimItems depth limit items).isSome = true ↔
      ∀ v ∈ items.take limit, (slimWalk depth none v).isSome = true := by
  induction items generalizing limit with
  | nil => cases limit <;> simp [slimItems]
  | cons item rest ih =>
      cases limit with
      | zero => simp [slimItems]
      | succ limit =>
          rw [List.take_succ_cons, List.forall_mem_cons, ← ih, slimItems_cons]
          cases slimWalk depth none item <;> simp

theorem slimMembers_isSome {depth : ℕ} {members : Members} :
    (slimMembers depth members).isSome = true ↔
      ∀ m ∈ members, m.1 ∉ dropAny → (slimWalk depth (some m.1) m.2).isSome = true := by
  induction members with
  | nil => simp [slimMembers]
  | cons m rest ih =>
      obtain ⟨k, v⟩ := m
      rw [List.forall_mem_cons, ← ih, slimMembers_cons]
      by_cases hdrop : k ∈ dropAny
      · simp [hdrop]
      · cases slimWalk depth (some k) v <;> simp [hdrop]

/-- `w` is what the walk makes of some value. -/
def Walked (depth : ℕ) (key : Option String) (w : Json) : Prop :=
  ∃ v, slimWalk depth key v = some w

theorem walked_of_slimItems {depth limit : ℕ} {items out : List Json}
    (h : slimItems depth limit items = some out) :
    out.length ≤ limit ∧ out.length ≤ items.length ∧ ∀ v ∈ out, Walked depth none v := by
  induction items generalizing limit out with
  | nil =>
      cases limit <;> cases h <;> simp
  | cons item rest ih =>
      cases limit with
      | zero =>
          cases h
          simp
      | succ limit =>
          rw [slimItems_cons] at h
          obtain ⟨v, hv, h⟩ := Option.bind_eq_some_iff.mp h
          obtain ⟨tail, htail, rfl⟩ := Option.map_eq_some_iff.mp h
          rcases ih htail with ⟨hlimit, hlength, hwalked⟩
          simp only [List.length_cons]
          exact ⟨by omega, by omega, List.forall_mem_cons.mpr ⟨⟨item, hv⟩, hwalked⟩⟩

theorem walked_of_slimMembers {depth : ℕ} {members out : Members}
    (h : slimMembers depth members = some out) :
    ∀ m ∈ out, m.1 ∉ dropAny ∧ ∃ v, (m.1, v) ∈ members ∧
      slimWalk depth (some m.1) v = some m.2 := by
  induction members generalizing out with
  | nil =>
      cases h
      simp
  | cons m rest ih =>
      obtain ⟨k, v⟩ := m
      rw [slimMembers_cons] at h
      by_cases hdrop : dropAny.contains k = true
      · rw [if_pos hdrop] at h
        intro m hm
        rcases ih h m hm with ⟨hkept, w, hw, hwalk⟩
        exact ⟨hkept, w, List.mem_cons_of_mem _ hw, hwalk⟩
      · rw [if_neg hdrop] at h
        obtain ⟨w, hw, h⟩ := Option.bind_eq_some_iff.mp h
        obtain ⟨tail, htail, rfl⟩ := Option.map_eq_some_iff.mp h
        rw [List.forall_mem_cons]
        refine ⟨⟨by simpa using hdrop, v, List.mem_cons_self, hw⟩, ?_⟩
        intro m hm
        rcases ih htail m hm with ⟨hkept, w', hw', hwalk⟩
        exact ⟨hkept, w', List.mem_cons_of_mem _ hw', hwalk⟩

/-! ## A second walk -/

theorem slimItems_self {depth limit : ℕ} {items : List Json} (hlength : items.length ≤ limit)
    (h : ∀ v ∈ items, slimWalk depth none v = some v) :
    slimItems depth limit items = some items := by
  induction items generalizing limit with
  | nil => cases limit <;> rfl
  | cons item rest ih =>
      cases limit with
      | zero => simp at hlength
      | succ limit =>
          rw [List.forall_mem_cons] at h
          simp only [List.length_cons] at hlength
          rw [slimItems_cons, h.1, Option.bind_some, ih (by omega) h.2, Option.map_some]

theorem slimMembers_self {depth : ℕ} {members : Members}
    (h : ∀ m ∈ members, m.1 ∉ dropAny ∧ slimWalk depth (some m.1) m.2 = some m.2) :
    slimMembers depth members = some members := by
  induction members with
  | nil => rfl
  | cons m rest ih =>
      obtain ⟨k, v⟩ := m
      rw [List.forall_mem_cons] at h
      rcases h with ⟨⟨hkept, hwalk⟩, hrest⟩
      rw [slimMembers_cons, if_neg (by simpa using hkept), hwalk, Option.bind_some,
        ih hrest, Option.map_some]

theorem cappedLength_self {key : Option String} {n m : ℕ} (h : m ≤ cappedLength key n) :
    cappedLength key m = m := by
  unfold cappedLength at h ⊢
  split at h
  · exact min_eq_right (h.trans (min_le_left _ _))
  · rfl

theorem softCap_self {depth n m : ℕ} (h : m ≤ softCap depth n) : softCap depth m = m := by
  unfold softCap at h ⊢
  split_ifs at h ⊢ <;> omega

theorem slimWalk_str (depth : ℕ) (key : Option String) (s : String) :
    slimWalk depth key (.str s) =
      if key.isSome then (cutString s).map .str else some (.str s) :=
  rfl

theorem slimWalk_arr (depth : ℕ) (key : Option String) (items : List Json) :
    slimWalk depth key (.arr items) =
      if 12 < depth then some (.arr (items.take (cappedLength key items.length)))
      else (slimItems (depth + 1) (softCap depth (cappedLength key items.length)) items).map
        .arr :=
  rfl

theorem slimWalk_obj (depth : ℕ) (key : Option String) (members : Members) :
    slimWalk depth key (.obj members) =
      if 12 < depth then some (.obj members)
      else (slimMembers (depth + 1) members).map .obj :=
  rfl

theorem slimWalk_keyed (depth : ℕ) (k s : String) :
    slimWalk depth (some k) (.str s) = (cutString s).map .str :=
  rfl

def shape : Json → ℕ
  | .null => 0
  | .bool _ => 1
  | .num _ => 2
  | .str _ => 3
  | .arr _ => 4
  | .obj _ => 5

theorem slimWalk_shape {depth : ℕ} {key : Option String} {v w : Json}
    (h : slimWalk depth key v = some w) : shape v = shape w := by
  cases v with
  | str s =>
      rw [slimWalk_str] at h
      split_ifs at h
      · obtain ⟨_, _, rfl⟩ := Option.map_eq_some_iff.mp h
        rfl
      · cases h
        rfl
  | arr items =>
      rw [slimWalk_arr] at h
      split_ifs at h
      · cases h
        rfl
      · obtain ⟨_, _, rfl⟩ := Option.map_eq_some_iff.mp h
        rfl
  | obj members =>
      rw [slimWalk_obj] at h
      split_ifs at h
      · cases h
        rfl
      · obtain ⟨_, _, rfl⟩ := Option.map_eq_some_iff.mp h
        rfl
  | null | bool _ | num _ =>
      cases h
      rfl

theorem walked_str {depth : ℕ} {k s : String} (h : Walked depth (some k) (.str s)) :
    (asBytes s).length ≤ 4096 := by
  rcases h with ⟨v, hv⟩
  cases v with
  | str old =>
      rw [slimWalk_keyed] at hv
      obtain ⟨out, hout, heq⟩ := Option.map_eq_some_iff.mp hv
      cases heq
      exact cutString_short hout
  | _ => exact absurd (slimWalk_shape hv) (by simp [shape])

theorem walked_arr {depth : ℕ} {key : Option String} {items : List Json}
    (h : Walked depth key (.arr items)) :
    cappedLength key items.length = items.length ∧
      (depth ≤ 12 → softCap depth items.length = items.length ∧
        ∀ v ∈ items, Walked (depth + 1) none v) := by
  rcases h with ⟨v, hv⟩
  cases v with
  | arr old =>
      rw [slimWalk_arr] at hv
      split_ifs at hv with hdeep
      · cases hv
        refine ⟨cappedLength_self (List.length_take_le _ _), ?_⟩
        intro hshallow
        omega
      · obtain ⟨out, hout, heq⟩ := Option.map_eq_some_iff.mp hv
        cases heq
        rcases walked_of_slimItems hout with ⟨hlimit, _, hwalked⟩
        have hsoft : softCap depth (cappedLength key old.length) ≤ cappedLength key old.length := by
          unfold softCap
          split_ifs <;> omega
        exact ⟨cappedLength_self (hlimit.trans hsoft),
          fun _ => ⟨softCap_self hlimit, hwalked⟩⟩
  | _ => exact absurd (slimWalk_shape hv) (by simp [shape])

theorem slimWalk_eq_obj {depth : ℕ} {key : Option String} {v : Json} {members : Members}
    (hdepth : depth ≤ 12) (h : slimWalk depth key v = some (.obj members)) :
    ∃ old, v = .obj old ∧ slimMembers (depth + 1) old = some members := by
  cases v with
  | obj old =>
      rw [slimWalk_obj, if_neg (by omega)] at h
      obtain ⟨out, hout, heq⟩ := Option.map_eq_some_iff.mp h
      cases heq
      exact ⟨old, rfl, hout⟩
  | _ => exact absurd (slimWalk_shape h) (by simp [shape])

theorem walked_obj {depth : ℕ} {key : Option String} {members : Members} (hdepth : depth ≤ 12)
    (h : Walked depth key (.obj members)) :
    ∀ m ∈ members, m.1 ∉ dropAny ∧ Walked (depth + 1) (some m.1) m.2 := by
  rcases h with ⟨v, hv⟩
  rcases slimWalk_eq_obj hdepth hv with ⟨old, _, hout⟩
  intro m hm
  rcases walked_of_slimMembers hout m hm with ⟨hkept, w, _, hwalk⟩
  exact ⟨hkept, w, hwalk⟩

theorem Walked.again {depth : ℕ} {key : Option String} {w : Json} (h : Walked depth key w) :
    slimWalk depth key w = some w := by
  induction w using Json.induct generalizing depth key with
  | null => rfl
  | bool b => rfl
  | num n => rfl
  | str s =>
      cases key with
      | none => rfl
      | some k =>
          rw [slimWalk_keyed, cutString_of_short (walked_str h)]
          rfl
  | arr items ih =>
      rcases walked_arr h with ⟨hcap, hwalked⟩
      rw [slimWalk_arr, hcap]
      split_ifs with hdeep
      · rw [List.take_length]
      · rcases hwalked (by omega) with ⟨hsoft, hitems⟩
        rw [hsoft, slimItems_self le_rfl fun v hv => ih v hv (hitems v hv)]
        rfl
  | obj members ih =>
      rw [slimWalk_obj]
      split_ifs with hdeep
      · rfl
      · have hmembers := walked_obj (by omega) h
        rw [slimMembers_self fun m hm => ⟨(hmembers m hm).1, ih m hm (hmembers m hm).2⟩]
        rfl

/-- The walk of `v` comes to the string `s` under a key. -/
inductive Visits : ℕ → Option String → Json → String → Prop where
  | str {depth : ℕ} {k s : String} : Visits depth (some k) (.str s) s
  | item {depth : ℕ} {key : Option String} {items : List Json} {v : Json} {s : String}
      (hdepth : depth ≤ 12)
      (hmem : v ∈ items.take (softCap depth (cappedLength key items.length)))
      (h : Visits (depth + 1) none v s) : Visits depth key (.arr items) s
  | member {depth : ℕ} {key : Option String} {members : Members} {m : String × Json} {s : String}
      (hdepth : depth ≤ 12) (hmem : m ∈ members) (hkept : m.1 ∉ dropAny)
      (h : Visits (depth + 1) (some m.1) m.2 s) : Visits depth key (.obj members) s

theorem slimWalk_isSome {depth : ℕ} {key : Option String} {v : Json} :
    (slimWalk depth key v).isSome = true ↔ ∀ s, Visits depth key v s → Cuttable s := by
  induction v using Json.induct generalizing depth key with
  | null | bool _ | num _ =>
      refine iff_of_true rfl ?_
      rintro s ⟨⟩
  | str s =>
      cases key with
      | none =>
          refine iff_of_true rfl ?_
          rintro s ⟨⟩
      | some k =>
          rw [slimWalk_keyed, Option.isSome_map, cutString_isSome]
          constructor
          · rintro hcut s ⟨⟩
            exact hcut
          · intro hall
            exact hall s Visits.str
  | arr items ih =>
      rw [slimWalk_arr]
      split_ifs with hdeep
      · refine iff_of_true rfl ?_
        rintro s ⟨⟩
        omega
      · rw [Option.isSome_map, slimItems_isSome]
        constructor
        · intro hall s hvisit
          cases hvisit with
          | item hdepth hmem hvisit =>
              exact (ih _ (List.mem_of_mem_take hmem)).mp (hall _ hmem) s hvisit
        · intro hall v hv
          rw [ih v (List.mem_of_mem_take hv)]
          intro s hvisit
          exact hall s (Visits.item (by omega) hv hvisit)
  | obj members ih =>
      rw [slimWalk_obj]
      split_ifs with hdeep
      · refine iff_of_true rfl ?_
        rintro s ⟨⟩
        omega
      · rw [Option.isSome_map, slimMembers_isSome]
        constructor
        · intro hall s hvisit
          cases hvisit with
          | member hdepth hmem hkept hvisit =>
              exact (ih _ hmem).mp (hall _ hmem hkept) s hvisit
        · intro hall m hm hkept
          rw [ih m hm]
          intro s hvisit
          exact hall s (Visits.member (by omega) hm hkept hvisit)

inductive HasMember : ℕ → Json → String → Json → Prop where
  | here {depth : ℕ} {members : Members} {k : String} {x : Json}
      (hdepth : depth ≤ 12) (hmem : (k, x) ∈ members) : HasMember depth (.obj members) k x
  | item {depth : ℕ} {items : List Json} {v : Json} {k : String} {x : Json}
      (hdepth : depth ≤ 12) (hmem : v ∈ items) (h : HasMember (depth + 1) v k x) :
      HasMember depth (.arr items) k x
  | member {depth : ℕ} {members : Members} {m : String × Json} {k : String} {x : Json}
      (hdepth : depth ≤ 12) (hmem : m ∈ members) (h : HasMember (depth + 1) m.2 k x) :
      HasMember depth (.obj members) k x

structure Capped (k : String) (x : Json) : Prop where
  kept : k ∉ dropAny
  array : ∀ cap, capArrays.lookup k = some cap → ∀ items, x = .arr items → items.length ≤ cap
  string : ∀ s, x = .str s → (asBytes s).length ≤ 4096

theorem Walked.capped {depth : ℕ} {k : String} {x : Json} (hkept : k ∉ dropAny)
    (h : Walked depth (some k) x) : Capped k x := by
  refine ⟨hkept, ?_, ?_⟩
  · rintro cap hcap items rfl
    have hlength := (walked_arr h).1
    unfold cappedLength at hlength
    rw [Option.bind_some, hcap] at hlength
    exact min_eq_right_iff.mp hlength
  · rintro s rfl
    exact walked_str h

theorem HasMember.capped {depth : ℕ} {w : Json} {k : String} {x : Json}
    (h : HasMember depth w k x) {key : Option String} (hwalked : Walked depth key w) :
    Capped k x := by
  induction h generalizing key with
  | here hdepth hmem =>
      rcases walked_obj hdepth hwalked _ hmem with ⟨hkept, hmember⟩
      exact hmember.capped hkept
  | item hdepth hmem h ih => exact ih (((walked_arr hwalked).2 hdepth).2 _ hmem)
  | member hdepth hmem h ih => exact ih (walked_obj hdepth hwalked _ hmem).2

end WriteAmp

end GrServer
