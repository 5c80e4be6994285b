import GrServer.SlimWalk

/-!
# Slimmed results

The keys that are dropped at the top stay away in the walk, so that slimming a
slimmed result changes nothing.
-/

namespace GrServer

open Json Text

namespace WriteAmp

/-! ## The dropped keys -/

theorem removeKeys_self {ks : List String} {members : Members}
    (h : ∀ m ∈ members, m.1 ∉ ks) : removeKeys ks members = members := by
  unfold removeKeys
  rw [List.filter_eq_self]
  intro m hm
  simpa using h m hm

theorem not_mem_of_mem_removeKeys {ks : List String} {members : Members} {m : String × Json}
    (h : m ∈ removeKeys ks members) : m ∈ members ∧ m.1 ∉ ks := by
  unfold removeKeys at h
  rw [List.mem_filter] at h
  exact ⟨h.1, by simpa using h.2⟩

theorem inObject_self {k : String} {f : Members → Members} {members : Members}
    (h : ∀ inner, (k, .obj inner) ∈ members → f inner = inner) :
    inObject k f members = members := by
  unfold inObject
  conv_rhs => rw [← List.map_id members]
  apply List.map_congr_left
  rintro ⟨j, v⟩ hm
  dsimp only [id]
  split_ifs with hk
  · cases v with
    | obj inner =>
        subst hk
        dsimp only
        rw [h inner hm]
    | _ => rfl
  · rfl

theorem mem_inObject {k : String} {f : Members → Members} {members : Members} {j : String}
    {inner : Members} (h : (j, .obj inner) ∈ inObject k f members) :
    ∃ old, (j, .obj old) ∈ members ∧ inner = if j = k then f old else old := by
  unfold inObject at h
  obtain ⟨⟨i, v⟩, hm, heq⟩ := List.mem_map.mp h
  dsimp only at heq
  split_ifs at heq with hk
  · cases v with
    | obj old =>
        cases heq
        exact ⟨old, hm, (if_pos hk).symm⟩
    | _ => cases heq
  · cases heq
    exact ⟨inner, hm, (if_neg hk).symm⟩

theorem key_of_mem_inObject {k : String} {f : Members → Members} {members : Members}
    {m : String × Json} (h : m ∈ inObject k f members) : ∃ v, (m.1, v) ∈ members := by
  unfold inObject at h
  obtain ⟨⟨i, v⟩, hm, rfl⟩ := List.mem_map.mp h
  refine ⟨v, ?_⟩
  dsimp only
  split_ifs
  · cases v <;> exact hm
  · exact hm

structure Bare (members : Members) : Prop where
  top : ∀ m ∈ members, m.1 ∉ dropTop
  diagnostics : ∀ diag, ("diagnostics", .obj diag) ∈ members → ∀ m ∈ diag, m.1 ∉ dropDiagnostics
  quality : ∀ diag, ("diagnostics", .obj diag) ∈ members →
    ∀ quality, ("analysis_quality", .obj quality) ∈ diag → ∀ m ∈ quality, m.1 ∉ dropAnalysisQuality
  brain : ∀ brain, ("brain", .obj brain) ∈ members → ∀ m ∈ brain, m.1 ∉ dropBrain

theorem bare_dropBloat (members : Members) : Bare (dropBloat members) := by
  have hdiag : ∀ diag, ("diagnostics", .obj diag) ∈ dropBloat members →
      ∃ old, diag = inObject "analysis_quality" (removeKeys dropAnalysisQuality)
        (removeKeys dropDiagnostics old) := by
    intro diag hmem
    obtain ⟨d, hd, rfl⟩ := mem_inObject hmem
    obtain ⟨old, _, rfl⟩ := mem_inObject hd
    exact ⟨old, rfl⟩
  constructor
  · intro m hm
    obtain ⟨v, hv⟩ := key_of_mem_inObject hm
    obtain ⟨w, hw⟩ := key_of_mem_inObject hv
    exact (not_mem_of_mem_removeKeys hw).2
  · intro diag hmem m hm
    obtain ⟨old, rfl⟩ := hdiag diag hmem
    obtain ⟨v, hv⟩ := key_of_mem_inObject hm
    exact (not_mem_of_mem_removeKeys hv).2
  · intro diag hmem quality hq m hm
    obtain ⟨old, rfl⟩ := hdiag diag hmem
    obtain ⟨q, _, rfl⟩ := mem_inObject hq
    exact (not_mem_of_mem_removeKeys hm).2
  · intro brain hmem m hm
    obtain ⟨old, _, rfl⟩ := mem_inObject hmem
    exact (not_mem_of_mem_removeKeys hm).2

theorem Bare.dropBloat_eq {members : Members} (h : Bare members) :
    dropBloat members = members := by
  have hquality : ∀ diag, ("diagnostics", .obj diag) ∈ members →
      inObject "analysis_quality" (removeKeys dropAnalysisQuality)
        (removeKeys dropDiagnostics diag) = diag := by
    intro diag hmem
    rw [removeKeys_self (h.diagnostics diag hmem)]
    apply inObject_self
    intro quality hq
    exact removeKeys_self (h.quality diag hmem quality hq)
  unfold dropBloat
  simp only [removeKeys_self h.top, inObject_self hquality]
  apply inObject_self
  intro brain hmem
  exact removeKeys_self (h.brain brain hmem)

theorem Bare.walked {members out : Members} (h : Bare members)
    (hwalk : slimMembers 1 members = some out) : Bare out := by
  have hinner : ∀ k inner, (k, .obj inner) ∈ out →
      ∃ old, (k, .obj old) ∈ members ∧ slimMembers 2 old = some inner := by
    intro k inner hmem
    rcases walked_of_slimMembers hwalk _ hmem with ⟨_, v, hv, hslim⟩
    obtain ⟨old, rfl, hold⟩ := slimWalk_eq_obj (by omega) hslim
    exact ⟨old, hv, hold⟩
  have hkeys : ∀ {depth : ℕ} {old inner : Members}, slimMembers depth old = some inner →
      ∀ m ∈ inner, ∃ v, (m.1, v) ∈ old := by
    intro depth old inner hslim m hm
    rcases walked_of_slimMembers hslim m hm with ⟨_, v, hv, _⟩
    exact ⟨v, hv⟩
  constructor
  · intro m hm
    obtain ⟨v, hv⟩ := hkeys hwalk m hm
    exact h.top (m.1, v) hv
  · intro diag hmem m hm
    rcases hinner _ _ hmem with ⟨old, hold, hslim⟩
    obtain ⟨v, hv⟩ := hkeys hslim m hm
    exact h.diagnostics old hold (m.1, v) hv
  · intro diag hmem quality hq m hm
    rcases hinner _ _ hmem with ⟨old, hold, hslim⟩
    rcases walked_of_slimMembers hslim _ hq with ⟨_, v, hv, hquality⟩
    obtain ⟨oldQuality, rfl, hinside⟩ := slimWalk_eq_obj (by omega) hquality
    obtain ⟨w, hw⟩ := hkeys hinside m hm
    exact h.quality old hold oldQuality hv (m.1, w) hw
  · intro brain hmem m hm
    rcases hinner _ _ hmem with ⟨old, hold, hslim⟩
    obtain ⟨v, hv⟩ := hkeys hslim m hm
    exact h.brain old hold (m.1, v) hv

theorem mem_of_mem_insert {k : String} {v : Json} {members : Members} {m : String × Json}
    (h : m ∈ Assoc.insert k v members) : m = (k, v) ∨ m ∈ members := by
  induction members with
  | nil => simpa [Assoc.insert] using h
  | cons entry rest ih =>
      obtain ⟨j, w⟩ := entry
      unfold Assoc.insert at h
      split_ifs at h with hlt heq
      · rwa [List.mem_cons] at h
      · rcases List.mem_cons.mp h with rfl | hrest
        · exact Or.inl rfl
        · exact Or.inr (List.mem_cons_of_mem _ hrest)
      · rcases List.mem_cons.mp h with rfl | hrest
        · exact Or.inr List.mem_cons_self
        · rcases ih hrest with hnew | hold
          · exact Or.inl hnew
          · exact Or.inr (List.mem_cons_of_mem _ hold)

theorem insert_insert (k : String) (v : Json) (members : Members) :
    Assoc.insert k v (Assoc.insert k v members) = Assoc.insert k v members := by
  induction members with
  | nil => simp [Assoc.insert]
  | cons entry rest ih =>
      obtain ⟨j, w⟩ := entry
      by_cases hlt : k < j
      · simp [Assoc.insert, hlt]
      · by_cases heq : k = j
        · simp [Assoc.insert, heq]
        · simp [Assoc.insert, hlt, heq, ih]

theorem Bare.insert_storage {members : Members} (h : Bare members) :
    Bare (Assoc.insert "_storage" (.str "slim_v1") members) := by
  have hobject : ∀ {k : String} {inner : Members},
      (k, .obj inner) ∈ Assoc.insert "_storage" (.str "slim_v1") members →
        (k, .obj inner) ∈ members := by
    intro k inner hmem
    rcases mem_of_mem_insert hmem with hnew | hold
    · cases hnew
    · exact hold
  constructor
  · intro m hm
    rcases mem_of_mem_insert hm with rfl | hold
    · decide
    · exact h.top m hold
  · intro diag hmem
    exact h.diagnostics diag (hobject hmem)
  · intro diag hmem
    exact h.quality diag (hobject hmem)
  · intro brain hmem
    exact h.brain brain (hobject hmem)

/-- What is walked: the result without the keys dropped at the top. -/
def trimmedDown : Json → Json
  | .obj members => .obj (dropBloat members)
  | v => v

/-- The result is slimmed without a panic, slimming it once more changes nothing,
and every member it keeps is within its caps. -/
structure SlimSound (result slim : Json) : Prop where
  returned : slimAnalysisResultForStorage result = some slim
  again : slimAnalysisResultForStorage slim = some slim
  capped : ∀ k x, HasMember 0 slim k x → Capped k x

theorem slim_eq (result : Json) : slimAnalysisResultForStorage result =
    (slimWalk 0 none (trimmedDown result)).map
      fun v => v.setMember "_storage" (.str "slim_v1") := by
  cases result <;> rfl

theorem slimSound_of_walk {result w : Json} (hwalk : slimWalk 0 none (trimmedDown result) = some w) :
    SlimSound result (w.setMember "_storage" (.str "slim_v1")) := by
  have hreturned : slimAnalysisResultForStorage result =
      some (w.setMember "_storage" (.str "slim_v1")) := by
    rw [slim_eq, hwalk]
    rfl
  have hwalked : Walked 0 none w := ⟨_, hwalk⟩
  cases w with
  | obj members =>
      obtain ⟨old, hold, hout⟩ := slimWalk_eq_obj (by omega) hwalk
      have hbare : Bare members := by
        cases result with
        | obj whole =>
            cases hold
            exact (bare_dropBloat whole).walked hout
        | _ => cases hold
      have hfixed : slimWalk 0 none
          (.obj (Assoc.insert "_storage" (.str "slim_v1") members)) =
            some (.obj (Assoc.insert "_storage" (.str "slim_v1") members)) := by
        rw [slimWalk_obj, if_neg (by omega), slimMembers_self, Option.map_some]
        intro m hm
        rcases mem_of_mem_insert hm with rfl | hkept
        · exact ⟨by decide, by decide⟩
        · rcases walked_obj (by omega) hwalked m hkept with ⟨hkeep, hmember⟩
          exact ⟨hkeep, hmember.again⟩
      refine ⟨hreturned, ?_, ?_⟩
      · change (slimWalk 0 none (.obj (dropBloat
          (Assoc.insert "_storage" (.str "slim_v1") members)))).map _ = _
        rw [hbare.insert_storage.dropBloat_eq, hfixed, Option.map_some]
        exact congrArg (fun l => some (Json.obj l)) (insert_insert _ _ members)
      · intro k x hmember
        exact hmember.capped ⟨_, hfixed⟩
  | _ =>
      refine ⟨hreturned, ?_, ?_⟩
      · rw [slim_eq]
        exact congrArg (Option.map fun v => v.setMember "_storage" (.str "slim_v1"))
          hwalked.again
      · intro k x hmember
        exact hmember.capped hwalked

theorem slimSound_iff (result : Json) :
    (∃ slim, SlimSound result slim) ↔
      ∀ s, Visits 0 none (trimmedDown result) s → Cuttable s := by
  rw [← slimWalk_isSome, Option.isSome_iff_exists]
  constructor
  · rintro ⟨slim, hsound⟩
    have hreturned := hsound.returned
    rw [slim_eq] at hreturned
    exact (Option.map_eq_some_iff.mp hreturned).imp fun _ h => h.1
  · rintro ⟨w, hw⟩
    exact ⟨_, slimSound_of_walk hw⟩

end WriteAmp

end GrServer
