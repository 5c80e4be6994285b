import GrServer.LoadBalancer

/-!
# Rounds of the weighted round robin

Calls of `pickRr` with unchanged candidates and weights, one after the other,
move the cursor by one each.  Over as many calls as the weights sum up to they
lay out the blocks of the candidates, rotated by where the cursor started.
-/

namespace GrServer

namespace LoadBalancer

section Round

variable (candidates : List String) (weights : SortedMap String ℕ)

def totalWeight : ℕ := WeightedChoice.total (weightOf weights) candidates

def fallsBack (rr : ℕ) : Bool :=
  (WeightedChoice.choose (weightOf weights) candidates
    (rr % totalWeight candidates weights)).isNone

def pickCalls : ℕ → ℕ → List (ℕ × Option String)
  | 0, _ => []
  | n + 1, rr =>
      let (pick, next) := pickRr candidates weights rr
      (rr, pick) :: pickCalls n next

def roundCalls (rr : ℕ) : List (ℕ × Option String) :=
  pickCalls candidates weights (totalWeight candidates weights) rr

def roundPicks (rr : ℕ) : List (Option String) :=
  (roundCalls candidates weights rr).map Prod.snd

/-- What a round from the cursor `rr` owes to the weights. -/
structure FairRound (rr : ℕ) : Prop where
  share : ∀ id ∈ candidates,
    (roundPicks candidates weights rr).count (some id) = weightOf weights id
  rotated : roundPicks candidates weights rr =
    ((WeightedChoice.blocks (weightOf weights) candidates).rotate
      (rr % totalWeight candidates weights)).map some
  sorted : candidates.Pairwise (· < ·) →
    (WeightedChoice.blocks (weightOf weights) candidates).Pairwise (· ≤ ·)
  noFallback : ∀ call ∈ roundCalls candidates weights rr,
    fallsBack candidates weights call.1 = false

end Round

section Fairness

variable {candidates : List String} {weights : SortedMap String ℕ}

theorem totalWeight_pos (hne : candidates ≠ []) : 0 < totalWeight candidates weights :=
  WeightedChoice.total_pos hne fun id _ => weightOf_pos weights id

theorem pickRr_eq_choose (hne : candidates ≠ []) (rr : ℕ) :
    pickRr candidates weights rr =
      (WeightedChoice.choose (weightOf weights) candidates
        (rr % totalWeight candidates weights), (rr + 1) % 2 ^ 64) := by
  have hpos := @totalWeight_pos candidates weights hne
  have hsome := WeightedChoice.choose_isSome (Nat.mod_lt rr hpos)
  obtain ⟨id, hchoose⟩ := Option.isSome_iff_exists.mp hsome
  unfold pickRr
  unfold totalWeight at hpos ⊢
  dsimp only
  rw [if_neg (by omega), hchoose]

theorem pickCalls_eq (hne : candidates ≠ []) {n rr : ℕ} (hroom : rr + n ≤ 2 ^ 64) :
    pickCalls candidates weights n rr = (List.range n).map fun k =>
      (rr + k, WeightedChoice.choose (weightOf weights) candidates
        ((rr + k) % totalWeight candidates weights)) := by
  induction n generalizing rr with
  | zero => rfl
  | succ n ih =>
      rw [pickCalls, pickRr_eq_choose hne]
      dsimp only
      rw [List.range_succ_eq_map, List.map_cons, List.map_map, Nat.add_zero]
      cases n with
      | zero => rfl
      | succ n =>
          have hnext : (rr + 1) % 2 ^ 64 = rr + 1 := Nat.mod_eq_of_lt (by omega)
          have hrest : rr + 1 + (n + 1) ≤ 2 ^ 64 := by omega
          rw [hnext, ih hrest]
          congr 2
          funext k
          have hcursor : rr + 1 + k = rr + (k + 1) := by omega
          simp only [Function.comp_apply, Nat.succ_eq_add_one, hcursor]

theorem roundPicks_eq (hne : candidates ≠ []) {rr : ℕ}
    (hroom : rr + totalWeight candidates weights ≤ 2 ^ 64) :
    roundPicks candidates weights rr =
      ((WeightedChoice.blocks (weightOf weights) candidates).rotate
        (rr % totalWeight candidates weights)).map some := by
  unfold roundPicks roundCalls
  rw [pickCalls_eq hne hroom, List.map_map]
  exact WeightedChoice.round_eq_rotate candidates rr

/-- A round picks each candidate as often as it weighs. -/
theorem round_is_fair {rr : ℕ} (hne : candidates ≠ []) (hnodup : candidates.Nodup)
    (hroom : rr + totalWeight candidates weights ≤ 2 ^ 64) :
    FairRound candidates weights rr := by
  have hpicks := @roundPicks_eq candidates weights hne rr hroom
  constructor
  · intro id hid
    have hinj : Function.Injective (some : String → Option String) :=
      Option.some_injective String
    have hrotate := (List.rotate_perm (WeightedChoice.blocks (weightOf weights) candidates)
      (rr % totalWeight candidates weights)).count_eq id
    rw [hpicks, List.count_map_of_injective _ _ hinj, hrotate]
    exact WeightedChoice.count_blocks hnodup hid
  · exact hpicks
  · exact WeightedChoice.sorted_blocks
  · intro call hcall
    unfold roundCalls at hcall
    rw [pickCalls_eq hne hroom] at hcall
    obtain ⟨k, -, rfl⟩ := List.mem_map.mp hcall
    have hpos := @totalWeight_pos candidates weights hne
    have hsome := WeightedChoice.choose_isSome (Nat.mod_lt (rr + k) hpos)
    unfold fallsBack
    rw [Option.isNone_eq_false_iff]
    exact hsome

/-- Two nodes of weight two and one share three calls from the cursor five. -/
theorem round_of_three :
    FairRound ["a", "b"] (SortedMap.ofEntries [("a", 2), ("b", 0)]) 5 :=
  round_is_fair (by decide) (by decide) (by decide)

end Fairness

end LoadBalancer

end GrServer
