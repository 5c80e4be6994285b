import Mathlib.Data.List.Basic
import Mathlib.Data.Rat.Floor

/-!
# Helper data for curve digests

A curve is quantised to sixty-four levels and cut into blocks of four.  The
helper data is one parity word for each block.  A later probe is read against
the helper of the first one: where a block's parity differs, the symbol in its
middle is moved by one step if that restores the parity.
-/

namespace GrServer

namespace FuzzyEcc

def fuzzyEccAlgo : String := "fuzzy_ecc_v1"

def blockLen : ℕ := 4

def qLevels : ℕ := 64

/-- The pieces of `blockLen` symbols in order; the last may be shorter. -/
def chunks {α : Type} (xs : List α) : List (List α) :=
  (List.range ((xs.length + blockLen - 1) / blockLen)).map fun j =>
    (xs.drop (blockLen * j)).take blockLen

@[simp] theorem chunks_nil {α : Type} : chunks ([] : List α) = [] := by
  simp [chunks, blockLen]

theorem chunks_of_ne_nil {α : Type} {xs : List α} (h : xs ≠ []) :
    chunks xs = xs.take blockLen :: chunks (xs.drop blockLen) := by
  have hpos : 0 < xs.length := List.length_pos_of_ne_nil h
  have hcount : (xs.length + blockLen - 1) / blockLen =
      ((xs.drop blockLen).length + blockLen - 1) / blockLen + 1 := by
    simp only [blockLen, List.length_drop]
    omega
  unfold chunks
  rw [hcount, List.range_succ_eq_map, List.map_cons, List.map_map]
  simp only [blockLen, Nat.mul_zero, List.drop_zero, List.drop_drop,
    List.length_drop, Function.comp_def, Nat.mul_succ, Nat.add_comm]

def round (t : ℚ) : ℤ := ⌊t + 1 / 2⌋

def quantize (xs : List ℚ) : List UInt16 :=
  match xs.min?, xs.max? with
  | some low, some high =>
      let span := max (high - low) (1 / 1000000000000)
      xs.map fun x =>
        UInt16.ofNat
          (max 0 (min (round ((x - low) / span * (qLevels - 1))) (qLevels - 1))).toNat
  | _, _ => []

def parity (chunk : List UInt16) : UInt16 :=
  chunk.foldl (· ^^^ ·) 0

def helperFromCodes (codes : List UInt16) : List UInt16 :=
  (chunks codes).map parity

def saturatingAdd (a b : UInt16) : UInt16 :=
  if a.toNat + b.toNat < 2 ^ 16 then a + b else 65535

def saturatingSub (a b : UInt16) : UInt16 :=
  if b ≤ a then a - b else 0

def tryUp (cur : UInt16) : UInt16 :=
  min (saturatingAdd cur 1) (UInt16.ofNat qLevels - 1)

def tryDown (cur : UInt16) : UInt16 :=
  saturatingSub cur 1

def stabilizeChunk (want : UInt16) (chunk : List UInt16) : List UInt16 :=
  if parity chunk = want then chunk
  else
    let i := chunk.length / 2
    let cur := chunk.getD i 0
    let up := chunk.set i (tryUp cur)
    let down := chunk.set i (tryDown cur)
    if parity up = want then up
    else if parity down = want then down
    else chunk

def stabilizeCodes (raw helper : List UInt16) : List UInt16 :=
  ((chunks raw).mapIdx fun bi chunk =>
    stabilizeChunk (helper.getD bi 0) chunk).flatten

section Digests

variable (sha256Hex : List UInt8 → String)

def digestCodes (tag : String) (codes : List UInt16) : String :=
  let bytes := fuzzyEccAlgo.toUTF8.toList ++ "|".toUTF8.toList ++
    tag.toUTF8.toList ++ "|".toUTF8.toList ++
    codes.flatMap fun (c : UInt16) => [c.toUInt8, (c >>> 8).toUInt8]
  String.ofList ((sha256Hex bytes).toList.take 16)

structure FuzzyMaterials where
  channel : String
  stableDigest : String
  rawDigest : String
  helper : List UInt16
  helperN : ℕ
  codeN : ℕ
  boundaryFlipRisk : Bool
deriving Repr, DecidableEq

def fuzzyStabilizeCurve (tag : String) (curve : List ℚ)
    (priorHelper : Option (List UInt16))  :
    Except String FuzzyMaterials :=
  if curve.length < 8 then .error "short_curve"
  else
    let codes := quantize curve
    let helper := match priorHelper with
      | some h =>
          if h.length = (codes.length + blockLen - 1) / blockLen then h
          else helperFromCodes codes
      | none => helperFromCodes codes
    let stable := stabilizeCodes codes helper
    let dig := digestCodes sha256Hex tag stable
    let rawDig := digestCodes sha256Hex (tag ++ "_raw") codes
    .ok
      { channel := tag
        stableDigest := dig
        rawDigest := rawDig
        helper := helper
        helperN := helper.length
        codeN := stable.length
        boundaryFlipRisk := dig != rawDig }

end Digests

section Parity

theorem foldl_xor (chunk : List UInt16) (a : UInt16) :
    chunk.foldl (· ^^^ ·) a = a ^^^ parity chunk := by
  unfold parity
  induction chunk generalizing a with
  | nil => simp
  | cons c rest ih =>
      simp only [List.foldl_cons, UInt16.zero_xor]
      rw [ih (a ^^^ c), ih c, UInt16.xor_assoc]

@[simp] theorem parity_cons (c : UInt16) (rest : List UInt16) :
    parity (c :: rest) = c ^^^ parity rest := by
  rw [← foldl_xor rest c]
  simp [parity]

theorem parity_set_inj {chunk : List UInt16} {i : ℕ} (hi : i < chunk.length)
    {a b : UInt16} :
    parity (chunk.set i a) = parity (chunk.set i b) ↔ a = b := by
  induction chunk generalizing i with
  | nil => simp at hi
  | cons c rest ih =>
      cases i with
      | zero => simp [UInt16.xor_left_inj]
      | succ i =>
          have hrest : i < rest.length := by simpa using hi
          simp [UInt16.xor_right_inj, ih hrest]

end Parity

section Steps

theorem tryUp_eq {a b : UInt16} (h : b.toNat = a.toNat + 1)
    (hb : b.toNat < qLevels) : tryUp a = b := by
  have hfit : a.toNat + (1 : UInt16).toNat < 2 ^ 16 := by
    simp only [qLevels] at hb
    simp
    omega
  have hsucc : saturatingAdd a 1 = b := by
    apply UInt16.toNat_inj.mp
    simp only [saturatingAdd, if_pos hfit, UInt16.toNat_add, Nat.mod_eq_of_lt hfit]
    simp [h]
  have hle : b ≤ UInt16.ofNat qLevels - 1 := by
    rw [UInt16.le_iff_toNat_le]
    simp only [qLevels] at hb ⊢
    simp
    omega
  rw [tryUp, hsucc]
  exact if_pos hle

theorem tryDown_eq {a b : UInt16} (h : b.toNat + 1 = a.toNat) :
    tryDown a = b := by
  have hle : (1 : UInt16) ≤ a := by
    rw [UInt16.le_iff_toNat_le]
    simp
    omega
  apply UInt16.toNat_inj.mp
  simp only [tryDown, saturatingSub, if_pos hle, UInt16.toNat_sub_of_le _ _ hle]
  simp
  omega

theorem tryUp_lt (a : UInt16) : (tryUp a).toNat < qLevels := by
  have hle : tryUp a ≤ UInt16.ofNat qLevels - 1 := by
    change (if _ then _ else _) ≤ _
    split
    · assumption
    · exact UInt16.le_refl _
  rw [UInt16.le_iff_toNat_le] at hle
  simp only [qLevels] at hle ⊢
  simp at hle
  omega

theorem tryDown_le (a : UInt16) : (tryDown a).toNat ≤ a.toNat := by
  unfold tryDown saturatingSub
  split
  · rename_i hle
    rw [UInt16.toNat_sub_of_le _ _ hle]
    omega
  · simp

end Steps

section Chunk

variable {want : UInt16} {chunk : List UInt16}

theorem stabilizeChunk_of_parity (h : parity chunk = want) :
    stabilizeChunk want chunk = chunk := by
  simp [stabilizeChunk, h]

theorem stabilizeChunk_cases (want : UInt16) (chunk : List UInt16) :
    stabilizeChunk want chunk = chunk ∨
      ∃ x, (x = tryUp (chunk.getD (chunk.length / 2) 0) ∨
          x = tryDown (chunk.getD (chunk.length / 2) 0)) ∧
        stabilizeChunk want chunk = chunk.set (chunk.length / 2) x ∧
        parity (chunk.set (chunk.length / 2) x) = want := by
  unfold stabilizeChunk
  split
  · exact .inl rfl
  · simp only
    split
    · rename_i hup
      exact .inr ⟨_, .inl rfl, rfl, hup⟩
    · split
      · rename_i hdown
        exact .inr ⟨_, .inr rfl, rfl, hdown⟩
      · exact .inl rfl

@[simp] theorem length_stabilizeChunk (want : UInt16) (chunk : List UInt16) :
    (stabilizeChunk want chunk).length = chunk.length := by
  rcases stabilizeChunk_cases want chunk with h | ⟨x, -, h, -⟩
  · rw [h]
  · rw [h, List.length_set]

theorem getElem?_stabilizeChunk {i : ℕ} (hi : i ≠ chunk.length / 2) :
    (stabilizeChunk want chunk)[i]? = chunk[i]? := by
  rcases stabilizeChunk_cases want chunk with h | ⟨x, -, h, -⟩
  · rw [h]
  · rw [h, List.getElem?_set_ne (Ne.symm hi)]

theorem stabilizeChunk_again :
    stabilizeChunk want (stabilizeChunk want chunk) = stabilizeChunk want chunk := by
  rcases stabilizeChunk_cases want chunk with h | ⟨x, -, h, hparity⟩
  · rw [h, h]
  · rw [h]
    exact stabilizeChunk_of_parity hparity

theorem stabilizeChunk_lt (hlt : ∀ c ∈ chunk, c.toNat < qLevels) :
    ∀ c ∈ stabilizeChunk want chunk, c.toNat < qLevels := by
  rcases stabilizeChunk_cases want chunk with h | ⟨x, hx, h, -⟩
  · rw [h]
    exact hlt
  · rw [h]
    intro c hc
    rcases List.mem_or_eq_of_mem_set hc with hold | rfl
    · exact hlt c hold
    · rcases hx with rfl | rfl
      · exact tryUp_lt _
      · have hcur : (chunk.getD (chunk.length / 2) 0).toNat < qLevels := by
          by_cases hin : chunk.length / 2 < chunk.length
          · rw [← List.getElem_eq_getD (h := hin) 0]
            exact hlt _ (List.getElem_mem hin)
          · rw [List.getD_eq_getElem?_getD, List.getElem?_eq_none (by omega)]
            simp [qLevels]
        exact Nat.lt_of_le_of_lt (tryDown_le _) hcur

theorem stabilizeChunk_set {x : UInt16} (hne : chunk ≠ [])
    (hstep : x = tryUp (chunk.getD (chunk.length / 2) 0) ∨
      x = tryDown (chunk.getD (chunk.length / 2) 0)) :
    stabilizeChunk (parity (chunk.set (chunk.length / 2) x)) chunk =
      chunk.set (chunk.length / 2) x := by
  have hpos : 0 < chunk.length := List.length_pos_of_ne_nil hne
  have hin : chunk.length / 2 < chunk.length := by omega
  have hself : chunk.set (chunk.length / 2) (chunk.getD (chunk.length / 2) 0) =
      chunk := by
    rw [← List.getElem_eq_getD (h := hin) 0, List.set_getElem_self]
  unfold stabilizeChunk
  split
  · rename_i hsame
    rw [← hself] at hsame
    simp only [List.set_set, List.length_set] at hsame
    have hcur := (parity_set_inj hin).mp hsame
    rw [← hcur, hself]
  · simp only [parity_set_inj hin]
    split
    · rename_i hup
      rw [hup]
    · rename_i hup
      split
      · rename_i hdown
        rw [hdown]
      · rename_i hdown
        rcases hstep with h | h
        · exact absurd h.symm hup
        · exact absurd h.symm hdown

end Chunk

section Codes

@[simp] theorem helperFromCodes_nil : helperFromCodes [] = [] := by
  simp [helperFromCodes]

theorem helperFromCodes_of_ne_nil {codes : List UInt16} (h : codes ≠ []) :
    helperFromCodes codes =
      parity (codes.take blockLen) :: helperFromCodes (codes.drop blockLen) := by
  simp [helperFromCodes, chunks_of_ne_nil h]

@[simp] theorem stabilizeCodes_nil (helper : List UInt16) :
    stabilizeCodes [] helper = [] := by
  simp [stabilizeCodes]

theorem stabilizeCodes_of_ne_nil {raw : List UInt16} (h : raw ≠ [])
    (helper : List UInt16) :
    stabilizeCodes raw helper =
      stabilizeChunk (helper.getD 0 0) (raw.take blockLen) ++
        stabilizeCodes (raw.drop blockLen) helper.tail := by
  have htail : ∀ j, helper.getD (j + 1) 0 = helper.tail.getD j 0 := by
    intro j
    cases helper with
    | nil => simp
    | cons w rest => simp
  simp only [stabilizeCodes, chunks_of_ne_nil h, List.mapIdx_cons,
    List.flatten_cons, htail]

theorem block_induction {P : List UInt16 → Prop} (nil : P [])
    (block : ∀ xs, xs ≠ [] → P (xs.drop blockLen) → P xs) (xs : List UInt16) :
    P xs := by
  by_cases h : xs = []
  · rw [h]
    exact nil
  · have hpos : 0 < xs.length := List.length_pos_of_ne_nil h
    have hdec : (xs.drop blockLen).length < xs.length := by
      simp only [List.length_drop, blockLen]
      omega
    exact block xs h (block_induction nil block (xs.drop blockLen))
termination_by xs.length
decreasing_by exact hdec

@[simp] theorem length_stabilizeCodes (raw helper : List UInt16) :
    (stabilizeCodes raw helper).length = raw.length := by
  induction raw using block_induction generalizing helper with
  | nil => simp
  | block raw hne ih =>
      rw [stabilizeCodes_of_ne_nil hne, List.length_append, ih,
        length_stabilizeChunk, ← List.length_append, List.take_append_drop]

theorem stabilizeCodes_lt {raw : List UInt16}
    (hlt : ∀ c ∈ raw, c.toNat < qLevels) (helper : List UInt16) :
    ∀ c ∈ stabilizeCodes raw helper, c.toNat < qLevels := by
  induction raw using block_induction generalizing helper with
  | nil => simp
  | block raw hne ih =>
      rw [stabilizeCodes_of_ne_nil hne]
      intro c hc
      rcases List.mem_append.mp hc with hfirst | hrest
      · exact stabilizeChunk_lt (fun d hd => hlt d (List.mem_of_mem_take hd)) c hfirst
      · exact ih (fun d hd => hlt d (List.mem_of_mem_drop hd)) _ c hrest

theorem stabilizeCodes_again (raw helper : List UInt16) :
    stabilizeCodes (stabilizeCodes raw helper) helper =
      stabilizeCodes raw helper := by
  induction raw using block_induction generalizing helper with
  | nil => simp
  | block raw hne ih =>
      have hpos : 0 < raw.length := List.length_pos_of_ne_nil hne
      have houter : stabilizeCodes raw helper ≠ [] := by
        apply List.ne_nil_of_length_pos
        rw [length_stabilizeCodes]
        exact hpos
      have hfirst : (stabilizeCodes raw helper).take blockLen =
          stabilizeChunk (helper.getD 0 0) (raw.take blockLen) := by
        rw [stabilizeCodes_of_ne_nil hne, List.take_append]
        by_cases hshort : raw.length ≤ blockLen
        · simp [List.drop_eq_nil_of_le hshort, List.take_of_length_le hshort,
            List.take_of_length_le, hshort]
        · have hlen : (stabilizeChunk (helper.getD 0 0)
              (raw.take blockLen)).length = blockLen := by
            rw [length_stabilizeChunk, List.length_take]
            omega
          rw [List.take_of_length_le hlen.le, hlen]
          simp
      have hrest : (stabilizeCodes raw helper).drop blockLen =
          stabilizeCodes (raw.drop blockLen) helper.tail := by
        have hsplit := List.take_append_drop blockLen (stabilizeCodes raw helper)
        rw [hfirst] at hsplit
        nth_rewrite 2 [stabilizeCodes_of_ne_nil hne] at hsplit
        exact List.append_cancel_left hsplit
      rw [stabilizeCodes_of_ne_nil houter, hfirst, hrest, stabilizeChunk_again, ih,
        ← stabilizeCodes_of_ne_nil hne]

end Codes

section Drift

/-- A quantised curve that is long enough to be stabilised. -/
structure CodeVector (codes : List UInt16) : Prop where
  long : 8 ≤ codes.length
  bounded : ∀ c ∈ codes, c.toNat < qLevels

def OneStep (a b : UInt16) : Prop :=
  b = a ∨ b.toNat = a.toNat + 1 ∨ a.toNat = b.toNat + 1

/-- One quantisation step away, in at most one symbol of each block. -/
structure Drifted (v v' : List UInt16) : Prop where
  length : v'.length = v.length
  step : ∀ (i : ℕ) a b, v[i]? = some a → v'[i]? = some b → OneStep a b
  sparse : ∀ i j : ℕ, i / blockLen = j / blockLen →
    v'[i]? ≠ v[i]? → v'[j]? ≠ v[j]? → i = j

/-- The offset of the middle symbol in the block that position `i` is in, for a
vector of `n` symbols. -/
def middleOf (n i : ℕ) : ℕ :=
  min blockLen (n - i / blockLen * blockLen) / 2

/-- Only the middle symbols of the blocks went away. -/
def MiddleDrift (v v' : List UInt16) : Prop :=
  ∀ i : ℕ, v'[i]? ≠ v[i]? → i % blockLen = middleOf v.length i

theorem chunk_restored_iff {b b' : List UInt16} (hne : b ≠ [])
    (hlen : b'.length = b.length) (hlt : ∀ c ∈ b, c.toNat < qLevels)
    (hstep : ∀ (i : ℕ) x y, b[i]? = some x → b'[i]? = some y → OneStep x y) :
    stabilizeChunk (parity b) b' = b ↔
      ∀ i : ℕ, b'[i]? ≠ b[i]? → i = b.length / 2 := by
  constructor
  · intro hrestored i hdiff
    by_contra hi
    rw [← hlen] at hi
    apply hdiff
    have hkept := @getElem?_stabilizeChunk (parity b) b' i hi
    rw [← hkept, hrestored]
  · intro hmiddle
    have hpos : 0 < b.length := List.length_pos_of_ne_nil hne
    have hin : b.length / 2 < b.length := by omega
    have hin' : b'.length / 2 < b'.length := by omega
    have hne' : b' ≠ [] := List.ne_nil_of_length_pos (by omega)
    have hset : b = b'.set (b'.length / 2) b[b.length / 2] := by
      apply List.ext_getElem?
      intro i
      by_cases hi : i = b.length / 2
      · subst hi
        rw [hlen, List.getElem?_set_self (by omega), List.getElem?_eq_getElem hin]
      · rw [hlen, List.getElem?_set_ne (Ne.symm hi)]
        by_contra hdiff
        exact hi (hmiddle i (Ne.symm hdiff))
    have hcur : b'.getD (b'.length / 2) 0 = b'[b'.length / 2] :=
      (List.getElem_eq_getD 0).symm
    have hone : OneStep b[b.length / 2] b'[b'.length / 2] := by
      apply hstep (b.length / 2) _ _ (List.getElem?_eq_getElem hin)
      simp only [hlen]
      exact List.getElem?_eq_getElem (by omega)
    rcases hone with hsame | hdown | hup
    · rw [← hsame, List.set_getElem_self] at hset
      rw [hset]
      exact stabilizeChunk_of_parity rfl
    · rw [hset]
      apply stabilizeChunk_set hne'
      rw [hcur]
      exact .inr (tryDown_eq hdown.symm).symm
    · rw [hset]
      apply stabilizeChunk_set hne'
      rw [hcur]
      exact .inl (tryUp_eq hup (hlt _ (List.getElem_mem hin))).symm

theorem middleDrift_iff_blocks {v v' : List UInt16}
    (hlen : v'.length = v.length) :
    MiddleDrift v v' ↔
      (∀ i : ℕ, (v'.take blockLen)[i]? ≠ (v.take blockLen)[i]? →
        i = (v.take blockLen).length / 2) ∧
      MiddleDrift (v.drop blockLen) (v'.drop blockLen) := by
  simp only [MiddleDrift, middleOf, List.getElem?_drop, List.getElem?_take,
    List.length_drop, List.length_take, blockLen]
  constructor
  · intro h
    constructor
    · intro i hdiff
      by_cases hi : i < 4
      · simp only [if_pos hi] at hdiff
        have hmid := h i hdiff
        omega
      · simp [hi] at hdiff
    · intro i hdiff
      have hmid := h (4 + i) hdiff
      omega
  · rintro ⟨hfirst, hrest⟩ i hdiff
    by_cases hi : i < 4
    · have hmid := hfirst i (by simpa only [if_pos hi] using hdiff)
      omega
    · have hmid := hrest (i - 4) (by rwa [Nat.add_sub_cancel' (by omega)])
      omega

theorem restored_iff {v : List UInt16} (hlt : ∀ d ∈ v, d.toNat < qLevels)
    {v' : List UInt16} (hlen : v'.length = v.length)
    (hstep : ∀ (i : ℕ) a b, v[i]? = some a → v'[i]? = some b → OneStep a b) :
    stabilizeCodes v' (helperFromCodes v) = v ↔ MiddleDrift v v' := by
  induction v using block_induction generalizing v' with
  | nil =>
      have hnil : v' = [] := List.eq_nil_of_length_eq_zero hlen
      subst hnil
      simp [MiddleDrift]
  | block v hne ih =>
      have hpos : 0 < v.length := List.length_pos_of_ne_nil hne
      have hne' : v' ≠ [] := List.ne_nil_of_length_pos (by omega)
      have hfirst : (v.take blockLen) ≠ [] := by
        apply List.ne_nil_of_length_pos
        simp only [List.length_take, blockLen]
        omega
      have hchunk := @chunk_restored_iff (v.take blockLen) (v'.take blockLen) hfirst
        (by simp only [List.length_take, hlen])
        (fun d hd => hlt d (List.mem_of_mem_take hd))
        (by
          intro i x y hx hy
          rw [List.getElem?_take] at hx hy
          by_cases hi : i < blockLen
          · rw [if_pos hi] at hx hy
            exact hstep i x y hx hy
          · simp [hi] at hx)
      have hrest := @ih (fun d hd => hlt d (List.mem_of_mem_drop hd)) (v'.drop blockLen)
        (by simp only [List.length_drop, hlen])
        (by
          intro i x y hx hy
          rw [List.getElem?_drop] at hx hy
          exact hstep _ x y hx hy)
      rw [middleDrift_iff_blocks hlen, ← hchunk, ← hrest,
        helperFromCodes_of_ne_nil hne, stabilizeCodes_of_ne_nil hne']
      simp only [List.getD_cons_zero, List.tail_cons]
      constructor
      · intro h
        nth_rewrite 3 [← List.take_append_drop blockLen v] at h
        exact List.append_inj h (by
          simp only [length_stabilizeChunk, List.length_take, hlen])
      · rintro ⟨hl, hr⟩
        rw [hl, hr, List.take_append_drop]

theorem stabilizeCodes_self {v : List UInt16} (hlt : ∀ d ∈ v, d.toNat < qLevels) :
    stabilizeCodes v (helperFromCodes v) = v := by
  apply (restored_iff hlt rfl ?_).mpr
  · intro i hdiff
    exact absurd rfl hdiff
  · intro i a b ha hb
    rw [ha] at hb
    exact .inl (Option.some.inj hb).symm

theorem drifted_set {v : List UInt16} {k : ℕ} {x : UInt16} (hk : k < v.length)
    (hstep : OneStep v[k] x) : Drifted v (v.set k x) where
  length := List.length_set
  step := by
    intro i a b ha hb
    by_cases hi : i = k
    · subst hi
      rw [List.getElem?_set_self hk] at hb
      rw [List.getElem?_eq_getElem hk] at ha
      cases ha
      cases hb
      exact hstep
    · rw [List.getElem?_set_ne (Ne.symm hi), ha] at hb
      exact .inl (Option.some.inj hb).symm
  sparse := by
    have hat : ∀ i : ℕ, (v.set k x)[i]? ≠ v[i]? → i = k := by
      intro i hdiff
      by_contra hi
      exact hdiff (List.getElem?_set_ne (Ne.symm hi))
    intro i j _ hi hj
    rw [hat i hi, hat j hj]

end Drift

section Curves

theorem quantize_lt (xs : List ℚ) : ∀ c ∈ quantize xs, c.toNat < qLevels := by
  intro c hc
  unfold quantize at hc
  split at hc
  · rcases List.mem_map.mp hc with ⟨x, -, rfl⟩
    rw [UInt16.toNat_ofNat']
    simp only [qLevels]
    omega
  · cases hc

@[simp] theorem length_quantize (xs : List ℚ) : (quantize xs).length = xs.length := by
  unfold quantize
  split
  · simp
  · rename_i hnone
    cases xs with
    | nil => rfl
    | cons x rest => exact absurd rfl (hnone _ _ rfl)

theorem codeVector_quantize {curve : List ℚ} (h : 8 ≤ curve.length) :
    CodeVector (quantize curve) where
  long := by rwa [length_quantize]
  bounded := quantize_lt curve

variable (sha256Hex : List UInt8 → String)

/-- What a later probe of the same machine is promised. -/
structure Corrects (tag : String) (c c' : List UInt16) : Prop where
  restored : stabilizeCodes c' (helperFromCodes c) = c
  digest : digestCodes sha256Hex tag (stabilizeCodes c' (helperFromCodes c)) =
    digestCodes sha256Hex tag (stabilizeCodes c (helperFromCodes c))
  kept : stabilizeCodes c (helperFromCodes c) = c
  length : ∀ raw helper, (stabilizeCodes raw helper).length = raw.length
  bounded : ∀ raw helper, (∀ d ∈ raw, d.toNat < qLevels) →
    ∀ d ∈ stabilizeCodes raw helper, d.toNat < qLevels
  twice : ∀ raw helper,
    stabilizeCodes (stabilizeCodes raw helper) helper = stabilizeCodes raw helper

theorem corrects_iff_middleDrift (tag : String) {c c' : List UInt16}
    (hc : CodeVector c) (hdrift : Drifted c c') :
    Corrects sha256Hex tag c c' ↔ MiddleDrift c c' := by
  have hiff := restored_iff hc.bounded hdrift.length hdrift.step
  have hself := stabilizeCodes_self hc.bounded
  constructor
  · intro h
    exact hiff.mp h.restored
  · intro h
    have hback := hiff.mpr h
    exact
      { restored := hback
        digest := by rw [hback, hself]
        kept := hself
        length := length_stabilizeCodes
        bounded := fun _ helper hlt => stabilizeCodes_lt hlt helper
        twice := stabilizeCodes_again }

theorem middleDrift_set {v : List UInt16} {k : ℕ} {x : UInt16}
    (hk : k % blockLen = middleOf v.length k) : MiddleDrift v (v.set k x) := by
  intro i hdiff
  by_cases hi : i = k
  · rw [hi]
    exact hk
  · exact absurd (List.getElem?_set_ne (Ne.symm hi)) hdiff

theorem corrects_middle_step :
    Corrects (fun _ => "00") "wg" (List.replicate 8 10) ((List.replicate 8 10).set 2 11) := by
  have hmiddle : MiddleDrift (List.replicate 8 10) ((List.replicate 8 10).set 2 11) :=
    middleDrift_set (by decide)
  exact (corrects_iff_middleDrift (fun _ => "00") "wg"
    { long := by decide, bounded := by simp [qLevels] }
    (drifted_set (by decide) (.inr (.inl (by decide))))).mpr hmiddle

/-- A step at the edge of a block is not undone. -/
theorem edge_step_not_corrected :
    ¬ ∀ (sha256Hex : List UInt8 → String) (tag : String) (c c' : List UInt16),
      CodeVector c → CodeVector c' → Drifted c c' → Corrects sha256Hex tag c c' := by
  intro h
  have hedge := h (fun _ => "00") "wg" (List.replicate 8 10)
    ((List.replicate 8 10).set 0 11)
    { long := by decide, bounded := by simp [qLevels] }
    { long := by decide, bounded := by simp [qLevels] }
    (drifted_set (by decide) (.inr (.inl (by decide))))
  have hchanged : stabilizeCodes ((List.replicate 8 10).set 0 11)
      (helperFromCodes (List.replicate 8 10)) ≠ List.replicate 8 10 := by decide
  exact hchanged hedge.restored

theorem fuzzyStabilizeCurve_reprobe {tag : String} {curve curve' : List ℚ}
    {first second : FuzzyMaterials}
    (hfirst : fuzzyStabilizeCurve sha256Hex tag curve none = .ok first)
    (hdrift : Drifted (quantize curve) (quantize curve'))
    (hmiddle : MiddleDrift (quantize curve) (quantize curve'))
    (hsecond : fuzzyStabilizeCurve sha256Hex tag curve' (some first.helper) =
      .ok second) :
    second.helper = first.helper ∧ second.stableDigest = first.stableDigest := by
  have hlen := hdrift.length
  simp only [length_quantize] at hlen
  unfold fuzzyStabilizeCurve at hfirst hsecond
  split at hfirst
  · cases hfirst
  · rename_i hlong
    rw [if_neg (by omega)] at hsecond
    cases hfirst
    have hcount : (helperFromCodes (quantize curve)).length =
        ((quantize curve').length + blockLen - 1) / blockLen := by
      simp [helperFromCodes, chunks, hlen]
    simp only [if_pos hcount] at hsecond
    cases hsecond
    have hback := (restored_iff (quantize_lt curve) hdrift.length hdrift.step).mpr hmiddle
    simp only [hback, stabilizeCodes_self (quantize_lt curve), and_self]

end Curves

end FuzzyEcc

end GrServer
