import GrServer.QuicFrames

/-!
# The CRYPTO stream of a packet, index by index

The pieces of a packet are laid out in a buffer of at most 64 KiB, and the
stream is what is contiguous from its start.  Where that is nothing, the
plaintext is searched for a ClientHello.  Offsets are varints of the sender's;
the sum of one and a length is within 64 bits, and only what is within the
buffer is written.
-/

namespace GrServer

namespace QuicFrames

open Faults PieceAssembly WireBytes

/-! ## Assembly -/

def maxEnd (pieces : List (Piece UInt8)) : Run ℕ :=
  pieces.foldlM (fun m p => do return max m (← add p.1 p.2.length)) 0

abbrev Layout := List UInt8 × List Bool

def layByte (p : Piece UInt8) (j : ℕ) (s : Layout) : Run Layout := do
  let b ← index p.2 j
  let idx ← add p.1 j
  if idx < s.1.length then
    return (← modifyAt s.1 idx fun _ => b, ← modifyAt s.2 idx fun _ => true)
  return s

def layPiece (s : Layout) (p : Piece UInt8) : Run Layout :=
  forRange (layByte p) p.2.length 0 s

def filledTo (filled : List Bool) : Run ℕ :=
  loop (fun stop => do
    if filled.length ≤ stop then return .done stop
    if ← index filled stop then return .yield (← add stop 1)
    return .done stop) (filled.length + 1) 0

def assembleCrypto (pieces : List (Piece UInt8)) : Run (List UInt8) := do
  if pieces = [] then return []
  let m := min (← maxEnd pieces) (64 * 1024)
  let (out, filled) ← pieces.foldlM layPiece (List.replicate m 0, List.replicate m false)
  return out.take (← filledTo filled)

structure Laid (s : Layout) (cells : List (Option UInt8)) : Prop where
  length : s.1.length = cells.length
  flags : s.2.length = cells.length
  cell : ∀ i, i < cells.length → cells[i]? = some (if s.2[i]? = some true then s.1[i]? else none)

section Assembly

variable {pieces : List (Piece UInt8)}

theorem getElem?_fill_cell (cells : List (Option UInt8)) (p : Piece UInt8) (i : ℕ) :
    (fill cells p)[i]? = cells[i]?.map fun cell =>
      if p.1 ≤ i ∧ i < p.1 + p.2.length then p.2[i - p.1]? else cell := by
  unfold fill
  rw [List.getElem?_mapIdx]

theorem fill_nothing (cells : List (Option UInt8)) (off : ℕ) : fill cells (off, []) = cells := by
  apply List.ext_getElem?
  intro i
  have hnone : ¬(off ≤ i ∧ i < off) := by omega
  rw [getElem?_fill_cell]
  simp [hnone]

theorem getElem?_fill_succ (cells : List (Option UInt8)) {p : Piece UInt8} {j : ℕ}
    (hj : j < p.2.length) (i : ℕ) :
    (fill cells (p.1, p.2.take (j + 1)))[i]? =
      if i = p.1 + j then cells[i]?.map fun _ => p.2[j]?
      else (fill cells (p.1, p.2.take j))[i]? := by
  rw [getElem?_fill_cell, getElem?_fill_cell]
  dsimp only
  rw [List.length_take, List.length_take]
  by_cases hi : i = p.1 + j
  · rw [if_pos hi]
    congr 1
    funext cell
    rw [if_pos (by omega), hi, Nat.add_sub_cancel_left, List.getElem?_take_of_lt (by omega)]
  · rw [if_neg hi]
    congr 1
    funext cell
    by_cases hin : p.1 ≤ i ∧ i < p.1 + j
    · rw [if_pos (by omega), if_pos (by omega), List.getElem?_take_of_lt (by omega),
        List.getElem?_take_of_lt (by omega)]
    · rw [if_neg (by omega), if_neg (by omega)]

theorem laid_start (m : ℕ) :
    Laid (List.replicate m 0, List.replicate m false) (List.replicate m none) where
  length := by simp
  flags := by simp
  cell := by
    intro i hi
    rw [List.length_replicate] at hi
    simp [hi]

theorem returns_layByte {p : Piece UInt8} (hp : p.1 + p.2.length < 2 ^ 64) {j : ℕ}
    (hj : j < p.2.length) {s : Layout} {cells : List (Option UInt8)}
    (hs : Laid s (fill cells (p.1, p.2.take j))) :
    Returns (layByte p j s) fun s => Laid s (fill cells (p.1, p.2.take (j + 1))) := by
  have hlength := hs.length
  have hflags := hs.flags
  have hcell := hs.cell
  rw [length_fill] at hlength hflags hcell
  unfold layByte
  refine (returns_index hj).bind ?_
  intro b hb
  refine (returns_add (by omega)).bind ?_
  intro idx hidx
  subst hidx
  refine Returns.ite ?_ ?_
  · intro hin
    refine (returns_modifyAt _ hin).bind ?_
    rintro out ⟨rfl, hout⟩
    refine (returns_modifyAt _ (by omega)).bind ?_
    rintro filled ⟨rfl, hfilled⟩
    refine Returns.pure ⟨?_, ?_, ?_⟩
    · rw [length_fill, hout, hlength]
    · rw [length_fill, hfilled, hflags]
    · intro i hi
      rw [length_fill] at hi
      rw [getElem?_fill_succ cells hj, List.getElem?_modify, List.getElem?_modify]
      split_ifs with hat
      all_goals grind
  · intro hout
    refine Returns.pure ⟨?_, ?_, ?_⟩
    · rw [length_fill, hlength]
    · rw [length_fill, hflags]
    · intro i hi
      rw [length_fill] at hi
      rw [getElem?_fill_succ cells hj, if_neg (by omega)]
      exact hcell i hi

theorem returns_layPiece {p : Piece UInt8} (hp : p.1 + p.2.length < 2 ^ 64) {s : Layout}
    {cells : List (Option UInt8)} (hs : Laid s cells) :
    Returns (layPiece s p) fun s => Laid s (fill cells p) := by
  have hstart : Laid s (fill cells (p.1, p.2.take 0)) := by
    rw [List.take_zero, fill_nothing]
    exact hs
  have hend : fill cells p = fill cells (p.1, p.2.take (0 + p.2.length)) := by
    rw [Nat.zero_add, List.take_length]
  rw [hend]
  exact returns_forRange (I := fun j s => Laid s (fill cells (p.1, p.2.take j)))
    (fun j s _ hj h => returns_layByte hp (by omega) h) hstart

theorem returns_layPieces (hp : ∀ p ∈ pieces, p.1 + p.2.length < 2 ^ 64) {s : Layout}
    {cells : List (Option UInt8)} (hs : Laid s cells) :
    Returns (pieces.foldlM layPiece s) fun s => Laid s (pieces.foldl fill cells) := by
  induction pieces generalizing s cells with
  | nil => exact Returns.pure hs
  | cons p pieces ih =>
      rw [List.foldlM_cons]
      refine (returns_layPiece (hp p List.mem_cons_self) hs).bind ?_
      intro s hs
      exact ih (fun q hq => hp q (List.mem_cons_of_mem p hq)) hs

theorem returns_maxEnd (hp : ∀ p ∈ pieces, p.1 + p.2.length < 2 ^ 64) :
    Returns (maxEnd pieces) (· = farEnd pieces) := by
  have hfold : ∀ (ps : List (Piece UInt8)) (m : ℕ), (∀ p ∈ ps, p.1 + p.2.length < 2 ^ 64) →
      Returns (ps.foldlM (fun m p => do return max m (← add p.1 p.2.length)) m)
        (· = ps.foldl (fun n p => max n (p.1 + p.2.length)) m) := by
    intro ps
    induction ps with
    | nil => exact fun m _ => Returns.pure rfl
    | cons p ps ih =>
        intro m hall
        rw [List.foldlM_cons, List.foldl_cons]
        refine Returns.bind (Q := (· = max m (p.1 + p.2.length))) ?_ ?_
        · refine (returns_add (hall p List.mem_cons_self)).bind ?_
          intro n hn
          exact Returns.pure (by rw [hn])
        · intro n hn
          subst hn
          exact ih _ fun q hq => hall q (List.mem_cons_of_mem p hq)
  exact hfold pieces 0 hp

theorem returns_filledTo {filled : List Bool} (hsmall : filled.length < 2 ^ 63) :
    Returns (filledTo filled) fun n => n ≤ filled.length ∧
      (∀ i, i < n → filled[i]? = some true) ∧ (n = filled.length ∨ ¬filled[n]? = some true) := by
  refine returns_loop (I := fun n => n ≤ filled.length ∧ ∀ i, i < n → filled[i]? = some true)
    (m := fun n => filled.length - n) ?_ ⟨Nat.zero_le _, nofun⟩ (by omega)
  rintro n ⟨hn, hall⟩
  refine Returns.ite ?_ ?_
  · intro hend
    exact Returns.pure ⟨hn, hall, Or.inl (by omega)⟩
  · intro hin
    refine (returns_index (by omega)).bind ?_
    intro b hb
    refine Returns.ite ?_ ?_
    · intro htrue
      rw [htrue] at hb
      refine (returns_add (by omega)).bind ?_
      intro m hm
      subst hm
      refine Returns.pure ⟨⟨by omega, ?_⟩, by omega⟩
      intro i hi
      rcases Nat.lt_succ_iff_lt_or_eq.mp hi with hlt | rfl
      · exact hall i hlt
      · exact hb
    · intro hfalse
      refine Returns.pure ⟨hn, hall, Or.inr ?_⟩
      rw [hb]
      exact fun h => hfalse (Option.some.inj h)

theorem gap_unique {C : ℕ → Prop} {len m n : ℕ} (hm : m ≤ len) (hn : n ≤ len)
    (hmall : ∀ i, i < m → C i) (hnall : ∀ i, i < n → C i) (hmend : m = len ∨ ¬C m)
    (hnend : n = len ∨ ¬C n) : m = n := by
  rcases lt_trichotomy m n with hlt | heq | hlt
  · rcases hmend with rfl | hgap
    · omega
    · exact absurd (hnall m hlt) hgap
  · exact heq
  · rcases hnend with rfl | hgap
    · omega
    · exact absurd (hmall n hlt) hgap

theorem returns_assembleCrypto (hp : ∀ p ∈ pieces, p.1 + p.2.length < 2 ^ 64) :
    Returns (assembleCrypto pieces) (· = QuicCapture.assembleCrypto pieces) := by
  unfold assembleCrypto
  refine Returns.ite ?_ ?_
  · intro hnil
    subst hnil
    exact Returns.pure rfl
  · intro _
    refine (returns_maxEnd hp).bind ?_
    intro far hfar
    subst hfar
    refine (returns_layPieces hp (laid_start _)).bind ?_
    rintro ⟨out, filled⟩ hlaid
    have hlength := hlaid.length
    have hflags := hlaid.flags
    have hcells := length_foldl_fill pieces
      (List.replicate (min (farEnd pieces) (64 * 1024)) none)
    rw [List.length_replicate] at hcells
    dsimp only at hlength hflags ⊢
    refine (returns_filledTo (by omega)).bind ?_
    rintro n ⟨hn, hall, hstop⟩
    rcases takeWhile_layout hlength.ge hlaid.cell with ⟨m, hm, hmall, hmstop, htake⟩
    rw [← hflags] at hm hmstop
    have hmn : n = m := gap_unique hn hm hall hmall hstop hmstop
    refine Returns.pure ?_
    rw [hmn]
    exact htake.symm

end Assembly

/-! ## The search for a ClientHello -/

def u16From (b : List UInt8) (i : ℕ) : Run UInt16 := do
  let hi ← index b i
  let lo ← index b (← add i 1)
  return UInt16.ofNat (hi.toNat * 256 + lo.toNat)

def u24From (b : List UInt8) (i : ℕ) : Run ℕ := do
  let hi ← index b i
  let mid ← index b (← add i 1)
  let lo ← index b (← add i 2)
  return (hi.toNat <<< 16 ||| mid.toNat <<< 8) ||| lo.toNat

def helloAt (data : List UInt8) (i : ℕ) : Run (ForInStep (Option (List UInt8))) := do
  if (← index data i) ≠ 0x01 then return .yield none
  if data.length < (← add i 4) then return .done none
  let len ← u24From data (← add i 1)
  if len < 38 ∨ 16 * 1024 < len then return .yield none
  let bodyEnd ← add (← add i 4) len
  if data.length < bodyEnd then return .yield none
  let body ← slice data (← add i 4) bodyEnd
  if body.length < 2 then return .yield none
  if (← index body 0) ≠ 0x03 then return .yield none
  let minor ← index body 1
  if minor ≠ 0x03 ∧ minor ≠ 0x01 then return .yield none
  if body.length ≤ 35 then return .yield none
  let sidLen := (← index body 34).toNat
  if body.length < (← add (← add 35 sidLen) 2) then return .yield none
  return .done (some (← slice data i bodyEnd))

def findClientHelloInBytes (data : List UInt8) : Run (Option (List UInt8)) := do
  if data.length < 42 then return none
  let s ← loop (fun (i, _) => do
    if data.length - 42 ≤ i then return .done (i, none)
    match ← helloAt data i with
    | .yield found => return .yield (i + 1, found)
    | .done found => return .done (i, found)) (data.length + 1) (0, none)
  return s.2

section Search

variable {data : List UInt8} {i : ℕ}

theorem toNat_eq_byteAt {b : List UInt8} {x : UInt8} (hx : b[i]? = some x) :
    x.toNat = byteAt b i := by
  rw [byteAt, List.getD_eq_getElem?_getD, hx]
  rfl

theorem byteAt_eq_iff {b : List UInt8} {x : UInt8} (hx : b[i]? = some x) {n : ℕ} (hn : n < 256) :
    x = UInt8.ofNat n ↔ byteAt b i = n := by
  rw [← toNat_eq_byteAt hx, ← UInt8.toNat_inj, UInt8.toNat_ofNat', Nat.mod_eq_of_lt hn]

theorem byteAt_slice {m n : ℕ} (hn : n < m) : byteAt (WireBytes.slice data i m) n =
    byteAt data (i + n) := by
  rw [byteAt, byteAt, WireBytes.slice, List.getD_eq_getElem?_getD, List.getD_eq_getElem?_getD,
    List.getElem?_take_of_lt hn, List.getElem?_drop]

theorem returns_u16From (hfits : data.length < 2 ^ 63) (hin : i + 1 < data.length) :
    Returns (u16From data i) (· = u16At data i) := by
  refine (returns_index (by omega)).bind ?_
  intro hi hhi
  refine (returns_add (by omega)).bind ?_
  intro j hj
  subst hj
  refine (returns_index hin).bind ?_
  intro lo hlo
  refine Returns.pure ?_
  rw [toNat_eq_byteAt hhi, toNat_eq_byteAt hlo]
  rfl

theorem or_bytes {a b c : ℕ} (hb : b < 256) (hc : c < 256) :
    (a <<< 16 ||| b <<< 8) ||| c = a * 65536 + b * 256 + c := by
  have hmid : b <<< 8 < 2 ^ 16 := by
    rw [Nat.shiftLeft_eq]
    omega
  have hhigh : a <<< 16 ||| b <<< 8 = (a * 256 + b) <<< 8 := by
    rw [← Nat.shiftLeft_add_eq_or_of_lt hmid, Nat.shiftLeft_eq, Nat.shiftLeft_eq,
      Nat.shiftLeft_eq]
    omega
  rw [hhigh, ← Nat.shiftLeft_add_eq_or_of_lt hc, Nat.shiftLeft_eq]
  omega

theorem byteAt_lt (b : List UInt8) (i : ℕ) : byteAt b i < 256 := (b.getD i 0).toNat_lt

theorem returns_u24From (hfits : data.length < 2 ^ 63) (hin : i + 2 < data.length) :
    Returns (u24From data i) (· = u24At data i) := by
  refine (returns_index (by omega)).bind ?_
  intro hi hhi
  refine (returns_add (by omega)).bind ?_
  intro j hj
  subst hj
  refine (returns_index (by omega)).bind ?_
  intro mid hmid
  refine (returns_add (by omega)).bind ?_
  intro j hj
  subst hj
  refine (returns_index hin).bind ?_
  intro lo hlo
  refine Returns.pure ?_
  rw [or_bytes mid.toNat_lt lo.toNat_lt, toNat_eq_byteAt hhi, toNat_eq_byteAt hmid,
    toNat_eq_byteAt hlo]
  rfl

structure WholeHello (data : List UInt8) (i : ℕ) : Prop where
  type : byteAt data i = 1
  least : 38 ≤ u24At data (i + 1)
  most : u24At data (i + 1) ≤ 16 * 1024
  whole : i + 4 + u24At data (i + 1) ≤ data.length
  major : byteAt data (i + 4) = 3
  minor : byteAt data (i + 5) = 3 ∨ byteAt data (i + 5) = 1
  sid : 35 + byteAt data (i + 38) + 2 ≤ u24At data (i + 1)

theorem wholeHelloAt_iff : QuicCapture.wholeHelloAt data i = true ↔ WholeHello data i := by
  simp only [QuicCapture.wholeHelloAt, Bool.and_eq_true, Bool.or_eq_true, beq_iff_eq,
    decide_eq_true_eq]
  constructor
  · rintro ⟨⟨⟨⟨⟨⟨htype, hleast⟩, hmost⟩, hwhole⟩, hmajor⟩, hminor⟩, hsid⟩
    exact ⟨htype, hleast, hmost, hwhole, hmajor, hminor, hsid⟩
  · rintro ⟨htype, hleast, hmost, hwhole, hmajor, hminor, hsid⟩
    exact ⟨⟨⟨⟨⟨⟨htype, hleast⟩, hmost⟩, hwhole⟩, hmajor⟩, hminor⟩, hsid⟩

def candidate (data : List UInt8) (i : ℕ) : ForInStep (Option (List UInt8)) :=
  if QuicCapture.wholeHelloAt data i then
    .done (some (WireBytes.slice data i (4 + u24At data (i + 1))))
  else .yield none

theorem candidate_pass (h : ¬WholeHello data i) : ForInStep.yield none = candidate data i := by
  rw [← wholeHelloAt_iff] at h
  rw [candidate, if_neg h]

theorem returns_helloAt (hfits : data.length < 2 ^ 63) (hin : i + 42 < data.length) :
    Returns (helloAt data i) (· = candidate data i) := by
  unfold helloAt
  refine (returns_index (by omega)).bind ?_
  intro b hb
  refine Returns.ite ?_ ?_
  · intro hne
    refine Returns.pure (candidate_pass fun h => hne ?_)
    exact (byteAt_eq_iff hb (by norm_num)).mpr h.type
  intro hone
  have htype : byteAt data i = 1 := (byteAt_eq_iff hb (by norm_num)).mp (not_not.mp hone)
  refine (returns_add (by omega)).bind ?_
  intro headEnd hheadEnd
  refine Returns.ite (fun h => by omega) fun _ => ?_
  refine (returns_add (by omega)).bind ?_
  intro j hj
  subst hj
  refine (returns_u24From hfits (by omega)).bind ?_
  intro len hlen
  refine Returns.ite ?_ ?_
  · intro hsize
    refine Returns.pure (candidate_pass fun h => ?_)
    have hleast := h.least
    have hmost := h.most
    omega
  intro hsize
  refine (returns_add (by omega)).bind ?_
  intro bodyAt hbodyAt
  refine (returns_add (by omega)).bind ?_
  intro bodyEnd hbodyEnd
  refine Returns.ite ?_ ?_
  · intro hshort
    refine Returns.pure (candidate_pass fun h => ?_)
    have hwhole := h.whole
    omega
  intro hwhole
  refine (returns_add (by omega)).bind ?_
  intro bodyAt' hbodyAt'
  refine (returns_slice (by omega) (by omega)).bind ?_
  rintro body ⟨hbody, hlength⟩
  have hslice : body = WireBytes.slice data (i + 4) (u24At data (i + 1)) := by
    rw [hbody, WireBytes.slice, hbodyAt']
    congr 1
    omega
  have hat : ∀ n, n < 38 → byteAt body n = byteAt data (i + 4 + n) := by
    intro n hn
    rw [hslice]
    exact byteAt_slice (by omega)
  refine Returns.ite (fun h => by omega) fun _ => ?_
  refine (returns_index (by omega)).bind ?_
  intro major hmajor
  refine Returns.ite ?_ ?_
  · intro hne
    refine Returns.pure (candidate_pass fun h => hne ?_)
    exact (byteAt_eq_iff hmajor (by norm_num)).mpr ((hat 0 (by omega)).trans h.major)
  intro hthree
  have hmajor : byteAt data (i + 4) = 3 :=
    (hat 0 (by omega)).symm.trans ((byteAt_eq_iff hmajor (by norm_num)).mp (not_not.mp hthree))
  refine (returns_index (by omega)).bind ?_
  intro minor hminor
  have hthree : minor = 0x03 ↔ byteAt data (i + 5) = 3 := by
    rw [← hat 1 (by omega)]
    exact byteAt_eq_iff hminor (by norm_num)
  have hone : minor = 0x01 ↔ byteAt data (i + 5) = 1 := by
    rw [← hat 1 (by omega)]
    exact byteAt_eq_iff hminor (by norm_num)
  refine Returns.ite ?_ ?_
  · intro hne
    refine Returns.pure (candidate_pass fun h => ?_)
    rw [ne_eq, ne_eq, hthree, hone] at hne
    exact h.minor.elim hne.1 hne.2
  intro hversion
  rw [ne_eq, ne_eq, hthree, hone, not_and_or, not_not, not_not] at hversion
  refine Returns.ite (fun h => by omega) fun _ => ?_
  refine (returns_index (by omega)).bind ?_
  intro sid hsid
  have hsidLen : sid.toNat = byteAt data (i + 38) := by
    rw [toNat_eq_byteAt hsid, hat 34 (by omega)]
  have hbyte := byteAt_lt data (i + 38)
  refine (returns_add (by omega)).bind ?_
  intro sidEnd hsidEnd
  refine (returns_add (by omega)).bind ?_
  intro suitesAt hsuitesAt
  refine Returns.ite ?_ ?_
  · intro hlong
    refine Returns.pure (candidate_pass fun h => ?_)
    have hsid := h.sid
    omega
  intro hfit
  refine (returns_slice (by omega) (by omega)).bind ?_
  rintro hello ⟨hhello, -⟩
  have hyes : WholeHello data i :=
    ⟨htype, by omega, by omega, by omega, hmajor, hversion, by omega⟩
  refine Returns.pure ?_
  rw [candidate, if_pos (wholeHelloAt_iff.mpr hyes), hhello, WireBytes.slice]
  congr 3
  omega

theorem returns_findClientHelloInBytes (hfits : data.length < 2 ^ 63) :
    Returns (findClientHelloInBytes data) (· = QuicCapture.findClientHelloInBytes data) := by
  unfold findClientHelloInBytes QuicCapture.findClientHelloInBytes
  refine Returns.ite ?_ ?_
  · intro hshort
    rw [if_pos hshort]
    exact Returns.pure rfl
  · intro hlong
    rw [if_neg hlong]
    refine Returns.bind (Q := fun s : ℕ × Option (List UInt8) => s.2 =
      ((List.range (data.length - 42)).find? (QuicCapture.wholeHelloAt data)).map fun i =>
        WireBytes.slice data i (4 + u24At data (i + 1))) ?_ fun s hs => Returns.pure hs
    refine returns_loop (I := fun s => ∀ j, j < s.1 → QuicCapture.wholeHelloAt data j = false)
      (m := fun s => data.length - s.1) ?_ nofun (by dsimp only; omega)
    rintro ⟨i, before⟩ hbefore
    dsimp only at hbefore ⊢
    refine Returns.ite ?_ ?_
    · intro hend
      refine Returns.pure ?_
      have hnone : (List.range (data.length - 42)).find? (QuicCapture.wholeHelloAt data) =
          none := by
        rw [List.find?_range_eq_none]
        intro j hj
        rw [hbefore j (by omega)]
        rfl
      dsimp only
      rw [hnone]
      rfl
    · intro hmore
      refine (returns_helloAt hfits (by omega)).bind ?_
      intro r hr
      subst hr
      rw [candidate]
      cases hwhole : QuicCapture.wholeHelloAt data i with
      | false =>
          refine Returns.pure ⟨?_, by omega⟩
          intro j hj
          rcases Nat.lt_succ_iff_lt_or_eq.mp hj with hlt | rfl
          · exact hbefore j hlt
          · exact hwhole
      | true =>
          have hfound : (List.range (data.length - 42)).find? (QuicCapture.wholeHelloAt data) =
              some i := by
            rw [List.find?_range_eq_some]
            refine ⟨hwhole, List.mem_range.mpr (by omega), ?_⟩
            intro j hj
            rw [hbefore j hj]
            rfl
          rw [hfound]
          exact Returns.pure rfl

end Search

end QuicFrames

end GrServer
