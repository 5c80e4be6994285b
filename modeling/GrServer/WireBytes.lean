import Mathlib

/-!
# Bytes on the wire

Big-endian fields, records of a type and a length-prefixed payload, and lists
of short strings, all read by offset from a buffer.  A walk over records stops
at the first one that does not fit; over the encoding of a list of records it
is the fold of that list.
-/

namespace GrServer

namespace WireBytes

/-! ## Fields -/

/-- A byte past the end reads as zero; the callers check the end first. -/
def byteAt (b : List UInt8) (i : ℕ) : ℕ := (b.getD i 0).toNat

def u16At (b : List UInt8) (i : ℕ) : UInt16 :=
  UInt16.ofNat (byteAt b i * 256 + byteAt b (i + 1))

def u24At (b : List UInt8) (i : ℕ) : ℕ :=
  byteAt b i * 65536 + byteAt b (i + 1) * 256 + byteAt b (i + 2)

def slice (b : List UInt8) (i n : ℕ) : List UInt8 := (b.drop i).take n

/-- `chunks_exact(2)` of big-endian pairs. -/
def u16List : List UInt8 → List UInt16
  | hi :: lo :: rest => UInt16.ofNat (hi.toNat * 256 + lo.toNat) :: u16List rest
  | _ => []

def beBytes (v : UInt16) : List UInt8 :=
  [UInt8.ofNat (v.toNat / 256), UInt8.ofNat v.toNat]

def beBytes24 (n : ℕ) : List UInt8 :=
  [UInt8.ofNat (n / 65536), UInt8.ofNat (n / 256), UInt8.ofNat n]

@[simp] theorem length_beBytes (v : UInt16) : (beBytes v).length = 2 := rfl

@[simp] theorem length_beBytes24 (n : ℕ) : (beBytes24 n).length = 3 := rfl

theorem ofNat_toNat_pair (v : UInt16) :
    UInt16.ofNat ((UInt8.ofNat (v.toNat / 256)).toNat * 256 + (UInt8.ofNat v.toNat).toNat) = v := by
  have hv := v.toNat_lt
  apply UInt16.toNat_inj.mp
  rw [UInt16.toNat_ofNat', UInt8.toNat_ofNat', UInt8.toNat_ofNat']
  omega

section Append

variable {front back : List UInt8} {i j : ℕ}

theorem byteAt_append_add (hi : i = front.length + j) :
    byteAt (front ++ back) i = byteAt back j := by
  subst hi
  unfold byteAt
  rw [List.getD_append_right _ _ _ _ (Nat.le_add_right _ _), Nat.add_sub_cancel_left]

theorem byteAt_take {b : List UInt8} {n : ℕ} (hi : i < n) : byteAt (b.take n) i = byteAt b i := by
  unfold byteAt
  rw [List.getD_eq_getElem?_getD, List.getD_eq_getElem?_getD, List.getElem?_take_of_lt hi]

theorem u16At_append_add (hi : i = front.length + j) :
    u16At (front ++ back) i = u16At back j := by
  unfold u16At
  rw [byteAt_append_add hi, byteAt_append_add (j := j + 1) (by omega)]

theorem u16At_take {b : List UInt8} {n : ℕ} (hi : i + 1 < n) :
    u16At (b.take n) i = u16At b i := by
  unfold u16At
  rw [byteAt_take (by omega), byteAt_take hi]

theorem slice_append_add (hi : i = front.length + j) (n : ℕ) :
    slice (front ++ back) i n = slice back j n := by
  subst hi
  unfold slice
  rw [List.drop_append, List.drop_eq_nil_of_le (Nat.le_add_right _ _), List.nil_append,
    Nat.add_sub_cancel_left]

theorem slice_append (hi : i = front.length) {n : ℕ} (hn : n = back.length)
    (rest : List UInt8) : slice (front ++ (back ++ rest)) i n = back := by
  subst hi hn
  unfold slice
  rw [List.drop_left, List.take_left]

end Append

theorem u16At_beBytes (v : UInt16) (rest : List UInt8) : u16At (beBytes v ++ rest) 0 = v :=
  ofNat_toNat_pair v

theorem u24At_beBytes24 {n : ℕ} (hn : n < 2 ^ 24) (rest : List UInt8) :
    u24At (beBytes24 n ++ rest) 0 = n := by
  change (UInt8.ofNat (n / 65536)).toNat * 65536 + (UInt8.ofNat (n / 256)).toNat * 256 +
    (UInt8.ofNat n).toNat = n
  rw [UInt8.toNat_ofNat', UInt8.toNat_ofNat', UInt8.toNat_ofNat']
  omega

theorem toNat_ofNat_length {xs : List UInt8} (h : xs.length < 65536) :
    (UInt16.ofNat xs.length).toNat = xs.length := by
  rw [UInt16.toNat_ofNat', Nat.mod_eq_of_lt h]

theorem u16List_flatMap (vs : List UInt16) : u16List (vs.flatMap beBytes) = vs := by
  induction vs with
  | nil => rfl
  | cons v vs ih =>
      change _ :: u16List (vs.flatMap beBytes) = _
      rw [ofNat_toNat_pair, ih]

@[simp] theorem length_flatMap_beBytes (vs : List UInt16) :
    (vs.flatMap beBytes).length = 2 * vs.length := by
  induction vs with
  | nil => rfl
  | cons v vs ih =>
      rw [List.flatMap_cons, List.length_append, length_beBytes, ih, List.length_cons]
      omega

/-! ## Records -/

abbrev Record := UInt16 × List UInt8

def Record.bytes (r : Record) : List UInt8 :=
  beBytes r.1 ++ (beBytes (UInt16.ofNat r.2.length) ++ r.2)

def recordsBytes (rs : List Record) : List UInt8 := rs.flatMap Record.bytes

theorem Record.length_bytes (r : Record) : r.bytes.length = 4 + r.2.length := by
  unfold Record.bytes
  rw [List.length_append, List.length_append, length_beBytes, length_beBytes]
  omega

theorem length_le_recordsBytes {r : Record} {rs : List Record} (hr : r ∈ rs) :
    r.2.length ≤ (recordsBytes rs).length := by
  obtain ⟨before, after, rfl⟩ := List.append_of_mem hr
  unfold recordsBytes
  rw [List.flatMap_append, List.flatMap_cons, List.length_append, List.length_append,
    Record.length_bytes]
  omega

section Walk

variable {σ : Type*} (step : σ → UInt16 → List UInt8 → σ) (b : List UInt8) (stop : ℕ)

def walk (i : ℕ) (s : σ) : σ :=
  if i + 4 ≤ stop then
    let et := u16At b i
    let el := (u16At b (i + 2)).toNat
    if stop < i + 4 + el then s
    else walk (i + 4 + el) (step s et (slice b (i + 4) el))
  else s
termination_by stop - i

end Walk

theorem walk_records {σ : Type*} (step : σ → UInt16 → List UInt8 → σ) (rs : List Record)
    (hfits : ∀ r ∈ rs, r.2.length < 65536) (front back : List UInt8) (s : σ) :
    walk step (front ++ (recordsBytes rs ++ back))
      (front.length + (recordsBytes rs).length) front.length s =
      rs.foldl (fun s r => step s r.1 r.2) s := by
  induction rs generalizing front s with
  | nil =>
      unfold walk
      rw [if_neg (by simp [recordsBytes])]
      rfl
  | cons r rs ih =>
      have hlen := toNat_ofNat_length (hfits r List.mem_cons_self)
      have hrecords : recordsBytes (r :: rs) = r.bytes ++ recordsBytes rs := rfl
      have hlength : (recordsBytes (r :: rs)).length =
          4 + r.2.length + (recordsBytes rs).length := by
        rw [hrecords, List.length_append, Record.length_bytes]
      have htype : u16At (front ++ (recordsBytes (r :: rs) ++ back)) front.length = r.1 := by
        rw [u16At_append_add (j := 0) (Nat.add_zero _).symm, hrecords]
        exact ofNat_toNat_pair r.1
      have hsize : u16At (front ++ (recordsBytes (r :: rs) ++ back)) (front.length + 2) =
          UInt16.ofNat r.2.length := by
        rw [u16At_append_add (j := 2) rfl, hrecords]
        exact ofNat_toNat_pair _
      have hsplit : front ++ (recordsBytes (r :: rs) ++ back) =
          (front ++ (beBytes r.1 ++ beBytes (UInt16.ofNat r.2.length))) ++
            (r.2 ++ (recordsBytes rs ++ back)) := by
        rw [hrecords]
        simp only [Record.bytes, List.append_assoc]
      have hpayload : slice (front ++ (recordsBytes (r :: rs) ++ back)) (front.length + 4)
          r.2.length = r.2 := by
        rw [hsplit]
        exact slice_append (by simp) rfl _
      have hnext := ih (fun r hr => hfits r (List.mem_cons_of_mem _ hr)) (front ++ r.bytes)
        (step s r.1 r.2)
      rw [List.length_append, Record.length_bytes] at hnext
      unfold walk
      rw [if_pos (by omega), htype, hsize, hlen]
      dsimp only
      rw [if_neg (by omega), hpayload, List.foldl_cons, ← hnext, hlength, hrecords]
      simp only [List.append_assoc]
      congr 1 <;> omega

def payloads (et : UInt16) (rs : List Record) : List (List UInt8) :=
  (rs.filter fun r => r.1 == et).map Prod.snd

theorem payloads_append (et : UInt16) (rs : List Record) (r : Record) :
    payloads et (rs ++ [r]) = payloads et rs ++ (if r.1 = et then [r.2] else []) := by
  unfold payloads
  rw [List.filter_append, List.map_append]
  by_cases hr : r.1 = et
  · rw [if_pos hr, List.filter_cons_of_pos (by simpa using hr)]
    rfl
  · rw [if_neg hr, List.filter_cons_of_neg (by simpa using hr)]
    rfl

theorem foldl_last {σ α : Type*} {step : σ → UInt16 → List UInt8 → σ} {f : σ → α}
    {k : UInt16} {g : List UInt8 → α}
    (hset : ∀ s data, f (step s k data) = g data)
    (hkeep : ∀ s t data, t ≠ k → f (step s t data) = f s) (rs : List Record) (s : σ) :
    f (rs.foldl (fun s r => step s r.1 r.2) s) =
      ((payloads k rs).getLast?.map g).getD (f s) := by
  induction rs using List.reverseRecOn with
  | nil => rfl
  | append_singleton rs r ih =>
      rw [List.foldl_append, payloads_append]
      by_cases hr : r.1 = k
      · rw [if_pos hr, List.getLast?_concat]
        change f (step _ r.1 r.2) = _
        rw [hr, hset]
        rfl
      · rw [if_neg hr, List.append_nil, ← ih]
        exact hkeep _ _ _ hr

def strings (b : List UInt8) (stop i : ℕ) : List (List UInt8) :=
  if i < stop then
    let n := byteAt b i
    if stop < i + 1 + n then []
    else slice b (i + 1) n :: strings b stop (i + 1 + n)
  else []
termination_by stop - i

end WireBytes

end GrServer
