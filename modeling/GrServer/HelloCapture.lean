import GrServer.GuardedRun
import GrServer.HelloAgreement
import GrServer.OldestFirst
import GrServer.QuicCapture

/-!
# Captured ClientHellos

The pieces of one hello come under one connection id, in any order and as often
as they like, between those of other ids.  What the reassembly has is always a
beginning of the hello.  The parser does not look at the declared length, so
the report is that of the whole hello only where no beginning is parsed that
ends behind the length of the compression methods.
-/

namespace GrServer

namespace QuicCapture

open WireBytes PieceAssembly TlsHello

section Beginnings

variable (h : ClientHello) {n : ℕ}

def headEnd (h : ClientHello) : ℕ := 4 + (h.opening.length + h.suites.length) + 1

theorem readHello_take (step : ClientHelloParts → UInt16 → List UInt8 → ClientHelloParts)
    (hn : n < h.opening.length + h.suites.length + 1) :
    readHello step (h.body.take n) = none := by
  have hbody := h.length_body
  have hopening := h.length_opening
  have hsuites := h.length_suites
  have htake : (h.body.take n).length = n := by
    rw [List.length_take]
    omega
  unfold readHello
  rw [if_pos]
  rw [htake]
  by_cases hsession : n ≤ 34
  · exact Or.inl hsession
  have hciphersAt : ciphersAt (h.body.take n) = h.opening.length := by
    rw [← h.ciphersAt_body]
    unfold ciphersAt
    rw [byteAt_take (by omega)]
  rw [hciphersAt]
  by_cases hciphers : n < h.opening.length + 2
  · exact Or.inr (Or.inl hciphers)
  have hcompressionAt : compressionAt (h.body.take n) = h.opening.length + h.suites.length := by
    rw [← h.compressionAt_body]
    unfold compressionAt
    rw [hciphersAt, h.ciphersAt_body, u16At_take (by omega)]
  rw [hcompressionAt]
  omega

theorem headEnd_le : headEnd h ≤ h.bytes.length := by
  have hlen := h.length_bytes
  have hbody := h.length_body
  have hopening := h.length_opening
  have hsuites := h.length_suites
  unfold headEnd
  omega

theorem tryParse_take (hn : n < headEnd h) :
    tryParseTlsClientHelloFull (h.bytes.take n) = none := by
  have hlength : (h.bytes.take n).length = n := by
    have hend := headEnd_le h
    rw [List.length_take]
    omega
  unfold tryParseTlsClientHelloFull
  by_cases hshort : n < 4
  · rw [if_pos (by omega)]
  have hfirst : byteAt (h.bytes.take n) 0 = 0x01 := byteAt_take (by omega)
  have hrecord : afterRecordHeader (h.bytes.take n) = h.bytes.take n := by
    unfold afterRecordHeader
    rw [if_neg]
    rintro ⟨hkind, -⟩
    rw [hfirst] at hkind
    cases hkind
  have hnotnil : h.bytes.take n ≠ [] := by
    intro hnil
    rw [hnil] at hlength
    exact hshort (by rw [← hlength]; exact Nat.zero_lt_succ _)
  rw [if_neg (by omega), hrecord]
  dsimp only
  rw [if_neg (by rintro (hnil | hother); exacts [hnotnil hnil, hother hfirst]), Option.bind_some]
  split
  · rfl
  · have hdrop : (h.bytes.take n).drop 4 = h.body.take (n - 4) := by
      rw [List.drop_take, ClientHello.drop_bytes]
    rw [hdrop]
    unfold headEnd at hn
    exact readHello_take h _ (by omega)

def Harmless (b : List UInt8) : Prop :=
  b = h.bytes ∨ ∃ n, n < headEnd h ∧ b = h.bytes.take n

variable {h}

theorem Harmless.report (D : Digests) {b : List UInt8} (hb : Harmless h b) :
    (if b = [] then none else applyClientHelloToInfo D b) = none ∨
      (if b = [] then none else applyClientHelloToInfo D b) =
        applyClientHelloToInfo D h.bytes := by
  by_cases hnil : b = []
  · rw [if_pos hnil]
    exact Or.inl rfl
  · rw [if_neg hnil]
    obtain rfl | ⟨n, hn, rfl⟩ := hb
    · exact Or.inr rfl
    · left
      unfold applyClientHelloToInfo
      rw [tryParse_take h hn]
      rfl

theorem harmless_of_reaches {ps : List (Piece UInt8)} (hreach : Reaches ps h.bytes n)
    (hwhole : Covers ps h.bytes.length ∨ ¬ Covers ps (headEnd h)) :
    Harmless h (h.bytes.take n) := by
  rcases hwhole with hall | hhead
  · left
    rw [hreach.eq_length hall, List.take_length]
  · right
    refine ⟨n, ?_, rfl⟩
    by_contra hfar
    exact hhead fun i hi => hreach.covers i (by omega)

end Beginnings

section Sweep

variable {oldest : Oldest} {now : ℕ} {g : CryptoReasm} {c : String} {e : CryptoReasmEntry}

theorem length_erase_lt {k : String} (hk : g.get? k = some e) :
    (g.erase k).entries.length < g.entries.length := by
  apply List.length_filter_lt_length_iff_exists.mpr
  exact ⟨(k, e), Assoc.mem_of_find? hk, by simp⟩

theorem get?_evict_eq_some (n : ℕ) (h : (evict oldest n g).get? c = some e) :
    g.get? c = some e := by
  induction n generalizing g with
  | zero => exact h
  | succ n ih =>
      unfold evict at h
      split_ifs at h with hroom
      · exact h
      · split at h
        · have hleft := ih h
          rw [SortedMap.get?_erase] at hleft
          split_ifs at hleft
          exact hleft
        · exact h

theorem length_evict_le (n : ℕ) : (evict oldest n g).entries.length ≤ g.entries.length := by
  induction n generalizing g with
  | zero => exact le_rfl
  | succ n ih =>
      unfold evict
      split_ifs with hroom
      · exact le_rfl
      · split
        · exact le_trans ih (List.length_filter_le _ _)
        · exact le_rfl

theorem evict_full {n : ℕ} (hfull : g.entries.length = reasmMaxKeys) {k : String}
    (hk : oldest.find g = some k) : evict oldest (n + 1) g = g.erase k := by
  obtain ⟨f, hf, -⟩ := oldest.least g k hk
  have hless := length_erase_lt hf
  unfold evict
  rw [if_neg (by omega), hk]
  dsimp only
  cases n with
  | zero => rfl
  | succ n =>
      unfold evict
      rw [if_pos (by omega)]

theorem get?_dropExpired :
    (dropExpired now g).get? c = some e ↔ g.get? c = some e ∧ now - e.lastSeen < reasmTtl := by
  unfold dropExpired
  rw [SortedMap.get?_filter_eq_some, decide_eq_true_eq]

theorem get?_swept (hsmall : g.entries.length ≤ reasmMaxKeys) (hc : g.get? c = some e)
    (hyoung : now - e.lastSeen < reasmTtl)
    (hroom : (dropExpired now g).entries.length < reasmMaxKeys ∨
      ∃ k f, (dropExpired now g).get? k = some f ∧ f.lastSeen < e.lastSeen) :
    (swept oldest now g).get? c = some e := by
  have hlive : (dropExpired now g).get? c = some e := get?_dropExpired.mpr ⟨hc, hyoung⟩
  have hlength : (dropExpired now g).entries.length ≤ g.entries.length :=
    List.length_filter_le _ _
  unfold swept
  dsimp only
  by_cases hless : (dropExpired now g).entries.length < reasmMaxKeys
  · cases hfuel : (dropExpired now g).entries.length with
    | zero => exact hlive
    | succ n =>
        unfold evict
        rw [if_pos hless]
        exact hlive
  · obtain ⟨k, f, hk, holder⟩ := hroom.resolve_left hless
    have hfull : (dropExpired now g).entries.length = reasmMaxKeys := by omega
    obtain ⟨n, hn⟩ : ∃ n, (dropExpired now g).entries.length = n + 1 := ⟨255, hfull⟩
    cases hfind : oldest.find (dropExpired now g) with
    | none =>
        rw [oldest.finds _ hfind] at hn
        cases hn
    | some j =>
        obtain ⟨f', hj, hleast⟩ := oldest.least _ j hfind
        have hne : c ≠ j := by
          rintro rfl
          rw [hlive, Option.some.injEq] at hj
          subst hj
          have hle := hleast k f hk
          omega
        rw [hn, evict_full hfull hfind, SortedMap.get?_erase, if_neg hne, hlive]

theorem get?_swept_eq_some (h : (swept oldest now g).get? c = some e) : g.get? c = some e :=
  (get?_dropExpired.mp (get?_evict_eq_some _ h)).1

theorem length_swept_lt (hsmall : g.entries.length ≤ reasmMaxKeys) :
    (swept oldest now g).entries.length < reasmMaxKeys := by
  have hlength : (dropExpired now g).entries.length ≤ g.entries.length :=
    List.length_filter_le _ _
  unfold swept
  dsimp only
  by_cases hless : (dropExpired now g).entries.length < reasmMaxKeys
  · exact lt_of_le_of_lt (length_evict_le _) hless
  · have hfull : (dropExpired now g).entries.length = reasmMaxKeys := by omega
    obtain ⟨n, hn⟩ : ∃ n, (dropExpired now g).entries.length = n + 1 := ⟨255, hfull⟩
    cases hfind : oldest.find (dropExpired now g) with
    | none =>
        rw [oldest.finds _ hfind] at hn
        cases hn
    | some j =>
        obtain ⟨f, hj, -⟩ := oldest.least _ j hfind
        have hshorter := length_erase_lt hj
        rw [hn, evict_full hfull hfind]
        omega

end Sweep

section Push

variable {s : List UInt8} {arrived pieces : List (Piece UInt8)} {e : CryptoReasmEntry}

structure EntryOf (s : List UInt8) (arrived : List (Piece UInt8)) (e : CryptoReasmEntry) :
    Prop where
  subset : ∀ p ∈ e.pieces, p ∈ arrived
  pieces : e.pieces = arrived ∨ Covers arrived s.length
  best : ∃ n, Reaches arrived s n ∧ e.bestStream = s.take n

theorem reaches_nil : Reaches [] s 0 := by
  refine ⟨Nat.zero_le _, nofun, Or.inr ?_⟩
  rintro ⟨p, hp, -⟩
  cases hp

theorem entryOf_new (now : ℕ) : EntryOf s [] (newEntry now) :=
  ⟨nofun, Or.inl rfl, 0, reaches_nil, rfl⟩

theorem assembleCrypto_slices (hsize : s.length ≤ 64 * 1024) {ps : List (Piece UInt8)}
    (hps : ∀ p ∈ ps, IsSlice s p) :
    ∃ n, Reaches ps s n ∧ assembleCrypto ps = s.take n :=
  assemble_slices hsize hps

theorem mem_of_mem_capPieces {ps : List (Piece UInt8)} {p : Piece UInt8}
    (hp : p ∈ capPieces ps) : p ∈ ps := List.mem_of_mem_drop hp

theorem push_pieces (e : CryptoReasmEntry) (now : ℕ) (pieces : List (Piece UInt8)) :
    (e.push now pieces).pieces = capPieces (e.pieces ++ pieces) := by
  unfold CryptoReasmEntry.push
  dsimp only

theorem push_bestStream (e : CryptoReasmEntry) (now : ℕ) (pieces : List (Piece UInt8)) :
    (e.push now pieces).bestStream =
      longer e.bestStream (assembleCrypto (capPieces (e.pieces ++ pieces))) := by
  unfold CryptoReasmEntry.push longer
  dsimp only

theorem EntryOf.push (h : EntryOf s arrived e) (hsize : s.length ≤ 64 * 1024)
    (hslices : ∀ p ∈ arrived ++ pieces, IsSlice s p)
    (hfew : (arrived ++ pieces).length ≤ 64 ∨ Covers arrived s.length) (now : ℕ) :
    EntryOf s (arrived ++ pieces) (e.push now pieces) := by
  have hsub : ∀ p ∈ capPieces (e.pieces ++ pieces), p ∈ arrived ++ pieces := by
    intro p hp
    rcases List.mem_append.mp (mem_of_mem_capPieces hp) with hold | hnew
    · exact List.mem_append_left _ (h.subset p hold)
    · exact List.mem_append_right _ hnew
  obtain ⟨k, hk, hstream⟩ := assembleCrypto_slices hsize fun p hp => hslices p (hsub p hp)
  obtain ⟨n, hn, hbest⟩ := h.best
  have hlast : ∀ {m : ℕ}, m ≤ s.length → (s.take m).length = m := fun hm => by
    rw [List.length_take]
    omega
  refine ⟨hsub, ?_, ?_⟩
  · rcases hfew with hfew | hall
    · rcases h.pieces with hpieces | hall
      · left
        rw [push_pieces]
        unfold capPieces
        rw [hpieces, Nat.sub_eq_zero_of_le hfew, List.drop_zero]
      · exact Or.inr (hall.mono fun p hp => List.mem_append_left _ hp)
    · exact Or.inr (hall.mono fun p hp => List.mem_append_left _ hp)
  · rw [push_bestStream, hstream, hbest]
    unfold longer
    rw [hlast hk.bound, hlast hn.bound]
    by_cases hall : Covers arrived s.length
    · -- everything had come: the best stream is the whole and stays
      have hwhole := hn.eq_length hall
      have hbound := hk.bound
      refine ⟨n, ⟨hn.bound, ?_, Or.inl hwhole⟩, if_neg (by omega)⟩
      exact hn.covers.mono fun p hp => List.mem_append_left _ hp
    · have hpieces := h.pieces.resolve_right hall
      have hkept : capPieces (e.pieces ++ pieces) = arrived ++ pieces := by
        unfold capPieces
        rw [hpieces, Nat.sub_eq_zero_of_le (hfew.resolve_right hall), List.drop_zero]
      rw [hkept] at hk
      have hle : n ≤ k := hn.mono hk fun p hp => List.mem_append_left _ hp
      refine ⟨k, hk, ?_⟩
      split_ifs with hless
      · rfl
      · have hsame : n = k := by omega
        rw [hsame]

end Push

section Promise

variable (D : Digests) (h : ClientHello) (c : String)

/-- The packets under the id carry pieces of the hello. -/
def Carries : World → Event → Prop
  | _, .packet _ _ dcidHex plaintext _ _ =>
      dcidHex = c → ∀ p ∈ extractCryptoPieces plaintext, IsSlice h.bytes p
  | _, _ => True

structure Lossless (s : World) (t : ℕ) (plaintext : List UInt8) (now : ℕ) : Prop where
  named : c ≠ ""
  /-- The datagram has no packet of another id. -/
  alone : ∀ k ∈ (s.datagram t).dcids, k = c
  /-- What has come is not swept away. -/
  stays : s.arrived c ≠ [] → ∃ e, s.reasm.get? c = some e ∧ now - e.lastSeen < reasmTtl ∧
    ((dropExpired now s.reasm).entries.length < reasmMaxKeys ∨
      ∃ k f, (dropExpired now s.reasm).get? k = some f ∧ f.lastSeen < e.lastSeen)
  few : (s.arrived c ++ pushedPieces plaintext).length ≤ 64 ∨
    Covers (s.arrived c) h.bytes.length
  /-- A packet without the beginning holds nothing that looks like another hello. -/
  scan : assembleCrypto (extractCryptoPieces plaintext) = [] →
    findClientHelloInBytes plaintext = none ∨ findClientHelloInBytes plaintext = some h.bytes

def Guarded (s : World) : Event → Prop
  | .datagram _ => True
  | .packet t _ dcidHex plaintext now _ =>
      (dcidHex = c → Lossless h c s t plaintext now) ∧
        (dcidHex ≠ c → c ∉ (s.datagram t).dcids)
  | .finish t =>
      c ∈ (s.datagram t).dcids →
        Covers (s.datagram t).behind h.bytes.length ∨ ¬ Covers (s.datagram t).behind (headEnd h)

/-- Once all pieces have come the reassembly returns the hello, and no datagram
reports anything but the whole of it. -/
structure Promise (s : World) : Prop where
  returned : Covers (s.arrived c) h.bytes.length → s.returned c = h.bytes
  reported : s.report c = none ∨ s.report c = applyClientHelloToInfo D h.bytes

structure Sees (came : List (Piece UInt8)) (d : Datagram) : Prop where
  come : ∀ p ∈ d.behind, p ∈ came
  best : d.bestCrypto = h.bytes ∨
    ∃ n, Reaches d.behind h.bytes n ∧ d.bestCrypto = h.bytes.take n

structure Kept (s : World) : Prop where
  promise : Promise D h c s
  slices : ∀ p ∈ s.arrived c, IsSlice h.bytes p
  small : s.reasm.entries.length ≤ reasmMaxKeys
  fresh : s.arrived c = [] → s.reasm.get? c = none
  entry : ∀ e, s.reasm.get? c = some e → EntryOf h.bytes (s.arrived c) e
  sole : ∀ t, c ∈ (s.datagram t).dcids → ∀ k ∈ (s.datagram t).dcids, k = c
  sees : ∀ t, (∀ k ∈ (s.datagram t).dcids, k = c) → Sees h (s.arrived c) (s.datagram t)

variable {D h c} {s : World}

theorem sees_empty (came : List (Piece UInt8)) : Sees h came emptyDatagram :=
  ⟨nofun, Or.inr ⟨0, reaches_nil, rfl⟩⟩

theorem kept_start : Kept D h c start where
  promise := by
    constructor
    · intro hall
      obtain ⟨p, hp, -⟩ := hall 0 (Nat.succ_pos _)
      cases hp
    · exact Or.inl rfl
  slices := nofun
  small := Nat.zero_le _
  fresh := fun _ => rfl
  entry := nofun
  sole := fun _ hc => nomatch hc
  sees := fun _ _ => sees_empty _

/-! ## Packets -/

theorem length_insert_le (g : CryptoReasm) (k : String) (e : CryptoReasmEntry) :
    (g.insert k e).entries.length ≤ g.entries.length + 1 := by
  change (Assoc.insert k e g.entries).length ≤ _
  induction g.entries with
  | nil => exact le_rfl
  | cons entry rest ih =>
      unfold Assoc.insert
      split_ifs <;> simp only [List.length_cons] at ih ⊢ <;> omega

theorem cryptoData_cases (hsize : h.bytes.length ≤ 64 * 1024) {plaintext : List UInt8}
    (hslices : ∀ p ∈ extractCryptoPieces plaintext, IsSlice h.bytes p)
    (hscan : assembleCrypto (extractCryptoPieces plaintext) = [] →
      findClientHelloInBytes plaintext = none ∨
        findClientHelloInBytes plaintext = some h.bytes) :
    cryptoData plaintext = h.bytes ∨
      ∃ n, Reaches (extractCryptoPieces plaintext) h.bytes n ∧
        cryptoData plaintext = h.bytes.take n := by
  obtain ⟨n, hreach, hassembled⟩ := assembleCrypto_slices hsize hslices
  unfold cryptoData
  by_cases hnil : assembleCrypto (extractCryptoPieces plaintext) = []
  · rcases hscan hnil with hnone | hfound
    · right
      refine ⟨n, hreach, ?_⟩
      rw [← hassembled, hnil, hnone]
      rfl
    · left
      rw [hnil, hfound]
      rfl
  · right
    refine ⟨n, hreach, ?_⟩
    dsimp only
    rw [if_neg hnil, hassembled]

theorem pushedPieces_slices {plaintext : List UInt8}
    (hslices : ∀ p ∈ extractCryptoPieces plaintext, IsSlice h.bytes p)
    (hcrypto : cryptoData plaintext = h.bytes ∨
      ∃ n, Reaches (extractCryptoPieces plaintext) h.bytes n ∧
        cryptoData plaintext = h.bytes.take n) :
    ∀ p ∈ pushedPieces plaintext, IsSlice h.bytes p := by
  intro p hp
  unfold pushedPieces at hp
  split_ifs at hp with hpieces hdata
  · exact hslices p hp
  · rw [List.mem_singleton] at hp
    subst hp
    rcases hcrypto with hwhole | ⟨n, -, htake⟩
    · rw [hwhole]
      exact ⟨by simp, fun j _ => by simp⟩
    · rw [htake]
      constructor
      · simp
      · intro j hj
        rw [List.getElem?_take_of_lt (lt_of_lt_of_le hj (List.length_take_le _ _)), Nat.zero_add]
  · cases hp

theorem see_cases (d : Datagram) (pn : ℕ) (crypto : List UInt8) :
    (d.see pn crypto).dcids = d.dcids ∧ (d.see pn crypto).behind = d.behind ∧
      ((d.see pn crypto).bestCrypto = d.bestCrypto ∨
        (d.see pn crypto).bestCrypto = crypto ∧ crypto ≠ []) := by
  unfold Datagram.see
  split_ifs with hseen hnil
  · exact ⟨rfl, rfl, Or.inl rfl⟩
  · exact ⟨rfl, rfl, Or.inr ⟨rfl, hnil⟩⟩
  · exact ⟨rfl, rfl, Or.inl rfl⟩

theorem pushedPieces_eq_nil {plaintext : List UInt8} (hnil : pushedPieces plaintext = []) :
    extractCryptoPieces plaintext = [] ∧ cryptoData plaintext = [] := by
  unfold pushedPieces at hnil
  by_cases hpieces : extractCryptoPieces plaintext = []
  · rw [if_neg (not_not_intro hpieces)] at hnil
    by_cases hdata : cryptoData plaintext = []
    · exact ⟨hpieces, hdata⟩
    · rw [if_pos hdata] at hnil
      cases hnil
  · rw [if_pos hpieces] at hnil
    exact absurd hnil hpieces

theorem reasmPushCrypto_eq {oldest : Oldest} {now : ℕ} {g : CryptoReasm} {k : String}
    {pieces : List (Piece UInt8)} (hk : k ≠ "") (hpieces : pieces ≠ []) :
    reasmPushCrypto oldest now g k pieces =
      ((swept oldest now g).insert k
        ((((swept oldest now g).get? k).getD (newEntry now)).push now pieces),
        ((((swept oldest now g).get? k).getD (newEntry now)).push now pieces).bestStream) := by
  unfold reasmPushCrypto
  rw [if_neg (by rintro (hempty | hnil); exacts [hk hempty, hpieces hnil])]

theorem reach_le_of_pushed {arrived : List (Piece UInt8)} {plaintext : List UInt8} {k n : ℕ}
    (hk : Reaches (extractCryptoPieces plaintext) h.bytes k)
    (hreach : Reaches (arrived ++ pushedPieces plaintext) h.bytes n) : k ≤ n := by
  by_cases hpieces : extractCryptoPieces plaintext = []
  · rw [hpieces] at hk
    rcases Nat.eq_zero_or_pos k with rfl | hpos
    · exact Nat.zero_le n
    · obtain ⟨p, hp, -⟩ := hk.covers 0 hpos
      cases hp
  · apply hk.mono hreach
    intro p hp
    apply List.mem_append_right
    unfold pushedPieces
    rw [if_pos hpieces]
    exact hp

theorem longer_of_le {best crypto : List UInt8} (hle : crypto.length ≤ best.length) :
    longer best crypto = best := by
  unfold longer
  rw [if_neg (Nat.not_lt.mpr hle)]

theorem longer_take {b : List UInt8} {m n : ℕ} (hmn : m ≤ n) :
    longer (b.take m) (b.take n) = b.take n := by
  unfold longer
  split_ifs with hless
  · rfl
  · rw [List.length_take, List.length_take] at hless
    rcases Nat.lt_or_ge m b.length with hm | hm
    · have hsame : m = n := by omega
      rw [hsame]
    · rw [List.take_of_length_le hm, List.take_of_length_le (by omega)]

namespace Sees

variable {came after : List (Piece UInt8)} {d : Datagram}

theorem mono (hsees : Sees h came d) (hsub : ∀ p ∈ came, p ∈ after) : Sees h after d :=
  ⟨fun p hp => hsub p (hsees.come p hp), hsees.best⟩

theorem harmless (hsees : Sees h came d)
    (hwhole : Covers d.behind h.bytes.length ∨ ¬ Covers d.behind (headEnd h)) :
    Harmless h d.bestCrypto := by
  rcases hsees.best with hall | ⟨n, hreach, htake⟩
  · exact Or.inl hall
  · rw [htake]
    exact harmless_of_reaches hreach hwhole

theorem push {best crypto : List UInt8} {n : ℕ} (hsees : Sees h came d)
    (hsub : ∀ p ∈ came, p ∈ after) (hreach : Reaches after h.bytes n)
    (hcrypto : crypto = h.bytes ∨ ∃ k, k ≤ n ∧ crypto = h.bytes.take k)
    (hbest : best = d.bestCrypto ∨ best = crypto) :
    longer best (h.bytes.take n) = h.bytes ∨ longer best (h.bytes.take n) = h.bytes.take n := by
  have hknown : best = h.bytes ∨ ∃ k, k ≤ n ∧ best = h.bytes.take k := by
    rcases hbest with rfl | rfl
    · rcases hsees.best with hall | ⟨m, hm, htake⟩
      · exact Or.inl hall
      · exact Or.inr ⟨m, hm.mono hreach fun p hp => hsub p (hsees.come p hp), htake⟩
    · exact hcrypto
  rcases hknown with hall | ⟨k, hk, htake⟩
  · left
    rw [hall]
    exact longer_of_le (List.length_take_le' _ _)
  · right
    rw [htake]
    exact longer_take hk

end Sees

namespace Kept

theorem sole_update (hkept : Kept D h c s) {t : ℕ} {d : Datagram}
    (hd : c ∈ d.dcids → ∀ k ∈ d.dcids, k = c) (u : ℕ) :
    c ∈ (Function.update s.datagram t d u).dcids →
      ∀ k ∈ (Function.update s.datagram t d u).dcids, k = c := by
  by_cases hut : u = t
  · subst hut
    rw [Function.update_self]
    exact hd
  · rw [Function.update_of_ne hut]
    exact hkept.sole u

theorem sees_update (hkept : Kept D h c s) {t : ℕ} {d : Datagram} {came : List (Piece UInt8)}
    (hsub : ∀ p ∈ s.arrived c, p ∈ came)
    (hd : (∀ k ∈ d.dcids, k = c) → Sees h came d) (u : ℕ) :
    (∀ k ∈ (Function.update s.datagram t d u).dcids, k = c) →
      Sees h came (Function.update s.datagram t d u) := by
  by_cases hut : u = t
  · subst hut
    rw [Function.update_self]
    exact hd
  · rw [Function.update_of_ne hut]
    exact fun hown => (hkept.sees u hown).mono hsub

theorem onward (hkept : Kept D h c s) (t : ℕ) {d : Datagram}
    (hsole : c ∈ d.dcids → ∀ k ∈ d.dcids, k = c)
    (hsees : (∀ k ∈ d.dcids, k = c) → Sees h (s.arrived c) d) :
    Kept D h c { s with datagram := Function.update s.datagram t d } where
  promise := ⟨hkept.promise.returned, hkept.promise.reported⟩
  slices := hkept.slices
  small := hkept.small
  fresh := hkept.fresh
  entry := hkept.entry
  sole := hkept.sole_update hsole
  sees := hkept.sees_update (fun _ hp => hp) hsees

theorem length_push_le (hkept : Kept D h c s) (oldest : Oldest) (now : ℕ) (k : String)
    (pieces : List (Piece UInt8)) :
    (reasmPushCrypto oldest now s.reasm k pieces).1.entries.length ≤ reasmMaxKeys := by
  unfold reasmPushCrypto
  split_ifs
  · exact hkept.small
  · have hroom : (swept oldest now s.reasm).entries.length < reasmMaxKeys :=
      length_swept_lt hkept.small
    exact le_trans (length_insert_le _ _ _) hroom

theorem packet_other (hkept : Kept D h c s) {t pn now : ℕ} {k : String} {plaintext : List UInt8}
    {oldest : Oldest} (hother : k ≠ c) (hapart : c ∉ (s.datagram t).dcids) :
    Kept D h c (packet s t pn k plaintext now oldest) := by
  obtain ⟨hdcids, -, -⟩ := see_cases (s.datagram t) pn (cryptoData plaintext)
  have hnotin : c ∉ ((s.datagram t).see pn (cryptoData plaintext)).dcids ++ [k] := by
    rw [hdcids, List.mem_append, List.mem_singleton]
    rintro (hc | rfl)
    · exact hapart hc
    · exact hother rfl
  have hmixed : ¬ ∀ j ∈ ((s.datagram t).see pn (cryptoData plaintext)).dcids ++ [k], j = c :=
    fun hall => hother (hall k (List.mem_append_right _ (List.mem_singleton_self k)))
  have hentry : ∀ pieces e, (reasmPushCrypto oldest now s.reasm k pieces).1.get? c = some e →
      s.reasm.get? c = some e := by
    intro pieces e he
    unfold reasmPushCrypto at he
    split_ifs at he
    · exact he
    · rw [SortedMap.get?_insert_of_ne hother.symm] at he
      exact get?_swept_eq_some he
  unfold packet
  dsimp only
  split_ifs with hnil
  · exact hkept.onward t (fun hc => absurd hc hnotin) fun hall => absurd hall hmixed
  · refine ⟨⟨?_, hkept.promise.reported⟩, ?_, hkept.length_push_le _ _ _ _, ?_, ?_,
      hkept.sole_update fun hc => absurd hc hnotin,
      hkept.sees_update ?_ fun hall => absurd hall hmixed⟩
    · dsimp only
      rw [Function.update_of_ne hother.symm, Function.update_of_ne hother.symm]
      exact hkept.promise.returned
    · dsimp only
      rw [Function.update_of_ne hother.symm]
      exact hkept.slices
    · dsimp only
      rw [Function.update_of_ne hother.symm]
      intro harrived
      by_contra hpresent
      obtain ⟨e, he⟩ := Option.ne_none_iff_exists'.mp hpresent
      rw [hkept.fresh harrived] at hentry
      cases hentry _ e he
    · dsimp only
      rw [Function.update_of_ne hother.symm]
      exact fun e he => hkept.entry e (hentry _ e he)
    · dsimp only
      rw [Function.update_of_ne hother.symm]
      exact fun p hp => hp

theorem entry_found (hkept : Kept D h c s) (oldest : Oldest) {t : ℕ} {plaintext : List UInt8}
    {now : ℕ} (hlossless : Lossless h c s t plaintext now) :
    EntryOf h.bytes (s.arrived c)
      (((swept oldest now s.reasm).get? c).getD (newEntry now)) := by
  by_cases harrived : s.arrived c = []
  · have hnone : (swept oldest now s.reasm).get? c = none := by
      by_contra hpresent
      obtain ⟨e, he⟩ := Option.ne_none_iff_exists'.mp hpresent
      have hold := get?_swept_eq_some he
      rw [hkept.fresh harrived] at hold
      cases hold
    rw [hnone, harrived]
    exact entryOf_new now
  · obtain ⟨e, he, hyoung, hroom⟩ := hlossless.stays harrived
    rw [get?_swept hkept.small he hyoung hroom]
    exact hkept.entry e he

theorem packet_own (hkept : Kept D h c s) (hsize : h.bytes.length ≤ 64 * 1024) {t pn now : ℕ}
    {plaintext : List UInt8} {oldest : Oldest}
    (hslices : ∀ p ∈ extractCryptoPieces plaintext, IsSlice h.bytes p)
    (hlossless : Lossless h c s t plaintext now) :
    Kept D h c (packet s t pn c plaintext now oldest) := by
  obtain ⟨hdcids, hbehind, hseen⟩ := see_cases (s.datagram t) pn (cryptoData plaintext)
  have hall : ∀ k ∈ ((s.datagram t).see pn (cryptoData plaintext)).dcids ++ [c], k = c := by
    rw [hdcids]
    intro k hk
    rcases List.mem_append.mp hk with hold | hnew
    · exact hlossless.alone k hold
    · exact List.mem_singleton.mp hnew
  have hsees := hkept.sees t hlossless.alone
  have hcrypto := cryptoData_cases hsize hslices hlossless.scan
  unfold packet
  dsimp only
  split_ifs with hnil
  · have hempty := (pushedPieces_eq_nil hnil).2
    refine hkept.onward t (fun _ => hall) fun _ => ⟨?_, ?_⟩
    · dsimp only
      rw [hbehind]
      exact hsees.come
    · dsimp only
      rw [hbehind]
      rcases hseen with hseen | ⟨-, hdata⟩
      · rw [hseen]
        exact hsees.best
      · exact absurd hempty hdata
  · have hpushed := pushedPieces_slices hslices hcrypto
    have hslice : ∀ p ∈ s.arrived c ++ pushedPieces plaintext, IsSlice h.bytes p := by
      intro p hp
      rcases List.mem_append.mp hp with hold | hnew
      · exact hkept.slices p hold
      · exact hpushed p hnew
    have hentry := (hkept.entry_found oldest hlossless).push hsize hslice hlossless.few now
    rw [reasmPushCrypto_eq hlossless.named hnil]
    obtain ⟨n, hreach, hstream⟩ := hentry.best
    have hfar : cryptoData plaintext = h.bytes ∨
        ∃ k, k ≤ n ∧ cryptoData plaintext = h.bytes.take k := by
      rcases hcrypto with hwhole | ⟨k, hk, htake⟩
      · exact Or.inl hwhole
      · exact Or.inr ⟨k, reach_le_of_pushed hk hreach, htake⟩
    have hlonger := hsees.push (fun p hp => List.mem_append_left _ hp) hreach hfar
      (hseen.imp_right And.left)
    dsimp only
    rw [hstream]
    refine ⟨⟨?_, hkept.promise.reported⟩, ?_, ?_, ?_, ?_, hkept.sole_update fun _ => hall,
      hkept.sees_update ?_ fun _ => ⟨?_, ?_⟩⟩
    · dsimp only
      rw [Function.update_self, Function.update_self]
      intro hcomplete
      rw [hreach.eq_length hcomplete, List.take_length]
    · dsimp only
      rw [Function.update_self]
      exact hslice
    · have hroom : (swept oldest now s.reasm).entries.length < reasmMaxKeys :=
        length_swept_lt hkept.small
      exact le_trans (length_insert_le _ _ _) hroom
    · dsimp only
      rw [Function.update_self]
      intro harrived
      exact absurd (List.append_eq_nil_iff.mp harrived).2 hnil
    · dsimp only
      rw [Function.update_self, SortedMap.get?_insert_self]
      intro e he
      obtain rfl := Option.some.inj he
      exact hentry
    · dsimp only
      rw [Function.update_self]
      exact fun p hp => List.mem_append_left _ hp
    · dsimp only
      rw [Function.update_self]
      exact fun p hp => hp
    · dsimp only
      exact hlonger.imp_right fun htake => ⟨n, hreach, htake⟩

theorem finish (hkept : Kept D h c s) {t : ℕ} (hguard : Guarded h c s (.finish t)) :
    Kept D h c (finish D s t) := by
  refine { hkept with promise := ⟨hkept.promise.returned, ?_⟩ }
  unfold QuicCapture.finish
  dsimp only
  by_cases hc : c ∈ (s.datagram t).dcids
  · rw [if_pos hc]
    exact ((hkept.sees t (hkept.sole t hc)).harmless (hguard hc)).report D
  · rw [if_neg hc]
    exact hkept.promise.reported

theorem step (hkept : Kept D h c s) (hsize : h.bytes.length ≤ 64 * 1024) {e : Event}
    (hcarries : Carries h c s e) (hguard : Guarded h c s e) : Kept D h c (step D s e) := by
  cases e with
  | datagram t => exact hkept.onward t nofun fun _ => sees_empty _
  | packet t pn dcidHex plaintext now oldest =>
      by_cases hown : dcidHex = c
      · subst hown
        exact hkept.packet_own hsize (hcarries rfl) (hguard.1 rfl)
      · exact hkept.packet_other hown (hguard.2 hown)
  | finish t => exact hkept.finish hguard

end Kept

/-- In a lossless run the reassembly returns the hello once its pieces have
come, and every datagram reports the whole hello or nothing. -/
theorem captured_whole (D : Digests) (h : ClientHello) (hsize : h.bytes.length ≤ 64 * 1024)
    (c : String) (es : List Event) (hcarries : Along (QuicCapture.step D) (Carries h c) start es)
    (hguard : Along (QuicCapture.step D) (Guarded h c) start es) :
    Along (QuicCapture.step D) (fun s e => Promise D h c (QuicCapture.step D s e)) start es := by
  refine Along.steps (I := Kept D h c) ?_ (hcarries.and hguard) kept_start
  rintro s e hkept ⟨hcarried, hguarded⟩
  have hnext := hkept.step hsize hcarried hguarded
  exact ⟨hnext.promise, hnext⟩

end Promise

/-! ## A hello in two pieces -/

def firstOldest : Oldest where
  find g := (OldestFirst.oldestFirst (fun p : String × CryptoReasmEntry => p.2.lastSeen)
    g.entries).head?.map Prod.fst
  finds := by
    intro g hnone
    by_contra hne
    rw [Option.map_eq_none_iff] at hnone
    have hsome := @OldestFirst.head?_isSome _ _ _
      (fun p : String × CryptoReasmEntry => p.2.lastSeen) _ hne
    rw [hnone] at hsome
    cases hsome
  least := by
    intro g k hfind
    obtain ⟨⟨j, e⟩, hhead, rfl⟩ := Option.map_eq_some_iff.mp hfind
    have hmem := OldestFirst.mem_oldestFirst.mp (List.mem_of_mem_head? hhead)
    refine ⟨e, SortedMap.get?_eq_some_iff.mpr hmem, ?_⟩
    intro i f hf
    exact OldestFirst.head?_le hhead (i, f) (SortedMap.get?_eq_some_iff.mp hf)

def probeHello : ClientHello :=
  { dtlsHello with
    extensions := some [(43, [2, 3, 4])]
    extensions_length := by
      intro rs hrs
      cases hrs
      decide
    alpn_proper := by
      intro rs hrs r hr hkind
      cases hrs
      rw [List.mem_singleton.mp hr] at hkind
      cases hkind }

def cryptoFrame (off : UInt8) (data : List UInt8) : List UInt8 :=
  0x06 :: off :: UInt8.ofNat data.length :: data

def datagramOf (dcidHex : String) (plaintext : List UInt8) : List Event :=
  [.datagram 0, .packet 0 0 dcidHex plaintext 0 firstOldest, .finish 0]

theorem step_packet (D : Digests) (s : World) (t pn : ℕ) (dcidHex : String)
    (plaintext : List UInt8) (now : ℕ) (oldest : Oldest) :
    QuicCapture.step D s (.packet t pn dcidHex plaintext now oldest) =
      packet s t pn dcidHex plaintext now oldest := rfl

theorem step_finish (D : Digests) (s : World) (t : ℕ) :
    QuicCapture.step D s (.finish t) = finish D s t := rfl

theorem report_first (D : Digests) {c : String} {plaintext data : List UInt8}
    (hpieces : extractCryptoPieces plaintext = [(0, data)])
    (hdata : assembleCrypto [(0, data)] = data) (hne : data ≠ []) :
    (runFrom (QuicCapture.step D) start (datagramOf c plaintext)).report c =
      applyClientHelloToInfo D data := by
  have hcrypto : cryptoData plaintext = data := by
    unfold cryptoData
    rw [hpieces, hdata, if_neg hne]
  have hpushed : pushedPieces plaintext = [(0, data)] := by
    unfold pushedPieces
    rw [hpieces, if_pos (List.cons_ne_nil _ _)]
  have hsee : emptyDatagram.see 0 data = ⟨data, some 0, [], []⟩ := by
    have hfirst : emptyDatagram.bestPn = none ∨ emptyDatagram.bestCrypto.length < data.length :=
      Or.inl rfl
    unfold Datagram.see
    rw [if_pos hfirst, if_neg hne]
    rfl
  have hstream : (reasmPushCrypto firstOldest 0 SortedMap.empty c [(0, data)]).2 = data := by
    unfold reasmPushCrypto
    by_cases hempty : c = "" ∨ [(0, data)] = []
    · rw [if_pos hempty, hdata]
    · rw [if_neg hempty]
      have hfound : ((swept firstOldest 0 SortedMap.empty).get? c).getD (newEntry 0) =
          newEntry 0 := rfl
      have hkept : capPieces ((newEntry 0).pieces ++ [(0, data)]) = [(0, data)] := rfl
      have hlonger : longer (newEntry 0).bestStream data = data :=
        if_pos (List.length_pos_iff.mpr hne)
      dsimp only
      rw [hfound, push_bestStream, hkept, hdata, hlonger]
  have hpacket : (packet (QuicCapture.step D start (.datagram 0)) 0 0 c plaintext 0
      firstOldest).datagram 0 = ⟨data, some 0, [c], [(0, data)]⟩ := by
    unfold packet
    dsimp only [QuicCapture.step]
    rw [Function.update_self, hcrypto, hpushed, hsee, if_neg (List.cons_ne_nil _ _)]
    dsimp only
    rw [Function.update_self, start, hstream]
    simp [longer]
  unfold datagramOf
  rw [runFrom_cons, runFrom_cons, runFrom_cons, runFrom_nil, step_packet, step_finish]
  unfold finish
  dsimp only
  rw [hpacket, if_pos (List.mem_singleton_self c), if_neg hne]

/-- The end of the hello comes first, then the end of a datagram of another id,
and last a datagram that brings the end once more and the beginning. -/
def shuffledRun : List Event :=
  [.datagram 0,
    .packet 0 7 "8394c8f0" (cryptoFrame 40 (probeHello.bytes.drop 40)) 0 firstOldest,
    .datagram 1, .packet 1 0 "0011" (cryptoFrame 0 (probeHello.bytes.take 9)) 1 firstOldest,
    .finish 0, .finish 1, .datagram 0,
    .packet 0 7 "8394c8f0" (cryptoFrame 40 (probeHello.bytes.drop 40)) 2 firstOldest,
    .packet 0 5 "8394c8f0" (cryptoFrame 0 (probeHello.bytes.take 40)) 3 firstOldest,
    .finish 0]

def shuffledAt (n : ℕ) : World :=
  runFrom (QuicCapture.step ⟨id, id⟩) start (shuffledRun.take n)

theorem stays_of_lastSeen {s : World} {now : ℕ} {c : String} (seen : ℕ)
    (hseen : (s.reasm.get? c).map CryptoReasmEntry.lastSeen = some seen)
    (hyoung : now - seen < reasmTtl)
    (hroom : (dropExpired now s.reasm).entries.length < reasmMaxKeys) :
    ∃ e, s.reasm.get? c = some e ∧ now - e.lastSeen < reasmTtl ∧
      ((dropExpired now s.reasm).entries.length < reasmMaxKeys ∨
        ∃ k f, (dropExpired now s.reasm).get? k = some f ∧ f.lastSeen < e.lastSeen) := by
  obtain ⟨e, he, hlast⟩ := Option.map_eq_some_iff.mp hseen
  rw [← hlast] at hyoung
  exact ⟨e, he, hyoung, Or.inl hroom⟩

theorem extract_end : extractCryptoPieces (cryptoFrame 40 (probeHello.bytes.drop 40)) =
    [(40, probeHello.bytes.drop 40)] := by decide

theorem extract_beginning : extractCryptoPieces (cryptoFrame 0 (probeHello.bytes.take 40)) =
    [(0, probeHello.bytes.take 40)] := by decide

theorem scan_end : findClientHelloInBytes (cryptoFrame 40 (probeHello.bytes.drop 40)) = none := by
  decide

theorem lossless_end : Lossless probeHello "8394c8f0" (shuffledAt 1) 0
    (cryptoFrame 40 (probeHello.bytes.drop 40)) 0 where
  named := by decide
  alone := nofun
  stays := fun harrived => absurd rfl harrived
  few := Or.inl (by decide)
  scan := fun _ => Or.inl scan_end

theorem lossless_again : Lossless probeHello "8394c8f0" (shuffledAt 7) 0
    (cryptoFrame 40 (probeHello.bytes.drop 40)) 2 where
  named := by decide
  alone := nofun
  stays := fun _ => stays_of_lastSeen 0 (by decide) (by decide) (by decide)
  few := Or.inl (by decide)
  scan := fun _ => Or.inl scan_end

theorem lossless_beginning : Lossless probeHello "8394c8f0" (shuffledAt 8) 0
    (cryptoFrame 0 (probeHello.bytes.take 40)) 3 where
  named := by decide
  alone := by decide
  stays := fun _ => stays_of_lastSeen 2 (by decide) (by decide) (by decide)
  few := Or.inl (by decide)
  scan := by
    intro hnil
    rw [extract_beginning] at hnil
    have hassembled : assembleCrypto [(0, probeHello.bytes.take 40)] =
        probeHello.bytes.take 40 := by decide
    rw [hassembled] at hnil
    exact absurd hnil (by decide)

/-- With the beginning the reassembly returns the hello and the last datagram
reports it. -/
theorem shuffledRun_captured :
    Along (QuicCapture.step ⟨id, id⟩)
      (fun s e => Promise ⟨id, id⟩ probeHello "8394c8f0" (QuicCapture.step ⟨id, id⟩ s e)) start
      shuffledRun ∧
    (runFrom (QuicCapture.step ⟨id, id⟩) start shuffledRun).returned "8394c8f0" =
      probeHello.bytes ∧
    (runFrom (QuicCapture.step ⟨id, id⟩) start shuffledRun).report "8394c8f0" =
      applyClientHelloToInfo ⟨id, id⟩ probeHello.bytes := by
  have hend : ∀ p ∈ extractCryptoPieces (cryptoFrame 40 (probeHello.bytes.drop 40)),
      IsSlice probeHello.bytes p := by
    rw [extract_end]
    intro p hp
    rw [List.mem_singleton.mp hp]
    exact ⟨by decide, by decide⟩
  have hbeginning : ∀ p ∈ extractCryptoPieces (cryptoFrame 0 (probeHello.bytes.take 40)),
      IsSlice probeHello.bytes p := by
    rw [extract_beginning]
    intro p hp
    rw [List.mem_singleton.mp hp]
    exact ⟨by decide, by decide⟩
  have hother : "0011" ≠ "8394c8f0" := by decide
  have hmissing : ((shuffledAt 4).datagram 0).behind = [(40, probeHello.bytes.drop 40)] := by
    decide
  have hhead : ¬ Covers ((shuffledAt 4).datagram 0).behind (headEnd probeHello) := by
    rw [hmissing]
    intro hcovers
    obtain ⟨p, hp, hle, -⟩ := hcovers 0 (Nat.succ_pos _)
    rw [List.mem_singleton.mp hp] at hle
    exact absurd hle (by decide)
  have hforeign : "8394c8f0" ∉ ((shuffledAt 5).datagram 1).dcids := by decide
  have hcame : ((shuffledAt 9).datagram 0).behind = [(40, probeHello.bytes.drop 40),
      (40, probeHello.bytes.drop 40), (0, probeHello.bytes.take 40)] := by decide
  have hall : Covers ((shuffledAt 9).datagram 0).behind probeHello.bytes.length := by
    rw [hcame]
    intro i hi
    have hlength : probeHello.bytes.length = 54 := by decide
    by_cases hlow : i < 40
    · exact ⟨(0, probeHello.bytes.take 40), by simp, Nat.zero_le i, by
        rw [List.length_take]
        omega⟩
    · exact ⟨(40, probeHello.bytes.drop 40), by simp, Nat.not_lt.mp hlow, by
        rw [List.length_drop]
        omega⟩
  have hcaptured := captured_whole ⟨id, id⟩ probeHello (by decide) "8394c8f0" shuffledRun
    ⟨trivial, fun _ => hend, trivial, fun hown => absurd hown hother, trivial, trivial, trivial,
      fun _ => hend, fun _ => hbeginning, trivial, trivial⟩
    ⟨trivial, ⟨fun _ => lossless_end, fun hne => absurd rfl hne⟩, trivial,
      ⟨fun hown => absurd hown hother, fun _ => by decide⟩, fun _ => Or.inr hhead,
      fun hmem => absurd hmem hforeign, trivial,
      ⟨fun _ => lossless_again, fun hne => absurd rfl hne⟩,
      ⟨fun _ => lossless_beginning, fun hne => absurd rfl hne⟩, fun _ => Or.inl hall, trivial⟩
  have hpromise := Along.last hcaptured (List.cons_ne_nil _ _)
  have hreported : (runFrom (QuicCapture.step ⟨id, id⟩) start shuffledRun).report "8394c8f0" ≠
      none := by decide
  have harrived : (runFrom (QuicCapture.step ⟨id, id⟩) start shuffledRun).arrived "8394c8f0" =
      ((shuffledAt 9).datagram 0).behind := by decide
  exact ⟨hcaptured, hpromise.returned (harrived ▸ hall), hpromise.reported.resolve_left hreported⟩

/-- The first datagram brings the hello up to its compression methods, the
second one the rest. -/
def splitRun : List Event :=
  datagramOf "8394c8f0" (cryptoFrame 0 (probeHello.bytes.take 44)) ++
    datagramOf "8394c8f0" (cryptoFrame 44 (probeHello.bytes.drop 44))

/-- The first datagram reports a hello without extensions. -/
theorem split_hello_reported :
    Along (QuicCapture.step ⟨id, id⟩) (Carries probeHello "8394c8f0") start splitRun ∧
      ¬ Along (QuicCapture.step ⟨id, id⟩)
        (fun s e => Promise ⟨id, id⟩ probeHello "8394c8f0" (QuicCapture.step ⟨id, id⟩ s e))
        start splitRun := by
  have hfirst : extractCryptoPieces (cryptoFrame 0 (probeHello.bytes.take 44)) =
      [(0, probeHello.bytes.take 44)] := by decide
  have hsecond : extractCryptoPieces (cryptoFrame 44 (probeHello.bytes.drop 44)) =
      [(44, probeHello.bytes.drop 44)] := by decide
  constructor
  · have hhead : IsSlice probeHello.bytes (0, probeHello.bytes.take 44) :=
      ⟨by decide, by decide⟩
    have htail : IsSlice probeHello.bytes (44, probeHello.bytes.drop 44) :=
      ⟨by decide, by decide⟩
    refine ⟨trivial, fun _ => ?_, trivial, trivial, fun _ => ?_, trivial, trivial⟩
    · rw [hfirst]
      intro p hp
      rw [List.mem_singleton.mp hp]
      exact hhead
    · rw [hsecond]
      intro p hp
      rw [List.mem_singleton.mp hp]
      exact htail
  · intro hpromise
    have hassembled : assembleCrypto [(0, probeHello.bytes.take 44)] =
        probeHello.bytes.take 44 := by decide
    have hreport := report_first ⟨id, id⟩ (c := "8394c8f0") hfirst hassembled (by decide)
    have hparsed : tryParseTlsClientHelloFull (probeHello.bytes.take 44) =
        some { legacyVersion := 0x0303, ciphers := [0x1301] } := rfl
    have hja3 : buildJa3String { legacyVersion := 0x0303, ciphers := [0x1301] } ≠
        buildJa3String (probeHello.parts captureExtension) := by decide
    obtain ⟨hbegun, -⟩ := (along_append _ _ _).mp hpromise
    have hreported := (Along.last hbegun (List.cons_ne_nil _ _)).reported
    rw [hreport] at hreported
    unfold applyClientHelloToInfo at hreported
    rw [hparsed, ClientHello.tryParseTlsClientHelloFull_bytes] at hreported
    rcases hreported with hnone | hsame
    · cases hnone
    · exact hja3 (congrArg TlsReport.tlsJa3 (Option.some.inj hsame))

end QuicCapture

end GrServer
