import GrServer.QuicStream

/-!
# Decrypting the Initials of a datagram

The long header of a coalesced packet, its header protection and its
decryption, by positions in the datagram.  The cryptographic crates are
parameters: whatever they give, no step leaves its buffer, and every packet
that is taken moves the walk on.
-/

namespace GrServer

namespace QuicInitials

open Faults QuicFrames PieceAssembly TlsHello Text

/-! ## Keys -/

/-- HKDF over SHA-256, a block of AES-128, and AES-128-GCM. -/
structure Primitives where
  hkdfNew : List UInt8 → List UInt8 → Vector UInt8 32
  fromPrk : List UInt8 → Option (Vector UInt8 32)
  /-- Fills a buffer of the given length. -/
  expand : Vector UInt8 32 → List UInt8 → (length : ℕ) → Option (Vector UInt8 length)
  encryptBlock : Vector UInt8 16 → Vector UInt8 16 → Vector UInt8 16
  /-- By key, nonce, message and associated data. -/
  decrypt : Vector UInt8 16 → Vector UInt8 12 → List UInt8 → List UInt8 → Option Buffer

def quicV1 : ℕ := 0x00000001

def quicV2 : ℕ := 0x6b3343cf

def initialSaltV1 : List UInt8 :=
  [0x38, 0x76, 0x2c, 0xf7, 0xf5, 0x59, 0x34, 0xb3, 0x4d, 0x17, 0x9a, 0xe6, 0xa4, 0xc8, 0x0c,
    0xad, 0xcc, 0xbb, 0x7f, 0x0a]

def initialSaltV2 : List UInt8 :=
  [0x0d, 0xed, 0xe3, 0xde, 0xf7, 0x00, 0xa6, 0xdb, 0x81, 0x93, 0x81, 0xbe, 0x6e, 0x26, 0x9d,
    0xcb, 0xf9, 0xbd, 0x2e, 0xd9]

def keyLabels (version : ℕ) : String × String × String :=
  if version = quicV2 then ("quicv2 key", "quicv2 iv", "quicv2 hp")
  else ("quic key", "quic iv", "quic hp")

def initialSalt (version : ℕ) : Option (List UInt8) :=
  if version = quicV1 then some initialSaltV1
  else if version = quicV2 then some initialSaltV2
  else none

def expandInfo (label : String) (context : List UInt8) (length : ℕ) : List UInt8 :=
  let fullLabel := asBytes "tls13 " ++ asBytes label
  WireBytes.beBytes (UInt16.ofNat length) ++ [UInt8.ofNat fullLabel.length] ++ fullLabel ++
    [UInt8.ofNat context.length] ++ context

def hkdfExpandLabel (P : Primitives) (secret : List UInt8) (label : String)
    (context : List UInt8) (length : ℕ) : Option (List UInt8) :=
  (P.fromPrk secret).bind fun hk =>
    (P.expand hk (expandInfo label context length) length).map Vector.toList

abbrev Secrets := Vector UInt8 16 × Vector UInt8 12 × Vector UInt8 16

def deriveClientInitialSecrets (P : Primitives) (version : ℕ) (dcid : List UInt8) :
    Run (Option Secrets) := do
  let some salt := initialSalt version | return none
  let some clientIn := P.expand (P.hkdfNew salt dcid) (expandInfo "client in" [] 32) 32
    | return none
  let (kl, il, hl) := keyLabels version
  let some key := hkdfExpandLabel P clientIn.toList kl [] 16 | return none
  let some iv := hkdfExpandLabel P clientIn.toList il [] 12 | return none
  let some hp := hkdfExpandLabel P clientIn.toList hl [] 16 | return none
  return some (← copyFromSlice 16 key, ← copyFromSlice 12 iv, ← copyFromSlice 16 hp)

def u32From (b : List UInt8) (i : ℕ) : Run ℕ := do
  let hi ← u16From b i
  let lo ← u16From b (← add i 2)
  return hi.toNat * 65536 + lo.toNat

/-- What `decrypt_client_initial` has read before it removes the protection. -/
structure Header where
  version : ℕ
  dcid : List UInt8
  pnOffset : ℕ
  packetEnd : ℕ

def readHeader (data : List UInt8) : Run (Except String Header) := do
  if data.length < 20 then return .error "datagram too short"
  let first ← index data 0
  if first &&& 0x80 = 0 then return .error "not long header"
  let version ← u32From data 1
  let ptype := (first &&& 0x30) >>> 4
  let isInitial := if version = quicV2 then ptype == 1 else ptype == 0
  if !isInitial then
    return .error
      ("not Initial packet (ptype=" ++ digits 10 1 ptype.toNat ++ " ver=" ++
        digits 16 8 version ++ ")")
  let i := 5
  if data.length ≤ i then return .error "truncated after version"
  let dcidLen := (← index data i).toNat
  let i ← add i 1
  if data.length < (← add i dcidLen) then return .error "truncated DCID"
  let dcid ← slice data i (← add i dcidLen)
  let i ← add i dcidLen
  if data.length ≤ i then return .error "truncated SCID len"
  let scidLen := (← index data i).toNat
  let i ← add i 1
  if data.length < (← add i scidLen) then return .error "truncated SCID"
  let i ← add i scidLen
  let some (tokenLen, i) ← readVarint data i | return .error "bad token varint"
  if data.length < (← add i tokenLen) then return .error "truncated token"
  let i ← add i tokenLen
  let some (length, pnOffset) ← readVarint data i | return .error "bad length varint"
  let packetEnd := min (← add pnOffset length) data.length
  if packetEnd < (← add (← add pnOffset 4) 16) then
    return .error "Initial length too small for HP sample"
  return .ok ⟨version, dcid, pnOffset, packetEnd⟩

/-- The packet with its first byte and its packet number unmasked, and the
length and the value of the number. -/
structure Unprotected where
  bytes : List UInt8
  pnLen : ℕ
  pn : ℕ

def unprotect (data : List UInt8) (h : Header) (maskBlock : List UInt8) :
    Run (Except String Unprotected) := do
  let bytes ← slice data 0 h.packetEnd
  let mask ← index maskBlock 0
  let bytes ← modifyAt bytes 0 (· ^^^ (mask &&& 0x0f))
  let pnLen := ((← index bytes 0) &&& 0x03).toNat + 1
  if h.packetEnd < (← add h.pnOffset pnLen) then return .error "PN extends past packet"
  let bytes ← forRange
    (fun j bytes => do
      let mask ← index maskBlock (← add 1 j)
      modifyAt bytes (← add h.pnOffset j) (· ^^^ mask))
    pnLen 0 bytes
  let pn ← forRange
    (fun j pn => do return (← shl pn 8) ||| (← index bytes (← add h.pnOffset j)).toNat)
    pnLen 0 0
  return .ok ⟨bytes, pnLen, pn⟩

def nonceOf (iv : Vector UInt8 12) (pn : ℕ) : Run (Vector UInt8 12) := do
  let bytes ← forRange
    (fun j bytes => do
      let part ← shr pn (8 * (← sub 7 j))
      modifyAt bytes (← add 4 j) (· ^^^ UInt8.ofNat (part &&& 0xff)))
    8 0 iv.toList
  copyFromSlice 12 bytes

structure DecryptedInitial where
  packetNumber : ℕ
  pnLen : ℕ
  plaintext : List UInt8
  cryptoData : List UInt8
  cryptoPieces : List (Piece UInt8)
  dcidHex : String
  packetLen : ℕ
  version : ℕ

def cryptoStream (plaintext : List UInt8) (pieces : List (Piece UInt8)) : Run (List UInt8) := do
  let data ← assembleCrypto pieces
  if data = [] then return (← findClientHelloInBytes plaintext).getD data
  return data

def decryptClientInitial (P : Primitives) (data : List UInt8) :
    Run (Except String DecryptedInitial) := do
  match ← readHeader data with
  | .error e => return .error e
  | .ok h =>
      let sampleOff ← add h.pnOffset 4
      let sampleEnd ← add sampleOff 16
      if h.packetEnd < sampleEnd then return .error "not enough bytes for HP sample"
      let sample ← copyFromSlice 16 (← slice data sampleOff sampleEnd)
      let some (key, iv, hpKey) ← deriveClientInitialSecrets P h.version h.dcid
        | return .error ("unsupported version " ++ digits 16 8 h.version)
      match ← unprotect data h (P.encryptBlock hpKey sample).toList with
      | .error e => return .error e
      | .ok u =>
          let ctOff ← add h.pnOffset u.pnLen
          let aad ← slice u.bytes 0 ctOff
          let ct ← slice u.bytes ctOff h.packetEnd
          if ct.length < 16 then return .error "ciphertext shorter than GCM tag"
          let nonce ← nonceOf iv u.pn
          let some plaintext := P.decrypt key nonce ct aad
            | return .error "AES-GCM decrypt failed (tag mismatch or corrupt packet)"
          let pieces ← extractCryptoPieces plaintext.bytes
          let cryptoData ← cryptoStream plaintext.bytes pieces
          return .ok
            { packetNumber := u.pn
              pnLen := u.pnLen
              plaintext := plaintext.bytes
              cryptoData := cryptoData
              cryptoPieces := pieces
              dcidHex := hexEncode h.dcid
              packetLen := h.packetEnd
              version := h.version }

structure Coalesced where
  off : ℕ
  guard : ℕ
  out : List DecryptedInitial

def takePacket (P : Primitives) (data : List UInt8) (s : Coalesced) :
    Run (ForInStep Coalesced) := do
  if data.length < (← add s.off 20) ∨ 8 ≤ s.guard then return .done s
  let guard ← add s.guard 1
  if (← index data s.off) &&& 0x80 = 0 then return .done s
  match ← decryptClientInitial P (← slice data s.off data.length) with
  | .error _ => return .done s
  | .ok d => return .yield ⟨← add s.off (max d.packetLen 1), guard, s.out ++ [d]⟩

def decryptAllClientInitials (P : Primitives) (data : List UInt8) :
    Run (List DecryptedInitial) := do
  let s ← loop (takePacket P data) (data.length + 1) ⟨0, 0, []⟩
  return s.out

/-! ## Nothing faults -/

def Accepts {ε α : Type} (Q : α → Prop) (r : Except ε α) : Prop := ∀ v, r = .ok v → Q v

section Accepting

variable {ε α β : Type} {Q : α → Prop} {R : β → Prop}

theorem returns_refused {e : ε} : Returns (pure (.error e)) (Accepts Q) :=
  Returns.pure fun _ h => nomatch h

theorem returns_accepted {v : α} (h : Q v) :
    Returns (pure (.ok v)) (Accepts Q : Except ε α → Prop) := by
  refine Returns.pure ?_
  intro w hw
  cases hw
  exact h

theorem bind_accepts {m : Run (Except ε α)} {k : Except ε α → Run β}
    (hm : Returns m (Accepts Q)) (herror : ∀ e, Returns (k (.error e)) R)
    (hok : ∀ v, Q v → Returns (k (.ok v)) R) : Returns (m >>= k) R := by
  refine hm.bind ?_
  intro r hr
  cases r with
  | error e => exact herror e
  | ok v => exact hok v (hr v rfl)

end Accepting

section Packets

variable {P : Primitives} {data : List UInt8}

theorem returns_u32From {i : ℕ} (hfits : data.length < 2 ^ 63) (hin : i + 3 < data.length) :
    Returns (u32From data i) fun _ => True := by
  refine (returns_u16From hfits (by omega)).bind ?_
  intro hi _
  refine (returns_add (by omega)).bind ?_
  intro j hj
  subst hj
  refine (returns_u16From hfits (by omega)).bind ?_
  intro lo _
  exact Returns.pure trivial

theorem returns_deriveClientInitialSecrets (P : Primitives) (version : ℕ) (dcid : List UInt8) :
    Returns (deriveClientInitialSecrets P version dcid) fun _ => True := by
  have hlength : ∀ {secret : List UInt8} {label : String} {n : ℕ} {out : List UInt8},
      hkdfExpandLabel P secret label [] n = some out → out.length = n := by
    intro secret label n out h
    rcases Option.bind_eq_some_iff.mp h with ⟨hk, -, h⟩
    rcases Option.map_eq_some_iff.mp h with ⟨v, -, rfl⟩
    exact v.length_toList
  unfold deriveClientInitialSecrets
  cases initialSalt version with
  | none => exact Returns.pure trivial
  | some salt =>
      dsimp only
      cases P.expand (P.hkdfNew salt dcid) (expandInfo "client in" [] 32) 32 with
      | none => exact Returns.pure trivial
      | some clientIn =>
          dsimp only
          cases hkey : hkdfExpandLabel P clientIn.toList (keyLabels version).1 [] 16 with
          | none => exact Returns.pure trivial
          | some key =>
              dsimp only
              cases hiv : hkdfExpandLabel P clientIn.toList (keyLabels version).2.1 [] 12 with
              | none => exact Returns.pure trivial
              | some iv =>
                  dsimp only
                  cases hhp : hkdfExpandLabel P clientIn.toList (keyLabels version).2.2 [] 16 with
                  | none => exact Returns.pure trivial
                  | some hp =>
                      refine (returns_copyFromSlice (hlength hkey)).bind fun _ _ => ?_
                      refine (returns_copyFromSlice (hlength hiv)).bind fun _ _ => ?_
                      refine (returns_copyFromSlice (hlength hhp)).bind fun _ _ => ?_
                      exact Returns.pure trivial

structure HeaderOf (data : List UInt8) (h : Header) : Prop where
  sample : h.pnOffset + 20 ≤ h.packetEnd
  inside : h.packetEnd ≤ data.length

theorem returns_readHeader (hfits : data.length < 2 ^ 63) :
    Returns (readHeader data) (Accepts (HeaderOf data)) := by
  unfold readHeader
  refine Returns.ite (fun _ => returns_refused) fun hlong => ?_
  refine (returns_index (by omega)).bind ?_
  intro first _
  refine Returns.ite (fun _ => returns_refused) fun _ => ?_
  refine (returns_u32From hfits (by omega)).bind ?_
  intro version _
  refine Returns.ite (fun _ => returns_refused) fun _ => ?_
  refine Returns.ite (fun _ => returns_refused) fun _ => ?_
  refine (returns_index (by omega)).bind ?_
  intro dcidLen _
  have hdcidLen := dcidLen.toNat_lt
  refine (returns_add (by omega)).bind ?_
  intro dcidAt hdcidAt
  refine (returns_add (by omega)).bind ?_
  intro dcidEnd hdcidEnd
  refine Returns.ite (fun _ => returns_refused) fun hdcid => ?_
  refine (returns_add (by omega)).bind ?_
  intro dcidEnd' hdcidEnd'
  refine (returns_slice (by omega) (by omega)).bind ?_
  intro dcid _
  refine (returns_add (by omega)).bind ?_
  intro i hi
  refine Returns.ite (fun _ => returns_refused) fun hscidLen => ?_
  refine (returns_index (by omega)).bind ?_
  intro scidLen _
  have hscidLen := scidLen.toNat_lt
  refine (returns_add (by omega)).bind ?_
  intro scidAt hscidAt
  refine (returns_add (by omega)).bind ?_
  intro scidEnd hscidEnd
  refine Returns.ite (fun _ => returns_refused) fun hscid => ?_
  refine (returns_add (by omega)).bind ?_
  intro tokenLenAt htokenLenAt
  refine bind_readVarint hfits (fun _ => returns_refused) ?_
  intro tokenLen tokenAt htoken
  have htokenSmall := htoken.small
  have htokenIn := htoken.inside
  refine (returns_add (by omega)).bind ?_
  intro tokenEnd htokenEnd
  refine Returns.ite (fun _ => returns_refused) fun htokenFits => ?_
  refine (returns_add (by omega)).bind ?_
  intro lengthAt hlengthAt
  refine bind_readVarint hfits (fun _ => returns_refused) ?_
  intro length pnOffset hpn
  have hlengthSmall := hpn.small
  have hpnIn := hpn.inside
  -- The declared length may point far behind the datagram; the sum still fits.
  refine (returns_add (by omega)).bind ?_
  intro declaredEnd hdeclaredEnd
  refine (returns_add (by omega)).bind ?_
  intro sampleAt hsampleAt
  refine (returns_add (by omega)).bind ?_
  intro sampleEnd hsampleEnd
  refine Returns.ite (fun _ => returns_refused) fun hroom => ?_
  exact returns_accepted ⟨by dsimp only; omega, min_le_right _ _⟩

structure UnprotectedOf (h : Header) (u : Unprotected) : Prop where
  length : u.bytes.length = h.packetEnd
  number : u.pnLen ≤ 4

theorem returns_unprotect (hfits : data.length < 2 ^ 63) {h : Header} (hh : HeaderOf data h)
    {maskBlock : List UInt8} (hmask : maskBlock.length = 16) :
    Returns (unprotect data h maskBlock) (Accepts (UnprotectedOf h)) := by
  have hsample := hh.sample
  have hinside := hh.inside
  unfold unprotect
  refine (returns_slice (Nat.zero_le _) hinside).bind ?_
  rintro bytes ⟨-, hbytes⟩
  refine (returns_index (by omega)).bind ?_
  intro mask _
  refine (returns_modifyAt _ (by omega)).bind ?_
  rintro opened ⟨-, hopened⟩
  refine (returns_index (by omega)).bind ?_
  intro first _
  have hpnLen : (first &&& 0x03).toNat ≤ 3 := by
    rw [UInt8.toNat_and]
    exact Nat.and_le_right
  refine (returns_add (by omega)).bind ?_
  intro pnEnd hpnEnd
  refine Returns.ite (fun _ => returns_refused) fun hfitting => ?_
  have hunmask := returns_forRange (I := fun _ (b : List UInt8) => b.length = h.packetEnd)
    (a := 0) (n := (first &&& 0x03).toNat + 1) (s := opened)
    (f := fun j bytes => do
      let mask ← index maskBlock (← add 1 j)
      modifyAt bytes (← add h.pnOffset j) (· ^^^ mask)) ?_ (by omega)
  · refine hunmask.bind ?_
    intro unmasked hunmasked
    refine Returns.bind (Q := fun _ => True) ?_ fun pn _ =>
      returns_accepted ⟨hunmasked, by dsimp only; omega⟩
    refine returns_forRange (I := fun _ _ => True) ?_ trivial
    intro j pn _ hj _
    refine (returns_shl (by norm_num)).bind ?_
    intro high _
    refine (returns_add (by omega)).bind ?_
    intro at' hat
    refine (returns_index (by omega)).bind ?_
    intro low _
    exact Returns.pure trivial
  · intro j b _ hj hb
    refine (returns_add (by omega)).bind ?_
    intro maskAt hmaskAt
    refine (returns_index (by omega)).bind ?_
    intro mask _
    refine (returns_add (by omega)).bind ?_
    intro at' hat
    exact Returns.mono (returns_modifyAt _ (by omega)) fun c hc => hc.2.trans hb

theorem returns_nonceOf (iv : Vector UInt8 12) (pn : ℕ) :
    Returns (nonceOf iv pn) fun _ => True := by
  refine Returns.bind (returns_forRange (I := fun _ (b : List UInt8) => b.length = 12) ?_
    iv.length_toList) fun b hb => Returns.mono (returns_copyFromSlice hb) fun _ _ => trivial
  intro j b _ hj hb
  refine (returns_sub (by omega)).bind ?_
  intro place hplace
  refine (returns_shr (by omega)).bind ?_
  intro part _
  refine (returns_add (by omega)).bind ?_
  intro at' hat
  exact Returns.mono (returns_modifyAt _ (by omega)) fun c hc => hc.2.trans hb

def Bounded (p : Piece UInt8) : Prop := p.1 < 2 ^ 62 ∧ p.2.length < 2 ^ 63

theorem Bounded.sum_lt {p : Piece UInt8} (h : Bounded p) : p.1 + p.2.length < 2 ^ 64 := by
  have hoff := h.1
  have hlen := h.2
  omega

theorem small_of_reads {bs rest : List UInt8} {v : ℕ} (hfits : bs.length < 2 ^ 63)
    (h : QuicCapture.readVarint bs = some (v, rest)) : v < 2 ^ 62 := by
  rcases returns_readVarint (i := 0) hfits with ⟨r, -, hr⟩
  rw [List.drop_zero, h] at hr
  rcases hr with ⟨-, hnone⟩ | ⟨w, n, -, hw⟩
  · exact nomatch hnone
  · have hreads := hw.reads
    rw [List.drop_zero, h] at hreads
    cases hreads
    exact hw.small

theorem bounded_readFrame {bs : List UInt8} (hfits : bs.length < 2 ^ 63) (ftype : ℕ) :
    ∀ p ∈ (QuicCapture.readFrame ftype bs).1, Bounded p := by
  unfold QuicCapture.readFrame
  split_ifs
  iterate 4 exact nofun
  · cases hread : (QuicCapture.readVarint bs).bind fun off =>
        (QuicCapture.readVarint off.2).map fun len => (off.1, len) with
    | none => exact nofun
    | some c =>
        rcases Option.bind_eq_some_iff.mp hread with ⟨off, hoff, hlen⟩
        rcases Option.map_eq_some_iff.mp hlen with ⟨len, hdata, rfl⟩
        have hsmall := small_of_reads hfits hoff
        have h₁ := length_readVarint hoff
        have h₂ := length_readVarint hdata
        dsimp only
        split_ifs
        · intro p hp
          rw [List.mem_singleton.mp hp]
          exact ⟨hsmall, by dsimp only; omega⟩
        · intro p hp
          rw [List.mem_singleton.mp hp]
          refine ⟨hsmall, ?_⟩
          have htake := List.length_take_le len.1 len.2
          dsimp only
          omega
  iterate 3 exact nofun

theorem bounded_extractCryptoPieces {bs : List UInt8} (hfits : bs.length < 2 ^ 63) :
    ∀ p ∈ QuicCapture.extractCryptoPieces bs, Bounded p := by
  have hwalk : ∀ (n : ℕ) (bs : List UInt8), bs.length < 2 ^ 63 →
      ∀ p ∈ QuicCapture.walkFrames n bs, Bounded p := by
    intro n
    induction n with
    | zero =>
        intro bs _ p hp
        cases hp
    | succ n ih =>
        intro bs hfits
        rw [QuicCapture.walkFrames]
        cases hread : QuicCapture.readVarint bs with
        | none =>
            intro p hp
            cases hp
        | some v =>
            have hlen := length_readVarint hread
            have hhere : ∀ p ∈ (QuicCapture.readFrame v.1 v.2).1, Bounded p :=
              bounded_readFrame (by omega) v.1
            cases hframe : QuicCapture.readFrame v.1 v.2 with
            | mk pieces next =>
                rw [hframe] at hhere
                cases next with
                | none =>
                    simp only [hframe]
                    exact hhere
                | some rest =>
                    have hrest := length_readFrame hframe
                    simp only [hframe]
                    intro p hp
                    rcases List.mem_append.mp hp with hp | hp
                    · exact hhere p hp
                    · exact ih rest (by omega) p hp
  exact hwalk _ _ hfits

theorem length_assembleCrypto (pieces : List (Piece UInt8)) :
    (QuicCapture.assembleCrypto pieces).length ≤ 64 * 1024 := by
  unfold QuicCapture.assembleCrypto assemble
  refine (List.reduceOption_length_le _).trans ?_
  refine (List.takeWhile_sublist _).length_le.trans ?_
  rw [length_foldl_fill, List.length_replicate]
  exact min_le_right _ _

theorem length_findClientHello {bs hello : List UInt8}
    (h : QuicCapture.findClientHelloInBytes bs = some hello) : hello.length ≤ bs.length := by
  unfold QuicCapture.findClientHelloInBytes at h
  split_ifs at h
  rcases Option.map_eq_some_iff.mp h with ⟨i, -, rfl⟩
  exact ((List.take_sublist _ _).trans (List.drop_sublist _ _)).length_le

theorem returns_cryptoStream {plaintext : List UInt8} (hfits : plaintext.length < 2 ^ 63) :
    Returns (cryptoStream plaintext (QuicCapture.extractCryptoPieces plaintext))
      (· = QuicCapture.cryptoData plaintext) := by
  have hbounded := bounded_extractCryptoPieces hfits
  unfold cryptoStream QuicCapture.cryptoData
  refine (returns_assembleCrypto fun p hp => (hbounded p hp).sum_lt).bind ?_
  intro stream hstream
  subst hstream
  refine Returns.ite ?_ ?_
  · intro hnil
    rw [if_pos hnil, hnil]
    refine (returns_findClientHelloInBytes hfits).bind ?_
    intro found hfound
    subst hfound
    exact Returns.pure rfl
  · intro hsome
    rw [if_neg hsome]
    exact Returns.pure rfl

theorem length_cryptoData {plaintext : List UInt8} (hfits : plaintext.length < 2 ^ 63) :
    (QuicCapture.cryptoData plaintext).length < 2 ^ 63 := by
  have hstream := length_assembleCrypto (QuicCapture.extractCryptoPieces plaintext)
  unfold QuicCapture.cryptoData
  dsimp only
  split_ifs
  · cases hfound : QuicCapture.findClientHelloInBytes plaintext with
    | none => norm_num
    | some hello => exact (length_findClientHello hfound).trans_lt hfits
  · omega

/-- A packet that is taken lies within the datagram and gives what the capture
makes of its plaintext. -/
structure InitialOf (data : List UInt8) (d : DecryptedInitial) : Prop where
  advances : 20 ≤ d.packetLen
  inside : d.packetLen ≤ data.length
  fits : d.plaintext.length < 2 ^ 63
  pieces : d.cryptoPieces = QuicCapture.extractCryptoPieces d.plaintext
  stream : d.cryptoData = QuicCapture.cryptoData d.plaintext

theorem returns_decryptClientInitial (P : Primitives) (hfits : data.length < 2 ^ 63) :
    Returns (decryptClientInitial P data) (Accepts (InitialOf data)) := by
  unfold decryptClientInitial
  refine bind_accepts (returns_readHeader hfits) (fun _ => returns_refused) ?_
  intro h hh
  have hsample := hh.sample
  have hinside := hh.inside
  dsimp only
  refine (returns_add (by omega)).bind ?_
  intro sampleOff hsampleOff
  refine (returns_add (by omega)).bind ?_
  intro sampleEnd hsampleEnd
  refine Returns.ite (fun _ => returns_refused) fun _ => ?_
  refine (returns_slice (by omega) (by omega)).bind ?_
  rintro sampleBytes ⟨-, hsampleLen⟩
  refine (returns_copyFromSlice (by omega)).bind ?_
  intro sample _
  refine (returns_deriveClientInitialSecrets P h.version h.dcid).bind ?_
  intro secrets _
  rcases secrets with _ | ⟨key, iv, hpKey⟩
  · exact returns_refused
  dsimp only
  refine bind_accepts (returns_unprotect hfits hh (P.encryptBlock hpKey sample).length_toList)
    (fun _ => returns_refused) ?_
  intro u hu
  have hlength := hu.length
  have hnumber := hu.number
  dsimp only
  refine (returns_add (by omega)).bind ?_
  intro ctOff hctOff
  refine (returns_slice (Nat.zero_le _) (by omega)).bind ?_
  intro aad _
  refine (returns_slice (by omega) (by omega)).bind ?_
  intro ct _
  refine Returns.ite (fun _ => returns_refused) fun _ => ?_
  refine (returns_nonceOf iv u.pn).bind ?_
  intro nonce _
  -- Whatever the cipher gives is a buffer, and no more is known of it.
  cases P.decrypt key nonce ct aad with
  | none => exact returns_refused
  | some plaintext =>
      dsimp only
      refine (returns_extractCryptoPieces plaintext.fits).bind ?_
      intro pieces hpieces
      subst hpieces
      refine (returns_cryptoStream plaintext.fits).bind ?_
      intro stream hstream
      subst hstream
      exact returns_accepted ⟨by dsimp only; omega, hinside, plaintext.fits, rfl, rfl⟩

def Taken (data : List UInt8) (s s' : Coalesced) : Prop :=
  s.off < s'.off ∧ s'.off ≤ data.length ∧
    ∃ (d : DecryptedInitial) (tail : List UInt8), InitialOf tail d ∧ s'.out = s.out ++ [d]

theorem returns_takePacket (P : Primitives) (hfits : data.length < 2 ^ 63) {s : Coalesced}
    (hoff : s.off ≤ data.length) : Returns (takePacket P data s) fun
      | .yield s' => Taken data s s'
      | .done s' => s' = s := by
  unfold takePacket
  refine (returns_add (by omega)).bind ?_
  intro least hleast
  refine Returns.ite (fun _ => Returns.pure rfl) fun hgo => ?_
  rw [not_or] at hgo
  refine (returns_add (by omega)).bind ?_
  intro guard _
  refine (returns_index (by omega)).bind ?_
  intro first _
  refine Returns.ite (fun _ => Returns.pure rfl) fun _ => ?_
  refine (returns_slice hoff le_rfl).bind ?_
  rintro tail ⟨-, htail⟩
  refine bind_accepts (returns_decryptClientInitial P (by omega)) (fun _ => Returns.pure rfl) ?_
  intro d hd
  have hadvances := hd.advances
  have hwithin := hd.inside
  dsimp only
  refine (returns_add (by omega)).bind ?_
  intro next hnext
  exact Returns.pure ⟨by dsimp only; omega, by dsimp only; omega, d, tail, hd, rfl⟩

/-- What the walk over the packets keeps: it is within the datagram, and has
what `InitialOf` says of every packet it has taken. -/
structure Underway (data : List UInt8) (s : Coalesced) : Prop where
  inside : s.off ≤ data.length
  taken : ∀ d ∈ s.out, ∃ tail : List UInt8, InitialOf tail d

theorem Underway.next {s s' : Coalesced} (hs : Underway data s) (h : Taken data s s') :
    Underway data s' := by
  rcases h with ⟨-, hinside, d, tail, hd, hout⟩
  refine ⟨hinside, ?_⟩
  intro e he
  rw [hout] at he
  rcases List.mem_append.mp he with he | he
  · exact hs.taken e he
  · rw [List.mem_singleton.mp he]
    exact ⟨tail, hd⟩

theorem returns_decryptAllClientInitials (P : Primitives) (hfits : data.length < 2 ^ 63) :
    Returns (decryptAllClientInitials P data) fun out =>
      ∀ d ∈ out, ∃ tail : List UInt8, InitialOf tail d := by
  have hstart : Underway data ⟨0, 0, []⟩ := ⟨Nat.zero_le _, nofun⟩
  refine Returns.bind (returns_loop (I := Underway data) (Q := fun s => Underway data s)
    (m := fun s => data.length - s.off) ?_ hstart ?_) fun s hs => Returns.pure hs.taken
  · intro s hs
    refine Returns.mono (returns_takePacket P hfits hs.inside) ?_
    intro r hr
    cases r with
    | yield s' =>
        have hlt := hr.1
        have hinside := hr.2.1
        exact ⟨hs.next hr, by omega⟩
    | done s' =>
        have hsame : s' = s := hr
        rw [hsame]
        exact hs
  · dsimp only
    omega

end Packets

end QuicInitials

end GrServer
