import GrServer.QuicStream

/-!
# The ClientHello of a stream, index by index

`try_parse_tls_client_hello_full` and `extract_ext_payloads_from_crypto` as
they read a stream that anybody may have sent.  Neither leaves the stream, and
both give what `TlsHello` says.
-/

namespace GrServer

namespace QuicHello

open Faults QuicFrames WireBytes TlsHello

def parseSupportedGroups (data : List UInt8) : Run (List UInt16) := do
  if data.length < 2 then return []
  let len := (← u16From data 0).toNat
  let rest ← Faults.slice data 2 data.length
  return u16List (← Faults.slice rest 0 (min len rest.length))

/-- `rest.get(..len.min(rest.len()))` cannot fail. -/
def parseEcPointFormats (data : List UInt8) : Run (List UInt8) := do
  if data = [] then return []
  let len := (← index data 0).toNat
  let rest ← Faults.slice data 1 data.length
  return rest.take (min len rest.length)

def parseSupportedVersions (data : List UInt8) : Run (List UInt16) := do
  if data = [] then return []
  let len := (← index data 0).toNat
  let rest ← Faults.slice data 1 data.length
  return u16List (← Faults.slice rest 0 (min len rest.length))

def parseSni (data : List UInt8) : Run (Option String) := do
  if data.length < 5 then return none
  let i := 2
  if data.length ≤ i then return none
  let nameType ← index data i
  let i ← add i 1
  if nameType ≠ 0 ∨ data.length < (← add i 2) then return none
  let nameLen := (← u16From data i).toNat
  let i ← add i 2
  if data.length < (← add i nameLen) then return none
  return fromUtf8 (← Faults.slice data i (← add i nameLen))

def readStrings (data : List UInt8) (stop i : ℕ) (out : List String) : Run (List String) := do
  let s ← loop (fun (i, out) => do
    if stop ≤ i then return .done (i, out)
    let n := (← index data i).toNat
    let i ← add i 1
    if stop < (← add i n) then return .done (i, out)
    let text ← Faults.slice data i (← add i n)
    return .yield (← add i n, out ++ (fromUtf8 text).toList)) (data.length + 1) (i, out)
  return s.2

def readExtension (p : ClientHelloParts) (et : UInt16) (ed : List UInt8) :
    Run ClientHelloParts := do
  let p := { p with extensions := p.extensions ++ [et] }
  if et = 0 then return { p with sni := ← parseSni ed }
  else if et = 10 then return { p with supportedGroups := ← parseSupportedGroups ed }
  else if et = 11 then return { p with ecPointFormats := ← parseEcPointFormats ed }
  else if et = 13 then return { p with signatureAlgorithms := ← parseSupportedGroups ed }
  else if et = 16 then return { p with alpn := ← readStrings ed ed.length 2 p.alpn }
  else if et = 43 then return { p with supportedVersions := ← parseSupportedVersions ed }
  else return p

section Records

variable {σ : Type}

def readRecords (step : σ → UInt16 → List UInt8 → Run σ) (body : List UInt8) (stop i : ℕ)
    (s : σ) : Run σ := do
  let last ← loop (fun (i, s) => do
    if stop < (← add i 4) then return .done (i, s)
    let et ← u16From body i
    let el := (← u16From body (← add i 2)).toNat
    let i ← add i 4
    if stop < (← add i el) then return .done (i, s)
    let s ← step s et (← Faults.slice body i (← add i el))
    return .yield (← add i el, s)) (body.length + 1) (i, s)
  return last.2

end Records

structure Opening where
  parts : ClientHelloParts
  extensions : Option (ℕ × ℕ)

def readOpening (body : List UInt8) : Run (Option Opening) := do
  if body.length < 34 then return none
  let legacyVersion ← u16From body 0
  let i := 2 + 32
  if body.length ≤ i then return none
  let sidLen := (← index body i).toNat
  let i ← add i (← add 1 sidLen)
  if body.length < (← add i 2) then return none
  let csLen := (← u16From body i).toNat
  let i ← add i 2
  if body.length < (← add i csLen) then return none
  let ciphers := u16List (← Faults.slice body i (← add i csLen))
  let parts : ClientHelloParts := { legacyVersion := legacyVersion, ciphers := ciphers }
  let i ← add i csLen
  if body.length ≤ i then return none
  let compLen := (← index body i).toNat
  let i ← add i (← add 1 compLen)
  if body.length < (← add i 2) then return some ⟨parts, none⟩
  let extLen := (← u16From body i).toNat
  let i ← add i 2
  return some ⟨parts, some (i, min (← add i extLen) body.length)⟩

def plausibleAt (p : List UInt8) (idx : ℕ) : Run Bool := do
  if (← index p idx) ≠ 0x01 then return false
  let hsLen ← u24From p (← add idx 1)
  if 38 ≤ hsLen ∧ hsLen < 16 * 1024 then
    if p.length < (← add (← add idx 4) (min hsLen 38)) then return false
    if p.length < (← add idx 6) then return false
    let ver ← u16From p (← add idx 4)
    return [0x0303, 0x0301, 0x0302].contains ver
  return false

def findClientHello (p : List UInt8) : Run (Option ℕ) := do
  let s ← loop (fun (idx, _) => do
    if p.length - 4 ≤ idx then return .done (idx, none)
    if ← plausibleAt p idx then return .done (idx, some idx)
    return .yield (idx + 1, none)) (p.length + 1) (0, none)
  return s.2

def behindRecord (crypto : List UInt8) (record : Bool) : Run (List UInt8) :=
  if record ∧ 5 < crypto.length then Faults.slice crypto 5 crypto.length else pure crypto

/-- Where the hello starts; unless a message is there, where one may be. -/
def helloStart (p : List UInt8) : Run (Option ℕ) := do
  if p = [] then findClientHello p
  else if (← index p 0) ≠ 0x01 then findClientHello p
  else return some 0

def tryParseTlsClientHelloFull (crypto : List UInt8) : Run (Option ClientHelloParts) := do
  if crypto.length < 4 then return none
  let p ← behindRecord crypto ((← index crypto 0) == 0x16)
  let some idx ← helloStart p | return none
  let p ← Faults.slice p idx p.length
  if p.length < 38 then return none
  let body ← Faults.slice p 4 p.length
  let some opening ← readOpening body | return none
  let some (i, extEnd) := opening.extensions | return some opening.parts
  return some (← readRecords readExtension body extEnd i opening.parts)

def extractExtPayloadsFromCrypto (crypto : List UInt8) : Run (List Record) := do
  let p ← behindRecord crypto (crypto.head? == some 0x16)
  if p = [] then return []
  if (← index p 0) ≠ 0x01 ∨ p.length < 42 then return []
  let body ← Faults.slice p 4 p.length
  if body.length < 38 then return []
  let i := 2 + 32
  if body.length ≤ i then return []
  let sidLen := (← index body i).toNat
  let i ← add i (← add 1 sidLen)
  if body.length < (← add i 2) then return []
  let csLen := (← u16From body i).toNat
  let i ← add i (← add 2 csLen)
  if body.length ≤ i then return []
  let compLen := (← index body i).toNat
  let i ← add i (← add 1 compLen)
  if body.length < (← add i 2) then return []
  let extLen := (← u16From body i).toNat
  let i ← add i 2
  let extEnd := min (← add i extLen) body.length
  readRecords (fun out et data => return out ++ [(et, data)]) body extEnd i []

/-! ## Nothing faults, and nothing is read otherwise -/

section Extensions

variable {data : List UInt8} {i n : ℕ}

theorem returns_sliceAt {j : ℕ} (hj : j = i + n) (hin : i + n ≤ data.length) :
    Returns (Faults.slice data i j) (· = WireBytes.slice data i n) := by
  refine Returns.mono (returns_slice (by omega) (by omega)) ?_
  rintro s ⟨hs, -⟩
  rw [hs, hj, Nat.add_sub_cancel_left, WireBytes.slice]

theorem returns_parseSupportedGroups (hfits : data.length < 2 ^ 63) :
    Returns (parseSupportedGroups data) (· = TlsHello.parseSupportedGroups data) := by
  unfold parseSupportedGroups TlsHello.parseSupportedGroups
  refine Returns.ite ?_ ?_
  · intro hshort
    rw [if_pos hshort]
    exact Returns.pure rfl
  · intro hlong
    rw [if_neg hlong]
    refine (returns_u16From hfits (by omega)).bind ?_
    rintro len rfl
    refine (returns_sliceFrom (by omega)).bind ?_
    rintro rest rfl
    refine (returns_sliceTo (min_le_right _ _)).bind ?_
    rintro taken rfl
    exact Returns.pure rfl

theorem returns_parseEcPointFormats (data : List UInt8) :
    Returns (parseEcPointFormats data) (· = TlsHello.parseEcPointFormats data) := by
  unfold parseEcPointFormats TlsHello.parseEcPointFormats
  refine Returns.ite ?_ ?_
  · intro hnil
    subst hnil
    exact Returns.pure rfl
  · intro hsome
    have hpos := List.length_pos_of_ne_nil hsome
    refine (returns_index hpos).bind ?_
    intro len hlen
    refine (returns_sliceFrom hpos).bind ?_
    rintro rest rfl
    refine Returns.pure ?_
    rw [toNat_eq_byteAt hlen, List.length_drop]
    rfl

theorem returns_parseSupportedVersions (data : List UInt8) :
    Returns (parseSupportedVersions data) (· = TlsHello.parseSupportedVersions data) := by
  unfold parseSupportedVersions TlsHello.parseSupportedVersions
  refine Returns.ite ?_ ?_
  · intro hnil
    rw [if_pos hnil]
    exact Returns.pure rfl
  · intro hsome
    rw [if_neg hsome]
    have hpos := List.length_pos_of_ne_nil hsome
    refine (returns_index hpos).bind ?_
    intro len hlen
    refine (returns_sliceFrom hpos).bind ?_
    rintro rest rfl
    refine (returns_sliceTo (min_le_right _ _)).bind ?_
    rintro taken rfl
    refine Returns.pure ?_
    rw [toNat_eq_byteAt hlen]

theorem returns_parseSni (hfits : data.length < 2 ^ 63) :
    Returns (parseSni data) (· = TlsHello.parseSni data) := by
  unfold parseSni TlsHello.parseSni
  refine Returns.ite ?_ ?_
  · intro hshort
    rw [if_pos (Or.inl hshort)]
    exact Returns.pure rfl
  intro hlong
  refine Returns.ite (fun h => by omega) fun _ => ?_
  refine (returns_index (by omega)).bind ?_
  intro nameType hnameType
  have hzero : nameType = 0 ↔ byteAt data 2 = 0 := byteAt_eq_iff hnameType (by norm_num)
  refine (returns_add (by omega)).bind ?_
  intro i hi
  subst hi
  refine (returns_add (by omega)).bind ?_
  intro lenEnd hlenEnd
  refine Returns.ite ?_ ?_
  · intro hrefused
    rw [if_pos]
    · exact Returns.pure rfl
    · right
      rw [← hzero.ne]
      exact hrefused.resolve_right (by omega)
  intro htaken
  rw [not_or, not_not, hzero] at htaken
  rw [if_neg (by omega)]
  refine (returns_u16From hfits (by omega)).bind ?_
  rintro nameLen rfl
  have hname := (u16At data (2 + 1)).toNat_lt
  refine (returns_add (by omega)).bind ?_
  intro nameAt hnameAt
  subst hnameAt
  refine (returns_add (by omega)).bind ?_
  intro nameEnd hnameEnd
  refine Returns.ite ?_ ?_
  · intro hover
    rw [hnameEnd] at hover
    rw [if_pos hover]
    exact Returns.pure rfl
  · intro hfit
    rw [hnameEnd] at hfit
    rw [if_neg hfit]
    refine (returns_add (by omega)).bind ?_
    intro nameEnd' hnameEnd'
    refine (returns_sliceAt hnameEnd' (by omega)).bind ?_
    rintro name rfl
    exact Returns.pure rfl

theorem returns_readStrings {stop : ℕ} (hfits : data.length < 2 ^ 63) (hstop : stop ≤ data.length)
    (i : ℕ) (out : List String) : Returns (readStrings data stop i out)
      (· = out ++ (strings data stop i).filterMap fromUtf8) := by
  refine Returns.bind (returns_loop (I := fun s => out ++ (strings data stop i).filterMap fromUtf8 =
      s.2 ++ (strings data stop s.1).filterMap fromUtf8)
    (Q := fun s => out ++ (strings data stop i).filterMap fromUtf8 = s.2)
    (m := fun s => data.length - s.1) ?_ rfl (by dsimp only; omega))
    fun s hs => Returns.pure hs.symm
  rintro ⟨j, texts⟩ hsame
  dsimp only at hsame
  rw [hsame]
  refine Returns.ite ?_ ?_
  · intro hend
    refine Returns.pure ?_
    rw [strings, if_neg (by omega)]
    exact List.append_nil texts
  intro hin
  rw [strings, if_pos (by omega)]
  refine (returns_index (by omega)).bind ?_
  intro n hn
  have hbyte := byteAt_lt data j
  rw [toNat_eq_byteAt hn]
  refine (returns_add (by omega)).bind ?_
  intro textAt htextAt
  subst htextAt
  refine (returns_add (by omega)).bind ?_
  intro textEnd htextEnd
  refine Returns.ite ?_ ?_
  · intro hover
    refine Returns.pure ?_
    rw [htextEnd] at hover
    rw [if_pos hover]
    exact List.append_nil texts
  · intro hfit
    rw [htextEnd] at hfit
    rw [if_neg hfit]
    refine (returns_add (by omega)).bind ?_
    intro textEnd' htextEnd'
    refine (returns_sliceAt htextEnd' (by omega)).bind ?_
    rintro text rfl
    refine (returns_add (by omega)).bind ?_
    intro next hnext
    refine Returns.pure ⟨?_, by dsimp only; omega⟩
    dsimp only
    rw [hnext, List.append_assoc]
    congr 1
    cases htext : fromUtf8 (WireBytes.slice data (j + 1) (byteAt data j)) with
    | none => rw [List.filterMap_cons_none htext]; rfl
    | some t => rw [List.filterMap_cons_some htext]; rfl

theorem returns_readExtension (p : ClientHelloParts) (et : UInt16) (hfits : data.length < 2 ^ 63) :
    Returns (readExtension p et data) (· = captureExtension p et data) := by
  unfold readExtension captureExtension TlsHello.readExtension
  by_cases h0 : et = 0
  · subst h0
    refine (returns_parseSni hfits).bind ?_
    rintro sni rfl
    exact Returns.pure rfl
  by_cases h10 : et = 10
  · subst h10
    refine (returns_parseSupportedGroups hfits).bind ?_
    rintro groups rfl
    exact Returns.pure rfl
  by_cases h11 : et = 11
  · subst h11
    refine (returns_parseEcPointFormats data).bind ?_
    rintro formats rfl
    exact Returns.pure rfl
  by_cases h13 : et = 13
  · subst h13
    refine (returns_parseSupportedGroups hfits).bind ?_
    rintro algorithms rfl
    exact Returns.pure rfl
  by_cases h16 : et = 16
  · subst h16
    refine (returns_readStrings hfits le_rfl 2 p.alpn).bind ?_
    rintro alpn rfl
    exact Returns.pure rfl
  by_cases h43 : et = 43
  · subst h43
    refine (returns_parseSupportedVersions data).bind ?_
    rintro versions rfl
    exact Returns.pure rfl
  simp only [h0, h10, h11, h13, h16, h43, if_false]
  exact Returns.pure rfl

end Extensions

section Hello

variable {data : List UInt8}

theorem returns_readRecords {σ : Type} {step : σ → UInt16 → List UInt8 → Run σ}
    {spec : σ → UInt16 → List UInt8 → σ}
    (hstep : ∀ s et ed, ed.length < 2 ^ 63 → Returns (step s et ed) (· = spec s et ed))
    (hfits : data.length < 2 ^ 63) {stop i : ℕ} (hstop : stop ≤ data.length)
    (hi : i ≤ data.length) (s : σ) :
    Returns (readRecords step data stop i s) (· = walk spec data stop i s) := by
  refine Returns.bind (returns_loop
    (I := fun t => t.1 ≤ data.length ∧ walk spec data stop i s = walk spec data stop t.1 t.2)
    (Q := fun t => walk spec data stop i s = t.2)
    (m := fun t => data.length - t.1) ?_ ⟨hi, rfl⟩ (by dsimp only; omega))
    fun t ht => Returns.pure ht.symm
  rintro ⟨j, t⟩ ⟨hj, hsame⟩
  dsimp only at hj hsame
  rw [hsame]
  refine (returns_add (by omega)).bind ?_
  intro headEnd hheadEnd
  refine Returns.ite ?_ ?_
  · intro hend
    refine Returns.pure ?_
    rw [walk, if_neg (by omega)]
  intro hin
  rw [walk, if_pos (by omega)]
  refine (returns_u16From hfits (by omega)).bind ?_
  rintro et rfl
  refine (returns_add (by omega)).bind ?_
  rintro lenAt rfl
  refine (returns_u16From hfits (by omega)).bind ?_
  rintro el rfl
  have hel := (u16At data (j + 2)).toNat_lt
  refine (returns_add (by omega)).bind ?_
  rintro dataAt rfl
  refine (returns_add (by omega)).bind ?_
  intro dataEnd hdataEnd
  refine Returns.ite ?_ ?_
  · intro hover
    rw [hdataEnd] at hover
    refine Returns.pure ?_
    dsimp only
    rw [if_pos hover]
  · intro hfit
    rw [hdataEnd] at hfit
    dsimp only
    rw [if_neg hfit]
    refine (returns_add (by omega)).bind ?_
    intro dataEnd' hdataEnd'
    refine (returns_sliceAt hdataEnd' (by omega)).bind ?_
    rintro ed rfl
    have hed : (WireBytes.slice data (j + 4) (u16At data (j + 2)).toNat).length < 2 ^ 63 := by
      refine lt_of_le_of_lt ?_ hfits
      exact ((List.take_sublist _ _).trans (List.drop_sublist _ _)).length_le
    refine (hstep t _ _ hed).bind ?_
    rintro next rfl
    refine (returns_add (by omega)).bind ?_
    rintro after rfl
    exact Returns.pure ⟨⟨by dsimp only; omega, rfl⟩, by dsimp only; omega⟩

/-- What `readHello` takes from a body before it walks over the extensions. -/
def openingOf (ch : List UInt8) : Option Opening :=
  if ch.length ≤ 34 ∨ ch.length < ciphersAt ch + 2 ∨ ch.length ≤ compressionAt ch then none
  else
    some
      { parts :=
          { legacyVersion := u16At ch 0
            ciphers := u16List (WireBytes.slice ch (ciphersAt ch + 2)
              (u16At ch (ciphersAt ch)).toNat) }
        extensions :=
          if ch.length < extensionsAt ch + 2 then none
          else some (extensionsAt ch + 2, extensionsEnd ch) }

theorem readHello_eq (ch : List UInt8) : readHello captureExtension ch =
    (openingOf ch).map fun o =>
      match o.extensions with
      | none => o.parts
      | some (i, stop) => walk captureExtension ch stop i o.parts := by
  unfold readHello openingOf
  split_ifs
  · rfl
  · rfl
  · rfl

theorem returns_pastByte {α : Type} {k : ℕ → Run α} {Q : α → Prop} {j : ℕ}
    (hfits : data.length < 2 ^ 63) (hin : i < data.length) (hj : j = i + (1 + byteAt data i))
    (hk : Returns (k j) Q) :
    Returns (index data i >>= fun b => add 1 b.toNat >>= fun past => add i past >>= k) Q := by
  have hbyte := byteAt_lt data i
  refine (returns_index hin).bind ?_
  intro b hb
  rw [toNat_eq_byteAt hb]
  refine (returns_add (by omega)).bind ?_
  rintro past rfl
  refine (returns_add (by omega)).bind ?_
  intro next hnext
  rw [hnext, ← hj]
  exact hk

theorem returns_readOpening (hfits : data.length < 2 ^ 63) :
    Returns (readOpening data) (· = openingOf data) := by
  have hsid := byteAt_lt data 34
  have hcs := (u16At data (ciphersAt data)).toNat_lt
  have hcomp := byteAt_lt data (compressionAt data)
  have hciphers : ciphersAt data = 35 + byteAt data 34 := rfl
  have hcompression : compressionAt data =
      ciphersAt data + 2 + (u16At data (ciphersAt data)).toNat := rfl
  have hextensions : extensionsAt data =
      compressionAt data + 1 + byteAt data (compressionAt data) := rfl
  have hext := (u16At data (extensionsAt data)).toNat_lt
  unfold readOpening openingOf
  refine Returns.ite ?_ ?_
  · intro hshort
    rw [if_pos (by omega)]
    exact Returns.pure rfl
  intro hlong
  refine (returns_u16From hfits (by omega)).bind ?_
  rintro legacyVersion rfl
  refine Returns.ite ?_ ?_
  · intro hend
    rw [if_pos (by omega)]
    exact Returns.pure rfl
  intro hsidIn
  refine returns_pastByte (i := 34) (j := ciphersAt data) hfits (by omega) (by omega) ?_
  refine (returns_add (by omega)).bind ?_
  rintro csEnd rfl
  refine Returns.ite ?_ ?_
  · intro hend
    rw [if_pos (by omega)]
    exact Returns.pure rfl
  intro hcsIn
  refine (returns_u16From hfits (by omega)).bind ?_
  rintro csLen rfl
  refine (returns_add (by omega)).bind ?_
  rintro csAt rfl
  refine (returns_add (by omega)).bind ?_
  intro suitesEnd hsuitesEnd
  refine Returns.ite ?_ ?_
  · intro hover
    rw [if_pos (by omega)]
    exact Returns.pure rfl
  intro hsuitesIn
  refine (returns_add (by omega)).bind ?_
  intro suitesEnd' hsuitesEnd'
  refine (returns_sliceAt hsuitesEnd' (by omega)).bind ?_
  rintro suites rfl
  refine (returns_add (by omega)).bind ?_
  intro i hi
  have hi : i = compressionAt data := by omega
  subst hi
  refine Returns.ite ?_ ?_
  · intro hend
    rw [if_pos (by omega)]
    exact Returns.pure rfl
  intro hcompIn
  rw [if_neg (by omega)]
  refine returns_pastByte (j := extensionsAt data) hfits (by omega) (by omega) ?_
  refine (returns_add (by omega)).bind ?_
  rintro extEnd rfl
  refine Returns.ite ?_ ?_
  · intro hend
    rw [if_pos hend]
    exact Returns.pure rfl
  intro hextIn
  rw [if_neg hextIn]
  refine (returns_u16From hfits (by omega)).bind ?_
  rintro extLen rfl
  refine (returns_add (by omega)).bind ?_
  rintro extAt rfl
  refine (returns_add (by omega)).bind ?_
  rintro declared rfl
  exact Returns.pure rfl

theorem returns_plausibleAt (hfits : data.length < 2 ^ 63) {idx : ℕ}
    (hin : idx + 4 < data.length) :
    Returns (plausibleAt data idx) (· = plausibleHello data idx) := by
  have hlen : u24At data (idx + 1) < 2 ^ 24 := by
    have h₁ := byteAt_lt data (idx + 1)
    have h₂ := byteAt_lt data (idx + 1 + 1)
    have h₃ := byteAt_lt data (idx + 1 + 2)
    unfold u24At
    omega
  unfold plausibleAt
  refine (returns_index (by omega)).bind ?_
  intro b hb
  refine Returns.ite ?_ ?_
  · intro hne
    refine Returns.pure ?_
    have hne : byteAt data idx ≠ 1 := fun h => hne ((byteAt_eq_iff hb (by norm_num)).mpr h)
    rw [plausibleHello, beq_eq_false_iff_ne.mpr hne]
    rfl
  intro hone
  have hone : byteAt data idx = 1 := (byteAt_eq_iff hb (by norm_num)).mp (not_not.mp hone)
  refine (returns_add (by omega)).bind ?_
  rintro lenAt rfl
  refine (returns_u24From hfits (by omega)).bind ?_
  rintro len rfl
  refine Returns.ite ?_ ?_
  · intro hsize
    refine (returns_add (by omega)).bind ?_
    rintro bodyAt rfl
    refine (returns_add (by omega)).bind ?_
    rintro least rfl
    refine Returns.ite ?_ ?_
    · intro hshort
      have hno : ¬idx + 4 + min (u24At data (idx + 1)) 38 ≤ data.length := by omega
      refine Returns.pure ?_
      simp [plausibleHello, hno]
    intro hbody
    refine (returns_add (by omega)).bind ?_
    rintro versionEnd rfl
    refine Returns.ite ?_ ?_
    · intro hshort
      have hno : ¬idx + 6 ≤ data.length := by omega
      refine Returns.pure ?_
      simp [plausibleHello, hno]
    intro hversion
    refine (returns_add (by omega)).bind ?_
    rintro versionAt rfl
    refine (returns_u16From hfits (by omega)).bind ?_
    rintro version rfl
    refine Returns.pure ?_
    have hbody : idx + 4 + min (u24At data (idx + 1)) 38 ≤ data.length := by omega
    have hversion : idx + 6 ≤ data.length := by omega
    simp only [plausibleHello, hone, hsize.1, hsize.2, hbody, hversion, beq_self_eq_true,
      decide_true, Bool.and_true, Bool.true_and]
  · intro hsize
    refine Returns.pure ?_
    rw [not_and_or] at hsize
    rcases hsize with hsize | hsize
    · simp [plausibleHello, hsize]
    · simp only [plausibleHello, hsize, decide_false, Bool.and_false, Bool.false_and]

theorem returns_findClientHello (hfits : data.length < 2 ^ 63) :
    Returns (findClientHello data) (· = TlsHello.findClientHello data) := by
  refine Returns.bind (returns_loop
    (I := fun s : ℕ × Option ℕ => ∀ j, j < s.1 → plausibleHello data j = false)
    (Q := fun s => s.2 = TlsHello.findClientHello data)
    (m := fun s => data.length - s.1) ?_ nofun (by dsimp only; omega))
    fun s hs => Returns.pure hs
  rintro ⟨idx, before⟩ hbefore
  dsimp only at hbefore ⊢
  refine Returns.ite ?_ ?_
  · intro hend
    refine Returns.pure ?_
    dsimp only
    rw [TlsHello.findClientHello, eq_comm, List.find?_range_eq_none]
    intro j hj
    rw [hbefore j (by omega)]
    rfl
  intro hmore
  refine (returns_plausibleAt hfits (by omega)).bind ?_
  rintro found rfl
  refine Returns.ite ?_ ?_
  · intro hfound
    refine Returns.pure ?_
    dsimp only
    rw [TlsHello.findClientHello, eq_comm, List.find?_range_eq_some]
    refine ⟨hfound, List.mem_range.mpr (by omega), ?_⟩
    intro j hj
    rw [hbefore j hj]
    rfl
  · intro hnot
    refine Returns.pure ⟨?_, by dsimp only; omega⟩
    intro j hj
    rcases Nat.lt_succ_iff_lt_or_eq.mp hj with hlt | rfl
    · exact hbefore j hlt
    · exact Bool.eq_false_iff.mpr hnot

theorem found_le {p : List UInt8} {idx : ℕ} (h : TlsHello.findClientHello p = some idx) :
    idx ≤ p.length := by
  have hrange := (List.find?_range_eq_some.mp h).2.1
  have hlt := List.mem_range.mp hrange
  omega

theorem returns_behindRecord {record : Bool} (hrecord : record = true ↔ byteAt data 0 = 0x16) :
    Returns (behindRecord data record) (· = afterRecordHeader data) := by
  unfold behindRecord afterRecordHeader
  refine Returns.ite ?_ ?_
  · rintro ⟨hyes, hlong⟩
    rw [if_pos ⟨hrecord.mp hyes, hlong⟩]
    exact returns_sliceFrom hlong.le
  · intro hplain
    rw [if_neg fun h => hplain ⟨hrecord.mpr h.1, h.2⟩]
    exact Returns.pure rfl

theorem length_afterRecordHeader (data : List UInt8) :
    (afterRecordHeader data).length ≤ data.length := by
  unfold afterRecordHeader
  split_ifs
  · exact (List.drop_sublist 5 data).length_le
  · exact le_rfl

def startOf (p : List UInt8) : Option ℕ :=
  if p = [] ∨ byteAt p 0 ≠ 0x01 then TlsHello.findClientHello p else some 0

theorem returns_helloStart {p : List UInt8} (hfits : p.length < 2 ^ 63) :
    Returns (helloStart p) (· = startOf p) := by
  unfold helloStart startOf
  refine Returns.ite ?_ ?_
  · intro hnil
    rw [if_pos (Or.inl hnil)]
    exact returns_findClientHello hfits
  intro hsome
  refine (returns_index (List.length_pos_of_ne_nil hsome)).bind ?_
  intro b hb
  have hone : b = 0x01 ↔ byteAt p 0 = 1 := byteAt_eq_iff hb (by norm_num)
  refine Returns.ite ?_ ?_
  · intro hne
    rw [if_pos (Or.inr fun h => hne (hone.mpr h))]
    exact returns_findClientHello hfits
  · intro heq
    have hat := hone.mp (not_not.mp heq)
    rw [if_neg (by rintro (h | h); exacts [hsome h, h hat])]
    exact Returns.pure rfl

theorem startOf_le {p : List UInt8} {idx : ℕ} (h : startOf p = some idx) : idx ≤ p.length := by
  unfold startOf at h
  split_ifs at h
  · exact found_le h
  · cases h
    exact Nat.zero_le _

theorem tryParse_eq (crypto : List UInt8) : TlsHello.tryParseTlsClientHelloFull crypto =
    if crypto.length < 4 then none
    else (startOf (afterRecordHeader crypto)).bind fun idx =>
      let p := (afterRecordHeader crypto).drop idx
      if p.length < 38 then none else readHello captureExtension (p.drop 4) := by
  unfold TlsHello.tryParseTlsClientHelloFull startOf
  dsimp only
  split_ifs
  · rfl
  · rw [Option.bind_map]
    rfl
  · rfl

theorem returns_tryParseTlsClientHelloFull (hfits : data.length < 2 ^ 63) :
    Returns (tryParseTlsClientHelloFull data)
      (· = TlsHello.tryParseTlsClientHelloFull data) := by
  have hrecord := length_afterRecordHeader data
  rw [tryParse_eq]
  unfold tryParseTlsClientHelloFull
  refine Returns.ite ?_ ?_
  · intro hshort
    rw [if_pos hshort]
    exact Returns.pure rfl
  intro hlong
  rw [if_neg hlong]
  refine (returns_index (by omega)).bind ?_
  intro first hfirst
  have hsixteen : (first == 0x16) = true ↔ byteAt data 0 = 0x16 := by
    rw [beq_iff_eq]
    exact byteAt_eq_iff hfirst (by norm_num)
  refine (returns_behindRecord hsixteen).bind ?_
  rintro p rfl
  refine (returns_helloStart (by omega)).bind ?_
  rintro start rfl
  cases hstart : startOf (afterRecordHeader data) with
  | none => exact Returns.pure rfl
  | some idx =>
      rw [Option.bind_some]
      refine (returns_sliceFrom (startOf_le hstart)).bind ?_
      rintro p rfl
      refine Returns.ite ?_ ?_
      · intro hshort
        rw [if_pos hshort]
        exact Returns.pure rfl
      intro hwhole
      rw [if_neg hwhole, readHello_eq]
      refine (returns_sliceFrom (by omega)).bind ?_
      rintro body rfl
      have hbody : (((afterRecordHeader data).drop idx).drop 4).length < 2 ^ 63 := by
        rw [List.length_drop, List.length_drop]
        omega
      refine (returns_readOpening hbody).bind ?_
      rintro opening rfl
      cases hopening : openingOf (((afterRecordHeader data).drop idx).drop 4) with
      | none => exact Returns.pure rfl
      | some o =>
          rw [Option.map_some]
          dsimp only
          cases hext : o.extensions with
          | none => exact Returns.pure rfl
          | some e =>
              have hin : e.1 ≤ (((afterRecordHeader data).drop idx).drop 4).length ∧
                  e.2 ≤ (((afterRecordHeader data).drop idx).drop 4).length := by
                unfold openingOf at hopening
                split_ifs at hopening with _ hnone
                all_goals
                  cases hopening
                  cases hext
                exact ⟨by dsimp only; omega, min_le_right _ _⟩
              dsimp only
              refine (returns_readRecords
                (fun s et ed hed => returns_readExtension s et hed) hbody hin.2 hin.1 _).bind ?_
              rintro parts rfl
              exact Returns.pure rfl

theorem head_record (data : List UInt8) :
    (data.head? == some 0x16) = true ↔ byteAt data 0 = 0x16 := by
  rw [beq_iff_eq]
  cases data with
  | nil => simp [byteAt]
  | cons b bs =>
      rw [List.head?_cons, Option.some.injEq]
      exact byteAt_eq_iff (b := b :: bs) rfl (by norm_num)

theorem returns_extractExtPayloadsFromCrypto (hfits : data.length < 2 ^ 63) :
    Returns (extractExtPayloadsFromCrypto data)
      (· = TlsHello.extractExtPayloadsFromCrypto data) := by
  have hrecord := length_afterRecordHeader data
  unfold extractExtPayloadsFromCrypto TlsHello.extractExtPayloadsFromCrypto
  refine (returns_behindRecord (head_record data)).bind ?_
  rintro p hp
  rw [← hp] at hrecord
  simp only [← hp]
  refine Returns.ite ?_ ?_
  · intro hnil
    rw [hnil]
    exact Returns.pure rfl
  intro hsome
  refine (returns_index (List.length_pos_of_ne_nil hsome)).bind ?_
  intro first hfirst
  have hone : first = 0x01 ↔ byteAt p 0 = 1 := byteAt_eq_iff hfirst (by norm_num)
  refine Returns.ite ?_ ?_
  · intro hrefused
    rw [ne_eq, hone, or_comm] at hrefused
    rw [if_pos hrefused]
    exact Returns.pure rfl
  intro htaken
  rw [ne_eq, hone, or_comm] at htaken
  rw [if_neg htaken]
  refine (returns_sliceFrom (by omega)).bind ?_
  rintro body hbody
  have hfits : body.length < 2 ^ 63 := by
    rw [hbody, List.length_drop]
    omega
  rw [← hbody]
  have hsid := byteAt_lt body 34
  have hcs := (u16At body (ciphersAt body)).toNat_lt
  have hcomp := byteAt_lt body (compressionAt body)
  have hciphers : ciphersAt body = 35 + byteAt body 34 := rfl
  have hcompression : compressionAt body =
      ciphersAt body + 2 + (u16At body (ciphersAt body)).toNat := rfl
  have hextensions : extensionsAt body =
      compressionAt body + 1 + byteAt body (compressionAt body) := rfl
  have hext := (u16At body (extensionsAt body)).toNat_lt
  refine Returns.ite ?_ ?_
  · intro hshort
    rw [if_pos (Or.inl hshort)]
    exact Returns.pure rfl
  intro hlong
  refine Returns.ite (fun h => by omega) fun _ => ?_
  refine returns_pastByte (i := 34) (j := ciphersAt body) hfits (by omega) (by omega) ?_
  refine (returns_add (by omega)).bind ?_
  rintro csEnd rfl
  refine Returns.ite ?_ ?_
  · intro hend
    rw [if_pos (by omega)]
    exact Returns.pure rfl
  intro hcsIn
  refine (returns_u16From hfits (by omega)).bind ?_
  rintro csLen rfl
  refine (returns_add (by omega)).bind ?_
  rintro suites rfl
  refine (returns_add (by omega)).bind ?_
  intro i hi
  have hi : i = compressionAt body := by omega
  subst hi
  refine Returns.ite ?_ ?_
  · intro hend
    rw [if_pos (by omega)]
    exact Returns.pure rfl
  intro hcompIn
  refine returns_pastByte (j := extensionsAt body) hfits (by omega) (by omega) ?_
  refine (returns_add (by omega)).bind ?_
  rintro extEnd rfl
  refine Returns.ite ?_ ?_
  · intro hend
    rw [if_pos (by omega)]
    exact Returns.pure rfl
  intro hextIn
  rw [if_neg (by omega)]
  refine (returns_u16From hfits (by omega)).bind ?_
  rintro extLen rfl
  refine (returns_add (by omega)).bind ?_
  rintro extAt rfl
  refine (returns_add (by omega)).bind ?_
  rintro declared rfl
  exact returns_readRecords (fun s et ed _ => Returns.pure rfl) hfits (min_le_right _ _)
    (by omega) []

end Hello

end QuicHello

end GrServer
