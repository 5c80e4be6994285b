import GrServer.TlsHello

/-!
# The two ClientHello parsers on one message

Over the encoding of a hello either parser is the fold of its extension step
over the extensions.  The steps differ in the application protocols only, and
the fingerprints in the version code.
-/

namespace GrServer

namespace TlsHello

open WireBytes Text

/-! ## Messages -/

def alpnBytes (names : List (List UInt8)) : List UInt8 :=
  let list := names.flatMap fun name => UInt8.ofNat name.length :: name
  beBytes (UInt16.ofNat list.length) ++ list

/-- A ClientHello message.  The extension block may be missing. -/
structure ClientHello where
  legacyVersion : UInt16
  random : List UInt8
  sessionId : List UInt8
  ciphers : List UInt16
  compression : List UInt8
  extensions : Option (List Record)
  random_length : random.length = 32
  sessionId_length : sessionId.length < 256
  ciphers_length : 2 * ciphers.length < 65536
  compression_length : compression.length < 256
  extensions_length : ∀ rs ∈ extensions, (recordsBytes rs).length < 65536
  alpn_proper : ∀ rs ∈ extensions, ∀ r ∈ rs, r.1 = 16 → ∃ names, r.2 = alpnBytes names

namespace ClientHello

def extensionBytes : Option (List Record) → List UInt8
  | none => []
  | some rs => beBytes (UInt16.ofNat (recordsBytes rs).length) ++ recordsBytes rs

def opening (h : ClientHello) : List UInt8 :=
  beBytes h.legacyVersion ++ (h.random ++ (UInt8.ofNat h.sessionId.length :: h.sessionId))

def suites (h : ClientHello) : List UInt8 :=
  beBytes (UInt16.ofNat (2 * h.ciphers.length)) ++ h.ciphers.flatMap beBytes

def methods (h : ClientHello) : List UInt8 :=
  UInt8.ofNat h.compression.length :: h.compression

def body (h : ClientHello) : List UInt8 :=
  h.opening ++ (h.suites ++ (h.methods ++ extensionBytes h.extensions))

def bytes (h : ClientHello) : List UInt8 :=
  0x01 :: (beBytes24 h.body.length ++ h.body)

def records (h : ClientHello) : List Record := h.extensions.getD []

variable (h : ClientHello)

theorem length_opening : h.opening.length = 35 + h.sessionId.length := by
  unfold opening
  simp only [List.length_append, length_beBytes, h.random_length, List.length_cons]
  omega

theorem length_suites : h.suites.length = 2 + 2 * h.ciphers.length := by
  unfold suites
  rw [List.length_append, length_beBytes, length_flatMap_beBytes]

theorem length_methods : h.methods.length = 1 + h.compression.length := by
  unfold methods
  rw [List.length_cons, Nat.add_comm]

theorem length_body : h.body.length = 38 + h.sessionId.length + 2 * h.ciphers.length +
    h.compression.length + (extensionBytes h.extensions).length := by
  unfold body
  simp only [List.length_append, length_opening, length_suites, length_methods]
  omega

theorem length_extensionBytes : (extensionBytes h.extensions).length < 65538 := by
  cases hext : h.extensions with
  | none => exact Nat.zero_lt_succ _
  | some rs =>
      have hlen := h.extensions_length rs hext
      simp only [extensionBytes, List.length_append, length_beBytes]
      omega

theorem length_body_lt : h.body.length < 2 ^ 24 := by
  have hsession := h.sessionId_length
  have hciphers := h.ciphers_length
  have hmethods := h.compression_length
  have hext := h.length_extensionBytes
  rw [length_body]
  omega

theorem ciphersAt_body : ciphersAt h.body = h.opening.length := by
  have hsession : byteAt h.body 34 = h.sessionId.length := by
    have hversion : ∀ rest, byteAt (beBytes h.legacyVersion ++ rest) 34 = byteAt rest 32 :=
      fun rest => byteAt_append_add rfl
    unfold body opening
    rw [List.append_assoc, hversion, List.append_assoc,
      byteAt_append_add (j := 0) (by rw [h.random_length])]
    change (UInt8.ofNat h.sessionId.length).toNat = _
    rw [UInt8.toNat_ofNat', Nat.mod_eq_of_lt h.sessionId_length]
  unfold ciphersAt
  rw [hsession, length_opening]

theorem suites_length_read :
    (u16At h.body h.opening.length).toNat = 2 * h.ciphers.length := by
  have hlen := h.ciphers_length
  unfold body
  rw [u16At_append_add (j := 0) (Nat.add_zero _).symm]
  unfold suites
  rw [List.append_assoc, u16At_beBytes, UInt16.toNat_ofNat', Nat.mod_eq_of_lt (by omega)]

theorem compressionAt_body :
    compressionAt h.body = h.opening.length + h.suites.length := by
  unfold compressionAt
  rw [ciphersAt_body, suites_length_read, length_suites]
  omega

theorem ciphers_read :
    u16List (slice h.body (h.opening.length + 2) (2 * h.ciphers.length)) = h.ciphers := by
  have hslice : slice h.body (h.opening.length + 2) (2 * h.ciphers.length) =
      h.ciphers.flatMap beBytes := by
    unfold body suites
    rw [slice_append_add (j := 2) rfl, List.append_assoc]
    exact slice_append rfl (length_flatMap_beBytes _).symm _
  rw [hslice, u16List_flatMap]

theorem extensionsAt_body :
    extensionsAt h.body = h.opening.length + h.suites.length + h.methods.length := by
  have hmethods : byteAt h.body (h.opening.length + h.suites.length) =
      h.compression.length := by
    unfold body
    rw [byteAt_append_add rfl, byteAt_append_add (j := 0) (Nat.add_zero _).symm]
    change (UInt8.ofNat h.compression.length).toNat = _
    rw [UInt8.toNat_ofNat', Nat.mod_eq_of_lt h.compression_length]
  unfold extensionsAt
  rw [compressionAt_body, hmethods, length_methods]
  omega

theorem legacyVersion_read : u16At h.body 0 = h.legacyVersion := by
  unfold body opening
  rw [List.append_assoc]
  exact u16At_beBytes _ _

def front (h : ClientHello) (n : ℕ) : List UInt8 :=
  h.opening ++ (h.suites ++ (h.methods ++ beBytes (UInt16.ofNat n)))

theorem walk_body {σ : Type*} (step : σ → UInt16 → List UInt8 → σ) (s : σ) {rs : List Record}
    (hext : h.extensions = some rs) :
    walk step h.body (extensionsEnd h.body) (extensionsAt h.body + 2) s =
      rs.foldl (fun s r => step s r.1 r.2) s := by
  have hlen := h.extensions_length rs hext
  have hsplit : h.body = h.front (recordsBytes rs).length ++ (recordsBytes rs ++ []) := by
    unfold body front
    rw [hext]
    simp only [extensionBytes, List.append_assoc, List.append_nil]
  have hfront : extensionsAt h.body + 2 = (h.front (recordsBytes rs).length).length := by
    rw [extensionsAt_body]
    unfold front
    simp only [List.length_append, length_beBytes]
    omega
  have hdeclared : (u16At h.body (extensionsAt h.body)).toNat = (recordsBytes rs).length := by
    rw [extensionsAt_body]
    unfold body
    rw [hext, Nat.add_assoc, u16At_append_add rfl, u16At_append_add rfl,
      u16At_append_add (j := 0) (Nat.add_zero _).symm]
    unfold extensionBytes
    rw [u16At_beBytes, toNat_ofNat_length hlen]
  have hstop : extensionsEnd h.body =
      (h.front (recordsBytes rs).length).length + (recordsBytes rs).length := by
    unfold extensionsEnd
    rw [hdeclared, hfront]
    have hwhole := congrArg List.length hsplit
    rw [List.length_append, List.append_nil] at hwhole
    omega
  have hfits : ∀ r ∈ rs, r.2.length < 65536 := by
    intro r hr
    have hle := length_le_recordsBytes hr
    omega
  rw [hstop, hfront]
  conv_lhs => rw [hsplit]
  exact walk_records step rs hfits _ _ s

/-! ## What the parsers read -/

def parts (h : ClientHello)
    (step : ClientHelloParts → UInt16 → List UInt8 → ClientHelloParts) : ClientHelloParts :=
  h.records.foldl (fun p r => step p r.1 r.2)
    { legacyVersion := h.legacyVersion, ciphers := h.ciphers }

theorem readHello_body (step : ClientHelloParts → UInt16 → List UInt8 → ClientHelloParts) :
    readHello step h.body = some (h.parts step) := by
  have hlen := h.length_body
  have hopening := h.length_opening
  have hsuites := h.length_suites
  have hmethods := h.length_methods
  unfold readHello
  rw [if_neg]
  · rw [legacyVersion_read, ciphersAt_body, suites_length_read, ciphers_read]
    cases hext : h.extensions with
    | none =>
        have hnone : (extensionBytes h.extensions).length = 0 := by
          rw [hext]
          rfl
        rw [if_pos]
        · unfold parts records
          rw [hext]
          rfl
        · rw [extensionsAt_body]
          omega
    | some rs =>
        have hsome : 2 ≤ (extensionBytes h.extensions).length := by
          rw [hext]
          simp [extensionBytes]
        rw [if_neg, walk_body h step _ hext]
        · unfold parts records
          rw [hext]
          rfl
        · rw [extensionsAt_body]
          omega
  · rw [ciphersAt_body, compressionAt_body]
    omega

theorem length_bytes : h.bytes.length = 4 + h.body.length := by
  unfold bytes
  rw [List.length_cons, List.length_append, length_beBytes24]
  omega

theorem drop_bytes : h.bytes.drop 4 = h.body := rfl

theorem byteAt_bytes : byteAt h.bytes 0 = 0x01 := rfl

theorem parseClientHello_bytes :
    parseClientHello h.bytes = some (h.parts gatewayExtension) := by
  have hlen := h.length_bytes
  have hbody := h.length_body
  have hdeclared : u24At h.bytes 1 = h.body.length := by
    change u24At (beBytes24 h.body.length ++ h.body) 0 = _
    exact u24At_beBytes24 h.length_body_lt _
  have hslice : slice h.bytes 4 (min (u24At h.bytes 1) (h.bytes.length - 4)) = h.body := by
    unfold slice
    rw [hdeclared, drop_bytes]
    exact List.take_of_length_le (by omega)
  have hkind : byteAt h.bytes 0 ≠ 0x16 := by
    rw [byteAt_bytes]
    decide
  unfold parseClientHello
  rw [if_neg (by omega), if_neg hkind]
  dsimp only
  rw [if_neg, hslice, readHello_body]
  rintro (hshort | hother)
  · omega
  · exact hother h.byteAt_bytes

theorem afterRecordHeader_bytes : afterRecordHeader h.bytes = h.bytes := by
  unfold afterRecordHeader
  rw [if_neg]
  rintro ⟨hkind, -⟩
  rw [byteAt_bytes] at hkind
  cases hkind

theorem tryParseTlsClientHelloFull_bytes :
    tryParseTlsClientHelloFull h.bytes = some (h.parts captureExtension) := by
  have hlen := h.length_bytes
  have hbody := h.length_body
  have hne : h.bytes ≠ [] := List.cons_ne_nil _ _
  unfold tryParseTlsClientHelloFull
  rw [if_neg (by omega), afterRecordHeader_bytes]
  dsimp only
  rw [if_neg, Option.bind_some, if_neg (by omega), drop_bytes, readHello_body]
  rintro (hempty | hother)
  · exact hne hempty
  · exact hother h.byteAt_bytes

theorem extractExtPayloadsFromCrypto_bytes :
    extractExtPayloadsFromCrypto h.bytes = h.records := by
  have hlen := h.length_bytes
  have hbody := h.length_body
  have hopening := h.length_opening
  have hsuites := h.length_suites
  have hmethods := h.length_methods
  unfold extractExtPayloadsFromCrypto
  rw [afterRecordHeader_bytes]
  dsimp only
  rw [if_neg (by rw [byteAt_bytes]; omega), drop_bytes, ciphersAt_body, compressionAt_body]
  unfold records
  cases hext : h.extensions with
  | none =>
      have hnone : (extensionBytes h.extensions).length = 0 := by
        rw [hext]
        rfl
      rw [if_pos]
      · rfl
      · rw [extensionsAt_body]
        omega
  | some rs =>
      have hsome : 2 ≤ (extensionBytes h.extensions).length := by
        rw [hext]
        simp [extensionBytes]
      rw [if_neg, walk_body h _ _ hext]
      · change rs.foldl (fun out r => out ++ [r]) [] = rs
        rw [List.foldl_append_eq_append, List.nil_append, ← List.flatMap_def,
          List.flatMap_singleton']
      · rw [extensionsAt_body]
        omega

end ClientHello

/-! ## Where the steps differ -/

def ClientHelloParts.otherParts (p : ClientHelloParts) : ClientHelloParts := { p with alpn := [] }

theorem otherParts_gateway (p : ClientHelloParts) (et : UInt16) (data : List UInt8) :
    (gatewayExtension p et data).otherParts = readExtension p.otherParts et data := by
  unfold gatewayExtension readExtension ClientHelloParts.otherParts
  split_ifs <;> rfl

theorem otherParts_capture (p : ClientHelloParts) (et : UInt16) (data : List UInt8) :
    (captureExtension p et data).otherParts = readExtension p.otherParts et data := by
  unfold captureExtension readExtension ClientHelloParts.otherParts
  split_ifs <;> rfl

theorem otherParts_foldl
    {step : ClientHelloParts → UInt16 → List UInt8 → ClientHelloParts}
    (hstep : ∀ p et data, (step p et data).otherParts = readExtension p.otherParts et data)
    (rs : List Record) (p : ClientHelloParts) :
    (rs.foldl (fun p r => step p r.1 r.2) p).otherParts =
      rs.foldl (fun p r => readExtension p r.1 r.2) p.otherParts := by
  induction rs generalizing p with
  | nil => rfl
  | cons r rs ih =>
      rw [List.foldl_cons, List.foldl_cons, ih, hstep]

theorem extensions_foldl (rs : List Record) (p : ClientHelloParts) :
    (rs.foldl (fun p r => captureExtension p r.1 r.2) p).extensions =
      p.extensions ++ rs.map Prod.fst := by
  induction rs generalizing p with
  | nil => exact (List.append_nil _).symm
  | cons r rs ih =>
      have hstep : (captureExtension p r.1 r.2).extensions = p.extensions ++ [r.1] := by
        unfold captureExtension readExtension
        split_ifs <;> rfl
      rw [List.foldl_cons, ih, hstep, List.append_assoc]
      rfl

theorem alpn_capture_foldl (rs : List Record) (p : ClientHelloParts) :
    (rs.foldl (fun p r => captureExtension p r.1 r.2) p).alpn =
      p.alpn ++ (payloads 16 rs).flatMap alpnOfExtension := by
  induction rs using List.reverseRecOn with
  | nil => exact (List.append_nil _).symm
  | append_singleton rs r ih =>
      rw [List.foldl_append, payloads_append, List.flatMap_append, ← List.append_assoc, ← ih]
      have hkept : ∀ q : ClientHelloParts, (readExtension q r.1 r.2).alpn = q.alpn := by
        intro q
        unfold readExtension
        split_ifs <;> rfl
      change (captureExtension _ r.1 r.2).alpn = _
      unfold captureExtension
      by_cases hr : r.1 = 16
      · rw [if_pos hr, if_pos hr, hkept, List.flatMap_singleton]
      · rw [if_neg hr, if_neg hr, hkept]
        exact (List.append_nil _).symm

theorem length_le_of_alpnBytes {names : List (List UInt8)} {data : List UInt8}
    (hdata : data = alpnBytes names) (hlen : data.length < 65536) :
    2 ≤ data.length ∧ 2 + (u16At data 0).toNat = data.length := by
  subst hdata
  unfold alpnBytes at hlen ⊢
  rw [List.length_append, length_beBytes] at hlen ⊢
  rw [u16At_beBytes, toNat_ofNat_length (by omega)]
  omega

theorem parseAlpn_of_proper {names : List (List UInt8)} {data : List UInt8}
    (hdata : data = alpnBytes names) (hlen : data.length < 65536) :
    parseAlpn data = alpnOfExtension data := by
  obtain ⟨htwo, hdeclared⟩ := length_le_of_alpnBytes hdata hlen
  unfold parseAlpn alpnOfExtension
  rw [if_neg (by omega), hdeclared, min_self]

def oldVersions : List (UInt16 × String) :=
  [(0x0002, "s2"), (0xfeff, "d1"), (0xfefd, "d2"), (0xfefc, "d3")]

theorem captureVersions_eq : captureVersions = gatewayVersions ++ oldVersions := rfl

theorem versionCode_eq_iff (v : UInt16) :
    (gatewayVersions.lookup v).getD "00" = (captureVersions.lookup v).getD "00" ↔
      v ∉ oldVersions.map Prod.fst := by
  rw [captureVersions_eq, List.lookup_append]
  cases hnew : gatewayVersions.lookup v with
  | some code =>
      obtain ⟨before, after, hsplit, -⟩ := List.lookup_eq_some_iff.mp hnew
      have hmem : v ∈ gatewayVersions.map Prod.fst := by
        rw [hsplit]
        simp
      have hapart : ∀ w ∈ gatewayVersions.map Prod.fst, w ∉ oldVersions.map Prod.fst := by
        simp [gatewayVersions, oldVersions]
      exact ⟨fun _ => hapart v hmem, fun _ => rfl⟩
  | none =>
      rw [Option.none_or]
      cases hold : oldVersions.lookup v with
      | none =>
          refine ⟨fun _ hmem => ?_, fun _ => rfl⟩
          obtain ⟨e, he, rfl⟩ := List.mem_map.mp hmem
          have hne := List.lookup_eq_none_iff.mp hold e he
          simp at hne
      | some code =>
          obtain ⟨before, after, hsplit, -⟩ := List.lookup_eq_some_iff.mp hold
          have hmem : (v, code) ∈ oldVersions := by
            rw [hsplit]
            simp
          have hcodes : ∀ e ∈ oldVersions, "00" ≠ e.2 := by decide
          constructor
          · intro hsame
            exact absurd hsame (hcodes _ hmem)
          · intro hout
            exact absurd (List.mem_map.mpr ⟨_, hmem, rfl⟩) hout

theorem buildJa4_eq_iff (D : Digests) {p q : ClientHelloParts} {codes codes' : List (UInt16 × String)}
    (hother : p.otherParts = q.otherParts) (halpn : p.alpn.head? = q.alpn.head?) :
    buildJa4 codes D p = buildJa4 codes' D q ↔ ja4VersionCode codes p = ja4VersionCode codes' q := by
  have htail : ja4Tail D p = ja4Tail D q := by
    have hciphers := congrArg ClientHelloParts.ciphers hother
    have hextensions := congrArg ClientHelloParts.extensions hother
    have hsignatures := congrArg ClientHelloParts.signatureAlgorithms hother
    have hsni := congrArg ClientHelloParts.sni hother
    dsimp only [ClientHelloParts.otherParts] at hciphers hextensions hsignatures hsni
    unfold ja4Tail
    rw [hciphers, hextensions, hsignatures, hsni, halpn]
  unfold buildJa4
  rw [htail]
  constructor
  · intro hsame
    have hlists := congrArg String.toList hsame
    simp only [String.toList_append, List.append_assoc] at hlists
    have hcodes := List.append_cancel_right (List.append_cancel_left hlists)
    exact String.toList_injective hcodes
  · intro hsame
    rw [hsame]

/-! ## Agreement -/

/-- The parsers of both crates, the JA4 builders and the third walker agree. -/
structure Agreement (D : Digests) (m : List UInt8) (p q : ClientHelloParts) : Prop where
  gateway : parseClientHello m = some p
  capture : tryParseTlsClientHelloFull m = some q
  ciphers : p.ciphers = q.ciphers
  extensions : p.extensions = q.extensions
  supportedVersions : p.supportedVersions = q.supportedVersions
  signatureAlgorithms : p.signatureAlgorithms = q.signatureAlgorithms
  sni : p.sni.isSome = q.sni.isSome
  firstAlpn : p.alpn.head? = q.alpn.head?
  ja4 : buildJa4 gatewayVersions D p = buildJa4 captureVersions D q
  payloads : (extractExtPayloadsFromCrypto m).map Prod.fst = q.extensions

namespace ClientHello

def offered (h : ClientHello) : List UInt16 :=
  ((WireBytes.payloads 43 h.records).getLast?.map parseSupportedVersions).getD []

def topVersion (h : ClientHello) : UInt16 :=
  (nonGrease h.offered).max?.getD h.legacyVersion

def alpnLists (h : ClientHello) : List (List String) :=
  (WireBytes.payloads 16 h.records).map parseAlpn

/-- No version behind QUIC's table alone is the highest one offered, and no
repeated extension puts another protocol first. -/
def Unambiguous (h : ClientHello) : Prop :=
  h.topVersion ∉ [0x0002, 0xfeff, 0xfefd, 0xfefc] ∧
    (h.alpnLists.getLast?.getD []).head? = h.alpnLists.flatten.head?

variable (h : ClientHello)

theorem otherParts_eq :
    (h.parts gatewayExtension).otherParts = (h.parts captureExtension).otherParts := by
  unfold parts
  rw [otherParts_foldl otherParts_gateway, otherParts_foldl otherParts_capture]

theorem alpn_gateway : (h.parts gatewayExtension).alpn = h.alpnLists.getLast?.getD [] := by
  unfold parts alpnLists
  rw [foldl_last (f := ClientHelloParts.alpn) (k := 16) (g := parseAlpn),
    List.getLast?_map]
  · intro p data
    unfold gatewayExtension
    rw [if_pos rfl]
  · intro p et data het
    unfold gatewayExtension readExtension
    rw [if_neg het]
    split_ifs <;> rfl

theorem alpn_capture : (h.parts captureExtension).alpn = h.alpnLists.flatten := by
  have hread : ∀ data ∈ WireBytes.payloads 16 h.records, alpnOfExtension data = parseAlpn data := by
    intro data hdata
    unfold WireBytes.payloads records at hdata
    cases hext : h.extensions with
    | none =>
        rw [hext] at hdata
        cases hdata
    | some rs =>
        rw [hext] at hdata
        obtain ⟨r, hr, rfl⟩ := List.mem_map.mp hdata
        obtain ⟨hr, hkind⟩ := List.mem_filter.mp hr
        obtain ⟨names, hnames⟩ := h.alpn_proper rs hext r hr (by simpa using hkind)
        have hle : r.2.length ≤ (recordsBytes rs).length := length_le_recordsBytes hr
        have hlen := h.extensions_length rs hext
        exact (parseAlpn_of_proper hnames (by omega)).symm
  unfold parts alpnLists
  rw [alpn_capture_foldl, List.nil_append, List.flatMap_def, List.map_congr_left hread]

theorem supportedVersions_parts : (h.parts gatewayExtension).supportedVersions = h.offered := by
  unfold parts offered
  apply foldl_last
  · intro p data
    rfl
  · intro p et data het
    unfold gatewayExtension readExtension
    split_ifs <;> rfl

theorem legacyVersion_parts
    {step : ClientHelloParts → UInt16 → List UInt8 → ClientHelloParts}
    (hstep : ∀ p et data, (step p et data).legacyVersion = p.legacyVersion) :
    (h.parts step).legacyVersion = h.legacyVersion := by
  unfold parts
  induction h.records using List.reverseRecOn with
  | nil => rfl
  | append_singleton rs r ih =>
      rw [List.foldl_append]
      exact (hstep _ _ _).trans ih

theorem bestVersion_gateway : bestVersion (h.parts gatewayExtension) = h.topVersion := by
  have hlegacy : (h.parts gatewayExtension).legacyVersion = h.legacyVersion := by
    apply legacyVersion_parts
    intro p et data
    unfold gatewayExtension readExtension
    split_ifs <;> rfl
  unfold bestVersion topVersion
  rw [supportedVersions_parts, hlegacy]

theorem bestVersion_capture : bestVersion (h.parts captureExtension) = h.topVersion := by
  have hversions := congrArg ClientHelloParts.supportedVersions h.otherParts_eq
  have hlegacy := congrArg ClientHelloParts.legacyVersion h.otherParts_eq
  dsimp only [ClientHelloParts.otherParts] at hversions hlegacy
  rw [← bestVersion_gateway]
  unfold bestVersion
  rw [hversions, hlegacy]

theorem ja4_eq_iff (D : Digests)
    (halpn : (h.parts gatewayExtension).alpn.head? = (h.parts captureExtension).alpn.head?) :
    buildJa4 gatewayVersions D (h.parts gatewayExtension) =
      buildJa4 captureVersions D (h.parts captureExtension) ↔
      h.topVersion ∉ [0x0002, 0xfeff, 0xfefd, 0xfefc] := by
  rw [buildJa4_eq_iff D h.otherParts_eq halpn]
  unfold ja4VersionCode
  rw [bestVersion_gateway, bestVersion_capture, versionCode_eq_iff]
  rfl

/-- What both parsers find agrees exactly where the hello is unambiguous. -/
theorem agreement_iff (D : Digests) :
    (∃ p q, Agreement D h.bytes p q) ↔ h.Unambiguous := by
  have hgateway := h.parseClientHello_bytes
  have hcapture := h.tryParseTlsClientHelloFull_bytes
  unfold Unambiguous
  rw [← alpn_gateway, ← alpn_capture]
  constructor
  · rintro ⟨p, q, hagree⟩
    have hp : h.parts gatewayExtension = p := Option.some.inj (hgateway.symm.trans hagree.gateway)
    have hq : h.parts captureExtension = q := Option.some.inj (hcapture.symm.trans hagree.capture)
    subst hp hq
    exact ⟨(h.ja4_eq_iff D hagree.firstAlpn).mp hagree.ja4, hagree.firstAlpn⟩
  · rintro ⟨hversion, halpn⟩
    have hciphers := congrArg ClientHelloParts.ciphers h.otherParts_eq
    have hextensions := congrArg ClientHelloParts.extensions h.otherParts_eq
    have hversions := congrArg ClientHelloParts.supportedVersions h.otherParts_eq
    have hsignatures := congrArg ClientHelloParts.signatureAlgorithms h.otherParts_eq
    have hsni := congrArg (fun p => p.sni.isSome) h.otherParts_eq
    dsimp only [ClientHelloParts.otherParts] at hciphers hextensions hversions hsignatures hsni
    refine ⟨_, _, hgateway, hcapture, hciphers, hextensions, hversions, hsignatures, hsni, halpn,
      (h.ja4_eq_iff D halpn).mpr hversion, ?_⟩
    unfold parts
    rw [extractExtPayloadsFromCrypto_bytes, extensions_foldl]
    rfl

end ClientHello

def dtlsHello : ClientHello where
  legacyVersion := 0x0303
  random := List.replicate 32 7
  sessionId := []
  ciphers := [0x1301]
  compression := [0]
  extensions := some [(43, [4, 0xfe, 0xfd, 3, 3])]
  random_length := rfl
  sessionId_length := by decide
  ciphers_length := by decide
  compression_length := by decide
  extensions_length := by
    intro rs hrs
    cases hrs
    decide
  alpn_proper := by
    intro rs hrs r hr hkind
    cases hrs
    rw [List.mem_singleton.mp hr] at hkind
    cases hkind

/-- The gateway prints `00` for it, the capture `d2`. -/
theorem dtlsHello_differs :
    ¬ ∃ p q, Agreement { sha256 := id, md5 := id } dtlsHello.bytes p q := by
  rintro ⟨p, q, hagree⟩
  have hp := Option.some.inj (dtlsHello.parseClientHello_bytes.symm.trans hagree.gateway)
  have hq := Option.some.inj (dtlsHello.tryParseTlsClientHelloFull_bytes.symm.trans hagree.capture)
  subst hp hq
  have hversion := (dtlsHello.ja4_eq_iff _ hagree.firstAlpn).mp hagree.ja4
  exact hversion (by decide)

end TlsHello

end GrServer
