import GrServer.IpDisplay
import GrServer.QuicStream

/-!
# STUN messages

A message is a header with a cookie and a transaction id, and attributes padded
to four bytes.  The address in a response is masked with the cookie and, for
IPv6, with the transaction id; the reader takes the mask off.
-/

namespace GrServer

open Text Faults QuicFrames IpAddr

namespace Stun

def stunMagic : List UInt8 := [0x21, 0x12, 0xa4, 0x42]

def magicPort : UInt16 := 0x2112

structure StunInfo where
  parseOk : Bool := false
  messageType : Option UInt16 := none
  messageTypeName : Option String := none
  isBindingRequest : Bool := false
  isBindingSuccess : Bool := false
  isBindingError : Bool := false
  transactionIdHex : Option String := none
  attributeTypes : List UInt16 := []
  attributeNames : List String := []
  hasFingerprint : Bool := false
  hasMessageIntegrity : Bool := false
  hasUsername : Bool := false
  hasIceControlling : Bool := false
  hasIceControlled : Bool := false
  hasPriority : Bool := false
  hasUseCandidate : Bool := false
  mappedAddr : Option String := none
  xorMappedAddr : Option String := none
  software : Option String := none
  rawLen : ℕ := 0
  notes : List String := []

inductive SocketAddr where
  | v4 (ip : BitVec 32) (port : UInt16)
  | v6 (ip : BitVec 128) (port : UInt16) (flowinfo scopeId : UInt32)

def SocketAddr.ip : SocketAddr → IpAddr
  | v4 ip _ => .v4 ip
  | v6 ip _ _ _ => .v6 ip

def SocketAddr.port : SocketAddr → UInt16
  | v4 _ port => port
  | v6 _ port _ _ => port

def addrText (ip : IpAddr) (port : UInt16) : String :=
  String.ofList (IpAddr.display ip ++ ':' :: port.toNat.repr.toList)

/-! ## Reading -/

def looksLikeStun (data : List UInt8) : Run Bool := do
  if data.length < 20 then return false
  if (← index data 0) &&& 0xc0 ≠ 0 then return false
  let magic := [← index data 4, ← index data 5, ← index data 6, ← index data 7]
  return magic == stunMagic

def stunTypeName (t : UInt16) : String :=
  if t = 0x0001 then "BindingRequest"
  else if t = 0x0101 then "BindingSuccess"
  else if t = 0x0111 then "BindingError"
  else if t = 0x0003 then "AllocateRequest"
  else "Other"

def stunAttrName (t : UInt16) : String :=
  if t = 0x0001 then "MAPPED-ADDRESS"
  else if t = 0x0006 then "USERNAME"
  else if t = 0x0008 then "MESSAGE-INTEGRITY"
  else if t = 0x0009 then "ERROR-CODE"
  else if t = 0x000a then "UNKNOWN-ATTRIBUTES"
  else if t = 0x0014 then "REALM"
  else if t = 0x0015 then "NONCE"
  else if t = 0x0020 then "XOR-MAPPED-ADDRESS"
  else if t = 0x0024 then "PRIORITY"
  else if t = 0x0025 then "USE-CANDIDATE"
  else if t = 0x8022 then "SOFTWARE"
  else if t = 0x8028 then "FINGERPRINT"
  else if t = 0x8029 then "ICE-CONTROLLED"
  else if t = 0x802a then "ICE-CONTROLLING"
  else "ATTR"

/-- `for i in 0..n { bytes[off + i] ^= mask[i] }`. -/
def maskAt (mask : List UInt8) (off n : ℕ) (bytes : List UInt8) : Run (List UInt8) :=
  forRange (fun i bytes => do
    let m ← index mask i
    modifyAt bytes (← add off i) (· ^^^ m)) n 0 bytes

def maskV4 (ip : List UInt8) : Run (List UInt8) := maskAt stunMagic 0 4 ip

def maskV6 (txid ip : List UInt8) : Run (List UInt8) := do
  maskAt txid 4 12 (← maskAt stunMagic 0 4 ip)

def unmask (xor : Bool) (mask : List UInt8 → Run (List UInt8)) (ip : List UInt8) :
    Run (List UInt8) :=
  if xor then mask ip else pure ip

def parseMappedAddr (val : List UInt8) (xor : Bool) (txid : List UInt8) : Run (Option String) := do
  if val.length < 4 then return none
  let family ← index val 1
  let port ← u16From val 2
  let port := if xor then port ^^^ magicPort else port
  if family = 0x01 ∧ 8 ≤ val.length then
    let ip := [← index val 4, ← index val 5, ← index val 6, ← index val 7]
    let ip ← unmask xor maskV4 ip
    return some (addrText (.v4 (BitVec.ofNat 32 (valueOf ip))) port)
  else if family = 0x02 ∧ 20 ≤ val.length ∧ 12 ≤ txid.length then
    let ip ← slice val 4 20
    let ip ← unmask xor (maskV6 txid) ip
    return some (addrText (.v6 (BitVec.ofNat 128 (valueOf ip))) port)
  else return none

def readAttribute (data : List UInt8) (info : StunInfo) (atype : UInt16) (valStart valEnd : ℕ) :
    Run StunInfo := do
  if atype = 0x0001 then
    match ← parseMappedAddr (← slice data valStart valEnd) false (← slice data 8 20) with
    | some a => return { info with mappedAddr := some a }
    | none => return info
  else if atype = 0x0020 then
    match ← parseMappedAddr (← slice data valStart valEnd) true (← slice data 8 20) with
    | some a => return { info with xorMappedAddr := some a }
    | none => return info
  else if atype = 0x0006 then return { info with hasUsername := true }
  else if atype = 0x0008 then return { info with hasMessageIntegrity := true }
  else if atype = 0x8028 then return { info with hasFingerprint := true }
  else if atype = 0x0024 then return { info with hasPriority := true }
  else if atype = 0x0025 then return { info with hasUseCandidate := true }
  else if atype = 0x8029 then return { info with hasIceControlled := true }
  else if atype = 0x802a then return { info with hasIceControlling := true }
  else if atype = 0x8022 then
    match TlsHello.fromUtf8 (← slice data valStart valEnd) with
    | some s =>
        return { info with
          software := some (String.ofList (s.toList.rdropWhile (· = Char.ofNat 0))) }
    | none => return info
  else return info

def padded (alen : ℕ) : Run ℕ := do return (← add alen 3) &&& (2 ^ 64 - 1 - 3)

/-- The attributes from position 20 up to `stop`. -/
def readAttributes (data : List UInt8) (stop : ℕ) (info : StunInfo) : Run StunInfo := do
  let last ← loop (fun (off, info) => do
    if ¬((← add off 4) ≤ stop ∧ (← add off 4) ≤ data.length) then return .done (off, info)
    let atype ← u16From data off
    let alen := (← u16From data (← add off 2)).toNat
    let valStart ← add off 4
    let valEnd ← add valStart alen
    if data.length < valEnd ∨ stop < valEnd then return .done (off, info)
    let info : StunInfo := { info with
      attributeTypes := info.attributeTypes ++ [atype]
      attributeNames := info.attributeNames ++ [stunAttrName atype] }
    let info ← readAttribute data info atype valStart valEnd
    return .yield (← add valStart (← padded alen), info)) (data.length + 1) (20, info)
  return last.2

def parseStun (data : List UInt8) : Run StunInfo := do
  let info : StunInfo := { rawLen := data.length }
  if ¬(← looksLikeStun data) then return { info with notes := ["not stun"] }
  let msgType ← u16From data 0
  let len := (← u16From data 2).toNat
  if data.length < (← add 20 len) then return { info with notes := ["truncated stun"] }
  let info : StunInfo := { info with
    parseOk := true
    messageType := some msgType
    messageTypeName := some (stunTypeName msgType)
    isBindingRequest := msgType == 0x0001
    isBindingSuccess := msgType == 0x0101
    isBindingError := msgType == 0x0111
    transactionIdHex := some (TlsHello.hexEncode (← slice data 8 20)) }
  readAttributes data (← add 20 len) info

/-- `extend_from_slice` of the masked address behind its family and port. -/
def xorAttr (txid : List UInt8) (mapped : SocketAddr) : Run (List UInt8) := do
  let port := mapped.port ^^^ magicPort
  match mapped.ip with
  | .v4 value =>
      let ip ← maskV4 (bytesOf 4 value.toNat)
      return [0, 0x01] ++ WireBytes.beBytes port ++ ip
  | .v6 value =>
      let ip ← maskV6 txid (bytesOf 16 value.toNat)
      return [0, 0x02] ++ WireBytes.beBytes port ++ ip

def fixLength (out : List UInt8) : Run (List UInt8) := do
  let len := UInt16.ofNat (← sub out.length 20)
  let out ← modifyAt out 2 fun _ => UInt8.ofNat (len.toNat / 256)
  modifyAt out 3 fun _ => UInt8.ofNat (len.toNat % 256)

def buildBindingSuccess (request : List UInt8) (mapped : SocketAddr) :
    Run (Option (List UInt8)) := do
  if request.length < 20 then return none
  if ¬(← looksLikeStun request) then return none
  let txid ← slice request 8 20
  let attr ← xorAttr txid mapped
  let attrLen := UInt16.ofNat attr.length
  let pad := (4 - attr.length % 4) % 4
  let msgLen := 4 + attrLen + UInt16.ofNat pad
  return some (← fixLength (WireBytes.beBytes 0x0101 ++ WireBytes.beBytes msgLen ++ stunMagic ++
    txid ++ WireBytes.beBytes 0x0020 ++ WireBytes.beBytes attrLen ++ attr ++
      List.replicate pad 0))

section Returning

variable {data val txid : List UInt8}

theorem returns_maskAt {mask bytes : List UInt8} {off n : ℕ} (hmask : n ≤ mask.length)
    (hbytes : off + n ≤ bytes.length) (hfits : bytes.length < 2 ^ 63) :
    Returns (maskAt mask off n bytes) fun masked => masked.length = bytes.length := by
  unfold maskAt
  refine returns_forRange (I := fun _ (masked : List UInt8) => masked.length = bytes.length) ?_ rfl
  intro i masked _ hi hlen
  refine (returns_index (by omega)).bind ?_
  intro m _
  refine (returns_add (by omega)).bind ?_
  rintro _ rfl
  refine Returns.mono (returns_modifyAt _ (by omega)) ?_
  intro next hnext
  exact hnext.2.trans hlen

theorem returns_parseMappedAddr (xor : Bool) (hfits : val.length < 2 ^ 63) :
    Returns (parseMappedAddr val xor txid) fun _ => True := by
  unfold parseMappedAddr
  refine Returns.ite (fun _ => Returns.pure trivial) ?_
  intro hlong
  refine (returns_index (by omega)).bind ?_
  intro family _
  refine (returns_u16From hfits (by omega)).bind ?_
  intro port _
  refine Returns.ite ?_ ?_
  · rintro ⟨-, hval⟩
    refine (returns_index (by omega)).bind fun a _ => ?_
    refine (returns_index (by omega)).bind fun b _ => ?_
    refine (returns_index (by omega)).bind fun c _ => ?_
    refine (returns_index (by omega)).bind fun d _ => ?_
    have hmask : Returns (unmask xor maskV4 [a, b, c, d]) fun _ => True := by
      refine Returns.ite ?_ fun _ => Returns.pure trivial
      intro _
      have hshort : [a, b, c, d].length < 2 ^ 63 := by simp
      exact (returns_maskAt le_rfl le_rfl hshort).mono fun _ _ => trivial
    refine hmask.bind ?_
    intro ip _
    exact Returns.pure trivial
  · intro _
    refine Returns.ite ?_ fun _ => Returns.pure trivial
    rintro ⟨-, hval, htxid⟩
    refine (returns_slice (by omega) hval).bind ?_
    rintro ip ⟨-, hip⟩
    have hmask : Returns (unmask xor (maskV6 txid) ip) fun _ => True := by
      refine Returns.ite ?_ fun _ => Returns.pure trivial
      intro _
      have hmagic : stunMagic.length = 4 := rfl
      refine (returns_maskAt hmagic.ge (by omega) (by omega)).bind ?_
      intro masked hmasked
      exact (returns_maskAt htxid (by omega) (by omega)).mono fun _ _ => trivial
    refine hmask.bind ?_
    intro ip _
    exact Returns.pure trivial

theorem returns_readAttribute (info : StunInfo) (atype : UInt16) {valStart valEnd : ℕ}
    (hfits : data.length < 2 ^ 63) (hfrom : valStart ≤ valEnd) (hto : valEnd ≤ data.length)
    (hheader : 20 ≤ data.length) :
    Returns (readAttribute data info atype valStart valEnd) fun _ => True := by
  have haddr (xor : Bool) (add : String → StunInfo) : Returns (do
      match ← parseMappedAddr (← slice data valStart valEnd) xor (← slice data 8 20) with
      | some a => return add a
      | none => return info : Run StunInfo) fun _ => True := by
    refine (returns_slice hfrom hto).bind ?_
    rintro val ⟨-, hval⟩
    refine (returns_slice (by omega) hheader).bind ?_
    intro txid _
    refine (returns_parseMappedAddr xor (by omega)).bind ?_
    intro a _
    cases a with
    | none => exact Returns.pure trivial
    | some a => exact Returns.pure trivial
  unfold readAttribute
  refine Returns.ite (fun _ => haddr false _) fun _ => ?_
  refine Returns.ite (fun _ => haddr true _) fun _ => ?_
  iterate 7 refine Returns.ite (fun _ => Returns.pure trivial) fun _ => ?_
  refine Returns.ite ?_ fun _ => Returns.pure trivial
  intro _
  refine (returns_slice hfrom hto).bind ?_
  intro text _
  cases TlsHello.fromUtf8 text with
  | none => exact Returns.pure trivial
  | some s => exact Returns.pure trivial

theorem returns_readAttributes (stop : ℕ) (info : StunInfo) (hfits : data.length < 2 ^ 63)
    (hheader : 20 ≤ data.length) :
    Returns (readAttributes data stop info) fun _ => True := by
  unfold readAttributes
  refine Returns.bind (returns_loop (I := fun s => s.1 ≤ data.length + 2 ^ 17)
    (Q := fun _ => True) (m := fun s => data.length - s.1) ?_ (by dsimp only; omega)
      (by dsimp only; omega)) fun _ _ => Returns.pure trivial
  rintro ⟨off, info⟩ hoff
  dsimp only at hoff
  refine (returns_add (by omega)).bind ?_
  rintro _ rfl
  refine (returns_add (by omega)).bind ?_
  rintro _ rfl
  refine Returns.ite (fun _ => Returns.pure trivial) ?_
  intro hroom
  have hhead : off + 4 ≤ data.length := (not_not.mp hroom).2
  refine (returns_u16From hfits (by omega)).bind ?_
  intro atype _
  refine (returns_add (by omega)).bind ?_
  rintro _ rfl
  refine (returns_u16From hfits (by omega)).bind ?_
  intro alen _
  have halen := alen.toNat_lt
  refine (returns_add (by omega)).bind ?_
  rintro _ rfl
  refine (returns_add (by omega)).bind ?_
  rintro _ rfl
  refine Returns.ite (fun _ => Returns.pure trivial) ?_
  intro hin
  refine (returns_readAttribute _ atype hfits (by omega) (by omega) hheader).bind ?_
  intro next _
  have hpadded : Returns (padded alen.toNat) (· ≤ alen.toNat + 3) := by
    refine (returns_add (by omega)).bind ?_
    rintro _ rfl
    exact Returns.pure Nat.and_le_left
  refine hpadded.bind ?_
  intro width hwidth
  refine (returns_add (by omega)).bind ?_
  rintro _ rfl
  refine Returns.pure ⟨?_, ?_⟩
  · dsimp only
    omega
  · dsimp only
    omega

theorem returns_looksLikeStun (data : List UInt8) :
    Returns (looksLikeStun data) fun b => b = true → 20 ≤ data.length := by
  unfold looksLikeStun
  refine Returns.ite (fun _ => Returns.pure nofun) ?_
  intro hlong
  refine (returns_index (by omega)).bind fun first _ => ?_
  refine Returns.ite (fun _ => Returns.pure nofun) fun _ => ?_
  refine (returns_index (by omega)).bind fun a _ => ?_
  refine (returns_index (by omega)).bind fun b _ => ?_
  refine (returns_index (by omega)).bind fun c _ => ?_
  refine (returns_index (by omega)).bind fun d _ => ?_
  exact Returns.pure fun _ => by omega

theorem returns_parseStun (hfits : data.length < 2 ^ 63) :
    Returns (parseStun data) fun _ => True := by
  unfold parseStun
  refine (returns_looksLikeStun data).bind ?_
  intro looks hlooks
  refine Returns.ite (fun _ => Returns.pure trivial) ?_
  intro hstun
  have hheader := hlooks (not_not.mp hstun)
  refine (returns_u16From hfits (by omega)).bind fun msgType _ => ?_
  refine (returns_u16From hfits (by omega)).bind fun len _ => ?_
  have hlen := len.toNat_lt
  refine (returns_add (by omega)).bind ?_
  rintro _ rfl
  refine Returns.ite (fun _ => Returns.pure trivial) fun _ => ?_
  refine (returns_slice (by omega) hheader).bind fun txid _ => ?_
  refine (returns_add (by omega)).bind ?_
  rintro _ rfl
  exact returns_readAttributes _ _ hfits hheader

end Returning

/-! ## The mask and the response -/

theorem maskV4_twice {ip : List UInt8} (hip : ip.length = 4) :
    ∃ masked, maskV4 ip = .ok masked ∧ masked.length = 4 ∧ maskV4 masked = .ok ip := by
  match ip, hip with
  | [a, b, c, d], _ =>
      refine ⟨[a ^^^ 0x21, b ^^^ 0x12, c ^^^ 0xa4, d ^^^ 0x42], rfl, rfl, ?_⟩
      have htwice : maskV4 [a ^^^ 0x21, b ^^^ 0x12, c ^^^ 0xa4, d ^^^ 0x42] =
          .ok [a ^^^ 0x21 ^^^ 0x21, b ^^^ 0x12 ^^^ 0x12, c ^^^ 0xa4 ^^^ 0xa4,
            d ^^^ 0x42 ^^^ 0x42] := rfl
      rw [htwice]
      simp only [UInt8.xor_assoc, UInt8.xor_self, UInt8.xor_zero]

theorem maskV6_twice {txid ip : List UInt8} (htxid : txid.length = 12) (hip : ip.length = 16) :
    ∃ masked, maskV6 txid ip = .ok masked ∧ masked.length = 16 ∧ maskV6 txid masked = .ok ip := by
  match txid, htxid, ip, hip with
  | [t₀, t₁, t₂, t₃, t₄, t₅, t₆, t₇, t₈, t₉, t₁₀, t₁₁], _,
      [a, b, c, d, i₀, i₁, i₂, i₃, i₄, i₅, i₆, i₇, i₈, i₉, i₁₀, i₁₁], _ =>
      refine ⟨[a ^^^ 0x21, b ^^^ 0x12, c ^^^ 0xa4, d ^^^ 0x42, i₀ ^^^ t₀, i₁ ^^^ t₁, i₂ ^^^ t₂,
        i₃ ^^^ t₃, i₄ ^^^ t₄, i₅ ^^^ t₅, i₆ ^^^ t₆, i₇ ^^^ t₇, i₈ ^^^ t₈, i₉ ^^^ t₉, i₁₀ ^^^ t₁₀,
        i₁₁ ^^^ t₁₁], rfl, rfl, ?_⟩
      have htwice : maskV6 [t₀, t₁, t₂, t₃, t₄, t₅, t₆, t₇, t₈, t₉, t₁₀, t₁₁]
          [a ^^^ 0x21, b ^^^ 0x12, c ^^^ 0xa4, d ^^^ 0x42, i₀ ^^^ t₀, i₁ ^^^ t₁, i₂ ^^^ t₂,
            i₃ ^^^ t₃, i₄ ^^^ t₄, i₅ ^^^ t₅, i₆ ^^^ t₆, i₇ ^^^ t₇, i₈ ^^^ t₈, i₉ ^^^ t₉,
            i₁₀ ^^^ t₁₀, i₁₁ ^^^ t₁₁] =
          .ok [a ^^^ 0x21 ^^^ 0x21, b ^^^ 0x12 ^^^ 0x12, c ^^^ 0xa4 ^^^ 0xa4,
            d ^^^ 0x42 ^^^ 0x42, i₀ ^^^ t₀ ^^^ t₀, i₁ ^^^ t₁ ^^^ t₁, i₂ ^^^ t₂ ^^^ t₂,
            i₃ ^^^ t₃ ^^^ t₃, i₄ ^^^ t₄ ^^^ t₄, i₅ ^^^ t₅ ^^^ t₅, i₆ ^^^ t₆ ^^^ t₆,
            i₇ ^^^ t₇ ^^^ t₇, i₈ ^^^ t₈ ^^^ t₈, i₉ ^^^ t₉ ^^^ t₉, i₁₀ ^^^ t₁₀ ^^^ t₁₀,
            i₁₁ ^^^ t₁₁ ^^^ t₁₁] := rfl
      rw [htwice]
      simp only [UInt8.xor_assoc, UInt8.xor_self, UInt8.xor_zero]

def responseBytes (len alen : UInt16) (txid attr : List UInt8) : List UInt8 :=
  WireBytes.beBytes 0x0101 ++ WireBytes.beBytes len ++ stunMagic ++ txid ++
    WireBytes.beBytes 0x0020 ++ WireBytes.beBytes alen ++ attr

def successInfo (txid : List UInt8) (rawLen : ℕ) (addr : String) : StunInfo where
  parseOk := true
  messageType := some 0x0101
  messageTypeName := some "BindingSuccess"
  isBindingSuccess := true
  transactionIdHex := some (TlsHello.hexEncode txid)
  attributeTypes := [0x0020]
  attributeNames := ["XOR-MAPPED-ADDRESS"]
  xorMappedAddr := some addr
  rawLen := rawLen

section Response

variable {txid ip : List UInt8}

theorem parseStun_responseV4 (htxid : txid.length = 12) (hip : ip.length = 4) (hi lo : UInt8) :
    parseStun (responseBytes 12 8 txid ([0, 1, hi, lo] ++ ip)) = (do
      let ip ← maskV4 ip
      return successInfo txid 32 (addrText (.v4 (BitVec.ofNat 32 (valueOf ip)))
        (UInt16.ofNat (hi.toNat * 256 + lo.toNat) ^^^ magicPort))) := by
  match txid, htxid, ip, hip with
  | [_, _, _, _, _, _, _, _, _, _, _, _], _, [_, _, _, _], _ => rfl

theorem parseStun_responseV6 (htxid : txid.length = 12) (hip : ip.length = 16) (hi lo : UInt8) :
    parseStun (responseBytes 24 20 txid ([0, 2, hi, lo] ++ ip)) = (do
      let ip ← maskV6 txid ip
      return successInfo txid 44 (addrText (.v6 (BitVec.ofNat 128 (valueOf ip)))
        (UInt16.ofNat (hi.toNat * 256 + lo.toNat) ^^^ magicPort))) := by
  match txid, htxid, ip, hip with
  | [_, _, _, _, _, _, _, _, _, _, _, _], _, [_, _, _, _, _, _, _, _, _, _, _, _, _, _, _, _], _ =>
      rfl

theorem fixLength_eq (a b c d : UInt8) {rest : List UInt8} {len : UInt16}
    (h : rest.length = 16 + len.toNat) : fixLength (a :: b :: c :: d :: rest) =
      .ok (a :: b :: UInt8.ofNat (len.toNat / 256) :: UInt8.ofNat (len.toNat % 256) :: rest) := by
  have hlen : (a :: b :: c :: d :: rest).length = 20 + len.toNat := by
    simp only [List.length_cons]
    omega
  have hsub : sub (a :: b :: c :: d :: rest).length 20 = .ok len.toNat := by
    rw [hlen, sub, if_pos (Nat.le_add_right _ _), Nat.add_sub_cancel_left]
  have hfirst (hi : UInt8) : modifyAt (a :: b :: c :: d :: rest) 2 (fun _ => hi) =
      .ok (a :: b :: hi :: d :: rest) := if_pos (by simp)
  have hsecond (hi lo : UInt8) : modifyAt (a :: b :: hi :: d :: rest) 3 (fun _ => lo) =
      .ok (a :: b :: hi :: lo :: rest) := if_pos (by simp)
  unfold fixLength
  simp only [hsub, bind, Except.bind, UInt16.ofNat_toNat, hfirst, hsecond]

theorem build_eq {request attr : List UInt8} {mapped : SocketAddr} {msgLen attrLen : UInt16}
    (hstun : looksLikeStun request = .ok true) (htxid : slice request 8 20 = .ok txid)
    (hattr : xorAttr txid mapped = .ok attr) (hlen : txid.length = 12)
    (hsize : attr.length = 8 ∧ msgLen = 12 ∧ attrLen = 8 ∨
      attr.length = 20 ∧ msgLen = 24 ∧ attrLen = 20) :
    buildBindingSuccess request mapped =
      .ok (some (responseBytes msgLen attrLen txid attr)) := by
  have hheader : ¬request.length < 20 :=
    not_lt.mpr ((returns_looksLikeStun request).of_eq hstun rfl)
  have hrest : (stunMagic ++ (txid ++ (WireBytes.beBytes 0x0020 ++
      (WireBytes.beBytes attrLen ++ attr)))).length = 16 + msgLen.toNat := by
    have hmagic : stunMagic.length = 4 := rfl
    rcases hsize with ⟨hsize, rfl, -⟩ | ⟨hsize, rfl, -⟩
    · simp [hlen, hsize, hmagic]
    · simp [hlen, hsize, hmagic]
  have hfix := fixLength_eq 1 1 (UInt8.ofNat (msgLen.toNat / 256)) (UInt8.ofNat msgLen.toNat) hrest
  unfold buildBindingSuccess
  rw [if_neg hheader, hstun]
  simp only [bind, Except.bind, not_true_eq_false, if_false, htxid, hattr]
  have hlow : UInt8.ofNat (msgLen.toNat % 256) = UInt8.ofNat msgLen.toNat := by
    rcases hsize with ⟨-, rfl, -⟩ | ⟨-, rfl, -⟩ <;> rfl
  have hmsg : 4 + UInt16.ofNat attr.length + UInt16.ofNat ((4 - attr.length % 4) % 4) = msgLen ∧
      UInt16.ofNat attr.length = attrLen ∧ (4 - attr.length % 4) % 4 = 0 := by
    rcases hsize with ⟨hsize, rfl, rfl⟩ | ⟨hsize, rfl, rfl⟩
    · rw [hsize]
      decide
    · rw [hsize]
      decide
  have hwhole : WireBytes.beBytes 0x0101 ++ WireBytes.beBytes msgLen ++ stunMagic ++ txid ++
      WireBytes.beBytes 0x0020 ++ WireBytes.beBytes attrLen ++ attr ++ List.replicate 0 0 =
      1 :: 1 :: UInt8.ofNat (msgLen.toNat / 256) :: UInt8.ofNat msgLen.toNat ::
        (stunMagic ++ (txid ++ (WireBytes.beBytes 0x0020 ++
          (WireBytes.beBytes attrLen ++ attr)))) := by
    simp only [List.replicate_zero, List.append_nil, List.append_assoc]
    rfl
  rw [hmsg.1, hmsg.2.1, hmsg.2.2, hwhole, hfix, hlow]
  unfold responseBytes
  simp only [List.append_assoc]
  rfl

theorem length_responseBytes (msgLen attrLen : UInt16) (attr : List UInt8)
    (hlen : txid.length = 12) :
    (responseBytes msgLen attrLen txid attr).length = 24 + attr.length := by
  have hmagic : stunMagic.length = 4 := rfl
  unfold responseBytes
  simp only [List.length_append, WireBytes.length_beBytes, hmagic, hlen]

theorem slice_responseBytes (msgLen attrLen : UInt16) (attr : List UInt8)
    (hlen : txid.length = 12) : slice (responseBytes msgLen attrLen txid attr) 8 20 = .ok txid := by
  have hwhole : responseBytes msgLen attrLen txid attr =
      (WireBytes.beBytes 0x0101 ++ WireBytes.beBytes msgLen ++ stunMagic) ++
        (txid ++ (WireBytes.beBytes 0x0020 ++ WireBytes.beBytes attrLen ++ attr)) := by
    unfold responseBytes
    simp only [List.append_assoc]
  have hfits : 20 ≤ (responseBytes msgLen attrLen txid attr).length := by
    rw [length_responseBytes msgLen attrLen attr hlen]
    omega
  have hhead : (WireBytes.beBytes 0x0101 ++ WireBytes.beBytes msgLen ++ stunMagic).length = 8 := rfl
  rw [slice, if_pos ⟨by decide, hfits⟩, hwhole, List.drop_left' hhead, List.take_left' hlen]

theorem port_unmasked {port : UInt16} : UInt16.ofNat
    ((UInt8.ofNat ((port ^^^ magicPort).toNat / 256)).toNat * 256 +
      (UInt8.ofNat (port ^^^ magicPort).toNat).toNat) ^^^ magicPort = port := by
  rw [WireBytes.ofNat_toNat_pair, UInt16.xor_assoc, UInt16.xor_self, UInt16.xor_zero]

theorem ofNat_valueOf_bytesOf (width : ℕ) (value : BitVec (8 * width)) :
    BitVec.ofNat (8 * width) (valueOf (bytesOf width value.toNat)) = value := by
  rw [valueOf_bytesOf, Nat.mod_eq_of_lt value.isLt, BitVec.ofNat_toNat, BitVec.setWidth_eq]

theorem parse_build {request : List UInt8} (hstun : looksLikeStun request = .ok true)
    (htxid : slice request 8 20 = .ok txid) (hlen : txid.length = 12) (mapped : SocketAddr) :
    ∃ out, buildBindingSuccess request mapped = .ok (some out) ∧ slice out 8 20 = .ok txid ∧
      parseStun out = .ok (successInfo txid out.length (addrText mapped.ip mapped.port)) := by
  cases hip : mapped.ip with
  | v4 value =>
      rcases maskV4_twice (length_bytesOf 4 value.toNat) with ⟨masked, hmask, hmasked, hback⟩
      have hattr : xorAttr txid mapped =
          .ok ([0, 1] ++ WireBytes.beBytes (mapped.port ^^^ magicPort) ++ masked) := by
        unfold xorAttr
        rw [hip]
        dsimp only
        rw [hmask]
        rfl
      have hsize : ([0, 1] ++ WireBytes.beBytes (mapped.port ^^^ magicPort) ++ masked).length = 8 :=
        by simp [hmasked]
      have hvalue : BitVec.ofNat 32 (valueOf (bytesOf 4 value.toNat)) = value :=
        ofNat_valueOf_bytesOf 4 value
      have hread := parseStun_responseV4 hlen hmasked
        (UInt8.ofNat ((mapped.port ^^^ magicPort).toNat / 256))
        (UInt8.ofNat (mapped.port ^^^ magicPort).toNat)
      rw [hback, port_unmasked] at hread
      refine ⟨_, build_eq hstun htxid hattr hlen (Or.inl ⟨hsize, rfl, rfl⟩),
        slice_responseBytes _ _ _ hlen, ?_⟩
      rw [length_responseBytes _ _ _ hlen, hsize, ← hvalue]
      exact hread
  | v6 value =>
      rcases maskV6_twice hlen (length_bytesOf 16 value.toNat) with ⟨masked, hmask, hmasked, hback⟩
      have hattr : xorAttr txid mapped =
          .ok ([0, 2] ++ WireBytes.beBytes (mapped.port ^^^ magicPort) ++ masked) := by
        unfold xorAttr
        rw [hip]
        dsimp only
        rw [hmask]
        rfl
      have hsize : ([0, 2] ++ WireBytes.beBytes (mapped.port ^^^ magicPort) ++ masked).length = 20 :=
        by simp [hmasked]
      have hvalue : BitVec.ofNat 128 (valueOf (bytesOf 16 value.toNat)) = value :=
        ofNat_valueOf_bytesOf 16 value
      have hread := parseStun_responseV6 hlen hmasked
        (UInt8.ofNat ((mapped.port ^^^ magicPort).toNat / 256))
        (UInt8.ofNat (mapped.port ^^^ magicPort).toNat)
      rw [hback, port_unmasked] at hread
      refine ⟨_, build_eq hstun htxid hattr hlen (Or.inr ⟨hsize, rfl, rfl⟩),
        slice_responseBytes _ _ _ hlen, ?_⟩
      rw [length_responseBytes _ _ _ hlen, hsize, ← hvalue]
      exact hread

end Response

theorem addrText_inj {ip ip' : IpAddr} {port port' : UInt16}
    (h : addrText ip port = addrText ip' port') : ip = ip' ∧ port = port' := by
  have hcolon (n : ℕ) : ':' ∉ n.repr.toList := by
    intro hmem
    exact absurd (isDigit_of_mem_repr_nat hmem) (by decide)
  have hsplit := congrArg (rsplitOnce ':') (String.ofList_injective h)
  rw [rsplitOnce_of_not_mem (hcolon _), rsplitOnce_of_not_mem (hcolon _)] at hsplit
  simp only [Option.some.injEq, Prod.mk.injEq] at hsplit
  refine ⟨IpAddr.display_inj hsplit.1, UInt16.toNat_inj.mp ?_⟩
  exact Nat.repr_inj.mp (String.toList_injective hsplit.2)

/-- Whatever message comes, it is read without leaving it; and a response to a request
gives the request's id and the address it was built with. -/
theorem stun_round_trip :
    (∀ data : Buffer, ∃ info, parseStun data.bytes = .ok info) ∧
      (∀ request mapped, looksLikeStun request = .ok true →
        ∃ out txid info, buildBindingSuccess request mapped = .ok (some out) ∧
          slice request 8 20 = .ok txid ∧ slice out 8 20 = .ok txid ∧
          parseStun out = .ok info ∧ info.parseOk = true ∧ info.isBindingSuccess = true ∧
            info.transactionIdHex = some (TlsHello.hexEncode txid) ∧
              info.xorMappedAddr = some (addrText mapped.ip mapped.port)) ∧
      ∀ ip port ip' port', addrText ip port = addrText ip' port' → ip = ip' ∧ port = port' := by
  refine ⟨?_, ?_, fun _ _ _ _ => addrText_inj⟩
  · intro data
    rcases returns_parseStun data.fits with ⟨info, hinfo, -⟩
    exact ⟨info, hinfo⟩
  · intro request mapped hstun
    have hheader := (returns_looksLikeStun request).of_eq hstun rfl
    have htxid := @returns_slice _ request 8 20 (by decide) hheader
    rcases htxid with ⟨txid, htxid, -, hlen⟩
    rcases parse_build hstun htxid hlen mapped with ⟨out, hbuild, hsame, hparse⟩
    exact ⟨out, txid, _, hbuild, htxid, hsame, hparse, rfl, rfl, rfl, rfl⟩

def bindingRequest : List UInt8 :=
  [0, 1, 0, 0, 0x21, 0x12, 0xa4, 0x42, 0, 1, 2, 3, 4, 5, 6, 7, 8, 9, 10, 11]

theorem bindingRequest_answered : looksLikeStun bindingRequest = .ok true ∧
    ∃ out txid info,
      buildBindingSuccess bindingRequest (.v4 0x01020304 5555) = .ok (some out) ∧
        slice bindingRequest 8 20 = .ok txid ∧ slice out 8 20 = .ok txid ∧
          parseStun out = .ok info ∧ info.parseOk = true ∧ info.isBindingSuccess = true ∧
            info.transactionIdHex = some (TlsHello.hexEncode txid) ∧
              info.xorMappedAddr = some (addrText (.v4 0x01020304) 5555) :=
  ⟨rfl, stun_round_trip.2.1 bindingRequest (.v4 0x01020304 5555) rfl⟩

example : addrText (.v4 0x01020304) 5555 = "1.2.3.4:5555" := by decide

end Stun

end GrServer
