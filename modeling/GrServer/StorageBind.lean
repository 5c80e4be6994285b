import GrServer.ClusterHub
import GrServer.CycleStore
import GrServer.DigestParts

/-!
# The signed storage bind

A client keeps a blob that ties its visitor terminal to a cool-down and a product
version, signed by the server.  The signed payload joins its fields with bars and
is read back by cutting it at every bar.  Opening a session checks the blob and
looks at the product version in it alone.
-/

namespace GrServer

open Json Text

namespace StorageBind

def i64Text (n : Int64) : Text := n.toInt.repr.toList

def parseI64 (s : Text) : Option Int64 :=
  let (negative, digits) :=
    match s with
    | '-' :: digits => (true, digits)
    | '+' :: digits => (false, digits)
    | digits => (false, digits)
  if digits = [] ∨ ¬ digits.all Char.isDigit then none
  else
    let n : ℤ := Nat.ofDigitChars 10 digits 0
    let value := if negative then -n else n
    if -2 ^ 63 ≤ value ∧ value < 2 ^ 63 then some (Int64.ofInt value) else none

/-! ## Issuing and validating -/

structure BindEnv where
  sha256 : List UInt8 → List UInt8

structure Bind where
  vtId : String
  coolUntilMs : Int64
  productVersion : String
  issuedMs : Int64
  expMs : Int64
  deriving DecidableEq

def bindPrefix : String := "g5b1."

def hexDigits (bytes : List UInt8) : Text :=
  bytes.flatMap fun b => [Nat.digitChar (b.toNat / 16), Nat.digitChar (b.toNat % 16)]

def Bind.payload (b : Bind) : Text :=
  "v1|".toList ++ b.vtId.toList ++ '|' :: (i64Text b.coolUntilMs ++ '|' ::
    (b.productVersion.toList ++ '|' :: (i64Text b.issuedMs ++ '|' :: i64Text b.expMs)))

def Bind.members (b : Bind) : List (String × Json) :=
  [("vt_id", .str b.vtId), ("cool_until_ms", ofInt b.coolUntilMs.toInt),
    ("product_version", .str b.productVersion), ("issued_ms", ofInt b.issuedMs.toInt),
    ("exp_ms", ofInt b.expMs.toInt)]

def Bind.validated (b : Bind) : Json :=
  ofFields (SortedMap.ofEntries (("ok", .bool true) :: b.members))

def readPayload (payload : Text) : Except String Bind :=
  match payload.splitOn '|' with
  | [v, vtId, cool, productVersion, issued, exp] =>
      if v ≠ "v1".toList then .error "bad_payload"
      else
        match parseI64 cool with
        | none => .error "bad_cool"
        | some cool =>
            match parseI64 issued with
            | none => .error "bad_issued"
            | some issued =>
                match parseI64 exp with
                | none => .error "bad_exp"
                | some exp =>
                    .ok ⟨String.ofList vtId, cool, String.ofList productVersion, issued, exp⟩
  | _ => .error "bad_payload"

section Source

variable (env : BindEnv) (secret : String)

def hmacSha256Hex (secret msg : List UInt8) : Text :=
  let short := if 64 < secret.length then env.sha256 secret else secret
  let key := short ++ List.replicate (64 - short.length) 0
  let inner := env.sha256 (key.map (0x36 ^^^ ·) ++ msg)
  hexDigits (env.sha256 (key.map (0x5c ^^^ ·) ++ inner))

def sigOf (payload : Text) : Text :=
  hmacSha256Hex env (asBytes secret) (asBytes (String.ofList payload))

def Bind.text (b : Bind) : String :=
  bindPrefix ++ String.ofList (b.payload ++ '|' :: sigOf env secret b.payload)

def issueStorageBind (b : Bind) : Json :=
  ofFields (SortedMap.ofEntries
    (("algo", .str "storage_bind_v1") :: ("bind", .str (b.text env secret)) :: b.members))

def validateStorageBind (bind : String) (nowMs : Int64) (forceIdentity : Bool) :
    Except String Json :=
  if forceIdentity then .error "force_identity"
  else
    match stripPrefix? (trimmed bind) bindPrefix with
    | none => .error "bad_prefix"
    | some body =>
        match rsplitOnce '|' body.toList with
        | none => .error "bad_shape"
        | some (payload, sig) =>
            if (asBytes (String.ofList sig)).length < 32 then .error "bad_sig"
            else if !ClusterHub.ctEq (asBytes (String.ofList (sigOf env secret payload)))
                (asBytes (String.ofList sig)) then .error "sig_mismatch"
            else
              match readPayload payload with
              | .error reason => .error reason
              | .ok b =>
                  if 0 < b.expMs ∧ b.expMs < nowMs then .error "expired"
                  else .ok b.validated

structure OpenBody where
  sessionId : Option String
  visitorTerminalId : Option String
  storageBind : Option String

/-- The meta after the bind step, and the event of a bind that is turned down. -/
def openStorageBind (body : OpenBody) (nowMs : Int64) (forceIdentity : Bool)
    (info : Fields) : Fields × Option Json :=
  let currentPv := CycleStore.productVersionFromMeta info
  match body.storageBind.filter (· ≠ "") with
  | none => (info, none)
  | some bind =>
      match validateStorageBind env secret bind nowMs forceIdentity with
      | .ok v =>
          let info := info.insert "storage_bind_ok" (.bool true)
          match (v.get? "product_version").bind asStr with
          | some pv =>
              if currentPv ≠ "" ∧ pv ≠ "" ∧ pv ≠ currentPv then
                ((info.insert "storage_bind_version_mismatch" (.bool true)).insert
                  "force_identity" (.bool true), none)
              else (info, none)
          | none => (info, none)
      | .error reason =>
          let info := (info.insert "storage_bind_ok" (.bool false)).insert
            "storage_bind_err" (.str reason)
          let info :=
            if reason = "sig_mismatch" ∨ reason = "expired" then
              info.insert "force_identity" (.bool true)
            else info
          let event := SortedMap.ofEntries [
            ("code", .str "storage_bind_invalid"), ("severity", .str "warn"),
            ("stage", .str "open"), ("session_id", .str (body.sessionId.getD "")),
            ("visitor_terminal_id", .str (body.visitorTerminalId.getD "")),
            ("product_version", .str currentPv),
            ("detail_json", .obj [("reason", .str reason)])]
          (info, some (ofFields event))

end Source

theorem toDigits_all_digits (n : ℕ) : (Nat.toDigits 10 n).all Char.isDigit = true := by
  rw [List.all_eq_true]
  intro c hc
  exact Nat.isDigit_of_mem_toDigits (by omega) (by omega) hc

theorem parseI64_digits {digits : Text} (hne : digits ≠ [])
    (hall : digits.all Char.isDigit = true) :
    parseI64 digits =
      if -2 ^ 63 ≤ (Nat.ofDigitChars 10 digits 0 : ℤ) ∧
          (Nat.ofDigitChars 10 digits 0 : ℤ) < 2 ^ 63 then
        some (Int64.ofInt (Nat.ofDigitChars 10 digits 0))
      else none := by
  cases digits with
  | nil => exact absurd rfl hne
  | cons c cs =>
      have hc : c.isDigit = true := (List.all_eq_true.mp hall) c List.mem_cons_self
      unfold parseI64
      split
      · rename_i heq
        split at heq
        · rename_i hminus
          obtain ⟨rfl, _⟩ := List.cons.inj hminus
          exact absurd hc (by decide)
        · rename_i hplus
          obtain ⟨rfl, _⟩ := List.cons.inj hplus
          exact absurd hc (by decide)
        · cases heq
          rw [if_neg (by simpa using hall)]
          rfl

theorem parseI64_minus {digits : Text} (hne : digits ≠ [])
    (hall : digits.all Char.isDigit = true) :
    parseI64 ('-' :: digits) =
      if -2 ^ 63 ≤ -(Nat.ofDigitChars 10 digits 0 : ℤ) ∧
          -(Nat.ofDigitChars 10 digits 0 : ℤ) < 2 ^ 63 then
        some (Int64.ofInt (-(Nat.ofDigitChars 10 digits 0 : ℤ)))
      else none := by
  have hgood : ¬ (digits = [] ∨ ¬ digits.all Char.isDigit = true) := by
    simp [hne, hall]
  exact if_neg hgood

theorem parseI64_i64Text (n : Int64) : parseI64 (i64Text n) = some n := by
  have hrange : -2 ^ 63 ≤ n.toInt ∧ n.toInt < 2 ^ 63 :=
    ⟨Int64.le_toInt n, Int64.toInt_lt n⟩
  have hback : Int64.ofInt n.toInt = n := Int64.ofInt_toInt n
  unfold i64Text
  generalize n.toInt = z at hrange hback
  cases z with
  | ofNat m =>
      have htext : (Int.ofNat m).repr.toList = Nat.toDigits 10 m := Nat.toList_repr
      have hvalue : Nat.ofDigitChars 10 (Nat.toDigits 10 m) 0 = m := Nat.ofDigitChars_ten_toDigits
      rw [htext, parseI64_digits Nat.toDigits_ne_nil (toDigits_all_digits m), hvalue]
      exact (if_pos hrange).trans (congrArg some hback)
  | negSucc m =>
      have htext : (Int.negSucc m).repr.toList = '-' :: Nat.toDigits 10 (m + 1) := by
        simp [Int.repr, String.toList_append]
      have hvalue : Nat.ofDigitChars 10 (Nat.toDigits 10 (m + 1)) 0 = m + 1 :=
        Nat.ofDigitChars_ten_toDigits
      have hneg : -((m + 1 : ℕ) : ℤ) = Int.negSucc m := rfl
      rw [htext, parseI64_minus Nat.toDigits_ne_nil (toDigits_all_digits (m + 1)), hvalue,
        hneg]
      exact (if_pos hrange).trans (congrArg some hback)

/-! ## The text of a bind -/

def Bind.parts (b : Bind) : List Text :=
  ["v1".toList, b.vtId.toList, i64Text b.coolUntilMs, b.productVersion.toList,
    i64Text b.issuedMs, i64Text b.expMs]

theorem Bind.payload_eq (b : Bind) : b.payload = ['|'].intercalate b.parts := by
  unfold Bind.parts
  simp only [Delimited.join_cons_cons, Delimited.join_singleton]
  rfl

/-- No field that the client chooses has a bar. -/
def Bind.Barless (b : Bind) : Prop :=
  '|' ∉ b.vtId.toList ∧ '|' ∉ b.productVersion.toList

theorem Bind.barless_iff (b : Bind) : b.Barless ↔ ∀ p ∈ b.parts, '|' ∉ p := by
  have hversion : '|' ∉ "v1".toList := by decide
  have hnumber (n : Int64) : '|' ∉ i64Text n := bar_not_mem_repr _
  unfold Bind.Barless Bind.parts
  simp [hnumber]

theorem Bind.splitOn_payload {b : Bind} (h : b.Barless) : b.payload.splitOn '|' = b.parts := by
  rw [b.payload_eq, Delimited.splitOn_join (by simp [Bind.parts])]
  exact Delimited.flatMap_splitOn_eq_self (b.barless_iff.mp h)

theorem readPayload_of_barless {b : Bind} (h : b.Barless) : readPayload b.payload = .ok b := by
  unfold readPayload
  rw [Bind.splitOn_payload h]
  unfold Bind.parts
  simp [parseI64_i64Text]

theorem readPayload_of_bar {b : Bind} (h : ¬ b.Barless) :
    readPayload b.payload = .error "bad_payload" := by
  have hlength : (b.payload.splitOn '|').length ≠ 6 := by
    intro hsix
    apply h
    rw [b.payload_eq, Delimited.splitOn_join (by simp [Bind.parts])] at hsix
    exact b.barless_iff.mpr (Delimited.not_mem_of_flatMap_length hsix)
  unfold readPayload
  split
  · rename_i heq
    rw [heq] at hlength
    exact absurd rfl hlength
  · rfl

section Signed

variable {env : BindEnv} {secret : String}

theorem hexDigits_chars {c : Char} {bytes : List UInt8} (h : c ∈ hexDigits bytes) :
    ∃ d < 16, c = Nat.digitChar d := by
  unfold hexDigits at h
  obtain ⟨b, _, hc⟩ := List.mem_flatMap.mp h
  have hlt := b.toNat_lt
  simp only [List.mem_cons, List.not_mem_nil, or_false] at hc
  rcases hc with rfl | rfl
  · exact ⟨b.toNat / 16, by omega, rfl⟩
  · exact ⟨b.toNat % 16, by omega, rfl⟩

theorem length_hexDigits (bytes : List UInt8) : (hexDigits bytes).length = 2 * bytes.length := by
  unfold hexDigits
  induction bytes with
  | nil => rfl
  | cons b bytes ih =>
      rw [List.flatMap_cons, List.length_append, ih]
      simp
      omega

theorem bar_not_mem_sigOf (payload : Text) : '|' ∉ sigOf env secret payload := by
  intro h
  rcases hexDigits_chars h with ⟨d, hd, heq⟩
  have hall : ∀ d < 16, '|' ≠ Nat.digitChar d := by decide
  exact hall d hd heq

theorem isWhitespace_sigOf {c : Char} {payload : Text} (h : c ∈ sigOf env secret payload) :
    isWhitespace c = false := by
  rcases hexDigits_chars h with ⟨d, hd, rfl⟩
  have hall : ∀ d < 16, isWhitespace (Nat.digitChar d) = false := by decide
  exact hall d hd

theorem Bind.text_ne_empty (b : Bind) : b.text env secret ≠ "" := by
  intro hempty
  have hlist := congrArg String.toList hempty
  simp [Bind.text, bindPrefix] at hlist

theorem Bind.issued (b : Bind) :
    ((issueStorageBind env secret b).get? "bind").bind asStr = some (b.text env secret) := by
  simp [issueStorageBind, Assoc.find?, asStr]

theorem storageBindOk_iff {body : OpenBody} {bind : String} (hbody : body.storageBind = some bind)
    (hne : bind ≠ "") (nowMs : Int64) (forceIdentity : Bool) (info : Fields) :
    (openStorageBind env secret body nowMs forceIdentity info).1.get? "storage_bind_ok" =
        some (.bool true) ↔
      ∃ v, validateStorageBind env secret bind nowMs forceIdentity = .ok v := by
  have hfilter : body.storageBind.filter (· ≠ "") = some bind := by
    simp [hbody, hne]
  unfold openStorageBind
  simp only [hfilter]
  cases validateStorageBind env secret bind nowMs forceIdentity with
  | ok v =>
      simp only [Except.ok.injEq, exists_eq', iff_true]
      split
      · split_ifs
        · simp [SortedMap.get?_insert]
        · simp
      · simp
  | error reason =>
      simp only [reduceCtorEq, exists_false, iff_false]
      split_ifs
      · simp [SortedMap.get?_insert]
      · simp [SortedMap.get?_insert]

theorem validated_of_payload {b b' : Bind} (h : b.Barless) (hsame : b'.payload = b.payload) :
    b' = b := by
  have hread : readPayload b'.payload = .ok b := by
    rw [hsame]
    exact readPayload_of_barless h
  by_cases hbar : b'.Barless
  · rw [readPayload_of_barless hbar] at hread
    exact Except.ok.inj hread
  · rw [readPayload_of_bar hbar] at hread
    cases hread

/-- What a bind is for: it reads back as it was issued, no other bind is signed
in its place, and only its own visitor opens a session with it. -/
structure Binds (env : BindEnv) (secret : String) (b : Bind) (body : OpenBody) (nowMs : Int64)
    (forceIdentity : Bool) (info : Fields) : Prop where
  roundTrip :
    (((issueStorageBind env secret b).get? "bind").bind asStr).map
        (validateStorageBind env secret · nowMs false) = some (.ok b.validated)
  macUnique : ∀ b' : Bind, b'.payload = b.payload → b' = b
  ownVisitor :
    (openStorageBind env secret body nowMs forceIdentity info).1.get? "storage_bind_ok" =
      some (.bool true) → body.visitorTerminalId = some b.vtId

variable (hsha : ∀ m, (env.sha256 m).length = 32)
include hsha

theorem length_sigOf (payload : Text) : (sigOf env secret payload).length = 64 := by
  unfold sigOf hmacSha256Hex
  rw [length_hexDigits, hsha]

theorem length_asBytes_sigOf (payload : Text) :
    32 ≤ (asBytes (String.ofList (sigOf env secret payload))).length := by
  have hchars := length_le_asBytes (String.ofList (sigOf env secret payload))
  rw [String.toList_ofList, length_sigOf hsha] at hchars
  omega

theorem Bind.trimmed_text (b : Bind) : trimmed (b.text env secret) = b.text env secret := by
  have hsig : sigOf env secret b.payload ≠ [] := by
    apply List.ne_nil_of_length_pos
    rw [length_sigOf hsha]
    omega
  have htext : (b.text env secret).toList =
      bindPrefix.toList ++ (b.payload ++ '|' :: sigOf env secret b.payload) := by
    unfold Bind.text
    simp
  have hlast : ∀ hne, isWhitespace ((b.text env secret).toList.getLast hne) = false := by
    rw [htext]
    intro hne
    rw [List.getLast_append_of_ne_nil _ (by simp), List.getLast_append_of_ne_nil _ (by simp),
      List.getLast_cons hsig]
    exact isWhitespace_sigOf (List.getLast_mem hsig)
  have hne : (b.text env secret).toList ≠ [] := by
    rw [htext]
    exact List.append_ne_nil_of_left_ne_nil (by decide) _
  have hhead : trimStart (b.text env secret).toList = (b.text env secret).toList := by
    rw [htext]
    exact trimStart_append (by decide) (by decide) _
  have hend : trimEnd (b.text env secret).toList = (b.text env secret).toList := by
    have happend := trimEnd_append hne (hlast hne) []
    simpa [trimEnd] using happend
  unfold trimmed trim
  rw [hhead, hend, String.ofList_toList]

theorem validateStorageBind_text (b : Bind) (nowMs : Int64) :
    validateStorageBind env secret (b.text env secret) nowMs false =
      match readPayload b.payload with
      | .error reason => .error reason
      | .ok b =>
          if 0 < b.expMs ∧ b.expMs < nowMs then .error "expired"
          else .ok b.validated := by
  have hbody : stripPrefix? (b.text env secret) bindPrefix =
      some (String.ofList (b.payload ++ '|' :: sigOf env secret b.payload)) :=
    stripPrefix?_eq_some.mpr rfl
  have hshort : 32 ≤ (asBytes (String.ofList (sigOf env secret b.payload))).length :=
    length_asBytes_sigOf hsha b.payload
  unfold validateStorageBind
  rw [if_neg Bool.false_ne_true, Bind.trimmed_text hsha, hbody]
  simp only [String.toList_ofList, rsplitOnce_of_not_mem (bar_not_mem_sigOf b.payload)]
  rw [if_neg (by omega), ClusterHub.ctEq_self, Bool.not_true, if_neg Bool.false_ne_true]

/-- A bind serves its purpose exactly when the client put no bar into it and the
session it opens is its own visitor's, or is forced to prove its identity. -/
theorem binds_iff {b : Bind} {body : OpenBody} {nowMs : Int64}
    (hbody : body.storageBind = some (b.text env secret)) (hnow : nowMs ≤ b.expMs)
    (forceIdentity : Bool) (info : Fields) :
    Binds env secret b body nowMs forceIdentity info ↔
      b.Barless ∧ (forceIdentity = true ∨ body.visitorTerminalId = some b.vtId) := by
  have hfresh : ¬ (0 < b.expMs ∧ b.expMs < nowMs) := by
    intro hexpired
    exact absurd (Int64.lt_of_lt_of_le hexpired.2 hnow) Int64.lt_irrefl
  have hok : (openStorageBind env secret body nowMs forceIdentity info).1.get?
      "storage_bind_ok" = some (.bool true) ↔
        ∃ v, validateStorageBind env secret (b.text env secret) nowMs forceIdentity = .ok v :=
    storageBindOk_iff hbody b.text_ne_empty nowMs forceIdentity info
  have hvalid : validateStorageBind env secret (b.text env secret) nowMs false =
      match readPayload b.payload with
      | .error reason => .error reason
      | .ok b => if 0 < b.expMs ∧ b.expMs < nowMs then .error "expired" else .ok b.validated :=
    validateStorageBind_text hsha b nowMs
  constructor
  · intro hbinds
    have hbarless : b.Barless := by
      by_contra hbar
      have hround := hbinds.roundTrip
      rw [b.issued, Option.map_some, hvalid, readPayload_of_bar hbar] at hround
      cases hround
    refine ⟨hbarless, ?_⟩
    cases forceIdentity with
    | true => exact Or.inl rfl
    | false =>
        right
        apply hbinds.ownVisitor
        rw [hok, hvalid, readPayload_of_barless hbarless]
        exact ⟨b.validated, if_neg hfresh⟩
  · rintro ⟨hbarless, hvisitor⟩
    constructor
    · rw [b.issued, Option.map_some, hvalid, readPayload_of_barless hbarless]
      exact congrArg some (if_neg hfresh)
    · intro b' hsame
      exact validated_of_payload hbarless hsame
    · intro hopened
      rcases hvisitor with hforce | hown
      · obtain ⟨v, hv⟩ := hok.mp hopened
        rw [hforce] at hv
        unfold validateStorageBind at hv
        rw [if_pos rfl] at hv
        cases hv
      · exact hown

end Signed

def flatEnv : BindEnv := ⟨fun _ => List.replicate 32 0⟩

def cleanBind : Bind := ⟨"vt_abc", 2000000, "1.0.14", 1000000, 3000000⟩

def cleanBody : OpenBody := ⟨none, some "vt_abc", some (cleanBind.text flatEnv "lab-secret")⟩

theorem clean_bind_serves :
    Binds flatEnv "lab-secret" cleanBind cleanBody 1500000 false SortedMap.empty :=
  (binds_iff (fun _ => List.length_replicate) rfl (by decide) false SortedMap.empty).mpr
    ⟨⟨by decide, by decide⟩, Or.inr rfl⟩

/-- A visitor terminal with a bar spoils the round trip, and a clean bind lets in
a visitor it was not issued to. -/
theorem bar_and_other_visitor :
    ¬ Binds flatEnv "lab-secret" { cleanBind with vtId := "vt_a|bc" }
        ⟨none, some "vt_a|bc",
          some ({ cleanBind with vtId := "vt_a|bc" }.text flatEnv "lab-secret")⟩
        1500000 false SortedMap.empty ∧
      ¬ Binds flatEnv "lab-secret" cleanBind { cleanBody with visitorTerminalId := some "vt_xyz" }
        1500000 false SortedMap.empty := by
  have hsha : ∀ m, (flatEnv.sha256 m).length = 32 := fun _ => List.length_replicate
  constructor
  · intro hbinds
    have hround := hbinds.roundTrip
    rw [Bind.issued, Option.map_some, validateStorageBind_text hsha,
      readPayload_of_bar (by unfold Bind.Barless; decide)] at hround
    cases hround
  · intro hbinds
    have hvisitor := hbinds.ownVisitor
    have hbody : ({ cleanBody with visitorTerminalId := some "vt_xyz" } : OpenBody).storageBind =
        some (cleanBind.text flatEnv "lab-secret") := rfl
    have hbarless : cleanBind.Barless := ⟨by decide, by decide⟩
    rw [storageBindOk_iff hbody cleanBind.text_ne_empty, validateStorageBind_text hsha,
      readPayload_of_barless hbarless] at hvisitor
    exact absurd (hvisitor ⟨cleanBind.validated, if_neg (by decide)⟩) (by decide)

end StorageBind

end GrServer
