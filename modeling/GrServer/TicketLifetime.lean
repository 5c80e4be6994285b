import GrServer.SessionTicket

/-!
# What a ticket holder can change

The MAC covers the session id, the material fingerprint, the product version
and the issue time of a ticket, joined by `|`.  It does not cover `exp_ms`, and
a joined string does not say where it was joined.  Against a holder who only
has MACs of the raw strings the server issued, the lifetime of a ticket object
is therefore bounded by the issue time exactly for the objects whose `exp_ms`
member still says so and whose members are cut where the server joined them.
-/

namespace GrServer

open Json Text

namespace SessionTicket

theorem foldl_or_xor_eq_zero (pairs : List (UInt8 × UInt8)) (diff : UInt8) :
    pairs.foldl (fun diff p => diff ||| (p.1 ^^^ p.2)) diff = 0 ↔
      diff = 0 ∧ ∀ p ∈ pairs, p.1 = p.2 := by
  induction pairs generalizing diff with
  | nil => simp
  | cons p rest ih =>
      rw [List.foldl_cons, ih]
      simp [and_assoc]

theorem eq_of_zip_eq {x y : List UInt8} (hlen : x.length = y.length)
    (hzip : ∀ p ∈ x.zip y, p.1 = p.2) : x = y := by
  induction x generalizing y with
  | nil => exact (List.length_eq_zero_iff.mp hlen.symm).symm
  | cons a as ih =>
      cases y with
      | nil => simp at hlen
      | cons b bs =>
          have hab : a = b := hzip (a, b) (by simp)
          have htail : as = bs := by
            apply ih (by simpa using hlen)
            intro p hp
            exact hzip p (by simp [hp])
          rw [hab, htail]

theorem tokenEq_iff {a b : String} : tokenEq a b = true ↔ a = b := by
  unfold tokenEq
  by_cases hlen : (asBytes a).length = (asBytes b).length
  · simp only [ne_eq, hlen, not_true_eq_false, if_false, beq_iff_eq,
      foldl_or_xor_eq_zero]
    constructor
    · rintro ⟨-, hzip⟩
      exact asBytes_inj.mp (eq_of_zip_eq hlen hzip)
    · rintro rfl
      refine ⟨trivial, ?_⟩
      intro p hp
      obtain ⟨i, hi, rfl⟩ := List.mem_iff_getElem.mp hp
      simp
  · have hne : a ≠ b := fun hab => hlen (by rw [hab])
    simp [hlen, hne]

theorem ticketRaw_split {s f v s' f' v' : String} {ts ts' : ℤ}
    (h : ticketRaw s f v ts = ticketRaw s' f' v' ts') :
    (s ++ "|" ++ f ++ "|" ++ v).toList = (s' ++ "|" ++ f' ++ "|" ++ v').toList ∧
      ts = ts' := by
  have htail : "|primary_b10|".toList = "|primary_b10".toList ++ ['|'] := by
    decide
  have hlists := congrArg String.toList h
  unfold ticketRaw at hlists
  rw [String.toList_append, String.toList_append (s := s ++ "|" ++ f ++ "|" ++ v),
    String.toList_append (s := s' ++ "|" ++ f' ++ "|" ++ v' ++ "|primary_b10|"),
    String.toList_append (s := s' ++ "|" ++ f' ++ "|" ++ v'), htail] at hlists
  simp only [← List.append_assoc, List.append_assoc _ ['|'],
    List.singleton_append] at hlists
  obtain ⟨hhead, hdigits⟩ := append_cons_last_inj hlists
    (bar_not_mem_repr ts) (bar_not_mem_repr ts')
  refine ⟨List.append_cancel_right hhead, ?_⟩
  exact Int.repr_inj.mp (String.toList_injective hdigits)

theorem ticketRaw_inj_of_length {s f v s' f' v' : String} {ts ts' : ℤ}
    (h : ticketRaw s f v ts = ticketRaw s' f' v' ts')
    (hs : s.toList.length = s'.toList.length)
    (hf : f.toList.length = f'.toList.length) :
    s = s' ∧ f = f' ∧ v = v' ∧ ts = ts' := by
  obtain ⟨hlists, hts⟩ := ticketRaw_split h
  simp only [String.toList_append, List.append_assoc] at hlists
  obtain ⟨hss, hrest⟩ := List.append_inj hlists hs
  obtain ⟨-, hrest⟩ := List.append_inj hrest rfl
  obtain ⟨hff, hrest⟩ := List.append_inj hrest hf
  obtain ⟨-, hvv⟩ := List.append_inj hrest rfl
  exact ⟨String.toList_injective hss, String.toList_injective hff,
    String.toList_injective hvv, hts⟩

theorem ticketRaw_inj_of_no_bar {s f v s' f' v' : String} {ts ts' : ℤ}
    (h : ticketRaw s f v ts = ticketRaw s' f' v' ts')
    (hs' : '|' ∉ s'.toList) (hf' : '|' ∉ f'.toList) (hv' : '|' ∉ v'.toList) :
    s = s' ∧ f = f' ∧ v = v' ∧ ts = ts' := by
  obtain ⟨hlists, hts⟩ := ticketRaw_split h
  have hbar : "|".toList = ['|'] := by decide
  simp only [String.toList_append, hbar, List.append_assoc,
    List.singleton_append] at hlists
  have hcount := congrArg (List.count '|') hlists
  simp only [List.count_append, List.count_cons_self,
    List.count_eq_zero_of_not_mem hs', List.count_eq_zero_of_not_mem hf',
    List.count_eq_zero_of_not_mem hv'] at hcount
  have hs : '|' ∉ s.toList := List.count_eq_zero.mp (by omega)
  have hf : '|' ∉ f.toList := List.count_eq_zero.mp (by omega)
  obtain ⟨hss, hrest⟩ := append_cons_first_inj hlists hs hs'
  obtain ⟨hff, hvv⟩ := append_cons_first_inj hrest hf hf'
  exact ⟨String.toList_injective hss, String.toList_injective hff,
    String.toList_injective hvv, hts⟩

/-! ## Issued tickets and the holder's object -/

structure IssueCall where
  sessionId : String
  fields : Json
  product : Json
  ts : ℤ
  productVersion : Option String
  inRange : -2 ^ 63 ≤ ts ∧ ts < 2 ^ 63

def IssueCall.ticket (C : TicketCrypto) (env : String → Option String)
    (call : IssueCall) : Option Json :=
  issueSessionTicketVersionedEx C env call.sessionId call.fields call.product
    call.ts call.productVersion

def IssueCall.fp (C : TicketCrypto) (call : IssueCall) : String :=
  materialFingerprint C call.fields none

def IssueCall.ver (call : IssueCall) : String :=
  ticketVersion call.product call.productVersion

def IssueCall.raw (C : TicketCrypto) (call : IssueCall) : String :=
  ticketRaw call.sessionId (call.fp C) call.ver call.ts

def claimedRaw (ticket : Json) : String :=
  ticketRaw (ticket.strOr "session_id") (ticket.strOr "material_fingerprint")
    (ticket.strOr "product_version") (ticket.i64Or "issued_ms" 0)

/-- A token is the MAC of strings the server MACed for tickets it issued, and
of no others. -/
def Unforgeable (C : TicketCrypto) (env : String → Option String)
    (calls : List IssueCall) (tok : String) : Prop :=
  ∀ key raw, ticketKey env = some key → ticketToken C key raw = tok →
    ∃ call ∈ calls, (call.ticket C env).isSome ∧ call.raw C = raw

/-- Some issued ticket carries the four claims of this one, and its lifetime
has not passed. -/
def WithinIssuedLifetime (C : TicketCrypto) (env : String → Option String)
    (calls : List IssueCall) (ticket : Json) (now : ℤ) : Prop :=
  ∃ call ∈ calls, ∃ t, call.ticket C env = some t ∧
    t.strOr "session_id" = ticket.strOr "session_id" ∧
    t.strOr "material_fingerprint" = ticket.strOr "material_fingerprint" ∧
    t.strOr "product_version" = ticket.strOr "product_version" ∧
    t.i64Or "issued_ms" 0 = ticket.i64Or "issued_ms" 0 ∧
    now ≤ t.i64Or "issued_ms" 0 + ticketTtlMs

/-- Every check of the validator except the expiry check. -/
structure HonouredApartFromExpiry (C : TicketCrypto)
    (env : String → Option String) (ticket : Json) (sessionId : String)
    (fields : Option Json) (current : Option String) (force : Bool) :
    Prop where
  unforced : force = false
  segAlgo : ticket.strOr "commercial_seg_algo" = commercialSegAlgo
  primaryB10 : ticket.boolOr "primary_b10" = true
  algo : ticket.strOr "algo" = sessionTicketAlgo
  shape : startsWith (ticket.strOr "ticket") "st_" = true ∧
    10 ≤ (ticket.strOr "ticket").utf8ByteSize
  mac : ∃ key, ticketKey env = some key ∧
    ticketToken C key (claimedRaw ticket) = ticket.strOr "ticket"
  session : ticket.strOr "session_id" ≠ ""
  issued : 0 < ticket.i64Or "issued_ms" 0
  bound : sessionId = "" ∨ ticket.strOr "session_id" = sessionId
  skip : ticket.boolOr "skip_session_probe" = true
  silicon : siliconDeclared ticket fields = true
  version : versionMismatch ticket current = false
  fieldsAgree : validateFields C ticket fields = some true

/-- The members name no split of the MACed string other than one the server
made. -/
def CutAsIssued (C : TicketCrypto) (env : String → Option String)
    (calls : List IssueCall) (ticket : Json) : Prop :=
  ∃ call ∈ calls, (call.ticket C env).isSome ∧
    call.raw C = claimedRaw ticket ∧
    call.sessionId.toList.length = (ticket.strOr "session_id").toList.length ∧
    (call.fp C).toList.length =
      (ticket.strOr "material_fingerprint").toList.length

def BarFree (ticket : Json) : Prop :=
  '|' ∉ (ticket.strOr "session_id").toList ∧
    '|' ∉ (ticket.strOr "material_fingerprint").toList ∧
    '|' ∉ (ticket.strOr "product_version").toList

/-- `exp_ms` is present and no later than the issued lifetime, or that
lifetime reaches past every `i64` time. -/
def ExpiryWithinTtl (ticket : Json) : Prop :=
  (0 < ticket.i64Or "exp_ms" 0 ∧
      ticket.i64Or "exp_ms" 0 ≤ ticket.i64Or "issued_ms" 0 + ticketTtlMs) ∨
    2 ^ 63 ≤ ticket.i64Or "issued_ms" 0 + ticketTtlMs + 1

section Lifetime

variable {C : TicketCrypto} {env : String → Option String}
variable {calls : List IssueCall} {ticket : Json} {sessionId : String}
variable {fields : Option Json} {current : Option String} {force : Bool}

theorem passes_guard_iff {c : Prop} [Decidable c] {rest : Option Bool} :
    (if c then some false else rest) = some true ↔ ¬ c ∧ rest = some true := by
  by_cases hc : c <;> simp [hc]

theorem validate_eq_true_iff {now : ℤ} :
    validateSessionTicketEx C env ticket sessionId fields now current force =
        some true ↔
      HonouredApartFromExpiry C env ticket sessionId fields current force ∧
        ¬ (0 < ticket.i64Or "exp_ms" 0 ∧ ticket.i64Or "exp_ms" 0 < now) := by
  unfold validateSessionTicketEx
  dsimp only
  cases hkey : ticketKey env with
  | none =>
      constructor
      · intro h
        rw [passes_guard_iff, passes_guard_iff, passes_guard_iff,
          passes_guard_iff] at h
        have hnone : (some false : Option Bool) = some true := h.2.2.2.2
        cases hnone
      · rintro ⟨hh, -⟩
        obtain ⟨key, hsome, -⟩ := hh.mac
        rw [hkey] at hsome
        cases hsome
  | some key =>
      dsimp only
      simp only [passes_guard_iff]
      constructor
      · rintro ⟨h1, h2, h3, h4, h5, h6, h7, h8, h9, h10, h11, h12⟩
        rw [not_or, not_not] at h3 h4
        rw [not_or, not_le] at h5
        rw [not_not] at h2 h6 h9 h10
        have hbound : sessionId = "" ∨ ticket.strOr "session_id" = sessionId := by
          by_cases hs : sessionId = ""
          · exact Or.inl hs
          · exact Or.inr (not_not.mp fun hne => h7 ⟨hs, hne⟩)
        refine ⟨?_, h8⟩
        exact {
          unforced := Bool.eq_false_iff.mpr h1
          segAlgo := h2
          primaryB10 := h3.1
          algo := not_not.mp h3.2
          shape := ⟨h4.1, not_lt.mp h4.2⟩
          mac := ⟨key, hkey, tokenEq_iff.mp h6⟩
          session := h5.1
          issued := h5.2
          bound := hbound
          skip := h9
          silicon := h10
          version := Bool.eq_false_iff.mpr h11
          fieldsAgree := h12 }
      · rintro ⟨hh, hexp⟩
        obtain ⟨key', hkey', hmac⟩ := hh.mac
        rw [hkey] at hkey'
        cases hkey'
        have hbound : ¬ (sessionId ≠ "" ∧
            ticket.strOr "session_id" ≠ sessionId) := by
          rintro ⟨hne, hother⟩
          rcases hh.bound with hempty | hsame
          · exact hne hempty
          · exact hother hsame
        refine ⟨Bool.eq_false_iff.mp hh.unforced, not_not.mpr hh.segAlgo, ?_, ?_,
          ?_, not_not.mpr (tokenEq_iff.mpr hmac), hbound, hexp,
          not_not.mpr hh.skip, not_not.mpr hh.silicon,
          Bool.eq_false_iff.mp hh.version, hh.fieldsAgree⟩
        · rw [not_or, not_not, not_not]
          exact ⟨hh.primaryB10, hh.algo⟩
        · rw [not_or, not_not]
          exact ⟨hh.shape.1, not_lt.mpr hh.shape.2⟩
        · rw [not_or, not_le]
          exact ⟨hh.session, hh.issued⟩

theorem issue_eq_some {call : IssueCall} {t : Json}
    (h : call.ticket C env = some t) :
    t.strOr "session_id" = call.sessionId ∧
      t.strOr "material_fingerprint" = call.fp C ∧
      t.strOr "product_version" = call.ver ∧
      t.i64Or "issued_ms" 0 = call.ts := by
  unfold IssueCall.ticket issueSessionTicketVersionedEx at h
  dsimp only at h
  split_ifs at h with hprobe
  obtain ⟨key, -, rfl⟩ := Option.map_eq_some_iff.mp h
  refine ⟨rfl, rfl, rfl, ?_⟩
  have hts : asI64 (ofInt call.ts) = some call.ts := asI64_ofInt call.inRange
  unfold i64Or
  simp [Assoc.find?, hts]

theorem lifetime_of_parts {call : IssueCall} {now : ℤ}
    (hcall : call ∈ calls) (hissued : (call.ticket C env).isSome)
    (hparts : call.sessionId = ticket.strOr "session_id" ∧
      call.fp C = ticket.strOr "material_fingerprint" ∧
      call.ver = ticket.strOr "product_version" ∧
      call.ts = ticket.i64Or "issued_ms" 0)
    (hnow : now ≤ ticket.i64Or "issued_ms" 0 + ticketTtlMs) :
    WithinIssuedLifetime C env calls ticket now := by
  obtain ⟨t, ht⟩ := Option.isSome_iff_exists.mp hissued
  obtain ⟨hsid, hfp, hver, hts⟩ := issue_eq_some ht
  obtain ⟨hsid', hfp', hver', hts'⟩ := hparts
  refine ⟨call, hcall, t, ht, hsid.trans hsid', hfp.trans hfp',
    hver.trans hver', hts.trans hts', ?_⟩
  rw [hts, hts']
  exact hnow

theorem parts_issued (hmac : Unforgeable C env calls (ticket.strOr "ticket"))
    (hh : HonouredApartFromExpiry C env ticket sessionId fields current force)
    (hcut : BarFree ticket ∨ CutAsIssued C env calls ticket) :
    ∃ call ∈ calls, (call.ticket C env).isSome ∧
      call.sessionId = ticket.strOr "session_id" ∧
      call.fp C = ticket.strOr "material_fingerprint" ∧
      call.ver = ticket.strOr "product_version" ∧
      call.ts = ticket.i64Or "issued_ms" 0 := by
  rcases hcut with ⟨hs, hf, hv⟩ | ⟨call, hcall, hissued, hraw, hs, hf⟩
  · obtain ⟨key, hkey, htok⟩ := hh.mac
    obtain ⟨call, hcall, hissued, hraw⟩ := hmac key (claimedRaw ticket) hkey htok
    exact ⟨call, hcall, hissued, ticketRaw_inj_of_no_bar hraw hs hf hv⟩
  · exact ⟨call, hcall, hissued, ticketRaw_inj_of_length hraw hs hf⟩

theorem cutAsIssued_of_lifetime {now : ℤ}
    (h : WithinIssuedLifetime C env calls ticket now) :
    CutAsIssued C env calls ticket := by
  obtain ⟨call, hcall, t, ht, hsid', hfp', hver', hts', -⟩ := h
  obtain ⟨hsid, hfp, hver, hts⟩ := issue_eq_some ht
  have hs : call.sessionId = ticket.strOr "session_id" := hsid.symm.trans hsid'
  have hf : call.fp C = ticket.strOr "material_fingerprint" := hfp.symm.trans hfp'
  have hv : call.ver = ticket.strOr "product_version" := hver.symm.trans hver'
  have ht' : call.ts = ticket.i64Or "issued_ms" 0 := hts.symm.trans hts'
  refine ⟨call, hcall, Option.isSome_iff_exists.mpr ⟨t, ht⟩, ?_, ?_, ?_⟩
  · unfold IssueCall.raw claimedRaw
    rw [hs, hf, hv, ht']
  · rw [hs]
  · rw [hf]

/-- At every `i64` time an accepted object is within the lifetime of an issued
ticket with its claims, exactly when an object that passes the other checks is
cut as issued and its `exp_ms` is within that lifetime. -/
theorem validate_within_lifetime_iff
    (hmac : Unforgeable C env calls (ticket.strOr "ticket")) :
    (∀ now : ℤ, now < 2 ^ 63 →
        validateSessionTicketEx C env ticket sessionId fields now current force =
          some true →
        WithinIssuedLifetime C env calls ticket now) ↔
      (HonouredApartFromExpiry C env ticket sessionId fields current force →
        (BarFree ticket ∨ CutAsIssued C env calls ticket) ∧
          ExpiryWithinTtl ticket) := by
  constructor
  · intro hclaim hh
    have hcut : CutAsIssued C env calls ticket := by
      have hexp : ¬ (0 < ticket.i64Or "exp_ms" 0 ∧
          ticket.i64Or "exp_ms" 0 < 0) := by omega
      have hnow := hclaim 0 (by norm_num) (validate_eq_true_iff.mpr ⟨hh, hexp⟩)
      exact cutAsIssued_of_lifetime hnow
    refine ⟨Or.inr hcut, ?_⟩
    by_contra hlate
    unfold ExpiryWithinTtl at hlate
    rw [not_or, not_and_or, not_lt, not_le, not_le] at hlate
    obtain ⟨hexp, hrange⟩ := hlate
    -- one millisecond after the issued lifetime
    have haccepted : validateSessionTicketEx C env ticket sessionId fields
        (ticket.i64Or "issued_ms" 0 + ticketTtlMs + 1) current force =
          some true := by
      apply validate_eq_true_iff.mpr
      refine ⟨hh, ?_⟩
      rintro ⟨hpos, hlt⟩
      rcases hexp with hexp | hexp <;> omega
    obtain ⟨call, -, t, -, -, -, -, hts, hnow⟩ := hclaim _ hrange haccepted
    rw [hts] at hnow
    omega
  · intro hcond now hnow haccepted
    obtain ⟨hh, hexp⟩ := validate_eq_true_iff.mp haccepted
    obtain ⟨hcut, httl⟩ := hcond hh
    obtain ⟨call, hcall, hissued, hparts⟩ := parts_issued hmac hh hcut
    apply lifetime_of_parts hcall hissued hparts
    rcases httl with ⟨hpos, hle⟩ | hrange
    · have hle' : now ≤ ticket.i64Or "exp_ms" 0 :=
        not_lt.mp fun hlt => hexp ⟨hpos, hlt⟩
      omega
    · omega

end Lifetime

/-! ## A ticket whose expiry member was rewritten -/

def sampleFields : Json :=
  .obj [
    ("hw_curve_webgl", .arr ([1, 1, 2, 3, 5, 8, 13, 21].map ofInt)),
    ("residual_std", ofInt 2)]

-- the digests and JSON texts that occur in issuing one ticket
def sampleCrypto : TicketCrypto where
  hmacSha256Hex key raw :=
    if key = "ticket-secret" ∧
        raw = "s1|4fbc1d652421388fadfb254e|2.4.0|primary_b10|1700000000000" then
      "501bc86f1bc92b64925815324463df6f74f0a85197ce330aeff9eafc04c0fdd2"
    else ""
  sha256Hex _ :=
    "4fbc1d652421388fadfb254ef0e916c74a806a58f60c0cfee4c14f1dc6e0e391"
  jsonText
    | .arr _ => "[1,1,2,3,5,8,13,21]"
    | .num _ => "2"
    | _ => ""

def sampleEnv : String → Option String
  | "GR_TICKET_SECRET" => some "ticket-secret"
  | _ => none

def sampleCall : IssueCall where
  sessionId := "s1"
  fields := sampleFields
  product := .obj [("os", .obj [("field_hits", .arr [.str "a", .str "b", .str "c"])])]
  ts := 1700000000000
  productVersion := some "2.4.0"
  inRange := by decide

-- the issued object, up to its `exp_ms`
def sampleTicket (expMs : ℤ) : Json :=
  .obj [
    ("algo", .str sessionTicketAlgo),
    ("commercial_seg_algo", .str commercialSegAlgo),
    ("exp_ms", ofInt expMs),
    ("issued_ms", ofInt 1700000000000),
    ("material_fingerprint", .str "4fbc1d652421388fadfb254e"),
    ("note", .str "session silicon cooled after B10_hw_curves; page rpa must still run"),
    ("page_probe_required", .bool true),
    ("primary_b10", .bool true),
    ("product_version", .str "2.4.0"),
    ("session_id", .str "s1"),
    ("silicon_ok", .bool true),
    ("skip_session_probe", .bool true),
    ("ticket", .str "st_501bc86f1bc92b64925815324")]

theorem sampleCall_ticket :
    sampleCall.ticket sampleCrypto sampleEnv = some (sampleTicket 1700086400000) := by
  decide

theorem sampleTicket_unforgeable (expMs : ℤ) :
    Unforgeable sampleCrypto sampleEnv [sampleCall]
      ((sampleTicket expMs).strOr "ticket") := by
  intro key raw hkey htok
  have hsecret : ticketKey sampleEnv = some "ticket-secret" := by decide
  rw [hsecret, Option.some.injEq] at hkey
  subst hkey
  refine ⟨sampleCall, by simp, ?_, ?_⟩
  · rw [sampleCall_ticket]
    rfl
  · by_cases hraw :
        raw = "s1|4fbc1d652421388fadfb254e|2.4.0|primary_b10|1700000000000"
    · rw [hraw]
      decide
    · have hshort : ticketToken sampleCrypto "ticket-secret" raw = "st_" := by
        simp [ticketToken, sampleCrypto, hraw]
      rw [hshort] at htok
      have hne : "st_" ≠ (sampleTicket expMs).strOr "ticket" := by
        have htoken : (sampleTicket expMs).strOr "ticket" =
            "st_501bc86f1bc92b64925815324" := rfl
        rw [htoken]
        decide
      exact absurd htok hne

theorem sampleTicket_barFree (expMs : ℤ) : BarFree (sampleTicket expMs) := by
  have hsid : (sampleTicket expMs).strOr "session_id" = "s1" := rfl
  have hfp : (sampleTicket expMs).strOr "material_fingerprint" =
      "4fbc1d652421388fadfb254e" := rfl
  have hver : (sampleTicket expMs).strOr "product_version" = "2.4.0" := rfl
  unfold BarFree
  rw [hsid, hfp, hver]
  decide

/-- The issued object, accepted in the last millisecond of its lifetime. -/
theorem issued_ticket_within_lifetime :
    WithinIssuedLifetime sampleCrypto sampleEnv [sampleCall]
      (sampleTicket 1700086400000) 1700086400000 := by
  have haccepted : validateSessionTicketEx sampleCrypto sampleEnv
      (sampleTicket 1700086400000) "s1" none 1700086400000 (some "2.4.0") false =
        some true := by
    decide
  have hlifetime : ∀ now : ℤ, now < 2 ^ 63 →
      validateSessionTicketEx sampleCrypto sampleEnv
        (sampleTicket 1700086400000) "s1" none now (some "2.4.0") false = some true →
      WithinIssuedLifetime sampleCrypto sampleEnv [sampleCall]
        (sampleTicket 1700086400000) now := by
    apply (validate_within_lifetime_iff
      (sampleTicket_unforgeable 1700086400000)).mpr
    intro _
    exact ⟨Or.inl (sampleTicket_barFree 1700086400000), Or.inl (by decide)⟩
  exact hlifetime 1700086400000 (by norm_num) haccepted

/-- With `exp_ms` set to 0 the object is accepted after that lifetime. -/
theorem rewritten_expiry_outlives_ticket :
    Unforgeable sampleCrypto sampleEnv [sampleCall]
        ((sampleTicket 0).strOr "ticket") ∧
      validateSessionTicketEx sampleCrypto sampleEnv (sampleTicket 0) "s1" none
        1700086400001 (some "2.4.0") false = some true ∧
      ¬ WithinIssuedLifetime sampleCrypto sampleEnv [sampleCall]
        (sampleTicket 0) 1700086400001 := by
  refine ⟨sampleTicket_unforgeable 0, by decide, ?_⟩
  rintro ⟨call, hcall, t, ht, -, -, -, -, hnow⟩
  have hone : call = sampleCall := List.mem_singleton.mp hcall
  rw [hone, sampleCall_ticket, Option.some.injEq] at ht
  subst ht
  exact absurd hnow (by decide)

end SessionTicket

end GrServer
