import GrServer.SideStore

/-!
# Joins across NAT neighbours

What a side-channel join may not do: take a sample of another port, allow a
hard link on a channel that was only matched by address, or miss the sample of
the request's own connection.
-/

namespace GrServer

open Json Text RankedChoice

namespace SideStore

/-! ## Matches -/

section Matches

variable {scope : JoinScope} {k : JoinKeys}

def Matches (scope : JoinScope) (k : JoinKeys) : Prop :=
  (∃ ip, ip ≠ "" ∧ scope.clientIp = some ip ∧ k.ip = some ip) ∧
    (samePort scope.srcPort k.sport = true ∨ scope.srcPort = none ∨ k.sport = none)

def StrongMatch (scope : JoinScope) (k : JoinKeys) : Prop :=
  Matches scope k ∧
    (samePort scope.srcPort k.sport = true ∨ sameToken scope.connToken k.conn = true)

theorem samePort_eq_true {a b : Option ℕ} :
    samePort a b = true ↔ ∃ port, 0 < port ∧ a = some port ∧ b = some port := by
  cases a with
  | none => simp [samePort]
  | some a =>
      cases b with
      | none => simp [samePort]
      | some b =>
          simp only [samePort, Bool.and_eq_true, decide_eq_true_eq, Option.some.injEq]
          constructor
          · intro h
            exact ⟨a, h.1.1, rfl, h.2.symm⟩
          · intro h
            obtain ⟨port, hport, rfl, rfl⟩ := h
            exact ⟨⟨hport, hport⟩, rfl⟩

theorem Matches.ports (h : Matches scope k) {want got : ℕ} (hwant : scope.srcPort = some want)
    (hgot : k.sport = some got) : want = got := by
  rcases h.2 with hsame | hnone | hnone
  · obtain ⟨port, -, ha, hb⟩ := samePort_eq_true.mp hsame
    rw [hwant] at ha
    rw [hgot] at hb
    rw [Option.some.inj ha, Option.some.inj hb]
  · rw [hwant] at hnone
    cases hnone
  · rw [hgot] at hnone
    cases hnone

theorem addDstPort_strong (hit : Bool) (n : ℕ) :
    60 ≤ (addDstPort hit (60 + n, .strongIpPort)).1 ∧
      (addDstPort hit (60 + n, .strongIpPort)).2.isStrong = true := by
  cases hit <;> simp [addDstPort, JoinStrength.isStrong]
  omega

theorem addDstPort_weak (hit : Bool) : addDstPort hit (10, .weakIpTtl) = (10, .weakIpTtl) := by
  cases hit <;> rfl

theorem addToken_strong (hit : Bool) {s : ℕ × JoinStrength} (h : s.2.isStrong = true)
    (hs : 60 ≤ s.1) : 60 ≤ (addToken hit s).1 ∧ (addToken hit s).2.isStrong = true := by
  cases hit with
  | false => exact ⟨hs, h⟩
  | true =>
      simp only [addToken, if_true, h]
      exact ⟨by omega, rfl⟩

structure ScoreSpec (scope : JoinScope) (k : JoinKeys) : Prop where
  positive : (scoreIpPort k scope).1 ≠ 0 ↔ Matches scope k
  strong : (scoreIpPort k scope).2.isStrong = true ↔ StrongMatch scope k
  high : StrongMatch scope k → 60 ≤ (scoreIpPort k scope).1
  low : ¬ StrongMatch scope k → (scoreIpPort k scope).1 ≤ 10

theorem ScoreSpec.of_no_match (h : ¬ Matches scope k) (hscore : scoreIpPort k scope = (0, .none)) :
    ScoreSpec scope k := by
  have hstrong : ¬ StrongMatch scope k := fun hmatch => h hmatch.1
  constructor
  · simp [hscore, h]
  · simp [hscore, hstrong, JoinStrength.isStrong]
  · intro hmatch
    exact absurd hmatch hstrong
  · simp [hscore]

theorem ScoreSpec.of_strong (h : StrongMatch scope k)
    (hscore : 60 ≤ (scoreIpPort k scope).1)
    (hstrong : (scoreIpPort k scope).2.isStrong = true) : ScoreSpec scope k := by
  constructor
  · exact iff_of_true (by omega) h.1
  · exact iff_of_true hstrong h
  · intro _
    exact hscore
  · intro hweak
    exact absurd h hweak

theorem scoreSpec (hip : ∀ ip, scope.clientIp = some ip → ip ≠ "") : ScoreSpec scope k := by
  cases hclient : scope.clientIp with
  | none =>
      apply ScoreSpec.of_no_match
      · intro h
        obtain ⟨⟨ip, -, hscope, -⟩, -⟩ := h
        rw [hclient] at hscope
        cases hscope
      · simp [scoreIpPort, hclient]
  | some wantIp =>
      by_cases hsame : k.ip = some wantIp
      · have haddress : ∃ ip, ip ≠ "" ∧ scope.clientIp = some ip ∧ k.ip = some ip :=
          ⟨wantIp, hip wantIp hclient, hclient, hsame⟩
        by_cases hport : samePort scope.srcPort k.sport = true
        · have hscore : scoreIpPort k scope =
              addToken (sameToken scope.connToken k.conn)
                (addDstPort (samePort scope.dstPort k.dport) (60, .strongIpPort)) := by
            simp [scoreIpPort, hclient, hsame, hport]
          obtain ⟨hhigh, hclass⟩ := addDstPort_strong (samePort scope.dstPort k.dport) 0
          obtain ⟨hhigh', hclass'⟩ :=
            addToken_strong (sameToken scope.connToken k.conn) hclass hhigh
          apply ScoreSpec.of_strong ⟨⟨haddress, Or.inl hport⟩, Or.inl hport⟩
          · rw [hscore]
            exact hhigh'
          · rw [hscore]
            exact hclass'
        · by_cases hknown : (scope.srcPort.isSome && k.sport.isSome) = true
          · apply ScoreSpec.of_no_match
            · intro h
              rcases h.2 with hmatch | hnone | hnone
              · exact hport hmatch
              · simp [hnone] at hknown
              · simp [hnone] at hknown
            · simp only [scoreIpPort, hclient, hsame, hport, hknown]
              simp
          · have hscore : scoreIpPort k scope =
                addToken (sameToken scope.connToken k.conn) (10, .weakIpTtl) := by
              simp only [scoreIpPort, hclient, hsame, hport, hknown, addDstPort_weak]
              simp
            have hmatches : Matches scope k := by
              refine ⟨haddress, Or.inr ?_⟩
              cases hwant : scope.srcPort with
              | none => exact Or.inl rfl
              | some want =>
                  cases hgot : k.sport with
                  | none => exact Or.inr rfl
                  | some got => simp [hwant, hgot] at hknown
            cases htoken : sameToken scope.connToken k.conn with
            | true =>
                apply ScoreSpec.of_strong ⟨hmatches, Or.inr htoken⟩ <;>
                  simp [hscore, htoken, addToken, JoinStrength.isStrong]
            | false =>
                have hweak : ¬ StrongMatch scope k := by
                  intro h
                  rcases h.2 with hstrong | hstrong
                  · exact hport hstrong
                  · rw [htoken] at hstrong
                    cases hstrong
                constructor
                · exact iff_of_true (by simp [hscore, htoken, addToken]) hmatches
                · exact iff_of_false
                    (by simp [hscore, htoken, addToken, JoinStrength.isStrong]) hweak
                · intro h
                  exact absurd h hweak
                · intro _
                  simp [hscore, htoken, addToken]
      · apply ScoreSpec.of_no_match
        · intro h
          obtain ⟨⟨ip, -, hscope, hk⟩, -⟩ := h
          rw [hclient] at hscope
          rw [Option.some.inj hscope] at hsame
          exact hsame hk
        · simp [scoreIpPort, hclient, hsame]

end Matches

section Picks

variable {α : Type} {keys : α → JoinKeys} {now : ℤ} {scope : JoinScope} {xs : List (Timed α)}

def Fresh (now : ℤ) (t : Timed α) : Prop := now - sideTtlMs ≤ t.seenAtMs

def HasMatch (keys : α → JoinKeys) (now : ℤ) (scope : JoinScope) (xs : List (Timed α)) : Prop :=
  ∃ t ∈ xs, Fresh now t ∧ Matches scope (keys t.info)

def HasStrong (keys : α → JoinKeys) (now : ℤ) (scope : JoinScope) (xs : List (Timed α)) : Prop :=
  ∃ t ∈ xs, Fresh now t ∧ StrongMatch scope (keys t.info)

theorem HasStrong.hasMatch (h : HasStrong keys now scope xs) : HasMatch keys now scope xs := by
  obtain ⟨t, ht, hfresh, hmatch⟩ := h
  exact ⟨t, ht, hfresh, hmatch.1⟩

theorem mem_candidates (hip : ∀ ip, scope.clientIp = some ip → ip ≠ "")
    {c : ℕ × JoinStrength × α} :
    c ∈ xs.reverse.filterMap (scored keys now scope) ↔
      ∃ t ∈ xs, Fresh now t ∧ Matches scope (keys t.info) ∧
        c = ((scoreIpPort (keys t.info) scope).1 + (keys t.info).bonus,
          (scoreIpPort (keys t.info) scope).2, t.info) := by
  simp only [List.mem_filterMap, List.mem_reverse, scored, Option.ite_none_right_eq_some,
    Option.some.injEq]
  constructor
  · intro h
    obtain ⟨t, ht, ⟨hfresh, hscore⟩, rfl⟩ := h
    exact ⟨t, ht, hfresh, (scoreSpec hip).positive.mp hscore, rfl⟩
  · intro h
    obtain ⟨t, ht, hfresh, hmatch, rfl⟩ := h
    exact ⟨t, ht, ⟨hfresh, (scoreSpec hip).positive.mpr hmatch⟩, rfl⟩

theorem pick_isSome (hip : ∀ ip, scope.clientIp = some ip → ip ≠ "")
    (h : HasMatch keys now scope xs) : (pick keys now scope xs).isSome = true := by
  obtain ⟨t, ht, hfresh, hmatch⟩ := h
  rw [pick, Option.isSome_map]
  apply foldl_keepBest_isSome
  right
  have hmem := (@mem_candidates _ keys now _ xs hip _).mpr
    ⟨t, ht, hfresh, hmatch, rfl⟩
  exact List.ne_nil_of_mem hmem

theorem pick_eq_some (hip : ∀ ip, scope.clientIp = some ip → ip ≠ "") {a : α} {st : JoinStrength}
    (h : pick keys now scope xs = some (a, st)) :
    (∃ t ∈ xs, Fresh now t ∧ Matches scope (keys t.info) ∧ t.info = a) ∧
      st = (scoreIpPort (keys a) scope).2 ∧
      ∀ t ∈ xs, Fresh now t → Matches scope (keys t.info) →
        (scoreIpPort (keys t.info) scope).1 + (keys t.info).bonus ≤
          (scoreIpPort (keys a) scope).1 + (keys a).bonus := by
  obtain ⟨c, hc, hpair⟩ := Option.map_eq_some_iff.mp h
  obtain ⟨hmem, hmax, -⟩ := foldl_keepBest_max hc
  have hcandidate := hmem.resolve_right (by simp)
  obtain ⟨t, ht, hfresh, hmatch, rfl⟩ := (mem_candidates hip).mp hcandidate
  obtain ⟨rfl, rfl⟩ := Prod.mk.inj hpair
  refine ⟨⟨t, ht, hfresh, hmatch, rfl⟩, rfl, ?_⟩
  intro u hu hufresh humatch
  have hle := hmax _ ((mem_candidates hip).mpr ⟨u, hu, hufresh, humatch, rfl⟩)
  rcases (Prod.Lex.le_iff).mp hle with hlt | heq
  · exact hlt.le
  · exact heq.1.le

theorem pick_strong (hip : ∀ ip, scope.clientIp = some ip → ip ≠ "")
    (hbonus : ∀ a, (keys a).bonus ≤ 15) {a : α} {st : JoinStrength}
    (h : pick keys now scope xs = some (a, st)) :
    st.isStrong = true ↔ HasStrong keys now scope xs := by
  obtain ⟨⟨t, ht, hfresh, hmatch, hta⟩, hst, hmax⟩ := pick_eq_some hip h
  have hspec : ScoreSpec scope (keys a) := scoreSpec hip
  rw [hst, hspec.strong]
  constructor
  · intro hstrong
    exact ⟨t, ht, hfresh, by rw [hta]; exact hstrong⟩
  · intro hstrong
    obtain ⟨u, hu, hufresh, hustrong⟩ := hstrong
    have hle := hmax u hu hufresh hustrong.1
    have hhigh := (scoreSpec hip (k := keys u.info)).high hustrong
    have hba := hbonus a
    by_contra hweak
    have hlow := hspec.low hweak
    omega

end Picks

/-! ## Channels -/

inductive Channel where
  | quic
  | syn
  | webrtc
  | h3App

def Timed.view {α : Type} (keys : α → JoinKeys) (t : Timed α) : Timed JoinKeys :=
  ⟨t.seenAtMs, keys t.info⟩

def Store.samples (s : Store) : Channel → List (Timed JoinKeys)
  | .quic => s.quic.map (Timed.view quicKeys)
  | .syn => s.syn.map (Timed.view synKeys)
  | .webrtc => s.webrtc.map (Timed.view webrtcKeys)
  | .h3App => s.h3App.map (Timed.view h3Keys)

def pickView {α : Type} (keys : α → JoinKeys) (picked : Option (α × JoinStrength)) :
    Option (JoinKeys × JoinStrength) :=
  picked.map fun p => (keys p.1, p.2)

section Channels

variable (now : ℤ) (scope : JoinScope) (s : Store)

def joinedSample (c : Channel) : Option (JoinKeys × JoinStrength) :=
  if (scope.clientIp.filter (· ≠ "")).isNone then none
  else
    match c with
    | .quic => pickView quicKeys (pickQuic now scope s)
    | .syn => pickView synKeys (pickSyn now scope s)
    | .webrtc => pickView webrtcKeys (pickWebrtc now scope s)
    | .h3App => pickView h3Keys (pickH3 now scope s)

def ChannelMatch (c : Channel) : Prop := HasMatch id now scope (s.samples c)

def ChannelStrong (c : Channel) : Prop := HasStrong id now scope (s.samples c)

end Channels

section Joined

variable {now : ℤ} {scope : JoinScope} {s : Store}

theorem bonus_quicKeys (q : QuicInfo) : (quicKeys q).bonus ≤ 15 := by
  simp only [quicKeys]
  split_ifs <;> omega

theorem exists_view {α : Type} {keys : α → JoinKeys} {xs : List (Timed α)}
    {P : ℤ → JoinKeys → Prop} :
    (∃ t ∈ xs.map (Timed.view keys), P t.seenAtMs t.info) ↔
      ∃ t ∈ xs, P t.seenAtMs (keys t.info) := by
  simp [Timed.view]

structure JoinSpec (now : ℤ) (scope : JoinScope) (samples : List (Timed JoinKeys))
    (result : Option (JoinKeys × JoinStrength)) : Prop where
  isSome : HasMatch id now scope samples → result.isSome = true
  matched : ∀ k st, result = some (k, st) →
    HasMatch id now scope samples ∧ Matches scope k ∧
      (st.isStrong = true ↔ HasStrong id now scope samples)

theorem joinSpec_pickView {α : Type} {keys : α → JoinKeys} {xs : List (Timed α)}
    (hip : ∀ ip, scope.clientIp = some ip → ip ≠ "") (hbonus : ∀ a, (keys a).bonus ≤ 15) :
    JoinSpec now scope (xs.map (Timed.view keys)) (pickView keys (pick keys now scope xs)) := by
  have hmatch : HasMatch id now scope (xs.map (Timed.view keys)) ↔ HasMatch keys now scope xs :=
    exists_view (P := fun seen k => now - sideTtlMs ≤ seen ∧ Matches scope k)
  have hstrong : HasStrong id now scope (xs.map (Timed.view keys)) ↔
      HasStrong keys now scope xs :=
    exists_view (P := fun seen k => now - sideTtlMs ≤ seen ∧ StrongMatch scope k)
  constructor
  · intro h
    rw [pickView, Option.isSome_map]
    exact pick_isSome hip (hmatch.mp h)
  · intro k st h
    obtain ⟨⟨a, st'⟩, hpick, hpair⟩ := Option.map_eq_some_iff.mp h
    obtain ⟨rfl, rfl⟩ := Prod.mk.inj hpair
    obtain ⟨⟨t, ht, hfresh, htmatch, rfl⟩, -, -⟩ := pick_eq_some hip hpick
    rw [hmatch, hstrong]
    exact ⟨⟨t, ht, hfresh, htmatch⟩, htmatch, pick_strong hip hbonus hpick⟩

theorem joinSpec (c : Channel) :
    JoinSpec now scope (s.samples c) (joinedSample now scope s c) := by
  unfold joinedSample
  split_ifs with hnone
  · constructor
    · intro h
      obtain ⟨t, -, -, ⟨ip, hne, hclient, -⟩, -⟩ := h
      rw [hclient] at hnone
      simp [hne] at hnone
    · intro k st h
      cases h
  · have hip : ∀ ip, scope.clientIp = some ip → ip ≠ "" := by
      intro ip hclient hempty
      apply hnone
      rw [hclient, hempty]
      rfl
    cases c with
    | quic => exact joinSpec_pickView hip bonus_quicKeys
    | syn => exact joinSpec_pickView hip fun _ => by simp [synKeys]
    | webrtc => exact joinSpec_pickView hip fun _ => by simp [webrtcKeys]
    | h3App => exact joinSpec_pickView hip fun _ => by simp [h3Keys]

theorem joined_strong_iff {c : Channel} :
    (∃ k st, joinedSample now scope s c = some (k, st) ∧ st.isStrong = true) ↔
      ChannelStrong now scope s c := by
  have hspec := @joinSpec now scope s c
  constructor
  · intro h
    obtain ⟨k, st, hjoin, hstrong⟩ := h
    exact (hspec.matched k st hjoin).2.2.mp hstrong
  · intro h
    obtain ⟨⟨k, st⟩, hjoin⟩ := Option.isSome_iff_exists.mp (hspec.isSome h.hasMatch)
    exact ⟨k, st, hjoin, (hspec.matched k st hjoin).2.2.mpr h⟩

theorem joined_weak_iff {c : Channel} :
    (∃ k st, joinedSample now scope s c = some (k, st) ∧ st.isStrong = false) ↔
      ChannelMatch now scope s c ∧ ¬ ChannelStrong now scope s c := by
  have hspec := @joinSpec now scope s c
  constructor
  · intro h
    obtain ⟨k, st, hjoin, hweak⟩ := h
    obtain ⟨hmatch, -, hstrong⟩ := hspec.matched k st hjoin
    exact ⟨hmatch, fun hs => Bool.false_ne_true (hweak.symm.trans (hstrong.mpr hs))⟩
  · intro h
    obtain ⟨⟨k, st⟩, hjoin⟩ := Option.isSome_iff_exists.mp (hspec.isSome h.1)
    refine ⟨k, st, hjoin, Bool.eq_false_iff.mpr ?_⟩
    intro hstrong
    exact h.2 ((hspec.matched k st hjoin).2.2.mp hstrong)

theorem foldl_level_strong (joins : List JoinStrength) (best : JoinStrength) :
    (joins.foldl (fun best st => if best.level < st.level then st else best) best).isStrong =
        true ↔
      best.isStrong = true ∨ ∃ st ∈ joins, st.isStrong = true := by
  induction joins generalizing best with
  | nil => simp
  | cons st rest ih =>
      have hstep : (if best.level < st.level then st else best).isStrong = true ↔
          best.isStrong = true ∨ st.isStrong = true := by
        rw [JoinStrength.isStrong_iff, JoinStrength.isStrong_iff, JoinStrength.isStrong_iff]
        split_ifs <;> omega
      rw [List.foldl_cons, ih, hstep]
      simp [or_assoc]

theorem bestStrength_strong (joins : List JoinStrength) :
    (bestStrength joins).isStrong = true ↔ ∃ st ∈ joins, st.isStrong = true := by
  have hfold := foldl_level_strong joins .none
  unfold bestStrength
  dsimp only
  split_ifs with hempty hnone
  · rw [List.isEmpty_iff.mp hempty]
    simp [JoinStrength.isStrong]
  · rw [hnone] at hfold
    rw [← hfold.trans (or_iff_right (by simp [JoinStrength.isStrong]))]
    simp [JoinStrength.isStrong]
  · rw [hfold]
    simp [JoinStrength.isStrong]

theorem mem_joinStrengths (hip : (scope.clientIp.filter (· ≠ "")).isNone = false)
    {st : JoinStrength} :
    st ∈ joinStrengths now scope s ↔ ∃ c k, joinedSample now scope s c = some (k, st) := by
  have hview : ∀ {α : Type} (keys : α → JoinKeys) (picked : Option (α × JoinStrength)),
      st ∈ (picked.map Prod.snd).toList ↔ ∃ k, pickView keys picked = some (k, st) := by
    intro α keys picked
    cases picked with
    | none => simp [pickView]
    | some p => simp [pickView, eq_comm]
  have hchannel : ∀ c, joinedSample now scope s c =
      match c with
      | .quic => pickView quicKeys (pickQuic now scope s)
      | .syn => pickView synKeys (pickSyn now scope s)
      | .webrtc => pickView webrtcKeys (pickWebrtc now scope s)
      | .h3App => pickView h3Keys (pickH3 now scope s) := by
    intro c
    unfold joinedSample
    rw [hip]
    rfl
  unfold joinStrengths
  rw [List.mem_append, List.mem_append, List.mem_append, hview quicKeys, hview synKeys,
    hview webrtcKeys, hview h3Keys]
  constructor
  · intro h
    rcases h with ((⟨k, hk⟩ | ⟨k, hk⟩) | ⟨k, hk⟩) | ⟨k, hk⟩
    · exact ⟨.quic, k, (hchannel .quic).trans hk⟩
    · exact ⟨.syn, k, (hchannel .syn).trans hk⟩
    · exact ⟨.webrtc, k, (hchannel .webrtc).trans hk⟩
    · exact ⟨.h3App, k, (hchannel .h3App).trans hk⟩
  · intro h
    obtain ⟨c, k, hk⟩ := h
    rw [hchannel] at hk
    cases c with
    | quic => exact Or.inl (Or.inl (Or.inl ⟨k, hk⟩))
    | syn => exact Or.inl (Or.inl (Or.inr ⟨k, hk⟩))
    | webrtc => exact Or.inl (Or.inr ⟨k, hk⟩)
    | h3App => exact Or.inr ⟨k, hk⟩

def hardLinkKey : String := "side_join_soft_hard_link_allowed"

theorem get?_annotate (fields : Fields) :
    (annotateProtocolExportHonesty fields).get? hardLinkKey = fields.get? hardLinkKey := by
  have hfixed : ∀ {b : Bool} {members : List (String × Json)} {entry : String × Json},
      entry ∈ whenTrue b members → entry ∈ members := by
    intro b members entry h
    cases b with
    | true => exact h
    | false => cases h
  apply SortedMap.AgreeOn.insertEach (P := (· = hardLinkKey)) fields ?_ hardLinkKey rfl
  intro entry hentry
  unfold honestyMembers at hentry
  simp only [List.mem_append, List.mem_flatMap, List.mem_filter] at hentry
  rcases hentry with ((((⟨k, ⟨hk, -⟩, hentry⟩ | hentry) | hentry) | hentry) | hentry) | hentry
  · have hkeys : ∀ k ∈ protocolDiagnosticOnlyKeys, ∀ name ∈ [k ++ "__diagnostic_only",
        k ++ "__commercial_mint", k ++ "__hard_browser_uniqueness"], name ≠ hardLinkKey := by
      decide
    apply hkeys k hk
    simp only [List.mem_cons, List.not_mem_nil, or_false] at hentry ⊢
    rcases hentry with rfl | rfl | rfl <;> simp
  · rw [List.mem_singleton.mp (hfixed hentry)]
    decide
  · rw [List.mem_singleton.mp (hfixed hentry)]
    exact (by decide : "h2_priority_fingerprint_role" ≠ hardLinkKey)
  · rw [List.mem_singleton.mp hentry]
    exact (by decide : "protocol_export_honesty" ≠ hardLinkKey)
  · rw [List.mem_singleton.mp (hfixed hentry)]
    decide
  · rw [List.mem_singleton.mp (hfixed hentry)]
    exact (by decide : "protocol_depth_export_n" ≠ hardLinkKey)

theorem get?_enrich (hip : (scope.clientIp.filter (· ≠ "")).isNone = false) (fields : Fields) :
    (enrichProtocolFieldsScoped now s scope fields).get? hardLinkKey =
      some (.bool (bestStrength (joinStrengths now scope s)).isStrong) := by
  unfold enrichProtocolFieldsScoped
  rw [hip]
  simp only [Bool.false_eq_true, if_false]
  rw [get?_annotate, SortedMap.get?_insertEach]
  rfl

end Joined

/-! ## NAT safety -/

section Safety

variable {env : String → Option String} {now : ℤ} {s : Store} {req : Request} {fields : Fields}

/-- A fresh sample of the request's own connection: its real address and port. -/
def OwnSample (now : ℤ) (s : Store) (req : Request) (c : Channel) : Prop :=
  ∃ ip port, ip ≠ "" ∧ 0 < port ∧ req.realIp = some ip ∧ req.peerPort = some port ∧
    ∃ t ∈ s.samples c, Fresh now t ∧ t.info.ip = some ip ∧ t.info.sport = some port

/-- What joins owe to neighbours behind one address. -/
structure JoinSafe (env : String → Option String) (now : ℤ) (s : Store) (req : Request)
    (fields : Fields) : Prop where
  noCrossPort : ∀ c k st, joinedSample now (joinScope env req) s c = some (k, st) →
    ∀ want got, req.peerPort = some want → k.sport = some got → want = got
  hardLinkStrong :
    (enrichProtocolFieldsScoped now s (joinScope env req) fields).get? hardLinkKey =
        some (.bool true) →
      ∀ c k st, joinedSample now (joinScope env req) s c = some (k, st) → st.isStrong = true
  ownStrong : ∀ c, OwnSample now s req c →
    ∃ k st, joinedSample now (joinScope env req) s c = some (k, st) ∧ st.isStrong = true

/-- One channel is matched strongly and another only by address. -/
def MixedStrength (now : ℤ) (scope : JoinScope) (s : Store) : Prop :=
  ∃ c d, ChannelStrong now scope s c ∧ ChannelMatch now scope s d ∧ ¬ ChannelStrong now scope s d

/-- The policy leaves the address as it is. -/
def AddressKept (env : String → Option String) (req : Request) : Prop :=
  ∃ ip, req.realIp = some ip ∧ applyIpPolicy env ip = ip

theorem joined_clientIp {scope : JoinScope} {c : Channel} {k : JoinKeys} {st : JoinStrength}
    (h : joinedSample now scope s c = some (k, st)) :
    (scope.clientIp.filter (· ≠ "")).isNone = false := by
  by_contra hnone
  unfold joinedSample at h
  rw [if_pos (Bool.eq_true_of_not_eq_false hnone)] at h
  cases h

theorem own_strong_of_kept (hkept : AddressKept env req) {c : Channel}
    (hown : OwnSample now s req c) : ChannelStrong now (joinScope env req) s c := by
  obtain ⟨ip, port, hne, hpos, hip, hport, t, ht, hfresh, htip, htport⟩ := hown
  obtain ⟨ip', hip', hpolicy⟩ := hkept
  rw [hip] at hip'
  obtain rfl := Option.some.inj hip'
  have hclient : (joinScope env req).clientIp = some ip := by
    simp [joinScope, hip, hpolicy]
  have hsame : samePort (joinScope env req).srcPort t.info.sport = true :=
    samePort_eq_true.mpr ⟨port, hpos, hport, htport⟩
  exact ⟨t, ht, hfresh, ⟨⟨ip, hne, hclient, htip⟩, Or.inl hsame⟩, Or.inl hsame⟩

theorem hardLinkStrong_iff {scope : JoinScope} :
    ((enrichProtocolFieldsScoped now s scope fields).get? hardLinkKey = some (.bool true) →
      ∀ c k st, joinedSample now scope s c = some (k, st) → st.isStrong = true) ↔
      ¬ MixedStrength now scope s := by
  constructor
  · intro h hmixed
    obtain ⟨c, d, hc, hd⟩ := hmixed
    obtain ⟨k, st, hjoin, hstrong⟩ := joined_strong_iff.mpr hc
    obtain ⟨k', st', hjoin', hweak⟩ := joined_weak_iff.mpr hd
    have hip := joined_clientIp hjoin
    have hallowed : (enrichProtocolFieldsScoped now s scope fields).get? hardLinkKey =
        some (.bool true) := by
      rw [get?_enrich hip, (bestStrength_strong _).mpr
        ⟨st, (mem_joinStrengths hip).mpr ⟨c, k, hjoin⟩, hstrong⟩]
    have hstrong' := h hallowed d k' st' hjoin'
    exact Bool.false_ne_true (hweak.symm.trans hstrong')
  · intro hmixed hallowed d k' st' hjoin'
    by_contra hweak
    have hip := joined_clientIp hjoin'
    rw [get?_enrich hip, Option.some.injEq, Json.bool.injEq, bestStrength_strong] at hallowed
    obtain ⟨st, hst, hstrong⟩ := hallowed
    obtain ⟨c, k, hjoin⟩ := (mem_joinStrengths hip).mp hst
    exact hmixed ⟨c, d, joined_strong_iff.mp ⟨k, st, hjoin, hstrong⟩,
      joined_weak_iff.mp ⟨k', st', hjoin', Bool.eq_false_iff.mpr hweak⟩⟩

/-- Joins are safe unless strengths are mixed or the policy hides the address
under which the connection's own samples stand. -/
theorem joinSafe_iff :
    JoinSafe env now s req fields ↔
      ¬ MixedStrength now (joinScope env req) s ∧
        ∀ c, OwnSample now s req c →
          AddressKept env req ∨ ChannelStrong now (joinScope env req) s c := by
  constructor
  · intro h
    refine ⟨hardLinkStrong_iff.mp h.hardLinkStrong, ?_⟩
    intro c hown
    exact Or.inr (joined_strong_iff.mp (h.ownStrong c hown))
  · intro h
    obtain ⟨hmixed, hown⟩ := h
    refine ⟨?_, hardLinkStrong_iff.mpr hmixed, ?_⟩
    · intro c k st hjoin want got hwant hgot
      have hmatch := ((joinSpec c).matched k st hjoin).2.1
      exact hmatch.ports hwant hgot
    · intro c hc
      rcases hown c hc with hkept | hstrong
      · exact joined_strong_iff.mpr (own_strong_of_kept hkept hc)
      · exact joined_strong_iff.mpr hstrong

end Safety

def ownSyn : SynInfo where
  srcIp := some "203.0.113.10"
  srcPort := some 40001
  dstPort := some 28780
  ipTtl := some 64
  tcpWindow := some 11111
  tcpWindowScaled := none
  tcpMss := some 1460
  tcpWscale := some 7
  tcpSackOk := true
  tcpTimestamp := true
  tcpTsVal := none
  ipTos := none
  ipEcn := none
  ipId := none
  p0fSig := none
  p0fHash := none
  optionOrder := []
  optionOrderStr := some "mss,sack,ts,ws"
  tcpFlagsStr := some "S"

def ownStore : Store := ⟨[], [⟨1000, ownSyn⟩], [], []⟩

def ownRequest : Request := ⟨some "203.0.113.10", some 40001, some 28780, none⟩

/-- By default the request asks for `203.0.113.0/24`, where no sample stands. -/
theorem masked_own_sample_lost :
    ¬ JoinSafe (fun _ => none) 1000 ownStore ownRequest SortedMap.empty := by
  intro h
  have hown : OwnSample 1000 ownStore ownRequest .syn :=
    ⟨"203.0.113.10", 40001, by decide, by decide, rfl, rfl,
      ⟨1000, synKeys ownSyn⟩, List.mem_singleton.mpr rfl, by simp [Fresh, sideTtlMs], rfl, rfl⟩
  obtain ⟨k, st, hjoin, -⟩ := h.ownStrong .syn hown
  have hnone : joinedSample 1000 (joinScope (fun _ => none) ownRequest) ownStore .syn = none := by
    decide
  rw [hnone] at hjoin
  cases hjoin

end SideStore

end GrServer
