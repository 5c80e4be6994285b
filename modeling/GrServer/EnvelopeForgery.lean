import GrServer.ObservationEnvelope

/-!
# What a browser can make of its envelope

The producer class and the trust that a batch enjoys in the merge are both read
off the source label.  A browser is held to the front end exactly where its
label and its injection path carry none of the edge's words, and it keeps to its
own observations where its claimed id is not somebody else's.
-/

namespace GrServer

open Json Text EvidenceMerge MintGate

namespace ObservationEnvelope

def EdgeRanked (src key : String) : Prop :=
  85 ≤ storeSourceTrustScore src key ∨ (sourceTrustFor src key).isEdge = true

structure Unforged (E : Env) (earlier : List IngestBody) (b : IngestBody) (now : ℤ) :
    Prop where
  kind : (b.envelope E now).pointer ["validated", "source_kind"] = some (.str "fe")
  trust : (b.envelope E now).pointer ["validated", "trust_class"] =
    some (.str "client_sealed_claim")
  own : ∀ o ∈ earlier, o.sessionId ≠ b.sessionId → ∀ before,
    (o.envelope E before).get? "observation_id" ≠ (b.envelope E now).get? "observation_id"
  label : ∀ s, ∀ l ∈ (ingestPlainBody E s b now).labels, l ∈ s.labels ∨
    ∀ key, ¬ EdgeRanked l.2.2 key

/-- Neither the label nor the injection path has a word of the server's side. -/
structure FrontEnd (source : String) (injectPath : Option String) : Prop where
  word : ∀ w ∈ ["cloudflare", "gateway", "backend"],
    containsStr (lowered (trimmed source)) w = false
  name : lowered (trimmed source) ∉ ["cf", "b8", "sdk"]
  start : startsWith (lowered (trimmed source)) "cf_" = false
  base : sourceBase source ≠ "cf"
  injected : lowered (injectPath.getD "") ∉ ["cf_worker", "cloudflare", "nginx"]

def IngestBody.seed (b : IngestBody) : String :=
  observationSeed b.sessionId b.batchId b.source b.claimed.attemptId b.claimed.captureId

def IngestBody.digits (E : Env) (b : IngestBody) : List Char :=
  (E.sha256Hex (asBytes b.seed)).toList.take 16

/-- A claimed id is neither claimed by the other body nor derived for it, and
the seeds of derived ids do not collide. -/
def IdsApart (E : Env) (o b : IngestBody) : Prop :=
  match claimedToken o.claimed, claimedToken b.claimed with
  | some t, some t' => t ≠ t'
  | some t, none => t ≠ "obs_" ++ String.ofList (b.digits E)
  | none, some t' => "obs_" ++ String.ofList (o.digits E) ≠ t'
  | none, none => o.digits E ≠ b.digits E

theorem containsStr_of_sourceBase {src w : String} (hbase : sourceBase src = w)
    (hne : w.toList ≠ []) (hhead : isWhitespace (w.toList.head hne) = false)
    (hlast : isWhitespace (w.toList.getLast hne) = false)
    (hlower : toAsciiLowercase w.toList = w.toList) :
    containsStr (lowered (trimmed src)) w = true := by
  obtain ⟨rest, hrest⟩ : ∃ rest, src.toList = w.toList ++ rest := by
    refine ⟨src.toList.dropWhile (· ≠ ':'), ?_⟩
    rw [← hbase, sourceBase, String.toList_ofList]
    exact List.takeWhile_append_dropWhile.symm
  have htrim : (trimmed src).toList = w.toList ++ trimEnd rest := by
    rw [trimmed, String.toList_ofList, trim, hrest, trimStart_append hne hhead]
    exact trimEnd_append hne hlast rest
  have happend : toAsciiLowercase (w.toList ++ trimEnd rest) =
      w.toList ++ toAsciiLowercase (trimEnd rest) :=
    List.map_append.trans (congrArg (· ++ toAsciiLowercase (trimEnd rest)) hlower)
  unfold containsStr lowered
  rw [String.toList_ofList, htrim, happend, decide_eq_true_eq]
  exact (List.prefix_append _ _).isInfix

theorem edgeRanked_iff {src key : String} :
    EdgeRanked src key ↔ sourceBase src ∈ edgeBases := by
  have hscore : 85 ≤ storeSourceTrustScore src key ↔ sourceBase src ∈ edgeBases := by
    unfold storeSourceTrustScore edgeBases
    simp only [List.mem_cons, List.not_mem_nil, or_false]
    split_ifs <;> simp_all
  have htrust : (sourceTrustFor src key).isEdge = true ↔ sourceBase src ∈ edgeBases := by
    unfold sourceTrustFor edgeBases
    simp only [List.mem_cons, List.not_mem_nil, or_false]
    split_ifs <;> simp_all [SourceTrust.isEdge]
  unfold EdgeRanked
  rw [hscore, htrust, or_self]

theorem inferSourceKind_fe_iff {source : String} {injectPath : Option String} :
    inferSourceKind source injectPath = .fe ↔
      (∀ w ∈ ["cloudflare", "gateway", "backend"],
        containsStr (lowered (trimmed source)) w = false) ∧
      lowered (trimmed source) ∉ ["cf", "b8", "sdk"] ∧
      startsWith (lowered (trimmed source)) "cf_" = false ∧
      lowered (injectPath.getD "") ∉ ["cf_worker", "cloudflare", "nginx"] := by
  unfold inferSourceKind
  simp only [List.mem_cons, List.not_mem_nil, or_false, forall_eq_or_imp, forall_eq, not_or]
  split_ifs <;> grind

theorem frontEnd_iff {source : String} {injectPath : Option String} :
    FrontEnd source injectPath ↔
      inferSourceKind source injectPath = .fe ∧ sourceBase source ∉ edgeBases := by
  rw [inferSourceKind_fe_iff]
  constructor
  · intro h
    refine ⟨⟨h.word, h.name, h.start, h.injected⟩, ?_⟩
    intro hbase
    simp only [edgeBases, List.mem_cons, List.not_mem_nil, or_false] at hbase
    rcases hbase with hbase | hbase | hbase
    · have hword := containsStr_of_sourceBase hbase (by decide) (by decide) (by decide) (by decide)
      rw [h.word "gateway" (by decide)] at hword
      cases hword
    · have hword := containsStr_of_sourceBase hbase (by decide) (by decide) (by decide) (by decide)
      rw [h.word "cloudflare" (by decide)] at hword
      cases hword
    · exact h.base hbase
  · rintro ⟨⟨hword, hname, hstart, hinjected⟩, hbase⟩
    refine ⟨hword, hname, hstart, ?_, hinjected⟩
    rintro hcf
    apply hbase
    rw [hcf]
    decide

/-- The class and the ladders disagree on a suffixed `cf`. -/
example : inferSourceKind "cf:1" none = .fe ∧ storeSourceTrustScore "cf:1" "user_agent" = 85 := by
  decide

theorem validatedKind_eq (source : String) (injectPath : Option String)
    (claimed : ClaimedEnvelope) :
    validatedKind source injectPath claimed = inferSourceKind source injectPath := by
  simp only [validatedKind]
  split_ifs with hfe hbackend
  · exact hfe.2.symm
  · exact hbackend.2.symm
  · rfl

section Body

variable (E : Env) (b : IngestBody) (now : ℤ)

theorem envelope_sourceKind : (b.envelope E now).pointer ["validated", "source_kind"] =
    some (.str (inferSourceKind b.source b.injectPath).asStr) := by
  rw [← validatedKind_eq b.source b.injectPath b.claimed]
  rfl

theorem envelope_trustClass : (b.envelope E now).pointer ["validated", "trust_class"] =
    some (.str (trustClass (inferSourceKind b.source b.injectPath))) := by
  rw [← validatedKind_eq b.source b.injectPath b.claimed]
  rfl

theorem envelope_observationId : (b.envelope E now).get? "observation_id" =
    some (.str (observationIdOf E b.sessionId b.batchId b.source b.claimed)) := rfl

end Body

theorem fe_iff_of_kind (k : SourceKind) :
    (some (Json.str k.asStr) = some (.str "fe") ∧
      some (Json.str (trustClass k)) = some (.str "client_sealed_claim")) ↔ k = .fe := by
  cases k <;> decide

theorem observationId_ne_iff {E : Env} {o b : IngestBody} :
    observationIdOf E o.sessionId o.batchId o.source o.claimed ≠
      observationIdOf E b.sessionId b.batchId b.source b.claimed ↔ IdsApart E o b := by
  unfold observationIdOf IdsApart
  cases claimedToken o.claimed with
  | some t => cases claimedToken b.claimed <;> rfl
  | none =>
      cases claimedToken b.claimed with
      | some t' => rfl
      | none =>
          simp only [Option.getD_none, makeObservationId, IngestBody.digits, IngestBody.seed,
            ne_eq, String.append_right_inj, String.ofList_inj]

theorem unforged_iff (E : Env) (earlier : List IngestBody) (b : IngestBody) (now : ℤ) :
    Unforged E earlier b now ↔ FrontEnd b.source b.injectPath ∧
      ∀ o ∈ earlier, o.sessionId ≠ b.sessionId → IdsApart E o b := by
  rw [frontEnd_iff]
  constructor
  · intro h
    have hkind := h.kind
    have htrust := h.trust
    rw [envelope_sourceKind] at hkind
    rw [envelope_trustClass] at htrust
    refine ⟨⟨(fe_iff_of_kind _).mp ⟨hkind, htrust⟩, ?_⟩, ?_⟩
    · have hlabel := h.label ⟨[], []⟩ (b.sessionId, b.batchId, b.source)
        (List.mem_singleton_self _)
      intro hbase
      rcases hlabel with hmem | hnot
      · cases hmem
      · exact hnot "" (edgeRanked_iff.mpr hbase)
    · intro o ho hother
      rw [← observationId_ne_iff]
      intro heq
      refine h.own o ho hother 0 ?_
      rw [envelope_observationId, envelope_observationId, heq]
  · rintro ⟨⟨hkind, hbase⟩, hids⟩
    obtain ⟨hfe, htrust⟩ := (fe_iff_of_kind _).mpr hkind
    refine ⟨?_, ?_, ?_, ?_⟩
    · rw [envelope_sourceKind]
      exact hfe
    · rw [envelope_trustClass]
      exact htrust
    · intro o ho hother before heq
      rw [envelope_observationId, envelope_observationId] at heq
      exact observationId_ne_iff.mpr (hids o ho hother) (Json.str.inj (Option.some.inj heq))
    · intro s l hl
      simp only [ingestPlainBody] at hl
      split_ifs at hl with hmem
      · exact Or.inl hl
      · rcases List.mem_append.mp hl with hold | hnew
        · exact Or.inl hold
        · rw [List.mem_singleton.mp hnew]
          exact Or.inr fun key hranked => hbase (edgeRanked_iff.mp hranked)

def unclaimed : ClaimedEnvelope := ⟨none, none, none, none, none, none, none, none, none⟩

def selfStyledGateway : IngestBody :=
  ⟨"s1", "B0_bootstrap", "gateway", .obj [("fields", .obj [])], none, unclaimed⟩

theorem selfStyledGateway_validated (E : Env) (now : ℤ) :
    (selfStyledGateway.envelope E now).pointer ["validated", "source_kind"] =
        some (.str "gateway") ∧
      (selfStyledGateway.envelope E now).pointer ["validated", "trust_class"] =
        some (.str "server_edge") ∧
      storeSourceTrustScore selfStyledGateway.source "user_agent" = 95 ∧
      ¬ Unforged E [] selfStyledGateway now := by
  have hkind : (selfStyledGateway.envelope E now).pointer ["validated", "source_kind"] =
      some (.str "gateway") := by
    rw [envelope_sourceKind]
    decide
  refine ⟨hkind, ?_, by decide, ?_⟩
  · rw [envelope_trustClass]
    decide
  · intro h
    have hfe := h.kind
    rw [hkind] at hfe
    revert hfe
    decide

def plainEnv : Env := ⟨fun _ => "", none⟩

theorem self_styled_gateway_is_edge :
    (selfStyledGateway.envelope plainEnv 0).pointer ["validated", "source_kind"] =
        some (.str "gateway") ∧
      (selfStyledGateway.envelope plainEnv 0).pointer ["validated", "trust_class"] =
        some (.str "server_edge") ∧
      storeSourceTrustScore selfStyledGateway.source "user_agent" = 95 ∧
      ¬ Unforged plainEnv [] selfStyledGateway 0 :=
  selfStyledGateway_validated plainEnv 0

end ObservationEnvelope

end GrServer
