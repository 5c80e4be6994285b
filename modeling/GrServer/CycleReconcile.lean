import GrServer.Text

/-!
# Reconciling a probe cycle with its browser

The server derives a snapshot of a cycle from its stored facts, compares it
with what the browser reports and answers with corrections.  The rules run in
source order over one set of flags and a growing list of corrections.
-/

namespace GrServer

open Text

namespace CycleReconcile

inductive BusinessState where
  | probing
  | probeSoftComplete
  | analysisTerminalActive
  | identityCompleteCool
  | incompleteExpired
  | purged
  | inactive
  deriving DecidableEq

def BusinessState.asStr : BusinessState → String
  | .probing => "probing"
  | .probeSoftComplete => "probe_soft_complete"
  | .analysisTerminalActive => "analysis_terminal_active"
  | .identityCompleteCool => "identity_complete_cool"
  | .incompleteExpired => "incomplete_expired"
  | .purged => "purged"
  | .inactive => "inactive"

structure ServerCycleFacts where
  sessionId : String
  active : Bool
  cycleStatus : String
  expiredReason : String
  analysisTerminal : Bool
  probeComplete : Bool
  stopProbe : Bool
  coverageComplete : Bool
  receivedBatchIds : List String

structure ClientCycleView where
  sessionId : String
  stopProbe : Option Bool
  skipIdentity : Option Bool
  halted : Option Bool
  phase : Option String
  localUploadsDone : Option Bool
  lastHttpStatus : Option ℕ
  lastErrorCode : Option String

structure CycleSnapshot where
  businessState : BusinessState
  cycleClosed : Bool
  haltUploads : Bool
  skipIdentityProbe : Bool
  acceptsIdentityIngest : Bool
  probeComplete : Bool
  analysisTerminal : Bool
  stopProbe : Bool
  coverageComplete : Bool
  cycleStatus : String
  expiredReason : String
  sessionActive : Bool

def primaryB10 (f : ServerCycleFacts) : Bool :=
  f.receivedBatchIds.any fun b => b = "B10_hw_curves" || b = "mid.curves"

def deriveServerSnapshot (f : ServerCycleFacts) : CycleSnapshot :=
  let status := if f.cycleStatus = "" then "active" else f.cycleStatus
  let reason := f.expiredReason
  let closed := !f.active || status = "complete" || status = "purged"
  let analysisTerminal := f.analysisTerminal || (f.stopProbe && f.coverageComplete)
  let hasB10 := primaryB10 f
  -- a terminal analysis without the primary B10 batch does not stop uploads
  let halt := closed || (analysisTerminal && hasB10)
  let softComplete := (f.probeComplete || f.coverageComplete) && hasB10
  { businessState :=
      if status = "complete" || reason = "cycle_complete" then .identityCompleteCool
      else if status = "purged" || reason = "cycle_purged" then .purged
      else if reason = "incomplete_ttl" then .incompleteExpired
      else if !f.active then .inactive
      else if analysisTerminal && hasB10 then .analysisTerminalActive
      else if softComplete then .probeSoftComplete
      else .probing
    cycleClosed := closed
    haltUploads := halt
    skipIdentityProbe := halt || !f.active
    acceptsIdentityIngest := f.active && !halt
    probeComplete := (f.probeComplete || f.coverageComplete || analysisTerminal) && hasB10
    analysisTerminal := analysisTerminal && hasB10
    stopProbe := f.stopProbe && hasB10
    coverageComplete := f.coverageComplete && hasB10
    cycleStatus := status
    expiredReason := reason
    sessionActive := f.active }

theorem halt_of_analysisTerminal {f : ServerCycleFacts}
    (h : (deriveServerSnapshot f).analysisTerminal = true) :
    (deriveServerSnapshot f).haltUploads = true := by
  simp only [deriveServerSnapshot] at h ⊢
  simp [h]

theorem not_halt_of_accepts {f : ServerCycleFacts}
    (h : (deriveServerSnapshot f).acceptsIdentityIngest = true) :
    (deriveServerSnapshot f).haltUploads = false := by
  simp only [deriveServerSnapshot, Bool.and_eq_true, Bool.not_eq_true'] at h ⊢
  exact h.2

/-! ## Corrections -/

structure Correction where
  action : String
  reason : String
  authority : String
  deriving DecidableEq

structure Verdict where
  corrections : List Correction
  feShouldHalt : Bool
  feShouldResume : Bool
  beShouldCompleteCycle : Bool

def Verdict.push (v : Verdict) (action reason authority : String) : Verdict :=
  { v with corrections := v.corrections ++ [⟨action, reason, authority⟩] }

section Rules

variable (server : CycleSnapshot) (serverSessionId : String) (c : ClientCycleView)

def rebindSession (v : Verdict) : Verdict :=
  if c.sessionId ≠ "" ∧ serverSessionId ≠ "" ∧ c.sessionId ≠ serverSessionId then
    v.push "rebind_session_id"
      ("client=" ++ c.sessionId ++ " server=" ++ serverSessionId) "server"
  else v

def clientActive : Bool :=
  c.halted = some false || c.stopProbe = some false ||
    (c.halted = none && c.stopProbe = none)

def haltClosed (v : Verdict) : Verdict :=
  if server.haltUploads ∧ clientActive c ∧ c.halted ≠ some true then
    { v.push "fe_halt_uploads"
        ("server business_state=" ++ server.businessState.asStr ++
          " cycle_status=" ++ server.cycleStatus) "server" with
      feShouldHalt := true }
  else v

/-- The client saw HTTP 410 or an error code of an expired cycle. -/
def sawExpiry : Bool :=
  c.lastHttpStatus = some 410 ||
    (c.lastErrorCode.map fun e =>
      containsStr e "session_expired" || containsStr e "cycle_complete" ||
        containsStr e "cycle_purged" || containsStr e "incomplete_ttl").getD false

def haltExpired (v : Verdict) : Verdict :=
  if sawExpiry c then
    let v :=
      if c.halted ≠ some true then
        v.push "fe_halt_uploads" "client_saw_410_or_expired_code" "mutual"
      else v
    { v with feShouldHalt := true }
  else v

def haltedWithoutCool : Bool :=
  c.halted = some true && server.acceptsIdentityIngest && decide (c.phase ≠ some "cool")

def resumeHalted (v : Verdict) : Verdict :=
  if haltedWithoutCool server c then
    { v.push "fe_resume_if_same_active_cycle"
        "server_still_active_client_halted_without_cool" "server" with
      feShouldResume := true
      feShouldHalt := false }
  else v

def completeTerminal (v : Verdict) : Verdict :=
  if c.localUploadsDone = some true ∧ server.analysisTerminal ∧
      server.sessionActive ∧ ¬ server.cycleClosed then
    { v.push "be_complete_cycle" "analysis_terminal_but_cycle_still_active" "server" with
      beShouldCompleteCycle := true
      feShouldHalt := true }
  else v

def markLocalDone (v : Verdict) : Verdict :=
  if c.localUploadsDone = some true ∧ ¬ server.haltUploads ∧
      (server.businessState = .probing ∨ server.businessState = .probeSoftComplete) then
    v.push "fe_mark_local_done_only" "local_upload_progress_not_cycle_closed" "client_hint"
  else v

def falseCool : Bool :=
  c.phase = some "cool" && c.skipIdentity = some true &&
    server.acceptsIdentityIngest && server.cycleStatus = "active"

def clearFalseCool (v : Verdict) : Verdict :=
  if falseCool server c then
    { v.push "fe_clear_false_cool" "client_cool_but_server_active" "server" with
      feShouldResume := true
      feShouldHalt := false }
  else v

def applyRules (v : Verdict) : Verdict :=
  clearFalseCool server c <| markLocalDone server c <| completeTerminal server c <|
    resumeHalted server c <| haltExpired c <| haltClosed server c <|
      rebindSession serverSessionId c v

end Rules

def retainFirst (seen : List String) : List Correction → List Correction
  | [] => []
  | c :: cs =>
      if c.action ∈ seen then retainFirst seen cs
      else c :: retainFirst (c.action :: seen) cs

structure ReconcileResult where
  server : CycleSnapshot
  corrections : List Correction
  aligned : Bool
  feShouldHalt : Bool
  feShouldResume : Bool
  beShouldCompleteCycle : Bool
  note : String

def reconcile (facts : ServerCycleFacts) (client : Option ClientCycleView) :
    ReconcileResult :=
  let server := deriveServerSnapshot facts
  let start : Verdict := ⟨[], server.haltUploads, false, false⟩
  let v := client.elim start fun c => applyRules server facts.sessionId c start
  let corrections := retainFirst [] v.corrections
  let aligned :=
    corrections.isEmpty || corrections.all fun c => c.action = "fe_mark_local_done_only"
  { server := server
    corrections := corrections
    aligned := aligned
    feShouldHalt := v.feShouldHalt
    feShouldResume := v.feShouldResume
    beShouldCompleteCycle := v.beShouldCompleteCycle
    note := if aligned then "aligned" else "corrections_required" }

theorem mem_of_mem_retainFirst {seen : List String} {cs : List Correction}
    {c : Correction} (h : c ∈ retainFirst seen cs) : c ∈ cs := by
  induction cs generalizing seen with
  | nil => exact h
  | cons d ds ih =>
      unfold retainFirst at h
      split_ifs at h with hseen
      · exact List.mem_cons_of_mem _ (ih h)
      · rcases List.mem_cons.mp h with rfl | h
        · exact List.mem_cons_self
        · exact List.mem_cons_of_mem _ (ih h)

/-! ## Consistency with the server's authority -/

def IsHalt (c : Correction) : Prop := c.action = "fe_halt_uploads"

def IsResume (c : Correction) : Prop :=
  c.action = "fe_resume_if_same_active_cycle" ∨ c.action = "fe_clear_false_cool"

/-- The flags agree with the snapshot, with each other and with the corrections;
`expired` stands for a client that saw the expiry of its cycle. -/
structure Agrees (server : CycleSnapshot) (expired : Bool) (corrections : List Correction)
    (halt resume : Bool) : Prop where
  exclusive : ¬ (halt = true ∧ resume = true)
  haltCorrection : ∀ c ∈ corrections, IsHalt c → halt = true
  resumeCorrection : ∀ c ∈ corrections, IsResume c → resume = true
  resumeAccepts : resume = true → server.acceptsIdentityIngest = true
  serverHalt : server.haltUploads = true → halt = true
  expiredHalt : expired = true → halt = true

def ReconcileResult.Agrees (client : Option ClientCycleView) (r : ReconcileResult) : Prop :=
  CycleReconcile.Agrees r.server (client.elim false sawExpiry) r.corrections
    r.feShouldHalt r.feShouldResume

/-- A resume rule applies to a client that saw the expiry of its cycle. -/
def ResumedAfterExpiry (facts : ServerCycleFacts) (client : Option ClientCycleView) : Prop :=
  ∃ c, client = some c ∧ sawExpiry c = true ∧
    (haltedWithoutCool (deriveServerSnapshot facts) c = true ∨
      falseCool (deriveServerSnapshot facts) c = true)

structure RuleInv (server : CycleSnapshot) (expired : Bool) (v : Verdict) : Prop where
  agrees : Agrees server expired v.corrections v.feShouldHalt v.feShouldResume
  haltReason : v.feShouldHalt = true → server.haltUploads = true ∨ expired = true

section Steps

variable {facts : ServerCycleFacts} {c : ClientCycleView} {expired : Bool} {v : Verdict}

theorem ruleInv_start :
    RuleInv (deriveServerSnapshot facts) false
      ⟨[], (deriveServerSnapshot facts).haltUploads, false, false⟩ where
  agrees := by constructor <;> simp
  haltReason := Or.inl

theorem RuleInv.push {server : CycleSnapshot} (h : RuleInv server expired v)
    {action reason authority : String}
    (hhalt : action ≠ "fe_halt_uploads")
    (hresume : action ≠ "fe_resume_if_same_active_cycle")
    (hcool : action ≠ "fe_clear_false_cool") :
    RuleInv server expired (v.push action reason authority) where
  agrees :=
    { exclusive := h.agrees.exclusive
      haltCorrection := by
        intro d hd hd'
        rcases List.mem_append.mp hd with hd | hd
        · exact h.agrees.haltCorrection d hd hd'
        · rw [List.mem_singleton.mp hd] at hd'
          exact absurd hd' hhalt
      resumeCorrection := by
        intro d hd hd'
        rcases List.mem_append.mp hd with hd | hd
        · exact h.agrees.resumeCorrection d hd hd'
        · rw [List.mem_singleton.mp hd] at hd'
          rcases hd' with hd' | hd'
          · exact absurd hd' hresume
          · exact absurd hd' hcool
      resumeAccepts := h.agrees.resumeAccepts
      serverHalt := h.agrees.serverHalt
      expiredHalt := h.agrees.expiredHalt }
  haltReason := h.haltReason

theorem RuleInv.halt {server : CycleSnapshot} (h : RuleInv server expired v)
    (hresume : v.feShouldResume = false) {expired' : Bool}
    (hreason : server.haltUploads = true ∨ expired' = true)
    {corrections : List Correction}
    (hcorrections : ∀ d ∈ corrections, d ∈ v.corrections ∨ ¬ IsResume d)
    (complete : Bool) :
    RuleInv server expired' ⟨corrections, true, v.feShouldResume, complete⟩ where
  agrees :=
    { exclusive := by simp [hresume]
      haltCorrection := by simp
      resumeCorrection := by
        intro d hd hd'
        rcases hcorrections d hd with hold | hnew
        · exact h.agrees.resumeCorrection d hold hd'
        · exact absurd hd' hnew
      resumeAccepts := h.agrees.resumeAccepts
      serverHalt := by simp
      expiredHalt := by simp }
  haltReason := fun _ => hreason

theorem RuleInv.resume (h : RuleInv (deriveServerSnapshot facts) false v)
    (haccepts : (deriveServerSnapshot facts).acceptsIdentityIngest = true)
    {action reason authority : String} (haction : action ≠ "fe_halt_uploads")
    (complete : Bool) :
    RuleInv (deriveServerSnapshot facts) false
      ⟨v.corrections ++ [⟨action, reason, authority⟩], false, true, complete⟩ := by
  have hserver := not_halt_of_accepts haccepts
  have hnohalt : ∀ d ∈ v.corrections, ¬ IsHalt d := by
    intro d hd hd'
    have hhalt := h.agrees.haltCorrection d hd hd'
    rcases h.haltReason hhalt with hclosed | hexpired
    · simp [hserver] at hclosed
    · simp at hexpired
  constructor
  · constructor
    · simp
    · intro d hd hd'
      rcases List.mem_append.mp hd with hd | hd
      · exact absurd hd' (hnohalt d hd)
      · rw [List.mem_singleton.mp hd] at hd'
        exact absurd hd' haction
    · simp
    · exact fun _ => haccepts
    · simp [hserver]
    · simp
  · simp

theorem RuleInv.rebindSession {server : CycleSnapshot} (h : RuleInv server expired v)
    (serverSessionId : String) :
    RuleInv server expired (rebindSession serverSessionId c v) := by
  unfold CycleReconcile.rebindSession
  split_ifs
  · exact h.push (by decide) (by decide) (by decide)
  · exact h

theorem RuleInv.markLocalDone {server : CycleSnapshot} (h : RuleInv server expired v) :
    RuleInv server expired (markLocalDone server c v) := by
  unfold CycleReconcile.markLocalDone
  split_ifs
  · exact h.push (by decide) (by decide) (by decide)
  · exact h

theorem RuleInv.resume_false (h : RuleInv (deriveServerSnapshot facts) expired v)
    (hhalt : (deriveServerSnapshot facts).haltUploads = true) :
    v.feShouldResume = false := by
  cases hresume : v.feShouldResume with
  | false => rfl
  | true =>
      have hserver := not_halt_of_accepts (h.agrees.resumeAccepts hresume)
      simp [hserver] at hhalt

theorem RuleInv.haltClosed (h : RuleInv (deriveServerSnapshot facts) expired v) :
    RuleInv (deriveServerSnapshot facts) expired
      (haltClosed (deriveServerSnapshot facts) c v) := by
  unfold CycleReconcile.haltClosed
  split_ifs with hclosed
  · apply h.halt (h.resume_false hclosed.1) (Or.inl hclosed.1)
    intro d hd
    rcases List.mem_append.mp hd with hd | hd
    · exact Or.inl hd
    · right
      rw [List.mem_singleton.mp hd]
      simp [IsResume]
  · exact h

theorem RuleInv.haltExpired {server : CycleSnapshot} (h : RuleInv server false v)
    (hresume : v.feShouldResume = false) :
    RuleInv server (sawExpiry c) (haltExpired c v) := by
  unfold CycleReconcile.haltExpired
  cases hsaw : sawExpiry c with
  | false => simpa using h
  | true =>
      rw [if_pos rfl]
      dsimp only
      split_ifs
      · apply h.halt hresume (Or.inr rfl)
        intro d hd
        rcases List.mem_append.mp hd with hd | hd
        · exact Or.inl hd
        · right
          rw [List.mem_singleton.mp hd]
          simp [IsResume]
      · exact h.halt hresume (Or.inr rfl) (fun d hd => Or.inl hd) _

theorem RuleInv.completeTerminal (h : RuleInv (deriveServerSnapshot facts) expired v) :
    RuleInv (deriveServerSnapshot facts) expired
      (completeTerminal (deriveServerSnapshot facts) c v) := by
  unfold CycleReconcile.completeTerminal
  split_ifs with hterminal
  · have hhalt := halt_of_analysisTerminal hterminal.2.1
    apply h.halt (h.resume_false hhalt) (Or.inl hhalt)
    intro d hd
    rcases List.mem_append.mp hd with hd | hd
    · exact Or.inl hd
    · right
      rw [List.mem_singleton.mp hd]
      simp [IsResume]
  · exact h

theorem RuleInv.resumeHalted (h : RuleInv (deriveServerSnapshot facts) expired v)
    (hresume : expired = true → haltedWithoutCool (deriveServerSnapshot facts) c = false) :
    RuleInv (deriveServerSnapshot facts) expired
      (resumeHalted (deriveServerSnapshot facts) c v) := by
  unfold CycleReconcile.resumeHalted
  split_ifs with happlies
  · have hexpired : expired = false := by
      cases expired with
      | false => rfl
      | true => simp [hresume rfl] at happlies
    subst hexpired
    have haccepts : (deriveServerSnapshot facts).acceptsIdentityIngest = true := by
      simp only [haltedWithoutCool, Bool.and_eq_true] at happlies
      exact happlies.1.2
    exact h.resume haccepts (by decide) _
  · exact h

theorem RuleInv.clearFalseCool (h : RuleInv (deriveServerSnapshot facts) expired v)
    (hresume : expired = true → falseCool (deriveServerSnapshot facts) c = false) :
    RuleInv (deriveServerSnapshot facts) expired
      (clearFalseCool (deriveServerSnapshot facts) c v) := by
  unfold CycleReconcile.clearFalseCool
  split_ifs with happlies
  · have hexpired : expired = false := by
      cases expired with
      | false => rfl
      | true => simp [hresume rfl] at happlies
    subst hexpired
    have haccepts : (deriveServerSnapshot facts).acceptsIdentityIngest = true := by
      simp only [falseCool, Bool.and_eq_true] at happlies
      exact happlies.1.2
    exact h.resume haccepts (by decide) _
  · exact h

@[simp] theorem rebindSession_resume (serverSessionId : String) :
    (rebindSession serverSessionId c v).feShouldResume = v.feShouldResume := by
  unfold CycleReconcile.rebindSession
  split_ifs <;> rfl

@[simp] theorem haltClosed_resume (server : CycleSnapshot) :
    (haltClosed server c v).feShouldResume = v.feShouldResume := by
  unfold CycleReconcile.haltClosed
  split_ifs <;> rfl

theorem ruleInv_applyRules
    (hresume : sawExpiry c = true →
      haltedWithoutCool (deriveServerSnapshot facts) c = false ∧
        falseCool (deriveServerSnapshot facts) c = false) :
    RuleInv (deriveServerSnapshot facts) (sawExpiry c)
      (applyRules (deriveServerSnapshot facts) facts.sessionId c
        ⟨[], (deriveServerSnapshot facts).haltUploads, false, false⟩) := by
  have hstart : RuleInv (deriveServerSnapshot facts) false
      ⟨[], (deriveServerSnapshot facts).haltUploads, false, false⟩ := ruleInv_start
  have hclosed := (hstart.rebindSession (c := c) facts.sessionId).haltClosed (c := c)
  have hexpired := hclosed.haltExpired (c := c) (by simp)
  have hhalted := hexpired.resumeHalted fun hsaw => (hresume hsaw).1
  exact (hhalted.completeTerminal.markLocalDone).clearFalseCool
    fun hsaw => (hresume hsaw).2

theorem applyRules_halt_false {serverSessionId : String}
    (hresume : haltedWithoutCool (deriveServerSnapshot facts) c = true ∨
      falseCool (deriveServerSnapshot facts) c = true) :
    (applyRules (deriveServerSnapshot facts) serverSessionId c v).feShouldHalt = false := by
  have haccepts : (deriveServerSnapshot facts).acceptsIdentityIngest = true := by
    rcases hresume with hresume | hresume
    · simp only [haltedWithoutCool, Bool.and_eq_true] at hresume
      exact hresume.1.2
    · simp only [falseCool, Bool.and_eq_true] at hresume
      exact hresume.1.2
  have hterminal : (deriveServerSnapshot facts).analysisTerminal = false := by
    cases hterminal : (deriveServerSnapshot facts).analysisTerminal with
    | false => rfl
    | true =>
        have hhalt := halt_of_analysisTerminal hterminal
        simp [not_halt_of_accepts haccepts] at hhalt
  unfold applyRules clearFalseCool
  split_ifs with hcool
  · rfl
  · rcases hresume with hresume | hresume
    · have hmark : ∀ w : Verdict,
          (CycleReconcile.markLocalDone (deriveServerSnapshot facts) c w).feShouldHalt =
            w.feShouldHalt := by
        intro w
        unfold CycleReconcile.markLocalDone
        split_ifs <;> rfl
      simp [hmark, CycleReconcile.completeTerminal, hterminal,
        CycleReconcile.resumeHalted, hresume]
    · exact absurd hresume hcool

end Steps

/-- The result agrees with the server's authority, and an expiry seen by the
client halts it, exactly when no resume rule applies to such a client. -/
theorem reconcile_agrees_iff (facts : ServerCycleFacts) (client : Option ClientCycleView) :
    (reconcile facts client).Agrees client ↔ ¬ ResumedAfterExpiry facts client := by
  constructor
  · rintro hagrees ⟨c, rfl, hsaw, hresume⟩
    have hhalt : (reconcile facts (some c)).feShouldHalt = true := hagrees.expiredHalt hsaw
    have hdown : (reconcile facts (some c)).feShouldHalt = false :=
      applyRules_halt_false hresume
    simp [hdown] at hhalt
  · intro hnot
    have hinv : RuleInv (deriveServerSnapshot facts) (client.elim false sawExpiry)
        (client.elim ⟨[], (deriveServerSnapshot facts).haltUploads, false, false⟩ fun c =>
          applyRules (deriveServerSnapshot facts) facts.sessionId c
            ⟨[], (deriveServerSnapshot facts).haltUploads, false, false⟩) := by
      cases client with
      | none => exact ruleInv_start
      | some c =>
          apply ruleInv_applyRules
          intro hsaw
          constructor
          · by_contra hhalted
            exact hnot ⟨c, rfl, hsaw, Or.inl (by simpa using hhalted)⟩
          · by_contra hcool
            exact hnot ⟨c, rfl, hsaw, Or.inr (by simpa using hcool)⟩
    obtain ⟨hagrees, -⟩ := hinv
    exact
      { exclusive := hagrees.exclusive
        haltCorrection := fun d hd =>
          hagrees.haltCorrection d (mem_of_mem_retainFirst hd)
        resumeCorrection := fun d hd =>
          hagrees.resumeCorrection d (mem_of_mem_retainFirst hd)
        resumeAccepts := hagrees.resumeAccepts
        serverHalt := hagrees.serverHalt
        expiredHalt := hagrees.expiredHalt }

def activeFacts : ServerCycleFacts where
  sessionId := "cycle_1"
  active := true
  cycleStatus := "active"
  expiredReason := ""
  analysisTerminal := false
  probeComplete := false
  stopProbe := false
  coverageComplete := false
  receivedBatchIds := []

def goneClient : ClientCycleView where
  sessionId := "cycle_1"
  stopProbe := none
  skipIdentity := none
  halted := some true
  phase := none
  localUploadsDone := none
  lastHttpStatus := some 410
  lastErrorCode := none

theorem halted_client_resumed_after_410 :
    (reconcile activeFacts (some goneClient)).feShouldHalt = false ∧
      (reconcile activeFacts (some goneClient)).feShouldResume = true ∧
      ¬ (reconcile activeFacts (some goneClient)).Agrees (some goneClient) := by
  have hdown : (reconcile activeFacts (some goneClient)).feShouldHalt = false := by decide
  refine ⟨hdown, by decide, ?_⟩
  intro hagrees
  have hhalt := hagrees.expiredHalt (by decide)
  simp [hdown] at hhalt

end CycleReconcile

end GrServer
