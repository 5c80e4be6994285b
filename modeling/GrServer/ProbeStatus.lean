import GrServer.CycleReconcile
import GrServer.CycleStore

/-!
# The two status surfaces of a cycle

Both endpoints derive the same facts from the store.  The snapshot endpoint
lays its own halt and acceptance over the derived snapshot; the reconcile
endpoint reports the derived one, corrected by the client's view.
-/

namespace GrServer

open Json Text CycleStore CycleReconcile

namespace ProbeStatus

def receivedBatchIds (s : Store) (session : String) : List String :=
  (((s.batches.filter (·.session = session)).map (·.batch)).insertionSort (· ≤ ·)).dedup

def latestResult (s : Store) (session : String) : Option Json :=
  (latestAnalysis s session).map innerResult

def serverCycleFacts (cfg : Config) (now : ℕ) (s : Store) (session : String) :
    ServerCycleFacts :=
  let window := (sessionWindow cfg now session s).toOption
  let flag := fun path => (latestResult s session).any fun r => flagAt r path
  { sessionId := session
    active := (window.map (·.active)).getD false
    cycleStatus := (window.map (·.status)).getD "unknown"
    expiredReason := (window.map (·.expiredReason)).getD ""
    analysisTerminal := flag ["analysis_terminal"]
    probeComplete := flag ["probe_complete"]
    stopProbe := flag ["route_plan", "stop_probe"]
    coverageComplete := flag ["coverage", "coverage_complete"]
    receivedBatchIds := receivedBatchIds s session }

/-! ## The snapshot endpoint -/

def strings (xs : List String) : Json := .arr (xs.map Json.str)

def snapshotChannels : List String :=
  ["ingest_response", "analyze_response", "http_410", "open_cool", "fe_local", "analyze_poll",
    "probe_status_reconcile"]

def snapshotSemantics : List (String × Json) :=
  [("analysis_terminal", .str "stop_probe AND coverage_complete → closes cycle"),
    ("probe_complete", .str "soft coverage/stop signal; alone does not halt uploads"),
    ("halt_uploads", .str "cycle closed or analysis_terminal"),
    ("http_410", .str "require_active_session failed (complete|purged|incomplete_ttl)"),
    ("open_cool", .str "vt cool_until; skip identity"),
    ("reconcile", .str "POST probe_status with FE view → server corrections")]

def object (members : List (String × Json)) : Json :=
  ofFields (SortedMap.empty.insertEach members)

def snapshotMembers (snap : CycleSnapshot) (session : String) : List (String × Json) :=
  [("algo", .str "cycle_probe_status_v2"),
    ("session_id", .str session),
    ("cycle_id", .str session),
    ("session_active", .bool snap.sessionActive),
    ("cycle_status", .str snap.cycleStatus),
    ("business_state", .str snap.businessState.asStr),
    ("expired_reason",
      if snap.expiredReason = "" then .null else .str snap.expiredReason),
    ("accepts_identity_ingest", .bool snap.acceptsIdentityIngest),
    ("halt_uploads", .bool snap.haltUploads),
    ("skip_identity_probe", .bool snap.skipIdentityProbe),
    ("probe_complete", .bool snap.probeComplete),
    ("analysis_terminal", .bool snap.analysisTerminal),
    ("stop_probe", .bool snap.stopProbe),
    ("coverage_complete", .bool snap.coverageComplete),
    ("cycle_closed", .bool snap.cycleClosed),
    ("channels", strings snapshotChannels),
    ("semantics", object snapshotSemantics)]

def snapshotToJson (snap : CycleSnapshot) (session : String) : Json :=
  object (snapshotMembers snap session)

def identityNeeded : List String :=
  ["B0_bootstrap", "B1_conflict", "B2_hardware", "B3_system", "B8_gateway", "B10_hw_curves",
    "B12_anti_camouflage"]

def identityPresent (facts : ServerCycleFacts) : List String :=
  identityNeeded.filter fun id =>
    facts.receivedBatchIds.any fun b =>
      b = id || (id = "B8_gateway" && b = "B8_gateway_early")

def hardComplete (facts : ServerCycleFacts) : Bool :=
  let present := identityPresent facts
  let hasForm := present.any fun id =>
    id = "B0_bootstrap" || id = "B2_hardware" || id = "B3_system"
  primaryB10 facts && (hasForm || 3 ≤ present.length)

def commercialFinal (result : Option Json) : Bool :=
  result.any fun r =>
    resultCommercialIdentityFinal r || flagAt r ["commercial_identity_final"]

/-- The schedule is done: the latest analysis completes the cycle, or a terminal
one met a closed cycle. -/
def brainScheduleFinal (cfg : Config) (facts : ServerCycleFacts) (snap : CycleSnapshot)
    (result : Option Json) : Bool :=
  (result.any fun r => analysisCompletesCycle cfg r) ||
    (snap.analysisTerminal && hardComplete facts && snap.cycleClosed)

def deviceLinkBound (result : Option Json) : Bool :=
  result.any fun r =>
    (((r.get? "device_link_bound").bind asBool).or
      (((r.pointer ["link", "details", "device_link_bound"]).bind asBool).or
        (((r.pointer ["link", "decision"]).bind asStr).map fun d =>
          decide (d = "LINK" ∨ d = "MACHINE_BOUND")))).getD false

def coverageMembers (facts : ServerCycleFacts) (commercial final linked : Bool) :
    List (String × Json) :=
  let present := identityPresent facts
  let hasB10 := primaryB10 facts
  [("identity_coverage", object
      [("needed", strings identityNeeded),
        ("present", strings present),
        ("count_present", ofInt present.length),
        ("count_needed", ofInt identityNeeded.length),
        ("complete_enough", .bool (hasB10 && 2 ≤ present.length)),
        ("has_b10", .bool hasB10),
        ("hard_complete", .bool (hardComplete facts)),
        ("final_analysis_ok", .bool final),
        ("commercial_identity_final", .bool commercial),
        ("brain_schedule_final", .bool final)]),
    ("has_b10", .bool hasB10),
    ("hard_complete", .bool (hardComplete facts)),
    ("final_analysis_ok", .bool final),
    ("commercial_identity_final", .bool commercial),
    ("brain_schedule_final", .bool final),
    ("device_link_bound", .bool linked),
    ("terminal_states", object
      [("commercial_identity_final", .bool commercial),
        ("brain_schedule_final", .bool final),
        ("device_link_bound", .bool linked)])]

/-- The members the endpoint lays over the derived snapshot. -/
def overrideMembers (closed final commercial : Bool) : List (String × Json) :=
  if final || closed then
    [("halt_uploads", .bool true),
      ("skip_identity_probe", .bool true),
      ("accepts_identity_ingest", .bool false),
      ("business_state", .str "identity_complete_cool")]
  else
    [("halt_uploads", .bool false),
      ("skip_identity_probe", .bool false),
      ("accepts_identity_ingest", .bool true)] ++
    (if commercial then [("business_state", .str "probing_after_identity_milestone")] else [])

def receivedMembers (facts : ServerCycleFacts) (result : Option Json) : List (String × Json) :=
  [("received_batch_ids", strings facts.receivedBatchIds),
    ("received_batch_count", ofInt facts.receivedBatchIds.length),
    ("real_band", (result.bind (·.get? "real_band")).getD .null)]

def cycleProbeStatusSnapshot (cfg : Config) (now : ℕ) (s : Store) (session : String) : Json :=
  let facts := serverCycleFacts cfg now s session
  let snap := deriveServerSnapshot facts
  let result := latestResult s session
  let commercial := commercialFinal result
  let final := brainScheduleFinal cfg facts snap result
  object (snapshotMembers snap session ++
    coverageMembers facts commercial final (deviceLinkBound result) ++
    overrideMembers snap.cycleClosed final commercial ++ receivedMembers facts result)

/-- The client's view; no body and an empty object are none. -/
def clientViewOf (session : String) (body : Json) : Option ClientCycleView :=
  if (body.asObject.map (·.isEmpty)).getD true then none
  else some
    { sessionId := ((body.get? "session_id").bind asStr).getD session
      stopProbe := (body.get? "stop_probe").bind asBool
      skipIdentity :=
        ((body.get? "skip_identity").or (body.get? "skip_identity_probe")).bind asBool
      halted := (body.get? "halted").bind asBool
      phase := (body.get? "phase").bind asStr
      localUploadsDone := (body.get? "local_uploads_done").bind asBool
      -- the status is cut to 16 bits
      lastHttpStatus := ((body.get? "last_http_status").bind asU64).map (· % 2 ^ 16)
      lastErrorCode := (body.get? "last_error_code").bind asStr }

def correctionJson (c : Correction) : Json :=
  object [("action", .str c.action), ("reason", .str c.reason), ("authority", .str c.authority)]

def reconcileMembers (r : ReconcileResult) (session : String) : List (String × Json) :=
  [("ok", .bool true),
    ("session_id", .str session),
    ("aligned", .bool r.aligned),
    ("note", .str r.note),
    ("fe_should_halt", .bool r.feShouldHalt),
    ("fe_should_resume", .bool r.feShouldResume),
    ("be_should_complete_cycle", .bool r.beShouldCompleteCycle),
    ("corrections", .arr (r.corrections.map correctionJson)),
    ("cycle_probe_status", snapshotToJson r.server session),
    ("halt_uploads", .bool r.feShouldHalt),
    ("skip_identity_probe", .bool (r.feShouldHalt || r.server.skipIdentityProbe)),
    ("business_state", .str r.server.businessState.asStr)]

def completedJson (cfg : Config) (now : ℕ) (cycle : String) (row : SessionRow) (s : Store) :
    Json :=
  object
    [("ok", .bool true),
      ("cycle_id", .str cycle),
      ("session_id", .str cycle),
      ("visitor_terminal_id", .str row.visitor),
      ("phase", .str "complete"),
      ("completed_ms", ofInt now),
      ("cool_until_ms", ofInt (grantedCool cfg s cycle row.info now)),
      ("cool_silicon_ok", .bool (siliconOk s cycle)),
      ("created_ms", ofInt row.created),
      ("cycle_cool_ms", ofInt (cfg.coolMs "")),
      ("product_version", .str (completedVersion cfg s cycle row.info))]

def withCorrection (r : ReconcileResult) (action reason : String) : ReconcileResult :=
  { r with corrections := r.corrections ++ [⟨action, reason, "server"⟩] }

/-- `probe_status_reconcile` behind the site check.  The facts are read at `now`;
a self-heal completes the cycle at `healed` and reads the facts again at `again`. -/
def probeStatusReconcile (cfg : Config) (now healed again : ℕ) (s : Store) (session : String)
    (body : Json) : Store × Json :=
  let client := clientViewOf session body
  let r := reconcile (serverCycleFacts cfg now s session) client
  if r.beShouldCompleteCycle then
    match s.sessions.get? session with
    | some row =>
        let s' := completeRow cfg healed session row s
        let r := withCorrection r "be_completed_cycle" "self_heal_analysis_terminal_stuck"
        let r' := reconcile (serverCycleFacts cfg again s' session) client
        let all := ((r.corrections ++ r'.corrections).map correctionJson).destutter (· ≠ ·)
        (s', object (reconcileMembers r' session ++
          [("self_healed_complete", .bool true),
            ("complete_cycle", completedJson cfg healed session row s),
            ("corrections", .arr all)]))
    | none =>
        let r := withCorrection r "be_complete_cycle_failed" ("not found: cycle " ++ session)
        (s, object (reconcileMembers r session))
  else (s, object (reconcileMembers r session))

/-- The same halt, acceptance and phase in both answers. -/
structure SurfacesAgree (snapshot reconciled : Json) : Prop where
  halt : snapshot.get? "halt_uploads" = reconciled.get? "halt_uploads"
  haltStatus : snapshot.get? "halt_uploads" =
    reconciled.pointer ["cycle_probe_status", "halt_uploads"]
  accepts : snapshot.get? "accepts_identity_ingest" =
    reconciled.pointer ["cycle_probe_status", "accepts_identity_ingest"]
  phase : snapshot.get? "business_state" = reconciled.get? "business_state"

@[simp] theorem get?_object (members : List (String × Json)) (k : String) :
    (object members).get? k = Assoc.find? k members.reverse := by
  rw [object, get?_ofFields, SortedMap.get?_insertEach, SortedMap.get?_empty, Option.or_none]

theorem businessState_asStr_inj {b b' : BusinessState} : b.asStr = b'.asStr ↔ b = b' := by
  cases b <;> cases b' <;> simp [BusinessState.asStr]

theorem not_milestone (b : BusinessState) : b.asStr ≠ "probing_after_identity_milestone" := by
  cases b <;> simp [BusinessState.asStr]

def reportedPhase (snap : CycleSnapshot) (final commercial : Bool) : String :=
  if final || snap.cycleClosed then "identity_complete_cool"
  else if commercial then "probing_after_identity_milestone"
  else snap.businessState.asStr

section Surfaces

variable (cfg : Config) (now : ℕ) (s : Store) (session : String)

theorem get?_cycleProbeStatusSnapshot :
    let facts := serverCycleFacts cfg now s session
    let snap := deriveServerSnapshot facts
    let result := latestResult s session
    let final := brainScheduleFinal cfg facts snap result
    let answer := cycleProbeStatusSnapshot cfg now s session
    answer.get? "halt_uploads" = some (.bool (final || snap.cycleClosed)) ∧
      answer.get? "accepts_identity_ingest" = some (.bool (!(final || snap.cycleClosed))) ∧
      answer.get? "business_state" =
        some (.str (reportedPhase snap final (commercialFinal result))) := by
  intro facts snap result final answer
  have hreceived : ∀ k ∈ ["halt_uploads", "accepts_identity_ingest", "business_state"],
      Assoc.find? k (receivedMembers facts result).reverse = none := by
    simp [receivedMembers, Assoc.find?]
  have hcoverage : ∀ commercial linked,
      Assoc.find? "business_state" (coverageMembers facts commercial final linked).reverse =
        none := by
    simp [coverageMembers, Assoc.find?]
  have hlookup : ∀ k ∈ ["halt_uploads", "accepts_identity_ingest", "business_state"],
      answer.get? k =
        (Assoc.find? k (overrideMembers snap.cycleClosed final (commercialFinal result)).reverse).or
          ((Assoc.find? k (coverageMembers facts (commercialFinal result) final
              (deviceLinkBound result)).reverse).or
            (Assoc.find? k (snapshotMembers snap session).reverse)) := by
    intro k hk
    simp only [answer, cycleProbeStatusSnapshot, get?_object, List.reverse_append,
      Assoc.find?_append]
    rw [hreceived k hk, Option.none_or]
  rw [hlookup _ (by simp), hlookup _ (by simp), hlookup _ (by simp), hcoverage]
  cases hfinal : final || snap.cycleClosed with
  | true => simp [overrideMembers, reportedPhase, hfinal, Assoc.find?]
  | false =>
      cases commercialFinal result <;>
        simp [overrideMembers, reportedPhase, hfinal, snapshotMembers, Assoc.find?]

theorem get?_probeStatusReconcile (healed again : ℕ) :
    let snap := deriveServerSnapshot (serverCycleFacts cfg now s session)
    let answer := (probeStatusReconcile cfg now healed again s session (.obj [])).2
    answer.get? "halt_uploads" = some (.bool snap.haltUploads) ∧
      answer.pointer ["cycle_probe_status", "halt_uploads"] =
        some (.bool snap.haltUploads) ∧
      answer.pointer ["cycle_probe_status", "accepts_identity_ingest"] =
        some (.bool snap.acceptsIdentityIngest) ∧
      answer.get? "business_state" = some (.str snap.businessState.asStr) := by
  intro snap answer
  have hanswer : answer =
      object (reconcileMembers (reconcile (serverCycleFacts cfg now s session) none) session) := by
    simp [answer, probeStatusReconcile, clientViewOf, asObject, SortedMap.ofEntries,
      SortedMap.isEmpty, SortedMap.empty, reconcile]
  rw [hanswer]
  simp [reconcileMembers, reconcile, snapshotToJson, snapshotMembers, pointer, Assoc.find?,
    snap]

theorem surfacesAgree_iff_flags (healed again : ℕ) :
    let facts := serverCycleFacts cfg now s session
    let snap := deriveServerSnapshot facts
    let result := latestResult s session
    let final := brainScheduleFinal cfg facts snap result
    SurfacesAgree (cycleProbeStatusSnapshot cfg now s session)
        (probeStatusReconcile cfg now healed again s session (.obj [])).2 ↔
      (final || snap.cycleClosed) = snap.haltUploads ∧
        (!(final || snap.cycleClosed)) = snap.acceptsIdentityIngest ∧
        reportedPhase snap final (commercialFinal result) = snap.businessState.asStr := by
  intro facts snap result final
  obtain ⟨hhalt, haccepts, hphase⟩ := get?_cycleProbeStatusSnapshot cfg now s session
  obtain ⟨hhalt', hstatus', haccepts', hphase'⟩ :=
    get?_probeStatusReconcile cfg now s session healed again
  constructor
  · intro hagree
    refine ⟨?_, ?_, ?_⟩
    · simpa [hhalt, hhalt'] using hagree.halt
    · simpa [haccepts, haccepts'] using hagree.accepts
    · simpa [hphase, hphase'] using hagree.phase
  · rintro ⟨hflag, haccept, hstate⟩
    exact
      { halt := by rw [hhalt, hhalt']; simpa using hflag
        haltStatus := by rw [hhalt, hstatus']; simpa using hflag
        accepts := by rw [haccepts, haccepts']; simpa using haccept
        phase := by rw [hphase, hphase']; simpa using hstate }

end Surfaces

/-! ## Where they agree -/

def CompleteCycle (s : Store) (session : String) : Prop :=
  ∃ row, s.sessions.get? session = some row ∧ cycleStatus row.info = "complete"

def OpenCycle (cfg : Config) (now : ℕ) (s : Store) (session : String) : Prop :=
  ∃ row, s.sessions.get? session = some row ∧ cycleStatus row.info ≠ "complete" ∧
    cycleStatus row.info ≠ "purged" ∧ now - row.created ≤ cfg.incompleteMs

def TerminalAnalysis (s : Store) (session : String) : Prop :=
  ∃ r, latestResult s session = some r ∧ (flagAt r ["analysis_terminal"] = true ∨
    flagAt r ["route_plan", "stop_probe"] = true ∧
      flagAt r ["coverage", "coverage_complete"] = true)

def ReceivedB10 (s : Store) (session : String) : Prop :=
  ∃ b ∈ s.batches, b.session = session ∧ (b.batch = "B10_hw_curves" ∨ b.batch = "mid.curves")

/-- An open cycle that no analysis has finished in any sense. -/
structure StillProbing (cfg : Config) (now : ℕ) (s : Store) (session : String) : Prop where
  opened : OpenCycle cfg now s session
  uncompleted : closesCycle cfg s session = false
  noMilestone : commercialFinal (latestResult s session) = false
  nonTerminal : ¬ (TerminalAnalysis s session ∧ ReceivedB10 s session)

section Agreement

variable {cfg : Config} {now : ℕ} {s : Store} {session : String}

theorem primaryB10_serverCycleFacts :
    primaryB10 (serverCycleFacts cfg now s session) = true ↔ ReceivedB10 s session := by
  simp only [primaryB10, serverCycleFacts, receivedBatchIds, List.any_eq_true, List.mem_dedup,
    List.mem_insertionSort, List.mem_map, List.mem_filter, ReceivedB10]
  constructor
  · rintro ⟨id, ⟨b, ⟨hb, hsession⟩, rfl⟩, hid⟩
    exact ⟨b, hb, by simpa using hsession, by simpa using hid⟩
  · rintro ⟨b, hb, hsession, hid⟩
    exact ⟨b.batch, ⟨b, ⟨hb, by simpa using hsession⟩, rfl⟩, by simpa using hid⟩

theorem analysisTerminal_iff :
    (deriveServerSnapshot (serverCycleFacts cfg now s session)).analysisTerminal = true ↔
      TerminalAnalysis s session ∧ ReceivedB10 s session := by
  rw [← @primaryB10_serverCycleFacts cfg now]
  simp only [deriveServerSnapshot, Bool.and_eq_true, and_congr_left_iff]
  intro _
  cases hresult : latestResult s session with
  | none => simp [serverCycleFacts, hresult, TerminalAnalysis]
  | some r => simp [serverCycleFacts, hresult, TerminalAnalysis]

theorem snapshot_closed (hcomplete : ¬ CompleteCycle s session)
    (hopen : ¬ OpenCycle cfg now s session) :
    let snap := deriveServerSnapshot (serverCycleFacts cfg now s session)
    snap.cycleClosed = true ∧ snap.businessState ≠ .identityCompleteCool := by
  cases hrow : s.sessions.get? session with
  | none =>
      simp [deriveServerSnapshot, serverCycleFacts, sessionWindow, hrow, Except.toOption]
  | some row =>
      have hstatus : cycleStatus row.info ≠ "complete" := fun h => hcomplete ⟨row, hrow, h⟩
      by_cases hpurged : cycleStatus row.info = "purged"
      · simp [deriveServerSnapshot, serverCycleFacts, sessionWindow, hrow, Except.toOption,
          hpurged]
      · have hold : cfg.incompleteMs < now - row.created := by
          by_contra hage
          exact hopen ⟨row, hrow, hstatus, hpurged, not_lt.mp hage⟩
        by_cases hempty : cycleStatus row.info = "" <;>
          simp [deriveServerSnapshot, serverCycleFacts, sessionWindow, hrow, Except.toOption,
            hstatus, hpurged, hold, hempty]

theorem snapshot_complete (h : CompleteCycle s session) :
    let snap := deriveServerSnapshot (serverCycleFacts cfg now s session)
    snap.cycleClosed = true ∧ snap.businessState = .identityCompleteCool := by
  obtain ⟨row, hrow, hstatus⟩ := h
  simp [deriveServerSnapshot, serverCycleFacts, sessionWindow, hrow, Except.toOption, hstatus]

theorem snapshot_open (h : OpenCycle cfg now s session) :
    let snap := deriveServerSnapshot (serverCycleFacts cfg now s session)
    snap.cycleClosed = false ∧ snap.haltUploads = snap.analysisTerminal ∧
      snap.acceptsIdentityIngest = !snap.analysisTerminal ∧
      (snap.businessState = .identityCompleteCool → False) := by
  obtain ⟨row, hrow, hcomplete, hpurged, hage⟩ := h
  have hyoung : ¬ cfg.incompleteMs < now - row.created := not_lt.mpr hage
  by_cases hempty : cycleStatus row.info = "" <;>
    simp [deriveServerSnapshot, serverCycleFacts, sessionWindow, hrow, Except.toOption,
      hcomplete, hpurged, hyoung, hempty] <;> split_ifs <;> simp

theorem closed_flags {f : ServerCycleFacts} (h : (deriveServerSnapshot f).cycleClosed = true) :
    (deriveServerSnapshot f).haltUploads = true ∧
      (deriveServerSnapshot f).acceptsIdentityIngest = false := by
  simp only [deriveServerSnapshot] at h ⊢
  simp [h]

end Agreement

/-- For every stored cycle and clock reading. -/
theorem surfaces_agree_iff (cfg : Config) (now healed again : ℕ) (s : Store) (session : String) :
    SurfacesAgree (cycleProbeStatusSnapshot cfg now s session)
        (probeStatusReconcile cfg now healed again s session (.obj [])).2 ↔
      CompleteCycle s session ∨ StillProbing cfg now s session := by
  refine (surfacesAgree_iff_flags cfg now s session healed again).trans ?_
  by_cases hcomplete : CompleteCycle s session
  · obtain ⟨hclosed, hstate⟩ := @snapshot_complete cfg now _ _ hcomplete
    obtain ⟨hhalt, haccepts⟩ := closed_flags hclosed
    simp [hcomplete, hclosed, hhalt, haccepts, hstate, reportedPhase, BusinessState.asStr]
  · by_cases hopen : OpenCycle cfg now s session
    · obtain ⟨hclosed, hhalt, haccepts, hcool⟩ := snapshot_open hopen
      have hterminal := @analysisTerminal_iff cfg now s session
      set snap := deriveServerSnapshot (serverCycleFacts cfg now s session) with hsnap
      have hfinal : brainScheduleFinal cfg (serverCycleFacts cfg now s session) snap
          (latestResult s session) = closesCycle cfg s session := by
        cases hlatest : latestAnalysis s session <;>
          simp [brainScheduleFinal, hclosed, closesCycle, latestResult, hlatest]
      rw [hfinal, hhalt, haccepts, hclosed, Bool.or_false]
      constructor
      · rintro ⟨hflag, -, hphase⟩
        have hnot : snap.analysisTerminal = false := by
          by_contra hterm
          -- a terminal analysis that completes the cycle is reported as cool
          simp only [Bool.not_eq_false] at hterm
          rw [hterm] at hflag
          simp only [reportedPhase, hflag, Bool.true_or, if_true] at hphase
          exact hcool (businessState_asStr_inj.mp hphase.symm)
        rw [hnot] at hflag
        refine Or.inr ⟨hopen, hflag, ?_, ?_⟩
        · by_contra hmilestone
          simp only [Bool.not_eq_false] at hmilestone
          simp only [reportedPhase, hflag, hclosed, hmilestone, Bool.or_false,
            Bool.false_eq_true, if_false, if_true] at hphase
          exact not_milestone _ hphase.symm
        · rw [← hterminal, hnot]
          simp
      · rintro (hcompleted | ⟨-, huncompleted, hmilestone, hnonterminal⟩)
        · exact absurd hcompleted hcomplete
        · have hnot : snap.analysisTerminal = false := by
            rw [← hterminal] at hnonterminal
            simpa using hnonterminal
          simp [huncompleted, hnot, hmilestone, reportedPhase, hclosed]
    · obtain ⟨hclosed, hstate⟩ := snapshot_closed hcomplete hopen
      constructor
      · rintro ⟨-, -, hphase⟩
        simp only [reportedPhase, hclosed, Bool.or_true, if_true] at hphase
        exact absurd (businessState_asStr_inj.mp hphase.symm) hstate
      · rintro (hcompleted | hprobing)
        · exact absurd hcompleted hcomplete
        · exact absurd hprobing.opened hopen

def liveRow : SessionRow := ⟨"v1", 0, SortedMap.empty⟩

def terminalStore : Store :=
  { Store.empty with
    sessions := SortedMap.empty.insert "c1" liveRow
    batches := [⟨"c1", "B10_hw_curves", "main"⟩]
    analyses := [⟨"c1", 1, 0, none, SortedMap.empty.insert "analysis_terminal" (.bool true)⟩] }

def plainConfig : Config := ⟨"1", fun _ => 0, 1000, true, 10⟩

/-- One endpoint lets the client upload, the other one halts it. -/
theorem terminal_without_silicon_disagrees :
    (cycleProbeStatusSnapshot plainConfig 5 terminalStore "c1").get? "halt_uploads" =
        some (.bool false) ∧
      (probeStatusReconcile plainConfig 5 5 5 terminalStore "c1" (.obj [])).2.get?
          "halt_uploads" = some (.bool true) ∧
      ¬ SurfacesAgree (cycleProbeStatusSnapshot plainConfig 5 terminalStore "c1")
          (probeStatusReconcile plainConfig 5 5 5 terminalStore "c1" (.obj [])).2 := by
  have hsnapshot : (cycleProbeStatusSnapshot plainConfig 5 terminalStore "c1").get?
      "halt_uploads" = some (.bool false) := by decide
  have hreconciled : (probeStatusReconcile plainConfig 5 5 5 terminalStore "c1" (.obj [])).2.get?
      "halt_uploads" = some (.bool true) := by decide
  refine ⟨hsnapshot, hreconciled, ?_⟩
  intro hagree
  have hhalt := hagree.halt
  rw [hsnapshot, hreconciled] at hhalt
  simp at hhalt

end ProbeStatus

end GrServer
