import GrServer.AnalyzeJobs
import GrServer.Json
import GrServer.Text

/-!
# Arming the analysis after an upload

The upsert of a batch arms the job of its session, and the handler arms it once
more by the policy of the schedule.  An ingest reads the clock in the upsert and
again in the handler.  Whether the batches received so far complete the coverage
is a parameter.  Sums of clock readings are those of the integers: the source
saturates them at a due that no clock reaches.
-/

namespace GrServer

open AnalyzeJobs Json Text

namespace AnalyzeSchedule

/-! ## The policy -/

def analyzeIdleUploadMs : ℤ := 20_000

def analyzeNoResultMs : ℤ := 90_000

def setAnalyzeIdleUploadMs (ms : ℤ) : ℤ := max ms 5_000

def analyzeIdleUploadMsRt (override : ℤ) : ℤ :=
  if 5_000 ≤ override then override else analyzeIdleUploadMs

inductive AnalyzeDueReason where
  | notDue
  | coverageComplete
  | idleNoUpload
  | noResultTimeout
  | preColdDemote
  | explicitRequest
  | batchRearm

def AnalyzeDueReason.shouldRun : AnalyzeDueReason → Bool
  | notDue | batchRearm => false
  | _ => true

def analyzeDueNow (override now lastUpload firstUpload : ℤ) (lastAnalyzeOk : Option ℤ)
    (coverageComplete cycleActive preCold explicit : Bool) : AnalyzeDueReason :=
  if explicit then .explicitRequest
  else if !cycleActive then .notDue
  else if preCold then .preColdDemote
  else if coverageComplete then .coverageComplete
  else if lastAnalyzeOk = none ∧ 0 < firstUpload ∧ analyzeNoResultMs ≤ now - firstUpload then
    .noResultTimeout
  else if 0 < lastUpload ∧ analyzeIdleUploadMsRt override ≤ now - lastUpload then .idleNoUpload
  else .notDue

def analyzeArmDueMsAfterIngest (override now firstUpload : ℤ) (lastAnalyzeOk : Option ℤ)
    (coverageComplete : Bool) : ℤ :=
  if coverageComplete then now
  else
    let idleDue := now + analyzeIdleUploadMsRt override
    if lastAnalyzeOk = none ∧ 0 < firstUpload then min idleDue (firstUpload + analyzeNoResultMs)
    else idleDue

def analyzeArmDebounceMsAfterIngest (override now firstUpload : ℤ) (lastAnalyzeOk : Option ℤ)
    (coverageComplete : Bool) : ℤ :=
  max (analyzeArmDueMsAfterIngest override now firstUpload lastAnalyzeOk coverageComplete - now) 0

/-! ## An ingest -/

structure ReceivedBatch where
  batchId : String
  source : String
  createdMs : ℤ

structure PolicyEnv where
  override : ℤ
  coverageComplete : List ReceivedBatch → Bool

structure Ingest where
  batchId : String
  source : String
  /-- The stored row differs from what is uploaded. -/
  changed : Bool
  uploadMs : ℤ
  nowMs : ℤ
  latestAnalysis : Option Json
  sessionOpenedMs : Option ℤ

def upsertReceived (received : List ReceivedBatch) (e : Ingest) : List ReceivedBatch :=
  if received.any fun b => b.batchId = e.batchId ∧ b.source = e.source then
    received.map fun b =>
      if (b.batchId = e.batchId ∧ b.source = e.source) ∧ e.changed then
        { b with createdMs := min b.createdMs e.uploadMs }
      else b
  else received ++ [⟨e.batchId, e.source, e.uploadMs⟩]

def isGatewayBatch (id : String) : Bool :=
  id = "B8_gateway" || id = "B8_gateway_early"

def b8OnlySkip (received : List ReceivedBatch) (e : Ingest) : Bool :=
  isGatewayBatch e.batchId && ¬ received.any fun b =>
    ¬ isGatewayBatch b.batchId && ¬ startsWith b.batchId "ops." && ¬ startsWith b.batchId "B_ops"

def softNonIdentityBatch (id : String) : Bool :=
  ["B11_interaction", "B28_permissions_media", "B29_sensors_battery",
    "B16_fast_signals"].contains id || startsWith id "B_ops" || startsWith id "ops."

def firstUploadMs (received : List ReceivedBatch) (e : Ingest) : ℤ :=
  ((received.map ReceivedBatch.createdMs).min?.or e.sessionOpenedMs).getD e.nowMs

def lastAnalyzeOk (e : Ingest) : Option ℤ :=
  e.latestAnalysis.bind fun a =>
    ((a.get? "created_ms").bind asI64).or ((a.get? "updated_ms").bind asI64)

def brainAnalyzeArm (env : PolicyEnv) (upsertOk isRobot explicitAnalyze : Bool)
    (received : List ReceivedBatch) (e : Ingest) : Option (ℤ × AnalyzeDueMerge) :=
  if !upsertOk then none
  else if isRobot then none
  else if b8OnlySkip received e && !explicitAnalyze then none
  else if softNonIdentityBatch e.batchId && !explicitAnalyze then
    if e.latestAnalysis.isSome then none else some (analyzeIdleUploadMs, .idleReset)
  else if explicitAnalyze then some (0, .replace)
  else
    let coverage := env.coverageComplete received
    let debounce := analyzeArmDebounceMsAfterIngest env.override e.nowMs (firstUploadMs received e)
      (lastAnalyzeOk e) coverage
    let merge : AnalyzeDueMerge :=
      if coverage then .pullEarlier
      else if debounce < analyzeIdleUploadMs then .pullEarlier
      else .idleReset
    some (debounce, merge)

def scheduled (due : Option ℤ) (now debounce : ℤ) (merge : AnalyzeDueMerge) : ℤ :=
  mergedDue merge due now (now + max debounce 0)

/-- The session: its pending due and its batches.  The other fields record the
run: when the first and the last upload came, the last clock reading, what was
known then, and whether the handler has yet armed for complete coverage. -/
structure ArmState where
  due : Option ℤ
  received : List ReceivedBatch
  firstUpload : Option ℤ
  lastUpload : ℤ
  clock : ℤ
  analyzedMs : Option ℤ
  coverage : Bool
  pulled : Bool

def ArmState.init : ArmState where
  due := none
  received := []
  firstUpload := none
  lastUpload := 0
  clock := 0
  analyzedMs := none
  coverage := false
  pulled := false

def readsCoverage (received : List ReceivedBatch) (e : Ingest) : Bool :=
  ¬ b8OnlySkip received e && ¬ softNonIdentityBatch e.batchId

/-- A non-robot ingest without an explicit request. -/
def step (env : PolicyEnv) (s : ArmState) (e : Ingest) : ArmState :=
  let received := upsertReceived s.received e
  let armed := scheduled s.due e.uploadMs analyzeDebounceMs .pullEarlier
  let due :=
    match brainAnalyzeArm env true false false received e with
    | some (debounce, merge) => scheduled (some armed) e.nowMs debounce merge
    | none => armed
  { due := some due
    received := received
    firstUpload := some (s.firstUpload.getD e.uploadMs)
    lastUpload := e.uploadMs
    clock := e.nowMs
    analyzedMs := lastAnalyzeOk e
    coverage := env.coverageComplete received
    pulled := s.pulled || (readsCoverage received e && env.coverageComplete received) }

def ClockForward (s : ArmState) (e : Ingest) : Prop :=
  (s.firstUpload.isSome → s.clock ≤ e.uploadMs) ∧ e.uploadMs ≤ e.nowMs

end AnalyzeSchedule

end GrServer
