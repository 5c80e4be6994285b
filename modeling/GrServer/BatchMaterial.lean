import GrServer.BatchStore

/-!
# Material bookkeeping over interleaved deliveries

Two statements of one transaction decide separately whether they write: the
batch row is rewritten under a guard, the cold row unless the delivery skips it.
What the delivery was decided on may be gone by then: another one may have
committed since its pre-read.

`overtook` is not in the source: the highest generation that other deliveries
have committed since the pre-read of a delivery, or that a failed pre-read did
not see.
-/

namespace GrServer

open Json

namespace BatchStore

/-! ## Deliveries in flight -/

inductive Phase where
  | idle
  | received (d : Delivery) (final : Json)
  | decided (d : Delivery) (final : Json) (wasInsert : Bool)
  | done (result : Option Json)

structure State (ι : Type*) where
  tables : Tables
  phase : ι → Phase
  overtook : ι → ℤ

def State.init {ι : Type*} : State ι where
  tables := { batch := none, cold := none }
  phase := fun _ => .idle
  overtook := fun _ => 0

inductive TxOutcome where
  | committed
  | batchFailed
  | coldFailed (error : String)
  | scheduleFailed (error : String)
  | commitFailed

inductive Event (ι : Type*) where
  | receive (i : ι) (d : Delivery) (coldReadOk copyReadOk : Bool)
  | preRead (i : ι) (ts : ℤ) (sessionKnown readOk : Bool)
  | transact (i : ι) (env : TxEnv) (outcome : TxOutcome)

def Event.target {ι : Type*} : Event ι → ι
  | .receive i _ _ _ => i
  | .preRead i _ _ _ => i
  | .transact i _ _ => i

/-- The payload to be stored: a dual-fired gateway batch is merged into what
the reads found. -/
def mergeRead (key : BatchKey) (t : Tables) (coldReadOk copyReadOk : Bool)
    (payload : Json) : Json :=
  if key.batchId = "B8_gateway" ∧ key.source = "gateway" then
    let cold := if coldReadOk then t.cold.map ColdRow.payload else none
    let copy := if copyReadOk then t.batch.bind BatchRow.payloadJson else none
    match cold.or copy with
    | some prev => mergeB8Payload prev payload
    | none => payload
  else payload

def excludedBatchRow (d : Delivery) (final : Json) (env : TxEnv) : BatchRow where
  payloadJson := if env.payloadCopyEnabled then some final else none
  createdMs := env.ts
  clientIp := ipOf d final
  material := materialOf final

def excludedColdRow (d : Delivery) (final : Json) (env : TxEnv) : ColdRow where
  visitorTerminalId := env.visitorTerminalId
  clientIp := ipOf d final
  payload := final
  createdMs := env.ts

def commitTables (t : Tables) (d : Delivery) (final : Json) (env : TxEnv) :
    Tables where
  batch := some (upsertBatchRow t.batch (excludedBatchRow d final env))
  cold :=
    if d.skipCold then t.cold
    else some (upsertColdRow t.cold (excludedColdRow d final env)).1

section Steps

variable {ι : Type*} [DecidableEq ι]

def State.setPhase (s : State ι) (i : ι) (phase : Phase) : State ι :=
  { s with phase := Function.update s.phase i phase }

def State.receive (key : BatchKey) (s : State ι) (i : ι) (d : Delivery)
    (coldReadOk copyReadOk : Bool) : State ι :=
  match s.phase i with
  | .idle =>
      s.setPhase i
        (.received d (mergeRead key s.tables coldReadOk copyReadOk d.payload))
  | _ => s

/-- A failed query reads as an absent row. -/
def preReadPhase (key : BatchKey) (t : Tables) (d : Delivery) (final : Json)
    (ts : ℤ) (sessionKnown readOk : Bool) : Phase :=
  if ¬ sessionKnown then .done none
  else
    match decideMaterial (if readOk then t.batch else none) final with
    | .stale prevGen => .done (some (staleAck key d final ts prevGen))
    | .duplicate prevGen => .done (some (duplicateAck key d final ts prevGen))
    | .write wasInsert => .decided d final wasInsert

def hiddenGeneration (t : Tables) (readOk : Bool) : ℤ :=
  if readOk then 0 else (t.batch.map fun row => row.material.generation).getD 0

def State.preRead (key : BatchKey) (s : State ι) (i : ι) (ts : ℤ)
    (sessionKnown readOk : Bool) : State ι :=
  match s.phase i with
  | .received d final =>
      { s.setPhase i (preReadPhase key s.tables d final ts sessionKnown readOk) with
        overtook := Function.update s.overtook i (hiddenGeneration s.tables readOk) }
  | _ => s

/-- The tables and the result; a delivery that skips the cold row cannot fail
where the cold row is written or the job armed. -/
def runTransaction (key : BatchKey) (t : Tables) (d : Delivery) (final : Json)
    (wasInsert : Bool) (env : TxEnv) : TxOutcome → Tables × Option Json
  | .committed =>
      (commitTables t d final env,
        some (storedAck key d final wasInsert env
          (upsertColdRow t.cold (excludedColdRow d final env)).2))
  | .batchFailed | .commitFailed => (t, none)
  | .coldFailed error =>
      (t, if d.skipCold then none
        else some (coldFailedAck key d final wasInsert env error))
  | .scheduleFailed error =>
      (t, if d.skipCold then none else some (scheduleFailedAck key error))

def overtaken (overtook : ι → ℤ) (final : Json) : TxOutcome → ι → ℤ
  | .committed => fun j => max (overtook j) (clientGeneration final)
  | _ => overtook

def State.transact (key : BatchKey) (s : State ι) (i : ι) (env : TxEnv)
    (outcome : TxOutcome) : State ι :=
  match s.phase i with
  | .decided d final wasInsert =>
      let (tables, result) :=
        runTransaction key s.tables d final wasInsert env outcome
      { s.setPhase i (.done result) with
        tables := tables
        overtook := overtaken s.overtook final outcome }
  | _ => s

def step (key : BatchKey) (s : State ι) : Event ι → State ι
  | .receive i d coldReadOk copyReadOk => s.receive key i d coldReadOk copyReadOk
  | .preRead i ts sessionKnown readOk => s.preRead key i ts sessionKnown readOk
  | .transact i env outcome => s.transact key i env outcome

/-! ## The laws -/

/-- The columns are the material of the payload, if one is stored. -/
def Describes (t : Tables) : Prop :=
  ∀ cold, t.cold = some cold →
    ∃ row, t.batch = some row ∧ row.material = materialOf cold.payload

def GenerationKept (t t' : Tables) : Prop :=
  ∀ row, t.batch = some row →
    ∃ row', t'.batch = some row' ∧
      row.material.generation ≤ row'.material.generation

def Covers (stored own final : Json) : Prop :=
  stored = final ∨
    (clientCapture own ≠ "" ∧ clientCapture stored = clientCapture own) ∨
    (clientPayloadHash own ≠ "" ∧
      clientPayloadHash stored = clientPayloadHash own)

def AckedDuplicate (ack : Json) : Prop :=
  (∃ payload, ackType ack payload = "duplicate") ∨
    ack.strOr "durability_state" = "duplicate_durable"

def Phase.inFlight : Phase → Option (Delivery × Json)
  | .received d final => some (d, final)
  | .decided d final _ => some (d, final)
  | _ => none

def DuplicateCovered (key : BatchKey) (s : State ι) (e : Event ι) : Prop :=
  ∀ i d final ack, (s.phase i).inFlight = some (d, final) →
    (step key s e).phase i = .done (some ack) → AckedDuplicate ack →
    ∃ cold, (step key s e).tables.cold = some cold ∧
      Covers cold.payload d.payload final

def RefusedUntouched (key : BatchKey) (s : State ι) (e : Event ι) : Prop :=
  (∀ i result, s.phase i = .done result →
    (step key s e).phase i = .done result) ∧
  ((step key s e).tables ≠ s.tables →
    ∃ ack, (step key s e).phase e.target = .done (some ack) ∧
      ack.boolOr "ok" = true ∧ ack.boolOr "conflict" = false)

def StoredOwn (t : Tables) (d : Delivery) (final : Json) : Prop :=
  ∃ row cold, t.batch = some row ∧ t.cold = some cold ∧
    (columnsMatch row d.payload = true ∨ cold.payload = final)

/-- What a delivery finds when it commits. -/
structure Fits (s : State ι) (i : ι) (d : Delivery) (final : Json) (env : TxEnv) : Prop where
  /-- Where it rewrites the row, no higher generation has overtaken it. -/
  inOrder : ∀ row, s.tables.batch = some row →
    upsertGuard row (excludedBatchRow d final env) = true →
      s.overtook i ≤ clientGeneration final
  /-- Where it writes the payload and the row stays, it has the row's material. -/
  rewritten : d.skipCold = false → ∀ row, s.tables.batch = some row →
    upsertGuard row (excludedBatchRow d final env) = false →
      row.material = materialOf final
  /-- Where it rewrites the row and the payload stays, it has its material. -/
  skipped : d.skipCold = true → ∀ row cold, s.tables.batch = some row →
    s.tables.cold = some cold →
    upsertGuard row (excludedBatchRow d final env) = true →
      materialOf final = materialOf cold.payload
  /-- A delivery that skips the cold row is acknowledged as a duplicate, unless
  it is a merged one. -/
  acknowledged : d.skipCold = true →
    final.boolOr "merged" = true ∨ StoredOwn s.tables d final

/-- A pre-read finds the delivery's own capture where it finds one, and what
commits fits. -/
def Bookkept (s : State ι) : Event ι → Prop
  | .receive _ _ _ _ => True
  | .preRead i _ sessionKnown readOk => sessionKnown = true → readOk = true →
      ∀ d final row, s.phase i = .received d final → s.tables.batch = some row →
        sameCapture row final = true → StoredOwn s.tables d final
  | .transact i env .committed => ∀ d final wasInsert,
      s.phase i = .decided d final wasInsert → Fits s i d final env
  | .transact _ _ _ => True

theorem not_ackedDuplicate {ack : Json} (hok : ack.boolOr "ok" = false)
    (hstate : ack.strOr "durability_state" ≠ "duplicate_durable") :
    ¬ AckedDuplicate ack := by
  rintro (⟨payload, htype⟩ | hdup)
  · unfold ackType at htype
    by_cases hconflict : ack.boolOr "conflict" = true
    · rw [if_pos hconflict] at htype
      exact absurd htype (by decide)
    · rw [if_neg hconflict, if_pos (Or.inl (by rw [hok]; decide))] at htype
      exact absurd htype (by decide)
  · exact hstate hdup

theorem staleAck_refuses (key : BatchKey) (d : Delivery) (final : Json)
    (ts prevGen : ℤ) : ¬ AckedDuplicate (staleAck key d final ts prevGen) := by
  apply not_ackedDuplicate
  · rfl
  · have hstate : (staleAck key d final ts prevGen).strOr "durability_state" =
        "rejected" := rfl
    rw [hstate]
    decide

theorem storedAck_ok (key : BatchKey) (d : Delivery) (final : Json)
    (wasInsert : Bool) (env : TxEnv) (coldWrote : Bool) :
    (storedAck key d final wasInsert env coldWrote).boolOr "ok" = true ∧
      (storedAck key d final wasInsert env coldWrote).boolOr "conflict" =
        false := by
  unfold storedAck boolOr
  cases d.skipCold with
  | false => exact ⟨rfl, rfl⟩
  | true => exact ⟨rfl, rfl⟩

theorem runTransaction_cases (key : BatchKey) (t : Tables) (d : Delivery)
    (final : Json) (wasInsert : Bool) (env : TxEnv) (outcome : TxOutcome) :
    outcome = .committed ∨
      ((runTransaction key t d final wasInsert env outcome).1 = t ∧
        ∀ ack, (runTransaction key t d final wasInsert env outcome).2 = some ack →
          ¬ AckedDuplicate ack) := by
  -- A failure is answered unless the delivery skips the cold row.
  have hfailed (failed : Json) (hok : failed.boolOr "ok" = false)
      (hstate : failed.strOr "durability_state" = "failed") :
      ∀ ack, (if d.skipCold then none else some failed) = some ack → ¬ AckedDuplicate ack := by
    intro ack hack
    split_ifs at hack
    rw [Option.some.injEq] at hack
    rw [← hack]
    apply not_ackedDuplicate hok
    rw [hstate]
    decide
  cases outcome with
  | committed => exact Or.inl rfl
  | batchFailed =>
      right
      refine ⟨rfl, ?_⟩
      intro ack hack
      cases hack
  | commitFailed =>
      right
      refine ⟨rfl, ?_⟩
      intro ack hack
      cases hack
  | coldFailed error => exact Or.inr ⟨rfl, hfailed _ rfl rfl⟩
  | scheduleFailed error => exact Or.inr ⟨rfl, hfailed _ rfl rfl⟩

theorem duplicateAck_acks (key : BatchKey) (d : Delivery) (final : Json)
    (ts prevGen : ℤ) : AckedDuplicate (duplicateAck key d final ts prevGen) :=
  Or.inr rfl

theorem storedAck_skip_iff {key : BatchKey} {d : Delivery} {final : Json}
    {wasInsert : Bool} {env : TxEnv} {coldWrote : Bool} (hskip : d.skipCold = true) :
    AckedDuplicate (storedAck key d final wasInsert env coldWrote) ↔
      final.boolOr "merged" = false := by
  have hstate : (storedAck key d final wasInsert env coldWrote).strOr
      "durability_state" = "stored_durable" := by
    unfold storedAck
    rw [hskip]
    rfl
  have hmerged : (storedAck key d final wasInsert env coldWrote).boolOr "merged" =
      final.boolOr "merged" := by
    have hflag : (storedAck key d final wasInsert env coldWrote).get? "merged" =
        some (mergedFlag final) := by
      unfold storedAck
      rw [hskip]
      rfl
    unfold boolOr
    rw [hflag]
    unfold mergedFlag
    cases final.get? "merged" <;> rfl
  have hskipped : (storedAck key d final wasInsert env coldWrote).boolOr
      "cold_skipped_unchanged" = true := by
    unfold storedAck
    rw [hskip]
    rfl
  obtain ⟨hok, hconflict⟩ := storedAck_ok key d final wasInsert env coldWrote
  constructor
  · rintro (⟨payload, htype⟩ | hdup)
    · unfold ackType at htype
      rw [hconflict, hok, hstate, hmerged] at htype
      by_contra hflag
      rw [Bool.not_eq_false] at hflag
      rw [hflag] at htype
      simp at htype
    · rw [hstate] at hdup
      exact absurd hdup (by decide)
  · intro hflag
    left
    refine ⟨.null, ?_⟩
    unfold ackType
    rw [hconflict, hok, hstate, hmerged, hflag, hskipped]
    rfl

/-! ## The transaction -/

theorem upsertColdRow_payload (stored : Option ColdRow) (excluded : ColdRow) :
    (upsertColdRow stored excluded).1.payload = excluded.payload := by
  unfold upsertColdRow
  cases stored with
  | none => rfl
  | some row =>
      dsimp only
      split_ifs with hchanged
      · rfl
      · rw [not_or, not_not] at hchanged
        exact hchanged.1

theorem upsertBatchRow_material (row excluded : BatchRow) :
    (upsertBatchRow (some row) excluded).material =
      if upsertGuard row excluded then excluded.material else row.material := by
  unfold upsertBatchRow
  dsimp only
  split_ifs <;> rfl

section Commit

variable {t : Tables} {d : Delivery} {final : Json} {env : TxEnv}

theorem commitTables_cold_of_write (hskip : d.skipCold = false) :
    ∃ cold, (commitTables t d final env).cold = some cold ∧ cold.payload = final := by
  unfold commitTables
  rw [hskip]
  exact ⟨_, rfl, upsertColdRow_payload t.cold (excludedColdRow d final env)⟩

theorem commitTables_cold_of_skip (hskip : d.skipCold = true) :
    (commitTables t d final env).cold = t.cold := by
  unfold commitTables
  rw [hskip]
  rfl

theorem describes_commit_iff (h : Describes t) :
    Describes (commitTables t d final env) ↔
      (d.skipCold = false → ∀ row, t.batch = some row →
          upsertGuard row (excludedBatchRow d final env) = false →
            row.material = materialOf final) ∧
        (d.skipCold = true → ∀ row cold, t.batch = some row → t.cold = some cold →
          upsertGuard row (excludedBatchRow d final env) = true →
            materialOf final = materialOf cold.payload) := by
  have hbatch : (commitTables t d final env).batch =
      some (upsertBatchRow t.batch (excludedBatchRow d final env)) := rfl
  cases hskip : d.skipCold with
  | false =>
      have hwritten : ∃ cold, (commitTables t d final env).cold = some cold ∧
          cold.payload = final := commitTables_cold_of_write hskip
      obtain ⟨cold, hcold, hpayload⟩ := hwritten
      have hone : Describes (commitTables t d final env) ↔
          (upsertBatchRow t.batch (excludedBatchRow d final env)).material =
            materialOf final := by
        unfold Describes
        rw [hbatch, hcold]
        simp [hpayload]
      rw [hone]
      simp only [forall_const, Bool.false_eq_true, false_implies, and_true]
      cases hrow : t.batch with
      | none =>
          refine iff_of_true rfl ?_
          intro row hnone
          cases hnone
      | some row =>
          rw [upsertBatchRow_material]
          cases hguard : upsertGuard row (excludedBatchRow d final env) with
          | true =>
              refine iff_of_true rfl ?_
              intro row' hrow' hsilent
              cases hrow'
              rw [hguard] at hsilent
              cases hsilent
          | false =>
              simp [hguard]
  | true =>
      have hcold : (commitTables t d final env).cold = t.cold := commitTables_cold_of_skip hskip
      simp only [Bool.true_eq_false, false_implies, forall_const, true_and]
      constructor
      · intro hdescribes row cold hrow hstored hguard
        rw [← hcold] at hstored
        obtain ⟨row', hrow', hmaterial⟩ := hdescribes cold hstored
        rw [hbatch, Option.some.injEq, hrow] at hrow'
        rw [← hrow', upsertBatchRow_material, if_pos hguard] at hmaterial
        exact hmaterial
      · intro hsame cold hstored
        rw [hcold] at hstored
        obtain ⟨row, hrow, hmaterial⟩ := h cold hstored
        refine ⟨_, hbatch, ?_⟩
        rw [hrow, upsertBatchRow_material]
        split_ifs with hguard
        · exact hsame row cold hrow hstored hguard
        · exact hmaterial

theorem generationKept_commit_iff :
    GenerationKept t (commitTables t d final env) ↔
      ∀ row, t.batch = some row → upsertGuard row (excludedBatchRow d final env) = true →
        row.material.generation ≤ clientGeneration final := by
  have hbatch : (commitTables t d final env).batch =
      some (upsertBatchRow t.batch (excludedBatchRow d final env)) := rfl
  constructor
  · intro hkept row hrow hguard
    obtain ⟨row', hrow', hle⟩ := hkept row hrow
    rw [hbatch, Option.some.injEq, hrow] at hrow'
    rw [← hrow', upsertBatchRow_material, if_pos hguard] at hle
    exact hle
  · intro hle row hrow
    refine ⟨_, hbatch, ?_⟩
    rw [hrow, upsertBatchRow_material]
    split_ifs with hguard
    · exact hle row hrow hguard
    · exact le_rfl

theorem clientGeneration_le_commit {row : BatchRow}
    (hrow : (commitTables t d final env).batch = some row) :
    clientGeneration final ≤ row.material.generation := by
  have hbatch : (commitTables t d final env).batch =
      some (upsertBatchRow t.batch (excludedBatchRow d final env)) := rfl
  rw [hbatch, Option.some.injEq] at hrow
  rw [← hrow]
  cases t.batch with
  | none => exact le_rfl
  | some row =>
      rw [upsertBatchRow_material]
      split_ifs with hguard
      · exact le_rfl
      · unfold upsertGuard at hguard
        simp only [Bool.or_eq_true, decide_eq_true_eq, not_or, not_lt] at hguard
        exact hguard.2

theorem commit_generation_le {row : BatchRow} {bound : ℤ}
    (hrow : (commitTables t d final env).batch = some row)
    (hclient : clientGeneration final ≤ bound)
    (hold : ∀ row, t.batch = some row → row.material.generation ≤ bound) :
    row.material.generation ≤ bound := by
  have hbatch : (commitTables t d final env).batch =
      some (upsertBatchRow t.batch (excludedBatchRow d final env)) := rfl
  rw [hbatch, Option.some.injEq] at hrow
  rw [← hrow]
  cases hstored : t.batch with
  | none => exact hclient
  | some row =>
      rw [upsertBatchRow_material]
      split_ifs
      · exact hclient
      · exact hold row hstored

end Commit

theorem getD_nonEmpty (s : String) : (nonEmpty s).getD "" = s := by
  unfold nonEmpty
  split_ifs with hs
  · exact hs.symm
  · rfl

theorem columnsMatch_iff {row : BatchRow} {stored own : Json}
    (hrow : row.material = materialOf stored) :
    columnsMatch row own = true ↔
      (clientCapture own ≠ "" ∧ clientCapture stored = clientCapture own) ∨
        (clientPayloadHash own ≠ "" ∧
          clientPayloadHash stored = clientPayloadHash own) := by
  unfold columnsMatch
  rw [hrow]
  unfold materialOf
  simp only [getD_nonEmpty, ne_eq, Bool.or_eq_true, Bool.and_eq_true,
    decide_eq_true_eq]

theorem storedOwn_iff {t : Tables} (h : Describes t) (d : Delivery) (final : Json) :
    StoredOwn t d final ↔ ∃ cold, t.cold = some cold ∧ Covers cold.payload d.payload final := by
  unfold StoredOwn Covers
  constructor
  · rintro ⟨row, cold, hrow, hcold, hown⟩
    obtain ⟨row', hrow', hmaterial⟩ := h cold hcold
    rw [hrow, Option.some.injEq] at hrow'
    rw [← hrow'] at hmaterial
    refine ⟨cold, hcold, ?_⟩
    rcases hown with hcolumns | hsame
    · exact Or.inr ((columnsMatch_iff hmaterial).mp hcolumns)
    · exact Or.inl hsame
  · rintro ⟨cold, hcold, hcovers⟩
    obtain ⟨row, hrow, hmaterial⟩ := h cold hcold
    refine ⟨row, cold, hrow, hcold, ?_⟩
    rcases hcovers with hsame | hcapture
    · exact Or.inr hsame
    · exact Or.inl ((columnsMatch_iff hmaterial).mpr hcapture)

theorem decideMaterial_duplicate_iff {row : Option BatchRow} {final : Json} {prevGen : ℤ} :
    decideMaterial row final = .duplicate prevGen ↔
      ∃ stored, row = some stored ∧ sameCapture stored final = true ∧
        stored.material.generation = prevGen := by
  unfold decideMaterial
  cases row with
  | none => simp
  | some stored =>
      dsimp only
      cases hsame : sameCapture stored final with
      | true => simp [hsame]
      | false =>
          simp only [Bool.false_eq_true, not_false_eq_true, true_and, if_false]
          constructor
          · intro h
            split_ifs at h
          · rintro ⟨stored', hrow, hsame', -⟩
            cases hrow
            rw [hsame] at hsame'
            cases hsame'

theorem generation_le_of_write {row : BatchRow} {final : Json} {wasInsert : Bool}
    (h : decideMaterial (some row) final = .write wasInsert) :
    row.material.generation ≤ clientGeneration final := by
  have hpos : 1 ≤ clientGeneration final := le_max_right _ _
  unfold decideMaterial at h
  dsimp only at h
  split_ifs at h with hstale hsame
  by_contra hlt
  exact hstale ⟨hsame, by omega, by omega⟩

/-! ## One step -/

section OneStep

variable {key : BatchKey} {s : State ι}

theorem phase_setPhase_of_ne {i j : ι} (hne : j ≠ i) (phase : Phase) :
    (s.setPhase i phase).phase j = s.phase j := by
  unfold State.setPhase
  exact Function.update_of_ne hne _ _

theorem phase_setPhase_self (i : ι) (phase : Phase) :
    (s.setPhase i phase).phase i = phase := by
  unfold State.setPhase
  exact Function.update_self _ _ _

theorem tables_step (key : BatchKey) (s : State ι) (e : Event ι) :
    (step key s e).tables = s.tables ∨
      ∃ i env d final wasInsert, e = .transact i env .committed ∧
        s.phase i = .decided d final wasInsert ∧
        (step key s e).tables = commitTables s.tables d final env ∧
        (step key s e).phase i = .done (some (storedAck key d final wasInsert env
          (upsertColdRow s.tables.cold (excludedColdRow d final env)).2)) := by
  cases e with
  | receive i d coldReadOk copyReadOk =>
      left
      change (s.receive key i d coldReadOk copyReadOk).tables = s.tables
      unfold State.receive
      cases s.phase i <;> rfl
  | preRead i ts sessionKnown readOk =>
      left
      change (s.preRead key i ts sessionKnown readOk).tables = s.tables
      unfold State.preRead
      cases s.phase i <;> rfl
  | transact i env outcome =>
      change (s.transact key i env outcome).tables = s.tables ∨ _
      cases hphase : s.phase i with
      | idle =>
          left
          unfold State.transact
          rw [hphase]
      | received d final =>
          left
          unfold State.transact
          rw [hphase]
      | done result =>
          left
          unfold State.transact
          rw [hphase]
      | decided d final wasInsert =>
          rcases runTransaction_cases key s.tables d final wasInsert env outcome
            with hcommitted | ⟨hsame, -⟩
          · right
            subst hcommitted
            refine ⟨i, env, d, final, wasInsert, rfl, hphase, ?_, ?_⟩
            · change (s.transact key i env .committed).tables = _
              unfold State.transact
              rw [hphase]
              rfl
            · change (s.transact key i env .committed).phase i = _
              unfold State.transact
              rw [hphase]
              exact phase_setPhase_self i _
          · left
            unfold State.transact
            rw [hphase]
            exact hsame

theorem phase_step_of_ne {e : Event ι} {j : ι} (hne : j ≠ e.target) :
    (step key s e).phase j = s.phase j := by
  cases e with
  | receive i d coldReadOk copyReadOk =>
      change (s.receive key i d coldReadOk copyReadOk).phase j = s.phase j
      unfold State.receive
      cases s.phase i with
      | idle => exact phase_setPhase_of_ne hne _
      | received d final => rfl
      | decided d final wasInsert => rfl
      | done result => rfl
  | preRead i ts sessionKnown readOk =>
      change (s.preRead key i ts sessionKnown readOk).phase j = s.phase j
      unfold State.preRead
      cases s.phase i with
      | received d final => exact phase_setPhase_of_ne hne _
      | idle => rfl
      | decided d final wasInsert => rfl
      | done result => rfl
  | transact i env outcome =>
      change (s.transact key i env outcome).phase j = s.phase j
      unfold State.transact
      cases s.phase i with
      | decided d final wasInsert => exact phase_setPhase_of_ne hne _
      | idle => rfl
      | received d final => rfl
      | done result => rfl

theorem done_step {e : Event ι} {i : ι} {result : Option Json}
    (hdone : s.phase i = .done result) : (step key s e).phase i = .done result := by
  by_cases hne : i = e.target
  · cases e with
    | receive j d coldReadOk copyReadOk =>
        change i = j at hne
        subst hne
        change (s.receive key i d coldReadOk copyReadOk).phase i = .done result
        unfold State.receive
        rw [hdone]
        exact hdone
    | preRead j ts sessionKnown readOk =>
        change i = j at hne
        subst hne
        change (s.preRead key i ts sessionKnown readOk).phase i = .done result
        unfold State.preRead
        rw [hdone]
        exact hdone
    | transact j env outcome =>
        change i = j at hne
        subst hne
        change (s.transact key i env outcome).phase i = .done result
        unfold State.transact
        rw [hdone]
        exact hdone
  · rw [phase_step_of_ne hne]
    exact hdone

theorem refusedUntouched (key : BatchKey) (s : State ι) (e : Event ι) :
    RefusedUntouched key s e := by
  refine ⟨fun i result hdone => done_step hdone, ?_⟩
  intro hchanged
  rcases tables_step key s e with
    hsame | ⟨i, env, d, final, wasInsert, rfl, -, -, hack⟩
  · exact absurd hsame hchanged
  · obtain ⟨hok, hconflict⟩ := storedAck_ok key d final wasInsert env
      (upsertColdRow s.tables.cold (excludedColdRow d final env)).2
    exact ⟨_, hack, hok, hconflict⟩

theorem duplicateCovered_iff {e : Event ι} :
    DuplicateCovered key s e ↔
      ∀ d final ack, (s.phase e.target).inFlight = some (d, final) →
        (step key s e).phase e.target = .done (some ack) → AckedDuplicate ack →
        ∃ cold, (step key s e).tables.cold = some cold ∧
          Covers cold.payload d.payload final := by
  constructor
  · intro h d final ack
    exact h e.target d final ack
  · intro h i d final ack hflight hdone
    by_cases hne : i = e.target
    · subst hne
      exact h d final ack hflight hdone
    · rw [phase_step_of_ne hne] at hdone
      rw [hdone] at hflight
      cases hflight

theorem duplicateCovered_of_phase {e : Event ι}
    (h : (step key s e).phase e.target = s.phase e.target) : DuplicateCovered key s e := by
  rw [duplicateCovered_iff]
  intro d final ack hflight hdone
  rw [h] at hdone
  rw [hdone] at hflight
  cases hflight

theorem step_preRead {i : ι} {ts : ℤ} {sessionKnown readOk : Bool} {d : Delivery}
    {final : Json} (hphase : s.phase i = .received d final) :
    step key s (.preRead i ts sessionKnown readOk) =
      { s.setPhase i (preReadPhase key s.tables d final ts sessionKnown readOk) with
        overtook := Function.update s.overtook i (hiddenGeneration s.tables readOk) } := by
  change s.preRead key i ts sessionKnown readOk = _
  unfold State.preRead
  rw [hphase]

theorem step_preRead_of_ne {i : ι} {ts : ℤ} {sessionKnown readOk : Bool}
    (hphase : ∀ d final, s.phase i ≠ .received d final) :
    step key s (.preRead i ts sessionKnown readOk) = s := by
  change s.preRead key i ts sessionKnown readOk = s
  unfold State.preRead
  split
  · rename_i d final hreceived
    exact absurd hreceived (hphase d final)
  · rfl

theorem step_transact {i : ι} {env : TxEnv} {outcome : TxOutcome} {d : Delivery}
    {final : Json} {wasInsert : Bool} (hphase : s.phase i = .decided d final wasInsert) :
    step key s (.transact i env outcome) =
      { s.setPhase i (.done (runTransaction key s.tables d final wasInsert env outcome).2) with
        tables := (runTransaction key s.tables d final wasInsert env outcome).1
        overtook := overtaken s.overtook final outcome } := by
  change s.transact key i env outcome = _
  unfold State.transact
  rw [hphase]

theorem step_transact_of_ne {i : ι} {env : TxEnv} {outcome : TxOutcome}
    (hphase : ∀ d final wasInsert, s.phase i ≠ .decided d final wasInsert) :
    step key s (.transact i env outcome) = s := by
  change s.transact key i env outcome = s
  unfold State.transact
  split
  · rename_i d final wasInsert hdecided
    exact absurd hdecided (hphase d final wasInsert)
  · rfl

theorem duplicateCovered_preRead_iff (h : Describes s.tables) {i : ι} {ts : ℤ}
    {sessionKnown readOk : Bool} {d : Delivery} {final : Json}
    (hphase : s.phase i = .received d final) :
    DuplicateCovered key s (.preRead i ts sessionKnown readOk) ↔
      (sessionKnown = true → readOk = true → ∀ row, s.tables.batch = some row →
        sameCapture row final = true → StoredOwn s.tables d final) := by
  have hnext : (step key s (.preRead i ts sessionKnown readOk)).phase i =
      preReadPhase key s.tables d final ts sessionKnown readOk := by
    rw [step_preRead hphase]
    exact phase_setPhase_self i _
  have htables : (step key s (.preRead i ts sessionKnown readOk)).tables = s.tables := by
    rw [step_preRead hphase]
    rfl
  rw [duplicateCovered_iff]
  change (∀ d' final' ack, (s.phase i).inFlight = some (d', final') →
    (step key s (.preRead i ts sessionKnown readOk)).phase i = .done (some ack) → _ → _) ↔ _
  rw [hphase, hnext, htables]
  constructor
  · intro hcovered hknown hread row hrow hsame
    have hdecision : decideMaterial s.tables.batch final =
        .duplicate row.material.generation :=
      decideMaterial_duplicate_iff.mpr ⟨row, hrow, hsame, rfl⟩
    have hdone : preReadPhase key s.tables d final ts sessionKnown readOk =
        .done (some (duplicateAck key d final ts row.material.generation)) := by
      unfold preReadPhase
      rw [hknown, hread, if_neg (by simp), if_pos rfl, hdecision]
    exact (storedOwn_iff h d final).mpr
      (hcovered d final _ rfl hdone (duplicateAck_acks key d final ts _))
  · intro hown d' final' ack hflight hdone hdup
    cases hflight
    apply (storedOwn_iff h d final).mp
    unfold preReadPhase at hdone
    cases sessionKnown with
    | false => cases hdone
    | true =>
        cases readOk with
        | false => cases hdone
        | true =>
            cases hdecision : decideMaterial s.tables.batch final with
            | write wasInsert =>
                rw [if_neg (by simp), if_pos rfl, hdecision] at hdone
                cases hdone
            | stale prevGen =>
                rw [if_neg (by simp), if_pos rfl, hdecision] at hdone
                cases hdone
                exact absurd hdup (staleAck_refuses key d final ts prevGen)
            | duplicate prevGen =>
                obtain ⟨row, hrow, hsame, -⟩ := decideMaterial_duplicate_iff.mp hdecision
                exact hown rfl rfl row hrow hsame

theorem duplicateCovered_commit_iff (h : Describes s.tables) {i : ι} {env : TxEnv}
    {d : Delivery} {final : Json} {wasInsert : Bool}
    (hphase : s.phase i = .decided d final wasInsert) :
    DuplicateCovered key s (.transact i env .committed) ↔
      (d.skipCold = true → final.boolOr "merged" = true ∨ StoredOwn s.tables d final) := by
  have hnext : (step key s (.transact i env .committed)).phase i =
      .done (some (storedAck key d final wasInsert env
        (upsertColdRow s.tables.cold (excludedColdRow d final env)).2)) := by
    rw [step_transact hphase]
    exact phase_setPhase_self i _
  have htables : (step key s (.transact i env .committed)).tables =
      commitTables s.tables d final env := by
    rw [step_transact hphase]
    rfl
  rw [duplicateCovered_iff]
  change (∀ d' final' ack, (s.phase i).inFlight = some (d', final') →
    (step key s (.transact i env .committed)).phase i = .done (some ack) → _ → _) ↔ _
  rw [hphase, hnext, htables]
  cases hskip : d.skipCold with
  | false =>
      have hwritten : ∃ cold, (commitTables s.tables d final env).cold = some cold ∧
          cold.payload = final := commitTables_cold_of_write hskip
      obtain ⟨cold, hcold, hpayload⟩ := hwritten
      simp only [Bool.false_eq_true, false_implies, iff_true]
      intro d' final' ack hflight _ _
      cases hflight
      exact ⟨cold, hcold, Or.inl hpayload⟩
  | true =>
      rw [commitTables_cold_of_skip hskip]
      constructor
      · intro hcovered _
        cases hmerged : final.boolOr "merged" with
        | true => exact Or.inl rfl
        | false =>
            right
            exact (storedOwn_iff h d final).mpr
              (hcovered d final _ rfl rfl ((storedAck_skip_iff hskip).mpr hmerged))
      · intro hown d' final' ack hflight hdone hdup
        cases hflight
        cases hdone
        rcases hown rfl with hmerged | hstored
        · rw [storedAck_skip_iff hskip, hmerged] at hdup
          cases hdup
        · exact (storedOwn_iff h d final).mp hstored

theorem duplicateCovered_of_not_committed {i : ι} {env : TxEnv} {outcome : TxOutcome}
    (hfailed : outcome ≠ .committed) : DuplicateCovered key s (.transact i env outcome) := by
  rw [duplicateCovered_iff]
  intro d final ack hflight hdone hdup
  change (s.phase i).inFlight = some (d, final) at hflight
  change (step key s (.transact i env outcome)).phase i = .done (some ack) at hdone
  by_cases hdecided : ∃ d final wasInsert, s.phase i = .decided d final wasInsert
  · obtain ⟨d', final', wasInsert, hphase⟩ := hdecided
    rw [step_transact hphase] at hdone
    have hresult : (runTransaction key s.tables d' final' wasInsert env outcome).2 =
        some ack := by
      change (s.setPhase i _).phase i = _ at hdone
      rw [phase_setPhase_self] at hdone
      simpa using hdone
    rcases runTransaction_cases key s.tables d' final' wasInsert env outcome with
      hcommitted | ⟨-, hrefused⟩
    · exact absurd hcommitted hfailed
    · exact absurd hdup (hrefused ack hresult)
  · push Not at hdecided
    rw [step_transact_of_ne hdecided] at hdone
    rw [hdone] at hflight
    cases hflight

end OneStep

/-! ## Overtaking -/

/-- Between its pre-read and its commit a delivery is as new as the row, unless
another one has overtaken it. -/
structure Inv (s : State ι) : Prop where
  describes : Describes s.tables
  newest : ∀ i d final wasInsert row, s.phase i = .decided d final wasInsert →
    s.tables.batch = some row →
      row.material.generation ≤ max (s.overtook i) (clientGeneration final)
  overtook : ∀ i, s.overtook i ≤ 0 ∨
    ∃ row, s.tables.batch = some row ∧ s.overtook i ≤ row.material.generation

omit [DecidableEq ι] in
theorem inv_init : Inv (State.init : State ι) where
  describes := by
    intro cold hcold
    cases hcold
  newest := by
    intro i d final wasInsert row hphase
    cases hphase
  overtook := fun i => Or.inl le_rfl

omit [DecidableEq ι] in
theorem Inv.generation_le_iff {s : State ι} (h : Inv s) {i : ι} {d : Delivery}
    {final : Json} {wasInsert : Bool} {row : BatchRow}
    (hphase : s.phase i = .decided d final wasInsert) (hrow : s.tables.batch = some row) :
    row.material.generation ≤ clientGeneration final ↔
      s.overtook i ≤ clientGeneration final := by
  have hpos : 1 ≤ clientGeneration final := le_max_right _ _
  constructor
  · intro hle
    rcases h.overtook i with hnone | ⟨row', hrow', hbelow⟩
    · omega
    · rw [hrow, Option.some.injEq] at hrow'
      rw [← hrow'] at hbelow
      omega
  · intro hle
    have hnewest := h.newest i d final wasInsert row hphase hrow
    rwa [max_eq_right hle] at hnewest

section Overtaking

variable {key : BatchKey} {s : State ι}

omit [DecidableEq ι] in
theorem Inv.of_same {s' : State ι} (h : Inv s) (htables : s'.tables = s.tables)
    (hovertook : s'.overtook = s.overtook)
    (hphase : ∀ i d final wasInsert, s'.phase i = .decided d final wasInsert →
      s.phase i = .decided d final wasInsert) : Inv s' where
  describes := by
    rw [htables]
    exact h.describes
  newest := by
    intro i d final wasInsert row hdecided hrow
    rw [htables] at hrow
    rw [hovertook]
    exact h.newest i d final wasInsert row (hphase i d final wasInsert hdecided) hrow
  overtook := by
    intro i
    rw [hovertook, htables]
    exact h.overtook i

theorem decided_setPhase {i j : ι} {phase : Phase} {d : Delivery} {final : Json}
    {wasInsert : Bool} (h : (s.setPhase i phase).phase j = .decided d final wasInsert) :
    (j = i ∧ phase = .decided d final wasInsert) ∨
      (j ≠ i ∧ s.phase j = .decided d final wasInsert) := by
  by_cases hj : j = i
  · rw [hj, phase_setPhase_self] at h
    exact Or.inl ⟨hj, h⟩
  · rw [phase_setPhase_of_ne hj] at h
    exact Or.inr ⟨hj, h⟩

theorem Inv.receive (h : Inv s) (i : ι) (d : Delivery) (coldReadOk copyReadOk : Bool) :
    Inv (step key s (.receive i d coldReadOk copyReadOk)) := by
  change Inv (s.receive key i d coldReadOk copyReadOk)
  unfold State.receive
  split
  · refine h.of_same rfl rfl ?_
    intro j d' final' wasInsert hdecided
    rcases decided_setPhase hdecided with ⟨-, hreceived⟩ | ⟨-, hold⟩
    · cases hreceived
    · exact hold
  · exact h

theorem decideMaterial_of_preRead {d d' : Delivery} {final final' : Json} {ts : ℤ}
    {sessionKnown readOk wasInsert : Bool} {t : Tables}
    (h : preReadPhase key t d final ts sessionKnown readOk = .decided d' final' wasInsert) :
    final' = final ∧
      decideMaterial (if readOk then t.batch else none) final = .write wasInsert := by
  unfold preReadPhase at h
  by_cases hknown : sessionKnown = true
  · rw [if_neg (not_not.mpr hknown)] at h
    split at h
    · cases h
    · cases h
    · rename_i hwrite
      cases h
      exact ⟨rfl, hwrite⟩
  · rw [if_pos hknown] at h
    cases h

theorem Inv.preRead (h : Inv s) (i : ι) (ts : ℤ) (sessionKnown readOk : Bool) :
    Inv (step key s (.preRead i ts sessionKnown readOk)) := by
  by_cases hreceived : ∃ d final, s.phase i = .received d final
  · obtain ⟨d, final, hphase⟩ := hreceived
    rw [step_preRead hphase]
    refine { describes := h.describes, newest := ?_, overtook := ?_ }
    · intro j d' final' wasInsert row hdecided hrow
      change row.material.generation ≤
        max (Function.update s.overtook i (hiddenGeneration s.tables readOk) j) _
      change s.tables.batch = some row at hrow
      rcases decided_setPhase hdecided with ⟨rfl, hwrite⟩ | ⟨hne, hold⟩
      · obtain ⟨rfl, hdecision⟩ := decideMaterial_of_preRead hwrite
        rw [Function.update_self]
        cases readOk with
        | false =>
            apply le_max_of_le_left
            unfold hiddenGeneration
            rw [hrow]
            exact le_rfl
        | true =>
            apply le_max_of_le_right
            rw [if_pos rfl, hrow] at hdecision
            exact generation_le_of_write hdecision
      · rw [Function.update_of_ne hne]
        exact h.newest j d' final' wasInsert row hold hrow
    · intro j
      change Function.update s.overtook i (hiddenGeneration s.tables readOk) j ≤ 0 ∨
        ∃ row, s.tables.batch = some row ∧
          Function.update s.overtook i (hiddenGeneration s.tables readOk) j ≤
            row.material.generation
      by_cases hj : j = i
      · rw [hj, Function.update_self]
        unfold hiddenGeneration
        cases readOk with
        | true => exact Or.inl le_rfl
        | false =>
            cases hrow : s.tables.batch with
            | none => exact Or.inl le_rfl
            | some row => exact Or.inr ⟨row, rfl, le_rfl⟩
      · rw [Function.update_of_ne hj]
        exact h.overtook j
  · push Not at hreceived
    rw [step_preRead_of_ne hreceived]
    exact h

theorem Inv.commit (h : Inv s) {i : ι} {env : TxEnv} {d : Delivery} {final : Json}
    {wasInsert : Bool} (hphase : s.phase i = .decided d final wasInsert)
    (hdescribes : Describes (commitTables s.tables d final env))
    (hkept : GenerationKept s.tables (commitTables s.tables d final env)) :
    Inv (step key s (.transact i env .committed)) := by
  rw [step_transact hphase]
  refine { describes := hdescribes, newest := ?_, overtook := ?_ }
  · intro j d' final' wasInsert' row hdecided hrow
    change row.material.generation ≤
      max (max (s.overtook j) (clientGeneration final)) (clientGeneration final')
    rcases decided_setPhase hdecided with ⟨-, hdone⟩ | ⟨-, hold⟩
    · cases hdone
    · apply commit_generation_le hrow
      · exact le_max_of_le_left (le_max_right _ _)
      · intro row' hrow'
        have hnewest := h.newest j d' final' wasInsert' row' hold hrow'
        rcases le_max_iff.mp hnewest with hbelow | hbelow
        · exact le_max_of_le_left (le_max_of_le_left hbelow)
        · exact le_max_of_le_right hbelow
  · intro j
    right
    change ∃ row, (commitTables s.tables d final env).batch = some row ∧
      max (s.overtook j) (clientGeneration final) ≤ row.material.generation
    have hclient : clientGeneration final ≤
        (upsertBatchRow s.tables.batch (excludedBatchRow d final env)).material.generation :=
      clientGeneration_le_commit rfl
    have hpos : 1 ≤ clientGeneration final := le_max_right _ _
    refine ⟨_, rfl, max_le ?_ hclient⟩
    rcases h.overtook j with hnone | ⟨row, hrow, hbelow⟩
    · omega
    · obtain ⟨row', hrow', hle⟩ := hkept row hrow
      have hsame : row' = upsertBatchRow s.tables.batch (excludedBatchRow d final env) :=
        (Option.some.inj hrow').symm
      rw [← hsame]
      omega

theorem Inv.failed (h : Inv s) (i : ι) (env : TxEnv) {outcome : TxOutcome}
    (hfailed : outcome ≠ .committed) : Inv (step key s (.transact i env outcome)) := by
  by_cases hdecided : ∃ d final wasInsert, s.phase i = .decided d final wasInsert
  · obtain ⟨d, final, wasInsert, hphase⟩ := hdecided
    rw [step_transact hphase]
    have hsame : (runTransaction key s.tables d final wasInsert env outcome).1 = s.tables := by
      rcases runTransaction_cases key s.tables d final wasInsert env outcome with
        hcommitted | ⟨hsame, -⟩
      · exact absurd hcommitted hfailed
      · exact hsame
    refine h.of_same hsame ?_ ?_
    · cases outcome with
      | committed => exact absurd rfl hfailed
      | _ => rfl
    · intro j d' final' wasInsert' hold
      rcases decided_setPhase hold with ⟨-, hdone⟩ | ⟨-, hold⟩
      · cases hdone
      · exact hold
  · push Not at hdecided
    rw [step_transact_of_ne hdecided]
    exact h

def Sound (key : BatchKey) (s : State ι) (e : Event ι) : Prop :=
  Describes (step key s e).tables ∧ GenerationKept s.tables (step key s e).tables ∧
    DuplicateCovered key s e ∧ RefusedUntouched key s e

omit [DecidableEq ι] in
theorem GenerationKept.refl (t : Tables) : GenerationKept t t :=
  fun row hrow => ⟨row, hrow, le_rfl⟩

theorem sound_iff_of_tables {e : Event ι} (h : Inv s)
    (htables : (step key s e).tables = s.tables) :
    Sound key s e ↔ DuplicateCovered key s e := by
  unfold Sound
  rw [htables]
  simp [h.describes, GenerationKept.refl, refusedUntouched]

theorem sound_commit_iff (h : Inv s) {i : ι} {env : TxEnv} {d : Delivery} {final : Json}
    {wasInsert : Bool} (hphase : s.phase i = .decided d final wasInsert) :
    Sound key s (.transact i env .committed) ↔ Fits s i d final env := by
  have htables : (step key s (.transact i env .committed)).tables =
      commitTables s.tables d final env := by
    rw [step_transact hphase]
    rfl
  have hgeneration : GenerationKept s.tables (commitTables s.tables d final env) ↔
      ∀ row, s.tables.batch = some row →
        upsertGuard row (excludedBatchRow d final env) = true →
          s.overtook i ≤ clientGeneration final := by
    rw [generationKept_commit_iff]
    refine forall_congr' fun row => ?_
    refine imp_congr_right fun hrow => imp_congr_right fun _ => ?_
    exact h.generation_le_iff hphase hrow
  unfold Sound
  rw [htables, describes_commit_iff h.describes, hgeneration,
    duplicateCovered_commit_iff h.describes hphase]
  constructor
  · rintro ⟨⟨hrewritten, hskipped⟩, hinOrder, hacknowledged, -⟩
    exact ⟨hinOrder, hrewritten, hskipped, hacknowledged⟩
  · intro hfits
    exact ⟨⟨hfits.rewritten, hfits.skipped⟩, hfits.inOrder, hfits.acknowledged,
      refusedUntouched key s _⟩

theorem sound_iff (h : Inv s) (e : Event ι) : Sound key s e ↔ Bookkept s e := by
  cases e with
  | receive i d coldReadOk copyReadOk =>
      have htables : (step key s (.receive i d coldReadOk copyReadOk)).tables = s.tables := by
        rcases tables_step key s (.receive i d coldReadOk copyReadOk) with
          hsame | ⟨_, _, _, _, _, he, -⟩
        · exact hsame
        · cases he
      rw [sound_iff_of_tables h htables]
      refine iff_of_true ?_ trivial
      rw [duplicateCovered_iff]
      intro d' final' ack hflight hdone
      change (s.receive key i d coldReadOk copyReadOk).phase i = _ at hdone
      change (s.phase i).inFlight = _ at hflight
      unfold State.receive at hdone
      split at hdone
      · rw [phase_setPhase_self] at hdone
        cases hdone
      · rw [hdone] at hflight
        cases hflight
  | preRead i ts sessionKnown readOk =>
      by_cases hreceived : ∃ d final, s.phase i = .received d final
      · obtain ⟨d, final, hphase⟩ := hreceived
        have htables : (step key s (.preRead i ts sessionKnown readOk)).tables =
            s.tables := by
          rw [step_preRead hphase]
          rfl
        rw [sound_iff_of_tables h htables, duplicateCovered_preRead_iff h.describes hphase]
        constructor
        · intro hown hknown hread d' final' row hphase' hrow
          rw [hphase] at hphase'
          cases hphase'
          exact hown hknown hread row hrow
        · intro hbookkept hknown hread row hrow
          exact hbookkept hknown hread d final row hphase hrow
      · push Not at hreceived
        have hsame : step key s (.preRead i ts sessionKnown readOk) = s :=
          step_preRead_of_ne hreceived
        rw [sound_iff_of_tables h (by rw [hsame])]
        refine iff_of_true (duplicateCovered_of_phase (by rw [hsame])) ?_
        intro _ _ d final row hphase
        exact absurd hphase (hreceived d final)
  | transact i env outcome =>
      by_cases hdecided : ∃ d final wasInsert, s.phase i = .decided d final wasInsert
      · obtain ⟨d, final, wasInsert, hphase⟩ := hdecided
        by_cases hcommitted : outcome = .committed
        · subst hcommitted
          rw [sound_commit_iff h hphase]
          constructor
          · intro hfits d' final' wasInsert' hphase'
            rw [hphase] at hphase'
            cases hphase'
            exact hfits
          · intro hbookkept
            exact hbookkept d final wasInsert hphase
        · have htables : (step key s (.transact i env outcome)).tables = s.tables := by
            rcases tables_step key s (.transact i env outcome) with
              hsame | ⟨_, _, _, _, _, he, -⟩
            · exact hsame
            · cases he
              exact absurd rfl hcommitted
          rw [sound_iff_of_tables h htables]
          refine iff_of_true (duplicateCovered_of_not_committed hcommitted) ?_
          cases outcome with
          | committed => exact absurd rfl hcommitted
          | _ => trivial
      · push Not at hdecided
        have hsame : step key s (.transact i env outcome) = s := step_transact_of_ne hdecided
        rw [sound_iff_of_tables h (by rw [hsame])]
        refine iff_of_true (duplicateCovered_of_phase (by rw [hsame])) ?_
        cases outcome with
        | committed =>
            intro d final wasInsert hphase
            exact absurd hphase (hdecided d final wasInsert)
        | _ => trivial

theorem Inv.step {e : Event ι} (h : Inv s) (hsound : Sound key s e) :
    Inv (step key s e) := by
  cases e with
  | receive i d coldReadOk copyReadOk => exact h.receive i d coldReadOk copyReadOk
  | preRead i ts sessionKnown readOk => exact h.preRead i ts sessionKnown readOk
  | transact i env outcome =>
      by_cases hcommitted : outcome = .committed
      · subst hcommitted
        by_cases hdecided : ∃ d final wasInsert, s.phase i = .decided d final wasInsert
        · obtain ⟨d, final, wasInsert, hphase⟩ := hdecided
          obtain ⟨hdescribes, hkept, -⟩ := hsound
          have htables : (BatchStore.step key s (.transact i env .committed)).tables =
              commitTables s.tables d final env := by
            rw [step_transact hphase]
            rfl
          rw [htables] at hdescribes hkept
          exact h.commit hphase hdescribes hkept
        · push Not at hdecided
          rw [step_transact_of_ne hdecided]
          exact h
      · exact h.failed i env hcommitted

end Overtaking

/-- The columns describe the stored payload after every step of a run,
generations never decrease, duplicates are acknowledged for the stored capture
only and refused deliveries change nothing, exactly where every step is
bookkept. -/
theorem run_keeps_material (key : BatchKey) (events : List (Event ι)) :
    Along (step key) (Sound key) State.init events ↔
      Along (step key) Bookkept State.init events := by
  have hall : Along (step key) (fun _ _ => True) (State.init : State ι) events :=
    along_of_forall fun _ _ _ => trivial
  apply Along.iff_of_steps (I := Inv) ?_ ?_ hall inv_init
  · intro s e h _
    exact sound_iff h e
  · intro s e h _ hsound
    exact h.step hsound

end Steps

def sampleKey : BatchKey where
  sessionId := "s1"
  batchId := "B1_static"
  source := "main"

def captureOf (capture : String) (generation : ℤ) : Delivery where
  payload := .obj [("fields", .obj [("capture_id", .str capture),
    ("material_generation", ofInt generation)])]
  clientIp := none
  skipCold := false

def sampleEnv : TxEnv where
  ts := 1700000000000
  payloadCopyEnabled := false
  visitorTerminalId := ""
  coldFieldsBytes := 0
  coldPayloadZBytes := 0
  touchMinIntervalMs := 0

def deliver (i : ℕ) (d : Delivery) : List (Event ℕ) :=
  [.receive i d true true, .preRead i 1700000000000 true true,
    .transact i sampleEnv .committed]

theorem newer_generation_kept :
    Along (step sampleKey) (Sound sampleKey) State.init
      (deliver 1 (captureOf "c1" 1) ++ deliver 2 (captureOf "c2" 2)) := by
  apply (run_keeps_material sampleKey _).mpr
  refine ⟨trivial, ?_, ?_, trivial, ?_, ?_, trivial⟩
  · intro _ _ d final row hphase hrow
    cases hrow
  · intro d final wasInsert hphase
    cases hphase
    constructor
    · intro row hrow
      cases hrow
    · intro _ row hrow
      cases hrow
    · intro hskip
      cases hskip
    · intro hskip
      cases hskip
  · intro _ _ d final row hphase hrow hsame
    cases hphase
    cases hrow
    exact absurd hsame (by decide)
  · intro d final wasInsert hphase
    cases hphase
    constructor
    · intro row hrow _
      decide
    · intro _ row hrow hsilent
      cases hrow
      exact absurd hsilent (by decide)
    · intro hskip
      cases hskip
    · intro hskip
      cases hskip

/-- A second capture of the same generation from the same address replaces the
stored payload and leaves the columns; a retry of the first one is then
acknowledged as stored. -/
theorem second_capture_keeps_old_columns :
    ¬ Describes (runFrom (step sampleKey) State.init
        (deliver 1 (captureOf "c1" 1) ++ deliver 2 (captureOf "c2" 1))).tables ∧
      ¬ DuplicateCovered sampleKey
        (runFrom (step sampleKey) State.init
          (deliver 1 (captureOf "c1" 1) ++ deliver 2 (captureOf "c2" 1) ++
            [.receive 3 (captureOf "c1" 1) true true]))
        (.preRead 3 1700000000000 true true) := by
  constructor
  · intro h
    obtain ⟨row, hrow, hcolumns⟩ := h _ rfl
    cases hrow
    exact absurd hcolumns (by decide)
  · intro h
    obtain ⟨cold, hcold, hcover⟩ := h 3 (captureOf "c1" 1)
      (captureOf "c1" 1).payload _ rfl rfl (Or.inr rfl)
    have hstored : cold.payload = (captureOf "c2" 1).payload := by
      cases hcold
      rfl
    unfold Covers at hcover
    rw [hstored] at hcover
    exact absurd hcover (by decide)

end BatchStore

end GrServer
