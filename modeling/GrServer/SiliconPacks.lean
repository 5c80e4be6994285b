import GrServer.MapMerge
import GrServer.Json

/-!
# Completion of the silicon packs

Whether a silicon pack has landed is read off the rows of the evidence with the
pack's id, of which the first decides, and off the merged fields where there is
no row.
-/

namespace GrServer

open Json

namespace SiliconPacks

def rowId (b : Json) : String :=
  (((b.get? "batch_id").or (b.get? "pack_id")).bind asStr).getD ""

def fieldStr (fo : Fields) (k : String) : String := ((fo.get? k).bind asStr).getD ""

/-- Terminal attempt: success, honest failure, or final fields. -/
def b10xFieldsTerminal (fo : Fields) : Bool :=
  if (fo.get? "b10x_ok").bind asBool = some true then true
  else
    let err := fieldStr fo "b10x_err"
    let phase := fieldStr fo "b10x_phase"
    if err ≠ "" ∧ err ≠ "started" then true
    else if phase ≠ "" ∧ phase ≠ "start" then true
    else if ((fo.get? "residual_paths_n").bind asU64).isSome then true
    else if ((fo.get? "residual_paths").bind asArray).any (fun a => !a.isEmpty) then true
    else if (fo.get? "hw_curve_webgl").isSome then true
    else if (fo.get? "b10x_ok").bind asBool = some false ∧ err ≠ "" ∧ err ≠ "started" then true
    else false

def batchFieldsMap (batch : Json) : Option Fields :=
  ((batch.pointer ["payload", "fields"]).or (batch.get? "fields")).bind asObject

def heartbeat (fo : Fields) : Bool :=
  fieldStr fo "b10x_err" == "started" || fieldStr fo "b10x_phase" == "start"

/-- The loop over the batches: the first row of the pack decides. -/
def decideByRows (packId : String) : List Json → Option Bool
  | [] => none
  | b :: rest =>
      if rowId b ≠ packId then decideByRows packId rest
      else
        match batchFieldsMap b with
        | some fo =>
            if b10xFieldsTerminal fo then some true
            else if heartbeat fo then some false
            else some true
        | none => some true

def mergedTerminal (evidence : Json) (packId : String) : Bool :=
  match (evidence.get? "fields").bind asObject with
  | some fo => (fo.get? "b10x_pack").bind asStr = some packId ∧ b10xFieldsTerminal fo
  | none => false

def siliconPackAttemptComplete (evidence : Json) (packId : String) : Bool :=
  match ((evidence.get? "batches").bind asArray).bind (decideByRows packId) with
  | some done => done
  | none => mergedTerminal evidence packId

def b10xSiliconRequiredPacks : List String :=
  ["B10x_silicon_ulp", "B10x_silicon_noderiv", "B10x_silicon_rint"]

def missingB10xSilicon (evidence : Json) : List String :=
  b10xSiliconRequiredPacks.filter fun p => !siliconPackAttemptComplete evidence p

/-! ## What is expected of a pack -/

def batches (evidence : Json) : List Json := ((evidence.get? "batches").bind asArray).getD []

def packRows (evidence : Json) (packId : String) : List Json :=
  (batches evidence).filter fun b => rowId b = packId

def attempted (row : Json) : Bool := (batchFieldsMap row).any b10xFieldsTerminal

def started (row : Json) : Bool :=
  (batchFieldsMap row).any fun fo => !b10xFieldsTerminal fo && heartbeat fo

def withBatches (evidence : Json) (rows : List Json) : Json :=
  evidence.setMember "batches" (.arr rows)

/-- More evidence: one more batch, which stands last, or terminal fields merged
into those that are there. -/
inductive Grown (evidence : Json) : Json → Prop
  | batch (b : Json) : Grown evidence (withBatches evidence (batches evidence ++ [b]))
  | fields (more : Fields) (terminal : b10xFieldsTerminal more = true) :
      Grown evidence (evidence.setMember "fields"
        (ofFields ((((evidence.get? "fields").bind asObject).getD SortedMap.empty).insertAll more)))

structure PackLaw (evidence : Json) (packId : String) : Prop where
  order : ∀ rows rows', evidence.get? "batches" = some (.arr rows) → rows.Perm rows' →
    siliconPackAttemptComplete (withBatches evidence rows') packId =
      siliconPackAttemptComplete evidence packId
  grows : ∀ evidence', Grown evidence evidence' →
    siliconPackAttemptComplete evidence packId = true →
      siliconPackAttemptComplete evidence' packId = true
  heartbeats : (∀ row ∈ packRows evidence packId, started row = true) →
    siliconPackAttemptComplete evidence packId = false
  attempts : (∃ row ∈ packRows evidence packId, attempted row = true) →
    siliconPackAttemptComplete evidence packId = true
  missing : ∀ evidence', Grown evidence evidence' → packId ∉ missingB10xSilicon evidence →
    packId ∉ missingB10xSilicon evidence'

section Rows

variable {evidence : Json} {packId : String}

theorem attempted_not_started {row : Json} (h : attempted row = true) : started row = false := by
  unfold attempted at h
  unfold started
  cases hfields : batchFieldsMap row with
  | none => rfl
  | some fo =>
      rw [hfields, Option.any_some] at h
      rw [Option.any_some, h]
      rfl

theorem decideByRows_eq (rows : List Json) :
    decideByRows packId rows =
      ((rows.filter fun b => rowId b = packId).head?).map fun b => !started b := by
  induction rows with
  | nil => rfl
  | cons b rows ih =>
      unfold decideByRows
      by_cases hid : rowId b = packId
      · rw [if_neg (not_not.mpr hid), List.filter_cons_of_pos (by simpa using hid)]
        unfold started
        rw [List.head?_cons, Option.map_some]
        cases batchFieldsMap b with
        | none => rfl
        | some fo =>
            rw [Option.any_some]
            dsimp only
            cases b10xFieldsTerminal fo
            all_goals
              cases heartbeat fo
              all_goals rfl
      · rw [if_pos hid, ih, List.filter_cons_of_neg (by simpa using hid)]

theorem complete_eq : siliconPackAttemptComplete evidence packId =
    match packRows evidence packId with
    | [] => mergedTerminal evidence packId
    | b :: _ => !started b := by
  unfold siliconPackAttemptComplete packRows batches
  cases (evidence.get? "batches").bind asArray with
  | none => rfl
  | some rows =>
      rw [Option.bind_some, decideByRows_eq, Option.getD_some]
      cases rows.filter fun b => rowId b = packId with
      | nil => rfl
      | cons b rest => rfl

theorem complete_of_head {b : Json} {rest : List Json}
    (h : packRows evidence packId = b :: rest) :
    siliconPackAttemptComplete evidence packId = !started b := by
  rw [complete_eq, h]

theorem complete_of_no_rows (h : packRows evidence packId = []) :
    siliconPackAttemptComplete evidence packId = mergedTerminal evidence packId := by
  rw [complete_eq, h]

end Rows

/-! ## When the law holds -/

section Law

variable {evidence : Json} {packId : String} {rows : List Json}

theorem packRows_withBatches {members : List (String × Json)} (rows : List Json) :
    packRows (withBatches (.obj members) rows) packId = rows.filter fun b => rowId b = packId := by
  unfold packRows batches withBatches
  rw [get?_setMember, if_pos rfl]
  rfl

theorem packRows_setFields (v : Json) :
    packRows (evidence.setMember "fields" v) packId = packRows evidence packId := by
  unfold packRows batches
  cases evidence with
  | obj members =>
      rw [get?_setMember, if_neg (by decide)]
  | null => rfl
  | bool b => rfl
  | num n => rfl
  | str s => rfl
  | arr items => rfl

theorem object_of_get? {k : String} {v : Json} (h : evidence.get? k = some v) :
    ∃ members, evidence = .obj members := by
  cases evidence with
  | obj members => exact ⟨members, rfl⟩
  | null => cases h
  | bool b => cases h
  | num n => cases h
  | str s => cases h
  | arr items => cases h

theorem packRows_of_get? (h : evidence.get? "batches" = some (.arr rows)) :
    packRows evidence packId = rows.filter fun b => rowId b = packId := by
  unfold packRows batches
  rw [h]
  rfl

theorem packRows_append (b : Json) :
    ∃ more, packRows (withBatches evidence (batches evidence ++ [b])) packId =
      packRows evidence packId ++ more := by
  cases evidence with
  | obj members =>
      rw [packRows_withBatches, List.filter_append]
      exact ⟨_, rfl⟩
  | null => exact ⟨[], rfl⟩
  | bool b => exact ⟨[], rfl⟩
  | num n => exact ⟨[], rfl⟩
  | str s => exact ⟨[], rfl⟩
  | arr items => exact ⟨[], rfl⟩

theorem packRows_grown {evidence' : Json} (h : Grown evidence evidence') :
    ∃ more, packRows evidence' packId = packRows evidence packId ++ more := by
  cases h with
  | batch b => exact packRows_append b
  | fields more terminal => exact ⟨[], by rw [packRows_setFields, List.append_nil]⟩

/-- All rows of the pack are bare heartbeats, or none is. -/
def SamePhase (evidence : Json) (packId : String) : Prop :=
  (∀ row ∈ packRows evidence packId, started row = true) ∨
    ∀ row ∈ packRows evidence packId, started row = false

/-- A pack without rows is not marked as complete by the merged fields. -/
def RowBacked (evidence : Json) (packId : String) : Prop :=
  packRows evidence packId = [] → mergedTerminal evidence packId = false

theorem complete_of_phase {phase : Bool} (h : ∀ row ∈ packRows evidence packId, started row = phase)
    (hne : packRows evidence packId ≠ []) :
    siliconPackAttemptComplete evidence packId = !phase := by
  cases hrows : packRows evidence packId with
  | nil => exact absurd hrows hne
  | cons b rest =>
      rw [complete_of_head hrows, h b (hrows ▸ List.mem_cons_self)]

theorem order_of_samePhase (h : SamePhase evidence packId) {rows rows' : List Json}
    (hrows : evidence.get? "batches" = some (.arr rows)) (hperm : rows.Perm rows') :
    siliconPackAttemptComplete (withBatches evidence rows') packId =
      siliconPackAttemptComplete evidence packId := by
  rcases object_of_get? hrows with ⟨members, rfl⟩
  have hold := @packRows_of_get? _ packId _ hrows
  have hnew := @packRows_withBatches packId members rows'
  have hpack := hperm.filter fun b => decide (rowId b = packId)
  rw [← hold, ← hnew] at hpack
  by_cases hempty : packRows (.obj members) packId = []
  · have hempty' : packRows (withBatches (.obj members) rows') packId = [] := by
      rw [hempty] at hpack
      exact hpack.nil_eq.symm
    rw [complete_of_no_rows hempty, complete_of_no_rows hempty']
    unfold mergedTerminal withBatches
    rw [get?_setMember, if_neg (by decide)]
  · have hne' : packRows (withBatches (.obj members) rows') packId ≠ [] := by
      intro hempty'
      rw [hempty'] at hpack
      exact hempty hpack.eq_nil
    have hphase : ∃ phase, ∀ row ∈ packRows (.obj members) packId, started row = phase := by
      rcases h with hall | hnone
      · exact ⟨true, hall⟩
      · exact ⟨false, hnone⟩
    rcases hphase with ⟨phase, hall⟩
    rw [complete_of_phase hall hempty,
      complete_of_phase (fun row hrow => hall row (hpack.mem_iff.mpr hrow)) hne']

theorem complete_grown (h : RowBacked evidence packId) {evidence' : Json}
    (hgrown : Grown evidence evidence')
    (hdone : siliconPackAttemptComplete evidence packId = true) :
    siliconPackAttemptComplete evidence' packId = true := by
  cases hrows : packRows evidence packId with
  | nil =>
      rw [complete_of_no_rows hrows, h hrows] at hdone
      cases hdone
  | cons b rest =>
      rcases @packRows_grown evidence packId evidence' hgrown with ⟨more, hmore⟩
      rw [hrows, List.cons_append] at hmore
      rw [complete_of_head hrows] at hdone
      rw [complete_of_head hmore, hdone]

theorem mem_missing_iff :
    packId ∉ missingB10xSilicon evidence ↔
      (packId ∈ b10xSiliconRequiredPacks → siliconPackAttemptComplete evidence packId = true) := by
  unfold missingB10xSilicon
  rw [List.mem_filter, not_and, Bool.not_eq_true', Bool.not_eq_false]

theorem law_of_conditions (hphase : SamePhase evidence packId)
    (hbacked : RowBacked evidence packId) : PackLaw evidence packId where
  order := fun _ _ hrows hperm => order_of_samePhase hphase hrows hperm
  grows := fun _ hgrown hdone => complete_grown hbacked hgrown hdone
  heartbeats := by
    intro hall
    by_cases hempty : packRows evidence packId = []
    · rw [complete_of_no_rows hempty]
      exact hbacked hempty
    · exact complete_of_phase hall hempty
  attempts := by
    rintro ⟨row, hrow, hattempted⟩
    have hnot := attempted_not_started hattempted
    have hnone : ∀ r ∈ packRows evidence packId, started r = false := by
      rcases hphase with hall | hnone
      · rw [hall row hrow] at hnot
        cases hnot
      · exact hnone
    exact complete_of_phase hnone (List.ne_nil_of_mem hrow)
  missing := by
    intro evidence' hgrown
    rw [mem_missing_iff, mem_missing_iff]
    exact fun hdone hrequired => complete_grown hbacked hgrown (hdone hrequired)

theorem get?_batches_of_mem {row : Json} (h : row ∈ batches evidence) :
    ∃ rows, evidence.get? "batches" = some (.arr rows) ∧ row ∈ rows := by
  unfold batches at h
  cases hfound : evidence.get? "batches" with
  | none =>
      rw [hfound] at h
      cases h
  | some v =>
      rw [hfound, Option.bind_some] at h
      cases v with
      | arr rows => exact ⟨rows, rfl, h⟩
      | null => cases h
      | bool b => cases h
      | num n => cases h
      | str s => cases h
      | obj members => cases h

theorem decides_in_some_order {row : Json} (h : row ∈ packRows evidence packId) :
    ∃ rows rows', evidence.get? "batches" = some (.arr rows) ∧ rows.Perm rows' ∧
      siliconPackAttemptComplete (withBatches evidence rows') packId = !started row := by
  rcases List.mem_filter.mp h with ⟨hmem, hid⟩
  rcases get?_batches_of_mem hmem with ⟨rows, hrows, hrow⟩
  rcases object_of_get? hrows with ⟨members, rfl⟩
  rcases List.append_of_mem hrow with ⟨before, after, hsplit⟩
  refine ⟨rows, row :: (before ++ after), hrows, ?_, ?_⟩
  · rw [hsplit]
    exact List.perm_middle
  · have hfirst : packRows (withBatches (.obj members) (row :: (before ++ after))) packId =
        row :: (before ++ after).filter fun b => rowId b = packId := by
      rw [packRows_withBatches, List.filter_cons_of_pos (by simpa using hid)]
    exact complete_of_head hfirst

theorem PackLaw.samePhase (h : PackLaw evidence packId) : SamePhase evidence packId := by
  have hdecides : ∀ row ∈ packRows evidence packId,
      siliconPackAttemptComplete evidence packId = !started row := by
    intro row hrow
    rcases decides_in_some_order hrow with ⟨rows, rows', hrows, hperm, hdone⟩
    rw [← hdone]
    exact (h.order rows rows' hrows hperm).symm
  cases hdone : siliconPackAttemptComplete evidence packId with
  | true =>
      refine Or.inr ?_
      intro row hrow
      have hrowDone := hdecides row hrow
      rw [hdone] at hrowDone
      simpa using hrowDone
  | false =>
      refine Or.inl ?_
      intro row hrow
      have hrowDone := hdecides row hrow
      rw [hdone] at hrowDone
      simpa using hrowDone

def heartbeatRow (packId : String) : Json :=
  .obj [("batch_id", .str packId), ("fields", .obj [("b10x_phase", .str "start")])]

theorem heartbeatRow_spec (packId : String) :
    rowId (heartbeatRow packId) = packId ∧ started (heartbeatRow packId) = true := by
  refine ⟨rfl, ?_⟩
  have hfields : batchFieldsMap (heartbeatRow packId) =
      some (SortedMap.ofEntries [("b10x_phase", .str "start")]) := rfl
  unfold started
  rw [hfields]
  decide

theorem PackLaw.rowBacked (h : PackLaw evidence packId) : RowBacked evidence packId := by
  intro hempty
  rcases heartbeatRow_spec packId with ⟨hid, hstarted⟩
  by_contra hmerged
  rw [Bool.not_eq_false] at hmerged
  have hdone : siliconPackAttemptComplete evidence packId = true := by
    rw [complete_of_no_rows hempty, hmerged]
  have hobject : ∃ members, evidence = .obj members := by
    unfold mergedTerminal at hmerged
    cases hfields : evidence.get? "fields" with
    | none =>
        rw [hfields] at hmerged
        cases hmerged
    | some v => exact object_of_get? hfields
  rcases hobject with ⟨members, rfl⟩
  have hrows : packRows (withBatches (.obj members)
      (batches (.obj members) ++ [heartbeatRow packId])) packId = [heartbeatRow packId] := by
    rw [packRows_withBatches, List.filter_append]
    have hnone : (batches (.obj members)).filter (fun b => rowId b = packId) = [] := hempty
    rw [hnone, List.filter_cons_of_pos (by simpa using hid)]
    rfl
  have hgrown := h.grows _ (Grown.batch (heartbeatRow packId)) hdone
  rw [complete_of_head hrows, hstarted] at hgrown
  cases hgrown

theorem pack_law_iff (evidence : Json) (packId : String) :
    PackLaw evidence packId ↔ SamePhase evidence packId ∧ RowBacked evidence packId :=
  ⟨fun h => ⟨h.samePhase, h.rowBacked⟩, fun h => law_of_conditions h.1 h.2⟩

def attemptRow (packId : String) : Json :=
  .obj [("batch_id", .str packId), ("fields", .obj [("b10x_ok", .bool true)])]

/-- The attempt does not count where the heartbeat stands before it. -/
theorem heartbeat_hides_attempt :
    ¬ PackLaw (.obj [("batches", .arr [heartbeatRow "B10x_silicon_ulp",
      attemptRow "B10x_silicon_ulp"])]) "B10x_silicon_ulp" := by
  intro h
  have hdone := h.attempts ⟨attemptRow "B10x_silicon_ulp", by decide, by decide⟩
  have hnot : siliconPackAttemptComplete (.obj [("batches",
      .arr [heartbeatRow "B10x_silicon_ulp", attemptRow "B10x_silicon_ulp"])])
      "B10x_silicon_ulp" = false := by decide
  rw [hnot] at hdone
  cases hdone

end Law

end SiliconPacks

end GrServer
