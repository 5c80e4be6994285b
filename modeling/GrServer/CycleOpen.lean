import GrServer.CycleStore

/-!
# Opening a cycle

`open_cycle_inner` passes a cool-down gate and then picks a path by the client's
hint and the visitor's active cycle.  A path answers, fails, or enters the
operation again; every entry takes its own reading of the clock.
-/

namespace GrServer

open Json Text

namespace CycleStore

inductive Phase where
  | cool
  | active
  | new
  deriving DecidableEq

/-- The answer of an open; the members an answer leaves out are `none`. -/
structure OpenAnswer where
  cycleId : String
  visitor : String
  created : ℤ
  phase : Phase
  resumed : Bool := false
  clientHintHonored : Option Bool := none
  supersededCycle : Option String := none
  convergedToActive : Option Bool := none
  reprobeReason : Option String := none
  needHardAnchor : Option Bool := none
  b8Bonded : Option Bool := none
  activePromoted : Option Bool := none
  coolUntil : Option ℤ := none
  lastComplete : Option ℤ := none
  lastIdentityResult : Option Json := none
  productVersion : String
  productVersionLast : String
  info : Fields

def OpenAnswer.skipIdentityProbe (a : OpenAnswer) : Bool := a.phase = .cool

/-- What every path of one entry works with: the visitor, its row as loaded, the
product version and the cool-down that the gate left. -/
structure Entry where
  reading : Reading
  vt : String
  row : VisitorRow
  productVersion : String
  coolUntil : ℤ
  info : Fields
  reason : Option ReprobeReason

inductive Outcome where
  | answered (answer : OpenAnswer)
  | failed (error : StoreError)
  | again (hint : Option String) (converged : Option String)

/-! ## Entry -/

def currentProductVersion (cfg : Config) (info : Fields) : String :=
  if productVersionFromMeta info ≠ "" then productVersionFromMeta info else cfg.productVersion

def stampInfo (info : Fields) (productVersion : String) : Fields :=
  let info := (info.insertNew "identity_class" (.str "js")).insertNew "cycle_status"
    (.str "active")
  if productVersion = "" then info else info.insert "product_version" (.str productVersion)

def coolCycle (row : VisitorRow) (hint : Option String) (mint : String) : String :=
  if row.activeCycle ≠ "" then row.activeCycle else hint.getD ("cycle_" ++ mint)

abbrev Gate := Except Entry OpenAnswer

def invalidateCool (e : Entry) : Entry :=
  let reason := (coolInvalidReason e.row.coolUntil e.reading.now e.row.productVersionLast
    e.productVersion).getD (if e.row.productVersionLast = "" then .missingProductVersionLast
      else .productVersionMismatch)
  { e with
    coolUntil := 0
    reason := some reason
    info := (e.info.insert "cool_invalidated_reason" (.str reason.asStr)).insert
      "product_version_last" (.str e.row.productVersionLast) }

def coolAnswer (s : Store) (e : Entry) (cycle : String) : OpenAnswer where
  cycleId := cycle
  visitor := e.vt
  created := e.reading.now
  phase := .cool
  coolUntil := some e.row.coolUntil
  lastComplete := some e.row.lastComplete
  lastIdentityResult := latestAnalysis s cycle
  productVersion := e.productVersion
  productVersionLast := e.row.productVersionLast
  info := e.info

def bookCycle (s : Store) (e : Entry) (cycle : String) : Store :=
  if (s.sessions.get? cycle).isNone then putSession s cycle ⟨e.vt, e.reading.now, e.info⟩ else s

def coolOk (e : Entry) (forced : Bool) : Bool :=
  coolValidForProductVersion e.row.coolUntil e.reading.now e.row.productVersionLast
    e.productVersion && !forced

def coolGate (s : Store) (hint : Option String) (forced : Bool) (e : Entry) : Store × Gate :=
  let cycle := coolCycle e.row hint e.reading.mint
  if e.reading.now < e.row.coolUntil ∧ coolOk e forced = false then
    (upsertVt s e.vt { e.row with coolUntil := 0 }, .error (invalidateCool e))
  else if coolOk e forced then
    if siliconOk (bookCycle s e cycle) cycle then
      (bookCycle s e cycle, .ok (coolAnswer (bookCycle s e cycle) e cycle))
    else
      (upsertVt (bookCycle s e cycle) e.vt { e.row with coolUntil := 0 },
        .error { e with
          coolUntil := 0
          info := (e.info.insert "cool_invalidated_reason" (.str "cool_without_silicon")).insert
            "force_identity" (.bool true) })
  else (s, .error e)

/-! ## Paths -/

section Paths

variable (cfg : Config) (s : Store) (e : Entry)

def age (created : ℤ) : ℤ := e.reading.now - created

def ownedBy (row : SessionRow) : Bool := row.visitor = e.vt || row.visitor = ""

def versionOk (row : SessionRow) : Bool := cycleCompatible row.info e.productVersion

def resumedInfo (row : SessionRow) : Fields :=
  let info := (e.info.fillAll row.info).insert "cycle_status" (.str "active")
  if e.productVersion = "" then info
  else info.insert "product_version" (.str e.productVersion)

def resume (cycle : String) (row : SessionRow) (converged : Option Bool) : Store × OpenAnswer :=
  let info := resumedInfo e row
  let s := putSession s cycle { row with visitor := e.vt, info := info }
  let s := upsertVt s e.vt { e.row with coolUntil := e.coolUntil, activeCycle := cycle }
  let (s, bonded) := attachOrphanB8ForVt s e.vt cycle e.reading.inner
  (s, { cycleId := cycle, visitor := e.vt, created := row.created, phase := .active,
        resumed := true, convergedToActive := converged,
        clientHintHonored := converged.map not, needHardAnchor := some !hasB10 s cycle,
        b8Bonded := some bonded, productVersion := e.productVersion,
        productVersionLast := e.row.productVersionLast, info := info })

/-- Resume the cycle, or complete it where its last analysis closes it. -/
def resumeOrHeal (cycle : String) (row : SessionRow) (converged : Option Bool) :
    Store × Outcome :=
  if closesCycle cfg s cycle then
    (completeRow cfg e.reading.inner cycle row s, .again none none)
  else
    let (s, answer) := resume s e cycle row converged
    (s, .answered answer)

/-- A cycle under a fresh id; the insert fails where the id is taken. -/
def mintCycle (info : Fields) (hint : Option String) (reason : Option ReprobeReason) :
    Store × Outcome :=
  let cycle := "cycle_" ++ e.reading.mint
  let info := (info.insert "cycle_status" (.str "active")).insert "cycle_id" (.str cycle)
  if (s.sessions.get? cycle).isSome then (s, .failed (.duplicateKey cycle))
  else
    let s := putSession s cycle ⟨e.vt, e.reading.now, info⟩
    let s := if hint.isSome || e.productVersion ≠ "" then
        upsertVt s e.vt { e.row with coolUntil := 0, activeCycle := cycle }
      else s
    let (s, bonded) := if hint.isSome then attachOrphanB8ForVt s e.vt cycle e.reading.inner
      else (s, false)
    (s, .answered
      { cycleId := cycle, visitor := e.vt, created := e.reading.now, phase := .new,
        clientHintHonored := hint.map fun _ => false, supersededCycle := hint,
        reprobeReason := reason.map (·.asStr), b8Bonded := hint.map fun _ => bonded,
        productVersion := e.productVersion,
        productVersionLast := e.row.productVersionLast, info := info })

/-- Why the hinted cycle is not resumed, the earlier reason where none of the
checks says so. -/
def supersedeReason (row : SessionRow) : Option ReprobeReason :=
  if cycleStatus row.info = "complete" then some .cycleCompleteSuperseded
  else if versionOk e row = false then some .cycleVersionMismatch
  else if cfg.incompleteMs ≤ age e row.created then some .cycleIncompleteExpired
  else e.reason

def resumable (row : SessionRow) : Bool :=
  cycleStatus row.info ≠ "complete" && versionOk e row && age e row.created < cfg.incompleteMs &&
    ownedBy e row

def storedHint (hint : String) (row : SessionRow) : Store × Outcome :=
  if resumable cfg e row then resumeOrHeal cfg s e hint row none
  else
    let reason := supersedeReason cfg e row
    let info := match reason with
      | some r => (e.info.insert "client_hint_superseded_reason" (.str r.asStr)).insert
          "superseded_cycle_id" (.str hint)
      | none => e.info
    mintCycle s e info (some hint) reason

/-- The visitor's active cycle, where an unknown hint converges to it. -/
def convergesTo (hint : String) : Bool :=
  e.row.activeCycle ≠ "" && e.row.activeCycle ≠ hint &&
    (s.sessions.get? e.row.activeCycle).any (resumable cfg e)

def unknownHint (hint : String) : Store × Outcome :=
  if convergesTo cfg s e hint then (s, .again (some e.row.activeCycle) (some hint))
  else
    let info := (e.info.insert "cycle_status" (.str "active")).insert "cycle_id" (.str hint)
    let s := putSession s hint ⟨e.vt, e.reading.now, info⟩
    let s := if e.productVersion = "" then s
      else upsertVt s e.vt { e.row with coolUntil := 0, activeCycle := hint }
    let (s, bonded) := attachOrphanB8ForVt s e.vt hint e.reading.inner
    (s, .answered
      { cycleId := hint, visitor := e.vt, created := e.reading.now, phase := .new,
        clientHintHonored := some true, activePromoted := some (e.productVersion ≠ ""),
        reprobeReason := e.reason.map (·.asStr), b8Bonded := some bonded,
        productVersion := e.productVersion,
        productVersionLast := e.row.productVersionLast, info := info })

def clearedRow : VisitorRow :=
  { e.row with
    coolUntil := 0
    activeCycle := ""
    productVersionLast := if e.productVersion = "" then e.row.productVersionLast
      else e.productVersion }

def activePath (hint : Option String) : Store × Outcome :=
  match if e.row.activeCycle = "" then none else s.sessions.get? e.row.activeCycle with
  | none => mintCycle s e e.info none e.reason
  | some row =>
      if cycleStatus row.info ≠ "complete" ∧ cfg.incompleteMs ≤ age e row.created then
        (upsertVt (purgeCycleEvidence e.reading.inner e.row.activeCycle s) e.vt (clearedRow e),
          .again none none)
      else if cycleStatus row.info ≠ "complete" ∧ versionOk e row = false then
        mintCycle (upsertVt s e.vt (clearedRow e)) e e.info none e.reason
      else if (cycleStatus row.info = "active" ∨ cycleStatus row.info = "") ∧
          ownedBy e row = true ∧ versionOk e row = true ∧
          age e row.created < cfg.incompleteMs then
        resumeOrHeal cfg s e e.row.activeCycle row
          (some (hint.any fun h => h ≠ e.row.activeCycle))
      else mintCycle s e e.info none e.reason

def openPath (hint : Option String) : Store × Outcome :=
  match hint.filter (· ≠ "") with
  | some h =>
      match s.sessions.get? h with
      | some row => storedHint cfg s e h row
      | none => unknownHint cfg s e h
  | none => activePath cfg s e hint

end Paths

/-- The answer of the re-entry, marked where an unknown hint converged to it. -/
def markConverged (converged : Option String) (a : OpenAnswer) : OpenAnswer :=
  match converged with
  | none => a
  | some hint =>
      { a with
        convergedToActive := some true
        clientHintHonored := some false
        reprobeReason := some "one_vt_one_active_cycle"
        supersededCycle := some hint }

def enter (cfg : Config) (r : Reading) (s : Store) (vt : String) (info : Fields) : Entry :=
  let productVersion := currentProductVersion cfg info
  let row := (s.visitors.get? vt).getD .absent
  { reading := r, vt := vt, row := row, productVersion := productVersion,
    coolUntil := row.coolUntil, info := stampInfo info productVersion, reason := none }

def openCycleInner (cfg : Config) : List Reading → Store → Option String → String → Fields →
    Store × Except StoreError OpenAnswer
  | [], s, _, _, _ => (s, .error .outOfReadings)
  | r :: rest, s, hint, vt, info =>
      let e := enter cfg r s vt info
      match coolGate s hint (forceIdentity e.info) e with
      | (s, .ok answer) => (s, .ok answer)
      | (s, .error e) =>
          match openPath cfg s e hint with
          | (s, .answered answer) => (s, .ok answer)
          | (s, .failed error) => (s, .error error)
          | (s, .again hint converged) =>
              let (s, result) := openCycleInner cfg rest s hint vt e.info
              (s, result.map (markConverged converged))

def openVisitor (visitor : Option String) (vtMint : String) : String :=
  (visitor.filter (· ≠ "")).getD ("vt_" ++ vtMint)

def openCycle (cfg : Config) (readings : List Reading) (vtMint : String) (s : Store)
    (hint visitor : Option String) (info : Fields) : Store × Except StoreError OpenAnswer :=
  openCycleInner cfg readings s hint (openVisitor visitor vtMint) info

end CycleStore

end GrServer
