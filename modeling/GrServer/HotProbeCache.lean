import GrServer.GuardedRun
import GrServer.Json
import GrServer.ReverseIndex

/-!
# The hot probe cache

The in-memory map from visitor terminals to their recent batches, and its index
by session.  How a payload is compacted does not matter to the index, so the
compaction is a parameter.  `iter` is the order in which the hash map lists its
keys, which decides between entries of one age.
-/

namespace GrServer

open ReverseIndex

namespace HotProbeCache

structure HotProbeEntry where
  visitorTerminalId : String
  sessionId : String
  lastUpdateMs : ℤ
  batches : SortedMap String Json
  clientIp : Option String

structure Cache where
  byVt : SortedMap String HotProbeEntry
  bySession : SortedMap String String

def Cache.new : Cache where
  byVt := SortedMap.empty
  bySession := SortedMap.empty

def Cache.getByVt (c : Cache) (vtid : String) : Option HotProbeEntry :=
  c.byVt.get? vtid

def Cache.getBySession (c : Cache) (sessionId : String) : Option HotProbeEntry :=
  (c.bySession.get? sessionId).bind c.getByVt

def saturatingSub (a b : ℤ) : ℤ :=
  max (-2 ^ 63) (min (2 ^ 63 - 1) (a - b))

def Cache.removeAll (c : Cache) (vtids : List String) : Cache :=
  let t := eraseRows HotProbeEntry.sessionId (c.byVt, c.bySession) vtids
  { byVt := t.1, bySession := t.2 }

def Cache.demoteVts (c : Cache) (vtids : List String) : Cache :=
  c.removeAll vtids

def Cache.stale (c : Cache) (now idleMs : ℤ) : List String :=
  (c.byVt.entries.filter fun entry =>
    idleMs ≤ saturatingSub now entry.2.lastUpdateMs).map Prod.fst

def Cache.demoteIdle (c : Cache) (now idleMs : ℤ) : Cache :=
  c.removeAll (c.stale now idleMs)

def Cache.touch (c : Cache) (now : ℤ) (vtid : String) : Cache :=
  match c.byVt.get? vtid with
  | none => c
  | some e => { c with byVt := c.byVt.insert vtid { e with lastUpdateMs := now } }

section Upsert

variable (compactProbePayload : Json → Json)

structure BatchUpsert where
  visitorTerminalId : String
  sessionId : String
  batchId : String
  payload : Json
  clientIp : Option String
  now : ℤ
  hotMaxVts : ℕ
  iter : List String

/-- The entry after an upsert; an empty address does not replace one. -/
def BatchUpsert.entry (b : BatchUpsert) (old : Option HotProbeEntry) : HotProbeEntry :=
  let entry := old.getD
    { visitorTerminalId := b.visitorTerminalId
      sessionId := b.sessionId
      lastUpdateMs := b.now
      batches := SortedMap.empty
      clientIp := b.clientIp }
  { entry with
    sessionId := b.sessionId
    lastUpdateMs := b.now
    clientIp := (b.clientIp.filter (· ≠ "")).or entry.clientIp
    batches := entry.batches.insert b.batchId (compactProbePayload b.payload) }

/-- The terminals an over-full map evicts: the longest idle, at most 64, and
never the one of the upsert. -/
def victims (byVt : SortedMap String HotProbeEntry) (b : BatchUpsert) : List String :=
  if 0 < b.hotMaxVts ∧ b.hotMaxVts < byVt.entries.length then
    let idle := (b.iter.filterMap fun k => (byVt.get? k).map fun e => (k, e.lastUpdateMs))
    let sorted := idle.insertionSort fun x y => x.2 ≤ y.2
    let excess := byVt.entries.length - b.hotMaxVts
    ((sorted.take (min excess 64)).map Prod.fst).filter (· ≠ b.visitorTerminalId)
  else []

def Cache.evicted (c : Cache) (b : BatchUpsert) : List String :=
  victims (c.byVt.insert b.visitorTerminalId
    (b.entry compactProbePayload (c.byVt.get? b.visitorTerminalId))) b

def Cache.upsertBatch (c : Cache) (b : BatchUpsert) : Cache :=
  let entry := b.entry compactProbePayload (c.byVt.get? b.visitorTerminalId)
  let byVt := c.byVt.insert b.visitorTerminalId entry
  let kept := Cache.removeAll { c with byVt := byVt } (victims byVt b)
  { kept with bySession := kept.bySession.insert b.sessionId b.visitorTerminalId }

/-- Promotion from cold storage is an upsert. -/
def Cache.promoteBatch (c : Cache) (b : BatchUpsert) : Cache :=
  c.upsertBatch compactProbePayload b

/-! ## Runs -/

inductive Event where
  | upsertBatch (b : BatchUpsert)
  | promoteBatch (b : BatchUpsert)
  | touch (now : ℤ) (vtid : String)
  | demoteIdle (now idleMs : ℤ)
  | demoteVts (vtids : List String)

def step (c : Cache) : Event → Cache
  | .upsertBatch b => c.upsertBatch compactProbePayload b
  | .promoteBatch b => c.promoteBatch compactProbePayload b
  | .touch now vtid => c.touch now vtid
  | .demoteIdle now idleMs => c.demoteIdle now idleMs
  | .demoteVts vtids => c.demoteVts vtids

/-- The index leads to live terminals only, finds each by its session, and
answers with entries of the session asked for. -/
structure Coherent (c : Cache) : Prop where
  live : ∀ s v, c.bySession.get? s = some v → (c.byVt.get? v).isSome
  current : ∀ v e, c.byVt.get? v = some e → c.bySession.get? e.sessionId = some v
  answers : ∀ s e, c.getBySession s = some e → e.sessionId = s

def SessionFree (c : Cache) (b : BatchUpsert) : Prop :=
  (∀ e, c.byVt.get? b.visitorTerminalId = some e → e.sessionId = b.sessionId) ∧
    ∀ v, c.bySession.get? b.sessionId = some v →
      v = b.visitorTerminalId ∨ v ∈ c.evicted compactProbePayload b

def NoRebinding (c : Cache) : Event → Prop
  | .upsertBatch b => SessionFree compactProbePayload c b
  | .promoteBatch b => SessionFree compactProbePayload c b
  | _ => True

variable {compactProbePayload} {c : Cache}

theorem coherent_iff :
    Coherent c ↔ Indexes HotProbeEntry.sessionId c.byVt c.bySession := by
  constructor
  · intro h s v
    constructor
    · intro hs
      obtain ⟨e, he⟩ := Option.isSome_iff_exists.mp (h.live s v hs)
      have hanswer : c.getBySession s = some e := by
        simp [Cache.getBySession, Cache.getByVt, hs, he]
      exact ⟨e, he, h.answers s e hanswer⟩
    · rintro ⟨e, he, rfl⟩
      exact h.current v e he
  · intro h
    constructor
    · intro s v hs
      obtain ⟨e, he, -⟩ := (h s v).mp hs
      simp [he]
    · intro v e he
      exact h.get? he
    · intro s e he
      obtain ⟨v, hs, hv⟩ := Option.bind_eq_some_iff.mp he
      obtain ⟨e', he', hsession⟩ := (h s v).mp hs
      rw [Cache.getByVt, he', Option.some.injEq] at hv
      rw [← hv, hsession]

theorem coherent_new : Coherent Cache.new :=
  coherent_iff.mpr indexes_empty

theorem Coherent.removeAll (h : Coherent c) (vtids : List String) :
    Coherent (c.removeAll vtids) :=
  coherent_iff.mpr ((coherent_iff.mp h).eraseRows vtids)

theorem Coherent.touch (h : Coherent c) (now : ℤ) (vtid : String) :
    Coherent (c.touch now vtid) := by
  unfold Cache.touch
  cases hentry : c.byVt.get? vtid with
  | none => exact h
  | some e => exact coherent_iff.mpr ((coherent_iff.mp h).replace hentry rfl)

theorem not_mem_victims (byVt : SortedMap String HotProbeEntry) (b : BatchUpsert) :
    b.visitorTerminalId ∉ victims byVt b := by
  unfold victims
  split_ifs <;> simp

theorem coherent_upsertBatch_iff (h : Coherent c) (b : BatchUpsert) :
    Coherent (c.upsertBatch compactProbePayload b) ↔
      SessionFree compactProbePayload c b := by
  rw [coherent_iff]
  exact (coherent_iff.mp h).rebind_iff (not_mem_victims _ b)
    (b.entry compactProbePayload (c.byVt.get? b.visitorTerminalId))

theorem coherent_step_iff (h : Coherent c) (e : Event) :
    Coherent (step compactProbePayload c e) ↔ NoRebinding compactProbePayload c e := by
  cases e with
  | upsertBatch b => exact coherent_upsertBatch_iff h b
  | promoteBatch b => exact coherent_upsertBatch_iff h b
  | touch now vtid => exact iff_of_true (h.touch now vtid) trivial
  | demoteIdle now idleMs => exact iff_of_true (h.removeAll _) trivial
  | demoteVts vtids => exact iff_of_true (h.removeAll vtids) trivial

/-- The index is coherent in every state a run reaches exactly when no upsert
of the run rebinds a session. -/
theorem run_coherent_iff (events : List Event) :
    Along (step compactProbePayload)
        (fun c e => Coherent (step compactProbePayload c e)) Cache.new events ↔
      Along (step compactProbePayload) (NoRebinding compactProbePayload)
        Cache.new events := by
  have hstep : ∀ (c : Cache) (e : Event), Coherent c →
      (Coherent (step compactProbePayload c e) ↔ NoRebinding compactProbePayload c e) :=
    fun _ e hcoherent => coherent_step_iff hcoherent e
  exact Along.iff_invariant hstep coherent_new events

end Upsert

def sampleUpsert (sessionId : String) (now : ℤ) : BatchUpsert where
  visitorTerminalId := "vt_1"
  sessionId := sessionId
  batchId := "B0_bootstrap"
  payload := .null
  clientIp := none
  now := now
  hotMaxVts := 8192
  iter := ["vt_1"]

/-- After its second session is evicted with the terminal, the first one is
still indexed. -/
theorem first_session_stays_indexed :
    let rebound := runFrom (step id) Cache.new
      [.upsertBatch (sampleUpsert "c_1" 0), .upsertBatch (sampleUpsert "c_2" 1)]
    let demoted := step id rebound (.demoteVts ["vt_1"])
    (rebound.getBySession "c_1").map HotProbeEntry.sessionId = some "c_2" ∧
      demoted.bySession.get? "c_1" = some "vt_1" ∧
      (demoted.byVt.get? "vt_1").isNone ∧
      ¬ Coherent rebound ∧ ¬ Coherent demoted := by
  have hanswer : ((runFrom (step id) Cache.new
      [.upsertBatch (sampleUpsert "c_1" 0),
        .upsertBatch (sampleUpsert "c_2" 1)]).getBySession "c_1").map
          HotProbeEntry.sessionId = some "c_2" := by
    decide
  have hindexed : (step id (runFrom (step id) Cache.new
      [.upsertBatch (sampleUpsert "c_1" 0), .upsertBatch (sampleUpsert "c_2" 1)])
        (.demoteVts ["vt_1"])).bySession.get? "c_1" = some "vt_1" := by
    decide
  have hgone : ((step id (runFrom (step id) Cache.new
      [.upsertBatch (sampleUpsert "c_1" 0), .upsertBatch (sampleUpsert "c_2" 1)])
        (.demoteVts ["vt_1"])).byVt.get? "vt_1").isNone := by
    decide
  refine ⟨hanswer, hindexed, hgone, ?_, ?_⟩
  · intro hcoherent
    obtain ⟨e, he, hsession⟩ := Option.map_eq_some_iff.mp hanswer
    have hsame := hcoherent.answers "c_1" e he
    rw [hsession] at hsame
    exact absurd hsame (by decide)
  · intro hcoherent
    have hlive := hcoherent.live "c_1" "vt_1" hindexed
    rw [Option.isNone_iff_eq_none.mp hgone] at hlive
    simp at hlive

end HotProbeCache

end GrServer
