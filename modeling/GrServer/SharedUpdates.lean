import GrServer.SharedGovernance

/-!
# Exclusive updates of a shared governance document

A call is pending until the step that stores its document: the rename of the
temp file, or the `SET` in Redis.  The stored document is the replay of the
calls in the order of those steps.  This needs that no live holder loses its
lock file to a reclaim, that the file operations succeed, and that what was
read from Redis still stands there when it is overwritten.
-/

namespace GrServer

namespace SharedGovernance

open Json World

/-! ## The stored document -/

def replay (started : List Call) (origin : Option Json) (log : List ℕ) : Option Json :=
  log.foldl (fun v n => some (applyNth started n v)) origin

theorem replay_append (started : List Call) (origin : Option Json) (log : List ℕ) (n : ℕ) :
    replay started origin (log ++ [n]) =
      some (applyNth started n (replay started origin log)) := by
  unfold replay
  rw [List.foldl_append]
  rfl

theorem applyNth_append {started : List Call} {n : ℕ} (c : Call) (v : Option Json)
    (hn : n < started.length) : applyNth (started ++ [c]) n v = applyNth started n v := by
  unfold applyNth
  rw [List.getElem?_append_left hn]

theorem replay_append_started (started : List Call) (c : Call) (origin : Option Json)
    {log : List ℕ} (hlog : ∀ n ∈ log, n < started.length) :
    replay (started ++ [c]) origin log = replay started origin log := by
  induction log generalizing origin with
  | nil => rfl
  | cons n log ih =>
      have hn := hlog n List.mem_cons_self
      have hrest := ih (some (applyNth started n origin))
        fun m hm => hlog m (List.mem_cons_of_mem n hm)
      unfold replay at hrest ⊢
      rw [List.foldl_cons, List.foldl_cons, applyNth_append c origin hn]
      exact hrest

section Keys

def HasKey (stored : Option Json) (k : String) : Prop :=
  ∃ v, stored.bind (·.get? k) = some v

def Call.Growing (c : Call) : Prop :=
  ∀ members k, HasKey (some (.obj members)) k → HasKey (some (c.update (.obj members))) k

def Call.Inserts (c : Call) (k : String) : Prop :=
  ∀ members, HasKey (some (c.update (.obj members))) k

theorem Call.Inserts.apply {c : Call} {k : String} (h : c.Inserts k) (v : Option Json) :
    HasKey (some (c.apply v)) k := by
  unfold Call.apply asObjectOrEmpty
  split
  · exact h _
  · exact h []

theorem Call.Growing.apply {c : Call} {k : String} (h : c.Growing) {v : Json}
    (hv : HasKey (some v) k) : HasKey (some (c.apply (some v))) k := by
  cases v with
  | obj members => exact h members k hv
  | null | bool _ | num _ | str _ | arr _ =>
      obtain ⟨w, hw⟩ := hv
      cases hw

variable {started : List Call} {origin : Option Json} {log : List ℕ} {k : String}

theorem hasKey_applyNth (hgrowing : ∀ c ∈ started, c.Growing) {n : ℕ} {v : Option Json}
    (hn : n < started.length) (h : HasKey v k) : HasKey (some (applyNth started n v)) k := by
  cases v with
  | none =>
      obtain ⟨w, hw⟩ := h
      cases hw
  | some v =>
      unfold applyNth
      rw [List.getElem?_eq_getElem hn]
      exact (hgrowing _ (List.getElem_mem hn)).apply h

theorem hasKey_replay (hgrowing : ∀ c ∈ started, c.Growing)
    (hlog : ∀ n ∈ log, n < started.length) (h : HasKey origin k) :
    HasKey (replay started origin log) k := by
  induction log generalizing origin with
  | nil => exact h
  | cons n log ih =>
      have hn := hlog n List.mem_cons_self
      exact ih (fun m hm => hlog m (List.mem_cons_of_mem n hm))
        (hasKey_applyNth hgrowing hn h)

theorem hasKey_replay_inserted (hgrowing : ∀ c ∈ started, c.Growing)
    (hlog : ∀ n ∈ log, n < started.length) {n : ℕ} {c : Call} (hn : n ∈ log)
    (hc : started[n]? = some c) (hk : c.Inserts k) :
    HasKey (replay started origin log) k := by
  obtain ⟨before, after, rfl⟩ := List.append_of_mem hn
  have hstored : HasKey (some (applyNth started n (replay started origin before))) k := by
    unfold applyNth
    rw [hc]
    exact hk.apply _
  have hafter : ∀ m ∈ after, m < started.length := by
    intro m hm
    apply hlog
    simp [hm]
  have hreplay : replay started origin (before ++ n :: after) =
      replay started (some (applyNth started n (replay started origin before))) after := by
    unfold replay
    rw [List.foldl_append]
    rfl
  rw [hreplay]
  exact hasKey_replay hgrowing hafter hstored

end Keys

def Pc.holds : Pc → Bool
  | .loading | .opening _ .release | .writing _ _ .release | .renamingTmp .release
  | .releasing => true
  | _ => false

section Promise

variable (readTorn : Content → Option Json)

/-- What a reader of the document finds. -/
def World.stored (s : World) : Option Json :=
  if s.l2 then s.redis.or (s.files.loadJson readTorn) else s.files.loadJson readTorn

def World.Exclusive (s : World) : Prop :=
  ∀ p q, (s.pc p).holds = true → (s.pc q).holds = true → p = q

/-- The stored document is that of a sequence of calls, each made once, with
all that returned among them. -/
def World.Reflects (origin : Option Json) (s : World) : Prop :=
  ∃ log : List ℕ, log.Nodup ∧ (∀ n ∈ log, n < s.started.length) ∧
    (∀ n ∈ s.returned, n ∈ log) ∧ s.stored readTorn = replay s.started origin log

/-- No call drops a key of its own: then none is lost. -/
def World.KeepsKeys (origin : Option Json) (s : World) : Prop :=
  (∀ c ∈ s.started, c.Growing) →
    (∀ k, HasKey origin k → HasKey (s.stored readTorn) k) ∧
    ∀ n ∈ s.returned, ∀ c k, s.started[n]? = some c → c.Inserts k →
      HasKey (s.stored readTorn) k

/-- A release finds its own lock, or none. -/
def ReleasesOwn (s : World) : Event → Prop
  | .release p => s.pc p = .releasing → ∀ l, s.lock = some l → l.owner = p
  | _ => True

structure Promise (origin : Option Json) (s : World) (e : Event) : Prop where
  releasesOwn : ReleasesOwn s e
  exclusive : (step readTorn s e).Exclusive
  reflects : (step readTorn s e).Reflects readTorn origin
  keepsKeys : (step readTorn s e).KeepsKeys readTorn origin

/-- No reclaim takes the lock of a live holder, no read or write of the locked
file fails, and a `SET` is taken and overwrites what its call read. -/
def Guarded (s : World) : Event → Prop
  | .reclaim p =>
      match s.pc p with
      | .reclaiming _ _ => ∀ l, s.lock = some l → (s.pc l.owner).holds = false
      | _ => True
  | .load p ok =>
      match s.pc p with
      | .loading => ok = true ∨ s.files.loadJson readTorn = none
      | _ => True
  | .openTmp p ok =>
      match s.pc p with
      | .opening _ _ => s.l2 = true ∨ ok = true
      | _ => True
  | .write p ok =>
      match s.pc p with
      | .writing _ _ _ => s.l2 = true ∨ ok = true
      | _ => True
  | .rename p ok =>
      match s.pc p with
      | .renamingTmp _ => s.l2 = true ∨ ok = true
      | _ => True
  | .set p reply =>
      match s.pc p with
      | .setting base => base = s.stored readTorn ∧ reply ≠ .failed
      | _ => True
  | _ => True

end Promise

/-! ## The ledger of the calls -/

def Todo.Pending : Todo → Prop
  | .load => True
  | .fallback _ => False

def Pc.Pending (l2 : Bool) : Pc → Prop
  | .idle | .crashed | .releasing => False
  | .seeding | .getting _ | .setting _ | .loading => True
  | .checking _ todo | .reclaiming _ todo | .creating _ todo => todo.Pending
  | .opening _ _ | .writing _ _ _ | .renamingTmp _ => l2 = false

def Pc.Committed (l2 : Bool) : Pc → Prop
  | .idle | .crashed | .seeding | .getting _ | .setting _ | .loading => False
  | .checking _ todo | .reclaiming _ todo | .creating _ todo => ¬ todo.Pending
  | .opening _ _ | .writing _ _ _ | .renamingTmp _ => l2 = true
  | .releasing => True

theorem Pc.Pending.not_committed {l2 : Bool} {c : Pc} (h : c.Pending l2) : ¬ c.Committed l2 := by
  intro hcommitted
  cases c <;> simp_all [Pc.Pending, Pc.Committed]

structure Ledger (l2 : Bool) (pc : ℕ → Pc) (call : ℕ → ℕ) (started : ℕ)
    (returned log : List ℕ) : Prop where
  once : log.Nodup
  known : ∀ n ∈ log, n < started
  returned : ∀ n ∈ returned, n ∈ log
  pending : ∀ p, (pc p).Pending l2 → call p < started ∧ call p ∉ log
  alone : ∀ p q, (pc p).Pending l2 → (pc q).Pending l2 → call p = call q → p = q
  committed : ∀ p, (pc p).Committed l2 → call p ∈ log

namespace Ledger

variable {l2 : Bool} {pc : ℕ → Pc} {call : ℕ → ℕ} {started : ℕ} {returned log : List ℕ}
variable {p : ℕ} {new : Pc}

theorem move (h : Ledger l2 pc call started returned log)
    (hpending : new.Pending l2 → (pc p).Pending l2)
    (hcommitted : new.Committed l2 → (pc p).Committed l2) :
    Ledger l2 (Function.update pc p new) call started returned log := by
  have hpend : ∀ q, (Function.update pc p new q).Pending l2 → (pc q).Pending l2 := by
    intro q hq
    by_cases hqp : q = p
    · subst hqp
      rw [Function.update_self] at hq
      exact hpending hq
    · rwa [Function.update_of_ne hqp] at hq
  refine ⟨h.once, h.known, h.returned, fun q hq => h.pending q (hpend q hq),
    fun q r hq hr => h.alone q r (hpend q hq) (hpend r hr), ?_⟩
  intro q hq
  by_cases hqp : q = p
  · subst hqp
    rw [Function.update_self] at hq
    exact h.committed q (hcommitted hq)
  · rw [Function.update_of_ne hqp] at hq
    exact h.committed q hq

theorem commit (h : Ledger l2 pc call started returned log) (hp : (pc p).Pending l2)
    (hnew : ¬ new.Pending l2) :
    Ledger l2 (Function.update pc p new) call started returned (log ++ [call p]) := by
  obtain ⟨hstarted, hfresh⟩ := h.pending p hp
  have hother : ∀ q, (Function.update pc p new q).Pending l2 → q ≠ p ∧ (pc q).Pending l2 := by
    intro q hq
    by_cases hqp : q = p
    · subst hqp
      rw [Function.update_self] at hq
      exact absurd hq hnew
    · rw [Function.update_of_ne hqp] at hq
      exact ⟨hqp, hq⟩
  constructor
  · rw [List.nodup_append]
    refine ⟨h.once, List.nodup_singleton _, ?_⟩
    intro n hn m hm hnm
    rw [List.mem_singleton] at hm
    exact hfresh (hm ▸ hnm ▸ hn)
  · intro n hn
    rcases List.mem_append.mp hn with hn | hn
    · exact h.known n hn
    · rw [List.mem_singleton] at hn
      exact hn ▸ hstarted
  · intro n hn
    exact List.mem_append_left _ (h.returned n hn)
  · intro q hq
    obtain ⟨hqp, hq⟩ := hother q hq
    obtain ⟨hlt, hnot⟩ := h.pending q hq
    refine ⟨hlt, ?_⟩
    rw [List.mem_append, List.mem_singleton]
    rintro (hin | hsame)
    · exact hnot hin
    · exact hqp (h.alone q p hq hp hsame)
  · intro q r hq hr
    exact h.alone q r (hother q hq).2 (hother r hr).2
  · intro q hq
    by_cases hqp : q = p
    · subst hqp
      simp
    · rw [Function.update_of_ne hqp] at hq
      exact List.mem_append_left _ (h.committed q hq)

theorem finish (h : Ledger l2 pc call started returned log) (hp : (pc p).Committed l2) :
    Ledger l2 (Function.update pc p .idle) call started (returned ++ [call p]) log := by
  have hmove : Ledger l2 (Function.update pc p .idle) call started returned log :=
    h.move (fun hidle => hidle.elim) (fun hidle => hidle.elim)
  refine { hmove with returned := ?_ }
  intro n hn
  rcases List.mem_append.mp hn with hn | hn
  · exact h.returned n hn
  · rw [List.mem_singleton] at hn
    exact hn ▸ h.committed p hp

theorem begin (h : Ledger l2 pc call started returned log)
    (hnew : ¬ new.Committed l2) :
    Ledger l2 (Function.update pc p new) (Function.update call p started) (started + 1)
      returned log := by
  have hfresh : started ∉ log := fun hin => lt_irrefl _ (h.known _ hin)
  constructor
  · exact h.once
  · intro n hn
    have hlt := h.known n hn
    omega
  · exact h.returned
  · intro q hq
    by_cases hqp : q = p
    · subst hqp
      rw [Function.update_self]
      exact ⟨Nat.lt_succ_self _, hfresh⟩
    · rw [Function.update_of_ne hqp] at hq ⊢
      obtain ⟨hlt, hnot⟩ := h.pending q hq
      exact ⟨Nat.lt_succ_of_lt hlt, hnot⟩
  · intro q r hq hr hsame
    by_cases hqp : q = p <;> by_cases hrp : r = p
    · rw [hqp, hrp]
    · rw [Function.update_of_ne hrp] at hr hsame
      rw [hqp, Function.update_self] at hsame
      have hlt := (h.pending r hr).1
      omega
    · rw [Function.update_of_ne hqp] at hq hsame
      rw [hrp, Function.update_self] at hsame
      have hlt := (h.pending q hq).1
      omega
    · rw [Function.update_of_ne hqp] at hq hsame
      rw [Function.update_of_ne hrp] at hr hsame
      exact h.alone q r hq hr hsame
  · intro q hq
    by_cases hqp : q = p
    · subst hqp
      rw [Function.update_self] at hq
      exact absurd hq hnew
    · rw [Function.update_of_ne hqp] at hq ⊢
      exact h.committed q hq

end Ledger

/-! ## Lock and files -/

def Locked (lock : Option LockFile) (pc : ℕ → Pc) : Prop :=
  ∀ p, (pc p).holds = true → ∃ l, lock = some l ∧ l.owner = p

theorem Locked.exclusive {lock : Option LockFile} {pc : ℕ → Pc} (h : Locked lock pc) {p q : ℕ}
    (hp : (pc p).holds = true) (hq : (pc q).holds = true) : p = q := by
  obtain ⟨l, hl, rfl⟩ := h p hp
  obtain ⟨m, hm, rfl⟩ := h q hq
  rw [hl, Option.some.injEq] at hm
  rw [hm]

structure Files.Apart (f : Files) : Prop where
  doc : ∀ i, f.doc = some i → i < f.fresh
  tmp : ∀ i, f.tmp = some i → i < f.fresh
  apart : ∀ i, f.doc = some i → f.tmp ≠ some i

namespace Files

variable {f : Files}

theorem Apart.openTmp (h : f.Apart) : f.openTmp.2.Apart := by
  unfold Files.openTmp
  cases htmp : f.tmp with
  | some i => exact ⟨h.doc, h.tmp, h.apart⟩
  | none =>
      constructor
      · intro i hi
        exact Nat.lt_succ_of_lt (h.doc i hi)
      · intro i hi
        cases hi
        exact Nat.lt_succ_self _
      · intro i hi hfresh
        cases hfresh
        exact lt_irrefl _ (h.doc _ hi)

theorem Apart.renameTmp (h : f.Apart) : f.renameTmp.Apart := by
  unfold Files.renameTmp
  cases htmp : f.tmp with
  | none => exact h
  | some i =>
      refine ⟨?_, nofun, fun j _ => nofun⟩
      intro j hj
      cases hj
      exact h.tmp i htmp

theorem Apart.store (h : f.Apart) (i : ℕ) (c : Content) : (f.store i c).Apart :=
  ⟨h.doc, h.tmp, h.apart⟩

theorem openTmp_tmp : f.openTmp.2.tmp = some f.openTmp.1 := by
  unfold Files.openTmp
  cases htmp : f.tmp with
  | some i => exact htmp
  | none => rfl

theorem openTmp_empty : f.openTmp.2.inode f.openTmp.1 = .empty := by
  unfold Files.openTmp
  cases f.tmp <;> exact Function.update_self _ _ _

variable {readTorn : Content → Option Json}

theorem loadJson_store {i : ℕ} (hi : f.doc ≠ some i) (c : Content) :
    (f.store i c).loadJson readTorn = f.loadJson readTorn := by
  unfold loadJson Files.store
  cases hdoc : f.doc with
  | none => rfl
  | some j =>
      have hne : j ≠ i := by
        rintro rfl
        exact hi hdoc
      simp only [Option.bind_some, Function.update_of_ne hne]

theorem loadJson_openTmp (h : f.Apart) :
    f.openTmp.2.loadJson readTorn = f.loadJson readTorn := by
  unfold Files.openTmp
  cases htmp : f.tmp with
  | some i => exact loadJson_store (fun hdoc => h.apart i hdoc htmp) .empty
  | none => exact loadJson_store (fun hdoc => lt_irrefl _ (h.doc _ hdoc)) .empty

theorem loadJson_renameTmp {i : ℕ} {v : Json} (htmp : f.tmp = some i)
    (hwhole : f.inode i = .whole v) : f.renameTmp.loadJson readTorn = some v := by
  unfold Files.renameTmp loadJson
  rw [htmp]
  simp only [Option.bind_some, hwhole]

end Files

def Pc.Fits (l2 : Bool) : Pc → Prop
  | .idle | .crashed | .releasing => True
  | .seeding | .getting _ | .setting _ => l2 = true
  | .loading => l2 = false
  | .checking _ todo | .reclaiming _ todo | .creating _ todo => todo.Pending ↔ l2 = false
  | .opening _ after | .writing _ _ after | .renamingTmp after => l2 = true ∨ after = .release

def Pc.Saves (f : Files) (v : Json) : Pc → Prop
  | .opening w _ => w = v
  | .writing i w _ => w = v ∧ f.tmp = some i ∧ f.inode i = .empty
  | .renamingTmp _ => ∃ i, f.tmp = some i ∧ f.inode i = .whole v
  | _ => True

theorem Pc.saves_of_not_holds {c : Pc} (hfits : c.Fits false) (hfree : c.holds = false)
    (f : Files) (v : Json) : c.Saves f v := by
  cases c with
  | opening w after | writing i w after | renamingTmp after =>
      simp only [Pc.Fits, Bool.false_eq_true, false_or] at hfits
      subst hfits
      cases hfree
  | _ => trivial

theorem Pc.saves_of_not_pending {c : Pc} (h : ¬ c.Pending false) (f : Files) (v : Json) :
    c.Saves f v := by
  cases c with
  | opening w after | writing i w after | renamingTmp after => exact absurd rfl h
  | _ => trivial

end SharedGovernance

end GrServer
