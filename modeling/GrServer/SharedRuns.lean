import GrServer.SharedUpdates

/-!
# Runs of the processes that share a document

One invariant carries exclusion and the stored document together: the lock file
belongs to the process that holds it, so nobody else touches the document and
the temp file between the read and the rename.
-/

namespace GrServer

namespace SharedGovernance

open Json World

variable {readTorn : Content → Option Json}

structure Kept (readTorn : Content → Option Json) (origin : Option Json) (log : List ℕ)
    (s : World) : Prop where
  ledger : Ledger s.l2 s.pc s.call s.started.length s.returned log
  locked : Locked s.lock s.pc
  fits : ∀ p, (s.pc p).Fits s.l2
  apart : s.files.Apart
  saves : s.l2 = false → ∀ p, (s.pc p).Saves s.files (s.updated p (s.stored readTorn))
  cached : s.l2 = true → ∀ p, (s.pc p).Committed true → s.redis ≠ none
  replayed : s.stored readTorn = replay s.started origin log

theorem kept_start (l2 : Bool) (clock : ℕ) (lock : Option LockFile) (doc tmp : Option Content)
    (redis : Option Json) :
    Kept readTorn ((start l2 clock lock doc tmp redis).stored readTorn) []
      (start l2 clock lock doc tmp redis) := by
  constructor
  · exact ⟨List.nodup_nil, nofun, nofun, fun p hp => hp.elim, fun p q hp => hp.elim,
      fun p hp => hp.elim⟩
  · exact fun p hp => nomatch hp
  · exact fun p => trivial
  · constructor
    · intro i hi
      obtain ⟨-, -, rfl⟩ := Option.map_eq_some_iff.mp hi
      exact Nat.zero_lt_two
    · intro i hi
      obtain ⟨-, -, rfl⟩ := Option.map_eq_some_iff.mp hi
      exact Nat.one_lt_two
    · intro i hi hi'
      obtain ⟨-, -, rfl⟩ := Option.map_eq_some_iff.mp hi
      obtain ⟨-, -, hone⟩ := Option.map_eq_some_iff.mp hi'
      exact absurd hone one_ne_zero
  · exact fun _ p => trivial
  · exact fun _ p hp => hp.elim
  · rfl

namespace Kept

variable {origin : Option Json} {log : List ℕ} {s : World} {p : ℕ} {new : Pc}

/-! ## Moves of one process -/

theorem cases_update {P : ℕ → Pc → Prop} {pc : ℕ → Pc} (hp : P p new)
    (hother : ∀ q, q ≠ p → P q (pc q)) (q : ℕ) : P q (Function.update pc p new q) := by
  by_cases hqp : q = p
  · subst hqp
    rw [Function.update_self]
    exact hp
  · rw [Function.update_of_ne hqp]
    exact hother q hqp

theorem saves_other (h : Kept readTorn origin log s) (hl2 : s.l2 = false)
    (hp : (s.pc p).holds = true) {q : ℕ} (hqp : q ≠ p) (f : Files) (v : Json) :
    (s.pc q).Saves f v := by
  have hfits := h.fits q
  rw [hl2] at hfits
  refine Pc.saves_of_not_holds hfits ?_ f v
  by_contra hq
  exact hqp (h.locked.exclusive (by simpa using hq) hp)

theorem move (h : Kept readTorn origin log s)
    (hpending : new.Pending s.l2 → (s.pc p).Pending s.l2)
    (hcommitted : new.Committed s.l2 → (s.pc p).Committed s.l2)
    (hholds : new.holds = true → ∃ l, s.lock = some l ∧ l.owner = p)
    (hfits : new.Fits s.l2)
    (hsaves : s.l2 = false → new.Saves s.files (s.updated p (s.stored readTorn))) :
    Kept readTorn origin log (s.goto p new) where
  ledger := h.ledger.move hpending hcommitted
  locked := cases_update (P := fun q c => c.holds = true → ∃ l, s.lock = some l ∧ l.owner = q)
    hholds fun q _ => h.locked q
  fits := cases_update (P := fun _ c => c.Fits s.l2) hfits fun q _ => h.fits q
  apart := h.apart
  saves hl2 := cases_update
    (P := fun q c => c.Saves s.files (s.updated q (s.stored readTorn)))
    (hsaves hl2) fun q _ => h.saves hl2 q
  cached hl2 := cases_update (P := fun _ c => c.Committed true → s.redis ≠ none)
    (fun hnew => by
      have hmode : s.l2 = true := hl2
      rw [hmode] at hcommitted
      exact h.cached hl2 p (hcommitted hnew))
    fun q _ => h.cached hl2 q
  replayed := h.replayed

theorem advance (h : Kept readTorn origin log s) {old : Pc} (hpc : s.pc p = old)
    (hpending : new.Pending s.l2 → old.Pending s.l2)
    (hcommitted : new.Committed s.l2 → old.Committed s.l2)
    (hfree : new.holds = false) (hfits : old.Fits s.l2 → new.Fits s.l2)
    (hsaves : ∀ f v, new.Saves f v) : Kept readTorn origin log (s.goto p new) := by
  subst hpc
  apply h.move hpending hcommitted
  · rw [hfree]
    exact nofun
  · exact hfits (h.fits p)
  · exact fun _ => hsaves _ _

theorem finish (h : Kept readTorn origin log s) (hp : (s.pc p).Committed s.l2) :
    Kept readTorn origin log (s.finishCall p) :=
  have hmove : Kept readTorn origin log (s.goto p .idle) :=
    h.move (fun hidle => hidle.elim) (fun hidle => hidle.elim) nofun trivial fun _ => trivial
  { hmove with ledger := h.ledger.finish hp }

theorem relock (h : Kept readTorn origin log s) {lock : Option LockFile}
    (hlock : Locked lock s.pc) : Kept readTorn origin log { s with lock := lock } :=
  { h with locked := hlock }

theorem refile (h : Kept readTorn origin log s) (hl2 : s.l2 = true)
    (hp : (s.pc p).Committed true) {files : Files} (hapart : files.Apart) :
    Kept readTorn origin log { s with files := files } := by
  have hstored : World.stored readTorn { s with files := files } = s.stored readTorn := by
    obtain ⟨v, hv⟩ := Option.ne_none_iff_exists'.mp (h.cached hl2 p hp)
    simp only [World.stored, hl2, if_true, hv, Option.some_or]
  have hmode : s.l2 ≠ false := by
    rw [hl2]
    decide
  refine { h with apart := hapart, saves := fun hfile => absurd hfile hmode, replayed := ?_ }
  rw [hstored]
  exact h.replayed

theorem afterSave (h : Kept readTorn origin log s) {after : After}
    (hp : (s.pc p).Committed s.l2)
    (hholds : after = .release → (s.pc p).holds = true) :
    Kept readTorn origin log (s.afterSave p after) := by
  cases after with
  | release =>
      exact h.move (fun hnew => hnew.elim) (fun _ => hp) (fun _ => h.locked p (hholds rfl))
        trivial fun _ => trivial
  | finish => exact h.finish hp

theorem prepare (h : Kept readTorn origin log s) (hl2 : s.l2 = false)
    (hp : (s.pc p).holds = true) {files : Files} (hapart : files.Apart)
    (hload : files.loadJson readTorn = s.files.loadJson readTorn)
    (hpending : (s.pc p).Pending false) (hcommitted : ¬ new.Committed false)
    (hfits : new.Fits false) (hsaves : new.Saves files (s.updated p (s.stored readTorn))) :
    Kept readTorn origin log { s.goto p new with files := files } := by
  have hstored : World.stored readTorn { s.goto p new with files := files } =
      s.stored readTorn := by
    simp only [World.stored, World.goto, hl2, Bool.false_eq_true, if_false, hload]
  have hmode : s.l2 ≠ true := by
    rw [hl2]
    decide
  constructor
  · apply h.ledger.move
    · rw [hl2]
      exact fun _ => hpending
    · rw [hl2]
      exact fun hnew => absurd hnew hcommitted
  · exact cases_update (P := fun q c => c.holds = true → ∃ l, s.lock = some l ∧ l.owner = q)
      (fun _ => h.locked p hp) fun q _ => h.locked q
  · refine cases_update (P := fun _ c => c.Fits s.l2) ?_ fun q _ => h.fits q
    rw [hl2]
    exact hfits
  · exact hapart
  · intro _
    rw [hstored]
    exact cases_update (P := fun q c => c.Saves files (s.updated q (s.stored readTorn)))
      hsaves fun q hqp => h.saves_other hl2 hp hqp _ _
  · exact fun htrue => absurd htrue hmode
  · rw [hstored]
    exact h.replayed

theorem store (h : Kept readTorn origin log s) (hl2 : s.l2 = false) {after : After}
    (hpc : s.pc p = .renamingTmp after) :
    Kept readTorn origin (log ++ [s.call p])
      { s.afterSave p after with files := s.files.renameTmp } := by
  have hfits := h.fits p
  rw [hpc, hl2] at hfits
  obtain hfalse | rfl := hfits
  · cases hfalse
  have hp : (s.pc p).holds = true := by rw [hpc]; rfl
  have hready := h.saves hl2 p
  rw [hpc] at hready
  obtain ⟨i, htmp, hwhole⟩ := hready
  have hload : s.files.renameTmp.loadJson readTorn =
      some (s.updated p (s.stored readTorn)) := Files.loadJson_renameTmp htmp hwhole
  have hmode : s.l2 ≠ true := by
    rw [hl2]
    decide
  constructor
  · apply h.ledger.commit
    · rw [hpc]
      exact hl2
    · exact id
  · exact cases_update (P := fun q c => c.holds = true → ∃ l, s.lock = some l ∧ l.owner = q)
      (fun _ => h.locked p hp) fun q _ => h.locked q
  · exact cases_update (P := fun _ c => c.Fits s.l2) trivial fun q _ => h.fits q
  · exact h.apart.renameTmp
  · intro _
    exact cases_update (P := fun q c => c.Saves s.files.renameTmp (s.updated q _))
      trivial fun q hqp => h.saves_other hl2 hp hqp _ _
  · exact fun htrue => absurd htrue hmode
  · have hstored : World.stored readTorn { s.goto p .releasing with files := s.files.renameTmp } =
        s.files.renameTmp.loadJson readTorn := by
      simp only [World.stored, World.goto, hl2, Bool.false_eq_true, if_false]
    change World.stored readTorn { s.goto p .releasing with files := s.files.renameTmp } =
      replay s.started origin (log ++ [s.call p])
    rw [hstored, hload, replay_append, ← h.replayed]
    rfl

theorem set (h : Kept readTorn origin log s) (hpc : s.pc p = .setting (s.stored readTorn))
    (hnew : new.Committed true) (hfits : new.Fits true) (hfree : new.holds = false) :
    Kept readTorn origin (log ++ [s.call p])
      { s.goto p new with redis := some (s.updated p (s.stored readTorn)) } := by
  have hl2 := h.fits p
  rw [hpc] at hl2
  have hl2 : s.l2 = true := hl2
  have hmode : s.l2 ≠ false := by
    rw [hl2]
    decide
  constructor
  · apply h.ledger.commit
    · rw [hpc]
      trivial
    · rw [hl2]
      exact fun hpending => hpending.not_committed hnew
  · refine cases_update (P := fun q c => c.holds = true → ∃ l, s.lock = some l ∧ l.owner = q)
      ?_ fun q _ => h.locked q
    rw [hfree]
    exact nofun
  · refine cases_update (P := fun _ c => c.Fits s.l2) ?_ fun q _ => h.fits q
    rw [hl2]
    exact hfits
  · exact h.apart
  · exact fun hfile => absurd hfile hmode
  · exact fun _ q _ => Option.some_ne_none _
  · change (if s.l2 then some (s.updated p (s.stored readTorn)) else s.files.loadJson readTorn) =
      replay s.started origin (log ++ [s.call p])
    rw [if_pos hl2, replay_append, ← h.replayed]
    rfl

/-! ## Steps -/

theorem enters (l2 : Bool) :
    ¬ (if l2 then Pc.seeding else .checking 0 .load).Committed l2 ∧
      (if l2 then Pc.seeding else .checking 0 .load).holds = false ∧
      (if l2 then Pc.seeding else .checking 0 .load).Fits l2 ∧
      ∀ f v, (if l2 then Pc.seeding else .checking 0 .load).Saves f v := by
  cases l2
  · exact ⟨fun hnot => hnot trivial, rfl, ⟨fun _ => rfl, fun _ => trivial⟩, fun _ _ => trivial⟩
  · exact ⟨id, rfl, rfl, fun _ _ => trivial⟩

theorem startCall (h : Kept readTorn origin log s) (c : Call) :
    Kept readTorn origin log (startCall s p c) := by
  unfold SharedGovernance.startCall
  split
  · obtain ⟨hcommitted, hfree, hfits, hsaves⟩ := enters s.l2
    constructor
    · change Ledger s.l2 (Function.update s.pc p _) (Function.update s.call p s.started.length)
        (s.started ++ [c]).length s.returned log
      rw [List.length_append, List.length_singleton]
      exact h.ledger.begin hcommitted
    · refine cases_update (P := fun q c => c.holds = true → ∃ l, s.lock = some l ∧ l.owner = q)
        ?_ fun q _ => h.locked q
      rw [hfree]
      exact nofun
    · exact cases_update (P := fun _ c => c.Fits s.l2) hfits fun q _ => h.fits q
    · exact h.apart
    · intro hl2
      refine cases_update (P := fun q pc => pc.Saves s.files (applyNth (s.started ++ [c])
        (Function.update s.call p s.started.length q) (s.stored readTorn)))
        (hsaves _ _) fun q hqp => ?_
      have hkept := h.saves hl2 q
      by_cases hpending : (s.pc q).Pending s.l2
      · rw [Function.update_of_ne hqp, applyNth_append c _ (h.ledger.pending q hpending).1]
        exact hkept
      · have hmode : s.l2 = false := hl2
        rw [hmode] at hpending
        exact Pc.saves_of_not_pending hpending _ _
    · intro hl2
      have hmode : s.l2 = true := hl2
      rw [hmode] at hcommitted
      exact cases_update (P := fun _ c => c.Committed true → s.redis ≠ none)
        (fun hnew => by rw [hmode] at hnew; exact absurd hnew hcommitted)
        fun q _ => h.cached hl2 q
    · change s.stored readTorn = replay (s.started ++ [c]) origin log
      rw [replay_append_started s.started c origin h.ledger.known]
      exact h.replayed
  · exact h

theorem readSeed (h : Kept readTorn origin log s) (ok : Bool) :
    Kept readTorn origin log (readSeed readTorn s p ok) := by
  unfold SharedGovernance.readSeed
  split
  · rename_i hpc
    exact h.advance hpc (fun _ => trivial) (fun hnew => hnew.elim) rfl id fun _ _ => trivial
  · exact h

theorem l2GetJson (h : Kept readTorn origin log s) (ok : Bool) :
    Kept readTorn origin log (l2GetJson s p ok) := by
  unfold SharedGovernance.l2GetJson
  split
  · rename_i hpc
    exact h.advance hpc (fun _ => trivial) (fun hnew => hnew.elim) rfl id fun _ _ => trivial
  · exact h

theorem l2SetJson (h : Kept readTorn origin log s) {reply : SetReply}
    (hguard : Guarded readTorn s (.set p reply)) :
    ∃ log, Kept readTorn origin log (l2SetJson s p reply) := by
  unfold SharedGovernance.l2SetJson
  split
  · rename_i base hpc
    simp only [Guarded, hpc] at hguard
    obtain ⟨rfl, hreply⟩ := hguard
    cases reply with
    | stored => exact ⟨_, h.set hpc rfl (Or.inl rfl) rfl⟩
    | lost => exact ⟨_, h.set hpc id ⟨False.elim, nofun⟩ rfl⟩
    | failed => exact absurd rfl hreply
  · exact ⟨log, h⟩

theorem checkLock (h : Kept readTorn origin log s) :
    Kept readTorn origin log (checkLock s p) := by
  unfold SharedGovernance.checkLock
  split
  · rename_i n todo hpc
    have hmoved : ∀ stale : Bool, Kept readTorn origin log
        (s.goto p (if stale then .reclaiming n todo else .creating n todo)) := by
      intro stale
      cases stale
      · exact h.advance hpc id id rfl id fun _ _ => trivial
      · exact h.advance hpc id id rfl id fun _ _ => trivial
    exact hmoved s.lockIsStale
  · exact h

theorem reclaimLock (h : Kept readTorn origin log s) (hguard : Guarded readTorn s (.reclaim p)) :
    Kept readTorn origin log (reclaimLock s p) := by
  unfold SharedGovernance.reclaimLock
  split
  · rename_i n todo hpc
    simp only [Guarded, hpc] at hguard
    have hfree : Locked none s.pc := by
      intro q hq
      obtain ⟨l, hl, rfl⟩ := h.locked q hq
      rw [hguard l hl] at hq
      cases hq
    have hmoved : Kept readTorn origin log ({ s with lock := none }.goto p (.creating n todo)) :=
      (h.relock hfree).advance hpc id id rfl id fun _ _ => trivial
    exact hmoved
  · exact h

theorem createLock (h : Kept readTorn origin log s) :
    Kept readTorn origin log (createLock s p) := by
  unfold SharedGovernance.createLock
  split
  · rename_i n todo hpc
    have hfits := h.fits p
    rw [hpc] at hfits
    split
    · rename_i hlock
      have hnobody : Locked (some ⟨p, s.clock⟩) s.pc := by
        intro q hq
        obtain ⟨l, hl, -⟩ := h.locked q hq
        rw [hlock] at hl
        cases hl
      have hmoved : Kept readTorn origin log
          ({ s with lock := some ⟨p, s.clock⟩ }.goto p (World.afterLock todo)) := by
        apply (h.relock hnobody).move
        · rw [hpc]
          cases todo with
          | load => exact fun _ => trivial
          | fallback v =>
              intro hfile
              exact hfits.mpr hfile
        · rw [hpc]
          cases todo with
          | load => exact fun hnew => hnew.elim
          | fallback v => exact fun _ => id
        · exact fun _ => ⟨⟨p, s.clock⟩, rfl, rfl⟩
        · cases todo with
          | load => exact hfits.mp trivial
          | fallback v => exact Or.inr rfl
        · intro hl2
          cases todo with
          | load => trivial
          | fallback v => exact (hfits.mpr hl2).elim
      exact hmoved
    · split
      · exact h.advance hpc id id rfl id fun _ _ => trivial
      · cases todo with
        | load =>
            exact h.move (fun hidle => hidle.elim) (fun hidle => hidle.elim) nofun trivial
              fun _ => trivial
        | fallback v =>
            apply h.finish
            rw [hpc]
            exact id
  · exact h

theorem loadAndUpdate (h : Kept readTorn origin log s) {ok : Bool}
    (hguard : Guarded readTorn s (.load p ok)) :
    Kept readTorn origin log (loadAndUpdate readTorn s p ok) := by
  unfold SharedGovernance.loadAndUpdate
  split
  · rename_i hpc
    simp only [Guarded, hpc] at hguard
    have hl2 : s.l2 = false := by
      have hfits := h.fits p
      rw [hpc] at hfits
      exact hfits
    have hp : (s.pc p).holds = true := by
      rw [hpc]
      rfl
    have hread : (if ok then s.files.loadJson readTorn else none) = s.stored readTorn := by
      unfold World.stored
      rw [hl2]
      obtain rfl | hnone := hguard
      · rfl
      · rw [hnone]
        simp
    rw [hread]
    apply h.move
    · rw [hpc]
      exact fun _ => trivial
    · rw [hl2]
      exact nofun
    · exact fun _ => h.locked p hp
    · exact Or.inr rfl
    · exact fun _ => rfl
  · exact h

theorem mirror (h : Kept readTorn origin log s) (hl2 : s.l2 = true)
    (hp : (s.pc p).Committed true) {files : Files} (hapart : files.Apart)
    (hpending : ¬ new.Pending true) (hholds : new.holds = true → (s.pc p).holds = true)
    (hfits : new.Fits true) :
    Kept readTorn origin log { s.goto p new with files := files } := by
  have hmoved : Kept readTorn origin log ({ s with files := files }.goto p new) := by
    apply (h.refile hl2 hp hapart).move
    · rw [hl2]
      exact fun hnew => absurd hnew hpending
    · rw [hl2]
      exact fun _ => hp
    · exact fun hnew => h.locked p (hholds hnew)
    · rw [hl2]
      exact hfits
    · intro hfile
      rw [hl2] at hfile
      cases hfile
  exact hmoved

theorem mirrored (h : Kept readTorn origin log s) (hl2 : s.l2 = true) {after : After}
    (hp : (s.pc p).Committed true) (hholds : after = .release → (s.pc p).holds = true)
    {files : Files} (hapart : files.Apart) :
    Kept readTorn origin log { s.afterSave p after with files := files } := by
  have hsaved : Kept readTorn origin log (World.afterSave { s with files := files } p after) := by
    apply (h.refile hl2 hp hapart).afterSave
    · rw [hl2]
      exact hp
    · exact hholds
  cases after <;> exact hsaved

theorem openTmp (h : Kept readTorn origin log s) {ok : Bool}
    (hguard : Guarded readTorn s (.openTmp p ok)) :
    Kept readTorn origin log (openTmp s p ok) := by
  unfold SharedGovernance.openTmp
  split
  · rename_i v after hpc
    simp only [Guarded, hpc] at hguard
    have hfits := h.fits p
    have hsaves := fun hl2 => h.saves hl2 p
    rw [hpc] at hfits hsaves
    cases hl2 : s.l2 with
    | true =>
        have hp : (s.pc p).Committed true := by rw [hpc]; rfl
        have hholds : after = .release → (s.pc p).holds = true := by rintro rfl; rw [hpc]; rfl
        split
        · apply h.mirror hl2 hp h.apart.openTmp
          · intro hpending
            cases hpending
          · cases after with
            | release => exact fun _ => hholds rfl
            | finish =>
                intro hfinish
                cases hfinish
          · exact Or.inl rfl
        · exact h.afterSave (by rw [hl2]; exact hp) hholds
    | false =>
        rw [hl2] at hguard hfits
        obtain rfl : ok = true := by simpa using hguard
        obtain rfl : after = .release := by simpa [Pc.Fits] using hfits
        have hp : (s.pc p).holds = true := by rw [hpc]; rfl
        rw [if_pos rfl]
        apply h.prepare hl2 hp h.apart.openTmp (Files.loadJson_openTmp h.apart)
        · rw [hpc]
          rfl
        · intro hpending
          cases hpending
        · exact Or.inr rfl
        · exact ⟨hsaves hl2, Files.openTmp_tmp, Files.openTmp_empty⟩
  · exact h

theorem writeTmp (h : Kept readTorn origin log s) {ok : Bool}
    (hguard : Guarded readTorn s (.write p ok)) :
    Kept readTorn origin log (writeTmp s p ok) := by
  unfold SharedGovernance.writeTmp
  split
  · rename_i ino v after hpc
    simp only [Guarded, hpc] at hguard
    have hfits := h.fits p
    have hsaves := fun hl2 => h.saves hl2 p
    rw [hpc] at hfits hsaves
    cases hl2 : s.l2 with
    | true =>
        have hp : (s.pc p).Committed true := by rw [hpc]; rfl
        have hholds : after = .release → (s.pc p).holds = true := by rintro rfl; rw [hpc]; rfl
        split
        · apply h.mirror hl2 hp (h.apart.store _ _)
          · intro hpending
            cases hpending
          · cases after with
            | release => exact fun _ => hholds rfl
            | finish =>
                intro hfinish
                cases hfinish
          · exact Or.inl rfl
        · exact h.mirrored hl2 hp hholds (h.apart.store _ _)
    | false =>
        rw [hl2] at hguard hfits
        obtain rfl : ok = true := by simpa using hguard
        obtain rfl : after = .release := by simpa [Pc.Fits] using hfits
        have hp : (s.pc p).holds = true := by rw [hpc]; rfl
        obtain ⟨hv, htmp, hempty⟩ := hsaves hl2
        have hdoc : s.files.doc ≠ some ino := fun hdoc => h.apart.apart ino hdoc htmp
        rw [if_pos rfl, hempty]
        apply h.prepare hl2 hp (h.apart.store _ _) (Files.loadJson_store hdoc _)
        · rw [hpc]
          rfl
        · intro hpending
          cases hpending
        · exact Or.inr rfl
        · refine ⟨ino, htmp, ?_⟩
          rw [← hv]
          exact Function.update_self _ _ _
  · exact h

theorem renameTmp (h : Kept readTorn origin log s) {ok : Bool}
    (hguard : Guarded readTorn s (.rename p ok)) :
    ∃ log, Kept readTorn origin log (renameTmp s p ok) := by
  unfold SharedGovernance.renameTmp
  split
  · rename_i after hpc
    simp only [Guarded, hpc] at hguard
    cases hl2 : s.l2 with
    | true =>
        have hp : (s.pc p).Committed true := by rw [hpc]; rfl
        have hholds : after = .release → (s.pc p).holds = true := by rintro rfl; rw [hpc]; rfl
        split
        · exact ⟨log, h.mirrored hl2 hp hholds h.apart.renameTmp⟩
        · exact ⟨log, h.afterSave (by rw [hl2]; exact hp) hholds⟩
    | false =>
        rw [hl2] at hguard
        obtain rfl : ok = true := by simpa using hguard
        rw [if_pos rfl]
        exact ⟨_, h.store hl2 hpc⟩
  · exact ⟨log, h⟩

theorem releaseLock (h : Kept readTorn origin log s) :
    Kept readTorn origin log (releaseLock s p) := by
  unfold SharedGovernance.releaseLock
  split
  · rename_i hpc
    have hp : (s.pc p).holds = true := by
      rw [hpc]
      rfl
    have hfinished : Kept readTorn origin log (s.finishCall p) := by
      apply h.finish
      rw [hpc]
      trivial
    apply hfinished.relock
    intro q
    refine cases_update
      (P := fun q c => c.holds = true → ∃ l : LockFile, none = some l ∧ l.owner = q)
      (fun hidle : Pc.idle.holds = true => absurd hidle Bool.false_ne_true)
      (fun q hqp hq => ?_) q
    exact absurd (h.locked.exclusive hq hp) hqp
  · exact h

theorem step (h : Kept readTorn origin log s) {e : Event} (hguard : Guarded readTorn s e) :
    ∃ log, Kept readTorn origin log (step readTorn s e) := by
  cases e with
  | tick ms => exact ⟨log, { h with }⟩
  | call p c => exact ⟨log, h.startCall c⟩
  | seed p ok => exact ⟨log, h.readSeed ok⟩
  | get p ok => exact ⟨log, h.l2GetJson ok⟩
  | set p reply => exact h.l2SetJson hguard
  | check p => exact ⟨log, h.checkLock⟩
  | reclaim p => exact ⟨log, h.reclaimLock hguard⟩
  | create p => exact ⟨log, h.createLock⟩
  | load p ok => exact ⟨log, h.loadAndUpdate hguard⟩
  | openTmp p ok => exact ⟨log, h.openTmp hguard⟩
  | write p ok => exact ⟨log, h.writeTmp hguard⟩
  | rename p ok => exact h.renameTmp hguard
  | release p => exact ⟨log, h.releaseLock⟩
  | crash p =>
      exact ⟨log, h.move (fun hnew => hnew.elim) (fun hnew => hnew.elim) nofun trivial
        fun _ => trivial⟩

theorem exclusive (h : Kept readTorn origin log s) : s.Exclusive :=
  fun _ _ hp hq => h.locked.exclusive hp hq

theorem releasesOwn (h : Kept readTorn origin log s) (e : Event) : ReleasesOwn s e := by
  cases e with
  | release p =>
      intro hpc l hl
      obtain ⟨m, hm, rfl⟩ := h.locked p (by rw [hpc]; rfl)
      rw [hl, Option.some.injEq] at hm
      rw [hm]
  | _ => trivial

theorem reflects (h : Kept readTorn origin log s) : s.Reflects readTorn origin :=
  ⟨log, h.ledger.once, h.ledger.known, h.ledger.returned, h.replayed⟩

theorem keepsKeys (h : Kept readTorn origin log s) : s.KeepsKeys readTorn origin := by
  intro hgrowing
  rw [h.replayed]
  constructor
  · intro k hk
    exact hasKey_replay hgrowing h.ledger.known hk
  · intro n hn c k hc hk
    exact hasKey_replay_inserted hgrowing h.ledger.known (h.ledger.returned n hn) hc hk

end Kept

/-- In a guarded run every step keeps the promise, whatever stood in the files
and in Redis when it began. -/
theorem promised_of_guarded (readTorn : Content → Option Json) (l2 : Bool) (clock : ℕ)
    (lock : Option LockFile) (doc tmp : Option Content) (redis : Option Json)
    (es : List Event)
    (hrun : Along (step readTorn) (Guarded readTorn) (start l2 clock lock doc tmp redis) es) :
    Along (step readTorn)
      (Promise readTorn ((start l2 clock lock doc tmp redis).stored readTorn))
      (start l2 clock lock doc tmp redis) es := by
  refine Along.steps (I := fun s =>
    ∃ log, Kept readTorn ((start l2 clock lock doc tmp redis).stored readTorn) log s)
    ?_ hrun ⟨[], kept_start l2 clock lock doc tmp redis⟩
  rintro s e ⟨log, hkept⟩ hguard
  obtain ⟨log', hnext⟩ := hkept.step hguard
  exact ⟨⟨hkept.releasesOwn e, hnext.exclusive, hnext.reflects, hnext.keepsKeys⟩,
    ⟨log', hnext⟩⟩

/-! ## Runs on one document -/

def insertKey (k : String) : Call where
  default := .obj []
  update v := v.setMember k (.bool true)

theorem insertKey_inserts (k : String) : (insertKey k).Inserts k := by
  intro members
  refine ⟨.bool true, ?_⟩
  change ((Json.obj members).setMember k (.bool true)).get? k = _
  rw [get?_setMember, if_pos rfl]

theorem insertKey_growing (k : String) : (insertKey k).Growing := by
  intro members j hj
  change ∃ v, ((Json.obj members).setMember k (.bool true)).get? j = some v
  rw [get?_setMember]
  by_cases hjk : j = k
  · rw [if_pos hjk]
    exact ⟨_, rfl⟩
  · rw [if_neg hjk]
    exact hj

/-- The holder carries its update through; whether its read succeeds is `ok`. -/
def updateBy (p : ℕ) (ok : Bool) : List Event :=
  [.load p ok, .openTmp p true, .write p true, .rename p true]

/-- Process 0 reclaims the lock of a process that is gone; process 1 finds the
new lock and tries again until it is released. -/
def reclaimingRun : List Event :=
  [.call 0 (insertKey "a"), .call 1 (insertKey "b"), .tick 2001, .check 0, .reclaim 0,
    .create 0, .check 1, .create 1] ++ updateBy 0 true ++
    [.check 1, .release 0, .create 1] ++ updateBy 1 true ++ [.release 1]

/-- The mirrors of the two calls interleave, and process 1 takes its `SET` for
failed because the reply is lost. -/
def redisRun : List Event :=
  [.call 0 (insertKey "a"), .call 1 (insertKey "b"), .seed 0 true, .seed 1 true,
    .get 0 true, .set 0 .stored, .get 1 true, .openTmp 0 true, .set 1 .lost, .check 1,
    .create 1, .openTmp 1 true, .write 0 true, .write 1 true, .rename 1 true,
    .rename 0 true, .release 1]

theorem two_processes_promised :
    Along (step fun _ => none) (Promise (fun _ => none) (some (.obj [])))
      (start false 0 (some ⟨7, 0⟩) (some (.whole (.obj []))) none none) reclaimingRun ∧
    Along (step fun _ => none) (Promise (fun _ => none) none)
      (start true 0 none none none none) redisRun := by
  have hfile : Along (step fun _ => none) (Guarded fun _ => none)
      (start false 0 (some ⟨7, 0⟩) (some (.whole (.obj []))) none none) reclaimingRun := by
    refine ⟨trivial, trivial, trivial, trivial, ?_, trivial, trivial, trivial, Or.inl rfl,
      Or.inr rfl, Or.inr rfl, Or.inr rfl, trivial, trivial, trivial, Or.inl rfl, Or.inr rfl,
      Or.inr rfl, Or.inr rfl, trivial, trivial⟩
    intro l hl
    cases hl
    rfl
  have hredis : Along (step fun _ => none) (Guarded fun _ => none)
      (start true 0 none none none none) redisRun :=
    ⟨trivial, trivial, trivial, trivial, trivial, ⟨rfl, nofun⟩, trivial, Or.inl rfl,
      ⟨rfl, nofun⟩, trivial, trivial, Or.inl rfl, Or.inl rfl, Or.inl rfl, Or.inl rfl,
      Or.inl rfl, trivial, trivial⟩
  exact ⟨promised_of_guarded (fun _ => none) false 0 (some ⟨7, 0⟩) (some (.whole (.obj [])))
      none none reclaimingRun hfile,
    promised_of_guarded (fun _ => none) true 0 none none none none redisRun hredis⟩

/-- Process 0 takes over two seconds in its update; process 1 reclaims its lock. -/
def slowHolderRun : List Event :=
  [.call 0 (insertKey "a"), .check 0, .create 0, .tick 2001,
    .call 1 (insertKey "b"), .check 1, .reclaim 1, .create 1]

/-- Both calls read from Redis before either writes. -/
def lostUpdateRun : List Event :=
  [.call 0 (insertKey "a"), .call 1 (insertKey "b"), .seed 0 true, .seed 1 true,
    .get 0 true, .get 1 true, .set 0 .stored, .set 1 .stored,
    .openTmp 0 true, .write 0 true, .rename 0 true]

/-- The call does not get to read the document it overwrites. -/
def failedReadRun : List Event :=
  [.call 0 (insertKey "a"), .check 0, .create 0] ++ updateBy 0 false

/-- Two holders, a release of the other's lock, a returned call without its key,
and a stored key dropped after a failed read. -/
theorem slow_holder_ousted :
    ¬ (runFrom (step fun _ => none) (start false 0 none none none none)
        slowHolderRun).Exclusive ∧
    ¬ ReleasesOwn (runFrom (step fun _ => none) (start false 0 none none none none)
        (slowHolderRun ++ updateBy 0 true)) (.release 0) ∧
    ¬ World.KeepsKeys (fun _ => none) none
        (runFrom (step fun _ => none) (start true 0 none none none none) lostUpdateRun) ∧
    ¬ World.KeepsKeys (fun _ => none) (some (.obj [("k", .bool true)]))
        (runFrom (step fun _ => none)
          (start false 0 none (some (.whole (.obj [("k", .bool true)]))) none none)
          failedReadRun) := by
  refine ⟨?_, ?_, ?_, ?_⟩
  · intro hexclusive
    exact absurd (hexclusive 0 1 rfl rfl) Nat.zero_ne_one
  · intro howns
    exact absurd (howns rfl ⟨1, 2001⟩ rfl) Nat.one_ne_zero
  · intro hkeeps
    have hall : ∀ c ∈ [insertKey "a", insertKey "b"], c.Growing := by
      intro c hc
      fin_cases hc <;> exact insertKey_growing _
    obtain ⟨v, hv⟩ := (hkeeps hall).2 0 List.mem_cons_self (insertKey "a") "a" rfl
      (insertKey_inserts "a")
    cases hv
  · intro hkeeps
    have hall : ∀ c ∈ [insertKey "a"], c.Growing := by
      intro c hc
      fin_cases hc
      exact insertKey_growing _
    obtain ⟨v, hv⟩ := (hkeeps hall).1 "k" ⟨.bool true, rfl⟩
    cases hv

end SharedGovernance

end GrServer
