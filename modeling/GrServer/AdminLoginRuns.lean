import GrServer.AdminLogin
import GrServer.UnderWay

/-!
# What logins can do

The throttle and the record of a failure are statements apart, so a peer's
failures in a window are bounded by the cap and the attempts it has under way at
once.  A session is that of the last mint for its token's digest, and a mint
rests on a password or on a known user.
-/

namespace GrServer

namespace AdminLogin

open UnderWay

variable {C : Crypto}

/-! ## Failures -/

def Attempt.peer? : Attempt → Option String
  | .throttle peer _ _ => some peer
  | .check peer _ _ => some peer
  | .fail peer => some peer
  | .find _ => none
  | .mint _ (.password peer _ _) => some peer
  | .mint _ .oauth => none

/-- An attempt of the peer that is past the throttle and can still fail. -/
def Attempt.pending (peer : String) : Attempt → Bool
  | .check p _ _ => decide (p = peer)
  | .fail p => decide (p = peer)
  | _ => false

def Panel.underWay (p : Panel) (peer : String) : ℕ :=
  p.attempts.countP fun a => decide (a.peer? = some peer)

def Panel.pending (p : Panel) (peer : String) : ℕ := p.attempts.countP (Attempt.pending peer)

/-- The failures of a peer in the window that ends at the last statement. -/
def Panel.failures (p : Panel) (peer : String) : ℕ :=
  p.db.failuresSince peer (p.clock - loginWindowMs)

/-- A statement is not before the one before it. -/
def InTime (p : Panel) : PanelEvent → Prop
  | .statement _ now _ => p.clock ≤ now
  | _ => True

theorem pending_le_underWay (p : Panel) (peer : String) : p.pending peer ≤ p.underWay peer := by
  unfold Panel.pending Panel.underWay
  apply List.countP_mono_left
  intro a _ ha
  cases a with
  | check q _ _ => exact decide_eq_true (congrArg some (of_decide_eq_true ha))
  | fail q => exact decide_eq_true (congrArg some (of_decide_eq_true ha))
  | throttle _ _ _ => exact absurd ha Bool.false_ne_true
  | find _ => exact absurd ha Bool.false_ne_true
  | mint _ _ => exact absurd ha Bool.false_ne_true

theorem failuresSince_mono (db : AdminDb) (peer : String) {cutoff later : ℤ} (h : cutoff ≤ later) :
    db.failuresSince peer later ≤ db.failuresSince peer cutoff := by
  unfold AdminDb.failuresSince
  apply List.countP_mono_left
  intro f _ hf
  rw [decide_eq_true_eq] at hf ⊢
  exact ⟨hf.1, h.trans hf.2⟩

theorem failuresSince_loginRateOk (db : AdminDb) (peer : String) (now : ℤ) (q : String) :
    (db.loginRateOk peer loginWindowMs loginMaxFail now).1.failuresSince q (now - loginWindowMs) =
      db.failuresSince q (now - loginWindowMs) := by
  unfold AdminDb.loginRateOk AdminDb.failuresSince
  rw [List.countP_filter]
  apply List.countP_congr
  intro f _
  simp only [decide_eq_true_eq, Bool.and_eq_true, Bool.not_eq_true', decide_eq_false_iff_not]
  constructor
  · exact fun h => h.1
  · exact fun h => ⟨h, by omega⟩

theorem failuresSince_record (db : AdminDb) (peer : String) (now cutoff : ℤ) (q : String) :
    (db.recordLoginFailure peer now).failuresSince q cutoff ≤
      db.failuresSince q cutoff + if peer = q then 1 else 0 := by
  unfold AdminDb.recordLoginFailure AdminDb.failuresSince
  rw [List.countP_append, List.countP_singleton]
  by_cases hq : peer = q
  · rw [if_pos hq]
    split <;> omega
  · rw [if_neg hq, if_neg (by simp [hq])]

/-! ## Steps -/

section Steps

variable {p : Panel} {db : AdminDb} {k : ℕ} {a b : Attempt} {now : ℤ} {token : String}

theorem step_statement (hk : p.attempts[k]? = some a) :
    p.step C (.statement k now token) = p.statement C k a now token := by
  simp [Panel.step, hk]

theorem step_statement_none (hk : p.attempts[k]? = none) :
    p.step C (.statement k now token) = p := by
  simp [Panel.step, hk]

theorem step_logout (htoken : token ≠ "") :
    p.step C (.logout token) =
      { p with
        db := p.db.deleteSession C token
        entries := .ended token :: p.entries } := by
  simp [Panel.step, logout, htoken]

theorem check_db (peer username password : String) :
    ((Attempt.check peer username password).step C db now token).1 = db := by
  unfold Attempt.step
  dsimp only
  split
  · rfl
  · rfl

theorem step_next (h : (a.step C db now token).2 = .inl b) :
    (∃ peer username password, a = .throttle peer username password ∧
      b = .check peer username password ∧
      db.failuresSince peer (now - loginWindowMs) < loginMaxFail) ∨
    (∃ peer username password, a = .check peer username password ∧ b = .fail peer) ∨
    (∃ peer username password hash, a = .check peer username password ∧
      b = .mint username (.password peer password hash) ∧
      db.users.get? username = some hash ∧ C.verifyPassword password hash = true) ∨
    ∃ username, a = .find username ∧ b = .mint username .oauth ∧
      db.users.contains username = true := by
  cases a with
  | throttle peer username password =>
      change (if decide (db.failuresSince peer (now - loginWindowMs) < loginMaxFail) = true then
        Sum.inl (Attempt.check peer username password) else Sum.inr _) = Sum.inl b at h
      split_ifs at h with hfew
      exact Or.inl ⟨peer, username, password, rfl, (Sum.inl.inj h).symm, of_decide_eq_true hfew⟩
  | check peer username password =>
      right
      unfold Attempt.step at h
      dsimp only at h
      cases huser : db.users.get? username with
      | none =>
          rw [huser] at h
          exact Or.inl ⟨peer, username, password, rfl, (Sum.inl.inj h).symm⟩
      | some hash =>
          rw [huser] at h
          have hnext := Sum.inl.inj h
          split_ifs at hnext with hverified
          · exact Or.inr (Or.inl
              ⟨peer, username, password, hash, rfl, hnext.symm, huser, hverified⟩)
          · exact Or.inl ⟨peer, username, password, rfl, hnext.symm⟩
  | find username =>
      change (if db.users.contains username = true then Sum.inl (Attempt.mint username .oauth)
        else Sum.inr _) = Sum.inl b at h
      split_ifs at h with hknown
      exact Or.inr (Or.inr (Or.inr ⟨username, rfl, (Sum.inl.inj h).symm, hknown⟩))
  | fail peer => exact absurd h Sum.inr_ne_inl
  | mint username cause => exact absurd h Sum.inr_ne_inl

end Steps

def Throttled (M : ℕ) (peer : String) (p : Panel) : Prop :=
  p.failures peer + p.pending peer ≤ loginMaxFail - 1 + M

section Statement

variable {p : Panel} {k : ℕ} {a : Attempt} {now : ℤ} {token peer : String}

theorem failures_statement (peer : String) :
    (p.statement C k a now token).failures peer =
      (a.step C p.db now token).1.failuresSince peer (now - loginWindowMs) := rfl

theorem pending_goes_on {b : Attempt} (hstep : (a.step C p.db now token).2 = .inl b)
    (peer : String) :
    (p.statement C k a now token).pending peer =
      (p.attempts.eraseIdx k).countP (Attempt.pending peer) + if b.pending peer then 1 else 0 := by
  unfold Panel.pending Panel.statement
  dsimp only
  rw [hstep]
  change (b :: p.attempts.eraseIdx k).countP (Attempt.pending peer) = _
  rw [List.countP_cons]

theorem pending_ends {result : Except String String}
    (hstep : (a.step C p.db now token).2 = .inr result) (peer : String) :
    (p.statement C k a now token).pending peer =
      (p.attempts.eraseIdx k).countP (Attempt.pending peer) := by
  unfold Panel.pending Panel.statement
  dsimp only
  rw [hstep]
  rfl

theorem throttled_quiet {M : ℕ} (h : Throttled M peer p) (hk : p.attempts[k]? = some a)
    (hnow : p.clock ≤ now)
    (hdb : (a.step C p.db now token).1.failuresSince peer (now - loginWindowMs) =
      p.db.failuresSince peer (now - loginWindowMs))
    (hpending : ∀ b, (a.step C p.db now token).2 = .inl b → b.pending peer = true →
      a.pending peer = true) : Throttled M peer (p.statement C k a now token) := by
  have hold : p.failures peer + p.pending peer ≤ loginMaxFail - 1 + M := h
  have herase := countP_eraseIdx hk (Attempt.pending peer)
  have hlater : p.db.failuresSince peer (now - loginWindowMs) ≤ p.failures peer :=
    failuresSince_mono p.db peer (by omega)
  unfold Panel.pending at hold
  unfold Throttled
  rw [failures_statement, hdb]
  cases hstep : (a.step C p.db now token).2 with
  | inr result =>
      rw [pending_ends hstep]
      omega
  | inl b =>
      rw [pending_goes_on hstep]
      by_cases hb : b.pending peer = true
      · rw [if_pos (hpending b hstep hb)] at herase
        rw [if_pos hb]
        omega
      · rw [if_neg hb]
        omega

theorem throttled_statement {M : ℕ} (h : Throttled M peer p) (hk : p.attempts[k]? = some a)
    (hnow : p.clock ≤ now) (hway : (p.statement C k a now token).underWay peer ≤ M) :
    Throttled M peer (p.statement C k a now token) := by
  cases a with
  | throttle q username password =>
      by_cases hpassed : peer = q ∧ p.db.failuresSince q (now - loginWindowMs) < loginMaxFail
      · obtain ⟨rfl, hfew⟩ := hpassed
        have hbound := (pending_le_underWay (p.statement C k _ now token) peer).trans hway
        have hfailures := failuresSince_loginRateOk p.db peer now peer
        unfold Throttled
        rw [failures_statement]
        change (p.db.loginRateOk peer loginWindowMs loginMaxFail now).1.failuresSince peer
          (now - loginWindowMs) + _ ≤ _
        rw [hfailures]
        omega
      · refine throttled_quiet h hk hnow (failuresSince_loginRateOk p.db q now peer) ?_
        intro b hb hpending
        rcases step_next hb with ⟨q', _, _, heq, rfl, hfew⟩ | ⟨_, _, _, heq, -⟩ |
          ⟨_, _, _, _, heq, -⟩ | ⟨_, heq, -⟩
        · cases heq
          exact absurd ⟨(of_decide_eq_true hpending).symm, hfew⟩ hpassed
        all_goals cases heq
  | check q username password =>
      refine throttled_quiet h hk hnow (by rw [check_db]) ?_
      intro b hb hpending
      rcases step_next hb with ⟨_, _, _, heq, -⟩ | ⟨q', _, _, heq, rfl⟩ |
        ⟨_, _, _, _, -, rfl, -⟩ | ⟨_, heq, -⟩
      · cases heq
      · cases heq
        exact hpending
      · exact absurd hpending Bool.false_ne_true
      · cases heq
  | find username =>
      refine throttled_quiet h hk hnow rfl ?_
      intro b hb hpending
      rcases step_next hb with ⟨_, _, _, heq, -⟩ | ⟨_, _, _, heq, -⟩ |
        ⟨_, _, _, _, heq, -⟩ | ⟨_, -, rfl, -⟩
      · cases heq
      · cases heq
      · cases heq
      · exact absurd hpending Bool.false_ne_true
  | mint username cause =>
      refine throttled_quiet h hk hnow rfl ?_
      intro b hb _
      exact absurd hb Sum.inr_ne_inl
  | fail q =>
      have hold : p.failures peer + p.pending peer ≤ loginMaxFail - 1 + M := h
      have herase := countP_eraseIdx hk (Attempt.pending peer)
      have hlater : p.db.failuresSince peer (now - loginWindowMs) ≤ p.failures peer :=
        failuresSince_mono p.db peer (by omega)
      have hrecord := failuresSince_record p.db q now (now - loginWindowMs) peer
      have hends : (Attempt.step C p.db now token (.fail q)).2 =
          .inr (.error "invalid_credentials") := rfl
      have hpending : (Attempt.fail q).pending peer = decide (q = peer) := rfl
      unfold Panel.pending at hold
      unfold Throttled
      rw [failures_statement, pending_ends hends]
      change (p.db.recordLoginFailure q now).failuresSince peer _ + _ ≤ _
      rw [hpending] at herase
      by_cases hq : q = peer
      · rw [if_pos hq] at hrecord
        rw [if_pos (by simp [hq])] at herase
        omega
      · rw [if_neg hq] at hrecord
        rw [if_neg (by simp [hq])] at herase
        omega

end Statement

/-- In time, and with at most `M` logins of the peer under way afterwards. -/
def Guarded (C : Crypto) (M : ℕ) (peer : String) (p : Panel) (e : PanelEvent) : Prop :=
  InTime p e ∧ (p.step C e).underWay peer ≤ M

section Run

variable {M : ℕ} {peer : String} {p q : Panel}

theorem throttled_of_same (h : Throttled M peer p) (hclock : q.clock = p.clock)
    (hfailures : q.db.loginFailures = p.db.loginFailures)
    (hpending : q.pending peer ≤ p.pending peer) : Throttled M peer q := by
  unfold Throttled Panel.failures AdminDb.failuresSince at h ⊢
  rw [hclock, hfailures]
  omega

theorem throttled_step (h : Throttled M peer p) {e : PanelEvent}
    (hguard : Guarded C M peer p e) : Throttled M peer (p.step C e) := by
  obtain ⟨htime, hway⟩ := hguard
  cases e with
  | login q username password =>
      refine throttled_of_same h rfl rfl ?_
      unfold Panel.pending Panel.step
      rw [List.countP_cons_of_neg (by simp [Attempt.pending])]
  | createSession username =>
      refine throttled_of_same h rfl rfl ?_
      unfold Panel.pending Panel.step
      rw [List.countP_cons_of_neg (by simp [Attempt.pending])]
  | ensureUser username passwordHash =>
      refine throttled_of_same h rfl ?_ le_rfl
      change (p.db.ensureUser username passwordHash).loginFailures = _
      unfold AdminDb.ensureUser
      split <;> rfl
  | updateUserPassword username passwordHash =>
      exact throttled_of_same h rfl rfl le_rfl
  | logout token =>
      by_cases htoken : token = ""
      · have hstep : p.step C (.logout token) = p := if_pos htoken
        rw [hstep]
        exact h
      · rw [step_logout htoken]
        exact throttled_of_same h rfl rfl le_rfl
  | abandon k =>
      exact throttled_of_same h rfl rfl (List.eraseIdx_sublist p.attempts k).countP_le
  | statement k now token =>
      cases hk : p.attempts[k]? with
      | none =>
          rw [step_statement_none hk]
          exact h
      | some a =>
          rw [step_statement hk] at hway ⊢
          exact throttled_statement h hk htime hway

theorem throttled_start (M : ℕ) (peer : String) : Throttled M peer {} := by
  unfold Throttled Panel.failures Panel.pending AdminDb.failuresSince
  rw [List.countP_nil, List.countP_nil]
  exact Nat.zero_le _

end Run

/-- Over any run in time, a peer with at most `M` logins under way at once has at most
`7 + M` failures in a window of fifteen minutes, whatever the others have. -/
theorem failures_bounded (C : Crypto) (M : ℕ) (peer : String) (es : List PanelEvent)
    (hrun : Along (Panel.step C) (Guarded C M peer) {} es) :
    (runFrom (Panel.step C) {} es).failures peer ≤ 7 + M := by
  have hthrottled : Throttled M peer (runFrom (Panel.step C) {} es) :=
    Along.invariant (I := Throttled M peer) (fun _ _ h hguard => throttled_step h hguard) hrun
      (throttled_start M peer)
  have hmax : loginMaxFail - 1 = 7 := rfl
  unfold Throttled at hthrottled
  rw [hmax] at hthrottled
  exact (Nat.le_add_right _ _).trans hthrottled

/-! ## The bound is reached -/

section Burst

variable {M : ℕ} (peer username password : String)

def burstPanel (n : ℕ) (attempts : List Attempt) : Panel where
  db := { loginFailures := List.replicate n (peer, 0) }
  attempts

def AllGuarded (C : Crypto) (M : ℕ) (p : Panel) (e : PanelEvent) : Prop :=
  ∀ q, Guarded C M q p e

theorem guarded_of_length {p : Panel} {e : PanelEvent} (htime : InTime p e)
    (hlen : (p.step C e).attempts.length ≤ M) : AllGuarded C M p e :=
  fun _ => ⟨htime, List.countP_le_length.trans hlen⟩

theorem burst_throttle {n k : ℕ} {as : List Attempt} (hn : n < loginMaxFail)
    (hk : as[k]? = some (.throttle peer username password)) :
    (burstPanel peer n as).step C (.statement k 0 "") =
      burstPanel peer n (.check peer username password :: as.eraseIdx k) := by
  have hkept : (List.replicate n (peer, (0 : ℤ))).filter (fun f =>
      !decide (f.2 < 0 - loginWindowMs)) = List.replicate n (peer, 0) := by
    apply List.filter_eq_self.mpr
    intro f hf
    rw [(List.mem_replicate.mp hf).2]
    change (!decide ((0 : ℤ) < 0 - loginWindowMs)) = true
    decide
  have hcount : (burstPanel peer n as).db.failuresSince peer (0 - loginWindowMs) ≤ n := by
    unfold AdminDb.failuresSince
    exact List.countP_le_length.trans (List.length_replicate ..).le
  have hstep : (burstPanel peer n as).step C (.statement k 0 "") =
      (burstPanel peer n as).statement C k (.throttle peer username password) 0 "" := by
    simp [Panel.step, burstPanel, hk]
  have hattempt : (Attempt.throttle peer username password).step C
      (burstPanel peer n as).db 0 "" =
      ((burstPanel peer n as).db, .inl (.check peer username password)) := by
    unfold Attempt.step AdminDb.loginRateOk
    dsimp only
    rw [decide_eq_true (Nat.lt_of_le_of_lt hcount hn), if_pos rfl]
    unfold burstPanel
    dsimp only
    rw [hkept]
  rw [hstep]
  unfold Panel.statement
  rw [hattempt]
  rfl

theorem burst_check {n k : ℕ} {as : List Attempt}
    (hk : as[k]? = some (.check peer username password)) :
    (burstPanel peer n as).step C (.statement k 0 "") =
      burstPanel peer n (.fail peer :: as.eraseIdx k) := by
  simp [Panel.step, burstPanel, hk, Panel.statement, Attempt.step, SortedMap.get?_empty,
    Attempt.entry]

theorem burst_fail {n k : ℕ} {as : List Attempt} (hk : as[k]? = some (.fail peer)) :
    (burstPanel peer n as).step C (.statement k 0 "") =
      burstPanel peer (n + 1) (as.eraseIdx k) := by
  simp [Panel.step, burstPanel, hk, Panel.statement, Attempt.step, AdminDb.recordLoginFailure,
    Attempt.entry, List.replicate_succ']

/-- The next statement of each of `r` attempts, behind `j` that have had theirs. -/
def nextStatements (j r : ℕ) : List PanelEvent :=
  (List.range' j r).map fun k => .statement k 0 ""

theorem burst_chain {r : ℕ} {q : ℕ → Panel} {e : ℕ → PanelEvent}
    (hstep : ∀ i < r, InTime (q i) (e i) ∧ (q i).step C (e i) = q (i + 1))
    (hlen : ∀ i ≤ r, (q i).attempts.length ≤ M) :
    Along (Panel.step C) (AllGuarded C M) (q 0) ((List.range r).map e) ∧
      runFrom (Panel.step C) (q 0) ((List.range r).map e) = q r := by
  apply along_chain
  intro i hi
  obtain ⟨htime, hnext⟩ := hstep i hi
  refine ⟨guarded_of_length htime ?_, hnext⟩
  rw [hnext]
  exact hlen (i + 1) hi

theorem burst_segment {n : ℕ} {a b : Attempt}
    (hstep : ∀ (as : List Attempt) (k : ℕ), as[k]? = some a →
      (burstPanel peer n as).step C (.statement k 0 "") =
        burstPanel peer n (b :: as.eraseIdx k)) (r : ℕ) (hM : r ≤ M) :
    Along (Panel.step C) (AllGuarded C M) (burstPanel peer n (List.replicate r a))
        (nextStatements 0 r) ∧
      runFrom (Panel.step C) (burstPanel peer n (List.replicate r a)) (nextStatements 0 r) =
        burstPanel peer n (List.replicate r b) := by
  have hchain := burst_chain (C := C) (M := M) (r := r)
    (q := fun i => burstPanel peer n (List.replicate i b ++ List.replicate (r - i) a))
    (e := fun i => .statement i 0 "") ?_ ?_
  · rw [Nat.sub_self] at hchain
    rw [nextStatements, ← List.range_eq_range']
    simpa using hchain
  · intro i hi
    refine ⟨le_rfl, ?_⟩
    obtain ⟨m, hm⟩ : ∃ m, r - i = m + 1 := ⟨r - i - 1, by omega⟩
    have hrest : r - (i + 1) = m := by omega
    rw [hm, hrest, hstep]
    · rw [List.eraseIdx_append_of_length_le (by simp)]
      simp [List.replicate_succ]
    · rw [List.getElem?_append_right (by simp)]
      simp
  · intro i hi
    change (List.replicate i b ++ List.replicate (r - i) a).length ≤ M
    rw [List.length_append, List.length_replicate, List.length_replicate]
    omega

theorem burst_logins (n r : ℕ) (hM : r ≤ M) :
    Along (Panel.step C) (AllGuarded C M) (burstPanel peer n [])
        (List.replicate r (.login peer username password)) ∧
      runFrom (Panel.step C) (burstPanel peer n [])
        (List.replicate r (.login peer username password)) =
          burstPanel peer n (List.replicate r (.throttle peer username password)) := by
  have hchain := burst_chain (C := C) (M := M) (r := r)
    (q := fun i => burstPanel peer n (List.replicate i (.throttle peer username password)))
    (e := fun _ => .login peer username password) (fun i _ => ⟨trivial, rfl⟩) ?_
  · rwa [List.map_const', List.length_range] at hchain
  · intro i hi
    change (List.replicate i _).length ≤ M
    rw [List.length_replicate]
    omega

theorem burst_failures (n r : ℕ) (hM : r ≤ M) :
    Along (Panel.step C) (AllGuarded C M) (burstPanel peer n (List.replicate r (.fail peer)))
        (List.replicate r (.statement 0 0 "")) ∧
      runFrom (Panel.step C) (burstPanel peer n (List.replicate r (.fail peer)))
        (List.replicate r (.statement 0 0 "")) = burstPanel peer (n + r) [] := by
  have hchain := burst_chain (C := C) (M := M) (r := r)
    (q := fun i => burstPanel peer (n + i) (List.replicate (r - i) (.fail peer)))
    (e := fun _ => .statement 0 0 "") ?_ ?_
  · rw [List.map_const', List.length_range, Nat.sub_self] at hchain
    exact hchain
  · intro i hi
    refine ⟨le_rfl, ?_⟩
    obtain ⟨m, hm⟩ : ∃ m, r - i = m + 1 := ⟨r - i - 1, by omega⟩
    have hrest : r - (i + 1) = m := by omega
    rw [hm, hrest, burst_fail peer (by rw [List.replicate_succ]; rfl)]
    rfl
  · intro i hi
    change (List.replicate (r - i) _).length ≤ M
    rw [List.length_replicate]
    omega

def burst (r : ℕ) : List PanelEvent :=
  List.replicate r (.login peer username password) ++
    (nextStatements 0 r ++ (nextStatements 0 r ++ List.replicate r (.statement 0 0 "")))

theorem burst_run {n : ℕ} (hn : n < loginMaxFail) (r : ℕ) (hM : r ≤ M) :
    Along (Panel.step C) (AllGuarded C M) (burstPanel peer n []) (burst peer username password r) ∧
      runFrom (Panel.step C) (burstPanel peer n []) (burst peer username password r) =
        burstPanel peer (n + r) [] := by
  obtain ⟨hlogins, hasked⟩ := burst_logins (C := C) peer username password n r hM
  obtain ⟨hthrottles, hpassed⟩ := burst_segment (C := C) peer
    (fun as k hk => burst_throttle peer username password hn hk) r hM
  obtain ⟨hchecks, hchecked⟩ := burst_segment (C := C) peer
    (fun as k hk => burst_check peer username password (n := n) hk) r hM
  obtain ⟨hfails, hfailed⟩ := burst_failures (C := C) peer n r hM
  unfold burst
  rw [along_append, along_append, along_append, runFrom_append, runFrom_append, runFrom_append,
    hasked, hpassed, hchecked, hfailed]
  exact ⟨⟨hlogins, hthrottles, hchecks, hfails⟩, rfl⟩

/-- The bound is reached: seven failures, and then `M` logins side by side, all of which
pass the throttle before the first of them has failed. -/
theorem failures_reached (C : Crypto) (M : ℕ) (hM : 1 ≤ M) :
    ∃ es, Along (Panel.step C) (AllGuarded C M) {} es ∧
      (runFrom (Panel.step C) {} es).failures peer = 7 + M := by
  have hone : ∀ n, n < loginMaxFail →
      Along (Panel.step C) (AllGuarded C M) (burstPanel peer n []) (burst peer "" "" 1) ∧
        runFrom (Panel.step C) (burstPanel peer n []) (burst peer "" "" 1) =
          burstPanel peer (n + 1) [] := fun n hn => burst_run peer "" "" hn 1 hM
  have hseven : ∀ m ≤ 7, ∃ es, Along (Panel.step C) (AllGuarded C M) {} es ∧
      runFrom (Panel.step C) {} es = burstPanel peer m [] := by
    intro m hm
    induction m with
    | zero => exact ⟨[], trivial, rfl⟩
    | succ m ih =>
        obtain ⟨es, hrun, hend⟩ := ih (by omega)
        obtain ⟨hnext, hlast⟩ := hone m (by unfold loginMaxFail; omega)
        refine ⟨es ++ burst peer "" "" 1, ?_, ?_⟩
        · rw [along_append, hend]
          exact ⟨hrun, hnext⟩
        · rw [runFrom_append, hend, hlast]
  obtain ⟨es, hrun, hend⟩ := hseven 7 le_rfl
  obtain ⟨hburst, hlast⟩ := burst_run (C := C) peer "" "" (n := 7) (by decide) M le_rfl
  refine ⟨es ++ burst peer "" "" M, ?_, ?_⟩
  · rw [along_append, hend]
    exact ⟨hrun, hburst⟩
  · rw [runFrom_append, hend, hlast]
    have hall : (List.replicate (7 + M) (peer, (0 : ℤ))).countP
        (fun f => decide (f.1 = peer ∧ 0 - loginWindowMs ≤ f.2)) = 7 + M := by
      rw [List.countP_replicate, if_pos]
      rw [decide_eq_true_eq]
      exact ⟨rfl, by unfold loginWindowMs; omega⟩
    exact hall

end Burst

def crowdedBurst : List PanelEvent :=
  List.replicate 3 (.login "198.51.100.4" "root" "guess") ++ burst "192.0.2.9" "root" "guess" 2

theorem crowdedBurst_guarded :
    Along (Panel.step ⟨fun _ _ => false, id⟩) (Guarded ⟨fun _ _ => false, id⟩ 2 "192.0.2.9") {}
      crowdedBurst := by
  have hlogins : ∀ (p : Panel) q username password, InTime p (.login q username password) :=
    fun _ _ _ _ => trivial
  have htimes : ∀ (p : Panel) k, p.clock = 0 → InTime p (.statement k 0 "") :=
    fun _ _ h => h.le
  refine ⟨⟨hlogins _ _ _ _, ?_⟩, ⟨hlogins _ _ _ _, ?_⟩, ⟨hlogins _ _ _ _, ?_⟩,
    ⟨hlogins _ _ _ _, ?_⟩, ⟨hlogins _ _ _ _, ?_⟩, ⟨htimes _ _ ?_, ?_⟩, ⟨htimes _ _ ?_, ?_⟩,
    ⟨htimes _ _ ?_, ?_⟩, ⟨htimes _ _ ?_, ?_⟩, ⟨htimes _ _ ?_, ?_⟩, ⟨htimes _ _ ?_, ?_⟩, trivial⟩
  all_goals decide

theorem failures_bounded_crowded :
    (runFrom (Panel.step ⟨fun _ _ => false, id⟩) {} crowdedBurst).failures "192.0.2.9" ≤ 7 + 2 :=
  failures_bounded ⟨fun _ _ => false, id⟩ 2 "192.0.2.9" crowdedBurst crowdedBurst_guarded

theorem failures_reached_twenty :
    ∃ es, Along (Panel.step ⟨fun _ _ => false, id⟩) (AllGuarded ⟨fun _ _ => false, id⟩ 20) {} es ∧
      (runFrom (Panel.step ⟨fun _ _ => false, id⟩) {} es).failures "192.0.2.9" = 7 + 20 :=
  failures_reached "192.0.2.9" ⟨fun _ _ => false, id⟩ 20 (by decide)

/-! ## Sessions -/

def SessionEntry.token : SessionEntry → String
  | .minted token _ _ _ => token
  | .ended token => token

/-- What a cause rests on. -/
def Cause.Justified (C : Crypto) (hashes : List (String × String)) (username : String) :
    Cause → Prop
  | .password _ given hash => C.verifyPassword given hash = true ∧ (username, hash) ∈ hashes
  | .oauth => ∃ hash, (username, hash) ∈ hashes

def SessionEntry.row : SessionEntry → Option (String × ℤ)
  | .minted _ username at' _ => some (username, at' + sessionTtlMs)
  | .ended _ => none

def rowOf (C : Crypto) (d : String) : List SessionEntry → Option (String × ℤ)
  | [] => none
  | e :: rest => if C.hashSessionToken e.token = d then e.row else rowOf C d rest

/-- The sessions are what the entries left, and every mint rests on its cause. -/
structure Accounted (C : Crypto) (p : Panel) : Prop where
  sessions : ∀ d, p.db.sessions.get? d = rowOf C d p.entries
  users : ∀ username hash, p.db.users.get? username = some hash → (username, hash) ∈ p.hashes
  minted : ∀ token username at' cause, .minted token username at' cause ∈ p.entries →
    cause.Justified C p.hashes username
  attempts : ∀ username cause, .mint username cause ∈ p.attempts →
    cause.Justified C p.hashes username

theorem Cause.Justified.mono {hashes more : List (String × String)} {username : String}
    {cause : Cause} (h : cause.Justified C hashes username) (hsub : ∀ x ∈ hashes, x ∈ more) :
    cause.Justified C more username := by
  cases cause with
  | password peer given hash => exact ⟨h.1, hsub _ h.2⟩
  | oauth =>
      obtain ⟨hash, hmem⟩ := h
      exact ⟨hash, hsub _ hmem⟩

theorem accounted_start : Accounted C {} where
  sessions := fun _ => rfl
  users := fun _ hash h => absurd h.symm (Option.some_ne_none hash)
  minted := fun _ _ _ _ h => absurd h List.not_mem_nil
  attempts := fun _ _ h => absurd h List.not_mem_nil

theorem Accounted.users_change {p : Panel} (h : Accounted C p) {users : SortedMap String String}
    {hashes : List (String × String)} (hsub : ∀ x ∈ p.hashes, x ∈ hashes)
    (hall : ∀ username hash, users.get? username = some hash → (username, hash) ∈ hashes) :
    Accounted C { p with db := { p.db with users }, hashes } where
  sessions := h.sessions
  users := hall
  minted := fun token username at' cause hmem =>
    (h.minted token username at' cause hmem).mono hsub
  attempts := fun username cause hmem => (h.attempts username cause hmem).mono hsub

theorem Accounted.inserted {p : Panel} (h : Accounted C p) (username passwordHash : String) :
    Accounted C
      { p with
        db := { p.db with users := p.db.users.insert username passwordHash }
        hashes := (username, passwordHash) :: p.hashes } := by
  refine h.users_change (fun x hx => List.mem_cons_of_mem _ hx) ?_
  intro u hash huser
  rw [SortedMap.get?_insert] at huser
  by_cases hu : u = username
  · rw [if_pos hu] at huser
    rw [hu, ← Option.some.inj huser]
    exact List.mem_cons_self
  · rw [if_neg hu] at huser
    exact List.mem_cons_of_mem _ (h.users u hash huser)

theorem Accounted.fewer {p : Panel} (h : Accounted C p) {attempts : List Attempt}
    (hsub : ∀ username cause, .mint username cause ∈ attempts → .mint username cause ∈ p.attempts) :
    Accounted C { p with attempts } :=
  ⟨h.sessions, h.users, h.minted, fun username cause hmem =>
    h.attempts username cause (hsub username cause hmem)⟩

section Statement

variable {p : Panel} {k : ℕ} {a : Attempt} {now : ℤ} {token : String}

theorem accounted_quiet (h : Accounted C p)
    (hsessions : (a.step C p.db now token).1.sessions = p.db.sessions)
    (husers : (a.step C p.db now token).1.users = p.db.users)
    (hentry : a.entry now token = [])
    (hmint : ∀ username cause, (a.step C p.db now token).2 = .inl (.mint username cause) →
      cause.Justified C p.hashes username) : Accounted C (p.statement C k a now token) := by
  have hentries : (p.statement C k a now token).entries = p.entries := by
    change a.entry now token ++ p.entries = p.entries
    rw [hentry, List.nil_append]
  constructor
  · intro d
    rw [hentries]
    change (a.step C p.db now token).1.sessions.get? d = _
    rw [hsessions]
    exact h.sessions d
  · intro username hash huser
    change (a.step C p.db now token).1.users.get? username = some hash at huser
    rw [husers] at huser
    exact h.users username hash huser
  · rw [hentries]
    exact h.minted
  · intro username cause hmem
    change .mint username cause ∈
      (a.step C p.db now token).2.elim (fun a => [a]) (fun _ => []) ++ p.attempts.eraseIdx k at hmem
    cases hstep : (a.step C p.db now token).2 with
    | inr result =>
        rw [hstep] at hmem
        exact h.attempts username cause (List.mem_of_mem_eraseIdx hmem)
    | inl b =>
        rw [hstep] at hmem
        rcases List.mem_cons.mp hmem with hb | hold
        · rw [← hb] at hstep
          exact hmint username cause hstep
        · exact h.attempts username cause (List.mem_of_mem_eraseIdx hold)

theorem accounted_mint {username : String} {cause : Cause} (h : Accounted C p)
    (hk : p.attempts[k]? = some (.mint username cause)) :
    Accounted C (p.statement C k (.mint username cause) now token) := by
  have hcause := h.attempts username cause (List.mem_of_getElem? hk)
  constructor
  · intro d
    change (p.db.sessions.insert (C.hashSessionToken token)
      (username, now + sessionTtlMs)).get? d =
        rowOf C d (.minted token username now cause :: p.entries)
    rw [SortedMap.get?_insert]
    unfold rowOf
    by_cases hd : d = C.hashSessionToken token
    · rw [if_pos hd]
      exact (if_pos hd.symm).symm
    · rw [if_neg hd, h.sessions d]
      exact (if_neg fun heq => hd heq.symm).symm
  · exact h.users
  · intro t u at' cause' hmem
    change _ ∈ SessionEntry.minted token username now cause :: p.entries at hmem
    rcases List.mem_cons.mp hmem with heq | hold
    · obtain ⟨-, rfl, -, rfl⟩ := SessionEntry.minted.inj heq
      exact hcause
    · exact h.minted t u at' cause' hold
  · intro u c hmem
    exact h.attempts u c (List.mem_of_mem_eraseIdx hmem)

theorem accounted_statement (h : Accounted C p) (hk : p.attempts[k]? = some a) :
    Accounted C (p.statement C k a now token) := by
  have hmint : ∀ username cause, (a.step C p.db now token).2 = .inl (.mint username cause) →
      cause.Justified C p.hashes username := by
    intro username cause hstep
    rcases step_next hstep with ⟨_, _, _, -, heq, -⟩ | ⟨_, _, _, -, heq⟩ |
      ⟨peer, _, password, hash, -, heq, huser, hverified⟩ | ⟨_, -, heq, hknown⟩
    · cases heq
    · cases heq
    · cases heq
      exact ⟨hverified, h.users username hash huser⟩
    · cases heq
      obtain ⟨hash, hhash⟩ := Option.isSome_iff_exists.mp hknown
      exact ⟨hash, h.users username hash hhash⟩
  cases a with
  | check peer username password =>
      exact accounted_quiet h (by rw [check_db]) (by rw [check_db]) rfl hmint
  | mint username cause => exact accounted_mint h hk
  | throttle peer username password => exact accounted_quiet h rfl rfl rfl hmint
  | fail peer => exact accounted_quiet h rfl rfl rfl hmint
  | find username => exact accounted_quiet h rfl rfl rfl hmint

end Statement

theorem accounted_step {p : Panel} (h : Accounted C p) (e : PanelEvent) :
    Accounted C (p.step C e) := by
  cases e with
  | login peer username password =>
      refine h.fewer fun u c hmem => ?_
      rcases List.mem_cons.mp hmem with heq | hold
      · exact absurd heq (by simp)
      · exact hold
  | createSession username =>
      refine h.fewer fun u c hmem => ?_
      rcases List.mem_cons.mp hmem with heq | hold
      · exact absurd heq (by simp)
      · exact hold
  | abandon k => exact h.fewer fun u c hmem => List.mem_of_mem_eraseIdx hmem
  | statement k now token =>
      cases hk : p.attempts[k]? with
      | none =>
          rw [step_statement_none hk]
          exact h
      | some a =>
          rw [step_statement hk]
          exact accounted_statement h hk
  | logout token =>
      by_cases htoken : token = ""
      · have hstep : p.step C (.logout token) = p := if_pos htoken
        rw [hstep]
        exact h
      · rw [step_logout htoken]
        refine ⟨?_, h.users, ?_, h.attempts⟩
        · intro d
          change (p.db.sessions.erase (C.hashSessionToken token)).get? d =
            rowOf C d (.ended token :: p.entries)
          rw [SortedMap.get?_erase]
          unfold rowOf
          by_cases hd : d = C.hashSessionToken token
          · rw [if_pos hd]
            exact (if_pos hd.symm).symm
          · rw [if_neg hd, h.sessions d]
            exact (if_neg fun heq => hd heq.symm).symm
        · intro t u at' cause hmem
          rcases List.mem_cons.mp hmem with heq | hold
          · exact absurd heq (by simp)
          · exact h.minted t u at' cause hold
  | ensureUser username passwordHash =>
      by_cases hknown : p.db.users.contains username = true
      · have hstep : p.step C (.ensureUser username passwordHash) = p := by
          simp [Panel.step, AdminDb.ensureUser, hknown]
        rw [hstep]
        exact h
      · have hstep : p.step C (.ensureUser username passwordHash) =
            { p with
              db := { p.db with users := p.db.users.insert username passwordHash }
              hashes := (username, passwordHash) :: p.hashes } := by
          simp [Panel.step, AdminDb.ensureUser, hknown]
        rw [hstep]
        exact h.inserted username passwordHash
  | updateUserPassword username passwordHash => exact h.inserted username passwordHash

theorem rowOf_eq_some {d username : String} {expMs : ℤ} {entries : List SessionEntry} :
    rowOf C d entries = some (username, expMs) ↔
      ∃ newer older t at' cause, entries = newer ++ .minted t username at' cause :: older ∧
        (∀ e ∈ newer, C.hashSessionToken e.token ≠ d) ∧ C.hashSessionToken t = d ∧
        expMs = at' + sessionTtlMs := by
  induction entries with
  | nil =>
      constructor
      · intro h
        exact absurd h.symm (Option.some_ne_none _)
      · rintro ⟨newer, older, t, at', cause, hnil, -⟩
        exact absurd hnil (by simp)
  | cons e rest ih =>
      unfold rowOf
      by_cases hd : C.hashSessionToken e.token = d
      · rw [if_pos hd]
        constructor
        · intro h
          cases e with
          | ended token => exact absurd h.symm (Option.some_ne_none _)
          | minted token u at' cause =>
              obtain ⟨rfl, hexp⟩ := Prod.mk.inj (Option.some.inj h)
              exact ⟨[], rest, token, at', cause, rfl, by simp, hd, hexp.symm⟩
        · rintro ⟨newer, older, t, at', cause, hsplit, hnewer, -, hexp⟩
          cases newer with
          | nil =>
              rw [(List.cons.inj hsplit).1, hexp]
              rfl
          | cons e' newer =>
              rw [(List.cons.inj hsplit).1] at hd
              exact absurd hd (hnewer e' List.mem_cons_self)
      · rw [if_neg hd, ih]
        constructor
        · rintro ⟨newer, older, t, at', cause, rfl, hnewer, hrest⟩
          refine ⟨e :: newer, older, t, at', cause, rfl, ?_, hrest⟩
          intro e' he'
          rcases List.mem_cons.mp he' with rfl | he'
          · exact hd
          · exact hnewer e' he'
        · rintro ⟨newer, older, t, at', cause, hsplit, hnewer, ht, hexp⟩
          cases newer with
          | nil =>
              rw [(List.cons.inj hsplit).1] at hd
              exact absurd ht hd
          | cons e' newer =>
              refine ⟨newer, older, t, at', cause, (List.cons.inj hsplit).2, ?_, ht, hexp⟩
              exact fun e'' he'' => hnewer e'' (List.mem_cons_of_mem e' he'')

/-- A token is accepted for a user exactly when the last thing done to the session of its
digest was a mint for this user, not longer ago than the lifetime of a session; and that
mint rested on the user's password or on the user being known. -/
theorem getSession_iff (C : Crypto) (es : List PanelEvent) (token : String) (now : ℤ)
    (username : String) :
    (runFrom (Panel.step C) {} es).db.getSession C token now = some username ↔
      ∃ newer older t at' cause,
        (runFrom (Panel.step C) {} es).entries = newer ++ .minted t username at' cause :: older ∧
          (∀ e ∈ newer, C.hashSessionToken e.token ≠ C.hashSessionToken token) ∧
          C.hashSessionToken t = C.hashSessionToken token ∧ now ≤ at' + sessionTtlMs ∧
          cause.Justified C (runFrom (Panel.step C) {} es).hashes username := by
  have haccounted : Accounted C (runFrom (Panel.step C) {} es) :=
    runFrom_invariant (I := Accounted C) (fun _ e h => accounted_step h e) accounted_start es
  unfold AdminDb.getSession
  rw [haccounted.sessions]
  constructor
  · intro h
    obtain ⟨row, hrow, huser⟩ := Option.bind_eq_some_iff.mp h
    split at huser
    · rename_i hnow
      obtain ⟨newer, older, t, at', cause, hsplit, hnewer, ht, hexp⟩ :=
        rowOf_eq_some.mp (hrow.trans (congrArg some (Prod.ext (Option.some.inj huser) rfl)))
      refine ⟨newer, older, t, at', cause, hsplit, hnewer, ht, hexp ▸ hnow, ?_⟩
      refine haccounted.minted t username at' cause ?_
      rw [hsplit]
      exact List.mem_append_right _ List.mem_cons_self
    · exact absurd huser.symm (Option.some_ne_none _)
  · rintro ⟨newer, older, t, at', cause, hsplit, hnewer, ht, hnow, -⟩
    rw [rowOf_eq_some.mpr ⟨newer, older, t, at', cause, hsplit, hnewer, ht, rfl⟩]
    exact if_pos hnow

end AdminLogin

end GrServer
