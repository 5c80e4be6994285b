import GrServer.RateLimit

/-!
# What the limits admit

While no call comes with an earlier minute than one before it, the checks of a
key in a minute are numbered one by one by each authority, the table or a
process, and those up to the cap are admitted.  Two clocks that differ by a
minute start each other's counts again.
-/

namespace GrServer

open Text

namespace RateLimit

variable {ν : Type*} [DecidableEq ν]

/-! ## Counting -/

/-- The checks of a key that an authority counted in a minute. -/
def seen (log : List (Counted ν)) (a : Option ν) (k : String) (w : ℕ) : ℕ :=
  log.countP fun e => decide (e.authority = a ∧ e.key = k ∧ e.window = w)

def admitted (log : List (Counted ν)) (a : Option ν) (k : String) (w : ℕ) : ℕ :=
  log.countP fun e =>
    decide ((e.authority = a ∧ e.key = k ∧ e.window = w) ∧ e.answer = some true)

def Counted.limit (e : Counted ν) : ℤ := if e.authority = none then asI64 e.cap else e.cap

def Counted.Fair (log : List (Counted ν)) (e : Counted ν) : Prop :=
  ∀ b, e.answer = some b →
    b = decide (((seen log e.authority e.key e.window + 1 : ℕ) : ℤ) ≤ e.limit)

inductive Numbered : List (Counted ν) → Prop
  | nil : Numbered []
  | concat {log : List (Counted ν)} {e : Counted ν} :
      Numbered log → e.Fair log → Numbered (log ++ [e])

section Log

variable {log : List (Counted ν)} {e : Counted ν} {a : Option ν} {k : String} {w : ℕ}

theorem seen_concat_same (ha : e.authority = a) (hk : e.key = k) (hw : e.window = w) :
    seen (log ++ [e]) a k w = seen log a k w + 1 := by
  unfold seen
  rw [List.countP_append, List.countP_singleton, if_pos (by simp [ha, hk, hw])]

theorem seen_concat_other (h : ¬(e.authority = a ∧ e.key = k ∧ e.window = w)) :
    seen (log ++ [e]) a k w = seen log a k w := by
  unfold seen
  rw [List.countP_append, List.countP_singleton, if_neg (by simpa using h), Nat.add_zero]

theorem admitted_le_seen : admitted log a k w ≤ seen log a k w := by
  unfold admitted seen
  apply List.countP_mono_left
  intro e _ he
  simp only [decide_eq_true_eq] at he ⊢
  exact he.1

theorem int64_size : Int64.size = 18446744073709551616 := rfl

theorem asI64_le (cap : ℕ) : asI64 cap ≤ cap := by
  unfold asI64
  rw [Int64.toInt_ofNat', int64_size]
  unfold Int.bmod
  dsimp only
  split <;> omega

theorem asI64_of_lt {cap : ℕ} (h : cap < 2 ^ 63) : asI64 cap = cap := by
  unfold asI64
  rw [Int64.toInt_ofNat', int64_size]
  exact Int.bmod_eq_of_le (by omega) (by omega)

omit [DecidableEq ν] in
theorem Counted.limit_le (e : Counted ν) : e.limit ≤ e.cap := by
  unfold Counted.limit
  split
  · exact asI64_le e.cap
  · exact le_rfl

theorem Numbered.admitted_le (h : Numbered log) {C : ℕ}
    (hcap : ∀ e ∈ log, e.key = k → e.cap ≤ C) : admitted log a k w ≤ C := by
  induction h with
  | nil => exact Nat.zero_le C
  | @concat log e h hfair ih =>
      have hrest := ih fun e he => hcap e (List.mem_append_left _ he)
      by_cases hnew : (e.authority = a ∧ e.key = k ∧ e.window = w) ∧ e.answer = some true
      · obtain ⟨⟨ha, hk, hw⟩, hanswer⟩ := hnew
        have hle := of_decide_eq_true (hfair true hanswer).symm
        have hlimit := e.limit_le
        have hC := hcap e (List.mem_append_right _ List.mem_cons_self) hk
        have hadmitted : admitted (log ++ [e]) a k w ≤ seen (log ++ [e]) a k w := admitted_le_seen
        rw [seen_concat_same ha hk hw] at hadmitted
        rw [ha, hk, hw] at hle
        omega
      · unfold admitted at hrest ⊢
        rw [List.countP_append, List.countP_singleton, if_neg (by simpa using hnew)]
        exact hrest

end Log

/-! ## The counters -/

def Limiter.last (s : Limiter ν) (a : Option ν) (k : String) : Option Window :=
  match a with
  | none => s.rows.get? k
  | some n => (s.buckets n).get? k

def Tallied (s : Limiter ν) : Prop :=
  ∀ a k,
    (∀ w n, s.last a k = some (w, n) →
      w ≤ s.clock ∧ n = seen s.log a k w ∧ ∀ w', w < w' → seen s.log a k w' = 0) ∧
    (s.last a k = none → ∀ w', s.clock ≤ w' + 2 → seen s.log a k w' = 0)

structure Good (s : Limiter ν) : Prop where
  tallied : Tallied s
  numbered : Numbered s.log

section Counters

variable {s : Limiter ν} {c : Call ν} {key : String} {cap : ℕ}

omit [DecidableEq ν] in
theorem last_start (a : Option ν) (k : String) : Limiter.last ({} : Limiter ν) a k = none := by
  cases a <;> rfl

theorem good_start : Good ({} : Limiter ν) where
  tallied := by
    intro a k
    refine ⟨?_, fun _ _ _ => rfl⟩
    intro w n h
    rw [last_start] at h
    exact absurd h.symm (Option.some_ne_none _)
  numbered := .nil

theorem Good.at (h : Good s) (c : Call ν) : Good (s.at c) where
  tallied := by
    intro a k
    obtain ⟨hrow, hnone⟩ := h.tallied a k
    refine ⟨?_, ?_⟩
    · intro w n hlast
      obtain ⟨hle, hcount⟩ := hrow w n hlast
      exact ⟨hle.trans (Nat.le_max_left _ _), hcount⟩
    · intro hlast w' hw'
      exact hnone hlast w' ((Nat.le_max_left _ _).trans hw')
  numbered := h.numbered

theorem Tallied.next_eq (h : Tallied s) (a : Option ν) (k : String) :
    Window.next (s.last a k) s.clock = seen s.log a k s.clock + 1 := by
  obtain ⟨hrow, hnone⟩ := h a k
  cases hlast : s.last a k with
  | none =>
      rw [hnone hlast s.clock (Nat.le_add_right _ _)]
      rfl
  | some row =>
      obtain ⟨w, n⟩ := row
      obtain ⟨hle, hcount, hlater⟩ := hrow w n hlast
      unfold Window.next
      dsimp only
      by_cases hw : w = s.clock
      · rw [if_pos hw, hcount, hw]
      · rw [if_neg hw, hlater s.clock (by omega)]

theorem Tallied.count (h : Tallied s) {s' : Limiter ν} {e : Counted ν} (he : e.window = s.clock)
    (hclock : s'.clock = s.clock) (hlog : s'.log = s.log ++ [e])
    (hsame : s'.last e.authority e.key =
      some (s.clock, seen s.log e.authority e.key s.clock + 1))
    (hother : ∀ a k, ¬(a = e.authority ∧ k = e.key) → s'.last a k = s.last a k) : Tallied s' := by
  intro a k
  rw [hclock, hlog]
  by_cases hnew : a = e.authority ∧ k = e.key
  · obtain ⟨rfl, rfl⟩ := hnew
    obtain ⟨hrow, hnone⟩ := h e.authority e.key
    rw [hsame]
    refine ⟨?_, fun hnil => absurd hnil (Option.some_ne_none _)⟩
    intro w n hlast
    obtain ⟨rfl, rfl⟩ := Prod.mk.inj (Option.some.inj hlast)
    refine ⟨le_rfl, (seen_concat_same rfl rfl he).symm, ?_⟩
    intro w' hw'
    rw [seen_concat_other (by omega)]
    cases hold : s.last e.authority e.key with
    | none => exact hnone hold w' (by omega)
    | some row =>
        obtain ⟨hle, -, hlater⟩ := hrow row.1 row.2 hold
        exact hlater w' (by omega)
  · have hseen : ∀ w, seen (s.log ++ [e]) a k w = seen s.log a k w := by
      intro w
      exact seen_concat_other fun hall => hnew ⟨hall.1.symm, hall.2.1.symm⟩
    rw [hother a k hnew]
    simp only [hseen]
    exact h a k

theorem Tallied.purge (h : Tallied s) : Tallied { s with rows := purge s.rows s.clock } := by
  intro a k
  cases a with
  | some n => exact h (some n) k
  | none =>
      obtain ⟨hrow, hnone⟩ := h none k
      change (∀ w n, (RateLimit.purge s.rows s.clock).get? k = some (w, n) → _) ∧
        ((RateLimit.purge s.rows s.clock).get? k = none → _)
      refine ⟨?_, ?_⟩
      · intro w n hlast
        exact hrow w n (SortedMap.get?_filter_eq_some.mp hlast).1
      · intro hlast w' hw'
        change s.clock ≤ w' + 2 at hw'
        cases hold : s.rows.get? k with
        | none => exact hnone hold w' hw'
        | some row =>
            obtain ⟨hle, -, hlater⟩ := hrow row.1 row.2 hold
            refine hlater w' ?_
            by_contra hge
            have hkept : (RateLimit.purge s.rows s.clock).get? k = some row := by
              refine SortedMap.get?_filter_eq_some.mpr ⟨hold, ?_⟩
              rw [Bool.not_eq_true', decide_eq_false_iff_not]
              omega
            rw [hkept] at hlast
            exact absurd hlast (Option.some_ne_none row)

theorem good_checkLocal (h : Good s) (hclock : c.window = s.clock) :
    Good (checkLocal s c key cap).1 where
  tallied := by
    refine h.tallied.count (e := ⟨some c.node, key, c.window, cap, _⟩) hclock rfl rfl ?_ ?_
    · have hnext := h.tallied.next_eq (some c.node) key
      change (Function.update s.buckets c.node _ c.node).get? key = _
      rw [Function.update_self, SortedMap.get?_insert_self, hclock]
      exact congrArg (fun n => some (s.clock, n)) hnext
    · intro a k hne
      cases a with
      | none => rfl
      | some n =>
          change (Function.update s.buckets c.node _ n).get? k = (s.buckets n).get? k
          by_cases hn : n = c.node
          · subst hn
            rw [Function.update_self, SortedMap.get?_insert_of_ne]
            exact fun hk => hne ⟨rfl, hk⟩
          · rw [Function.update_of_ne hn]
  numbered := by
    refine .concat h.numbered ?_
    intro b hb
    have hnext := h.tallied.next_eq (some c.node) key
    change some (decide (Window.next (s.last (some c.node) key) c.window ≤ cap)) = some b at hb
    rw [← Option.some.inj hb, hclock, hnext]
    apply decide_eq_decide.mpr
    change seen s.log (some c.node) key s.clock + 1 ≤ cap ↔
      ((seen s.log (some c.node) key s.clock + 1 : ℕ) : ℤ) ≤ (cap : ℤ)
    rw [Nat.cast_le]

theorem good_bump (h : Good s) (hclock : c.window = s.clock) {answer : Option Bool}
    (hanswer : ∀ b, answer = some b →
      b = decide (((bumpRateLimitWindow s.rows key c.window).2 : ℤ) ≤ asI64 cap)) :
    Good
      { s with
        rows := (bumpRateLimitWindow s.rows key c.window).1
        log := s.log ++ [⟨none, key, c.window, cap, answer⟩] } := by
  have hpurged := h.tallied.purge
  have hnext := hpurged.next_eq none key
  constructor
  · refine hpurged.count (e := ⟨none, key, c.window, cap, answer⟩) hclock rfl rfl ?_ ?_
    · change ((purge s.rows c.window).insert key (c.window, _)).get? key = _
      rw [SortedMap.get?_insert_self, hclock]
      exact congrArg (fun n => some (s.clock, n)) hnext
    · intro a k hne
      cases a with
      | some n => rfl
      | none =>
          change ((purge s.rows c.window).insert key _).get? k = (purge s.rows s.clock).get? k
          rw [SortedMap.get?_insert_of_ne fun hk => hne ⟨rfl, hk⟩, hclock]
  · refine .concat h.numbered ?_
    intro b hb
    rw [hanswer b hb]
    apply decide_eq_decide.mpr
    have hcount : (bumpRateLimitWindow s.rows key c.window).2 =
        seen s.log none key s.clock + 1 := by
      rw [hclock]
      exact hnext
    rw [hcount]
    change _ ↔ ((seen s.log none key c.window + 1 : ℕ) : ℤ) ≤ asI64 cap
    rw [hclock]

end Counters

section Layers

variable {s : Limiter ν} {c : Call ν}

/-- What a check does to the counts: it adds entries of its key, cap and minute, the last
of which has the answer. -/
structure Checks (s : Limiter ν) (c : Call ν) (key : String) (cap : ℕ)
    (r : Limiter ν × Bool) : Prop where
  good : Good r.1
  clock : r.1.clock = s.clock
  log : ∃ new e, r.1.log = s.log ++ (new ++ [e]) ∧ e.answer = some r.2 ∧
    (∀ e' ∈ new, e'.answer = none) ∧
    ∀ e' ∈ new ++ [e], e'.key = key ∧ e'.cap = cap ∧ e'.window = c.window

theorem checks_local (h : Good s) (hclock : c.window = s.clock) (key : String) (cap : ℕ) :
    Checks s c key cap (checkLocal s c key cap) where
  good := good_checkLocal h hclock
  clock := rfl
  log := by
    refine ⟨[], _, rfl, rfl, by simp, ?_⟩
    intro e' he'
    rw [List.nil_append, List.mem_singleton] at he'
    rw [he']
    exact ⟨rfl, rfl, rfl⟩

theorem checks_checkKey (h : Good s) (hclock : c.window = s.clock) (key : String) {cap : ℕ}
    (hcap : cap ≠ 0) : Checks s c key cap (checkKey s c key cap) := by
  unfold checkKey
  rw [if_neg hcap]
  dsimp only
  cases c.store with
  | other => exact checks_local h hclock key cap
  | down => exact checks_local h hclock key cap
  | purged =>
      have hpurged : Good { s with rows := purge s.rows c.window } := by
        refine ⟨?_, h.numbered⟩
        rw [hclock]
        exact h.tallied.purge
      obtain ⟨hgood, hsame, hlog⟩ := checks_local hpurged hclock key cap
      exact ⟨hgood, hsame, hlog⟩
  | up =>
      refine ⟨good_bump h hclock fun b hb => (Option.some.inj hb).symm, rfl, ?_⟩
      refine ⟨[], _, rfl, rfl, by simp, ?_⟩
      intro e' he'
      rw [List.nil_append, List.mem_singleton] at he'
      rw [he']
      exact ⟨rfl, rfl, rfl⟩
  | lost =>
      have hbumped : Good
          { s with
            rows := (bumpRateLimitWindow s.rows key c.window).1
            log := s.log ++ [⟨none, key, c.window, cap, none⟩] } :=
        good_bump h hclock fun b hb => absurd hb.symm (Option.some_ne_none b)
      obtain ⟨hgood, hsame, new, e, hlog, hanswer, hnew, hall⟩ :=
        checks_local hbumped hclock key cap
      refine ⟨hgood, hsame, ⟨none, key, c.window, cap, none⟩ :: new, e, ?_, hanswer, ?_, ?_⟩
      · rw [hlog]
        simp
      · intro e' he'
        rcases List.mem_cons.mp he' with rfl | he'
        · rfl
        · exact hnew e' he'
      · intro e' he'
        rcases List.mem_cons.mp he' with rfl | he'
        · exact ⟨rfl, rfl, rfl⟩
        · exact hall e' he'

omit [DecidableEq ν] in
def passedChecks (log : List (Counted ν)) (k : String) (w : ℕ) : ℕ :=
  log.countP fun e => decide ((e.key = k ∧ e.window = w) ∧ e.answer = some true)

omit [DecidableEq ν] in
theorem passedChecks_append (log more : List (Counted ν)) (k : String) (w : ℕ) :
    passedChecks (log ++ more) k w = passedChecks log k w + passedChecks more k w :=
  List.countP_append

structure Answered (s : Limiter ν) (c : Call ν) (layers : List Layer)
    (r : Limiter ν × Except String Unit) : Prop where
  good : Good r.1
  clock : r.1.clock = s.clock
  log : ∃ new, r.1.log = s.log ++ new ∧
    ∀ e ∈ new, ∃ l ∈ layers, e.key = l.key ∧ e.cap = l.cap
  /-- A request that passes was admitted by each of its layers. -/
  passes : r.2 = .ok () → ∀ l ∈ layers, l.cap ≠ 0 →
    passedChecks s.log l.key c.window + 1 ≤ passedChecks r.1.log l.key c.window
  /-- A request is refused by a layer with more checks than its cap. -/
  refuses : ∀ text, r.2 = .error text → ∃ l ∈ layers, text = "rate_limited:" ++ l.tag ∧
    ∃ a, asI64 l.cap < seen r.1.log a l.key c.window

theorem Checks.passes {key : String} {cap : ℕ} {r : Limiter ν × Bool} (h : Checks s c key cap r)
    (hok : r.2 = true) :
    passedChecks s.log key c.window + 1 ≤ passedChecks r.1.log key c.window := by
  obtain ⟨new, e, hlog, hanswer, -, hall⟩ := h.log
  obtain ⟨hkey, -, hwindow⟩ := hall e (List.mem_append_right _ List.mem_cons_self)
  rw [hlog, passedChecks_append, passedChecks_append]
  have hone : passedChecks [e] key c.window = 1 := by
    unfold passedChecks
    rw [List.countP_singleton, if_pos (by simp [hkey, hwindow, hanswer, hok])]
  omega

theorem Checks.refuses {key : String} {cap : ℕ} {r : Limiter ν × Bool} (h : Checks s c key cap r)
    (hrefused : r.2 = false) : ∃ a, asI64 cap < seen r.1.log a key c.window := by
  obtain ⟨new, e, hlog, hanswer, -, hall⟩ := h.log
  obtain ⟨hkey, hcap, hwindow⟩ := hall e (List.mem_append_right _ List.mem_cons_self)
  have hconcat : r.1.log = (s.log ++ new) ++ [e] := by
    rw [hlog, List.append_assoc]
  have hnumbered := h.good.numbered
  rw [hconcat] at hnumbered
  have hfair : e.Fair (s.log ++ new) := by
    generalize hall' : (s.log ++ new) ++ [e] = whole at hnumbered
    cases hnumbered with
    | nil => exact absurd hall' (by simp)
    | concat hrest hfair =>
        obtain ⟨hfront, hlast⟩ := List.append_inj' hall' rfl
        rw [hfront, (List.cons.inj hlast).1]
        exact hfair
  have hlt := of_decide_eq_false (hfair r.2 hanswer ▸ hrefused)
  refine ⟨e.authority, ?_⟩
  rw [hconcat, seen_concat_same rfl hkey hwindow, ← hkey, ← hwindow]
  have hlimit : asI64 cap ≤ e.limit := by
    unfold Counted.limit
    rw [hcap]
    split
    · exact le_rfl
    · exact asI64_le cap
  omega

theorem answered_runLayers (layers : List Layer) {s : Limiter ν} (h : Good s)
    (hclock : c.window = s.clock) : Answered s c layers (runLayers s c layers) := by
  induction layers generalizing s with
  | nil =>
      exact ⟨h, rfl, ⟨[], (List.append_nil _).symm, by simp⟩, fun _ l hl => absurd hl (by simp),
        fun text htext => absurd htext (by simp [runLayers])⟩
  | cons l layers ih =>
      by_cases hcap : l.cap = 0
      · have hpass : runLayers s c (l :: layers) = runLayers s c layers := by
          conv_lhs => unfold runLayers
          rw [hcap, checkKey_zero]
          rfl
        obtain ⟨hgood, hsame, ⟨new, hlog, hnew⟩, hpasses, hrefuses⟩ := ih h hclock
        rw [hpass]
        refine ⟨hgood, hsame, ⟨new, hlog, ?_⟩, ?_, ?_⟩
        · intro e he
          obtain ⟨l', hl', hmatch⟩ := hnew e he
          exact ⟨l', List.mem_cons_of_mem l hl', hmatch⟩
        · intro hok l' hl' hcap'
          rcases List.mem_cons.mp hl' with rfl | hl'
          · exact absurd hcap hcap'
          · exact hpasses hok l' hl' hcap'
        · intro text htext
          obtain ⟨l', hl', hmatch⟩ := hrefuses text htext
          exact ⟨l', List.mem_cons_of_mem l hl', hmatch⟩
      · have hcheck := checks_checkKey h hclock l.key hcap
        obtain ⟨new, e, hlog, -, -, hall⟩ := hcheck.log
        have hentries : ∀ e' ∈ new ++ [e], ∃ l' ∈ l :: layers, e'.key = l'.key ∧ e'.cap = l'.cap :=
          fun e' he' => ⟨l, List.mem_cons_self, (hall e' he').1, (hall e' he').2.1⟩
        cases hr : (checkKey s c l.key l.cap).2 with
        | false =>
            have hstop : runLayers s c (l :: layers) =
                ((checkKey s c l.key l.cap).1, .error ("rate_limited:" ++ l.tag)) := by
              unfold runLayers
              rw [if_neg (by simp [hr])]
            rw [hstop]
            refine ⟨hcheck.good, hcheck.clock, ⟨_, hlog, hentries⟩, fun hok => ?_, ?_⟩
            · exact absurd hok (by simp)
            · intro text htext
              exact ⟨l, List.mem_cons_self, (Except.error.inj htext).symm, hcheck.refuses hr⟩
        | true =>
            have hgo : runLayers s c (l :: layers) =
                runLayers (checkKey s c l.key l.cap).1 c layers := by
              conv_lhs => unfold runLayers
              rw [if_pos hr]
            obtain ⟨hgood, hsame, ⟨more, hmore, hnew⟩, hpasses, hrefuses⟩ :=
              ih hcheck.good (hclock.trans hcheck.clock.symm)
            rw [hgo]
            refine ⟨hgood, hsame.trans hcheck.clock, ⟨(new ++ [e]) ++ more, ?_, ?_⟩, ?_, ?_⟩
            · rw [hmore, hlog, List.append_assoc]
            · intro e' he'
              rcases List.mem_append.mp he' with hfirst | hlater
              · exact hentries e' hfirst
              · obtain ⟨l', hl', hmatch⟩ := hnew e' hlater
                exact ⟨l', List.mem_cons_of_mem l hl', hmatch⟩
            · intro hok l' hl' hcap'
              rcases List.mem_cons.mp hl' with rfl | hl'
              · have hfirst := hcheck.passes hr
                rw [hmore, passedChecks_append]
                omega
              · have hlater := hpasses hok l' hl' hcap'
                rw [hlog, passedChecks_append] at hlater
                omega
            · intro text htext
              obtain ⟨l', hl', hmatch⟩ := hrefuses text htext
              exact ⟨l', List.mem_cons_of_mem l hl', hmatch⟩

end Layers

/-! ## Runs -/

def results (s : Limiter ν) : List (Call ν) → List (Call ν × Except String Unit)
  | [] => []
  | c :: cs => (c, (answer (s.at c) c).2) :: results (s.step c) cs

/-- No call comes with an earlier minute than one before it. -/
def InOrder (s : Limiter ν) (cs : List (Call ν)) : Prop :=
  Along Limiter.step (fun s c => s.clock ≤ c.window) s cs

def Call.Checks (c : Call ν) (k : String) (w : ℕ) : Prop :=
  c.window = w ∧ ∃ l ∈ c.layers, l.key = k ∧ l.cap ≠ 0

omit [DecidableEq ν] in
instance (c : Call ν) (k : String) (w : ℕ) : Decidable (c.Checks k w) :=
  inferInstanceAs (Decidable (_ ∧ _))

/-- The calls that passed a check of a key in a minute. -/
def passed (rs : List (Call ν × Except String Unit)) (k : String) (w : ℕ) : ℕ :=
  rs.countP fun r => decide (r.1.Checks k w) && r.2.isOk

theorem answered_step {s : Limiter ν} (h : Good s) {c : Call ν} (hclock : s.clock ≤ c.window) :
    Answered (s.at c) c c.layers (s.step c, (answer (s.at c) c).2) := by
  have hat : c.window = (s.at c).clock := (Nat.max_eq_right hclock).symm
  have hanswered := answered_runLayers c.layers (h.at c) hat
  rw [← answer_eq] at hanswered
  exact hanswered

theorem passed_run {cs : List (Call ν)} {s : Limiter ν} (h : Good s) (horder : InOrder s cs)
    (k : String) (w : ℕ) :
    Good (runFrom Limiter.step s cs) ∧
      passedChecks s.log k w + passed (results s cs) k w ≤
        passedChecks (runFrom Limiter.step s cs).log k w ∧
      ∃ new, (runFrom Limiter.step s cs).log = s.log ++ new ∧
        ∀ e ∈ new, ∃ c ∈ cs, ∃ l ∈ c.layers, e.key = l.key ∧ e.cap = l.cap := by
  induction cs generalizing s with
  | nil => exact ⟨h, le_rfl, [], (List.append_nil _).symm, by simp⟩
  | cons c cs ih =>
      obtain ⟨hclock, hrest⟩ := horder
      obtain ⟨hgood, -, ⟨new, hlog, hnew⟩, hpasses, -⟩ := answered_step h hclock
      obtain ⟨hend, hcount, more, hmore, hall⟩ := ih hgood hrest
      have hlogStep : (s.step c).log = s.log ++ new := hlog
      change passedChecks (s.step c).log k w + passed (results (s.step c) cs) k w ≤
        passedChecks (runFrom Limiter.step (s.step c) cs).log k w at hcount
      refine ⟨hend, ?_, new ++ more, ?_, ?_⟩
      · have hhead : passed (results s (c :: cs)) k w =
            (if (decide (c.Checks k w) && (answer (s.at c) c).2.isOk) = true then 1 else 0) +
              passed (results (s.step c) cs) k w := by
          unfold passed
          rw [results, List.countP_cons, Nat.add_comm]
        rw [hhead]
        by_cases hpass : (decide (c.Checks k w) && (answer (s.at c) c).2.isOk) = true
        · rw [if_pos hpass]
          rw [Bool.and_eq_true, decide_eq_true_eq] at hpass
          obtain ⟨⟨hw, l, hl, hkey, hcap⟩, hok⟩ := hpass
          have hresult : (answer (s.at c) c).2 = .ok () := by
            cases hanswer : (answer (s.at c) c).2 with
            | ok u => rfl
            | error text =>
                rw [hanswer] at hok
                exact absurd hok (by simp [Except.isOk, Except.toBool])
          have hone := hpasses hresult l hl hcap
          rw [hkey, hw] at hone
          change passedChecks s.log k w + 1 ≤ passedChecks (s.step c).log k w at hone
          rw [runFrom_cons]
          omega
        · rw [if_neg hpass, Nat.zero_add]
          rw [hlogStep, passedChecks_append] at hcount
          rw [runFrom_cons]
          omega
      · rw [runFrom_cons, hmore, hlogStep, List.append_assoc]
      · intro e he
        rcases List.mem_append.mp he with hfirst | hlater
        · obtain ⟨l, hl, hmatch⟩ := hnew e hfirst
          exact ⟨c, List.mem_cons_self, l, hl, hmatch⟩
        · obtain ⟨c', hc', hl⟩ := hall e hlater
          exact ⟨c', List.mem_cons_of_mem c hc', hl⟩

theorem passedChecks_eq_sum [Fintype ν] (log : List (Counted ν)) (k : String) (w : ℕ) :
    passedChecks log k w = ∑ a : Option ν, admitted log a k w := by
  induction log with
  | nil => simp [passedChecks, admitted]
  | cons e log ih =>
      have hcons : ∀ a, admitted (e :: log) a k w = admitted log a k w +
          if e.authority = a then passedChecks [e] k w else 0 := by
        intro a
        unfold admitted passedChecks
        rw [List.countP_cons, List.countP_singleton]
        by_cases ha : e.authority = a <;> simp [ha]
      have hhead : passedChecks (e :: log) k w = passedChecks log k w + passedChecks [e] k w := by
        unfold passedChecks
        rw [List.countP_cons, List.countP_singleton]
      rw [hhead, ih]
      simp only [hcons]
      rw [Finset.sum_add_distrib, Finset.sum_ite_eq]
      simp

/-- In any run in order, of the calls that check a key in a minute no more pass than the
cap for the shared table and for each process that fell back on its own count. -/
theorem passed_le [Fintype ν] (cs : List (Call ν)) (k : String) (w C : ℕ)
    (horder : InOrder {} cs) (hcap : ∀ c ∈ cs, ∀ l ∈ c.layers, l.key = k → l.cap ≤ C) :
    passed (results {} cs) k w ≤ C * (Fintype.card ν + 1) := by
  obtain ⟨hgood, hcount, new, hlog, hnew⟩ := passed_run good_start horder k w
  have hentries : ∀ e ∈ (runFrom Limiter.step {} cs).log, e.key = k → e.cap ≤ C := by
    intro e he hkey
    rw [hlog] at he
    obtain ⟨c, hc, l, hl, hkeyOf, hcapOf⟩ := hnew e he
    rw [hcapOf]
    exact hcap c hc l hl (hkeyOf.symm.trans hkey)
  have hsum : ∑ a : Option ν, admitted (runFrom Limiter.step {} cs).log a k w ≤
      ∑ _a : Option ν, C :=
    Finset.sum_le_sum fun a _ => hgood.numbered.admitted_le hentries
  rw [← passedChecks_eq_sum, Finset.sum_const, Finset.card_univ, Fintype.card_option,
    smul_eq_mul] at hsum
  rw [Nat.mul_comm]
  have hstart : passedChecks ({} : Limiter ν).log k w = 0 := rfl
  omega

/-- In any run in order, a call is refused only by a layer whose cap an authority has
exceeded with that call, in the call's own minute. -/
theorem refused_over_cap (cs : List (Call ν)) (horder : InOrder {} cs)
    (hcap : ∀ c ∈ cs, ∀ l ∈ c.layers, l.cap < 2 ^ 63) :
    Along Limiter.step
      (fun s c => ∀ text, (answer (s.at c) c).2 = .error text →
        ∃ l ∈ c.layers, text = "rate_limited:" ++ l.tag ∧
          ∃ a, l.cap < seen (s.step c).log a l.key c.window) {} cs := by
  have hcaps : Along Limiter.step (fun _ c => ∀ l ∈ c.layers, l.cap < 2 ^ 63) {} cs :=
    along_of_forall fun _ c hc => hcap c hc
  refine (Along.and horder hcaps).steps (I := Good) ?_ good_start
  intro s c h hguard
  obtain ⟨hclock, hsmall⟩ := hguard
  obtain ⟨hgood, -, -, -, hrefuses⟩ := answered_step h hclock
  refine ⟨?_, hgood⟩
  intro text htext
  obtain ⟨l, hl, hname, a, hover⟩ := hrefuses text htext
  refine ⟨l, hl, hname, a, ?_⟩
  rw [asI64_of_lt (hsmall l hl)] at hover
  exact Nat.cast_lt.mp hover

def exampleEnv (name : String) : Option String :=
  if name = "RATE_LIMIT_FORCE" then some "1"
  else if name = "RATE_LIMIT_OPEN_PER_MIN" then some "2"
  else none

def exampleCall (node : Fin 2) (store : StoreState) (window : ℕ) : Call (Fin 2) where
  node
  config := { env := exampleEnv, cfg := .default exampleEnv }
  store
  window
  request := .check "gate.example" "open"

def exampleCalls : List (Call (Fin 2)) :=
  [exampleCall 0 .up 7, exampleCall 1 .up 7, exampleCall 0 .up 7, exampleCall 0 .lost 7,
    exampleCall 1 .down 7, exampleCall 0 .down 7, exampleCall 0 .down 7]

theorem passed_le_example :
    passed (results {} exampleCalls) "gate.example:open" 7 ≤ 2 * (Fintype.card (Fin 2) + 1) :=
  passed_le exampleCalls "gate.example:open" 7 2 (by unfold InOrder; decide)
    (by decide)

theorem refused_over_cap_example :
    Along Limiter.step
      (fun s c => ∀ text, (answer (s.at c) c).2 = .error text →
        ∃ l ∈ c.layers, text = "rate_limited:" ++ l.tag ∧
          ∃ a, l.cap < seen (s.step c).log a l.key c.window) {} exampleCalls :=
  refused_over_cap exampleCalls (by unfold InOrder; decide) (by decide)

section Skew

variable {site route : String}

/-- A call of a route that the limiter counts in the shared table. -/
structure Call.Shared (c : Call ν) (site route : String) : Prop where
  request : c.request = .check site route
  store : c.store = .up
  enabled : enabled c.config.env = true
  positive : 0 < limitFor c.config route
  small : limitFor c.config route < 2 ^ 63

theorem alternating_step {s : Limiter ν} {c : Call ν} (hc : c.Shared site route)
    (hother : ∀ row, s.rows.get? (site ++ ":" ++ route) = some row → row.1 ≠ c.window) :
    (answer (s.at c) c).2 = .ok () ∧
      (s.step c).rows.get? (site ++ ":" ++ route) = some (c.window, 1) := by
  have hnext : (bumpRateLimitWindow (s.at c).rows (site ++ ":" ++ route) c.window).2 = 1 := by
    change Window.next ((purge s.rows c.window).get? (site ++ ":" ++ route)) c.window = 1
    cases hrow : (purge s.rows c.window).get? (site ++ ":" ++ route) with
    | none => rfl
    | some row => exact if_neg (hother row (SortedMap.get?_filter_eq_some.mp hrow).1)
  have hok : decide (((bumpRateLimitWindow (s.at c).rows (site ++ ":" ++ route) c.window).2 : ℤ) ≤
      asI64 (limitFor c.config route)) = true := by
    apply decide_eq_true
    have hpositive := hc.positive
    rw [asI64_of_lt hc.small, hnext]
    omega
  have hcheck : checkKey (s.at c) c (site ++ ":" ++ route) (limitFor c.config route) =
      ({ s.at c with
          rows := (bumpRateLimitWindow (s.at c).rows (site ++ ":" ++ route) c.window).1
          log := s.log ++ [⟨none, site ++ ":" ++ route, c.window,
            limitFor c.config route, some true⟩] }, true) := by
    unfold checkKey
    rw [if_neg (Nat.ne_of_gt hc.positive), hc.store]
    dsimp only
    rw [hok]
    rfl
  unfold Limiter.step answer
  rw [if_neg (by simp [hc.enabled]), hc.request]
  dsimp only
  rw [if_neg (Nat.ne_of_gt hc.positive), hcheck]
  refine ⟨rfl, ?_⟩
  change ((purge (s.at c).rows c.window).insert (site ++ ":" ++ route) _).get? _ = _
  rw [SortedMap.get?_insert_self]
  exact congrArg (fun n => some (c.window, n)) hnext

theorem alternating_run (cs : List (Call ν)) {s : Limiter ν}
    (hcs : ∀ c ∈ cs, c.Shared site route) (halternate : (cs.map Call.window).IsChain (· ≠ ·))
    (hother : ∀ c ∈ cs.head?, ∀ row,
      s.rows.get? (site ++ ":" ++ route) = some row → row.1 ≠ c.window) :
    ∀ r ∈ results s cs, r.2 = .ok () := by
  induction cs generalizing s with
  | nil =>
      intro r hr
      exact absurd hr (by simp [results])
  | cons c cs ih =>
      obtain ⟨hok, hrow⟩ := alternating_step (hcs c List.mem_cons_self) (hother c rfl)
      rw [List.map_cons] at halternate
      have hnext : ∀ c' ∈ cs.head?, ∀ row,
          (s.step c).rows.get? (site ++ ":" ++ route) = some row → row.1 ≠ c'.window := by
        intro c' hc' row hlast
        rw [hrow] at hlast
        rw [← Option.some.inj hlast]
        cases cs with
        | nil => exact absurd hc' (by simp)
        | cons c₁ cs =>
            rw [← Option.some.inj hc']
            rw [List.map_cons, List.isChain_cons_cons] at halternate
            exact halternate.1
      intro r hr
      rw [results] at hr
      rcases List.mem_cons.mp hr with rfl | hrest
      · exact hok
      · exact ih (fun c' hc' => hcs c' (List.mem_cons_of_mem c hc')) halternate.tail hnext r hrest

/-- Calls of which no two in a row have the same minute are never refused, however many
they are: two clocks that differ by a minute take the limit away. -/
theorem alternating_never_refused (cs : List (Call ν)) (hcs : ∀ c ∈ cs, c.Shared site route)
    (halternate : (cs.map Call.window).IsChain (· ≠ ·)) :
    ∀ r ∈ results {} cs, r.2 = .ok () :=
  alternating_run cs hcs halternate fun _ _ row hrow =>
    absurd hrow.symm (Option.some_ne_none row)

def skewedCalls : List (Call (Fin 2)) :=
  [exampleCall 0 .up 8, exampleCall 1 .up 7, exampleCall 0 .up 8, exampleCall 1 .up 7,
    exampleCall 0 .up 8, exampleCall 1 .up 7]

theorem alternating_never_refused_example :
    (results {} skewedCalls).map Prod.snd = List.replicate 6 (.ok ()) := by
  have hlimit : limitFor { env := exampleEnv, cfg := .default exampleEnv } "open" = 2 := by
    decide
  have hshared : ∀ node w, (exampleCall node .up w).Shared "gate.example" "open" := by
    intro node w
    refine ⟨rfl, rfl, ?_, ?_, ?_⟩
    · change enabled exampleEnv = true
      decide
    · change 0 < limitFor { env := exampleEnv, cfg := .default exampleEnv } "open"
      rw [hlimit]
      norm_num
    · change limitFor { env := exampleEnv, cfg := .default exampleEnv } "open" < 2 ^ 63
      rw [hlimit]
      norm_num
  have hcs : ∀ c ∈ skewedCalls, c.Shared "gate.example" "open" := by
    intro c hc
    unfold skewedCalls at hc
    simp only [List.mem_cons, List.not_mem_nil, or_false] at hc
    rcases hc with rfl | rfl | rfl | rfl | rfl | rfl <;> exact hshared _ _
  have hall := alternating_never_refused skewedCalls hcs (by decide)
  refine List.eq_replicate_iff.mpr ⟨rfl, ?_⟩
  intro answer hanswer
  obtain ⟨r, hr, rfl⟩ := List.mem_map.mp hanswer
  exact hall r hr

end Skew

end RateLimit

end GrServer
