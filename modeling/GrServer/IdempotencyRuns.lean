import GrServer.Idempotency

/-!
# What a stored response settles

A stored response is never replaced, so from then on every call that looks its
key up is answered from the row and runs nothing.  Before that, nothing keeps
two calls apart: the handler runs at most once where no call looks a key up
while another call of that key is between its lookup and its put, and no put
fails.
-/

namespace GrServer

open Json Text

namespace Idempotency

variable {env : Env} {reqs : ℕ → Request}

theorem putRow_keeps {store : Store} {k j : RowKey} {row new : Row}
    (hrow : store k = some row) : putRow store j new k = some row := by
  unfold putRow
  by_cases hstored : (store j).isSome
  · rw [if_pos hstored]
    exact hrow
  · rw [if_neg hstored]
    have hother : k ≠ j := by
      rintro rfl
      rw [hrow] at hstored
      exact hstored rfl
    rw [Function.update_of_ne hother]
    exact hrow

theorem commit_keeps {store : Store} {k : RowKey} {row : Row}
    (hrow : store k = some row) (f : Option Fresh)
    (outcome : Except ApiError Json) (putFails : Bool) :
    commit store f outcome putFails k = some row := by
  unfold commit
  cases f with
  | none => exact hrow
  | some f =>
      cases storable outcome with
      | none => exact hrow
      | some stored =>
          cases putFails with
          | true => exact hrow
          | false => exact putRow_keeps hrow

theorem step_keeps_row {s : State} {k : RowKey} {row : Row}
    (hrow : s.store k = some row) (e : Event) :
    (step env reqs s e).store k = some row := by
  cases e with
  | lookup i lookupFails =>
      unfold step
      dsimp only
      split <;> exact hrow
  | run i outcome =>
      unfold step
      dsimp only
      split <;> exact hrow
  | put i putFails =>
      unfold step
      dsimp only
      split
      · exact commit_keeps hrow _ _ _
      · exact hrow

/-! ## Answers from a row -/

/-- How the first lookup of a call goes, if it has one: its failure, if it
fails. -/
def lookupOf (i : ℕ) : List Event → Option (Option String)
  | [] => none
  | .lookup j lookupFails :: es => if j = i then some lookupFails else lookupOf i es
  | .run _ _ :: es => lookupOf i es
  | .put _ _ :: es => lookupOf i es

/-- The call that a stored row answers: it runs no handler, and has an error
only where its own lookup failed or its body is another one. -/
def answerFrom (env : Env) (req : Request) (row : Row) : Option (Option String) → Call
  | none => .idle
  | some (some text) => .done none (.error ⟨500, text⟩)
  | some none =>
      .done none
        (if row.bodyHash = env.sha256Hex req.body then
          .ok (row.status, env.reread row.response)
        else .error conflict)

theorem begin_of_key {store : Store} {req : Request} {k : RowKey}
    (hkey : requestKey env req = some k) (lookupFails : Option String) :
    begin env store req lookupFails =
      lookupRow env store k (env.sha256Hex req.body) lookupFails := by
  unfold requestKey at hkey
  unfold begin
  split at hkey
  · rename_i key hsanitized
    cases hkey
    simp only [hsanitized]
  · cases hkey

theorem afterLookup_of_row {store : Store} {req : Request} {k : RowKey} {row : Row}
    (hkey : requestKey env req = some k) (hrow : store k = some row)
    (lookupFails : Option String) :
    afterLookup (begin env store req lookupFails) =
      answerFrom env req row (some lookupFails) := by
  rw [begin_of_key hkey]
  unfold lookupRow answerFrom
  cases lookupFails with
  | some text => rfl
  | none =>
      rw [hrow]
      dsimp only
      by_cases hhash : row.bodyHash = env.sha256Hex req.body
      · rw [if_neg (not_not.mpr hhash), if_pos hhash]
        rfl
      · rw [if_pos hhash, if_neg hhash]
        rfl

theorem setCall_self (s : State) (i : ℕ) (call : Call) :
    (s.setCall i call).calls i = call :=
  Function.update_self ..

theorem setCall_other (s : State) {i j : ℕ} (h : j ≠ i) (call : Call) :
    (s.setCall i call).calls j = s.calls j :=
  Function.update_of_ne h ..

def Event.target : Event → ℕ
  | .lookup i _ => i
  | .run i _ => i
  | .put i _ => i

theorem step_other {s : State} {e : Event} {j : ℕ} (h : j ≠ e.target) :
    (step env reqs s e).calls j = s.calls j := by
  cases e with
  | lookup i lookupFails =>
      unfold step
      dsimp only
      split
      · exact setCall_other s h _
      · rfl
  | run i outcome =>
      unfold step
      dsimp only
      split
      · exact setCall_other s h _
      · rfl
  | put i putFails =>
      unfold step
      dsimp only
      split
      · exact setCall_other s h _
      · rfl

theorem step_done {s : State} {i : ℕ} {outcome : Option (Except ApiError Json)}
    {result : Result} (hdone : s.calls i = .done outcome result) (e : Event) :
    (step env reqs s e).calls i = .done outcome result := by
  by_cases htarget : i = e.target
  · cases e with
    | lookup j lookupFails =>
        change i = j at htarget
        subst htarget
        simp only [step, hdone]
    | run j outcome =>
        change i = j at htarget
        subst htarget
        simp only [step, hdone]
    | put j putFails =>
        change i = j at htarget
        subst htarget
        simp only [step, hdone]
  · rw [step_other htarget]
    exact hdone

theorem run_done {s : State} {i : ℕ} {outcome : Option (Except ApiError Json)}
    {result : Result} (hdone : s.calls i = .done outcome result) (es : List Event) :
    (runFrom (step env reqs) s es).calls i = .done outcome result := by
  let Done (s : State) : Prop := s.calls i = .done outcome result
  have hstep : ∀ s e, Done s → Done (step env reqs s e) := by
    intro s e h
    exact step_done h e
  exact runFrom_invariant (I := Done) hstep hdone es

theorem step_idle {s : State} {i : ℕ} {e : Event} (hidle : s.calls i = .idle)
    (hlookup : ∀ lookupFails, e ≠ .lookup i lookupFails) :
    (step env reqs s e).calls i = .idle := by
  by_cases htarget : i = e.target
  · cases e with
    | lookup j lookupFails =>
        change i = j at htarget
        subst htarget
        exact absurd rfl (hlookup lookupFails)
    | run j outcome =>
        change i = j at htarget
        subst htarget
        simp only [step, hidle]
    | put j putFails =>
        change i = j at htarget
        subst htarget
        simp only [step, hidle]
  · rw [step_other htarget]
    exact hidle

theorem answerFrom_done (env : Env) (req : Request) (row : Row)
    (lookupFails : Option String) :
    ∃ result, answerFrom env req row (some lookupFails) = .done none result := by
  cases lookupFails with
  | none => exact ⟨_, rfl⟩
  | some text => exact ⟨_, rfl⟩

theorem run_answered_call {s : State} {k : RowKey} {row : Row} {i : ℕ}
    (hkey : requestKey env (reqs i) = some k) (hrow : s.store k = some row)
    (hidle : s.calls i = .idle) (es : List Event) :
    (runFrom (step env reqs) s es).calls i =
      answerFrom env (reqs i) row (lookupOf i es) := by
  induction es generalizing s with
  | nil => exact hidle
  | cons e es ih =>
      have hkept : (step env reqs s e).store k = some row := step_keeps_row hrow e
      cases e with
      | lookup j lookupFails =>
          by_cases hj : j = i
          · subst hj
            have hanswer : (step env reqs s (.lookup j lookupFails)).calls j =
                answerFrom env (reqs j) row (some lookupFails) := by
              simp only [step, hidle, setCall_self]
              exact afterLookup_of_row hkey hrow lookupFails
            obtain ⟨result, hdone⟩ := answerFrom_done env (reqs j) row lookupFails
            rw [hdone] at hanswer
            rw [runFrom_cons, run_done hanswer, lookupOf, if_pos rfl, hdone]
          · rw [runFrom_cons, lookupOf, if_neg hj]
            apply ih hkept
            apply step_idle hidle
            rintro fails heq
            cases heq
            exact hj rfl
      | run j outcome =>
          rw [runFrom_cons, lookupOf]
          apply ih hkept
          apply step_idle hidle
          intro fails heq
          cases heq
      | put j putFails =>
          rw [runFrom_cons, lookupOf]
          apply ih hkept
          apply step_idle hidle
          intro fails heq
          cases heq

theorem run_answered {s : State} {k : RowKey} {row : Row}
    (hrow : s.store k = some row) (es : List Event) :
    (runFrom (step env reqs) s es).store k = some row ∧
      ∀ i, requestKey env (reqs i) = some k → s.calls i = .idle →
        (runFrom (step env reqs) s es).calls i =
          answerFrom env (reqs i) row (lookupOf i es) := by
  let Settled (s : State) : Prop := s.store k = some row
  have hkeeps : ∀ s e, Settled s → Settled (step env reqs s e) := by
    intro s e h
    exact step_keeps_row h e
  refine ⟨runFrom_invariant (I := Settled) hkeeps hrow es, ?_⟩
  intro i hkey hidle
  exact run_answered_call hkey hrow hidle es

/-! ## Calls that do not overlap -/

def Call.inProgress : Call → Bool
  | .begun _ => true
  | .ran .. => true
  | _ => false

def Call.carried : Call → Option Fresh
  | .begun f => f
  | .ran f _ => f
  | _ => none

def Call.success : Call → Option Json
  | .ran _ (.ok v) => some v
  | .done (some (.ok v)) _ => some v
  | _ => none

/-- No lookup while another call of the key is in progress, and no failing
put. -/
def Apart (env : Env) (reqs : ℕ → Request) (s : State) : Event → Prop
  | .lookup i _ => ∀ j k, j ≠ i → requestKey env (reqs i) = some k →
      requestKey env (reqs j) = some k → (s.calls j).inProgress = false
  | .run .. => True
  | .put _ putFails => putFails = false

/-- Of the calls of one key one handler at most succeeded, and replays of the
body whose outcome was stored repeat its answer. -/
structure HandledOnce (env : Env) (reqs : ℕ → Request) (s : State) : Prop where
  once : ∀ i j k, requestKey env (reqs i) = some k →
    requestKey env (reqs j) = some k → (s.calls i).success.isSome →
    (s.calls j).success.isSome → i = j
  repeated : ∀ i j k outcome status response result answer,
    requestKey env (reqs i) = some k →
    requestKey env (reqs j) = some k → (reqs j).body = (reqs i).body →
    s.calls i = .done (some outcome) result → storable outcome = some (status, response) →
    s.calls j = .done none (.ok answer) →
    dispatch result = (status, response) ∧ answer = (status, env.reread response)

def rowOf (env : Env) (req : Request) (stored : ℕ × Json) : Row :=
  ⟨env.sha256Hex req.body, stored.1, stored.2⟩

def CallFacts (env : Env) (req : Request) (k : RowKey) (row : Option Row) :
    Call → Prop
  | .idle => True
  | .begun f => f = some ⟨k, env.sha256Hex req.body⟩ ∧ row = none
  | .ran f _ => f = some ⟨k, env.sha256Hex req.body⟩ ∧ row = none
  | .done (some outcome) result =>
      result = finish outcome ∧
        ∀ stored, storable outcome = some stored → row = some (rowOf env req stored)
  | .done none (.ok answer) =>
      ∃ hit, row = some hit ∧ hit.bodyHash = env.sha256Hex req.body ∧
        answer = (hit.status, env.reread hit.response)
  | .done none (.error _) => True

structure Inv (env : Env) (reqs : ℕ → Request) (s : State) : Prop where
  unnamed : ∀ i, requestKey env (reqs i) = none → (s.calls i).carried = none
  facts : ∀ i k, requestKey env (reqs i) = some k →
    CallFacts env (reqs i) k (s.store k) (s.calls i)
  solo : ∀ i j k, requestKey env (reqs i) = some k →
    requestKey env (reqs j) = some k → (s.calls i).inProgress = true →
    (s.calls j).inProgress = true → i = j
  once : ∀ i j k oi oj ri rj, requestKey env (reqs i) = some k →
    requestKey env (reqs j) = some k → s.calls i = .done (some oi) ri →
    s.calls j = .done (some oj) rj → (storable oi).isSome →
    (storable oj).isSome → i = j

theorem CallFacts.row_none {req : Request} {k : RowKey} {row : Option Row}
    {call : Call} (h : CallFacts env req k row call)
    (hprogress : call.inProgress = true) : row = none := by
  cases call with
  | idle => cases hprogress
  | begun f => exact h.2
  | ran f outcome => exact h.2
  | done outcome result => cases hprogress

theorem inv_init : Inv env reqs State.init where
  unnamed := by
    intro i hkey
    rfl
  facts := by
    intro i k hkey
    trivial
  solo := by
    intro i j k hi hj hprogress
    cases hprogress
  once := by
    intro i j k oi oj ri rj hi hj hdone
    cases hdone

theorem afterLookup_facts {store : Store} {req : Request} {k : RowKey}
    (hkey : requestKey env req = some k) (lookupFails : Option String) :
    CallFacts env req k (store k)
      (afterLookup (begin env store req lookupFails)) := by
  rw [begin_of_key hkey]
  unfold lookupRow
  cases lookupFails with
  | some text => trivial
  | none =>
      cases hrow : store k with
      | none => exact ⟨rfl, rfl⟩
      | some hit =>
          dsimp only
          by_cases hhash : hit.bodyHash ≠ env.sha256Hex req.body
          · rw [if_pos hhash]
            trivial
          · rw [if_neg hhash]
            exact ⟨hit, rfl, not_not.mp hhash, rfl⟩

theorem afterLookup_not_done (begun : Except ApiError (Option Begun))
    (outcome : Except ApiError Json) (result : Result) :
    afterLookup begun ≠ .done (some outcome) result := by
  unfold afterLookup
  split <;> intro heq <;> cases heq

theorem afterLookup_unnamed {store : Store} {req : Request}
    (hkey : requestKey env req = none) (lookupFails : Option String) :
    (afterLookup (begin env store req lookupFails)).carried = none := by
  unfold requestKey at hkey
  unfold begin
  split at hkey
  · cases hkey
  · rename_i hnokey
    match hsanitized : sanitizeKey (headerCi req.headers "idempotency-key") with
    | .error e => rfl
    | .ok none =>
        dsimp only
        split_ifs <;> rfl
    | .ok (some key) => exact absurd hsanitized (hnokey key)

theorem forall_setCall {P : ℕ → Call → Prop} {s : State} {i : ℕ} {call : Call}
    (hcall : P i call) (hother : ∀ j, j ≠ i → P j (s.calls j)) (j : ℕ) :
    P j ((s.setCall i call).calls j) := by
  by_cases hj : j = i
  · subst hj
    rw [setCall_self]
    exact hcall
  · rw [setCall_other s hj]
    exact hother j hj

theorem Inv.lookup {s : State} (h : Inv env reqs s) {i : ℕ}
    {lookupFails : Option String} (hapart : Apart env reqs s (.lookup i lookupFails)) :
    Inv env reqs (step env reqs s (.lookup i lookupFails)) := by
  cases hcall : s.calls i with
  | begun f => simpa only [step, hcall] using h
  | ran f outcome => simpa only [step, hcall] using h
  | done outcome result => simpa only [step, hcall] using h
  | idle =>
      simp only [step, hcall]
      refine { unnamed := ?_, facts := ?_, solo := ?_, once := ?_ }
      · exact forall_setCall (P := fun j c => requestKey env (reqs j) = none → c.carried = none)
          (fun hkey => afterLookup_unnamed hkey lookupFails) fun j _ => h.unnamed j
      · exact forall_setCall (P := fun j c => ∀ k, requestKey env (reqs j) = some k →
            CallFacts env (reqs j) k (s.store k) c)
          (fun k hkey => afterLookup_facts hkey lookupFails) fun j _ => h.facts j
      · intro j l k hj hl hprogress hprogress'
        by_cases hji : j = i
        · by_cases hli : l = i
          · rw [hji, hli]
          · subst hji
            rw [setCall_other s hli] at hprogress'
            rw [hapart l k hli hj hl] at hprogress'
            cases hprogress'
        · rw [setCall_other s hji] at hprogress
          by_cases hli : l = i
          · subst hli
            rw [hapart j k hji hl hj] at hprogress
            cases hprogress
          · rw [setCall_other s hli] at hprogress'
            exact h.solo j l k hj hl hprogress hprogress'
      · intro j l k oj ol rj rl hj hl hdone hdone' hstored hstored'
        by_cases hji : j = i
        · subst hji
          rw [setCall_self] at hdone
          exact absurd hdone (afterLookup_not_done _ _ _)
        · by_cases hli : l = i
          · subst hli
            rw [setCall_self] at hdone'
            exact absurd hdone' (afterLookup_not_done _ _ _)
          · rw [setCall_other s hji] at hdone
            rw [setCall_other s hli] at hdone'
            exact h.once j l k oj ol rj rl hj hl hdone hdone' hstored hstored'

theorem Inv.run {s : State} (h : Inv env reqs s) (i : ℕ)
    (outcome : Except ApiError Json) :
    Inv env reqs (step env reqs s (.run i outcome)) := by
  cases hcall : s.calls i with
  | idle => simpa only [step, hcall] using h
  | ran f outcome => simpa only [step, hcall] using h
  | done outcome result => simpa only [step, hcall] using h
  | begun f =>
      simp only [step, hcall]
      have hprogress (j : ℕ) :
          ((s.setCall i (.ran f outcome)).calls j).inProgress =
            (s.calls j).inProgress := by
        by_cases hj : j = i
        · subst hj
          rw [setCall_self, hcall]
          rfl
        · rw [setCall_other s hj]
      have hdone {j : ℕ} {o : Except ApiError Json} {r : Result}
          (hj : (s.setCall i (.ran f outcome)).calls j = .done (some o) r) :
          s.calls j = .done (some o) r := by
        by_cases hji : j = i
        · subst hji
          rw [setCall_self] at hj
          cases hj
        · rwa [setCall_other s hji] at hj
      refine { unnamed := ?_, facts := ?_, solo := ?_, once := ?_ }
      · have hcarried := h.unnamed i
        rw [hcall] at hcarried
        exact forall_setCall (P := fun j c => requestKey env (reqs j) = none → c.carried = none)
          hcarried fun j _ => h.unnamed j
      · have hfacts := h.facts i
        simp only [hcall] at hfacts
        exact forall_setCall (P := fun j c => ∀ k, requestKey env (reqs j) = some k →
          CallFacts env (reqs j) k (s.store k) c) hfacts fun j _ => h.facts j
      · intro j l k hj hl hjp hlp
        rw [hprogress] at hjp hlp
        exact h.solo j l k hj hl hjp hlp
      · intro j l k oj ol rj rl hj hl hjd hld hstored hstored'
        exact h.once j l k oj ol rj rl hj hl (hdone hjd) (hdone hld) hstored hstored'

theorem commit_at {store : Store} {k : RowKey} {hash : String}
    {outcome : Except ApiError Json} (hnone : store k = none) :
    commit store (some ⟨k, hash⟩) outcome false k =
      (storable outcome).map fun stored => ⟨hash, stored.1, stored.2⟩ := by
  unfold commit
  cases storable outcome with
  | none => exact hnone
  | some stored =>
      change putRow store k ⟨hash, stored.1, stored.2⟩ k = _
      unfold putRow
      rw [hnone, if_neg (by decide), Function.update_self]
      rfl

theorem commit_other {store : Store} {k j : RowKey} {hash : String}
    {outcome : Except ApiError Json} {putFails : Bool} (h : j ≠ k) :
    commit store (some ⟨k, hash⟩) outcome putFails j = store j := by
  unfold commit
  cases storable outcome with
  | none => rfl
  | some stored =>
      cases putFails with
      | true => rfl
      | false =>
          change putRow store k ⟨hash, stored.1, stored.2⟩ j = store j
          unfold putRow
          by_cases hstored : (store k).isSome
          · rw [if_pos hstored]
          · rw [if_neg hstored, Function.update_of_ne h]

theorem CallFacts.of_none {req : Request} {k : RowKey} {call : Call}
    {row : Option Row} (h : CallFacts env req k none call)
    (hprogress : call.inProgress = false) : CallFacts env req k row call := by
  match call with
  | .idle => trivial
  | .begun f => cases hprogress
  | .ran f outcome => cases hprogress
  | .done (some outcome) result =>
      refine ⟨h.1, ?_⟩
      intro stored hstored
      have himpossible := h.2 stored hstored
      cases himpossible
  | .done none (.ok answer) =>
      obtain ⟨hit, himpossible, _⟩ := h
      cases himpossible
  | .done none (.error e) => trivial

theorem CallFacts.storable_none {req : Request} {k : RowKey}
    {outcome : Except ApiError Json} {result : Result}
    (h : CallFacts env req k none (.done (some outcome) result)) :
    (storable outcome).isSome = false := by
  cases hstored : storable outcome with
  | none => rfl
  | some stored =>
      have himpossible := h.2 stored hstored
      cases himpossible

section Put

variable {s : State} {i : ℕ} {f : Option Fresh} {outcome : Except ApiError Json} {k : RowKey}

theorem Inv.carried (h : Inv env reqs s) (hcall : s.calls i = .ran f outcome)
    (hkey : requestKey env (reqs i) = some k) :
    f = some ⟨k, env.sha256Hex (reqs i).body⟩ ∧ s.store k = none := by
  have hfacts := h.facts i k hkey
  rw [hcall] at hfacts
  exact hfacts

theorem Inv.commit_of_ne (h : Inv env reqs s) (hcall : s.calls i = .ran f outcome)
    (hkey : requestKey env (reqs i) ≠ some k) :
    commit s.store f outcome false k = s.store k := by
  cases hnamed : requestKey env (reqs i) with
  | none =>
      have hnone := h.unnamed i hnamed
      rw [hcall] at hnone
      change f = none at hnone
      rw [hnone]
      rfl
  | some k' =>
      have hne : k ≠ k' := by
        rintro rfl
        exact hkey hnamed
      rw [(h.carried hcall hnamed).1]
      exact commit_other hne

theorem Inv.alone (h : Inv env reqs s) (hcall : s.calls i = .ran f outcome) {j : ℕ}
    (hj : j ≠ i) (hkey : requestKey env (reqs i) = some k)
    (hkey' : requestKey env (reqs j) = some k) : (s.calls j).inProgress = false := by
  have hrun : (s.calls i).inProgress = true := by
    rw [hcall]
    rfl
  rw [Bool.eq_false_iff]
  intro hboth
  exact hj (h.solo j i k hkey' hkey hboth hrun)

end Put

theorem Inv.put {s : State} (h : Inv env reqs s) (i : ℕ) :
    Inv env reqs (step env reqs s (.put i false)) := by
  cases hcall : s.calls i with
  | idle => simpa only [step, hcall] using h
  | begun f => simpa only [step, hcall] using h
  | done outcome result => simpa only [step, hcall] using h
  | ran f outcome =>
      simp only [step, hcall]
      let put := s.setCall i (.done (some outcome) (finish outcome))
      have hself : put.calls i = .done (some outcome) (finish outcome) :=
        setCall_self s i _
      have hother {j : ℕ} (hj : j ≠ i) : put.calls j = s.calls j :=
        setCall_other s hj _
      have hprogress {j : ℕ} (hj : (put.calls j).inProgress = true) :
          j ≠ i ∧ (s.calls j).inProgress = true := by
        have hji : j ≠ i := by
          rintro rfl
          rw [hself] at hj
          cases hj
        rw [hother hji] at hj
        exact ⟨hji, hj⟩
      refine { unnamed := ?_, facts := ?_, solo := ?_, once := ?_ }
      · exact forall_setCall (P := fun j c => requestKey env (reqs j) = none → c.carried = none)
          (fun _ => rfl) fun j _ => h.unnamed j
      · refine forall_setCall (P := fun j c => ∀ k, requestKey env (reqs j) = some k →
          CallFacts env (reqs j) k (commit s.store f outcome false k) c)
          (fun k hkey => ?_) fun j hj k hkey => ?_
        · obtain ⟨hf, hnone⟩ := h.carried hcall hkey
          rw [hf, commit_at hnone]
          refine ⟨rfl, ?_⟩
          intro stored hstored
          rw [hstored]
          rfl
        · have hfacts := h.facts j k hkey
          by_cases hsame : requestKey env (reqs i) = some k
          · rw [(h.carried hcall hsame).2] at hfacts
            exact hfacts.of_none (h.alone hcall hj hsame hkey)
          · rw [h.commit_of_ne hcall hsame]
            exact hfacts
      · intro j l k hj hl hjp hlp
        exact h.solo j l k hj hl (hprogress hjp).2 (hprogress hlp).2
      · intro j l k oj ol rj rl hj hl hjd hld hstored hstored'
        change put.calls j = _ at hjd
        change put.calls l = _ at hld
        have hclash {m : ℕ} {om : Except ApiError Json} {rm : Result} (hmi : m ≠ i)
            (hi : requestKey env (reqs i) = some k)
            (hm : requestKey env (reqs m) = some k)
            (hmd : put.calls m = .done (some om) rm) :
            (storable om).isSome = false := by
          rw [hother hmi] at hmd
          have hfacts := h.facts m k hm
          rw [hmd, (h.carried hcall hi).2] at hfacts
          exact hfacts.storable_none
        by_cases hji : j = i
        · by_cases hli : l = i
          · rw [hji, hli]
          · subst hji
            rw [hclash hli hj hl hld] at hstored'
            cases hstored'
        · by_cases hli : l = i
          · subst hli
            rw [hclash hji hl hj hjd] at hstored
            cases hstored
          · rw [hother hji] at hjd
            rw [hother hli] at hld
            exact h.once j l k oj ol rj rl hj hl hjd hld hstored hstored'

theorem Inv.step {s : State} (h : Inv env reqs s) {e : Event}
    (hapart : Apart env reqs s e) : Inv env reqs (step env reqs s e) := by
  cases e with
  | lookup i lookupFails => exact h.lookup hapart
  | run i outcome => exact h.run i outcome
  | put i putFails =>
      cases hapart
      exact h.put i

theorem success_cases {call : Call} (h : call.success.isSome) :
    call.inProgress = true ∨
      ∃ outcome result, call = .done (some outcome) result ∧
        (storable outcome).isSome := by
  match call with
  | .idle => cases h
  | .begun f => cases h
  | .ran f outcome => exact Or.inl rfl
  | .done none result => cases h
  | .done (some (.ok v)) result => exact Or.inr ⟨.ok v, result, rfl, rfl⟩
  | .done (some (.error e)) result => cases h

theorem Inv.not_both {s : State} (h : Inv env reqs s) {i j : ℕ} {k : RowKey}
    (hi : requestKey env (reqs i) = some k) (hj : requestKey env (reqs j) = some k)
    {outcome : Except ApiError Json} {result : Result}
    (hdone : s.calls i = .done (some outcome) result)
    (hstored : (storable outcome).isSome) : (s.calls j).inProgress = false := by
  rw [Bool.eq_false_iff]
  intro hprogress
  have hnone := (h.facts j k hj).row_none hprogress
  have hfacts := h.facts i k hi
  rw [hdone, hnone] at hfacts
  rw [hfacts.storable_none] at hstored
  cases hstored

theorem dispatch_finish {outcome : Except ApiError Json} {stored : ℕ × Json}
    (hstored : storable outcome = some stored) : dispatch (finish outcome) = stored := by
  cases outcome with
  | ok v => exact Option.some.inj hstored
  | error e =>
      unfold storable at hstored
      dsimp only at hstored
      split_ifs at hstored
      exact Option.some.inj hstored

theorem Inv.handledOnce {s : State} (h : Inv env reqs s) :
    HandledOnce env reqs s where
  once := by
    intro i j k hi hj hsuccess hsuccess'
    rcases success_cases hsuccess with hprogress | ⟨oi, ri, hdone, hstored⟩
    · rcases success_cases hsuccess' with hprogress' | ⟨oj, rj, hdone', hstored'⟩
      · exact h.solo i j k hi hj hprogress hprogress'
      · rw [h.not_both hj hi hdone' hstored'] at hprogress
        cases hprogress
    · rcases success_cases hsuccess' with hprogress' | ⟨oj, rj, hdone', hstored'⟩
      · rw [h.not_both hi hj hdone hstored] at hprogress'
        cases hprogress'
      · exact h.once i j k oi oj ri rj hi hj hdone hdone' hstored hstored'
  repeated := by
    intro i j k outcome status response result answer hi hj hbody hran hstored hreplay
    have hfacts := h.facts i k hi
    rw [hran] at hfacts
    have hrow : s.store k = some (rowOf env (reqs i) (status, response)) :=
      hfacts.2 (status, response) hstored
    have hfacts' := h.facts j k hj
    rw [hreplay, hrow] at hfacts'
    obtain ⟨hit, hhit, _, hanswer⟩ := hfacts'
    cases hhit
    rw [hfacts.1]
    exact ⟨dispatch_finish hstored, hanswer⟩

/-- A stored response answers every later call of its key, in any interleaving;
and handlers succeed at most once for each key where calls do not overlap. -/
theorem stored_response_settles_key (env : Env) (reqs : ℕ → Request)
    (es : List Event) :
    (∀ before after k row, es = before ++ after →
      (runFrom (step env reqs) State.init before).store k = some row →
      (runFrom (step env reqs) State.init es).store k = some row ∧
        ∀ i, requestKey env (reqs i) = some k →
          (runFrom (step env reqs) State.init before).calls i = .idle →
          (runFrom (step env reqs) State.init es).calls i =
            answerFrom env (reqs i) row (lookupOf i after)) ∧
    (Along (step env reqs) (Apart env reqs) State.init es →
      HandledOnce env reqs (runFrom (step env reqs) State.init es)) := by
  constructor
  · intro before after k row hes hrow
    rw [hes, runFrom_append]
    exact run_answered hrow after
  · intro hapart
    have hinv : Inv env reqs (runFrom (step env reqs) State.init es) := by
      apply Along.invariant (I := Inv env reqs) ?_ hapart inv_init
      intro s e h hcond
      exact h.step hcond
    exact hinv.handledOnce

/-! ## One key used one call after the other, and twice at once -/

def sampleEnv : Env where
  sha256Hex := fun body =>
    if body = asBytes "\x7b\x7d" then
      "44136fa355b3678a1146ad16f7e8649e94fb4fc21fe77e8310c060f61caaff8a"
    else "015abd7f5cc57a2dd94b7590f04ad8084273905ee33ec5cebeae62276a97f862"
  reread := id
  requireKey := false

def sampleRequests (i : ℕ) : Request where
  headers := [("host", "gr.test"), ("idempotency-key", "open-0001")]
  route := "open"
  body := if i < 2 then asBytes "\x7b\x7d" else asBytes "\x7b\"a\":1\x7d"

def sessionNamed (id : String) : Json := .obj [("session_id", .str id)]

def sampleKey : RowKey := ⟨"gr.test|anon", "open", "open-0001"⟩

theorem sampleKey_named (i : ℕ) :
    requestKey sampleEnv (sampleRequests i) = some sampleKey := by
  have hheaders : (sampleRequests i).headers = (sampleRequests 0).headers := rfl
  have hroute : (sampleRequests i).route = (sampleRequests 0).route := rfl
  unfold requestKey
  rw [hheaders, hroute]
  decide

abbrev sampleRun (es : List Event) : State :=
  runFrom (step sampleEnv sampleRequests) State.init es

def firstCall : List Event :=
  [.lookup 0 none, .run 0 (.ok (sessionNamed "s_1")), .put 0 false]

def firstRow : Row :=
  rowOf sampleEnv (sampleRequests 0) (200, sessionNamed "s_1")

/-- Call `1` is answered from the row of call `0`, and call `2` with its other
body is turned down. -/
theorem second_call_replays :
    (sampleRun (firstCall ++ [.lookup 1 none, .lookup 2 none])).calls 1 =
        .done none (.ok (200, sessionNamed "s_1")) ∧
      (sampleRun (firstCall ++ [.lookup 1 none, .lookup 2 none])).calls 2 =
        .done none (.error conflict) ∧
      HandledOnce sampleEnv sampleRequests
        (sampleRun (firstCall ++ [.lookup 1 none, .lookup 2 none])) := by
  have hsettles := stored_response_settles_key sampleEnv sampleRequests
    (firstCall ++ [.lookup 1 none, .lookup 2 none])
  have hrow : (sampleRun firstCall).store sampleKey = some firstRow := by decide
  have hanswered := (hsettles.1 firstCall [.lookup 1 none, .lookup 2 none] sampleKey
    firstRow rfl hrow).2
  -- no call but the first has run a handler
  have hquiet (j : ℕ) (es : List Event) :
      ((sampleRun (firstCall ++ es)).calls j).inProgress = false := by
    by_cases hj : j = 0
    · subst hj
      have hdone : (sampleRun firstCall).calls 0 =
          .done (some (.ok (sessionNamed "s_1"))) (.ok (200, sessionNamed "s_1")) := rfl
      rw [sampleRun, runFrom_append, run_done hdone]
      rfl
    · have huntouched : (sampleRun firstCall).calls j = .idle := by
        unfold sampleRun firstCall
        rw [runFrom_cons, runFrom_cons, runFrom_cons, runFrom_nil]
        rw [step_other hj, step_other hj, step_other hj]
        rfl
      rw [sampleRun, runFrom_append,
        run_answered_call (sampleKey_named j) hrow huntouched es]
      cases lookupOf j es with
      | none => rfl
      | some lookupFails =>
          obtain ⟨result, hresult⟩ :=
            answerFrom_done sampleEnv (sampleRequests j) firstRow lookupFails
          rw [hresult]
          rfl
  refine ⟨hanswered 1 (sampleKey_named 1) rfl, hanswered 2 (sampleKey_named 2) rfl,
    hsettles.2 ⟨?_, trivial, rfl, ?_, ?_, trivial⟩⟩
  · intro j k _ _ _
    rfl
  · intro j k _ _ _
    exact hquiet j []
  · intro j k _ _ _
    exact hquiet j [.lookup 1 none]

/-- Calls `0` and `1` both run when they overlap; they differ when the first
fails with 503; and call `2` runs with its other body while call `0` is at
work. -/
theorem overlapping_calls_run_twice :
    (¬ ∀ es, ((sampleRun es).calls 0).success.isSome →
      ((sampleRun es).calls 1).success = none) ∧
    (¬ ∀ es o o' r r', (sampleRun es).calls 0 = .done o r →
      (sampleRun es).calls 1 = .done o' r' → dispatch r = dispatch r') ∧
    (¬ ∀ before after, (sampleRun before).calls 0 ≠ .idle →
      (sampleRun before).calls 2 = .idle →
      ((sampleRun (before ++ after)).calls 2).success = none) := by
  refine ⟨?_, ?_, ?_⟩
  · intro hclaim
    have hsecond := hclaim [.lookup 0 none, .lookup 1 none,
      .run 0 (.ok (sessionNamed "s_1")), .run 1 (.ok (sessionNamed "s_2"))] rfl
    revert hsecond
    decide
  · intro hclaim
    have hsame := hclaim [.lookup 0 none, .run 0 (.error ⟨503, "busy"⟩),
      .put 0 false, .lookup 1 none, .run 1 (.ok (sessionNamed "s_1")),
      .put 1 false] _ _ _ _ rfl rfl
    revert hsame
    decide
  · intro hclaim
    have hstarted : (sampleRun [.lookup 0 none]).calls 0 ≠ .idle := by
      intro hidle
      cases hidle
    have hother := hclaim [.lookup 0 none]
      [.lookup 2 none, .run 2 (.ok (sessionNamed "s_2"))] hstarted rfl
    revert hother
    decide

end Idempotency

end GrServer
