import GrServer.WebhookOutbox

/-!
# What the webhook files keep

An item is owed from its enqueueing until it is settled.  The files must hold
every owed item at every moment, since a crash may come at any moment.  They do
right after a step that persists exactly when no drain call then has an owed
item out, so this is the condition on the persisting steps.

Memory and drain calls together hold every owed item in any run; the files are
the memory of the last persisting step.
-/

namespace GrServer

namespace WebhookOutbox

def Boxes.Holds (b : Boxes) (t : Tagged) : Prop :=
  t ∈ (b.pending ++ b.dlq).map Tagged.origin

instance (b : Boxes) (t : Tagged) : Decidable (b.Holds t) :=
  inferInstanceAs (Decidable (t ∈ (b.pending ++ b.dlq).map Tagged.origin))

def State.Owed (s : State) (t : Tagged) : Prop :=
  t ∈ s.enqueued ∧ t.uid ∉ s.settled

instance (s : State) (t : Tagged) : Decidable (s.Owed t) :=
  inferInstanceAs (Decidable (t ∈ s.enqueued ∧ t.uid ∉ s.settled))

def State.InFlight (s : State) (t : Tagged) : Prop :=
  ∃ k items, s.drains k = some items ∧ t ∈ items.map Tagged.origin

/-- A crash now loses nothing that is owed. -/
def State.Durable (s : State) : Prop :=
  ∀ t, s.Owed t → (loadBoxes s.files).Holds t

/-- Nothing that is out is owed. -/
def State.Quiet (s : State) : Prop :=
  ∀ t, s.InFlight t → ¬ s.Owed t

/-- A step that persists finds nothing owed out, the item it handles itself
apart. -/
def QuietPersist (s : State) : Event → Prop
  | .enqueue .. => s.Quiet
  | .drainPop .. => True
  | .deliver k answer _ _ => ∀ t rest, s.drains k = some (t :: rest) →
      isDelivered answer = false → (s.setDrain k (some rest)).Quiet
  | .drainFinish k => s.drains k = some [] → s.Quiet
  | .markFailed id _ _ _ => (∃ t ∈ s.boxes.pending, t.item.id = id) → s.Quiet
  | .markOk id => ∀ t, s.InFlight t → s.Owed t → t.item.id = id
  | .crash => True

theorem mem_drop_of_not_taken {n : ℕ} {items : List Tagged} {t : Tagged}
    (hmem : t ∈ items.map Tagged.origin)
    (hkept : t.uid ∉ (items.take n).map Tagged.uid) :
    t ∈ (items.drop n).map Tagged.origin := by
  obtain ⟨u, hu, rfl⟩ := List.mem_map.mp hmem
  rw [← List.take_append_drop n items] at hu
  rcases List.mem_append.mp hu with htaken | hstays
  · have hdropped : u.uid ∈ (items.take n).map Tagged.uid :=
      List.mem_map_of_mem htaken
    exact absurd hdropped hkept
  · exact List.mem_map_of_mem hstays

theorem boundDlq_keeps {dlq : List Tagged} {t : Tagged}
    (hmem : t ∈ dlq.map Tagged.origin) (hkept : t.uid ∉ (boundDlq dlq).2) :
    t ∈ (boundDlq dlq).1.map Tagged.origin := by
  unfold boundDlq at hkept ⊢
  dsimp only at hkept ⊢
  exact mem_drop_of_not_taken hmem hkept

theorem pushPending_keeps {b : Boxes} {new t : Tagged}
    (hmem : b.Holds t ∨ t = new.origin) (hkept : t.uid ∉ (pushPending b new).2) :
    (pushPending b new).1.Holds t := by
  unfold pushPending at hkept ⊢
  dsimp only at hkept ⊢
  generalize (b.pending ++ [new]).length - maxOutbox = excess at hkept ⊢
  have hall : t ∈ (b.pending ++ [new]).map Tagged.origin ∨
      t ∈ b.dlq.map Tagged.origin := by
    unfold Boxes.Holds at hmem
    simp only [List.map_append, List.mem_append, List.map_cons, List.map_nil,
      List.mem_singleton] at hmem ⊢
    tauto
  have hsplit : t ∈ ((b.pending ++ [new]).drop excess).map Tagged.origin ∨
      t ∈ (b.dlq ++ (b.pending ++ [new]).take excess).map Tagged.origin := by
    rw [← List.take_append_drop excess (b.pending ++ [new])] at hall
    rw [List.map_append, List.mem_append] at hall
    rw [List.map_append, List.mem_append]
    tauto
  unfold Boxes.Holds
  dsimp only
  rw [List.map_append]
  rcases hsplit with hpending | hdlq
  · exact List.mem_append_left _ hpending
  · have hbounded := boundDlq_keeps hdlq hkept
    exact List.mem_append_right _ hbounded

theorem requeueFailed_keeps {b : Boxes} {failed t : Tagged} {error : String}
    {maxAttempts : UInt32} {now : Int64}
    (hmem : b.Holds t ∨ t = failed.origin)
    (hkept : t.uid ∉ (requeueFailed b failed error maxAttempts now).2) :
    (requeueFailed b failed error maxAttempts now).1.Holds t := by
  unfold Boxes.Holds at hmem
  rw [List.map_append] at hmem
  unfold requeueFailed at hkept ⊢
  by_cases hdead : maxAttempts ≤ failed.item.attempts + 1
  · simp only [if_pos hdead] at hkept ⊢
    unfold Boxes.Holds
    dsimp only
    rw [List.map_append]
    have hcases : t ∈ b.pending.map Tagged.origin ∨
        t ∈ (b.dlq ++ [{ failed with item := { failed.item with
          attempts := failed.item.attempts + 1
          lastError := some error } }]).map Tagged.origin := by
      rw [List.map_append]
      rcases hmem with hin | rfl
      · rcases List.mem_append.mp hin with hpending | hdlq
        · exact Or.inl hpending
        · exact Or.inr (List.mem_append_left _ hdlq)
      · exact Or.inr (List.mem_append_right _ List.mem_cons_self)
    rcases hcases with hpending | hdlq
    · exact List.mem_append_left _ hpending
    · have hbounded := boundDlq_keeps hdlq hkept
      exact List.mem_append_right _ hbounded
  · simp only [if_neg hdead]
    change t ∈ ((b.pending ++ [_]) ++ b.dlq).map Tagged.origin
    rw [List.map_append, List.map_append]
    rcases hmem with hin | rfl
    · rcases List.mem_append.mp hin with hpending | hdlq
      · exact List.mem_append_left _ (List.mem_append_left _ hpending)
      · exact List.mem_append_right _ hdlq
    · exact List.mem_append_left _
        (List.mem_append_right _ List.mem_cons_self)

theorem mem_splitReady {items : List Tagged} {t : Tagged} (hmem : t ∈ items)
    (now : Int64) (maxN : ℕ) :
    t ∈ (splitReady now maxN items).1 ∨ t ∈ (splitReady now maxN items).2 := by
  induction items generalizing maxN with
  | nil => cases hmem
  | cons u rest ih =>
      unfold splitReady
      rcases List.mem_cons.mp hmem with rfl | hrest
      · split_ifs
        · exact Or.inl List.mem_cons_self
        · exact Or.inr List.mem_cons_self
      · split_ifs
        · rcases ih hrest (maxN - 1) with hready | hother
          · exact Or.inl (List.mem_cons_of_mem _ hready)
          · exact Or.inr hother
        · rcases ih hrest maxN with hready | hother
          · exact Or.inl hready
          · exact Or.inr (List.mem_cons_of_mem _ hother)

theorem mem_eraseP_find {p : Tagged → Bool} {items : List Tagged} {u t : Tagged}
    (hfind : items.find? p = some u) (hmem : t ∈ items) :
    t ∈ items.eraseP p ∨ t = u := by
  induction items with
  | nil => cases hmem
  | cons v rest ih =>
      by_cases hv : p v = true
      · rw [List.find?_cons_of_pos hv] at hfind
        rw [List.eraseP_cons_of_pos hv]
        cases hfind
        rcases List.mem_cons.mp hmem with rfl | hrest
        · exact Or.inr rfl
        · exact Or.inl hrest
      · rw [List.find?_cons_of_neg hv] at hfind
        rw [List.eraseP_cons_of_neg hv]
        rcases List.mem_cons.mp hmem with rfl | hrest
        · exact Or.inl List.mem_cons_self
        · rcases ih hfind hrest with hkept | heq
          · exact Or.inl (List.mem_cons_of_mem _ hkept)
          · exact Or.inr heq

/-! ## One step -/

structure Inv (s : State) : Prop where
  covered : ∀ t, s.Owed t → s.boxes.Holds t ∨ s.InFlight t
  durable : s.Durable

theorem Inv.held {s : State} (h : Inv s) (hquiet : s.Quiet) {t : Tagged}
    (howed : s.Owed t) : s.boxes.Holds t := by
  rcases h.covered t howed with hheld | hout
  · exact hheld
  · exact absurd howed (hquiet t hout)

theorem write_inv {s : State} {b : Boxes} {dropped : List ℕ}
    (hheld : ∀ t, s.Owed t → t.uid ∉ dropped → b.Holds t) :
    Inv (s.write b dropped) := by
  have hall : ∀ t, (s.write b dropped).Owed t → b.Holds t := by
    intro t howed
    have hopen : t.uid ∉ dropped ++ s.settled := howed.2
    rw [List.mem_append, not_or] at hopen
    exact hheld t ⟨howed.1, hopen.2⟩ hopen.1
  refine { covered := ?_, durable := ?_ }
  · intro t howed
    exact Or.inl (hall t howed)
  · intro t howed
    change (loadBoxes (persistBoxes b)).Holds t
    rw [loadBoxes_persistBoxes]
    exact hall t howed

theorem inFlight_setDrain {s : State} {k : ℕ} {u : Tagged} {rest : List Tagged}
    (hdrain : s.drains k = some (u :: rest)) {t : Tagged} (hout : s.InFlight t) :
    (s.setDrain k (some rest)).InFlight t ∨ t = u.origin := by
  obtain ⟨j, items, hitems, hmem⟩ := hout
  by_cases hj : j = k
  · subst hj
    rw [hdrain] at hitems
    cases hitems
    rcases List.mem_cons.mp hmem with rfl | hrest
    · exact Or.inr rfl
    · have hnow : (s.setDrain j (some rest)).drains j = some rest :=
        Function.update_self ..
      exact Or.inl ⟨j, rest, hnow, hrest⟩
  · have hnow : (s.setDrain k (some rest)).drains j = some items := by
      rw [← hitems]
      exact Function.update_of_ne hj _ _
    exact Or.inl ⟨j, items, hnow, hmem⟩

theorem Inv.enqueue {s : State} (h : Inv s) (hquiet : s.Quiet)
    (C : WebhookCrypto) (tenant event url : String) (payload : Json)
    (secret : Option String) (now : Int64) :
    Inv (s.enqueue C tenant event url payload secret now) := by
  let new : Tagged :=
    { uid := s.enqueued.length, item := newItem C tenant event url payload secret now }
  have hnew : Inv (({ s with enqueued := new :: s.enqueued }).write
      (pushPending s.boxes new).1 (pushPending s.boxes new).2) := by
    apply write_inv
    intro t howed hkept
    rcases List.mem_cons.mp howed.1 with rfl | hold
    · exact pushPending_keeps (Or.inr rfl) hkept
    · have hheld : s.boxes.Holds t := h.held hquiet ⟨hold, howed.2⟩
      exact pushPending_keeps (Or.inl hheld) hkept
  exact hnew

theorem Inv.drainPop {s : State} (h : Inv s) (k maxN : ℕ) (now : Int64) :
    Inv (s.drainPop k maxN now) := by
  unfold State.drainPop
  cases hdrain : s.drains k with
  | some items => exact h
  | none =>
      refine { covered := ?_, durable := h.durable }
      intro t howed
      rcases h.covered t howed with hheld | ⟨j, items, hitems, hmem⟩
      · obtain ⟨u, hu, rfl⟩ := List.mem_map.mp hheld
        rcases List.mem_append.mp hu with hpending | hdlq
        · rcases mem_splitReady hpending now maxN with hready | hother
          · refine Or.inr ⟨k, _, Function.update_self .., ?_⟩
            exact List.mem_map_of_mem hready
          · exact Or.inl (List.mem_map_of_mem (List.mem_append_left _ hother))
        · exact Or.inl (List.mem_map_of_mem (List.mem_append_right _ hdlq))
      · have hj : j ≠ k := by
          rintro rfl
          rw [hdrain] at hitems
          cases hitems
        refine Or.inr ⟨j, items, ?_, hmem⟩
        rw [← hitems]
        exact Function.update_of_ne hj _ _

theorem Inv.deliver {s : State} (h : Inv s) {k : ℕ} {answer : Except String ℕ}
    (hquiet : ∀ t rest, s.drains k = some (t :: rest) →
      isDelivered answer = false → (s.setDrain k (some rest)).Quiet)
    (maxAttempts : UInt32) (now : Int64) :
    Inv (s.deliver k answer maxAttempts now) := by
  unfold State.deliver
  match hdrain : s.drains k with
  | none => exact h
  | some [] => exact h
  | some (u :: rest) =>
      dsimp only
      cases hanswer : isDelivered answer with
      | true =>
          rw [if_pos rfl]
          have hopen {t : Tagged} (huid : t.uid ∉ u.uid :: s.settled) :
              t.uid ∉ s.settled ∧ t ≠ u.origin := by
            rw [List.mem_cons, not_or] at huid
            refine ⟨huid.2, ?_⟩
            rintro rfl
            exact huid.1 rfl
          refine { covered := ?_, durable := ?_ }
          · intro t howed
            obtain ⟨hunsettled, hother⟩ := hopen howed.2
            rcases h.covered t ⟨howed.1, hunsettled⟩ with hheld | hout
            · exact Or.inl hheld
            · rcases inFlight_setDrain hdrain hout with hstill | heq
              · exact Or.inr hstill
              · exact absurd heq hother
          · intro t howed
            obtain ⟨hunsettled, hother⟩ := hopen howed.2
            exact h.durable t ⟨howed.1, hunsettled⟩
      | false =>
          rw [if_neg (by decide)]
          apply write_inv
          intro t howed hkept
          have hcovered : s.boxes.Holds t ∨ t = u.origin := by
            rcases h.covered t howed with hheld | hout
            · exact Or.inl hheld
            · rcases inFlight_setDrain hdrain hout with hstill | heq
              · exact absurd howed (hquiet u rest hdrain hanswer t hstill)
              · exact Or.inr heq
          exact requeueFailed_keeps hcovered hkept

theorem Inv.drainFinish {s : State} (h : Inv s) {k : ℕ}
    (hquiet : s.drains k = some [] → s.Quiet) : Inv (s.drainFinish k) := by
  unfold State.drainFinish
  match hdrain : s.drains k with
  | none => exact h
  | some (u :: rest) => exact h
  | some [] =>
      apply write_inv
      intro t howed _
      exact h.held (hquiet hdrain) howed

theorem Inv.markFailed {s : State} (h : Inv s) {id : String}
    (hquiet : (∃ t ∈ s.boxes.pending, t.item.id = id) → s.Quiet)
    (error : String) (maxAttempts : UInt32) (now : Int64) :
    Inv (s.markFailed id error maxAttempts now) := by
  unfold State.markFailed
  cases hfind : s.boxes.pending.find? fun t => t.item.id = id with
  | none => exact h
  | some u =>
      have hid : u.item.id = id := by
        have hfound := List.find?_some hfind
        simpa using hfound
      have hquiet := hquiet ⟨u, List.mem_of_find?_eq_some hfind, hid⟩
      apply write_inv
      intro t howed hkept
      apply requeueFailed_keeps ?_ hkept
      obtain ⟨v, hv, rfl⟩ := List.mem_map.mp (h.held hquiet howed)
      rcases List.mem_append.mp hv with hpending | hdlq
      · rcases mem_eraseP_find hfind hpending with hstays | rfl
        · exact Or.inl (List.mem_map_of_mem (List.mem_append_left _ hstays))
        · exact Or.inr rfl
      · exact Or.inl (List.mem_map_of_mem (List.mem_append_right _ hdlq))

theorem Inv.markOk {s : State} (h : Inv s) {id : String}
    (hquiet : ∀ t, s.InFlight t → s.Owed t → t.item.id = id) :
    Inv (s.markOk id) := by
  apply write_inv
  intro t howed hkept
  have hother : t.item.id ≠ id := by
    intro hid
    apply hkept
    apply List.mem_map_of_mem
    simpa using ⟨howed.1, hid⟩
  rcases h.covered t howed with hheld | hout
  · obtain ⟨u, hu, rfl⟩ := List.mem_map.mp hheld
    rcases List.mem_append.mp hu with hpending | hdlq
    · apply List.mem_map_of_mem
      apply List.mem_append_left
      have hkeeps : decide (u.item.id ≠ id) = true := decide_eq_true hother
      exact List.mem_filter.mpr ⟨hpending, hkeeps⟩
    · exact List.mem_map_of_mem (List.mem_append_right _ hdlq)
  · exact absurd (hquiet t hout howed) hother

theorem Inv.crash {s : State} (h : Inv s) : Inv s.crash where
  covered := by
    intro t howed
    exact Or.inl (h.durable t howed)
  durable := h.durable

theorem Inv.step {s : State} (h : Inv s) (C : WebhookCrypto) {e : Event}
    (hquiet : QuietPersist s e) : Inv (step C s e) := by
  cases e with
  | enqueue tenant event url payload secret now =>
      exact h.enqueue hquiet C tenant event url payload secret now
  | drainPop k maxN now => exact h.drainPop k maxN now
  | deliver k answer maxAttempts now => exact h.deliver hquiet maxAttempts now
  | drainFinish k => exact h.drainFinish hquiet
  | markFailed id error maxAttempts now =>
      exact h.markFailed hquiet error maxAttempts now
  | markOk id => exact h.markOk hquiet
  | crash => exact h.crash

theorem inv_init : Inv State.init where
  covered := by
    intro t howed
    cases howed.1
  durable := by
    intro t howed
    cases howed.1

/-- When every step that persists finds nothing owed out, no crash loses an
item that is owed. -/
theorem run_loses_no_webhook (C : WebhookCrypto) (es : List Event)
    (hquiet : Along (step C) QuietPersist State.init es) :
    Along (step C) (fun s e => (step C s e).Durable) State.init es := by
  apply Along.steps (I := Inv) ?_ hquiet inv_init
  intro s e h hcond
  have hnext := h.step C hcond
  exact ⟨hnext.durable, hnext⟩

def noCrypto : WebhookCrypto where
  sha256Hex := fun _ => ""
  jsonText := fun _ => ""

def enqueueAt (now : Int64) : Event :=
  .enqueue "t_1" "case.closed" "http://hook.test/in" (.obj []) none now

theorem quiet_of_idle {s : State}
    (hidle : ∀ k items, s.drains k = some items → items = []) : s.Quiet := by
  intro t hout
  obtain ⟨k, items, hitems, hmem⟩ := hout
  rw [hidle k items hitems] at hmem
  cases hmem

theorem refused_webhook_survives_crash :
    Along (step noCrypto) (fun s e => (step noCrypto s e).Durable) State.init
      [enqueueAt 1000, .drainPop 0 8 2000, .deliver 0 (.ok 500) 5 2100,
        .drainFinish 0, .crash] := by
  have hidle (drains : ℕ → Option (List Tagged)) (hfree : ∀ k, drains k = none)
      (k : ℕ) (items : List Tagged)
      (hitems : Function.update drains 0 (some []) k = some items) : items = [] := by
    by_cases hk : k = 0
    · subst hk
      rw [Function.update_self] at hitems
      exact (Option.some.inj hitems).symm
    · rw [Function.update_of_ne hk, hfree k] at hitems
      cases hitems
  apply run_loses_no_webhook
  refine ⟨?_, trivial, ?_, ?_, trivial, trivial⟩
  · apply quiet_of_idle
    intro k items hitems
    cases hitems
  · intro t rest hdrain _
    have hrest : rest = [] := (List.cons.inj (Option.some.inj hdrain)).2.symm
    subst hrest
    apply quiet_of_idle
    intro k items hitems
    apply hidle (fun _ => none) (fun _ => rfl) k items
    rw [← hitems]
    change _ = Function.update (Function.update (fun _ => none) 0 _) 0 _ k
    rw [Function.update_idem]
  · intro _
    apply quiet_of_idle
    intro k items hitems
    apply hidle (fun _ => none) (fun _ => rfl) k items
    rw [← hitems]
    change _ = Function.update (Function.update (fun _ => none) 0 _) 0 _ k
    rw [Function.update_idem]
    rfl

/-- The second enqueueing rewrites the file while the first item is out. -/
theorem second_enqueue_forgets_item_out :
    ¬ Along (step noCrypto) (fun s e => (step noCrypto s e).Durable) State.init
      [enqueueAt 1000, .drainPop 0 8 2000, enqueueAt 2050, .crash] := by
  intro hrun
  have hdurable := hrun.2.2.1
  have hheld := hdurable ⟨0, newItem noCrypto "t_1" "case.closed"
    "http://hook.test/in" (.obj []) none 1000⟩
  revert hheld
  decide

end WebhookOutbox

end GrServer
