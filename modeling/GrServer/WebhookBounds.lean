import GrServer.PlacedOnce
import GrServer.WebhookAcks

/-!
# Bounds of the webhook queues

The critical sections of enqueueing, draining and marking in any order.  A
watcher notes when each item failed last, which items were retired at their last
attempt, and which the outbox bound displaced.
-/

namespace GrServer

open Json Text

namespace WebhookOutbox

/-! ## Critical sections -/

inductive CriticalSection where
  | enqueueWebhook (tenant event url : String) (payload : Json) (secret : Option String)
      (now : Int64)
  | drainTake (k maxN : ℕ) (now : Int64)
  | drainAnswer (k : ℕ) (answer : Except String ℕ) (maxAttempts : UInt32) (now : Int64)
  | drainFinish (k : ℕ)
  | markWebhookFailed (id error : String) (maxAttempts : UInt32) (now : Int64)
  | markWebhookOk (id : String)

def CriticalSection.event : CriticalSection → Event
  | enqueueWebhook tenant event url payload secret now =>
      .enqueue tenant event url payload secret now
  | drainTake k maxN now => .drainPop k maxN now
  | drainAnswer k answer maxAttempts now => .deliver k answer maxAttempts now
  | drainFinish k => .drainFinish k
  | markWebhookFailed id error maxAttempts now => .markFailed id error maxAttempts now
  | markWebhookOk id => .markOk id

structure Failure where
  item : Tagged
  error : String
  maxAttempts : UInt32
  now : Int64

def failing (s : State) : CriticalSection → Option Failure
  | .drainAnswer k answer maxAttempts now =>
      match s.drains k with
      | some (t :: _) =>
          if isDelivered answer then none
          else some ⟨t, answerError answer, maxAttempts, now⟩
      | _ => none
  | .markWebhookFailed id error maxAttempts now =>
      (s.boxes.pending.find? fun t => t.item.id = id).map fun t =>
        ⟨t, error, maxAttempts, now⟩
  | _ => none

namespace Failure

variable (f : Failure)

def attempts : UInt32 := f.item.item.attempts + 1

def Retires : Prop := f.maxAttempts ≤ f.attempts

instance : Decidable f.Retires := inferInstanceAs (Decidable (f.maxAttempts ≤ f.attempts))

def counted : Tagged :=
  { f.item with item := { f.item.item with
    attempts := f.attempts
    lastError := some f.error } }

def backoff : Int64 := Int64.ofInt (2 ^ min f.attempts.toNat 8 * 1000)

def retried : Tagged :=
  { f.counted with item := { f.counted.item with nextAttemptMs := f.now + f.backoff } }

end Failure

theorem requeueFailed_eq (b : Boxes) (f : Failure) :
    (requeueFailed b f.item f.error f.maxAttempts f.now).1 =
      if f.Retires then { b with dlq := (boundDlq (b.dlq ++ [f.counted])).1 }
      else { b with pending := b.pending ++ [f.retried] } := by
  unfold requeueFailed
  by_cases hretires : f.Retires
  · have hmax : f.maxAttempts ≤ f.item.item.attempts + 1 := hretires
    simp only [if_pos hretires, if_pos hmax]
    rfl
  · have hmax : ¬ f.maxAttempts ≤ f.item.item.attempts + 1 := hretires
    simp only [if_neg hretires, if_neg hmax]
    rfl

structure Watched where
  state : State
  failedAt : ℕ → Option Int64
  retired : List (Tagged × UInt32)
  displaced : List Tagged

def Watched.init : Watched where
  state := State.init
  failedAt := fun _ => none
  retired := []
  displaced := []

def displacedBy (C : WebhookCrypto) (s : State) : CriticalSection → List Tagged
  | .enqueueWebhook tenant event url payload secret now =>
      let t : Tagged :=
        { uid := s.enqueued.length, item := newItem C tenant event url payload secret now }
      (s.boxes.pending ++ [t]).take ((s.boxes.pending ++ [t]).length - maxOutbox)
  | _ => []

def watch (C : WebhookCrypto) (w : Watched) (c : CriticalSection) : Watched where
  state := step C w.state c.event
  failedAt := (failing w.state c).elim w.failedAt fun f =>
    Function.update w.failedAt f.item.uid (some f.now)
  retired := (failing w.state c).elim w.retired fun f =>
    if f.Retires then (f.counted, f.maxAttempts) :: w.retired else w.retired
  displaced := displacedBy C w.state c ++ w.displaced

def backoffMs (attempts : UInt32) : ℤ := 2 ^ min attempts.toNat 8 * 1000

/-- What is promised of the queues after a critical section. -/
structure QueuesKept (w : Watched) : Prop where
  bounded : Bounded w.state.boxes
  explained : ∀ t ∈ w.state.boxes.dlq,
    (∃ maxAttempts, (t, maxAttempts) ∈ w.retired ∧ maxAttempts ≤ t.item.attempts) ∨
      t ∈ w.displaced
  /-- A drain that would take the item comes after its backoff. -/
  spaced : ∀ t ∈ w.state.boxes.pending, ∀ failed, w.failedAt t.uid = some failed →
    ∀ now : Int64, t.item.nextAttemptMs ≤ now →
      failed.toInt + backoffMs t.item.attempts ≤ now.toInt

def remaining (s : State) : CriticalSection → List Tagged
  | .markWebhookFailed id _ _ _ => s.boxes.pending.eraseP fun t => t.item.id = id
  | _ => s.boxes.pending

/-- A failed item does not go back to a full queue, and its next attempt is a
time that an `i64` holds. -/
def RetryFits (s : State) (c : CriticalSection) : Prop :=
  ∀ f, failing s c = some f → ¬ f.Retires →
    (remaining s c).length < maxOutbox ∧ f.now.toInt + backoffMs f.attempts < 2 ^ 63

/-! ## Every item in one place -/

section Places

def place (s : State) : Option ℕ → List ℕ
  | none => s.boxes.pending.map Tagged.uid
  | some k => ((s.drains k).getD []).map Tagged.uid

theorem place_none (s : State) : place s none = s.boxes.pending.map Tagged.uid := rfl

theorem place_some (s : State) (k : ℕ) :
    place s (some k) = ((s.drains k).getD []).map Tagged.uid := rfl

structure Numbered (s : State) : Prop where
  once : PlacedOnce (place s)
  given : ∀ p, ∀ n ∈ place s p, n < s.enqueued.length

theorem numbered_init : Numbered State.init where
  once :=
    { nodup := by
        intro p
        cases p <;> exact List.nodup_nil
      apart := by
        intro p q x hp
        cases p <;> cases hp }
  given := by
    intro p n hn
    cases p <;> cases hn

theorem Numbered.move {s s' : State} (h : Numbered s) {k : ℕ}
    (hdrains : ∀ j, j ≠ k → s'.drains j = s.drains j)
    (henqueued : s'.enqueued = s.enqueued)
    (hsub : (place s' none ++ place s' (some k)).Subperm
      (place s none ++ place s (some k))) : Numbered s' := by
  have hother : ∀ p, p ≠ none → p ≠ some k → place s' p = place s p := by
    intro p hnone hk
    cases p with
    | none => exact absurd rfl hnone
    | some j =>
        have hj : j ≠ k := fun heq => hk (congrArg some heq)
        simp only [place, hdrains j hj]
  constructor
  · exact h.once.move (Option.some_ne_none k).symm hother hsub
  · intro p n hn
    rw [henqueued]
    by_cases hnone : p = none ∨ p = some k
    · have hmem : n ∈ place s' none ++ place s' (some k) := by
        rcases hnone with rfl | rfl
        · exact List.mem_append_left _ hn
        · exact List.mem_append_right _ hn
      rcases List.mem_append.mp (hsub.subset hmem) with hold | hold
      · exact h.given none n hold
      · exact h.given (some k) n hold
    · rw [not_or] at hnone
      rw [hother p hnone.1 hnone.2] at hn
      exact h.given p n hn

theorem perm_splitReady (now : Int64) (maxN : ℕ) (items : List Tagged) :
    ((splitReady now maxN items).2 ++ (splitReady now maxN items).1).Perm items := by
  induction items generalizing maxN with
  | nil => exact List.Perm.refl _
  | cons t rest ih =>
      unfold splitReady
      split_ifs
      · exact List.perm_middle.trans ((ih (maxN - 1)).cons t)
      · exact (ih maxN).cons t

theorem pushPending_pending (b : Boxes) (t : Tagged) :
    ∃ n, (pushPending b t).1.pending = (b.pending ++ [t]).drop n := by
  refine ⟨(b.pending ++ [t]).length - maxOutbox, ?_⟩
  unfold pushPending
  dsimp only

theorem Numbered.enqueue {C : WebhookCrypto} {s : State} (h : Numbered s)
    (tenant event url : String) (payload : Json) (secret : Option String) (now : Int64) :
    Numbered (s.enqueue C tenant event url payload secret now) := by
  have hfresh : ∀ p, s.enqueued.length ∉ place s p :=
    fun p hmem => absurd (h.given p _ hmem) (Nat.lt_irrefl _)
  have hplace : (place (s.enqueue C tenant event url payload secret now) none).Sublist
      (place s none ++ [s.enqueued.length]) := by
    unfold place State.enqueue State.write
    dsimp only
    rcases pushPending_pending s.boxes
      { uid := s.enqueued.length, item := newItem C tenant event url payload secret now }
      with ⟨n, hpending⟩
    rw [hpending, List.map_drop, List.map_append]
    exact List.drop_sublist n _
  have hnew : ∀ n ∈ place (s.enqueue C tenant event url payload secret now) none,
      n ∈ place s none ∨ n = s.enqueued.length := by
    intro n hn
    rcases List.mem_append.mp (hplace.subset hn) with hold | hlast
    · exact .inl hold
    · exact .inr (List.mem_singleton.mp hlast)
  have hlength : (s.enqueue C tenant event url payload secret now).enqueued.length =
      s.enqueued.length + 1 := by
    unfold State.enqueue
    dsimp only
    exact List.length_cons
  constructor
  · apply h.once.rewriteAt (a := none)
    · intro p hp
      cases p with
      | none => exact absurd rfl hp
      | some k =>
          unfold place State.enqueue State.write
          dsimp only
    · apply List.Nodup.sublist hplace
      apply List.Nodup.append (h.once.nodup none) (List.nodup_singleton _)
      intro x hx hlast
      rw [List.mem_singleton.mp hlast] at hx
      exact hfresh none hx
    · intro n hn
      rcases hnew n hn with hold | rfl
      · exact .inl hold
      · exact .inr hfresh
  · intro p n hn
    rw [hlength]
    cases p with
    | none =>
        rcases hnew n hn with hold | rfl
        · exact Nat.lt_succ_of_lt (h.given none n hold)
        · exact Nat.lt_succ_self _
    | some k =>
        apply Nat.lt_succ_of_lt
        apply h.given (some k) n
        unfold place State.enqueue State.write at hn
        exact hn

theorem sublist_splitReady (now : Int64) (maxN : ℕ) (items : List Tagged) :
    (splitReady now maxN items).2.Sublist items := by
  induction items generalizing maxN with
  | nil => exact List.Sublist.refl _
  | cons t rest ih =>
      unfold splitReady
      split_ifs
      · exact (ih (maxN - 1)).cons t
      · exact (ih maxN).cons_cons t

theorem Numbered.drainPop {s : State} (h : Numbered s) (k maxN : ℕ) (now : Int64) :
    Numbered (s.drainPop k maxN now) := by
  cases hdrain : s.drains k with
  | some items =>
      unfold State.drainPop
      rw [hdrain]
      exact h
  | none =>
      have hboxes : (s.drainPop k maxN now).boxes.pending =
          (splitReady now maxN s.boxes.pending).2 := by
        unfold State.drainPop
        rw [hdrain]
      have hdrains : (s.drainPop k maxN now).drains = Function.update s.drains k
          (some (splitReady now maxN s.boxes.pending).1) := by
        unfold State.drainPop
        rw [hdrain]
        rfl
      have henqueued : (s.drainPop k maxN now).enqueued = s.enqueued := by
        unfold State.drainPop
        rw [hdrain]
        rfl
      apply h.move (k := k) _ henqueued
      · simp only [place_none, place_some, hboxes, hdrains, hdrain, Function.update_self,
          Option.getD_some, Option.getD_none, List.map_nil, List.append_nil]
        rw [← List.map_append]
        exact ((perm_splitReady now maxN s.boxes.pending).map Tagged.uid).subperm
      · intro j hj
        rw [hdrains]
        exact Function.update_of_ne hj _ _

theorem uids_requeueFailed (b : Boxes) (f : Failure) :
    (((requeueFailed b f.item f.error f.maxAttempts f.now).1.pending).map Tagged.uid).Sublist
      (b.pending.map Tagged.uid ++ [f.item.uid]) := by
  rw [requeueFailed_eq]
  split_ifs
  · exact List.sublist_append_left _ _
  · rw [List.map_append]
    exact List.Sublist.refl _

theorem Numbered.deliver {s : State} (h : Numbered s) (k : ℕ) (answer : Except String ℕ)
    (maxAttempts : UInt32) (now : Int64) :
    Numbered (s.deliver k answer maxAttempts now) := by
  rcases hdrain : s.drains k with _ | _ | ⟨t, rest⟩
  · unfold State.deliver
    rw [hdrain]
    exact h
  · unfold State.deliver
    rw [hdrain]
    exact h
  have hdrains : (s.deliver k answer maxAttempts now).drains =
      Function.update s.drains k (some rest) := by
    unfold State.deliver
    rw [hdrain]
    dsimp only
    split_ifs <;> rfl
  have henqueued : (s.deliver k answer maxAttempts now).enqueued = s.enqueued := by
    unfold State.deliver
    rw [hdrain]
    dsimp only
    split_ifs <;> rfl
  have hwaiting : (place (s.deliver k answer maxAttempts now) none).Sublist
      (place s none ++ [t.uid]) := by
    unfold State.deliver
    rw [hdrain]
    dsimp only
    split_ifs
    · exact List.sublist_append_left _ _
    · exact uids_requeueFailed s.boxes ⟨t, answerError answer, maxAttempts, now⟩
  apply h.move (k := k) _ henqueued
  · rw [place_some _ k, place_some _ k, hdrains, hdrain, Function.update_self,
      Option.getD_some, Option.getD_some, List.map_cons]
    have happend := hwaiting.append (List.Sublist.refl (rest.map Tagged.uid))
    rw [List.append_assoc, List.singleton_append] at happend
    exact happend.subperm
  · intro j hj
    rw [hdrains]
    exact Function.update_of_ne hj _ _

theorem Numbered.drainFinish {s : State} (h : Numbered s) (k : ℕ) :
    Numbered (s.drainFinish k) := by
  rcases hdrain : s.drains k with _ | _ | ⟨t, rest⟩
  · unfold State.drainFinish
    rw [hdrain]
    exact h
  · have hdrains : (s.drainFinish k).drains = Function.update s.drains k none := by
      unfold State.drainFinish
      rw [hdrain]
      rfl
    have hboxes : (s.drainFinish k).boxes = s.boxes := by
      unfold State.drainFinish
      rw [hdrain]
      rfl
    have hsame : ∀ p, place (s.drainFinish k) p = place s p := by
      intro p
      cases p with
      | none => rw [place_none, place_none, hboxes]
      | some j =>
          rw [place_some, place_some, hdrains]
          by_cases hj : j = k
          · subst hj
            rw [hdrain, Function.update_self]
            rfl
          · rw [Function.update_of_ne hj]
    have henqueued : (s.drainFinish k).enqueued = s.enqueued := by
      unfold State.drainFinish
      rw [hdrain]
      rfl
    constructor
    · rw [funext hsame]
      exact h.once
    · intro p n hn
      rw [hsame p] at hn
      rw [henqueued]
      exact h.given p n hn
  · unfold State.drainFinish
    rw [hdrain]
    exact h

theorem Numbered.markFailed {s : State} (h : Numbered s) (id error : String)
    (maxAttempts : UInt32) (now : Int64) :
    Numbered (s.markFailed id error maxAttempts now) := by
  cases hfind : s.boxes.pending.find? fun t => t.item.id = id with
  | none =>
      unfold State.markFailed
      rw [hfind]
      exact h
  | some t =>
      have hperm := (perm_eraseP_find hfind).map Tagged.uid
      rw [List.map_cons] at hperm
      have hwaiting : (place (s.markFailed id error maxAttempts now) none).Sublist
          ((s.boxes.pending.eraseP fun t => t.item.id = id).map Tagged.uid ++ [t.uid]) := by
        unfold State.markFailed
        rw [hfind]
        exact uids_requeueFailed { s.boxes with
          pending := s.boxes.pending.eraseP fun t => t.item.id = id }
          ⟨t, error, maxAttempts, now⟩
      have hsame : (s.markFailed id error maxAttempts now).drains = s.drains ∧
          (s.markFailed id error maxAttempts now).enqueued = s.enqueued := by
        unfold State.markFailed
        rw [hfind]
        exact ⟨rfl, rfl⟩
      apply h.move (k := 0) _ hsame.2
      · rw [place_some, place_some, hsame.1]
        apply (List.subperm_append_right _).mpr
        apply hwaiting.subperm.trans
        exact ((List.perm_append_singleton _ _).trans hperm).subperm
      · intro j hj
        rw [hsame.1]

theorem Numbered.markOk {s : State} (h : Numbered s) (id : String) :
    Numbered (s.markOk id) := by
  have hwaiting : (place (s.markOk id) none).Sublist (place s none) :=
    (List.filter_sublist (p := fun t : Tagged => t.item.id ≠ id)).map Tagged.uid
  have henqueued : (s.markOk id).enqueued = s.enqueued := rfl
  apply h.move (k := 0) _ henqueued
  · exact (hwaiting.append (List.Sublist.refl _)).subperm
  · intro j hj
    rfl

theorem numbered_section {C : WebhookCrypto} {s : State} (h : Numbered s)
    (c : CriticalSection) : Numbered (step C s c.event) := by
  cases c with
  | enqueueWebhook tenant event url payload secret now =>
      exact h.enqueue tenant event url payload secret now
  | drainTake k maxN now => exact h.drainPop k maxN now
  | drainAnswer k answer maxAttempts now => exact h.deliver k answer maxAttempts now
  | drainFinish k => exact h.drainFinish k
  | markWebhookFailed id error maxAttempts now =>
      exact h.markFailed id error maxAttempts now
  | markWebhookOk id => exact h.markOk id

end Places

section Failing

variable {C : WebhookCrypto} {s : State} {c : CriticalSection} {f : Failure}

theorem remaining_sublist (s : State) (c : CriticalSection) :
    (remaining s c).Sublist s.boxes.pending := by
  cases c with
  | markWebhookFailed id error maxAttempts now => exact List.eraseP_sublist
  | _ => exact List.Sublist.refl _

theorem failing_cases (h : failing s c = some f) :
    (∃ k answer rest, c = .drainAnswer k answer f.maxAttempts f.now ∧
      s.drains k = some (f.item :: rest) ∧ isDelivered answer = false ∧
      f.error = answerError answer) ∨
    (∃ id, c = .markWebhookFailed id f.error f.maxAttempts f.now ∧
      s.boxes.pending.find? (fun t => t.item.id = id) = some f.item) := by
  cases c with
  | drainAnswer k answer maxAttempts now =>
      left
      simp only [failing] at h
      rcases hdrain : s.drains k with _ | _ | ⟨t, rest⟩
      · rw [hdrain] at h
        cases h
      · rw [hdrain] at h
        cases h
      · rw [hdrain] at h
        dsimp only at h
        split_ifs at h with hdelivered
        cases h
        exact ⟨k, answer, rest, rfl, hdrain, Bool.eq_false_iff.mpr hdelivered, rfl⟩
  | markWebhookFailed id error maxAttempts now =>
      right
      simp only [failing, Option.map_eq_some_iff] at h
      rcases h with ⟨t, hfind, rfl⟩
      exact ⟨id, rfl, hfind⟩
  | _ => cases h

theorem boxes_of_failing (h : failing s c = some f) :
    (step C s c.event).boxes =
      (requeueFailed { s.boxes with pending := remaining s c } f.item f.error
        f.maxAttempts f.now).1 := by
  rcases failing_cases h with ⟨k, answer, rest, rfl, hdrain, hanswer, herror⟩ | ⟨id, rfl, hfind⟩
  · unfold CriticalSection.event step State.deliver remaining
    dsimp only
    rw [hdrain, herror, hanswer]
    rfl
  · unfold CriticalSection.event step State.markFailed remaining
    dsimp only
    rw [hfind]
    rfl

theorem Numbered.failing_apart (h : Numbered s) (hfail : failing s c = some f) :
    ∀ t ∈ remaining s c, t.uid ≠ f.item.uid := by
  intro t ht heq
  rcases failing_cases hfail with ⟨k, answer, rest, rfl, hdrain, -⟩ | ⟨id, rfl, hfind⟩
  · have hout : f.item.uid ∈ place s (some k) := by
      rw [place_some, hdrain]
      exact List.mem_map_of_mem List.mem_cons_self
    have hwaits : f.item.uid ∈ place s none := by
      rw [place_none, ← heq]
      exact List.mem_map_of_mem ht
    cases h.once.apart none (some k) _ hwaits hout
  · have hperm := (perm_eraseP_find hfind).map Tagged.uid
    have hnodup := hperm.nodup_iff.mpr (h.once.nodup none)
    rw [List.map_cons, List.nodup_cons] at hnodup
    apply hnodup.1
    rw [← heq]
    exact List.mem_map_of_mem ht

theorem Numbered.failing_given (h : Numbered s) (hfail : failing s c = some f) :
    f.item.uid < s.enqueued.length := by
  rcases failing_cases hfail with ⟨k, answer, rest, rfl, hdrain, -⟩ | ⟨id, rfl, hfind⟩
  · apply h.given (some k)
    rw [place_some, hdrain]
    exact List.mem_map_of_mem List.mem_cons_self
  · apply h.given none
    exact List.mem_map_of_mem (List.mem_of_find?_eq_some hfind)

end Failing

/-! ## What a section keeps -/

section Sections

variable {C : WebhookCrypto} {w w' : Watched} {c : CriticalSection} {f : Failure}

theorem QueuesKept.shrink (h : QueuesKept w)
    (hpending : w'.state.boxes.pending.Sublist w.state.boxes.pending)
    (hdlq : w'.state.boxes.dlq = w.state.boxes.dlq) (hfailed : w'.failedAt = w.failedAt)
    (hretired : w'.retired = w.retired) (hdisplaced : w'.displaced = w.displaced) :
    QueuesKept w' := by
  constructor
  · constructor
    · exact hpending.length_le.trans h.bounded.pending
    · rw [hdlq]
      exact h.bounded.dlq
  · rw [hdlq, hretired, hdisplaced]
    exact h.explained
  · rw [hfailed]
    intro t ht
    exact h.spaced t (hpending.subset ht)

theorem mem_of_mem_boundDlq {dlq : List Tagged} {t : Tagged}
    (h : t ∈ (boundDlq dlq).1) : t ∈ dlq := by
  unfold boundDlq at h
  dsimp only at h
  exact List.mem_of_mem_drop h

theorem backoffMs_range (attempts : UInt32) :
    0 ≤ backoffMs attempts ∧ backoffMs attempts ≤ 256000 := by
  have hpow : (2 : ℤ) ^ min attempts.toNat 8 ≤ 2 ^ 8 :=
    pow_le_pow_right₀ (by norm_num) (Nat.min_le_right _ _)
  have hpos : (0 : ℤ) ≤ 2 ^ min attempts.toNat 8 := by positivity
  unfold backoffMs
  omega

theorem toInt_backoff (f : Failure) : f.backoff.toInt = backoffMs f.attempts := by
  have hrange := backoffMs_range f.attempts
  unfold backoffMs at hrange
  unfold Failure.backoff backoffMs
  apply Int64.toInt_ofInt_of_le <;> omega

theorem spaced_iff (f : Failure) :
    (∀ now : Int64, f.now + f.backoff ≤ now →
      f.now.toInt + backoffMs f.attempts ≤ now.toInt) ↔
      f.now.toInt + backoffMs f.attempts < 2 ^ 63 := by
  constructor
  · intro h
    have hlast := h Int64.maxValue (Int64.le_maxValue _)
    rw [Int64.toInt_maxValue] at hlast
    omega
  · intro h now hnow
    have hlow := f.now.le_toInt
    have hrange := backoffMs_range f.attempts
    have hsum : (f.now + f.backoff).toInt = f.now.toInt + backoffMs f.attempts := by
      rw [Int64.toInt_add, toInt_backoff]
      apply Int.bmod_eq_of_le <;> omega
    rw [Int64.le_iff_toInt_le, hsum] at hnow
    exact hnow

theorem queuesKept_requeueFailed_iff {b : Boxes}
    (h : QueuesKept { w with state := { w.state with boxes := b } })
    (hapart : ∀ t ∈ b.pending, t.uid ≠ f.item.uid)
    (hboxes : w'.state.boxes = (requeueFailed b f.item f.error f.maxAttempts f.now).1)
    (hfailed : w'.failedAt = Function.update w.failedAt f.item.uid (some f.now))
    (hretired : w'.retired =
      if f.Retires then (f.counted, f.maxAttempts) :: w.retired else w.retired)
    (hdisplaced : w'.displaced = w.displaced) :
    QueuesKept w' ↔ (¬ f.Retires →
      b.pending.length < maxOutbox ∧ f.now.toInt + backoffMs f.attempts < 2 ^ 63) := by
  have hbefore : ∀ t ∈ b.pending, w'.failedAt t.uid = w.failedAt t.uid := by
    intro t ht
    rw [hfailed, Function.update_of_ne (hapart t ht)]
  rw [requeueFailed_eq] at hboxes
  by_cases hretires : f.Retires
  · rw [if_pos hretires] at hboxes hretired
    have hkept : QueuesKept w' := by
      constructor
      · rw [hboxes]
        constructor
        · exact h.bounded.pending
        · dsimp only
          exact length_boundDlq _
      · intro t ht
        rw [hboxes] at ht
        dsimp only at ht
        rw [hretired, hdisplaced]
        rcases List.mem_append.mp (mem_of_mem_boundDlq ht) with hold | hlast
        · rcases h.explained t hold with ⟨maxAttempts, hmem, hle⟩ | hout
          · exact .inl ⟨maxAttempts, List.mem_cons_of_mem _ hmem, hle⟩
          · exact .inr hout
        · rw [List.mem_singleton.mp hlast]
          exact .inl ⟨f.maxAttempts, List.mem_cons_self, hretires⟩
      · intro t ht
        rw [hboxes] at ht
        rw [hbefore t ht]
        exact h.spaced t ht
    simp only [hkept, hretires, not_true_eq_false, false_implies]
  · rw [if_neg hretires] at hboxes hretired
    have hlast : w'.failedAt f.retried.uid = some f.now := by
      rw [hfailed]
      exact Function.update_self _ _ _
    constructor
    · intro hkept hnot
      constructor
      · have hbound := hkept.bounded.pending
        rw [hboxes, List.length_append, List.length_singleton] at hbound
        exact hbound
      · apply (spaced_iff f).mp
        apply hkept.spaced f.retried
        · rw [hboxes]
          exact List.mem_append_right _ List.mem_cons_self
        · exact hlast
    · intro hfits
      rcases hfits hretires with ⟨hroom, hclock⟩
      constructor
      · rw [hboxes]
        constructor
        · rw [List.length_append, List.length_singleton]
          exact hroom
        · exact h.bounded.dlq
      · rw [hboxes, hretired, hdisplaced]
        exact h.explained
      · intro t ht
        rw [hboxes] at ht
        rcases List.mem_append.mp ht with hold | hnew
        · rw [hbefore t hold]
          exact h.spaced t hold
        · rw [List.mem_singleton.mp hnew, hlast]
          intro failed hsome
          rw [Option.some.injEq] at hsome
          rw [← hsome]
          exact (spaced_iff f).mpr hclock

theorem queuesKept_of_failing_iff (h : QueuesKept w) (hnumbered : Numbered w.state)
    (hfail : failing w.state c = some f) :
    QueuesKept (watch C w c) ↔ RetryFits w.state c := by
  have hdlq : displacedBy C w.state c = [] := by
    rcases failing_cases hfail with ⟨k, answer, rest, rfl, -⟩ | ⟨id, rfl, -⟩ <;> rfl
  have hshrunk : QueuesKept
      { w with state := { w.state with
        boxes := { w.state.boxes with pending := remaining w.state c } } } :=
    h.shrink (remaining_sublist w.state c) rfl rfl rfl rfl
  rw [queuesKept_requeueFailed_iff hshrunk (hnumbered.failing_apart hfail)
    (boxes_of_failing hfail)]
  · unfold RetryFits
    rw [hfail]
    simp only [Option.some.injEq, forall_eq']
  · unfold watch
    rw [hfail]
    rfl
  · unfold watch
    rw [hfail]
    rfl
  · unfold watch
    rw [hdlq]
    rfl

theorem queuesKept_pushPending {t : Tagged} (h : QueuesKept w)
    (hunfailed : w.failedAt t.uid = none)
    (hboxes : w'.state.boxes = (pushPending w.state.boxes t).1)
    (hfailed : w'.failedAt = w.failedAt) (hretired : w'.retired = w.retired)
    (hdisplaced : w'.displaced = (w.state.boxes.pending ++ [t]).take
      ((w.state.boxes.pending ++ [t]).length - maxOutbox) ++ w.displaced) :
    QueuesKept w' := by
  constructor
  · rw [hboxes]
    exact bounded_pushPending
  · intro u hu
    rw [hboxes] at hu
    unfold pushPending at hu
    dsimp only at hu
    rw [hretired, hdisplaced]
    rcases List.mem_append.mp (mem_of_mem_boundDlq hu) with hold | hnew
    · rcases h.explained u hold with hbefore | hbefore
      · exact .inl hbefore
      · exact .inr (List.mem_append_right _ hbefore)
    · exact .inr (List.mem_append_left _ hnew)
  · intro u hu
    rw [hfailed]
    rw [hboxes] at hu
    rcases pushPending_pending w.state.boxes t with ⟨n, hpending⟩
    rw [hpending] at hu
    rcases List.mem_append.mp (List.mem_of_mem_drop hu) with hold | hlast
    · exact h.spaced u hold
    · intro failed hsome
      rw [List.mem_singleton.mp hlast, hunfailed] at hsome
      cases hsome

theorem queuesKept_enqueue (h : QueuesKept w)
    (hunfailed : w.failedAt w.state.enqueued.length = none)
    (tenant event url : String) (payload : Json) (secret : Option String) (now : Int64) :
    QueuesKept (watch C w (.enqueueWebhook tenant event url payload secret now)) := by
  have hjoin := @queuesKept_pushPending w
    (watch C w (.enqueueWebhook tenant event url payload secret now))
    { uid := w.state.enqueued.length, item := newItem C tenant event url payload secret now }
    h hunfailed
  apply hjoin
  · unfold watch CriticalSection.event step State.enqueue State.write
    dsimp only
  · simp only [watch, failing, Option.elim_none]
  · simp only [watch, failing, Option.elim_none]
  · simp only [watch, displacedBy]

theorem boxes_of_not_failing {s : State} (h : failing s c = none)
    (henqueue : ∀ tenant event url payload secret now,
      c ≠ .enqueueWebhook tenant event url payload secret now) :
    (step C s c.event).boxes.pending.Sublist s.boxes.pending ∧
      (step C s c.event).boxes.dlq = s.boxes.dlq := by
  cases c with
  | enqueueWebhook tenant event url payload secret now =>
      exact absurd rfl (henqueue tenant event url payload secret now)
  | drainTake k maxN now =>
      simp only [CriticalSection.event, step, State.drainPop]
      cases s.drains k with
      | none => exact ⟨sublist_splitReady now maxN _, rfl⟩
      | some items => exact ⟨List.Sublist.refl _, rfl⟩
  | drainAnswer k answer maxAttempts now =>
      simp only [failing] at h
      simp only [CriticalSection.event, step, State.deliver]
      rcases hdrain : s.drains k with _ | _ | ⟨t, rest⟩
      · exact ⟨List.Sublist.refl _, rfl⟩
      · exact ⟨List.Sublist.refl _, rfl⟩
      · rw [hdrain] at h
        dsimp only at h ⊢
        split_ifs at h with hdelivered
        rw [if_pos hdelivered]
        exact ⟨List.Sublist.refl _, rfl⟩
  | drainFinish k =>
      simp only [CriticalSection.event, step, State.drainFinish]
      rcases s.drains k with _ | _ | ⟨t, rest⟩ <;> exact ⟨List.Sublist.refl _, rfl⟩
  | markWebhookFailed id error maxAttempts now =>
      simp only [failing, Option.map_eq_none_iff] at h
      simp only [CriticalSection.event, step, State.markFailed]
      rw [h]
      exact ⟨List.Sublist.refl _, rfl⟩
  | markWebhookOk id => exact ⟨List.filter_sublist, rfl⟩

theorem enqueued_section (s : State) (c : CriticalSection) :
    s.enqueued.length ≤ (step C s c.event).enqueued.length := by
  cases c with
  | enqueueWebhook tenant event url payload secret now =>
      simp only [CriticalSection.event, step, State.enqueue, List.length_cons]
      exact Nat.le_succ _
  | drainTake k maxN now =>
      simp only [CriticalSection.event, step, State.drainPop]
      cases s.drains k <;> exact Nat.le_refl _
  | drainAnswer k answer maxAttempts now =>
      simp only [CriticalSection.event, step, State.deliver]
      rcases s.drains k with _ | _ | ⟨t, rest⟩
      · exact Nat.le_refl _
      · exact Nat.le_refl _
      · dsimp only
        split_ifs <;> exact Nat.le_refl _
  | drainFinish k =>
      simp only [CriticalSection.event, step, State.drainFinish]
      rcases s.drains k with _ | _ | ⟨t, rest⟩ <;> exact Nat.le_refl _
  | markWebhookFailed id error maxAttempts now =>
      simp only [CriticalSection.event, step, State.markFailed]
      cases s.boxes.pending.find? fun t => t.item.id = id <;> exact Nat.le_refl _
  | markWebhookOk id => exact Nat.le_refl _

structure Reached (w : Watched) : Prop where
  kept : QueuesKept w
  numbered : Numbered w.state
  /-- Numbers that are not given yet did not fail. -/
  unfailed : ∀ n, w.state.enqueued.length ≤ n → w.failedAt n = none

theorem reached_init : Reached Watched.init where
  kept :=
    { bounded := ⟨Nat.zero_le _, Nat.zero_le _⟩
      explained := by
        intro t ht
        cases ht
      spaced := by
        intro t ht
        cases ht }
  numbered := numbered_init
  unfailed := by
    intro n hn
    rfl

theorem queuesKept_watch_iff (h : Reached w) (c : CriticalSection) :
    QueuesKept (watch C w c) ↔ RetryFits w.state c := by
  cases hfail : failing w.state c with
  | some f => exact queuesKept_of_failing_iff h.kept h.numbered hfail
  | none =>
      have hfits : RetryFits w.state c := by
        intro f hf
        rw [hfail] at hf
        cases hf
      apply iff_of_true _ hfits
      by_cases henqueue : ∀ tenant event url payload secret now,
          c ≠ .enqueueWebhook tenant event url payload secret now
      · rcases @boxes_of_not_failing C c w.state hfail henqueue with ⟨hpending, hdlq⟩
        have hdisplaced : displacedBy C w.state c = [] := by
          cases c with
          | enqueueWebhook tenant event url payload secret now =>
              exact absurd rfl (henqueue tenant event url payload secret now)
          | _ => rfl
        apply h.kept.shrink hpending hdlq
        · unfold watch
          rw [hfail]
          rfl
        · unfold watch
          rw [hfail]
          rfl
        · unfold watch
          rw [hdisplaced]
          rfl
      · simp only [not_forall, not_not] at henqueue
        rcases henqueue with ⟨tenant, event, url, payload, secret, now, rfl⟩
        exact queuesKept_enqueue h.kept (h.unfailed _ (Nat.le_refl _)) tenant event url
          payload secret now

theorem reached_watch (h : Reached w) (hkept : QueuesKept (watch C w c)) :
    Reached (watch C w c) where
  kept := hkept
  numbered := numbered_section h.numbered c
  unfailed := by
    intro n hn
    have hbefore : w.state.enqueued.length ≤ n :=
      (@enqueued_section C w.state c).trans hn
    unfold watch
    cases hfail : failing w.state c with
    | none => exact h.unfailed n hbefore
    | some f =>
        have hgiven := h.numbered.failing_given hfail
        have hne : n ≠ f.item.uid := by omega
        dsimp only [Option.elim]
        rw [Function.update_of_ne hne]
        exact h.unfailed n hbefore

end Sections

/-- The queues keep what they promise after every critical section exactly when
every failed item finds room and a time to wait for. -/
theorem queuesKept_iff (C : WebhookCrypto) (cs : List CriticalSection) :
    Along (watch C) (fun w c => QueuesKept (watch C w c)) Watched.init cs ↔
      Along (watch C) (fun w c => RetryFits w.state c) Watched.init cs := by
  apply Along.iff_of_steps (I := Reached) (G := fun _ _ => True)
  · intro w c h _
    exact queuesKept_watch_iff h c
  · intro w c h _ hkept
    exact reached_watch h hkept
  · exact along_of_forall fun _ _ _ => trivial
  · exact reached_init

def mutedCrypto : WebhookCrypto where
  sha256Hex := fun _ => ""
  jsonText := fun _ => ""

def refilledRun : List CriticalSection :=
  List.replicate 256 (.enqueueWebhook "" "" "" .null none 0) ++
    [.drainTake 0 1 0, .enqueueWebhook "" "" "" .null none 0,
      .drainAnswer 0 (.error "") 5 0]

theorem refilled_queue_over_bound :
    ¬ Along (watch mutedCrypto) (fun w c => QueuesKept (watch mutedCrypto w c))
      Watched.init refilledRun := by
  intro h
  have hlast := (Along.last h (by decide)).bounded.pending
  have hover : (runFrom (watch mutedCrypto) Watched.init refilledRun).state.boxes.pending.length
      = 257 := by
    decide +kernel
  rw [hover] at hlast
  exact absurd hlast (by decide)

end WebhookOutbox

end GrServer
