import GrServer.WebhookOutbox

/-!
# Acknowledging webhooks by id

An id is the millisecond of the enqueueing and the first eight characters of
the tenant.  Acknowledgements act on every item of their id, so they are exact
as long as no item joins another of its millisecond and tenant prefix.
-/

namespace GrServer

open Text

namespace WebhookOutbox

theorem hexOf_inj {a b : Int64} (h : hexOf a = hexOf b) : a = b := by
  have hdigits : Nat.toDigits 16 a.toUInt64.toNat = Nat.toDigits 16 b.toUInt64.toNat := by
    have hlist := congrArg String.toList h
    simpa only [hexOf, String.toList_ofList] using hlist
  have hbits : a.toUInt64 = b.toUInt64 := UInt64.toNat_inj.mp (toDigits_inj hdigits)
  cases a
  cases b
  exact congrArg Int64.ofUInt64 hbits

def tenantPrefix (tenant : String) : List Char := tenant.toList.take 8

theorem webhookId_eq_iff {now now' : Int64} {tenant tenant' : String} :
    webhookId now tenant = webhookId now' tenant' ↔
      now = now' ∧ tenantPrefix tenant = tenantPrefix tenant' := by
  constructor
  · intro h
    have hlist := congrArg String.toList h
    simp only [webhookId, String.toList_append, List.append_assoc, String.toList_ofList]
      at hlist
    have hrest : (hexOf now).toList ++ '_' :: tenantPrefix tenant =
        (hexOf now').toList ++ '_' :: tenantPrefix tenant' :=
      List.append_cancel_left hlist
    have hunderscore : ∀ n : Int64, '_' ∉ (hexOf n).toList := by
      intro n
      rw [hexOf, String.toList_ofList]
      exact hexDigit_not_mem (by decide) _
    obtain ⟨hhex, htenant⟩ :=
      Text.append_cons_first_inj hrest (hunderscore now) (hunderscore now')
    exact ⟨hexOf_inj (String.toList_injective hhex), htenant⟩
  · intro h
    obtain ⟨hnow, htenant⟩ := h
    unfold tenantPrefix at htenant
    rw [webhookId, webhookId, hnow, htenant]

/-! ## Calls -/

inductive Call where
  | enqueueWebhook (tenant event url : String) (payload : Json) (secret : Option String)
      (now : Int64)
  | markWebhookFailed (id error : String) (maxAttempts : UInt32) (now : Int64)
  | markWebhookOk (id : String)

def Call.event : Call → Event
  | enqueueWebhook tenant event url payload secret now =>
      .enqueue tenant event url payload secret now
  | markWebhookFailed id error maxAttempts now => .markFailed id error maxAttempts now
  | markWebhookOk id => .markOk id

def call (C : WebhookCrypto) (s : State) (c : Call) : State := step C s c.event

def Boxes.all (b : Boxes) : List Tagged := b.pending ++ b.dlq

def Boxes.ids (b : Boxes) : List String := b.all.map fun t => t.item.id

/-- No two items share an id, and an acknowledgement reaches its item alone. -/
structure AcksOwnItem (s : State) : Prop where
  distinct : s.boxes.ids.Nodup
  ok : ∀ t ∈ s.boxes.pending, (s.markOk t.item.id).boxes =
    { s.boxes with pending := s.boxes.pending.erase t }
  failed : ∀ t ∈ s.boxes.pending, ∀ error maxAttempts now,
    (s.markFailed t.item.id error maxAttempts now).boxes =
      (requeueFailed { s.boxes with pending := s.boxes.pending.erase t } t error
        maxAttempts now).1

def Boxes.keptDlq (b : Boxes) : List Tagged :=
  if b.pending.length = maxOutbox ∧ b.dlq.length = maxDlq then b.dlq.tail else b.dlq

/-- No item that stays got its id in the same millisecond for a tenant with the
same first eight characters. -/
def FreshStamp (s : State) : Call → Prop
  | .enqueueWebhook tenant _ _ _ _ now =>
      ∀ u ∈ s.boxes.pending ++ s.boxes.keptDlq, ∀ ms owner,
        u.item.id = webhookId ms owner → ms = now → tenantPrefix owner ≠ tenantPrefix tenant
  | .markWebhookFailed .. => True
  | .markWebhookOk _ => True

structure Bounded (b : Boxes) : Prop where
  pending : b.pending.length ≤ maxOutbox
  dlq : b.dlq.length ≤ maxDlq

theorem sameId_iff {items : List Tagged} {t u : Tagged}
    (hnodup : (items.map fun u => u.item.id).Nodup) (ht : t ∈ items) (hu : u ∈ items) :
    u.item.id = t.item.id ↔ u = t := by
  constructor
  · intro hid
    exact List.inj_on_of_nodup_map hnodup hu ht hid
  · intro heq
    rw [heq]

theorem filter_eq_erase {items : List Tagged} {t : Tagged}
    (hnodup : (items.map fun u => u.item.id).Nodup) (ht : t ∈ items) :
    items.filter (fun u => u.item.id ≠ t.item.id) = items.erase t := by
  rw [(List.Nodup.of_map _ hnodup).erase_eq_filter t]
  apply List.filter_congr
  intro u hu
  have hsame := sameId_iff hnodup ht hu
  by_cases heq : u = t <;> simp [hsame, heq]

theorem eraseP_congr {items : List Tagged} {p q : Tagged → Bool}
    (h : ∀ u ∈ items, p u = q u) : items.eraseP p = items.eraseP q := by
  induction items with
  | nil => rfl
  | cons u items ih =>
      rw [List.eraseP_cons, List.eraseP_cons, h u List.mem_cons_self,
        ih fun v hv => h v (List.mem_cons_of_mem _ hv)]

theorem eraseP_eq_erase {items : List Tagged} {t : Tagged}
    (hnodup : (items.map fun u => u.item.id).Nodup) (ht : t ∈ items) :
    items.eraseP (fun u => u.item.id = t.item.id) = items.erase t := by
  rw [List.erase_eq_eraseP]
  apply eraseP_congr
  intro u hu
  have hsame := (sameId_iff hnodup ht hu).trans eq_comm
  by_cases heq : t = u <;> simp [hsame, heq]

theorem find?_own {items : List Tagged} {t : Tagged}
    (hnodup : (items.map fun u => u.item.id).Nodup) (ht : t ∈ items) :
    items.find? (fun u => u.item.id = t.item.id) = some t := by
  have hsome : (items.find? fun u => u.item.id = t.item.id).isSome = true :=
    List.find?_isSome.mpr ⟨t, ht, by simp⟩
  obtain ⟨u, hu⟩ := Option.isSome_iff_exists.mp hsome
  have hid : u.item.id = t.item.id := by simpa using List.find?_some hu
  rw [hu, List.inj_on_of_nodup_map hnodup (List.mem_of_find?_eq_some hu) ht hid]

theorem acksOwnItem_iff {s : State} : AcksOwnItem s ↔ s.boxes.ids.Nodup := by
  constructor
  · intro h
    exact h.distinct
  · intro h
    have hpending : (s.boxes.pending.map fun u => u.item.id).Nodup := by
      unfold Boxes.ids Boxes.all at h
      rw [List.map_append] at h
      exact h.of_append_left
    refine ⟨h, ?_, ?_⟩
    · intro t ht
      unfold State.markOk State.write
      dsimp only
      rw [filter_eq_erase hpending ht]
    · intro t ht error maxAttempts now
      unfold State.markFailed State.write
      rw [find?_own hpending ht]
      dsimp only
      rw [eraseP_eq_erase hpending ht]

/-! ## Enqueueing -/

section Enqueue

variable {b : Boxes} {t : Tagged}

def Boxes.droppedDlq (b : Boxes) : ℕ :=
  b.dlq.length + (b.pending.length + 1 - maxOutbox) - maxDlq

theorem keptDlq_eq (hpending : b.pending.length ≤ maxOutbox) (hdlq : b.dlq.length ≤ maxDlq) :
    b.keptDlq = b.dlq.drop b.droppedDlq := by
  unfold Boxes.keptDlq Boxes.droppedDlq
  split_ifs with hfull
  · have hone : b.dlq.length + (b.pending.length + 1 - maxOutbox) - maxDlq = 1 := by omega
    rw [hone, List.drop_one]
  · have hnone : b.dlq.length + (b.pending.length + 1 - maxOutbox) - maxDlq = 0 := by omega
    rw [hnone, List.drop_zero]

theorem all_pushPending (hpending : b.pending.length ≤ maxOutbox)
    (hdlq : b.dlq.length ≤ maxDlq) :
    ((pushPending b t).1.all).Perm (t :: (b.pending ++ b.keptDlq)) := by
  have hbound : 0 < maxDlq := by decide
  have hlength : (b.pending ++ [t]).length = b.pending.length + 1 := by simp
  have htake : ((b.pending ++ [t]).take (b.pending.length + 1 - maxOutbox)).length =
      b.pending.length + 1 - maxOutbox := by
    rw [List.length_take, hlength]
    omega
  have hdropped : b.droppedDlq ≤ b.dlq.length := by
    unfold Boxes.droppedDlq
    omega
  have hdlq' : (pushPending b t).1.dlq =
      b.keptDlq ++ (b.pending ++ [t]).take (b.pending.length + 1 - maxOutbox) := by
    rw [keptDlq_eq hpending hdlq, ← List.drop_append_of_le_length hdropped]
    unfold pushPending boundDlq Boxes.droppedDlq
    dsimp only
    rw [hlength, List.length_append, htake]
  have hpending' : (pushPending b t).1.pending =
      (b.pending ++ [t]).drop (b.pending.length + 1 - maxOutbox) := by
    unfold pushPending
    dsimp only
    rw [hlength]
  unfold Boxes.all
  rw [hdlq', hpending']
  have hwhole : b.keptDlq ++ (b.pending ++ [t]).take (b.pending.length + 1 - maxOutbox) ++
      (b.pending ++ [t]).drop (b.pending.length + 1 - maxOutbox) =
        b.keptDlq ++ (b.pending ++ [t]) := by
    rw [List.append_assoc, List.take_append_drop]
  have hfront : (b.keptDlq ++ (b.pending ++ [t])).Perm (b.pending ++ [t] ++ b.keptDlq) :=
    List.perm_append_comm
  refine List.perm_append_comm.trans ?_
  rw [hwhole]
  refine hfront.trans ?_
  rw [List.append_assoc, List.singleton_append]
  exact List.perm_middle

theorem length_boundDlq (dlq : List Tagged) : (boundDlq dlq).1.length ≤ maxDlq := by
  unfold boundDlq
  dsimp only
  rw [List.length_drop]
  omega

theorem keptDlq_sublist : b.keptDlq.Sublist b.dlq := by
  unfold Boxes.keptDlq
  split_ifs
  · exact List.tail_sublist b.dlq
  · exact List.Sublist.refl b.dlq

theorem bounded_pushPending : Bounded (pushPending b t).1 := by
  constructor
  · unfold pushPending
    dsimp only
    rw [List.length_drop]
    omega
  · unfold pushPending
    dsimp only
    exact length_boundDlq _

theorem nodup_pushPending_iff (h : Bounded b) (hnodup : b.ids.Nodup) :
    (pushPending b t).1.ids.Nodup ↔
      ∀ u ∈ b.pending ++ b.keptDlq, u.item.id ≠ t.item.id := by
  have hperm := (@all_pushPending b t h.pending h.dlq).map fun u => u.item.id
  have hkept : ((b.pending ++ b.keptDlq).map fun u => u.item.id).Nodup := by
    have hsub : (b.pending ++ b.keptDlq).Sublist b.all :=
      (List.Sublist.refl b.pending).append keptDlq_sublist
    exact hnodup.sublist (hsub.map _)
  unfold Boxes.ids
  rw [hperm.nodup_iff, List.map_cons, List.nodup_cons]
  simp only [hkept, and_true, List.mem_map, not_exists, not_and]

end Enqueue

section Marking

variable {b : Boxes} {t : Tagged}

theorem perm_eraseP_find {items : List Tagged} {p : Tagged → Bool}
    (hfind : items.find? p = some t) : (t :: items.eraseP p).Perm items := by
  induction items with
  | nil => cases hfind
  | cons u items ih =>
      by_cases hu : p u = true
      · rw [List.find?_cons_of_pos hu, Option.some.injEq] at hfind
        rw [List.eraseP_cons_of_pos hu, hfind]
      · rw [List.find?_cons_of_neg hu] at hfind
        rw [List.eraseP_cons_of_neg hu]
        exact (List.Perm.swap u t _).trans ((ih hfind).cons u)

theorem all_requeueFailed (error : String) (maxAttempts : UInt32) (now : Int64) :
    ∃ t', t'.item.id = t.item.id ∧
      ((requeueFailed b t error maxAttempts now).1.all).Subperm (t' :: b.all) := by
  unfold requeueFailed
  by_cases hdead : maxAttempts ≤ t.item.attempts + 1
  · simp only [if_pos hdead]
    refine ⟨{ t with item := { t.item with
      attempts := t.item.attempts + 1
      lastError := some error } }, rfl, ?_⟩
    have hsub : ∀ n t', (b.pending ++ (b.dlq ++ [t']).drop n).Sublist
        (b.pending ++ (b.dlq ++ [t'])) :=
      fun n t' => (List.Sublist.refl b.pending).append (List.drop_sublist n _)
    have hperm : ∀ t', (b.pending ++ (b.dlq ++ [t'])).Perm (t' :: b.all) := by
      intro t'
      rw [← List.append_assoc]
      exact List.perm_append_singleton t' b.all
    unfold boundDlq Boxes.all at *
    dsimp only
    exact (hsub _ _).subperm.trans (hperm _).subperm
  · simp only [if_neg hdead]
    refine ⟨{ t with item := { t.item with
      attempts := t.item.attempts + 1
      lastError := some error
      nextAttemptMs := now + Int64.ofInt (2 ^ min (t.item.attempts + 1).toNat 8 * 1000) } },
      rfl, ?_⟩
    have hperm : ∀ t', (b.pending ++ [t'] ++ b.dlq).Perm (t' :: b.all) := by
      intro t'
      rw [List.append_assoc, List.singleton_append]
      exact List.perm_middle
    exact (hperm _).subperm

theorem bounded_requeueFailed (hpending : b.pending.length < maxOutbox)
    (hdlq : b.dlq.length ≤ maxDlq) (error : String) (maxAttempts : UInt32) (now : Int64) :
    Bounded (requeueFailed b t error maxAttempts now).1 := by
  unfold requeueFailed
  by_cases hdead : maxAttempts ≤ t.item.attempts + 1
  · simp only [if_pos hdead]
    constructor
    · exact hpending.le
    · dsimp only
      exact length_boundDlq _
  · simp only [if_neg hdead]
    constructor
    · dsimp only
      rw [List.length_append, List.length_singleton]
      exact hpending
    · exact hdlq

end Marking

/-! ## One call -/

section Calls

variable {s : State}

theorem markFailed_cases (id error : String) (maxAttempts : UInt32) (now : Int64) :
    (s.markFailed id error maxAttempts now).boxes = s.boxes ∨
      ∃ t, (t :: s.boxes.pending.eraseP fun u => u.item.id = id).Perm s.boxes.pending ∧
        (s.markFailed id error maxAttempts now).boxes =
          (requeueFailed
            { s.boxes with pending := s.boxes.pending.eraseP fun u => u.item.id = id }
            t error maxAttempts now).1 := by
  unfold State.markFailed
  cases hfind : s.boxes.pending.find? fun u => u.item.id = id with
  | none => exact Or.inl rfl
  | some t => exact Or.inr ⟨t, perm_eraseP_find hfind, rfl⟩

theorem bounded_markFailed (h : Bounded s.boxes) (id error : String) (maxAttempts : UInt32)
    (now : Int64) : Bounded (s.markFailed id error maxAttempts now).boxes := by
  rcases @markFailed_cases s id error maxAttempts now with hsame | ⟨t, hperm, hboxes⟩
  · rw [hsame]
    exact h
  · have hlength := hperm.length_eq
    rw [List.length_cons] at hlength
    have hshorter : (s.boxes.pending.eraseP fun u => u.item.id = id).length < maxOutbox := by
      have hpending := h.pending
      omega
    rw [hboxes]
    exact @bounded_requeueFailed
      { s.boxes with pending := s.boxes.pending.eraseP fun u => u.item.id = id } t
      hshorter h.dlq error maxAttempts now

theorem nodup_markFailed (h : s.boxes.ids.Nodup) (id error : String) (maxAttempts : UInt32)
    (now : Int64) : (s.markFailed id error maxAttempts now).boxes.ids.Nodup := by
  rcases @markFailed_cases s id error maxAttempts now with hsame | ⟨t, hperm, hboxes⟩
  · rw [hsame]
    exact h
  · obtain ⟨t', hid, hsub⟩ := @all_requeueFailed
      { s.boxes with pending := s.boxes.pending.eraseP fun u => u.item.id = id } t
      error maxAttempts now
    have hall : (t :: (s.boxes.pending.eraseP (fun u => u.item.id = id) ++ s.boxes.dlq)).Perm
        s.boxes.all := by
      rw [← List.cons_append]
      exact hperm.append_right s.boxes.dlq
    have hids : (t'.item.id ::
        (s.boxes.pending.eraseP (fun u => u.item.id = id) ++ s.boxes.dlq).map
          fun u => u.item.id).Nodup := by
      have hmap := hall.map fun u : Tagged => u.item.id
      rw [List.map_cons] at hmap
      rw [hid]
      exact hmap.nodup_iff.mpr h
    rw [hboxes]
    obtain ⟨l, hl, hlsub⟩ := hsub
    have hlnodup : (l.map fun u => u.item.id).Nodup := by
      have hmap := hlsub.map fun u : Tagged => u.item.id
      rw [List.map_cons] at hmap
      exact hids.sublist hmap
    exact (hl.map fun u => u.item.id).nodup_iff.mp hlnodup

variable {C : WebhookCrypto}

theorem bounded_call (h : Bounded s.boxes) (c : Call) : Bounded (call C s c).boxes := by
  cases c with
  | enqueueWebhook tenant event url payload secret now => exact bounded_pushPending
  | markWebhookFailed id error maxAttempts now => exact bounded_markFailed h id error _ now
  | markWebhookOk id =>
      have hsub : (s.boxes.pending.filter fun t => t.item.id ≠ id).Sublist s.boxes.pending :=
        List.filter_sublist
      exact ⟨hsub.length_le.trans h.pending, h.dlq⟩

theorem freshStamp_iff {tenant event url : String} {payload : Json}
    {secret : Option String} {now : Int64} :
    FreshStamp s (.enqueueWebhook tenant event url payload secret now) ↔
      ∀ u ∈ s.boxes.pending ++ s.boxes.keptDlq, u.item.id ≠ webhookId now tenant := by
  constructor
  · intro hfresh u hu hid
    exact hfresh u hu now tenant hid rfl rfl
  · intro hids u hu ms owner hid hms htenant
    apply hids u hu
    rw [hid, webhookId_eq_iff]
    exact ⟨hms, htenant⟩

theorem acksOwnItem_call_iff (h : Bounded s.boxes) (hacks : AcksOwnItem s) (c : Call) :
    AcksOwnItem (call C s c) ↔ FreshStamp s c := by
  have hnodup := hacks.distinct
  rw [acksOwnItem_iff]
  cases c with
  | enqueueWebhook tenant event url payload secret now =>
      rw [freshStamp_iff]
      exact nodup_pushPending_iff h hnodup
  | markWebhookFailed id error maxAttempts now =>
      exact iff_of_true (nodup_markFailed hnodup id error maxAttempts now) trivial
  | markWebhookOk id =>
      have hsub : (s.boxes.pending.filter fun t => t.item.id ≠ id).Sublist s.boxes.pending :=
        List.filter_sublist
      have hall := (hsub.append (List.Sublist.refl s.boxes.dlq)).map fun t => t.item.id
      exact iff_of_true (hnodup.sublist hall) trivial

/-- Acknowledgements stay exact all through a run exactly when every item is
enqueued under a stamp of its own. -/
theorem run_acks_own_item_iff (calls : List Call) :
    Along (call C) (fun s c => AcksOwnItem (call C s c)) State.init calls ↔
      Along (call C) FreshStamp State.init calls := by
  have hinit : Bounded State.init.boxes ∧ AcksOwnItem State.init :=
    ⟨⟨Nat.zero_le _, Nat.zero_le _⟩, acksOwnItem_iff.mpr List.nodup_nil⟩
  have hguard : Along (call C) (fun _ _ => True) State.init calls :=
    along_of_forall fun _ _ _ => trivial
  refine Along.iff_of_steps
    (I := fun s => Bounded s.boxes ∧ AcksOwnItem s) ?_ ?_ hguard hinit
  · intro s c hs _
    exact acksOwnItem_call_iff hs.1 hs.2 c
  · intro s c hs _ hacks
    exact ⟨bounded_call hs.1 c, hacks⟩

end Calls

def plainCrypto : WebhookCrypto := ⟨fun _ => "", fun _ => ""⟩

def twoWebhooks : List Call :=
  [.enqueueWebhook "acme-eu" "done" "http://hook/1" .null none 5,
    .enqueueWebhook "acme-eu" "done" "http://hook/2" .null none 5]

/-- Two webhooks of a tenant share an id, and acknowledging the first discards
the second. -/
theorem one_ack_discards_two :
    ¬ Along (call plainCrypto) (fun s c => AcksOwnItem (call plainCrypto s c)) State.init
        twoWebhooks ∧
      let s := runFrom (call plainCrypto) State.init twoWebhooks
      s.boxes.pending.map (fun t => t.item.url) = ["http://hook/1", "http://hook/2"] ∧
        (s.markOk (webhookId 5 "acme-eu")).boxes.pending = [] := by
  constructor
  · intro hrun
    have hdistinct := hrun.2.1.distinct
    exact absurd hdistinct (by decide)
  · decide

end WebhookOutbox

end GrServer
