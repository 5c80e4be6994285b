import GrServer.GuardedRun
import GrServer.ModuleActivation
import GrServer.UnderWay

/-!
# How long a loaded module lives

Threads of the host load modules, swap them into the slots of the registry, take
handles of what is in a slot, and unload.  An instance is shut down, and its
library closed, with the last reference to it.  An instance that was in a slot
goes to the retired list when another one takes its place, and between the two
the thread that swapped holds it.  So no instance that was ever active is shut
down, and of the others each is shut down once.
-/

namespace GrServer

namespace ModuleLifetimes

open UnderWay
open ReleaseSignature (LoadedModule ModuleMeta)

/-! ## The registry and its threads -/

/-- Where a call of `hot_load` or `unload` is, or a handle that a caller holds. -/
inductive Task where
  /-- The instance is open, its name is still to be checked. -/
  | check (name : String) (m : LoadedModule)
  | swap (m : LoadedModule)
  /-- The former instance is out of its slot, and not yet on the retired list. -/
  | retire (loaded : Option LoadedModule) (old : LoadedModule)
  | handle (m : LoadedModule)

def Task.opened : Task → List ℕ
  | .check _ m | .swap m => [m.serial]
  | .retire _ _ | .handle _ => []

def Task.retiring : Task → List ℕ
  | .retire _ old => [old.serial]
  | .check _ _ | .swap _ | .handle _ => []

def Task.held : Task → List ℕ
  | .handle m => [m.serial]
  | .retire loaded _ => (loaded.map LoadedModule.serial).toList
  | .check _ _ | .swap _ => []

def serials (slots : SortedMap String (Option LoadedModule)) : List ℕ :=
  slots.entries.flatMap fun e => (e.2.map LoadedModule.serial).toList

structure Process where
  slots : SortedMap String (Option LoadedModule) := .empty
  /-- Instances that were replaced, kept for the life of the process. -/
  retired : List ℕ := []
  tasks : List Task := []
  next : ℕ := 0
  /-- Instances that were shut down, the latest first. -/
  closed : List ℕ := []
  /-- Every instance that was ever put into a slot. -/
  published : List ℕ := []

namespace Process

variable (p : Process)

def get (name : String) : Option LoadedModule := (p.slots.get? name).join

def placed : List ℕ := serials p.slots ++ p.retired ++ p.tasks.flatMap Task.retiring

def pending : List ℕ := p.tasks.flatMap Task.opened

def held : List ℕ := p.tasks.flatMap Task.held

def release (m : LoadedModule) : Process :=
  if m.serial ∈ p.placed ++ p.pending ++ p.held then p
  else { p with closed := m.serial :: p.closed }

end Process

inductive Event where
  | load (name : String) (path : Text) (opened : Except String (ModuleMeta × Option ℤ))
  | statement (k : ℕ)
  | get (name : String)
  | unload (name : String)
  | drop (k : ℕ)

/-- The rest of `hot_load`, and of `unload`, one statement at a time. -/
def Process.statement (p : Process) (k : ℕ) : Task → Process
  | .check name m =>
      let rest := { p with tasks := p.tasks.eraseIdx k }
      if m.info.name ≠ name ∧ name ≠ m.info.domain then rest.release m
      else
        { rest with
          slots := p.slots.insertNew m.info.name none
          tasks := .swap m :: rest.tasks }
  | .swap m =>
      { p with
        slots := p.slots.insert m.info.name (some m)
        published := m.serial :: p.published
        tasks :=
          (match p.get m.info.name with
            | some old => .retire (some m) old
            | none => .handle m) :: p.tasks.eraseIdx k }
  | .retire loaded old =>
      { p with
        retired := old.serial :: p.retired
        tasks := (loaded.map Task.handle).toList ++ p.tasks.eraseIdx k }
  | .handle _ => p

def Process.step (p : Process) : Event → Process
  | .load name path opened =>
      match opened with
      | .error _ => p
      | .ok (info, init) =>
          let m : LoadedModule := ⟨p.next, info, path⟩
          let p := { p with next := p.next + 1 }
          if (init.getD 0) ≠ 0 then p.release m
          else { p with tasks := .check name m :: p.tasks }
  | .statement k => (p.tasks[k]?.map fun task => p.statement k task).getD p
  | .get name =>
      match p.get name with
      | some m => { p with tasks := .handle m :: p.tasks }
      | none => p
  | .unload name =>
      match p.get name with
      | some m =>
          { p with
            slots := p.slots.insert name none
            tasks := .retire none m :: p.tasks }
      | none => p
  | .drop k =>
      match p.tasks[k]? with
      | some (.handle m) => { p with tasks := p.tasks.eraseIdx k }.release m
      | _ => p

section Slots

variable {α : Type} {m : SortedMap String α} {k : String} {v old : α}

theorem nodup_entries (m : SortedMap String α) : m.entries.Nodup :=
  List.Nodup.of_map Prod.fst m.keys_nodup

theorem entries_insert_perm : (m.insert k v).entries.Perm ((k, v) :: (m.erase k).entries) := by
  have hnot : (k, v) ∉ (m.erase k).entries := by
    rw [← SortedMap.get?_eq_some_iff, SortedMap.get?_erase, if_pos rfl]
    exact fun hnone => absurd hnone.symm (Option.some_ne_none v)
  refine (List.perm_ext_iff_of_nodup (nodup_entries _)
    (List.nodup_cons.mpr ⟨hnot, nodup_entries _⟩)).mpr ?_
  rintro ⟨j, w⟩
  rw [← SortedMap.get?_eq_some_iff, SortedMap.get?_insert, List.mem_cons,
    ← SortedMap.get?_eq_some_iff, SortedMap.get?_erase]
  split_ifs with hj
  · simp [hj, eq_comm]
  · simp [hj]

theorem entries_perm_of_get? (h : m.get? k = some old) :
    m.entries.Perm ((k, old) :: (m.erase k).entries) := by
  have hsame : m.insert k old = m := by
    apply SortedMap.ext_get?
    intro j
    rw [SortedMap.get?_insert]
    split_ifs with hj
    · rw [hj, h]
    · rfl
  calc
    m.entries.Perm (m.insert k old).entries := by rw [hsame]
    List.Perm _ _ := entries_insert_perm

theorem erase_of_get?_eq_none (h : m.get? k = none) : m.erase k = m := by
  apply SortedMap.ext_get?
  intro j
  rw [SortedMap.get?_erase]
  split_ifs with hj
  · rw [hj, h]
  · rfl

end Slots

theorem count_serials_insert (slots : SortedMap String (Option LoadedModule)) (k : String)
    (v : Option LoadedModule) (n : ℕ) :
    (serials (slots.insert k v)).count n +
        ((slots.get? k).join.map LoadedModule.serial).toList.count n =
      (v.map LoadedModule.serial).toList.count n + (serials slots).count n := by
  have hinsert : (serials (slots.insert k v)).count n =
      (v.map LoadedModule.serial).toList.count n + (serials (slots.erase k)).count n := by
    unfold serials
    rw [((entries_insert_perm (m := slots) (k := k) (v := v)).flatMap_right _).count_eq n,
      List.flatMap_cons, List.count_append]
  have hold : (serials slots).count n =
      ((slots.get? k).join.map LoadedModule.serial).toList.count n +
        (serials (slots.erase k)).count n := by
    cases hget : slots.get? k with
    | none =>
        rw [erase_of_get?_eq_none hget]
        simp
    | some old =>
        unfold serials
        rw [((entries_perm_of_get? hget).flatMap_right _).count_eq n, List.flatMap_cons,
          List.count_append]
        rfl
  omega

theorem serials_insertNew (slots : SortedMap String (Option LoadedModule)) (k : String) (n : ℕ) :
    (serials (slots.insertNew k none)).count n = (serials slots).count n := by
  unfold SortedMap.insertNew
  split_ifs with hcontains
  · rfl
  · have hinsert := count_serials_insert slots k none n
    have hnone : slots.get? k = none := by
      unfold SortedMap.contains at hcontains
      simpa using hcontains
    rw [hnone] at hinsert
    simpa using hinsert

/-! ## Every instance is accounted for -/

/-- Every instance there has been is published, with the load that opened it, or shut down;
a published one is active, retired, or on its way there; and only published ones have been
handed out. -/
structure Accounted (p : Process) : Prop where
  all : ∀ n, p.published.count n + p.pending.count n + p.closed.count n =
    if n < p.next then 1 else 0
  placed : ∀ n, p.placed.count n = p.published.count n
  held : ∀ n ∈ p.held, n ∈ p.published

section Steps

variable {p : Process} {k : ℕ} {m : LoadedModule}

theorem count_placed (p : Process) (n : ℕ) :
    p.placed.count n = (serials p.slots).count n + p.retired.count n +
      (p.tasks.flatMap Task.retiring).count n := by
  unfold Process.placed
  rw [List.count_append, List.count_append]

theorem Accounted.release (h : Accounted p) (hm : m.serial ∈ p.published) :
    p.release m = p := by
  have hplaced : m.serial ∈ p.placed := by
    rw [← List.count_pos_iff, h.placed m.serial, List.count_pos_iff]
    exact hm
  unfold Process.release
  rw [if_pos]
  exact List.mem_append_left _ (List.mem_append_left _ hplaced)

theorem accounted_close {p : Process}
    (hall : ∀ n, p.published.count n + p.pending.count n + p.closed.count n +
      (if n = m.serial then 1 else 0) = if n < p.next then 1 else 0)
    (hplaced : ∀ n, p.placed.count n = p.published.count n)
    (hheld : ∀ n ∈ p.held, n ∈ p.published) : Accounted (p.release m) := by
  have hserial := hall m.serial
  rw [if_pos rfl] at hserial
  have hle : (if m.serial < p.next then 1 else 0) ≤ 1 := by split_ifs <;> simp
  have hpublished : p.published.count m.serial = 0 := by omega
  have hpending : p.pending.count m.serial = 0 := by omega
  have hnot : m.serial ∉ p.placed ++ p.pending ++ p.held := by
    rw [List.mem_append, List.mem_append]
    rintro ((hmem | hmem) | hmem)
    · rw [← List.count_pos_iff, hplaced m.serial] at hmem
      omega
    · rw [← List.count_pos_iff] at hmem
      omega
    · have hpos := List.count_pos_iff.mpr (hheld _ hmem)
      omega
  unfold Process.release
  rw [if_neg hnot]
  refine ⟨?_, hplaced, hheld⟩
  intro n
  have hn := hall n
  change p.published.count n + p.pending.count n + (m.serial :: p.closed).count n = _
  rw [List.count_cons]
  simp only [beq_iff_eq, eq_comm (a := m.serial)]
  change _ = if n < p.next then 1 else 0
  omega

theorem Accounted.replace (h : Accounted p) {task : Task} (hk : p.tasks[k]? = some task)
    (slots : SortedMap String (Option LoadedModule)) (retired published : List ℕ)
    (new : List Task)
    (hopened : ∀ n, published.count n + (new.flatMap Task.opened).count n =
      p.published.count n + task.opened.count n)
    (hplaced : ∀ n, (serials slots).count n + retired.count n +
        (new.flatMap Task.retiring).count n + p.published.count n =
      (serials p.slots).count n + p.retired.count n + task.retiring.count n + published.count n)
    (hheld : ∀ n ∈ new.flatMap Task.held, n ∈ published)
    (hsub : ∀ n ∈ p.published, n ∈ published) :
    Accounted
      { p with
        slots := slots
        retired := retired
        published := published
        tasks := new ++ p.tasks.eraseIdx k } := by
  refine ⟨?_, ?_, ?_⟩
  · intro n
    have hall := h.all n
    rw [Process.pending, count_flatMap_eraseIdx hk Task.opened] at hall
    have hn := hopened n
    rw [Process.pending]
    dsimp only
    rw [List.flatMap_append, List.count_append, ← hall]
    omega
  · intro n
    have hold := h.placed n
    rw [count_placed, count_flatMap_eraseIdx hk Task.retiring] at hold
    have hn := hplaced n
    rw [count_placed]
    dsimp only
    rw [List.flatMap_append, List.count_append]
    omega
  · intro n hn
    rw [Process.held] at hn
    dsimp only at hn ⊢
    rw [List.flatMap_append, List.mem_append] at hn
    rcases hn with hnew | hold
    · exact hheld n hnew
    · apply hsub
      apply h.held
      rw [Process.held, ← List.count_pos_iff, count_flatMap_eraseIdx hk Task.held]
      have hpos := List.count_pos_iff.mpr hold
      omega

theorem mem_held_of_getElem? {task : Task} {n : ℕ} (hk : p.tasks[k]? = some task)
    (hn : n ∈ task.held) : n ∈ p.held :=
  List.mem_flatMap.mpr ⟨task, List.mem_of_getElem? hk, hn⟩

theorem accounted_statement (h : Accounted p) {task : Task} (hk : p.tasks[k]? = some task) :
    Accounted (p.statement k task) := by
  cases task with
  | check name m =>
      rw [Process.statement]
      dsimp only
      split_ifs with hname
      · have hone : ∀ n, (Task.check name m).opened.count n = if n = m.serial then 1 else 0 := by
          intro n
          rw [Task.opened, List.count_singleton]
          simp only [beq_iff_eq, eq_comm (a := n)]
        refine accounted_close ?_ ?_ ?_
        · intro n
          have hall := h.all n
          rw [Process.pending, count_flatMap_eraseIdx hk Task.opened, hone n] at hall
          rw [Process.pending]
          dsimp only
          omega
        · intro n
          have hplaced := h.placed n
          rw [count_placed, count_flatMap_eraseIdx hk Task.retiring] at hplaced
          rw [count_placed]
          simpa [Task.retiring] using hplaced
        · intro n hn
          apply h.held
          rw [Process.held, ← List.count_pos_iff, count_flatMap_eraseIdx hk Task.held]
          have hpos := List.count_pos_iff.mpr hn
          rw [Process.held] at hpos
          dsimp only at hpos
          omega
      · exact h.replace hk _ p.retired p.published [.swap m] (fun n => rfl)
          (fun n => by rw [serials_insertNew]; rfl) (fun n hn => absurd hn List.not_mem_nil)
          fun n hn => hn
  | swap m =>
      have hswapped : ∀ new : Task, new.opened = [] → new.held = [m.serial] →
          new.retiring = ((p.slots.get? m.info.name).join.map LoadedModule.serial).toList →
          Accounted
            { p with
              slots := p.slots.insert m.info.name (some m)
              published := m.serial :: p.published
              tasks := new :: p.tasks.eraseIdx k } := by
        intro new hopened hheld hretiring
        refine h.replace hk _ p.retired (m.serial :: p.published) [new] ?_ ?_ ?_
          fun n hn => List.mem_cons_of_mem m.serial hn
        · intro n
          rw [List.flatMap_singleton, hopened, Task.opened, List.count_cons, List.count_singleton]
          rfl
        · intro n
          have hn := count_serials_insert p.slots m.info.name (some m) n
          rw [Option.map_some, Option.toList_some, List.count_singleton] at hn
          rw [List.flatMap_singleton, hretiring, Task.retiring, List.count_cons, List.count_nil]
          omega
        · intro n hn
          rw [List.flatMap_singleton, hheld] at hn
          exact List.mem_cons.mpr (Or.inl (List.mem_singleton.mp hn))
      rw [Process.statement]
      unfold Process.get
      cases hold : (p.slots.get? m.info.name).join with
      | none => exact hswapped (.handle m) rfl rfl (by rw [hold]; rfl)
      | some old => exact hswapped (.retire (some m) old) rfl rfl (by rw [hold]; rfl)
  | retire loaded old =>
      refine h.replace hk p.slots (old.serial :: p.retired) p.published
        (loaded.map Task.handle).toList ?_ ?_ ?_ fun n hn => hn
      · intro n
        cases loaded with
        | none => simp [Task.opened]
        | some m => simp [Task.opened]
      · intro n
        cases loaded with
        | none =>
            simp [Task.retiring, List.count_cons]
            omega
        | some m =>
            simp [Task.retiring, List.count_cons]
            omega
      · intro n hn
        apply h.held
        apply mem_held_of_getElem? hk
        cases loaded with
        | none => simp at hn
        | some m => simpa [Task.held] using hn
  | handle m => exact h

theorem Accounted.begin (h : Accounted p) (slots : SortedMap String (Option LoadedModule))
    (task : Task) (hopened : task.opened = [])
    (hplaced : ∀ n, (serials slots).count n + task.retiring.count n = (serials p.slots).count n)
    (hheld : ∀ n ∈ task.held, n ∈ p.published) :
    Accounted { p with slots := slots, tasks := task :: p.tasks } := by
  refine ⟨?_, ?_, ?_⟩
  · intro n
    rw [Process.pending]
    dsimp only
    rw [List.flatMap_cons, hopened, List.nil_append]
    exact h.all n
  · intro n
    have hold := h.placed n
    rw [count_placed] at hold
    have hn := hplaced n
    rw [count_placed]
    dsimp only
    rw [List.flatMap_cons, List.count_append]
    omega
  · intro n hn
    rw [Process.held] at hn
    dsimp only at hn ⊢
    rw [List.flatMap_cons, List.mem_append] at hn
    rcases hn with hnew | hold
    · exact hheld n hnew
    · exact h.held n hold

theorem mem_serials {name : String} (hget : p.get name = some m) :
    m.serial ∈ serials p.slots := by
  have hslot : p.slots.get? name = some (some m) := by
    unfold Process.get at hget
    rwa [Option.join_eq_some_iff] at hget
  exact List.mem_flatMap.mpr ⟨(name, some m), SortedMap.get?_eq_some_iff.mp hslot, by simp⟩

theorem Accounted.get (h : Accounted p) {name : String} (hget : p.get name = some m) :
    m.serial ∈ p.published := by
  rw [← List.count_pos_iff, ← h.placed m.serial, List.count_pos_iff]
  exact List.mem_append_left _ (List.mem_append_left _ (mem_serials hget))

theorem accounted_opened (h : Accounted p) (name : String) (m : LoadedModule)
    (hserial : m.serial = p.next) :
    Accounted { p with next := p.next + 1, tasks := .check name m :: p.tasks } := by
  refine ⟨?_, h.placed, h.held⟩
  intro n
  have hall := h.all n
  rw [Process.pending] at hall ⊢
  dsimp only
  rw [List.flatMap_cons, Task.opened, List.count_append, List.count_singleton]
  simp only [beq_iff_eq, hserial]
  split_ifs at hall ⊢ <;> omega

theorem accounted_refused (h : Accounted p) (hserial : m.serial = p.next) :
    Accounted ({ p with next := p.next + 1 }.release m) := by
  refine accounted_close ?_ h.placed h.held
  intro n
  have hall := h.all n
  dsimp only
  change p.published.count n + p.pending.count n + p.closed.count n + _ = _
  rw [hall, hserial]
  split_ifs <;> omega

theorem accounted_drop (h : Accounted p) (hk : p.tasks[k]? = some (.handle m)) :
    Accounted ({ p with tasks := p.tasks.eraseIdx k }.release m) := by
  have hrest : Accounted { p with tasks := p.tasks.eraseIdx k } :=
    h.replace hk p.slots p.retired p.published [] (fun n => rfl) (fun n => rfl)
      (fun n hn => absurd hn List.not_mem_nil) fun n hn => hn
  rw [hrest.release]
  · exact hrest
  · exact h.held _ (mem_held_of_getElem? hk List.mem_cons_self)

theorem accounted_step (p : Process) (e : Event) (h : Accounted p) : Accounted (p.step e) := by
  cases e with
  | load name path opened =>
      cases opened with
      | error t => exact h
      | ok a =>
          rcases a with ⟨info, init⟩
          rw [Process.step]
          dsimp only
          split_ifs with hinit
          · exact accounted_refused h rfl
          · exact accounted_opened h name _ rfl
  | statement k =>
      rw [Process.step]
      cases hk : p.tasks[k]? with
      | none => exact h
      | some task => exact accounted_statement h hk
  | get name =>
      rw [Process.step]
      cases hget : p.get name with
      | none => exact h
      | some m =>
          refine h.begin p.slots (.handle m) rfl (fun n => rfl) ?_
          intro n hn
          rw [List.mem_singleton.mp hn]
          exact h.get hget
  | unload name =>
      rw [Process.step]
      cases hget : p.get name with
      | none => exact h
      | some m =>
          refine h.begin (p.slots.insert name none) (.retire none m) rfl ?_ ?_
          · intro n
            have hinsert := count_serials_insert p.slots name none n
            have hslot : (p.slots.get? name).join = some m := hget
            rw [hslot] at hinsert
            simpa [Task.retiring] using hinsert
          · intro n hn
            exact absurd hn List.not_mem_nil
  | drop k =>
      unfold Process.step
      dsimp only
      cases hk : p.tasks[k]? with
      | none => exact h
      | some task =>
          cases task with
          | check name m => exact h
          | swap m => exact h
          | retire loaded old => exact h
          | handle m => exact accounted_drop h hk

theorem release_keeps {q : Process} (m : LoadedModule) (hpublished : q.published = p.published)
    (hclosed : q.closed = p.closed) (n : ℕ) :
    (n ∈ p.published → n ∈ (q.release m).published) ∧
      (n ∈ p.closed → n ∈ (q.release m).closed) := by
  unfold Process.release
  rw [← hpublished, ← hclosed]
  split_ifs
  · exact ⟨id, id⟩
  · exact ⟨id, List.mem_cons_of_mem _⟩

theorem step_keeps (p : Process) (e : Event) (n : ℕ) :
    (n ∈ p.published → n ∈ (p.step e).published) ∧ (n ∈ p.closed → n ∈ (p.step e).closed) := by
  cases e with
  | load name path opened =>
      cases opened with
      | error t => exact ⟨id, id⟩
      | ok a =>
          rcases a with ⟨info, init⟩
          rw [Process.step]
          dsimp only
          split_ifs with hinit
          · apply release_keeps <;> rfl
          · exact ⟨id, id⟩
  | statement k =>
      rw [Process.step]
      cases hk : p.tasks[k]? with
      | none => exact ⟨id, id⟩
      | some task =>
          cases task with
          | check name m =>
              rw [Option.map_some, Option.getD_some, Process.statement]
              dsimp only
              split_ifs with hname
              · apply release_keeps <;> rfl
              · exact ⟨id, id⟩
          | swap m => exact ⟨List.mem_cons_of_mem _, id⟩
          | retire loaded old => exact ⟨id, id⟩
          | handle m => exact ⟨id, id⟩
  | get name =>
      rw [Process.step]
      cases p.get name with
      | none => exact ⟨id, id⟩
      | some m => exact ⟨id, id⟩
  | unload name =>
      rw [Process.step]
      cases p.get name with
      | none => exact ⟨id, id⟩
      | some m => exact ⟨id, id⟩
  | drop k =>
      unfold Process.step
      dsimp only
      cases hk : p.tasks[k]? with
      | none => exact ⟨id, id⟩
      | some task =>
          cases task with
          | check name m => exact ⟨id, id⟩
          | swap m => exact ⟨id, id⟩
          | retire loaded old => exact ⟨id, id⟩
          | handle m => apply release_keeps <;> rfl

end Steps

theorem accounted_init : Accounted {} :=
  ⟨fun _ => rfl, fun _ => rfl, fun _ hn => absurd hn List.not_mem_nil⟩

theorem accounted_run (es : List Event) : Accounted (runFrom Process.step {} es) :=
  runFrom_invariant (I := Accounted) accounted_step accounted_init es

theorem run_keeps (p : Process) (es : List Event) (n : ℕ) :
    (n ∈ p.published → n ∈ (runFrom Process.step p es).published) ∧
      (n ∈ p.closed → n ∈ (runFrom Process.step p es).closed) := by
  induction es generalizing p with
  | nil => exact ⟨id, id⟩
  | cons e es ih =>
      obtain ⟨hpublished, hclosed⟩ := step_keeps p e n
      obtain ⟨hrun, hrun'⟩ := ih (p.step e)
      exact ⟨fun h => hrun (hpublished h), fun h => hrun' (hclosed h)⟩

/-- However the threads interleave, every instance is at every moment exactly once with the
registry, with the load that opened it, or shut down; one that the registry has had, or
that has been handed out, is never shut down; and one that was shut down is never served. -/
theorem never_shut_down (es fs : List Event) (n : ℕ) :
    let p := runFrom Process.step {} es
    let q := runFrom Process.step p fs
    (q.placed.count n + q.pending.count n + q.closed.count n = if n < q.next then 1 else 0) ∧
      (n ∈ p.placed ++ p.held → q.placed.count n = 1 ∧ n ∉ q.closed) ∧
      (n ∈ p.closed → q.closed.count n = 1 ∧ n ∉ q.placed ++ q.held) := by
  intro p q
  have hp : Accounted p := accounted_run es
  have hq : Accounted q := by
    have hrun := accounted_run (es ++ fs)
    rwa [runFrom_append] at hrun
  obtain ⟨hpublished, hclosed⟩ := run_keeps p fs n
  have hall : q.placed.count n + q.pending.count n + q.closed.count n =
      if n < q.next then 1 else 0 := by
    rw [hq.placed n]
    exact hq.all n
  have hle : (if n < q.next then 1 else 0) ≤ 1 := by split_ifs <;> simp
  refine ⟨hall, ?_, ?_⟩
  · intro hn
    have hmem : n ∈ p.published := by
      rcases List.mem_append.mp hn with hplaced | hheld
      · rwa [← List.count_pos_iff, ← hp.placed n, List.count_pos_iff]
      · exact hp.held n hheld
    have hpos := List.count_pos_iff.mpr (hpublished hmem)
    rw [← hq.placed n] at hpos
    have hzero : q.closed.count n = 0 := by omega
    exact ⟨by omega, List.count_eq_zero.mp hzero⟩
  · intro hn
    have hpos : 0 < q.closed.count n := List.count_pos_iff.mpr (hclosed hn)
    have hzero : q.placed.count n = 0 := by omega
    refine ⟨by omega, ?_⟩
    intro hmem
    rcases List.mem_append.mp hmem with hplaced | hheld
    · exact List.count_eq_zero.mp hzero hplaced
    · have hheld := List.count_pos_iff.mpr (hq.held n hheld)
      rw [← hq.placed n] at hheld
      omega

end ModuleLifetimes

end GrServer
