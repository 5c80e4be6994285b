import Mathlib

/-!
# Statements on tables with foreign keys

A statement deletes rows of one table or sets a column of them to NULL.  A
delete is refused while a row of another table refers to a deleted row, or
takes that row along.  Statements run one after the other outside a
transaction: each may fail, and other sessions commit in between.

`clean_run_iff` says which runs leave no marked row behind, in terms of the
rows one by one: each is followed through the statements that hit it.
-/

namespace GrServer

namespace Tables

/-! ## Tables, references and statements -/

abbrev Row (C V : Type) := C → Option V

abbrev Database (T C V : Type) := T → List (Row C V)

/-- Rows of `child` hold the key of a row of `parent`, under the same name. -/
structure Reference (T C : Type) where
  child : T
  parent : T
  key : C
  cascade : Bool

inductive Action (C : Type) where
  | delete
  | setNull (column : C)

structure Statement (T C V : Type) where
  table : T
  action : Action C
  hits : Row C V → Bool

inductive Event (T C V : Type) where
  | commit (replaced : T → Row C V → Bool) (added : List (T × Row C V))
  | statement (st : Statement T C V) (fails : Bool)

variable {T C V : Type} [DecidableEq T] [DecidableEq C] [DecidableEq V]

def Reference.joins (ref : Reference T C) (child parent : Row C V) : Bool :=
  (child ref.key).isSome && decide (child ref.key = parent ref.key)

section Statements

variable (refs : List (Reference T C))

def hitRows (st : Statement T C V) (db : Database T C V) : List (Row C V) :=
  (db st.table).filter st.hits

def refused (st : Statement T C V) (db : Database T C V) : Bool :=
  refs.any fun ref => decide (ref.parent = st.table) && !ref.cascade &&
    (db ref.child).any fun child => (hitRows st db).any (ref.joins child)

def takenAlong (st : Statement T C V) (db : Database T C V) (t : T)
    (r : Row C V) : Bool :=
  refs.any fun ref => decide (ref.parent = st.table) && ref.cascade &&
    decide (ref.child = t) && (hitRows st db).any (ref.joins r)

def exec (st : Statement T C V) (db : Database T C V) :
    Option (Database T C V) :=
  match st.action with
  | .delete =>
      if refused refs st db then none
      else some fun t => (db t).filter fun r =>
        !(decide (t = st.table) && st.hits r) && !takenAlong refs st db t r
  | .setNull column =>
      some fun t => (db t).map fun r =>
        if t = st.table ∧ st.hits r = true then Function.update r column none else r

/-- A statement that fails leaves the tables as they are. -/
def step (db : Database T C V) : Event T C V → Database T C V
  | .commit replaced added => fun t =>
      (db t).filter (fun r => !replaced t r) ++
        (added.filter fun x => x.1 = t).map Prod.snd
  | .statement st fails => if fails then db else (exec refs st db).getD db

def run (db : Database T C V) (events : List (Event T C V)) : Database T C V :=
  events.foldl (step refs) db

def statements (events : List (Event T C V)) : List (Statement T C V) :=
  events.filterMap fun
    | .commit _ _ => none
    | .statement st _ => some st

def Consistent (db : Database T C V) : Prop :=
  ∀ ref ∈ refs, ∀ child ∈ db ref.child, (child ref.key).isSome = true →
    ∃ parent ∈ db ref.parent, ref.joins child parent = true

def KeepsParents (db after : Database T C V) : Prop :=
  ∀ ref ∈ refs, ∀ parent ∈ db ref.parent,
    ∃ kept ∈ after ref.parent, kept ref.key = parent ref.key

/-- Other sessions commit rows whose references hold, and remove no parents. -/
def Legal : Database T C V → List (Event T C V) → Prop
  | _, [] => True
  | db, .commit replaced added :: events =>
      Consistent refs (step refs db (.commit replaced added)) ∧
        KeepsParents refs db (step refs db (.commit replaced added)) ∧
        Legal (step refs db (.commit replaced added)) events
  | db, .statement st fails :: events =>
      Legal (step refs db (.statement st fails)) events

def removes (st : Statement T C V) (t : T) (r : Row C V) : Bool :=
  match st.action with
  | .delete =>
      st.hits r && (decide (t = st.table) || refs.any fun ref =>
        decide (ref.parent = st.table) && ref.cascade && decide (ref.child = t))
  | .setNull _ => false

def refuses (st : Statement T C V) (t : T) (r : Row C V) : Bool :=
  match st.action with
  | .delete =>
      st.hits r && refs.any fun ref =>
        decide (ref.parent = st.table) && !ref.cascade && decide (ref.child = t)
  | .setNull _ => false

def after (e : Event T C V) (t : T) (r : Row C V) : Option (Row C V) :=
  match e with
  | .commit replaced _ => if replaced t r then none else some r
  | .statement st fails =>
      if fails then some r
      else
        match st.action with
        | .delete => if removes refs st t r then none else some r
        | .setNull column =>
            some (if t = st.table ∧ st.hits r = true then
              Function.update r column none else r)

def blocks (e : Event T C V) (t : T) (r : Row C V) : Bool :=
  match e with
  | .commit _ _ => false
  | .statement st fails => !fails && refuses refs st t r

variable (marked : T → Row C V → Bool)

def Settles : List (Event T C V) → T → Row C V → Prop
  | [], t, r => marked t r = false
  | e :: events, t, r =>
      blocks refs e t r = false ∧
        ∀ left, after refs e t r = some left → Settles events t left

def AddedSettle : List (Event T C V) → Prop
  | [] => True
  | .commit _ added :: events =>
      (∀ x ∈ added, Settles refs marked events x.1 x.2) ∧ AddedSettle events
  | .statement _ _ :: events => AddedSettle events

def Refusable (st : Statement T C V) : Prop :=
  st.action = .delete ∧ ∃ ref ∈ refs, ref.parent = st.table ∧ ref.cascade = false

/-- What the schema and the statements have to fulfil for rows to be followed
one by one. -/
structure Sweep (sts : List (Statement T C V)) : Prop where
  /-- No table refers to one that refers to another. -/
  flat : ∀ ref ∈ refs, ∀ ref' ∈ refs, ref.child ≠ ref'.parent
  /-- Deletes from a parent table look at its key only. -/
  keyed : ∀ st ∈ sts, st.action = .delete → ∀ ref ∈ refs, ref.parent = st.table →
    ∃ f : Option V → Bool, f none = false ∧ ∀ r, st.hits r = f (r ref.key)
  keeps : ∀ st ∈ sts, ∀ column, st.action = .setNull column → ∀ ref ∈ refs,
    ref.parent = st.table → ref.key ≠ column
  marks : ∀ st ∈ sts, Refusable refs st →
    ∀ r, st.hits r = true → marked st.table r = true
  last : sts.Pairwise fun st later => Refusable refs st → later.table ≠ st.table

end Statements

/-! ## One statement -/

section Steps

variable {refs : List (Reference T C)} {st : Statement T C V}
variable {db : Database T C V}

def Keyed (refs : List (Reference T C)) (st : Statement T C V) : Prop :=
  ∀ ref ∈ refs, ref.parent = st.table →
    ∃ f : Option V → Bool, f none = false ∧ ∀ r, st.hits r = f (r ref.key)

omit [DecidableEq T] [DecidableEq C] in
theorem joins_iff {ref : Reference T C} {child parent : Row C V} :
    ref.joins child parent = true ↔
      (child ref.key).isSome = true ∧ child ref.key = parent ref.key := by
  unfold Reference.joins
  rw [Bool.and_eq_true, decide_eq_true_eq]

omit [DecidableEq C] [DecidableEq V] in
theorem removes_iff (hdelete : st.action = .delete) {t : T} {r : Row C V} :
    removes refs st t r = true ↔ st.hits r = true ∧ (t = st.table ∨
      ∃ ref ∈ refs, ref.parent = st.table ∧ ref.cascade = true ∧ ref.child = t) := by
  unfold removes
  simp only [hdelete, Bool.and_eq_true, Bool.or_eq_true, decide_eq_true_eq,
    List.any_eq_true, and_assoc]

omit [DecidableEq C] [DecidableEq V] in
theorem refuses_iff (hdelete : st.action = .delete) {t : T} {r : Row C V} :
    refuses refs st t r = true ↔ st.hits r = true ∧
      ∃ ref ∈ refs, ref.parent = st.table ∧ ref.cascade = false ∧ ref.child = t := by
  unfold refuses
  simp only [hdelete, Bool.and_eq_true, Bool.not_eq_true', decide_eq_true_eq,
    List.any_eq_true, and_assoc]

omit [DecidableEq C] [DecidableEq V] in
theorem action_of_refuses {t : T} {r : Row C V}
    (h : refuses refs st t r = true) : st.action = .delete := by
  unfold refuses at h
  cases haction : st.action with
  | delete => rfl
  | setNull column =>
      rw [haction] at h
      cases h

omit [DecidableEq T] [DecidableEq C] in
theorem hit_iff_joined (hcons : Consistent refs db) (hkeyed : Keyed refs st)
    {ref : Reference T C} (href : ref ∈ refs) (hparent : ref.parent = st.table)
    {r : Row C V} (hr : r ∈ db ref.child) :
    (hitRows st db).any (ref.joins r) = true ↔ st.hits r = true := by
  obtain ⟨f, hnone, hf⟩ := hkeyed ref href hparent
  rw [List.any_eq_true]
  constructor
  · rintro ⟨parent, hmem, hjoins⟩
    have hhit := (List.mem_filter.mp hmem).2
    rw [hf, (joins_iff.mp hjoins).2, ← hf]
    exact hhit
  · intro hhit
    have hsome : (r ref.key).isSome = true := by
      rw [hf] at hhit
      cases hkey : r ref.key with
      | none =>
          rw [hkey, hnone] at hhit
          cases hhit
      | some key => rfl
    obtain ⟨parent, hmem, hjoins⟩ := hcons ref href r hr hsome
    refine ⟨parent, List.mem_filter.mpr ⟨?_, ?_⟩, hjoins⟩
    · rw [← hparent]
      exact hmem
    · rw [hf, ← (joins_iff.mp hjoins).2, ← hf]
      exact hhit

omit [DecidableEq C] in
theorem refused_iff (hcons : Consistent refs db) (hkeyed : Keyed refs st)
    (hdelete : st.action = .delete) :
    refused refs st db = true ↔ ∃ t, ∃ r ∈ db t, refuses refs st t r = true := by
  unfold refused
  simp only [List.any_eq_true, Bool.and_eq_true, decide_eq_true_eq,
    Bool.not_eq_true', and_assoc]
  constructor
  · rintro ⟨ref, href, hparent, hcascade, r, hr, hjoined⟩
    have hhit := (hit_iff_joined hcons hkeyed href hparent hr).mp
      (List.any_eq_true.mpr hjoined)
    refine ⟨ref.child, r, hr, (refuses_iff hdelete).mpr ⟨hhit, ?_⟩⟩
    exact ⟨ref, href, hparent, hcascade, rfl⟩
  · rintro ⟨t, r, hr, hrefuses⟩
    obtain ⟨hhit, ref, href, hparent, hcascade, rfl⟩ := (refuses_iff hdelete).mp hrefuses
    have hjoined := (hit_iff_joined hcons hkeyed href hparent hr).mpr hhit
    exact ⟨ref, href, hparent, hcascade, r, hr, List.any_eq_true.mp hjoined⟩

omit [DecidableEq C] in
theorem takenAlong_iff (hcons : Consistent refs db) (hkeyed : Keyed refs st)
    {t : T} {r : Row C V} (hr : r ∈ db t) :
    takenAlong refs st db t r = true ↔ st.hits r = true ∧
      ∃ ref ∈ refs, ref.parent = st.table ∧ ref.cascade = true ∧ ref.child = t := by
  unfold takenAlong
  simp only [List.any_eq_true, Bool.and_eq_true, decide_eq_true_eq]
  constructor
  · rintro ⟨ref, href, ⟨⟨hparent, hcascade⟩, rfl⟩, hjoined⟩
    have hhit := (hit_iff_joined hcons hkeyed href hparent hr).mp
      (List.any_eq_true.mpr hjoined)
    exact ⟨hhit, ref, href, hparent, hcascade, rfl⟩
  · rintro ⟨hhit, ref, href, hparent, hcascade, rfl⟩
    have hjoined := (hit_iff_joined hcons hkeyed href hparent hr).mpr hhit
    exact ⟨ref, href, ⟨⟨hparent, hcascade⟩, rfl⟩, List.any_eq_true.mp hjoined⟩

omit [DecidableEq C] in
theorem removes_eq (hcons : Consistent refs db) (hkeyed : Keyed refs st)
    (hdelete : st.action = .delete) {t : T} {r : Row C V} (hr : r ∈ db t) :
    removes refs st t r =
      (decide (t = st.table) && st.hits r || takenAlong refs st db t r) := by
  rw [Bool.eq_iff_iff, Bool.or_eq_true, takenAlong_iff hcons hkeyed hr,
    removes_iff hdelete, Bool.and_eq_true, decide_eq_true_eq]
  constructor
  · rintro ⟨hhit, ht | halong⟩
    · exact Or.inl ⟨ht, hhit⟩
    · exact Or.inr ⟨hhit, halong⟩
  · rintro (⟨ht, hhit⟩ | ⟨hhit, halong⟩)
    · exact ⟨hhit, Or.inl ht⟩
    · exact ⟨hhit, Or.inr halong⟩

theorem mem_exec_delete (hcons : Consistent refs db) (hkeyed : Keyed refs st)
    (hdelete : st.action = .delete) (hrefused : refused refs st db = false)
    {t : T} {r : Row C V} :
    r ∈ ((exec refs st db).getD db) t ↔
      r ∈ db t ∧ removes refs st t r = false := by
  unfold exec
  simp only [hdelete, hrefused, Bool.false_eq_true, if_false, Option.getD_some,
    List.mem_filter]
  apply and_congr_right
  intro hr
  rw [removes_eq hcons hkeyed hdelete hr, Bool.and_eq_true, Bool.not_eq_true',
    Bool.not_eq_true', Bool.or_eq_false_iff]

theorem mem_exec_setNull {column : C} (hset : st.action = .setNull column)
    {t : T} {r : Row C V} :
    r ∈ ((exec refs st db).getD db) t ↔ ∃ old ∈ db t,
      (if t = st.table ∧ st.hits old = true then Function.update old column none
        else old) = r := by
  unfold exec
  simp only [hset, Option.getD_some, List.mem_map]

theorem mem_step_statement (hcons : Consistent refs db)
    (hkeyed : st.action = .delete → Keyed refs st) {fails : Bool}
    (hfree : ∀ t, ∀ r ∈ db t, blocks refs (.statement st fails) t r = false)
    {t : T} {r : Row C V} :
    r ∈ step refs db (.statement st fails) t ↔
      ∃ old ∈ db t, after refs (.statement st fails) t old = some r := by
  unfold step after
  cases fails with
  | true => simp
  | false =>
      simp only [Bool.false_eq_true, if_false]
      cases haction : st.action with
      | setNull column =>
          rw [mem_exec_setNull haction]
          simp
      | delete =>
          have hrefused : refused refs st db = false := by
            rw [← Bool.not_eq_true, refused_iff hcons (hkeyed haction) haction]
            rintro ⟨t, r, hr, hrefuses⟩
            have hblocks := hfree t r hr
            unfold blocks at hblocks
            dsimp only at hblocks
            rw [hrefuses] at hblocks
            cases hblocks
          rw [mem_exec_delete hcons (hkeyed haction) haction hrefused]
          dsimp only
          constructor
          · rintro ⟨hr, hkeeps⟩
            exact ⟨r, hr, by rw [hkeeps]; rfl⟩
          · rintro ⟨old, hold, hleft⟩
            split_ifs at hleft with hremoves
            rw [Option.some.injEq] at hleft
            rw [← hleft]
            exact ⟨hold, by simpa using hremoves⟩

theorem mem_step_commit {replaced : T → Row C V → Bool}
    {added : List (T × Row C V)} {t : T} {r : Row C V} :
    r ∈ step refs db (.commit replaced added) t ↔
      (∃ old ∈ db t, after refs (.commit replaced added) t old = some r) ∨
        (t, r) ∈ added := by
  unfold step after
  simp only [List.mem_append, List.mem_filter, List.mem_map, decide_eq_true_eq]
  apply or_congr
  · constructor
    · rintro ⟨hr, hkept⟩
      exact ⟨r, hr, by simpa using hkept⟩
    · rintro ⟨old, hold, hleft⟩
      split_ifs at hleft with hreplaced
      rw [Option.some.injEq] at hleft
      rw [← hleft]
      exact ⟨hold, by simpa using hreplaced⟩
  · constructor
    · rintro ⟨⟨t', r'⟩, ⟨hmem, rfl⟩, rfl⟩
      exact hmem
    · intro hmem
      exact ⟨(t, r), ⟨hmem, rfl⟩, rfl⟩

theorem step_of_refused (hcons : Consistent refs db) (hkeyed : Keyed refs st)
    {t : T} {r : Row C V} (hr : r ∈ db t)
    (hblocks : blocks refs (.statement st false) t r = true) :
    step refs db (.statement st false) = db := by
  have hrefuses : refuses refs st t r = true := hblocks
  have hdelete := action_of_refuses hrefuses
  have hrefused := (refused_iff hcons hkeyed hdelete).mpr ⟨t, r, hr, hrefuses⟩
  unfold step exec
  simp [hdelete, hrefused]

omit [DecidableEq V] in
theorem after_column {e : Event T C V} {t : T} {old left : Row C V}
    (hleft : after refs e t old = some left) {c : C} (hsome : (left c).isSome = true) :
    left c = old c := by
  unfold after at hleft
  cases e with
  | commit replaced added =>
      dsimp only at hleft
      split_ifs at hleft
      rw [Option.some.inj hleft]
  | statement st fails =>
      cases fails with
      | true => rw [Option.some.inj hleft]
      | false =>
          dsimp only at hleft
          rw [if_neg Bool.false_ne_true] at hleft
          cases haction : st.action with
          | delete =>
              rw [haction] at hleft
              dsimp only at hleft
              split_ifs at hleft
              rw [Option.some.inj hleft]
          | setNull column =>
              rw [haction] at hleft
              dsimp only at hleft
              rw [← Option.some.inj hleft] at hsome ⊢
              split_ifs at hsome ⊢
              · by_cases hcolumn : c = column
                · rw [hcolumn, Function.update_self] at hsome
                  cases hsome
                · exact Function.update_of_ne hcolumn _ _
              · rfl

theorem parent_left (hkeyed : st.action = .delete → Keyed refs st)
    (hflat : ∀ ref ∈ refs, ∀ ref' ∈ refs, ref.child ≠ ref'.parent)
    (hkeeps : ∀ column, st.action = .setNull column → ∀ ref ∈ refs,
      ref.parent = st.table → ref.key ≠ column)
    {ref : Reference T C} (href : ref ∈ refs) {old left parent : Row C V}
    (hfree : blocks refs (.statement st false) ref.child old = false)
    (hleft : after refs (.statement st false) ref.child old = some left)
    (hjoins : ref.joins old parent = true) :
    ∃ kept, after refs (.statement st false) ref.parent parent = some kept ∧
      kept ref.key = parent ref.key := by
  unfold blocks at hfree
  unfold after at hleft ⊢
  dsimp only at hfree hleft ⊢
  rw [Bool.not_false, Bool.true_and] at hfree
  rw [if_neg Bool.false_ne_true] at hleft ⊢
  cases haction : st.action with
  | setNull column =>
      refine ⟨_, rfl, ?_⟩
      split_ifs with hhit
      · exact Function.update_of_ne (hkeeps column haction ref href hhit.1) _ _
      · rfl
  | delete =>
      have hstays : removes refs st ref.parent parent = false := by
        rw [← Bool.not_eq_true, removes_iff haction]
        rintro ⟨hhit, htable | ⟨other, hother, -, -, hchild⟩⟩
        · -- the parent is hit, and the row that refers to it with it
          obtain ⟨f, -, hf⟩ := hkeyed haction ref href htable
          have hhitOld : st.hits old = true := by
            rw [hf, (joins_iff.mp hjoins).2, ← hf]
            exact hhit
          rw [haction] at hleft
          cases hcascade : ref.cascade with
          | true =>
              have hgone := (removes_iff haction).mpr
                ⟨hhitOld, Or.inr ⟨ref, href, htable, hcascade, rfl⟩⟩
              rw [hgone] at hleft
              cases hleft
          | false =>
              have hrefuses := (refuses_iff haction).mpr
                ⟨hhitOld, ref, href, htable, hcascade, rfl⟩
              rw [hrefuses] at hfree
              cases hfree
        · exact hflat other hother ref href hchild
      exact ⟨parent, by rw [hstays]; rfl, rfl⟩

theorem step_consistent (hcons : Consistent refs db)
    (hkeyed : st.action = .delete → Keyed refs st)
    (hflat : ∀ ref ∈ refs, ∀ ref' ∈ refs, ref.child ≠ ref'.parent)
    (hkeeps : ∀ column, st.action = .setNull column → ∀ ref ∈ refs,
      ref.parent = st.table → ref.key ≠ column)
    (hfree : ∀ t, ∀ r ∈ db t, blocks refs (.statement st false) t r = false) :
    Consistent refs (step refs db (.statement st false)) := by
  intro ref href child hchild hsome
  obtain ⟨old, hold, hleft⟩ := (mem_step_statement hcons hkeyed hfree).mp hchild
  have hkey := after_column hleft hsome
  rw [hkey] at hsome
  obtain ⟨parent, hmem, hjoins⟩ := hcons ref href old hold hsome
  obtain ⟨kept, hkept, hkeptKey⟩ := parent_left hkeyed hflat hkeeps href
    (hfree ref.child old hold) hleft hjoins
  refine ⟨kept, (mem_step_statement hcons hkeyed hfree).mpr ⟨parent, hmem, hkept⟩,
    joins_iff.mpr ⟨?_, ?_⟩⟩
  · rw [hkey]
    exact hsome
  · rw [hkey, hkeptKey]
    exact (joins_iff.mp hjoins).2

/-! ## Runs -/

omit [DecidableEq T] [DecidableEq C] [DecidableEq V] in
theorem statements_append (events events' : List (Event T C V)) :
    statements (events ++ events') = statements events ++ statements events' :=
  List.filterMap_append

theorem run_cons (e : Event T C V) (events : List (Event T C V)) :
    run refs db (e :: events) = run refs (step refs db e) events := by
  rfl

theorem step_other_table {t : T} (ht : st.table ≠ t)
    (hchild : ∀ ref ∈ refs, ref.child ≠ t) (fails : Bool) :
    step refs db (.statement st fails) t = db t := by
  have halong (r : Row C V) : takenAlong refs st db t r = false := by
    unfold takenAlong
    rw [List.any_eq_false]
    intro ref href
    simp [hchild ref href]
  unfold step exec
  cases fails with
  | true => rfl
  | false =>
      cases haction : st.action with
      | delete =>
          cases hrefused : refused refs st db with
          | true => simp [haction, hrefused]
          | false => simp [haction, hrefused, halong, Ne.symm ht]
      | setNull column => simp [haction, Ne.symm ht]

omit [DecidableEq T] [DecidableEq C] [DecidableEq V] in
theorem hits_of_key (hkeyed : Keyed refs st) {ref : Reference T C}
    (href : ref ∈ refs) (hparent : ref.parent = st.table) {r r' : Row C V}
    (hkey : r ref.key = r' ref.key) : st.hits r = st.hits r' := by
  obtain ⟨f, -, hf⟩ := hkeyed ref href hparent
  rw [hf, hf, hkey]

theorem hit_row_stays {ref : Reference T C} (href : ref ∈ refs)
    (hparent : ref.parent = st.table) (hkeyed : Keyed refs st)
    (hflat : ∀ ref ∈ refs, ∀ ref' ∈ refs, ref.child ≠ ref'.parent)
    {events : List (Event T C V)}
    (hlast : ∀ later ∈ statements events, later.table ≠ st.table)
    (hlegal : Legal refs db events) (hhit : ∃ r ∈ db st.table, st.hits r = true) :
    ∃ r ∈ run refs db events st.table, st.hits r = true := by
  induction events generalizing db with
  | nil => exact hhit
  | cons e events ih =>
      cases e with
      | commit replaced added =>
          obtain ⟨-, hkeeps, hrest⟩ := hlegal
          apply ih hlast hrest
          obtain ⟨r, hr, hr'⟩ := hhit
          rw [← hparent] at hr ⊢
          obtain ⟨kept, hkept, hkey⟩ := hkeeps ref href r hr
          refine ⟨kept, hkept, ?_⟩
          rw [hits_of_key hkeyed href hparent hkey]
          exact hr'
      | statement later fails =>
          have hother : later.table ≠ st.table := hlast later List.mem_cons_self
          have hchild : ∀ ref' ∈ refs, ref'.child ≠ st.table := by
            intro ref' href'
            rw [← hparent]
            exact hflat ref' href' ref href
          apply ih (fun st' hst' => hlast st' (List.mem_cons_of_mem later hst')) hlegal
          rw [step_other_table hother hchild]
          exact hhit

def AllSettle (refs : List (Reference T C)) (marked : T → Row C V → Bool)
    (db : Database T C V) (events : List (Event T C V)) : Prop :=
  (∀ t, ∀ r ∈ db t, Settles refs marked events t r) ∧
    AddedSettle refs marked events

omit [DecidableEq T] [DecidableEq C] [DecidableEq V] in
theorem Sweep.keyedAt {marked : T → Row C V → Bool} {sts : List (Statement T C V)}
    (h : Sweep refs marked sts) (hst : st ∈ sts) (hdelete : st.action = .delete) :
    Keyed refs st := by
  intro ref href hparent
  exact h.keyed st hst hdelete ref href hparent

omit [DecidableEq T] [DecidableEq C] [DecidableEq V] in
theorem Sweep.tail {marked : T → Row C V → Bool} {sts : List (Statement T C V)}
    (h : Sweep refs marked (st :: sts)) : Sweep refs marked sts where
  flat := h.flat
  keyed := fun later hlater => h.keyed later (List.mem_cons_of_mem st hlater)
  keeps := fun later hlater => h.keeps later (List.mem_cons_of_mem st hlater)
  marks := fun later hlater => h.marks later (List.mem_cons_of_mem st hlater)
  last := (List.pairwise_cons.mp h.last).2

variable {marked : T → Row C V → Bool}

theorem marked_of_refused {events : List (Event T C V)}
    (hsweep : Sweep refs marked (st :: statements events))
    (hcons : Consistent refs db) (hlegal : Legal refs db events) {t : T}
    {r : Row C V} (hr : r ∈ db t) (hrefuses : refuses refs st t r = true) :
    ∃ left ∈ run refs db events st.table, marked st.table left = true := by
  have hdelete : st.action = .delete := action_of_refuses hrefuses
  have hkeyed : Keyed refs st := hsweep.keyedAt List.mem_cons_self hdelete
  obtain ⟨hhit, ref, href, hparent, hcascade, rfl⟩ := (refuses_iff hdelete).mp hrefuses
  have hjoined := (hit_iff_joined hcons hkeyed href hparent hr).mpr hhit
  obtain ⟨parent, hmem, -⟩ := List.any_eq_true.mp hjoined
  have hrefusable : Refusable refs st := ⟨hdelete, ref, href, hparent, hcascade⟩
  have hlast : ∀ later ∈ statements events, later.table ≠ st.table := by
    intro later hlater
    exact (List.pairwise_cons.mp hsweep.last).1 later hlater hrefusable
  obtain ⟨left, hleft, hleftHit⟩ := hit_row_stays href hparent hkeyed hsweep.flat
    hlast hlegal ⟨parent, List.mem_filter.mp hmem⟩
  exact ⟨left, hleft, hsweep.marks st List.mem_cons_self hrefusable left hleftHit⟩

theorem allSettle_commit {replaced : T → Row C V → Bool}
    {added : List (T × Row C V)} {events : List (Event T C V)} :
    AllSettle refs marked db (.commit replaced added :: events) ↔
      AllSettle refs marked (step refs db (.commit replaced added)) events := by
  unfold AllSettle
  constructor
  · rintro ⟨hrows, hnew, hadded⟩
    refine ⟨?_, hadded⟩
    intro t r hr
    rcases mem_step_commit.mp hr with ⟨old, hold, hleft⟩ | hx
    · exact (hrows t old hold).2 r hleft
    · exact hnew (t, r) hx
  · rintro ⟨hrows, hadded⟩
    refine ⟨?_, ?_, hadded⟩
    · intro t r hr
      refine ⟨rfl, ?_⟩
      intro left hleft
      exact hrows t left (mem_step_commit.mpr (Or.inl ⟨r, hr, hleft⟩))
    · intro x hx
      exact hrows x.1 x.2 (mem_step_commit.mpr (Or.inr hx))

theorem allSettle_statement (hcons : Consistent refs db)
    (hkeyed : st.action = .delete → Keyed refs st) {fails : Bool}
    (hfree : ∀ t, ∀ r ∈ db t, blocks refs (.statement st fails) t r = false)
    {events : List (Event T C V)} :
    AllSettle refs marked db (.statement st fails :: events) ↔
      AllSettle refs marked (step refs db (.statement st fails)) events := by
  unfold AllSettle
  constructor
  · rintro ⟨hrows, hadded⟩
    refine ⟨?_, hadded⟩
    intro t r hr
    obtain ⟨old, hold, hleft⟩ := (mem_step_statement hcons hkeyed hfree).mp hr
    exact (hrows t old hold).2 r hleft
  · rintro ⟨hrows, hadded⟩
    refine ⟨?_, hadded⟩
    intro t r hr
    refine ⟨hfree t r hr, ?_⟩
    intro left hleft
    exact hrows t left ((mem_step_statement hcons hkeyed hfree).mpr ⟨r, hr, hleft⟩)

theorem clean_run_iff {events : List (Event T C V)}
    (hsweep : Sweep refs marked (statements events)) (hcons : Consistent refs db)
    (hlegal : Legal refs db events) :
    (∀ t, ∀ r ∈ run refs db events t, marked t r = false) ↔
      AllSettle refs marked db events := by
  induction events generalizing db with
  | nil =>
      constructor
      · intro hclean
        exact ⟨hclean, trivial⟩
      · intro hsettle
        exact hsettle.1
  | cons e events ih =>
      cases e with
      | commit replaced added =>
          obtain ⟨hcons', -, hrest⟩ := hlegal
          rw [run_cons, ih hsweep hcons' hrest, allSettle_commit]
      | statement st fails =>
          have hst : st ∈ statements (.statement st fails :: events) :=
            List.mem_cons_self
          have hkeyed : st.action = .delete → Keyed refs st := hsweep.keyedAt hst
          rw [run_cons]
          by_cases hfree : ∀ t, ∀ r ∈ db t,
              blocks refs (.statement st fails) t r = false
          · have hcons' : Consistent refs (step refs db (.statement st fails)) := by
              cases fails with
              | true => exact hcons
              | false =>
                  exact step_consistent hcons hkeyed hsweep.flat
                    (hsweep.keeps st hst) hfree
            rw [ih hsweep.tail hcons' hlegal, allSettle_statement hcons hkeyed hfree]
          · -- the delete is refused, and the rows it is for stay
            push Not at hfree
            obtain ⟨t, r, hr, hblocks⟩ := hfree
            rw [Ne, Bool.not_eq_false] at hblocks
            constructor
            · intro hclean
              cases fails with
              | true => cases hblocks
              | false =>
                  have hrefuses : refuses refs st t r = true := hblocks
                  have hsame := step_of_refused hcons
                    (hkeyed (action_of_refuses hrefuses)) hr hblocks
                  have hrest : Legal refs db events := by
                    rw [← hsame]
                    exact hlegal
                  rw [hsame] at hclean
                  obtain ⟨left, hleft, hmarked⟩ :=
                    marked_of_refused hsweep hcons hrest hr hrefuses
                  rw [hclean st.table left hleft] at hmarked
                  cases hmarked
            · rintro ⟨hrows, -⟩
              have hfree := (hrows t r hr).1
              rw [hblocks] at hfree
              cases hfree

omit [DecidableEq V] in
theorem settles_cons (e : Event T C V) (events : List (Event T C V)) (t : T)
    (r : Row C V) :
    Settles refs marked (e :: events) t r ↔ blocks refs e t r = false ∧
      ∀ left, after refs e t r = some left → Settles refs marked events t left := by
  rfl

omit [DecidableEq V] in
theorem after_delete (hdelete : st.action = .delete) (t : T) (r : Row C V) :
    after refs (.statement st false) t r =
      if removes refs st t r then none else some r := by
  unfold after
  simp [hdelete]

omit [DecidableEq V] in
theorem settles_delete (hdelete : st.action = .delete)
    (hcascades : ∀ ref ∈ refs, ref.parent = st.table → ref.cascade = true)
    {events : List (Event T C V)} {t : T} {r : Row C V} :
    Settles refs marked (.statement st false :: events) t r ↔
      (st.hits r = true ∧ (t = st.table ∨
        ∃ ref ∈ refs, ref.parent = st.table ∧ ref.cascade = true ∧ ref.child = t)) ∨
        Settles refs marked events t r := by
  have hblocks : blocks refs (.statement st false) t r = false := by
    change refuses refs st t r = false
    rw [← Bool.not_eq_true, refuses_iff hdelete]
    rintro ⟨-, ref, href, hparent, hkeeps, -⟩
    rw [hcascades ref href hparent] at hkeeps
    cases hkeeps
  rw [settles_cons, hblocks, after_delete hdelete, ← removes_iff hdelete]
  cases removes refs st t r with
  | true => simp
  | false => simp

omit [DecidableEq V] in
theorem settles_delete_leaf (hdelete : st.action = .delete)
    (hleaf : ∀ ref ∈ refs, ref.parent ≠ st.table) {events : List (Event T C V)}
    {t : T} {r : Row C V} :
    Settles refs marked (.statement st false :: events) t r ↔
      (t = st.table ∧ st.hits r = true) ∨ Settles refs marked events t r := by
  rw [settles_delete hdelete fun ref href hparent => absurd hparent (hleaf ref href)]
  apply or_congr_left
  constructor
  · rintro ⟨hhit, ht | ⟨ref, href, hparent, -⟩⟩
    · exact ⟨ht, hhit⟩
    · exact absurd hparent (hleaf ref href)
  · rintro ⟨ht, hhit⟩
    exact ⟨hhit, Or.inl ht⟩

omit [DecidableEq V] in
theorem settles_setNull {column : C} (hset : st.action = .setNull column)
    {events : List (Event T C V)} {t : T} {r : Row C V} :
    Settles refs marked (.statement st false :: events) t r ↔
      Settles refs marked events t
        (if t = st.table ∧ st.hits r = true then Function.update r column none
          else r) := by
  have hblocks : blocks refs (.statement st false) t r = false := by
    change refuses refs st t r = false
    unfold refuses
    rw [hset]
  rw [settles_cons, hblocks]
  unfold after
  simp [hset]

omit [DecidableEq V] in
theorem settles_delete_miss (hdelete : st.action = .delete) {r : Row C V}
    (hmiss : st.hits r = false) {events : List (Event T C V)} {t : T} :
    Settles refs marked (.statement st false :: events) t r ↔
      Settles refs marked events t r := by
  have hblocks : blocks refs (.statement st false) t r = false := by
    change refuses refs st t r = false
    rw [← Bool.not_eq_true, refuses_iff hdelete, hmiss]
    simp
  have hkeeps : removes refs st t r = false := by
    rw [← Bool.not_eq_true, removes_iff hdelete, hmiss]
    simp
  rw [settles_cons, hblocks, after_delete hdelete, hkeeps]
  simp

end Steps

end Tables

end GrServer
