import GrServer.Json

/-!
# JSON values by path

A value is known by what stands at each of its paths, as long as its objects
are in key order.  `strip` leaves out the members of hidden names at every
depth, which removes exactly the paths that go through such a name.
-/

namespace GrServer

namespace Json

inductive Step where
  | key (k : String)
  | item (i : ℕ)

def at? : Json → List Step → Option Json
  | v, [] => some v
  | .obj members, .key k :: rest => (Assoc.find? k members).bind fun v => at? v rest
  | .arr items, .item i :: rest => items[i]?.bind fun v => at? v rest
  | _, _ :: _ => none

inductive Head where
  | scalar (v : Json)
  | array
  | object

def head : Json → Head
  | .arr _ => .array
  | .obj _ => .object
  | v => .scalar v

def headAt (v : Json) (p : List Step) : Option Head := (at? v p).map head

/-! ## Canonical values -/

/-- Every object stands in key order, as `serde_json` keeps it. -/
inductive Canonical : Json → Prop where
  | null : Canonical .null
  | bool (b : Bool) : Canonical (.bool b)
  | num (n : JsonNum) : Canonical (.num n)
  | str (s : String) : Canonical (.str s)
  | arr {items : List Json} (hitems : ∀ v ∈ items, Canonical v) : Canonical (.arr items)
  | obj {members : List (String × Json)} (hsorted : Assoc.Sorted members)
      (hmembers : ∀ entry ∈ members, Canonical entry.2) : Canonical (.obj members)

theorem Canonical.items {items : List Json} (h : Canonical (.arr items)) :
    ∀ v ∈ items, Canonical v := by
  cases h with
  | arr hitems => exact hitems

theorem Canonical.sorted {members : List (String × Json)} (h : Canonical (.obj members)) :
    Assoc.Sorted members := by
  cases h with
  | obj hsorted _ => exact hsorted

theorem Canonical.members {members : List (String × Json)} (h : Canonical (.obj members)) :
    ∀ entry ∈ members, Canonical entry.2 := by
  cases h with
  | obj _ hmembers => exact hmembers

theorem sizeOf_lt_of_find? {k : String} {v : Json} {members : List (String × Json)}
    (h : Assoc.find? k members = some v) : sizeOf v < sizeOf (Json.obj members) := by
  have hmem := List.sizeOf_lt_of_mem (Assoc.mem_of_find? h)
  simp only [Prod.mk.sizeOf_spec] at hmem
  simp only [Json.obj.sizeOf_spec]
  omega

theorem sizeOf_lt_of_getElem? {i : ℕ} {v : Json} {items : List Json}
    (h : items[i]? = some v) : sizeOf v < sizeOf (Json.arr items) := by
  have hmem := List.sizeOf_lt_of_mem (List.mem_of_getElem? h)
  simp only [Json.arr.sizeOf_spec]
  omega

@[simp] theorem headAt_nil (v : Json) : headAt v [] = some v.head := rfl

theorem headAt_key (members : List (String × Json)) (k : String) (rest : List Step) :
    headAt (.obj members) (.key k :: rest) =
      (Assoc.find? k members).bind fun v => headAt v rest := by
  unfold headAt
  rw [at?, Option.map_bind]
  rfl

theorem headAt_item (items : List Json) (i : ℕ) (rest : List Step) :
    headAt (.arr items) (.item i :: rest) = items[i]?.bind fun v => headAt v rest := by
  unfold headAt
  rw [at?, Option.map_bind]
  rfl

theorem eq_of_bind_headAt {a b : Option Json}
    (h : ∀ p, (a.bind fun v => headAt v p) = b.bind fun v => headAt v p)
    (hext : ∀ v w, a = some v → b = some w → (∀ p, headAt v p = headAt w p) → v = w) :
    a = b := by
  have hnil := h []
  cases a with
  | none =>
      cases b with
      | none => rfl
      | some w => simp at hnil
  | some v =>
      cases b with
      | none => simp at hnil
      | some w => exact congrArg some (hext v w rfl rfl h)

theorem Canonical.ext {a b : Json} (ha : Canonical a) (hb : Canonical b)
    (h : ∀ p, headAt a p = headAt b p) : a = b := by
  have hhead : a.head = b.head := by simpa using h []
  cases a with
  | obj members =>
      cases b with
      | obj others =>
          have hfind : ∀ k, Assoc.find? k members = Assoc.find? k others := by
            intro k
            apply eq_of_bind_headAt
            · intro p
              have hkey := h (.key k :: p)
              rwa [headAt_key, headAt_key] at hkey
            · intro v w hv hw hvw
              have hlt := sizeOf_lt_of_find? hv
              exact Canonical.ext (ha.members _ (Assoc.mem_of_find? hv))
                (hb.members _ (Assoc.mem_of_find? hw)) hvw
          rw [Assoc.Sorted.ext ha.sorted hb.sorted hfind]
      | _ => cases hhead
  | arr items =>
      cases b with
      | arr others =>
          congr 1
          apply List.ext_getElem?
          intro i
          apply eq_of_bind_headAt
          · intro p
            have hitem := h (.item i :: p)
            rwa [headAt_item, headAt_item] at hitem
          · intro v w hv hw hvw
            have hlt := sizeOf_lt_of_getElem? hv
            exact Canonical.ext (ha.items _ (List.mem_of_getElem? hv))
              (hb.items _ (List.mem_of_getElem? hw)) hvw
      | _ => cases hhead
  | _ => cases b <;> simp_all [head]
termination_by sizeOf a

/-! ## Hidden members -/

section Strip

variable (hidden : String → Bool)

mutual

/-- Leave out the members of hidden names, at every depth. -/
def strip : Json → Json
  | .null => .null
  | .bool b => .bool b
  | .num n => .num n
  | .str s => .str s
  | .arr items => .arr (stripItems items)
  | .obj members => .obj (stripMembers members)

def stripItems : List Json → List Json
  | [] => []
  | v :: rest => strip v :: stripItems rest

def stripMembers : List (String × Json) → List (String × Json)
  | [] => []
  | (k, v) :: rest =>
      if hidden k then stripMembers rest else (k, strip v) :: stripMembers rest

end

def Step.plain : Step → Bool
  | .key k => !hidden k
  | .item _ => true

/-- No step of the path goes through a hidden name. -/
def plain (p : List Step) : Bool := p.all (Step.plain hidden)

variable {hidden}

theorem stripItems_eq (items : List Json) : stripItems hidden items = items.map (strip hidden) := by
  induction items with
  | nil => rfl
  | cons v rest ih => rw [stripItems, ih, List.map_cons]

theorem stripMembers_eq (members : List (String × Json)) :
    stripMembers hidden members =
      (members.filter fun entry => !hidden entry.1).map fun entry =>
        (entry.1, strip hidden entry.2) := by
  induction members with
  | nil => rfl
  | cons entry rest ih =>
      rw [stripMembers, ih, List.filter_cons]
      cases hidden entry.1 <;> rfl

theorem find?_stripMembers (k : String) (members : List (String × Json)) :
    Assoc.find? k (stripMembers hidden members) =
      if hidden k then none else (Assoc.find? k members).map (strip hidden) := by
  induction members with
  | nil => simp [stripMembers]
  | cons entry rest ih =>
      obtain ⟨k', v⟩ := entry
      rw [stripMembers, Assoc.find?]
      by_cases hname : hidden k' = true
      · rw [if_pos hname, ih]
        by_cases hk : k = k'
        · rw [hk, if_pos hname, if_pos hname]
        · rw [if_neg hk]
      · rw [if_neg hname, Assoc.find?, ih]
        by_cases hk : k = k'
        · rw [hk, if_pos rfl, if_neg hname, if_pos rfl, Option.map_some]
        · rw [if_neg hk, if_neg hk]

theorem head_strip (v : Json) : (strip hidden v).head = v.head := by
  cases v <;> rfl

theorem headAt_strip (v : Json) (p : List Step) :
    headAt (strip hidden v) p = if plain hidden p then headAt v p else none := by
  induction p generalizing v with
  | nil => simp [plain, head_strip]
  | cons step rest ih =>
      have hplain : plain hidden (step :: rest) = (Step.plain hidden step && plain hidden rest) :=
        rfl
      cases v with
      | obj members =>
          cases step with
          | key k =>
              rw [strip, headAt_key, headAt_key, find?_stripMembers, hplain]
              by_cases hname : hidden k = true
              · simp [Step.plain, hname]
              · cases hfind : Assoc.find? k members <;> simp [Step.plain, hname, ih]
          | item i => simp [strip, headAt, at?]
      | arr items =>
          cases step with
          | key k => simp [strip, headAt, at?]
          | item i =>
              rw [strip, headAt_item, headAt_item, stripItems_eq, List.getElem?_map, hplain]
              cases hitem : items[i]? <;> simp [Step.plain, ih]
      | _ => simp [strip, headAt, at?]

theorem sorted_stripMembers {members : List (String × Json)} (h : Assoc.Sorted members) :
    Assoc.Sorted (stripMembers hidden members) := by
  have hkeys : Assoc.keys (stripMembers hidden members) =
      Assoc.keys (members.filter fun entry => !hidden entry.1) := by
    rw [stripMembers_eq]
    simp [Assoc.keys, Function.comp_def]
  unfold Assoc.Sorted
  rw [hkeys]
  exact h.sublist (List.Sublist.map Prod.fst List.filter_sublist)

theorem Canonical.strip {v : Json} (h : Canonical v) : Canonical (strip hidden v) := by
  induction h with
  | arr hitems ih =>
      rw [Json.strip, stripItems_eq]
      apply Canonical.arr
      intro w hw
      obtain ⟨v, hv, rfl⟩ := List.mem_map.mp hw
      exact ih v hv
  | obj hsorted hmembers ih =>
      rw [Json.strip]
      apply Canonical.obj (sorted_stripMembers hsorted)
      rw [stripMembers_eq]
      intro entry hentry
      obtain ⟨source, hsource, rfl⟩ := List.mem_map.mp hentry
      exact ih source (List.mem_of_mem_filter hsource)
  | null => exact .null
  | bool b => exact .bool b
  | num n => exact .num n
  | str s => exact .str s

theorem strip_eq_iff {a b : Json} (ha : Canonical a) (hb : Canonical b) :
    strip hidden a = strip hidden b ↔ ∀ p, plain hidden p = true → headAt a p = headAt b p := by
  constructor
  · intro h p hp
    have hat := congrArg (fun v => headAt v p) h
    simpa [headAt_strip, hp] using hat
  · intro h
    apply Canonical.ext ha.strip hb.strip
    intro p
    rw [headAt_strip, headAt_strip]
    by_cases hp : plain hidden p = true
    · rw [if_pos hp, if_pos hp, h p hp]
    · rw [if_neg hp, if_neg hp]

theorem stripMembers_congr {members others : List (String × Json)} (h : Assoc.Sorted members)
    (h' : Assoc.Sorted others)
    (hfind : ∀ k, hidden k = false →
      (Assoc.find? k members).map (strip hidden) = (Assoc.find? k others).map (strip hidden)) :
    stripMembers hidden members = stripMembers hidden others := by
  apply (sorted_stripMembers h).ext (sorted_stripMembers h')
  intro k
  rw [find?_stripMembers, find?_stripMembers]
  by_cases hname : hidden k = true
  · rw [if_pos hname, if_pos hname]
  · rw [if_neg hname, if_neg hname, hfind k (Bool.eq_false_iff.mpr hname)]

end Strip

end Json

end GrServer
