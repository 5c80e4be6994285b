import GrServer.SortedMap

/-!
# JSON values

The values of `serde_json`.  An object is a member list; `serde_json::Map` is
a `BTreeMap` in this build, so its members stand in key order, and `Fields` is
that map as a type of its own.  A float member is its exact rational value:
JSON text has no infinities and no NaN.
-/

namespace GrServer

/-- A JSON number: an integer of the `i64`/`u64` range, or a finite float. -/
inductive JsonNum where
  | int (n : ℤ)
  | float (q : ℚ)
  deriving DecidableEq

inductive Json where
  | null
  | bool (b : Bool)
  | num (n : JsonNum)
  | str (s : String)
  | arr (items : List Json)
  | obj (members : List (String × Json))

abbrev Fields := SortedMap String Json

namespace Json

mutual

def decEq : (a b : Json) → Decidable (a = b)
  | .null, .null => isTrue rfl
  | .bool a, .bool b => decidable_of_iff (a = b) (by simp)
  | .num a, .num b => decidable_of_iff (a = b) (by simp)
  | .str a, .str b => decidable_of_iff (a = b) (by simp)
  | .arr a, .arr b => @decidable_of_iff _ (a = b) (by simp) (decEqItems a b)
  | .obj a, .obj b => @decidable_of_iff _ (a = b) (by simp) (decEqMembers a b)
  | .null, .bool _ | .null, .num _ | .null, .str _ | .null, .arr _
  | .null, .obj _ => isFalse nofun
  | .bool _, .null | .bool _, .num _ | .bool _, .str _ | .bool _, .arr _
  | .bool _, .obj _ => isFalse nofun
  | .num _, .null | .num _, .bool _ | .num _, .str _ | .num _, .arr _
  | .num _, .obj _ => isFalse nofun
  | .str _, .null | .str _, .bool _ | .str _, .num _ | .str _, .arr _
  | .str _, .obj _ => isFalse nofun
  | .arr _, .null | .arr _, .bool _ | .arr _, .num _ | .arr _, .str _
  | .arr _, .obj _ => isFalse nofun
  | .obj _, .null | .obj _, .bool _ | .obj _, .num _ | .obj _, .str _
  | .obj _, .arr _ => isFalse nofun

def decEqItems : (a b : List Json) → Decidable (a = b)
  | [], [] => isTrue rfl
  | [], _ :: _ => isFalse nofun
  | _ :: _, [] => isFalse nofun
  | a :: as, b :: bs =>
      @decidable_of_iff _ (a = b ∧ as = bs) (by simp)
        (@instDecidableAnd _ _ (decEq a b) (decEqItems as bs))

def decEqMembers : (a b : List (String × Json)) → Decidable (a = b)
  | [], [] => isTrue rfl
  | [], _ :: _ => isFalse nofun
  | _ :: _, [] => isFalse nofun
  | (k, a) :: as, (j, b) :: bs =>
      @decidable_of_iff _ (k = j ∧ a = b ∧ as = bs) (by simp [and_assoc])
        (@instDecidableAnd _ _ inferInstance
          (@instDecidableAnd _ _ (decEq a b) (decEqMembers as bs)))

end

instance : DecidableEq Json := decEq

@[elab_as_elim] theorem induct {motive : Json → Prop} (null : motive .null)
    (bool : ∀ b, motive (.bool b)) (num : ∀ n, motive (.num n)) (str : ∀ s, motive (.str s))
    (arr : ∀ items, (∀ v ∈ items, motive v) → motive (.arr items))
    (obj : ∀ members, (∀ m ∈ members, motive m.2) → motive (.obj members)) : ∀ v, motive v
  | .null => null
  | .bool b => bool b
  | .num n => num n
  | .str s => str s
  | .arr items => arr items fun v _ => induct null bool num str arr obj v
  | .obj members => obj members fun m _ => induct null bool num str arr obj m.2
termination_by v => sizeOf v
decreasing_by
  · have hlt := List.sizeOf_lt_of_mem ‹v ∈ items›
    simp only [Json.arr.sizeOf_spec]
    omega
  · have hlt := List.sizeOf_lt_of_mem ‹m ∈ members›
    obtain ⟨k, v⟩ := m
    simp only [Prod.mk.sizeOf_spec] at hlt
    simp only [Json.obj.sizeOf_spec]
    omega

def ofInt (n : ℤ) : Json := .num (.int n)

def get? (v : Json) (k : String) : Option Json :=
  match v with
  | .obj members => Assoc.find? k members
  | _ => none

/-- `Value::pointer` with its reference tokens already split; no caller's
token is an array index. -/
def pointer (v : Json) : List String → Option Json
  | [] => some v
  | token :: rest => (v.get? token).bind fun w => pointer w rest

def asStr : Json → Option String
  | .str s => some s
  | _ => none

def asBool : Json → Option Bool
  | .bool b => some b
  | _ => none

def asArray : Json → Option (List Json)
  | .arr items => some items
  | _ => none

def asObject : Json → Option Fields
  | .obj members => some (SortedMap.ofEntries members)
  | _ => none

/-- `Value::as_i64`: integers of the `i64` range only. -/
def asI64 : Json → Option ℤ
  | .num (.int n) => if -2 ^ 63 ≤ n ∧ n < 2 ^ 63 then some n else none
  | _ => none

/-- `Value::as_u64`: integers of the `u64` range only. -/
def asU64 : Json → Option ℕ
  | .num (.int n) => if 0 ≤ n ∧ n < 2 ^ 64 then some n.toNat else none
  | _ => none

def asF64 : Json → Option ℚ
  | .num (.int n) => some n
  | .num (.float q) => some q
  | _ => none

def isNull : Json → Bool
  | .null => true
  | _ => false

def ofFields (m : Fields) : Json := .obj m.entries

def strOr (v : Json) (k : String) : String :=
  ((v.get? k).bind asStr).getD ""

def boolOr (v : Json) (k : String) : Bool :=
  ((v.get? k).bind asBool).getD false

def i64Or (v : Json) (k : String) (d : ℤ) : ℤ :=
  ((v.get? k).bind asI64).getD d

def setMember (v : Json) (k : String) (w : Json) : Json :=
  match v with
  | .obj members => .obj (Assoc.insert k w members)
  | _ => v

@[simp] theorem asStr_str (s : String) : asStr (.str s) = some s := rfl

theorem asI64_ofInt {n : ℤ} (h : -2 ^ 63 ≤ n ∧ n < 2 ^ 63) :
    asI64 (ofInt n) = some n :=
  if_pos h

theorem asU64_ofInt {n : ℤ} (h : 0 ≤ n ∧ n < 2 ^ 64) :
    asU64 (ofInt n) = some n.toNat :=
  if_pos h

theorem strOr_of_get? {v : Json} {k s : String} (h : v.get? k = some (.str s)) :
    v.strOr k = s := by
  unfold strOr
  rw [h, Option.bind_some, asStr_str, Option.getD_some]

theorem i64Or_of_get? {v : Json} {k : String} {n d : ℤ}
    (h : v.get? k = some (ofInt n)) (hrange : -2 ^ 63 ≤ n ∧ n < 2 ^ 63) :
    v.i64Or k d = n := by
  unfold i64Or
  rw [h, Option.bind_some, asI64_ofInt hrange, Option.getD_some]

@[simp] theorem get?_obj (members : List (String × Json)) (k : String) :
    (Json.obj members).get? k = Assoc.find? k members := rfl

theorem pointer_cons (v : Json) (token : String) (rest : List String) :
    v.pointer (token :: rest) = (v.get? token).bind fun w => w.pointer rest := rfl

@[simp] theorem get?_ofFields (m : Fields) (k : String) :
    (ofFields m).get? k = m.get? k := rfl

@[simp] theorem asObject_ofFields_get? (m : Fields) :
    asObject (ofFields m) = some (SortedMap.ofEntries m.entries) := rfl

theorem get?_of_asObject {v : Json} {m : Fields} (h : v.asObject = some m)
    (k : String) : v.get? k = m.get? k := by
  cases v with
  | obj members =>
      simp only [asObject, Option.some.injEq] at h
      subst h
      simp
  | _ => simp [asObject] at h

theorem get?_setMember (members : List (String × Json)) (k j : String)
    (w : Json) :
    ((Json.obj members).setMember k w).get? j =
      if j = k then some w else (Json.obj members).get? j :=
  Assoc.find?_insert k j w members

end Json

end GrServer
