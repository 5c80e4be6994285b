import GrServer.Json
import GrServer.Text

/-!
# Compact JSON text

The compact printer of `serde_json`.  How a float prints is a parameter: digits
with a point or an exponent, and no two floats alike.  A text followed by a
character that no number holds gives back its value and what follows it.
-/

namespace GrServer

open Text

namespace Json

/-! ## The printer -/

def isNumberChar (c : Char) : Bool :=
  c.isDigit || c = '-' || c = '+' || c = '.' || c = 'e' || c = 'E'

/-- The shortest text of a finite float that reads back as the same float. -/
structure FloatText where
  text : ℚ → Text
  numeric : ∀ q, ∀ c ∈ text q, isNumberChar c = true
  notInteger : ∀ q, '.' ∈ text q ∨ 'e' ∈ text q
  inj : ∀ q q', text q = text q' → q = q'

def shortEscapes : List (Char × Char) :=
  [('"', '"'), ('\\', '\\'), ('\x08', 'b'), ('\x0c', 'f'), ('\n', 'n'), ('\r', 'r'),
    ('\t', 't')]

def shortEscape (c : Char) : Option Char :=
  (shortEscapes.find? fun p => p.1 = c).map Prod.snd

def escaped (c : Char) : Text :=
  match shortEscape c with
  | some e => ['\\', e]
  | none =>
      if c.toNat < 0x20 then
        ['\\', 'u', '0', '0', Nat.digitChar (c.toNat / 16), Nat.digitChar (c.toNat % 16)]
      else [c]

def stringBody : Text → Text
  | [] => ['"']
  | c :: cs => escaped c ++ stringBody cs

variable (F : FloatText)

def numText : JsonNum → Text
  | .int n => n.repr.toList
  | .float q => F.text q

mutual

/-- `Value::to_string`. -/
def compact : Json → Text
  | .null => "null".toList
  | .bool true => "true".toList
  | .bool false => "false".toList
  | .num n => numText F n
  | .str s => '"' :: stringBody s.toList
  | .arr items => '[' :: compactItems items
  | .obj members => '{' :: compactMembers members

def compactItems : List Json → Text
  | [] => [']']
  | v :: rest => compact v ++ compactRestItems rest

def compactRestItems : List Json → Text
  | [] => [']']
  | v :: rest => ',' :: (compact v ++ compactRestItems rest)

def compactMembers : List (String × Json) → Text
  | [] => ['}']
  | (k, v) :: rest => '"' :: (stringBody k.toList ++ ':' :: (compact v ++ compactRestMembers rest))

def compactRestMembers : List (String × Json) → Text
  | [] => ['}']
  | (k, v) :: rest =>
      ',' :: '"' :: (stringBody k.toList ++ ':' :: (compact v ++ compactRestMembers rest))

end

example : stringBody "a\"\n\x01".toList = "a\\\"\\n\\u0001\"".toList := by decide

theorem mem_of_shortEscape {c e : Char} (h : shortEscape c = some e) :
    (c, e) ∈ shortEscapes := by
  unfold shortEscape at h
  rw [Option.map_eq_some_iff] at h
  rcases h with ⟨p, hfind, rfl⟩
  have hkey : p.1 = c := by simpa using List.find?_some hfind
  rw [← hkey]
  exact List.mem_of_find?_eq_some hfind

theorem shortEscape_inj {c d e : Char} (hc : shortEscape c = some e)
    (hd : shortEscape d = some e) : c = d := by
  have hall : ∀ p ∈ shortEscapes, ∀ q ∈ shortEscapes, p.2 = q.2 → p.1 = q.1 := by decide
  exact hall _ (mem_of_shortEscape hc) _ (mem_of_shortEscape hd) rfl

theorem escaped_cases (c : Char) :
    (∃ e, shortEscape c = some e ∧ e ≠ 'u' ∧ escaped c = ['\\', e]) ∨
    (c.toNat < 32 ∧ escaped c =
      ['\\', 'u', '0', '0', Nat.digitChar (c.toNat / 16), Nat.digitChar (c.toNat % 16)]) ∨
    (c ≠ '"' ∧ c ≠ '\\' ∧ escaped c = [c]) := by
  unfold escaped
  cases hshort : shortEscape c with
  | some e =>
      left
      have hall : ∀ p ∈ shortEscapes, p.2 ≠ 'u' := by decide
      exact ⟨e, rfl, hall _ (mem_of_shortEscape hshort), rfl⟩
  | none =>
      right
      dsimp only
      by_cases hcontrol : c.toNat < 32
      · rw [if_pos hcontrol]
        exact .inl ⟨hcontrol, rfl⟩
      · rw [if_neg hcontrol]
        right
        have hquote : c ≠ '"' := by
          rintro rfl
          exact absurd hshort (by decide)
        have hslash : c ≠ '\\' := by
          rintro rfl
          exact absurd hshort (by decide)
        exact ⟨hquote, hslash, rfl⟩

theorem escaped_append_inj {c d : Char} {r r' : Text} (h : escaped c ++ r = escaped d ++ r') :
    c = d ∧ r = r' := by
  rcases escaped_cases c with ⟨e, hshort, hu, hc⟩ | ⟨hcontrol, hc⟩ | ⟨hquote, hslash, hc⟩ <;>
  rcases escaped_cases d with ⟨e', hshort', hu', hd⟩ | ⟨hcontrol', hd⟩ | ⟨hquote', hslash', hd⟩ <;>
  rw [hc, hd] at h <;>
  simp only [List.cons_append, List.nil_append, List.cons.injEq] at h
  · rcases h with ⟨-, rfl, rfl⟩
    exact ⟨shortEscape_inj hshort hshort', rfl⟩
  · exact absurd h.2.1 hu
  · exact absurd h.1.symm hslash'
  · exact absurd h.2.1.symm hu'
  · rcases h with ⟨-, -, -, -, hhigh, hlow, rfl⟩
    have hdiv := digitChar_inj (by omega) (by omega) hhigh
    have hmod := digitChar_inj (by omega) (by omega) hlow
    have hnat : c.toNat = d.toNat := by omega
    exact ⟨Char.toNat_inj.mp hnat, rfl⟩
  · exact absurd h.1.symm hslash'
  · exact absurd h.1 hslash
  · exact absurd h.1 hslash
  · exact h

theorem quote_not_escaped {c : Char} {r r' : Text} : escaped c ++ r ≠ '"' :: r' := by
  intro h
  rcases escaped_cases c with ⟨e, -, -, hc⟩ | ⟨-, hc⟩ | ⟨hquote, -, hc⟩ <;>
  rw [hc] at h <;>
  simp only [List.cons_append, List.nil_append, List.cons.injEq] at h
  · exact absurd h.1 (by decide)
  · exact absurd h.1 (by decide)
  · exact hquote h.1

theorem stringBody_append_inj {s t r r' : Text}
    (h : stringBody s ++ r = stringBody t ++ r') : s = t ∧ r = r' := by
  induction s generalizing t with
  | nil =>
      cases t with
      | nil => exact ⟨rfl, (List.cons.inj h).2⟩
      | cons d ds =>
          rw [stringBody, stringBody, List.append_assoc] at h
          exact absurd h.symm quote_not_escaped
  | cons c cs ih =>
      cases t with
      | nil =>
          rw [stringBody, stringBody, List.append_assoc] at h
          exact absurd h quote_not_escaped
      | cons d ds =>
          rw [stringBody, stringBody, List.append_assoc, List.append_assoc] at h
          rcases escaped_append_inj h with ⟨rfl, hrest⟩
          rcases ih hrest with ⟨rfl, rfl⟩
          exact ⟨rfl, rfl⟩

def Stops (r : Text) : Prop := ∀ c ∈ r.head?, isNumberChar c = false

theorem numeric_numText (n : JsonNum) : ∀ c ∈ numText F n, isNumberChar c = true := by
  cases n with
  | int n =>
      intro c hc
      unfold isNumberChar
      rcases isDigit_or_sign_of_mem_repr hc with hdigit | rfl
      · rw [hdigit]
        rfl
      · rfl
  | float q => exact F.numeric q

theorem numText_ne_nil (n : JsonNum) : numText F n ≠ [] := by
  intro hnil
  cases n with
  | int n =>
      unfold numText at hnil
      cases n with
      | ofNat n =>
          have hdigits : Nat.toDigits 10 n = [] := by
            rw [← Nat.toList_repr]
            exact hnil
          exact Nat.toDigits_ne_nil hdigits
      | negSucc n => simp [Int.repr] at hnil
  | float q =>
      have hpoint := F.notInteger q
      rw [numText] at hnil
      rw [hnil] at hpoint
      simp at hpoint

theorem int_ne_float {n : ℤ} {q : ℚ} : n.repr.toList ≠ F.text q := by
  intro h
  have hpoint := F.notInteger q
  rw [← h] at hpoint
  rcases hpoint with hmem | hmem <;>
    rcases isDigit_or_sign_of_mem_repr hmem with hdigit | hsign
  · exact absurd hdigit (by decide)
  · exact absurd hsign (by decide)
  · exact absurd hdigit (by decide)
  · exact absurd hsign (by decide)

theorem numText_inj {n n' : JsonNum} (h : numText F n = numText F n') : n = n' := by
  cases n with
  | int n =>
      cases n' with
      | int n' => rw [Int.repr_inj.mp (String.toList_injective h)]
      | float q' => exact absurd h (int_ne_float F)
  | float q =>
      cases n' with
      | int n' => exact absurd h.symm (int_ne_float F)
      | float q' => rw [F.inj q q' h]

theorem takeWhile_number {a r : Text} (ha : ∀ c ∈ a, isNumberChar c = true) (hr : Stops r) :
    (a ++ r).takeWhile isNumberChar = a := by
  have hnone : r.takeWhile isNumberChar = [] := by
    cases r with
    | nil => rfl
    | cons c r =>
        have hc := hr c rfl
        rw [List.takeWhile_cons, hc]
        rfl
  rw [List.takeWhile_append_of_pos ha, hnone, List.append_nil]

theorem numText_append_inj {n n' : JsonNum} {r r' : Text} (hr : Stops r) (hr' : Stops r')
    (h : numText F n ++ r = numText F n' ++ r') : n = n' ∧ r = r' := by
  have hnum : numText F n = numText F n' := by
    rw [← takeWhile_number (numeric_numText F n) hr, h,
      takeWhile_number (numeric_numText F n') hr']
  rw [hnum] at h
  exact ⟨numText_inj F hnum, List.append_cancel_left h⟩

/-! ## Values -/

inductive Kind where
  | null
  | true
  | false
  | num
  | str
  | arr
  | obj
  deriving DecidableEq

def kind : Json → Kind
  | .null => .null
  | .bool b => if b then .true else .false
  | .num _ => .num
  | .str _ => .str
  | .arr _ => .arr
  | .obj _ => .obj

def leadKind (c : Char) : Option Kind :=
  if c = 'n' then some .null
  else if c = 't' then some .true
  else if c = 'f' then some .false
  else if c = '"' then some .str
  else if c = '[' then some .arr
  else if c = '{' then some .obj
  else if isNumberChar c then some .num
  else none

theorem leadKind_number {c : Char} (h : isNumberChar c = true) : leadKind c = some .num := by
  have hnone : ∀ d ∈ ['n', 't', 'f', '"', '[', '{'], c ≠ d := by
    intro d hd hcd
    rw [hcd] at h
    have hall : ∀ d ∈ ['n', 't', 'f', '"', '[', '{'], isNumberChar d = false := by
      simp [isNumberChar]
    rw [hall d hd] at h
    cases h
  simp only [List.mem_cons, List.not_mem_nil, or_false, forall_eq_or_imp, forall_eq] at hnone
  simp only [leadKind, hnone, h, if_false, if_true]

theorem compact_cons (v : Json) :
    ∃ c t, compact F v = c :: t ∧ leadKind c = some (kind v) := by
  cases v with
  | null => exact ⟨_, _, rfl, by decide⟩
  | bool b => cases b <;> exact ⟨_, _, rfl, by decide⟩
  | num n =>
      rw [compact]
      cases htext : numText F n with
      | nil => exact absurd htext (numText_ne_nil F n)
      | cons c t =>
          have hc := numeric_numText F n c (by rw [htext]; exact List.mem_cons_self)
          exact ⟨c, t, rfl, leadKind_number hc⟩
  | str s => exact ⟨'"', _, by rw [compact], by rw [kind]; decide⟩
  | arr items => exact ⟨'[', _, by rw [compact], by rw [kind]; decide⟩
  | obj members => exact ⟨'{', _, by rw [compact], by rw [kind]; decide⟩

theorem kind_eq_of_text {v w : Json} {r r' : Text} (h : compact F v ++ r = compact F w ++ r') :
    kind v = kind w := by
  rcases compact_cons F v with ⟨c, t, hv, hkind⟩
  rcases compact_cons F w with ⟨c', t', hw, hkind'⟩
  rw [hv, hw, List.cons_append, List.cons_append, List.cons.injEq] at h
  rw [h.1, hkind'] at hkind
  exact (Option.some.inj hkind).symm

theorem bracket_not_compact {v : Json} {r r' : Text} : ']' :: r ≠ compact F v ++ r' := by
  intro h
  rcases compact_cons F v with ⟨c, t, hv, hkind⟩
  rw [hv, List.cons_append, List.cons.injEq] at h
  rw [← h.1] at hkind
  exact absurd hkind.symm (Option.some_ne_none _)

def SelfDelimiting (v : Json) : Prop :=
  ∀ w r r', Stops r → Stops r' → compact F v ++ r = compact F w ++ r' → v = w ∧ r = r'

theorem stops_cons {c : Char} (h : isNumberChar c = false) (r : Text) : Stops (c :: r) := by
  intro d hd
  rw [List.head?_cons, Option.mem_some_iff] at hd
  rw [← hd]
  exact h

theorem stops_restItems (items : List Json) (r : Text) :
    Stops (compactRestItems F items ++ r) := by
  cases items <;> rw [compactRestItems] <;> exact stops_cons (by decide) _

theorem stops_restMembers (members : List (String × Json)) (r : Text) :
    Stops (compactRestMembers F members ++ r) := by
  rcases members with _ | ⟨⟨k, v⟩, members⟩ <;> rw [compactRestMembers] <;>
    exact stops_cons (by decide) _

theorem restItems_append_inj {items items' : List Json} {r r' : Text}
    (hitems : ∀ v ∈ items, SelfDelimiting F v)
    (h : compactRestItems F items ++ r = compactRestItems F items' ++ r') :
    items = items' ∧ r = r' := by
  induction items generalizing items' with
  | nil =>
      cases items' with
      | nil => exact ⟨rfl, (List.cons.inj h).2⟩
      | cons w rest' =>
          rw [compactRestItems, compactRestItems] at h
          exact absurd (List.cons.inj h).1 (by decide)
  | cons v rest ih =>
      cases items' with
      | nil =>
          rw [compactRestItems, compactRestItems] at h
          exact absurd (List.cons.inj h).1 (by decide)
      | cons w rest' =>
          rw [compactRestItems, compactRestItems, List.cons_append, List.cons_append,
            List.append_assoc, List.append_assoc] at h
          rcases hitems v List.mem_cons_self w _ _ (stops_restItems F rest r)
            (stops_restItems F rest' r') (List.cons.inj h).2 with ⟨rfl, hrest⟩
          rcases ih (fun u hu => hitems u (List.mem_cons_of_mem _ hu)) hrest with ⟨rfl, rfl⟩
          exact ⟨rfl, rfl⟩

theorem member_append_inj {k k' : String} {v v' : Json} {r r' : Text}
    (hv : SelfDelimiting F v) (hr : Stops r) (hr' : Stops r')
    (h : stringBody k.toList ++ ':' :: (compact F v ++ r) =
      stringBody k'.toList ++ ':' :: (compact F v' ++ r')) :
    (k, v) = (k', v') ∧ r = r' := by
  rcases stringBody_append_inj h with ⟨hname, hrest⟩
  rcases hv v' r r' hr hr' (List.cons.inj hrest).2 with ⟨rfl, rfl⟩
  rw [String.toList_injective hname]
  exact ⟨rfl, rfl⟩

theorem restMembers_append_inj {members members' : List (String × Json)} {r r' : Text}
    (hmembers : ∀ m ∈ members, SelfDelimiting F m.2)
    (h : compactRestMembers F members ++ r = compactRestMembers F members' ++ r') :
    members = members' ∧ r = r' := by
  induction members generalizing members' with
  | nil =>
      rcases members' with _ | ⟨⟨k', v'⟩, rest'⟩
      · exact ⟨rfl, (List.cons.inj h).2⟩
      · rw [compactRestMembers, compactRestMembers] at h
        exact absurd (List.cons.inj h).1 (by decide)
  | cons m rest ih =>
      rcases m with ⟨k, v⟩
      rcases members' with _ | ⟨⟨k', v'⟩, rest'⟩
      · rw [compactRestMembers, compactRestMembers] at h
        exact absurd (List.cons.inj h).1 (by decide)
      · simp only [compactRestMembers, List.cons_append, List.append_assoc, List.cons.injEq,
          true_and] at h
        rcases member_append_inj F (hmembers (k, v) List.mem_cons_self)
          (stops_restMembers F rest r) (stops_restMembers F rest' r') h with ⟨hmember, hrest⟩
        rcases ih (fun u hu => hmembers u (List.mem_cons_of_mem _ hu)) hrest with ⟨rfl, rfl⟩
        rw [hmember]
        exact ⟨rfl, rfl⟩

theorem members_append_inj {members members' : List (String × Json)} {r r' : Text}
    (hmembers : ∀ m ∈ members, SelfDelimiting F m.2)
    (h : compactMembers F members ++ r = compactMembers F members' ++ r') :
    members = members' ∧ r = r' := by
  rcases members with _ | ⟨⟨k, v⟩, rest⟩
  · rcases members' with _ | ⟨⟨k', v'⟩, rest'⟩
    · exact ⟨rfl, (List.cons.inj h).2⟩
    · rw [compactMembers, compactMembers] at h
      exact absurd (List.cons.inj h).1 (by decide)
  · rcases members' with _ | ⟨⟨k', v'⟩, rest'⟩
    · rw [compactMembers, compactMembers] at h
      exact absurd (List.cons.inj h).1 (by decide)
    · simp only [compactMembers, List.cons_append, List.append_assoc, List.cons.injEq,
        true_and] at h
      rcases member_append_inj F (hmembers (k, v) List.mem_cons_self)
        (stops_restMembers F rest r) (stops_restMembers F rest' r') h with ⟨hmember, hrest⟩
      rcases restMembers_append_inj F (fun u hu => hmembers u (List.mem_cons_of_mem _ hu)) hrest
        with ⟨rfl, rfl⟩
      rw [hmember]
      exact ⟨rfl, rfl⟩

theorem items_append_inj {items items' : List Json} {r r' : Text}
    (hitems : ∀ v ∈ items, SelfDelimiting F v)
    (h : compactItems F items ++ r = compactItems F items' ++ r') :
    items = items' ∧ r = r' := by
  cases items with
  | nil =>
      cases items' with
      | nil => exact ⟨rfl, (List.cons.inj h).2⟩
      | cons w rest' =>
          rw [compactItems, compactItems, List.append_assoc] at h
          exact absurd h (bracket_not_compact F)
  | cons v rest =>
      cases items' with
      | nil =>
          rw [compactItems, compactItems, List.append_assoc] at h
          exact absurd h.symm (bracket_not_compact F)
      | cons w rest' =>
          rw [compactItems, compactItems, List.append_assoc, List.append_assoc] at h
          rcases hitems v List.mem_cons_self w _ _ (stops_restItems F rest r)
            (stops_restItems F rest' r') h with ⟨rfl, hrest⟩
          rcases restItems_append_inj F (fun u hu => hitems u (List.mem_cons_of_mem _ hu)) hrest
            with ⟨rfl, rfl⟩
          exact ⟨rfl, rfl⟩

theorem selfDelimiting (v : Json) : SelfDelimiting F v := by
  induction v using Json.induct with
  | null =>
      intro w r r' _ _ h
      have hkind := kind_eq_of_text F h
      cases w <;> simp only [kind, reduceCtorEq] at hkind
      · exact ⟨rfl, List.append_cancel_left h⟩
      · split_ifs at hkind
  | bool b =>
      intro w r r' _ _ h
      have hkind := kind_eq_of_text F h
      cases w <;> simp only [kind] at hkind <;> cases b <;> simp at hkind
      all_goals
        subst hkind
        exact ⟨rfl, List.append_cancel_left h⟩
  | num n =>
      intro w r r' hr hr' h
      have hkind := kind_eq_of_text F h
      cases w <;> simp only [kind, reduceCtorEq] at hkind
      · split_ifs at hkind
      · rw [compact, compact] at h
        rcases numText_append_inj F hr hr' h with ⟨rfl, rfl⟩
        exact ⟨rfl, rfl⟩
  | str s =>
      intro w r r' _ _ h
      have hkind := kind_eq_of_text F h
      cases w <;> simp only [kind, reduceCtorEq] at hkind
      · split_ifs at hkind
      · rw [compact, compact, List.cons_append, List.cons_append] at h
        rcases stringBody_append_inj (List.cons.inj h).2 with ⟨hs, rfl⟩
        rw [String.toList_injective hs]
        exact ⟨rfl, rfl⟩
  | arr items ih =>
      intro w r r' _ _ h
      have hkind := kind_eq_of_text F h
      cases w <;> simp only [kind, reduceCtorEq] at hkind
      · split_ifs at hkind
      · rw [compact, compact, List.cons_append, List.cons_append] at h
        rcases items_append_inj F ih (List.cons.inj h).2 with ⟨rfl, rfl⟩
        exact ⟨rfl, rfl⟩
  | obj members ih =>
      intro w r r' _ _ h
      have hkind := kind_eq_of_text F h
      cases w <;> simp only [kind, reduceCtorEq] at hkind
      · split_ifs at hkind
      · rw [compact, compact, List.cons_append, List.cons_append] at h
        rcases members_append_inj F ih (List.cons.inj h).2 with ⟨rfl, rfl⟩
        exact ⟨rfl, rfl⟩

theorem compact_inj {v w : Json} (h : compact F v = compact F w) : v = w := by
  have hnil : Stops [] := by
    intro c hc
    cases hc
  have happend : compact F v ++ [] = compact F w ++ [] := by rw [h]
  exact (selfDelimiting F v w [] [] hnil hnil happend).1

/-! ## No control characters -/

section Printable

variable {F : FloatText} {t t' : Text} {c : Char}

def Printable (t : Text) : Prop := ∀ c ∈ t, 32 ≤ c.toNat

theorem printable_cons : Printable (c :: t) ↔ 32 ≤ c.toNat ∧ Printable t :=
  List.forall_mem_cons

theorem printable_append : Printable (t ++ t') ↔ Printable t ∧ Printable t' :=
  List.forall_mem_append

theorem printable_nil : Printable [] := List.forall_mem_nil _

theorem printable_escaped (c : Char) : Printable (escaped c) := by
  unfold escaped
  split
  · rename_i e hshort
    have hall : ∀ p ∈ shortEscapes, 32 ≤ p.2.toNat := by decide
    rw [printable_cons, printable_cons]
    exact ⟨by decide, hall _ (mem_of_shortEscape hshort), printable_nil⟩
  · split_ifs with hcontrol
    · have hdigit : ∀ n < 16, 32 ≤ (Nat.digitChar n).toNat := by decide
      simp only [printable_cons]
      exact ⟨by decide, by decide, by decide, by decide, hdigit _ (by omega), hdigit _ (by omega),
        printable_nil⟩
    · rw [printable_cons]
      exact ⟨by omega, printable_nil⟩

theorem printable_stringBody (s : Text) : Printable (stringBody s) := by
  induction s with
  | nil =>
      rw [stringBody, printable_cons]
      exact ⟨by decide, printable_nil⟩
  | cons c s ih =>
      rw [stringBody, printable_append]
      exact ⟨printable_escaped c, ih⟩

theorem printable_number (n : JsonNum) : Printable (numText F n) := by
  intro c hc
  have hnumber := numeric_numText F n c hc
  by_cases hdigit : c.isDigit = true
  · have hrange : 48 ≤ c.toNat ∧ c.toNat ≤ 57 := by
      simpa [Char.isDigit, UInt32.le_iff_toNat_le] using hdigit
    omega
  · simp only [isNumberChar, hdigit, Bool.false_or, Bool.or_eq_true, decide_eq_true_eq] at hnumber
    rcases hnumber with (((rfl | rfl) | rfl) | rfl) | rfl <;> decide

theorem printable_restItems {items : List Json} (h : ∀ v ∈ items, Printable (compact F v)) :
    Printable (compactRestItems F items) := by
  induction items with
  | nil =>
      rw [compactRestItems, printable_cons]
      exact ⟨by decide, printable_nil⟩
  | cons v items ih =>
      rw [compactRestItems, printable_cons, printable_append]
      exact ⟨by decide, h v List.mem_cons_self, ih fun u hu => h u (List.mem_cons_of_mem v hu)⟩

theorem printable_member {k : String} {v : Json} (hv : Printable (compact F v))
    (ht : Printable t) :
    Printable ('"' :: (stringBody k.toList ++ ':' :: (compact F v ++ t))) := by
  rw [printable_cons, printable_append, printable_cons, printable_append]
  exact ⟨by decide, printable_stringBody _, by decide, hv, ht⟩

theorem printable_restMembers {members : List (String × Json)}
    (h : ∀ m ∈ members, Printable (compact F m.2)) :
    Printable (compactRestMembers F members) := by
  induction members with
  | nil =>
      rw [compactRestMembers, printable_cons]
      exact ⟨by decide, printable_nil⟩
  | cons m members ih =>
      rcases m with ⟨k, v⟩
      rw [compactRestMembers, printable_cons]
      exact ⟨by decide, printable_member (h _ List.mem_cons_self)
        (ih fun u hu => h u (List.mem_cons_of_mem _ hu))⟩

theorem printable_compact (v : Json) : Printable (compact F v) := by
  induction v using Json.induct with
  | null =>
      rw [compact]
      simp [Printable]
  | bool b => cases b <;> simp [compact, Printable]
  | num n =>
      rw [compact]
      exact printable_number n
  | str s =>
      rw [compact, printable_cons]
      exact ⟨by decide, printable_stringBody _⟩
  | arr items ih =>
      rw [compact, printable_cons]
      refine ⟨by decide, ?_⟩
      cases items with
      | nil =>
          rw [compactItems, printable_cons]
          exact ⟨by decide, printable_nil⟩
      | cons v items =>
          rw [compactItems, printable_append]
          exact ⟨ih v List.mem_cons_self,
            printable_restItems fun u hu => ih u (List.mem_cons_of_mem v hu)⟩
  | obj members ih =>
      rw [compact, printable_cons]
      refine ⟨by decide, ?_⟩
      rcases members with _ | ⟨⟨k, v⟩, members⟩
      · rw [compactMembers, printable_cons]
        exact ⟨by decide, printable_nil⟩
      · rw [compactMembers]
        exact printable_member (ih _ List.mem_cons_self)
          (printable_restMembers fun u hu => ih u (List.mem_cons_of_mem _ hu))

end Printable

end Json

end GrServer
