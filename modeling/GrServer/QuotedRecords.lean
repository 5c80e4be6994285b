import Mathlib.Data.List.Basic
import GrServer.Text

/-!
# Records of quoted values

`key=value|` records whose values are texts with quoted strings.  A long value is
cut after `cap` bytes, wherever that falls, and an ellipsis with its length is put
in its place.  Outside of its strings a value has neither a bar nor an ellipsis.

A byte string may be read in several ways.  Where one reading is inside a string
and another outside, they stay so to the end, which is outside for both.
-/

namespace GrServer

namespace QuotedRecords

/-! ## Quotes -/

inductive Quote where
  | out
  | str
  | esc
  deriving DecidableEq

def isPlainByte (b : UInt8) : Bool :=
  (48 ≤ b && b ≤ 57) || b = 43 || b = 44 || b = 45 || b = 46 || b = 58 || b = 69 || b = 91 ||
    b = 93 || b = 97 || b = 101 || b = 102 || b = 108 || b = 110 || b = 114 || b = 115 ||
    b = 116 || b = 117 || b = 123 || b = 125

def quoteStep : Quote → UInt8 → Option Quote
  | .out, b => if b = 34 then some .str else if isPlainByte b then some .out else none
  | .str, b => if b = 34 then some .out else if b = 92 then some .esc else some .str
  | .esc, _ => some .str

def scan : Quote → List UInt8 → Option Quote
  | q, [] => some q
  | q, b :: bs => (quoteStep q b).bind fun q' => scan q' bs

theorem scan_append (q : Quote) (a b : List UInt8) :
    scan q (a ++ b) = (scan q a).bind fun q' => scan q' b := by
  induction a generalizing q with
  | nil => rfl
  | cons x xs ih =>
      rw [List.cons_append, scan, scan]
      cases quoteStep q x with
      | none => rfl
      | some q' => exact ih q'

def IsSeparator (b : UInt8) : Prop := b ≠ 34 ∧ b ≠ 92

theorem quoteStep_out {b : UInt8} {q : Quote} (h : quoteStep .out b = some q) :
    b = 34 ∧ q = .str ∨ IsSeparator b ∧ q = .out := by
  rw [quoteStep] at h
  split_ifs at h with hquote hplain
  · exact .inl ⟨hquote, (Option.some.inj h).symm⟩
  · have hslash : b ≠ 92 := by
      rintro rfl
      exact absurd hplain (by decide)
    exact .inr ⟨⟨hquote, hslash⟩, (Option.some.inj h).symm⟩

theorem quoteStep_str {b : UInt8} {q : Quote} (h : quoteStep .str b = some q) :
    b = 34 ∧ q = .out ∨ b = 92 ∧ q = .esc ∨ IsSeparator b ∧ q = .str := by
  rw [quoteStep] at h
  split_ifs at h with hquote hslash
  · exact .inl ⟨hquote, (Option.some.inj h).symm⟩
  · exact .inr (.inl ⟨hslash, (Option.some.inj h).symm⟩)
  · exact .inr (.inr ⟨⟨hquote, hslash⟩, (Option.some.inj h).symm⟩)

def bar : UInt8 := 124

def ellipsisByte : UInt8 := 0xE2

/-- Between values, or after `n` bytes of one. -/
inductive Mark where
  | top
  | mat (n : ℕ) (q : Quote)

def Mark.quote : Mark → Quote
  | top => .out
  | mat _ q => q

def Readable (q : Quote) (look : Option UInt8) : Prop :=
  ∀ b ∈ look, quoteStep q b ≠ none

inductive Next (cap : ℕ) : Mark → UInt8 → Option UInt8 → Mark → Prop where
  | top {b look} (hb : IsSeparator b) (hlook : look ≠ some ellipsisByte) :
      Next cap .top b look .top
  | enter {b look} (hb : IsSeparator b) (hlook : Readable .out look) :
      Next cap .top b look (.mat 0 .out)
  | inside {n q b look q'} (hq : quoteStep q b = some q') (hlook : Readable q' look) :
      Next cap (.mat n q) b look (.mat (n + 1) q')
  | leave {n q b look} (hq : quoteStep q b = some .out) (hlook : look = some bar) :
      Next cap (.mat n q) b look .top
  | cut {n q b look q'} (hq : quoteStep q b = some q') (hn : n + 1 = cap)
      (hlook : look = some ellipsisByte) : Next cap (.mat n q) b look .top

inductive Reading (cap : ℕ) : Mark → List UInt8 → Prop where
  | done : Reading cap .top []
  | read {m b rest m'} (hnext : Next cap m b rest.head? m') (hrest : Reading cap m' rest) :
      Reading cap m (b :: rest)

/-- The first reading is outside of a string where the second is inside, and their
values did not begin together. -/
structure Opposed (m m' : Mark) : Prop where
  outside : m.quote = .out
  inside : m'.quote = .str
  apart : ∀ n q n' q', m = .mat n q → m' = .mat n' q' → n ≠ n'

section Opposed

variable {cap : ℕ} {m m' m₂ m₂' : Mark} {b : UInt8} {look : Option UInt8} {w : List UInt8}

theorem not_readable_ellipsis : ¬ Readable .out (some ellipsisByte) := by
  intro h
  exact h _ rfl (by decide)

theorem opposed_top {n : ℕ} : Opposed .top (.mat n .str) where
  outside := rfl
  inside := rfl
  apart := by
    intro k q n' q' htop
    cases htop

theorem opposed_mat {n n' : ℕ} (h : n ≠ n') : Opposed (.mat n .out) (.mat n' .str) where
  outside := rfl
  inside := rfl
  apart := by
    intro k q k' q' hk hk'
    cases hk
    cases hk'
    exact h

theorem opposed_next (h : Opposed m m') (hm : Next cap m b look m₂)
    (hm' : Next cap m' b look m₂') : Opposed m₂ m₂' ∨ Opposed m₂' m₂ := by
  rcases h with ⟨hout, hin, hapart⟩
  cases hm' with
  | top hb hlook => cases hin
  | enter hb hlook => cases hin
  | @inside n' q' _ _ p' hq hlook =>
      cases hin
      cases hm with
      | top hb hl =>
          rcases quoteStep_str hq with ⟨hquote, -⟩ | ⟨hslash, -⟩ | ⟨-, rfl⟩
          · exact absurd hquote hb.1
          · exact absurd hslash hb.2
          · exact .inl opposed_top
      | enter hb hl =>
          rcases quoteStep_str hq with ⟨hquote, -⟩ | ⟨hslash, -⟩ | ⟨-, rfl⟩
          · exact absurd hquote hb.1
          · exact absurd hslash hb.2
          · exact .inl (opposed_mat (Nat.succ_ne_zero n').symm)
      | @inside n q _ _ p hp hl =>
          cases hout
          have hne : n + 1 ≠ n' + 1 :=
            fun heq => hapart n .out n' .str rfl rfl (Nat.succ_injective heq)
          rcases quoteStep_out hp with ⟨rfl, rfl⟩ | ⟨hb, rfl⟩
          · cases hq
            exact .inr (opposed_mat (Ne.symm hne))
          · rcases quoteStep_str hq with ⟨hquote, -⟩ | ⟨hslash, -⟩ | ⟨-, rfl⟩
            · exact absurd hquote hb.1
            · exact absurd hslash hb.2
            · exact .inl (opposed_mat hne)
      | leave hp hl =>
          cases hout
          rcases quoteStep_out hp with ⟨-, hstr⟩ | ⟨hb, -⟩
          · cases hstr
          · rcases quoteStep_str hq with ⟨hquote, -⟩ | ⟨hslash, -⟩ | ⟨-, rfl⟩
            · exact absurd hquote hb.1
            · exact absurd hslash hb.2
            · exact .inl opposed_top
      | cut hp hn hl =>
          cases hout
          rw [hl] at hlook
          rcases quoteStep_str hq with ⟨-, rfl⟩ | ⟨hslash, -⟩ | ⟨-, rfl⟩
          · exact absurd hlook not_readable_ellipsis
          · rcases quoteStep_out hp with ⟨hquote, -⟩ | ⟨hb, -⟩
            · rw [hslash] at hquote
              cases hquote
            · exact absurd hslash hb.2
          · exact .inl opposed_top
  | @leave n' q' _ _ hq hlook =>
      cases hin
      rcases quoteStep_str hq with ⟨rfl, -⟩ | ⟨-, hesc⟩ | ⟨-, hstr⟩
      · cases hm with
        | top hb hl => exact absurd rfl hb.1
        | enter hb hl => exact absurd rfl hb.1
        | inside hp hl =>
            cases hout
            cases hp
            exact .inr opposed_top
        | leave hp hl =>
            cases hout
            cases hp
        | cut hp hn hl =>
            rw [hlook] at hl
            cases hl
      · cases hesc
      · cases hstr
  | @cut n' q' _ _ p' hq hn' hlook =>
      cases hin
      cases hm with
      | top hb hl => exact absurd hlook hl
      | enter hb hl =>
          rw [hlook] at hl
          exact absurd hl not_readable_ellipsis
      | inside hp hl =>
          cases hout
          rw [hlook] at hl
          rcases quoteStep_out hp with ⟨-, rfl⟩ | ⟨-, rfl⟩
          · exact .inr opposed_top
          · exact absurd hl not_readable_ellipsis
      | leave hp hl =>
          rw [hlook] at hl
          cases hl
      | @cut n _ _ _ _ hp hn hl =>
          exact absurd (Nat.succ_injective (hn.trans hn'.symm)) (hapart n _ n' _ rfl rfl)

theorem Reading.not_opposed (h : Reading cap m w) (h' : Reading cap m' w) :
    ¬ Opposed m m' := by
  induction w generalizing m m' with
  | nil =>
      intro hopp
      cases h'
      cases hopp.inside
  | cons b w ih =>
      intro hopp
      cases h with
      | read hnext hrest =>
          cases h' with
          | read hnext' hrest' =>
              rcases opposed_next hopp hnext hnext' with hleft | hright
              · exact ih hrest hrest' hleft
              · exact ih hrest' hrest hright

theorem Reading.out_of_top {n : ℕ} {q : Quote} (h : Reading cap (.mat n q) w)
    (htop : Reading cap .top w) : q = .out := by
  cases q with
  | out => rfl
  | str => exact absurd opposed_top (htop.not_opposed h)
  | esc =>
      exfalso
      cases h with
      | @read _ b rest m hnext hrest =>
          cases htop with
          | @read _ _ _ m' hnext' hrest' =>
              cases hnext with
              | inside hq hlook =>
                  cases hq
                  cases hnext' with
                  | top hb hl => exact hrest'.not_opposed hrest opposed_top
                  | enter hb hl =>
                      exact hrest'.not_opposed hrest (opposed_mat (Nat.succ_ne_zero n).symm)
              | leave hq hlook => cases hq
              | cut hq hn hlook =>
                  cases hnext' with
                  | top hb hl => exact hl hlook
                  | enter hb hl =>
                      rw [hlook] at hl
                      exact not_readable_ellipsis hl

end Opposed

/-! ## Reading values -/

inductive Material (cap : ℕ) : List UInt8 → Prop where
  | text {t : List UInt8} (hscan : scan .out t = some .out) : Material cap t
  | cut {t digits : List UInt8} {q : Quote} (hlen : t.length = cap)
      (hscan : scan .out t = some q) (hdigits : ∀ b ∈ digits, 48 ≤ b ∧ b ≤ 57) :
      Material cap (t ++ ellipsisByte :: 0x80 :: 0xA6 :: digits)

section Values

variable {cap : ℕ} {w : List UInt8}

theorem readable_of_scan {q q' : Quote} {b : UInt8} {t : List UInt8}
    (h : scan q (b :: t) = some q') : quoteStep q b ≠ none := by
  intro hnone
  rw [scan, hnone] at h
  cases h

theorem Reading.text {q : Quote} {t : List UInt8} (hscan : scan q t = some .out) (hne : t ≠ [])
    (hrest : Reading cap .top (bar :: w)) (n : ℕ) : Reading cap (.mat n q) (t ++ bar :: w) := by
  induction t generalizing n q with
  | nil => exact absurd rfl hne
  | cons b t ih =>
      rw [scan, Option.bind_eq_some_iff] at hscan
      rcases hscan with ⟨q', hq, hscan⟩
      cases t with
      | nil =>
          cases hscan
          exact .read (.leave hq rfl) hrest
      | cons b' t =>
          have hlook : Readable q' (some b') := by
            intro x hx
            cases hx
            exact readable_of_scan hscan
          exact .read (.inside hq hlook) (ih hscan (List.cons_ne_nil _ _) (n + 1))

theorem Reading.start {q q' : Quote} {t : List UInt8} (hscan : scan q t = some q') (hne : t ≠ [])
    {n : ℕ} (hn : n + t.length = cap) (hrest : Reading cap .top (ellipsisByte :: w)) :
    Reading cap (.mat n q) (t ++ ellipsisByte :: w) := by
  induction t generalizing n q with
  | nil => exact absurd rfl hne
  | cons b t ih =>
      rw [scan, Option.bind_eq_some_iff] at hscan
      rcases hscan with ⟨q₂, hq, hscan⟩
      rw [List.length_cons] at hn
      cases t with
      | nil => exact .read (.cut hq hn rfl) hrest
      | cons b' t =>
          have hlook : Readable q₂ (some b') := by
            intro x hx
            cases hx
            exact readable_of_scan hscan
          exact .read (.inside hq hlook) (ih hscan (List.cons_ne_nil _ _) (by omega))

theorem Reading.separators {s : List UInt8} (hs : ∀ b ∈ s, IsSeparator b)
    (hmark : ellipsisByte ∉ s.tail) (hhead : w.head? ≠ some ellipsisByte)
    (hrest : Reading cap .top w) : Reading cap .top (s ++ w) := by
  induction s with
  | nil => exact hrest
  | cons b s ih =>
      have hnext : (s ++ w).head? ≠ some ellipsisByte := by
        cases s with
        | nil => exact hhead
        | cons b' s =>
            intro heq
            apply hmark
            cases heq
            exact List.mem_cons_self
      apply Reading.read (.top (hs b List.mem_cons_self) hnext)
      apply ih (fun x hx => hs x (List.mem_cons_of_mem _ hx))
      intro hmem
      exact hmark (List.mem_of_mem_tail hmem)

theorem isSeparator_bar : IsSeparator bar := by
  constructor <;> decide

theorem isSeparator_digit {b : UInt8} (h : 48 ≤ b ∧ b ≤ 57) : IsSeparator b := by
  constructor
  · rintro rfl
    exact absurd h.1 (by decide)
  · rintro rfl
    exact absurd h.2 (by decide)

theorem Reading.ellipsis {digits : List UInt8} (hdigits : ∀ b ∈ digits, 48 ≤ b ∧ b ≤ 57)
    (hrest : Reading cap .top (bar :: w)) :
    Reading cap .top (ellipsisByte :: 0x80 :: 0xA6 :: (digits ++ bar :: w)) := by
  have hread : Reading cap .top ((ellipsisByte :: 0x80 :: 0xA6 :: digits) ++ bar :: w) := by
    apply Reading.separators _ _ _ hrest
    · intro b hb
      simp only [List.mem_cons] at hb
      rcases hb with rfl | rfl | rfl | hb
      · constructor <;> decide
      · constructor <;> decide
      · constructor <;> decide
      · exact isSeparator_digit (hdigits b hb)
    · intro hmem
      simp only [List.tail_cons, List.mem_cons] at hmem
      rcases hmem with heq | heq | hmem
      · exact absurd heq (by decide)
      · exact absurd heq (by decide)
      · exact absurd (hdigits _ hmem).2 (by decide)
    · simp only [List.head?_cons, ne_eq, Option.some.injEq]
      decide
  exact hread

theorem Material.enter {m : List UInt8} (h : Material cap m) (hcap : 0 < cap) {b : UInt8}
    (hb : IsSeparator b) (hrest : Reading cap .top (bar :: w)) :
    Reading cap .top (b :: (m ++ bar :: w)) := by
  cases h with
  | text hscan =>
      cases m with
      | nil =>
          apply Reading.read (.top hb _) hrest
          simp only [List.head?_cons, ne_eq, Option.some.injEq]
          decide
      | cons c t =>
          apply Reading.read (.enter hb _) (Reading.text hscan (List.cons_ne_nil _ _) hrest 0)
          intro x hx
          cases hx
          exact readable_of_scan hscan
  | @cut t digits q hlen hscan hdigits =>
      have hread := Reading.ellipsis hdigits hrest
      rw [List.append_assoc]
      cases t with
      | nil =>
          rw [List.length_nil] at hlen
          omega
      | cons c t =>
          apply Reading.read (.enter hb _)
          · exact Reading.start hscan (List.cons_ne_nil _ _) (by omega) hread
          · intro x hx
            cases hx
            exact readable_of_scan hscan

theorem bar_not_scanned {q : Quote} {t u : List UInt8} (h : scan .out t = some .out) :
    scan .out (t ++ bar :: u) ≠ some q := by
  rw [scan_append, h, Option.bind_some]
  exact nofun

theorem text_append_inj {t t' r r' : List UInt8} (h : scan .out t = some .out)
    (h' : scan .out t' = some .out) (heq : t ++ bar :: r = t' ++ bar :: r') : t = t' := by
  rcases List.append_eq_append_iff.mp heq with ⟨u, rfl, hu⟩ | ⟨u, rfl, hu⟩
  · cases u with
    | nil => rw [List.append_nil]
    | cons b u =>
        rw [← (List.cons.inj hu).1] at h'
        exact absurd h' (bar_not_scanned h)
  · cases u with
    | nil => rw [List.append_nil]
    | cons b u =>
        rw [← (List.cons.inj hu).1] at h
        exact absurd h (bar_not_scanned h')

theorem text_ne_cut {t p digits r r' : List UInt8} {q : Quote} (h : scan .out t = some .out)
    (hlen : p.length = cap) (hscan : scan .out p = some q)
    (hdigits : ∀ b ∈ digits, 48 ≤ b ∧ b ≤ 57) (hr : Reading cap .top (bar :: r))
    (hr' : Reading cap .top (bar :: r')) :
    t ++ bar :: r ≠ p ++ ellipsisByte :: 0x80 :: 0xA6 :: digits ++ bar :: r' := by
  intro heq
  rw [List.append_assoc] at heq
  rcases List.append_eq_append_iff.mp heq with ⟨u, rfl, hu⟩ | ⟨u, rfl, hu⟩
  · cases u with
    | nil => exact absurd (List.cons.inj hu).1 (by decide)
    | cons b u =>
        rw [← (List.cons.inj hu).1] at hscan
        exact bar_not_scanned h hscan
  · rw [scan_append, hscan, Option.bind_some] at h
    have hne : u ≠ [] := by
      rintro rfl
      exact absurd (List.cons.inj hu).1 (by decide)
    have htop := Reading.ellipsis hdigits hr'
    have hmat := Reading.text h hne hr cap
    rw [← hu] at hmat
    have hout := Reading.out_of_top hmat htop
    cases u with
    | nil => exact hne rfl
    | cons b u =>
        rw [hout, ← (List.cons.inj hu).1] at h
        exact readable_of_scan h (by decide)

theorem cut_append_inj {p p' digits digits' r r' : List UInt8} (hlen : p.length = cap)
    (hlen' : p'.length = cap) (hdigits : ∀ b ∈ digits, 48 ≤ b ∧ b ≤ 57)
    (hdigits' : ∀ b ∈ digits', 48 ≤ b ∧ b ≤ 57)
    (heq : p ++ ellipsisByte :: 0x80 :: 0xA6 :: digits ++ bar :: r =
      p' ++ ellipsisByte :: 0x80 :: 0xA6 :: digits' ++ bar :: r') :
    p = p' ∧ digits = digits' := by
  have hbar : ∀ ds : List UInt8, (∀ b ∈ ds, 48 ≤ b ∧ b ≤ 57) → bar ∉ ds := by
    intro ds hds hmem
    exact absurd (hds bar hmem).2 (by decide)
  rw [List.append_assoc, List.append_assoc] at heq
  rcases List.append_inj heq (hlen.trans hlen'.symm) with ⟨hp, hrest⟩
  simp only [List.cons_append, List.cons.injEq, true_and] at hrest
  exact ⟨hp, (Text.append_cons_first_inj hrest (hbar digits hdigits)
    (hbar digits' hdigits')).1⟩

theorem Material.append_inj {m m' r r' : List UInt8} (h : Material cap m)
    (h' : Material cap m') (hr : Reading cap .top (bar :: r))
    (hr' : Reading cap .top (bar :: r')) (heq : m ++ bar :: r = m' ++ bar :: r') : m = m' := by
  cases h with
  | text hscan =>
      cases h' with
      | text hscan' => exact text_append_inj hscan hscan' heq
      | cut hlen hscan' hdigits =>
          exact absurd heq (text_ne_cut hscan hlen hscan' hdigits hr hr')
  | cut hlen hscan hdigits =>
      cases h' with
      | text hscan' =>
          exact absurd heq.symm (text_ne_cut hscan' hlen hscan hdigits hr' hr)
      | cut hlen' hscan' hdigits' =>
          rcases cut_append_inj hlen hlen' hdigits hdigits' heq with ⟨rfl, rfl⟩
          rfl

end Values

/-! ## Records -/

def equals : UInt8 := 61

structure IsKey (k : List UInt8) : Prop where
  separators : ∀ b ∈ k, IsSeparator b
  noEllipsis : ellipsisByte ∉ k
  noEquals : equals ∉ k

def records {κ : Type*} (label : κ → List UInt8) (keys : List κ) (value : κ → List UInt8) :
    List UInt8 :=
  keys.flatMap fun k => label k ++ equals :: (value k ++ [bar])

section Records

variable {κ : Type*} {cap : ℕ} {label : κ → List UInt8} {keys : List κ}
  {value value' : κ → List UInt8}

theorem records_cons (label : κ → List UInt8) (k : κ) (keys : List κ)
    (value : κ → List UInt8) :
    records label (k :: keys) value =
      label k ++ equals :: (value k ++ bar :: records label keys value) := by
  unfold records
  rw [List.flatMap_cons, List.append_assoc, List.cons_append, List.append_assoc]
  rfl

theorem head_records (hkeys : ∀ k ∈ keys, IsKey (label k)) :
    (records label keys value).head? ≠ some ellipsisByte := by
  cases keys with
  | nil => exact nofun
  | cons k keys =>
      rw [records_cons]
      intro hhead
      cases hlabel : label k with
      | nil =>
          rw [hlabel, List.nil_append, List.head?_cons, Option.some.injEq] at hhead
          exact absurd hhead (by decide)
      | cons b rest =>
          apply (hkeys k List.mem_cons_self).noEllipsis
          rw [hlabel, List.cons_append, List.head?_cons, Option.some.injEq] at hhead
          rw [hlabel, ← hhead]
          exact List.mem_cons_self

theorem Reading.afterBar {w : List UInt8} (h : Reading cap .top w)
    (hhead : w.head? ≠ some ellipsisByte) : Reading cap .top (bar :: w) :=
  .read (.top isSeparator_bar hhead) h

theorem Reading.records (hcap : 0 < cap) (hkeys : ∀ k ∈ keys, IsKey (label k))
    (hvalue : ∀ k ∈ keys, Material cap (value k)) :
    Reading cap .top (records label keys value) := by
  induction keys with
  | nil => exact .done
  | cons k keys ih =>
      have hkey := hkeys k List.mem_cons_self
      have hkeys' : ∀ k' ∈ keys, IsKey (label k') := fun k' hk' => hkeys k' (List.mem_cons_of_mem _ hk')
      have hrest := ih hkeys' fun k' hk' => hvalue k' (List.mem_cons_of_mem _ hk')
      have hequals : IsSeparator equals := by
        constructor <;> decide
      have hbody := (hvalue k List.mem_cons_self).enter hcap hequals
        (hrest.afterBar (head_records hkeys'))
      rw [records_cons]
      apply Reading.separators hkey.separators _ _ hbody
      · intro hmem
        exact hkey.noEllipsis (List.mem_of_mem_tail hmem)
      · simp only [List.head?_cons, ne_eq, Option.some.injEq]
        decide

theorem records_inj (hcap : 0 < cap) (hkeys : ∀ k ∈ keys, IsKey (label k))
    (hvalue : ∀ k ∈ keys, Material cap (value k))
    (hvalue' : ∀ k ∈ keys, Material cap (value' k))
    (heq : QuotedRecords.records label keys value = QuotedRecords.records label keys value') :
    ∀ k ∈ keys, value k = value' k := by
  induction keys with
  | nil => exact nofun
  | cons k keys ih =>
      have hkeys' : ∀ k' ∈ keys, IsKey (label k') := fun k' hk' => hkeys k' (List.mem_cons_of_mem _ hk')
      have hrest : ∀ k' ∈ keys, Material cap (value k') :=
        fun k' hk' => hvalue k' (List.mem_cons_of_mem _ hk')
      have hrest' : ∀ k' ∈ keys, Material cap (value' k') :=
        fun k' hk' => hvalue' k' (List.mem_cons_of_mem _ hk')
      have hread := Reading.records hcap hkeys' hrest
      have hread' := Reading.records hcap hkeys' hrest'
      rw [records_cons, records_cons] at heq
      have hbody := (List.cons.inj (List.append_cancel_left heq)).2
      have hfirst := (hvalue k List.mem_cons_self).append_inj (hvalue' k List.mem_cons_self)
        (hread.afterBar (head_records hkeys')) (hread'.afterBar (head_records hkeys')) hbody
      rw [hfirst] at hbody
      have htail := (List.cons.inj (List.append_cancel_left hbody)).2
      intro k' hk'
      rcases List.mem_cons.mp hk' with rfl | hmem
      · exact hfirst
      · exact ih hkeys' hrest hrest' htail k' hmem

/-- A name whose first two bytes do not stand outside of a string together, nor in
what follows a cut text. -/
structure Telling (name : List UInt8) : Prop where
  key : IsKey name
  starts : ∃ b c rest, name = b :: c :: rest ∧ b < 0x80 ∧ (b < 48 ∨ 57 < b) ∧
    b ≠ bar ∧ b ≠ equals ∧ c ≠ bar ∧ quoteStep .out c = none

theorem Telling.not_read {name z : List UInt8} (h : Telling name) {n : ℕ} :
    ¬ Reading cap (.mat n .out) (name ++ z) := by
  intro hread
  rcases h.starts with ⟨b, c, rest, rfl, -, -, -, -, hbar, hnone⟩
  have hb := h.key.separators b List.mem_cons_self
  cases hread with
  | read hnext hrest =>
      cases hnext with
      | inside hq hlook =>
          rcases quoteStep_out hq with ⟨hquote, -⟩ | ⟨-, rfl⟩
          · exact hb.1 hquote
          · exact hlook c rfl hnone
      | leave hq hlook => exact hbar (Option.some.inj hlook)
      | cut hq hn hlook =>
          apply h.key.noEllipsis
          rw [← Option.some.inj hlook]
          exact List.mem_cons_of_mem _ List.mem_cons_self

theorem Telling.not_after_cut {digits name z u v : List UInt8} (h : Telling name)
    (hdigits : ∀ b ∈ digits, 48 ≤ b ∧ b ≤ 57) (hne : u ≠ [])
    (hcut : v ++ u = ellipsisByte :: 0x80 :: 0xA6 :: digits) {w : List UInt8} :
    u ++ w ≠ name ++ z := by
  intro heq
  rcases h.starts with ⟨b, c, rest, rfl, hascii, hdigit, -⟩
  cases u with
  | nil => exact hne rfl
  | cons b' u =>
      have hb : b' = b := (List.cons.inj heq).1
      have hmem : b ∈ ellipsisByte :: 0x80 :: 0xA6 :: digits := by
        rw [← hcut, hb]
        exact List.mem_append_right _ List.mem_cons_self
      simp only [List.mem_cons] at hmem
      rcases hmem with rfl | rfl | rfl | hmem
      · exact absurd hascii (by decide)
      · exact absurd hascii (by decide)
      · exact absurd hascii (by decide)
      · rcases hdigit with hlow | hhigh
        · exact absurd (hdigits b hmem).1 (UInt8.not_le.mpr hlow)
        · exact absurd (hdigits b hmem).2 (UInt8.not_le.mpr hhigh)

theorem not_in_value {name m u w z : List UInt8} (hname : Telling name)
    (hvalue : Material cap (m ++ u)) (hne : u ≠ []) (hrest : Reading cap .top (bar :: w))
    (hread : Reading cap .top (name ++ z)) : u ++ bar :: w ≠ name ++ z := by
  intro heq
  generalize hmu : m ++ u = v at hvalue
  cases hvalue with
  | text hscan =>
      rw [← hmu, scan_append, Option.bind_eq_some_iff] at hscan
      rcases hscan with ⟨q, -, hscan⟩
      have hmat := Reading.text hscan hne hrest 0
      rw [heq] at hmat
      rw [hmat.out_of_top hread] at hmat
      exact hname.not_read hmat
  | cut hlen hscan hdigits =>
      rcases List.append_eq_append_iff.mp hmu with ⟨a, rfl, ha⟩ | ⟨a, rfl, ha⟩
      · rw [scan_append, Option.bind_eq_some_iff] at hscan
        rcases hscan with ⟨q, -, hscan⟩
        rw [List.length_append] at hlen
        by_cases hnil : a = []
        · rw [hnil, List.nil_append] at ha
          exact @Telling.not_after_cut _ name z u [] hname hdigits hne ha _ heq
        · have hmat := Reading.start hscan hnil hlen (Reading.ellipsis hdigits hrest)
          rw [ha, List.append_assoc] at heq
          have hsame : a ++ ellipsisByte :: 0x80 :: 0xA6 :: (_ ++ bar :: w) = name ++ z := heq
          rw [hsame] at hmat
          rw [hmat.out_of_top hread] at hmat
          exact hname.not_read hmat
      · exact hname.not_after_cut hdigits hne ha.symm heq

theorem name_not_after_key {name a z : List UInt8} {k : κ} (hname : Telling name)
    (hvalue : Material cap (value k))
    (hrest : Reading cap .top (bar :: QuotedRecords.records label keys value))
    (hread : Reading cap .top (name ++ equals :: z))
    (hlater : ∀ e, QuotedRecords.records label keys value ≠ e ++ (name ++ equals :: z)) :
    equals :: (value k ++ bar :: QuotedRecords.records label keys value) ≠
      a ++ (name ++ equals :: z) := by
  intro heq
  rcases hname.starts with ⟨b, c, rest, hcons, -, -, hbar, hequals, -⟩
  cases a with
  | nil =>
      rw [hcons] at heq
      exact hequals (List.cons.inj heq).1.symm
  | cons x a =>
      rcases List.append_eq_append_iff.mp (List.cons.inj heq).2 with ⟨u, -, hu⟩ | ⟨u, hval, hu⟩
      · cases u with
        | nil =>
            rw [hcons] at hu
            exact hbar (List.cons.inj hu).1.symm
        | cons y u => exact hlater u (List.cons.inj hu).2
      · cases u with
        | nil =>
            rw [hcons] at hu
            exact hbar (List.cons.inj hu).1
        | cons y u =>
            rw [hval] at hvalue
            exact not_in_value hname hvalue (List.cons_ne_nil _ _) hrest hread hu.symm

theorem name_not_in_records {name z : List UInt8} (hcap : 0 < cap) (hname : Telling name)
    (hkeys : ∀ k ∈ keys, IsKey (label k)) (hvalue : ∀ k ∈ keys, Material cap (value k))
    (hfresh : ∀ k ∈ keys, ¬ name <:+ label k) (hread : Reading cap .top (name ++ equals :: z)) :
    ∀ e, QuotedRecords.records label keys value ≠ e ++ (name ++ equals :: z) := by
  induction keys with
  | nil =>
      intro e heq
      have hlength := congrArg List.length heq
      simp [QuotedRecords.records] at hlength
  | cons k keys ih =>
      have hkeys' : ∀ k' ∈ keys, IsKey (label k') := fun k' hk' => hkeys k' (List.mem_cons_of_mem _ hk')
      have hvalue' : ∀ k' ∈ keys, Material cap (value k') :=
        fun k' hk' => hvalue k' (List.mem_cons_of_mem _ hk')
      have hlater := ih hkeys' hvalue' fun k' hk' => hfresh k' (List.mem_cons_of_mem _ hk')
      have hrest := (Reading.records hcap hkeys' hvalue').afterBar (head_records hkeys')
      intro e heq
      rw [records_cons] at heq
      rcases List.append_eq_append_iff.mp heq with ⟨a, -, ha⟩ | ⟨u, hk, hu⟩
      · exact name_not_after_key hname (hvalue k List.mem_cons_self) hrest hread hlater ha
      · have hkey := hkeys k List.mem_cons_self
        have hnone : equals ∉ u := by
          intro hmem
          apply hkey.noEquals
          rw [hk]
          exact List.mem_append_right _ hmem
        have hsame := (Text.append_cons_first_inj hu hname.key.noEquals hnone).1
        apply hfresh k List.mem_cons_self
        rw [hk, hsame]
        exact List.suffix_append e u

theorem nothing_before_records {k : κ} {e : List UInt8} (hcap : 0 < cap)
    (hname : Telling (label k)) (hkeys : ∀ k' ∈ keys, IsKey (label k'))
    (hfresh : ∀ k' ∈ keys, ¬ label k <:+ label k')
    (hvalue : ∀ k' ∈ k :: keys, Material cap (value k'))
    (hvalue' : ∀ k' ∈ k :: keys, Material cap (value' k'))
    (heq : QuotedRecords.records label (k :: keys) value =
      e ++ QuotedRecords.records label (k :: keys) value') : e = [] := by
  have hall : ∀ k' ∈ k :: keys, IsKey (label k') := by
    intro k' hk
    rcases List.mem_cons.mp hk with rfl | hmem
    · exact hname.key
    · exact hkeys k' hmem
  have hlater : ∀ k' ∈ keys, Material cap (value k') :=
    fun k' hk => hvalue k' (List.mem_cons_of_mem _ hk)
  have hread := Reading.records hcap hall hvalue'
  rw [records_cons] at hread
  rw [records_cons, records_cons] at heq
  rcases List.append_eq_append_iff.mp heq with ⟨a, -, ha⟩ | ⟨u, hk, hu⟩
  · have hrest := (Reading.records hcap hkeys hlater).afterBar (head_records hkeys)
    have hnot := name_not_in_records hcap hname hkeys hlater hfresh hread
    exact absurd ha
      (name_not_after_key hname (hvalue k List.mem_cons_self) hrest hread hnot)
  · have hnone : equals ∉ u := by
      intro hmem
      apply hname.key.noEquals
      rw [hk]
      exact List.mem_append_right _ hmem
    have hsame := (Text.append_cons_first_inj hu hname.key.noEquals hnone).1
    have hlength := congrArg List.length hk
    rw [List.length_append, hsame] at hlength
    apply List.eq_nil_of_length_eq_zero
    omega

theorem before_records_inj {k : κ} {d d' : List UInt8} (hcap : 0 < cap)
    (hname : Telling (label k)) (hkeys : ∀ k' ∈ keys, IsKey (label k'))
    (hfresh : ∀ k' ∈ keys, ¬ label k <:+ label k')
    (hvalue : ∀ k' ∈ k :: keys, Material cap (value k'))
    (hvalue' : ∀ k' ∈ k :: keys, Material cap (value' k'))
    (heq : d ++ QuotedRecords.records label (k :: keys) value =
      d' ++ QuotedRecords.records label (k :: keys) value') : d = d' := by
  rcases List.append_eq_append_iff.mp heq with ⟨e, rfl, he⟩ | ⟨e, rfl, he⟩
  · rw [nothing_before_records hcap hname hkeys hfresh hvalue hvalue' he, List.append_nil]
  · rw [nothing_before_records hcap hname hkeys hfresh hvalue' hvalue he, List.append_nil]

end Records

end QuotedRecords

end GrServer
