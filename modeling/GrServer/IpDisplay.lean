import GrServer.IpText

/-!
# Writing an address

`Display` of Rust's addresses: octets in decimal, groups in hexadecimal with
the longest run of zeros left out, and a dotted tail for an IPv4 address in
IPv6 form.  The parser reads back what is written.
-/

namespace GrServer

open Text

namespace IpAddr

/-! ## Numbers and their digits -/

def splitGroups (width : ℕ) : ℕ → ℕ → List ℕ
  | 0, _ => []
  | count + 1, n => splitGroups width count (n / 2 ^ width) ++ [n % 2 ^ width]

theorem length_splitGroups (width count n : ℕ) : (splitGroups width count n).length = count := by
  induction count generalizing n with
  | zero => rfl
  | succ count ih =>
      unfold splitGroups
      rw [List.length_append, ih]
      rfl

theorem lt_of_mem_splitGroups {width count n g : ℕ} (h : g ∈ splitGroups width count n) :
    g < 2 ^ width := by
  induction count generalizing n with
  | zero => cases h
  | succ count ih =>
      unfold splitGroups at h
      rcases List.mem_append.mp h with hg | hg
      · exact ih hg
      · rw [List.mem_singleton.mp hg]
        exact Nat.mod_lt _ (Nat.two_pow_pos width)

theorem ofGroups_append (width g : ℕ) (groups : List ℕ) :
    ofGroups width (groups ++ [g]) = ofGroups width groups * 2 ^ width + g := by
  unfold ofGroups
  rw [List.foldl_append]
  rfl

theorem ofGroups_splitGroups (width count n : ℕ) :
    ofGroups width (splitGroups width count n) = n % 2 ^ (width * count) := by
  induction count generalizing n with
  | zero =>
      rw [Nat.mul_zero, pow_zero, Nat.mod_one]
      rfl
  | succ count ih =>
      unfold splitGroups
      rw [ofGroups_append, ih, Nat.mul_succ, Nat.pow_add, Nat.mul_comm (2 ^ (width * count)),
        Nat.mod_mul, Nat.mul_comm, Nat.add_comm]

def octets (value : BitVec 32) : List ℕ := splitGroups 8 4 value.toNat

def segments (value : BitVec 128) : List ℕ := splitGroups 16 8 value.toNat

def bytesOf (width n : ℕ) : List UInt8 := (splitGroups 8 width n).map UInt8.ofNat

def valueOf (bytes : List UInt8) : ℕ := ofGroups 8 (bytes.map UInt8.toNat)

theorem valueOf_bytesOf (width n : ℕ) : valueOf (bytesOf width n) = n % 2 ^ (8 * width) := by
  have hbytes : (bytesOf width n).map UInt8.toNat = splitGroups 8 width n := by
    unfold bytesOf
    rw [List.map_map]
    refine (List.map_congr_left ?_).trans (List.map_id _)
    intro g hg
    exact UInt8.toNat_ofNat_of_lt' (lt_of_mem_splitGroups hg)
  unfold valueOf
  rw [hbytes, ofGroups_splitGroups]

theorem length_bytesOf (width n : ℕ) : (bytesOf width n).length = width := by
  unfold bytesOf
  rw [List.length_map, length_splitGroups]

/-! ## Writing -/

def writeParts (sep : Char) (radix : ℕ) : List ℕ → Text
  | [] => []
  | first :: tail => Nat.toDigits radix first ++ tail.flatMap fun n => sep :: Nat.toDigits radix n

def displayV4 (value : BitVec 32) : Text := writeParts '.' 10 (octets value)

structure Span where
  start : ℕ
  len : ℕ

/-- The first of the longest runs of zeros: `i` groups are behind, the last of them
the current run. -/
def longestZeros : List ℕ → ℕ → Span → Span → Span
  | [], _, _, longest => longest
  | segment :: rest, i, current, longest =>
      if segment = 0 then
        let current : Span := ⟨if current.len = 0 then i else current.start, current.len + 1⟩
        longestZeros rest (i + 1) current (if longest.len < current.len then current else longest)
      else longestZeros rest (i + 1) ⟨0, 0⟩ longest

def displayV6 (value : BitVec 128) : Text :=
  if value.toNat / 2 ^ 32 = 0xffff then
    "::ffff:".toList ++ displayV4 (BitVec.ofNat 32 value.toNat)
  else
    let groups := segments value
    let zeros := longestZeros groups 0 ⟨0, 0⟩ ⟨0, 0⟩
    if 1 < zeros.len then
      writeParts ':' 16 (groups.take zeros.start) ++
        (':' :: ':' :: writeParts ':' 16 (groups.drop (zeros.start + zeros.len)))
    else writeParts ':' 16 groups

def display : IpAddr → Text
  | v4 value => displayV4 value
  | v6 value => displayV6 value

def ZeroRun (groups : List ℕ) (run : Span) : Prop :=
  run.start + run.len ≤ groups.length ∧
    ∀ j, run.start ≤ j → j < run.start + run.len → groups[j]? = some 0

theorem ZeroRun.append {groups : List ℕ} {run : Span} (h : ZeroRun groups run)
    (more : List ℕ) : ZeroRun (groups ++ more) run := by
  constructor
  · rw [List.length_append]
    exact h.1.trans (Nat.le_add_right _ _)
  · intro j hfrom hto
    rw [List.getElem?_append_left (by have := h.1; omega)]
    exact h.2 j hfrom hto

theorem zeroRun_nil (groups : List ℕ) : ZeroRun groups ⟨0, 0⟩ :=
  ⟨Nat.zero_le _, fun j _ hto => absurd hto (by simp)⟩

theorem zeroRun_longestZeros {groups front rest : List ℕ} {current longest : Span}
    (hgroups : groups = front ++ rest) (hcurrent : ZeroRun front current)
    (hends : current.len ≠ 0 → current.start + current.len = front.length)
    (hlongest : ZeroRun groups longest) :
    ZeroRun groups (longestZeros rest front.length current longest) := by
  induction rest generalizing front current longest with
  | nil => exact hlongest
  | cons segment rest ih =>
      have hnext : groups = (front ++ [segment]) ++ rest := by
        rw [hgroups, List.append_assoc]
        rfl
      have hlength : front.length + 1 = (front ++ [segment]).length := by simp
      unfold longestZeros
      rw [hlength]
      by_cases hzero : segment = 0
      · rw [if_pos hzero]
        have hrun : ZeroRun (front ++ [segment])
            ⟨if current.len = 0 then front.length else current.start, current.len + 1⟩ := by
          by_cases hlen : current.len = 0
          · rw [if_pos hlen, hlen]
            constructor
            · simp
            · intro j hfrom hto
              have hj : j = front.length := by
                dsimp only at hfrom hto
                omega
              rw [hj, hzero]
              simp
          · have hend := hends hlen
            rw [if_neg hlen]
            constructor
            · rw [List.length_append, List.length_singleton]
              dsimp only
              omega
            · intro j hfrom hto
              dsimp only at hfrom hto
              by_cases hj : j < front.length
              · rw [List.getElem?_append_left hj]
                exact hcurrent.2 j hfrom (by omega)
              · have hlast : j = front.length := by omega
                rw [hlast, hzero]
                simp
        have hrunEnds : (if current.len = 0 then front.length else current.start) +
            (current.len + 1) = (front ++ [segment]).length := by
          rw [List.length_append, List.length_singleton]
          by_cases hlen : current.len = 0
          · rw [if_pos hlen, hlen]
          · rw [if_neg hlen, ← hends hlen, Nat.add_assoc]
        dsimp only
        by_cases hlonger : longest.len < current.len + 1
        · rw [if_pos hlonger]
          exact ih hnext hrun (fun _ => hrunEnds) (hnext ▸ hrun.append rest)
        · rw [if_neg hlonger]
          exact ih hnext hrun (fun _ => hrunEnds) hlongest
      · rw [if_neg hzero]
        exact ih hnext (zeroRun_nil _) (fun h => absurd rfl h) hlongest

theorem ZeroRun.eq {groups : List ℕ} {run : Span} (h : ZeroRun groups run) :
    groups.take run.start ++ List.replicate run.len 0 ++ groups.drop (run.start + run.len) =
      groups := by
  have hrun : (groups.drop run.start).take run.len = List.replicate run.len 0 := by
    apply List.ext_getElem?
    intro j
    by_cases hj : j < run.len
    · rw [List.getElem?_take_of_lt hj, List.getElem?_drop, List.getElem?_replicate, if_pos hj]
      exact h.2 _ (Nat.le_add_right _ _) (by omega)
    · rw [List.getElem?_eq_none (by rw [List.length_take]; omega),
        List.getElem?_eq_none (by rw [List.length_replicate]; omega)]
  rw [← hrun, List.append_assoc, ← List.drop_drop, List.take_append_drop, List.take_append_drop]

/-! ## Reading what was written -/

theorem digitOf_of_lt {radix radix' d : ℕ} {c : Char} (h : digitOf radix c = some d)
    (hle : radix' ≤ radix) (hd : d < radix') : digitOf radix' c = some d := by
  have hwide : d < radix := hd.trans_le hle
  unfold digitOf at h ⊢
  dsimp only at h ⊢
  split_ifs at h ⊢
  all_goals cases h
  all_goals first | rfl | omega

theorem digitOf_digitChar {radix d : ℕ} (hradix : radix ≤ 16) (hd : d < radix) :
    digitOf radix (Nat.digitChar d) = some d := by
  have hall : ∀ d < 16, digitOf 16 (Nat.digitChar d) = some d := by decide
  exact digitOf_of_lt (hall d (by omega)) hradix hd

theorem readDigits_cons {radix d : ℕ} {c : Char} (hd : digitOf radix c = some d) (cs : Text) :
    readDigits radix (c :: cs) = (d :: (readDigits radix cs).1, (readDigits radix cs).2) := by
  rw [readDigits, hd]

theorem readDigits_digits {radix : ℕ} {s : Text} {ds : List ℕ}
    (h : readDigits radix s = (ds, [])) (rest : Text) :
    readDigits radix (s ++ rest) =
      (ds ++ (readDigits radix rest).1, (readDigits radix rest).2) := by
  induction s generalizing ds with
  | nil =>
      cases h
      rfl
  | cons c cs ih =>
      cases hd : digitOf radix c with
      | none =>
          rw [readDigits, hd] at h
          cases h
      | some d =>
          rw [readDigits_cons hd] at h
          cases hcs : readDigits radix cs with
          | mk ds' left =>
              rw [hcs] at h
              cases h
              rw [List.cons_append, readDigits_cons hd, ih hcs]
              rfl

theorem readDigits_toDigits {radix : ℕ} (hlow : 1 < radix) (hradix : radix ≤ 16) (n : ℕ) :
    ∃ ds, readDigits radix (Nat.toDigits radix n) = (ds, []) ∧
      ds.foldl (fun n d => n * radix + d) 0 = n ∧
        ds.length = (Nat.toDigits radix n).length ∧ (ds.head? = some 0 → n = 0) := by
  induction n using Nat.strong_induction_on with
  | _ n ih =>
      have hone {d : ℕ} (hd : d < radix) : readDigits radix [Nat.digitChar d] = ([d], []) := by
        unfold readDigits
        rw [digitOf_digitChar hradix hd]
        rfl
      rw [Nat.toDigits_eq_if hlow]
      by_cases hlt : n < radix
      · rw [if_pos hlt]
        exact ⟨[n], hone hlt, by simp, rfl, by simp⟩
      · rw [if_neg hlt]
        rcases ih (n / radix) (Nat.div_lt_self (by omega) hlow) with
          ⟨ds, hread, hvalue, hlen, hhead⟩
        have hlast := hone (Nat.mod_lt n (by omega))
        refine ⟨ds ++ [n % radix], ?_, ?_, ?_, ?_⟩
        · rw [readDigits_digits hread, hlast]
        · rw [List.foldl_append, hvalue]
          exact Nat.div_add_mod' n radix
        · simp [hlen]
        · intro h
          have hne : ds ≠ [] := by
            intro hnil
            rw [hnil] at hlen
            exact absurd hlen.symm Nat.length_toDigits_pos.ne'
          rw [List.head?_append_of_ne_nil _ hne] at h
          have hzero := Nat.div_eq_zero_iff.mp (hhead h)
          omega

def NoDigit (radix : ℕ) (rest : Text) : Prop :=
  ∀ c, rest.head? = some c → digitOf radix c = none

theorem readNumber_toDigits {radix maxDigits bound n : ℕ} (zeroPrefix : Bool)
    (hlow : 1 < radix) (hradix : radix ≤ 16) (hmax : 0 < maxDigits)
    (hn : n < bound) (hdigits : n < radix ^ maxDigits) {rest : Text} (hrest : NoDigit radix rest) :
    readNumber radix maxDigits bound zeroPrefix (Nat.toDigits radix n ++ rest) =
      some (n, rest) := by
  rcases readDigits_toDigits hlow hradix n with ⟨ds, hread, hvalue, hlen, hhead⟩
  have hle := (Nat.length_toDigits_le_iff hlow hmax).mpr hdigits
  have hpos : 0 < (Nat.toDigits radix n).length := Nat.length_toDigits_pos
  have hplain : readNumber radix maxDigits bound zeroPrefix (Nat.toDigits radix n) =
      some (n, []) := by
    unfold readNumber
    rw [hread]
    dsimp only
    rw [hvalue]
    have hok : ¬(ds = [] ∨ maxDigits < ds.length) := by
      rintro (hnil | hlong)
      · rw [hnil] at hlen
        exact absurd hlen.symm hpos.ne'
      · omega
    have hzero : ¬(¬zeroPrefix = true ∧ ds.head? = some 0 ∧ 1 < ds.length) := by
      rintro ⟨-, h, hlong⟩
      rw [hlen, hhead h, Nat.toDigits_zero] at hlong
      exact absurd hlong (by simp)
    rw [if_neg hok, if_neg hzero, if_pos hn]
  cases rest with
  | nil => rw [List.append_nil, hplain]
  | cons c more => exact readNumber_append (hrest c rfl) hplain more

theorem noDigit_cons {radix : ℕ} {c : Char} (hc : digitOf radix c = none) (rest : Text) :
    NoDigit radix (c :: rest) := by
  intro d hd
  rw [← Option.some.inj hd]
  exact hc

theorem noDigit_nil (radix : ℕ) : NoDigit radix [] := nofun

theorem noDigit_flatMap {radix : ℕ} {sep : Char} (hsep : digitOf radix sep = none)
    (tail : List ℕ) {rest : Text} (hrest : NoDigit radix rest) :
    NoDigit radix ((tail.flatMap fun n => sep :: Nat.toDigits radix n) ++ rest) := by
  cases tail with
  | nil => exact hrest
  | cons n tail => exact noDigit_cons hsep _

theorem readSeparator_self (sep : Char) (index : ℕ) (rest : Text) :
    readSeparator sep (index + 1) (sep :: rest) = some rest := by
  rw [readSeparator, if_neg (Nat.succ_ne_zero index), readChar, if_pos rfl]

theorem readOctet {n : ℕ} (hn : n < 256) {rest : Text} (hrest : NoDigit 10 rest) :
    readNumber 10 3 256 false (Nat.toDigits 10 n ++ rest) = some (n, rest) :=
  readNumber_toDigits false (by decide) (by decide) (by decide) hn (by omega) hrest

theorem readOctets_tail (tail : List ℕ) (htail : ∀ n ∈ tail, n < 256) (index : ℕ) {rest : Text}
    (hrest : NoDigit 10 rest) :
    readOctets tail.length (index + 1)
        ((tail.flatMap fun n => '.' :: Nat.toDigits 10 n) ++ rest) = some (tail, rest) := by
  induction tail generalizing index with
  | nil => rfl
  | cons n tail ih =>
      rcases List.forall_mem_cons.mp htail with ⟨hn, htail⟩
      have hbehind := @noDigit_flatMap 10 '.' (by decide) tail rest hrest
      rw [List.flatMap_cons, List.length_cons, readOctets, List.cons_append, List.cons_append,
        readSeparator_self, List.append_assoc]
      simp only [bind, Option.bind_some, readOctet hn hbehind, ih htail (index + 1)]
      rfl

theorem readIpv4_writeParts {parts : List ℕ} (hlen : parts.length = 4)
    (hparts : ∀ n ∈ parts, n < 256) {rest : Text} (hrest : NoDigit 10 rest) :
    readIpv4 (writeParts '.' 10 parts ++ rest) = some (parts, rest) := by
  cases parts with
  | nil => cases hlen
  | cons n tail =>
      rcases List.forall_mem_cons.mp hparts with ⟨hn, htail⟩
      have hbehind := @noDigit_flatMap 10 '.' (by decide) tail rest hrest
      have htailLen : tail.length = 3 := Nat.succ.inj hlen
      have hread := readOctets_tail tail htail 0 hrest
      rw [htailLen] at hread
      unfold readIpv4 writeParts
      rw [readOctets, List.append_assoc]
      simp only [bind, readSeparator, if_true, Option.bind_some, readOctet hn hbehind, hread]
      rfl

theorem readIpv4_displayV4 (value : BitVec 32) {rest : Text} (hrest : NoDigit 10 rest) :
    readIpv4 (displayV4 value ++ rest) = some (octets value, rest) :=
  readIpv4_writeParts (length_splitGroups 8 4 _) (fun _ => lt_of_mem_splitGroups) hrest

theorem dot_mem_of_readIpv4 {s : Text} {read : List ℕ × Text} (h : readIpv4 s = some read) :
    '.' ∈ s := by
  unfold readIpv4 at h
  rw [readOctets] at h
  simp only [bind, readSeparator, if_true, Option.bind_some, Option.bind_eq_some_iff] at h
  rcases h with ⟨⟨n, behind⟩, hnumber, ⟨others, left⟩, hrest, -⟩
  rw [readOctets] at hrest
  simp only [bind, Option.bind_eq_some_iff] at hrest
  rcases hrest with ⟨behindDot, hdot, -⟩
  rcases took_readNumber (by decide) hnumber with ⟨taken, rfl, -⟩
  rw [readSeparator, if_neg (by decide)] at hdot
  cases behind with
  | nil => cases hdot
  | cons c cs =>
      rw [readChar] at hdot
      by_cases hc : c = '.'
      · rw [hc]
        simp
      · rw [if_neg hc] at hdot
        cases hdot

theorem no_embedded {index : ℕ} {s : Text} (h : '.' ∉ s) :
    (readSeparator ':' index s).bind readIpv4 = none := by
  cases hsep : readSeparator ':' index s with
  | none => rfl
  | some behind =>
      cases hread : readIpv4 behind with
      | none => simp [hread]
      | some read =>
          rcases took_readSeparator (by decide) hsep with ⟨taken, rfl, -⟩
          have hdot := dot_mem_of_readIpv4 hread
          exact absurd (List.mem_append_right _ hdot) h

def Ends (rest : Text) : Prop :=
  ∀ limit index, readGroups limit index rest = ([], false, rest)

theorem ends_nil : Ends [] := by
  intro limit index
  cases limit with
  | zero => rfl
  | succ limit =>
      cases index with
      | zero => cases limit <;> rfl
      | succ index => cases limit <;> rfl

theorem ends_colons (rest : Text) : Ends (':' :: ':' :: rest) := by
  intro limit index
  cases limit with
  | zero => rfl
  | succ limit =>
      cases index with
      | zero => cases limit <;> rfl
      | succ index => cases limit <;> rfl

theorem readGroup {n : ℕ} (hn : n < 65536) {rest : Text} (hrest : NoDigit 16 rest) :
    readNumber 16 4 65536 true (Nat.toDigits 16 n ++ rest) = some (n, rest) :=
  readNumber_toDigits true (by decide) (by decide) (by decide) hn (by omega) hrest

theorem readGroups_cons {limit index n : ℕ} {s rest : Text} (hdot : '.' ∉ s)
    (h : (readSeparator ':' index s).bind (readNumber 16 4 65536 true) = some (n, rest)) :
    readGroups (limit + 1) index s =
      (n :: (readGroups limit (index + 1) rest).1, (readGroups limit (index + 1) rest).2) := by
  have hembedded : (if 0 < limit then (readSeparator ':' index s).bind readIpv4 else none) =
      none := by
    rw [no_embedded hdot]
    split_ifs <;> rfl
  rw [readGroups]
  dsimp only
  rw [hembedded, h]

theorem dot_not_mem_toDigits (n : ℕ) : '.' ∉ Nat.toDigits 16 n :=
  hexDigit_not_mem (by decide) n

theorem dot_not_mem_flatMap (tail : List ℕ) :
    '.' ∉ tail.flatMap fun n => ':' :: Nat.toDigits 16 n := by
  intro h
  rcases List.mem_flatMap.mp h with ⟨n, -, hn⟩
  rcases List.mem_cons.mp hn with hn | hn
  · exact absurd hn (by decide)
  · exact dot_not_mem_toDigits n hn

theorem readGroups_tail (tail : List ℕ) (htail : ∀ n ∈ tail, n < 65536) {limit : ℕ}
    (hlimit : tail.length ≤ limit) (index : ℕ) {rest : Text} (hdot : '.' ∉ rest)
    (hends : Ends rest) (hrest : NoDigit 16 rest) :
    readGroups limit (index + 1) ((tail.flatMap fun n => ':' :: Nat.toDigits 16 n) ++ rest) =
      (tail, false, rest) := by
  induction tail generalizing limit index with
  | nil => exact hends _ _
  | cons n tail ih =>
      rcases List.forall_mem_cons.mp htail with ⟨hn, htail⟩
      have hbehind := @noDigit_flatMap 16 ':' (by decide) tail rest hrest
      have hnoDot : '.' ∉ ((n :: tail).flatMap fun n => ':' :: Nat.toDigits 16 n) ++ rest :=
        List.not_mem_append (dot_not_mem_flatMap _) hdot
      cases limit with
      | zero => exact absurd hlimit (by simp)
      | succ limit =>
          have hgroup : (readSeparator ':' (index + 1)
              (((n :: tail).flatMap fun n => ':' :: Nat.toDigits 16 n) ++ rest)).bind
                (readNumber 16 4 65536 true) =
              some (n, (tail.flatMap fun n => ':' :: Nat.toDigits 16 n) ++ rest) := by
            rw [List.flatMap_cons, List.cons_append, List.cons_append, readSeparator_self,
              List.append_assoc]
            exact readGroup hn hbehind
          rw [readGroups_cons hnoDot hgroup,
            ih htail (Nat.le_of_succ_le_succ hlimit) (index + 1)]

theorem dot_not_mem_writeParts (parts : List ℕ) : '.' ∉ writeParts ':' 16 parts := by
  cases parts with
  | nil => exact List.not_mem_nil
  | cons n tail => exact List.not_mem_append (dot_not_mem_toDigits n) (dot_not_mem_flatMap tail)

theorem readGroups_writeParts {parts : List ℕ} (hparts : ∀ n ∈ parts, n < 65536) {limit : ℕ}
    (hlimit : parts.length ≤ limit) {rest : Text} (hdot : '.' ∉ rest) (hends : Ends rest)
    (hrest : NoDigit 16 rest) :
    readGroups limit 0 (writeParts ':' 16 parts ++ rest) = (parts, false, rest) := by
  cases parts with
  | nil => exact hends _ _
  | cons n tail =>
      rcases List.forall_mem_cons.mp hparts with ⟨hn, htail⟩
      have hbehind := @noDigit_flatMap 16 ':' (by decide) tail rest hrest
      have hnoDot : '.' ∉ writeParts ':' 16 (n :: tail) ++ rest :=
        List.not_mem_append (dot_not_mem_writeParts _) hdot
      cases limit with
      | zero => exact absurd hlimit (by simp)
      | succ limit =>
          have hgroup : (readSeparator ':' 0 (writeParts ':' 16 (n :: tail) ++ rest)).bind
              (readNumber 16 4 65536 true) =
              some (n, (tail.flatMap fun n => ':' :: Nat.toDigits 16 n) ++ rest) := by
            rw [writeParts, List.append_assoc]
            exact readGroup hn hbehind
          rw [readGroups_cons hnoDot hgroup,
            readGroups_tail tail htail (Nat.le_of_succ_le_succ hlimit) 0 hdot hends hrest]

theorem readIpv6_full {groups : List ℕ} (hlen : groups.length = 8)
    (hgroups : ∀ g ∈ groups, g < 65536) :
    readIpv6 (writeParts ':' 16 groups) = some (groups, []) := by
  have hread := readGroups_writeParts hgroups hlen.le List.not_mem_nil ends_nil (noDigit_nil 16)
  rw [List.append_nil] at hread
  unfold readIpv6
  rw [hread]
  simp only [hlen, if_true]
  rfl

theorem readIpv6_compressed {groups : List ℕ} {run : Span} (hlen : groups.length = 8)
    (hgroups : ∀ g ∈ groups, g < 65536) (hrun : ZeroRun groups run) (hlong : 1 < run.len) :
    readIpv6 (writeParts ':' 16 (groups.take run.start) ++
      (':' :: ':' :: writeParts ':' 16 (groups.drop (run.start + run.len)))) =
        some (groups, []) := by
  have hend : run.start + run.len ≤ 8 := hlen ▸ hrun.1
  have htakeLen : (groups.take run.start).length = run.start := by
    rw [List.length_take]
    omega
  have hdropLen : (groups.drop (run.start + run.len)).length = 8 - (run.start + run.len) := by
    rw [List.length_drop, hlen]
  have hnoDot : '.' ∉ ':' :: ':' :: writeParts ':' 16 (groups.drop (run.start + run.len)) := by
    simpa using dot_not_mem_writeParts _
  have hhead : readGroups 8 0 (writeParts ':' 16 (groups.take run.start) ++
      (':' :: ':' :: writeParts ':' 16 (groups.drop (run.start + run.len)))) =
        (groups.take run.start, false,
          ':' :: ':' :: writeParts ':' 16 (groups.drop (run.start + run.len))) :=
    readGroups_writeParts (fun g hg => hgroups g (List.mem_of_mem_take hg)) (by omega) hnoDot
      (ends_colons _) (noDigit_cons (by decide) _)
  have htail : readGroups (8 - (run.start + 1)) 0
      (writeParts ':' 16 (groups.drop (run.start + run.len)) ++ []) =
        (groups.drop (run.start + run.len), false, []) :=
    readGroups_writeParts (fun g hg => hgroups g (List.mem_of_mem_drop hg)) (by omega)
      List.not_mem_nil ends_nil (noDigit_nil 16)
  have hzeros : 8 - run.start - (8 - (run.start + run.len)) = run.len := by omega
  rw [List.append_nil] at htail
  unfold readIpv6
  rw [hhead]
  simp only [htakeLen, bind, readChar, if_true, Option.bind_some, htail, hdropLen, hzeros,
    hrun.eq]
  rw [if_neg (by omega), if_neg (by decide)]
  rfl

theorem octets_eq (value : BitVec 32) : ∃ a b c d, octets value = [a, b, c, d] :=
  ⟨_, _, _, _, rfl⟩

theorem ofGroups_octets (value : BitVec 32) : ofGroups 8 (octets value) = value.toNat := by
  unfold octets
  rw [ofGroups_splitGroups]
  exact Nat.mod_eq_of_lt value.isLt

theorem ofGroups_segments (value : BitVec 128) : ofGroups 16 (segments value) = value.toNat := by
  unfold segments
  rw [ofGroups_splitGroups]
  exact Nat.mod_eq_of_lt value.isLt

theorem readIpv6_mapped (value : BitVec 32) :
    ∃ groups, readIpv6 ("::ffff:".toList ++ displayV4 value) = some (groups, []) ∧
      ofGroups 16 groups = 0xffff * 2 ^ 32 + value.toNat := by
  rcases octets_eq value with ⟨a, b, c, d, hoctets⟩
  have hipv4 := readIpv4_displayV4 value (noDigit_nil 10)
  rw [List.append_nil, hoctets] at hipv4
  have hlast : readGroups 6 1 (':' :: displayV4 value) =
      ([a * 256 + b, c * 256 + d], true, []) := by
    rw [readGroups]
    simp only [readSeparator_self, Option.bind_some, hipv4]
    rfl
  have hfirst : readGroups 7 0 ("ffff:".toList ++ displayV4 value) =
      ([0xffff, a * 256 + b, c * 256 + d], true, []) := by
    have hembedded : readIpv4 ("ffff:".toList ++ displayV4 value) = none := rfl
    have hgroup : readNumber 16 4 65536 true ("ffff:".toList ++ displayV4 value) =
        some (0xffff, ':' :: displayV4 value) :=
      @readGroup 0xffff (by decide) (':' :: displayV4 value) (noDigit_cons (by decide) _)
    rw [readGroups]
    simp only [readSeparator, if_true, Option.bind_some, hembedded, hgroup, hlast]
    rfl
  have hvalue := ofGroups_octets value
  rw [hoctets] at hvalue
  refine ⟨[0, 0, 0, 0, 0, 0xffff, a * 256 + b, c * 256 + d], ?_, ?_⟩
  · have hstart : readGroups 8 0 ("::ffff:".toList ++ displayV4 value) =
        ([], false, "::ffff:".toList ++ displayV4 value) := ends_colons _ 8 0
    have hcolons : "::ffff:".toList ++ displayV4 value =
        ':' :: ':' :: ("ffff:".toList ++ displayV4 value) := rfl
    unfold readIpv6
    rw [hstart, hcolons]
    simp only [bind, readChar, if_true, Option.bind_some, List.length_nil, Nat.zero_add, hfirst]
    rfl
  · rw [← hvalue]
    simp only [ofGroups, List.foldl_cons, List.foldl_nil]
    ring

theorem parse_displayV4 (value : BitVec 32) : parse (displayV4 value) = some (v4 value) := by
  have hread := readIpv4_displayV4 value (noDigit_nil 10)
  rw [List.append_nil] at hread
  unfold parse
  rw [hread]
  dsimp only
  rw [if_pos rfl, ofGroups_octets, BitVec.ofNat_toNat, BitVec.setWidth_eq]

theorem parse_of_readIpv6 {s : Text} {groups : List ℕ} {value : BitVec 128}
    (hipv4 : readIpv4 s = none) (hipv6 : readIpv6 s = some (groups, []))
    (hvalue : ofGroups 16 groups = value.toNat) : parse s = some (v6 value) := by
  unfold parse
  rw [hipv4, hipv6]
  dsimp only
  rw [if_pos rfl, hvalue, BitVec.ofNat_toNat, BitVec.setWidth_eq]

theorem readIpv4_eq_none {s : Text} (h : '.' ∉ s) : readIpv4 s = none := by
  cases hread : readIpv4 s with
  | none => rfl
  | some read => exact absurd (dot_mem_of_readIpv4 hread) h

theorem parse_displayV6 (value : BitVec 128) : parse (displayV6 value) = some (v6 value) := by
  have hlen : (segments value).length = 8 := length_splitGroups 16 8 _
  have hgroups : ∀ g ∈ segments value, g < 65536 := fun _ => lt_of_mem_splitGroups
  unfold displayV6
  by_cases hmapped : value.toNat / 2 ^ 32 = 0xffff
  · rw [if_pos hmapped]
    rcases readIpv6_mapped (BitVec.ofNat 32 value.toNat) with ⟨groups, hread, hvalue⟩
    have hipv4 : readIpv4 ("::ffff:".toList ++ displayV4 (BitVec.ofNat 32 value.toNat)) = none :=
      rfl
    refine parse_of_readIpv6 hipv4 hread ?_
    rw [hvalue, BitVec.toNat_ofNat, ← hmapped]
    exact Nat.div_add_mod' _ _
  · rw [if_neg hmapped]
    dsimp only
    by_cases hlong : 1 < (longestZeros (segments value) 0 ⟨0, 0⟩ ⟨0, 0⟩).len
    · have hrun : ZeroRun (segments value) (longestZeros (segments value) 0 ⟨0, 0⟩ ⟨0, 0⟩) :=
        @zeroRun_longestZeros _ [] _ _ _ rfl (zeroRun_nil _) (fun h => absurd rfl h)
          (zeroRun_nil _)
      rw [if_pos hlong]
      refine parse_of_readIpv6 (readIpv4_eq_none ?_)
        (readIpv6_compressed hlen hgroups hrun hlong) (ofGroups_segments value)
      simp [dot_not_mem_writeParts]
    · rw [if_neg hlong]
      exact parse_of_readIpv6 (readIpv4_eq_none (dot_not_mem_writeParts _))
        (readIpv6_full hlen hgroups) (ofGroups_segments value)

theorem parse_display (a : IpAddr) : parse (display a) = some a := by
  cases a with
  | v4 value => exact parse_displayV4 value
  | v6 value => exact parse_displayV6 value

example : display (v6 0x20010db8000000000000000000000001) = "2001:db8::1".toList := by
  decide

theorem display_inj {a b : IpAddr} (h : display a = display b) : a = b := by
  have hparse := parse_display a
  rw [h, parse_display] at hparse
  exact (Option.some.inj hparse).symm

end IpAddr

end GrServer
