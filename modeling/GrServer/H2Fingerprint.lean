import GrServer.Delimited
import GrServer.EdgeFingerprint
import GrServer.H2CaptureRuns

/-!
# HTTP/2 fingerprints

The records of all connections are in one table under the keys of their sockets,
from which the edge takes a connection's fingerprint.  The text of the
fingerprint can be taken apart again, up to a window update of zero.
-/

namespace GrServer

open Text WireBytes TlsHello

namespace H2Capture

abbrev Store := SortedMap String ClientH2Settings

def putSettings (store : Store) (key : String) (s : ClientH2Settings) : Store :=
  (if 50000 < store.entries.length then .empty else store).insert key s

def getClientH2Settings (store : Store) (connKey : String) : Option ClientH2Settings :=
  store.get? connKey

structure Listener (ι : Type*) where
  conns : ι → Conn := fun _ => {}
  store : Store := .empty

inductive ListenerEvent (ι : Type*) where
  | poll (i : ι) (e : PollEvent)
  | take (connKey : String)

variable {ι : Type*} [DecidableEq ι]

def Listener.step (key : ι → Option String) (l : Listener ι) : ListenerEvent ι → Listener ι
  | .poll i e =>
      let record := (pollRead (l.conns i).stream e.remaining e.inner).record
      { conns := Function.update l.conns i ((l.conns i).poll e)
        store := (record.bind fun r => (key i).map fun k => putSettings l.store k r).getD l.store }
  | .take k => { l with store := l.store.erase k }

structure H2Fingerprint where
  fingerprint : String
  fingerprintHash : String
  settingsPart : String
  windowUpdatePart : String
  priorityPart : String
  pseudoOrderPart : String

def pairText (pair : UInt16 × UInt32) : String :=
  pair.1.toNat.repr ++ ":" ++ pair.2.toNat.repr

def defaultPseudoOrder : String := "m,a,s,p"

def fingerprintH2SettingsEx (D : Digests) (settings : List (UInt16 × UInt32))
    (windowUpdate : Option UInt32) (priorityPart pseudoOrder : String) : H2Fingerprint :=
  let settingsPart := ";".intercalate (settings.map pairText)
  let windowUpdatePart := (windowUpdate.map fun w => w.toNat.repr).getD "0"
  let priorityPart := if priorityPart = "" then "0" else priorityPart
  let pseudoOrderPart := if pseudoOrder = "" then defaultPseudoOrder else pseudoOrder
  let fingerprint :=
    settingsPart ++ "|" ++ windowUpdatePart ++ "|" ++ priorityPart ++ "|" ++ pseudoOrderPart
  { fingerprint
    fingerprintHash :=
      String.ofList ((hexEncode (D.sha256 (asBytes fingerprint))).toList.take 16)
    settingsPart
    windowUpdatePart
    priorityPart
    pseudoOrderPart }

def fingerprintH2Settings (D : Digests) (settings : List (UInt16 × UInt32))
    (windowUpdate : Option UInt32) (pseudoOrder : String) : H2Fingerprint :=
  fingerprintH2SettingsEx D settings windowUpdate "0" pseudoOrder

/-- `capture_h2` for the key of a connection; `pseudo` is the override of the environment. -/
def captureH2 (D : Digests) (pseudo : Option String) (store : Store) (key : Option String) :
    Option EdgeFingerprint.H2Cap := do
  let key ← key
  let s ← getClientH2Settings store key
  let prio := if s.priorityFingerprint = "" then "0" else s.priorityFingerprint
  let pseudo := (pseudo.filter fun p => decide (p ≠ "")).getD defaultPseudoOrder
  let fp := fingerprintH2SettingsEx D s.rawPairs s.connectionWindowUpdate prio pseudo
  some
    { fingerprint := fp.fingerprint
      fingerprintHash := fp.fingerprintHash
      prefaceOk := s.prefaceOk
      windowUpdate := s.connectionWindowUpdate.map UInt32.toNat
      frameTypeSequence := s.frameTypeSequence.map UInt8.toNat
      priorityFingerprint := s.priorityFingerprint }

/-! ## What is in the table -/

theorem length_insert_le (store : Store) (k : String) (s : ClientH2Settings) :
    (store.insert k s).entries.length ≤ store.entries.length + 1 := by
  change (Assoc.insert k s store.entries).length ≤ _
  induction store.entries with
  | nil => exact Nat.le_refl _
  | cons entry rest ih =>
      unfold Assoc.insert
      split_ifs
      · rw [List.length_cons]
      · rw [List.length_cons, List.length_cons]
        omega
      · rw [List.length_cons, List.length_cons]
        omega

theorem length_putSettings_le {store : Store} (h : store.entries.length ≤ 50001) (k : String)
    (s : ClientH2Settings) : (putSettings store k s).entries.length ≤ 50001 := by
  unfold putSettings
  have hinsert := length_insert_le (if 50000 < store.entries.length then .empty else store) k s
  split_ifs at hinsert ⊢ with hlarge
  · have hempty : (SortedMap.empty : Store).entries.length = 0 := rfl
    omega
  · omega

theorem get?_putSettings {store : Store} {k j : String} {s r : ClientH2Settings}
    (h : (putSettings store k s).get? j = some r) :
    (j = k ∧ r = s) ∨ store.get? j = some r := by
  unfold putSettings at h
  rw [SortedMap.get?_insert] at h
  by_cases hkey : j = k
  · rw [if_pos hkey] at h
    exact Or.inl ⟨hkey, (Option.some.inj h).symm⟩
  · rw [if_neg hkey] at h
    split_ifs at h with hlarge
    · exact absurd h.symm (Option.some_ne_none r)
    · exact Or.inr h

theorem record_new {c : Conn} (h : c.Sound) {e : PollEvent} {r : ClientH2Settings}
    (hr : (pollRead c.stream e.remaining e.inner).record = some r) :
    (c.poll e).record = some r ∧ c.record = none := by
  have hnone : c.record = none := by
    cases hdone : c.stream.done with
    | false => exact (h.capturing hdone).2.2
    | true =>
        unfold pollRead at hr
        by_cases hpending : c.stream.pending = []
        · rw [if_neg (by simp [hpending]), if_pos hdone] at hr
          exact absurd hr.symm (Option.some_ne_none r)
        · rw [if_pos hpending] at hr
          exact absurd hr.symm (Option.some_ne_none r)
  refine ⟨?_, hnone⟩
  change (pollRead c.stream e.remaining e.inner).record.or c.record = some r
  rw [hr, Option.some_or]

theorem record_kept {c : Conn} (h : c.Sound) (e : PollEvent) {r : ClientH2Settings}
    (hr : c.record = some r) : (c.poll e).record = some r := by
  change (pollRead c.stream e.remaining e.inner).record.or c.record = some r
  cases hrecord : (pollRead c.stream e.remaining e.inner).record with
  | none => exact hr
  | some r' =>
      rw [(record_new h hrecord).2] at hr
      exact absurd hr.symm (Option.some_ne_none r)

/-- Every record in the table is that of a connection with its key. -/
structure Listener.Sound (key : ι → Option String) (l : Listener ι) : Prop where
  conns : ∀ i, (l.conns i).Sound
  stored : ∀ k r, l.store.get? k = some r → ∃ i, key i = some k ∧ (l.conns i).record = some r
  bound : l.store.entries.length ≤ 50001

omit [DecidableEq ι] in
theorem Listener.sound_start (key : ι → Option String) : Listener.Sound key {} where
  conns := fun _ => Conn.sound_start
  stored := fun _ r h => absurd h.symm (Option.some_ne_none r)
  bound := Nat.zero_le _

theorem Listener.Sound.polled {key : ι → Option String} {l : Listener ι} (h : l.Sound key) (i : ι)
    (e : PollEvent) {k : String} {r : ClientH2Settings} (hr : ∃ j, key j = some k ∧
      (l.conns j).record = some r) :
    ∃ j, key j = some k ∧ (Function.update l.conns i ((l.conns i).poll e) j).record = some r := by
  obtain ⟨j, hkey, hrecord⟩ := hr
  refine ⟨j, hkey, ?_⟩
  by_cases hj : j = i
  · subst hj
    rw [Function.update_self]
    exact record_kept (h.conns j) e hrecord
  · rw [Function.update_of_ne hj]
    exact hrecord

theorem Listener.Sound.step {key : ι → Option String} {l : Listener ι} (h : l.Sound key)
    (e : ListenerEvent ι) : (l.step key e).Sound key := by
  cases e with
  | take k =>
      refine ⟨h.conns, ?_, ?_⟩
      · intro j r hr
        change (l.store.erase k).get? j = some r at hr
        rw [SortedMap.get?_erase] at hr
        split_ifs at hr
        exact h.stored j r hr
      · exact (List.length_filter_le _ _).trans h.bound
  | poll i e =>
      have hconns : ∀ j, (Function.update l.conns i ((l.conns i).poll e) j).Sound := by
        intro j
        by_cases hj : j = i
        · subst hj
          rw [Function.update_self]
          exact (h.conns j).poll e
        · rw [Function.update_of_ne hj]
          exact h.conns j
      cases hstored : ((pollRead (l.conns i).stream e.remaining e.inner).record.bind fun r =>
          (key i).map fun k => putSettings l.store k r) with
      | none =>
          have hstep : l.step key (.poll i e) =
              { l with conns := Function.update l.conns i ((l.conns i).poll e) } := by
            simp only [Listener.step, hstored, Option.getD_none]
          rw [hstep]
          exact ⟨hconns, fun k r hr => h.polled i e (h.stored k r hr), h.bound⟩
      | some store =>
          obtain ⟨r, hrecord, hput⟩ := Option.bind_eq_some_iff.mp hstored
          obtain ⟨k, hkey, rfl⟩ := Option.map_eq_some_iff.mp hput
          have hstep : l.step key (.poll i e) =
              { conns := Function.update l.conns i ((l.conns i).poll e)
                store := putSettings l.store k r } := by
            simp only [Listener.step, hstored, Option.getD_some]
          rw [hstep]
          refine ⟨hconns, ?_, length_putSettings_le h.bound k r⟩
          intro j r' hr'
          rcases get?_putSettings hr' with ⟨rfl, rfl⟩ | hold
          · refine ⟨i, hkey, ?_⟩
            change (Function.update l.conns i ((l.conns i).poll e) i).record = some r'
            rw [Function.update_self]
            exact (record_new (h.conns i) hrecord).1
          · exact h.polled i e (h.stored j r' hold)

/-- However the polls of the connections interleave, what is found under a key is the
record of a connection with that key, of frames that this connection's client sent. -/
theorem stored_records (key : ι → Option String) (es : List (ListenerEvent ι)) (k : String)
    (r : ClientH2Settings)
    (h : getClientH2Settings (runFrom (Listener.step key) {} es).store k = some r) :
    ∃ i, key i = some k ∧ ((runFrom (Listener.step key) {} es).conns i).record = some r ∧
      RecordOf ((runFrom (Listener.step key) {} es).conns i).took r := by
  have hsound : (runFrom (Listener.step key) {} es).Sound key :=
    runFrom_invariant (fun _ e h => h.step e) (Listener.sound_start key) es
  obtain ⟨i, hkey, hrecord⟩ := hsound.stored k r h
  exact ⟨i, hkey, hrecord, (hsound.conns i).record r hrecord⟩

def splitRun : List (ListenerEvent Bool) :=
  let wire := preface ++ exampleSettings.bytes
  [.poll false ⟨64, .of (wire.take 30)⟩, .poll true ⟨64, .of wire⟩, .take "tuple:",
    .poll false ⟨64, .of (wire.drop 30)⟩]

def sameKey (_ : Bool) : Option String := some "tuple:192.0.2.7:50000-192.0.2.1:443"

theorem stored_records_split :
    ∃ i r, getClientH2Settings (runFrom (Listener.step sameKey) {} splitRun).store
        "tuple:192.0.2.7:50000-192.0.2.1:443" = some r ∧
      r.rawPairs = [(0x1, 65536), (0x4, 6291456)] ∧
      ((runFrom (Listener.step sameKey) {} splitRun).conns i).record = some r ∧
      RecordOf ((runFrom (Listener.step sameKey) {} splitRun).conns i).took r := by
  have hraw : (getClientH2Settings (runFrom (Listener.step sameKey) {} splitRun).store
      "tuple:192.0.2.7:50000-192.0.2.1:443").map ClientH2Settings.rawPairs =
        some [(0x1, 65536), (0x4, 6291456)] := by
    decide
  obtain ⟨r, hr, hpairs⟩ := Option.map_eq_some_iff.mp hraw
  obtain ⟨i, -, hrecord, hof⟩ := stored_records sameKey splitRun _ r hr
  exact ⟨i, r, hr, hpairs, hrecord, hof⟩

/-! ## Taking a fingerprint apart -/

theorem repr_ne_nil (n : ℕ) : n.repr.toList ≠ [] := by
  rw [Nat.toList_repr]
  exact Nat.toDigits_ne_nil

def priorityParts (p : ClientH2PriorityFrame) : List String :=
  [p.streamId.toNat.repr, if p.exclusive then "1" else "0", p.dependsOn.toNat.repr,
    p.weight.toNat.repr]

theorem digits_priorityParts {p : ClientH2PriorityFrame} {part : String}
    (h : part ∈ priorityParts p) : part.toList ≠ [] ∧ ∀ x ∈ part.toList, x.isDigit = true := by
  unfold priorityParts at h
  simp only [List.mem_cons, List.not_mem_nil, or_false] at h
  rcases h with rfl | rfl | rfl | rfl
  · exact ⟨repr_ne_nil _, fun x hx => isDigit_of_mem_repr_nat hx⟩
  · cases p.exclusive
    · refine ⟨by simp, fun x hx => ?_⟩
      rw [show x = '0' by simpa using hx]
      rfl
    · refine ⟨by simp, fun x hx => ?_⟩
      rw [show x = '1' by simpa using hx]
      rfl
  · exact ⟨repr_ne_nil _, fun x hx => isDigit_of_mem_repr_nat hx⟩
  · exact ⟨repr_ne_nil _, fun x hx => isDigit_of_mem_repr_nat hx⟩

theorem toList_priorityText (p : ClientH2PriorityFrame) :
    (priorityText p).toList = [':'].intercalate ((priorityParts p).map String.toList) := by
  unfold priorityText priorityParts
  rw [String.toList_intercalate]
  rfl

theorem mem_priorityText {p : ClientH2PriorityFrame} {x : Char}
    (h : x ∈ (priorityText p).toList) : x = ':' ∨ x.isDigit = true := by
  rw [toList_priorityText] at h
  rcases Delimited.mem_join h with hsep | ⟨part, hpart, hx⟩
  · exact Or.inl hsep
  · obtain ⟨text, htext, rfl⟩ := List.mem_map.mp hpart
    exact Or.inr ((digits_priorityParts htext).2 x hx)

theorem priorityText_inj {p q : ClientH2PriorityFrame} (h : priorityText p = priorityText q) :
    p = q := by
  have hcolon : ∀ r : ClientH2PriorityFrame, ∀ part ∈ (priorityParts r).map String.toList,
      part ≠ [] ∧ ':' ∉ part := by
    intro r part hpart
    obtain ⟨text, htext, rfl⟩ := List.mem_map.mp hpart
    obtain ⟨hne, hdigits⟩ := digits_priorityParts htext
    exact ⟨hne, fun hmem => absurd (hdigits ':' hmem) (by decide)⟩
  have hparts : priorityParts p = priorityParts q := by
    have hlists := congrArg String.toList h
    rw [toList_priorityText, toList_priorityText,
      Delimited.join_inj (hcolon p) (hcolon q)] at hlists
    exact (List.map_injective_iff.mpr fun _ _ => String.toList_inj.mp) hlists
  obtain ⟨stream, exclusive, depends, weight⟩ := p
  obtain ⟨stream', exclusive', depends', weight'⟩ := q
  unfold priorityParts at hparts
  simp only [List.cons.injEq, Nat.repr_inj, UInt32.toNat_inj, UInt8.toNat_inj, and_true] at hparts
  obtain ⟨rfl, hexclusive, rfl, rfl⟩ := hparts
  cases exclusive <;> cases exclusive' <;> simp_all

theorem mem_pairText {pair : UInt16 × UInt32} {x : Char} (h : x ∈ (pairText pair).toList) :
    x = ':' ∨ x.isDigit = true := by
  unfold pairText at h
  rw [String.toList_append, String.toList_append] at h
  rcases List.mem_append.mp h with hfront | hval
  · rcases List.mem_append.mp hfront with hid | hsep
    · exact Or.inr (isDigit_of_mem_repr_nat hid)
    · exact Or.inl (List.mem_singleton.mp hsep)
  · exact Or.inr (isDigit_of_mem_repr_nat hval)

theorem pairText_inj {p q : UInt16 × UInt32} (h : pairText p = pairText q) : p = q := by
  have hlists := congrArg String.toList h
  unfold pairText at hlists
  simp only [String.toList_append, List.append_assoc] at hlists
  have hcolon : ∀ n : ℕ, ':' ∉ n.repr.toList :=
    fun n hmem => absurd (isDigit_of_mem_repr_nat hmem) (by decide)
  obtain ⟨hid, hval⟩ := append_cons_first_inj hlists (hcolon _) (hcolon _)
  have hfirst := UInt16.toNat_inj.mp (Nat.repr_inj.mp (String.toList_inj.mp hid))
  have hsecond := UInt32.toNat_inj.mp (Nat.repr_inj.mp (String.toList_inj.mp hval))
  exact Prod.ext hfirst hsecond

theorem join_texts_inj {α : Type*} {text : α → String} {sep : String} {x : Char}
    (hsep : sep.toList = [x]) (hx : x ≠ ':' ∧ x.isDigit = false)
    (hmem : ∀ a, ∀ y ∈ (text a).toList, y = ':' ∨ y.isDigit = true)
    (hne : ∀ a, (text a).toList ≠ []) (hinj : ∀ a b, text a = text b → a = b) {as bs : List α} :
    sep.intercalate (as.map text) = sep.intercalate (bs.map text) ↔ as = bs := by
  have hparts : ∀ cs : List α, ∀ part ∈ (cs.map text).map String.toList, part ≠ [] ∧ x ∉ part := by
    intro cs part hpart
    obtain ⟨t, ht, rfl⟩ := List.mem_map.mp hpart
    obtain ⟨a, -, rfl⟩ := List.mem_map.mp ht
    refine ⟨hne a, ?_⟩
    intro hxmem
    rcases hmem a x hxmem with hcolon | hdigit
    · exact hx.1 hcolon
    · exact absurd hdigit (by simp [hx.2])
  rw [← String.toList_inj, String.toList_intercalate, String.toList_intercalate, hsep,
    Delimited.join_inj (hparts as) (hparts bs), List.map_map, List.map_map]
  constructor
  · intro h
    refine List.map_injective_iff.mpr ?_ h
    intro a b hab
    exact hinj a b (String.toList_inj.mp hab)
  · intro h
    rw [h]

theorem settingsPart_inj {ps qs : List (UInt16 × UInt32)} :
    ";".intercalate (ps.map pairText) = ";".intercalate (qs.map pairText) ↔ ps = qs := by
  refine join_texts_inj (x := ';') rfl (by decide) (fun _ _ h => mem_pairText h) ?_
    (fun _ _ h => pairText_inj h)
  intro pair
  unfold pairText
  rw [String.toList_append]
  simp

theorem colon_mem_priorities (p : ClientH2PriorityFrame) (ps : List ClientH2PriorityFrame) :
    ':' ∈ (",".intercalate ((p :: ps).map priorityText)).toList := by
  have htext : ':' ∈ (priorityText p).toList := by
    rw [toList_priorityText]
    unfold priorityParts
    rw [List.map_cons, List.map_cons, Delimited.join_cons_cons]
    exact List.mem_append_right _ List.mem_cons_self
  rw [String.toList_intercalate, List.map_cons, List.map_cons]
  change ':' ∈ [','].intercalate _
  cases ps with
  | nil =>
      rw [List.map_nil, List.map_nil, Delimited.join_singleton]
      exact htext
  | cons q qs =>
      rw [List.map_cons, List.map_cons, Delimited.join_cons_cons]
      exact List.mem_append_left _ htext

theorem priorityFingerprint_ne_zero {p : ClientH2PriorityFrame}
    {ps : List ClientH2PriorityFrame} : priorityFingerprint (p :: ps) ≠ "0" := by
  intro hzero
  have hmem := colon_mem_priorities p ps
  unfold priorityFingerprint at hzero
  rw [if_neg (List.cons_ne_nil p ps)] at hzero
  rw [hzero] at hmem
  exact absurd hmem (by decide)

theorem priorityFingerprint_inj {ps qs : List ClientH2PriorityFrame} :
    priorityFingerprint ps = priorityFingerprint qs ↔ ps = qs := by
  cases ps with
  | nil =>
      cases qs with
      | nil => exact iff_of_true rfl rfl
      | cons q qs =>
          exact iff_of_false (fun h => priorityFingerprint_ne_zero h.symm)
            (List.cons_ne_nil q qs).symm
  | cons p ps =>
      cases qs with
      | nil => exact iff_of_false priorityFingerprint_ne_zero (List.cons_ne_nil p ps)
      | cons q qs =>
          unfold priorityFingerprint
          rw [if_neg (List.cons_ne_nil p ps), if_neg (List.cons_ne_nil q qs)]
          refine join_texts_inj (x := ',') rfl (by decide) (fun _ _ h => mem_priorityText h) ?_
            fun _ _ h => priorityText_inj h
          intro r hnil
          have hmem := colon_mem_priorities r []
          rw [List.map_cons, List.map_nil, String.intercalate_singleton, hnil] at hmem
          exact absurd hmem List.not_mem_nil

theorem priorityFingerprint_ne_empty (ps : List ClientH2PriorityFrame) :
    priorityFingerprint ps ≠ "" := by
  cases ps with
  | nil => decide
  | cons p ps =>
      intro hempty
      have hmem := colon_mem_priorities p ps
      unfold priorityFingerprint at hempty
      rw [if_neg (List.cons_ne_nil p ps)] at hempty
      rw [hempty] at hmem
      exact absurd hmem (by decide)

theorem not_mem_join_texts {α : Type*} {text : α → String} {sep : String} {x y : Char}
    (hsep : sep.toList = [y]) (hne : x ≠ y) (hx : x ≠ ':' ∧ x.isDigit = false)
    (hmem : ∀ a, ∀ y ∈ (text a).toList, y = ':' ∨ y.isDigit = true) (as : List α) :
    x ∉ (sep.intercalate (as.map text)).toList := by
  intro hjoin
  rw [String.toList_intercalate, hsep] at hjoin
  rcases Delimited.mem_join hjoin with hin | ⟨part, hpart, hin⟩
  · exact hne hin
  · obtain ⟨t, ht, rfl⟩ := List.mem_map.mp hpart
    obtain ⟨a, -, rfl⟩ := List.mem_map.mp ht
    rcases hmem a x hin with hcolon | hdigit
    · exact hx.1 hcolon
    · rw [hx.2] at hdigit
      cases hdigit

theorem bar_not_mem_settingsPart (ps : List (UInt16 × UInt32)) :
    '|' ∉ (";".intercalate (ps.map pairText)).toList :=
  not_mem_join_texts rfl (by decide) (by decide) (fun _ _ h => mem_pairText h) ps

theorem bar_not_mem_priorityFingerprint (ps : List ClientH2PriorityFrame) :
    '|' ∉ (priorityFingerprint ps).toList := by
  unfold priorityFingerprint
  split_ifs with hnil
  · decide
  · exact not_mem_join_texts rfl (by decide) (by decide) (fun _ _ h => mem_priorityText h) ps

def windowText (w : Option UInt32) : String := (w.map fun w => w.toNat.repr).getD "0"

theorem windowText_eq (w : Option UInt32) : windowText w = (w.getD 0).toNat.repr := by
  cases w with
  | none => rfl
  | some w => rfl

theorem fingerprint_text (D : Digests) (settings : List (UInt16 × UInt32)) (w : Option UInt32)
    (ps : List ClientH2PriorityFrame) (pseudo : String) :
    (fingerprintH2SettingsEx D settings w (priorityFingerprint ps) pseudo).fingerprint.toList =
      (";".intercalate (settings.map pairText)).toList ++ '|' :: ((w.getD 0).toNat.repr.toList ++
        '|' :: ((priorityFingerprint ps).toList ++
          '|' :: (if pseudo = "" then defaultPseudoOrder else pseudo).toList)) := by
  have hprio : (if priorityFingerprint ps = "" then "0" else priorityFingerprint ps) =
      priorityFingerprint ps := if_neg (priorityFingerprint_ne_empty ps)
  unfold fingerprintH2SettingsEx
  dsimp only
  rw [hprio]
  change (_ ++ "|" ++ windowText w ++ "|" ++ _ ++ "|" ++ _ : String).toList = _
  rw [windowText_eq]
  simp only [String.toList_append, List.append_assoc]
  rfl

theorem fingerprint_eq_iff (D : Digests) {settings settings' : List (UInt16 × UInt32)}
    {w w' : Option UInt32} {ps ps' : List ClientH2PriorityFrame} {pseudo : String} :
    (fingerprintH2SettingsEx D settings w (priorityFingerprint ps) pseudo).fingerprint =
        (fingerprintH2SettingsEx D settings' w' (priorityFingerprint ps') pseudo).fingerprint ↔
      settings = settings' ∧ w.getD 0 = w'.getD 0 ∧ ps = ps' := by
  rw [← String.toList_inj, fingerprint_text, fingerprint_text]
  constructor
  · intro h
    have hbar : ∀ n : ℕ, '|' ∉ n.repr.toList :=
      fun n hmem => absurd (isDigit_of_mem_repr_nat hmem) (by decide)
    obtain ⟨hsettings, hrest⟩ :=
      append_cons_first_inj h (bar_not_mem_settingsPart _) (bar_not_mem_settingsPart _)
    obtain ⟨hwindow, hrest⟩ := append_cons_first_inj hrest (hbar _) (hbar _)
    obtain ⟨hprio, -⟩ := append_cons_first_inj hrest (bar_not_mem_priorityFingerprint _)
      (bar_not_mem_priorityFingerprint _)
    exact ⟨settingsPart_inj.mp (String.toList_inj.mp hsettings),
      UInt32.toNat_inj.mp (Nat.repr_inj.mp (String.toList_inj.mp hwindow)),
      priorityFingerprint_inj.mp (String.toList_inj.mp hprio)⟩
  · rintro ⟨rfl, hwindow, rfl⟩
    rw [hwindow]

/-- Of two connections in the table of any run, the fingerprints are the same exactly when
their clients' settings, window updates and PRIORITY frames are. -/
theorem captured_fingerprint_iff (D : Digests) (pseudo : Option String)
    (key : ι → Option String) (es : List (ListenerEvent ι)) {k k' : String}
    {r r' : ClientH2Settings}
    (h : getClientH2Settings (runFrom (Listener.step key) {} es).store k = some r)
    (h' : getClientH2Settings (runFrom (Listener.step key) {} es).store k' = some r') :
    (captureH2 D pseudo (runFrom (Listener.step key) {} es).store (some k)).map
          EdgeFingerprint.H2Cap.fingerprint =
        (captureH2 D pseudo (runFrom (Listener.step key) {} es).store (some k')).map
          EdgeFingerprint.H2Cap.fingerprint ↔
      r.rawPairs = r'.rawPairs ∧
        r.connectionWindowUpdate.getD 0 = r'.connectionWindowUpdate.getD 0 ∧
        r.priorityFrames = r'.priorityFrames := by
  have hsound : (runFrom (Listener.step key) {} es).Sound key :=
    runFrom_invariant (fun _ e h => h.step e) (Listener.sound_start key) es
  have htext : ∀ {k r}, getClientH2Settings (runFrom (Listener.step key) {} es).store k = some r →
      (captureH2 D pseudo (runFrom (Listener.step key) {} es).store (some k)).map
          EdgeFingerprint.H2Cap.fingerprint =
        some (fingerprintH2SettingsEx D r.rawPairs r.connectionWindowUpdate
          (priorityFingerprint r.priorityFrames)
          ((pseudo.filter fun p => decide (p ≠ "")).getD defaultPseudoOrder)).fingerprint := by
    intro k r hr
    obtain ⟨i, -, hrecord⟩ := hsound.stored k r hr
    obtain ⟨-, -, -, -, hprio⟩ := (hsound.conns i).record r hrecord
    have hne : (if r.priorityFingerprint = "" then "0" else r.priorityFingerprint) =
        priorityFingerprint r.priorityFrames := by
      rw [hprio, if_neg (priorityFingerprint_ne_empty _)]
    unfold captureH2
    simp only [Option.bind_eq_bind, Option.bind_some, hr, hne, Option.map_some]
  rw [htext h, htext h', Option.some.injEq, fingerprint_eq_iff]

def exampleUpdate : Frame where
  ftype := 0x8
  flags := 0x0
  word := 0x0
  payload := [0x0, 0x0, 0x0, 0x0]
  fits := by decide

def exampleRun : Listener Bool :=
  runFrom (Listener.step fun i => some (if i then "sockcookie:1" else "sockcookie:2")) {}
    [.poll false ⟨64, .of (preface ++ exampleSettings.bytes ++ exampleUpdate.bytes)⟩,
      .poll true ⟨64, .of (preface ++ exampleSettings.bytes)⟩]

theorem captured_fingerprint_iff_update :
    (captureH2 ⟨id, id⟩ none exampleRun.store (some "sockcookie:1")).map
        EdgeFingerprint.H2Cap.fingerprint =
      (captureH2 ⟨id, id⟩ none exampleRun.store (some "sockcookie:2")).map
        EdgeFingerprint.H2Cap.fingerprint := by
  have hfirst : (getClientH2Settings exampleRun.store "sockcookie:1").isSome = true := by
    decide
  have hsecond : (getClientH2Settings exampleRun.store "sockcookie:2").isSome = true := by
    decide
  obtain ⟨r, hr⟩ := Option.isSome_iff_exists.mp hfirst
  obtain ⟨r', hr'⟩ := Option.isSome_iff_exists.mp hsecond
  have hsame : (getClientH2Settings exampleRun.store "sockcookie:1").map (fun r =>
        (r.rawPairs, r.connectionWindowUpdate.getD 0, r.priorityFrames)) =
      (getClientH2Settings exampleRun.store "sockcookie:2").map fun r =>
        (r.rawPairs, r.connectionWindowUpdate.getD 0, r.priorityFrames) := by
    decide
  rw [hr, hr', Option.map_some, Option.map_some, Option.some.injEq, Prod.mk.injEq,
    Prod.mk.injEq] at hsame
  exact (captured_fingerprint_iff ⟨id, id⟩ none _ _ hr hr').mpr hsame

end H2Capture

end GrServer
