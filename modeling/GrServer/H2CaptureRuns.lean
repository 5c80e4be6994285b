import GrServer.H2Preface

/-!
# Runs of the wrapped stream

Whatever the sizes of the reads, inside and outside, the codec is given the
bytes of the client in their order and none twice.  The record of a connection
is that of whole frames the client sent.  Where the client opens with SETTINGS
the capture ends with the read that completes that frame, and what it records
of the frame does not depend on how the bytes arrived.
-/

namespace GrServer

open Text WireBytes TlsHello

namespace H2Capture

/-! ## Every buffer is frames and a beginning of one more -/

theorem byteAt_append_left {front back : List UInt8} {i : ℕ} (h : i < front.length) :
    byteAt (front ++ back) i = byteAt front i := by
  unfold byteAt
  rw [List.getD_append _ _ _ _ h]

theorem u24At_append_left {p q : List UInt8} (h : 2 < p.length) :
    u24At (p ++ q) 0 = u24At p 0 := by
  unfold u24At
  rw [byteAt_append_left (by omega), byteAt_append_left (by omega), byteAt_append_left (by omega)]

theorem incomplete_of_short {p q rest : List UInt8} {f : Frame} (h : p ++ q = f.bytes ++ rest)
    (hlt : p.length < f.bytes.length) : Incomplete p := by
  apply partialAt_eq_true_iff.mpr
  rw [f.length_bytes] at hlt
  by_cases hshort : p.length < 9
  · exact Or.inr (by omega)
  · have hlen : u24At p 0 = f.payload.length := by
      rw [← u24At_append_left (q := q) (by omega), h, u24At_bytes]
    omega

theorem ofNat_eq_of_mod {n : ℕ} {a : UInt8} (h : n % 2 ^ 8 = a.toNat) : UInt8.ofNat n = a := by
  apply UInt8.toNat_inj.mp
  rw [UInt8.toNat_ofNat']
  exact h

theorem beBytes24_u24At (a b c : UInt8) (rest : List UInt8) :
    beBytes24 (u24At (a :: b :: c :: rest) 0) = [a, b, c] := by
  have ha := a.toNat_lt
  have hb := b.toNat_lt
  have hc := c.toNat_lt
  change [UInt8.ofNat ((a.toNat * 65536 + b.toNat * 256 + c.toNat) / 65536),
    UInt8.ofNat ((a.toNat * 65536 + b.toNat * 256 + c.toNat) / 256),
    UInt8.ofNat (a.toNat * 65536 + b.toNat * 256 + c.toNat)] = [a, b, c]
  rw [ofNat_eq_of_mod (a := a) (by omega), ofNat_eq_of_mod (a := b) (by omega),
    ofNat_eq_of_mod (a := c) (by omega)]

theorem beBytes32_u32At (a b c d : UInt8) : beBytes32 (u32At [a, b, c, d] 0) = [a, b, c, d] := by
  have ha := a.toNat_lt
  have hb := b.toNat_lt
  have hc := c.toNat_lt
  have hd := d.toNat_lt
  have hword : (u32At [a, b, c, d] 0).toNat =
      a.toNat * 2 ^ 24 + b.toNat * 2 ^ 16 + c.toNat * 2 ^ 8 + d.toNat := by
    change (UInt32.ofNat
      (a.toNat * 2 ^ 24 + b.toNat * 2 ^ 16 + c.toNat * 2 ^ 8 + d.toNat)).toNat = _
    rw [UInt32.toNat_ofNat']
    omega
  unfold beBytes32
  rw [hword, ofNat_eq_of_mod (a := a) (by omega), ofNat_eq_of_mod (a := b) (by omega),
    ofNat_eq_of_mod (a := c) (by omega), ofNat_eq_of_mod (a := d) (by omega)]

theorem u24At_lt (b : List UInt8) (i : ℕ) : u24At b i < 2 ^ 24 := by
  have h₀ := (b.getD i 0).toNat_lt
  have h₁ := (b.getD (i + 1) 0).toNat_lt
  have h₂ := (b.getD (i + 2) 0).toNat_lt
  unfold u24At byteAt
  omega

theorem exists_head {b : List UInt8} (h : 9 ≤ b.length) :
    ∃ a₀ a₁ a₂ ftype flags w₀ w₁ w₂ w₃ rest,
      b = (a₀ :: a₁ :: a₂ :: ftype :: flags :: w₀ :: w₁ :: w₂ :: w₃ :: rest : List UInt8) := by
  rcases b with _ | ⟨a₀, _ | ⟨a₁, _ | ⟨a₂, _ | ⟨ftype, _ | ⟨flags, _ | ⟨w₀, _ | ⟨w₁, _ | ⟨w₂,
    _ | ⟨w₃, rest⟩⟩⟩⟩⟩⟩⟩⟩⟩ <;> simp only [List.length_nil, List.length_cons] at h <;> try omega
  exact ⟨_, _, _, _, _, _, _, _, _, _, rfl⟩

theorem frame_of_head {a₀ a₁ a₂ ftype flags w₀ w₁ w₂ w₃ : UInt8} {rest : List UInt8} {n : ℕ}
    (hn : u24At (a₀ :: a₁ :: a₂ :: ftype :: flags :: w₀ :: w₁ :: w₂ :: w₃ :: rest) 0 = n)
    (hlength : (rest.take n).length = n) (hsmall : n < 2 ^ 24) :
    ∃ (f : Frame) (tail : List UInt8),
      a₀ :: a₁ :: a₂ :: ftype :: flags :: w₀ :: w₁ :: w₂ :: w₃ :: rest = f.bytes ++ tail := by
  refine ⟨⟨ftype, flags, u32At [w₀, w₁, w₂, w₃] 0, rest.take n, hlength.trans_lt hsmall⟩,
    rest.drop n, ?_⟩
  unfold Frame.bytes
  dsimp only
  rw [hlength, ← hn, beBytes24_u24At, beBytes32_u32At, hn]
  simp only [List.cons_append, List.nil_append, List.take_append_drop]

theorem exists_frame {b : List UInt8} (h : ¬Incomplete b) :
    ∃ (f : Frame) (rest : List UInt8), b = f.bytes ++ rest := by
  unfold Incomplete at h
  rw [partialAt_eq_true_iff] at h
  obtain ⟨a₀, a₁, a₂, ftype, flags, w₀, w₁, w₂, w₃, rest, rfl⟩ := @exists_head b (by omega)
  simp only [List.length_cons] at h
  exact frame_of_head rfl (List.length_take_of_le (by omega)) (u24At_lt _ 0)

theorem exists_frames (b : List UInt8) :
    ∃ (fs : List Frame) (tail : List UInt8), b = framesBytes fs ++ tail ∧ Incomplete tail := by
  induction hn : b.length using Nat.strong_induction_on generalizing b with
  | _ n ih =>
      by_cases hb : Incomplete b
      · exact ⟨[], b, rfl, hb⟩
      · obtain ⟨f, rest, rfl⟩ := exists_frame hb
        have hlt : rest.length < n := by
          rw [← hn, List.length_append, f.length_bytes]
          omega
        obtain ⟨fs, tail, hrest, htail⟩ := ih rest.length hlt rest rfl
        refine ⟨f :: fs, tail, ?_, htail⟩
        rw [framesBytes_cons, List.append_assoc, ← hrest]

/-! ## A connection -/

def Poll.bytes : Poll → List UInt8
  | .ready bytes => bytes
  | .failed => []
  | .pending => []

structure PollEvent where
  remaining : ℕ
  inner : InnerStream

def askedFor (s : CaptureStream) (e : PollEvent) : Option ℕ :=
  if s.pending ≠ [] then none else if s.done then some e.remaining else some readSize

def innerAnswer (s : CaptureStream) (e : PollEvent) : Option Poll := (askedFor s e).map e.inner.read

/-- The wrapped stream of a connection, with what it took from the client and gave to
the codec so far, whether the client's end was met in the capture, and the record. -/
structure Conn where
  stream : CaptureStream := {}
  took : List UInt8 := []
  gave : List UInt8 := []
  cut : Bool := false
  record : Option ClientH2Settings := none

def Conn.poll (c : Conn) (e : PollEvent) : Conn :=
  let p := pollRead c.stream e.remaining e.inner
  { stream := p.stream
    took := c.took ++ ((innerAnswer c.stream e).map Poll.bytes).getD []
    gave := c.gave ++ p.answer.bytes
    cut := c.cut || (!c.stream.done && decide (innerAnswer c.stream e = some (.ready [])))
    record := p.record.or c.record }

/-- A record with the frames it comes from, which the bytes begin with. -/
def RecordOf (bytes : List UInt8) (r : ClientH2Settings) : Prop :=
  ∃ fs : List Frame, fs.length ≤ maxPrefaceFrames ∧ preface ++ framesBytes fs <+: bytes ∧
    Describes r fs ∧ r.priorityFingerprint = priorityFingerprint r.priorityFrames

structure Conn.Sound (c : Conn) : Prop where
  order : c.took = c.gave ++ (c.stream.pending ++ c.stream.capture)
  done : c.stream.done = true → c.stream.capture = []
  capturing : c.stream.done = false → c.gave = [] ∧ c.stream.pending = [] ∧ c.record = none
  bound : c.stream.capture.length ≤ maxCapture ∧ c.stream.pending.length ≤ maxCapture + readSize
  record : ∀ r, c.record = some r → RecordOf c.took r

theorem describes_record {l : Listen} {fs : List Frame} (h : Describes l.settings fs) :
    Describes l.record fs := by
  unfold Listen.record
  dsimp only
  split
  · exact ⟨h.part, h.windowUpdate, h.priorities, h.types⟩
  · exact ⟨h.part, h.windowUpdate, h.priorities, h.types⟩

theorem recordOf_listen {b : List UInt8} {l : Listen} (hmax : (preface ++ b).length ≤ maxCapture)
    (h : listen (preface ++ b) maxPrefaceFrames listenStart = some l) :
    RecordOf (preface ++ b) l.record := by
  obtain ⟨fs, tail, rfl, htail⟩ := exists_frames b
  obtain ⟨n, hn, -, hobserved⟩ := heard_observed fs maxPrefaceFrames observed_start
  rw [listen_frames fs maxPrefaceFrames listenStart preface htail rfl hmax] at h
  have hdescribes : Describes l.settings (fs.take n) := by
    split at h
    · split at h
      · rw [← Option.some.inj h]
        exact (hobserved.note _).describes
      · exact absurd h.symm (Option.some_ne_none l)
    · rw [← Option.some.inj h]
      exact hobserved.describes
  have hprefix : preface ++ framesBytes (fs.take n) <+: preface ++ (framesBytes fs ++ tail) := by
    refine ⟨framesBytes (fs.drop n) ++ tail, ?_⟩
    have hsplit : framesBytes (fs.take n) ++ framesBytes (fs.drop n) = framesBytes fs := by
      unfold framesBytes
      rw [← List.flatMap_append, List.take_append_drop]
    rw [← hsplit]
    simp only [List.append_assoc]
  exact ⟨fs.take n, (List.length_take_le n fs).trans hn, hprefix, describes_record hdescribes, rfl⟩

theorem tryFinishCapture_cases {s : CaptureStream} (hdone : s.done = false) :
    tryFinishCapture s = (s, none) ∨ tryFinishCapture s = (s.release, none) ∨
      ∃ b l, s.capture = preface ++ b ∧
        listen s.capture maxPrefaceFrames listenStart = some l ∧
        tryFinishCapture s = (s.release, some l.record) := by
  unfold tryFinishCapture
  rw [if_neg (by simp [hdone])]
  split
  · split
    · exact Or.inr (Or.inl rfl)
    · exact Or.inl rfl
  · split
    · exact Or.inr (Or.inl rfl)
    · rename_i hopens
      cases hlisten : listen s.capture maxPrefaceFrames listenStart with
      | none => exact Or.inl rfl
      | some l =>
          refine Or.inr (Or.inr ⟨s.capture.drop preface.length, l, ?_, rfl, rfl⟩)
          have hcapture := List.take_append_drop preface.length s.capture
          rw [not_not.mp hopens] at hcapture
          exact hcapture.symm

def CaptureStream.extend (s : CaptureStream) (filled : List UInt8) : CaptureStream :=
  { s with capture := s.capture ++ filled }

theorem grow_cases {s : CaptureStream} (hdone : s.done = false) (filled : List UInt8) :
    ((s.extend filled).capture.length ≤ maxCapture ∧
        s.grow filled = (s.extend filled, none)) ∨
      ∃ record, s.grow filled = ((s.extend filled).release, record) ∧
        ∀ r, record = some r → RecordOf (s.extend filled).capture r := by
  have hdoneNext : (s.extend filled).done = false := hdone
  change (_ ∧ (if maxCapture < (s.extend filled).capture.length then
      ((s.extend filled).release, none) else tryFinishCapture (s.extend filled)) = _) ∨
    ∃ record, (if maxCapture < (s.extend filled).capture.length then
      ((s.extend filled).release, none) else tryFinishCapture (s.extend filled)) = _ ∧ _
  by_cases hmax : maxCapture < (s.extend filled).capture.length
  · rw [if_pos hmax]
    exact Or.inr ⟨none, rfl, fun r h => absurd h.symm (Option.some_ne_none r)⟩
  · rw [if_neg hmax]
    rcases tryFinishCapture_cases hdoneNext with hwait | hother | ⟨b, l, hcapture, hlisten, hend⟩
    · exact Or.inl ⟨Nat.le_of_not_lt hmax, hwait⟩
    · exact Or.inr ⟨none, hother, fun r h => absurd h.symm (Option.some_ne_none r)⟩
    · refine Or.inr ⟨some l.record, hend, ?_⟩
      intro r hr
      rw [← Option.some.inj hr, hcapture]
      rw [hcapture] at hmax hlisten
      exact recordOf_listen (Nat.le_of_not_lt hmax) hlisten

theorem captured_waiting {s grown : CaptureStream} (remaining : ℕ) {filled : List UInt8}
    (hne : filled ≠ []) (hgrow : s.grow filled = (grown, none)) (hheld : grown.pending = []) :
    captured s remaining filled = { stream := grown, answer := .pending } := by
  unfold captured
  rw [if_neg hne, hgrow]
  exact if_pos hheld

theorem captured_ended {s grown : CaptureStream} (remaining : ℕ) {filled : List UInt8}
    {record : Option ClientH2Settings} (hne : filled ≠ [])
    (hgrow : s.grow filled = (grown, record)) (hheld : grown.pending ≠ []) :
    captured s remaining filled =
      { stream := (grown.serve remaining).1, answer := (grown.serve remaining).2, record } := by
  unfold captured
  rw [if_neg hne, hgrow]
  exact if_neg hheld

/-! ## What a poll does -/

section Step

variable {c : Conn} {e : PollEvent}

theorem poll_serve (hpending : c.stream.pending ≠ []) :
    c.poll e =
      { c with
        stream := (c.stream.serve e.remaining).1
        gave := c.gave ++ c.stream.pending.take e.remaining } := by
  have hask : innerAnswer c.stream e = none := by
    unfold innerAnswer askedFor
    rw [if_pos hpending]
    rfl
  have hpoll : pollRead c.stream e.remaining e.inner =
      { stream := (c.stream.serve e.remaining).1, answer := (c.stream.serve e.remaining).2 } :=
    if_pos hpending
  unfold Conn.poll
  rw [hask, hpoll]
  simp [CaptureStream.serve, Poll.bytes]

theorem poll_through (hpending : c.stream.pending = []) (hdone : c.stream.done = true) :
    c.poll e =
      { c with
        took := c.took ++ (e.inner.read e.remaining).bytes
        gave := c.gave ++ (e.inner.read e.remaining).bytes } := by
  have hask : innerAnswer c.stream e = some (e.inner.read e.remaining) := by
    unfold innerAnswer askedFor
    rw [if_neg (by simp [hpending]), if_pos hdone]
    rfl
  have hpoll : pollRead c.stream e.remaining e.inner =
      { stream := c.stream, answer := e.inner.read e.remaining } := by
    unfold pollRead
    rw [if_neg (by simp [hpending]), if_pos hdone]
  unfold Conn.poll
  rw [hask, hpoll]
  simp [hdone]

theorem poll_wait (hpending : c.stream.pending = []) (hdone : c.stream.done = false)
    (hread : ∀ filled, e.inner.read readSize ≠ .ready filled) : c.poll e = c := by
  have hask : innerAnswer c.stream e = some (e.inner.read readSize) := by
    unfold innerAnswer askedFor
    rw [if_neg (by simp [hpending]), if_neg (by simp [hdone])]
    rfl
  have hbytes : (e.inner.read readSize).bytes = [] := by
    cases hinner : e.inner.read readSize with
    | ready filled => exact absurd hinner (hread filled)
    | failed => rfl
    | pending => rfl
  have hpoll : (pollRead c.stream e.remaining e.inner).stream = c.stream ∧
      (pollRead c.stream e.remaining e.inner).answer.bytes = [] ∧
      (pollRead c.stream e.remaining e.inner).record = none := by
    unfold pollRead
    rw [if_neg (by simp [hpending]), if_neg (by simp [hdone])]
    split
    · rename_i filled hinner
      exact absurd hinner (hread filled)
    · exact ⟨rfl, rfl, rfl⟩
    · exact ⟨rfl, rfl, rfl⟩
  unfold Conn.poll
  rw [hask]
  simp [hpoll, hbytes, hread]

theorem poll_capture (hpending : c.stream.pending = []) (hdone : c.stream.done = false)
    {filled : List UInt8} (hread : e.inner.read readSize = .ready filled) :
    c.poll e =
      { stream := (captured c.stream e.remaining filled).stream
        took := c.took ++ filled
        gave := c.gave ++ (captured c.stream e.remaining filled).answer.bytes
        cut := c.cut || decide (filled = [])
        record := (captured c.stream e.remaining filled).record.or c.record } := by
  have hask : innerAnswer c.stream e = some (.ready filled) := by
    unfold innerAnswer askedFor
    rw [if_neg (by simp [hpending]), if_neg (by simp [hdone]), Option.map_some, hread]
  have hpoll : pollRead c.stream e.remaining e.inner = captured c.stream e.remaining filled := by
    unfold pollRead
    rw [if_neg (by simp [hpending]), if_neg (by simp [hdone]), hread]
  unfold Conn.poll
  rw [hask, hpoll]
  simp [hdone, Poll.bytes]

end Step

theorem RecordOf.append {bytes : List UInt8} {r : ClientH2Settings} (h : RecordOf bytes r)
    (more : List UInt8) : RecordOf (bytes ++ more) r := by
  obtain ⟨fs, hlen, hprefix, hdescribes⟩ := h
  exact ⟨fs, hlen, hprefix.trans (List.prefix_append bytes more), hdescribes⟩

namespace Conn

variable {c : Conn}

theorem sound_start : Sound {} where
  order := rfl
  done := fun _ => rfl
  capturing := fun _ => ⟨rfl, rfl, rfl⟩
  bound := ⟨Nat.zero_le _, Nat.zero_le _⟩
  record := fun r h => absurd h.symm (Option.some_ne_none r)

theorem Sound.captured (h : c.Sound) (hdone : c.stream.done = false) :
    c.took = c.stream.capture := by
  obtain ⟨hgave, hpending, -⟩ := h.capturing hdone
  rw [h.order, hgave, hpending, List.nil_append, List.nil_append]

theorem Sound.poll_end (h : c.Sound) (hdone : c.stream.done = false) (cut : Bool) :
    Sound
      { c with
        stream := c.stream.release
        took := c.took ++ []
        gave := c.gave ++ []
        cut } := by
  obtain ⟨hgave, hpending, hrecord⟩ := h.capturing hdone
  constructor
  · rw [List.append_nil, List.append_nil, h.captured hdone, hgave]
    change c.stream.capture = [] ++ (c.stream.pending ++ c.stream.capture ++ [])
    rw [hpending, List.append_nil, List.nil_append, List.nil_append]
  · exact fun _ => rfl
  · exact fun hopen => absurd hopen (by simp [CaptureStream.release])
  · refine ⟨Nat.zero_le _, ?_⟩
    change (c.stream.pending ++ c.stream.capture).length ≤ _
    rw [hpending, List.nil_append]
    exact h.bound.1.trans (Nat.le_add_right _ _)
  · rw [List.append_nil]
    exact h.record

theorem Sound.poll_grown (h : c.Sound) (hdone : c.stream.done = false) (remaining : ℕ)
    {filled : List UInt8} (hne : filled ≠ []) (hfits : filled.length ≤ readSize) (cut : Bool) :
    Sound
      { stream := (H2Capture.captured c.stream remaining filled).stream
        took := c.took ++ filled
        gave := c.gave ++ (H2Capture.captured c.stream remaining filled).answer.bytes
        cut
        record := (H2Capture.captured c.stream remaining filled).record.or c.record } := by
  obtain ⟨hgave, hpending, hrecord⟩ := h.capturing hdone
  have htook := h.captured hdone
  rcases grow_cases hdone filled with ⟨hmax, hgrow⟩ | ⟨record, hgrow, hof⟩
  · rw [captured_waiting remaining hne hgrow hpending, hrecord]
    constructor
    · change c.took ++ filled = (c.gave ++ []) ++ (c.stream.pending ++ (c.stream.capture ++ filled))
      rw [hgave, hpending, htook]
      rfl
    · exact fun hend => absurd hend (by simp [CaptureStream.extend, hdone])
    · exact fun _ => ⟨by rw [hgave]; rfl, hpending, rfl⟩
    · refine ⟨hmax, ?_⟩
      change c.stream.pending.length ≤ _
      rw [hpending]
      exact Nat.zero_le _
    · exact fun r hr => absurd hr.symm (Option.some_ne_none r)
  · have hheld : (c.stream.extend filled).release.pending = c.stream.capture ++ filled := by
      change c.stream.pending ++ (c.stream.capture ++ filled) = _
      rw [hpending, List.nil_append]
    rw [captured_ended remaining hne hgrow (by rw [hheld]; simp [hne]), hrecord]
    constructor
    · change c.took ++ filled =
        (c.gave ++ (c.stream.extend filled).release.pending.take remaining) ++
          ((c.stream.extend filled).release.pending.drop remaining ++ [])
      rw [hheld, hgave, htook, List.nil_append, List.append_nil, List.take_append_drop]
    · exact fun _ => rfl
    · exact fun hopen => absurd hopen (by simp [CaptureStream.serve, CaptureStream.release])
    · refine ⟨Nat.zero_le _, ?_⟩
      change ((c.stream.extend filled).release.pending.drop remaining).length ≤ _
      rw [hheld, List.length_drop, List.length_append]
      have hcapture := h.bound.1
      omega
    · intro r hr
      rw [Option.or_none] at hr
      have hrecordOf := hof r hr
      change RecordOf (c.stream.capture ++ filled) r at hrecordOf
      change RecordOf (c.took ++ filled) r
      rw [htook]
      exact hrecordOf

theorem Sound.poll (h : c.Sound) (e : PollEvent) : (c.poll e).Sound := by
  by_cases hpending : c.stream.pending = []
  · cases hdone : c.stream.done with
    | true =>
        rw [poll_through hpending hdone]
        refine ⟨?_, h.done, fun hopen => absurd hdone (by rw [hopen]; simp), h.bound,
          fun r hr => (h.record r hr).append _⟩
        have horder := h.order
        rw [hpending, h.done hdone, List.append_nil, List.append_nil] at horder
        change c.took ++ _ = (c.gave ++ _) ++ (c.stream.pending ++ c.stream.capture)
        rw [hpending, h.done hdone, horder, List.append_nil, List.append_nil]
    | false =>
        cases hread : e.inner.read readSize with
        | ready filled =>
            rw [poll_capture hpending hdone hread]
            by_cases hne : filled = []
            · subst hne
              have hend : H2Capture.captured c.stream e.remaining [] =
                  { stream := c.stream.release, answer := .ready [] } := rfl
              rw [hend]
              exact h.poll_end hdone _
            · exact h.poll_grown hdone e.remaining hne (e.inner.fits hread) _
        | failed =>
            rw [poll_wait hpending hdone (by simp [hread])]
            exact h
        | pending =>
            rw [poll_wait hpending hdone (by simp [hread])]
            exact h
  · rw [poll_serve hpending]
    have hdone : c.stream.done = true := by
      cases hdone : c.stream.done with
      | true => rfl
      | false => exact absurd (h.capturing hdone).2.1 hpending
    refine ⟨?_, h.done, fun hopen => ?_, ?_, h.record⟩
    · change c.took = (c.gave ++ c.stream.pending.take e.remaining) ++
        (c.stream.pending.drop e.remaining ++ c.stream.capture)
      rw [h.order]
      simp only [List.append_assoc]
      rw [← List.append_assoc (c.stream.pending.take _), List.take_append_drop]
    · change c.stream.done = false at hopen
      exact absurd (hdone.symm.trans hopen) (by simp)
    · refine ⟨h.bound.1, ?_⟩
      change (c.stream.pending.drop e.remaining).length ≤ _
      rw [List.length_drop]
      have hbound := h.bound.2
      omega

end Conn

/-- A poll that tells the codec that the stream has ended. -/
def EndSignal (c : Conn) (e : PollEvent) : Prop :=
  (pollRead c.stream e.remaining e.inner).answer = .ready [] ∧ 0 < e.remaining

theorem endSignal_inner {c : Conn} {e : PollEvent} (h : c.Sound) (hend : EndSignal c e) :
    innerAnswer c.stream e = some (.ready []) := by
  obtain ⟨hanswer, hroom⟩ := hend
  unfold pollRead at hanswer
  unfold innerAnswer askedFor
  by_cases hpending : c.stream.pending = []
  · rw [if_neg (by simp [hpending])] at hanswer
    rw [if_neg (by simp [hpending])]
    cases hdone : c.stream.done with
    | true =>
        rw [if_pos hdone] at hanswer
        rw [if_pos rfl]
        exact congrArg some hanswer
    | false =>
        rw [if_neg (by simp [hdone])] at hanswer
        rw [if_neg (by simp), Option.map_some]
        cases hread : e.inner.read readSize with
        | failed => rw [hread] at hanswer; exact absurd hanswer (by simp)
        | pending => rw [hread] at hanswer; exact absurd hanswer (by simp)
        | ready filled =>
            by_cases hne : filled = []
            · rw [hne]
            · have hopen := (h.capturing hdone).2.1
              rw [hread] at hanswer
              dsimp only at hanswer
              rcases grow_cases hdone filled with ⟨-, hgrow⟩ | ⟨record, hgrow, -⟩
              · rw [captured_waiting e.remaining hne hgrow hopen] at hanswer
                exact absurd hanswer (by simp)
              · have hheld : (c.stream.extend filled).release.pending =
                    c.stream.capture ++ filled := by
                  change c.stream.pending ++ (c.stream.capture ++ filled) = _
                  rw [hopen, List.nil_append]
                rw [captured_ended e.remaining hne hgrow (by rw [hheld]; simp [hne])] at hanswer
                change Poll.ready ((c.stream.extend filled).release.pending.take e.remaining) =
                  _ at hanswer
                rw [hheld, Poll.ready.injEq, List.take_eq_nil_iff] at hanswer
                rcases hanswer with hzero | hnil
                · omega
                · exact absurd (List.append_eq_nil_iff.mp hnil).2 hne
  · rw [if_pos hpending] at hanswer
    change Poll.ready (c.stream.pending.take e.remaining) = _ at hanswer
    rw [Poll.ready.injEq, List.take_eq_nil_iff] at hanswer
    rcases hanswer with hzero | hnil
    · omega
    · exact absurd hnil hpending

/-- The codec is given the bytes of the client in their order, none lost and none twice,
from buffers of bounded size; it is told of an end only when the client's stream ends. -/
theorem delivered_in_order (es : List PollEvent) :
    (runFrom Conn.poll {} es).took =
        (runFrom Conn.poll {} es).gave ++
          ((runFrom Conn.poll {} es).stream.pending ++ (runFrom Conn.poll {} es).stream.capture) ∧
      (runFrom Conn.poll {} es).stream.capture.length ≤ maxCapture ∧
      (runFrom Conn.poll {} es).stream.pending.length ≤ maxCapture + readSize ∧
      Along Conn.poll
        (fun c e => EndSignal c e → innerAnswer c.stream e = some (.ready [])) {} es := by
  have hsound : (runFrom Conn.poll {} es).Sound :=
    runFrom_invariant (fun _ e h => h.poll e) Conn.sound_start es
  refine ⟨hsound.order, hsound.bound.1, hsound.bound.2, ?_⟩
  have hall : Along Conn.poll (fun _ _ => True) {} es := along_of_forall fun _ _ _ => trivial
  exact hall.steps (I := Conn.Sound) (fun c e h _ => ⟨endSignal_inner h, h.poll e⟩)
    Conn.sound_start

section Opening

variable {f : Frame} {rest : List UInt8} {s : CaptureStream}

def openingLength (f : Frame) : ℕ := preface.length + f.bytes.length

theorem tryFinishCapture_short (hdone : s.done = false)
    (hwire : s.capture <+: preface ++ (f.bytes ++ rest))
    (hshort : s.capture.length < openingLength f) (hmax : openingLength f ≤ maxCapture) :
    tryFinishCapture s = (s, none) := by
  unfold tryFinishCapture
  rw [if_neg (by simp [hdone])]
  by_cases hopens : s.capture.length < preface.length
  · have hprefix : s.capture <+: preface :=
      List.prefix_of_prefix_length_le hwire (List.prefix_append _ _) (Nat.le_of_lt hopens)
    rw [if_pos hopens, if_neg fun h => h.2 hprefix]
  · have hprefix : preface <+: s.capture :=
      List.prefix_of_prefix_length_le (List.prefix_append _ _) hwire (Nat.le_of_not_lt hopens)
    obtain ⟨b, hb⟩ := hprefix
    have htake : s.capture.take preface.length = preface := by
      rw [← hb, List.take_left]
    rw [if_neg hopens, if_neg (by simp [htake])]
    rw [← hb] at hwire hshort ⊢
    have hrest : b <+: f.bytes ++ rest := (List.prefix_append_right_inj preface).mp hwire
    obtain ⟨more, hmore⟩ := hrest
    unfold openingLength at hshort hmax
    rw [List.length_append] at hshort
    have hincomplete : Incomplete b := incomplete_of_short hmore (by omega)
    have hover : oversized listenStart.offset b = false := by
      unfold oversized
      by_cases hheader : 9 ≤ b.length
      · have hlen : u24At b 0 = f.payload.length := by
          rw [← u24At_append_left (q := more) (by omega), hmore, u24At_bytes]
        have hframe := f.length_bytes
        rw [hlen, decide_eq_true hheader, Bool.true_and]
        apply decide_eq_false
        change ¬maxCapture < preface.length + 9 + f.payload.length
        omega
      · rw [decide_eq_false hheader, Bool.false_and]
    have hlisten : listen (preface ++ b) maxPrefaceFrames listenStart = none := by
      have hframes := listen_frames [] maxPrefaceFrames listenStart preface hincomplete rfl
        (by
          change (preface ++ b).length ≤ maxCapture
          rw [List.length_append]
          omega)
      have hheard : heard maxPrefaceFrames listenStart [] = (listenStart, true) := rfl
      rw [hheard, if_pos rfl, hover] at hframes
      exact hframes
    rw [hlisten]
    rfl

theorem tryFinishCapture_whole (hdone : s.done = false) (hf : f.ftype = 0x4) {b : List UInt8}
    (hcapture : s.capture = preface ++ (f.bytes ++ b)) (hmax : s.capture.length ≤ maxCapture) :
    ∃ r, tryFinishCapture s = (s.release, some r) ∧ r.part = f.settings := by
  obtain ⟨gs, tail, rfl, htail⟩ := exists_frames b
  have hassoc : f.bytes ++ (framesBytes gs ++ tail) = framesBytes (f :: gs) ++ tail := by
    rw [framesBytes_cons, List.append_assoc]
  rw [hassoc] at hcapture
  have hlisten : listen s.capture maxPrefaceFrames listenStart =
      some (heard maxPrefaceFrames listenStart (f :: gs)).1 := by
    rw [hcapture] at hmax ⊢
    rw [listen_frames (f :: gs) maxPrefaceFrames listenStart preface htail rfl hmax,
      heard_settings_ends hf]
    rfl
  obtain ⟨n, -, hpos, hobserved⟩ := heard_observed (f :: gs) maxPrefaceFrames observed_start
  have hn : n ≠ 0 := hpos (by decide) (List.cons_ne_nil f gs)
  obtain ⟨m, rfl⟩ := Nat.exists_eq_succ_of_ne_zero hn
  refine ⟨(heard maxPrefaceFrames listenStart (f :: gs)).1.record, ?_, ?_⟩
  · have hlong : ¬s.capture.length < preface.length := by
      rw [hcapture, List.length_append]
      omega
    have htake : s.capture.take preface.length = preface := by
      rw [hcapture, List.take_left]
    unfold tryFinishCapture
    rw [if_neg (by simp [hdone]), if_neg hlong, if_neg (by simp [htake]), hlisten]
    rfl
  · rw [(describes_record hobserved.describes).part, List.nil_append, List.take_succ_cons]
    unfold settingsOf
    rw [List.find?_cons_of_pos (by simp [Frame.isSettings, hf])]
    rfl

end Opening

def Opened (f : Frame) (rest : List UInt8) (c : Conn) : Prop :=
  c.took <+: preface ++ (f.bytes ++ rest) → c.cut = false →
    (c.stream.done = true ↔ openingLength f ≤ c.took.length) ∧
      (c.record.isSome = true ↔ openingLength f ≤ c.took.length) ∧
      ∀ r, c.record = some r → r.part = f.settings

theorem opened_poll {f : Frame} {rest : List UInt8} (hf : f.ftype = 0x4)
    (hmax : openingLength f + readSize ≤ maxCapture + 1) {c : Conn} (hsound : c.Sound)
    (h : Opened f rest c) (e : PollEvent) : Opened f rest (c.poll e) := by
  have hroom : 0 < readSize := by decide
  by_cases hpending : c.stream.pending = []
  · cases hdone : c.stream.done with
    | true =>
        rw [poll_through hpending hdone]
        intro hwire hcut
        obtain ⟨hend, hrecord, hpart⟩ := h ((List.prefix_append _ _).trans hwire) hcut
        have hlong := hend.mp hdone
        have hlonger : openingLength f ≤ (c.took ++ (e.inner.read e.remaining).bytes).length := by
          rw [List.length_append]
          omega
        exact ⟨iff_of_true hdone hlonger, iff_of_true (hrecord.mpr hlong) hlonger, hpart⟩
    | false =>
        cases hread : e.inner.read readSize with
        | failed =>
            rw [poll_wait hpending hdone (by simp [hread])]
            exact h
        | pending =>
            rw [poll_wait hpending hdone (by simp [hread])]
            exact h
        | ready filled =>
            rw [poll_capture hpending hdone hread]
            intro hwire hcut
            change c.took ++ filled <+: _ at hwire
            rw [Bool.or_eq_false_iff] at hcut
            have hne : filled ≠ [] := of_decide_eq_false hcut.2
            obtain ⟨hend, -, -⟩ := h ((List.prefix_append _ _).trans hwire) hcut.1
            have hshort : c.took.length < openingLength f := by
              apply Nat.lt_of_not_le
              intro hlong
              exact absurd (hend.mpr hlong) (by simp [hdone])
            have htook := hsound.captured hdone
            have hrecord := (hsound.capturing hdone).2.2
            have hfits := e.inner.fits hread
            have hcapture : (c.stream.extend filled).capture = c.took ++ filled := by
              rw [htook]
              rfl
            have hlength : (c.took ++ filled).length ≤ maxCapture := by
              rw [List.length_append]
              omega
            have hgrow : c.stream.grow filled = tryFinishCapture (c.stream.extend filled) := by
              refine if_neg (Nat.not_lt.mpr ?_)
              change (c.stream.extend filled).capture.length ≤ maxCapture
              rw [hcapture]
              exact hlength
            by_cases hwhole : openingLength f ≤ (c.took ++ filled).length
            · obtain ⟨b, hb⟩ : ∃ b, c.took ++ filled = preface ++ (f.bytes ++ b) := by
                have hprefix : preface ++ f.bytes <+: c.took ++ filled := by
                  have hopening : preface ++ f.bytes <+: preface ++ (f.bytes ++ rest) := by
                    rw [← List.append_assoc]
                    exact List.prefix_append _ _
                  refine List.prefix_of_prefix_length_le hopening hwire ?_
                  rw [List.length_append]
                  exact hwhole
                obtain ⟨b, hb⟩ := hprefix
                exact ⟨b, by rw [← hb, List.append_assoc]⟩
              obtain ⟨r, hfinish, hpart⟩ := tryFinishCapture_whole (s := c.stream.extend filled)
                hdone hf (by rw [hcapture, hb]) (by rw [hcapture]; exact hlength)
              have hheld : (c.stream.extend filled).release.pending ≠ [] := by
                change c.stream.pending ++ (c.stream.capture ++ filled) ≠ []
                simp [hne]
              rw [captured_ended e.remaining hne (hgrow.trans hfinish) hheld]
              refine ⟨iff_of_true rfl hwhole, iff_of_true rfl hwhole, ?_⟩
              intro r' hr'
              rw [← Option.some.inj hr']
              exact hpart
            · have hwait := tryFinishCapture_short (s := c.stream.extend filled) (f := f) hdone
                (by rw [hcapture]; exact hwire)
                (by rw [hcapture]; omega) (by omega)
              rw [captured_waiting e.remaining hne (hgrow.trans hwait) hpending, hrecord]
              refine ⟨iff_of_false ?_ hwhole, iff_of_false (by simp) hwhole, ?_⟩
              · change ¬c.stream.done = true
                simp [hdone]
              · exact fun r hr => absurd hr.symm (Option.some_ne_none r)
  · rw [poll_serve hpending]
    exact h

/-! ## The pairs of a SETTINGS frame -/

def pairBytes (pair : UInt16 × UInt32) : List UInt8 := beBytes pair.1 ++ beBytes32 pair.2

theorem settingsPairs_flatMap (ps : List (UInt16 × UInt32)) :
    settingsPairs (ps.flatMap pairBytes) = ps := by
  induction ps with
  | nil => rfl
  | cons pair ps ih =>
      have hid : u16At (beBytes pair.1) 0 = pair.1 := ofNat_toNat_pair pair.1
      have hval : u32At (beBytes32 pair.2) 0 = pair.2 := by
        have hword := wordAt_beBytes32 pair.2 []
        rw [List.append_nil] at hword
        unfold u32At
        rw [hword, UInt32.ofNat_toNat]
      change (u16At (beBytes pair.1) 0, u32At (beBytes32 pair.2) 0) ::
        settingsPairs (ps.flatMap pairBytes) = pair :: ps
      rw [hid, hval, ih]

theorem length_flatMap_pairBytes (ps : List (UInt16 × UInt32)) :
    (ps.flatMap pairBytes).length = 6 * ps.length := by
  induction ps with
  | nil => rfl
  | cons pair ps ih =>
      rw [List.flatMap_cons, List.length_append, ih, List.length_cons]
      change 6 + 6 * ps.length = _
      omega

def ClientH2Settings.field (s : ClientH2Settings) (id : UInt16) : Option UInt32 :=
  if id = 0x1 then s.headerTableSize
  else if id = 0x2 then s.enablePush
  else if id = 0x3 then s.maxConcurrentStreams
  else if id = 0x4 then s.initialWindowSize
  else if id = 0x5 then s.maxFrameSize
  else if id = 0x6 then s.maxHeaderListSize
  else none

def named : List UInt16 := [0x1, 0x2, 0x3, 0x4, 0x5, 0x6]

def lastValue (id : UInt16) (ps : List (UInt16 × UInt32)) : Option UInt32 :=
  (ps.filter fun pair => pair.1 == id).getLast?.map Prod.snd

theorem field_putPair {j : UInt16} (hj : j ∈ named) (s : ClientH2Settings) (id : UInt16)
    (val : UInt32) :
    (s.putPair id val).field j = if id = j then some val else s.field j := by
  unfold named at hj
  simp only [List.mem_cons, List.not_mem_nil, or_false] at hj
  rcases hj with rfl | rfl | rfl | rfl | rfl | rfl <;>
    (unfold ClientH2Settings.putPair
     repeat' split) <;> simp_all [ClientH2Settings.field]

theorem rawPairs_putPair (s : ClientH2Settings) (id : UInt16) (val : UInt32) :
    (s.putPair id val).rawPairs = s.rawPairs ++ [(id, val)] ∧
      (s.putPair id val).settingsFrameLen = s.settingsFrameLen := by
  unfold ClientH2Settings.putPair
  repeat' (split <;> try exact ⟨rfl, rfl⟩)

theorem putPairs_spec (ps : List (UInt16 × UInt32)) (s : ClientH2Settings) :
    (ps.foldl (fun out pair => out.putPair pair.1 pair.2) s).rawPairs = s.rawPairs ++ ps ∧
      (ps.foldl (fun out pair => out.putPair pair.1 pair.2) s).settingsFrameLen =
        s.settingsFrameLen ∧
      ∀ j ∈ named, (ps.foldl (fun out pair => out.putPair pair.1 pair.2) s).field j =
        (lastValue j ps).or (s.field j) := by
  induction ps using List.reverseRecOn with
  | nil => exact ⟨(List.append_nil _).symm, rfl, fun _ _ => rfl⟩
  | append_singleton ps pair ih =>
      obtain ⟨hraw, hlen, hfields⟩ := ih
      rw [List.foldl_append, List.foldl_cons, List.foldl_nil]
      obtain ⟨hrawNext, hlenNext⟩ := rawPairs_putPair
        (ps.foldl (fun out pair => out.putPair pair.1 pair.2) s) pair.1 pair.2
      refine ⟨by rw [hrawNext, hraw, List.append_assoc], hlenNext.trans hlen, ?_⟩
      intro j hj
      rw [field_putPair hj, hfields j hj]
      unfold lastValue
      rw [List.filter_append]
      by_cases hid : pair.1 = j
      · rw [if_pos hid, List.filter_cons_of_pos (by simpa using hid)]
        simp
      · rw [if_neg hid, List.filter_cons_of_neg (by simpa using hid)]
        simp

/-- The record of a client that opens with SETTINGS, over any reads: it is there from the
read that completes the frame on, and holds the pairs in the order of the wire. -/
theorem settings_recorded (f : Frame) (ps : List (UInt16 × UInt32)) (rest : List UInt8)
    (es : List PollEvent) (htype : f.ftype = 0x4) (hflags : f.flags &&& 0x1 = 0)
    (hpayload : f.payload = ps.flatMap pairBytes) (hlen : ps.length ≤ 2384)
    (hwire : (runFrom Conn.poll {} es).took <+: preface ++ (f.bytes ++ rest))
    (hcut : (runFrom Conn.poll {} es).cut = false) :
    ((runFrom Conn.poll {} es).stream.done = true ↔
        33 + 6 * ps.length ≤ (runFrom Conn.poll {} es).took.length) ∧
      ((runFrom Conn.poll {} es).record.isSome = true ↔
        33 + 6 * ps.length ≤ (runFrom Conn.poll {} es).took.length) ∧
      ∀ r, (runFrom Conn.poll {} es).record = some r →
        r.rawPairs = ps ∧ r.settingsFrameLen = 6 * ps.length ∧
          ∀ id ∈ named, r.field id = lastValue id ps := by
  have hsize : openingLength f = 33 + 6 * ps.length := by
    unfold openingLength
    rw [f.length_bytes, hpayload, length_flatMap_pairBytes, length_preface]
    omega
  have hmax : openingLength f + readSize ≤ maxCapture + 1 := by
    unfold readSize maxCapture
    omega
  have hstart : Opened f rest {} := by
    intro _ _
    have hnot : ¬openingLength f ≤ ([] : List UInt8).length := by
      rw [hsize, List.length_nil]
      omega
    exact ⟨iff_of_false (by simp) hnot, iff_of_false (by simp) hnot,
      fun r hr => absurd hr.symm (Option.some_ne_none r)⟩
  have hrun := runFrom_invariant (I := fun c => c.Sound ∧ Opened f rest c)
    (fun c e h => ⟨h.1.poll e, opened_poll htype hmax h.1 h.2 e⟩) ⟨Conn.sound_start, hstart⟩ es
  obtain ⟨hdone, hrecord, hpart⟩ := hrun.2 hwire hcut
  rw [hsize] at hdone hrecord
  refine ⟨hdone, hrecord, ?_⟩
  intro r hr
  have hsettings : f.settings = ps.foldl (fun out pair => out.putPair pair.1 pair.2)
      { prefaceOk := true, settingsFrameLen := f.payload.length } := by
    unfold Frame.settings parseSettingsPayload
    rw [if_neg (by simp [hflags]), hpayload, settingsPairs_flatMap]
  have hr' := hpart r hr
  rw [hsettings] at hr'
  obtain ⟨hraw, hframeLen, hfields⟩ := putPairs_spec ps
    { prefaceOk := true, settingsFrameLen := f.payload.length }
  rw [← hr'] at hraw hframeLen hfields
  refine ⟨hraw, ?_, ?_⟩
  · rw [← length_flatMap_pairBytes, ← hpayload]
    exact hframeLen
  · intro id hid
    have hfield := hfields id hid
    have hblank : ({ prefaceOk := true, settingsFrameLen := f.payload.length } :
        ClientH2Settings).field id = none := by
      unfold ClientH2Settings.field
      repeat' (split <;> try rfl)
    rw [hblank, Option.or_none] at hfield
    exact hfield

def InnerStream.of (bytes : List UInt8) : InnerStream where
  read n := .ready (bytes.take n)
  fits := by
    intro n filled h
    rw [← Poll.ready.inj h]
    exact List.length_take_le n bytes

def exampleSettings : Frame where
  ftype := 0x4
  flags := 0x0
  word := 0x80000000
  payload := [(0x1, 65536), (0x4, 6291456)].flatMap pairBytes
  fits := by decide

theorem settings_recorded_split :
    (runFrom Conn.poll {} [⟨64, .of (preface.take 20)⟩,
        ⟨64, .of (preface.drop 20 ++ exampleSettings.bytes)⟩] : Conn).record.map
          ClientH2Settings.rawPairs = some [(0x1, 65536), (0x4, 6291456)] := by
  have h := settings_recorded exampleSettings [(0x1, 65536), (0x4, 6291456)] []
    [⟨64, .of (preface.take 20)⟩, ⟨64, .of (preface.drop 20 ++ exampleSettings.bytes)⟩]
    rfl rfl rfl (by decide) (by decide) (by decide)
  have hsome := h.2.1.mpr (by decide)
  obtain ⟨r, hr⟩ := Option.isSome_iff_exists.mp hsome
  rw [hr, Option.map_some, (h.2.2 r hr).1]

end H2Capture

end GrServer
