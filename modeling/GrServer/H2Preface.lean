import GrServer.GuardedRun
import GrServer.H2Capture

/-!
# Frames behind the preface

A client's bytes are frames and a beginning of one more.  The loop over the
bytes is a walk over the whole frames: it ends at a frame that stops it, after
a count, or with the last whole frame once a SETTINGS frame was met.
-/

namespace GrServer

open Text WireBytes TlsHello

namespace H2Capture

/-! ## Frames on the wire -/

/-- A frame with its stream word as sent; the upper bit of the word is reserved. -/
structure Frame where
  ftype : UInt8
  flags : UInt8
  word : UInt32
  payload : List UInt8
  fits : payload.length < 2 ^ 24

def beBytes32 (v : UInt32) : List UInt8 :=
  [UInt8.ofNat (v.toNat / 2 ^ 24), UInt8.ofNat (v.toNat / 2 ^ 16), UInt8.ofNat (v.toNat / 2 ^ 8),
    UInt8.ofNat v.toNat]

def Frame.streamId (f : Frame) : UInt32 := UInt32.ofNat (f.word.toNat % 2 ^ 31)

def Frame.bytes (f : Frame) : List UInt8 :=
  beBytes24 f.payload.length ++ (f.ftype :: f.flags :: (beBytes32 f.word ++ f.payload))

def framesBytes (fs : List Frame) : List UInt8 := fs.flatMap Frame.bytes

def Incomplete (tail : List UInt8) : Prop := partialAt tail 0 = true

theorem length_preface : preface.length = 24 := by decide

theorem wordAt_beBytes32 (v : UInt32) (rest : List UInt8) :
    wordAt (beBytes32 v ++ rest) 0 = v.toNat := by
  have hv := v.toNat_lt
  change (UInt8.ofNat (v.toNat / 2 ^ 24)).toNat * 2 ^ 24 +
    (UInt8.ofNat (v.toNat / 2 ^ 16)).toNat * 2 ^ 16 +
    (UInt8.ofNat (v.toNat / 2 ^ 8)).toNat * 2 ^ 8 + (UInt8.ofNat v.toNat).toNat = v.toNat
  rw [UInt8.toNat_ofNat', UInt8.toNat_ofNat', UInt8.toNat_ofNat', UInt8.toNat_ofNat']
  omega

theorem Frame.length_bytes (f : Frame) : f.bytes.length = 9 + f.payload.length := by
  unfold Frame.bytes
  rw [List.length_append, length_beBytes24, List.length_cons, List.length_cons, List.length_append]
  change 3 + (4 + f.payload.length + 1 + 1) = _
  omega

theorem framesBytes_cons (f : Frame) (fs : List Frame) :
    framesBytes (f :: fs) = f.bytes ++ framesBytes fs := rfl

section Reads

variable {front back : List UInt8} {i j : ℕ}

theorem getD_append_add (hi : i = front.length + j) : (front ++ back).getD i 0 = back.getD j 0 := by
  subst hi
  rw [List.getD_append_right _ _ _ _ (Nat.le_add_right _ _), Nat.add_sub_cancel_left]

theorem u24At_append_add (hi : i = front.length + j) :
    u24At (front ++ back) i = u24At back j := by
  unfold u24At
  rw [byteAt_append_add hi, byteAt_append_add (j := j + 1) (by omega),
    byteAt_append_add (j := j + 2) (by omega)]

theorem wordAt_append_add (hi : i = front.length + j) :
    wordAt (front ++ back) i = wordAt back j := by
  unfold wordAt
  rw [byteAt_append_add hi, byteAt_append_add (j := j + 1) (by omega),
    byteAt_append_add (j := j + 2) (by omega), byteAt_append_add (j := j + 3) (by omega)]

theorem partialAt_append (hi : i = front.length) :
    partialAt (front ++ back) i = partialAt back 0 := by
  unfold partialAt
  rw [u24At_append_add (j := 0) (by omega), List.length_append]
  congr 1
  · exact decide_eq_decide.mpr (by omega)
  · exact decide_eq_decide.mpr (by omega)

end Reads

theorem partialAt_eq_true_iff {b : List UInt8} {i : ℕ} :
    partialAt b i = true ↔ b.length < i + 9 + u24At b i ∨ b.length < i + 9 := by
  unfold partialAt
  rw [Bool.or_eq_true, decide_eq_true_iff, decide_eq_true_iff]
  omega

theorem u24At_bytes (f : Frame) (rest : List UInt8) :
    u24At (f.bytes ++ rest) 0 = f.payload.length := by
  unfold Frame.bytes
  rw [List.append_assoc]
  exact u24At_beBytes24 f.fits _

theorem not_incomplete_bytes (f : Frame) (rest : List UInt8) : ¬Incomplete (f.bytes ++ rest) := by
  unfold Incomplete
  rw [partialAt_eq_true_iff, u24At_bytes, List.length_append, f.length_bytes]
  omega

theorem frame_fields (front rest : List UInt8) (f : Frame) :
    u24At (front ++ (f.bytes ++ rest)) front.length = f.payload.length ∧
      (front ++ (f.bytes ++ rest)).getD (front.length + 3) 0 = f.ftype ∧
      (front ++ (f.bytes ++ rest)).getD (front.length + 4) 0 = f.flags ∧
      u31At (front ++ (f.bytes ++ rest)) (front.length + 5) = f.streamId ∧
      slice (front ++ (f.bytes ++ rest)) (front.length + 9) f.payload.length = f.payload := by
  have hbytes : f.bytes ++ rest =
      (beBytes24 f.payload.length ++ [f.ftype, f.flags]) ++
        (beBytes32 f.word ++ (f.payload ++ rest)) := by
    unfold Frame.bytes
    simp only [List.append_assoc, List.cons_append, List.nil_append]
  refine ⟨?_, ?_, ?_, ?_, ?_⟩
  · rw [u24At_append_add (j := 0) (Nat.add_zero _).symm, u24At_bytes]
  · rw [getD_append_add (j := 3) rfl]
    rfl
  · rw [getD_append_add (j := 4) rfl]
    rfl
  · unfold u31At Frame.streamId
    rw [wordAt_append_add (j := 5) rfl, hbytes, wordAt_append_add (i := 5) (j := 0) rfl,
      wordAt_beBytes32]
  · rw [slice_append_add (j := 9) rfl, hbytes, ← List.append_assoc]
    exact slice_append rfl rfl _

def heard : ℕ → Listen → List Frame → Listen × Bool
  | 0, s, _ => (s, false)
  | _ + 1, s, [] => (s, true)
  | left + 1, s, f :: fs =>
      let r := onFrame s f.ftype f.flags f.streamId f.payload
      if r.2 then (r.1, false)
      else
        let s := { r.1 with offset := s.offset + f.bytes.length }
        if s.sawSettings && fs.isEmpty then (s, false) else heard left s fs

def Listen.past (s : Listen) (f : Frame) : Listen :=
  { (onFrame s f.ftype f.flags f.streamId f.payload).1 with offset := s.offset + f.bytes.length }

section Heard

variable {left : ℕ} {s : Listen} {f : Frame} {fs : List Frame}

theorem heard_stop (hstop : (onFrame s f.ftype f.flags f.streamId f.payload).2 = true) :
    heard (left + 1) s (f :: fs) =
      ((onFrame s f.ftype f.flags f.streamId f.payload).1, false) := by
  unfold heard
  rw [if_pos hstop]

theorem heard_last (hstop : (onFrame s f.ftype f.flags f.streamId f.payload).2 = false)
    (hlast : ((s.past f).sawSettings && fs.isEmpty) = true) :
    heard (left + 1) s (f :: fs) = (s.past f, false) := by
  unfold heard
  rw [if_neg (by simp [hstop])]
  exact if_pos hlast

theorem heard_next (hstop : (onFrame s f.ftype f.flags f.streamId f.payload).2 = false)
    (hlast : ((s.past f).sawSettings && fs.isEmpty) = false) :
    heard (left + 1) s (f :: fs) = heard left (s.past f) fs := by
  conv_lhs => unfold heard
  rw [if_neg (by simp [hstop])]
  exact if_neg (by rw [Bool.not_eq_true]; exact hlast)

end Heard

def oversized (offset : ℕ) (tail : List UInt8) : Bool :=
  decide (9 ≤ tail.length) && decide (maxCapture < offset + 9 + u24At tail 0)

theorem listen_frames (fs : List Frame) (left : ℕ) (s : Listen) (front : List UInt8)
    {tail : List UInt8} (htail : Incomplete tail) (hs : s.offset = front.length)
    (hmax : (front ++ (framesBytes fs ++ tail)).length ≤ maxCapture) :
    listen (front ++ (framesBytes fs ++ tail)) left s =
      if (heard left s fs).2 then
        if oversized (heard left s fs).1.offset tail then
          some ((heard left s fs).1.note "preface capture hit MAX_CAPTURE")
        else none
      else some (heard left s fs).1 := by
  induction fs generalizing left s front with
  | nil =>
      cases left with
      | zero => rfl
      | succ left =>
          have hpartial := partialAt_eq_true_iff.mp htail
          change listen (front ++ tail) (left + 1) s = if oversized s.offset tail then _ else _
          unfold listen oversized
          rw [u24At_append_add (j := 0) hs, List.length_append, hs]
          by_cases hheader : tail.length < 9
          · rw [if_pos (by omega), decide_eq_false (by omega)]
            rfl
          · rw [if_neg (by omega), decide_eq_true (by omega), Bool.true_and]
            by_cases hover : maxCapture < front.length + 9 + u24At tail 0
            · rw [decide_eq_true hover]
              dsimp only
              rw [if_pos hover]
              rfl
            · rw [decide_eq_false hover]
              dsimp only
              rw [if_neg hover, if_pos (by omega)]
              rfl
  | cons f fs ih =>
      cases left with
      | zero => rfl
      | succ left =>
          obtain ⟨hlen, htype, hflags, hstream, hpayload⟩ :=
            frame_fields front (framesBytes fs ++ tail) f
          have hsplit : front ++ (framesBytes (f :: fs) ++ tail) =
              front ++ (f.bytes ++ (framesBytes fs ++ tail)) := by
            rw [framesBytes_cons, List.append_assoc]
          have hlength : (front ++ (f.bytes ++ (framesBytes fs ++ tail))).length =
              front.length + 9 + f.payload.length + (framesBytes fs ++ tail).length := by
            rw [List.length_append, List.length_append, f.length_bytes]
            omega
          rw [hsplit] at hmax ⊢
          unfold listen
          rw [hs, hlen, htype, hflags, hstream, if_neg (by omega)]
          dsimp only
          rw [hpayload, if_neg (by omega), if_neg (by omega)]
          cases hstop : (onFrame s f.ftype f.flags f.streamId f.payload).2 with
          | true =>
              rw [if_pos rfl, heard_stop hstop]
              rfl
          | false =>
              have hassoc : front ++ (f.bytes ++ (framesBytes fs ++ tail)) =
                  (front ++ f.bytes) ++ (framesBytes fs ++ tail) := by
                rw [List.append_assoc]
              have hoffset : front.length + 9 + f.payload.length = s.offset + f.bytes.length := by
                rw [hs, f.length_bytes, Nat.add_assoc]
              have hend : s.offset + f.bytes.length = (front ++ f.bytes).length := by
                rw [hs, List.length_append]
              have hrest : partialAt ((front ++ f.bytes) ++ (framesBytes fs ++ tail))
                  (s.offset + f.bytes.length) = fs.isEmpty := by
                rw [partialAt_append hend]
                cases fs with
                | nil => exact htail
                | cons g gs =>
                    rw [framesBytes_cons, List.append_assoc]
                    exact Bool.eq_false_iff.mpr (not_incomplete_bytes g _)
              rw [if_neg Bool.false_ne_true, hassoc, hoffset, hrest]
              rw [hassoc] at hmax
              cases hlast : (s.past f).sawSettings && fs.isEmpty with
              | true =>
                  rw [heard_last hstop hlast]
                  exact if_pos hlast
              | false =>
                  rw [heard_next hstop hlast, ← ih left (s.past f) (front ++ f.bytes) hend hmax]
                  exact if_neg (by rw [Bool.not_eq_true]; exact hlast)

/-! ## What the walk observes -/

def Frame.increment (f : Frame) : Option UInt32 :=
  if f.ftype = 0x8 ∧ 4 ≤ f.payload.length ∧ f.streamId = 0 then some (u31At f.payload 0) else none

def Frame.priority (f : Frame) : Option ClientH2PriorityFrame :=
  if f.ftype = 0x2 ∧ 5 ≤ f.payload.length then
    some
      { streamId := f.streamId
        exclusive := decide (2 ^ 31 ≤ wordAt f.payload 0)
        dependsOn := u31At f.payload 0
        weight := f.payload.getD 4 0 + 1 }
  else none

def Frame.isSettings (f : Frame) : Bool := decide (f.ftype = 0x4)

def ClientH2Settings.part (s : ClientH2Settings) : ClientH2Settings :=
  { s with
    connectionWindowUpdate := none
    priorityFrames := []
    priorityFingerprint := ""
    frameTypeSequence := []
    notes := [] }

def Frame.settings (f : Frame) : ClientH2Settings :=
  if f.flags &&& 0x1 ≠ 0 then { prefaceOk := true, settingsFrameLen := f.payload.length }
  else parseSettingsPayload f.payload
    { prefaceOk := true, settingsFrameLen := f.payload.length }

def settingsOf (fs : List Frame) : ClientH2Settings :=
  ((fs.find? Frame.isSettings).map Frame.settings).getD { prefaceOk := true }

/-- A record, up to its notes and its priority text, as that of frames. -/
structure Describes (s : ClientH2Settings) (fs : List Frame) : Prop where
  part : s.part = settingsOf fs
  windowUpdate : s.connectionWindowUpdate = (fs.filterMap Frame.increment).head?
  priorities : s.priorityFrames = fs.filterMap Frame.priority
  types : s.frameTypeSequence = fs.map Frame.ftype

structure Observed (s : Listen) (fs : List Frame) : Prop where
  describes : Describes s.settings fs
  frames : s.frames = fs.length
  saw : s.sawSettings = fs.any Frame.isSettings

theorem putPair_parts (s : ClientH2Settings) (id : UInt16) (val : UInt32) :
    (s.putPair id val).part = s.part.putPair id val ∧
      (s.putPair id val).connectionWindowUpdate = s.connectionWindowUpdate ∧
      (s.putPair id val).priorityFrames = s.priorityFrames ∧
      (s.putPair id val).frameTypeSequence = s.frameTypeSequence := by
  unfold ClientH2Settings.putPair
  repeat' (split <;> try exact ⟨rfl, rfl, rfl, rfl⟩)

theorem parse_parts (payload : List UInt8) (s : ClientH2Settings) :
    (parseSettingsPayload payload s).part = parseSettingsPayload payload s.part ∧
      (parseSettingsPayload payload s).connectionWindowUpdate = s.connectionWindowUpdate ∧
      (parseSettingsPayload payload s).priorityFrames = s.priorityFrames ∧
      (parseSettingsPayload payload s).frameTypeSequence = s.frameTypeSequence := by
  unfold parseSettingsPayload
  generalize settingsPairs payload = pairs
  induction pairs generalizing s with
  | nil => exact ⟨rfl, rfl, rfl, rfl⟩
  | cons pair pairs ih =>
      obtain ⟨hpart, hwindow, hpriorities, htypes⟩ := putPair_parts s pair.1 pair.2
      obtain ⟨ihpart, ihwindow, ihpriorities, ihtypes⟩ := ih (s.putPair pair.1 pair.2)
      rw [hpart] at ihpart
      exact ⟨ihpart, ihwindow.trans hwindow, ihpriorities.trans hpriorities,
        ihtypes.trans htypes⟩

theorem filterMap_concat {α β : Type*} (g : α → Option β) (xs : List α) (x : α) :
    (xs ++ [x]).filterMap g = xs.filterMap g ++ (g x).toList := by
  rw [List.filterMap_append]
  cases hx : g x with
  | none => simp [hx]
  | some y => simp [hx]

theorem settingsOf_concat (fs : List Frame) (f : Frame) :
    settingsOf (fs ++ [f]) =
      if fs.any Frame.isSettings = false ∧ f.isSettings = true then f.settings
      else settingsOf fs := by
  unfold settingsOf
  rw [List.find?_append]
  cases hfind : fs.find? Frame.isSettings with
  | none =>
      have hany : fs.any Frame.isSettings = false := by
        rw [List.any_eq_false]
        exact List.find?_eq_none.mp hfind
      by_cases hf : f.isSettings = true
      · rw [if_pos ⟨hany, hf⟩]
        simp [hf]
      · rw [if_neg fun h => hf h.2]
        simp [hf]
  | some g =>
      have hany : fs.any Frame.isSettings = true :=
        List.any_eq_true.mpr ⟨g, List.mem_of_find?_eq_some hfind, List.find?_some hfind⟩
      rw [if_neg (by simp [hany])]
      rfl

section Step

variable {s : Listen} {fs : List Frame} {f : Frame}

theorem Observed.types (h : Observed s fs) (f : Frame) :
    s.settings.frameTypeSequence ++ [f.ftype] = (fs ++ [f]).map Frame.ftype := by
  rw [List.map_append, ← h.describes.types]
  rfl

theorem Observed.count (h : Observed s fs) (f : Frame) : s.frames + 1 = (fs ++ [f]).length := by
  rw [List.length_append, ← h.frames]
  rfl

theorem Observed.windowUpdate (h : Observed s fs) (hf : f.increment = none) :
    s.settings.connectionWindowUpdate = ((fs ++ [f]).filterMap Frame.increment).head? := by
  rw [filterMap_concat, hf, h.describes.windowUpdate, Option.toList_none, List.append_nil]

theorem Observed.priorities (h : Observed s fs) (hf : f.priority = none) :
    s.settings.priorityFrames = (fs ++ [f]).filterMap Frame.priority := by
  rw [filterMap_concat, hf, h.describes.priorities, Option.toList_none, List.append_nil]

theorem Observed.part (h : Observed s fs) (hf : f.isSettings = false) :
    s.settings.part = settingsOf (fs ++ [f]) := by
  rw [settingsOf_concat, if_neg (by simp [hf]), h.describes.part]

theorem Observed.sawOther (h : Observed s fs) (hf : f.isSettings = false) :
    s.sawSettings = (fs ++ [f]).any Frame.isSettings := by
  rw [List.any_append, h.saw]
  simp [hf]

theorem Observed.note (h : Observed s fs) (text : String) : Observed (s.note text) fs where
  describes := ⟨h.describes.part, h.describes.windowUpdate, h.describes.priorities,
    h.describes.types⟩
  frames := h.frames
  saw := h.saw

theorem Observed.enter (h : Observed s fs) (hsettings : f.isSettings = false)
    (hincrement : f.increment = none) (hpriority : f.priority = none) :
    Observed (s.enter f.ftype) (fs ++ [f]) where
  describes := ⟨h.part hsettings, h.windowUpdate hincrement, h.priorities hpriority, h.types f⟩
  frames := h.count f
  saw := h.sawOther hsettings

theorem Observed.onSettings (h : Observed s fs) (hf : f.ftype = 0x4) :
    Observed (onSettings (s.enter f.ftype) f.flags f.payload) (fs ++ [f]) := by
  have hincrement : f.increment = none := if_neg (by simp [hf])
  have hpriority : f.priority = none := if_neg (by simp [hf])
  have hsettings : f.isSettings = true := decide_eq_true hf
  have hany : (fs ++ [f]).any Frame.isSettings = true := by
    rw [List.any_append]
    simp [hsettings]
  cases hsaw : s.sawSettings with
  | true =>
      have hpart : s.settings.part = settingsOf (fs ++ [f]) := by
        rw [settingsOf_concat, if_neg (by simp [← h.saw, hsaw]), h.describes.part]
      have hstep : H2Capture.onSettings (s.enter f.ftype) f.flags f.payload =
          (s.enter f.ftype).note "additional SETTINGS in preface" := if_pos hsaw
      rw [hstep]
      exact ⟨⟨hpart, h.windowUpdate hincrement, h.priorities hpriority, h.types f⟩, h.count f,
        by rw [hany]; exact hsaw⟩
  | false =>
      have hfirst : fs.any Frame.isSettings = false := by rw [← h.saw, hsaw]
      have hpart : settingsOf (fs ++ [f]) = f.settings := by
        rw [settingsOf_concat, if_pos ⟨hfirst, hsettings⟩]
      have hblank : s.settings.part = { prefaceOk := true } := by
        have hfind : fs.find? Frame.isSettings = none :=
          List.find?_eq_none.mpr (List.any_eq_false.mp hfirst)
        rw [h.describes.part]
        unfold settingsOf
        rw [hfind]
        rfl
      let start : ClientH2Settings :=
        { (s.enter f.ftype).settings with settingsFrameLen := f.payload.length }
      have hstart : start.part = { prefaceOk := true, settingsFrameLen := f.payload.length } := by
        change ({ s.settings.part with settingsFrameLen := f.payload.length } :
          ClientH2Settings) = _
        rw [hblank]
      have hstep : H2Capture.onSettings (s.enter f.ftype) f.flags f.payload =
          { s.enter f.ftype with
            settings :=
              if f.flags &&& 0x1 ≠ 0 then start.note "first SETTINGS was ACK"
              else parseSettingsPayload f.payload start
            sawSettings := true } := if_neg (by rw [Bool.not_eq_true]; exact hsaw)
      rw [hstep]
      refine ⟨?_, h.count f, hany.symm⟩
      by_cases hack : f.flags &&& 0x1 ≠ 0
      · dsimp only
        rw [if_pos hack]
        refine ⟨?_, h.windowUpdate hincrement, h.priorities hpriority, h.types f⟩
        rw [hpart]
        unfold Frame.settings
        rw [if_pos hack, ← hstart]
        rfl
      · obtain ⟨hparse, hwindow, hpriorities, htypes⟩ := parse_parts f.payload start
        dsimp only
        rw [if_neg hack]
        refine ⟨?_, hwindow.trans (h.windowUpdate hincrement),
          hpriorities.trans (h.priorities hpriority), htypes.trans (h.types f)⟩
        rw [hpart, hparse, hstart]
        unfold Frame.settings
        rw [if_neg hack]

theorem Observed.onWindowUpdate (h : Observed s fs) (hf : f.ftype = 0x8) :
    Observed (onWindowUpdate (s.enter f.ftype) f.streamId f.payload) (fs ++ [f]) := by
  have hpriority : f.priority = none := if_neg (by simp [hf])
  have hsettings : f.isSettings = false := decide_eq_false (by simp [hf])
  unfold H2Capture.onWindowUpdate
  by_cases hlen : 4 ≤ f.payload.length
  · rw [if_pos hlen]
    dsimp only
    by_cases hstream : f.streamId = 0
    · have hincrement : f.increment = some (u31At f.payload 0) := if_pos ⟨hf, hlen, hstream⟩
      have hhead : ((fs ++ [f]).filterMap Frame.increment).head? =
          s.settings.connectionWindowUpdate.or (some (u31At f.payload 0)) := by
        rw [filterMap_concat, hincrement, h.describes.windowUpdate, List.head?_append]
        rfl
      rw [if_pos hstream]
      have hsame : (s.enter f.ftype).settings.connectionWindowUpdate =
          s.settings.connectionWindowUpdate := rfl
      rw [hsame]
      cases hwindow : s.settings.connectionWindowUpdate with
      | none =>
          rw [if_pos rfl]
          refine ⟨⟨h.part hsettings, ?_, h.priorities hpriority, h.types f⟩, h.count f,
            h.sawOther hsettings⟩
          rw [hhead, hwindow]
          rfl
      | some inc =>
          rw [if_neg (Option.some_ne_none inc)]
          refine ⟨⟨h.part hsettings, ?_, h.priorities hpriority, h.types f⟩, h.count f,
            h.sawOther hsettings⟩
          rw [hhead, hwindow]
          exact hwindow
    · rw [if_neg hstream]
      exact (h.enter hsettings (if_neg fun hall => hstream hall.2.2) hpriority).note _
  · rw [if_neg hlen]
    exact h.enter hsettings (if_neg fun hall => hlen hall.2.1) hpriority

theorem Observed.onPriority (h : Observed s fs) (hf : f.ftype = 0x2) :
    Observed (onPriority (s.enter f.ftype) f.streamId f.payload) (fs ++ [f]) := by
  have hincrement : f.increment = none := if_neg (by simp [hf])
  have hsettings : f.isSettings = false := decide_eq_false (by simp [hf])
  unfold H2Capture.onPriority
  by_cases hlen : 5 ≤ f.payload.length
  · rw [if_pos hlen]
    refine ⟨⟨h.part hsettings, h.windowUpdate hincrement, ?_, h.types f⟩, h.count f,
      h.sawOther hsettings⟩
    rw [filterMap_concat, ← h.describes.priorities]
    unfold Frame.priority
    rw [if_pos ⟨hf, hlen⟩]
    rfl
  · rw [if_neg hlen]
    exact h.enter hsettings hincrement (if_neg fun hall => hlen hall.2)

theorem Observed.onFrame (h : Observed s fs) (f : Frame) :
    Observed (onFrame s f.ftype f.flags f.streamId f.payload).1 (fs ++ [f]) := by
  unfold H2Capture.onFrame
  dsimp only
  by_cases hsettings : f.ftype = 0x4
  · rw [if_pos hsettings]
    exact h.onSettings hsettings
  rw [if_neg hsettings]
  by_cases hwindow : f.ftype = 0x8
  · rw [if_pos hwindow]
    exact h.onWindowUpdate hwindow
  rw [if_neg hwindow]
  by_cases hpriority : f.ftype = 0x2
  · rw [if_pos hpriority]
    exact h.onPriority hpriority
  rw [if_neg hpriority]
  have hnext : Observed (s.enter f.ftype) (fs ++ [f]) :=
    h.enter (decide_eq_false hsettings) (if_neg fun hall => hwindow hall.1)
      (if_neg fun hall => hpriority hall.1)
  split
  · exact hnext.note _
  · split
    · exact hnext
    · exact hnext.note _

end Step

theorem observed_start : Observed listenStart [] where
  describes := ⟨rfl, rfl, rfl, rfl⟩
  frames := rfl
  saw := rfl

theorem heard_observed {past : List Frame} (fs : List Frame) (left : ℕ) {s : Listen}
    (h : Observed s past) :
    ∃ n ≤ left, (left ≠ 0 → fs ≠ [] → n ≠ 0) ∧
      Observed (heard left s fs).1 (past ++ fs.take n) := by
  induction fs generalizing left s past with
  | nil =>
      refine ⟨0, Nat.zero_le left, fun _ hne => absurd rfl hne, ?_⟩
      rw [List.take_nil, List.append_nil]
      cases left with
      | zero => exact h
      | succ left => exact h
  | cons f fs ih =>
      cases left with
      | zero =>
          refine ⟨0, Nat.le_refl 0, fun hne => absurd rfl hne, ?_⟩
          rw [List.take_zero, List.append_nil]
          exact h
      | succ left =>
          have hnext := h.onFrame f
          have hpast : Observed (s.past f) (past ++ [f]) :=
            ⟨hnext.describes, hnext.frames, hnext.saw⟩
          cases hstop : (onFrame s f.ftype f.flags f.streamId f.payload).2 with
          | true =>
              rw [heard_stop hstop]
              exact ⟨1, by omega, by omega, hnext⟩
          | false =>
              cases hlast : (s.past f).sawSettings && fs.isEmpty with
              | true =>
                  rw [heard_last hstop hlast]
                  exact ⟨1, by omega, by omega, hpast⟩
              | false =>
                  obtain ⟨n, hn, -, hobserved⟩ := ih left hpast
                  rw [heard_next hstop hlast]
                  refine ⟨n + 1, by omega, by omega, ?_⟩
                  rw [List.append_assoc] at hobserved
                  exact hobserved

theorem heard_ends {past : List Frame} {fs : List Frame} (left : ℕ) {s : Listen}
    (h : Observed s past) (hsaw : s.sawSettings = true) (hne : fs ≠ []) :
    (heard left s fs).2 = false := by
  induction fs generalizing left s past with
  | nil => exact absurd rfl hne
  | cons f fs ih =>
      cases left with
      | zero => rfl
      | succ left =>
          have hnext := h.onFrame f
          have hpast : Observed (s.past f) (past ++ [f]) :=
            ⟨hnext.describes, hnext.frames, hnext.saw⟩
          have hsawNext : (s.past f).sawSettings = true := by
            rw [hpast.saw, List.any_append, ← h.saw, hsaw, Bool.true_or]
          cases hstop : (onFrame s f.ftype f.flags f.streamId f.payload).2 with
          | true => rw [heard_stop hstop]
          | false =>
              cases hlast : (s.past f).sawSettings && fs.isEmpty with
              | true => rw [heard_last hstop hlast]
              | false =>
                  rw [heard_next hstop hlast]
                  refine ih left hpast hsawNext ?_
                  rw [hsawNext, Bool.true_and, List.isEmpty_eq_false_iff] at hlast
                  exact hlast

theorem heard_settings_ends {f : Frame} (hf : f.ftype = 0x4) (fs : List Frame) (left : ℕ) :
    (heard left listenStart (f :: fs)).2 = false := by
  cases left with
  | zero => rfl
  | succ left =>
      have hnext := observed_start.onFrame f
      have hpast : Observed (listenStart.past f) ([] ++ [f]) :=
        ⟨hnext.describes, hnext.frames, hnext.saw⟩
      have hsaw : (listenStart.past f).sawSettings = true := by
        rw [hpast.saw]
        simp [Frame.isSettings, hf]
      have hstop : (onFrame listenStart f.ftype f.flags f.streamId f.payload).2 = false := by
        unfold onFrame
        dsimp only
        rw [if_pos hf]
      cases hlast : (listenStart.past f).sawSettings && fs.isEmpty with
      | true => rw [heard_last hstop hlast]
      | false =>
          rw [heard_next hstop hlast]
          refine heard_ends left hpast hsaw ?_
          rw [hsaw, Bool.true_and, List.isEmpty_eq_false_iff] at hlast
          exact hlast

end H2Capture

end GrServer
