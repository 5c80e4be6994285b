import GrServer.TlsHello

/-!
# The client's HTTP/2 preface

The stream handed to the h2 codec is wrapped: the first bytes are held back and
read as the connection preface and the frames behind it, up to a first SETTINGS
frame and what came with it, and are delivered afterwards.
-/

namespace GrServer

open Text WireBytes TlsHello

namespace H2Capture

def preface : List UInt8 := asBytes "PRI * HTTP/2.0\r\n\r\nSM\r\n\r\n"

def maxCapture : ℕ := 16 * 1024

def maxPrefaceFrames : ℕ := 12

/-- The capture buffer `tmp`. -/
def readSize : ℕ := 2048

structure ClientH2PriorityFrame where
  streamId : UInt32
  exclusive : Bool
  dependsOn : UInt32
  weight : UInt8
  deriving DecidableEq

structure ClientH2Settings where
  prefaceOk : Bool := false
  headerTableSize : Option UInt32 := none
  enablePush : Option UInt32 := none
  maxConcurrentStreams : Option UInt32 := none
  initialWindowSize : Option UInt32 := none
  maxFrameSize : Option UInt32 := none
  maxHeaderListSize : Option UInt32 := none
  rawPairs : List (UInt16 × UInt32) := []
  settingsFrameLen : ℕ := 0
  connectionWindowUpdate : Option UInt32 := none
  priorityFrames : List ClientH2PriorityFrame := []
  priorityFingerprint : String := ""
  frameTypeSequence : List UInt8 := []
  notes : List String := []
  deriving DecidableEq

def wordAt (b : List UInt8) (i : ℕ) : ℕ :=
  byteAt b i * 2 ^ 24 + byteAt b (i + 1) * 2 ^ 16 + byteAt b (i + 2) * 2 ^ 8 + byteAt b (i + 3)

def u32At (b : List UInt8) (i : ℕ) : UInt32 := UInt32.ofNat (wordAt b i)

def u31At (b : List UInt8) (i : ℕ) : UInt32 := UInt32.ofNat (wordAt b i % 2 ^ 31)

/-! ## Frames -/

def ClientH2Settings.note (s : ClientH2Settings) (text : String) : ClientH2Settings :=
  { s with notes := s.notes ++ [text] }

def ClientH2Settings.putPair (out : ClientH2Settings) (id : UInt16) (val : UInt32) :
    ClientH2Settings :=
  let out := { out with rawPairs := out.rawPairs ++ [(id, val)] }
  if id = 0x1 then { out with headerTableSize := some val }
  else if id = 0x2 then { out with enablePush := some val }
  else if id = 0x3 then { out with maxConcurrentStreams := some val }
  else if id = 0x4 then { out with initialWindowSize := some val }
  else if id = 0x5 then { out with maxFrameSize := some val }
  else if id = 0x6 then { out with maxHeaderListSize := some val }
  else out

/-- The pairs of a SETTINGS payload; fewer than six bytes at the end are passed over. -/
def settingsPairs : List UInt8 → List (UInt16 × UInt32)
  | a :: b :: c :: d :: e :: f :: rest =>
      (u16At [a, b] 0, u32At [c, d, e, f] 0) :: settingsPairs rest
  | _ => []

def parseSettingsPayload (payload : List UInt8) (out : ClientH2Settings) : ClientH2Settings :=
  (settingsPairs payload).foldl (fun out pair => out.putPair pair.1 pair.2) out

structure Listen where
  settings : ClientH2Settings
  offset : ℕ
  frames : ℕ := 0
  sawSettings : Bool := false
  deriving DecidableEq

def Listen.note (s : Listen) (text : String) : Listen :=
  { s with settings := s.settings.note text }

def onSettings (s : Listen) (flags : UInt8) (payload : List UInt8) : Listen :=
  if s.sawSettings then s.note "additional SETTINGS in preface"
  else
    let settings := { s.settings with settingsFrameLen := payload.length }
    { s with
      settings :=
        if flags &&& 0x1 ≠ 0 then settings.note "first SETTINGS was ACK"
        else parseSettingsPayload payload settings
      sawSettings := true }

def onWindowUpdate (s : Listen) (streamId : UInt32) (payload : List UInt8) : Listen :=
  if 4 ≤ payload.length then
    let inc := u31At payload 0
    if streamId = 0 then
      if s.settings.connectionWindowUpdate = none then
        { s with settings := { s.settings with connectionWindowUpdate := some inc } }
      else s
    else
      s.note ("stream WINDOW_UPDATE sid=" ++ streamId.toNat.repr ++ " inc=" ++ inc.toNat.repr)
  else s

def onPriority (s : Listen) (streamId : UInt32) (payload : List UInt8) : Listen :=
  if 5 ≤ payload.length then
    let frame : ClientH2PriorityFrame :=
      { streamId
        exclusive := decide (2 ^ 31 ≤ wordAt payload 0)
        dependsOn := u31At payload 0
        weight := payload.getD 4 0 + 1 }
    { s with settings :=
        { s.settings with priorityFrames := s.settings.priorityFrames ++ [frame] } }
  else s

def Listen.enter (s : Listen) (ftype : UInt8) : Listen :=
  { s with
    settings := { s.settings with frameTypeSequence := s.settings.frameTypeSequence ++ [ftype] }
    frames := s.frames + 1 }

/-- The `match` on the frame type; the second component is its `break`. -/
def onFrame (s : Listen) (ftype flags : UInt8) (streamId : UInt32) (payload : List UInt8) :
    Listen × Bool :=
  let s := s.enter ftype
  if ftype = 0x4 then (onSettings s flags payload, false)
  else if ftype = 0x8 then (onWindowUpdate s streamId payload, false)
  else if ftype = 0x2 then (onPriority s streamId payload, false)
  else if ftype = 0x1 ∨ ftype = 0x9 ∨ ftype = 0x5 then
    (s.note ("preface stop at frame type=0x" ++ digits 16 2 ftype.toNat), true)
  else if ftype = 0x6 then (s, false)
  else (s.note ("preface other frame type=0x" ++ digits 16 2 ftype.toNat), s.sawSettings)

def partialAt (capture : List UInt8) (offset : ℕ) : Bool :=
  decide (capture.length < offset + 9) ||
    decide (capture.length < offset + 9 + u24At capture offset)

/-- The loop over the frames, `left` of them at most; `none` is the `return` that waits
for more bytes. -/
def listen (capture : List UInt8) : ℕ → Listen → Option Listen
  | 0, s => some s
  | left + 1, s =>
      if capture.length < s.offset + 9 then none
      else
        let len := u24At capture s.offset
        let total := s.offset + 9 + len
        if maxCapture < total then some (s.note "preface capture hit MAX_CAPTURE")
        else if capture.length < total then none
        else
          let r := onFrame s (capture.getD (s.offset + 3) 0) (capture.getD (s.offset + 4) 0)
            (u31At capture (s.offset + 5)) (slice capture (s.offset + 9) len)
          if r.2 then some r.1
          else
            let s := { r.1 with offset := total }
            -- past SETTINGS only frames that are there already are read
            if s.sawSettings && partialAt capture total then some s else listen capture left s

def priorityText (p : ClientH2PriorityFrame) : String :=
  ":".intercalate
    [p.streamId.toNat.repr, if p.exclusive then "1" else "0", p.dependsOn.toNat.repr,
      p.weight.toNat.repr]

def priorityFingerprint (frames : List ClientH2PriorityFrame) : String :=
  if frames = [] then "0" else ",".intercalate (frames.map priorityText)

def Listen.record (s : Listen) : ClientH2Settings :=
  let settings :=
    if !s.sawSettings && decide (0 < s.frames) then
      s.settings.note "no SETTINGS frame in preface window"
    else s.settings
  { settings with priorityFingerprint := priorityFingerprint settings.priorityFrames }

def listenStart : Listen where
  settings := { prefaceOk := true, priorityFingerprint := "0" }
  offset := preface.length

/-! ## The wrapped stream -/

structure CaptureStream where
  pending : List UInt8 := []
  capture : List UInt8 := []
  done : Bool := false
  deriving DecidableEq

def CaptureStream.release (s : CaptureStream) : CaptureStream where
  pending := s.pending ++ s.capture
  capture := []
  done := true

def tryFinishCapture (s : CaptureStream) : CaptureStream × Option ClientH2Settings :=
  if s.done then (s, none)
  else if s.capture.length < preface.length then
    if s.capture ≠ [] ∧ ¬s.capture <+: preface then (s.release, none) else (s, none)
  else if s.capture.take preface.length ≠ preface then (s.release, none)
  else
    (listen s.capture maxPrefaceFrames listenStart).elim (s, none)
      fun l => (s.release, some l.record)

/-- `Poll<io::Result<()>>` with the bytes put into the buffer. -/
inductive Poll where
  | ready (bytes : List UInt8)
  | failed
  | pending
  deriving DecidableEq

structure InnerStream where
  read : ℕ → Poll
  fits : ∀ {n bytes}, read n = .ready bytes → bytes.length ≤ n

def CaptureStream.serve (s : CaptureStream) (remaining : ℕ) : CaptureStream × Poll :=
  ({ s with pending := s.pending.drop remaining }, .ready (s.pending.take remaining))

structure Polled where
  stream : CaptureStream
  answer : Poll
  record : Option ClientH2Settings := none

def CaptureStream.grow (s : CaptureStream) (filled : List UInt8) :
    CaptureStream × Option ClientH2Settings :=
  let s := { s with capture := s.capture ++ filled }
  if maxCapture < s.capture.length then (s.release, none) else tryFinishCapture s

def captured (s : CaptureStream) (remaining : ℕ) (filled : List UInt8) : Polled :=
  if filled = [] then { stream := s.release, answer := .ready [] }
  else
    let r := s.grow filled
    if r.1.pending = [] then { stream := r.1, answer := .pending, record := r.2 }
    else
      { stream := (r.1.serve remaining).1, answer := (r.1.serve remaining).2, record := r.2 }

/-- `poll_read` into a buffer with `remaining` bytes of room. -/
def pollRead (s : CaptureStream) (remaining : ℕ) (inner : InnerStream) : Polled :=
  if s.pending ≠ [] then
    { stream := (s.serve remaining).1, answer := (s.serve remaining).2 }
  else if s.done then { stream := s, answer := inner.read remaining }
  else
    match inner.read readSize with
    | .ready filled => captured s remaining filled
    | .failed => { stream := s, answer := .failed }
    | .pending => { stream := s, answer := .pending }

end H2Capture

end GrServer
