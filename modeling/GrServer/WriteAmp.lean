import GrServer.Json
import GrServer.Text

/-!
# Storing an analysis result

A result is slimmed and then encoded: curves and dumps are dropped, long lists
and strings are cut, and the text is stored plain, deflated or encrypted.  Each
member of a walked object is capped, cut and walked at one go.  The JSON text,
deflate, base64 and the cipher are parameters; a length is a `usize`.
-/

namespace GrServer

open Json Text

namespace WriteAmp

/-! ## Slimming -/

def dropTop : List String :=
  ["field_algorithm_utilization", "field_utilization_detail", "matrix_rows", "probe_fields",
    "evidence_raw", "raw_fields"]

def dropAny : List String :=
  ["hw_curve_webgl", "hw_curve_audio", "hw_curve_canvas", "hw_curve_cpu", "residual_hist",
    "challenge_hist", "audio_deep_curve", "payload_full", "fields_dump"]

def capArrays : List (String × ℕ) :=
  [("battle_log", 16), ("direction_priors", 24), ("open_verification_gaps", 32),
    ("id_warnings", 32), ("analysis_posture", 48), ("eligibility_reasons", 48),
    ("no_id_reasons", 32), ("tier_reasons", 32), ("materials_included", 64),
    ("soft_extras_included", 32), ("corroboration", 32)]

def dropDiagnostics : List String :=
  ["field_utilization", "field_algorithm_utilization", "utilization_by_axis",
    "matrix_coverage", "scorer_consumption", "raw"]

def dropAnalysisQuality : List String :=
  ["per_field", "axis_detail", "mutual_info", "samples"]

def dropBrain : List String :=
  ["route_plan_full", "pack_catalog", "yield_table"]

abbrev Members := List (String × Json)

def removeKeys (ks : List String) (members : Members) : Members :=
  members.filter fun m => ¬ ks.contains m.1

def inObject (k : String) (f : Members → Members) (members : Members) : Members :=
  members.map fun m =>
    if m.1 = k then
      match m.2 with
      | .obj inner => (m.1, .obj (f inner))
      | _ => m
    else m

def dropBloat (members : Members) : Members :=
  let members := removeKeys dropTop members
  let members := inObject "diagnostics"
    (fun diag => inObject "analysis_quality" (removeKeys dropAnalysisQuality)
      (removeKeys dropDiagnostics diag)) members
  inObject "brain" (removeKeys dropBrain) members

/-- A string above 4096 bytes keeps its first 512; `none` is the panic of a slice
inside a character. -/
def cutString (s : String) : Option String :=
  let size := (asBytes s).length
  if 4096 < size then
    (sliceTo 512 s.toList).map fun head => String.ofList
      (head ++ "…[trunc:".toList ++ (size % 2 ^ 64).repr.toList ++ "]".toList)
  else some s

def cappedLength (key : Option String) (n : ℕ) : ℕ :=
  match key.bind fun k => capArrays.lookup k with
  | some cap => min cap n
  | none => n

def softCap (depth n : ℕ) : ℕ :=
  if 64 < n ∧ 2 < depth then 64 else n

mutual

/-- The value under `key`, `none` for the root and for an item, walked at a depth. -/
def slimWalk (depth : ℕ) (key : Option String) : Json → Option Json
  | .str s => if key.isSome then (cutString s).map .str else some (.str s)
  | .arr items =>
      let kept := cappedLength key items.length
      if 12 < depth then some (.arr (items.take kept))
      else (slimItems (depth + 1) (softCap depth kept) items).map .arr
  | .obj members =>
      if 12 < depth then some (.obj members)
      else (slimMembers (depth + 1) members).map .obj
  | .null => some .null
  | .bool b => some (.bool b)
  | .num n => some (.num n)

def slimItems (depth : ℕ) : ℕ → List Json → Option (List Json)
  | 0, _ => some []
  | _ + 1, [] => some []
  | limit + 1, item :: rest =>
      (slimWalk depth none item).bind fun item =>
        (slimItems depth limit rest).map (item :: ·)

def slimMembers (depth : ℕ) : Members → Option Members
  | [] => some []
  | (k, v) :: rest =>
      if dropAny.contains k then slimMembers depth rest
      else
        (slimWalk depth (some k) v).bind fun v =>
          (slimMembers depth rest).map ((k, v) :: ·)

end

def slimAnalysisResultForStorage (result : Json) : Option Json :=
  let v :=
    match result with
    | .obj members => .obj (dropBloat members)
    | v => v
  (slimWalk 0 none v).map fun v => v.setMember "_storage" (.str "slim_v1")

structure Codec where
  Key : Type
  toText : Json → String
  fromSlice : List UInt8 → Option Json
  deflate : List UInt8 → List UInt8
  inflate : List UInt8 → Option (List UInt8)
  toBase64 : List UInt8 → String
  fromBase64 : String → Option (List UInt8)
  encrypt : Key → List UInt8 → List UInt8 → List UInt8
  decrypt : Key → List UInt8 → List UInt8 → Option (List UInt8)

section Source

variable (C : Codec)

def maxInflated : ℕ := 2 * 1024 * 1024

def compressJsonPayload (v : Json) : List UInt8 :=
  C.deflate (asBytes (C.toText v))

def decompressJsonPayload (data : List UInt8) : Option Json :=
  (C.inflate data).bind fun plain =>
    if maxInflated < plain.length then none else C.fromSlice plain

/-- The nonce is random. -/
def encryptPayload (plain : List UInt8) (key : C.Key) (nonce : List UInt8) : List UInt8 :=
  nonce ++ C.encrypt key nonce plain

def decryptPayload (blob : List UInt8) (key : C.Key) : Option (List UInt8) :=
  if blob.length < 13 then none
  else C.decrypt key (blob.take 12) (blob.drop 12)

def encodeAnalysisResultJson (key : Option C.Key) (nonce : List UInt8) (slim : Json) : String :=
  let plain := asBytes (C.toText slim)
  match key with
  | some key =>
      let z := if plain.length < 256 then plain else compressJsonPayload C slim
      "e1:" ++ C.toBase64 (encryptPayload C z key nonce)
  | none =>
      if plain.length < 2048 then C.toText slim
      else
        let z := compressJsonPayload C slim
        if plain.length ≤ z.length + 32 then C.toText slim
        else "z1:" ++ C.toBase64 z

def decodeAnalysisResultJson (key : Option C.Key) (s : String) : Option Json :=
  match stripPrefix? s "e1:" with
  | some rest =>
      key.bind fun key => (C.fromBase64 rest).bind fun raw =>
        (decryptPayload C raw key).bind fun plain =>
          match decompressJsonPayload C plain with
          | some v => some v
          | none => C.fromSlice plain
  | none =>
      match stripPrefix? s "z1:" with
      | some rest => (C.fromBase64 rest).bind (decompressJsonPayload C)
      | none => C.fromSlice (asBytes s)

end Source

end WriteAmp

end GrServer
