import GrServer.EvidenceMerge

/-!
# Conflicts between sources

The identity values of the sources are grouped by key and compared, most of
them as coarse classes.  The Unicode class of letters and digits is a parameter.
A float is its exact value, which is all that the equality of values sees; what
the text of a class shows beyond it, the sign of a zero and the text of a
compound value, is a parameter for each source and key.
-/

namespace GrServer

open Json Text

namespace EvidenceMerge

structure TextOps where
  isAlphanumeric : Char → Bool
  /-- Whether the zero that a source gives for a key is the negative one. -/
  minusZero : String → String → Bool
  /-- The text of the compound value that a source gives for a key. -/
  jsonText : String → String → Json → String

/-- `as f64` of a natural number: 53 significant bits, ties to even. -/
def f64OfNat (n : ℕ) : ℕ :=
  let unit := 2 ^ (Nat.log2 n - 52)
  let q := n / unit
  let r := n % unit
  if unit < 2 * r ∨ 2 * r = unit ∧ q % 2 = 1 then (q + 1) * unit else q * unit

def f64OfInt (n : ℤ) : ℚ :=
  if n < 0 then -(f64OfNat n.natAbs : ℚ) else f64OfNat n.natAbs

def numF64 : Json → Option ℚ
  | .num (.int n) => some (f64OfInt n)
  | .num (.float q) => some q
  | _ => none

def truncI64 (x : ℚ) : ℤ :=
  max (-2 ^ 63) (min (2 ^ 63 - 1) (x.num.tdiv x.den))

def wrapI64 (n : ℤ) : ℤ :=
  (n + 2 ^ 63) % 2 ^ 64 - 2 ^ 63

def roundHalfEven (x : ℚ) : ℕ :=
  let q := x.floor.toNat
  if 1 < 2 * (x - q) ∨ 2 * (x - q) = 1 ∧ q % 2 = 1 then q + 1 else q

/-- `{x:.places}`. -/
def fixedText (places : ℕ) (x : ℚ) : String :=
  let sign := if x < 0 then "-" else ""
  let scaled := roundHalfEven ((if x < 0 then -x else x) * 10 ^ places)
  let whole := (scaled / 10 ^ places).repr
  let digits := (scaled % 10 ^ places).repr
  let padded := String.ofList (List.replicate (places - digits.length) '0') ++ digits
  if places = 0 then sign ++ whole else sign ++ whole ++ "." ++ padded

/-- The first bound that `x` does not exceed names its class. -/
def classOf (x : ℚ) (bounds : List (ℚ × String)) (above : String) : String :=
  ((bounds.find? fun bound => x ≤ bound.1).map Prod.snd).getD above

/-! ## Comparable classes -/

def lowerStr (v : Json) : String :=
  lowered (v.asStr.getD "")

def takeChars (n : ℕ) (s : String) : String :=
  String.ofList (s.toList.take n)

def boolText (b : Bool) : String :=
  if b then "1" else "0"

def splitWords (T : TextOps) : Text → List Text
  | [] => [[]]
  | c :: cs =>
      if T.isAlphanumeric c then
        match splitWords T cs with
        | word :: rest => (c :: word) :: rest
        | [] => [[c]]
      else [] :: splitWords T cs

def platformClass (s : String) : String :=
  if containsStr s "win" then "win"
  else if containsStr s "mac" || containsStr s "iphone" || containsStr s "ipad" then "mac"
  else if containsStr s "android" then "android"
  else if containsStr s "linux" || containsStr s "x11" then "linux"
  else if s = "" then ""
  else "other"

def userAgentClass (s : String) : String :=
  if containsStr s "edg/" then "edge"
  else if containsStr s "chrome/" || containsStr s "crios/" then "chrome"
  else if containsStr s "firefox/" || containsStr s "fxios/" then "firefox"
  else if containsStr s "safari/" && ¬ containsStr s "chrome" then "safari"
  else if s = "" then ""
  else "other"

def coresClass (n : ℚ) : String :=
  classOf n [(0, "c0"), (2, "c1_2"), (4, "c3_4"), (8, "c5_8"), (16, "c9_16")] "c17p"

def touchClass (n : ℚ) : String :=
  classOf n [(0, "t0"), (1, "t1"), (4, "t2"), (10, "t3")] "t4"

def webglCapClass (n : ℚ) : String :=
  classOf n [(0, "c0"), (512, "c1_512"), (4096, "c513_4k"), (16384, "c4k_16k")] "c16kp"

def deviceModelClass (T : TextOps) (s : String) : String :=
  " ".intercalate
    ((((splitWords T s.toList).filter (· ≠ [])).take 3).map String.ofList)

def offsetText (v : Json) : String :=
  (((v.asI64).or ((numF64 v).map truncI64)).map Int.repr).getD ""

/-- The sign that `{x:.places}` puts before a zero. -/
def zeroSign (T : TextOps) (src key : String) (v : Json) : String :=
  if v = .num (.float 0) && T.minusZero src key then "-" else ""

def softNormalizeForCompare (T : TextOps) (src key : String) (v : Json) : String :=
  let n := (numF64 v).getD 0
  if key = "platform" ∨ key = "ua_platform" then platformClass (lowerStr v)
  else if key = "os_family" then
    String.ofList (((splitWords T (lowerStr v).toList).head?).getD [])
  else if key = "hardware_concurrency" ∨ key = "device_memory" then coresClass n
  else if key = "timezone" ∨ key = "language" ∨ key = "vendor" then
    takeChars 48 (lowerStr v)
  else if key = "timezone_offset_min" then offsetText v
  else if key = "screen_width" ∨ key = "screen_height" then
    "d" ++ Int.repr (max ((wrapI64 (truncI64 n + 159)).tdiv 320) 0)
  else if key = "max_touch_points" then touchClass n
  else if key = "webgl_max_texture" ∨ key = "webgl_max_viewport" ∨
      key = "webgl_max_tex_units" then
    webglCapClass n
  else if key = "device_model" then deviceModelClass T (lowerStr v)
  else if key = "webgl_precision_high" ∨ key = "webgl_depth_bits" then
    match v.asBool with
    | some b => boolText b
    | none => ((numF64 v).map fun x => zeroSign T src key v ++ fixedText 0 x).getD ""
  else if key = "user_agent" then userAgentClass (lowerStr v)
  else if key = "webdriver" then ((v.asBool).map boolText).getD ""
  else
    match v with
    | .str s => takeChars 64 (lowered s)
    | .bool b => boolText b
    | .num _ => zeroSign T src key v ++ fixedText 4 n
    | _ => T.jsonText src key v

/-! ## Detection -/

def isBrowserSideSource (baseSrc : String) : Bool :=
  ["main", "iframe", "worker", "sandbox"].contains baseSrc

def isConflictSource (baseSrc : String) : Bool :=
  isBrowserSideSource baseSrc || baseSrc = "gateway" || baseSrc = "cloudflare"

def isSoftIdentityKey (key : String) : Bool :=
  ["platform", "os_family", "hardware_concurrency", "timezone",
    "timezone_offset_min", "webdriver", "user_agent", "language", "vendor",
    "device_memory", "device_model", "screen_width", "screen_height",
    "max_touch_points", "webgl_max_texture", "webgl_max_viewport",
    "webgl_max_tex_units", "webgl_precision_high", "webgl_depth_bits"].contains key

def isHardEquiKey (key : String) : Bool :=
  ["webgl_unmasked_renderer", "webgl_unmasked_vendor", "form_class"].contains key

def isBlank (v : Json) : Bool :=
  v.isNull || v.asStr = some ""

def isComparedKey (key : String) : Bool :=
  ¬ isSurfaceLocalKey key && (isSoftIdentityKey key || isHardEquiKey key)

abbrev Grouped := SortedMap String (List (String × Json))

def addEntry (src : String) (groups : Grouped) (entry : String × Json) : Grouped :=
  if isComparedKey entry.1 && ¬ isBlank entry.2 then
    groups.insert entry.1 (((groups.get? entry.1).getD []) ++ [(src, entry.2)])
  else groups

def addSource (groups : Grouped) (source : String × Json) : Grouped :=
  if isConflictSource source.1 then
    match source.2.asObject with
    | some members => members.entries.foldl (addEntry source.1) groups
    | none => groups
  else groups

def keySources (fieldsBySource : Fields) : Grouped :=
  fieldsBySource.entries.foldl addSource SortedMap.empty

def coresRank (c : String) : Option ℕ :=
  ["c0", "c1_2", "c3_4", "c5_8", "c9_16", "c17p"].findIdx? (· = c)

def withinOneStep (classes : List String) : Bool :=
  let ranks := classes.filterMap coresRank
  2 ≤ ranks.length && ranks.all fun r => ranks.all fun r' => r ≤ r' + 1

def keyConflicts (T : TextOps) (key : String) (entries : List (String × Json)) : Bool :=
  if entries.length < 2 then false
  else if isHardEquiKey key then
    entries.any fun entry => some entry.2 ≠ (entries.head?).map Prod.snd
  else
    let classes :=
      (entries.map fun entry => softNormalizeForCompare T entry.1 key entry.2).filter (· ≠ "")
    if classes.length < 2 then false
    else if classes.all fun c => some c = classes.head? then false
    else if (key = "hardware_concurrency" || key = "device_memory") &&
        withinOneStep classes then false
    else true

def conflictPrefix : String := "source_conflict:"

def detectSourceConflicts (T : TextOps) (fieldsBySource : Fields) : List String :=
  ((keySources fieldsBySource).entries.filterMap fun group =>
    if keyConflicts T group.1 group.2 then some (conflictPrefix ++ group.1)
    else none).insertionSort (· ≤ ·)

end EvidenceMerge

end GrServer
