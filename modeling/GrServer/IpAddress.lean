import GrServer.Text

/-!
# IP addresses and networks

The address parser of Rust's standard library and prefix matching on the
numeric value of an address.  A reader takes what it recognises from the front
of the text and returns the rest.
-/

namespace GrServer

open Text

inductive IpAddr where
  | v4 (value : BitVec 32)
  | v6 (value : BitVec 128)
  deriving DecidableEq

namespace IpAddr

/-! ## Reading -/

def digitOf (radix : ℕ) (c : Char) : Option ℕ :=
  let d :=
    if '0' ≤ c ∧ c ≤ '9' then c.toNat - '0'.toNat
    else if 'a' ≤ c ∧ c ≤ 'z' then c.toNat - 'a'.toNat + 10
    else if 'A' ≤ c ∧ c ≤ 'Z' then c.toNat - 'A'.toNat + 10
    else radix
  if d < radix then some d else none

def readDigits (radix : ℕ) : Text → List ℕ × Text
  | [] => ([], [])
  | c :: cs =>
      match digitOf radix c with
      | none => ([], c :: cs)
      | some d =>
          let (ds, rest) := readDigits radix cs
          (d :: ds, rest)

def readNumber (radix maxDigits bound : ℕ) (zeroPrefix : Bool) (s : Text) :
    Option (ℕ × Text) :=
  let (ds, rest) := readDigits radix s
  let value := ds.foldl (fun n d => n * radix + d) 0
  if ds = [] ∨ maxDigits < ds.length then none
  else if ¬ zeroPrefix ∧ ds.head? = some 0 ∧ 1 < ds.length then none
  else if value < bound then some (value, rest)
  else none

def readChar (c : Char) : Text → Option Text
  | [] => none
  | d :: ds => if d = c then some ds else none

def readSeparator (c : Char) (index : ℕ) (s : Text) : Option Text :=
  if index = 0 then some s else readChar c s

def readOctets : ℕ → ℕ → Text → Option (List ℕ × Text)
  | 0, _, s => some ([], s)
  | count + 1, index, s => do
      let s ← readSeparator '.' index s
      let (octet, s) ← readNumber 10 3 256 false s
      let (octets, s) ← readOctets count (index + 1) s
      return (octet :: octets, s)

def readIpv4 (s : Text) : Option (List ℕ × Text) :=
  readOctets 4 0 s

/-- Up to `limit` groups of an IPv6 address, and whether a dotted IPv4 tail
was read. -/
def readGroups : ℕ → ℕ → Text → List ℕ × Bool × Text
  | 0, _, s => ([], false, s)
  | limit + 1, index, s =>
      let embedded :=
        if 0 < limit then (readSeparator ':' index s).bind readIpv4 else none
      match embedded with
      | some ([a, b, c, d], rest) => ([a * 256 + b, c * 256 + d], true, rest)
      | _ =>
          match (readSeparator ':' index s).bind (readNumber 16 4 65536 true) with
          | none => ([], false, s)
          | some (group, rest) =>
              let (groups, tail, rest) := readGroups limit (index + 1) rest
              (group :: groups, tail, rest)

def readIpv6 (s : Text) : Option (List ℕ × Text) := do
  let (head, headIpv4, s) := readGroups 8 0 s
  if head.length = 8 then return (head, s)
  if headIpv4 then none
  let s ← readChar ':' s
  let s ← readChar ':' s
  let (tail, _, s) := readGroups (8 - (head.length + 1)) 0 s
  return (head ++ List.replicate (8 - head.length - tail.length) 0 ++ tail, s)

def ofGroups (width : ℕ) (groups : List ℕ) : ℕ :=
  groups.foldl (fun n g => n * 2 ^ width + g) 0

/-- `str::parse::<IpAddr>`: nothing may be left over. -/
def parse (s : Text) : Option IpAddr :=
  let (addr, rest) :=
    match readIpv4 s with
    | some (octets, rest) => (some (v4 (BitVec.ofNat 32 (ofGroups 8 octets))), rest)
    | none =>
        match readIpv6 s with
        | some (groups, rest) =>
            (some (v6 (BitVec.ofNat 128 (ofGroups 16 groups))), rest)
        | none => (none, s)
  if rest = [] then addr else none

def parseU8 (s : Text) : Option ℕ :=
  let (ds, rest) := readDigits 10 ((readChar '+' s).getD s)
  let value := ds.foldl (fun n d => n * 10 + d) 0
  if ds ≠ [] ∧ rest = [] ∧ value < 256 then some value else none

def low64 : IpAddr → ℕ
  | v4 value => value.toNat
  | v6 value => value.toNat % 2 ^ 64

end IpAddr

structure IpNet where
  base : IpAddr
  prefixBits : ℕ
  deriving DecidableEq

def prefixMask (w bits : ℕ) : BitVec w :=
  if bits = 0 then 0 else BitVec.allOnes w <<< (w - bits)

def IpNet.contains (n : IpNet) (ip : IpAddr) : Bool :=
  match ip, n.base with
  | .v4 a, .v4 b =>
      (a &&& prefixMask 32 n.prefixBits) == (b &&& prefixMask 32 n.prefixBits)
  | .v6 a, .v6 b =>
      (a &&& prefixMask 128 n.prefixBits) == (b &&& prefixMask 128 n.prefixBits)
  | _, _ => false

/-- `address/bits`, each part trimmed. -/
def parseCidr (s : String) : Option IpNet := do
  let (net, bits) ← splitOnce '/' (trim s.toList)
  let base ← IpAddr.parse (trim net)
  let bits ← IpAddr.parseU8 (trim bits)
  let max := match base with
    | .v4 _ => 32
    | .v6 _ => 128
  if max < bits then none else return ⟨base, bits⟩

end GrServer
