import GrServer.DigestParts
import GrServer.Json

/-!
# Signed releases

A release manifest and its module artifacts carry Ed25519 signatures of the
root key; newer releases bind a key of their own by a certificate and sign the
modules with it a second time.  Artifacts and certificates are signed as lines
of fields joined by bars, manifests as JSON.

The Ed25519, base64, hexadecimal and JSON library functions enter as `OtaEnv`.
-/

namespace GrServer

open Json Text

namespace ReleaseSignature

abbrev Bytes := List UInt8

inductive OtaError where
  | io (text : String)
  | http (text : String)
  | json (text : String)
  | badSignature
  | badHash (path : String)
  | incompatible (text : String)
  | key (text : String)
  | other (text : String)
  deriving DecidableEq

def OtaError.message : OtaError → String
  | .io text => "io: " ++ text
  | .http text => "http: " ++ text
  | .json text => "json: " ++ text
  | .badSignature => "signature invalid"
  | .badHash path => "sha256 mismatch for " ++ path
  | .incompatible text => "incompatible: " ++ text
  | .key text => "key: " ++ text
  | .other text => text

structure OtaEnv where
  b64Decode : String → Option Bytes
  hexDecode : String → Option Bytes
  /-- `VerifyingKey::from_bytes`; a key is kept as its bytes. -/
  keyFromBytes : Bytes → Except String Unit
  /-- `VerifyingKey::verify` of a message and a signature of 64 bytes. -/
  ed25519Verify : Bytes → Bytes → Bytes → Bool
  /-- `serde_json::to_vec`. -/
  toVec : Json → Bytes
  sha256Hex : Bytes → String

structure ModuleArtifact where
  name : String
  version : String
  abi : UInt32
  requiresMajor : UInt64
  minRuntimeMinor : UInt64
  maxRuntimeMinor : Option UInt64
  asset : String
  sha256 : String
  sig : String
  sig2 : Option String
  domain : String
  deriving DecidableEq

structure RuntimeManifest where
  version : String
  abi : UInt32
  asset : Option String
  sha256 : Option String
  deriving DecidableEq

structure FeManifest where
  asset : String
  sha256 : String
  sig : Option String
  deriving DecidableEq

structure TreeManifest where
  epoch : Option String
  files : SortedMap String String

structure ReleaseManifest where
  product : String
  channel : String
  arch : Option String
  triple : Option String
  runtime : RuntimeManifest
  modules : List ModuleArtifact
  fe : Option FeManifest
  feTree : Option TreeManifest
  adminTree : Option TreeManifest
  specTree : Option TreeManifest
  dataTree : Option TreeManifest
  cli : Option RuntimeManifest
  sig : Option String
  sigData : Option String
  buildId : Option String
  releasePubkey : Option String
  releaseCert : Option String

def nonEmpty (s : Option String) : Option String := s.filter (· ≠ "")

def barLine (parts : List String) : Bytes := asBytes ("|".intercalate parts)

def legacyParts (art : ModuleArtifact) : List String := [art.name, art.version, art.sha256]

def maxMinorText (max : Option UInt64) : String :=
  (max.map fun v => v.toNat.repr).getD "none"

def artifactParts (art : ModuleArtifact) : List String :=
  ["v2", art.name, art.version, art.sha256, art.asset, art.abi.toNat.repr,
    art.requiresMajor.toNat.repr, art.minRuntimeMinor.toNat.repr,
    maxMinorText art.maxRuntimeMinor, art.domain]

def certParts (version buildId pubkeyHex : String) : List String :=
  ["gr-release-cert-v1", version, buildId, pubkeyHex]

def artifactSignMessageV1 (art : ModuleArtifact) : Bytes := barLine (legacyParts art)

def artifactSignMessage (art : ModuleArtifact) : Bytes := barLine (artifactParts art)

def releaseCertMessage (version buildId pubkeyHex : String) : Bytes :=
  barLine (certParts version buildId pubkeyHex)

/-! ## Manifest bodies -/

def jsonStr? : Option String → Json
  | none => .null
  | some s => .str s

def jsonNat (n : ℕ) : Json := ofInt n

def runtimeJson (r : RuntimeManifest) : Json :=
  ofFields (SortedMap.ofEntries [("version", .str r.version), ("abi", jsonNat r.abi.toNat),
    ("asset", jsonStr? r.asset), ("sha256", jsonStr? r.sha256)])

def feJson : Option FeManifest → Json
  | none => .null
  | some f => ofFields (SortedMap.ofEntries [("asset", .str f.asset), ("sha256", .str f.sha256)])

def treeJson (t : TreeManifest) : Json :=
  let files : Json := .obj (t.files.entries.map fun file => (file.1, .str file.2))
  match t.epoch with
  | some epoch => ofFields (SortedMap.ofEntries [("epoch", .str epoch), ("files", files)])
  | none => ofFields (SortedMap.ofEntries [("files", files)])

def maxMinorJson : Option UInt64 → Json
  | none => .null
  | some v => jsonNat v.toNat

def moduleJson (a : ModuleArtifact) : Json :=
  ofFields (SortedMap.ofEntries [("name", .str a.name), ("version", .str a.version),
    ("abi", jsonNat a.abi.toNat), ("requires_major", jsonNat a.requiresMajor.toNat),
    ("min_runtime_minor", jsonNat a.minRuntimeMinor.toNat),
    ("max_runtime_minor", maxMinorJson a.maxRuntimeMinor), ("asset", .str a.asset),
    ("sha256", .str a.sha256), ("domain", .str a.domain)])

def insertSome (map : Fields) (k : String) : Option Json → Fields
  | none => map
  | some v => map.insert k v

def manifestSignMap (m : ReleaseManifest) : Fields :=
  let map := ((((((SortedMap.empty.insert "product" (.str m.product)).insert
    "channel" (.str m.channel)).insert
    "build_id" (.str (m.buildId.getD ""))).insert
    "release_pubkey" (.str (m.releasePubkey.getD ""))).insert
    "runtime" (runtimeJson m.runtime)).insert
    "fe" (feJson m.fe))
  let map := insertSome map "fe_tree" (m.feTree.map treeJson)
  let map := insertSome map "admin_tree" (m.adminTree.map treeJson)
  let map := insertSome map "spec_tree" (m.specTree.map treeJson)
  let map := insertSome map "cli" (m.cli.map runtimeJson)
  map.insert "modules" (.arr (m.modules.map moduleJson))

def manifestBody (m : ReleaseManifest) : Json := ofFields (manifestSignMap m)

/-- The extended body; without a data tree there is no member for it. -/
def manifestBodyData (m : ReleaseManifest) : Json :=
  ofFields (match m.dataTree with
    | some t => (manifestSignMap m).insert "data_tree" (treeJson t)
    | none => (manifestSignMap m).erase "data_tree")

/-! ## Verification -/

section Verify

variable (env : OtaEnv)

def manifestSignMessage (m : ReleaseManifest) : Bytes := env.toVec (manifestBody m)

def manifestSignMessageData (m : ReleaseManifest) : Bytes := env.toVec (manifestBodyData m)

def verifyBytes (pubkey msg : Bytes) (sigB64 : String) : Except OtaError Unit :=
  if pubkey.length ≠ 32 then .error (.key "ed25519 pubkey must be 32 bytes")
  else
    match env.keyFromBytes pubkey with
    | .error e => .error (.key e)
    | .ok () =>
        match env.b64Decode sigB64 with
        | none => .error .badSignature
        | some raw =>
            if raw.length ≠ 64 then .error .badSignature
            else if env.ed25519Verify pubkey msg raw then .ok () else .error .badSignature

def verifyArtifactSig (pubkey : Bytes) (art : ModuleArtifact) : Except OtaError Unit :=
  match verifyBytes env pubkey (artifactSignMessage art) art.sig with
  | .ok () => .ok ()
  | .error _ => verifyBytes env pubkey (artifactSignMessageV1 art) art.sig

def verifyReleaseCert (rootPubkey : Bytes) (man : ReleaseManifest) : Except OtaError Bytes :=
  match nonEmpty man.releasePubkey with
  | none => .error (.other "manifest release_pubkey missing")
  | some pkHex =>
      match nonEmpty man.releaseCert with
      | none => .error (.other "manifest release_cert missing")
      | some cert =>
          match nonEmpty man.buildId with
          | none => .error (.other "manifest build_id missing")
          | some bid => do
              verifyBytes env rootPubkey (releaseCertMessage man.runtime.version bid pkHex) cert
              match env.hexDecode pkHex with
              | none => .error (.key "release_pubkey not hex")
              | some raw =>
                  if raw.length ≠ 32 then .error (.key "release_pubkey must be 32 bytes")
                  else
                    match env.keyFromBytes raw with
                    | .error e => .error (.key e)
                    | .ok () => .ok raw

def verifyManifestSig (pubkey : Bytes) (m : ReleaseManifest) : Except OtaError Unit :=
  match nonEmpty m.sig with
  | none => .error (.other "manifest sig missing")
  | some sig => verifyBytes env pubkey (manifestSignMessage env m) sig

def verifyManifestSigData (pubkey : Bytes) (m : ReleaseManifest) : Except OtaError Unit :=
  match m.dataTree with
  | none => .ok ()
  | some _ =>
      match nonEmpty m.sigData with
      | none => .error (.other ("manifest data_tree present but sig_data missing " ++
          "(1.0.8+ releases must double-sign)"))
      | some sig => verifyBytes env pubkey (manifestSignMessageData env m) sig

def verifyManifestChain (rootPubkey : Bytes) (man : ReleaseManifest) :
    Except OtaError (Option Bytes) := do
  verifyManifestSig env rootPubkey man
  verifyManifestSigData env rootPubkey man
  if (nonEmpty man.releasePubkey).isSome then
    let rk ← verifyReleaseCert env rootPubkey man
    return some rk
  else return none

def verifyArtifactSigChain (rootPubkey : Bytes) (release : Option Bytes) (art : ModuleArtifact) :
    Except OtaError Unit := do
  verifyArtifactSig env rootPubkey art
  match release with
  | none => .ok ()
  | some rk =>
      match nonEmpty art.sig2 with
      | none => .error .badSignature
      | some sig2 => verifyBytes env rk (artifactSignMessage art) sig2

end Verify

end ReleaseSignature

end GrServer
