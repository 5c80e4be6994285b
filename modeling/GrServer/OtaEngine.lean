import GrServer.Disk
import GrServer.LexicalPath
import GrServer.ReleaseSignature

/-!
# The OTA engine

The engine loads release manifests, remembers the key that a verified release
binds (in memory and in a file), stages signed modules under the modules
directory, activates a staged version by a marker file, and checks the active
modules at boot.

Paths are texts joined as `Path::join` does; the disk knows them by the place
they name.  File operations that the code issues are carried out.  Downloads
and JSON decoding happen before: a manifest comes in as the result of reading
it.
-/

namespace GrServer

open Json Text LexicalPath

namespace ReleaseSignature

structure EngineEnv extends OtaEnv where
  /-- The working directory of the process. -/
  cwd : List Text
  hostArch : String
  /-- `semver::Version::parse`, down to major and minor. -/
  parseVersion : String → Except String (ℕ × ℕ)
  /-- The order of `prune_versions`: newest first. -/
  sortVersions : List String → List String
  /-- `serde_json::to_string_pretty` and `serde_json::from_str`. -/
  prettyJson : Json → String
  parseJson : String → Except String Json
  /-- The same for a module artifact. -/
  prettyArtifact : ModuleArtifact → String
  parseArtifact : String → Except String ModuleArtifact
  /-- `Debug` of a path. -/
  debugPath : Text → String

structure Engine where
  modulesDir : Text
  pubkeyBytes : Bytes
  releaseKey : Option Bytes
  disk : Disk Text

def pathJoin (root rel : Text) : Text := (LexicalPath.join root rel).text

def utf8? (bytes : Bytes) : Option String := String.fromUTF8? ⟨bytes.toArray⟩

def fileName (p : Text) : Option Text :=
  match ((components p).filter fun c => decide (c ≠ [] ∧ c ≠ ['.'])).getLast? with
  | some c => if c = ['.', '.'] then none else some c
  | none => none

def extension (name : Text) : Option Text :=
  if name = ['.', '.'] then none
  else
    match rsplitOnce '.' name with
    | some (before, after) => if before = [] then none else some after
    | none => none

structure BootVerdict where
  verified : List String
  legacyUnverifiable : List String
  releaseKeyBound : Bool
  deriving DecidableEq

def runtimeAbi : UInt32 := 1

def keepRollbackVersions : ℕ := 3

namespace Engine

def stagePath (e : Engine) (rel : String) : Text := pathJoin e.modulesDir rel.toList

def versionsDir (e : Engine) (name : String) : Text :=
  pathJoin (e.stagePath "versions") name.toList

def versionDir (e : Engine) (name version : String) : Text :=
  pathJoin (e.versionsDir name) version.toList

def activeLink (e : Engine) (name : String) : Text :=
  pathJoin (e.stagePath "active") name.toList

def bindingPath (e : Engine) : Text := e.stagePath "release_binding.json"

/-- `ota_engine` makes an engine without a release key. -/
def unbound (e : Engine) : Engine := { e with releaseKey := none }

section Source

variable (env : EngineEnv)

def readText (e : Engine) (p : Text) : Option String :=
  (e.disk.read (resolve env.cwd p)).bind utf8?

def writeText (e : Engine) (p : Text) (s : String) : Engine :=
  { e with disk := e.disk.write (resolve env.cwd p) (asBytes s) }

def createDirAll (e : Engine) (p : Text) : Engine :=
  { e with disk := e.disk.mkdirs (resolve env.cwd p) }

def isDir (e : Engine) (p : Text) : Bool := e.disk.isDir (resolve env.cwd p)

def releaseVk (e : Engine) : Except OtaError (Option Bytes) :=
  match e.releaseKey with
  | none => .ok none
  | some bytes =>
      if bytes.length ≠ 32 then .error (.key "release_key must be 32 bytes")
      else
        match env.keyFromBytes bytes with
        | .error t => .error (.key t)
        | .ok () => .ok (some bytes)

/-- An error leaves the engine as it is. -/
def loadReleaseBinding (e : Engine) : Except OtaError Engine :=
  match e.readText env e.bindingPath with
  | none => .ok e
  | some body =>
      match env.parseJson body with
      | .error t => .error (.json t)
      | .ok v =>
          match (v.get? "release_pubkey").bind asStr with
          | none => .ok e
          | some pk =>
              match env.hexDecode pk with
              | none => .error (.key "bound release_pubkey not hex")
              | some raw =>
                  if raw.length ≠ 32 then .error (.key "bound release_pubkey must be 32 bytes")
                  else .ok { e with releaseKey := some raw }

def bindingJson (buildId : Option String) (pk : String) (nowMs : ℤ) : Json :=
  ofFields (SortedMap.ofEntries [("build_id", .str (buildId.getD "")),
    ("release_pubkey", .str pk), ("verified_ms", ofInt nowMs)])

def writeReleaseBinding (e : Engine) (man : ReleaseManifest) (nowMs : ℤ) :
    Except OtaError Unit × Engine :=
  match nonEmpty man.releasePubkey with
  | none => (.ok (), e)
  | some pk =>
      let written := (e.createDirAll env e.modulesDir).writeText env e.bindingPath
        (env.prettyJson (bindingJson man.buildId pk nowMs))
      match written.loadReleaseBinding env with
      | .error err => (.error err, written)
      | .ok loaded => (.ok (), loaded)

def adoptManifest (e : Engine) (man : ReleaseManifest) :
    Except OtaError ReleaseManifest × Engine :=
  match verifyManifestChain env.toOtaEnv e.pubkeyBytes man with
  | .error err => (.error err, e)
  | .ok rel => (.ok man, { e with releaseKey := rel })

def loadManifestFile (e : Engine) (read : Except OtaError ReleaseManifest) :
    Except OtaError ReleaseManifest × Engine :=
  match read with
  | .error err => (.error err, e)
  | .ok man =>
      if e.pubkeyBytes ≠ [] ∧ (nonEmpty man.sig).isSome then e.adoptManifest env man
      else (.ok man, e)

def normalizeHostArch (arch : String) : String :=
  let arch := lowered (trimmed arch)
  if arch = "x86_64" ∨ arch = "amd64" ∨ arch = "x64" then "x86_64"
  else if arch = "aarch64" ∨ arch = "arm64" then "aarch64"
  else arch

/-- `requireSig` is the flag `REQUIRE_MANIFEST_SIG`; `source` names where the
manifest came from. -/
def fetchManifestBlocking (e : Engine) (requireSig : Bool) (source : String)
    (fetched : Except OtaError ReleaseManifest) : Except OtaError ReleaseManifest × Engine :=
  match fetched with
  | .error err => (.error err, e)
  | .ok man =>
      let host := normalizeHostArch env.hostArch
      match man.arch.filter fun declared => normalizeHostArch declared ≠ host with
      | some declared =>
          (.error (.incompatible ("manifest arch " ++ declared ++ " != host " ++ host ++
            " (source=" ++ source ++ ")")), e)
      | none =>
          if e.pubkeyBytes = [] then
            if requireSig then
              (.error (.key "GR_REQUIRE_MANIFEST_SIG=1 but OTA pubkey is empty"), e)
            else (.ok man, e)
          else if requireSig = true ∨ (nonEmpty man.sig).isSome then e.adoptManifest env man
          else (.ok man, e)

def checkCompat (art : ModuleArtifact) (runtimeVer : String) : Except OtaError Unit :=
  match env.parseVersion runtimeVer with
  | .error t => .error (.other t)
  | .ok (major, minor) =>
      if art.abi ≠ runtimeAbi then
        .error (.incompatible ("abi mismatch: runtime=" ++ runtimeAbi.toNat.repr ++
          " module=" ++ art.abi.toNat.repr))
      else if art.requiresMajor.toNat ≠ major then
        .error (.incompatible ("incompatible major: runtime=" ++ major.repr ++
          " module=" ++ art.requiresMajor.toNat.repr))
      else if minor < art.minRuntimeMinor.toNat then
        .error (.incompatible ("runtime minor " ++ minor.repr ++ " < module min " ++
          art.minRuntimeMinor.toNat.repr))
      else
        match art.maxRuntimeMinor.filter fun max => max.toNat < minor with
        | some max =>
            .error (.incompatible ("runtime minor " ++ minor.repr ++ " > module max " ++
              max.toNat.repr))
        | none => .ok ()

def verifyFileSha256 (path : Text) (data : Option Bytes) (expectHex : String) :
    Except OtaError Bytes :=
  match data with
  | none => .error (.io "No such file or directory (os error 2)")
  | some bytes =>
      let got := env.sha256Hex bytes
      if got ≠ lowered expectHex ∧ got ≠ expectHex then
        .error (.badHash (String.ofList path))
      else .ok bytes

/-- Everything `stage_local_file` asks for, on an engine with its binding
loaded. -/
def stageChecks (e : Engine) (art : ModuleArtifact) (src : Text) (data : Option Bytes)
    (runtimeVer : String) : Except OtaError Bytes := do
  checkCompat env art runtimeVer
  let release ← e.releaseVk env
  verifyArtifactSigChain env.toOtaEnv e.pubkeyBytes release art
  verifyFileSha256 env src data art.sha256

def tmpName (art : ModuleArtifact) (nanos : ℕ) : String :=
  "." ++ art.asset ++ ".tmp." ++ nanos.repr

/-- Copy beside the destination, rename, and write the sidecar. -/
def placeModule (e : Engine) (art : ModuleArtifact) (bytes : Bytes) (nanos : ℕ) : Engine :=
  let dir := e.versionDir art.name art.version
  let tmp := resolve env.cwd (pathJoin dir (tmpName art nanos).toList)
  let dest := resolve env.cwd (pathJoin dir art.asset.toList)
  let made := e.createDirAll env dir
  let copied := { made with disk := (made.disk.write tmp bytes).rename tmp dest }
  copied.writeText env (pathJoin dir "meta.json".toList) (env.prettyArtifact art)

def stageLocalFile (e : Engine) (art : ModuleArtifact) (src : Text) (data : Option Bytes)
    (runtimeVer : String) (nanos : ℕ) : Except OtaError Text × Engine :=
  match e.loadReleaseBinding env with
  | .error err => (.error err, e)
  | .ok loaded =>
      match loaded.stageChecks env art src data runtimeVer with
      | .error err => (.error err, loaded)
      | .ok bytes =>
          (.ok (pathJoin (loaded.versionDir art.name art.version) art.asset.toList),
            loaded.placeModule env art bytes nanos)

def activeVersion (e : Engine) (name : String) : String :=
  String.ofList (((e.readText env (e.activeLink name)).bind fun s =>
    fileName (trim s.toList)).getD [])

/-- The versions to delete: all but the active one and the newest `keepOld`
others. -/
def prunable (e : Engine) (name : String) (keepOld : ℕ) : List String :=
  let versions := (e.disk.subdirs (resolve env.cwd (e.versionsDir name))).map String.ofList
  ((env.sortVersions versions).filter fun v => v ≠ e.activeVersion env name).drop keepOld

/-- A version to delete is an entry of the directory of its module. -/
def pruneVersions (e : Engine) (name : String) (keepOld : ℕ) : ℕ × Engine :=
  if e.isDir env (e.versionsDir name) then
    let dir := resolve env.cwd (e.versionsDir name)
    let doomed := e.prunable env name keepOld
    (doomed.length,
      { e with disk := doomed.foldl (fun disk v => disk.removeTree (v.toList :: dir)) e.disk })
  else (0, e)

def activate (e : Engine) (name version : String) : Except OtaError Text × Engine :=
  let verDir := e.versionDir name version
  if e.isDir env verDir then
    let made := e.createDirAll env (e.stagePath "active")
    let marked := made.writeText env (e.activeLink name) (String.ofList (verDir ++ ['\n']))
    (.ok verDir, (marked.pruneVersions env name keepRollbackVersions).2)
  else (.error (.other ("version not staged: " ++ name ++ "@" ++ version)), e)

def loadedArtifact (e : Engine) (verDir : Text) : Option ModuleArtifact :=
  (e.readText env (pathJoin verDir "meta.json".toList)).bind fun s => (env.parseArtifact s).toOption

/-- One marker of `verify_active_modules`: a verified module on the left, a
legacy one on the right. -/
def verifyActive (e : Engine) (released : Option Bytes) (name : Text) :
    Except OtaError (String ⊕ String) :=
  match e.readText env (pathJoin (e.stagePath "active") name) with
  | none => .error (.io "stream did not contain valid UTF-8")
  | some marker =>
      let verDir := trim marker.toList
      if e.isDir env verDir = false then
        .error (.other ("active marker " ++ String.ofList name ++ " → missing " ++
          env.debugPath verDir))
      else
        match e.loadedArtifact env verDir with
        | none => .ok (.inr (String.ofList name ++ " (staged pre-P1-5, no meta.json)"))
        | some art => do
            verifyArtifactSigChain env.toOtaEnv e.pubkeyBytes released art
            let path := pathJoin verDir art.asset.toList
            let _ ← verifyFileSha256 env path (e.disk.read (resolve env.cwd path)) art.sha256
            return .inl (art.name ++ "@" ++ art.version)

def verifyMarkers (e : Engine) (released : Option Bytes) :
    Except OtaError (List (String ⊕ String)) :=
  let activeDir := e.stagePath "active"
  if e.isDir env activeDir then
    (e.disk.filesIn (resolve env.cwd activeDir)).mapM (e.verifyActive env released)
  else .ok []

def verifyActiveModules (e : Engine) : Except OtaError BootVerdict := do
  let released ← e.releaseVk env
  let listed ← e.verifyMarkers env released
  return ⟨listed.filterMap Sum.getLeft?, listed.filterMap Sum.getRight?, released.isSome⟩

/-- `ota_verify_active_modules`: the boot makes an engine of its own. -/
def otaVerifyActiveModules (e : Engine) : Except OtaError BootVerdict := do
  let loaded ← e.unbound.loadReleaseBinding env
  loaded.verifyActiveModules env

/-- `find_so_in_version_dir`, among the files.  The source takes the entries, files
and directories, in the order that `read_dir` lists them. -/
def findSoInVersionDir (e : Engine) (verDir : Text) : Option Text :=
  (e.disk.filesIn (resolve env.cwd verDir)).find? fun file =>
    decide (extension file = some "so".toList)

end Source

end Engine

end ReleaseSignature

end GrServer
