import GrServer.OtaSafety

/-!
# The boot self-check over OTA histories

Runs of releases, staged modules and activations, and what the self-check of
the active modules says in every state they reach.  Modules that were staged
under the release that is bound now are all verified; and a change of their
files is noticed while every marker still names its version and every sidecar
still describes that version.
-/

namespace GrServer

open Json Text LexicalPath DigestParts

namespace ReleaseSignature

section Collect

variable {α β ε : Type} {f : α → Except ε β}

theorem mapM_ok {g : α → β} {l : List α} (h : ∀ x ∈ l, f x = .ok (g x)) :
    l.mapM f = .ok (l.map g) := by
  induction l with
  | nil => rfl
  | cons x rest ih =>
      rw [List.mapM_cons, h x List.mem_cons_self, ih fun y hy => h y (List.mem_cons_of_mem x hy)]
      rfl

theorem ok_of_mapM_ok {l : List α} {out : List β} (h : l.mapM f = .ok out) {x : α} (hx : x ∈ l) :
    ∃ y, f x = .ok y := by
  induction l generalizing out with
  | nil => cases hx
  | cons first rest ih =>
      rw [List.mapM_cons] at h
      cases hfirst : f first with
      | error err => simp [hfirst, bind, Except.bind] at h
      | ok y =>
          cases hrest : rest.mapM f with
          | error err => simp [hfirst, hrest, bind, Except.bind] at h
          | ok ys =>
              rcases List.mem_cons.mp hx with rfl | hx
              · exact ⟨y, hfirst⟩
              · exact ih hrest hx

end Collect

/-! ## Markers -/

section Markers

variable {cwd : List Text} {root : Text}

theorem components_pathJoin {name : Text} (h : Plain name) :
    ∃ front, components (pathJoin root name) = front ++ [name] := by
  have hname := components_of_noSlash h.noSlash
  have hjoin : ∀ init : Text, components (init ++ '/' :: name) = components init ++ [name] := by
    intro init
    unfold components at hname ⊢
    rw [List.splitOn_append_cons_self, hname]
  unfold pathJoin LexicalPath.join
  rw [if_neg (by simp [isAbsolute_of_noSlash h.noSlash])]
  unfold Joined.text
  by_cases hroot : root = [] ∨ root.getLast? = some '/'
  · simp only [if_pos hroot]
    rcases hroot with rfl | hlast
    · exact ⟨[], hname⟩
    · obtain ⟨init, rfl⟩ := List.getLast?_eq_some_iff.mp hlast
      rw [List.append_assoc, List.singleton_append]
      exact ⟨_, hjoin init⟩
  · simp only [if_neg hroot]
    exact ⟨_, hjoin root⟩

theorem fileName_pathJoin {name : Text} (h : Plain name) :
    fileName (pathJoin root name) = some name := by
  have hjoin : ∃ front, components (pathJoin root name) = front ++ [name] :=
    components_pathJoin h
  obtain ⟨front, hfront⟩ := hjoin
  have hkeep : [name].filter (fun c => decide (c ≠ [] ∧ c ≠ ['.'])) = [name] := by
    simp [h.nonempty, h.notDot]
  unfold fileName
  rw [hfront, List.filter_append, hkeep]
  simp [h.notParent]

theorem trim_newline {p : Text} (h : trim p = p) : trim (p ++ ['\n']) = p :=
  (trim_concat_newline p).trans h

end Markers

namespace Engine

section Places

variable {env : EngineEnv} {e : Engine} {n v : String} {art : ModuleArtifact}

def withDisk (e : Engine) (disk : Disk Text) : Engine := { e with disk := disk }

def versionAt (env : EngineEnv) (e : Engine) (n v : String) : List Text :=
  v.toList :: n.toList :: "versions".toList :: e.modules env

def markerAt (env : EngineEnv) (e : Engine) (name : Text) : List Text :=
  name :: "active".toList :: e.modules env

def markers (env : EngineEnv) (e : Engine) : List Text :=
  e.disk.filesIn (resolve env.cwd (e.stagePath "active"))

structure Named (e : Engine) (n v : String) : Prop where
  name : Plain n.toList
  version : Plain v.toList
  marker : trim (e.versionDir n v) = e.versionDir n v

theorem Named.withDisk (h : Named e n v) (disk : Disk Text) : Named (e.withDisk disk) n v :=
  ⟨h.name, h.version, h.marker⟩

theorem resolve_versionDir (h : Named e n v) :
    resolve env.cwd (e.versionDir n v) = e.versionAt env n v := by
  have hversions : resolve env.cwd (e.versionsDir n) =
      n.toList :: "versions".toList :: e.modules env := by
    rw [← resolve_stagePath plain_versions]
    exact h.name.resolve
  show resolve env.cwd (pathJoin (e.versionsDir n) v.toList) = _
  rw [h.version.resolve, hversions]
  rfl

theorem resolve_inVersion (h : Named e n v) {file : Text} (hfile : Plain file) :
    resolve env.cwd (pathJoin (e.versionDir n v) file) = file :: e.versionAt env n v := by
  rw [hfile.resolve, resolve_versionDir h]

theorem resolve_marker {name : Text} (h : Plain name) :
    resolve env.cwd (pathJoin (e.stagePath "active") name) = e.markerAt env name := by
  rw [h.resolve, resolve_stagePath plain_active]
  rfl

theorem mem_markers {name : Text} :
    name ∈ e.markers env ↔ (e.disk.read (e.markerAt env name)).isSome = true := by
  unfold markers
  rw [resolve_stagePath plain_active, Disk.mem_filesIn]
  rfl

/-- An artifact that is staged as a module of its name and version. -/
structure WellNamed (e : Engine) (art : ModuleArtifact) : Prop extends
    Named e art.name art.version where
  asset : Plain art.asset.toList
  so : extension art.asset.toList = some "so".toList

theorem WellNamed.pathsBelow (h : WellNamed e art) : PathsBelow art where
  name := Below.of_noSlash h.name.noSlash h.name.notParent
  version := Below.of_noSlash h.version.noSlash h.version.notParent
  assetNoSlash := h.asset.noSlash
  assetNotParent := fun hparent => h.asset.notParent (congrArg String.toList hparent)

theorem WellNamed.asset_ne_meta (h : WellNamed e art) : art.asset.toList ≠ "meta.json".toList := by
  intro hmeta
  have hso := h.so
  rw [hmeta] at hso
  exact absurd hso (by decide)

theorem versionPlace_eq (h : WellNamed e art) :
    e.versionPlace env art = e.versionAt env art.name art.version :=
  resolve_versionDir h.toNamed

theorem metaPlace_eq (h : WellNamed e art) :
    e.metaPlace env art = "meta.json".toList :: e.versionAt env art.name art.version :=
  resolve_inVersion h.toNamed plain_meta

theorem destPlace_eq (h : WellNamed e art) :
    e.destPlace env art = art.asset.toList :: e.versionAt env art.name art.version :=
  resolve_inVersion h.toNamed h.asset

theorem versionAt_inj {n' v' : String} {p : List Text} (h : e.versionAt env n v <:+ p)
    (h' : e.versionAt env n' v' <:+ p) : n = n' ∧ v = v' := by
  have hsame : e.versionAt env n v = e.versionAt env n' v' := by
    have hlen : (e.versionAt env n v).length = (e.versionAt env n' v').length := by
      simp [versionAt]
    exact (List.suffix_of_suffix_length_le h h' hlen.le).eq_of_length hlen
  simp only [versionAt, List.cons.injEq, and_true] at hsame
  exact ⟨String.toList_injective hsame.2, String.toList_injective hsame.1⟩

theorem not_suffix_markerAt {name : Text} : ¬ e.versionAt env n v <:+ e.markerAt env name := by
  intro h
  have hlen := h.length_le
  simp [versionAt, markerAt] at hlen

theorem not_suffix_bindingPlace : ¬ e.versionAt env n v <:+ e.bindingPlace env := by
  intro h
  have hlen := h.length_le
  simp [versionAt, bindingPlace] at hlen

theorem not_suffix_active : ¬ e.versionAt env n v <:+ "active".toList :: e.modules env := by
  intro h
  have hlen := h.length_le
  simp [versionAt] at hlen

theorem markerAt_ne_bindingPlace {name : Text} : e.markerAt env name ≠ e.bindingPlace env := by
  intro h
  have hlen := congrArg List.length h
  simp [markerAt, bindingPlace] at hlen

end Places

end Engine

/-! ## Histories -/

inductive HistoryStep where
  | release (man : ReleaseManifest) (nowMs : ℤ)
  | stage (art : ModuleArtifact) (src : Text) (data : Option Bytes) (runtimeVer : String)
      (nanos : ℕ)
  | activate (name version : String)

/-- An engine, and the versions that were staged under the release key it is
bound to. -/
structure OtaHistory where
  engine : Engine
  current : List (String × String)

section Histories

variable (env : EngineEnv)

def OtaHistory.step (s : OtaHistory) : HistoryStep → OtaHistory
  | .release man nowMs =>
      match s.engine.loadManifestFile env (.ok man) with
      | (.error _, e) => { s with engine := e }
      | (.ok verified, e) =>
          let bound := (e.writeReleaseBinding env verified nowMs).2
          ⟨bound, if bound.releaseKey = s.engine.releaseKey then s.current else []⟩
  | .stage art src data runtimeVer nanos =>
      let staged := s.engine.stageLocalFile env art src data runtimeVer nanos
      ⟨staged.2,
        match staged.1 with
        | .ok _ => (art.name, art.version) :: s.current
        | .error _ => s.current⟩
  | .activate name version => { s with engine := (s.engine.activate env name version).2 }

def loadedModule (e : Engine) (name : Text) : Option (List Text × Bytes) :=
  (e.readText env (pathJoin (e.stagePath "active") name)).bind fun marker =>
    let verDir := trim marker.toList
    (e.findSoInVersionDir env verDir).bind fun file =>
      let place := file :: resolve env.cwd verDir
      (e.disk.read place).map fun bytes => (place, bytes)

/-- The boot check verifies every active module at the version its marker
names. -/
def AllVerified (e : Engine) : Prop :=
  ∃ verdict, e.otaVerifyActiveModules env = .ok verdict ∧ verdict.legacyUnverifiable = [] ∧
    ∀ name ∈ e.markers env,
      String.ofList name ++ "@" ++ e.activeVersion env (String.ofList name) ∈ verdict.verified

/-- What is done to the files of active modules: their markers and what lies in
their version directories may change or vanish. -/
structure Tampered (e : Engine) (disk : Disk Text) : Prop where
  dirs : disk.dirs = e.disk.dirs
  within : ∀ p, disk.read p ≠ e.disk.read p → (e.disk.read p).isSome = true ∧
    ∃ name ∈ e.markers env, p = e.markerAt env name ∨
      e.versionAt env (String.ofList name) (e.activeVersion env (String.ofList name)) <:+ p
  /-- No two of these files have the same digest. -/
  apart : ∀ p bytes bytes', e.disk.read p = some bytes → disk.read p = some bytes' →
    (env.sha256Hex bytes = env.sha256Hex bytes' → bytes = bytes')

def DescribesVersion (e : Engine) (verDir : Text) (n v : String) : Prop :=
  ∃ art, e.loadedArtifact env verDir = some art ∧ art.name = n ∧ art.version = v ∧
    ¬ Signed env.toOtaEnv e.pubkeyBytes (artifactSignMessageV1 art) art.sig

def MarkerKept (e : Engine) (disk : Disk Text) (name : Text) : Prop :=
  (disk.read (e.markerAt env name)).isSome = true ∧
    ∀ marker, (e.withDisk disk).readText env (pathJoin (e.stagePath "active") name) =
        some marker →
      (e.withDisk disk).isDir env (trim marker.toList) = true →
        trim marker.toList =
            e.versionDir (String.ofList name) (e.activeVersion env (String.ofList name)) ∧
          DescribesVersion env (e.withDisk disk) (trim marker.toList) (String.ofList name)
            (e.activeVersion env (String.ofList name))

/-- A change after which another file would be loaded is reported as an error,
if the markers are kept. -/
def TamperNoticed (e : Engine) : Prop :=
  ∀ disk, Tampered env e disk → (∀ name ∈ e.markers env, MarkerKept env e disk name) →
    (∃ name ∈ e.markers env,
      loadedModule env (e.withDisk disk) name ≠ loadedModule env e name) →
    ∃ err, (e.withDisk disk).otaVerifyActiveModules env = .error err

/-- What a release or a staged module is, and when a step keeps the active
modules under one release key. -/
def HistoryGuarded (s : OtaHistory) : HistoryStep → Prop
  | .release man nowMs =>
      (∃ key, verifyManifestChain env.toOtaEnv s.engine.pubkeyBytes man = .ok (some key) ∧
        (s.engine.markers env = [] ∨ s.engine.releaseKey = some key)) ∧
        ∀ pk, nonEmpty man.releasePubkey = some pk →
          env.parseJson (env.prettyJson (Engine.bindingJson man.buildId pk nowMs)) =
            .ok (Engine.bindingJson man.buildId pk nowMs)
  | .stage art _ _ _ _ =>
      Engine.WellNamed s.engine art ∧
        ¬ Signed env.toOtaEnv s.engine.pubkeyBytes (artifactSignMessageV1 art) art.sig ∧
        env.parseArtifact (env.prettyArtifact art) = .ok art ∧
        ∀ file, (s.engine.disk.read
            (file :: s.engine.versionAt env art.name art.version)).isSome = true →
          extension file = some "so".toList → file = art.asset.toList
  | .activate name version =>
      s.engine.isDir env (s.engine.versionDir name version) = true →
        (name, version) ∈ s.current

end Histories

/-- The root key signed one artifact for each name and version. -/
def OnePerVersion (log : List Statement) : Prop :=
  ∀ x ∈ log, ∀ y ∈ log, ∀ a b, x.artifact? = some a → y.artifact? = some b →
    a.name = b.name → a.version = b.version → a.asset = b.asset ∧ a.sha256 = b.sha256

structure StagedModule (env : EngineEnv) (log : List Statement) (e : Engine) (n v : String)
    (art : ModuleArtifact) (bytes : Bytes) : Prop where
  name : art.name = n
  version : art.version = v
  named : Engine.WellNamed e art
  sidecar : e.disk.read ("meta.json".toList :: e.versionAt env n v) =
    some (asBytes (env.prettyArtifact art))
  parses : env.parseArtifact (env.prettyArtifact art) = .ok art
  chain : verifyArtifactSigChain env.toOtaEnv e.pubkeyBytes e.releaseKey art = .ok ()
  file : e.disk.read (art.asset.toList :: e.versionAt env n v) = some bytes
  hash : env.sha256Hex bytes = lowered art.sha256 ∨ env.sha256Hex bytes = art.sha256
  signed : RootSigned log art
  only : ∀ file, (e.disk.read (file :: e.versionAt env n v)).isSome = true →
    extension file = some "so".toList → file = art.asset.toList

structure ActiveModule (env : EngineEnv) (s : OtaHistory) (name : Text) (v : String) : Prop where
  current : (String.ofList name, v) ∈ s.current
  dir : s.engine.disk.isDir (s.engine.versionAt env (String.ofList name) v) = true
  marker : s.engine.disk.read (s.engine.markerAt env name) =
    some (asBytes (String.ofList (s.engine.versionDir (String.ofList name) v ++ ['\n'])))

structure HistoryInv (env : EngineEnv) (log : List Statement) (root : Bytes) (s : OtaHistory) :
    Prop where
  pubkey : s.engine.pubkeyBytes = root
  /-- A boot finds the binding that the engine has. -/
  loads : s.engine.unbound.loadReleaseBinding env = .ok s.engine
  vk : s.engine.releaseVk env = .ok s.engine.releaseKey
  named : ∀ n v, (n, v) ∈ s.current → Engine.Named s.engine n v
  staged : ∀ n v, (n, v) ∈ s.current → s.engine.disk.isDir (s.engine.versionAt env n v) = true →
    ∃ art bytes, StagedModule env log s.engine n v art bytes
  active : ∀ name ∈ s.engine.markers env, ∃ v, ActiveModule env s name v
  activeDir : s.engine.markers env ≠ [] →
    s.engine.disk.isDir ("active".toList :: s.engine.modules env) = true

/-! ## The boot check in a reached state -/

section Loading

variable {env : EngineEnv} {e : Engine}

theorem loadReleaseBinding_congr {disk : Disk Text}
    (hsame : disk.read (e.bindingPlace env) = e.disk.read (e.bindingPlace env))
    (hloads : e.unbound.loadReleaseBinding env = .ok e) :
    (e.withDisk disk).unbound.loadReleaseBinding env = .ok (e.withDisk disk) := by
  have hread : (e.withDisk disk).unbound.readText env (e.withDisk disk).unbound.bindingPath =
      e.unbound.readText env e.unbound.bindingPath := by
    unfold Engine.readText
    rw [Engine.resolve_bindingPath, Engine.resolve_bindingPath]
    show (disk.read (e.bindingPlace env)).bind utf8? = (e.disk.read (e.bindingPlace env)).bind utf8?
    rw [hsame]
  obtain ⟨key, hbinds, he⟩ := loadReleaseBinding_ok_iff.mp hloads
  rw [← hread] at hbinds
  exact loadReleaseBinding_ok_iff.mpr ⟨key, hbinds, congrArg (·.withDisk disk) he⟩

theorem verifyFileSha256_ok {path : Text} {data : Option Bytes} {expectHex : String}
    {bytes : Bytes} (h : Engine.verifyFileSha256 env path data expectHex = .ok bytes) :
    ∃ read, data = some read ∧
      (env.sha256Hex read = lowered expectHex ∨ env.sha256Hex read = expectHex) := by
  cases hdata : data with
  | none => simp [Engine.verifyFileSha256, hdata] at h
  | some read =>
      simp only [Engine.verifyFileSha256, hdata] at h
      split at h
      · cases h
      · rename_i hhash
        refine ⟨read, rfl, ?_⟩
        by_contra hneither
        exact hhash (not_or.mp hneither)

end Loading

section Boot

variable {env : EngineEnv} {log : List Statement} {root : Bytes} {s : OtaHistory} {e : Engine}
  {name : Text} {n v : String} {art : ModuleArtifact} {bytes : Bytes}

theorem readText_of_asBytes {p : Text} {t : String}
    (h : e.disk.read (resolve env.cwd p) = some (asBytes t)) : e.readText env p = some t := by
  unfold Engine.readText
  rw [h, Option.bind_some, utf8?_asBytes]

theorem findSo_of_sole (hnamed : Engine.Named e n v) {file : Text}
    (hso : extension file = some "so".toList)
    (hfile : (e.disk.read (file :: e.versionAt env n v)).isSome = true)
    (honly : ∀ other, (e.disk.read (other :: e.versionAt env n v)).isSome = true →
      extension other = some "so".toList → other = file) :
    e.findSoInVersionDir env (e.versionDir n v) = some file := by
  unfold Engine.findSoInVersionDir
  rw [Engine.resolve_versionDir hnamed]
  cases hfind : (e.disk.filesIn (e.versionAt env n v)).find? fun other =>
      decide (extension other = some "so".toList) with
  | none =>
      have hnone := List.find?_eq_none.mp hfind file (Disk.mem_filesIn.mpr hfile)
      exact absurd hso (by simpa using hnone)
  | some other =>
      have hother : extension other = some "so".toList := by
        simpa using List.find?_some hfind
      rw [honly other (Disk.mem_filesIn.mp (List.mem_of_find?_eq_some hfind)) hother]

theorem loadedModule_of_sole (hnamed : Engine.Named e n v) {file : Text}
    {marker : String}
    (hmarker : e.readText env (pathJoin (e.stagePath "active") name) = some marker)
    (htrim : trim marker.toList = e.versionDir n v)
    (hso : extension file = some "so".toList)
    (hfile : e.disk.read (file :: e.versionAt env n v) = some bytes)
    (honly : ∀ other, (e.disk.read (other :: e.versionAt env n v)).isSome = true →
      extension other = some "so".toList → other = file) :
    loadedModule env e name = some (file :: e.versionAt env n v, bytes) := by
  have hfound := findSo_of_sole hnamed hso (Option.isSome_of_eq_some hfile) honly
  unfold loadedModule
  rw [hmarker, Option.bind_some]
  simp only [htrim, hfound, Option.bind_some, Engine.resolve_versionDir hnamed, hfile,
    Option.map_some]

theorem trim_marker (hnamed : Engine.Named e n v) :
    trim (String.ofList (e.versionDir n v ++ ['\n'])).toList = e.versionDir n v := by
  rw [String.toList_ofList]
  exact trim_newline hnamed.marker

theorem activeVersion_of_marker (hnamed : Engine.Named e n v)
    (hmarker : e.readText env (e.activeLink n) =
      some (String.ofList (e.versionDir n v ++ ['\n']))) : e.activeVersion env n = v := by
  have hname : fileName (e.versionDir n v) = some v.toList := fileName_pathJoin hnamed.version
  unfold Engine.activeVersion
  rw [hmarker, Option.bind_some, trim_marker hnamed, hname, Option.getD_some, String.ofList_toList]

structure Seen (env : EngineEnv) (log : List Statement) (e : Engine) (name : Text) (v : String)
    (art : ModuleArtifact) (bytes : Bytes) : Prop where
  plain : Plain name
  named : Engine.Named e (String.ofList name) v
  marker : e.readText env (pathJoin (e.stagePath "active") name) =
    some (String.ofList (e.versionDir (String.ofList name) v ++ ['\n']))
  dir : e.isDir env (e.versionDir (String.ofList name) v) = true
  version : e.activeVersion env (String.ofList name) = v
  module : StagedModule env log e (String.ofList name) v art bytes

theorem HistoryInv.seen (hinv : HistoryInv env log root s) (h : name ∈ s.engine.markers env) :
    ∃ v art bytes, Seen env log s.engine name v art bytes := by
  obtain ⟨v, hactive⟩ := hinv.active name h
  have hnamed := hinv.named _ _ hactive.current
  obtain ⟨art, bytes, hmodule⟩ := hinv.staged _ _ hactive.current hactive.dir
  have hplain : Plain name := by
    have hn := hnamed.name
    rwa [String.toList_ofList] at hn
  have hmarker : s.engine.readText env (pathJoin (s.engine.stagePath "active") name) =
      some (String.ofList (s.engine.versionDir (String.ofList name) v ++ ['\n'])) := by
    apply readText_of_asBytes
    rw [Engine.resolve_marker hplain]
    exact hactive.marker
  have hlink : s.engine.activeLink (String.ofList name) =
      pathJoin (s.engine.stagePath "active") name := by
    unfold Engine.activeLink
    rw [String.toList_ofList]
  have hdir : s.engine.isDir env (s.engine.versionDir (String.ofList name) v) = true := by
    unfold Engine.isDir
    rw [Engine.resolve_versionDir hnamed]
    exact hactive.dir
  exact ⟨v, art, bytes, hplain, hnamed, hmarker, hdir,
    activeVersion_of_marker hnamed (by rw [hlink]; exact hmarker), hmodule⟩

theorem Seen.sidecar (h : Seen env log e name v art bytes) :
    e.loadedArtifact env (e.versionDir (String.ofList name) v) = some art := by
  have hread : e.readText env (pathJoin (e.versionDir (String.ofList name) v)
      "meta.json".toList) = some (env.prettyArtifact art) := by
    apply readText_of_asBytes
    rw [Engine.resolve_inVersion h.named Engine.plain_meta]
    exact h.module.sidecar
  unfold Engine.loadedArtifact
  rw [hread, Option.bind_some, h.module.parses]
  rfl

theorem Seen.loaded (h : Seen env log e name v art bytes) :
    loadedModule env e name =
      some (art.asset.toList :: e.versionAt env (String.ofList name) v, bytes) :=
  loadedModule_of_sole h.named h.marker (trim_marker h.named) h.module.named.so
    h.module.file h.module.only

theorem Seen.verified (h : Seen env log e name v art bytes) :
    e.verifyActive env e.releaseKey name =
      .ok (.inl (String.ofList name ++ "@" ++ e.activeVersion env (String.ofList name))) := by
  have hfile : e.disk.read (resolve env.cwd
      (pathJoin (e.versionDir (String.ofList name) v) art.asset.toList)) = some bytes := by
    rw [Engine.resolve_inVersion h.named h.module.named.asset]
    exact h.module.file
  have hhash : ∀ path, Engine.verifyFileSha256 env path (some bytes) art.sha256 = .ok bytes := by
    intro path
    have hok : ¬ (env.sha256Hex bytes ≠ lowered art.sha256 ∧
        env.sha256Hex bytes ≠ art.sha256) := by
      intro hneither
      rcases h.module.hash with hlow | hsame
      · exact hneither.1 hlow
      · exact hneither.2 hsame
    simp only [Engine.verifyFileSha256, if_neg hok]
  have htrim := trim_marker h.named
  unfold Engine.verifyActive
  simp only [h.marker, htrim, h.dir, Bool.true_eq_false, if_false, h.sidecar, h.module.chain,
    hfile, hhash, h.version, h.module.name, h.module.version]
  rfl

theorem verifyMarkers_of_isDir {released : Option Bytes}
    (h : e.isDir env (e.stagePath "active") = true) :
    e.verifyMarkers env released = (e.markers env).mapM (e.verifyActive env released) :=
  if_pos h

theorem otaVerifyActiveModules_eq (hloads : e.unbound.loadReleaseBinding env = .ok e)
    (hvk : e.releaseVk env = .ok e.releaseKey) :
    e.otaVerifyActiveModules env = (e.verifyMarkers env e.releaseKey).map fun listed =>
      ⟨listed.filterMap Sum.getLeft?, listed.filterMap Sum.getRight?, e.releaseKey.isSome⟩ := by
  unfold Engine.otaVerifyActiveModules
  rw [hloads]
  show e.verifyActiveModules env = _
  unfold Engine.verifyActiveModules
  rw [hvk]
  cases hlisted : e.verifyMarkers env e.releaseKey <;>
    simp [hlisted, bind, Except.bind, pure, Except.pure, Except.map]

theorem HistoryInv.allVerified (hinv : HistoryInv env log root s) : AllVerified env s.engine := by
  have hlisted : ∀ name ∈ s.engine.markers env, s.engine.verifyActive env s.engine.releaseKey name =
      .ok (.inl (String.ofList name ++ "@" ++
        s.engine.activeVersion env (String.ofList name))) := by
    intro name hname
    obtain ⟨v, art, bytes, hseen⟩ := hinv.seen hname
    exact hseen.verified
  have hmarkers : s.engine.verifyMarkers env s.engine.releaseKey =
      .ok ((s.engine.markers env).map fun name => Sum.inl (String.ofList name ++ "@" ++
        s.engine.activeVersion env (String.ofList name))) := by
    by_cases hnone : s.engine.markers env = []
    · have hempty : s.engine.disk.filesIn (resolve env.cwd (s.engine.stagePath "active")) = [] :=
        hnone
      simp only [Engine.verifyMarkers, hempty, hnone, List.mapM_nil, List.map_nil]
      split <;> rfl
    · have hdir : s.engine.isDir env (s.engine.stagePath "active") = true := by
        unfold Engine.isDir
        rw [Engine.resolve_stagePath Engine.plain_active]
        exact hinv.activeDir hnone
      rw [verifyMarkers_of_isDir hdir]
      exact mapM_ok hlisted
  have hverdict := otaVerifyActiveModules_eq hinv.loads hinv.vk
  rw [hmarkers] at hverdict
  refine ⟨_, hverdict, ?_, ?_⟩
  · simp [List.filterMap_map, Function.comp_def]
  · intro name hname
    simp only [List.filterMap_map, Function.comp_def, Sum.getLeft?_inl, List.filterMap_eq_map']
    exact List.mem_map.mpr ⟨name, hname, rfl⟩

theorem Tampered.loads {disk : Disk Text} (htampered : Tampered env e disk)
    (hloads : e.unbound.loadReleaseBinding env = .ok e) :
    (e.withDisk disk).unbound.loadReleaseBinding env =
      .ok (e.withDisk disk) := by
  have hsame : disk.read (e.bindingPlace env) = e.disk.read (e.bindingPlace env) := by
    by_contra hchanged
    obtain ⟨-, name, -, hplace⟩ := htampered.within _ hchanged
    rcases hplace with hmarker | hversion
    · exact Engine.markerAt_ne_bindingPlace hmarker.symm
    · exact Engine.not_suffix_bindingPlace hversion
  exact loadReleaseBinding_congr hsame hloads

theorem accepted_of_verifyActive {released : Option Bytes} {listed : String ⊕ String}
    (h : e.verifyActive env released name = .ok listed) :
    ∃ marker, e.readText env (pathJoin (e.stagePath "active") name) = some marker ∧
      e.isDir env (trim marker.toList) = true ∧
      ∀ art, e.loadedArtifact env (trim marker.toList) = some art →
        verifyArtifactSigChain env.toOtaEnv e.pubkeyBytes released art = .ok () ∧
          ∃ bytes, e.disk.read (resolve env.cwd
              (pathJoin (trim marker.toList) art.asset.toList)) = some bytes ∧
            (env.sha256Hex bytes = lowered art.sha256 ∨ env.sha256Hex bytes = art.sha256) := by
  unfold Engine.verifyActive at h
  cases hmarker : e.readText env (pathJoin (e.stagePath "active") name) with
  | none => simp [hmarker] at h
  | some marker =>
      cases hdir : e.isDir env (trim marker.toList) with
      | false => simp [hmarker, hdir] at h
      | true =>
          refine ⟨marker, rfl, hdir, ?_⟩
          intro art hart
          simp only [hmarker, hdir, Bool.true_eq_false, if_false, hart] at h
          cases hchain : verifyArtifactSigChain env.toOtaEnv e.pubkeyBytes released art with
          | error err => simp [hchain, bind, Except.bind] at h
          | ok u =>
              cases hfile : Engine.verifyFileSha256 env
                  (pathJoin (trim marker.toList) art.asset.toList) (e.disk.read (resolve env.cwd
                    (pathJoin (trim marker.toList) art.asset.toList))) art.sha256 with
              | error err => simp [hchain, hfile, bind, Except.bind] at h
              | ok bytes =>
                  exact ⟨rfl, verifyFileSha256_ok hfile⟩

theorem Seen.same_of_accepted {disk : Disk Text} {listed : String ⊕ String}
    (hroot : RootKey env e.pubkeyBytes log) (hone : OnePerVersion log)
    (hjson : JsonText env.toOtaEnv (log.flatMap Statement.bodies))
    (hlower : ∀ b, lowered (env.sha256Hex b) = env.sha256Hex b)
    (h : Seen env log e name v art bytes) (htampered : Tampered env e disk)
    (hkept : MarkerKept env e disk name)
    (haccepted : (e.withDisk disk).verifyActive env e.releaseKey name = .ok listed) :
    loadedModule env (e.withDisk disk) name = loadedModule env e name := by
  obtain ⟨marker, hmarker, hdir, hart⟩ := accepted_of_verifyActive haccepted
  obtain ⟨htrim, art', hart', hn, hv, hlegacy⟩ := hkept.2 marker hmarker hdir
  rw [h.version] at htrim hv
  obtain ⟨hchain, bytes', hread, hhash⟩ := hart art' hart'
  have hroot' := (verifyArtifactSigChain_ok hchain).1
  -- the sidecar and the staged artifact are of one version, hence of one file
  obtain ⟨y, hy, other, hother, hon, hov, hoa, hoh⟩ :=
    rootSigned_of_accepted hroot hjson hlegacy hroot'
  obtain ⟨x, hx, signed, hsigned, hsn, hsv, hsa, hsh⟩ := h.module.signed
  have hsame := hone x hx y hy signed other hsigned hother
    (by rw [hsn, hon, hn, h.module.name]) (by rw [hsv, hov, hv, h.module.version])
  have hasset : art'.asset = art.asset := by rw [← hoa, ← hsame.1, hsa]
  have hsha : art'.sha256 = art.sha256 := by rw [← hoh, ← hsame.2, hsh]
  have hplace : resolve env.cwd (pathJoin (e.versionDir (String.ofList name) v)
      art.asset.toList) = art.asset.toList :: e.versionAt env (String.ofList name) v :=
    Engine.resolve_inVersion h.named h.module.named.asset
  rw [htrim, hasset, hplace] at hread
  rw [hsha] at hhash
  have hdigest : ∀ b, env.sha256Hex b = lowered art.sha256 ∨ env.sha256Hex b = art.sha256 →
      env.sha256Hex b = lowered art.sha256 := by
    intro b hb
    rcases hb with hlow | hexact
    · exact hlow
    · rw [← hexact, hlower]
  have hbytes : bytes = bytes' :=
    htampered.apart _ bytes bytes' h.module.file hread
      ((hdigest bytes h.module.hash).trans (hdigest bytes' hhash).symm)
  have honly : ∀ file, (disk.read (file :: e.versionAt env (String.ofList name) v)).isSome = true →
      extension file = some "so".toList → file = art.asset.toList := by
    intro file hfile hso
    apply h.module.only file _ hso
    by_cases hchanged : disk.read (file :: e.versionAt env (String.ofList name) v) =
        e.disk.read (file :: e.versionAt env (String.ofList name) v)
    · rw [← hchanged]
      exact hfile
    · exact (htampered.within _ hchanged).1
  have hloaded := loadedModule_of_sole (h.named.withDisk disk) hmarker htrim
    h.module.named.so hread honly
  rw [hloaded, h.loaded, hbytes]
  rfl

theorem HistoryInv.tamperNoticed (hinv : HistoryInv env log root s) (hroot : RootKey env root log)
    (hone : OnePerVersion log) (hjson : JsonText env.toOtaEnv (log.flatMap Statement.bodies))
    (hlower : ∀ b, lowered (env.sha256Hex b) = env.sha256Hex b) : TamperNoticed env s.engine := by
  intro disk htampered hkept hother
  obtain ⟨name, hname, hdiffers⟩ := hother
  obtain ⟨v, art, bytes, hseen⟩ := hinv.seen hname
  have hroot' : RootKey env s.engine.pubkeyBytes log := by
    rw [hinv.pubkey]
    exact hroot
  have hlisted : name ∈ disk.filesIn (resolve env.cwd (s.engine.stagePath "active")) := by
    rw [Engine.resolve_stagePath Engine.plain_active, Disk.mem_filesIn]
    exact (hkept name hname).1
  have hdir : (s.engine.withDisk disk).isDir env (s.engine.stagePath "active") =
      true := by
    have hactive := hinv.activeDir (List.ne_nil_of_mem hname)
    have hsame : disk.isDir ("active".toList :: s.engine.modules env) =
        s.engine.disk.isDir ("active".toList :: s.engine.modules env) := by
      unfold Disk.isDir
      rw [htampered.dirs]
    unfold Engine.isDir
    rw [Engine.resolve_stagePath Engine.plain_active]
    exact hsame.trans hactive
  have hvk : (s.engine.withDisk disk).releaseVk env = .ok s.engine.releaseKey := hinv.vk
  rw [otaVerifyActiveModules_eq (htampered.loads hinv.loads) hvk]
  cases hverify : (s.engine.withDisk disk).verifyMarkers env (s.engine.withDisk disk).releaseKey with
  | error err => exact ⟨err, rfl⟩
  | ok listed =>
      rw [verifyMarkers_of_isDir hdir] at hverify
      obtain ⟨entry, hentry⟩ := ok_of_mapM_ok hverify hlisted
      exact absurd (hseen.same_of_accepted hroot' hone hjson hlower htampered (hkept name hname)
        hentry) hdiffers

end Boot

end ReleaseSignature

end GrServer
