import GrServer.OtaPruning

/-!
# Activating a module in a running host

The host refuses a version below the active one, activates the version on the
disk, looks for its library, loads the one module that is loaded while running,
and stores the configuration anew.  Several exits after the activation return
an error; one of them writes the marker back.
-/

namespace GrServer

open Text LexicalPath

namespace ReleaseSignature

structure ModuleMeta where
  name : String
  version : String
  domain : String
  deriving DecidableEq

/-- An instance of a library; two loads of one file are two instances. -/
structure LoadedModule where
  serial : ℕ
  info : ModuleMeta
  path : Text
  deriving DecidableEq

structure Registry where
  slots : String → Option LoadedModule
  /-- Instances that were replaced stay resident. -/
  retired : List LoadedModule
  next : ℕ
  fresh : ∀ name m, slots name = some m → m.serial < next

namespace Registry

variable (r : Registry) {name : String} {so : Text}

def get (name : String) : Option LoadedModule := r.slots name

def swap (info : ModuleMeta) (so : Text) : Registry where
  slots := fun name => if name = info.name then some ⟨r.next, info, so⟩ else r.slots name
  retired := (r.slots info.name).toList ++ r.retired
  next := r.next + 1
  fresh := by
    intro name m hm
    split_ifs at hm with hname
    · rw [← Option.some.inj hm]
      exact Nat.lt_succ_self _
    · exact (r.fresh name m hm).trans (Nat.lt_succ_self _)

def hotLoad (opened : Except String ModuleMeta) (name : String) (so : Text) :
    Except String LoadedModule × Registry :=
  match opened with
  | .error t => (.error t, r)
  | .ok info =>
      if info.name ≠ name ∧ name ≠ info.domain then
        (.error ("module name mismatch: expected " ++ name ++ ", got " ++ info.name), r)
      else (.ok ⟨r.next, info, so⟩, r.swap info so)

variable {r} {opened : Except String ModuleMeta}

theorem hotLoad_error {t : String} (h : (r.hotLoad opened name so).1 = .error t) :
    (r.hotLoad opened name so).2 = r := by
  unfold hotLoad at h ⊢
  cases opened with
  | error t => rfl
  | ok info =>
      dsimp only at h ⊢
      split_ifs at h ⊢ with hname
      rfl

theorem hotLoad_ok {m : LoadedModule} (h : (r.hotLoad opened name so).1 = .ok m) :
    ∃ slot, (r.hotLoad opened name so).2.get slot ≠ r.get slot := by
  unfold hotLoad at h ⊢
  cases opened with
  | error t => cases h
  | ok info =>
      dsimp only at h ⊢
      split_ifs at h ⊢ with hname
      refine ⟨info.name, ?_⟩
      intro hsame
      have hold : r.slots info.name = some ⟨r.next, info, so⟩ := by
        rw [← get, ← hsame]
        simp [get, swap]
      exact absurd (r.fresh _ _ hold) (lt_irrefl _)

end Registry

/-! ## The activation -/

structure Runtime where
  engine : Engine
  registry : Registry
  configVersion : UInt64

structure Activation where
  name : String
  version : String
  path : Text
  restartRequired : Bool
  loaded : Option LoadedModule
  hotNote : String

/-- What the activation asks of the process: the flag `OTA_ALLOW_DOWNGRADE`, how
a library opens, and whether the sites and workers can be read for
`refresh_live_config`. -/
structure Host where
  allowDowngrade : Bool
  openModule : Text → Except String ModuleMeta
  refresh : Except String Unit

def shouldHotDlopen (name : String) : Bool := name == "analyze"

/-- The components that a path is compared by; a leading `.` counts. -/
def pathParts (p : Text) : Bool × Bool × List Text :=
  (isAbsolute p, (components p).head? == some ['.'],
    (components p).filter fun c => decide (c ≠ [] ∧ c ≠ ['.']))

def samePath (p q : Text) : Bool := pathParts p == pathParts q

namespace Engine

variable (env : EngineEnv) (e : Engine)

def markedVersion (name : String) : Option String :=
  (e.readText env (e.activeLink name)).bind fun s =>
    (fileName (trim s.toList)).map String.ofList

/-- A library in the version's directory: the first file called so, else the
first such directory.  The source takes whichever `read_dir` lists first; a version
that holds one such entry leaves no choice. -/
def findSo (verDir : Text) : Option Text :=
  ((e.findSoInVersionDir env verDir).or
    ((e.disk.subdirs (resolve env.cwd verDir)).find? fun entry =>
      decide (extension entry = some "so".toList))).map fun entry => pathJoin verDir entry

end Engine

structure HotStep where
  loaded : Option LoadedModule
  hotNote : String
  commitActive : Bool
  runtime : Runtime

section Source

variable (env : EngineEnv) (V : SemVer) (host : Host)

/-- The floor: the active version, if both are read and it is the higher one. -/
def refusedBy (e : Engine) (name version : String) : Option String :=
  (e.markedVersion env name).filter fun prev =>
    V.lower version prev && !host.allowDowngrade

/-- Only the module that is loaded while running is loaded here; a failed load
writes the previous marker back, if there was one. -/
def hotStep (s : Runtime) (prevActive : Option String) (name version : String) (so : Text) :
    HotStep :=
  if shouldHotDlopen name then
    match (s.registry.get name).filter fun m =>
        decide (m.info.version = version) && samePath m.path so with
    | some m => ⟨some m, "already_loaded_same_version", true, s⟩
    | none =>
        match s.registry.hotLoad (host.openModule so) name so with
        | (.ok m, registry) => ⟨some m, "hot_dlopen", true, { s with registry := registry }⟩
        | (.error _, registry) =>
            let engine := match prevActive with
              | some prev => s.engine.writeText env (s.engine.activeLink name) prev
              | none => s.engine
            ⟨none, "hot_dlopen_failed", false, ⟨engine, registry, s.configVersion⟩⟩
  else ⟨none, "activation_marker_only_no_dlopen", true, s⟩

def finishActivation (h : HotStep) (name version : String) (so : Text) :
    Except String Activation × Runtime :=
  if h.commitActive then
    let s := { h.runtime with configVersion := h.runtime.configVersion + 1 }
    match host.refresh with
    | .error t => (.error t, s)
    | .ok () => (.ok ⟨name, version, so, false, h.loaded, h.hotNote⟩, s)
  else
    (.error ("activate " ++ name ++ "@" ++ version ++ " hot_load failed (" ++ h.hotNote ++
      "); previous active retained"), h.runtime)

def otaActivate (s : Runtime) (name version : String) : Except String Activation × Runtime :=
  let prevActive := s.engine.readText env (s.engine.activeLink name)
  match refusedBy env V host s.engine name version with
  | some prev =>
      (.error ("refusing downgrade of " ++ name ++ ": active " ++ prev ++ " > requested " ++
        version ++ " (set GR_OTA_ALLOW_DOWNGRADE=1 to force)"), s)
  | none =>
      match s.engine.activate env name version with
      | (.error err, _) => (.error err.message, s)
      | (.ok verDir, activated) =>
          let s := { s with engine := activated }
          match activated.findSo env verDir with
          | none => (.error ("no .so in " ++ String.ofList verDir), s)
          | some so =>
              finishActivation host (hotStep env host s prevActive name version so) name version so

end Source

section Law

variable (env : EngineEnv) (V : SemVer) (host : Host)

structure Unchanged (name : String) (s after : Runtime) : Prop where
  marker : after.engine.disk.read (s.engine.markerAt env name.toList) =
    s.engine.disk.read (s.engine.markerAt env name.toList)
  /-- The directory that the marker names. -/
  named : ∀ prev, s.engine.readText env (s.engine.activeLink name) = some prev →
    s.engine.isDir env (trim prev.toList) = true →
      after.engine.isDir env (trim prev.toList) = true
  served : ∀ slot, after.registry.get slot = s.registry.get slot

structure ActivationLaw (s : Runtime) (name version : String) : Prop where
  failed : ∀ err, (otaActivate env V host s name version).1 = .error err →
    Unchanged env name s (otaActivate env V host s name version).2
  notLowered : ∀ ok, (otaActivate env V host s name version).1 = .ok ok →
    host.allowDowngrade = false → ∀ prev, s.engine.markedVersion env name = some prev →
      V.newerFirst version prev = true

/-- The versions that an activation of `v` prunes: all but three of those that are
not called as the marker is read back. -/
def Engine.doomed (e : Engine) (n v : String) : List String :=
  ((env.sortVersions (e.staged env n)).filter fun w =>
    decide (w ≠ String.ofList ((fileName (trim (e.versionDir n v))).getD []))).drop
      keepRollbackVersions

def Engine.soLeft (e : Engine) (n v : String) : Option Text :=
  if v ∈ e.doomed env n v then none else e.findSo env (e.versionDir n v)

def Engine.MarkerAlready (e : Engine) (n v : String) : Prop :=
  e.disk.read (e.markerAt env n.toList) =
    some (asBytes (String.ofList (e.versionDir n v ++ ['\n'])))

def Engine.NamedSpared (e : Engine) (n v : String) : Prop :=
  ∀ prev, e.readText env (e.activeLink n) = some prev → e.isDir env (trim prev.toList) = true →
    ∀ w ∈ e.doomed env n v, ¬ e.versionAt env n w <:+ resolve env.cwd (trim prev.toList)

/-- A version that `semver` cannot read replaces only one that it cannot read
either and that is not behind it in the alphabet. -/
def NotBehind (version : String) (prev : Option String) : Prop :=
  V.parse version = none → ∀ p, prev = some p → V.parse p = none ∧ p ≤ version

def GoesWell (s : Runtime) (n v : String) : Prop :=
  match s.engine.soLeft env n v with
  | none => s.engine.MarkerAlready env n v ∧ s.engine.NamedSpared env n v
  | some so =>
      let live := (s.registry.get n).any fun m =>
        decide (m.info.version = v) && samePath m.path so
      let loads := !shouldHotDlopen n || live
      match host.refresh, loads, (s.registry.hotLoad (host.openModule so) n so).1 with
      | _, false, .error _ => (s.engine.readText env (s.engine.activeLink n)).isSome = true ∧
          s.engine.NamedSpared env n v
      | .error _, false, .ok _ => False
      | .error _, true, _ => s.engine.MarkerAlready env n v ∧ s.engine.NamedSpared env n v
      | .ok (), _, _ => host.allowDowngrade = false →
          NotBehind V v (s.engine.markedVersion env n)

/-- A version that is refused or not staged changes nothing. -/
def ActivationSafe (s : Runtime) (n v : String) : Prop :=
  refusedBy env V host s.engine n v = none →
    s.engine.isDir env (s.engine.versionDir n v) = true → GoesWell env V host s n v

end Law

/-! ## The activated disk -/

theorem asBytes_of_utf8? {bytes : Bytes} {s : String} (h : utf8? bytes = some s) :
    asBytes s = bytes :=
  fromUTF8?_eq_some.mp h

namespace Engine

section Activated

variable {env : EngineEnv} {e : Engine} {n v : String}

def activatedEngine (env : EngineEnv) (e : Engine) (n v : String) : Engine :=
  e.withDisk ((e.doomed env n v).foldl (fun disk w => disk.removeTree (e.versionAt env n w))
    (e.markedDisk env n v))

theorem prunable_doomed (hn : Plain n.toList) :
    (e.withDisk (e.markedDisk env n v)).prunable env n keepRollbackVersions =
      e.doomed env n v := by
  have hread : (e.withDisk (e.markedDisk env n v)).readText env (e.activeLink n) =
      some (String.ofList (e.versionDir n v ++ ['\n'])) :=
    @readText_marker env e n v [] hn
  have hactive : (e.withDisk (e.markedDisk env n v)).activeVersion env n =
      String.ofList ((fileName (trim (e.versionDir n v))).getD []) := by
    unfold activeVersion
    rw [show (e.withDisk (e.markedDisk env n v)).activeLink n = e.activeLink n from rfl, hread,
      Option.bind_some, String.toList_ofList, trim_concat_newline]
  unfold prunable doomed
  rw [hactive, ← staged_markedDisk (v := v) hn]
  rfl

theorem activate_ok (htree : e.disk.Tree) (hn : Plain n.toList) (hv : Plain v.toList)
    (hdir : e.isDir env (e.versionDir n v) = true) :
    e.activate env n v = (.ok (e.versionDir n v), e.activatedEngine env n v) := by
  rw [activate_eq htree hn hv hdir, prunable_doomed hn]
  rfl

theorem read_activated : (e.activatedEngine env n v).disk.read (e.markerAt env n.toList) =
    some (asBytes (String.ofList (e.versionDir n v ++ ['\n']))) := by
  show ((e.doomed env n v).foldl (fun disk w => disk.removeTree (e.versionAt env n w))
    (e.markedDisk env n v)).read _ = _
  rw [read_foldl_removeTree _ fun _ _ => not_suffix_markerAt]
  unfold markedDisk
  rw [Disk.read_write, if_pos rfl]

theorem isDir_activated {q : List Text} (hq : e.disk.isDir q = true) :
    (e.activatedEngine env n v).disk.isDir q = true ↔
      ∀ w ∈ e.doomed env n v, ¬ e.versionAt env n w <:+ q := by
  show ((e.doomed env n v).foldl (fun disk w => disk.removeTree (e.versionAt env n w))
    (e.markedDisk env n v)).isDir q = true ↔ _
  rw [isDir_foldl_removeTree]
  constructor
  · intro h
    exact h.2
  · intro h
    exact ⟨isDir_markedDisk.mpr (Or.inr hq), h⟩

theorem entries_foldl_removeTree (doomed : List String) (d : Disk Text) :
    (doomed.foldl (fun disk w => disk.removeTree (e.versionAt env n w)) d).filesIn
        (e.versionAt env n v) = (if v ∈ doomed then [] else d.filesIn (e.versionAt env n v)) ∧
      (doomed.foldl (fun disk w => disk.removeTree (e.versionAt env n w)) d).subdirs
        (e.versionAt env n v) = if v ∈ doomed then [] else d.subdirs (e.versionAt env n v) := by
  induction doomed generalizing d with
  | nil => simp
  | cons w rest ih =>
      rcases ih (d.removeTree (e.versionAt env n w)) with ⟨hfiles, hsubdirs⟩
      rw [List.foldl_cons, hfiles, hsubdirs]
      by_cases hw : v = w
      · subst hw
        have hnone := Disk.entries_removeTree_self (d := d) (p := e.versionAt env n v)
        simp [hnone.1, hnone.2]
      · have hapart : ∀ name : Text,
            ¬ e.versionAt env n w <:+ name :: e.versionAt env n v := by
          intro name hsuffix
          exact hw (versionAt_inj (List.suffix_cons _ _) hsuffix).2
        have hsame := Disk.entries_removeTree_apart (d := d) hapart
        simp [hsame.1, hsame.2, hw]

theorem entries_markedDisk :
    (e.markedDisk env n v).filesIn (e.versionAt env n v) =
        e.disk.filesIn (e.versionAt env n v) ∧
      (e.markedDisk env n v).subdirs (e.versionAt env n v) =
        e.disk.subdirs (e.versionAt env n v) := by
  have hmarker : Disk.childName (e.versionAt env n v) (e.markerAt env n.toList) = none := by
    cases hname : Disk.childName (e.versionAt env n v) (e.markerAt env n.toList) with
    | none => rfl
    | some name =>
        have hlen := congrArg List.length (Disk.childName_eq_some.mp hname)
        simp [markerAt, versionAt] at hlen
  constructor
  · exact Disk.filesIn_write_apart hmarker
  · apply Disk.subdirs_mkdirs
    intro name hsuffix
    have hlen := hsuffix.length_le
    simp only [versionAt, List.length_cons] at hlen
    omega

theorem findSo_activated (hn : Plain n.toList) (hv : Plain v.toList) :
    (e.activatedEngine env n v).findSo env (e.versionDir n v) = e.soLeft env n v := by
  have hpruned := @entries_foldl_removeTree env e n v (e.doomed env n v) (e.markedDisk env n v)
  rw [entries_markedDisk.1, entries_markedDisk.2] at hpruned
  have hfiles : (e.activatedEngine env n v).disk.filesIn (e.versionAt env n v) =
      if v ∈ e.doomed env n v then [] else e.disk.filesIn (e.versionAt env n v) := hpruned.1
  have hsubdirs : (e.activatedEngine env n v).disk.subdirs (e.versionAt env n v) =
      if v ∈ e.doomed env n v then [] else e.disk.subdirs (e.versionAt env n v) := hpruned.2
  unfold soLeft findSo findSoInVersionDir
  rw [resolve_versionDir_plain hn hv, hfiles, hsubdirs]
  by_cases hdoomed : v ∈ e.doomed env n v
  · simp [hdoomed]
  · simp [hdoomed]

end Activated

end Engine

/-! ## The ways an activation goes -/

section Ways

variable {env : EngineEnv} {V : SemVer} {host : Host} {s : Runtime} {n v : String}

theorem unchanged_iff {after : Runtime}
    (hdirs : after.engine.disk.dirs = (s.engine.activatedEngine env n v).disk.dirs) :
    Unchanged env n s after ↔
      (after.engine.disk.read (s.engine.markerAt env n.toList) =
          s.engine.disk.read (s.engine.markerAt env n.toList) ∧
        s.engine.NamedSpared env n v) ∧
      ∀ slot, after.registry.get slot = s.registry.get slot := by
  have hnamed : (∀ prev, s.engine.readText env (s.engine.activeLink n) = some prev →
      s.engine.isDir env (trim prev.toList) = true →
        after.engine.isDir env (trim prev.toList) = true) ↔ s.engine.NamedSpared env n v := by
    unfold Engine.NamedSpared
    have hafter : ∀ q, s.engine.disk.isDir q = true → (after.engine.disk.isDir q = true ↔
        ∀ w ∈ s.engine.doomed env n v, ¬ s.engine.versionAt env n w <:+ q) := by
      intro q hq
      rw [← Engine.isDir_activated hq]
      unfold Disk.isDir
      rw [hdirs]
    constructor
    · intro h prev hprev hdir
      exact (hafter _ hdir).mp (h prev hprev hdir)
    · intro h prev hprev hdir
      exact (hafter _ hdir).mpr (h prev hprev hdir)
  constructor
  · intro h
    exact ⟨⟨h.marker, hnamed.mp h.named⟩, h.served⟩
  · rintro ⟨⟨hmarker, hspared⟩, hserved⟩
    exact ⟨hmarker, hnamed.mpr hspared, hserved⟩

theorem notBehind_iff (hfloor : refusedBy env V host s.engine n v = none) :
    (host.allowDowngrade = false → ∀ prev, s.engine.markedVersion env n = some prev →
        V.newerFirst v prev = true) ↔
      (host.allowDowngrade = false → NotBehind V v (s.engine.markedVersion env n)) := by
  apply imp_congr_right
  intro hflag
  have hprev : ∀ prev, s.engine.markedVersion env n = some prev →
      (V.newerFirst v prev = true ↔
        (V.parse v = none → V.parse prev = none ∧ prev ≤ v)) := by
    intro prev hprev
    have hnot : V.lower v prev = false := by
      unfold refusedBy at hfloor
      rw [hprev, Option.filter_some, hflag] at hfloor
      by_contra hlower
      rw [Bool.not_eq_false] at hlower
      simp [hlower] at hfloor
    unfold SemVer.newerFirst
    unfold SemVer.lower at hnot
    cases hv : V.parse v with
    | none =>
        cases hp : V.parse prev with
        | none => simp
        | some x => simp
    | some y =>
        cases hp : V.parse prev with
        | none => simp
        | some x =>
            rw [hv, hp] at hnot
            simpa using hnot
  unfold NotBehind
  constructor
  · intro h hnone prev hsome
    exact (hprev prev hsome).mp (h prev hsome) hnone
  · intro h prev hsome
    exact (hprev prev hsome).mpr fun hnone => h hnone prev hsome

theorem law_of_error {err : String} {after : Runtime}
    (h : otaActivate env V host s n v = (.error err, after)) :
    ActivationLaw env V host s n v ↔ Unchanged env n s after := by
  constructor
  · intro hlaw
    have hfailed := hlaw.failed err (by rw [h])
    rwa [h] at hfailed
  · intro hsame
    constructor
    · intro _ _
      rw [h]
      exact hsame
    · intro ok hok
      rw [h] at hok
      cases hok

theorem law_of_ok {ok : Activation} {after : Runtime}
    (h : otaActivate env V host s n v = (.ok ok, after)) :
    ActivationLaw env V host s n v ↔
      (host.allowDowngrade = false → ∀ prev, s.engine.markedVersion env n = some prev →
        V.newerFirst v prev = true) := by
  constructor
  · intro hlaw
    exact hlaw.notLowered ok (by rw [h])
  · intro hkept
    constructor
    · intro err herr
      rw [h] at herr
      cases herr
    · intro _ _
      exact hkept

theorem finish_commit {h : HotStep} {so : Text} (hcommit : h.commitActive = true) :
    finishActivation host h n v so =
      match host.refresh with
      | .error t => (.error t, { h.runtime with configVersion := h.runtime.configVersion + 1 })
      | .ok () => (.ok ⟨n, v, so, false, h.loaded, h.hotNote⟩,
          { h.runtime with configVersion := h.runtime.configVersion + 1 }) := by
  unfold finishActivation
  rw [if_pos hcommit]

theorem unchanged_left {after : Runtime}
    (hengine : after.engine = s.engine.activatedEngine env n v) :
    Unchanged env n s after ↔
      (s.engine.MarkerAlready env n v ∧ s.engine.NamedSpared env n v) ∧
        ∀ slot, after.registry.get slot = s.registry.get slot := by
  rw [unchanged_iff (by rw [hengine]), hengine, Engine.read_activated]
  unfold Engine.MarkerAlready
  rw [eq_comm (a := some _)]

theorem unchanged_restored {after : Runtime} (hn : Plain n.toList)
    (hengine : after.engine = match s.engine.readText env (s.engine.activeLink n) with
      | some prev => (s.engine.activatedEngine env n v).writeText env (s.engine.activeLink n) prev
      | none => s.engine.activatedEngine env n v)
    (hserved : ∀ slot, after.registry.get slot = s.registry.get slot) :
    Unchanged env n s after ↔
      (s.engine.readText env (s.engine.activeLink n)).isSome = true ∧
        s.engine.NamedSpared env n v := by
  have hlink : resolve env.cwd (s.engine.activeLink n) = s.engine.markerAt env n.toList :=
    Engine.resolve_marker hn
  cases hprev : s.engine.readText env (s.engine.activeLink n) with
  | none =>
      have hleft : after.engine = s.engine.activatedEngine env n v := by rw [hengine, hprev]
      rw [unchanged_left hleft]
      refine iff_of_false ?_ (by simp)
      rintro ⟨⟨halready, -⟩, -⟩
      have hread : s.engine.readText env (s.engine.activeLink n) =
          some (String.ofList (s.engine.versionDir n v ++ ['\n'])) := by
        apply readText_of_asBytes
        rw [hlink]
        exact halready
      rw [hprev] at hread
      cases hread
  | some prev =>
      have hback : after.engine =
          (s.engine.activatedEngine env n v).writeText env (s.engine.activeLink n) prev := by
        rw [hengine, hprev]
      have hmarker : after.engine.disk.read (s.engine.markerAt env n.toList) =
          s.engine.disk.read (s.engine.markerAt env n.toList) := by
        rw [hback]
        show (Disk.write _ (resolve env.cwd (s.engine.activeLink n)) _).read _ = _
        rw [hlink, Disk.read_write, if_pos rfl]
        unfold Engine.readText at hprev
        rw [hlink] at hprev
        rcases Option.bind_eq_some_iff.mp hprev with ⟨bytes, hbytes, hutf8⟩
        rw [hbytes, asBytes_of_utf8? hutf8]
      rw [unchanged_iff (by rw [hback]; rfl)]
      simp [hmarker, hserved]

theorem law_of_commit {h : HotStep} {so : Text} (hcommit : h.commitActive = true)
    (hrun : otaActivate env V host s n v = finishActivation host h n v so)
    (hfloor : refusedBy env V host s.engine n v = none)
    (hengine : h.runtime.engine = s.engine.activatedEngine env n v) :
    ActivationLaw env V host s n v ↔
      match host.refresh with
      | .error _ => (s.engine.MarkerAlready env n v ∧ s.engine.NamedSpared env n v) ∧
          ∀ slot, h.runtime.registry.get slot = s.registry.get slot
      | .ok () => host.allowDowngrade = false →
          NotBehind V v (s.engine.markedVersion env n) := by
  rw [finish_commit hcommit] at hrun
  cases hrefresh : host.refresh with
  | error t =>
      rw [hrefresh] at hrun
      rw [law_of_error hrun]
      exact unchanged_left hengine
  | ok done =>
      rw [hrefresh] at hrun
      rw [law_of_ok hrun]
      exact notBehind_iff hfloor

theorem law_of_staged (htree : s.engine.disk.Tree) (hn : Plain n.toList) (hv : Plain v.toList)
    (hfloor : refusedBy env V host s.engine n v = none)
    (hdir : s.engine.isDir env (s.engine.versionDir n v) = true) :
    ActivationLaw env V host s n v ↔ GoesWell env V host s n v := by
  have hactivate := Engine.activate_ok htree hn hv hdir
  have hso := @Engine.findSo_activated env s.engine n v hn hv
  unfold GoesWell
  cases hleft : s.engine.soLeft env n v with
  | none =>
      have hrun : ∃ err, otaActivate env V host s n v =
          (.error err, { s with engine := s.engine.activatedEngine env n v }) := by
        unfold otaActivate
        simp only [hfloor, hactivate, hso, hleft]
        exact ⟨_, rfl⟩
      rcases hrun with ⟨err, hrun⟩
      rw [law_of_error hrun, unchanged_left rfl]
      exact and_iff_left fun _ => rfl
  | some so =>
      have hrun : otaActivate env V host s n v = finishActivation host
          (hotStep env host { s with engine := s.engine.activatedEngine env n v }
            (s.engine.readText env (s.engine.activeLink n)) n v so) n v so := by
        unfold otaActivate
        simp only [hfloor, hactivate, hso, hleft]
      dsimp only
      by_cases hhot : shouldHotDlopen n = true
      · cases hlive : (s.registry.get n).filter fun m =>
            decide (m.info.version = v) && samePath m.path so with
        | some m =>
            -- the instance that is served is the requested one already
            have hany : ((s.registry.get n).any fun m =>
                decide (m.info.version = v) && samePath m.path so) = true := by
              rcases Option.filter_eq_some_iff.mp hlive with ⟨hget, hsame⟩
              rw [hget]
              exact hsame
            have hstep := @law_of_commit env V host s n v
              ⟨some m, "already_loaded_same_version", true,
                { s with engine := s.engine.activatedEngine env n v }⟩ so rfl
              (by rw [hrun]; unfold hotStep; rw [if_pos hhot]; simp only [hlive]) hfloor rfl
            rw [hstep, hany, Bool.or_true]
            cases host.refresh with
            | error t => exact and_iff_left fun _ => rfl
            | ok done => rfl
        | none =>
            have hany : ((s.registry.get n).any fun m =>
                decide (m.info.version = v) && samePath m.path so) = false := by
              cases hget : s.registry.get n with
              | none => rfl
              | some m =>
                  rw [hget] at hlive
                  simpa [Option.filter_some] using hlive
            rw [hany, hhot]
            cases hload : (s.registry.hotLoad (host.openModule so) n so).1 with
            | error t =>
                have hpair : s.registry.hotLoad (host.openModule so) n so =
                    (.error t, s.registry) := Prod.ext hload (Registry.hotLoad_error hload)
                have hfailed : ∃ err after, otaActivate env V host s n v = (.error err, after) ∧
                    after.registry = s.registry ∧
                    after.engine = match s.engine.readText env (s.engine.activeLink n) with
                      | some prev => (s.engine.activatedEngine env n v).writeText env
                          (s.engine.activeLink n) prev
                      | none => s.engine.activatedEngine env n v := by
                  rw [hrun]
                  unfold hotStep finishActivation
                  rw [if_pos hhot]
                  simp only [hlive, hpair, Bool.false_eq_true, if_false]
                  exact ⟨_, _, rfl, rfl, rfl⟩
                rcases hfailed with ⟨err, after, hfailed, hregistry, hengine⟩
                rw [law_of_error hfailed]
                rw [unchanged_restored hn hengine fun slot => by rw [hregistry]]
                cases host.refresh <;> rfl
            | ok m =>
                rcases Registry.hotLoad_ok hload with ⟨slot, hslot⟩
                generalize hpair : s.registry.hotLoad (host.openModule so) n so = pair
                  at hload hslot
                rcases pair with ⟨result, registry⟩
                cases hload
                have hstep := @law_of_commit env V host s n v
                  ⟨some m, "hot_dlopen", true,
                    ⟨s.engine.activatedEngine env n v, registry, s.configVersion⟩⟩ so rfl
                  (by rw [hrun]; unfold hotStep; rw [if_pos hhot]; simp only [hlive, hpair])
                  hfloor rfl
                rw [hstep]
                cases host.refresh with
                | error t =>
                    refine iff_of_false ?_ (by simp)
                    rintro ⟨-, hserved⟩
                    exact hslot (hserved slot)
                | ok done => rfl
      · have hstep := @law_of_commit env V host s n v
          ⟨none, "activation_marker_only_no_dlopen", true,
            { s with engine := s.engine.activatedEngine env n v }⟩ so rfl
          (by rw [hrun]; unfold hotStep; rw [if_neg hhot]) hfloor rfl
        have hcold : shouldHotDlopen n = false := Bool.eq_false_iff.mpr hhot
        rw [hstep, hcold, Bool.not_false, Bool.true_or]
        cases host.refresh with
        | error t => exact and_iff_left fun _ => rfl
        | ok done => rfl

theorem law_iff_safe (htree : s.engine.disk.Tree) (hn : Plain n.toList) (hv : Plain v.toList) :
    ActivationLaw env V host s n v ↔ ActivationSafe env V host s n v := by
  have hsame : Unchanged env n s s := ⟨rfl, fun _ _ h => h, fun _ => rfl⟩
  cases hfloor : refusedBy env V host s.engine n v with
  | some prev =>
      have hrefused : ∃ err, otaActivate env V host s n v = (.error err, s) := by
        unfold otaActivate
        rw [hfloor]
        exact ⟨_, rfl⟩
      rcases hrefused with ⟨err, hrefused⟩
      rw [law_of_error hrefused]
      refine iff_of_true hsame ?_
      intro hnone
      rw [hfloor] at hnone
      cases hnone
  | none =>
      by_cases hdir : s.engine.isDir env (s.engine.versionDir n v) = true
      · rw [law_of_staged htree hn hv hfloor hdir]
        exact ⟨fun h _ _ => h, fun h => h hfloor hdir⟩
      · have hmissing : ∃ err, otaActivate env V host s n v = (.error err, s) := by
          unfold otaActivate Engine.activate
          simp only [hfloor, hdir, Bool.false_eq_true, if_false]
          exact ⟨_, rfl⟩
        rcases hmissing with ⟨err, hmissing⟩
        rw [law_of_error hmissing]
        exact iff_of_true hsame fun _ hdir' => absurd hdir' hdir

end Ways

/-- An activation that fails changes nothing, and one that succeeds lowers nothing,
exactly as long as it goes one of the ways on which the marker, the versions and
the instance are kept. -/
theorem activation_law_iff (env : EngineEnv) (V : SemVer) (host : Host) (s : Runtime)
    (htree : s.engine.disk.Tree) (name version : Component) :
    ActivationLaw (env.sortedBy V) V host s name.text version.text ↔
      ActivationSafe (env.sortedBy V) V host s name.text version.text :=
  law_iff_safe htree name.plain version.plain

section Sample

def markedEngine : Engine :=
  stagedEngine.withDisk (stagedEngine.disk.write
    ["analyze".toList, "active".toList, "modules".toList, "srv".toList]
    (asBytes "/srv/modules/versions/analyze/1.1.0\n"))

def sampleRuntime : Runtime where
  engine := markedEngine
  registry := ⟨fun _ => none, [], 0, by intro _ _ h; cases h⟩
  configVersion := 1

def sampleHost : Host where
  allowDowngrade := false
  openModule _ := .error "dlopen"
  refresh := .ok ()

def newRelease : Component := ⟨"1.2.0", by constructor <;> decide⟩

theorem sampleRuntime_tree : sampleRuntime.engine.disk.Tree := stagedEngine_tree.of_dirs rfl

def libraryRuntime : Runtime :=
  { sampleRuntime with
    engine := markedEngine.withDisk (markedEngine.disk.write
      ["libanalyze.so".toList, "1.2.0".toList, "analyze".toList, "versions".toList,
        "modules".toList, "srv".toList] []) }

theorem libraryRuntime_tree : libraryRuntime.engine.disk.Tree := stagedEngine_tree.of_dirs rfl

def openingHost : Host :=
  { sampleHost with openModule := fun _ => .ok ⟨"analyze", "1.2.0", ""⟩ }

theorem libraryRuntime_doomed :
    libraryRuntime.engine.doomed ((hostEnv []).sortedBy SemVer.plain) "analyze" "1.2.0" = [] := by
  have hothers : ((libraryRuntime.engine.staged ((hostEnv []).sortedBy SemVer.plain)
      "analyze").filter fun w => decide (w ≠ "1.2.0")).length = 3 := by decide
  have hactive : String.ofList ((fileName (trim
      (libraryRuntime.engine.versionDir "analyze" "1.2.0"))).getD []) = "1.2.0" := by
    decide
  unfold Engine.doomed
  rw [hactive, List.drop_eq_nil_iff]
  have hperm : ((libraryRuntime.engine.staged ((hostEnv []).sortedBy SemVer.plain)
      "analyze").mergeSort SemVer.plain.newerFirst).Perm _ := List.mergeSort_perm _ _
  exact ((hperm.filter _).length_eq.trans hothers).le

theorem libraryRuntime_left :
    libraryRuntime.engine.soLeft ((hostEnv []).sortedBy SemVer.plain) "analyze" "1.2.0" =
      some "/srv/modules/versions/analyze/1.2.0/libanalyze.so".toList := by
  unfold Engine.soLeft
  rw [libraryRuntime_doomed, if_neg List.not_mem_nil]
  decide

/-- Nobody refuses the version, which is staged; where its library does not open nothing
has changed, and where it opens the active version is not lowered. -/
theorem activation_law_release :
    refusedBy ((hostEnv []).sortedBy SemVer.plain) SemVer.plain openingHost
        libraryRuntime.engine "analyze" "1.2.0" = none ∧
      ActivationLaw ((hostEnv []).sortedBy SemVer.plain) SemVer.plain sampleHost libraryRuntime
        "analyze" "1.2.0" ∧
      ActivationLaw ((hostEnv []).sortedBy SemVer.plain) SemVer.plain openingHost libraryRuntime
        "analyze" "1.2.0" := by
  refine ⟨by decide, ?_, ?_⟩
  · refine (activation_law_iff (hostEnv []) SemVer.plain sampleHost libraryRuntime
      libraryRuntime_tree analyze newRelease).mpr ?_
    intro _ _
    unfold GoesWell
    rw [show libraryRuntime.engine.soLeft _ analyze.text newRelease.text = _ from
      libraryRuntime_left]
    refine ⟨by decide, ?_⟩
    intro _ _ _ w hw
    rw [show libraryRuntime.engine.doomed _ analyze.text newRelease.text = _ from
      libraryRuntime_doomed] at hw
    cases hw
  · refine (activation_law_iff (hostEnv []) SemVer.plain openingHost libraryRuntime
      libraryRuntime_tree analyze newRelease).mpr ?_
    intro _ _
    unfold GoesWell
    rw [show libraryRuntime.engine.soLeft _ analyze.text newRelease.text = _ from
      libraryRuntime_left]
    intro _ hnone
    exact absurd hnone (by decide)

/-- No library is found after the marker has been written. -/
theorem no_library_counterexample :
    ¬ActivationLaw ((hostEnv []).sortedBy SemVer.plain) SemVer.plain sampleHost sampleRuntime
      "analyze" "1.2.0" := by
  intro h
  have hsafe := (law_iff_safe sampleRuntime_tree analyze.plain newRelease.plain).mp h
  have hgoes := hsafe (by decide) (by decide)
  have hleft : sampleRuntime.engine.soLeft ((hostEnv []).sortedBy SemVer.plain)
      analyze.text newRelease.text = none := by
    unfold Engine.soLeft
    rw [ite_eq_left_iff]
    intro _
    decide
  unfold GoesWell at hgoes
  rw [hleft] at hgoes
  exact absurd hgoes.1 (by unfold Engine.MarkerAlready; decide)

end Sample

end ReleaseSignature

end GrServer
