import GrServer.OtaHistory

/-!
# Whole OTA histories

What a release, a staged module and an activation keep, and from it what the
boot check says in every state of a history whose active modules stay under one
release key.
-/

namespace GrServer

open Json Text LexicalPath DigestParts

namespace ReleaseSignature

section Steps

variable {env : EngineEnv} {log : List Statement} {root : Bytes} {s : OtaHistory} {e : Engine}
  {n v : String} {art : ModuleArtifact} {bytes : Bytes}

theorem StagedModule.congr {e' : Engine} (h : StagedModule env log e n v art bytes)
    (hdir : e'.modulesDir = e.modulesDir) (hpubkey : e'.pubkeyBytes = e.pubkeyBytes)
    (hkey : e'.releaseKey = e.releaseKey)
    (hread : ∀ p, e.versionAt env n v <:+ p → e'.disk.read p = e.disk.read p) :
    StagedModule env log e' n v art bytes := by
  have hat : e'.versionAt env n v = e.versionAt env n v := by
    simp only [Engine.versionAt, Engine.modules, hdir]
  have hin : ∀ file, e'.disk.read (file :: e'.versionAt env n v) =
      e.disk.read (file :: e.versionAt env n v) := by
    intro file
    rw [hat]
    exact hread _ (List.suffix_cons _ _)
  have hversionDir : e'.versionDir art.name art.version = e.versionDir art.name art.version := by
    simp only [Engine.versionDir, Engine.versionsDir, Engine.stagePath, hdir]
  constructor
  · exact h.name
  · exact h.version
  · exact
      { name := h.named.name
        version := h.named.version
        marker := by rw [hversionDir]; exact h.named.marker
        asset := h.named.asset
        so := h.named.so }
  · rw [hin]
    exact h.sidecar
  · exact h.parses
  · rw [hpubkey, hkey]
    exact h.chain
  · rw [hin]
    exact h.file
  · exact h.hash
  · exact h.signed
  · intro file hfile
    rw [hin] at hfile
    exact h.only file hfile

theorem loadReleaseBinding_self (hloads : e.unbound.loadReleaseBinding env = .ok e) :
    e.loadReleaseBinding env = .ok e := by
  obtain ⟨key, hbinds, he⟩ := loadReleaseBinding_ok_iff.mp hloads
  have hkey : e.releaseKey = key := by
    rw [he]
    exact Option.or_none
  refine loadReleaseBinding_ok_iff.mpr ⟨key, hbinds, ?_⟩
  rw [hkey, Option.or_self, ← hkey]

/-! ### Releases -/

theorem loadReleaseBinding_written {buildId : Option String} {pk : String} {nowMs : ℤ}
    {key : Bytes}
    (hread : e.disk.read (e.bindingPlace env) =
      some (asBytes (env.prettyJson (Engine.bindingJson buildId pk nowMs))))
    (hjson : env.parseJson (env.prettyJson (Engine.bindingJson buildId pk nowMs)) =
      .ok (Engine.bindingJson buildId pk nowMs))
    (hkey : env.hexDecode pk = some key) (hlen : key.length = 32) :
    e.loadReleaseBinding env = .ok { e with releaseKey := some key } := by
  have hbody : e.readText env e.bindingPath =
      some (env.prettyJson (Engine.bindingJson buildId pk nowMs)) := by
    apply readText_of_asBytes
    rw [Engine.resolve_bindingPath]
    exact hread
  refine loadReleaseBinding_ok_iff.mpr ⟨some key, ?_, rfl⟩
  rw [hbody]
  exact .named hjson (bindingJson_pubkey _ _ _) hkey hlen

theorem writeReleaseBinding_ok {man : ReleaseManifest} {pk : String} {nowMs : ℤ}
    {written loaded : Engine} (hpk : nonEmpty man.releasePubkey = some pk)
    (hwritten : (e.createDirAll env e.modulesDir).writeText env e.bindingPath
      (env.prettyJson (Engine.bindingJson man.buildId pk nowMs)) = written)
    (hload : written.loadReleaseBinding env = .ok loaded) :
    e.writeReleaseBinding env man nowMs = (.ok (), loaded) := by
  unfold Engine.writeReleaseBinding
  simp only [hpk, hwritten, hload]

def boundDisk (env : EngineEnv) (e : Engine) (man : ReleaseManifest) (pk : String) (nowMs : ℤ) :
    Disk Text :=
  (e.disk.mkdirs (e.modules env)).write (e.bindingPlace env)
    (asBytes (env.prettyJson (Engine.bindingJson man.buildId pk nowMs)))

def boundEngine (env : EngineEnv) (e : Engine) (man : ReleaseManifest) (pk : String) (nowMs : ℤ)
    (key : Option Bytes) : Engine :=
  { e with releaseKey := key, disk := boundDisk env e man pk nowMs }

theorem isSome_sig_of_chain {man : ReleaseManifest} {rel : Option Bytes} {pubkey : Bytes}
    (h : verifyManifestChain env.toOtaEnv pubkey man = .ok rel) :
    pubkey ≠ [] ∧ (nonEmpty man.sig).isSome = true := by
  obtain ⟨sig, -, hsigned⟩ := signed_of_chain h
  constructor
  · intro hnil
    have hlen := (signed_iff.mp hsigned).1
    rw [hnil] at hlen
    cases hlen
  · cases hsig : nonEmpty man.sig with
    | some sig => rfl
    | none =>
        unfold verifyManifestChain verifyManifestSig at h
        simp [hsig, bind, Except.bind] at h

theorem step_release {man : ReleaseManifest} {nowMs : ℤ} {key : Bytes}
    (hchain : verifyManifestChain env.toOtaEnv s.engine.pubkeyBytes man = .ok (some key))
    (hjson : ∀ pk, nonEmpty man.releasePubkey = some pk →
      env.parseJson (env.prettyJson (Engine.bindingJson man.buildId pk nowMs)) =
        .ok (Engine.bindingJson man.buildId pk nowMs)) :
    ∃ pk, s.step env (.release man nowMs) =
        ⟨boundEngine env s.engine man pk nowMs (some key),
          if some key = s.engine.releaseKey then s.current else []⟩ ∧
      (boundEngine env s.engine man pk nowMs (some key)).unbound.loadReleaseBinding env =
        .ok (boundEngine env s.engine man pk nowMs (some key)) := by
  obtain ⟨hpubkey, hsig⟩ := isSome_sig_of_chain hchain
  rcases verifyManifestChain_ok hchain with ⟨-, hnone⟩ | ⟨pk, bound, hpk, hsome, hraw, hlen, -, -⟩
  · cases hnone
  · cases hsome
    have hasked : s.engine.pubkeyBytes ≠ [] ∧ (nonEmpty man.sig).isSome = true := ⟨hpubkey, hsig⟩
    have hload : s.engine.loadManifestFile env (.ok man) =
        (.ok man, { s.engine with releaseKey := some key }) := by
      simp only [Engine.loadManifestFile, if_pos hasked, Engine.adoptManifest, hchain]
    have hread : ∀ k, (boundEngine env s.engine man pk nowMs k).disk.read
        (s.engine.bindingPlace env) =
          some (asBytes (env.prettyJson (Engine.bindingJson man.buildId pk nowMs))) := by
      intro k
      show (boundDisk env s.engine man pk nowMs).read (s.engine.bindingPlace env) = _
      unfold boundDisk
      rw [Disk.read_write, if_pos rfl]
    have hloaded : ∀ k, (boundEngine env s.engine man pk nowMs k).loadReleaseBinding env =
        .ok (boundEngine env s.engine man pk nowMs (some key)) := by
      intro k
      exact loadReleaseBinding_written (hread k) (hjson pk hpk) hraw hlen
    have hwritten : (({ s.engine with releaseKey := some key } : Engine).createDirAll env
        s.engine.modulesDir).writeText env s.engine.bindingPath
          (env.prettyJson (Engine.bindingJson man.buildId pk nowMs)) =
        boundEngine env s.engine man pk nowMs (some key) := by
      simp only [Engine.writeText, Engine.createDirAll, Engine.resolve_bindingPath, boundEngine,
        boundDisk]
      rfl
    refine ⟨pk, ?_, hloaded none⟩
    have hwrite := writeReleaseBinding_ok hpk hwritten (hloaded (some key))
    simp only [OtaHistory.step, hload, hwrite]
    rfl

theorem read_boundDisk {man : ReleaseManifest} {pk : String} {nowMs : ℤ} {p : List Text}
    (hp : p ≠ e.bindingPlace env) : (boundDisk env e man pk nowMs).read p = e.disk.read p := by
  unfold boundDisk
  rw [Disk.read_write, if_neg hp, Disk.read_mkdirs]

theorem isDir_boundDisk {man : ReleaseManifest} {pk : String} {nowMs : ℤ} {q : List Text} :
    (boundDisk env e man pk nowMs).isDir q = true ↔
      q <:+ e.modules env ∨ e.disk.isDir q = true :=
  Disk.isDir_mkdirs

theorem mem_markers_congr {e' : Engine} (hdir : e'.modulesDir = e.modulesDir)
    (hread : ∀ name, e'.disk.read (e.markerAt env name) = e.disk.read (e.markerAt env name))
    {name : Text} : name ∈ e'.markers env ↔ name ∈ e.markers env := by
  have hat : e'.markerAt env name = e.markerAt env name := by
    simp only [Engine.markerAt, Engine.modules, hdir]
  rw [Engine.mem_markers, Engine.mem_markers, hat, hread]

theorem HistoryInv.release {man : ReleaseManifest} {nowMs : ℤ} (hinv : HistoryInv env log root s)
    (hguard : HistoryGuarded env s (.release man nowMs)) :
    HistoryInv env log root (s.step env (.release man nowMs)) := by
  obtain ⟨⟨key, hchain, halone⟩, hjson⟩ := hguard
  obtain ⟨pk, hstep, hloads⟩ := step_release hchain hjson
  have hvk : key.length = 32 ∧ env.keyFromBytes key = .ok () := by
    rcases verifyManifestChain_ok hchain with ⟨-, hnone⟩ | ⟨_, _, -, hsome, -, hlen, hkey, -⟩
    · cases hnone
    · cases hsome
      exact ⟨hlen, hkey⟩
  have hmarker : ∀ name, (boundDisk env s.engine man pk nowMs).read (s.engine.markerAt env name) =
      s.engine.disk.read (s.engine.markerAt env name) :=
    fun _ => read_boundDisk Engine.markerAt_ne_bindingPlace
  have hmarkers : ∀ name, name ∈ (boundEngine env s.engine man pk nowMs (some key)).markers env ↔
      name ∈ s.engine.markers env := by
    intro name
    apply mem_markers_congr (e := s.engine)
    · rfl
    · exact hmarker
  rw [hstep]
  constructor
  · exact hinv.pubkey
  · exact hloads
  · simp only [boundEngine, Engine.releaseVk, hvk.1, hvk.2, ne_eq, not_true_eq_false, if_false]
  · intro n v hcurrent
    by_cases hkey : some key = s.engine.releaseKey
    · rw [if_pos hkey] at hcurrent
      have hnamed := hinv.named n v hcurrent
      exact ⟨hnamed.name, hnamed.version, hnamed.marker⟩
    · rw [if_neg hkey] at hcurrent
      cases hcurrent
  · intro n v hcurrent hdir
    by_cases hkey : some key = s.engine.releaseKey
    · rw [if_pos hkey] at hcurrent
      have hwas : s.engine.disk.isDir (s.engine.versionAt env n v) = true := by
        rcases isDir_boundDisk.mp hdir with hsuffix | hwas
        · exact absurd (hsuffix.trans (List.suffix_cons _ _)) Engine.not_suffix_active
        · exact hwas
      obtain ⟨art, bytes, hmodule⟩ := hinv.staged n v hcurrent hwas
      refine ⟨art, bytes, hmodule.congr rfl rfl hkey ?_⟩
      intro p hp
      apply read_boundDisk
      rintro rfl
      exact Engine.not_suffix_bindingPlace hp
    · rw [if_neg hkey] at hcurrent
      cases hcurrent
  · intro name hname
    have hbefore := (hmarkers name).mp hname
    rcases halone with hnone | hsame
    · rw [hnone] at hbefore
      cases hbefore
    · obtain ⟨v, hactive⟩ := hinv.active name hbefore
      refine ⟨v, ?_, ?_, ?_⟩
      · rw [if_pos hsame.symm]
        exact hactive.current
      · exact isDir_boundDisk.mpr (Or.inr hactive.dir)
      · exact (hmarker name).trans hactive.marker
  · intro hsome
    apply isDir_boundDisk.mpr
    right
    apply hinv.activeDir
    obtain ⟨name, hname⟩ := List.exists_mem_of_ne_nil _ hsome
    exact List.ne_nil_of_mem ((hmarkers name).mp hname)

theorem isDir_placeModule {nanos : ℕ} {q : List Text} :
    (e.placeModule env art bytes nanos).disk.isDir q = true ↔
      q <:+ e.versionPlace env art ∨ e.disk.isDir q = true := by
  show (((((e.disk.mkdirs (e.versionPlace env art)).write (e.tmpPlace env art nanos) bytes).rename
    (e.tmpPlace env art nanos) (e.destPlace env art)).write (e.metaPlace env art)
      (asBytes (env.prettyArtifact art))).isDir q) = true ↔ _
  rw [Disk.isDir_write, Disk.isDir_rename, Disk.isDir_write, Disk.isDir_mkdirs]

theorem stagedModule_placed {nanos : ℕ} (hnamed : Engine.WellNamed e art)
    (hparses : env.parseArtifact (env.prettyArtifact art) = .ok art)
    (hsole : ∀ file, (e.disk.read (file :: e.versionAt env art.name art.version)).isSome = true →
      extension file = some "so".toList → file = art.asset.toList)
    (hchecked : Checked env e art bytes) (hsigned : RootSigned log art) :
    StagedModule env log (e.placeModule env art bytes nanos) art.name art.version art bytes := by
  have hmeta : e.metaPlace env art =
      "meta.json".toList :: e.versionAt env art.name art.version := Engine.metaPlace_eq hnamed
  have hdest : e.destPlace env art =
      art.asset.toList :: e.versionAt env art.name art.version := Engine.destPlace_eq hnamed
  have hapart : e.destPlace env art ≠ e.metaPlace env art := by
    rw [hmeta, hdest]
    intro hsame
    exact hnamed.asset_ne_meta (List.cons.inj hsame).1
  constructor
  · rfl
  · rfl
  · exact
      { name := hnamed.name
        version := hnamed.version
        marker := hnamed.marker
        asset := hnamed.asset
        so := hnamed.so }
  · show (e.placeModule env art bytes nanos).disk.read
      ("meta.json".toList :: e.versionAt env art.name art.version) = _
    rw [← hmeta, Engine.read_placeModule, if_pos rfl]
  · exact hparses
  · exact hchecked.chain
  · show (e.placeModule env art bytes nanos).disk.read
      (art.asset.toList :: e.versionAt env art.name art.version) = _
    rw [← hdest, Engine.read_placeModule, if_neg hapart, if_pos rfl]
  · exact hchecked.hash
  · exact hsigned
  · intro file hfile hso
    have hplaced : ((e.placeModule env art bytes nanos).disk.read
        (file :: e.versionAt env art.name art.version)).isSome = true := hfile
    rw [Engine.read_placeModule, hmeta, hdest] at hplaced
    by_cases hsidecar : file = "meta.json".toList
    · rw [hsidecar] at hso
      exact absurd hso (by decide)
    · by_cases hasset : file = art.asset.toList
      · exact hasset
      · have hneMeta : file :: e.versionAt env art.name art.version ≠
            "meta.json".toList :: e.versionAt env art.name art.version :=
          fun h => hsidecar (List.cons.inj h).1
        have hneDest : file :: e.versionAt env art.name art.version ≠
            art.asset.toList :: e.versionAt env art.name art.version :=
          fun h => hasset (List.cons.inj h).1
        rw [if_neg hneMeta, if_neg hneDest] at hplaced
        split at hplaced
        · cases hplaced
        · exact hsole file hplaced hso

theorem HistoryInv.stage {src : Text} {data : Option Bytes} {runtimeVer : String} {nanos : ℕ}
    (hinv : HistoryInv env log root s) (hroot : RootKey env root log)
    (hjson : JsonText env.toOtaEnv (log.flatMap Statement.bodies))
    (hguard : HistoryGuarded env s (.stage art src data runtimeVer nanos)) :
    HistoryInv env log root (s.step env (.stage art src data runtimeVer nanos)) := by
  obtain ⟨hnamed, hlegacy, hparses, hsole⟩ := hguard
  have hself := loadReleaseBinding_self hinv.loads
  cases hchecks : s.engine.stageChecks env art src data runtimeVer with
  | error err =>
      have hstep : s.step env (.stage art src data runtimeVer nanos) = s := by
        simp only [OtaHistory.step, Engine.stageLocalFile, hself, hchecks]
      rw [hstep]
      exact hinv
  | ok bytes =>
      have hstep : s.step env (.stage art src data runtimeVer nanos) =
          ⟨s.engine.placeModule env art bytes nanos, (art.name, art.version) :: s.current⟩ := by
        simp only [OtaHistory.step, Engine.stageLocalFile, hself, hchecks]
      have hchecked := stageChecks_ok hchecks
      have hsigned : RootSigned log art := by
        have haccepted := hchecked.root
        rw [hinv.pubkey] at haccepted hlegacy
        exact rootSigned_of_accepted hroot hjson hlegacy haccepted
      have hpaths := hnamed.pathsBelow
      have hplaced : ∀ p, (s.engine.placeModule env art bytes nanos).disk.read p ≠
          s.engine.disk.read p → s.engine.versionAt env art.name art.version <:+ p := by
        intro p hp
        rw [← Engine.versionPlace_eq hnamed]
        exact Engine.suffix_of_placed hpaths hp
      have hkept : ∀ p, ¬ s.engine.versionAt env art.name art.version <:+ p →
          (s.engine.placeModule env art bytes nanos).disk.read p = s.engine.disk.read p := by
        intro p hp
        by_contra hchanged
        exact hp (hplaced p hchanged)
      have hmarkers : ∀ name, name ∈ (s.engine.placeModule env art bytes nanos).markers env ↔
          name ∈ s.engine.markers env := by
        intro name
        apply mem_markers_congr (e := s.engine)
        · rfl
        · exact fun _ => hkept _ Engine.not_suffix_markerAt
      have hbinding := hkept _ (Engine.not_suffix_bindingPlace)
      have hloads := loadReleaseBinding_congr hbinding hinv.loads
      rw [hstep]
      constructor
      · exact hinv.pubkey
      · exact hloads
      · exact hinv.vk
      · intro n v hcurrent
        rcases List.mem_cons.mp hcurrent with hnew | hold
        · cases hnew
          exact ⟨hnamed.name, hnamed.version, hnamed.marker⟩
        · have hold' := hinv.named n v hold
          exact ⟨hold'.name, hold'.version, hold'.marker⟩
      · intro n v hcurrent hdir
        by_cases hnew : n = art.name ∧ v = art.version
        · rw [hnew.1, hnew.2]
          exact ⟨art, bytes, stagedModule_placed hnamed hparses hsole hchecked hsigned⟩
        · have hold : (n, v) ∈ s.current := by
            rcases List.mem_cons.mp hcurrent with hsame | hold
            · cases hsame
              exact absurd ⟨rfl, rfl⟩ hnew
            · exact hold
          have hwas : s.engine.disk.isDir (s.engine.versionAt env n v) = true := by
            rcases isDir_placeModule.mp hdir with hsuffix | hwas
            · rw [Engine.versionPlace_eq hnamed] at hsuffix
              exact absurd (Engine.versionAt_inj hsuffix (List.suffix_refl _)) hnew
            · exact hwas
          obtain ⟨art', bytes', hmodule⟩ := hinv.staged n v hold hwas
          refine ⟨art', bytes', hmodule.congr rfl rfl rfl ?_⟩
          intro p hp
          apply hkept
          intro hp'
          exact hnew (Engine.versionAt_inj hp hp')
      · intro name hname
        obtain ⟨v, hactive⟩ := hinv.active name ((hmarkers name).mp hname)
        refine ⟨v, List.mem_cons_of_mem _ hactive.current, ?_, ?_⟩
        · exact isDir_placeModule.mpr (Or.inr hactive.dir)
        · exact (hkept _ Engine.not_suffix_markerAt).trans hactive.marker
      · intro hsome
        apply isDir_placeModule.mpr
        right
        apply hinv.activeDir
        obtain ⟨name, hname⟩ := List.exists_mem_of_ne_nil _ hsome
        exact List.ne_nil_of_mem ((hmarkers name).mp hname)

/-! ### Activations -/

theorem disk_activate (hnamed : Engine.Named e n v)
    (hdir : e.isDir env (e.versionDir n v) = true) :
    ∃ doomed : List String, v ∉ doomed ∧ (e.activate env n v).2.disk =
      doomed.foldl (fun disk w => disk.removeTree (e.versionAt env n w))
        ((e.disk.mkdirs ("active".toList :: e.modules env)).write (e.markerAt env n.toList)
          (asBytes (String.ofList (e.versionDir n v ++ ['\n'])))) := by
  have hlink : resolve env.cwd (e.activeLink n) = e.markerAt env n.toList :=
    Engine.resolve_marker hnamed.name
  have hversions : resolve env.cwd (e.versionsDir n) =
      n.toList :: "versions".toList :: e.modules env := by
    rw [← Engine.resolve_stagePath Engine.plain_versions]
    exact hnamed.name.resolve
  have hmarked : (e.createDirAll env (e.stagePath "active")).writeText env (e.activeLink n)
      (String.ofList (e.versionDir n v ++ ['\n'])) =
        e.withDisk ((e.disk.mkdirs ("active".toList :: e.modules env)).write
          (e.markerAt env n.toList) (asBytes (String.ofList (e.versionDir n v ++ ['\n'])))) := by
    simp only [Engine.writeText, Engine.createDirAll, hlink,
      Engine.resolve_stagePath Engine.plain_active]
    rfl
  generalize hdisk : (e.disk.mkdirs ("active".toList :: e.modules env)).write
    (e.markerAt env n.toList) (asBytes (String.ofList (e.versionDir n v ++ ['\n']))) = disk
      at hmarked ⊢
  have hactive : (e.withDisk disk).activeVersion env n = v := by
    apply activeVersion_of_marker (hnamed.withDisk disk)
    apply readText_of_asBytes
    show disk.read (resolve env.cwd (e.activeLink n)) = _
    rw [hlink, ← hdisk, Disk.read_write, if_pos rfl]
    rfl
  have hactivate : (e.activate env n v).2 =
      ((e.withDisk disk).pruneVersions env n keepRollbackVersions).2 := by
    simp only [Engine.activate, hdir, if_true, hmarked]
  rw [hactivate]
  unfold Engine.pruneVersions
  by_cases hpruned : (e.withDisk disk).isDir env ((e.withDisk disk).versionsDir n) = true
  · refine ⟨(e.withDisk disk).prunable env n keepRollbackVersions, ?_, ?_⟩
    · intro hmem
      have hkept := List.mem_of_mem_drop hmem
      rw [hactive] at hkept
      simp at hkept
    · rw [if_pos hpruned]
      show (((e.withDisk disk).prunable env n keepRollbackVersions).foldl (fun disk w =>
        disk.removeTree (w.toList :: resolve env.cwd (e.versionsDir n))) disk) = _
      rw [hversions]
      rfl
  · refine ⟨[], List.not_mem_nil, ?_⟩
    rw [if_neg hpruned]
    rfl

/-- The disk after `v` was activated and the versions `doomed` were pruned. -/
structure Activated (env : EngineEnv) (e : Engine) (n v : String) (doomed : List String)
    (disk : Disk Text) : Prop where
  kept : v ∉ doomed
  /-- What lies below no pruned version is as it was, apart from the marker. -/
  read : ∀ p, (∀ w ∈ doomed, ¬ e.versionAt env n w <:+ p) →
    disk.read p = if p = e.markerAt env n.toList then
      some (asBytes (String.ofList (e.versionDir n v ++ ['\n']))) else e.disk.read p
  isDir : ∀ q, disk.isDir q = true ↔
    (q <:+ "active".toList :: e.modules env ∨ e.disk.isDir q = true) ∧
      ∀ w ∈ doomed, ¬ e.versionAt env n w <:+ q

theorem activated (hnamed : Engine.Named e n v) (hdir : e.isDir env (e.versionDir n v) = true) :
    ∃ doomed, Activated env e n v doomed (e.activate env n v).2.disk := by
  obtain ⟨doomed, hkept, hdisk⟩ := disk_activate hnamed hdir
  refine ⟨doomed, hkept, ?_, ?_⟩
  · intro p hp
    rw [hdisk, Engine.read_foldl_removeTree doomed hp, Disk.read_write, Disk.read_mkdirs]
  · intro q
    rw [hdisk, Engine.isDir_foldl_removeTree, Disk.isDir_write, Disk.isDir_mkdirs]

namespace Activated

variable {doomed : List String} {disk : Disk Text} {n' v' : String}

theorem marker (h : Activated env e n v doomed disk) (name : Text) :
    disk.read (e.markerAt env name) =
      if name = n.toList then some (asBytes (String.ofList (e.versionDir n v ++ ['\n'])))
      else e.disk.read (e.markerAt env name) := by
  rw [h.read _ fun _ _ => Engine.not_suffix_markerAt]
  by_cases hname : name = n.toList
  · rw [if_pos hname, if_pos (by rw [hname])]
  · have hother : e.markerAt env name ≠ e.markerAt env n.toList :=
      fun h => hname (List.cons.inj h).1
    rw [if_neg hname, if_neg hother]

theorem activeDir (h : Activated env e n v doomed disk) :
    disk.isDir ("active".toList :: e.modules env) = true :=
  (h.isDir _).mpr ⟨Or.inl (List.suffix_refl _), fun _ _ => Engine.not_suffix_active⟩

theorem stood (h : Activated env e n v doomed disk)
    (hdir : disk.isDir (e.versionAt env n' v') = true) :
    e.disk.isDir (e.versionAt env n' v') = true := by
  rcases ((h.isDir _).mp hdir).1 with hsuffix | hwas
  · exact absurd hsuffix Engine.not_suffix_active
  · exact hwas

theorem staged (h : Activated env e n v doomed disk)
    (hdir : disk.isDir (e.versionAt env n' v') = true)
    (hmodule : StagedModule env log e n' v' art bytes) :
    StagedModule env log (e.withDisk disk) n' v' art bytes := by
  have hread : ∀ p, e.versionAt env n' v' <:+ p →
      (e.withDisk disk).disk.read p = e.disk.read p := by
    intro p hp
    have hbelow : ∀ w ∈ doomed, ¬ e.versionAt env n w <:+ p := by
      intro w hw hp'
      obtain ⟨hn, hv⟩ := Engine.versionAt_inj hp' hp
      exact ((h.isDir _).mp hdir).2 w hw (by rw [← hn, hv])
    have hnotMarker : p ≠ e.markerAt env n.toList := by
      rintro rfl
      exact Engine.not_suffix_markerAt hp
    show disk.read p = _
    rw [h.read p hbelow, if_neg hnotMarker]
  exact hmodule.congr rfl rfl rfl hread

theorem active_self (h : Activated env e n v doomed disk) (hnamed : Engine.Named e n v)
    (hdir : e.isDir env (e.versionDir n v) = true) {current : List (String × String)}
    (hcurrent : (n, v) ∈ current) :
    ActiveModule env ⟨e.withDisk disk, current⟩ n.toList v := by
  have hback : String.ofList n.toList = n := String.ofList_toList
  refine ⟨by rw [hback]; exact hcurrent, ?_, ?_⟩
  · rw [hback]
    apply (h.isDir _).mpr
    have hplace := @Engine.resolve_versionDir env e n v hnamed
    refine ⟨Or.inr ?_, ?_⟩
    · show e.disk.isDir (e.versionAt env n v) = true
      rw [← hplace]
      exact hdir
    · intro w hw hsuffix
      have hsame := (Engine.versionAt_inj hsuffix (List.suffix_refl _)).2
      rw [hsame] at hw
      exact h.kept hw
  · rw [hback]
    show disk.read (e.markerAt env n.toList) = _
    rw [h.marker, if_pos rfl]
    rfl

theorem active_other {current : List (String × String)}
    (h : Activated env e n v doomed disk) {name : Text} (hname : name ≠ n.toList)
    (hactive : ActiveModule env ⟨e, current⟩ name v') :
    ActiveModule env ⟨e.withDisk disk, current⟩ name v' := by
  refine ⟨hactive.current, ?_, ?_⟩
  · apply (h.isDir _).mpr
    refine ⟨Or.inr hactive.dir, ?_⟩
    intro w _ hsuffix
    have hsame := (Engine.versionAt_inj hsuffix (List.suffix_refl _)).1
    exact hname (by rw [hsame, String.toList_ofList])
  · show disk.read (e.markerAt env name) = _
    rw [h.marker, if_neg hname]
    exact hactive.marker

end Activated

theorem HistoryInv.activate (hinv : HistoryInv env log root s)
    (hguard : HistoryGuarded env s (.activate n v)) :
    HistoryInv env log root (s.step env (.activate n v)) := by
  by_cases hdir : s.engine.isDir env (s.engine.versionDir n v) = true
  · have hcurrent := hguard hdir
    have hnamed := hinv.named n v hcurrent
    obtain ⟨doomed, hactivated⟩ := activated hnamed hdir
    have hsame := @Engine.activate_same env s.engine n v
    have hbinding := @Engine.binding_activate env s.engine n v
      (Below.of_noSlash hnamed.name.noSlash hnamed.name.notParent)
    generalize hafter : (s.engine.activate env n v).2.disk = disk at hsame hactivated hbinding
    have hstep : s.step env (.activate n v) = ⟨s.engine.withDisk disk, s.current⟩ := by
      simp only [OtaHistory.step, hsame]
      rfl
    rw [hstep]
    constructor
    · exact hinv.pubkey
    · exact loadReleaseBinding_congr hbinding hinv.loads
    · exact hinv.vk
    · intro n' v' hcurrent'
      exact (hinv.named n' v' hcurrent').withDisk disk
    · intro n' v' hcurrent' hdir'
      obtain ⟨art, bytes, hmodule⟩ := hinv.staged n' v' hcurrent' (hactivated.stood hdir')
      exact ⟨art, bytes, hactivated.staged hdir' hmodule⟩
    · intro name hname
      by_cases hsameName : name = n.toList
      · rw [hsameName]
        exact ⟨v, hactivated.active_self hnamed hdir hcurrent⟩
      · have hbefore : name ∈ s.engine.markers env := by
          rw [Engine.mem_markers] at hname ⊢
          have hread : disk.read (s.engine.markerAt env name) =
              s.engine.disk.read (s.engine.markerAt env name) := by
            rw [hactivated.marker, if_neg hsameName]
          rw [← hread]
          exact hname
        obtain ⟨v', hactive⟩ := hinv.active name hbefore
        exact ⟨v', hactivated.active_other hsameName hactive⟩
    · intro _
      exact hactivated.activeDir
  · have hstep : s.step env (.activate n v) = s := by
      simp only [OtaHistory.step, Engine.activate, hdir, Bool.false_eq_true, if_false]
    rw [hstep]
    exact hinv

end Steps

theorem HistoryInv.step {env : EngineEnv} {log : List Statement} {root : Bytes} {s : OtaHistory}
    {x : HistoryStep} (hinv : HistoryInv env log root s) (hroot : RootKey env root log)
    (hjson : JsonText env.toOtaEnv (log.flatMap Statement.bodies))
    (hguard : HistoryGuarded env s x) : HistoryInv env log root (s.step env x) := by
  cases x with
  | release man nowMs => exact hinv.release hguard
  | stage art src data runtimeVer nanos => exact hinv.stage hroot hjson hguard
  | activate name version => exact hinv.activate hguard

structure Fresh (env : EngineEnv) (e : Engine) : Prop where
  unbound : e.releaseKey = none
  empty : ∀ p, e.modules env <:+ p → e.disk.read p = none

theorem Fresh.inv {env : EngineEnv} {log : List Statement} {e : Engine} (h : Fresh env e) :
    HistoryInv env log e.pubkeyBytes ⟨e, []⟩ := by
  have hmarkers : e.markers env = [] := by
    apply List.eq_nil_iff_forall_not_mem.mpr
    intro name hname
    have hnone := h.empty (e.markerAt env name)
      ((List.suffix_cons _ _).trans (List.suffix_cons _ _))
    rw [Engine.mem_markers, hnone] at hname
    cases hname
  have hunbound : e.unbound = e := by
    unfold Engine.unbound
    rw [← h.unbound]
  have hbody : e.readText env e.bindingPath = none := by
    unfold Engine.readText
    rw [Engine.resolve_bindingPath, h.empty (e.bindingPlace env) (List.suffix_cons _ _)]
    rfl
  constructor
  · rfl
  · show e.unbound.loadReleaseBinding env = .ok e
    rw [hunbound]
    simp only [Engine.loadReleaseBinding, hbody]
  · simp only [Engine.releaseVk, h.unbound]
  · intro n v hcurrent
    cases hcurrent
  · intro n v hcurrent
    cases hcurrent
  · intro name hname
    rw [hmarkers] at hname
    cases hname
  · intro hsome
    exact absurd hmarkers hsome

/-- In every state of a guarded history the boot check verifies every active
module, and notices what is done to one under kept markers. -/
theorem boot_check_sound {env : EngineEnv} {log : List Statement} {e : Engine}
    {steps : List HistoryStep} (hroot : RootKey env e.pubkeyBytes log) (hone : OnePerVersion log)
    (hjson : JsonText env.toOtaEnv (log.flatMap Statement.bodies))
    (hlower : ∀ b, lowered (env.sha256Hex b) = env.sha256Hex b) (hfresh : Fresh env e)
    (hguarded : Along (OtaHistory.step env) (HistoryGuarded env) ⟨e, []⟩ steps) :
    AllVerified env (runFrom (OtaHistory.step env) ⟨e, []⟩ steps).engine ∧
      TamperNoticed env (runFrom (OtaHistory.step env) ⟨e, []⟩ steps).engine := by
  have hinv : HistoryInv env log e.pubkeyBytes (runFrom (OtaHistory.step env) ⟨e, []⟩ steps) := by
    apply hguarded.invariant (I := HistoryInv env log e.pubkeyBytes) _ hfresh.inv
    intro s x hs hx
    exact hs.step hroot hjson hx
  exact ⟨hinv.allVerified, hinv.tamperNoticed hroot hone hjson hlower⟩

section Partial

variable {env : EngineEnv} {log : List Statement} {root : Bytes} {s : OtaHistory}

theorem mem_markers_activate {e : Engine} {n v : String} (hnamed : Engine.Named e n v)
    (hdir : e.isDir env (e.versionDir n v) = true) :
    n.toList ∈ (e.activate env n v).2.markers env := by
  obtain ⟨doomed, -, hdisk⟩ := disk_activate hnamed hdir
  have hsame := @Engine.activate_same env e n v
  rw [Engine.mem_markers, hdisk, hsame, Engine.read_foldl_removeTree]
  · have hplace : Engine.markerAt env { e with disk := (e.activate env n v).2.disk } n.toList =
        e.markerAt env n.toList := rfl
    rw [hplace, Disk.read_write, if_pos rfl]
    rfl
  · intro w _
    exact Engine.not_suffix_markerAt

theorem boot_fails_after_release {man : ReleaseManifest} {nowMs : ℤ} {key : Bytes} {name : Text}
    (hinv : HistoryInv env log root s) (hname : name ∈ s.engine.markers env)
    (hchain : verifyManifestChain env.toOtaEnv s.engine.pubkeyBytes man = .ok (some key))
    (hjson : ∀ pk, nonEmpty man.releasePubkey = some pk →
      env.parseJson (env.prettyJson (Engine.bindingJson man.buildId pk nowMs)) =
        .ok (Engine.bindingJson man.buildId pk nowMs))
    (hother : ∀ art sig2, ¬ Signed env.toOtaEnv key (artifactSignMessage art) sig2) :
    ∃ err, (s.step env (.release man nowMs)).engine.otaVerifyActiveModules env = .error err := by
  obtain ⟨pk, hstep, hloads⟩ := step_release hchain hjson
  obtain ⟨v, art, bytes, hseen⟩ := hinv.seen hname
  rw [hstep]
  have hvk : key.length = 32 ∧ env.keyFromBytes key = .ok () := by
    rcases verifyManifestChain_ok hchain with ⟨-, hnone⟩ | ⟨_, _, -, hsome, -, hlen, hkey, -⟩
    · cases hnone
    · cases hsome
      exact ⟨hlen, hkey⟩
  generalize he : boundEngine env s.engine man pk nowMs (some key) = e at hloads ⊢
  have hread : ∀ p, p ≠ s.engine.bindingPlace env → e.disk.read p = s.engine.disk.read p := by
    intro p hp
    rw [← he]
    exact read_boundDisk hp
  have hkey : e.releaseKey = some key := by
    rw [← he]
    rfl
  have hdirs : ∀ q, s.engine.disk.isDir q = true → e.disk.isDir q = true := by
    intro q hq
    rw [← he]
    exact isDir_boundDisk.mpr (Or.inr hq)
  have hmodules : e.modulesDir = s.engine.modulesDir := by
    rw [← he]
    rfl
  have hactive : e.stagePath "active" = s.engine.stagePath "active" := by
    unfold Engine.stagePath
    rw [hmodules]
  have htext : ∀ path, resolve env.cwd path ≠ s.engine.bindingPlace env →
      e.readText env path = s.engine.readText env path := by
    intro path hpath
    unfold Engine.readText
    rw [hread _ hpath]
  -- the marker and the sidecar are where they were
  have hmarker : e.readText env (pathJoin (e.stagePath "active") name) =
      some (String.ofList (s.engine.versionDir (String.ofList name) v ++ ['\n'])) := by
    rw [hactive, htext _ _]
    · exact hseen.marker
    · rw [Engine.resolve_marker hseen.plain]
      exact Engine.markerAt_ne_bindingPlace
  have hsidecar : e.loadedArtifact env (s.engine.versionDir (String.ofList name) v) = some art := by
    unfold Engine.loadedArtifact
    rw [htext _ _]
    · exact hseen.sidecar
    · rw [Engine.resolve_inVersion hseen.named Engine.plain_meta]
      intro hsame
      apply @Engine.not_suffix_bindingPlace env s.engine (String.ofList name) v
      rw [← hsame]
      exact List.suffix_cons _ _
  have hisDir : e.isDir env (e.stagePath "active") = true := by
    unfold Engine.isDir
    rw [hactive]
    apply hdirs
    rw [Engine.resolve_stagePath Engine.plain_active]
    exact hinv.activeDir (List.ne_nil_of_mem hname)
  have hlisted : name ∈ e.markers env := by
    rw [Engine.mem_markers]
    have hat : e.markerAt env name = s.engine.markerAt env name := by
      simp only [Engine.markerAt, Engine.modules, hmodules]
    rw [hat, hread _ Engine.markerAt_ne_bindingPlace, ← Engine.mem_markers]
    exact hname
  have hvk' : e.releaseVk env = .ok e.releaseKey := by
    simp only [Engine.releaseVk, hkey, hvk.1, hvk.2, ne_eq, not_true_eq_false, if_false]
  rw [otaVerifyActiveModules_eq hloads hvk', verifyMarkers_of_isDir hisDir]
  cases hall : (e.markers env).mapM (e.verifyActive env e.releaseKey) with
  | error err => exact ⟨err, rfl⟩
  | ok listed =>
      obtain ⟨entry, hentry⟩ := ok_of_mapM_ok hall hlisted
      obtain ⟨marker, hmarker', -, haccepted⟩ := accepted_of_verifyActive hentry
      rw [hmarker, Option.some.injEq] at hmarker'
      rw [← hmarker', trim_marker hseen.named] at haccepted
      have hchain' := (haccepted art hsidecar).1
      obtain ⟨sig2, -, hsigned⟩ := (verifyArtifactSigChain_ok hchain').2 key hkey
      exact absurd hsigned (hother art sig2)

end Partial

/-! ## A release and a runtime-only one after it -/

theorem releaseLog_onePerVersion : OnePerVersion releaseLog := by
  intro x hx y hy a b ha hb _ _
  have hartifact : ∀ z ∈ releaseLog, ∀ c, z.artifact? = some c → c = signedTwice := by
    intro z hz c hc
    simp only [releaseLog, List.mem_cons, List.not_mem_nil, or_false] at hz
    rcases hz with rfl | rfl | rfl | rfl | rfl <;> cases hc
    rfl
  rw [hartifact x hx a ha, hartifact y hy b hb]
  exact ⟨rfl, rfl⟩

theorem releaseEnv_lower (b : Bytes) :
    lowered (releaseEnv.sha256Hex b) = releaseEnv.sha256Hex b := by
  by_cases hb : b = []
  · simp only [releaseEnv, hb, if_true]
    decide
  · simp only [releaseEnv, if_neg hb]
    decide

theorem secondRelease_verifies : verifyManifestChain releaseEnv.toOtaEnv sampleRoot secondRelease =
    .ok (some (keyRaw 8)) := by
  have hbody : Signed releaseEnv.toOtaEnv sampleRoot
      (manifestSignMessage releaseEnv.toOtaEnv secondRelease) (sigText "BQUF" "BQ==") := by
    have hmessage : manifestSignMessage releaseEnv.toOtaEnv secondRelease = secondText :=
      releaseEnv_toVec.2
    rw [hmessage]
    exact @signed_of_signerOf _ _ (sigRaw 5) _ List.length_replicate (by decide)
      List.length_replicate rfl
  have hcert : Signed releaseEnv.toOtaEnv sampleRoot
      (releaseCertMessage "6.0.21" "b2" (keyHex '8')) (sigText "BgYG" "Bg==") :=
    @signed_of_signerOf _ _ (sigRaw 6) _ List.length_replicate (by decide)
      List.length_replicate rfl
  exact chain_of_signed (by decide) hbody rfl (by decide) (by decide) (by decide) hcert (by decide)
    List.length_replicate rfl

def firstSteps : List HistoryStep :=
  [.release firstRelease 0, .stage signedTwice "/in.so".toList (some []) "6.0.21" 0,
    .activate "analyze" "1.0.0"]

theorem freshEngine_fresh (env : EngineEnv) : Fresh env freshEngine := by
  constructor
  · rfl
  · intro p _
    rfl

theorem signedTwice_named {e : Engine} (h : e.modulesDir = freshEngine.modulesDir) :
    Engine.WellNamed e signedTwice := by
  have hplain : Plain "analyze".toList ∧ Plain "1.0.0".toList ∧ Plain "libanalyze.so".toList := by
    refine ⟨?_, ?_, ?_⟩ <;> constructor <;> decide
  have hmarker : trim (e.versionDir "analyze" "1.0.0") = e.versionDir "analyze" "1.0.0" := by
    have hdir : e.versionDir "analyze" "1.0.0" = freshEngine.versionDir "analyze" "1.0.0" := by
      simp only [Engine.versionDir, Engine.versionsDir, Engine.stagePath, h]
    rw [hdir]
    decide
  exact
    { name := hplain.1
      version := hplain.2.1
      marker := hmarker
      asset := hplain.2.2
      so := by decide }

theorem signedTwice_checked {e : Engine} (hpubkey : e.pubkeyBytes = sampleRoot)
    (hkey : e.releaseKey = some (keyRaw 9)) :
    e.stageChecks releaseEnv signedTwice "/in.so".toList (some []) "6.0.21" = .ok [] := by
  have hroot : Signed releaseEnv.toOtaEnv sampleRoot (artifactSignMessage signedTwice)
      signedTwice.sig :=
    @signed_of_signerOf _ _ (sigRaw 1) _ List.length_replicate (by decide)
      List.length_replicate rfl
  have hrelease : Signed releaseEnv.toOtaEnv (keyRaw 9)
      (artifactSignMessage signedTwice) (sigText "BAQE" "BA==") :=
    @signed_of_signerOf _ _ (sigRaw 4) _ List.length_replicate (by decide)
      List.length_replicate rfl
  have hsig2 : nonEmpty signedTwice.sig2 = some (sigText "BAQE" "BA==") := by decide
  have hvk : e.releaseVk releaseEnv = .ok (some (keyRaw 9)) := by
    have hlen : (keyRaw 9).length = 32 := List.length_replicate
    simp only [Engine.releaseVk, hkey, hlen]
    rfl
  have hchain : verifyArtifactSigChain releaseEnv.toOtaEnv e.pubkeyBytes
      (some (keyRaw 9)) signedTwice = .ok () := by
    unfold Signed at hroot hrelease
    rw [hpubkey]
    simp [verifyArtifactSigChain, verifyArtifactSig, hroot, hsig2, hrelease, bind, Except.bind]
  have hcompat : Engine.checkCompat releaseEnv signedTwice "6.0.21" = .ok () := rfl
  have hhash : Engine.verifyFileSha256 releaseEnv "/in.so".toList (some []) signedTwice.sha256 =
      .ok [] := by
    simp [Engine.verifyFileSha256, releaseEnv, signedTwice, moduleSample]
  simp only [Engine.stageChecks, hcompat, hvk, hchain, bind, Except.bind]
  exact hhash

theorem secondBinding_reads (pk : String) (h : nonEmpty secondRelease.releasePubkey = some pk) :
    releaseEnv.parseJson (releaseEnv.prettyJson (Engine.bindingJson secondRelease.buildId pk 0)) =
      .ok (Engine.bindingJson secondRelease.buildId pk 0) := by
  have hpk : pk = keyHex '8' := by
    have hsome : nonEmpty secondRelease.releasePubkey = some (keyHex '8') := by decide
    rw [hsome] at h
    exact (Option.some.inj h).symm
  have hjson : Engine.bindingJson secondRelease.buildId (keyHex '8') 0 = bindingOf "b2" '8' := rfl
  have hother : bindingOf "b2" '8' ≠ bindingOf "b1" '9' := by
    intro hsame
    have hget := congrArg (fun v => (v.get? "release_pubkey").bind asStr) hsame
    simp only [bindingOf, bindingJson_pubkey] at hget
    exact absurd hget (by decide)
  have htext : bindingText "b2" '8' ≠ bindingText "b1" '9' := by decide
  rw [hpk, hjson]
  simp [releaseEnv, hother, htext]

theorem freshEngine_markers (env : EngineEnv) : freshEngine.markers env = [] := rfl

theorem firstSteps_staged :
    ∃ e : Engine, runFrom (OtaHistory.step releaseEnv) ⟨freshEngine, []⟩ (firstSteps.take 2) =
        ⟨e, [("analyze", "1.0.0")]⟩ ∧
      e.modulesDir = freshEngine.modulesDir ∧
      e.isDir releaseEnv (e.versionDir "analyze" "1.0.0") = true := by
  obtain ⟨pk, hrelease, hloads⟩ := step_release (s := ⟨freshEngine, []⟩) firstRelease_verifies
    firstBinding_reads
  have hnone : (if some (keyRaw 9) = freshEngine.releaseKey then
      ([] : List (String × String)) else []) = [] := ite_self _
  have hself := loadReleaseBinding_self hloads
  have hchecks := @signedTwice_checked
    (boundEngine releaseEnv freshEngine firstRelease pk 0 (some (keyRaw 9))) rfl rfl
  have hstage : (⟨boundEngine releaseEnv freshEngine firstRelease pk 0 (some (keyRaw 9)), []⟩ :
      OtaHistory).step releaseEnv (.stage signedTwice "/in.so".toList (some []) "6.0.21" 0) =
        ⟨(boundEngine releaseEnv freshEngine firstRelease pk 0 (some (keyRaw 9))).placeModule
          releaseEnv signedTwice [] 0, [("analyze", "1.0.0")]⟩ := by
    simp only [OtaHistory.step, Engine.stageLocalFile, hself, hchecks]
    rfl
  refine ⟨(boundEngine releaseEnv freshEngine firstRelease pk 0 (some (keyRaw 9))).placeModule
    releaseEnv signedTwice [] 0, ?_, rfl, ?_⟩
  · show OtaHistory.step releaseEnv (OtaHistory.step releaseEnv ⟨freshEngine, []⟩
      (.release firstRelease 0)) (.stage signedTwice "/in.so".toList (some []) "6.0.21" 0) = _
    rw [hrelease]
    dsimp only
    rw [hnone]
    exact hstage
  · have hdir := (@isDir_placeModule releaseEnv
      (boundEngine releaseEnv freshEngine firstRelease pk 0 (some (keyRaw 9))) signedTwice [] 0
      ((boundEngine releaseEnv freshEngine firstRelease pk 0 (some (keyRaw 9))).versionPlace
        releaseEnv signedTwice)).mpr (Or.inl (List.suffix_refl _))
    exact hdir

theorem firstSteps_guarded :
    Along (OtaHistory.step releaseEnv) (HistoryGuarded releaseEnv) ⟨freshEngine, []⟩ firstSteps := by
  obtain ⟨pk, hrelease, -⟩ := step_release (s := ⟨freshEngine, []⟩) firstRelease_verifies
    firstBinding_reads
  obtain ⟨e, hstaged, -, -⟩ := firstSteps_staged
  refine ⟨?_, ?_, ?_, trivial⟩
  · exact ⟨⟨keyRaw 9, firstRelease_verifies, Or.inl (freshEngine_markers _)⟩, firstBinding_reads⟩
  · rw [hrelease]
    refine ⟨signedTwice_named rfl, signedTwice_not_legacy, ?_, ?_⟩
    · simp [releaseEnv]
    · intro file hfile _
      have hplaced : ((boundDisk releaseEnv freshEngine firstRelease pk 0).read
          (file :: freshEngine.versionAt releaseEnv signedTwice.name
            signedTwice.version)).isSome = true := hfile
      have hempty : (boundDisk releaseEnv freshEngine firstRelease pk 0).read
          (file :: freshEngine.versionAt releaseEnv signedTwice.name signedTwice.version) =
            none := by
        apply read_boundDisk
        intro hsame
        apply @Engine.not_suffix_bindingPlace releaseEnv freshEngine signedTwice.name
          signedTwice.version
        rw [← hsame]
        exact List.suffix_cons _ _
      rw [hempty] at hplaced
      cases hplaced
  · intro _
    have hcurrent : (runFrom (OtaHistory.step releaseEnv) ⟨freshEngine, []⟩
        (firstSteps.take 2)).current = [("analyze", "1.0.0")] := by rw [hstaged]
    show ("analyze", "1.0.0") ∈ (runFrom (OtaHistory.step releaseEnv) ⟨freshEngine, []⟩
      (firstSteps.take 2)).current
    rw [hcurrent]
    exact List.mem_singleton.mpr rfl

/-- After one release the boot check is sound. -/
theorem first_release_boots :
    AllVerified releaseEnv
        (runFrom (OtaHistory.step releaseEnv) ⟨freshEngine, []⟩ firstSteps).engine ∧
      TamperNoticed releaseEnv
        (runFrom (OtaHistory.step releaseEnv) ⟨freshEngine, []⟩ firstSteps).engine :=
  boot_check_sound releaseEnv_rootKey releaseLog_onePerVersion releaseEnv_jsonText
    releaseEnv_lower (freshEngine_fresh releaseEnv) firstSteps_guarded

/-- A runtime-only release binds another key: the active module is untouched,
and the boot check fails. -/
theorem runtime_release_fails_boot :
    verifyManifestChain releaseEnv.toOtaEnv sampleRoot firstRelease = .ok (some (keyRaw 9)) ∧
      verifyManifestChain releaseEnv.toOtaEnv sampleRoot secondRelease = .ok (some (keyRaw 8)) ∧
      ∃ err, (runFrom (OtaHistory.step releaseEnv) ⟨freshEngine, []⟩
        (firstSteps ++ [.release secondRelease 0])).engine.otaVerifyActiveModules releaseEnv =
          .error err := by
  refine ⟨firstRelease_verifies, secondRelease_verifies, ?_⟩
  obtain ⟨e, hstaged, hdir, hversion⟩ := firstSteps_staged
  have hrun : runFrom (OtaHistory.step releaseEnv) ⟨freshEngine, []⟩ firstSteps =
      OtaHistory.step releaseEnv ⟨e, [("analyze", "1.0.0")]⟩ (.activate "analyze" "1.0.0") := by
    rw [← hstaged]
    rfl
  have hinv : HistoryInv releaseEnv releaseLog sampleRoot
      (runFrom (OtaHistory.step releaseEnv) ⟨freshEngine, []⟩ firstSteps) := by
    apply firstSteps_guarded.invariant (I := HistoryInv releaseEnv releaseLog sampleRoot) _
      (freshEngine_fresh releaseEnv).inv
    intro s x hs hx
    exact hs.step releaseEnv_rootKey releaseEnv_jsonText hx
  have hname : "analyze".toList ∈
      (runFrom (OtaHistory.step releaseEnv) ⟨freshEngine, []⟩ firstSteps).engine.markers
        releaseEnv := by
    rw [hrun]
    exact mem_markers_activate (signedTwice_named hdir).toNamed hversion
  have hother : ∀ art sig2, ¬ Signed releaseEnv.toOtaEnv (keyRaw 8) (artifactSignMessage art)
      sig2 := by
    intro art sig2 h
    obtain ⟨raw, hmem⟩ := mem_signatures_of_signed h
    have hapart : ∀ entry ∈ signatures, entry.2.1 ≠ keyRaw 8 := by decide
    exact hapart _ hmem rfl
  rw [runFrom_append, runFrom_cons, runFrom_nil]
  generalize runFrom (OtaHistory.step releaseEnv) ⟨freshEngine, []⟩ firstSteps = s at hinv hname ⊢
  have hverifies := secondRelease_verifies
  rw [← hinv.pubkey] at hverifies
  exact boot_fails_after_release hinv hname hverifies secondBinding_reads hother

end ReleaseSignature

end GrServer
