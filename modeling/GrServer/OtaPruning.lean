import GrServer.OtaHistoryRuns
import GrServer.VersionOrder

/-!
# The roll-back set

An activation keeps the version that it marks and the newest others.  The
version to keep is read back from the marker, whose text is trimmed.
-/

namespace GrServer

open Text LexicalPath

section KeepFirst

variable {α : Type} [DecidableEq α] {le : α → α → Bool} {l s : List α}

theorem filter_notMem_drop (hs : s.Nodup) (m : ℕ) :
    (s.filter fun x => decide (x ∉ s.drop m)) = s.take m := by
  have hsplit : s.take m ++ s.drop m = s := List.take_append_drop m s
  have happart : ∀ x ∈ s.take m, x ∉ s.drop m := by
    intro x hx hx'
    rw [← hsplit] at hs
    exact (List.nodup_append.mp hs).2.2 x hx x hx' rfl
  have hfirst : ((s.take m).filter fun x => decide (x ∉ s.drop m)) = s.take m :=
    List.filter_eq_self.mpr fun x hx => decide_eq_true (happart x hx)
  have hrest : ((s.drop m).filter fun x => decide (x ∉ s.drop m)) = [] :=
    List.filter_eq_nil_iff.mpr fun x hx => by simpa using hx
  calc (s.filter fun x => decide (x ∉ s.drop m))
      = (s.take m ++ s.drop m).filter fun x => decide (x ∉ s.drop m) := by rw [hsplit]
    _ = s.take m := by rw [List.filter_append, hfirst, hrest, List.append_nil]

theorem length_kept (hperm : s.Perm l) (hl : l.Nodup) (m : ℕ) :
    (l.filter fun x => decide (x ∉ s.drop m)).length = min m l.length := by
  have hs : s.Nodup := hperm.nodup_iff.mpr hl
  rw [← (hperm.filter _).length_eq, filter_notMem_drop hs, List.length_take, hperm.length_eq]

omit [DecidableEq α] in
theorem le_of_kept (hperm : s.Perm l) (hsorted : s.Pairwise fun x y => le x y = true) {m : ℕ}
    {x y : α} (hx : x ∈ l) (hkept : x ∉ s.drop m) (hy : y ∈ s.drop m) : le x y = true := by
  have hsplit : s.take m ++ s.drop m = s := List.take_append_drop m s
  have hfirst : x ∈ s.take m := by
    have hmem : x ∈ s := hperm.mem_iff.mpr hx
    rw [← hsplit] at hmem
    exact (List.mem_append.mp hmem).resolve_right hkept
  rw [← hsplit] at hsorted
  exact (List.pairwise_append.mp hsorted).2.2 x hfirst y hy

end KeepFirst

namespace ReleaseSignature

def pickModule (V : SemVer) (man : ReleaseManifest) (name : String) (version : Option String) :
    Except OtaError ModuleArtifact :=
  match version with
  | some v =>
      match man.modules.find? fun m => decide (m.name = name ∧ m.version = v) with
      | some art => .ok art
      | none => .error (.other ("module " ++ name ++ "@" ++ v ++ " not in remote manifest"))
  | none =>
      let cands := man.modules.filter fun m => decide (m.name = name)
      match (cands.mergeSort fun a b => V.newerFirst a.version b.version).head? with
      | some art => .ok art
      | none => .error (.other ("module " ++ name ++ " not in remote manifest"))

/-- The artifact of the name that no other of the name is newer than. -/
def PickedNewest (V : SemVer) (man : ReleaseManifest) (name : String) : Prop :=
  ((∃ m ∈ man.modules, m.name = name) → ∃ art, pickModule V man name none = .ok art) ∧
    ∀ art, pickModule V man name none = .ok art → art ∈ man.modules ∧ art.name = name ∧
      ∀ m ∈ man.modules, m.name = name → V.newerFirst art.version m.version = true

theorem pickedNewest (V : SemVer) (man : ReleaseManifest) (name : String) :
    PickedNewest V man name := by
  have hmem : ∀ m, m ∈ ((man.modules.filter fun m => decide (m.name = name)).mergeSort
      fun a b => V.newerFirst a.version b.version) ↔ m ∈ man.modules ∧ m.name = name := by
    intro m
    rw [List.mem_mergeSort, List.mem_filter, decide_eq_true_iff]
  have hsorted : ((man.modules.filter fun m => decide (m.name = name)).mergeSort
      fun a b => V.newerFirst a.version b.version).Pairwise
        fun a b => V.newerFirst a.version b.version = true :=
    List.pairwise_mergeSort (fun a b c => V.newerFirst_trans a.version b.version c.version)
      (fun a b => V.newerFirst_total a.version b.version) _
  unfold PickedNewest pickModule
  dsimp only
  generalize ((man.modules.filter fun m => decide (m.name = name)).mergeSort
    fun a b => V.newerFirst a.version b.version) = sorted at hmem hsorted
  cases sorted with
  | nil =>
      constructor
      · rintro ⟨m, hm⟩
        exact absurd ((hmem m).mpr hm) List.not_mem_nil
      · intro art hart
        cases hart
  | cons first rest =>
      refine ⟨fun _ => ⟨first, rfl⟩, ?_⟩
      intro art hart
      cases hart
      rcases (hmem first).mp List.mem_cons_self with ⟨hin, hname⟩
      refine ⟨hin, hname, ?_⟩
      intro m hm hmname
      rcases List.mem_cons.mp ((hmem m).mpr ⟨hm, hmname⟩) with rfl | hlater
      · simpa using V.newerFirst_total m.version m.version
      · exact (List.pairwise_cons.mp hsorted).1 m hlater

/-! ## The versions of a module -/

def EngineEnv.sortedBy (env : EngineEnv) (V : SemVer) : EngineEnv :=
  { env with sortVersions := fun versions => versions.mergeSort V.newerFirst }

structure Component where
  text : String
  plain : Plain text.toList

namespace Engine

section Kept

variable {env : EngineEnv} {V : SemVer} {e after : Engine} {n v : String}

def staged (env : EngineEnv) (e : Engine) (n : String) : List String :=
  (e.disk.subdirs (resolve env.cwd (e.versionsDir n))).map String.ofList

def others (env : EngineEnv) (e : Engine) (n v : String) : List String :=
  (e.staged env n).filter fun w => decide (w ≠ v)

/-- What a successful activation of `v` is to leave. -/
structure RollbackKept (env : EngineEnv) (V : SemVer) (e : Engine) (n v : String)
    (after : Engine) : Prop where
  marker : ∃ s, after.readText env (after.activeLink n) = some s ∧
    trim s.toList = e.versionDir n v
  standing : after.isDir env (e.versionDir n v) = true
  stood : ∀ w ∈ after.others env n v, w ∈ e.others env n v
  count : (after.others env n v).length = min keepRollbackVersions (e.others env n v).length
  newest : ∀ w ∈ after.others env n v, ∀ gone ∈ e.others env n v,
    gone ∉ after.others env n v → V.newerFirst w gone = true

theorem resolve_versionsDir (hn : Plain n.toList) :
    resolve env.cwd (e.versionsDir n) = n.toList :: "versions".toList :: e.modules env := by
  rw [← resolve_stagePath plain_versions]
  exact hn.resolve

theorem resolve_versionDir_plain (hn : Plain n.toList) (hv : Plain v.toList) :
    resolve env.cwd (e.versionDir n v) = e.versionAt env n v := by
  show resolve env.cwd (pathJoin (e.versionsDir n) v.toList) = _
  rw [hv.resolve, resolve_versionsDir hn]
  rfl

def markedDisk (env : EngineEnv) (e : Engine) (n v : String) : Disk Text :=
  (e.disk.mkdirs ("active".toList :: e.modules env)).write (e.markerAt env n.toList)
    (asBytes (String.ofList (e.versionDir n v ++ ['\n'])))

theorem isDir_markedDisk {q : List Text} : (e.markedDisk env n v).isDir q = true ↔
    q <:+ "active".toList :: e.modules env ∨ e.disk.isDir q = true := by
  unfold markedDisk
  rw [Disk.isDir_write, Disk.isDir_mkdirs]

theorem staged_markedDisk (hn : Plain n.toList) :
    (e.withDisk (e.markedDisk env n v)).staged env n = e.staged env n := by
  have hdeeper : ∀ w : Text, ¬ w :: n.toList :: "versions".toList :: e.modules env <:+
      "active".toList :: e.modules env := by
    intro w h
    have hlen := h.length_le
    simp at hlen
  have hsubdirs : (e.markedDisk env n v).subdirs (n.toList :: "versions".toList :: e.modules env) =
      e.disk.subdirs (n.toList :: "versions".toList :: e.modules env) :=
    Disk.subdirs_mkdirs hdeeper
  unfold staged
  rw [resolve_versionsDir hn, resolve_versionsDir hn]
  exact congrArg (List.map String.ofList) hsubdirs

theorem subdirs_foldl_removeTree {p : List Text} (doomed : List String) (d : Disk Text) :
    ((doomed.foldl (fun disk w => disk.removeTree (w.toList :: p)) d).subdirs p).map
        String.ofList =
      ((d.subdirs p).map String.ofList).filter fun w => decide (w ∉ doomed) := by
  induction doomed generalizing d with
  | nil => simp
  | cons v rest ih =>
      rw [List.foldl_cons, ih, Disk.subdirs_removeTree, List.filter_map, List.filter_map,
        List.filter_filter]
      congr 2
      funext w
      have hsame : w = v.toList ↔ String.ofList w = v := by
        constructor
        · rintro rfl
          exact String.ofList_toList
        · rintro rfl
          exact String.toList_ofList.symm
      simp [hsame, Bool.and_comm]

theorem activate_eq (htree : e.disk.Tree) (hn : Plain n.toList) (hv : Plain v.toList)
    (hdir : e.isDir env (e.versionDir n v) = true) :
    e.activate env n v = (.ok (e.versionDir n v), e.withDisk
      (((e.withDisk (e.markedDisk env n v)).prunable env n keepRollbackVersions).foldl
        (fun disk w => disk.removeTree (w.toList :: n.toList :: "versions".toList ::
          e.modules env)) (e.markedDisk env n v))) := by
  have hmarked : (e.createDirAll env (e.stagePath "active")).writeText env (e.activeLink n)
      (String.ofList (e.versionDir n v ++ ['\n'])) = e.withDisk (e.markedDisk env n v) := by
    have hlink : resolve env.cwd (e.activeLink n) = e.markerAt env n.toList := resolve_marker hn
    simp only [writeText, createDirAll, hlink, resolve_stagePath plain_active]
    rfl
  have hversions : (e.withDisk (e.markedDisk env n v)).isDir env (e.versionsDir n) = true := by
    have habove : e.disk.isDir (n.toList :: "versions".toList :: e.modules env) = true := by
      unfold isDir at hdir
      rw [resolve_versionDir_plain hn hv] at hdir
      exact htree.isDir_above hdir
    unfold isDir
    rw [resolve_versionsDir hn]
    exact isDir_markedDisk.mpr (Or.inr habove)
  have hpruned : ((e.withDisk (e.markedDisk env n v)).pruneVersions env n
      keepRollbackVersions).2 = e.withDisk
        (((e.withDisk (e.markedDisk env n v)).prunable env n keepRollbackVersions).foldl
          (fun disk w => disk.removeTree (w.toList :: resolve env.cwd (e.versionsDir n)))
            (e.markedDisk env n v)) := by
    unfold pruneVersions
    rw [if_pos (show (e.withDisk (e.markedDisk env n v)).isDir env
      ((e.withDisk (e.markedDisk env n v)).versionsDir n) = true from hversions)]
    rfl
  unfold activate
  simp only [hdir, if_true, hmarked, hpruned, resolve_versionsDir hn]

theorem readText_marker {doomed : List String} (hn : Plain n.toList) :
    (e.withDisk (doomed.foldl (fun disk w => disk.removeTree
      (w.toList :: n.toList :: "versions".toList :: e.modules env))
        (e.markedDisk env n v))).readText env (e.activeLink n) =
      some (String.ofList (e.versionDir n v ++ ['\n'])) := by
  apply readText_of_asBytes
  have hlink : resolve env.cwd (e.activeLink n) = e.markerAt env n.toList := resolve_marker hn
  rw [hlink]
  show (doomed.foldl (fun disk w => disk.removeTree (e.versionAt env n w))
    (e.markedDisk env n v)).read (e.markerAt env n.toList) = _
  rw [read_foldl_removeTree doomed fun _ _ => not_suffix_markerAt]
  unfold markedDisk
  rw [Disk.read_write, if_pos rfl]

theorem prunable_marked (V : SemVer) (hnamed : Named e n v) :
    ((e.withDisk (e.markedDisk (env.sortedBy V) n v)).prunable (env.sortedBy V) n
        keepRollbackVersions) =
      (((e.staged (env.sortedBy V) n).mergeSort V.newerFirst).filter
        fun w => decide (w ≠ v)).drop keepRollbackVersions := by
  have hactive : (e.withDisk (e.markedDisk (env.sortedBy V) n v)).activeVersion
      (env.sortedBy V) n = v := by
    apply activeVersion_of_marker (hnamed.withDisk _)
    exact @readText_marker (env.sortedBy V) e n v [] hnamed.name
  unfold prunable
  rw [hactive, ← staged_markedDisk (v := v) hnamed.name]
  rfl

theorem nodup_staged (h : e.disk.Tree) : (e.staged env n).Nodup :=
  (h.nodup_subdirs _).map fun _ _ => String.ofList_injective

theorem rollbackKept_iff (V : SemVer) (htree : e.disk.Tree) (hn : Plain n.toList)
    (hv : Plain v.toList) (hdir : e.isDir (env.sortedBy V) (e.versionDir n v) = true) :
    RollbackKept (env.sortedBy V) V e n v (e.activate (env.sortedBy V) n v).2 ↔
      trim (e.versionDir n v) = e.versionDir n v := by
  rw [activate_eq htree hn hv hdir]
  constructor
  · intro h
    rcases h.marker with ⟨s, hs, htrim⟩
    have hread := (readText_marker hn).symm.trans hs
    rw [← Option.some.inj hread, String.toList_ofList] at htrim
    rw [← htrim, trim_trim]
  · intro hmarker
    have hnamed : Named e n v := ⟨hn, hv, hmarker⟩
    rw [prunable_marked V hnamed]
    generalize hs : ((e.staged (env.sortedBy V) n).mergeSort V.newerFirst).filter
      (fun w => decide (w ≠ v)) = s
    have hperm : s.Perm (e.others (env.sortedBy V) n v) := by
      rw [← hs]
      exact (List.mergeSort_perm _ _).filter _
    have hsorted : s.Pairwise fun x y => V.newerFirst x y = true := by
      rw [← hs]
      exact (List.pairwise_mergeSort V.newerFirst_trans V.newerFirst_total _).filter _
    have hv' : v ∉ s.drop keepRollbackVersions := by
      intro hmem
      have hin := List.mem_of_mem_drop hmem
      rw [← hs] at hin
      simp at hin
    generalize hafter : e.withDisk ((s.drop keepRollbackVersions).foldl
      (fun disk w => disk.removeTree (w.toList :: n.toList :: "versions".toList ::
        e.modules (env.sortedBy V))) (e.markedDisk (env.sortedBy V) n v)) = after
    have hothers : after.others (env.sortedBy V) n v =
        (e.others (env.sortedBy V) n v).filter
          fun w => decide (w ∉ s.drop keepRollbackVersions) := by
      have hstaged : after.staged (env.sortedBy V) n = (e.staged (env.sortedBy V) n).filter
          fun w => decide (w ∉ s.drop keepRollbackVersions) := by
        rw [← hafter, ← staged_markedDisk (e := e) (v := v) hn]
        unfold staged
        rw [resolve_versionsDir hn, resolve_versionsDir hn]
        exact subdirs_foldl_removeTree _ _
      unfold others
      rw [hstaged, List.filter_filter, List.filter_filter]
      congr 1
      funext w
      exact Bool.and_comm _ _
    constructor
    · refine ⟨String.ofList (e.versionDir n v ++ ['\n']), ?_, ?_⟩
      · rw [← hafter]
        exact readText_marker hn
      · rw [String.toList_ofList]
        exact trim_newline hmarker
    · rw [← hafter]
      unfold isDir at hdir ⊢
      rw [resolve_versionDir_plain hn hv] at hdir ⊢
      show ((s.drop keepRollbackVersions).foldl (fun disk w =>
        disk.removeTree (e.versionAt (env.sortedBy V) n w))
          (e.markedDisk (env.sortedBy V) n v)).isDir (e.versionAt (env.sortedBy V) n v) = true
      rw [isDir_foldl_removeTree]
      refine ⟨isDir_markedDisk.mpr (Or.inr hdir), ?_⟩
      intro w hw hsuffix
      rw [(versionAt_inj hsuffix (List.suffix_refl _)).2] at hw
      exact hv' hw
    · intro w hw
      rw [hothers] at hw
      exact List.mem_of_mem_filter hw
    · rw [hothers]
      exact length_kept hperm ((nodup_staged htree).filter _) _
    · intro w hw gone hgone hremoved
      rw [hothers, List.mem_filter, decide_eq_true_iff] at hw
      rw [hothers, List.mem_filter, decide_eq_true_iff] at hremoved
      have hdropped : gone ∈ s.drop keepRollbackVersions := by
        by_contra hkept
        exact hremoved ⟨hgone, hkept⟩
      exact le_of_kept hperm hsorted hw.1 hw.2 hdropped

end Kept

end Engine

/-! ## Runs -/

inductive RollbackStep where
  | stage (art : ModuleArtifact) (src : Text) (data : Option Bytes) (runtimeVer : String)
      (nanos : ℕ)
  | activate (name version : Component)

section Runs

variable (env : EngineEnv) (V : SemVer)

def rollbackStep (e : Engine) : RollbackStep → Engine
  | .stage art src data runtimeVer nanos =>
      (e.stageLocalFile env art src data runtimeVer nanos).2
  | .activate name version => (e.activate env name.text version.text).2

/-- A successful activation keeps the roll-back set. -/
def KeepsRollback (e : Engine) : RollbackStep → Prop
  | .stage .. => True
  | .activate name version => ∀ dir, (e.activate env name.text version.text).1 = .ok dir →
      e.RollbackKept env V name.text version.text (e.activate env name.text version.text).2

/-- The path of a version that is activated has no blanks around it. -/
def MarkerReadBack (e : Engine) : RollbackStep → Prop
  | .stage .. => True
  | .activate name version => e.isDir env (e.versionDir name.text version.text) = true →
      trim (e.versionDir name.text version.text) = e.versionDir name.text version.text

variable {env V} {e : Engine}

theorem Tree.stageLocalFile (h : e.disk.Tree) (art : ModuleArtifact) (src : Text)
    (data : Option Bytes) (runtimeVer : String) (nanos : ℕ) :
    (e.stageLocalFile env art src data runtimeVer nanos).2.disk.Tree := by
  unfold Engine.stageLocalFile
  cases hload : e.loadReleaseBinding env with
  | error err => exact h
  | ok loaded =>
      have hsame : loaded.disk = e.disk := by
        rcases loadReleaseBinding_ok_iff.mp hload with ⟨key, -, hloaded⟩
        rw [hloaded]
      rw [← hsame] at h
      cases hchecks : loaded.stageChecks env art src data runtimeVer with
      | error err => simpa [hchecks] using h
      | ok bytes =>
          simp only [hchecks]
          apply (h.mkdirs (loaded.versionPlace env art)).of_dirs
          show ((((loaded.disk.mkdirs _).write _ _).rename _ _).write _ _).dirs = _
          exact Disk.dirs_rename

theorem Tree.activate (h : e.disk.Tree) (n v : String) : (e.activate env n v).2.disk.Tree := by
  have hmarked : ((e.createDirAll env (e.stagePath "active")).writeText env (e.activeLink n)
      (String.ofList (e.versionDir n v ++ ['\n']))).disk.Tree := (h.mkdirs _).of_dirs rfl
  unfold Engine.activate Engine.pruneVersions
  dsimp only
  split_ifs with hdir hversions
  · generalize Engine.prunable env _ n keepRollbackVersions = doomed
    generalize ((e.createDirAll env (e.stagePath "active")).writeText env (e.activeLink n)
      (String.ofList (e.versionDir n v ++ ['\n']))).disk = disk at hmarked ⊢
    dsimp only
    induction doomed generalizing disk with
    | nil => exact hmarked
    | cons w rest ih => exact ih _ (hmarked.removeTree _)
  · exact hmarked
  · exact h

theorem Tree.rollbackStep (h : e.disk.Tree) (x : RollbackStep) :
    (rollbackStep env e x).disk.Tree := by
  cases x with
  | stage art src data runtimeVer nanos => exact Tree.stageLocalFile h art src data runtimeVer nanos
  | activate name version => exact Tree.activate h name.text version.text

theorem keepsRollback_iff (h : e.disk.Tree) (x : RollbackStep) :
    KeepsRollback (env.sortedBy V) V e x ↔ MarkerReadBack (env.sortedBy V) e x := by
  cases x with
  | stage art src data runtimeVer nanos => exact Iff.rfl
  | activate name version =>
      by_cases hdir : e.isDir (env.sortedBy V) (e.versionDir name.text version.text) = true
      · have hstep := Engine.rollbackKept_iff V h name.plain version.plain hdir
        constructor
        · intro hkeeps _
          apply hstep.mp
          apply hkeeps (e.versionDir name.text version.text)
          rw [Engine.activate_eq h name.plain version.plain hdir]
        · intro hread _ _
          exact hstep.mpr (hread hdir)
      · refine iff_of_true ?_ fun hdir' => absurd hdir' hdir
        intro dir hok
        unfold Engine.activate at hok
        simp only [hdir, Bool.false_eq_true, if_false] at hok
        cases hok

end Runs

/-- Along every run from a well-formed disk the roll-back set is kept exactly
where the markers of the activated versions are read back as they were written;
and choosing a module takes the newest of its name. -/
theorem rollback_set_iff (env : EngineEnv) (V : SemVer) (e : Engine) (htree : e.disk.Tree)
    (steps : List RollbackStep) :
    (Along (rollbackStep (env.sortedBy V)) (KeepsRollback (env.sortedBy V) V) e steps ∧
        ∀ man name, PickedNewest V man name) ↔
      Along (rollbackStep (env.sortedBy V)) (MarkerReadBack (env.sortedBy V)) e steps := by
  have hsteps : Along (rollbackStep (env.sortedBy V)) (KeepsRollback (env.sortedBy V) V) e steps ↔
      Along (rollbackStep (env.sortedBy V)) (MarkerReadBack (env.sortedBy V)) e steps := by
    apply Along.iff_of_steps (I := fun e : Engine => e.disk.Tree) (G := fun _ _ => True)
    · intro e x h _
      exact keepsRollback_iff h x
    · intro e x h _ _
      exact Tree.rollbackStep h x
    · exact along_of_forall fun _ _ _ => trivial
    · exact htree
  constructor
  · rintro ⟨hkept, -⟩
    exact hsteps.mp hkept
  · intro hread
    exact ⟨hsteps.mpr hread, pickedNewest V⟩

section Sample

def analyze : Component := ⟨"analyze", by constructor <;> decide⟩

def release : Component := ⟨"1.1.0", by constructor <;> decide⟩

def blankEnded : Component := ⟨"1.0.0 ", by constructor <;> decide⟩

def versionPlaces : List (List Text) :=
  ["1.0.0 ", "1.1.0", "1.2.0", "1.3.0"].map fun v =>
    [v.toList, "analyze".toList, "versions".toList, "modules".toList, "srv".toList]

def stagedEngine : Engine :=
  { freshEngine with disk := versionPlaces.foldl (fun disk p => disk.mkdirs p) Disk.empty }

theorem stagedEngine_tree : stagedEngine.disk.Tree :=
  (((Disk.tree_empty.mkdirs _).mkdirs _).mkdirs _).mkdirs _

def newest : Component := ⟨"1.10.0", by constructor <;> decide⟩

def manyEngine : Engine :=
  { freshEngine with
    disk := (["1.0.0", "1.1.0", "1.2.0", "1.3.0", "1.10.0"].map fun v =>
      [v.toList, "analyze".toList, "versions".toList, "modules".toList, "srv".toList]).foldl
        (fun disk p => disk.mkdirs p) Disk.empty }

theorem manyEngine_tree : manyEngine.disk.Tree :=
  ((((Disk.tree_empty.mkdirs _).mkdirs _).mkdirs _).mkdirs _).mkdirs _

theorem manyEngine_read {env : EngineEnv} {e : Engine} (h : e.modulesDir = manyEngine.modulesDir) :
    Along (rollbackStep env) (MarkerReadBack env) e
      [.activate analyze release, .activate analyze newest] := by
  have hdir : ∀ (e : Engine) n v, e.modulesDir = manyEngine.modulesDir →
      e.versionDir n v = manyEngine.versionDir n v := by
    intro e n v he
    unfold Engine.versionDir Engine.versionsDir Engine.stagePath
    rw [he]
  have hnext : (rollbackStep env e (.activate analyze release)).modulesDir =
      manyEngine.modulesDir := by
    rw [← h, rollbackStep, Engine.activate_same]
  refine ⟨fun _ => ?_, fun _ => ?_, trivial⟩
  · rw [hdir e _ _ h]
    decide
  · rw [hdir _ _ _ hnext]
    decide

/-- One of the four others goes, and then the newest is activated. -/
theorem rollback_set_release :
    Along (rollbackStep ((hostEnv []).sortedBy SemVer.plain))
        (KeepsRollback ((hostEnv []).sortedBy SemVer.plain) SemVer.plain) manyEngine
          [.activate analyze release, .activate analyze newest] ∧
      (manyEngine.others ((hostEnv []).sortedBy SemVer.plain) "analyze" "1.1.0").length = 4 ∧
      ((manyEngine.activate ((hostEnv []).sortedBy SemVer.plain) "analyze" "1.1.0").2.others
        ((hostEnv []).sortedBy SemVer.plain) "analyze" "1.1.0").length = 3 := by
  have hkept := (rollback_set_iff (hostEnv []) SemVer.plain manyEngine manyEngine_tree
    [.activate analyze release, .activate analyze newest]).mpr (manyEngine_read rfl)
  have hothers : (manyEngine.others ((hostEnv []).sortedBy SemVer.plain) "analyze"
      "1.1.0").length = 4 := by decide
  have hdir : manyEngine.isDir ((hostEnv []).sortedBy SemVer.plain)
      (manyEngine.versionDir "analyze" "1.1.0") = true := by decide
  refine ⟨hkept.1, hothers, ?_⟩
  have hfirst := hkept.1.1 _
    (by rw [Engine.activate_eq manyEngine_tree analyze.plain release.plain hdir])
  have hcount := hfirst.count
  rw [show (manyEngine.others _ analyze.text release.text).length = 4 from hothers] at hcount
  exact hcount

/-- The version read back has no trailing blank, so the activated one is pruned
like any other. -/
theorem blank_ended_counterexample :
    ¬Along (rollbackStep ((hostEnv []).sortedBy SemVer.plain))
      (KeepsRollback ((hostEnv []).sortedBy SemVer.plain) SemVer.plain) stagedEngine
        [.activate analyze blankEnded] := by
  intro h
  have hread := (keepsRollback_iff stagedEngine_tree _).mp h.1
  have hdir : stagedEngine.isDir ((hostEnv []).sortedBy SemVer.plain)
      (stagedEngine.versionDir "analyze" "1.0.0 ") = true := by decide
  have htrim : trim (stagedEngine.versionDir "analyze" "1.0.0 ") ≠
      stagedEngine.versionDir "analyze" "1.0.0 " := by decide
  exact htrim (hread hdir)

end Sample

end ReleaseSignature

end GrServer
