import GrServer.OtaEngine

/-!
# Where the engine writes

The places of the modules tree, and which of them staging and activating a
module change.
-/

namespace GrServer

open Json Text LexicalPath

namespace ReleaseSignature

section Places

variable {cwd : List Text} {root rel : Text} {dir : List Text}

def Below (rel : Text) : Prop :=
  isAbsolute rel = false ∧ ['.', '.'] ∉ components rel

instance (rel : Text) : Decidable (Below rel) :=
  inferInstanceAs (Decidable (_ ∧ _))

structure Plain (name : Text) : Prop where
  noSlash : '/' ∉ name
  nonempty : name ≠ []
  notDot : name ≠ ['.']
  notParent : name ≠ ['.', '.']

theorem components_of_noSlash {name : Text} (h : '/' ∉ name) : components name = [name] :=
  List.splitOn_eq_singleton h

theorem isAbsolute_of_noSlash {name : Text} (h : '/' ∉ name) : isAbsolute name = false := by
  cases name with
  | nil => rfl
  | cons c cs =>
      have hc : c ≠ '/' := fun hc => h (by rw [hc]; exact List.mem_cons_self)
      simp [isAbsolute, hc]

theorem Plain.walk {name : Text} (h : Plain name) : walk dir name = name :: dir := by
  unfold LexicalPath.walk
  rw [components_of_noSlash h.noSlash]
  simp [enter, h.nonempty, h.notDot, h.notParent]

theorem resolve_pathJoin (h : isAbsolute rel = false) :
    resolve cwd (pathJoin root rel) = walk (resolve cwd root) rel := by
  unfold pathJoin LexicalPath.join
  rw [if_neg (by simp [h])]
  exact resolve_join_inside cwd h

theorem Plain.resolve {name : Text} (h : Plain name) :
    resolve cwd (pathJoin root name) = name :: resolve cwd root := by
  rw [resolve_pathJoin (isAbsolute_of_noSlash h.noSlash), h.walk]

theorem Below.suffix (h : Below rel) : resolve cwd root <:+ resolve cwd (pathJoin root rel) := by
  rw [resolve_pathJoin h.1]
  exact suffix_walk h.2

theorem Below.of_noSlash {name : Text} (h : '/' ∉ name) (hparent : name ≠ ['.', '.']) :
    Below name := by
  refine ⟨isAbsolute_of_noSlash h, ?_⟩
  rw [components_of_noSlash h]
  simp [hparent.symm]

theorem ne_of_suffix {name other : Text} (hne : name ≠ other) {p : List Text}
    (h : name :: dir <:+ p) : p ≠ other :: dir := by
  rintro rfl
  have heq := h.eq_of_length (by simp)
  exact hne (List.cons.inj heq).1

end Places

theorem utf8?_asBytes (s : String) : utf8? (asBytes s) = some s := fromUTF8?_asBytes s

namespace Engine

section Frames

variable {env : EngineEnv} {e : Engine} {art : ModuleArtifact} {bytes : Bytes} {nanos : ℕ}

def modules (env : EngineEnv) (e : Engine) : List Text := resolve env.cwd e.modulesDir

def versionPlace (env : EngineEnv) (e : Engine) (art : ModuleArtifact) : List Text :=
  resolve env.cwd (e.versionDir art.name art.version)

def metaPlace (env : EngineEnv) (e : Engine) (art : ModuleArtifact) : List Text :=
  resolve env.cwd (pathJoin (e.versionDir art.name art.version) "meta.json".toList)

def destPlace (env : EngineEnv) (e : Engine) (art : ModuleArtifact) : List Text :=
  resolve env.cwd (pathJoin (e.versionDir art.name art.version) art.asset.toList)

def tmpPlace (env : EngineEnv) (e : Engine) (art : ModuleArtifact) (nanos : ℕ) : List Text :=
  resolve env.cwd (pathJoin (e.versionDir art.name art.version) (tmpName art nanos).toList)

theorem plain_versions : Plain "versions".toList := by
  constructor <;> decide

theorem plain_active : Plain "active".toList := by
  constructor <;> decide

theorem plain_binding : Plain "release_binding.json".toList := by
  constructor <;> decide

theorem plain_meta : Plain "meta.json".toList := by
  constructor <;> decide

theorem resolve_stagePath {rel : String} (h : Plain rel.toList) :
    resolve env.cwd (e.stagePath rel) = rel.toList :: e.modules env :=
  h.resolve

def bindingPlace (env : EngineEnv) (e : Engine) : List Text :=
  "release_binding.json".toList :: e.modules env

theorem resolve_bindingPath : resolve env.cwd e.bindingPath = e.bindingPlace env :=
  resolve_stagePath plain_binding

theorem versions_suffix {name : String} (h : Below name.toList) :
    "versions".toList :: e.modules env <:+ resolve env.cwd (e.versionsDir name) := by
  rw [← resolve_stagePath plain_versions]
  exact h.suffix

structure PathsBelow (art : ModuleArtifact) : Prop where
  name : Below art.name.toList
  version : Below art.version.toList
  assetNoSlash : '/' ∉ art.asset.toList
  assetNotParent : art.asset ≠ ".."

theorem PathsBelow.asset (h : PathsBelow art) : Below art.asset.toList := by
  refine Below.of_noSlash h.assetNoSlash ?_
  intro hparent
  exact h.assetNotParent (String.toList_injective hparent)

theorem PathsBelow.tmp (h : PathsBelow art) (nanos : ℕ) : Below (tmpName art nanos).toList := by
  have htext : (tmpName art nanos).toList =
      '.' :: (art.asset.toList ++ (".tmp.".toList ++ nanos.repr.toList)) := by
    simp [tmpName]
  rw [htext]
  apply Below.of_noSlash
  · intro hmem
    rcases List.mem_cons.mp hmem with hdot | hmem
    · exact absurd hdot (by decide)
    · rcases List.mem_append.mp hmem with hasset | hmem
      · exact h.assetNoSlash hasset
      · rcases List.mem_append.mp hmem with htmp | hdigits
        · exact absurd htmp (by decide)
        · exact absurd (isDigit_of_mem_repr_nat hdigits) (by decide)
  · intro hparent
    have hlen := congrArg List.length hparent
    simp at hlen
    omega

theorem versionPlace_suffix (h : PathsBelow art) :
    "versions".toList :: e.modules env <:+ e.versionPlace env art :=
  (versions_suffix h.name).trans h.version.suffix

theorem below_versionPlace (h : PathsBelow art) (nanos : ℕ) :
    e.versionPlace env art <:+ e.metaPlace env art ∧
      e.versionPlace env art <:+ e.destPlace env art ∧
      e.versionPlace env art <:+ e.tmpPlace env art nanos :=
  ⟨(Below.of_noSlash (by decide) (by decide)).suffix, h.asset.suffix, (h.tmp nanos).suffix⟩

theorem read_placeModule (q : List Text) :
    (e.placeModule env art bytes nanos).disk.read q =
      if q = e.metaPlace env art then some (asBytes (env.prettyArtifact art))
      else if q = e.destPlace env art then some bytes
      else if q = e.tmpPlace env art nanos then none
      else e.disk.read q := by
  have hcopied : ∀ d : Disk Text,
      (d.write (e.tmpPlace env art nanos) bytes).read (e.tmpPlace env art nanos) = some bytes :=
    fun d => by rw [Disk.read_write, if_pos rfl]
  show (((((e.disk.mkdirs (e.versionPlace env art)).write (e.tmpPlace env art nanos) bytes).rename
    (e.tmpPlace env art nanos) (e.destPlace env art)).write (e.metaPlace env art)
      (asBytes (env.prettyArtifact art))).read q) = _
  rw [Disk.read_write, Disk.read_rename (hcopied _), Disk.read_write, Disk.read_mkdirs]
  by_cases htmp : q = e.tmpPlace env art nanos <;> simp [htmp]

theorem suffix_of_placed (h : PathsBelow art) {p : List Text}
    (hchanged : (e.placeModule env art bytes nanos).disk.read p ≠ e.disk.read p) :
    e.versionPlace env art <:+ p := by
  have hbelow : e.versionPlace env art <:+ e.metaPlace env art ∧
      e.versionPlace env art <:+ e.destPlace env art ∧
      e.versionPlace env art <:+ e.tmpPlace env art nanos := below_versionPlace h nanos
  obtain ⟨hmeta, hdest, htmp⟩ := hbelow
  rw [read_placeModule] at hchanged
  by_cases hp : p = e.metaPlace env art
  · rw [hp]
    exact hmeta
  · rw [if_neg hp] at hchanged
    by_cases hp' : p = e.destPlace env art
    · rw [hp']
      exact hdest
    · rw [if_neg hp'] at hchanged
      by_cases hp'' : p = e.tmpPlace env art nanos
      · rw [hp'']
        exact htmp
      · rw [if_neg hp''] at hchanged
        exact absurd rfl hchanged

theorem binding_placeModule (h : PathsBelow art) :
    (e.placeModule env art bytes nanos).disk.read (e.bindingPlace env) =
      e.disk.read (e.bindingPlace env) := by
  by_contra hchanged
  have hsuffix := (versionPlace_suffix h).trans (suffix_of_placed h hchanged)
  exact ne_of_suffix (by decide) hsuffix rfl

theorem read_foldl_removeTree {p : List Text} {tree : String → List Text} (doomed : List String)
    (h : ∀ v ∈ doomed, ¬ tree v <:+ p) (d : Disk Text) :
    (doomed.foldl (fun disk v => disk.removeTree (tree v)) d).read p = d.read p := by
  induction doomed generalizing d with
  | nil => rfl
  | cons v rest ih =>
      rw [List.foldl_cons, ih (fun w hw => h w (List.mem_cons_of_mem v hw)), Disk.read_removeTree,
        if_neg (h v List.mem_cons_self)]

theorem isDir_foldl_removeTree {q : List Text} {tree : String → List Text} (doomed : List String)
    (d : Disk Text) :
    (doomed.foldl (fun disk v => disk.removeTree (tree v)) d).isDir q = true ↔
      d.isDir q = true ∧ ∀ v ∈ doomed, ¬ tree v <:+ q := by
  induction doomed generalizing d with
  | nil => simp
  | cons v rest ih =>
      rw [List.foldl_cons, ih, Disk.isDir_removeTree, List.forall_mem_cons, and_assoc]

theorem binding_pruneVersions {name : String} (h : Below name.toList) (keepOld : ℕ) :
    (e.pruneVersions env name keepOld).2.disk.read (e.bindingPlace env) =
      e.disk.read (e.bindingPlace env) := by
  unfold pruneVersions
  by_cases hdir : e.isDir env (e.versionsDir name) = true
  · rw [if_pos hdir]
    apply read_foldl_removeTree
    intro v _ hv
    have hsuffix := ((versions_suffix h).trans (List.suffix_cons v.toList _)).trans hv
    exact ne_of_suffix (by decide) hsuffix rfl
  · rw [if_neg hdir]

theorem binding_activate {name version : String} (h : Below name.toList) :
    (e.activate env name version).2.disk.read (e.bindingPlace env) =
      e.disk.read (e.bindingPlace env) := by
  unfold activate
  by_cases hdir : e.isDir env (e.versionDir name version) = true
  · simp only [hdir, if_true]
    have hmarker : e.bindingPlace env ≠ resolve env.cwd (e.activeLink name) := by
      have hsuffix : "active".toList :: e.modules env <:+ resolve env.cwd (e.activeLink name) := by
        rw [← resolve_stagePath plain_active]
        exact h.suffix
      exact (ne_of_suffix (by decide) hsuffix).symm
    have hpruned := @binding_pruneVersions env ((e.createDirAll env
      (e.stagePath "active")).writeText env (e.activeLink name)
        (String.ofList (e.versionDir name version ++ ['\n']))) name h keepRollbackVersions
    have hwritten : ((e.createDirAll env (e.stagePath "active")).writeText env (e.activeLink name)
        (String.ofList (e.versionDir name version ++ ['\n']))).disk.read (e.bindingPlace env) =
        e.disk.read (e.bindingPlace env) := by
      simp only [writeText, createDirAll, Disk.read_write, Disk.read_mkdirs, if_neg hmarker]
    exact hpruned.trans hwritten
  · simp only [hdir, Bool.false_eq_true, if_false]

theorem activate_same (name version : String) :
    (e.activate env name version).2 =
      { e with disk := (e.activate env name version).2.disk } := by
  unfold activate pruneVersions
  by_cases hdir : e.isDir env (e.versionDir name version) = true
  · simp only [hdir, if_true]
    split <;> rfl
  · simp only [hdir, Bool.false_eq_true, if_false]

end Frames

end Engine

end ReleaseSignature

end GrServer
