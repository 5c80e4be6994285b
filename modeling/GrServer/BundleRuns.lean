import GrServer.BundleFetch
import GrServer.GuardedRun

/-!
# The bundle of a run

What each call relies on: a finished extraction under its name comes from an
archive with its digest, and so do its archive, once checked, and its stage, once
built.  The calls keep this for each other as long as one name stands for one
digest and no call clears away an extraction that was finished after it looked.
-/

namespace GrServer

open Text ReleaseSignature SharedThreads

namespace BundleFetch

variable {env : Env}

/-! ## What a call relies on -/

def CompleteAt (item : Option Item) : Prop :=
  ∃ tree modified origin, item = some (.dir tree modified origin) ∧ Complete tree

def Right (env : Env) (j : Job) (item : Option Item) : Prop :=
  ∃ tree modified bytes, item = some (.dir tree modified (some bytes)) ∧ Complete tree ∧
    env.sha256Hex bytes = j.entry.sha

theorem Right.completeAt {j : Job} {item : Option Item} (h : Right env j item) :
    CompleteAt item := by
  obtain ⟨tree, modified, bytes, hitem, hcomplete, -⟩ := h
  exact ⟨tree, modified, some bytes, hitem, hcomplete⟩

theorem Right.of_sha {j j' : Job} {item : Option Item} (h : Right env j item)
    (hsha : j.entry.sha = j'.entry.sha) : Right env j' item := by
  obtain ⟨tree, modified, bytes, hitem, hcomplete, hdigest⟩ := h
  exact ⟨tree, modified, bytes, hitem, hcomplete, hdigest.trans hsha⟩

def RightFile (env : Env) (j : Job) (item : Option Item) : Prop :=
  ∀ bytes, item = some (.file bytes) → env.sha256Hex bytes = j.entry.sha

inductive Phase where
  | unmade
  | empty
  | built
  | free

def Probe.phase : Probe → Phase
  | .reuse => .unmade
  | .lost => .built
  | .lostAgain => .built

def Pc.phase : Pc → Phase
  | .probe p => p.phase
  | .marker p _ => p.phase
  | .archive | .digest | .download | .write _ | .publish | .sweep | .createStage => .unmade
  | .list | .links | .createDest | .unpack => .empty
  | .rename _ | .discard _ | .clear => .built
  | .finish | .returned _ _ | .failed => .free

def StageOk (env : Env) (j : Job) : Phase → Option Item → Prop
  | .unmade, item => item = none
  | .empty, item => ∀ x, item = some x → ∃ modified origin, x = .dir Disk.empty modified origin
  | .built, item => item = none ∨ Right env j item
  | .free, _ => True

def PcOk (env : Env) (fs : Fs) (j : Job) : Pc → Prop
  | .marker _ root => ∀ tree modified origin,
      fs j.extracted = some (.dir tree modified origin) → Complete tree ∨ bundleTreeRoot tree [] = root
  | .write bytes => env.sha256Hex bytes = j.entry.sha
  | .publish => ∃ bytes, fs j.tgzTmp = some (.file bytes) ∧ env.sha256Hex bytes = j.entry.sha
  | .sweep | .createStage | .list | .links | .createDest | .unpack => RightFile env j (fs j.tgz)
  | .finish | .discard true => CompleteAt (fs j.extracted)
  | .returned _ found => found = fs j.extracted ∧ CompleteAt (fs j.extracted)
  | _ => True

structure Sane (env : Env) (fs : Fs) (j : Job) (pc : Pc) : Prop where
  tree : CompleteAt (fs j.extracted) → Right env j (fs j.extracted)
  seen : PcOk env fs j pc
  stage : StageOk env j pc.phase (fs j.stage)

def Bundled (env : Env) (j : Job) : Prop :=
  ∀ bytes now tree modified, env.sha256Hex bytes = j.entry.sha →
    env.unpack bytes Disk.empty now = (true, tree, modified) → Complete tree

/-- Names of call `d` that call `c` does not write to. -/
structure Apart (c d : Job) : Prop where
  extracted_tmp : d.extracted ≠ c.tgzTmp
  extracted_tgz : d.extracted ≠ c.tgz
  extracted_swept : ¬c.stagePrefix <+: d.extracted
  tgz_tmp : d.tgz ≠ c.tgzTmp
  tgz_stage : d.tgz ≠ c.stage
  stage_tmp : d.stage ≠ c.tgzTmp

theorem Apart.extracted_stage {c d : Job} (h : Apart c d) : d.extracted ≠ c.stage := by
  intro heq
  apply h.extracted_swept
  rw [heq]
  exact List.prefix_append _ _

structure Related (c d : Job) : Prop where
  sha : c.stem = d.stem → c.entry.sha = d.entry.sha
  apart : Apart c d
  stage : d.stage ≠ c.stage
  tmp : d.tgzTmp ≠ c.tgzTmp

theorem Related.sha_of_extracted {c d : Job} (h : Related c d) (heq : d.extracted = c.extracted) :
    c.entry.sha = d.entry.sha := h.sha (List.append_cancel_right heq).symm

theorem Related.sha_of_tgz {c d : Job} (h : Related c d) (heq : d.tgz = c.tgz) :
    c.entry.sha = d.entry.sha := by
  have hname : d.entry.name = c.entry.name := heq
  refine h.sha ?_
  unfold Job.stem
  rw [hname]

/-! ## What one call does to the others -/

structure Mild (env : Env) (d : Job) (fs fs' : Fs) : Prop where
  extracted : fs' d.extracted = fs d.extracted ∨
    ¬CompleteAt (fs d.extracted) ∧ (fs' d.extracted = none ∨ Right env d (fs' d.extracted))
  tgz : RightFile env d (fs d.tgz) → RightFile env d (fs' d.tgz)
  tmp : ∀ bytes, fs d.tgzTmp = some (.file bytes) → fs' d.tgzTmp = some (.file bytes)
  stage : fs' d.stage = fs d.stage ∨ fs' d.stage = none

theorem StageOk.none {j : Job} (phase : Phase) : StageOk env j phase none := by
  cases phase with
  | unmade => rfl
  | empty => exact nofun
  | built => exact Or.inl rfl
  | free => trivial

theorem Mild.completeAt {d : Job} {fs fs' : Fs} (h : Mild env d fs fs')
    (hcomplete : CompleteAt (fs d.extracted)) : fs' d.extracted = fs d.extracted :=
  h.extracted.resolve_right fun hmild => hmild.1 hcomplete

theorem Sane.mild {d : Job} {pc : Pc} {fs fs' : Fs} (h : Sane env fs d pc)
    (hmild : Mild env d fs fs') : Sane env fs' d pc := by
  constructor
  · intro hcomplete
    rcases hmild.extracted with hsame | ⟨-, hnone | hright⟩
    · rw [hsame] at hcomplete ⊢
      exact h.tree hcomplete
    · rw [hnone] at hcomplete
      obtain ⟨_, _, _, hitem, -⟩ := hcomplete
      cases hitem
    · exact hright
  · have hpc := h.seen
    cases pc with
    | marker p root =>
        intro tree modified origin htree
        rcases hmild.extracted with hsame | ⟨-, hnone | hright⟩
        · rw [hsame] at htree
          exact hpc tree modified origin htree
        · rw [hnone] at htree
          cases htree
        · obtain ⟨tree', _, _, hitem, hcomplete, -⟩ := hright
          rw [hitem] at htree
          cases htree
          exact Or.inl hcomplete
    | publish =>
        obtain ⟨bytes, htmp, hdigest⟩ := hpc
        exact ⟨bytes, hmild.tmp bytes htmp, hdigest⟩
    | sweep | createStage | list | links | createDest | unpack => exact hmild.tgz hpc
    | finish =>
        unfold PcOk at hpc ⊢
        rwa [hmild.completeAt hpc]
    | discard won =>
        cases won with
        | false => trivial
        | true =>
            unfold PcOk at hpc ⊢
            rwa [hmild.completeAt hpc]
    | returned root found =>
        unfold PcOk at hpc ⊢
        rwa [hmild.completeAt hpc.2]
    | write bytes => exact hpc
    | probe p => trivial
    | archive | digest | download | rename again | clear | failed => trivial
  · rcases hmild.stage with hsame | hnone
    · rw [hsame]
      exact h.stage
    · rw [hnone]
      exact StageOk.none _

section Sets

variable {fs : Fs} {p q : Text} {item : Option Item}

theorem Fs.set_self : fs.set p item p = item := Function.update_self p _ _

theorem Fs.set_ne (h : q ≠ p) : fs.set p item q = fs q := Function.update_of_ne h _ _

theorem RightFile.none {j : Job} : RightFile env j none := nofun

theorem RightFile.of_sha {j j' : Job} (h : RightFile env j item)
    (hsha : j.entry.sha = j'.entry.sha) : RightFile env j' item :=
  fun bytes hitem => (h bytes hitem).trans hsha

theorem Right.rightFile {j j' : Job} (h : Right env j item) : RightFile env j' item := by
  obtain ⟨_, _, _, hitem, -⟩ := h
  intro bytes hfile
  rw [hitem] at hfile
  cases hfile

theorem RightFile.set {j : Job} (hold : RightFile env j (fs q)) (hitem : RightFile env j item) :
    RightFile env j (fs.set p item q) := by
  by_cases hq : q = p
  · subst hq
    rwa [Fs.set_self]
  · rwa [Fs.set_ne hq]

theorem Fs.set_none (fs : Fs) (p q : Text) :
    fs.set p Option.none q = fs q ∨ fs.set p Option.none q = Option.none := by
  by_cases hq : q = p
  · subst hq
    exact Or.inr Fs.set_self
  · exact Or.inl (Fs.set_ne hq)

end Sets

inductive Effect (env : Env) (c : Job) (fs : Fs) : Fs → Prop where
  | nothing : Effect env c fs fs
  | own (p : Text) (item : Option Item) (hp : p = c.tgzTmp ∨ p = c.stage) :
      Effect env c fs (fs.set p item)
  | publish (item : Option Item) (hitem : RightFile env c item) :
      Effect env c fs ((fs.set c.tgzTmp none).set c.tgz item)
  | settle (item : Option Item) (hfs : ¬CompleteAt (fs c.extracted)) (hitem : Right env c item) :
      Effect env c fs ((fs.set c.stage none).set c.extracted item)
  | clear (hfs : ¬CompleteAt (fs c.extracted)) : Effect env c fs (fs.set c.extracted none)

theorem Mild.refl {d : Job} (fs : Fs) : Mild env d fs fs :=
  ⟨Or.inl rfl, id, fun _ h => h, Or.inl rfl⟩

theorem mild_swept {d : Job} {fs : Fs} {p : Text} (hdir : ∀ bytes, fs p ≠ some (.file bytes))
    (hp : d.extracted ≠ p) : Mild env d fs (fs.set p none) := by
  refine ⟨Or.inl (Fs.set_ne hp), fun h => h.set RightFile.none, ?_, fs.set_none p d.stage⟩
  intro bytes htmp
  rw [Fs.set_ne, htmp]
  rintro rfl
  exact hdir bytes htmp

theorem Effect.mild {c d : Job} {fs fs' : Fs} (h : Effect env c fs fs') (hto : Related c d)
    (hfrom : Related d c) : Mild env d fs fs' := by
  have hextracted_stage := hto.apart.extracted_stage
  cases h with
  | nothing => exact Mild.refl fs
  | own p item hp =>
      have hne : d.extracted ≠ p ∧ d.tgz ≠ p ∧ d.tgzTmp ≠ p ∧ d.stage ≠ p := by
        rcases hp with rfl | rfl
        · exact ⟨hto.apart.extracted_tmp, hto.apart.tgz_tmp, hto.tmp, hto.apart.stage_tmp⟩
        · exact ⟨hextracted_stage, hto.apart.tgz_stage, hfrom.apart.stage_tmp.symm, hto.stage⟩
      refine ⟨Or.inl (Fs.set_ne hne.1), ?_, ?_, Or.inl (Fs.set_ne hne.2.2.2)⟩
      · rw [Fs.set_ne hne.2.1]
        exact id
      · intro bytes htmp
        rw [Fs.set_ne hne.2.2.1, htmp]
  | publish item hitem =>
      refine ⟨Or.inl ?_, ?_, ?_, Or.inl ?_⟩
      · rw [Fs.set_ne hto.apart.extracted_tgz, Fs.set_ne hto.apart.extracted_tmp]
      · intro hold
        by_cases htgz : d.tgz = c.tgz
        · rw [htgz, Fs.set_self]
          exact hitem.of_sha (hto.sha_of_tgz htgz)
        · rw [Fs.set_ne htgz, Fs.set_ne hto.apart.tgz_tmp]
          exact hold
      · intro bytes htmp
        rw [Fs.set_ne hfrom.apart.tgz_tmp.symm, Fs.set_ne hto.tmp, htmp]
      · rw [Fs.set_ne hfrom.apart.tgz_stage.symm, Fs.set_ne hto.apart.stage_tmp]
  | settle item hfs hitem =>
      refine ⟨?_, ?_, ?_, Or.inl ?_⟩
      · by_cases hsame : d.extracted = c.extracted
        · rw [hsame, Fs.set_self]
          exact Or.inr ⟨hfs, Or.inr (hitem.of_sha (hto.sha_of_extracted hsame))⟩
        · rw [Fs.set_ne hsame, Fs.set_ne hextracted_stage]
          exact Or.inl rfl
      · intro hold
        exact (hold.set RightFile.none).set hitem.rightFile
      · intro bytes htmp
        rw [Fs.set_ne hfrom.apart.extracted_tmp.symm, Fs.set_ne hfrom.apart.stage_tmp.symm, htmp]
      · rw [Fs.set_ne hfrom.apart.extracted_stage.symm, Fs.set_ne hto.stage]
  | clear hfs =>
      refine ⟨?_, fun hold => hold.set RightFile.none, ?_, fs.set_none _ _⟩
      · by_cases hsame : d.extracted = c.extracted
        · rw [hsame, Fs.set_self]
          exact Or.inr ⟨hfs, Or.inl rfl⟩
        · exact Or.inl (Fs.set_ne hsame)
      · intro bytes htmp
        rw [Fs.set_ne hfrom.apart.extracted_tmp.symm, htmp]

/-! ## What one call does to itself -/

theorem hasNoEntry_empty : hasNoEntry Disk.empty = true := rfl

theorem Complete.hasNoEntry {tree : Disk Text} (h : Complete tree) : hasNoEntry tree = false := by
  rw [Bool.eq_false_iff]
  intro hempty
  unfold BundleFetch.hasNoEntry at hempty
  rw [Bool.and_eq_true, List.isEmpty_iff, List.isEmpty_iff] at hempty
  have hroot : bundleTreeRoot tree [] = [] := by
    unfold bundleTreeRoot
    rw [hempty.1, hempty.2]
  unfold Complete at h
  rw [hroot] at h
  have hmem : "manifest.json".toList ∈ tree.filesIn [] := Disk.mem_filesIn.mpr h
  rw [hempty.1] at hmem
  cases hmem

theorem Fs.rename_eq_some {fs fs' : Fs} {src dst : Text} (h : fs.rename src dst = some fs') :
    fs' = (fs.set src none).set dst (fs src) ∧ fs src ≠ none ∧ ¬CompleteAt (fs dst) := by
  unfold rename at h
  split at h
  · cases h
  · cases h
  · cases h
  · rename_i tree' _ _ tree _ _ hsrc hdst
    split_ifs at h with hempty
    refine ⟨(Option.some.inj h).symm, fun hnone => ?_, ?_⟩
    · rw [hsrc] at hnone
      cases hnone
    · rintro ⟨tree'', _, _, hitem, hcomplete⟩
      rw [hdst] at hitem
      cases hitem
      rw [hcomplete.hasNoEntry] at hempty
      cases hempty
  · rename_i item hsrc hfile hdirFile hdir
    refine ⟨(Option.some.inj h).symm, fun hnone => ?_, ?_⟩
    · rw [hsrc] at hnone
      cases hnone
    · rintro ⟨tree, _, _, hitem, -⟩
      cases item with
      | file bytes => exact hfile _ _ _ _ hitem rfl
      | dir tree' _ _ => exact hdir _ _ _ _ _ _ hitem rfl

section Own

variable {now : ℕ} {fs : Fs} {j : Job} {pc : Pc}

theorem Sane.goes (h : Sane env fs j pc) {pc' : Pc} (hseen : PcOk env fs j pc')
    (hstage : StageOk env j pc'.phase (fs j.stage)) :
    Effect env j fs fs ∧ Sane env fs j pc' :=
  ⟨Effect.nothing, h.tree, hseen, hstage⟩

theorem hasManifest_complete {root : List Text} {p : Probe}
    (h : Sane env fs j (.marker p root)) (hfound : fs.hasManifest j.extracted root = true) :
    CompleteAt (fs j.extracted) := by
  have hseen := h.seen
  unfold Fs.hasManifest at hfound
  split at hfound
  · rename_i tree modified origin htree
    rcases hseen tree modified origin htree with hcomplete | hroot
    · exact ⟨tree, modified, origin, htree, hcomplete⟩
    · refine ⟨tree, modified, origin, htree, ?_⟩
      rw [Complete, hroot]
      exact hfound
  · cases hfound

theorem Sane.probe {p : Probe} (h : Sane env fs j (.probe p)) :
    Sane env fs j (.marker p (fs.treeRoot j.extracted)) := by
  refine ⟨h.tree, ?_, h.stage⟩
  intro tree modified origin htree
  right
  unfold Fs.treeRoot
  rw [htree]

theorem Sane.marker {p : Probe} {root : List Text} (h : Sane env fs j (.marker p root)) :
    Sane env fs j (p.next (fs.hasManifest j.extracted root)) := by
  have hstage := h.stage
  cases hfound : fs.hasManifest j.extracted root with
  | false =>
      cases p with
      | reuse => exact ⟨h.tree, trivial, hstage⟩
      | lost => exact ⟨h.tree, trivial, hstage⟩
      | lostAgain => exact ⟨h.tree, trivial, hstage⟩
  | true =>
      have hcomplete := hasManifest_complete h hfound
      cases p with
      | reuse => exact ⟨h.tree, hcomplete, trivial⟩
      | lost => exact ⟨h.tree, hcomplete, hstage⟩
      | lostAgain => exact ⟨h.tree, hcomplete, hstage⟩

theorem Sane.publish (ha : Apart j j) (h : Sane env fs j .publish) :
    Effect env j fs ((fs.rename j.tgzTmp j.tgz).getD fs) ∧
      Sane env ((fs.rename j.tgzTmp j.tgz).getD fs) j .sweep := by
  obtain ⟨bytes, htmp, hdigest⟩ := h.seen
  have hfile : RightFile env j (fs j.tgzTmp) := by
    intro bytes' hbytes
    rw [htmp] at hbytes
    cases hbytes
    exact hdigest
  cases hmoved : fs.rename j.tgzTmp j.tgz with
  | none =>
      refine h.goes ?_ h.stage
      intro bytes' hbytes
      unfold Fs.rename at hmoved
      rw [htmp, hbytes] at hmoved
      cases hmoved
  | some fs' =>
      obtain ⟨rfl, -, -⟩ := Fs.rename_eq_some hmoved
      refine ⟨Effect.publish _ hfile, ?_, ?_, ?_⟩
      · rw [Option.getD_some, Fs.set_ne ha.extracted_tgz, Fs.set_ne ha.extracted_tmp]
        exact h.tree
      · change RightFile env j (((fs.set j.tgzTmp none).set j.tgz (fs j.tgzTmp)) j.tgz)
        rw [Fs.set_self]
        exact hfile
      · rw [Option.getD_some, Fs.set_ne ha.tgz_stage.symm, Fs.set_ne ha.stage_tmp]
        exact h.stage

theorem Sane.writes (ha : Apart j j) (h : Sane env fs j pc) {p : Text} (item : Option Item)
    (hp : p = j.tgzTmp ∨ p = j.stage) {pc' : Pc} (hseen : PcOk env (fs.set p item) j pc')
    (hstage : StageOk env j pc'.phase (fs.set p item j.stage)) :
    Effect env j fs (fs.set p item) ∧ Sane env (fs.set p item) j pc' := by
  have hne : j.extracted ≠ p := by
    rcases hp with rfl | rfl
    · exact ha.extracted_tmp
    · exact ha.extracted_stage
  refine ⟨Effect.own p item hp, ?_, hseen, hstage⟩
  rw [Fs.set_ne hne]
  exact h.tree

theorem Sane.fails (h : Sane env fs j pc) : Effect env j fs fs ∧ Sane env fs j .failed :=
  h.goes trivial trivial

theorem Sane.write (ha : Apart j j) {bytes : List UInt8} (h : Sane env fs j (.write bytes)) :
    Effect env j fs (fs.set j.tgzTmp (some (.file bytes))) ∧
      Sane env (fs.set j.tgzTmp (some (.file bytes))) j .publish := by
  refine h.writes ha _ (Or.inl rfl) ⟨bytes, Fs.set_self, h.seen⟩ ?_
  rw [Fs.set_ne ha.stage_tmp]
  exact h.stage

theorem Sane.createDir (ha : Apart j j) (h : Sane env fs j pc) {fs' : Fs} {pc' : Pc}
    (hmade : fs.createDir now j.stage = some fs')
    (hold : StageOk env j .empty (fs j.stage)) (hphase : pc'.phase = .empty)
    (hseen : ∀ fs : Fs, RightFile env j (fs j.tgz) → PcOk env fs j pc')
    (htgz : RightFile env j (fs j.tgz)) : Effect env j fs fs' ∧ Sane env fs' j pc' := by
  unfold Fs.createDir at hmade
  split at hmade
  · cases hmade
    refine h.writes ha _ (Or.inr rfl) (hseen _ ?_) ?_
    · rw [Fs.set_ne ha.tgz_stage]
      exact htgz
    · rw [hphase, Fs.set_self]
      intro x hx
      exact ⟨now, none, (Option.some.inj hx).symm⟩
  · cases hmade
    refine h.goes (hseen _ htgz) ?_
    rw [hphase]
    exact hold
  · cases hmade

theorem Sane.unpack (ha : Apart j j) (hb : Bundled env j) (h : Sane env fs j .unpack) :
    Effect env j fs (unpackInto env now fs j).1 ∧
      Sane env (unpackInto env now fs j).1 j (unpackInto env now fs j).2 := by
  have htgz : RightFile env j (fs j.tgz) := h.seen
  have hempty : StageOk env j .empty (fs j.stage) := h.stage
  unfold unpackInto
  split
  · rename_i bytes tree modified origin harchive hstage
    obtain ⟨_, _, hitem⟩ := hempty _ hstage
    cases hitem
    rw [hasNoEntry_empty]
    rcases hmade : env.unpack bytes Disk.empty now with ⟨ok, made, left⟩
    dsimp only
    cases ok with
    | false => exact h.writes ha _ (Or.inr rfl) trivial trivial
    | true =>
        refine h.writes ha _ (Or.inr rfl) trivial ?_
        have hdigest := htgz bytes harchive
        rw [Fs.set_self]
        exact Or.inr ⟨made, left, bytes, rfl, hb bytes now made left hdigest hmade, hdigest⟩
  · exact h.fails

theorem Sane.rename {again : Bool} (h : Sane env fs j (.rename again)) {fs' : Fs}
    (hmoved : fs.rename j.stage j.extracted = some fs') :
    Effect env j fs fs' ∧ Sane env fs' j .finish := by
  obtain ⟨rfl, hstage, hfree⟩ := Fs.rename_eq_some hmoved
  have hright : Right env j (fs j.stage) := h.stage.resolve_left hstage
  refine ⟨Effect.settle _ hfree hright, ?_, ?_, trivial⟩
  · intro _
    rw [Fs.set_self]
    exact hright
  · unfold PcOk
    rw [Fs.set_self]
    exact hright.completeAt

theorem Fs.removeDirAll_eq (fs : Fs) (p : Text) :
    fs.removeDirAll p = fs ∨ fs.removeDirAll p = fs.set p none := by
  unfold removeDirAll
  split
  · exact Or.inr rfl
  · exact Or.inl rfl

theorem Sane.discard (ha : Apart j j) {won : Bool} (h : Sane env fs j (.discard won)) :
    Effect env j fs (fs.removeDirAll j.stage) ∧
      Sane env (fs.removeDirAll j.stage) j (if won then .finish else .failed) := by
  have hseen : won = true → CompleteAt (fs j.extracted) := by
    rintro rfl
    exact h.seen
  rcases fs.removeDirAll_eq j.stage with hsame | hgone
  · rw [hsame]
    cases won with
    | false => exact h.fails
    | true => exact h.goes (hseen rfl) trivial
  · rw [hgone]
    cases won with
    | false => exact h.writes ha none (Or.inr rfl) trivial trivial
    | true =>
        refine h.writes ha none (Or.inr rfl) ?_ trivial
        unfold PcOk
        rw [Fs.set_ne ha.extracted_stage]
        exact hseen rfl

theorem Sane.clear (ha : Apart j j) (h : Sane env fs j .clear)
    (hfree : ¬CompleteAt (fs j.extracted)) :
    Effect env j fs (fs.removeDirAll j.extracted) ∧
      Sane env (fs.removeDirAll j.extracted) j (.rename true) := by
  rcases fs.removeDirAll_eq j.extracted with hsame | hgone
  · rw [hsame]
    exact h.goes trivial h.stage
  · rw [hgone]
    refine ⟨Effect.clear hfree, ?_, trivial, ?_⟩
    · rintro ⟨_, _, _, hitem, -⟩
      rw [Fs.set_self] at hitem
      cases hitem
    · rw [Fs.set_ne ha.extracted_stage.symm]
      exact h.stage

theorem Sane.advance (now : ℕ) (ha : Apart j j) (hb : Bundled env j) (h : Sane env fs j pc)
    (hfree : pc = .clear → ¬CompleteAt (fs j.extracted)) :
    Effect env j fs (advance env now fs j pc).1 ∧
      Sane env (advance env now fs j pc).1 j (advance env now fs j pc).2 := by
  cases pc with
  | probe p => exact ⟨Effect.nothing, h.probe⟩
  | marker p root => exact ⟨Effect.nothing, h.marker⟩
  | archive =>
      unfold BundleFetch.advance
      dsimp only
      split_ifs
      · exact h.goes trivial h.stage
      · exact h.goes trivial h.stage
  | digest =>
      unfold BundleFetch.advance
      dsimp only
      split
      · rename_i bytes harchive
        split_ifs with hdigest
        · refine h.goes ?_ h.stage
          intro bytes' hbytes
          rw [harchive] at hbytes
          cases hbytes
          exact hdigest
        · exact h.goes trivial h.stage
      · exact h.fails
  | download => exact ⟨Effect.nothing, h⟩
  | write bytes =>
      unfold BundleFetch.advance
      dsimp only
      split
      · exact h.fails
      · exact h.write ha
  | publish => exact h.publish ha
  | sweep => exact h.goes h.seen h.stage
  | createStage =>
      have hnone : fs j.stage = none := h.stage
      have hold : StageOk env j .empty (fs j.stage) := by
        rw [hnone]
        exact StageOk.none .empty
      unfold BundleFetch.advance
      dsimp only
      split
      · rename_i fs' hmade
        exact h.createDir ha hmade hold rfl (fun _ hfile => hfile) h.seen
      · exact h.fails
  | list =>
      unfold BundleFetch.advance
      dsimp only
      split
      · split
        · split_ifs
          · exact h.fails
          · exact h.goes h.seen h.stage
        · exact h.fails
      · exact h.fails
  | links =>
      unfold BundleFetch.advance
      dsimp only
      split
      · split
        · split_ifs
          · exact h.fails
          · exact h.goes h.seen h.stage
        · exact h.goes h.seen h.stage
      · exact h.goes h.seen h.stage
  | createDest =>
      unfold BundleFetch.advance
      dsimp only
      split
      · rename_i fs' hmade
        exact h.createDir ha hmade h.stage rfl (fun _ hfile => hfile) h.seen
      · exact h.fails
  | unpack => exact h.unpack ha hb
  | rename again =>
      unfold BundleFetch.advance
      dsimp only
      split
      · rename_i fs' hmoved
        exact h.rename hmoved
      · cases again with
        | false => exact h.goes trivial h.stage
        | true => exact h.goes trivial h.stage
  | discard won => exact h.discard ha
  | clear => exact h.clear ha (hfree rfl)
  | finish => exact h.goes ⟨rfl, h.seen⟩ trivial
  | returned root found => exact ⟨Effect.nothing, h⟩
  | failed => exact ⟨Effect.nothing, h⟩

end Own

/-! ## Names that stay apart -/

structure Plain (j : Job) : Prop where
  archive : ".tar.gz".toList <:+ j.entry.name
  stages : ¬".extract-".toList <:+: j.entry.name
  uniq : ∀ c ∈ j.uniq, c.isDigit = true ∨ c = '-'
  ne_nil : j.uniq ≠ []

section Names

variable {c d j : Job}

theorem trimEndMatches_front (suffix : Text) (n : ℕ) (t : Text) :
    trimEndMatches suffix n t <+: t := by
  induction n generalizing t with
  | zero => exact List.prefix_rfl
  | succ n ih =>
      unfold trimEndMatches
      split_ifs
      · exact (ih _).trans (List.take_prefix _ _)
      · exact List.prefix_rfl

theorem getLast?_extracted (j : Job) : j.extracted.getLast? = some 'd' :=
  List.getLast?_append_of_ne_nil _ (List.cons_ne_nil _ _)

theorem Plain.getLast?_tgz (h : Plain j) : j.tgz.getLast? = some 'z' := by
  obtain ⟨front, hname⟩ := h.archive
  unfold Job.tgz
  rw [← hname]
  exact List.getLast?_append_of_ne_nil _ (List.cons_ne_nil _ _)

theorem Plain.last_ne (h : Plain j) {front t : Text} {x : Char} (ht : t.getLast? = some x)
    (hx : x.isDigit = false ∧ x ≠ '-') : t ≠ front ++ j.uniq := by
  rintro rfl
  rw [List.getLast?_append_of_ne_nil _ h.ne_nil] at ht
  rcases h.uniq x (List.mem_of_getLast? ht) with hdigit | hdash
  · rw [hx.1] at hdigit
    cases hdigit
  · exact hx.2 hdash

theorem Plain.dot_not_mem (h : Plain j) {word : Text} (hword : '.' ∉ word) :
    '.' ∉ word ++ j.uniq := by
  intro hdot
  rcases List.mem_append.mp hdot with hdot | hdot
  · exact hword hdot
  · rcases h.uniq '.' hdot with hdigit | hdash
    · cases hdigit
    · cases hdash

theorem stage_eq (j : Job) : j.stage = j.stem ++ '.' :: ("extract-".toList ++ j.uniq) := by
  unfold Job.stage Job.stagePrefix
  rw [List.append_assoc]
  rfl

theorem tgzTmp_eq (j : Job) : j.tgzTmp = j.entry.name ++ '.' :: ("dl-".toList ++ j.uniq) := by
  unfold Job.tgzTmp
  rw [List.append_assoc]
  rfl

theorem Plain.not_swept (h : Plain d) : ¬c.stagePrefix <+: d.extracted := by
  rintro ⟨t, ht⟩
  have hinside (hstem : ".extract-".toList <:+: d.stem) : False :=
    h.stages (hstem.trans (trimEndMatches_front _ _ _).isInfix)
  unfold Job.stagePrefix Job.extracted at ht
  rcases List.append_eq_append_iff.mp ht with ⟨rest, hd, -⟩ | ⟨rest, hc, hrest⟩
  · rw [hd] at hinside
    exact hinside ⟨c.stem, rest, rfl⟩
  · by_cases hnil : rest = []
    · rw [hnil, List.append_nil] at hc
      rw [← hc] at hinside
      exact hinside (List.suffix_append _ _).isInfix
    · have hlast := congrArg List.getLast? hc
      have hword : ".extract-".toList ≠ [] := by decide
      rw [List.getLast?_append_of_ne_nil _ hword, List.getLast?_append_of_ne_nil _ hnil] at hlast
      have hdash : '-' ∈ rest ++ t := List.mem_append_left t (List.mem_of_getLast? hlast.symm)
      rw [← hrest] at hdash
      exact absurd hdash (by decide)

theorem Plain.apart (hc : Plain c) (hd : Plain d) : Apart c d where
  extracted_tmp := hc.last_ne (getLast?_extracted d) (by decide)
  extracted_tgz heq := by
    have hlast := getLast?_extracted d
    rw [heq, hc.getLast?_tgz] at hlast
    cases hlast
  extracted_swept := hd.not_swept
  tgz_tmp := hc.last_ne hd.getLast?_tgz (by decide)
  tgz_stage := hc.last_ne hd.getLast?_tgz (by decide)
  stage_tmp heq := by
    rw [stage_eq, tgzTmp_eq] at heq
    have hword := (append_cons_last_inj heq (hd.dot_not_mem (by decide))
      (hc.dot_not_mem (by decide))).2
    cases hword

theorem Plain.related (hc : Plain c) (hd : Plain d) (huniq : c.uniq ≠ d.uniq)
    (hsha : c.stem = d.stem → c.entry.sha = d.entry.sha) : Related c d where
  sha := hsha
  apart := hc.apart hd
  stage heq := by
    rw [stage_eq, stage_eq] at heq
    have hword := (append_cons_last_inj heq (hd.dot_not_mem (by decide))
      (hc.dot_not_mem (by decide))).2
    exact huniq (List.append_cancel_left hword).symm
  tmp heq := by
    rw [tgzTmp_eq, tgzTmp_eq] at heq
    have hword := (append_cons_last_inj heq (hd.dot_not_mem (by decide))
      (hc.dot_not_mem (by decide))).2
    exact huniq (List.append_cancel_left hword).symm

end Names

/-! ## Runs -/

structure NewJob (env : Env) (cache : Cache) (s : State) (j : Job) : Prop where
  /-- No call asked for another digest under this name. -/
  sha : ∀ id c, s.locals id = some c → c.job.stem = j.stem → c.job.entry.sha = j.entry.sha
  /-- A finished extraction that was there before the run comes from an archive with
  the digest. -/
  leftover : CompleteAt (cache.fs j.extracted) → Right env j (cache.fs j.extracted)
  bundled : Bundled env j
  stage : s.shared.fs j.stage = none
  self : Apart j j
  others : ∀ id c, s.locals id = some c → Apart j c.job ∧ Apart c.job j ∧
    j.stage ≠ c.job.stage ∧ j.tgzTmp ≠ c.job.tgzTmp

theorem Plain.newJob {cache : Cache} {s : State} {j : Job} (h : Plain j)
    (hcalls : ∀ id c, s.locals id = some c → Plain c.job ∧ c.job.uniq ≠ j.uniq ∧
      (c.job.stem = j.stem → c.job.entry.sha = j.entry.sha))
    (hleftover : CompleteAt (cache.fs j.extracted) → Right env j (cache.fs j.extracted))
    (hbundled : Bundled env j) (hstage : s.shared.fs j.stage = none) : NewJob env cache s j where
  sha id c hc := (hcalls id c hc).2.2
  leftover := hleftover
  bundled := hbundled
  stage := hstage
  self := h.apart h
  others id c hc := by
    obtain ⟨hplain, huniq, hsha⟩ := hcalls id c hc
    have hrel := hplain.related h huniq hsha
    exact ⟨h.apart hplain, hrel.apart, hrel.stage, hrel.tmp⟩

/-- One digest for one name, suffixes that are new, and no finished extraction that is
cleared away. -/
def Meets (env : Env) (cache : Cache) (s : State) : Step → Prop
  | .call id entry uniq => s.locals id = none → NewJob env cache s ⟨entry, uniq⟩
  | .run id => ∀ c, s.locals id = some c → c.pc = .clear →
      ¬CompleteAt (s.shared.fs c.job.extracted)
  | _ => True

/-- What every call was given was extracted from an archive with the digest that it
was given by the index, and stands there still. -/
def Upheld (env : Env) (s : State) : Prop :=
  ∀ id c root found, s.locals id = some c → c.pc = .returned root found →
    Right env c.job found ∧ s.shared.fs c.job.extracted = found

def Kept (env : Env) (cache : Cache) (c : Call) : Prop :=
  Apart c.job c.job ∧ Bundled env c.job ∧ Sane env cache.fs c.job c.pc

abbrev Inv (env : Env) (s : State) : Prop := Rely (Kept env) (fun c d => Related c.job d.job) s

def Spared (c : Job) (p : Text) : Prop := p ≠ c.tgzTmp ∧ p ≠ c.tgz ∧ ¬c.stagePrefix <+: p

def Traced (env : Env) (cache : Cache) (s : State) : Prop :=
  ∀ p, (∀ id c, s.locals id = some c → Spared c.job p) →
    s.shared.fs p = cache.fs p ∨ s.shared.fs p = none ∨
      ∃ id c, s.locals id = some c ∧ p = c.job.extracted ∧ Right env c.job (s.shared.fs p)

section Steps

variable {s : State} {id : ℕ} {c : Call} {cache : Cache}

theorem Apart.spared {c d : Job} (h : Apart c d) : Spared c d.extracted :=
  ⟨h.extracted_tmp, h.extracted_tgz, h.extracted_swept⟩

theorem Spared.ne_stage {c : Job} {p : Text} (h : Spared c p) : p ≠ c.stage := by
  rintro rfl
  exact h.2.2 (List.prefix_append _ _)

theorem Effect.spared {c : Job} {fs fs' : Fs} (h : Effect env c fs fs') {p : Text}
    (hp : Spared c p) : fs' p = fs p ∨ fs' p = none ∨ p = c.extracted ∧ Right env c (fs' p) := by
  cases h with
  | nothing => exact Or.inl rfl
  | own q item hq =>
      left
      rcases hq with rfl | rfl
      · exact Fs.set_ne hp.1
      · exact Fs.set_ne hp.ne_stage
  | publish item hitem =>
      left
      rw [Fs.set_ne hp.2.1, Fs.set_ne hp.1]
  | settle item hfs hitem =>
      by_cases hsame : p = c.extracted
      · refine Or.inr (Or.inr ⟨hsame, ?_⟩)
        rw [hsame, Fs.set_self]
        exact hitem
      · left
        rw [Fs.set_ne hsame, Fs.set_ne hp.ne_stage]
  | clear hfs => exact (fs.set_none c.extracted p).imp_right Or.inl

theorem Traced.put (h : Traced env cache s) (hc : s.locals id = some c) {fs : Fs} {pc : Pc}
    (hfs : ∀ p, Spared c.job p → fs p = s.shared.fs p ∨ fs p = none ∨
      p = c.job.extracted ∧ Right env c.job (fs p)) : Traced env cache (s.put id c fs pc) := by
  intro p hspared
  have hself : (s.put id c fs pc).locals id = some { c with pc := pc } := Threads.locals_move_self
  have hother : ∀ i d, s.locals i = some d →
      ∃ d', (s.put id c fs pc).locals i = some d' ∧ d'.job = d.job := by
    intro i d hd
    by_cases hi : i = id
    · subst hi
      rw [hc] at hd
      cases hd
      exact ⟨_, hself, rfl⟩
    · exact ⟨d, (Threads.locals_move_ne hi).trans hd, rfl⟩
  have hbefore : ∀ i d, s.locals i = some d → Spared d.job p := by
    intro i d hd
    obtain ⟨d', hd', hjob⟩ := hother i d hd
    exact hjob ▸ hspared i d' hd'
  rcases hfs p (hbefore id c hc) with hsame | hnone | ⟨hp, hright⟩
  · have hkept : (s.put id c fs pc).shared.fs p = s.shared.fs p := hsame
    rw [hkept]
    rcases h p hbefore with hkept | hgone | ⟨i, d, hd, hp, hright⟩
    · exact Or.inl hkept
    · exact Or.inr (Or.inl hgone)
    · obtain ⟨d', hd', hjob⟩ := hother i d hd
      exact Or.inr (Or.inr ⟨i, d', hd', hjob ▸ hp, hjob ▸ hright⟩)
  · exact Or.inr (Or.inl hnone)
  · exact Or.inr (Or.inr ⟨id, _, hself, hp, hright⟩)

theorem Traced.call (h : Traced env cache s) (hnone : s.locals id = none) (j : Job) :
    Traced env cache (s.move id s.shared ⟨j, .probe .reuse⟩) := by
  have hother : ∀ i d, s.locals i = some d →
      (s.move id s.shared ⟨j, .probe .reuse⟩).locals i = some d := by
    intro i d hd
    refine (Threads.locals_move_ne ?_).trans hd
    rintro rfl
    rw [hnone] at hd
    cases hd
  intro p hspared
  rcases h p fun i d hd => hspared i d (hother i d hd) with hkept | hgone | ⟨i, d, hd, hp, hright⟩
  · exact Or.inl hkept
  · exact Or.inr (Or.inl hgone)
  · exact Or.inr (Or.inr ⟨i, d, hother i d hd, hp, hright⟩)

theorem Traced.leftover (h : Traced env cache s) {j : Job} (hnew : NewJob env cache s j)
    (hcomplete : CompleteAt (s.shared.fs j.extracted)) :
    Right env j (s.shared.fs j.extracted) := by
  rcases h j.extracted fun i d hd => (hnew.others i d hd).2.1.spared with
    hkept | hgone | ⟨i, d, hd, hp, hright⟩
  · rw [hkept] at hcomplete ⊢
    exact hnew.leftover hcomplete
  · rw [hgone] at hcomplete
    obtain ⟨_, _, _, hitem, -⟩ := hcomplete
    cases hitem
  · exact hright.of_sha (hnew.sha i d hd (List.append_cancel_right hp).symm)

theorem Inv.put (h : Inv env s) (hc : s.locals id = some c) {fs : Fs} {pc : Pc}
    (hown : Sane env fs c.job pc)
    (hothers : ∀ d : Job, Related c.job d → Related d c.job → Mild env d s.shared.fs fs) :
    Inv env (s.put id c fs pc) := by
  obtain ⟨ha, hb, -⟩ := h.each id c hc
  refine Rely.move h hc ⟨ha, hb, hown⟩ (fun _ hrel => hrel) (fun _ hrel => hrel) ?_
  rintro d hto hfrom ⟨ha, hb, hsane⟩
  exact ⟨ha, hb, hsane.mild (hothers d.job hto hfrom)⟩

/-- What holds of every state of a run that starts with `cache`. -/
structure Held (env : Env) (cache : Cache) (s : State) : Prop where
  inv : Inv env s
  traced : Traced env cache s

theorem Held.put (h : Held env cache s) (hc : s.locals id = some c) {fs : Fs} {pc : Pc}
    (heffect : Effect env c.job s.shared.fs fs) (hown : Sane env fs c.job pc) :
    Held env cache (s.put id c fs pc) :=
  ⟨h.inv.put hc hown fun _ hto hfrom => heffect.mild hto hfrom,
    h.traced.put hc fun _ hp => heffect.spared hp⟩

theorem Held.call (h : Held env cache s) {j : Job} (hnone : s.locals id = none)
    (hnew : NewJob env cache s j) : Held env cache (s.move id s.shared ⟨j, .probe .reuse⟩) := by
  refine ⟨Rely.spawn h.inv hnone
    ⟨hnew.self, hnew.bundled, h.traced.leftover hnew, trivial, hnew.stage⟩ ?_,
    h.traced.call hnone j⟩
  intro i d hd
  obtain ⟨hto, hfrom, hstage, htmp⟩ := hnew.others i d hd
  have hsha := hnew.sha i d hd
  constructor
  · exact ⟨fun hstem => (hsha hstem.symm).symm, hto, hstage.symm, htmp.symm⟩
  · exact ⟨hsha, hfrom, hstage, htmp⟩

theorem Held.run (h : Held env cache s) (hmeets : Meets env cache s (.run id)) :
    Held env cache (step env s (.run id)) := by
  unfold BundleFetch.step
  dsimp only
  cases hc : s.locals id with
  | none => exact h
  | some c =>
      obtain ⟨ha, hb, hsane⟩ := h.inv.each id c hc
      obtain ⟨heffect, hown⟩ := hsane.advance s.shared.now ha hb (hmeets c hc)
      exact h.put hc heffect hown

theorem Held.receive (h : Held env cache s) (body : Option (List UInt8)) :
    Held env cache (step env s (.receive id body)) := by
  unfold BundleFetch.step
  dsimp only
  split
  · rename_i j hc
    obtain ⟨-, -, hsane⟩ := h.inv.each id _ hc
    refine h.put hc Effect.nothing ?_
    unfold response
    cases body with
    | none => exact hsane.fails.2
    | some bytes =>
        dsimp only
        split_ifs with hdigest
        · have hown : Effect env j s.shared.fs s.shared.fs ∧ Sane env s.shared.fs j (.write bytes) :=
            hsane.goes hdigest hsane.stage
          exact hown.2
        · exact hsane.fails.2
  · exact h

theorem Stale.not_file {cache : Cache} {j : Job} {p : Text} (h : Stale cache j p) :
    j.stagePrefix <+: p ∧ ∀ bytes, cache.fs p ≠ some (.file bytes) := by
  unfold Stale at h
  split at h
  · rename_i hdir
    refine ⟨h.1, fun bytes hfile => ?_⟩
    rw [hdir] at hfile
    cases hfile
  · exact h.elim

theorem Held.sweepOne (h : Held env cache s) (p : Text) :
    Held env cache (step env s (.sweepOne id p)) := by
  unfold BundleFetch.step
  dsimp only
  split
  · rename_i j hc
    split_ifs with hstale
    · obtain ⟨ha, -, hsane⟩ := h.inv.each id _ hc
      obtain ⟨hunder, hdir⟩ := hstale.not_file
      have hswept {d : Job} (hto : Apart j d) : Mild env d s.shared.fs (s.shared.fs.set p none) := by
        apply mild_swept hdir
        rintro rfl
        exact hto.extracted_swept hunder
      have hkept : ∀ q, Spared j q → s.shared.fs.set p none q = s.shared.fs q := by
        intro q hq
        apply Fs.set_ne
        rintro rfl
        exact hq.2.2 hunder
      exact ⟨h.inv.put hc (hsane.mild (hswept ha)) fun d hto _ => hswept hto.apart,
        h.traced.put hc fun q hq => Or.inl (hkept q hq)⟩
    · exact h
  · exact h

theorem leave_eq (fs : Fs) (j : Job) (rest : Option Item) (pc : Pc) :
    leave fs j rest pc = fs ∨ ∃ p, (p = j.tgzTmp ∨ p = j.stage) ∧
      leave fs j rest pc = fs.set p rest := by
  cases pc with
  | write bytes => exact Or.inr ⟨_, Or.inl rfl, rfl⟩
  | unpack => exact Or.inr ⟨_, Or.inr rfl, rfl⟩
  | _ => exact Or.inl rfl

theorem Held.crash (h : Held env cache s) (rest : Option Item) :
    Held env cache (step env s (.crash id rest)) := by
  unfold BundleFetch.step
  dsimp only
  cases hc : s.locals id with
  | none => exact h
  | some c =>
      obtain ⟨ha, -, hsane⟩ := h.inv.each id c hc
      dsimp only
      rcases leave_eq s.shared.fs c.job rest c.pc with hsame | ⟨p, hp, hleft⟩
      · rw [hsame]
        exact h.put hc Effect.nothing hsane.fails.2
      · rw [hleft]
        have hown : Effect env c.job s.shared.fs (s.shared.fs.set p rest) ∧
            Sane env (s.shared.fs.set p rest) c.job .failed := hsane.writes ha rest hp trivial trivial
        exact h.put hc hown.1 hown.2

theorem Held.step (h : Held env cache s) (e : Step) (hmeets : Meets env cache s e) :
    Held env cache (step env s e) := by
  cases e with
  | tick seconds => exact ⟨Rely.drift h.inv fun _ hkept => hkept, h.traced⟩
  | call id entry uniq =>
      unfold BundleFetch.step
      dsimp only
      cases hc : s.locals id with
      | none => exact h.call hc (hmeets hc)
      | some c => exact h
  | run id => exact h.run hmeets
  | receive id body => exact h.receive body
  | sweepOne id p => exact h.sweepOne p
  | crash id rest => exact h.crash rest

theorem Inv.upheld (h : Inv env s) : Upheld env s := by
  intro id c root found hc hpc
  obtain ⟨-, -, hsane⟩ := h.each id c hc
  rw [hpc] at hsane
  obtain ⟨hfound, hcomplete⟩ := hsane.seen
  rw [hfound]
  exact ⟨hsane.tree hcomplete, rfl⟩

end Steps

/-- However the calls interleave: as long as every step meets the condition, every call
that has returned was given what the index named, and no call takes it away. -/
theorem fetch_bundle_law (env : Env) (cache : Cache) (steps : List Step)
    (hmeets : Along (step env) (Meets env cache) ⟨cache, fun _ => none⟩ steps) :
    Along (step env) (fun s e => Upheld env (step env s e)) ⟨cache, fun _ => none⟩ steps := by
  have hstart : Held env cache ⟨cache, fun _ => none⟩ :=
    ⟨⟨fun _ _ h => (nomatch h), fun _ _ _ _ _ h _ => (nomatch h)⟩, fun _ _ => Or.inl rfl⟩
  refine hmeets.steps (I := Held env cache) ?_ hstart
  intro s e hheld he
  have hnext := hheld.step e he
  exact ⟨hnext.inv.upheld, hnext⟩

def sampleTree (bytes : List UInt8) : Disk Text := ⟨[(manifestPlace [], bytes)], []⟩

def sampleEnv : Env where
  sha256Hex bytes := List.replicate 64 (if bytes = [1] then 'a' else 'b')
  list _ := some []
  verbose _ := some []
  unpack bytes _ now := (true, sampleTree bytes, now)

theorem hex_replicate {c : Char} (hc : isAsciiHexdigit c = true) :
    (List.replicate 64 c).length = 64 ∧ ∀ d ∈ List.replicate 64 c, isAsciiHexdigit d = true := by
  refine ⟨List.length_replicate, ?_⟩
  intro d hd
  rw [List.eq_of_mem_replicate hd, hc]

def sampleEntry : BundleEntry where
  name := "g.tar.gz".toList
  sha := List.replicate 64 'a'
  plain := by decide
  hex := hex_replicate rfl

def republished : BundleEntry := { sampleEntry with
  sha := List.replicate 64 'b'
  hex := hex_replicate rfl }

def runs (id n : ℕ) : List Step := List.replicate n (Step.run id)

def fetchSteps (id : ℕ) (entry : BundleEntry) (uniq : Text) (body : List UInt8) : List Step :=
  Step.call id entry uniq :: (runs id 3 ++ Step.receive id (some body) :: runs id 10)

def republishedRun : List Step :=
  fetchSteps 0 sampleEntry ['0'] [1] ++ Step.call 1 republished ['1'] :: runs 1 3

def noCache : Cache := ⟨fun _ => none, 0⟩

def leftoverCache : Cache where
  fs := (noCache.fs.set "g.tar.gz".toList (some (.file [1]))).set "g.d".toList
    (some (.dir ⟨[(["x".toList], [])], []⟩ 0 none))
  now := 0

/-- Both calls find the extraction incomplete; the first clears it away and returns
its own, and the second clears that away. -/
def racedRun : List Step :=
  Step.call 0 sampleEntry ['0'] :: Step.call 1 sampleEntry ['1'] ::
    (runs 0 13 ++ (runs 1 13 ++ (runs 0 3 ++ runs 1 1)))

def given (s : State) (id : ℕ) : Option (Text × List UInt8) :=
  match s.locals id with
  | some ⟨j, .returned _ (some (.dir _ _ (some bytes)))⟩ => some (j.entry.sha, bytes)
  | _ => none

theorem Upheld.given {s : State} {id : ℕ} {sha : Text} {bytes : List UInt8} (h : Upheld env s)
    (hgiven : given s id = some (sha, bytes)) :
    env.sha256Hex bytes = sha ∧ ∃ c, s.locals id = some c ∧ s.shared.fs c.job.extracted ≠ none := by
  unfold BundleFetch.given at hgiven
  split at hgiven
  · rename_i j root tree modified bytes' hc
    cases hgiven
    obtain ⟨⟨_, _, _, hitem, -, hdigest⟩, hthere⟩ := h id _ root _ hc rfl
    cases hitem
    refine ⟨hdigest, _, hc, ?_⟩
    rw [hthere]
    exact nofun
  · cases hgiven

theorem wrong_and_lost_bundles :
    (given (runFrom (step sampleEnv) ⟨noCache, fun _ => none⟩ republishedRun) 1 =
        some (republished.sha, [1]) ∧
      sampleEnv.sha256Hex [1] ≠ republished.sha ∧
      ¬Upheld sampleEnv (runFrom (step sampleEnv) ⟨noCache, fun _ => none⟩ republishedRun)) ∧
    (given (runFrom (step sampleEnv) ⟨leftoverCache, fun _ => none⟩ racedRun) 0 =
        some (sampleEntry.sha, [1]) ∧
      ((runFrom (step sampleEnv) ⟨leftoverCache, fun _ => none⟩ racedRun).shared.fs
        "g.d".toList).isNone = true ∧
      ¬Upheld sampleEnv (runFrom (step sampleEnv) ⟨leftoverCache, fun _ => none⟩ racedRun)) := by
  have hwrong : given (runFrom (step sampleEnv) ⟨noCache, fun _ => none⟩ republishedRun) 1 =
      some (republished.sha, [1]) := by decide
  have hne : sampleEnv.sha256Hex [1] ≠ republished.sha := by decide
  have hlost : given (runFrom (step sampleEnv) ⟨leftoverCache, fun _ => none⟩ racedRun) 0 =
      some (sampleEntry.sha, [1]) := by decide
  have hgone : ∀ c, (runFrom (step sampleEnv) ⟨leftoverCache, fun _ => none⟩ racedRun).locals 0 =
      some c → (runFrom (step sampleEnv) ⟨leftoverCache, fun _ => none⟩ racedRun).shared.fs
        c.job.extracted = none := by
    intro c hc
    cases hc
    rfl
  refine ⟨⟨hwrong, hne, fun h => hne (h.given hwrong).1⟩, hlost, by decide, ?_⟩
  intro h
  obtain ⟨-, c, hc, hthere⟩ := h.given hlost
  exact hthere (hgone c hc)

def sharedRun : List Step :=
  runs 0 3 ++ (runs 1 3 ++ Step.receive 1 (some [1]) :: Step.receive 0 (some [1]) ::
    (runs 0 10 ++ runs 1 13))

theorem plain_sample {digit : Char} (h : digit.isDigit = true) :
    Plain ⟨sampleEntry, [digit]⟩ where
  archive := ⟨"g".toList, rfl⟩
  stages := by
    change ¬".extract-".toList <:+: "g.tar.gz".toList
    decide
  uniq c hc := by
    rw [List.mem_singleton.mp hc]
    exact Or.inl h
  ne_nil := List.cons_ne_nil _ _

theorem bundled_sample (uniq : Text) : Bundled sampleEnv ⟨sampleEntry, uniq⟩ := by
  rintro bytes now tree modified - hmade
  cases hmade
  rfl

/-- No call of the step is about to clear anything away. -/
def quiet (s : State) : Step → Bool
  | .call _ _ _ => false
  | .run id =>
      match s.locals id with
      | some ⟨_, .clear⟩ => false
      | _ => true
  | _ => true

theorem meets_of_quiet {env : Env} {cache : Cache} {s : State} {e : Step}
    (h : quiet s e = true) : Meets env cache s e := by
  cases e with
  | call id entry uniq => cases h
  | run id =>
      intro c hc hpc
      obtain ⟨j, pc⟩ := c
      dsimp only at hpc
      unfold quiet at h
      dsimp only at h
      rw [hc, hpc] at h
      cases h
  | _ => trivial

theorem meets_sharedRun : Along (step sampleEnv) (Meets sampleEnv noCache) ⟨noCache, fun _ => none⟩
    (.call 0 sampleEntry ['0'] :: .call 1 sampleEntry ['1'] :: sharedRun) := by
  have hnone : ¬CompleteAt none := by
    rintro ⟨_, _, _, hitem, -⟩
    cases hitem
  have hzero : Plain ⟨sampleEntry, ['0']⟩ := plain_sample rfl
  have hone : Plain ⟨sampleEntry, ['1']⟩ := plain_sample rfl
  refine ⟨?_, ?_, ?_⟩
  · intro _
    exact hzero.newJob nofun (fun h => absurd h hnone) (bundled_sample _) rfl
  · intro _
    have hold (id : ℕ) (c : Call) (hc : (Threads.move ⟨noCache, fun _ => none⟩ 0 noCache
        ⟨⟨sampleEntry, ['0']⟩, .probe .reuse⟩).locals id = some c) :
        c.job = ⟨sampleEntry, ['0']⟩ := by
      rcases Threads.locals_move_eq_some hc with ⟨-, rfl⟩ | ⟨-, h⟩
      · rfl
      · cases h
    refine hone.newJob ?_ (fun h => absurd h hnone) (bundled_sample _) rfl
    intro id c hc
    rw [hold id c hc]
    exact ⟨hzero, by decide, fun _ => rfl⟩
  · have hquiet : Along (step sampleEnv) (fun s e => quiet s e = true)
        (runFrom (step sampleEnv) ⟨noCache, fun _ => none⟩
          [.call 0 sampleEntry ['0'], .call 1 sampleEntry ['1']]) sharedRun := by
      decide
    exact hquiet.steps (I := fun _ => True) (fun s e _ h => ⟨meets_of_quiet h, trivial⟩) trivial

theorem sharedRun_upheld :
    Along (step sampleEnv) (fun s e => Upheld sampleEnv (step sampleEnv s e))
      ⟨noCache, fun _ => none⟩
        (.call 0 sampleEntry ['0'] :: .call 1 sampleEntry ['1'] :: sharedRun) ∧
      given (runFrom (step sampleEnv) ⟨noCache, fun _ => none⟩
        (.call 0 sampleEntry ['0'] :: .call 1 sampleEntry ['1'] :: sharedRun)) 1 =
        some (sampleEntry.sha, [1]) :=
  ⟨fetch_bundle_law sampleEnv noCache _ meets_sharedRun, by decide⟩

end BundleFetch

end GrServer
