import GrServer.DataTree
import GrServer.SharedThreads

/-!
# Fetching a bundle

Callers share one cache directory.  A call looks for a finished extraction, then
for an archive with the digest that the index gave it, downloads one if there is
none, extracts the archive into a stage of its own and renames the stage.  Every
access to the cache is a step, and the steps of all calls interleave.
-/

namespace GrServer

open Text ReleaseSignature SharedThreads

namespace BundleFetch

/-! ## The cache -/

/-- What stands under a name.  No step reads `origin`, the archive that a directory
was extracted from. -/
inductive Item where
  | file (bytes : List UInt8)
  | dir (tree : Disk Text) (modified : ℕ) (origin : Option (List UInt8))

abbrev Fs := Text → Option Item

structure Cache where
  fs : Fs
  now : ℕ

def hasNoEntry (tree : Disk Text) : Bool := (tree.filesIn []).isEmpty && (tree.subdirs []).isEmpty

namespace Fs

variable (fs : Fs)

def isFile (p : Text) : Bool :=
  match fs p with
  | some (.file _) => true
  | _ => false

def set (p : Text) (item : Option Item) : Fs := Function.update fs p item

/-- A file takes the place of a file, a directory that of a directory without
entries; nothing else is replaced. -/
def rename (src dst : Text) : Option Fs :=
  match fs src, fs dst with
  | none, _ => none
  | some (.file _), some (.dir _ _ _) => none
  | some (.dir _ _ _), some (.file _) => none
  | some (.dir _ _ _), some (.dir tree _ _) =>
      if hasNoEntry tree then some ((fs.set src none).set dst (fs src)) else none
  | some _, _ => some ((fs.set src none).set dst (fs src))

def removeDirAll (p : Text) : Fs :=
  match fs p with
  | some (.dir _ _ _) => fs.set p none
  | _ => fs

/-- `create_dir_all`, which fails where there is a file. -/
def createDir (now : ℕ) (p : Text) : Option Fs :=
  match fs p with
  | none => some (fs.set p (some (.dir Disk.empty now none)))
  | some (.dir _ _ _) => some fs
  | some (.file _) => none

def treeRoot (p : Text) : List Text :=
  match fs p with
  | some (.dir tree _ _) => bundleTreeRoot tree []
  | _ => []

def hasManifest (p : Text) (root : List Text) : Bool :=
  match fs p with
  | some (.dir tree _ _) => tree.isFile (manifestPlace root)
  | _ => false

end Fs

/-- What `extraction_complete` looks for. -/
def Complete (tree : Disk Text) : Prop :=
  tree.isFile (manifestPlace (bundleTreeRoot tree [])) = true

instance (tree : Disk Text) : Decidable (Complete tree) := inferInstanceAs (Decidable (_ = true))

/-! ## The names of a call -/

/-- What the index says of the bundle, once `resolve_bundle_entry` has checked it. -/
structure BundleEntry where
  name : Text
  sha : Text
  plain : name ≠ [] ∧ '/' ∉ name ∧ '\\' ∉ name ∧ ¬"..".toList <:+: name
  hex : sha.length = 64 ∧ ∀ c ∈ sha, isAsciiHexdigit c = true

/-- `trim_end_matches`: the end goes as often as it stands there. -/
def trimEndMatches (suffix : Text) : ℕ → Text → Text
  | 0, t => t
  | n + 1, t =>
      if suffix <:+ t then trimEndMatches suffix n (t.take (t.length - suffix.length)) else t

/-- A call of `fetch_bundle_blocking`: the entry it was given, and its suffix from
process, time and sequence number. -/
structure Job where
  entry : BundleEntry
  uniq : Text

namespace Job

variable (j : Job)

def stem : Text := trimEndMatches ".tar.gz".toList j.entry.name.length j.entry.name

def extracted : Text := j.stem ++ ".d".toList

def tgz : Text := j.entry.name

def tgzTmp : Text := j.entry.name ++ ".dl-".toList ++ j.uniq

def stagePrefix : Text := j.stem ++ ".extract-".toList

def stage : Text := j.stagePrefix ++ j.uniq

end Job

/-! ## The steps of a call -/

inductive Probe where
  | reuse
  | lost
  | lostAgain

inductive Pc where
  | probe (p : Probe)
  | marker (p : Probe) (root : List Text)
  | archive
  | digest
  | download
  | write (bytes : List UInt8)
  | publish
  | sweep
  | createStage
  | list
  | links
  | createDest
  | unpack
  | rename (again : Bool)
  | discard (won : Bool)
  | clear
  | finish
  | returned (root : List Text) (found : Option Item)
  | failed

def Probe.next : Probe → Bool → Pc
  | .reuse, true => .finish
  | .reuse, false => .archive
  | .lost, true => .discard true
  | .lost, false => .clear
  | .lostAgain, true => .discard true
  | .lostAgain, false => .discard false

structure Env where
  sha256Hex : List UInt8 → Text
  /-- The lines of `tar -tzf`. -/
  list : List UInt8 → Option (List Text)
  /-- The lines of `tar -tvzf`. -/
  verbose : List UInt8 → Option (List Text)
  /-- `tar -xzf` into a directory at a time: its success, what then stands there, and
  when it was modified. -/
  unpack : List UInt8 → Disk Text → ℕ → Bool × Disk Text × ℕ

def hasParent (path : Text) (isSep : Char → Bool) : Bool :=
  (path.splitOnP isSep).contains "..".toList

def entryRefused (line : Text) : Bool :=
  let path := trim line
  path.head? == some '/' || hasParent path fun c => c == '/' || c == '\\'

def behind (sep : Text) : Text → Option Text
  | [] => none
  | c :: rest => if sep <+: c :: rest then some ((c :: rest).drop sep.length) else behind sep rest

def linkRefused (line : Text) : Bool :=
  match behind " -> ".toList (trimStart line) with
  | none => false
  | some rest => (trim rest).head? == some '/' || hasParent (trim rest) fun c => c == '/' || c == '\\'

/-- `tar -xzf` of the archive into the stage; what it leaves comes from the archive if
nothing was there before. -/
def unpackInto (env : Env) (now : ℕ) (fs : Fs) (j : Job) : Fs × Pc :=
  match fs j.tgz, fs j.stage with
  | some (.file bytes), some (.dir tree _ _) =>
      let (ok, made, modified) := env.unpack bytes tree now
      let origin := if hasNoEntry tree then some bytes else none
      (fs.set j.stage (some (.dir made modified origin)), if ok then .rename false else .failed)
  | _, _ => (fs, .failed)

/-- One step of a call; a download waits for its response. -/
def advance (env : Env) (now : ℕ) (fs : Fs) (j : Job) : Pc → Fs × Pc
  | .probe p => (fs, .marker p (fs.treeRoot j.extracted))
  | .marker p root => (fs, p.next (fs.hasManifest j.extracted root))
  | .archive => (fs, if fs.isFile j.tgz then .digest else .download)
  | .digest =>
      match fs j.tgz with
      | some (.file bytes) =>
          (fs, if env.sha256Hex bytes = j.entry.sha then .sweep else .download)
      | _ => (fs, .failed)
  | .download => (fs, .download)
  | .write bytes =>
      match fs j.tgzTmp with
      | some (.dir _ _ _) => (fs, .failed)
      | _ => (fs.set j.tgzTmp (some (.file bytes)), .publish)
  | .publish => ((fs.rename j.tgzTmp j.tgz).getD fs, .sweep)
  | .sweep => (fs, .createStage)
  | .createStage =>
      match fs.createDir now j.stage with
      | some fs => (fs, .list)
      | none => (fs, .failed)
  | .list =>
      match fs j.tgz with
      | some (.file bytes) =>
          match env.list bytes with
          | some lines => (fs, if lines.any entryRefused then .failed else .links)
          | none => (fs, .failed)
      | _ => (fs, .failed)
  | .links =>
      match fs j.tgz with
      | some (.file bytes) =>
          match env.verbose bytes with
          | some lines => (fs, if lines.any linkRefused then .failed else .createDest)
          | none => (fs, .createDest)
      | _ => (fs, .createDest)
  | .createDest =>
      match fs.createDir now j.stage with
      | some fs => (fs, .unpack)
      | none => (fs, .failed)
  | .unpack => unpackInto env now fs j
  | .rename again =>
      match fs.rename j.stage j.extracted with
      | some fs => (fs, .finish)
      | none => (fs, .probe (if again then .lostAgain else .lost))
  | .discard won => (fs.removeDirAll j.stage, if won then .finish else .failed)
  | .clear => (fs.removeDirAll j.extracted, .rename true)
  | .finish => (fs, .returned (fs.treeRoot j.extracted) (fs j.extracted))
  | .returned root found => (fs, .returned root found)
  | .failed => (fs, .failed)

def extractStageStale : ℕ := 600

def Stale (c : Cache) (j : Job) (p : Text) : Prop :=
  match c.fs p with
  | some (.dir _ modified _) => j.stagePrefix <+: p ∧ extractStageStale < c.now - modified
  | _ => False

instance (c : Cache) (j : Job) (p : Text) : Decidable (Stale c j p) := by
  unfold Stale
  split
  · exact inferInstanceAs (Decidable (_ ∧ _))
  · exact isFalse nofun

/-- What a call that is killed may leave of what it was writing. -/
def leave (fs : Fs) (j : Job) (rest : Option Item) : Pc → Fs
  | .write _ => fs.set j.tgzTmp rest
  | .unpack => fs.set j.stage rest
  | _ => fs

structure Call where
  job : Job
  pc : Pc

abbrev State := Threads ℕ Cache Call

inductive Step where
  | tick (seconds : ℕ)
  /-- The index is read. -/
  | call (id : ℕ) (entry : BundleEntry) (uniq : Text)
  | run (id : ℕ)
  /-- The response of the release host, if there is one. -/
  | receive (id : ℕ) (body : Option (List UInt8))
  /-- The sweep takes one directory away. -/
  | sweepOne (id : ℕ) (p : Text)
  | crash (id : ℕ) (rest : Option Item)

def State.put (s : State) (id : ℕ) (c : Call) (fs : Fs) (pc : Pc) : State :=
  s.move id { s.shared with fs := fs } { c with pc := pc }

/-- A response counts if it has the digest that was asked for. -/
def response (env : Env) (j : Job) : Option (List UInt8) → Pc
  | some bytes => if env.sha256Hex bytes = j.entry.sha then .write bytes else .failed
  | none => .failed

def step (env : Env) (s : State) : Step → State
  | .tick seconds => { s with shared := { s.shared with now := s.shared.now + seconds } }
  | .call id entry uniq =>
      match s.locals id with
      | none => s.move id s.shared ⟨⟨entry, uniq⟩, .probe .reuse⟩
      | some _ => s
  | .run id =>
      match s.locals id with
      | none => s
      | some c =>
          let (fs, pc) := advance env s.shared.now s.shared.fs c.job c.pc
          s.put id c fs pc
  | .receive id body =>
      match s.locals id with
      | some ⟨j, .download⟩ => s.put id ⟨j, .download⟩ s.shared.fs (response env j body)
      | _ => s
  | .sweepOne id p =>
      match s.locals id with
      | some ⟨j, .sweep⟩ =>
          if Stale s.shared j p then s.put id ⟨j, .sweep⟩ (s.shared.fs.set p none) .sweep else s
      | _ => s
  | .crash id rest =>
      match s.locals id with
      | none => s
      | some c => s.put id c (leave s.shared.fs c.job rest c.pc) .failed

end BundleFetch

end GrServer
