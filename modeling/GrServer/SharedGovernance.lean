import GrServer.GuardedRun
import GrServer.Json

/-!
# Shared governance documents

One document is updated by processes that take turns by a lock file, or that
read and write it in Redis without one.  A process moves in the single steps of
its file and network operations, and may stop for good before any of them.

A name in the directory refers to an inode, and an open file is written through
its inode.  The clock counts milliseconds.
-/

namespace GrServer

open Json

namespace SharedGovernance

/-! ## Files -/

inductive Content where
  | empty
  | whole (v : Json)
  /-- A write that failed half way, over what stood in the file. -/
  | part (v : Json) (old : Content)
  /-- A whole document over a text that was not emptied before: what is longer
  of the old text stands out behind it. -/
  | over (v : Json) (old : Content)

def Content.written (v : Json) : Content → Content
  | .empty => .whole v
  | old => .over v old

structure Files where
  inode : ℕ → Content
  /-- The next inode. -/
  fresh : ℕ
  doc : Option ℕ
  tmp : Option ℕ

namespace Files

section Reading

-- What a text reads as that is not the document of one whole write.
variable (readTorn : Content → Option Json)

/-- `load_json`: a file that is missing or no JSON reads as none. -/
def loadJson (f : Files) : Option Json :=
  f.doc.bind fun i =>
    match f.inode i with
    | .empty => none
    | .whole v => some v
    | torn => readTorn torn

end Reading

def store (f : Files) (i : ℕ) (c : Content) : Files :=
  { f with inode := Function.update f.inode i c }

def openTmp (f : Files) : ℕ × Files :=
  match f.tmp with
  | some i => (i, f.store i .empty)
  | none => (f.fresh, { f.store f.fresh .empty with fresh := f.fresh + 1, tmp := some f.fresh })

def renameTmp (f : Files) : Files :=
  match f.tmp with
  | some i => { f with doc := some i, tmp := none }
  | none => f

end Files

structure Call where
  default : Json
  update : Json → Json

def asObjectOrEmpty : Json → Json
  | .obj members => .obj members
  | _ => .obj []

/-- The document after a call that has read `stored`. -/
def Call.apply (c : Call) (stored : Option Json) : Json :=
  c.update (asObjectOrEmpty (stored.getD c.default))

def applyNth (started : List Call) (n : ℕ) (stored : Option Json) : Json :=
  match started[n]? with
  | some c => c.apply stored
  | none => .null

/-! ## Processes -/

/-- What the lock is taken for: the update of the document, or the save of a
document that Redis did not take. -/
inductive Todo where
  | load
  | fallback (v : Json)

inductive After where
  | release
  | finish

inductive Pc where
  | idle
  | seeding
  | getting (seed : Option Json)
  /-- The document is the update of `base`. -/
  | setting (base : Option Json)
  | checking (attempt : ℕ) (todo : Todo)
  | reclaiming (attempt : ℕ) (todo : Todo)
  | creating (attempt : ℕ) (todo : Todo)
  | loading
  | opening (v : Json) (after : After)
  | writing (ino : ℕ) (v : Json) (after : After)
  | renamingTmp (after : After)
  | releasing
  | crashed

structure LockFile where
  owner : ℕ
  born : ℕ

structure World where
  /-- Redis is configured. -/
  l2 : Bool
  clock : ℕ
  lock : Option LockFile
  files : Files
  redis : Option Json
  pc : ℕ → Pc
  /-- The number of the call a process is in. -/
  call : ℕ → ℕ
  started : List Call
  /-- The calls that returned `Some`. -/
  returned : List ℕ

namespace World

def goto (s : World) (p : ℕ) (c : Pc) : World :=
  { s with pc := Function.update s.pc p c }

def finishCall (s : World) (p : ℕ) : World :=
  { s.goto p .idle with returned := s.returned ++ [s.call p] }

def updated (s : World) (p : ℕ) (stored : Option Json) : Json :=
  applyNth s.started (s.call p) stored

def staleLockMs : ℕ := 2000

def maxAttempts : ℕ := 200

def lockIsStale (s : World) : Bool :=
  s.lock.any fun l => decide (staleLockMs < s.clock - l.born)

/-- The lock is held; the fallback's document is saved without a read. -/
def afterLock : Todo → Pc
  | .load => .loading
  | .fallback v => .opening v .release

def afterSave (s : World) (p : ℕ) : After → World
  | .release => s.goto p .releasing
  | .finish => s.finishCall p

end World

/-! ## Steps -/

/-- Redis took the document, took it but the reply was lost, or did not. -/
inductive SetReply where
  | stored
  | lost
  | failed
  deriving DecidableEq

/-- The flag of an operation is whether it succeeded. -/
inductive Event where
  | tick (ms : ℕ)
  | call (p : ℕ) (c : Call)
  | seed (p : ℕ) (ok : Bool)
  | get (p : ℕ) (ok : Bool)
  | set (p : ℕ) (reply : SetReply)
  | check (p : ℕ)
  | reclaim (p : ℕ)
  | create (p : ℕ)
  | load (p : ℕ) (ok : Bool)
  | openTmp (p : ℕ) (ok : Bool)
  | write (p : ℕ) (ok : Bool)
  | rename (p : ℕ) (ok : Bool)
  | release (p : ℕ)
  | crash (p : ℕ)

open World

section Steps

variable (readTorn : Content → Option Json)

def startCall (s : World) (p : ℕ) (c : Call) : World :=
  match s.pc p with
  | .idle =>
      { s.goto p (if s.l2 then .seeding else .checking 0 .load) with
        call := Function.update s.call p s.started.length
        started := s.started ++ [c] }
  | _ => s

def readSeed (s : World) (p : ℕ) (ok : Bool) : World :=
  match s.pc p with
  | .seeding => s.goto p (.getting (if ok then s.files.loadJson readTorn else none))
  | _ => s

def l2GetJson (s : World) (p : ℕ) (ok : Bool) : World :=
  match s.pc p with
  | .getting seed =>
      s.goto p (.setting ((if ok then s.redis else none).or seed))
  | _ => s

def l2SetJson (s : World) (p : ℕ) (reply : SetReply) : World :=
  match s.pc p with
  | .setting base =>
      let v := s.updated p base
      match reply with
      | .stored => { s.goto p (.opening v .finish) with redis := some v }
      | .lost => { s.goto p (.checking 0 (.fallback v)) with redis := some v }
      | .failed => s.goto p (.checking 0 (.fallback v))
  | _ => s

def checkLock (s : World) (p : ℕ) : World :=
  match s.pc p with
  | .checking n todo => s.goto p (if s.lockIsStale then .reclaiming n todo else .creating n todo)
  | _ => s

def reclaimLock (s : World) (p : ℕ) : World :=
  match s.pc p with
  | .reclaiming n todo => { s.goto p (.creating n todo) with lock := none }
  | _ => s

/-- Where the last attempt fails the update returns `None`; the fallback has
nothing to undo and returns `Some`. -/
def createLock (s : World) (p : ℕ) : World :=
  match s.pc p with
  | .creating n todo =>
      match s.lock with
      | none => { s.goto p (afterLock todo) with lock := some ⟨p, s.clock⟩ }
      | some _ =>
          if n + 1 < maxAttempts then s.goto p (.checking (n + 1) todo)
          else
            match todo with
            | .load => s.goto p .idle
            | .fallback _ => s.finishCall p
  | _ => s

def loadAndUpdate (s : World) (p : ℕ) (ok : Bool) : World :=
  match s.pc p with
  | .loading =>
      s.goto p (.opening (s.updated p (if ok then s.files.loadJson readTorn else none)) .release)
  | _ => s

def openTmp (s : World) (p : ℕ) (ok : Bool) : World :=
  match s.pc p with
  | .opening v after =>
      if ok then
        { s.goto p (.writing s.files.openTmp.1 v after) with files := s.files.openTmp.2 }
      else s.afterSave p after
  | _ => s

def writeTmp (s : World) (p : ℕ) (ok : Bool) : World :=
  match s.pc p with
  | .writing ino v after =>
      if ok then
        { s.goto p (.renamingTmp after) with
          files := s.files.store ino ((s.files.inode ino).written v) }
      else { s.afterSave p after with files := s.files.store ino (.part v (s.files.inode ino)) }
  | _ => s

def renameTmp (s : World) (p : ℕ) (ok : Bool) : World :=
  match s.pc p with
  | .renamingTmp after =>
      if ok then { s.afterSave p after with files := s.files.renameTmp } else s.afterSave p after
  | _ => s

def releaseLock (s : World) (p : ℕ) : World :=
  match s.pc p with
  | .releasing => { s.finishCall p with lock := none }
  | _ => s

def step (s : World) : Event → World
  | .tick ms => { s with clock := s.clock + ms }
  | .call p c => startCall s p c
  | .seed p ok => readSeed readTorn s p ok
  | .get p ok => l2GetJson s p ok
  | .set p reply => l2SetJson s p reply
  | .check p => checkLock s p
  | .reclaim p => reclaimLock s p
  | .create p => createLock s p
  | .load p ok => loadAndUpdate readTorn s p ok
  | .openTmp p ok => openTmp s p ok
  | .write p ok => writeTmp s p ok
  | .rename p ok => renameTmp s p ok
  | .release p => releaseLock s p
  | .crash p => s.goto p .crashed

end Steps

/-- All processes are idle.  A document, a temp file and a lock may be there,
left by processes that are gone. -/
def start (l2 : Bool) (clock : ℕ) (lock : Option LockFile) (doc tmp : Option Content)
    (redis : Option Json) : World where
  l2 := l2
  clock := clock
  lock := lock
  files :=
    { inode := fun i => if i = 0 then doc.getD .empty else tmp.getD .empty
      fresh := 2
      doc := doc.map fun _ => 0
      tmp := tmp.map fun _ => 1 }
  redis := redis
  pc := fun _ => .idle
  call := fun _ => 0
  started := []
  returned := []

end SharedGovernance

end GrServer
