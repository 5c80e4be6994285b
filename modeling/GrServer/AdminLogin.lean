import GrServer.GuardedRun
import GrServer.SortedMap

/-!
# Panel logins

A login is a few statements of the control database: the throttle, the user's
hash, then a failure or a session.  Other logins, logouts and changes of a
password come between them.
-/

namespace GrServer

namespace AdminLogin

def sessionTtlMs : ℤ := 12 * 3600 * 1000

def loginMaxFail : ℕ := 8

def loginWindowMs : ℤ := 900_000

/-- `verify_password` and `hash_session_token`. -/
structure Crypto where
  verifyPassword : String → String → Bool
  hashSessionToken : String → String

/-! ## The control database -/

structure AdminDb where
  users : SortedMap String String := .empty
  loginFailures : List (String × ℤ) := []
  sessions : SortedMap String (String × ℤ) := .empty

def AdminDb.ensureUser (db : AdminDb) (username passwordHash : String) : AdminDb :=
  if db.users.contains username then db
  else { db with users := db.users.insert username passwordHash }

def AdminDb.updateUserPassword (db : AdminDb) (username passwordHash : String) : AdminDb :=
  { db with users := db.users.insert username passwordHash }

def AdminDb.failuresSince (db : AdminDb) (peer : String) (cutoff : ℤ) : ℕ :=
  db.loginFailures.countP fun f => decide (f.1 = peer ∧ cutoff ≤ f.2)

/-- One statement: older failures are deleted, and those of the peer counted. -/
def AdminDb.loginRateOk (db : AdminDb) (peer : String) (windowMs : ℤ) (maxFail : ℕ) (now : ℤ) :
    AdminDb × Bool :=
  ({ db with
      loginFailures := db.loginFailures.filter fun f => !decide (f.2 < now - windowMs) },
    decide (db.failuresSince peer (now - windowMs) < maxFail))

def AdminDb.recordLoginFailure (db : AdminDb) (peer : String) (now : ℤ) : AdminDb :=
  { db with loginFailures := db.loginFailures ++ [(peer, now)] }

section Sessions

variable (C : Crypto)

def AdminDb.putSession (db : AdminDb) (token username : String) (expMs : ℤ) : AdminDb :=
  { db with sessions := db.sessions.insert (C.hashSessionToken token) (username, expMs) }

def AdminDb.deleteSession (db : AdminDb) (token : String) : AdminDb :=
  { db with sessions := db.sessions.erase (C.hashSessionToken token) }

def AdminDb.getSession (db : AdminDb) (token : String) (now : ℤ) : Option String :=
  (db.sessions.get? (C.hashSessionToken token)).bind fun row =>
    if now ≤ row.2 then some row.1 else none

def logout (db : AdminDb) (token : String) : AdminDb :=
  if token = "" then db else db.deleteSession C token

end Sessions

inductive Cause where
  | password (peer password hash : String)
  | oauth
  deriving DecidableEq

/-- Where a `login` or a `create_session` is, by what it does next. -/
inductive Attempt where
  | throttle (peer username password : String)
  | check (peer username password : String)
  | fail (peer : String)
  | find (username : String)
  | mint (username : String) (cause : Cause)
  deriving DecidableEq

/-- A step of an attempt: the database, and the attempt or its result. -/
def Attempt.step (C : Crypto) (db : AdminDb) (now : ℤ) (token : String) :
    Attempt → AdminDb × (Attempt ⊕ Except String String)
  | .throttle peer username password =>
      let r := db.loginRateOk peer loginWindowMs loginMaxFail now
      (r.1, if r.2 then .inl (.check peer username password) else .inr (.error "rate_limited"))
  | .check peer username password =>
      match db.users.get? username with
      | none => (db, .inl (.fail peer))
      | some hash =>
          (db, .inl (if C.verifyPassword password hash then
              .mint username (.password peer password hash)
            else .fail peer))
  | .fail peer => (db.recordLoginFailure peer now, .inr (.error "invalid_credentials"))
  | .find username =>
      (db, if db.users.contains username then .inl (.mint username .oauth)
        else .inr (.error "oauth_local_user_missing"))
  | .mint username _ =>
      (db.putSession C token username (now + sessionTtlMs), .inr (.ok token))

inductive SessionEntry where
  | minted (token username : String) (at' : ℤ) (cause : Cause)
  | ended (token : String)

/-- The database, the attempts under way, the time of the last statement, every hash a
user ever had, and what was done to the sessions, the latest first. -/
structure Panel where
  db : AdminDb := {}
  attempts : List Attempt := []
  clock : ℤ := 0
  hashes : List (String × String) := []
  entries : List SessionEntry := []

inductive PanelEvent where
  | login (peer username password : String)
  | createSession (username : String)
  | statement (k : ℕ) (now : ℤ) (token : String)
  /-- A statement fails, or the process ends, and the attempt with it. -/
  | abandon (k : ℕ)
  | logout (token : String)
  | ensureUser (username passwordHash : String)
  | updateUserPassword (username passwordHash : String)

def Attempt.entry (now : ℤ) (token : String) : Attempt → List SessionEntry
  | .mint username cause => [.minted token username now cause]
  | _ => []

def Panel.statement (C : Crypto) (p : Panel) (k : ℕ) (a : Attempt) (now : ℤ) (token : String) :
    Panel :=
  let r := a.step C p.db now token
  { p with
    db := r.1
    attempts := r.2.elim (fun a => [a]) (fun _ => []) ++ p.attempts.eraseIdx k
    clock := now
    entries := a.entry now token ++ p.entries }

def Panel.step (C : Crypto) (p : Panel) : PanelEvent → Panel
  | .login peer username password =>
      { p with attempts := .throttle peer username password :: p.attempts }
  | .createSession username => { p with attempts := .find username :: p.attempts }
  | .statement k now token =>
      (p.attempts[k]?.map fun a => p.statement C k a now token).getD p
  | .abandon k => { p with attempts := p.attempts.eraseIdx k }
  | .logout token =>
      if token = "" then p
      else { p with db := AdminLogin.logout C p.db token, entries := .ended token :: p.entries }
  | .ensureUser username passwordHash =>
      { p with
        db := p.db.ensureUser username passwordHash
        hashes :=
          if p.db.users.contains username then p.hashes
          else (username, passwordHash) :: p.hashes }
  | .updateUserPassword username passwordHash =>
      { p with
        db := p.db.updateUserPassword username passwordHash
        hashes := (username, passwordHash) :: p.hashes }

end AdminLogin

end GrServer
