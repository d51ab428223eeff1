import Genjishimada.Library.Expiry
import Genjishimada.Services.Sessions

/-!
# The session handler

The session calls of `services/auth_service.py`, which the site's session driver makes, with the
statements of `repository/auth_repository.py` they run.  The rows of `users.sessions` are a function
of their id, so that the order of a list of sessions and the number of rows a `DELETE` removes are
left out.
-/

namespace Genjishimada.Repository.SessionDb

open Library

variable (s : SessionDb)

/-- `delete_session`; whether there was one. -/
def deleteSession (sessionId : String) : Bool × SessionDb :=
  ((s.sessions sessionId).isSome, { s with sessions := Function.update s.sessions sessionId none })

/-- `delete_expired_sessions` -/
def deleteExpiredSessions (sessionLifetimeMinutes : Nat) (now : Int) : SessionDb :=
  { s with
    sessions := collect Session.lastActivity (now - sessionLifetimeMinutes * minute) s.sessions }

/-- What `get_user_sessions` selects of a row. -/
structure SessionInfo where
  lastActivity : Int
  ipAddress : Option String
  userAgent : Option String
deriving DecidableEq, Repr

/-- `get_user_sessions`, by the id of the session. -/
def getUserSessions (userId sessionLifetimeMinutes : Nat) (now : Int) (sessionId : String) :
    Option SessionInfo :=
  ((s.sessions sessionId).filter fun row ↦
    row.userId = some userId && live sessionLifetimeMinutes now row).map fun row ↦
      { lastActivity := row.lastActivity, ipAddress := row.ipAddress, userAgent := row.userAgent }

/-- `delete_user_sessions`; an empty id excepts nothing. -/
def deleteUserSessions (userId : Nat) (exceptSessionId : Option String) : SessionDb :=
  { s with
    sessions := fun sessionId ↦ (s.sessions sessionId).filter fun row ↦
      !(row.userId = some userId &&
        (exceptSessionId.all (· = "") || exceptSessionId ≠ some sessionId)) }

end Genjishimada.Repository.SessionDb

namespace Genjishimada.Services

open Library Repository

/-- A call of the session driver. -/
inductive SessionCall where
  | read (sessionId : String)
  | write (sessionId payload : String) (userId : Option Nat) (ipAddress userAgent : Option String)
  | destroy (sessionId : String)
  | gc
  | userSessions (userId : Nat)
  | destroyAll (userId : Nat) (exceptSessionId : Option String)
deriving DecidableEq, Repr

/-- What a call shows of the sessions. -/
inductive SessionReply where
  | read (response : SessionReadResponse)
  | userSessions (sessions : String → Option SessionDb.SessionInfo)

/-- What a call shows, and the tables after it. -/
def SessionCall.run (now : Int) (s : SessionDb) : SessionCall → Option SessionReply × SessionDb
  | .read sessionId => (some (.read (sessionRead sessionId now s).1), (sessionRead sessionId now s).2)
  | .write sessionId payload userId ipAddress userAgent =>
      (none, sessionWrite sessionId payload userId ipAddress userAgent now s)
  | .destroy sessionId => (none, (s.deleteSession sessionId).2)
  | .gc => (none, s.deleteExpiredSessions sessionLifetimeMinutes now)
  | .userSessions userId =>
      (some (.userSessions (s.getUserSessions userId sessionLifetimeMinutes now)), s)
  | .destroyAll userId exceptSessionId => (none, s.deleteUserSessions userId exceptSessionId)

end Genjishimada.Services
