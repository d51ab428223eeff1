import Genjishimada.Repository.Auth

/-!
# The sessions of the site

The tables `users.sessions` and `users.remember_tokens` as `repository/auth_repository.py` reads
and writes them.
-/

namespace Genjishimada.Repository

open Library

/-- A row of `users.sessions`, without its id. -/
structure Session where
  userId : Option Nat
  payload : String
  lastActivity : Int
  ipAddress : Option String := none
  userAgent : Option String := none
deriving DecidableEq, Repr

/-- The accounts, the sessions by their id, and the users with `is_mod`. -/
structure SessionDb where
  auth : AuthDb := {}
  sessions : String → Option Session := fun _ ↦ none
  mods : List Nat := []

namespace SessionDb

variable (s : SessionDb)

/-- `INTERVAL '1 minute'` -/
def minute : Int := 60000000

/-- The session has not expired. -/
def live (sessionLifetimeMinutes : Nat) (now : Int) (row : Session) : Bool :=
  now - sessionLifetimeMinutes * minute < row.lastActivity

/-- `read_session` -/
def readSession (sessionId : String) (sessionLifetimeMinutes : Nat) (now : Int) :
    Option String × SessionDb :=
  match s.sessions sessionId with
  | none => (none, s)
  | some row =>
      if live sessionLifetimeMinutes now row then
        (some row.payload, { s with
          sessions := Function.update s.sessions sessionId (some { row with lastActivity := now }) })
      else (none, s)

/-- `write_session`; `none` if the user does not exist. -/
def writeSession (sessionId payload : String) (userId : Option Nat)
    (ipAddress userAgent : Option String) (now : Int) : Option SessionDb :=
  if userId.all fun id ↦ decide (id ∈ s.auth.users) then
    some { s with
      sessions := Function.update s.sessions sessionId
        (some { userId, payload, lastActivity := now, ipAddress, userAgent }) }
  else none

/-- `check_is_mod` -/
def checkIsMod (sessionId : String) : Bool :=
  match (s.sessions sessionId).bind (·.userId) with
  | some userId => decide (userId ∈ s.mods)
  | none => false

/-- `validate_remember_token` -/
def validateRememberToken (tokenHash : String) (now : Int) : Option Nat × SessionDb :=
  match s.auth.rememberTokens.rows.find? fun t ↦ t.tokenHash = tokenHash && now < t.expiresAt with
  | none => (none, s)
  | some t =>
      let rememberTokens := s.auth.rememberTokens.modify (fun t ↦ t.tokenHash = tokenHash)
        fun t ↦ { t with lastUsedAt := some now }
      (some t.userId, { s with auth := { s.auth with rememberTokens } })

end SessionDb

end Genjishimada.Repository
