import Genjishimada.Repository.Sessions
import Genjishimada.Services.Auth

/-!
# Sessions and remember tokens

The calls of `services/auth_service.py` that the site makes with a session id or a remember
token, and `confirm_password_reset` as a whole, with what it returns of the user.
-/

namespace Genjishimada.Services

open Library Repository

/-- `SESSION_LIFETIME_MINUTES` -/
def sessionLifetimeMinutes : Nat := 129600

structure SessionReadResponse where
  payload : Option String
  isMod : Bool
deriving DecidableEq, Repr

/-- `session_read` -/
def sessionRead (sessionId : String) (now : Int) (s : SessionDb) : SessionReadResponse × SessionDb :=
  let (payload, s) := s.readSession sessionId sessionLifetimeMinutes now
  -- an empty payload is falsy
  let isMod := payload.any (· ≠ "") && s.checkIsMod sessionId
  ({ payload, isMod }, s)

/-- `session_write`; a call that raises leaves the tables alone. -/
def sessionWrite (sessionId payload : String) (userId : Option Nat)
    (ipAddress userAgent : Option String) (now : Int) (s : SessionDb) : SessionDb :=
  (s.writeSession sessionId payload userId ipAddress userAgent now).getD s

structure ValidateRememberTokenResponse where
  valid : Bool
  userId : Option Nat
deriving DecidableEq, Repr

/-- `validate_remember_token` -/
def validateRememberToken (env : AuthEnv) (token : String) (now : Int) (s : SessionDb) :
    ValidateRememberTokenResponse × SessionDb :=
  let (userId, s) := s.validateRememberToken (env.hashToken token) now
  ({ valid := userId.isSome, userId }, s)

/-- `confirm_password_reset`, its token checked at `now` and its transaction run at `later`; the
account whose password is reset. -/
def confirmPasswordReset (env : AuthEnv) (token password salt : String) (now later : Int)
    (d : AuthDb) : AuthDb × Except AuthError EmailAuth :=
  match validatePassword password with
  | .error e => (d, .error e)
  | .ok () =>
      let tokenHash := env.hashToken token
      match checkToken .passwordReset now (d.getTokenWithUser tokenHash .passwordReset) with
      | .error e => (d, .error e)
      | .ok user =>
          (confirmPasswordResetTransaction tokenHash user.userId (env.hashPassword password salt)
            later d, .ok user)

/-- A call that the site makes with a session id or a remember token. -/
inductive SiteCall where
  | sessionRead (sessionId : String) (now : Int)
  | sessionWrite (sessionId payload : String) (userId : Option Nat)
      (ipAddress userAgent : Option String) (now : Int)
  | validateRememberToken (token : String) (now : Int)

/-- When a call is made. -/
def SiteCall.now : SiteCall → Int
  | sessionRead _ now => now
  | sessionWrite _ _ _ _ _ now => now
  | validateRememberToken _ now => now

/-- The tables after a call. -/
def SiteCall.after (env : AuthEnv) (s : SessionDb) : SiteCall → SessionDb
  | sessionRead sessionId now => (Services.sessionRead sessionId now s).2
  | sessionWrite sessionId payload userId ipAddress userAgent now =>
      Services.sessionWrite sessionId payload userId ipAddress userAgent now s
  | validateRememberToken token now => (Services.validateRememberToken env token now s).2

end Genjishimada.Services
