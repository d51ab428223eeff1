import Genjishimada.Library.Table

/-!
# `repository/auth_repository.py`

The e-mail accounts, their tokens and the recorded attempts (migration 0004).  Times are
microseconds.  The columns of `core.users` that a login only reports (nickname, coins,
moderator) are left out; a user is its id.
-/

namespace Genjishimada.Repository

open Library

/-- `token_type` -/
inductive TokenType where
  | verification | passwordReset
deriving DecidableEq, Repr

/-- `action` -/
inductive AuthAction where
  | register | login | passwordReset | verificationResend
deriving DecidableEq, Repr

/-- A row of `users.email_auth`. -/
structure EmailAuth where
  userId : Nat
  email : String
  passwordHash : String
  emailVerifiedAt : Option Int := none
deriving DecidableEq, Repr

/-- A row of `users.email_tokens`. -/
structure EmailToken where
  id : Nat
  userId : Nat
  tokenHash : String
  tokenType : TokenType
  expiresAt : Int
  usedAt : Option Int := none
deriving DecidableEq, Repr

/-- A row of `users.auth_rate_limits`. -/
structure AuthAttempt where
  id : Nat
  identifier : String
  action : AuthAction
  attemptAt : Int
  success : Bool
deriving DecidableEq, Repr

/-- A row of `users.remember_tokens`. -/
structure RememberToken where
  id : Nat
  userId : Nat
  tokenHash : String
  expiresAt : Int
  lastUsedAt : Option Int := none
deriving DecidableEq, Repr

instance : Keyed EmailToken := ⟨EmailToken.id⟩
instance : Keyed AuthAttempt := ⟨AuthAttempt.id⟩
instance : Keyed RememberToken := ⟨RememberToken.id⟩

/-- The accounts, and `LOWER` as the collation of the database has it. -/
structure AuthDb where
  lower : String → String := String.toLower
  users : List Nat := []
  /-- `users.email_user_id_seq` -/
  nextUserId : Nat := 100000000
  emailAuth : List EmailAuth := []
  emailTokens : Table EmailToken := .empty
  rememberTokens : Table RememberToken := .empty
  attempts : Table AuthAttempt := .empty

namespace AuthDb

variable (d : AuthDb)

/-- The attempts that count. -/
def counts (identifier : String) (action : AuthAction) (windowStart : Int) (a : AuthAttempt) : Bool :=
  a.identifier = d.lower identifier && a.action = action && windowStart < a.attemptAt

/-- `fetch_rate_limit_count` -/
def fetchRateLimitCount (identifier : String) (action : AuthAction) (windowStart : Int) : Nat :=
  d.attempts.rows.countP (d.counts identifier action windowStart)

/-- `record_attempt` -/
def recordAttempt (identifier : String) (action : AuthAction) (success : Bool) (now : Int) : AuthDb :=
  { d with
    attempts := d.attempts.insert fun id ↦
      { id, identifier := d.lower identifier, action, attemptAt := now, success } }

/-- `check_email_exists` -/
def checkEmailExists (email : String) : Bool :=
  d.emailAuth.any fun e ↦ d.lower e.email = d.lower email

/-- `get_user_by_email` -/
def getUserByEmail (email : String) : Option EmailAuth :=
  d.emailAuth.find? fun e ↦ d.lower e.email = d.lower email

/-- `generate_next_user_id` -/
def generateNextUserId : Nat × AuthDb := (d.nextUserId, { d with nextUserId := d.nextUserId + 1 })

/-- `create_core_user`; `none` if the id is taken. -/
def createCoreUser (userId : Nat) : Option AuthDb :=
  if userId ∈ d.users then none else some { d with users := userId :: d.users }

/-- `create_email_auth`; `none` if the user has an account or the e-mail is taken. -/
def createEmailAuth (userId : Nat) (email passwordHash : String) : Option AuthDb :=
  if d.emailAuth.any fun e ↦ e.userId = userId || d.lower e.email = d.lower email then none
  else some { d with emailAuth := d.emailAuth ++ [{ userId, email, passwordHash }] }

/-- `insert_email_token` -/
def insertEmailToken (userId : Nat) (tokenHash : String) (tokenType : TokenType) (expiresAt : Int) :
    AuthDb :=
  { d with
    emailTokens := d.emailTokens.insert fun id ↦ { id, userId, tokenHash, tokenType, expiresAt } }

/-- `get_token_with_user` -/
def getTokenWithUser (tokenHash : String) (tokenType : TokenType) : Option (EmailToken × EmailAuth) :=
  d.emailTokens.rows.findSome? fun t ↦
    if t.tokenHash = tokenHash ∧ t.tokenType = tokenType then
      (d.emailAuth.find? fun e ↦ e.userId = t.userId).map fun e ↦ (t, e)
    else none

/-- `mark_token_used` -/
def markTokenUsed (tokenHash : String) (now : Int) : AuthDb :=
  { d with
    emailTokens := d.emailTokens.modify (fun t ↦ t.tokenHash = tokenHash)
      fun t ↦ { t with usedAt := some now } }

/-- `mark_email_verified` -/
def markEmailVerified (userId : Nat) (now : Int) : AuthDb :=
  { d with
    emailAuth := d.emailAuth.map fun e ↦
      if e.userId = userId then { e with emailVerifiedAt := some now } else e }

/-- `invalidate_user_tokens` -/
def invalidateUserTokens (userId : Nat) (tokenType : TokenType) (now : Int) : AuthDb :=
  { d with
    emailTokens := d.emailTokens.modify
      (fun t ↦ t.userId = userId && t.tokenType = tokenType && t.usedAt.isNone)
      fun t ↦ { t with usedAt := some now } }

/-- `update_password` -/
def updatePassword (userId : Nat) (passwordHash : String) : AuthDb :=
  { d with
    emailAuth := d.emailAuth.map fun e ↦ if e.userId = userId then { e with passwordHash } else e }

/-- `revoke_remember_tokens` -/
def revokeRememberTokens (userId : Nat) : AuthDb :=
  { d with rememberTokens := d.rememberTokens.delete (·.userId = userId) }

end AuthDb

end Genjishimada.Repository
