import Genjishimada.Repository.Auth

/-!
# `services/auth_service.py`

Registration, login and the two kinds of e-mail tokens.  `bcrypt`, `hashlib` and `str.lower`
are what the service calls (`AuthEnv`); random tokens and salts are arguments.  A call leaves
the database behind also where it raises.  What the responses report is left out.
-/

namespace Genjishimada.Services

open Library Repository

inductive AuthError where
  | invalidCredentials (identifier : String)
  | emailAlreadyExists (email : String)
  | rateLimitExceeded (action : AuthAction)
  | tokenExpired (tokenType : TokenType)
  | tokenAlreadyUsed (tokenType : TokenType)
  | tokenInvalid (tokenType : TokenType)
  | emailAlreadyVerified
  | passwordValidation (message : String)
  | usernameValidation (message : String)
  | emailValidation
  | userNotFound (identifier : String)
deriving DecidableEq, Repr

/-- What the service uses and does not define. -/
structure AuthEnv where
  /-- `str.lower` -/
  lower : String → String
  /-- `bcrypt.hashpw`, of a password and a salt. -/
  hashPassword : String → String → String
  /-- `bcrypt.checkpw` -/
  verifyPassword : String → String → Bool
  /-- `hashlib.sha256` -/
  hashToken : String → String

/-- ASCII addresses, and passwords and tokens stored as they are: for examples. -/
def plainEnv : AuthEnv where
  lower := String.toLower
  hashPassword := fun password _ ↦ password
  verifyPassword := fun password hash ↦ password = hash
  hashToken := fun token ↦ token

/-- What a call leaves behind, and whether it raises. -/
abbrev AuthOutcome := AuthDb × Except AuthError Unit

/-! ## Validation -/

def isLocalChar (c : Char) : Bool := c.isAlphanum || "._%+-".toList.contains c

def isDomainChar (c : Char) : Bool := c.isAlphanum || ".-".toList.contains c

/-- `$` also matches before a line feed at the end. -/
def dropFinalNewline (cs : List Char) : List Char :=
  if cs.getLast? = some '\n' then cs.dropLast else cs

/-- `[a-zA-Z0-9.-]+\.[a-zA-Z]{2,}`; the top-level domain is the letters at the end. -/
def isDomain (cs : List Char) : Bool :=
  let (tld, rest) := cs.reverse.span Char.isAlpha
  match rest with
  | '.' :: host => 2 ≤ tld.length && !host.isEmpty && host.all isDomainChar
  | _ => false

/-- `validate_email` -/
def validateEmail (email : String) : Except AuthError Unit :=
  let (localPart, rest) := (dropFinalNewline email.toList).span isLocalChar
  match rest with
  | '@' :: domain =>
      if !localPart.isEmpty && isDomain domain then .ok () else .error .emailValidation
  | _ => .error .emailValidation

def passwordMinLength : Nat := 8

def isSpecialChar (c : Char) : Bool := "!@#$%^&*(),.?\":\x7b\x7d|<>_-[]\\;'`~+=".toList.contains c

/-- `PASSWORD_REQUIREMENTS` -/
def passwordRequirements : List ((Char → Bool) × String) :=
  [(Char.isLower, "at least one lowercase letter"),
    (Char.isUpper, "at least one uppercase letter"),
    (Char.isDigit, "at least one number"),
    (isSpecialChar, "at least one special character")]

/-- `validate_password` -/
def validatePassword (password : String) : Except AuthError Unit :=
  if password.length < passwordMinLength then
    .error (.passwordValidation
      ("Password must be at least " ++ toString passwordMinLength ++ " characters."))
  else
    let missing := (passwordRequirements.filter fun r ↦ !password.toList.any r.1).map Prod.snd
    if missing.isEmpty then .ok ()
    else .error (.passwordValidation ("Password must contain " ++ ", ".intercalate missing ++ "."))

/-- The class of `USERNAME_PATTERN`. -/
def isUsernameChar (c : Char) : Bool :=
  c.isAlphanum || "_- ".toList.contains c ||
    [(0x4e00, 0x9fff), (0x3400, 0x4dbf), (0x3040, 0x309f), (0x30a0, 0x30ff), (0xac00, 0xd7af)].any
      fun r ↦ r.1 ≤ c.toNat && c.toNat ≤ r.2

def usernameMinLength : Nat := 1

def usernameMaxLength : Nat := 20

/-- `validate_username` -/
def validateUsername (username : String) : Except AuthError Unit :=
  if username.length < usernameMinLength || usernameMaxLength < username.length then
    .error (.usernameValidation ("Username must be between " ++ toString usernameMinLength ++
      " and " ++ toString usernameMaxLength ++ " characters."))
  else
    let matched := dropFinalNewline username.toList
    if matched.isEmpty || !matched.all isUsernameChar then
      .error (.usernameValidation ("Username can only contain letters, numbers, " ++
        "Chinese/Japanese/Korean characters, underscores, hyphens, and spaces."))
    else if username.toList.all Char.isWhitespace then
      .error (.usernameValidation "Username cannot be empty or only whitespace.")
    else .ok ()

/-! ## The rate limit -/

/-- A second, in microseconds. -/
def second : Int := 1000000

def hour : Int := 3600 * second

/-- `RATE_LIMITS`: so many attempts in a window of so many seconds. -/
def rateLimits : AuthAction → Nat × Int
  | .register => (5, 3600)
  | .login => (10, 900)
  | .passwordReset => (3, 3600)
  | .verificationResend => (3, 3600)

def maxAttempts (action : AuthAction) : Nat := (rateLimits action).1

/-- The length of the window. -/
def window (action : AuthAction) : Int := (rateLimits action).2 * second

/-- `check_rate_limit` -/
def checkRateLimit (identifier : String) (action : AuthAction) (now : Int) (d : AuthDb) :
    Except AuthError Unit :=
  if maxAttempts action ≤ d.fetchRateLimitCount identifier action (now - window action) then
    .error (.rateLimitExceeded action)
  else .ok ()

/-- `if client_ip:` -/
def givenIp (clientIp : Option String) : Option String := clientIp.filter (· ≠ "")

/-- The two checks a call begins with. -/
def checkRateLimits (identifier : String) (clientIp : Option String) (action : AuthAction)
    (now : Int) (d : AuthDb) : Except AuthError Unit :=
  match checkRateLimit identifier action now d with
  | .error e => .error e
  | .ok () =>
      match givenIp clientIp with
      | none => .ok ()
      | some ip => checkRateLimit ip action now d

/-- A call goes on if its checks let it. -/
def limited (identifier : String) (clientIp : Option String) (action : AuthAction) (now : Int)
    (rest : AuthDb → AuthOutcome) (d : AuthDb) : AuthOutcome :=
  match checkRateLimits identifier clientIp action now d with
  | .error e => (d, .error e)
  | .ok () => rest d

/-! ## Tokens -/

def verificationTokenExpiryHours : Int := 24

def passwordResetTokenExpiryHours : Int := 1

def expiryHours : TokenType → Int
  | .verification => verificationTokenExpiryHours
  | .passwordReset => passwordResetTokenExpiryHours

/-- The transaction of `resend_verification` and of `request_password_reset`. -/
def issueToken (userId : Nat) (tokenHash : String) (tokenType : TokenType) (expiresAt now : Int)
    (d : AuthDb) : AuthDb :=
  (d.invalidateUserTokens userId tokenType now).insertEmailToken userId tokenHash tokenType expiresAt

/-- What `verify_email` and `confirm_password_reset` check of the token they have read; the
account that is to be changed. -/
def checkToken (tokenType : TokenType) (now : Int) : Option (EmailToken × EmailAuth) →
    Except AuthError EmailAuth
  | none => .error (.tokenInvalid tokenType)
  | some (t, e) =>
      if t.usedAt.isSome then .error (.tokenAlreadyUsed tokenType)
      else if t.expiresAt < now then .error (.tokenExpired tokenType)
      else if tokenType = .verification ∧ e.emailVerifiedAt.isSome then .error .emailAlreadyVerified
      else .ok e

/-- The transaction of `verify_email`. -/
def verifyEmailTransaction (tokenHash : String) (userId : Nat) (now : Int) (d : AuthDb) : AuthDb :=
  ((d.markTokenUsed tokenHash now).markEmailVerified userId now).invalidateUserTokens userId
    .verification now

/-- The transaction of `confirm_password_reset`. -/
def confirmPasswordResetTransaction (tokenHash : String) (userId : Nat) (passwordHash : String)
    (now : Int) (d : AuthDb) : AuthDb :=
  (((d.markTokenUsed tokenHash now).updatePassword userId passwordHash).invalidateUserTokens userId
    .passwordReset now).revokeRememberTokens userId

/-! ## The calls -/

structure EmailRegisterRequest where
  email : String
  password : String
  username : String
deriving DecidableEq, Repr

structure EmailLoginRequest where
  email : String
  password : String
deriving DecidableEq, Repr

/-- The three validations of `register`. -/
def validateRegistration (data : EmailRegisterRequest) : Except AuthError Unit :=
  match validateEmail data.email with
  | .error e => .error e
  | .ok () =>
      match validatePassword data.password with
      | .error e => .error e
      | .ok () => validateUsername data.username

/-- The transaction of `register` after the id is drawn; `none` if a constraint is violated. -/
def insertAccount (userId : Nat) (email passwordHash tokenHash : String) (expiresAt : Int)
    (d : AuthDb) : Option AuthDb :=
  (d.createCoreUser userId).bind fun d ↦
    (d.createEmailAuth userId email passwordHash).map fun d ↦
      d.insertEmailToken userId tokenHash .verification expiresAt

section Calls

-- the checks are made at `now` and the attempt is recorded at `later`
variable (env : AuthEnv) (clientIp : Option String) (now later : Int) (d : AuthDb)

/-- `register` -/
def register (data : EmailRegisterRequest) (token salt : String) : AuthOutcome :=
  let identifier := env.lower data.email
  limited identifier clientIp .register now (fun d ↦
    match validateRegistration data with
    | .error e => (d, .error e)
    | .ok () =>
        if d.checkEmailExists data.email then
          (d.recordAttempt identifier .register false later, .error (.emailAlreadyExists data.email))
        else
          -- a sequence is not rolled back
          let (userId, d) := d.generateNextUserId
          match insertAccount userId data.email (env.hashPassword data.password salt)
            (env.hashToken token) (now + verificationTokenExpiryHours * hour) d with
          | none => (d, .error (.emailAlreadyExists data.email))
          | some d => (d.recordAttempt identifier .register true later, .ok ())) d

/-- `login` -/
def login (data : EmailLoginRequest) : AuthOutcome :=
  let identifier := env.lower data.email
  limited identifier clientIp .login now (fun d ↦
    match d.getUserByEmail data.email with
    | none => (d.recordAttempt identifier .login false later, .error (.invalidCredentials identifier))
    | some user =>
        if !env.verifyPassword data.password user.passwordHash then
          (d.recordAttempt identifier .login false later, .error (.invalidCredentials identifier))
        else (d.recordAttempt identifier .login true later, .ok ())) d

/-- `resend_verification` -/
def resendVerification (email token : String) : AuthOutcome :=
  let identifier := env.lower email
  limited identifier clientIp .verificationResend now (fun d ↦
    match d.getUserByEmail email with
    | none => (d, .error (.userNotFound email))
    | some user =>
        if user.emailVerifiedAt.isSome then (d, .error .emailAlreadyVerified)
        else
          let d := issueToken user.userId (env.hashToken token) .verification
            (now + verificationTokenExpiryHours * hour) now d
          (d.recordAttempt identifier .verificationResend true later, .ok ())) d

/-- `request_password_reset` -/
def requestPasswordReset (email token : String) : AuthOutcome :=
  let identifier := env.lower email
  limited identifier clientIp .passwordReset now (fun d ↦
    match d.getUserByEmail email with
    | none => (d.recordAttempt identifier .passwordReset false later, .ok ())
    | some user =>
        let d := issueToken user.userId (env.hashToken token) .passwordReset
          (now + passwordResetTokenExpiryHours * hour) now d
        (d.recordAttempt identifier .passwordReset true later, .ok ())) d

end Calls

end Genjishimada.Services
