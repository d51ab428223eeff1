import Genjishimada.Library.Parties
import Genjishimada.Library.Run
import Genjishimada.Services.Auth

/-!
# How often a token is used

`confirm_password_reset` and `verify_email` read the row of a token, check it, and then mark
it used in a transaction that does not look at it again.  Between the two the token can be
used by another call, or invalidated by a newer one.  A run in which neither happens is one
whose transactions find their token as it was read (`singleUse_run_iff`).
-/

namespace Genjishimada.Auth

open Library Repository Services

/-! ## The calls -/

/-- A call in flight, by what it does next. -/
inductive TokenCall where
  | /-- The checks of the rate limit that are left. -/
    checking (tokenType : TokenType) (email : String) (identifiers : List String) (token : String)
  | /-- `get_user_by_email` -/
    looking (tokenType : TokenType) (email token : String)
  | /-- The transaction that issues a token. -/
    issuing (tokenType : TokenType) (email : String) (userId : Nat) (tokenHash : String)
      (expiresAt : Int)
  | /-- `record_attempt` -/
    recording (tokenType : TokenType) (email : String) (success : Bool)
  | /-- `get_token_with_user` for a password reset. -/
    readingReset (token password salt : String)
  | /-- `get_token_with_user` for a verification. -/
    readingVerification (token : String)
  | /-- The transaction that changes the password. -/
    resetting (tokenHash : String) (userId : Nat) (passwordHash : String)
  | /-- The transaction that verifies the e-mail. -/
    verifying (tokenHash : String) (userId : Nat)
  | /-- Returned or raised. -/
    ended

/-- A token that has been used: whether its row was unused until then. -/
structure TokenUse where
  tokenHash : String
  tokenType : TokenType
  unused : Bool
deriving DecidableEq, Repr

/-- The database, the calls, and what no code keeps: the uses of tokens. -/
structure TokenState where
  d : AuthDb
  calls : List TokenCall := []
  uses : List TokenUse := []

inductive TokenLabel where
  | requestPasswordReset (email : String) (clientIp : Option String) (token : String)
  | resendVerification (email : String) (clientIp : Option String) (token : String)
  | confirmPasswordReset (token password salt : String)
  | verifyEmail (token : String)
  | /-- The next statement or transaction of a call. -/
    advance (k : Nat) (now : Int)
  | /-- What a call awaits raises. -/
    fail (k : Nat)

/-- The action of the calls that issue such tokens. -/
def issueAction : TokenType → AuthAction
  | .verification => .verificationResend
  | .passwordReset => .passwordReset

/-- Every row of the token is unused. -/
def unused (d : AuthDb) (tokenHash : String) : Bool :=
  d.emailTokens.rows.all fun t ↦ t.tokenHash ≠ tokenHash || t.usedAt.isNone

/-- The token is nobody's yet. -/
def fresh (d : AuthDb) (tokenHash : String) : Bool :=
  d.emailTokens.rows.all fun t ↦ t.tokenHash ≠ tokenHash

/-- A call goes on to its next stage. -/
def TokenState.goto (s : TokenState) (k : Nat) (c : TokenCall) (d : AuthDb) : TokenState :=
  { s with d, calls := s.calls.set k c }

/-- A call returns after it has used a token. -/
def TokenState.use (s : TokenState) (k : Nat) (tokenHash : String) (tokenType : TokenType)
    (d : AuthDb) : TokenState :=
  { d, calls := s.calls.set k .ended
    uses := { tokenHash, tokenType, unused := unused s.d tokenHash } :: s.uses }

section Step

variable (env : AuthEnv) (s : TokenState) (k : Nat) (now : Int)

/-- The next statement or transaction of a call. -/
def TokenCall.advance : TokenCall → Option TokenState
  | .checking tokenType email [] token => some (s.goto k (.looking tokenType email token) s.d)
  | .checking tokenType email (identifier :: rest) token =>
      match checkRateLimit identifier (issueAction tokenType) now s.d with
      | .error _ => some (s.goto k .ended s.d)
      | .ok () => some (s.goto k (.checking tokenType email rest token) s.d)
  | .looking tokenType email token =>
      match s.d.getUserByEmail email with
      | none =>
          -- only a password reset is recorded, and returns
          match tokenType with
          | .passwordReset => some (s.goto k (.recording tokenType email false) s.d)
          | .verification => some (s.goto k .ended s.d)
      | some user =>
          if tokenType = .verification ∧ user.emailVerifiedAt.isSome then some (s.goto k .ended s.d)
          else
            some (s.goto k (.issuing tokenType email user.userId (env.hashToken token)
              (now + expiryHours tokenType * hour)) s.d)
  | .issuing tokenType email userId tokenHash expiresAt =>
      -- a random token is not that of another
      if fresh s.d tokenHash then
        some (s.goto k (.recording tokenType email true)
          (issueToken userId tokenHash tokenType expiresAt now s.d))
      else none
  | .recording tokenType email success =>
      some (s.goto k .ended
        (s.d.recordAttempt (env.lower email) (issueAction tokenType) success now))
  | .readingReset token password salt =>
      match checkToken .passwordReset now (s.d.getTokenWithUser (env.hashToken token) .passwordReset) with
      | .error _ => some (s.goto k .ended s.d)
      | .ok user =>
          some (s.goto k (.resetting (env.hashToken token) user.userId
            (env.hashPassword password salt)) s.d)
  | .readingVerification token =>
      match checkToken .verification now (s.d.getTokenWithUser (env.hashToken token) .verification) with
      | .error _ => some (s.goto k .ended s.d)
      | .ok user => some (s.goto k (.verifying (env.hashToken token) user.userId) s.d)
  | .resetting tokenHash userId passwordHash =>
      some (s.use k tokenHash .passwordReset
        (confirmPasswordResetTransaction tokenHash userId passwordHash now s.d))
  | .verifying tokenHash userId =>
      some (s.use k tokenHash .verification (verifyEmailTransaction tokenHash userId now s.d))
  | .ended => none

end Step

/-- A call that issues a token begins with the checks of its e-mail and its IP. -/
def TokenState.request (env : AuthEnv) (s : TokenState) (tokenType : TokenType) (email : String)
    (clientIp : Option String) (token : String) : TokenState :=
  { s with
    calls := s.calls ++
      [.checking tokenType email (env.lower email :: (givenIp clientIp).toList) token] }

/-- One step of the calls. -/
def tokenStep (env : AuthEnv) (s : TokenState) : TokenLabel → Option TokenState
  | .requestPasswordReset email clientIp token =>
      some (s.request env .passwordReset email clientIp token)
  | .resendVerification email clientIp token =>
      some (s.request env .verification email clientIp token)
  | .confirmPasswordReset token password salt =>
      match validatePassword password with
      | .error _ => some s
      | .ok () => some { s with calls := s.calls ++ [.readingReset token password salt] }
  | .verifyEmail token => some { s with calls := s.calls ++ [.readingVerification token] }
  | .advance k now => (s.calls[k]?).bind (TokenCall.advance env s k now)
  | .fail k => (s.calls[k]?).map fun _ ↦ s.goto k .ended s.d

/-- Before any call. -/
def tokenStart (d : AuthDb) : TokenState where
  d := d

/-! ## Single use -/

/-- The uses of a token. -/
def usesOf (s : TokenState) (tokenHash : String) : Nat := s.uses.countP (·.tokenHash = tokenHash)

/-- No token is used twice, and a password is changed only with a token that has neither been
used nor invalidated. -/
structure SingleUse (s : TokenState) : Prop where
  once : ∀ tokenHash, usesOf s tokenHash ≤ 1
  valid : ∀ u ∈ s.uses, u.tokenType = .passwordReset → u.unused = true

/-- What the transaction of a call relies on. -/
def TokenCall.Untouched (s : TokenState) : TokenCall → Prop
  | .resetting tokenHash _ _ => unused s.d tokenHash = true
  | .verifying tokenHash _ => usesOf s tokenHash = 0
  | _ => True

/-- A transaction that uses a token finds it as it was read. -/
def Untouched (s : TokenState) : TokenLabel → Prop
  | .advance k _ => ∀ c, s.calls[k]? = some c → c.Untouched s
  | _ => True

/-! ## What a step can do -/

/-- Every row of the token is marked. -/
def Marked (d : AuthDb) (tokenHash : String) : Prop :=
  ∀ t ∈ d.emailTokens.rows, t.tokenHash = tokenHash → t.usedAt.isSome = true

/-- No token disappears, and none is unmarked. -/
structure TokensKept (d d' : AuthDb) : Prop where
  kept : ∀ tokenHash, fresh d tokenHash = false → fresh d' tokenHash = false
  marked : ∀ tokenHash, fresh d tokenHash = false → Marked d tokenHash → Marked d' tokenHash

/-- The call has read this token and is to use it. -/
def TokenCall.Holds (tokenHash : String) : TokenCall → Prop
  | .resetting held _ _ | .verifying held _ => held = tokenHash
  | _ => False

/-- A token that has been used has rows, and they are marked; a token that is held has rows. -/
structure TokenInv (s : TokenState) : Prop where
  used : ∀ tokenHash, 0 < usesOf s tokenHash → fresh s.d tokenHash = false ∧ Marked s.d tokenHash
  held : ∀ c ∈ s.calls, ∀ tokenHash, c.Holds tokenHash → fresh s.d tokenHash = false

/-- What a step can do, and when that keeps to single use. -/
inductive TokenMove (s : TokenState) : TokenState → Prop → Prop
  | /-- No token is used. -/
    other {s' : TokenState} (hd : TokensKept s.d s'.d) (huses : s'.uses = s.uses)
      (hcalls : ∀ c ∈ s'.calls, c ∈ s.calls ∨
        ∀ tokenHash, c.Holds tokenHash → fresh s.d tokenHash = false) : TokenMove s s' True
  | reset {k : Nat} {tokenHash : String} {userId : Nat} {passwordHash : String} {d : AuthDb}
      (hk : s.calls[k]? = some (.resetting tokenHash userId passwordHash))
      (hd : TokensKept s.d d) (hmarked : Marked d tokenHash) :
      TokenMove s (s.use k tokenHash .passwordReset d) (unused s.d tokenHash = true)
  | verify {k : Nat} {tokenHash : String} {userId : Nat} {d : AuthDb}
      (hk : s.calls[k]? = some (.verifying tokenHash userId))
      (hd : TokensKept s.d d) (hmarked : Marked d tokenHash) :
      TokenMove s (s.use k tokenHash .verification d) (usesOf s tokenHash = 0)

section Moves

variable {env : AuthEnv} {s s' : TokenState} {d d' d'' : AuthDb} {tokenHash : String} {ok : Prop}

theorem fresh_eq_false_iff :
    fresh d tokenHash = false ↔ ∃ t ∈ d.emailTokens.rows, t.tokenHash = tokenHash := by
  rw [fresh, List.all_eq_false]
  apply exists_congr
  intro t
  apply and_congr_right
  intro _
  rw [decide_eq_true_eq, not_not]

/-- Calls that leave the tokens alone. -/
theorem TokensKept.of_eq (h : d'.emailTokens = d.emailTokens) : TokensKept d d' := by
  constructor
  · intro tokenHash
    rw [fresh, fresh, h]
    exact id
  · intro tokenHash _
    rw [Marked, Marked, h]
    exact id

theorem TokensKept.trans (h : TokensKept d d') (h' : TokensKept d' d'') : TokensKept d d'' := by
  constructor
  · exact fun tokenHash hrow ↦ h'.kept tokenHash (h.kept tokenHash hrow)
  · exact fun tokenHash hrow hmarked ↦
      h'.marked tokenHash (h.kept tokenHash hrow) (h.marked tokenHash hrow hmarked)

/-- Marking some tokens unmarks none. -/
theorem TokensKept.mark {p : EmailToken → Bool} {now : Int}
    (h : d'.emailTokens = d.emailTokens.modify p fun t ↦ { t with usedAt := some now }) :
    TokensKept d d' := by
  have hhash : ∀ t : EmailToken,
      (if p t then { t with usedAt := some now } else t).tokenHash = t.tokenHash := by
    intro t
    split <;> rfl
  constructor
  · intro tokenHash hrow
    obtain ⟨t, ht, rfl⟩ := fresh_eq_false_iff.mp hrow
    rw [fresh_eq_false_iff, h]
    exact ⟨_, Table.mem_modify.mpr ⟨t, ht, rfl⟩, hhash t⟩
  · intro tokenHash _ hmarked t' ht' hhash'
    rw [h] at ht'
    obtain ⟨t, ht, rfl⟩ := Table.mem_modify.mp ht'
    rw [hhash] at hhash'
    have hbefore := hmarked t ht hhash'
    split
    · rfl
    · exact hbefore

theorem tokensKept_insertEmailToken {userId : Nat} {tokenType : TokenType} {expiresAt : Int}
    (hfresh : fresh d tokenHash = true) :
    TokensKept d (d.insertEmailToken userId tokenHash tokenType expiresAt) := by
  constructor
  · intro other hrow
    obtain ⟨t, ht, hother⟩ := fresh_eq_false_iff.mp hrow
    exact fresh_eq_false_iff.mpr ⟨t, Table.mem_insert.mpr (.inl ht), hother⟩
  · intro other hrow hmarked t' ht' hother
    rcases Table.mem_insert.mp ht' with ht' | rfl
    · exact hmarked t' ht' hother
    · -- the new token is not one that was there
      rw [show tokenHash = other from hother] at hfresh
      rw [hfresh] at hrow
      cases hrow

theorem tokensKept_issueToken {userId : Nat} {tokenType : TokenType} {expiresAt now : Int}
    (hfresh : fresh d tokenHash = true) :
    TokensKept d (issueToken userId tokenHash tokenType expiresAt now d) := by
  have hinvalidated : TokensKept d (d.invalidateUserTokens userId tokenType now) := .mark rfl
  apply hinvalidated.trans
  apply tokensKept_insertEmailToken
  cases hstill : fresh (d.invalidateUserTokens userId tokenType now) tokenHash with
  | true => rfl
  | false =>
      obtain ⟨t', ht', hhash⟩ := fresh_eq_false_iff.mp hstill
      obtain ⟨t, ht, rfl⟩ := List.mem_map.mp ht'
      have hrow : fresh d tokenHash = false := by
        refine fresh_eq_false_iff.mpr ⟨t, ht, ?_⟩
        rw [← hhash]
        split <;> rfl
      rw [hfresh] at hrow
      cases hrow

theorem marked_markTokenUsed (now : Int) : Marked (d.markTokenUsed tokenHash now) tokenHash := by
  intro t' ht' hhash
  obtain ⟨t, _, rfl⟩ := List.mem_map.mp ht'
  split
  · rfl
  · rename_i hne
    rw [if_neg hne] at hhash
    rw [decide_eq_true_eq] at hne
    exact absurd hhash hne

/-- Both transactions mark the token and then other tokens of the user. -/
theorem tokensKept_use (userId : Nat) (tokenType : TokenType) (now : Int)
    (h : d'.emailTokens =
      ((d.markTokenUsed tokenHash now).invalidateUserTokens userId tokenType now).emailTokens)
    (hrow : fresh d tokenHash = false) : TokensKept d d' ∧ Marked d' tokenHash := by
  have hmark : TokensKept d (d.markTokenUsed tokenHash now) := .mark rfl
  have hinvalidate : TokensKept (d.markTokenUsed tokenHash now) d' := .mark h
  exact ⟨hmark.trans hinvalidate,
    hinvalidate.marked tokenHash (hmark.kept tokenHash hrow) (marked_markTokenUsed now)⟩

/-- A token that has been read has a row. -/
theorem fresh_of_getTokenWithUser {tokenType : TokenType} {r : EmailToken × EmailAuth}
    (h : d.getTokenWithUser tokenHash tokenType = some r) : fresh d tokenHash = false := by
  obtain ⟨t, ht, hrow⟩ := List.exists_of_findSome?_eq_some h
  split at hrow
  · rename_i hmatch
    exact fresh_eq_false_iff.mpr ⟨t, ht, hmatch.1⟩
  · cases hrow

theorem fresh_of_checkToken {tokenType : TokenType} {now : Int} {user : EmailAuth}
    (h : checkToken tokenType now (d.getTokenWithUser tokenHash tokenType) = .ok user) :
    fresh d tokenHash = false := by
  cases hread : d.getTokenWithUser tokenHash tokenType with
  | none =>
      rw [hread] at h
      cases h
  | some r => exact fresh_of_getTokenWithUser hread

/-- A call that uses no token goes on. -/
theorem TokenMove.goto {k : Nat} {c : TokenCall} (hd : TokensKept s.d d)
    (hc : ∀ tokenHash, c.Holds tokenHash → fresh s.d tokenHash = false) :
    TokenMove s (s.goto k c d) True := by
  refine .other hd rfl fun c' hc' ↦ ?_
  rcases List.mem_or_eq_of_mem_set hc' with hc' | rfl
  · exact .inl hc'
  · exact .inr hc

theorem untouched_advance_iff {k : Nat} {now : Int} {c : TokenCall} (hk : s.calls[k]? = some c) :
    Untouched s (.advance k now) ↔ c.Untouched s := by
  constructor
  · intro hall
    exact hall c hk
  · intro hc c' hk'
    rw [hk] at hk'
    rw [← Option.some.inj hk']
    exact hc

/-- What the next statement of a call does. -/
theorem advance_move (h : TokenInv s) {k : Nat} {now : Int} {c : TokenCall}
    (hk : s.calls[k]? = some c) (hs : c.advance env s k now = some s') :
    ∃ ok, TokenMove s s' ok ∧ (ok ↔ c.Untouched s) := by
  have hsame : TokensKept s.d s.d := .of_eq rfl
  have hrow : ∀ tokenHash, c.Holds tokenHash → fresh s.d tokenHash = false :=
    h.held c (List.mem_of_getElem? hk)
  cases c with
  | checking tokenType email identifiers token =>
      refine ⟨True, ?_, Iff.rfl⟩
      cases identifiers with
      | nil =>
          cases hs
          exact .goto hsame fun _ hheld ↦ hheld.elim
      | cons identifier rest =>
          simp only [TokenCall.advance] at hs
          split at hs
          · cases hs
            exact .goto hsame fun _ hheld ↦ hheld.elim
          · cases hs
            exact .goto hsame fun _ hheld ↦ hheld.elim
  | looking tokenType email token =>
      refine ⟨True, ?_, Iff.rfl⟩
      simp only [TokenCall.advance] at hs
      split at hs
      · split at hs
        · cases hs
          exact .goto hsame fun _ hheld ↦ hheld.elim
        · cases hs
          exact .goto hsame fun _ hheld ↦ hheld.elim
      · split at hs
        · cases hs
          exact .goto hsame fun _ hheld ↦ hheld.elim
        · cases hs
          exact .goto hsame fun _ hheld ↦ hheld.elim
  | issuing tokenType email userId tokenHash expiresAt =>
      refine ⟨True, ?_, Iff.rfl⟩
      simp only [TokenCall.advance] at hs
      split at hs
      · rename_i hfresh
        cases hs
        exact .goto (tokensKept_issueToken hfresh) fun _ hheld ↦ hheld.elim
      · cases hs
  | recording tokenType email success =>
      refine ⟨True, ?_, Iff.rfl⟩
      cases hs
      exact .goto (.of_eq rfl) fun _ hheld ↦ hheld.elim
  | readingReset token password salt =>
      refine ⟨True, ?_, Iff.rfl⟩
      simp only [TokenCall.advance] at hs
      split at hs
      · cases hs
        exact .goto hsame fun _ hheld ↦ hheld.elim
      · rename_i hread
        cases hs
        refine .goto hsame fun held hheld ↦ ?_
        rw [← show env.hashToken token = held from hheld]
        exact fresh_of_checkToken hread
  | readingVerification token =>
      refine ⟨True, ?_, Iff.rfl⟩
      simp only [TokenCall.advance] at hs
      split at hs
      · cases hs
        exact .goto hsame fun _ hheld ↦ hheld.elim
      · rename_i hread
        cases hs
        refine .goto hsame fun held hheld ↦ ?_
        rw [← show env.hashToken token = held from hheld]
        exact fresh_of_checkToken hread
  | resetting tokenHash userId passwordHash =>
      cases hs
      have huse : TokensKept s.d (confirmPasswordResetTransaction tokenHash userId passwordHash now
            s.d) ∧ Marked (confirmPasswordResetTransaction tokenHash userId passwordHash now s.d)
          tokenHash :=
        tokensKept_use userId .passwordReset now rfl (hrow tokenHash rfl)
      obtain ⟨hkept, hmarked⟩ := huse
      exact ⟨_, .reset hk hkept hmarked, Iff.rfl⟩
  | verifying tokenHash userId =>
      cases hs
      have huse : TokensKept s.d (verifyEmailTransaction tokenHash userId now s.d) ∧
          Marked (verifyEmailTransaction tokenHash userId now s.d) tokenHash :=
        tokensKept_use userId .verification now rfl (hrow tokenHash rfl)
      obtain ⟨hkept, hmarked⟩ := huse
      exact ⟨_, .verify hk hkept hmarked, Iff.rfl⟩
  | ended => cases hs

/-- What a step does. -/
theorem tokenStep_move (h : TokenInv s) {l : TokenLabel} (hs : tokenStep env s l = some s') :
    ∃ ok, TokenMove s s' ok ∧ (ok ↔ Untouched s l) := by
  have hjoin : ∀ c : TokenCall, (∀ tokenHash, ¬ c.Holds tokenHash) →
      TokenMove s { s with calls := s.calls ++ [c] } True := by
    intro c hc
    refine .other (.of_eq rfl) rfl fun c' hc' ↦ ?_
    rcases List.mem_append.mp hc' with hc' | hc'
    · exact .inl hc'
    · rw [List.mem_singleton.mp hc']
      exact .inr fun tokenHash hheld ↦ absurd hheld (hc tokenHash)
  cases l with
  | requestPasswordReset email clientIp token =>
      cases hs
      exact ⟨True, hjoin _ fun _ ↦ not_false, Iff.rfl⟩
  | resendVerification email clientIp token =>
      cases hs
      exact ⟨True, hjoin _ fun _ ↦ not_false, Iff.rfl⟩
  | confirmPasswordReset token password salt =>
      refine ⟨True, ?_, Iff.rfl⟩
      simp only [tokenStep] at hs
      split at hs
      · cases hs
        exact .other (.of_eq rfl) rfl fun _ hc ↦ .inl hc
      · cases hs
        exact hjoin _ fun _ ↦ not_false
  | verifyEmail token =>
      cases hs
      exact ⟨True, hjoin _ fun _ ↦ not_false, Iff.rfl⟩
  | advance k now =>
      obtain ⟨c, hk, hc⟩ := Option.bind_eq_some_iff.mp hs
      obtain ⟨ok, hmove, hok⟩ := advance_move h hk hc
      exact ⟨ok, hmove, hok.trans (untouched_advance_iff hk).symm⟩
  | fail k =>
      obtain ⟨c, _, rfl⟩ := Option.map_eq_some_iff.mp hs
      exact ⟨True, .goto (.of_eq rfl) fun _ hheld ↦ hheld.elim, Iff.rfl⟩

/-! ## The invariant and single use -/

theorem usesOf_use (s : TokenState) (k : Nat) (used : String) (tokenType : TokenType) (d : AuthDb)
    (tokenHash : String) : usesOf (s.use k used tokenType d) tokenHash =
      usesOf s tokenHash + if used = tokenHash then 1 else 0 := by
  rw [usesOf, usesOf, TokenState.use, List.countP_cons]
  congr 1
  apply if_congr _ rfl rfl
  exact decide_eq_true_iff

theorem TokenInv.use (h : TokenInv s) {k : Nat} {tokenType : TokenType} {c : TokenCall}
    (hk : s.calls[k]? = some c) (hc : c.Holds tokenHash) (hd : TokensKept s.d d)
    (hmarked : Marked d tokenHash) : TokenInv (s.use k tokenHash tokenType d) := by
  have hrow := h.held c (List.mem_of_getElem? hk) tokenHash hc
  constructor
  · intro other hused
    by_cases hother : tokenHash = other
    · subst hother
      exact ⟨hd.kept tokenHash hrow, hmarked⟩
    · rw [usesOf_use, if_neg hother] at hused
      obtain ⟨hrow', hmarked'⟩ := h.used other hused
      exact ⟨hd.kept other hrow', hd.marked other hrow' hmarked'⟩
  · intro c' hc' other hheld
    rcases List.mem_or_eq_of_mem_set hc' with hc' | rfl
    · exact hd.kept other (h.held c' hc' other hheld)
    · exact hheld.elim

theorem TokenMove.inv (h : TokenInv s) (hmove : TokenMove s s' ok) : TokenInv s' := by
  cases hmove with
  | other hd huses hcalls =>
      constructor
      · intro tokenHash hused
        rw [usesOf, huses] at hused
        obtain ⟨hrow, hmarked⟩ := h.used tokenHash hused
        exact ⟨hd.kept tokenHash hrow, hd.marked tokenHash hrow hmarked⟩
      · intro c hc tokenHash hheld
        rcases hcalls c hc with hc | hc
        · exact hd.kept tokenHash (h.held c hc tokenHash hheld)
        · exact hd.kept tokenHash (hc tokenHash hheld)
  | reset hk hd hmarked => exact h.use hk rfl hd hmarked
  | verify hk hd hmarked => exact h.use hk rfl hd hmarked

/-- A token that is unused has not been used. -/
theorem TokenInv.usesOf_eq_zero (h : TokenInv s) (hunused : unused s.d tokenHash = true) :
    usesOf s tokenHash = 0 := by
  by_contra hne
  obtain ⟨hrow, hmarked⟩ := h.used tokenHash (Nat.pos_of_ne_zero hne)
  obtain ⟨t, ht, hhash⟩ := fresh_eq_false_iff.mp hrow
  have hnone := List.all_eq_true.mp hunused t ht
  have hsome := hmarked t ht hhash
  rw [hhash, Bool.or_eq_true, decide_eq_true_eq, Option.isNone_iff_eq_none] at hnone
  rw [hnone.resolve_left fun hne ↦ hne rfl] at hsome
  cases hsome

/-- One more use of a token. -/
theorem SingleUse.use_iff (hsingle : SingleUse s) {k : Nat} {tokenType : TokenType} :
    SingleUse (s.use k tokenHash tokenType d) ↔ usesOf s tokenHash = 0 ∧
      (tokenType = .passwordReset → unused s.d tokenHash = true) := by
  constructor
  · intro h'
    constructor
    · have hle := h'.once tokenHash
      rw [usesOf_use, if_pos rfl] at hle
      omega
    · exact h'.valid _ List.mem_cons_self
  · rintro ⟨hzero, hvalid⟩
    constructor
    · intro other
      have hle := hsingle.once other
      rw [usesOf_use]
      split
      · rename_i hother
        rw [← hother, hzero]
      · exact hle
    · intro u hu
      rcases List.mem_cons.mp hu with rfl | hu
      · exact hvalid
      · exact hsingle.valid u hu

theorem TokenMove.singleUse_iff (h : TokenInv s) (hsingle : SingleUse s)
    (hmove : TokenMove s s' ok) : SingleUse s' ↔ ok := by
  cases hmove with
  | other hd huses hcalls =>
      refine iff_of_true ⟨fun tokenHash ↦ ?_, fun u hu ↦ ?_⟩ trivial
      · rw [usesOf, huses]
        exact hsingle.once tokenHash
      · rw [huses] at hu
        exact hsingle.valid u hu
  | reset hk hd hmarked =>
      rw [hsingle.use_iff]
      exact ⟨fun h' ↦ h'.2 rfl, fun hunused ↦ ⟨h.usesOf_eq_zero hunused, fun _ ↦ hunused⟩⟩
  | verify hk hd hmarked =>
      rw [hsingle.use_iff]
      exact and_iff_left fun htype ↦ (by cases htype)

end Moves

/-! ## The rule -/

theorem tokenInv_start (d : AuthDb) : TokenInv (tokenStart d) := by
  constructor
  · intro tokenHash hused
    exact absurd hused (Nat.lt_irrefl 0)
  · intro c hc
    cases hc

theorem singleUse_start (d : AuthDb) : SingleUse (tokenStart d) :=
  ⟨fun _ ↦ Nat.zero_le 1, fun u hu ↦ (by cases hu)⟩

/-- The tokens of a run are used once, and while they are valid, exactly when every transaction
finds its token as it was read. -/
theorem singleUse_run_iff (env : AuthEnv) (d : AuthDb) (ls : List TokenLabel) (s : TokenState) :
    Run (fun s l s' ↦ tokenStep env s l = some s' ∧ SingleUse s') (tokenStart d) ls s ↔
      Run (Guarded Untouched (ofStep (tokenStep env))) (tokenStart d) ls s := by
  apply Run.congr (fun s ↦ TokenInv s ∧ SingleUse s)
  · rintro s l s' ⟨hinv, hsingle⟩
    rw [Guarded, ofStep, and_comm]
    apply and_congr_left
    intro hs
    obtain ⟨ok, hmove, hok⟩ := tokenStep_move hinv hs
    rw [hmove.singleUse_iff hinv hsingle, hok]
  · rintro s l s' ⟨hinv, _⟩ ⟨hs, hsingle⟩
    obtain ⟨ok, hmove, _⟩ := tokenStep_move hinv hs
    exact ⟨hmove.inv hinv, hsingle⟩
  · exact ⟨tokenInv_start d, singleUse_start d⟩

/-- One account, with a token to reset its password. -/
def issued : AuthDb where
  users := [1]
  emailAuth := [{ userId := 1, email := "a@b.cc", passwordHash := "Password1!" }]
  emailTokens := Table.empty.insert fun id ↦
    { id, userId := 1, tokenHash := "t", tokenType := .passwordReset, expiresAt := 3600 }

/-- Two resets that both read the token before either uses it. -/
def readTwice : List TokenLabel :=
  [.confirmPasswordReset "t" "Password2!" "", .confirmPasswordReset "t" "Password3!" "",
    .advance 0 1, .advance 1 1, .advance 0 2, .advance 1 2]

/-- A reset that has read its token when a newer one is issued. -/
def overtaken : List TokenLabel :=
  [.confirmPasswordReset "t" "Password2!" "", .advance 0 1,
    .requestPasswordReset "a@b.cc" none "u", .advance 1 1, .advance 1 1, .advance 1 1, .advance 1 1,
    .advance 0 2]

/-- How often the token was used, and whether a reset with it found it unused. -/
def useSummary (s : TokenState) : Nat × List (TokenType × Bool) :=
  (usesOf s "t", s.uses.map fun u ↦ (u.tokenType, u.unused))

theorem readTwice_uses :
    (readTwice.foldlM (tokenStep plainEnv) (tokenStart issued)).map useSummary =
      some (2, [(.passwordReset, false), (.passwordReset, true)]) := by
  decide +kernel

theorem overtaken_uses :
    (overtaken.foldlM (tokenStep plainEnv) (tokenStart issued)).map useSummary =
      some (1, [(.passwordReset, false)]) := by
  decide +kernel

/-- One token is used twice, and a password is changed with a token that a newer one replaced. -/
theorem readTwice_not_singleUse :
    (∃ s, readTwice.foldlM (tokenStep plainEnv) (tokenStart issued) = some s ∧ ¬ SingleUse s) ∧
      ∃ s, overtaken.foldlM (tokenStep plainEnv) (tokenStart issued) = some s ∧ ¬ SingleUse s := by
  obtain ⟨s, hs, hcount⟩ := Option.map_eq_some_iff.mp readTwice_uses
  obtain ⟨s', hs', hstale⟩ := Option.map_eq_some_iff.mp overtaken_uses
  refine ⟨⟨s, hs, fun hsingle ↦ ?_⟩, s', hs', fun hsingle ↦ ?_⟩
  · have hle := hsingle.once "t"
    rw [(Prod.mk.inj hcount).1] at hle
    omega
  · have hmem : (TokenType.passwordReset, false) ∈ s'.uses.map fun u ↦ (u.tokenType, u.unused) := by
      rw [(Prod.mk.inj hstale).2]
      exact List.mem_singleton_self _
    obtain ⟨u, hu, heq⟩ := List.mem_map.mp hmem
    obtain ⟨htype, hfalse⟩ := Prod.mk.inj heq
    rw [hsingle.valid u hu htype] at hfalse
    cases hfalse

end Genjishimada.Auth
