import Genjishimada.Services.Sessions

/-!
# Access after a password reset

`confirm_password_reset` deletes the remember tokens of the user and leaves the sessions.  After
it no remember token of the user is left for the site to validate, and a session of the user goes
on being read for as long as it has not expired; each read puts its expiry off.
-/

namespace Genjishimada.Auth

open Library Repository Services

variable {env : AuthEnv} {s s' : SessionDb} {u : Nat} {start : Int}

/-- The tables after some calls of the site. -/
def afterCalls (env : AuthEnv) (s : SessionDb) (calls : List SiteCall) : SessionDb :=
  calls.foldl (SiteCall.after env) s

/-- The call does not write a session of the user. -/
def ForOthers (u : Nat) : SiteCall → Prop
  | .sessionWrite _ _ userId _ _ _ => userId ≠ some u
  | _ => True

/-- With a session or a remember token that `before` has, the call is told the payload of the
user's session, that the user is a moderator, or the id of the user. -/
def Yields (env : AuthEnv) (before : SessionDb) (u : Nat) (s : SessionDb) : SiteCall → Prop
  | .sessionRead sessionId now =>
      (∃ old, before.sessions sessionId = some old ∧ old.userId = some u) ∧
      ∃ row, s.sessions sessionId = some row ∧ row.userId = some u ∧
        ((sessionRead sessionId now s).1.payload = some row.payload ∨
          (sessionRead sessionId now s).1.isMod = true)
  | .sessionWrite .. => False
  | .validateRememberToken token now =>
      (∃ old ∈ before.auth.rememberTokens.rows, old.tokenHash = env.hashToken token ∧
        old.userId = u) ∧
      (validateRememberToken env token now s).1.userId = some u

/-- Whatever the site calls from `start` on, for others where it writes a session, what `before`
has of the user yields nothing any more. -/
def CutsOff (env : AuthEnv) (before s : SessionDb) (u : Nat) (start : Int) : Prop :=
  ∀ calls call, (∀ c ∈ calls ++ [call], start ≤ c.now ∧ ForOthers u c) →
    ¬ Yields env before u (afterCalls env s calls) call

/-! ## What stays true -/

/-- No remember token and no session of the user is of use from `start` on. -/
structure Dead (u : Nat) (start : Int) (s : SessionDb) : Prop where
  tokens : ∀ t ∈ s.auth.rememberTokens.rows, t.userId ≠ u
  sessions : ∀ sessionId row, s.sessions sessionId = some row → row.userId = some u →
    row.lastActivity ≤ start - sessionLifetimeMinutes * SessionDb.minute

theorem not_live {row : Session} {now : Int} (hnow : start ≤ now)
    (h : row.lastActivity ≤ start - sessionLifetimeMinutes * SessionDb.minute) :
    SessionDb.live sessionLifetimeMinutes now row = false := by
  simp only [SessionDb.live, decide_eq_false_iff_not, not_lt]
  omega

theorem readSession_of_live {sessionId : String} {row : Session} {now : Int} {lifetime : Nat}
    (hrow : s.sessions sessionId = some row) (h : SessionDb.live lifetime now row = true) :
    s.readSession sessionId lifetime now = (some row.payload, { s with
      sessions := Function.update s.sessions sessionId (some { row with lastActivity := now }) }) := by
  simp [SessionDb.readSession, hrow, h]

theorem readSession_of_not_live {sessionId : String} {row : Session} {now : Int} {lifetime : Nat}
    (hrow : s.sessions sessionId = some row) (h : SessionDb.live lifetime now row = false) :
    s.readSession sessionId lifetime now = (none, s) := by
  simp [SessionDb.readSession, hrow, h]

theorem readSession_of_none {sessionId : String} {now : Int} {lifetime : Nat}
    (hrow : s.sessions sessionId = none) : s.readSession sessionId lifetime now = (none, s) := by
  simp [SessionDb.readSession, hrow]

namespace Dead

/-- A read refreshes sessions of others only. -/
theorem readSession (h : Dead u start s) (sessionId : String) {now : Int} (hnow : start ≤ now) :
    Dead u start (s.readSession sessionId sessionLifetimeMinutes now).2 := by
  cases hrow : s.sessions sessionId with
  | none =>
      rw [readSession_of_none hrow]
      exact h
  | some row =>
      cases hlive : SessionDb.live sessionLifetimeMinutes now row with
      | false =>
          rw [readSession_of_not_live hrow hlive]
          exact h
      | true =>
          rw [readSession_of_live hrow hlive]
          refine ⟨h.tokens, fun id row' hrow' hu ↦ ?_⟩
          by_cases hid : id = sessionId
          · subst hid
            simp only [Function.update_self, Option.some.injEq] at hrow'
            subst hrow'
            rw [not_live hnow (h.sessions id row hrow hu)] at hlive
            cases hlive
          · simp only [Function.update_of_ne hid] at hrow'
            exact h.sessions id row' hrow' hu

theorem sessionWrite (h : Dead u start s) (sessionId payload : String) {userId : Option Nat}
    (hothers : userId ≠ some u) (ipAddress userAgent : Option String) (now : Int) :
    Dead u start (sessionWrite sessionId payload userId ipAddress userAgent now s) := by
  rw [Services.sessionWrite, SessionDb.writeSession]
  split
  · refine ⟨h.tokens, fun id row hrow hu ↦ ?_⟩
    by_cases hid : id = sessionId
    · subst hid
      simp only [Option.getD_some, Function.update_self, Option.some.injEq] at hrow
      subst hrow
      exact absurd hu hothers
    · simp only [Option.getD_some, Function.update_of_ne hid] at hrow
      exact h.sessions id row hrow hu
  · exact h

theorem validateRememberToken (h : Dead u start s) (tokenHash : String) (now : Int) :
    Dead u start (s.validateRememberToken tokenHash now).2 := by
  rw [SessionDb.validateRememberToken]
  split
  · exact h
  · refine ⟨fun t ht ↦ ?_, h.sessions⟩
    obtain ⟨t', ht', rfl⟩ := List.mem_map.mp ht
    split
    · exact h.tokens t' ht'
    · exact h.tokens t' ht'

/-- No call of the site for others brings anything of the user back. -/
theorem after (h : Dead u start s) {c : SiteCall} (hc : start ≤ c.now ∧ ForOthers u c) :
    Dead u start (c.after env s) := by
  cases c with
  | sessionRead sessionId now => exact h.readSession sessionId hc.1
  | sessionWrite sessionId payload userId ipAddress userAgent now =>
      exact h.sessionWrite sessionId payload hc.2 ipAddress userAgent now
  | validateRememberToken token now => exact h.validateRememberToken _ now

theorem afterCalls (env : AuthEnv) (h : Dead u start s) {calls : List SiteCall}
    (hcalls : ∀ c ∈ calls, start ≤ c.now ∧ ForOthers u c) :
    Dead u start (afterCalls env s calls) := by
  induction calls generalizing s with
  | nil => exact h
  | cons c calls ih =>
      exact ih (h.after (hcalls c List.mem_cons_self)) fun c' hc' ↦
        hcalls c' (List.mem_cons_of_mem c hc')

/-- What is dead yields nothing. -/
theorem not_yields (h : Dead u start s) {before : SessionDb} {c : SiteCall} (hnow : start ≤ c.now) :
    ¬ Yields env before u s c := by
  cases c with
  | sessionRead sessionId now =>
      rintro ⟨-, row, hrow, hu, hyields⟩
      have hnow : start ≤ now := hnow
      have hread := readSession_of_not_live hrow (not_live hnow (h.sessions sessionId row hrow hu))
      simp only [Services.sessionRead, hread] at hyields
      rcases hyields with hpayload | hmod
      · cases hpayload
      · cases hmod
  | sessionWrite => exact id
  | validateRememberToken token now =>
      rintro ⟨-, hyields⟩
      simp only [Services.validateRememberToken, SessionDb.validateRememberToken] at hyields
      split at hyields
      · cases hyields
      · rename_i t hfind
        exact h.tokens t (List.mem_of_find?_eq_some hfind) (Option.some.inj hyields)

end Dead

/-! ## The reset -/

variable {token password salt : String} {now later : Int} {d' : AuthDb} {user : EmailAuth}

/-- A reset that returns has run its transaction for the user it returns. -/
theorem confirmPasswordReset_ok {d : AuthDb}
    (h : confirmPasswordReset env token password salt now later d = (d', .ok user)) :
    d' = confirmPasswordResetTransaction (env.hashToken token) user.userId
      (env.hashPassword password salt) later d := by
  rw [confirmPasswordReset] at h
  split at h
  · cases h
  · dsimp only at h
    split at h
    · cases h
    · cases h
      rfl

theorem rememberTokens_confirmPasswordReset {d : AuthDb}
    (h : confirmPasswordReset env token password salt now later d = (d', .ok user)) :
    d'.rememberTokens = d.rememberTokens.delete (·.userId = user.userId) := by
  rw [confirmPasswordReset_ok h]
  rfl

/-- Once the password is reset, nothing of before yields anything of the user, whatever the site
does for others, exactly if every session of the user has expired. -/
theorem reset_cutsOff_iff
    (h : confirmPasswordReset env token password salt now later s.auth = (d', .ok user)) :
    CutsOff env s { s with auth := d' } user.userId later ↔
      ∀ sessionId row, s.sessions sessionId = some row → row.userId = some user.userId →
        row.lastActivity ≤ later - sessionLifetimeMinutes * SessionDb.minute := by
  constructor
  · intro hcut sessionId row hrow hu
    by_contra hlive
    -- the site reads the session at once
    refine hcut [] (.sessionRead sessionId later) (by simp [SiteCall.now, ForOthers]) ?_
    refine ⟨⟨row, hrow, hu⟩, row, hrow, hu, .inl ?_⟩
    have hlive : SessionDb.live sessionLifetimeMinutes later row = true := by
      simpa [SessionDb.live] using hlive
    have hread := readSession_of_live (s := { s with auth := d' }) hrow hlive
    exact congrArg Prod.fst hread
  · intro hexpired calls call hcalls
    have hdead : Dead user.userId later { s with auth := d' } := by
      refine ⟨fun t ht ↦ ?_, hexpired⟩
      simp only [rememberTokens_confirmPasswordReset h, Table.rows_delete] at ht
      simpa using (List.mem_filter.mp ht).2
    have hrun := hdead.afterCalls env fun c hc ↦ hcalls c (List.mem_append_left _ hc)
    exact hrun.not_yields (hcalls call (by simp)).1

/-- An account with a token to reset its password and a session of `activity`. -/
def signedIn (activity : Int) : SessionDb where
  auth :=
    { users := [7]
      emailAuth := [{ userId := 7, email := "a@b.cd", passwordHash := "old" }]
      emailTokens := Table.empty.insert fun id ↦
        { id, userId := 7, tokenHash := "t", tokenType := .passwordReset, expiresAt := hour } }
  sessions := fun id ↦
    if id = "s" then some { userId := some 7, payload := "p", lastActivity := activity } else none

/-- The account once its password is reset. -/
def resetAuth (d : AuthDb) : AuthDb := confirmPasswordResetTransaction "t" 7 "Abcdef1!" 0 d

theorem expired_cutsOff :
    CutsOff plainEnv (signedIn (-7776000000000)) { signedIn (-7776000000000) with
      auth := resetAuth (signedIn (-7776000000000)).auth } 7 0 := by
  have hreset : confirmPasswordReset plainEnv "t" "Abcdef1!" "" 0 0
      (signedIn (-7776000000000)).auth =
        (resetAuth (signedIn (-7776000000000)).auth,
          .ok { userId := 7, email := "a@b.cd", passwordHash := "old" }) := rfl
  refine (reset_cutsOff_iff hreset).mpr ?_
  intro sessionId row hrow hu
  simp only [signedIn] at hrow
  split at hrow
  · cases hrow
    decide
  · cases hrow

theorem live_not_cutsOff :
    (confirmPasswordReset plainEnv "t" "Abcdef1!" "" 0 0 (signedIn 0).auth).2.toOption.map
      (·.userId) = some 7 ∧
    ¬ CutsOff plainEnv (signedIn 0) { signedIn 0 with
      auth := (confirmPasswordReset plainEnv "t" "Abcdef1!" "" 0 0 (signedIn 0).auth).1 } 7 0 := by
  refine ⟨by decide, fun hcut ↦ ?_⟩
  refine hcut [] (.sessionRead "s" 0) (by simp [SiteCall.now, ForOthers]) ?_
  refine ⟨⟨_, rfl, rfl⟩, _, rfl, rfl, .inl ?_⟩
  decide

end Genjishimada.Auth
