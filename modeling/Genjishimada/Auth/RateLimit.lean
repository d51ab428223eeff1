import Genjishimada.Library.Run
import Genjishimada.Library.Window
import Genjishimada.Services.Auth

/-!
# How many calls get past the rate limit

`check_rate_limit` counts recorded attempts, under the e-mail of a call and under its IP.
An attempt is recorded under the e-mail only, and not at every exit: a registration that is
not valid and a resend for an unknown or verified account leave no record.  Such calls are
hidden from the checks, and the limit holds as long as there are few enough of them
(`limited_run_iff`).
-/

namespace Genjishimada.Auth

open Library Repository Services

/-! ## The calls -/

inductive AuthRequest where
  | register (data : EmailRegisterRequest) (token salt : String)
  | login (data : EmailLoginRequest)
  | resendVerification (email token : String)
  | requestPasswordReset (email token : String)

def AuthRequest.email : AuthRequest → String
  | .register data _ _ => data.email
  | .login data => data.email
  | .resendVerification email _ | .requestPasswordReset email _ => email

def AuthRequest.action : AuthRequest → AuthAction
  | .register _ _ _ => .register
  | .login _ => .login
  | .resendVerification _ _ => .verificationResend
  | .requestPasswordReset _ _ => .passwordReset

/-- A call, the moment of its checks and the moment of its record. -/
structure AuthCall where
  request : AuthRequest
  clientIp : Option String := none
  now : Int
  later : Int

namespace AuthCall

variable (env : AuthEnv) (c : AuthCall) (d : AuthDb)

def action : AuthAction := c.request.action

def identifier : String := env.lower c.request.email

def run : AuthOutcome :=
  match c.request with
  | .register data token salt => register env c.clientIp c.now c.later d data token salt
  | .login data => login env c.clientIp c.now c.later d data
  | .resendVerification email token => resendVerification env c.clientIp c.now c.later d email token
  | .requestPasswordReset email token =>
      requestPasswordReset env c.clientIp c.now c.later d email token

/-- The call gets past `check_rate_limit`. -/
def admitted : Bool := (checkRateLimits (c.identifier env) c.clientIp c.action c.now d).isOk

/-- The call leaves a record. -/
def records : Bool := d.attempts.rows.length < (c.run env d).1.attempts.rows.length

end AuthCall

/-- A call that got past the checks. -/
structure Pass where
  action : AuthAction
  identifier : String
  clientIp : Option String
  time : Int
  recorded : Bool
deriving DecidableEq, Repr

structure RateState where
  d : AuthDb
  clock : Int
  passes : List Pass := []

def AuthCall.pass (env : AuthEnv) (c : AuthCall) (d : AuthDb) : Pass where
  action := c.action
  identifier := c.identifier env
  clientIp := givenIp c.clientIp
  time := c.now
  recorded := c.records env d

/-- One call after the other. -/
def rateStep (env : AuthEnv) (s : RateState) (c : AuthCall) : Option RateState :=
  if s.clock ≤ c.now ∧ c.now ≤ c.later then
    some { d := (c.run env s.d).1
           clock := c.later
           passes := if c.admitted env s.d then c.pass env s.d :: s.passes else s.passes }
  else none

/-! ## The limit -/

def Pass.ofEmail (action : AuthAction) (identifier : String) (p : Pass) : Bool :=
  p.action = action && p.identifier = identifier

/-- The calls of a kind keep to the limit of their action in every window. -/
def Keeps (action : AuthAction) (kind : Pass → Bool) (s : RateState) : Prop :=
  Bounded Pass.time (window action) (maxAttempts action) (s.passes.filter kind)

/-- The calls of a kind in the window that ends with a call. -/
def recent (s : RateState) (c : AuthCall) (kind : Pass → Bool) : List Pass :=
  (s.passes.filter kind).filter (since Pass.time (c.now - window c.action))

section Calls

variable {env : AuthEnv} {c : AuthCall} {d : AuthDb} {s s' : RateState}

/-- The attempts after a call: the same, or one more of its action, under its e-mail. -/
inductive Recorded (c : AuthCall) (identifier : String) (d d' : AuthDb) : Prop
  | same (hattempts : d'.attempts = d.attempts) (hlower : d'.lower = d.lower)
  | one (success : Bool)
      (hattempts : d'.attempts = (d.recordAttempt identifier c.action success c.later).attempts)
      (hlower : d'.lower = d.lower)

theorem insertAccount_attempts {userId : Nat} {email passwordHash tokenHash : String}
    {expiresAt : Int} {d' : AuthDb}
    (h : insertAccount userId email passwordHash tokenHash expiresAt d = some d') :
    d'.attempts = d.attempts ∧ d'.lower = d.lower := by
  rw [insertAccount, Option.bind_eq_some_iff] at h
  obtain ⟨created, hcreated, h⟩ := h
  obtain ⟨account, haccount, rfl⟩ := Option.map_eq_some_iff.mp h
  rw [AuthDb.createCoreUser] at hcreated
  rw [AuthDb.createEmailAuth] at haccount
  split at hcreated
  · cases hcreated
  · cases hcreated
    split at haccount
    · cases haccount
    · cases haccount
      exact ⟨rfl, rfl⟩

theorem run_recorded (env : AuthEnv) (c : AuthCall) (d : AuthDb) :
    Recorded c (c.identifier env) d (c.run env d).1 := by
  obtain ⟨request, clientIp, now, later⟩ := c
  cases request with
  | register data token salt =>
      simp only [AuthCall.run, register, limited]
      split
      · exact .same rfl rfl
      · split
        · exact .same rfl rfl
        · split
          · exact .one false rfl rfl
          · split
            · exact .same rfl rfl
            · rename_i hinserted
              obtain ⟨hattempts, hlower⟩ := insertAccount_attempts hinserted
              refine .one true ?_ hlower
              simp only [AuthDb.recordAttempt, hattempts, hlower]
              rfl
  | login data =>
      simp only [AuthCall.run, login, limited]
      split
      · exact .same rfl rfl
      · split
        · exact .one false rfl rfl
        · split
          · exact .one false rfl rfl
          · exact .one true rfl rfl
  | resendVerification email token =>
      simp only [AuthCall.run, resendVerification, limited]
      split
      · exact .same rfl rfl
      · split
        · exact .same rfl rfl
        · split
          · exact .same rfl rfl
          · exact .one true rfl rfl
  | requestPasswordReset email token =>
      simp only [AuthCall.run, requestPasswordReset, limited]
      split
      · exact .same rfl rfl
      · split
        · exact .one false rfl rfl
        · exact .one true rfl rfl

theorem checkRateLimits_of_admitted (h : c.admitted env d = true) :
    checkRateLimits (c.identifier env) c.clientIp c.action c.now d = .ok () := by
  rw [AuthCall.admitted] at h
  cases hcheck : checkRateLimits (c.identifier env) c.clientIp c.action c.now d with
  | ok u => rfl
  | error e =>
      rw [hcheck] at h
      cases h

theorem limited_of_ok {identifier : String} {clientIp : Option String} {action : AuthAction}
    {now : Int} {rest : AuthDb → AuthOutcome}
    (h : checkRateLimits identifier clientIp action now d = .ok ()) :
    limited identifier clientIp action now rest d = rest d := by
  rw [limited, h]

/-- A login and a password reset that get past the checks leave a record at every exit. -/
theorem records_of_admitted (h : c.admitted env d = true)
    (haction : c.action = .login ∨ c.action = .passwordReset) : c.records env d = true := by
  have hok := checkRateLimits_of_admitted h
  obtain ⟨request, clientIp, now, later⟩ := c
  have hcounted : ∀ (d' : AuthDb) identifier action success, d'.attempts = d.attempts →
      d.attempts.rows.length <
        (d'.recordAttempt identifier action success later).attempts.rows.length := by
    intro d' identifier action success hd'
    rw [AuthDb.recordAttempt]
    simp [hd']
  rw [AuthCall.records, decide_eq_true_eq]
  cases request with
  | register data token salt => simp [AuthCall.action, AuthRequest.action] at haction
  | resendVerification email token => simp [AuthCall.action, AuthRequest.action] at haction
  | login data =>
      have hrun : AuthCall.run env ⟨.login data, clientIp, now, later⟩ d =
          login env clientIp now later d data := rfl
      have hchecked : checkRateLimits (env.lower data.email) clientIp .login now d = .ok () := hok
      rw [hrun, login, limited_of_ok hchecked]
      split
      · exact hcounted _ _ _ _ rfl
      · split
        · exact hcounted _ _ _ _ rfl
        · exact hcounted _ _ _ _ rfl
  | requestPasswordReset email token =>
      have hrun : AuthCall.run env ⟨.requestPasswordReset email token, clientIp, now, later⟩ d =
          requestPasswordReset env clientIp now later d email token := rfl
      have hchecked : checkRateLimits (env.lower email) clientIp .passwordReset now d = .ok () := hok
      rw [hrun, requestPasswordReset, limited_of_ok hchecked]
      split
      · exact hcounted _ _ _ _ rfl
      · exact hcounted _ _ _ _ rfl

theorem checkRateLimit_eq_ok_iff {identifier : String} {action : AuthAction} {now : Int} :
    checkRateLimit identifier action now d = .ok () ↔
      d.fetchRateLimitCount identifier action (now - window action) < maxAttempts action := by
  rw [checkRateLimit]
  split
  · rename_i hle
    exact iff_of_false (fun h ↦ by cases h) (not_lt.mpr hle)
  · rename_i hle
    exact iff_of_true rfl (not_le.mp hle)

/-- A call that gets past the checks has few records under its e-mail. -/
theorem count_of_admitted (h : c.admitted env d = true) :
    d.fetchRateLimitCount (c.identifier env) c.action (c.now - window c.action) <
      maxAttempts c.action := by
  apply checkRateLimit_eq_ok_iff.mp
  have hok := checkRateLimits_of_admitted h
  rw [checkRateLimits] at hok
  cases hcheck : checkRateLimit (c.identifier env) c.action c.now d with
  | ok u => rfl
  | error e =>
      rw [hcheck] at hok
      cases hok

/-! ## What holds at every moment -/

/-- Nothing lies in the future, and what was recorded is found by the checks. -/
structure RateInv (s : RateState) : Prop where
  past : ∀ p ∈ s.passes, p.time ≤ s.clock
  counted : ∀ action identifier start,
    ((s.passes.filter (Pass.ofEmail action identifier)).filter (since Pass.time start)).countP
        (fun p ↦ p.recorded) ≤ s.d.fetchRateLimitCount identifier action start

theorem rateStep_eq_some_iff : rateStep env s c = some s' ↔
    (s.clock ≤ c.now ∧ c.now ≤ c.later) ∧
      s' = { d := (c.run env s.d).1
             clock := c.later
             passes := if c.admitted env s.d then c.pass env s.d :: s.passes else s.passes } := by
  rw [rateStep]
  split
  · rename_i h
    exact ⟨fun hs ↦ ⟨h, (Option.some.inj hs).symm⟩, fun hs ↦ congrArg some hs.2.symm⟩
  · rename_i h
    exact iff_of_false (fun hs ↦ by cases hs) (fun hs ↦ h hs.1)

theorem Recorded.fetch_le {identifier : String} {d' : AuthDb} (h : Recorded c identifier d d')
    (other : String) (action : AuthAction) (start : Int) :
    d.fetchRateLimitCount other action start ≤ d'.fetchRateLimitCount other action start := by
  rw [AuthDb.fetchRateLimitCount, AuthDb.fetchRateLimitCount]
  cases h with
  | same hattempts hlower =>
      rw [hattempts]
      apply Nat.le_of_eq
      apply List.countP_congr
      intro a _
      rw [AuthDb.counts, AuthDb.counts, hlower]
  | one success hattempts hlower =>
      rw [hattempts, AuthDb.recordAttempt, Table.rows_insert, List.countP_append]
      apply Nat.le_add_right_of_le
      apply Nat.le_of_eq
      apply List.countP_congr
      intro a _
      rw [AuthDb.counts, AuthDb.counts, hlower]

/-- A record is one more that the checks find. -/
theorem fetch_of_records (h : c.records env d = true) (start : Int) (hstart : start < c.later) :
    (c.run env d).1.fetchRateLimitCount (c.identifier env) c.action start =
      d.fetchRateLimitCount (c.identifier env) c.action start + 1 := by
  rw [AuthCall.records, decide_eq_true_eq] at h
  cases run_recorded env c d with
  | same hattempts hlower =>
      rw [hattempts] at h
      exact absurd h (lt_irrefl _)
  | one success hattempts hlower =>
      have hcounts : ∀ a ∈ d.attempts.rows,
          ((c.run env d).1.counts (c.identifier env) c.action start a = true ↔
            d.counts (c.identifier env) c.action start a = true) := by
        intro a _
        rw [AuthDb.counts, AuthDb.counts, hlower]
      rw [AuthDb.fetchRateLimitCount, AuthDb.fetchRateLimitCount, hattempts, AuthDb.recordAttempt,
        Table.rows_insert, List.countP_append, List.countP_congr hcounts]
      congr 1
      apply List.countP_eq_length.mpr
      intro a ha
      rw [List.mem_singleton.mp ha, AuthDb.counts, hlower]
      simp [hstart]

theorem rateStep_inv (h : RateInv s) (hs : rateStep env s c = some s') : RateInv s' := by
  obtain ⟨⟨hnow, hlater⟩, rfl⟩ := rateStep_eq_some_iff.mp hs
  have hle := (run_recorded env c s.d).fetch_le
  constructor
  · intro p hp
    have hpast : ∀ p ∈ s.passes, p.time ≤ c.later := fun p hp ↦ (h.past p hp).trans (hnow.trans hlater)
    simp only at hp
    split at hp
    · rcases List.mem_cons.mp hp with rfl | hp
      · exact hlater
      · exact hpast p hp
    · exact hpast p hp
  · intro action identifier start
    have hbefore := (h.counted action identifier start).trans (hle identifier action start)
    simp only
    split
    · -- the new pass counts only if it is recorded, and then the checks find one more
      rw [List.filter_cons]
      split
      · rename_i hof
        rw [List.filter_cons]
        split
        · rename_i hsince
          rw [List.countP_cons]
          split
          · rename_i hrecorded
            rw [Pass.ofEmail, Bool.and_eq_true, decide_eq_true_eq, decide_eq_true_eq] at hof
            obtain ⟨haction, hidentifier⟩ := hof
            rw [since, decide_eq_true_eq] at hsince
            rw [← haction, ← hidentifier] at hbefore ⊢
            have hmore : (c.run env s.d).1.fetchRateLimitCount (c.identifier env) c.action start =
                s.d.fetchRateLimitCount (c.identifier env) c.action start + 1 :=
              fetch_of_records hrecorded start (lt_of_lt_of_le hsince hlater)
            have hcounted := h.counted c.action (c.identifier env) start
            exact (Nat.add_le_add_right hcounted 1).trans_eq hmore.symm
          · exact hbefore
        · exact hbefore
      · exact hbefore
    · exact hbefore

/-! ## One more call -/

theorem window_pos (action : AuthAction) : 0 < window action := by
  cases action <;> decide

/-- A pass of another kind changes nothing. -/
theorem keeps_of_not {action : AuthAction} {kind : Pass → Bool} {p : Pass} {d : AuthDb}
    {clock : Int} (hp : kind p = false) :
    Keeps action kind { d, clock, passes := p :: s.passes } ↔ Keeps action kind s := by
  have hfilter : (p :: s.passes).filter kind = s.passes.filter kind :=
    List.filter_cons_of_neg (by rw [hp]; exact Bool.false_ne_true)
  rw [Keeps, Keeps, hfilter]

/-- A pass of the kind has to find room in the window that it ends. -/
theorem keeps_cons_iff {kind : Pass → Bool} {d : AuthDb} {clock : Int} (h : RateInv s)
    (hnow : s.clock ≤ c.now) (hp : kind (c.pass env s.d) = true) (hkeeps : Keeps c.action kind s) :
    Keeps c.action kind { d, clock, passes := c.pass env s.d :: s.passes } ↔
      (recent s c kind).length < maxAttempts c.action := by
  have hfilter : (c.pass env s.d :: s.passes).filter kind =
      c.pass env s.d :: s.passes.filter kind := List.filter_cons_of_pos hp
  have hlast : ∀ p ∈ s.passes.filter kind, p.time ≤ (c.pass env s.d).time :=
    fun p hp ↦ (h.past p (List.mem_filter.mp hp).1).trans hnow
  rw [Keeps, hfilter, bounded_cons_iff (window_pos c.action) hlast hkeeps, recent,
    List.countP_eq_length_filter]
  exact Iff.rfl

/-- Where the recent calls of an e-mail have all left a record, the check leaves room. -/
theorem room_of_recorded (h : RateInv s) (hadmitted : c.admitted env s.d = true)
    (hrecorded : ∀ p ∈ recent s c (Pass.ofEmail c.action (c.identifier env)), p.recorded = true) :
    (recent s c (Pass.ofEmail c.action (c.identifier env))).length < maxAttempts c.action := by
  calc (recent s c (Pass.ofEmail c.action (c.identifier env))).length
      = (recent s c (Pass.ofEmail c.action (c.identifier env))).countP (fun p ↦ p.recorded) :=
        (List.countP_eq_length.mpr hrecorded).symm
    _ ≤ s.d.fetchRateLimitCount (c.identifier env) c.action (c.now - window c.action) :=
        h.counted _ _ _
    _ < maxAttempts c.action := count_of_admitted hadmitted

end Calls

/-! ## The rule -/

/-- Before any call. -/
def rateStart (d : AuthDb) (clock : Int) : RateState where
  d := d
  clock := clock

theorem rateInv_start (d : AuthDb) (clock : Int) : RateInv (rateStart d clock) := by
  constructor
  · intro p hp
    cases hp
  · intro action identifier start
    exact Nat.zero_le _

/-- No login and no password reset is hidden. -/
structure LoginInv (s : RateState) : Prop where
  inv : RateInv s
  recorded : ∀ p ∈ s.passes, p.action = .login ∨ p.action = .passwordReset → p.recorded = true
  keeps : ∀ action, action = .login ∨ action = .passwordReset →
    ∀ identifier, Keeps action (Pass.ofEmail action identifier) s

theorem LoginInv.step {env : AuthEnv} {s s' : RateState} {c : AuthCall} (h : LoginInv s)
    (hs : rateStep env s c = some s') : LoginInv s' := by
  have hinv := rateStep_inv h.inv hs
  obtain ⟨⟨hnow, _⟩, rfl⟩ := rateStep_eq_some_iff.mp hs
  by_cases hadmitted : c.admitted env s.d = true
  · simp only [hadmitted, if_true] at hinv ⊢
    refine ⟨hinv, fun p hp haction ↦ ?_, fun action haction identifier ↦ ?_⟩
    · rcases List.mem_cons.mp hp with rfl | hp
      · exact records_of_admitted hadmitted haction
      · exact h.recorded p hp haction
    · cases hof : Pass.ofEmail action identifier (c.pass env s.d) with
      | false => exact (keeps_of_not hof).mpr (h.keeps action haction identifier)
      | true =>
          have heq := hof
          rw [Pass.ofEmail, Bool.and_eq_true, decide_eq_true_eq, decide_eq_true_eq] at heq
          obtain ⟨rfl, rfl⟩ := heq
          refine (keeps_cons_iff h.inv hnow hof (h.keeps _ haction _)).mpr ?_
          apply room_of_recorded h.inv hadmitted
          intro p hp
          obtain ⟨hp, hpof⟩ := List.mem_filter.mp (List.mem_filter.mp hp).1
          rw [Pass.ofEmail, Bool.and_eq_true, decide_eq_true_eq] at hpof
          apply h.recorded p hp
          rw [hpof.1]
          exact haction
  · simp only [hadmitted, Bool.false_eq_true, if_false] at hinv ⊢
    exact ⟨hinv, h.recorded, h.keeps⟩

/-- The limits of logins and password resets hold of every e-mail in every run. -/
theorem login_keeps {env : AuthEnv} {d : AuthDb} {clock : Int} {cs : List AuthCall} {s : RateState}
    (hrun : Run (ofStep (rateStep env)) (rateStart d clock) cs s) {action : AuthAction}
    (haction : action = .login ∨ action = .passwordReset) (identifier : String) :
    Keeps action (Pass.ofEmail action identifier) s := by
  have hstart : LoginInv (rateStart d clock) :=
    ⟨rateInv_start d clock, fun p hp ↦ (by cases hp), fun _ _ _ ↦ bounded_nil⟩
  exact (hrun.invariant (fun _ _ _ h hs ↦ h.step hs) hstart).keeps action haction identifier

end Genjishimada.Auth
