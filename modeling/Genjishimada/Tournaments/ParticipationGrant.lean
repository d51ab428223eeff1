import Genjishimada.Library.Script
import Genjishimada.Services.Completions
import Genjishimada.Services.Tournament

/-!
# The participation grant, statement by statement

A verdict flips the status of a run and, if it verifies, claims the participation grant on the
ledger and adds the XP.  The calls send these as separate statements, on a connection of their
own inside a transaction, or on the connection they are given, as `verify_completion_with_pool`
does, which is in none.  There each statement is kept as soon as it is sent, so that a fault
between the claim and the XP leaves a grant that was recorded and is never paid.
-/

namespace Genjishimada.Tournaments

open Library Sdk Repository Services

/-! ## The statements -/

/-- The database, and what has been added to `lootbox.xp` and for whom. -/
structure Books where
  db : Db
  credits : List (Nat × Int) := []

def onDb {α : Type} (f : StateM Db α) : StateM Books α := fun s ↦
  ((f s.db).1, { s with db := (f s.db).2 })

def fetch {α : Type} (q : Db → α) : Script Books α := Script.query fun s ↦ q s.db

def creditXp (userId : Nat) (xpAmount : Int) (multiplier : Rat) : StateM Books (Int × Int) :=
  fun s ↦
    let (amounts, db) := upsertUserXp userId xpAmount multiplier s.db
    (amounts, { db, credits := s.credits ++ [(userId, (xpAmount * multiplier).floor)] })

/-- `LootboxService.grant_xp` -/
def sendLootboxGrant (userId : Nat) (amount : Int) (type : XpType) (reason : Option String) :
    Script Books XpGrantEvent := do
  let multiplier ← fetch fetchXpMultiplier
  let (previousAmount, newAmount) ← Script.statement (creditXp userId amount multiplier)
  return { userId, amount, type, previousAmount, newAmount, reason }

/-- `_grant_xp` -/
def sendGrant (userId : Nat) (amount : Int) (reason : String) (cycleId : Nat)
    (grantReasonKey : GrantReason) : Script Books (List XpGrantEvent) := do
  if ← Script.statement (onDb (claimXpGrant cycleId userId grantReasonKey amount)) then
    return [← sendLootboxGrant userId amount .tournament (some reason)]
  else
    return []

def sendParticipation (cycle : Cycle) (userId : Nat) : Script Books (List XpGrantEvent) := do
  match ← fetch (fetchCategory cycle.categoryId) with
  | none => return []
  | some category =>
      if category.participationXp = 0 then return []
      else
        sendGrant userId category.participationXp "Tournament Participation" cycle.id
          .participation

/-- `_do` in `_propagate_tournament_verdict`. -/
def sendPropagation (tournamentCompletionId userId : Nat) (verified : Bool) :
    Script Books (Option (Cycle × List XpGrantEvent × Option Completion)) := do
  match ← fetch (fetchTournamentCompletion tournamentCompletionId) with
  | none => return none
  | some row =>
      match ← fetch (fetchCycle row.cycleId) with
      | none => return none
      | some cycle =>
          let updated ←
            Script.statement (onDb (setTournamentVerified tournamentCompletionId verified))
          let events ← if verified then sendParticipation cycle userId else pure []
          return some (cycle, events, updated)

/-- `_do` in `_set_verified`. -/
def sendVerdict (tournamentCompletionId : Nat) (verified awardXp : Bool) :
    Script Books (Option Completion × List XpGrantEvent) := do
  match ← Script.statement (onDb (setTournamentVerified tournamentCompletionId verified)) with
  | none => return (none, [])
  | some row =>
      if awardXp then
        match ← fetch (fetchCycle row.cycleId) with
        | none => return (some row, [])
        | some cycle =>
            let events ← sendParticipation cycle row.userId
            return (some row, events)
      else return (some row, [])

/-! ## The calls -/

/-- The `conn` argument of a call. -/
inductive ConnArg where
  | none
  /-- A connection of the pool that is in no transaction. -/
  | pooled
deriving DecidableEq, Repr

/-- Without a connection the statements are sent on a fresh one, in a transaction. -/
def ConnArg.run {α : Type} (x : Script Books α) : ConnArg → Script Books α
  | none => x.atomically
  | pooled => x

/-- After the statements: the notifications and the event. -/
def publishAfter (events : List XpGrantEvent) : Script Books PUnit :=
  events.foldr (fun _ rest ↦ Script.external >>= fun _ ↦ rest) Script.external

/-- `_propagate_tournament_verdict` for a completion of the user that is linked to a run. -/
def propagate (conn : ConnArg) (tournamentCompletionId userId : Nat) (verified : Bool) :
    Script Books PUnit := do
  match ← conn.run (sendPropagation tournamentCompletionId userId verified) with
  | some (_, events, some _) => publishAfter events
  | _ => return

def noopVerdict (tournamentCompletionId : Nat) : Script Books PUnit := do
  match ← fetch (fetchTournamentCompletion tournamentCompletionId) with
  | none => return
  | some _ => Script.external

def publishWritten (tournamentCompletionId : Nat) (verified : Bool) :
    Option Completion × List XpGrantEvent → Script Books PUnit
  | (some _, events) => publishAfter events
  | (none, _) => do
      match ← fetch (fetchTournamentCompletion tournamentCompletionId) with
      | none => return
      | some current =>
          if current.status = targetStatus verified then noopVerdict tournamentCompletionId
          else Script.external

/-- `_set_verified` as the verify and the reject of a run call it. -/
def verdict (conn : ConnArg) (tournamentCompletionId : Nat) (verified : Bool) :
    Script Books PUnit := do
  match ← fetch (fetchTournamentCompletion tournamentCompletionId) with
  | none => return
  | some existing =>
      if existing.status = .verified then
        if verified then noopVerdict tournamentCompletionId else return
      else
        let written ← conn.run (sendVerdict tournamentCompletionId verified verified)
        publishWritten tournamentCompletionId verified written

/-- A call that gives a verdict on a run. -/
inductive VerdictCall where
  | propagate (tournamentCompletionId userId : Nat) (verified : Bool)
  | setVerified (tournamentCompletionId : Nat) (verified : Bool)
deriving DecidableEq, Repr

namespace VerdictCall

def script (conn : ConnArg) : VerdictCall → Script Books PUnit
  | propagate tc userId verified => Tournaments.propagate conn tc userId verified
  | setVerified tc verified => verdict conn tc verified

def runId : VerdictCall → Nat
  | propagate tc _ _ => tc
  | setVerified tc _ => tc

def verified : VerdictCall → Bool
  | propagate _ _ verified => verified
  | setVerified _ verified => verified

/-- Who is paid for the run. -/
def userId (run : Completion) : VerdictCall → Nat
  | propagate _ userId _ => userId
  | setVerified _ _ => run.userId

/-- The call sends a verdict on the run to the database. -/
def Sends (run : Completion) : VerdictCall → Prop
  | propagate _ _ _ => True
  | setVerified _ _ => run.status ≠ .verified

end VerdictCall

/-- The grant is recorded by the call if and only if the call adds the XP, and the run is
verified then. -/
def GrantAtomic (call : VerdictCall) (db : Db) (after : Books) : Prop :=
  ∀ run, fetchTournamentCompletion call.runId db = some run →
    (Claimed run.cycleId (call.userId run) .participation after.db ∧
        ¬ Claimed run.cycleId (call.userId run) .participation db ↔
      (∃ gain, (call.userId run, gain) ∈ after.credits) ∧
        (fetchTournamentCompletion call.runId after.db).map Completion.status = some .verified)

/-- The call makes a new claim: it verifies a run, the category pays for taking part, and the user
has not been paid for the cycle. -/
def Pays (call : VerdictCall) (db : Db) : Prop :=
  call.verified = true ∧ ∃ run cycle category,
    fetchTournamentCompletion call.runId db = some run ∧ call.Sends run ∧
      fetchCycle run.cycleId db = some cycle ∧ fetchCategory cycle.categoryId db = some category ∧
      category.participationXp ≠ 0 ∧ ¬ Claimed run.cycleId (call.userId run) .participation db

/-! ## Without faults -/

@[simp] theorem finish_fetch {α : Type} (q : Db → α) (s : Books) :
    (fetch q).finish s = (q s.db, s) := rfl

/-- When no statement raises, the script answers as `f` does and leaves the database as `f` does. -/
def Refines {α : Type} (x : Script Books α) (f : StateM Db α) : Prop :=
  ∀ s, (x.finish s).1 = (f s.db).1 ∧ (x.finish s).2.db = (f s.db).2

namespace Refines

variable {α β : Type} {x : Script Books α} {f : StateM Db α}

theorem ret (a : α) : Refines (Script.ret a) (pure a) := fun _ ↦ ⟨rfl, rfl⟩

theorem onDb (f : StateM Db α) : Refines (Script.statement (onDb f)) f := fun _ ↦ ⟨rfl, rfl⟩

theorem bind {y : α → Script Books β} {g : α → StateM Db β} (hx : Refines x f)
    (hy : ∀ a, Refines (y a) (g a)) : Refines (x >>= y) (f >>= g) := by
  intro s
  rw [Script.finish_bind]
  obtain ⟨hanswer, hdb⟩ := hx s
  obtain ⟨hanswer', hdb'⟩ := hy (x.finish s).1 (x.finish s).2
  rw [hanswer', hdb', hanswer, hdb]
  exact ⟨rfl, rfl⟩

end Refines

theorem refines_sendGrant (userId : Nat) (amount : Int) (reason : String) (cycleId : Nat)
    (key : GrantReason) : Refines (sendGrant userId amount reason cycleId key)
      (grantXp userId amount reason cycleId key) := by
  refine (Refines.onDb _).bind fun claimed ↦ ?_
  cases claimed with
  | true => exact fun _ ↦ ⟨rfl, rfl⟩
  | false => exact .ret []

theorem refines_sendParticipation (cycle : Cycle) (userId : Nat) :
    Refines (sendParticipation cycle userId) (awardParticipation cycle userId) := by
  intro s
  rw [sendParticipation, Script.finish_bind, finish_fetch, awardParticipation, get_bind_apply]
  cases fetchCategory cycle.categoryId s.db with
  | none => exact ⟨rfl, rfl⟩
  | some category =>
      dsimp only
      split
      · exact ⟨rfl, rfl⟩
      · exact refines_sendGrant _ _ _ _ _ s

/-- The statements of `_propagate_tournament_verdict`. -/
theorem refines_sendPropagation (tc userId : Nat) (verified : Bool) :
    Refines (sendPropagation tc userId verified) (propagateVerdictWrite tc userId verified) := by
  intro s
  rw [propagateVerdictWrite, sendPropagation, Script.finish_bind, finish_fetch]
  cases fetchTournamentCompletion tc s.db with
  | none => exact ⟨rfl, rfl⟩
  | some row =>
      dsimp only [Option.bind_some]
      rw [Script.finish_bind, finish_fetch]
      cases fetchCycle row.cycleId s.db with
      | none => exact ⟨rfl, rfl⟩
      | some cycle =>
          cases verified with
          | false => exact ⟨rfl, rfl⟩
          | true =>
              exact (Refines.onDb (setTournamentVerified tc true)).bind (fun updated ↦
                (refines_sendParticipation cycle userId).bind fun events ↦
                  .ret (some (cycle, events, updated))) s

/-- The statements of a verdict. -/
theorem refines_sendVerdict (tc : Nat) (verified awardXp : Bool) :
    Refines (sendVerdict tc verified awardXp) (verdictWrite tc verified awardXp) := by
  intro s
  rw [sendVerdict, Script.finish_bind, verdictWrite]
  obtain ⟨hanswer, hdb⟩ := Refines.onDb (setTournamentVerified tc verified) s
  generalize (Script.statement (onDb (setTournamentVerified tc verified))).finish s = r at hanswer hdb ⊢
  obtain ⟨updated, s₁⟩ := r
  obtain ⟨db, credits⟩ := s₁
  generalize setTournamentVerified tc verified s.db = r at hanswer hdb ⊢
  obtain ⟨_, _⟩ := r
  obtain rfl : updated = _ := hanswer
  obtain rfl : db = _ := hdb
  cases updated with
  | none => exact ⟨rfl, rfl⟩
  | some row =>
      cases awardXp with
      | false =>
          dsimp only
          rw [verdictReward_false]
          exact ⟨rfl, rfl⟩
      | true =>
          dsimp only
          rw [if_pos rfl, Script.finish_bind, finish_fetch, verdictReward]
          cases fetchCycle row.cycleId db with
          | none => exact ⟨rfl, rfl⟩
          | some cycle =>
              exact (refines_sendParticipation cycle row.userId).bind (fun events ↦
                .ret (some row, events)) ⟨db, credits⟩

/-! ## With a fault -/

section Exec

variable {db : Db} {s : Books} {n tc userId cycleId : Nat} {amount : Int} {reason : String}
  {key : GrantReason} {cycle : Cycle} {category : Category} {run : Completion} {verified : Bool}

theorem claimXpGrant_of_claimed (h : Claimed cycleId userId key db) :
    claimXpGrant cycleId userId key amount db = (false, db) := by
  refine if_pos (List.any_eq_true.mpr ?_)
  obtain ⟨g, hg, hkey⟩ := h
  exact ⟨g, hg, decide_eq_true hkey⟩

theorem claimXpGrant_of_not_claimed (h : ¬ Claimed cycleId userId key db) :
    claimXpGrant cycleId userId key amount db =
      (true, { db with xpGrants := db.xpGrants ++ [{ cycleId, userId, reason := key, amount }] }) := by
  refine if_neg fun hany ↦ h ?_
  obtain ⟨g, hg, hkey⟩ := List.any_eq_true.mp hany
  exact ⟨g, hg, of_decide_eq_true hkey⟩

/-- The claim is on the ledger. -/
def recorded (cycleId userId : Nat) (key : GrantReason) (amount : Int) (s : Books) : Books :=
  { s with db := { s.db with
      xpGrants := s.db.xpGrants ++ [{ cycleId, userId, reason := key, amount }] } }

/-- The claim is on the ledger and the XP is added. -/
def paid (cycleId userId : Nat) (key : GrantReason) (amount : Int) (s : Books) : Books :=
  (creditXp userId amount (fetchXpMultiplier s.db) (recorded cycleId userId key amount s)).2

theorem exec_sendGrant_of_claimed (h : Claimed cycleId userId key s.db) :
    (sendGrant userId amount reason cycleId key).exec n s = s := by
  cases n with
  | zero => rfl
  | succ n =>
      change Script.exec (if (claimXpGrant cycleId userId key amount s.db).1 then _ else _) n
        { s with db := (claimXpGrant cycleId userId key amount s.db).2 } = s
      rw [claimXpGrant_of_claimed h]
      rfl

/-- The claim is kept when the first statement does not raise, the XP is added when the third
does not. -/
theorem exec_sendGrant_of_not_claimed (h : ¬ Claimed cycleId userId key s.db) :
    (sendGrant userId amount reason cycleId key).exec (n + 1) s =
      if n < 2 then recorded cycleId userId key amount s
      else paid cycleId userId key amount s := by
  change Script.exec (if (claimXpGrant cycleId userId key amount s.db).1 then _ else _) n
    { s with db := (claimXpGrant cycleId userId key amount s.db).2 } = _
  rw [claimXpGrant_of_not_claimed h]
  match n with
  | 0 => rfl
  | 1 => rfl
  | n + 2 => rfl

theorem exec_sendParticipation (hcategory : fetchCategory cycle.categoryId s.db = some category)
    (hxp : category.participationXp ≠ 0) (hclaim : ¬ Claimed cycle.id userId .participation s.db) :
    (sendParticipation cycle userId).exec n s =
      if n < 2 then s
      else if n < 4 then recorded cycle.id userId .participation category.participationXp s
      else paid cycle.id userId .participation category.participationXp s := by
  cases n with
  | zero => rfl
  | succ n =>
      change Script.exec (match fetchCategory cycle.categoryId s.db with
        | none => _
        | some category => _) n s = _
      rw [hcategory]
      dsimp only
      rw [if_neg hxp]
      cases n with
      | zero => rfl
      | succ n =>
          have hsent : ¬ n + 1 + 1 < 2 := by omega
          have hpaid : n + 1 + 1 < 4 ↔ n < 2 := by omega
          rw [exec_sendGrant_of_not_claimed hclaim, if_neg hsent]
          simp only [hpaid]

theorem exec_sendParticipation_of_not
    (h : ∀ category, fetchCategory cycle.categoryId s.db = some category →
      category.participationXp ≠ 0 → Claimed cycle.id userId .participation s.db) :
    (sendParticipation cycle userId).exec n s = s := by
  cases n with
  | zero => rfl
  | succ n =>
      rw [sendParticipation, fetch, Script.exec_query_bind]
      cases hcategory : fetchCategory cycle.categoryId s.db with
      | none => rfl
      | some category =>
          dsimp only
          split
          · rfl
          · rename_i hxp
            exact exec_sendGrant_of_claimed (h category hcategory hxp)

/-- The status is flipped. -/
def flipped (tc : Nat) (verified : Bool) (s : Books) : Books :=
  (onDb (setTournamentVerified tc verified) s).2

theorem flipped_frame (tc : Nat) (verified : Bool) (s : Books) :
    ∃ completions, flipped tc verified s = { s with db := { s.db with completions := completions } } := by
  rw [flipped, onDb, setTournamentVerified]
  dsimp only
  split
  · split
    · exact ⟨_, rfl⟩
    · exact ⟨_, rfl⟩
  · exact ⟨_, rfl⟩

theorem reads_publishAfter (events : List XpGrantEvent) : (publishAfter events).Reads := by
  induction events with
  | nil => exact .send fun _ ↦ .ret _
  | cons event events ih => exact .send fun _ ↦ ih

theorem reads_external : Script.Reads (Script.external : Script Books PUnit) :=
  .send fun _ ↦ .ret _

theorem reads_noopVerdict (tc : Nat) : (noopVerdict tc).Reads := by
  refine .query_bind _ fun existing ↦ ?_
  cases existing with
  | none => exact .ret _
  | some _ => exact reads_external

theorem reads_publishWritten (tc : Nat) (verified : Bool)
    (written : Option Completion × List XpGrantEvent) :
    (publishWritten tc verified written).Reads := by
  obtain ⟨_ | row, events⟩ := written
  · refine .query_bind _ fun current ↦ ?_
    cases current with
    | none => exact .ret _
    | some current =>
        dsimp only
        split
        · exact reads_noopVerdict tc
        · exact reads_external
  · exact reads_publishAfter events

/-- Only the statements of `_do` matter. -/
theorem exec_propagate : (propagate .pooled tc userId verified).exec n s =
    (sendPropagation tc userId verified).exec n s := by
  refine Script.exec_bind_of_reads _ _ _ _ fun written ↦ ?_
  rcases written with _ | ⟨_, events, _ | _⟩
  · exact .ret _
  · exact .ret _
  · exact reads_publishAfter events

theorem exec_propagate_of_none (hrun : ∀ run, fetchTournamentCompletion tc s.db = some run →
    fetchCycle run.cycleId s.db = none) : (propagate .pooled tc userId verified).exec n s = s := by
  rw [exec_propagate, sendPropagation]
  cases n with
  | zero => rfl
  | succ n =>
      rw [fetch, Script.exec_query_bind]
      cases hfetch : fetchTournamentCompletion tc s.db with
      | none => rfl
      | some run =>
          cases n with
          | zero => rfl
          | succ n =>
              dsimp only
              rw [fetch, Script.exec_query_bind, hrun run hfetch]
              rfl

theorem exec_propagate_of_some (hrun : fetchTournamentCompletion tc s.db = some run)
    (hcycle : fetchCycle run.cycleId s.db = some cycle) :
    (propagate .pooled tc userId verified).exec n s =
      if n < 3 then s
      else if verified then (sendParticipation cycle userId).exec (n - 3) (flipped tc verified s)
      else flipped tc verified s := by
  rw [exec_propagate, sendPropagation]
  match n with
  | 0 => rfl
  | 1 =>
      rw [fetch, Script.exec_query_bind, hrun]
      rfl
  | 2 =>
      rw [fetch, Script.exec_query_bind, hrun]
      dsimp only
      rw [fetch, Script.exec_query_bind, hcycle]
      rfl
  | n + 3 =>
      rw [fetch, Script.exec_query_bind, hrun]
      dsimp only
      rw [fetch, Script.exec_query_bind, hcycle]
      have hsent : ¬ n + 3 < 3 := by omega
      rw [if_neg hsent]
      cases verified with
      | true => exact Script.exec_bind_of_reads _ _ n _ fun events ↦ .ret _
      | false => rfl

theorem exec_verdict_of_verified {conn : ConnArg}
    (hrun : ∀ run, fetchTournamentCompletion tc s.db = some run → run.status = .verified) :
    (verdict conn tc verified).exec n s = s := by
  rw [verdict]
  cases n with
  | zero => rfl
  | succ n =>
      rw [fetch, Script.exec_query_bind]
      cases hfetch : fetchTournamentCompletion tc s.db with
      | none => rfl
      | some run =>
          dsimp only
          rw [if_pos (hrun run hfetch)]
          cases verified with
          | true => exact reads_noopVerdict tc n s
          | false => rfl

/-- Only the statements of `_do` matter. -/
theorem exec_verdict (hrun : fetchTournamentCompletion tc s.db = some run)
    (hstatus : run.status ≠ .verified) : (verdict .pooled tc verified).exec (n + 1) s =
      (sendVerdict tc verified verified).exec n s := by
  rw [verdict, fetch, Script.exec_query_bind, hrun]
  dsimp only
  rw [if_neg hstatus]
  exact Script.exec_bind_of_reads _ _ _ _ fun written ↦ reads_publishWritten _ _ written

theorem exec_reject (hrun : fetchTournamentCompletion tc s.db = some run)
    (hstatus : run.status ≠ .verified) : (verdict .pooled tc false).exec n s =
      if n < 2 then s else flipped tc false s := by
  match n with
  | 0 => rfl
  | 1 =>
      rw [exec_verdict hrun hstatus]
      rfl
  | n + 2 =>
      have hsent : ¬ n + 2 < 2 := by omega
      rw [exec_verdict hrun hstatus, sendVerdict, Script.exec_statement_bind, if_neg hsent]
      rw [flipped]
      cases (onDb (setTournamentVerified tc false) s).1 <;> rfl

theorem exec_verify (hrun : fetchTournamentCompletion tc s.db = some run)
    (hstatus : run.status ≠ .verified) : (verdict .pooled tc true).exec n s =
      if n < 3 then if n < 2 then s else flipped tc true s
      else
        match fetchCycle run.cycleId s.db with
        | none => flipped tc true s
        | some cycle =>
            (sendParticipation cycle run.userId).exec (n - 3) (flipped tc true s) := by
  rcases setTournamentVerified_cases tc true s.db with ⟨hall, _⟩ | ⟨c, hc, _, hset, _⟩
  · exact absurd (hall run hrun) hstatus
  obtain rfl : c = run := Option.some.inj (hc.symm.trans hrun)
  obtain ⟨completions, hframe⟩ := flipped_frame tc true s
  match n with
  | 0 => rfl
  | 1 =>
      rw [exec_verdict hrun hstatus]
      rfl
  | 2 =>
      rw [exec_verdict hrun hstatus, sendVerdict, Script.exec_statement_bind, Script.exec_zero]
      rfl
  | n + 3 =>
      have hsent : ¬ n + 3 < 3 := by omega
      have hcycles : (flipped tc true s).db.cycles = s.db.cycles := by rw [hframe]
      have hanswer : (onDb (setTournamentVerified tc true) s).1 =
        some { c with status := targetStatus true } := hset
      rw [exec_verdict hrun hstatus, sendVerdict, Script.exec_statement_bind, if_neg hsent, hanswer,
        ← flipped]
      dsimp only
      rw [if_pos rfl, fetch, Script.exec_query_bind, fetchCycle, hcycles, ← fetchCycle]
      cases fetchCycle c.cycleId s.db with
      | none => rfl
      | some cycle => exact Script.exec_bind_of_reads _ _ n _ fun events ↦ .ret _

end Exec

/-! ## Calls on a pooled connection -/

/-- Nothing is recorded or added. -/
def NoGrant (db : Db) (s : Books) : Prop := s.db.xpGrants = db.xpGrants ∧ s.credits = []

section Pooled

variable {call : VerdictCall} {db : Db} {n : Nat}

theorem noGrant_flipped (tc : Nat) (verified : Bool) (db : Db) :
    NoGrant db (flipped tc verified { db }) := by
  obtain ⟨completions, hframe⟩ := flipped_frame tc verified { db }
  rw [hframe]
  exact ⟨rfl, rfl⟩

/-- Without a new claim to make, the participation statements change nothing after the flip. -/
theorem noGrant_sendParticipation {cycle : Cycle} {tc userId : Nat}
    (h : ∀ category, fetchCategory cycle.categoryId db = some category →
      category.participationXp ≠ 0 → Claimed cycle.id userId .participation db) :
    NoGrant db ((sendParticipation cycle userId).exec n (flipped tc true { db })) := by
  obtain ⟨completions, hframe⟩ := flipped_frame tc true { db }
  rw [exec_sendParticipation_of_not]
  · exact noGrant_flipped tc true db
  · rw [hframe]
    exact h

/-- A verified run stays verified, any other becomes so. -/
theorem status_flipped {tc : Nat} {run : Completion}
    (hrun : fetchTournamentCompletion tc db = some run) :
    (fetchTournamentCompletion tc (flipped tc true { db }).db).map Completion.status =
      some .verified := by
  rcases setTournamentVerified_cases tc true db with ⟨hall, hset⟩ | ⟨c, _, _, _, hget⟩
  · have hsame : (flipped tc true { db }).db = db := congrArg Prod.snd hset
    rw [hsame, hrun, Option.map_some, hall run hrun]
    rfl
  · have hrow : fetchTournamentCompletion tc (flipped tc true { db }).db =
      some { c with status := targetStatus true } := hget
    rw [hrow]
    rfl

theorem noGrant_of_not_pays (h : ¬ Pays call db) :
    NoGrant db ((call.script .pooled).exec n { db }) := by
  have hnoGrant : NoGrant db { db } := ⟨rfl, rfl⟩
  cases call with
  | propagate tc userId verified =>
      change NoGrant db ((propagate .pooled tc userId verified).exec n { db })
      by_cases hnone : ∀ run, fetchTournamentCompletion tc db = some run →
        fetchCycle run.cycleId db = none
      · rwa [exec_propagate_of_none hnone]
      · push Not at hnone
        obtain ⟨run, hrun, hcycle⟩ := hnone
        obtain ⟨cycle, hcycle⟩ := Option.ne_none_iff_exists'.mp hcycle
        rw [exec_propagate_of_some hrun hcycle]
        split
        · exact hnoGrant
        · cases verified with
          | true =>
              refine noGrant_sendParticipation fun category hcategory hxp ↦ ?_
              by_contra hclaim
              have hkey : cycle.id = run.cycleId := Table.key_of_get? hcycle
              rw [hkey] at hclaim
              exact h ⟨rfl, run, cycle, category, hrun, trivial, hcycle, hcategory, hxp, hclaim⟩
          | false => exact noGrant_flipped tc false db
  | setVerified tc verified =>
      change NoGrant db ((verdict .pooled tc verified).exec n { db })
      by_cases hall : ∀ run, fetchTournamentCompletion tc db = some run → run.status = .verified
      · rwa [exec_verdict_of_verified hall]
      · push Not at hall
        obtain ⟨run, hrun, hstatus⟩ := hall
        cases verified with
        | false =>
            rw [exec_reject hrun hstatus]
            split
            · exact hnoGrant
            · exact noGrant_flipped tc false db
        | true =>
            rw [exec_verify hrun hstatus]
            split
            · split
              · exact hnoGrant
              · exact noGrant_flipped tc true db
            · cases hcycle : fetchCycle run.cycleId db with
              | none => exact noGrant_flipped tc true db
              | some cycle =>
                  refine noGrant_sendParticipation fun category hcategory hxp ↦ ?_
                  by_contra hclaim
                  have hkey : cycle.id = run.cycleId := Table.key_of_get? hcycle
                  rw [hkey] at hclaim
                  exact h ⟨rfl, run, cycle, category, hrun, hstatus, hcycle, hcategory, hxp, hclaim⟩

/-- A call that makes a new claim: the claim is kept from the sixth statement on, and the XP from
the eighth. -/
theorem exec_of_pays (h : Pays call db) : ∃ (run : Completion) (category : Category) (s : Books),
    fetchTournamentCompletion call.runId db = some run ∧
      ¬ Claimed run.cycleId (call.userId run) .participation db ∧ NoGrant db s ∧
      (fetchTournamentCompletion call.runId s.db).map Completion.status = some .verified ∧
      (∀ n < 5, NoGrant db ((call.script .pooled).exec n { db })) ∧
      ∀ n, 5 ≤ n → (call.script .pooled).exec n { db } =
        if n < 7 then
          recorded run.cycleId (call.userId run) .participation category.participationXp s
        else paid run.cycleId (call.userId run) .participation category.participationXp s := by
  obtain ⟨hverified, run, cycle, category, hrun, hsends, hcycle, hcategory, hxp, hclaim⟩ := h
  have hkey : cycle.id = run.cycleId := Table.key_of_get? hcycle
  let s := flipped call.runId true { db }
  have hstatus : (fetchTournamentCompletion call.runId s.db).map Completion.status =
      some .verified := status_flipped hrun
  have hexec (n : Nat) : (call.script .pooled).exec (n + 3) { db } =
      (sendParticipation cycle (call.userId run)).exec n s := by
    have hsent : ¬ n + 3 < 3 := by omega
    cases call with
    | propagate tc userId verified =>
        obtain rfl : verified = true := hverified
        refine (exec_propagate_of_some hrun hcycle).trans ?_
        rw [if_neg hsent]
        rfl
    | setVerified tc verified =>
        obtain rfl : verified = true := hverified
        refine (exec_verify hrun hsends).trans ?_
        rw [if_neg hsent, hcycle]
        rfl
  have hstart (n : Nat) (hn : n < 3) : NoGrant db ((call.script .pooled).exec n { db }) := by
    cases call with
    | propagate tc userId verified =>
        rw [VerdictCall.script, exec_propagate_of_some hrun hcycle, if_pos hn]
        exact ⟨rfl, rfl⟩
    | setVerified tc verified =>
        obtain rfl : verified = true := hverified
        rw [VerdictCall.script, exec_verify hrun hsends, if_pos hn]
        split
        · exact ⟨rfl, rfl⟩
        · exact noGrant_flipped tc true db
  obtain ⟨completions, hframe⟩ := flipped_frame call.runId true { db }
  have hcategory : fetchCategory cycle.categoryId s.db = some category := by
    change fetchCategory cycle.categoryId (flipped call.runId true { db }).db = _
    rw [hframe]
    exact hcategory
  have hnew : ¬ Claimed cycle.id (call.userId run) .participation s.db := by
    change ¬ Claimed cycle.id _ _ (flipped call.runId true { db }).db
    rw [hframe, hkey]
    exact hclaim
  have hparticipation (n : Nat) := exec_sendParticipation (n := n) hcategory hxp hnew
  rw [hkey] at hparticipation
  refine ⟨run, category, s, hrun, hclaim, noGrant_flipped _ _ _, hstatus, fun n hn ↦ ?_, fun n hn ↦ ?_⟩
  · rcases Nat.lt_or_ge n 3 with hlt | hge
    · exact hstart n hlt
    · obtain ⟨n, rfl⟩ := Nat.exists_eq_add_of_le' hge
      have hn : n < 2 := by omega
      rw [hexec, hparticipation, if_pos hn]
      exact noGrant_flipped _ _ _
  · obtain ⟨n, rfl⟩ := Nat.exists_eq_add_of_le' (Nat.le_trans (by decide : 3 ≤ 5) hn)
    have hnot : ¬ n < 2 := by omega
    have hpaid : n + 3 < 7 ↔ n < 4 := by omega
    rw [hexec, hparticipation, if_neg hnot]
    simp only [hpaid]

theorem claimed_recorded (cycleId userId : Nat) (key : GrantReason) (amount : Int) (s : Books) :
    Claimed cycleId userId key (recorded cycleId userId key amount s).db :=
  ⟨_, List.mem_append_right _ (List.mem_singleton_self _), rfl, rfl, rfl⟩

theorem GrantAtomic.of_noGrant {after : Books} (h : NoGrant db after) : GrantAtomic call db after := by
  obtain ⟨hgrants, hcredits⟩ := h
  intro run _
  rw [Claimed, hgrants, hcredits, ← Claimed]
  refine iff_of_false (fun h ↦ h.2 h.1) fun h ↦ ?_
  obtain ⟨gain, hgain⟩ := h.1
  cases hgain

/-- On a pooled connection the grant is atomic unless the fault is between a new claim and the
XP. -/
theorem pooled_atomic_iff : GrantAtomic call db ((call.script .pooled).exec n { db }) ↔
    ¬ ((n = 5 ∨ n = 6) ∧ Pays call db) := by
  by_cases hpays : Pays call db
  · obtain ⟨run, category, s, hrun, hclaim, ⟨_, hcredits⟩, hstatus, hnoGrant, hexec⟩ :=
      exec_of_pays hpays
    rcases Nat.lt_or_ge n 5 with hlt | hge
    · exact iff_of_true (.of_noGrant (hnoGrant n hlt)) (by omega)
    · rw [hexec n hge]
      split
      · refine iff_of_false (fun h ↦ ?_) fun h ↦ h ⟨by omega, hpays⟩
        obtain ⟨⟨gain, hgain⟩, _⟩ := (h run hrun).mp ⟨claimed_recorded _ _ _ _ s, hclaim⟩
        change _ ∈ s.credits at hgain
        rw [hcredits] at hgain
        cases hgain
      · refine iff_of_true (fun run' hrun' ↦ ?_) (by omega)
        obtain rfl : run' = run := Option.some.inj (hrun'.symm.trans hrun)
        refine iff_of_true ⟨claimed_recorded _ _ _ _ s, hclaim⟩
          ⟨⟨(category.participationXp * fetchXpMultiplier s.db).floor, ?_⟩, hstatus⟩
        exact List.mem_append_right _ (List.mem_singleton_self _)
  · exact iff_of_true (.of_noGrant (noGrant_of_not_pays hpays)) fun h ↦ hpays h.2

end Pooled

/-! ## Calls on a connection of their own -/

section Own

variable (db : Db) (n : Nat)

/-- Such a call leaves nothing, or what the call on a pooled connection leaves when it gets far
enough. -/
theorem exec_own (call : VerdictCall) : (call.script .none).exec n { db } = { db } ∨
    ∃ m ≥ 7, (call.script .none).exec n { db } = (call.script .pooled).exec m { db } := by
  cases call with
  | propagate tc userId verified =>
      let x := sendPropagation tc userId verified
      have hown : (propagate .none tc userId verified).exec n { db } = x.atomically.exec n { db } := by
        refine Script.exec_bind_of_reads _ _ _ _ fun written ↦ ?_
        rcases written with _ | ⟨_, events, _ | _⟩
        · exact .ret _
        · exact .ret _
        · exact reads_publishAfter events
      rcases Script.exec_atomically x n { db } with h | h
      · exact .inl (hown.trans h)
      · refine .inr ⟨max 7 (x.sent { db }), le_max_left _ _, ?_⟩
        rw [VerdictCall.script, VerdictCall.script, hown, h, exec_propagate,
          Script.exec_of_le _ _ _ (le_max_right _ _)]
  | setVerified tc verified =>
      let x := sendVerdict tc verified verified
      change (verdict .none tc verified).exec n { db } = _ ∨ ∃ m ≥ 7,
        (verdict .none tc verified).exec n { db } = (verdict .pooled tc verified).exec m { db }
      by_cases hall : ∀ run, fetchTournamentCompletion tc db = some run → run.status = .verified
      · exact .inl (exec_verdict_of_verified hall)
      · push Not at hall
        obtain ⟨run, hrun, hstatus⟩ := hall
        cases n with
        | zero => exact .inl rfl
        | succ n =>
            have hown : (verdict .none tc verified).exec (n + 1) { db } =
                x.atomically.exec n { db } := by
              rw [verdict, fetch, Script.exec_query_bind, hrun]
              dsimp only
              rw [if_neg hstatus]
              exact Script.exec_bind_of_reads _ _ _ _ fun written ↦ reads_publishWritten _ _ written
            rcases Script.exec_atomically x n { db } with h | h
            · exact .inl (hown.trans h)
            · refine .inr ⟨max 7 (x.sent { db }) + 1, Nat.le_succ_of_le (le_max_left _ _), ?_⟩
              rw [hown, h, exec_verdict hrun hstatus, Script.exec_of_le _ _ _ (le_max_right _ _)]

end Own

/-- The participation grant is atomic, wherever the fault, unless the call was given a connection
that is in no transaction and fails between a new claim and the XP. -/
theorem participation_atomic_iff (conn : ConnArg) (call : VerdictCall) (n : Nat) (db : Db) :
    GrantAtomic call db ((call.script conn).exec n { db }) ↔
      ¬ (conn = .pooled ∧ (n = 5 ∨ n = 6) ∧ Pays call db) := by
  cases conn with
  | pooled =>
      rw [pooled_atomic_iff]
      simp only [true_and]
  | none =>
      refine iff_of_true ?_ fun h ↦ by cases h.1
      rcases exec_own db n call with h | ⟨m, hm, h⟩
      · rw [h]
        exact .of_noGrant ⟨rfl, rfl⟩
      · rw [h, pooled_atomic_iff]
        omega

/-- A run that waits for its verdict, in a category that pays for taking part. -/
def unpaidRun : Db where
  categories := Table.empty.insert fun id ↦
    { id, name := "Easy", difficulties := [.easy], participationXp := 50 }
  cycles := Table.empty.insert fun id ↦
    { id, categoryId := 1, mapId := 1, status := .active, startedAt := some 0 }
  completions := Table.empty.insert fun id ↦
    { id, cycleId := 1, userId := 7, mapId := 1, time := 1250, video := some "v", insertedAt := 5 }

/-- The run is verified on a pooled connection and the XP cannot be added: the grant stays on the
ledger. -/
theorem unpaidRun_not_atomic :
    ¬ GrantAtomic (.propagate 1 7 true) unpaidRun
      ((VerdictCall.script .pooled (.propagate 1 7 true)).exec 6 { db := unpaidRun }) := by
  rw [pooled_atomic_iff, not_not]
  refine ⟨.inr rfl, rfl, _, _, _, rfl, trivial, rfl, rfl, by decide, ?_⟩
  rintro ⟨g, hg, _⟩
  cases hg

end Genjishimada.Tournaments
