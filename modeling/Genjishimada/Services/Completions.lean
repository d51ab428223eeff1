import Genjishimada.Library.Transaction
import Genjishimada.Repository.Completions
import Genjishimada.Services.Outbox
import Genjishimada.Services.Store

/-!
# `services/completions_service.py`

Submitting a run, and the two ways of deciding one.  `submit_completion` writes in one
transaction, in which the speed trigger can make the insert fail; the statements of
`verify_completion` and `moderate_completion` commit one by one, and the quests are
updated on connections of their own.  The events to the in-process listeners (OCR, skill
recompute) and the notifications are left out.
-/

namespace Genjishimada.Services

open Library Sdk Repository

/-- `services/exceptions/completions.py`, as far as it is raised here, and the
`CheckViolationError` of the speed trigger, which the service lets through. -/
inductive CompletionsError where
  | mapNotFound (code : String)
  | duplicateCompletion (userId : Nat) (mapCode : String)
  | slowerThanPending (newTime pendingTime : Int)
  | completionNotFound (completionId : Nat)
  | checkViolation (e : SpeedViolation)
deriving DecidableEq, Repr

/-- A program of the completions service. -/
abbrev Completions (α : Type) := Service Db Event CompletionsError α

/-- A program inside a transaction of the completions service. -/
abbrev CompletionsTx (α : Type) := Tx (Failure CompletionsError) Db α

/-- `InFailedSQLTransactionError` -/
def inFailedTransaction : Failure CompletionsError := .infra .postgresError

/-- `async with pool.acquire() as conn, conn.transaction()`, for statements that can fail. -/
def withTransaction {α : Type} (x : CompletionsTx α) : Completions α := fun w ↦
  match x.commit w.db with
  | .ok a db => .ok a { w with db }
  | .error e db => .error e { w with db }

/-! ## Submitting -/

def botUserId : Nat := 969632729643753482

/-- `_resolve_active_cycle` -/
def resolveActiveCycle (code : String) (db : Db) : Option Cycle :=
  (fetchMapMetadataByCode (some code) db).bind fun m ↦ getActiveCycleByMapId m.id db

/-- `_record_tournament_completion` -/
def recordTournamentCompletion (activeCycle : Cycle) (data : CompletionCreateRequest) (now : Int) :
    CompletionsTx Nat := do
  match ← Tx.attempt inFailedTransaction (createTournamentCompletion activeCycle.id data.userId
      activeCycle.mapId data.time data.screenshot data.video now) with
  | .ok id => return id
  | .error .uniqueViolation => throw (.domain (.duplicateCompletion data.userId data.code))
  | .error .foreignKeyViolation => throw (.domain (.mapNotFound data.code))

/-- The precheck against the pending run, which a faster one supersedes; returns the
verification message to delete. -/
def supersedePending (data : CompletionCreateRequest) (activeCycle : Option Cycle) :
    CompletionsTx (Option Nat) := do
  match ← Tx.query inFailedTransaction (getPendingVerification data.userId data.code) with
  | none => return none
  | some pending =>
      if pending.time ≤ data.time ∧ activeCycle = none then
        throw (.domain (.slowerThanPending data.time pending.time))
      if data.time < pending.time then
        Tx.execute inFailedTransaction (rejectCompletion pending.id botUserId)
        return pending.verificationId
      else return none

/-- What the transaction of a submission hands to what comes after it. -/
structure Submitted where
  completionId : Option Nat := none
  nonPbTournament : Option (Nat × Cycle) := none
  verificationIdToDelete : Option Nat := none
deriving DecidableEq, Repr

/-- The insert, and what becomes of a run that the speed trigger rejects. -/
def insertSubmission (data : CompletionCreateRequest) (activeCycle : Option Cycle)
    (verificationIdToDelete : Option Nat) (now : Int) : CompletionsTx Submitted := do
  match ← Tx.attempt inFailedTransaction (insertCompletion data now) with
  | .error (.checkViolation e) =>
      match activeCycle with
      | none => throw (.domain (.checkViolation e))
      | some cycle =>
          -- D-07: a tournament row without a core row
          let nonPbId ← recordTournamentCompletion cycle data now
          return { nonPbTournament := some (nonPbId, cycle), verificationIdToDelete }
  | .error .uniqueViolation => throw (.domain (.duplicateCompletion data.userId data.code))
  | .ok completionId =>
      match activeCycle, completionId with
      | some cycle, some id =>
          let tournamentCompletionId ← recordTournamentCompletion cycle data now
          Tx.execute inFailedTransaction (setCompletionTournamentLink id tournamentCompletionId)
          return { completionId, verificationIdToDelete }
      | _, _ => return { completionId, verificationIdToDelete }

/-- The transaction of `submit_completion`. -/
def submitTransaction (data : CompletionCreateRequest) (now : Int) : CompletionsTx Submitted := do
  let activeCycle ← Tx.query inFailedTransaction (resolveActiveCycle data.code)
  let verificationIdToDelete ← supersedePending data activeCycle
  insertSubmission data activeCycle verificationIdToDelete now

/-- `CompletionSubmissionJobResponse` -/
structure SubmissionResponse where
  jobStatus : Option JobStatusResponse
  completionId : Nat
deriving DecidableEq, Repr

/-- The truth of a text that may be missing. -/
def truthy (s : Option String) : Bool := s.any fun t ↦ t ≠ ""

/-- `_dispatch_non_pb_tournament` -/
def dispatchNonPbTournament (tcId : Nat) (cycle : Cycle) (data : CompletionCreateRequest)
    (headers : Headers) : Completions SubmissionResponse := do
  if truthy data.video then
    let jobStatus ← publishMessage .tournamentCompletionCreated
      (.tournamentCompletionCreated
        { completionId := tcId, cycleId := cycle.id, userId := data.userId, time := data.time
          video := data.video, screenshot := data.screenshot })
      headers (some (.tournamentSubmission data.userId tcId))
    return { jobStatus, completionId := 0 }
  else return { jobStatus := none, completionId := 0 }

/-- A new core run goes to OCR, or to a moderator if it has a video or the user a flag. -/
def dispatchCompletion (completionId : Nat) (data : CompletionCreateRequest) (headers : Headers) :
    Completions SubmissionResponse := do
  let suspiciousFlags ← query (fetchSuspiciousFlags data.userId)
  if !(truthy data.video || !suspiciousFlags.isEmpty) then
    return { jobStatus := none, completionId }
  else
    let jobStatus ← publishMessage .completionSubmission (.completionCreated { completionId })
      headers (some (.completionSubmission data.userId completionId))
    return { jobStatus, completionId }

/-- What follows the transaction. -/
def afterSubmission (data : CompletionCreateRequest) (headers : Headers) (submitted : Submitted) :
    Completions SubmissionResponse := do
  if submitted.verificationIdToDelete.isSome then
    let _ ← publishMessage .completionVerificationDelete
      (.verificationMessageDelete { verificationId := submitted.verificationIdToDelete }) headers none
  match submitted.nonPbTournament with
  | some (tcId, cycle) => dispatchNonPbTournament tcId cycle data headers
  | none =>
      match submitted.completionId with
      | none => throw (.valueError "Completion ID is null after insert")
      | some completionId => dispatchCompletion completionId data headers

def submitCompletion (data : CompletionCreateRequest) (headers : Headers) (now : Int) :
    Completions SubmissionResponse := do
  if !(← query (checkMapExists data.code)) then throw (.domain (.mapNotFound data.code))
  let submitted ← withTransaction (submitTransaction data now)
  afterSubmission data headers submitted

/-! ## Quests -/

/-- `_compute_medal`: a threshold of zero counts as none. -/
def computeMedal (timeValue : Int) (thresholds : Option MedalThresholds) : Option Medal :=
  let meets (threshold : MedalThresholds → Option Int) : Bool :=
    (thresholds.bind threshold).any fun t ↦ t ≠ 0 ∧ timeValue ≤ t
  if meets MedalThresholds.gold then some .gold
  else if meets MedalThresholds.silver then some .silver
  else if meets MedalThresholds.bronze then some .bronze
  else none

/-- The event of a run that is verified or un-verified. -/
def completionEvent (m : CoreMap) (time : Int) (medal : Option Medal) : CompletionEventData where
  mapId := m.id
  difficulty := m.difficulty.base
  category := m.category
  time := time
  medal := medal

def updateQuestProgressForCompletion (userId : Nat) (mapCode : Option String) (time now : Int)
    (provision : Provision) : Completions PUnit := do
  match ← query (fetchMapMetadataByCode mapCode) with
  | none => return
  | some m =>
      let medal := computeMedal time (← query (getMedalThresholds m.id))
      let _ ← updateQuestProgress userId (completionEvent m time medal) now provision

def revertQuestProgressForCompletion (userId : Nat) (mapCode : Option String) (time : Int)
    (provision : Provision) : Completions PUnit := do
  match ← query (fetchMapMetadataByCode mapCode) with
  | none => return
  | some m =>
      let remainingTimes ← query (fetchVerifiedTimesForUserMap userId m.id)
      let medalThresholds ← query (getMedalThresholds m.id)
      let remainingMedals := remainingTimes.filterMap fun t ↦ computeMedal t medalThresholds
      revertQuestProgress userId (completionEvent m time none) remainingTimes remainingMedals provision

/-- What a flip of `verified` does to the quests. -/
def flipQuests (info : CompletionInfo) (verified : Bool) (now : Int) (provision : Provision) :
    Completions PUnit :=
  if verified && !info.oldVerified then
    updateQuestProgressForCompletion info.userId info.code info.oldTime now provision
  else if !verified && info.oldVerified then
    revertQuestProgressForCompletion info.userId info.code info.oldTime provision
  else return

/-! ## Verifying -/

/-- The statements of `_propagate_tournament_verdict`. -/
def propagateVerdictWrite (tournamentCompletionId userId : Nat) (verified : Bool) :
    StateM Db (Option (Cycle × List XpGrantEvent × Option Completion)) := fun db ↦
  match (fetchTournamentCompletion tournamentCompletionId db).bind fun row ↦
      fetchCycle row.cycleId db with
  | none => (none, db)
  | some cycle =>
      let (updated, db) := setTournamentVerified tournamentCompletionId verified db
      let (events, db) := if verified then awardParticipation cycle userId db else ([], db)
      (some (cycle, events, updated), db)

/-- After the commit: only a real transition is announced. -/
def propagateVerdictPublish (tournamentCompletionId userId : Nat) (verified : Bool)
    (headers : Headers) :
    Option (Cycle × List XpGrantEvent × Option Completion) → Completions PUnit
  | some (cycle, events, some updated) => do
      publishXpEvents events
      let _ ← publishMessage .tournamentVerificationChanged
        (.tournamentVerificationChanged
          { tournamentCompletionId, cycleId := cycle.id, userId, verified, time := updated.time })
        headers
        (some (if verified then .tournamentVerify tournamentCompletionId
          else .tournamentReject tournamentCompletionId))
  | _ => return

/-- `_propagate_tournament_verdict` -/
def propagateTournamentVerdict (info : CompletionInfo) (verified : Bool) (headers : Headers) :
    Completions PUnit := do
  match info.tournamentCompletionId with
  | none => return
  | some tournamentCompletionId =>
      let written ← inTransaction
        (statements (propagateVerdictWrite tournamentCompletionId info.userId verified))
      propagateVerdictPublish tournamentCompletionId info.userId verified headers written

def verifyCompletion (recordId : Nat) (data : CompletionVerificationUpdateRequest)
    (headers : Headers) (now : Int) (provision : Provision) : Completions JobStatusResponse := do
  if !(← query (checkCompletionExists recordId)) then
    throw (.domain (.completionNotFound recordId))
  match ← query (fetchCompletionForModeration recordId) with
  | none => throw (.domain (.completionNotFound recordId))
  | some info =>
      execute (updateVerification recordId data.verified data.verifiedBy data.reason)
      flipQuests info data.verified now provision
      propagateTournamentVerdict info data.verified headers
      publishMessage .completionVerification
        (.verificationChanged
          { completionId := recordId, verified := data.verified, verifiedBy := data.verifiedBy
            reason := data.reason })
        headers (some (.completionVerify recordId))

/-! ## Moderating -/

/-- The part of a moderation that edits the time. -/
def moderateTime (completionId : Nat) (data : CompletionModerateRequest) : Completions PUnit := do
  match data.time with
  | none => return
  | some newTime =>
      if data.timeChangeReason = none then
        throw (.valueError "time_change_reason is required when changing time")
      match updateCompletionTime completionId newTime (← get).db with
      | .error e => throw (.domain (.checkViolation e))
      | .ok db => execute fun _ ↦ db

/-- The part that decides the run. -/
def moderateVerified (completionId : Nat) (info : CompletionInfo) (data : CompletionModerateRequest)
    (now : Int) (provision : Provision) : Completions PUnit := do
  match data.verified with
  | none => return
  | some verified =>
      execute (updateCompletionVerified completionId verified)
      flipQuests info verified now provision

/-- The part that sets and removes suspicious flags. -/
def moderateFlags (completionId : Nat) (data : CompletionModerateRequest) : Completions PUnit := do
  if data.markSuspicious then
    if data.suspiciousContext = none ∨ data.suspiciousFlagType = none then
      throw (.valueError
        "suspicious_context and suspicious_flag_type are required when marking as suspicious")
    if !(← query (checkSuspiciousFlagExists completionId)) then
      execute (insertSuspiciousFlagByCompletionId completionId)
  if data.unmarkSuspicious then execute (deleteSuspiciousFlag completionId)

def moderateCompletion (completionId : Nat) (data : CompletionModerateRequest) (now : Int)
    (provision : Provision) : Completions PUnit := do
  match ← query (fetchCompletionForModeration completionId) with
  | none => throw (.domain (.completionNotFound completionId))
  | some info =>
      moderateTime completionId data
      moderateVerified completionId info data now provision
      moderateFlags completionId data

/-- `moderateFlags` where the moderator may be unknown: `flagged_by` refers to `core.users`. -/
def moderateFlagsBy (users : List Nat) (completionId : Nat) (data : CompletionModerateRequest) :
    Completions PUnit := do
  if data.markSuspicious then
    if data.suspiciousContext = none ∨ data.suspiciousFlagType = none then
      throw (.valueError
        "suspicious_context and suspicious_flag_type are required when marking as suspicious")
    if !(← query (checkSuspiciousFlagExists completionId)) then
      if data.moderatedBy ∉ users then throw (.domain (.completionNotFound completionId))
      execute (insertSuspiciousFlagByCompletionId completionId)
  if data.unmarkSuspicious then execute (deleteSuspiciousFlag completionId)

def moderateCompletionBy (users : List Nat) (completionId : Nat) (data : CompletionModerateRequest)
    (now : Int) (provision : Provision) : Completions PUnit := do
  match ← query (fetchCompletionForModeration completionId) with
  | none => throw (.domain (.completionNotFound completionId))
  | some info =>
      moderateTime completionId data
      moderateVerified completionId info data now provision
      moderateFlagsBy users completionId data

/-- With a known moderator nothing is different. -/
theorem moderateCompletionBy_of_mem {users : List Nat} {data : CompletionModerateRequest}
    (hknown : data.moderatedBy ∈ users) (completionId : Nat) (now : Int) (provision : Provision) :
    moderateCompletionBy users completionId data now provision =
      moderateCompletion completionId data now provision := by
  have hflags : moderateFlagsBy users completionId data = moderateFlags completionId data := by
    rw [moderateFlagsBy, moderateFlags, if_neg (not_not.mpr hknown)]
  rw [moderateCompletionBy, hflags]
  rfl

/-! ## What a submission leaves -/

/-- The database once a faster submission has superseded the pending run. -/
def superseded (data : CompletionCreateRequest) (db : Db) : Db :=
  match getPendingVerification data.userId data.code db with
  | some pending =>
      if data.time < pending.time then rejectCompletion pending.id botUserId db else db
  | none => db

/-- Nothing has changed but the core runs. -/
def OnlyCore (db db' : Db) : Prop :=
  ∃ coreCompletions, db' = { db with coreCompletions := coreCompletions }

theorem superseded_onlyCore (data : CompletionCreateRequest) (db : Db) :
    OnlyCore db (superseded data db) := by
  rw [superseded]
  split
  · split
    · exact ⟨_, rfl⟩
    · exact ⟨_, rfl⟩
  · exact ⟨_, rfl⟩

theorem insertCompletion_onlyCore {data : CompletionCreateRequest} {now : Int} {db inserted : Db}
    {id : Option Nat}
    (h : insertCompletion data now (superseded data db) = .ok (id, inserted)) :
    OnlyCore db inserted := by
  obtain ⟨core, hsuperseded⟩ := superseded_onlyCore data db
  rcases insertCompletion_cases h with ⟨_, rfl⟩ | ⟨m, _, rfl⟩
  · exact ⟨core, hsuperseded⟩
  · rw [hsuperseded]
    exact ⟨_, rfl⟩

/-- The submission is refused because a pending run is as fast. -/
def slowerThanPending (data : CompletionCreateRequest) (db : Db) : Bool :=
  (getPendingVerification data.userId data.code db).any fun pending ↦
    pending.time ≤ data.time ∧ resolveActiveCycle data.code db = none

/-- The database once an inserted run has its tournament row, on the map of an active
cycle; `none` when the row is refused. -/
def tournamentRecorded (data : CompletionCreateRequest) (activeCycle : Option Cycle) (now : Int)
    (completionId : Option Nat) (inserted : Db) : Option Db :=
  match activeCycle, completionId with
  | some cycle, some id =>
      match createTournamentCompletion cycle.id data.userId cycle.mapId data.time data.screenshot
          data.video now inserted with
      | .error _ => none
      | .ok (tournamentCompletionId, recorded) =>
          some (setCompletionTournamentLink id tournamentCompletionId recorded)
  | _, _ => some inserted

/-- What an accepted submission leaves; `none` for one that is refused. -/
def submission (data : CompletionCreateRequest) (now : Int) (db : Db) : Option Db :=
  if slowerThanPending data db then none
  else
    match insertCompletion data now (superseded data db) with
    | .error _ => none
    | .ok (completionId, inserted) =>
        tournamentRecorded data (resolveActiveCycle data.code db) now completionId inserted

/-- What is left of the transaction once the active cycle is resolved. -/
def submitResolved (data : CompletionCreateRequest) (activeCycle : Option Cycle) (now : Int) :
    CompletionsTx Submitted := do
  let verificationIdToDelete ← supersedePending data activeCycle
  insertSubmission data activeCycle verificationIdToDelete now

theorem submitTransaction_eq (data : CompletionCreateRequest) (now : Int) :
    submitTransaction data now = (do
      let activeCycle ← Tx.query inFailedTransaction (resolveActiveCycle data.code)
      submitResolved data activeCycle now) := rfl

section Submit

variable (data : CompletionCreateRequest) (now : Int) (db : Db)

/-- The precheck refuses a submission that is not faster than the pending run. -/
theorem supersedePending_of_slower (h : slowerThanPending data db = true) :
    ∃ e, supersedePending data (resolveActiveCycle data.code db) { db } = .error e { db } := by
  have hquery : (Tx.query inFailedTransaction (getPendingVerification data.userId data.code) :
      CompletionsTx _) { db } = .ok (getPendingVerification data.userId data.code db) { db } := rfl
  rw [supersedePending, bind_of_ok hquery]
  rw [slowerThanPending] at h
  cases hpending : getPendingVerification data.userId data.code db with
  | none =>
      rw [hpending] at h
      cases h
  | some pending =>
      rw [hpending, Option.any_some, decide_eq_true_eq] at h
      simp only [if_pos h]
      exact ⟨_, rfl⟩

/-- Otherwise it supersedes the pending run, if there is one. -/
theorem supersedePending_of_not_slower (h : slowerThanPending data db = false) :
    ∃ toDelete, supersedePending data (resolveActiveCycle data.code db) { db } =
      .ok toDelete { db := superseded data db } := by
  have hquery : (Tx.query inFailedTransaction (getPendingVerification data.userId data.code) :
      CompletionsTx _) { db } = .ok (getPendingVerification data.userId data.code db) { db } := rfl
  rw [supersedePending, bind_of_ok hquery, superseded]
  rw [slowerThanPending] at h
  cases hpending : getPendingVerification data.userId data.code db with
  | none => exact ⟨none, rfl⟩
  | some pending =>
      rw [hpending, Option.any_some, decide_eq_false_iff_not] at h
      simp only [if_neg h]
      by_cases hfaster : data.time < pending.time
      · simp only [if_pos hfaster]
        exact ⟨pending.verificationId, rfl⟩
      · simp only [if_neg hfaster]
        exact ⟨none, rfl⟩

/-- On the map of an active cycle the precheck refuses nothing. -/
theorem supersedePending_of_cycle (cycle : Cycle) :
    ∃ toDelete, supersedePending data (some cycle) { db } =
      .ok toDelete { db := superseded data db } := by
  have hquery : (Tx.query inFailedTransaction (getPendingVerification data.userId data.code) :
      CompletionsTx _) { db } = .ok (getPendingVerification data.userId data.code db) { db } := rfl
  rw [supersedePending, bind_of_ok hquery, superseded]
  cases getPendingVerification data.userId data.code db with
  | none => exact ⟨none, rfl⟩
  | some pending =>
      simp only [reduceCtorEq, and_false, if_false]
      by_cases hfaster : data.time < pending.time
      · simp only [if_pos hfaster]
        exact ⟨pending.verificationId, rfl⟩
      · simp only [if_neg hfaster]
        exact ⟨none, rfl⟩

/-- Elsewhere it refuses the submission, or supersedes the pending run. -/
theorem supersedePending_of_none :
    (∃ e, supersedePending data none { db } = .error e { db }) ∨
      ∃ toDelete, supersedePending data none { db } = .ok toDelete { db := superseded data db } := by
  have hquery : (Tx.query inFailedTransaction (getPendingVerification data.userId data.code) :
      CompletionsTx _) { db } = .ok (getPendingVerification data.userId data.code db) { db } := rfl
  rw [supersedePending, bind_of_ok hquery, superseded]
  cases getPendingVerification data.userId data.code db with
  | none => exact .inr ⟨none, rfl⟩
  | some pending =>
      by_cases hslower : pending.time ≤ data.time
      · simp only [hslower, true_and, if_true]
        exact .inl ⟨_, rfl⟩
      · simp only [hslower, false_and, if_false, if_pos (not_le.mp hslower)]
        exact .inr ⟨pending.verificationId, rfl⟩

variable (activeCycle : Option Cycle) (toDelete : Option Nat)

/-- In an aborted transaction no tournament row is recorded. -/
theorem recordTournamentCompletion_of_aborted (cycle : Cycle) :
    recordTournamentCompletion cycle data now { db, aborted := true } =
      .error inFailedTransaction { db, aborted := true } := by
  rw [recordTournamentCompletion, bind_of_error (Tx.attempt_of_aborted _ rfl)]

/-- A run that the table refuses is lost, also on the map of an active cycle: the
tournament row is written by a statement of the transaction that the refusal has aborted. -/
theorem insertSubmission_of_error {e : InsertError} (h : insertCompletion data now db = .error e) :
    Tx.Leaves (insertSubmission data activeCycle toDelete now) db none := by
  rw [insertSubmission, Tx.Leaves, bind_of_ok (Tx.attempt_of_error h)]
  cases e with
  | uniqueViolation => exact ⟨_, _, rfl⟩
  | checkViolation violation =>
      cases activeCycle with
      | none => exact ⟨_, _, rfl⟩
      | some cycle =>
          exact ⟨_, _, bind_of_error (recordTournamentCompletion_of_aborted data now db cycle)⟩

/-- A run that is inserted gets its tournament row on the map of an active cycle. -/
theorem insertSubmission_of_ok {id : Option Nat} {inserted : Db}
    (h : insertCompletion data now db = .ok (id, inserted)) :
    Tx.Leaves (insertSubmission data activeCycle toDelete now) db
      (tournamentRecorded data activeCycle now id inserted) := by
  apply Tx.Leaves.bind (Tx.attempt_of_ok h)
  cases activeCycle with
  | none => exact .of_ok rfl
  | some cycle =>
      cases id with
      | none => exact .of_ok rfl
      | some id =>
          simp only [tournamentRecorded]
          cases hcreate : createTournamentCompletion cycle.id data.userId cycle.mapId data.time
              data.screenshot data.video now inserted with
          | error e =>
              have hrecord : ∃ e' c, recordTournamentCompletion cycle data now { db := inserted } =
                  .error e' c := by
                rw [recordTournamentCompletion, bind_of_ok (Tx.attempt_of_error hcreate)]
                cases e with
                | uniqueViolation => exact ⟨_, _, rfl⟩
                | foreignKeyViolation => exact ⟨_, _, rfl⟩
              obtain ⟨e', c, hrecord⟩ := hrecord
              exact .of_error (bind_of_error hrecord)
          | ok created =>
              obtain ⟨tc, recorded⟩ := created
              have hrecord : recordTournamentCompletion cycle data now { db := inserted } =
                  .ok tc { db := recorded } := by
                rw [recordTournamentCompletion, bind_of_ok (Tx.attempt_of_ok hcreate)]
                rfl
              exact Tx.Leaves.bind hrecord (.of_ok rfl)

/-- What is left by a submission whose active cycle was resolved before. -/
theorem submitResolved_of_cycle (cycle : Cycle) :
    Tx.Leaves (submitResolved data (some cycle) now) db
      (match insertCompletion data now (superseded data db) with
        | .error _ => none
        | .ok (completionId, inserted) =>
            tournamentRecorded data (some cycle) now completionId inserted) := by
  obtain ⟨toDelete, h⟩ := supersedePending_of_cycle data db cycle
  apply Tx.Leaves.bind h
  cases hinsert : insertCompletion data now (superseded data db) with
  | error e => exact insertSubmission_of_error _ _ _ _ _ hinsert
  | ok inserted => exact insertSubmission_of_ok _ _ _ _ _ hinsert

/-- Away from the tournament a submission leaves the inserted run or nothing. -/
theorem submitResolved_of_none :
    Tx.Leaves (submitResolved data none now) db none ∨
      ∃ id inserted, insertCompletion data now (superseded data db) = .ok (id, inserted) ∧
        Tx.Leaves (submitResolved data none now) db (some inserted) := by
  rcases supersedePending_of_none data db with ⟨e, h⟩ | ⟨toDelete, h⟩
  · exact .inl (.of_error (bind_of_error h))
  · cases hinsert : insertCompletion data now (superseded data db) with
    | error e => exact .inl (Tx.Leaves.bind h (insertSubmission_of_error _ _ _ _ _ hinsert))
    | ok result =>
        obtain ⟨id, inserted⟩ := result
        refine .inr ⟨id, inserted, rfl, Tx.Leaves.bind h ?_⟩
        exact insertSubmission_of_ok _ _ _ none _ hinsert

/-- The transaction of a submission. -/
theorem submitTransaction_leaves :
    Tx.Leaves (submitTransaction data now) db (submission data now db) := by
  have hcycle : (Tx.query inFailedTransaction (resolveActiveCycle data.code) : CompletionsTx _)
      { db } = .ok (resolveActiveCycle data.code db) { db } := rfl
  apply Tx.Leaves.bind hcycle
  rw [submission]
  cases hslower : slowerThanPending data db with
  | true =>
      obtain ⟨e, h⟩ := supersedePending_of_slower data db hslower
      exact .of_error (bind_of_error h)
  | false =>
      obtain ⟨toDelete, h⟩ := supersedePending_of_not_slower data db hslower
      apply Tx.Leaves.bind h
      rw [if_neg Bool.false_ne_true]
      cases hinsert : insertCompletion data now (superseded data db) with
      | error e => exact insertSubmission_of_error _ _ _ _ _ hinsert
      | ok inserted => exact insertSubmission_of_ok _ _ _ _ _ hinsert

end Submit

theorem dispatchNonPbTournament_keepsDb (tcId : Nat) (cycle : Cycle)
    (data : CompletionCreateRequest) (headers : Headers) :
    KeepsDb (dispatchNonPbTournament tcId cycle data headers) := by
  rw [dispatchNonPbTournament]
  split
  · apply KeepsDb.bind (publishMessage_keepsDb _ _ _ _)
    intro jobStatus
    exact KeepsDb.pure _
  · exact KeepsDb.pure _

theorem dispatchCompletion_keepsDb (completionId : Nat) (data : CompletionCreateRequest)
    (headers : Headers) : KeepsDb (dispatchCompletion completionId data headers) := by
  apply Moves.query_bind
  intro w
  split
  · rfl
  · refine KeepsDb.bind (publishMessage_keepsDb _ _ _ _) ?_ w
    intro jobStatus
    exact KeepsDb.pure _

theorem afterSubmission_keepsDb (data : CompletionCreateRequest) (headers : Headers)
    (submitted : Submitted) : KeepsDb (afterSubmission data headers submitted) := by
  have hrest : KeepsDb (match submitted.nonPbTournament with
      | some (tcId, cycle) => dispatchNonPbTournament tcId cycle data headers
      | none =>
          match submitted.completionId with
          | none => throw (.valueError "Completion ID is null after insert")
          | some completionId => dispatchCompletion completionId data headers) := by
    cases submitted.nonPbTournament with
    | some nonPb => exact dispatchNonPbTournament_keepsDb _ _ _ _
    | none =>
        cases submitted.completionId with
        | none => exact KeepsDb.throw _
        | some completionId => exact dispatchCompletion_keepsDb _ _ _
  rw [afterSubmission]
  split
  · exact KeepsDb.bind (publishMessage_keepsDb _ _ _ _) fun _ ↦ hrest
  · exact hrest

/-- What is left of a submission is left by its transaction. -/
theorem submitCompletion_db (data : CompletionCreateRequest) (headers : Headers) (now : Int)
    (w : World Db Event) :
    (final (submitCompletion data headers now w)).db =
      if checkMapExists data.code w.db then (submission data now w.db).getD w.db else w.db := by
  have hquery : (query (checkMapExists data.code) : Completions Bool) w =
      .ok (checkMapExists data.code w.db) w := rfl
  rw [submitCompletion, bind_of_ok hquery]
  cases checkMapExists data.code w.db with
  | false => rfl
  | true =>
      simp only [Bool.not_true, Bool.false_eq_true, if_false, if_true]
      rw [← (submitTransaction_leaves data now w.db).final_commit]
      cases hcommit : (submitTransaction data now).commit w.db with
      | error e db =>
          have htransaction : withTransaction (submitTransaction data now) w =
              .error e { w with db } := by
            rw [withTransaction, hcommit]
          rw [bind_of_error htransaction]
          rfl
      | ok submitted db =>
          have htransaction : withTransaction (submitTransaction data now) w =
              .ok submitted { w with db } := by
            rw [withTransaction, hcommit]
          rw [bind_of_ok htransaction]
          exact afterSubmission_keepsDb data headers submitted _

/-! ## What a verdict leaves -/

theorem flipQuests_onlyQuests (info : CompletionInfo) (verified : Bool) (now : Int)
    (provision : Provision) : Moves OnlyQuests (flipQuests info verified now provision) := by
  rw [flipQuests]
  split
  · refine Moves.query_bind fun w ↦ ?_
    cases fetchMapMetadataByCode info.code w.db with
    | none => exact .refl _
    | some m =>
        refine Moves.query_bind (fun w ↦ ?_) w
        refine Moves.bind (fun _ _ _ ↦ .trans) (updateQuestProgress_onlyQuests _ _ _ _) ?_ w
        intro _
        exact Moves.pure .refl _
  · split
    · refine Moves.query_bind fun w ↦ ?_
      cases fetchMapMetadataByCode info.code w.db with
      | none => exact .refl _
      | some m =>
          refine Moves.query_bind (fun w ↦ ?_) w
          refine Moves.query_bind (fun w ↦ ?_) w
          exact revertQuestProgress_onlyQuests _ _ _ _ _ w
    · exact Moves.pure .refl _

/-- The quests are asked about the map of the run, and provisioning them fails. -/
def questsFail (info : CompletionInfo) (provision : Provision) (db : Db) : Bool :=
  (fetchMapMetadataByCode info.code db).isSome && provisionFails info.userId provision db

/-- Flipping a run raises exactly when its quests fail. -/
theorem flipQuests_raises (info : CompletionInfo) (verified : Bool) (now : Int)
    (provision : Provision) (w : World Db Event) :
    raises (flipQuests info verified now provision w) =
      (verified != info.oldVerified && questsFail info provision w.db) := by
  have hupdate : raises (updateQuestProgressForCompletion info.userId info.code info.oldTime now
      provision w) = questsFail info provision w.db := by
    rw [updateQuestProgressForCompletion, query_bind_apply, questsFail]
    cases fetchMapMetadataByCode info.code w.db with
    | none => rfl
    | some m =>
        refine (raises_bind_of_ok (x := updateQuestProgress info.userId _ now provision) ?_).trans
          (updateQuestProgress_raises _ _ _ _ _)
        intro _ _
        rfl
  have hrevert : raises (revertQuestProgressForCompletion info.userId info.code info.oldTime
      provision w) = questsFail info provision w.db := by
    rw [revertQuestProgressForCompletion, query_bind_apply, questsFail]
    cases fetchMapMetadataByCode info.code w.db with
    | none => rfl
    | some m => exact revertQuestProgress_raises _ _ _ _ _ _
  rw [flipQuests]
  cases hv : verified <;> cases ho : info.oldVerified
  · rfl
  · simpa using hrevert
  · simpa using hupdate
  · rfl

/-- What the propagation of a verdict leaves. -/
def propagated (info : CompletionInfo) (verified : Bool) (db : Db) : Db :=
  match info.tournamentCompletionId with
  | none => db
  | some tc => (propagateVerdictWrite tc info.userId verified db).2

/-- The propagation touches the grants and the runs of the tournament, of which only the
linked one moves, to the status of the verdict. -/
theorem propagated_eq (info : CompletionInfo) (verified : Bool) (db : Db) :
    ∃ (completions : Table Completion) (db' : Db),
      propagated info verified db = db' ∧ OnlyGrants { db with completions := completions } db' ∧
      ∀ k, completions.get? k = (db.completions.get? k).map fun c ↦
        if info.tournamentCompletionId = some k ∧ (fetchCycle c.cycleId db).isSome then
          { c with status := targetStatus verified }
        else c := by
  rw [propagated]
  cases info.tournamentCompletionId with
  | none => exact ⟨db.completions, db, rfl, .refl db, fun k ↦ by simp⟩
  | some tc =>
      simp only [propagateVerdictWrite, fetchTournamentCompletion, Option.some.injEq]
      cases hcycle : (db.completions.get? tc).bind fun row ↦ fetchCycle row.cycleId db with
      | none =>
          refine ⟨db.completions, _, rfl, .refl db, fun k ↦ ?_⟩
          cases hk : db.completions.get? k with
          | none => rfl
          | some c =>
              rw [Option.map_some, if_neg]
              rintro ⟨rfl, hsome⟩
              rw [hk, Option.bind_some] at hcycle
              rw [hcycle] at hsome
              cases hsome
      | some cycle =>
          obtain ⟨completions, hset, hget⟩ := setTournamentVerified_snd tc verified db
          refine ⟨completions, _, rfl, ?_, fun k ↦ ?_⟩
          · generalize setTournamentVerified tc verified db = written at hset
            obtain ⟨updated, db₁⟩ := written
            obtain rfl : db₁ = _ := hset
            cases hv : verified with
            | true => exact awardParticipation_onlyGrants _ _ _
            | false => exact .refl _
          · rw [hget k]
            cases hk : db.completions.get? k with
            | none => rfl
            | some c =>
                by_cases htc : k = tc
                · subst htc
                  rw [hk, Option.bind_some] at hcycle
                  simp [hcycle]
                · have htc' : ¬ tc = k := fun h ↦ htc h.symm
                  simp [htc, htc']

theorem propagateVerdictPublish_keepsDb (tc userId : Nat) (verified : Bool) (headers : Headers)
    (written : Option (Cycle × List XpGrantEvent × Option Completion)) :
    KeepsDb (propagateVerdictPublish tc userId verified headers written) := by
  rcases written with _ | ⟨cycle, events, _ | updated⟩
  · exact KeepsDb.pure _
  · exact KeepsDb.pure _
  · exact KeepsDb.bind (publishXpEvents_keepsDb events) fun _ ↦
      KeepsDb.bind (publishMessage_keepsDb _ _ _ _) fun _ ↦ KeepsDb.pure _

theorem propagateTournamentVerdict_db (info : CompletionInfo) (verified : Bool) (headers : Headers)
    (w : World Db Event) :
    (final (propagateTournamentVerdict info verified headers w)).db =
      propagated info verified w.db := by
  rw [propagateTournamentVerdict, propagated]
  cases info.tournamentCompletionId with
  | none => rfl
  | some tc => exact propagateVerdictPublish_keepsDb _ _ _ _ _ _

/-- A verdict decides the run, then updates the quests, and then, if that did not raise,
carries over to the tournament row; everything it sends comes after that. -/
theorem verifyCompletion_db (recordId : Nat) (data : CompletionVerificationUpdateRequest)
    (headers : Headers) (now : Int) (provision : Provision) (w : World Db Event) :
    (final (verifyCompletion recordId data headers now provision w)).db =
      match fetchCompletionForModeration recordId w.db with
      | none => w.db
      | some info =>
          match flipQuests info data.verified now provision
            { w with
              db := updateVerification recordId data.verified data.verifiedBy data.reason w.db } with
          | .error _ w' => w'.db
          | .ok _ w' => propagated info data.verified w'.db := by
  have hexists : (query (checkCompletionExists recordId) : Completions Bool) w =
      .ok (fetchCompletionForModeration recordId w.db).isSome w := by
    rw [fetchCompletionForModeration, Option.isSome_map]
    rfl
  have hinfo : (query (fetchCompletionForModeration recordId) : Completions _) w =
      .ok (fetchCompletionForModeration recordId w.db) w := rfl
  rw [verifyCompletion, bind_of_ok hexists]
  cases hfetch : fetchCompletionForModeration recordId w.db with
  | none => rfl
  | some info =>
      rw [hfetch] at hinfo
      simp only [Option.isSome_some, Bool.not_true, Bool.false_eq_true, if_false]
      rw [bind_of_ok hinfo]
      have hexecute : (execute (updateVerification recordId data.verified data.verifiedBy
          data.reason) : Completions PUnit) w = .ok ⟨⟩
          { w with
            db := updateVerification recordId data.verified data.verifiedBy data.reason w.db } := rfl
      simp only
      rw [bind_of_ok hexecute]
      cases hflip : flipQuests info data.verified now provision
          { w with
            db := updateVerification recordId data.verified data.verifiedBy data.reason w.db } with
      | error e w' => rw [bind_of_error hflip, final_error]
      | ok _ w' =>
          rw [bind_of_ok hflip, KeepsDb.db_bind fun _ ↦ publishMessage_keepsDb _ _ _ _]
          exact propagateTournamentVerdict_db info data.verified headers w'

theorem questsFail_updateVerification (info : CompletionInfo) (provision : Provision)
    (recordId verifiedBy : Nat) (verified : Bool) (reason : Option String) (db : Db) :
    questsFail info provision (updateVerification recordId verified verifiedBy reason db) =
      questsFail info provision db := by
  simp only [questsFail, provisionFails]
  cases provision.generated <;> rfl

/-- A verdict whose quests fail stops there; any other carries over. -/
theorem verifyCompletion_cases (recordId : Nat) (data : CompletionVerificationUpdateRequest)
    (headers : Headers) (now : Int) (provision : Provision) (w : World Db Event)
    {info : CompletionInfo} (hinfo : fetchCompletionForModeration recordId w.db = some info) :
    let decided := updateVerification recordId data.verified data.verifiedBy data.reason w.db
    let db' := (final (verifyCompletion recordId data headers now provision w)).db
    ((data.verified != info.oldVerified && questsFail info provision w.db) = true ∧
        OnlyQuests decided db') ∨
      ((data.verified != info.oldVerified && questsFail info provision w.db) = false ∧
        ∃ db₁, OnlyQuests decided db₁ ∧ db' = propagated info data.verified db₁) := by
  intro decided db'
  have hdb : db' = _ := verifyCompletion_db recordId data headers now provision w
  rw [hinfo] at hdb
  have hraises := flipQuests_raises info data.verified now provision { w with db := decided }
  have honly := flipQuests_onlyQuests info data.verified now provision { w with db := decided }
  rw [questsFail_updateVerification] at hraises
  rw [← hraises]
  cases hflip : flipQuests info data.verified now provision { w with db := decided } with
  | error e w' =>
      rw [hflip] at honly
      simp only [decided] at hflip
      simp only [hflip] at hdb
      rw [hdb]
      exact .inl ⟨rfl, honly⟩
  | ok a w' =>
      rw [hflip] at honly
      simp only [decided] at hflip
      simp only [hflip] at hdb
      exact .inr ⟨rfl, w'.db, honly, hdb⟩

/-! ## What a moderation leaves -/

end Genjishimada.Services
