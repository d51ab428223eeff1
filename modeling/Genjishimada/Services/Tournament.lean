import Genjishimada.Migrations
import Genjishimada.Services.Outbox

/-!
# `services/tournament_service.py`

The admin operations on cycles and editions, and the verdicts on tournament runs.
Only `bootstrap_edition`, `force_publish_results` and the write of a verdict run in
a transaction; the map choices hold one connection but no transaction, so that what
they have written when they raise stays.

A verdict is three separate steps on the database (the precheck, the transaction,
the reads of the publish) and is written as such, so that other calls can be placed
in between.
-/

namespace Genjishimada.Services

open Library Sdk Repository Migrations

/-- `services/exceptions/tournaments.py`, as far as it is raised here. -/
inductive TournamentsError where
  | categoryNotFound (categoryId : Nat)
  | pendingCycleAlreadyExists (categoryId : Nat)
  | pendingCycleNotFound (categoryId : Nat)
  | noCycleActive (categoryId : Nat)
  | noEligibleMaps (categoryId : Nat)
  | mapNotEligible (mapId : Nat) (reason : String)
  | cycleAlreadyLive (categoryId cycleId : Nat)
  | noAwaitingResultsEdition
  | tournamentCompletionNotFound (tournamentCompletionId : Nat)
  | alreadyVerified (tournamentCompletionId : Nat)
deriving DecidableEq, Repr

/-- A program of the tournament service. -/
abbrev Tournament (α : Type) := Service Db Event TournamentsError α

/-! ## Choosing maps -/

/-- The first of the eligible maps, or else the least recently used one. -/
def selectMapFor (category : Category) (config : Config) (excludeMapIds : List Nat) (now : Int)
    (random : Shuffle CoreMap) : Tournament CoreMap := do
  let eligible ←
    query (fetchEligibleMaps category.difficulties config.blacklistWeeks excludeMapIds now random)
  match eligible with
  | selected :: _ => return selected
  | [] =>
      match ← query (fetchLeastRecentlyUsedMap category.difficulties) with
      | some selected => return selected
      | none => throw (.domain (.noEligibleMaps category.id))

/-- Stages a cycle and reads it back for the response. -/
def stageCycle (categoryId mapId : Nat) : Tournament Cycle := do
  execute (createCycle categoryId mapId)
  match ← query (fetchPendingCycle categoryId) with
  | some result => return result
  | none => throw .validationError

/-- `fetch_category`, or `CategoryNotFoundError`. -/
def requireCategory (categoryId : Nat) : Tournament Category := do
  match ← query (fetchCategory categoryId) with
  | some category => return category
  | none => throw (.domain (.categoryNotFound categoryId))

def selectMap (categoryId : Nat) (now : Int) (random : Shuffle CoreMap) : Tournament Cycle := do
  if (← query (fetchPendingCycle categoryId)).isSome then
    throw (.domain (.pendingCycleAlreadyExists categoryId))
  let config ← query fetchConfig
  let category ← requireCategory categoryId
  let selected ← selectMapFor category config [] now random
  stageCycle categoryId selected.id

def chooseMap (categoryId : Nat) (mapCode : String) : Tournament Cycle := do
  let category ← requireCategory categoryId
  match ← query (fetchMapByCode mapCode) with
  | none => throw (.domain (.mapNotEligible 0 s!"Map with code '{mapCode}' not found."))
  | some map =>
      if map.difficulty.base ∉ category.difficulties then
        throw (.domain (.mapNotEligible map.id
          s!"Map difficulty '{map.difficulty.label}' does not match category difficulties."))
      match ← query (fetchPendingCycle categoryId) with
      | some existing => execute (deleteCycle existing.id)
      | none => pure ⟨⟩
      stageCycle categoryId map.id

def rerollMap (categoryId : Nat) (now : Int) (random : Shuffle CoreMap) : Tournament Cycle := do
  let category ← requireCategory categoryId
  match ← query (fetchPendingCycle categoryId) with
  | none => throw (.domain (.pendingCycleNotFound categoryId))
  | some existing =>
      execute (deleteCycle existing.id)
      let config ← query fetchConfig
      let selected ← selectMapFor category config [existing.mapId] now random
      stageCycle categoryId selected.id

/-- The edition a cycle belongs to. -/
def cycleEdition (cy : Cycle) (db : Db) : Option Edition :=
  cy.editionId.bind fun editionId ↦ fetchEdition editionId db

def rerollActiveCycle (categoryId : Nat) (headers : Headers) (now : Int)
    (random : Shuffle CoreMap) : Tournament Cycle := do
  let category ← requireCategory categoryId
  match ← query (fetchActiveCycle categoryId) with
  | none => throw (.domain (.noCycleActive categoryId))
  | some existing =>
      match ← query (cycleEdition existing) with
      | none => throw (.domain (.noCycleActive categoryId))
      | some edition =>
          let _ ← statements (deleteCycleCompletions existing.id)
          execute (deleteCycle existing.id)
          let config ← query fetchConfig
          let selected ← selectMapFor category config [existing.mapId] now random
          let created ← statements
            (createCycleForEdition edition.id categoryId selected.id edition.startedAt)
          let result ← query (fetchActiveCycleWithMap categoryId)
          -- an exception is logged and raised again
          let _ ← publishMessage .tournamentRollover
            (.tournamentRollover
              { editionId := edition.id, results := []
                started := [{ cycleId := created.id, categoryId, mapId := selected.id
                              mapCode := selected.code, mapName := selected.mapName
                              startedAt := edition.startedAt, endsAt := edition.endsAt }] })
            headers (some (.tournamentActiveReroll created.id))
          match result with
          | some result => return result
          | none => throw .validationError

/-! ## Editions -/

/-- `_period_from_config` -/
def periodFromConfig (config : Config) : Int :=
  match config.debugCycleSeconds with
  | some secs => secs
  | none => 86400 * if config.cadence = .biweekly then 14 else 7

/-- The guard of a bootstrap: no edition is active. -/
def bootstrapGuard : Tournament PUnit := do
  match ← query fetchActiveEdition with
  | some active => throw (.domain (.cycleAlreadyLive 0 active.id))
  | none => return ⟨⟩

/-- The child cycle of one category, and its part of the announcement. -/
def bootstrapChild (edition : Edition) (config : Config) (now : Int)
    (random : Nat → Shuffle CoreMap) (category : Category) :
    Tournament TournamentCycleStartedEvent := do
  let selected ← selectMapFor category config [] now (random category.id)
  let created ← statements
    (createCycleForEdition edition.id category.id selected.id edition.startedAt)
  return { cycleId := created.id, categoryId := category.id, mapId := selected.id
           mapCode := selected.code, mapName := selected.mapName
           startedAt := edition.startedAt, endsAt := edition.endsAt }

/-- A bootstrap after its guard. -/
def bootstrapInsert (zones : TimeZones) (now : Int) (random : Nat → Shuffle CoreMap) :
    Tournament Edition := do
  let config ← query fetchConfig
  let period := periodFromConfig config
  let startedAt :=
    if config.debugCycleSeconds.isSome then now
    else
      nextGridBoundary zones now config.anchorWeekday config.anchorTime config.anchorTz period
  let edition ← statements (createEdition startedAt (startedAt + period))
  execute (setTransitionsPaused false)
  let categories ← query fetchCategories
  let started ← (categories.filter Category.isActive).mapM
    (bootstrapChild edition config now random)
  execute (createPendingTransition none (some edition.id) .editionRollover
    (encodeRollover { editionId := edition.id, results := [], started }) now)
  return edition

def bootstrapEdition (zones : TimeZones) (now : Int) (random : Nat → Shuffle CoreMap) :
    Tournament Edition :=
  inTransaction do
    bootstrapGuard
    bootstrapInsert zones now random

def forcePublishResults (now : Int) (locked : Nat → Bool) : Tournament PUnit :=
  inTransaction do
    match ← query (fetchAwaitingResultsEditions locked) with
    | [] => throw (.domain .noAwaitingResultsEdition)
    | edition :: _ => execute (writeDrainedResultsRow edition.id now)

/-- A force-publish drains the oldest edition it is not locked out of. -/
theorem forcePublishResults_apply (now : Int) (locked : Nat → Bool) (w : World Db Event) :
    forcePublishResults now locked w = match fetchAwaitingResultsEditions locked w.db with
      | [] => .error (.domain .noAwaitingResultsEdition) w
      | edition :: _ => .ok ⟨⟩ { w with db := writeDrainedResultsRow edition.id now w.db } := by
  have hquery : (query (fetchAwaitingResultsEditions locked) : Tournament _) w =
      .ok (fetchAwaitingResultsEditions locked w.db) w := rfl
  rw [forcePublishResults, inTransaction]
  cases h : fetchAwaitingResultsEditions locked w.db with
  | nil =>
      rw [h] at hquery
      exact transaction_of_error (bind_of_ok hquery)
  | cons edition es =>
      rw [h] at hquery
      exact transaction_of_ok (bind_of_ok hquery)

/-! ## Verdicts -/

/-- `TournamentVerificationChangedEvent` of a run. -/
def publishVerdict (row : Completion) (verified : Bool) (headers : Headers)
    (key : IdempotencyKey) : Tournament JobStatusResponse :=
  publishMessage .tournamentVerificationChanged
    (.tournamentVerificationChanged
      { tournamentCompletionId := row.id, cycleId := row.cycleId, userId := row.userId
        verified, time := row.time })
    headers (some key)

def noopVerdictJob (tournamentCompletionId : Nat) (key : IdempotencyKey) :
    Tournament JobStatusResponse := do
  match ← query (fetchTournamentCompletion tournamentCompletionId) with
  | none => throw (.domain (.tournamentCompletionNotFound tournamentCompletionId))
  | some existing => publishVerdict existing existing.verified {} key

/-- The precheck of a verdict; `false` is a verify of a run verified already. -/
def verdictPrecheck (tournamentCompletionId : Nat) (verified : Bool) : Tournament Bool := do
  match ← query (fetchTournamentCompletion tournamentCompletionId) with
  | none => throw (.domain (.tournamentCompletionNotFound tournamentCompletionId))
  | some existing =>
      if ¬ verified ∧ existing.status = .verified then
        throw (.domain (.alreadyVerified tournamentCompletionId))
      else return !(verified && existing.verified)

/-- Participation XP for a run that has just been verified. -/
def verdictReward (awardXp : Bool) (row : Completion) : StateM Db (List XpGrantEvent) := fun db ↦
  match fetchCycle row.cycleId db with
  | some cycle => if awardXp then awardParticipation cycle row.userId db else ([], db)
  | none => ([], db)

/-- The transaction of a verdict: the guarded `UPDATE` and the participation XP. -/
def verdictWrite (tournamentCompletionId : Nat) (verified awardXp : Bool) :
    StateM Db (Option Completion × List XpGrantEvent) := fun db ↦
  match setTournamentVerified tournamentCompletionId verified db with
  | (none, db) => ((none, []), db)
  | (some row, db) =>
      let (events, db) := verdictReward awardXp row db
      ((some row, events), db)

theorem verdictReward_onlyGrants (awardXp : Bool) (row : Completion) :
    Steps OnlyGrants (verdictReward awardXp row) := by
  intro db
  rw [verdictReward]
  cases fetchCycle row.cycleId db with
  | none => exact .refl db
  | some cycle =>
      cases awardXp with
      | true => exact awardParticipation_onlyGrants cycle row.userId db
      | false => exact .refl db

/-- A verdict without XP changes nothing beyond the `UPDATE`. -/
theorem verdictReward_false (row : Completion) (db : Db) : verdictReward false row db = ([], db) := by
  rw [verdictReward]
  cases fetchCycle row.cycleId db <;> rfl

/-- A verdict touches neither the editions nor the cycles nor the outbox nor the
streaks, and of the runs only the status. -/
theorem verdictWrite_frame (id : Nat) (verified awardXp : Bool) (db : Db) :
    (verdictWrite id verified awardXp db).2.editions = db.editions ∧
      (verdictWrite id verified awardXp db).2.cycles = db.cycles ∧
      (verdictWrite id verified awardXp db).2.pendingTransitions = db.pendingTransitions ∧
      (verdictWrite id verified awardXp db).2.streaks = db.streaks ∧
      (verdictWrite id verified awardXp db).2.completions.rows.map
          (fun c ↦ { c with status := .pending }) =
        db.completions.rows.map fun c ↦ { c with status := .pending } := by
  have hset : (setTournamentVerified id verified db).2 = db ∨
      ∃ p, (setTournamentVerified id verified db).2 =
        { db with
          completions := db.completions.modify p
            fun c ↦ { c with status := targetStatus verified } } := by
    rw [setTournamentVerified]
    split
    · split
      · exact .inl rfl
      · exact .inr ⟨_, rfl⟩
    · exact .inl rfl
  have hframe {p : Completion → Bool} : (db.completions.modify p
      fun c ↦ { c with status := targetStatus verified }).rows.map
        (fun c ↦ { c with status := .pending }) =
      db.completions.rows.map fun c ↦ { c with status := .pending } := by
    rw [Table.rows_modify, List.map_map]
    refine List.map_congr_left fun c _ ↦ ?_
    rw [Function.comp_apply]
    split <;> rfl
  rw [verdictWrite]
  generalize setTournamentVerified id verified db = r at hset
  obtain ⟨_ | row, db₁⟩ := r
  · obtain rfl | ⟨p, rfl⟩ := hset
    · exact ⟨rfl, rfl, rfl, rfl, rfl⟩
    · exact ⟨rfl, rfl, rfl, rfl, hframe⟩
  · have hgrants := verdictReward_onlyGrants awardXp row db₁
    dsimp only
    generalize verdictReward awardXp row db₁ = r at hgrants
    obtain ⟨events, _⟩ := r
    obtain ⟨_, _, rfl⟩ := hgrants
    obtain rfl | ⟨p, rfl⟩ := hset
    · exact ⟨rfl, rfl, rfl, rfl, rfl⟩
    · exact ⟨rfl, rfl, rfl, rfl, hframe⟩

/-- A verdict changes nothing, or moves the run to its status; a reject grants nothing. -/
theorem verdictWrite_cases (id : Nat) (verified awardXp : Bool) (db : Db) :
    (∀ c, db.completions.get? id = some c → c.status = targetStatus verified) ∧
      verdictWrite id verified awardXp db = ((none, []), db) ∨
    ∃ c events db', db.completions.get? id = some c ∧ c.status ≠ targetStatus verified ∧
      verdictWrite id verified awardXp db =
        ((some { c with status := targetStatus verified }, events), db') ∧
      (awardXp = false → events = []) ∧
      db'.completions.get? id = some { c with status := targetStatus verified } := by
  rw [verdictWrite]
  rcases setTournamentVerified_cases id verified db with ⟨hall, h⟩ | ⟨c, hc, hs, hrow, hget⟩
  · rw [h]
    exact .inl ⟨hall, rfl⟩
  · generalize setTournamentVerified id verified db = r at hrow hget ⊢
    obtain ⟨_, db₁⟩ := r
    obtain rfl : _ = some _ := hrow
    let row : Completion := { c with status := targetStatus verified }
    refine .inr ⟨c, (verdictReward awardXp row db₁).1, (verdictReward awardXp row db₁).2, hc, hs,
      rfl, ?_, ?_⟩
    · rintro rfl
      rw [verdictReward_false]
    · rw [(verdictReward_onlyGrants awardXp row db₁).onlyRewards.completions_eq]
      exact hget

/-- After the commit: the notifications and the event, or a no-op when a concurrent
verdict came first. -/
def verdictPublish (tournamentCompletionId : Nat) (verified : Bool) (headers : Headers)
    (key : IdempotencyKey) (written : Option Completion × List XpGrantEvent) :
    Tournament JobStatusResponse := do
  match written with
  | (some updated, events) =>
      publishXpEvents events
      publishVerdict updated verified headers key
  | (none, _) =>
      match ← query (fetchTournamentCompletion tournamentCompletionId) with
      | none => throw (.domain (.tournamentCompletionNotFound tournamentCompletionId))
      | some current =>
          if current.status = targetStatus verified then noopVerdictJob tournamentCompletionId key
          else publishVerdict current verified headers key

/-- `_set_verified` -/
def setVerified (tournamentCompletionId : Nat) (verified awardXp : Bool) (headers : Headers)
    (key : IdempotencyKey) : Tournament JobStatusResponse := do
  if ← verdictPrecheck tournamentCompletionId verified then
    let written ← inTransaction (statements (verdictWrite tournamentCompletionId verified awardXp))
    verdictPublish tournamentCompletionId verified headers key written
  else noopVerdictJob tournamentCompletionId key

def verifyTournamentCompletion (id : Nat) (headers : Headers) : Tournament JobStatusResponse :=
  setVerified id true true headers (.tournamentVerify id)

def rejectTournamentCompletion (id : Nat) (headers : Headers) : Tournament JobStatusResponse :=
  setVerified id false false headers (.tournamentReject id)

end Genjishimada.Services
