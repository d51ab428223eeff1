import Genjishimada.Library.Ranking
import Genjishimada.Schema
import Mathlib.Data.Prod.Lex
import Mathlib.Data.String.Basic
import Mathlib.Order.WithBot

/-!
# `repository/tournaments_repository.py`

The queries and statements of the tournament repository.  A read is a function of
the database, a statement that returns nothing is a function `Db → Db`, and one
with a `RETURNING` clause the caller uses is a `StateM Db`.

`now` and the outcome of `ORDER BY random()` are arguments.  `FOR UPDATE SKIP
LOCKED` is a predicate `locked` on keys: the rows some other transaction holds.
Where a query leaves the order of its rows open, rows come in insertion order.
The server runs in UTC, so a week is 604800 seconds.
-/

namespace Genjishimada.Repository

open Library Sdk

/-- `make_interval(weeks => n)` -/
def weeks (n : Nat) : Int := 604800 * n

/-! ## Config and categories -/

def fetchConfig (db : Db) : Config := db.config

def setTransitionsPaused (paused : Bool) (db : Db) : Db :=
  { db with config := { db.config with transitionsPaused := paused } }

def fetchCategory (categoryId : Nat) (db : Db) : Option Category := db.categories.get? categoryId

/-- `SELECT * FROM tournaments.categories ORDER BY name` -/
def fetchCategories (db : Db) : List Category := orderBy Category.name db.categories.rows

/-! ## Cycles -/

/-- The active cycle on a map, which a submission is resolved to. -/
def getActiveCycleByMapId (mapId : Nat) (db : Db) : Option Cycle :=
  db.cycles.rows.find? fun cy ↦ cy.mapId = mapId ∧ cy.status = .active

/-- A new cycle, `pending` by the column default. -/
def createCycle (categoryId mapId : Nat) (db : Db) : Db :=
  { db with cycles := db.cycles.insert fun id ↦ { id, categoryId, mapId } }

def createEdition (startedAt endsAt : Int) : StateM Db Edition := fun db ↦
  ({ id := db.editions.nextId, startedAt, endsAt },
    { db with editions := db.editions.insert fun id ↦ { id, startedAt, endsAt } })

def createCycleForEdition (editionId categoryId mapId : Nat) (startedAt : Int) :
    StateM Db Cycle := fun db ↦
  let cycle (id : Nat) : Cycle :=
    { id, categoryId, mapId, status := .active, startedAt := some startedAt
      editionId := some editionId }
  (cycle db.cycles.nextId, { db with cycles := db.cycles.insert cycle })

/-- The active edition that started last. -/
def fetchActiveEdition (db : Db) : Option Edition :=
  (orderBy (fun e : Edition ↦ -e.startedAt)
    (db.editions.select fun e ↦ e.status = .active)).head?

def fetchCycle (cycleId : Nat) (db : Db) : Option Cycle := db.cycles.get? cycleId

def fetchMapByCode (code : String) (db : Db) : Option CoreMap :=
  db.maps.rows.find? fun m ↦ m.code = some code

/-- A map a tournament may use: official, not archived, with a code, and of one of
the category's difficulties. -/
def selectable (difficulties : List DifficultyTop) (m : CoreMap) : Bool :=
  m.official ∧ ¬ m.archived ∧ m.code ≠ none ∧ m.difficulty.base ∈ difficulties

/-- Used by a cycle that started less than `blacklistWeeks` ago. -/
def recentlyUsed (blacklistWeeks : Nat) (now : Int) (db : Db) (mapId : Nat) : Bool :=
  db.cycles.rows.any fun cy ↦
    cy.mapId = mapId ∧ cy.startedAt.any fun s ↦ now - weeks blacklistWeeks < s

/-- Already staged by a pending cycle. -/
def staged (db : Db) (mapId : Nat) : Bool :=
  db.cycles.rows.any fun cy ↦ cy.mapId = mapId ∧ cy.status = .pending

def fetchEligibleMaps (difficulties : List DifficultyTop) (blacklistWeeks : Nat)
    (excludeMapIds : List Nat) (now : Int) (random : Shuffle CoreMap) (db : Db) : List CoreMap :=
  random.order <| db.maps.select fun m ↦
    selectable difficulties m ∧ ¬ recentlyUsed blacklistWeeks now db m.id ∧ ¬ staged db m.id ∧
      m.id ∉ excludeMapIds

/-- The starts of the cycles on a map, one `NULL` if there are none: the rows a map
contributes to `core.maps LEFT JOIN tournaments.cycles`. -/
def usesOf (db : Db) (m : CoreMap) : List (CoreMap × WithBot Int) :=
  match db.cycles.select fun cy ↦ cy.mapId = m.id with
  | [] => [(m, ⊥)]
  | cys => cys.map fun cy ↦ (m, cy.startedAt)

/-- `ORDER BY cy.started_at ASC NULLS FIRST LIMIT 1` over that join. -/
def fetchLeastRecentlyUsedMap (difficulties : List DifficultyTop) (db : Db) : Option CoreMap :=
  ((orderBy Prod.snd ((db.maps.select (selectable difficulties)).flatMap (usesOf db))).head?).map
    Prod.fst

/-- A category's pending cycle, joined with its map. -/
def fetchPendingCycle (categoryId : Nat) (db : Db) : Option Cycle :=
  db.cycles.rows.find? fun cy ↦
    cy.categoryId = categoryId ∧ cy.status = .pending ∧ (db.maps.get? cy.mapId).isSome

def fetchActiveCycle (categoryId : Nat) (db : Db) : Option Cycle :=
  db.cycles.rows.find? fun cy ↦ cy.categoryId = categoryId ∧ cy.status = .active

/-- A category's active cycle, joined with its map. -/
def fetchActiveCycleWithMap (categoryId : Nat) (db : Db) : Option Cycle :=
  db.cycles.rows.find? fun cy ↦
    cy.categoryId = categoryId ∧ cy.status = .active ∧ (db.maps.get? cy.mapId).isSome

def fetchEdition (editionId : Nat) (db : Db) : Option Edition := db.editions.get? editionId

/-- `DELETE FROM tournaments.completions WHERE cycle_id = $1`: how many rows it deletes; the
runs in `core.completions` are kept without their link. -/
def deleteCycleCompletions (cycleId : Nat) : StateM Db Nat := fun db ↦
  let gone (c : Completion) : Bool := c.cycleId = cycleId
  ((db.completions.select gone).length,
    { db with
      completions := db.completions.delete gone
      coreCompletions := db.coreCompletions.modify
        (fun c ↦ c.tournamentCompletionId.any fun t ↦ (db.completions.get? t).any gone)
        fun c ↦ { c with tournamentCompletionId := none } })

/-- `DELETE FROM tournaments.cycles WHERE id = $1`, with what the foreign keys onto
the row cascade to or set to NULL. -/
def deleteCycle (cycleId : Nat) (db : Db) : Db :=
  let gone (c : Completion) : Bool := c.cycleId = cycleId
  { db with
    cycles := db.cycles.delete fun cy ↦ cy.id = cycleId
    completions := db.completions.delete gone
    pendingTransitions := db.pendingTransitions.delete fun t ↦ t.cycleId = some cycleId
    xpGrants := db.xpGrants.filter fun g ↦ g.cycleId ≠ cycleId
    streaks := db.streaks.modify (fun s ↦ s.lastCycleId = some cycleId)
      fun s ↦ { s with lastCycleId := none }
    coreCompletions := db.coreCompletions.modify
      (fun c ↦ c.tournamentCompletionId.any fun t ↦ (db.completions.get? t).any gone)
      fun c ↦ { c with tournamentCompletionId := none } }

/-! ## Streaks and the grant ledger -/

/-- The row `advance_streak` inserts for a new user. -/
def newStreak (userId cycleId : Nat) (participated : Bool) : Streak :=
  if participated then
    { userId, currentStreak := 1, maxStreak := 1, lastCycleId := some cycleId }
  else { userId, currentStreak := 0, maxStreak := 0, lastCycleId := some cycleId }

/-- The update it makes otherwise; a cycle counts once. -/
def updateStreak (cycleId : Nat) (participated : Bool) (s : Streak) : Streak :=
  if participated then
    { s with
      currentStreak :=
        if s.lastCycleId ≠ some cycleId then s.currentStreak + 1 else s.currentStreak
      maxStreak :=
        if s.lastCycleId ≠ some cycleId then max s.maxStreak (s.currentStreak + 1)
        else s.maxStreak
      lastCycleId := some cycleId }
  else { s with currentStreak := 0, lastCycleId := some cycleId }

theorem key_updateStreak (cycleId : Nat) (participated : Bool) (s : Streak) :
    key (updateStreak cycleId participated s) = key s := by
  rw [updateStreak]
  split <;> rfl

theorem key_newStreak (userId cycleId : Nat) (participated : Bool) :
    key (newStreak userId cycleId participated) = userId := by
  rw [newStreak]
  split <;> rfl

/-- `INSERT … ON CONFLICT (user_id) DO UPDATE … RETURNING`. -/
def advanceStreak (userId cycleId : Nat) (participated : Bool) : StateM Db Streak := fun db ↦
  (((db.streaks.get? userId).map (updateStreak cycleId participated)).getD
      (newStreak userId cycleId participated),
    { db with
      streaks := db.streaks.upsert (newStreak userId cycleId participated)
        (updateStreak cycleId participated) (key_updateStreak cycleId participated) })

def fetchAllStreakUserIds (db : Db) : List Nat := db.streaks.rows.map Streak.userId

/-- `ON CONFLICT (cycle_id, user_id, reason) DO NOTHING`: whether the claim is new. -/
def claimXpGrant (cycleId userId : Nat) (reason : GrantReason) (amount : Int) : StateM Db Bool :=
  fun db ↦
    if db.xpGrants.any fun g ↦ g.cycleId = cycleId ∧ g.userId = userId ∧ g.reason = reason then
      (false, db)
    else (true, { db with xpGrants := db.xpGrants ++ [{ cycleId, userId, reason, amount }] })

/-! ## Completions -/

/-- The two constraints a new `tournaments.completions` row can violate. -/
inductive CreateCompletionError where
  | uniqueViolation
  | foreignKeyViolation
deriving DecidableEq, Repr

def createTournamentCompletion (cycleId userId mapId : Nat) (time : Int) (screenshot : String)
    (video : Option String) (now : Int) (db : Db) : Except CreateCompletionError (Nat × Db) :=
  if (db.cycles.get? cycleId).isNone then .error .foreignKeyViolation
  else if db.completions.rows.any fun c ↦
      c.cycleId = cycleId ∧ c.userId = userId ∧ c.insertedAt = now then
    .error .uniqueViolation
  else
    .ok (db.completions.nextId,
      { db with
        completions := db.completions.insert fun id ↦
          { id, cycleId, userId, mapId, time, screenshot, video, insertedAt := now } })

/-- A row that is accepted belongs to a cycle, and is the only change. -/
theorem createTournamentCompletion_cases {cycleId userId mapId : Nat} {time : Int}
    {screenshot : String} {video : Option String} {now : Int} {db db' : Db} {id : Nat}
    (h : createTournamentCompletion cycleId userId mapId time screenshot video now db =
      .ok (id, db')) :
    (db.cycles.get? cycleId).isSome = true ∧ id = db.completions.nextId ∧
      db' = { db with
        completions := db.completions.insert fun id ↦
          { id, cycleId, userId, mapId, time, screenshot, video, insertedAt := now } } := by
  rw [createTournamentCompletion] at h
  split at h
  · cases h
  · rename_i hcycle
    split at h
    · cases h
    · obtain ⟨rfl, rfl⟩ := Prod.mk.inj (Except.ok.inj h)
      exact ⟨by simpa [Option.isSome_iff_ne_none] using hcycle, rfl, rfl⟩

def fetchTournamentCompletion (id : Nat) (db : Db) : Option Completion := db.completions.get? id

/-- The status a verdict writes. -/
def targetStatus (verified : Bool) : CompletionStatus := if verified then .verified else .rejected

/-- `UPDATE … SET status = $2 WHERE id = $1 AND status IS DISTINCT FROM $2`. -/
def setTournamentVerified (id : Nat) (verified : Bool) : StateM Db (Option Completion) := fun db ↦
  let target := targetStatus verified
  match db.completions.get? id with
  | some c =>
      if c.status = target then (none, db)
      else
        (some { c with status := target },
          { db with
            completions := db.completions.modify (fun c ↦ c.id = id ∧ c.status ≠ target)
              fun c ↦ { c with status := target } })
  | none => (none, db)

/-- The guarded `UPDATE` matches no row, or moves the run to the target status. -/
theorem setTournamentVerified_cases (id : Nat) (verified : Bool) (db : Db) :
    (∀ c, db.completions.get? id = some c → c.status = targetStatus verified) ∧
      setTournamentVerified id verified db = (none, db) ∨
    ∃ c, db.completions.get? id = some c ∧ c.status ≠ targetStatus verified ∧
      (setTournamentVerified id verified db).1 = some { c with status := targetStatus verified } ∧
      (setTournamentVerified id verified db).2.completions.get? id =
        some { c with status := targetStatus verified } := by
  rw [setTournamentVerified]
  cases hc : db.completions.get? id with
  | none => exact .inl ⟨by simp, rfl⟩
  | some c =>
      dsimp only
      split
      · rename_i hs
        exact .inl ⟨fun c' h ↦ by rwa [← Option.some.inj h], rfl⟩
      · rename_i hs
        refine .inr ⟨c, rfl, hs, rfl, ?_⟩
        have hid : c.id = id := Table.key_of_get? hc
        simp [hc, hs, hid]

/-- A verdict leaves its run in the target status, and everything else as it was. -/
theorem setTournamentVerified_snd (id : Nat) (verified : Bool) (db : Db) :
    ∃ completions : Table Completion,
      (setTournamentVerified id verified db).2 = { db with completions := completions } ∧
      ∀ k, completions.get? k = (db.completions.get? k).map fun c ↦
        if k = id then { c with status := targetStatus verified } else c := by
  rw [setTournamentVerified]
  cases hc : db.completions.get? id with
  | none =>
      refine ⟨db.completions, rfl, fun k ↦ ?_⟩
      by_cases hk : k = id
      · rw [hk, hc]
        rfl
      · simp [hk]
  | some c =>
      dsimp only
      split
      · rename_i hs
        refine ⟨db.completions, rfl, fun k ↦ ?_⟩
        by_cases hk : k = id
        · rw [hk, hc, Option.map_some, if_pos rfl, ← hs]
        · simp [hk]
      · rename_i hs
        refine ⟨_, rfl, fun k ↦ ?_⟩
        rw [Table.get?_modify]
        by_cases hk : k = id
        · have hid : c.id = id := Table.key_of_get? hc
          rw [hk, hc]
          simp [hs, hid]
        · cases hget : db.completions.get? k with
          | none => rfl
          | some c' =>
              have hne : c'.id ≠ id := by
                have : c'.id = k := Table.key_of_get? hget
                rwa [this]
              simp [hk, hne]

/-- Whether a completion is a pending run on an active or finalizing cycle of the
edition. -/
def inflight (editionId : Nat) (db : Db) (c : Completion) : Bool :=
  c.status = .pending ∧
    (db.cycles.get? c.cycleId).any fun cy ↦
      cy.editionId = some editionId ∧ (cy.status = .active ∨ cy.status = .finalizing)

def countInflightVerifications (editionId : Nat) (db : Db) : Nat :=
  db.completions.rows.countP (inflight editionId db)

def fetchCycleParticipants (cycleId : Nat) (db : Db) : List Nat :=
  ((db.completions.select fun c ↦ c.cycleId = cycleId).map Completion.userId).dedup

/-! ## The leaderboard -/

/-- `verified DESC, completion DESC, time ASC, inserted_at ASC, user_id ASC` -/
abbrev StandingKey := Bool ×ₗ Bool ×ₗ Int ×ₗ Int ×ₗ Nat

def standingKey (c : Completion) : StandingKey :=
  toLex (!c.verified, toLex (!c.completion, toLex (c.time, toLex (c.insertedAt, c.userId))))

/-- The `best_per_user` rows, best first. -/
def bestPerUser (cycleId : Nat) (db : Db) : List Completion :=
  distinctOn Completion.userId
    (orderBy standingKey (db.completions.select fun c ↦ c.cycleId = cycleId))

def fetchLeaderboard (cycleId : Nat) (db : Db) : List TournamentLeaderboardEntryResponse :=
  let best := bestPerUser cycleId db
  (orderBy standingKey best).map fun c ↦
    { rank := rank standingKey best c, userId := c.userId, name := db.userName c.userId
      time := c.time, verified := c.verified, completion := c.completion }

/-! ## The history of cycles -/

/-- `verified DESC, completion DESC, time ASC` -/
abbrev WinnerKey := Bool ×ₗ Bool ×ₗ Int

def winnerKey (c : Completion) : WinnerKey :=
  toLex (!c.verified, toLex (!c.completion, c.time))

/-- The lateral subquery of `fetch_cycles`: a best run of each user, then the best of these.
`scan` and `join` are the orders in which the two sorts read their rows, which decide between
rows of equal keys. -/
def fetchWinner (scan join : Shuffle Completion) (cycleId : Nat) (db : Db) : Option Completion :=
  let bpu := distinctOn Completion.userId
    (orderBy (fun c : Completion ↦ toLex (c.userId, winnerKey c))
      (scan.order (db.completions.select fun c ↦ c.cycleId = cycleId)))
  (orderBy winnerKey (join.order bpu)).head?

/-- A row of `fetch_cycles`. -/
structure CycleRow where
  cycle : Cycle
  mapCode : Option String
  mapName : String
  mapDifficulty : DifficultyAll
  createdAt : Int
  winnerName : Option String
  winnerUserId : Option Nat
deriving DecidableEq, Repr

/-- The columns of a cycle `cy` on the map `m`. -/
def cycleRow (createdAt : Nat → Int) (scan join : Shuffle Completion) (db : Db) (cy : Cycle)
    (m : CoreMap) : CycleRow :=
  let w := fetchWinner scan join cy.id db
  { cycle := cy, mapCode := m.code <|> m.originalCode, mapName := m.mapName
    mapDifficulty := m.difficulty, createdAt := createdAt cy.id
    winnerName := w.map fun c ↦ db.userName c.userId, winnerUserId := w.map Completion.userId }

/-- The cycles of a status and of a category, newest first, and how many there are; a cycle is
read with its map.  `createdAt` is the creation time of each cycle. -/
def fetchCycles (createdAt : Nat → Int) (scan join : Shuffle Completion)
    (status : Option CycleStatus) (categoryId : Option Nat) (limit offset : Nat) (db : Db) :
    Nat × List CycleRow :=
  let wanted := db.cycles.select fun cy ↦
    status.all (cy.status = ·) ∧ categoryId.all (cy.categoryId = ·)
  let rows := (orderBy (fun cy : Cycle ↦ -createdAt cy.id) wanted).filterMap fun cy ↦
    (db.maps.get? cy.mapId).map (cycleRow createdAt scan join db cy)
  (wanted.length, (rows.drop offset).take limit)

/-! ## Editions -/

/-- The editions awaiting results that no other transaction holds, oldest first. -/
def fetchAwaitingResultsEditions (locked : Nat → Bool) (db : Db) : List Edition :=
  (orderBy Edition.endsAt (db.editions.select fun e ↦ e.status = .awaitingResults)).filter
    fun e ↦ !locked e.id

def fetchEditionChildCycles (editionId : Nat) (db : Db) : List Cycle :=
  orderBy Cycle.id
    (db.cycles.select fun cy ↦ cy.editionId = some editionId ∧ cy.status = .finalizing)

/-- The active cycles of active editions, for the "new cycle" part of a card. -/
def fetchActiveEditionStartedCycles (db : Db) : List TournamentCycleStartedEvent :=
  (orderBy Cycle.id (db.cycles.select fun cy ↦ cy.status = .active)).filterMap fun cy ↦
    match cy.editionId.bind db.editions.get?, db.maps.get? cy.mapId with
    | some ed, some m =>
        if ed.status = .active then
          some
            { cycleId := cy.id, categoryId := cy.categoryId, mapId := cy.mapId
              mapCode := m.code <|> m.originalCode, mapName := m.mapName
              startedAt := ed.startedAt, endsAt := ed.endsAt }
        else none
    | _, _ => none

def markEditionStartAnnounced (editionId : Nat) (db : Db) : Db :=
  { db with
    editions := db.editions.modify (fun e ↦ e.id = editionId)
      fun e ↦ { e with startAnnounced := true } }

def completeEdition (editionId : Nat) (db : Db) : Db :=
  { db with
    cycles := db.cycles.modify (fun cy ↦ cy.editionId = some editionId)
      fun cy ↦ { cy with status := .completed }
    editions := db.editions.modify (fun e ↦ e.id = editionId)
      fun e ↦ { e with status := .completed } }

/-! ## The outbox -/

def createPendingTransition (cycleId editionId : Option Nat) (eventType : TransitionEventType)
    (payload : Payload) (now : Int) (db : Db) : Db :=
  { db with
    pendingTransitions := db.pendingTransitions.insert fun id ↦
      { id, cycleId, editionId, eventType, payload, createdAt := now } }

/-- The unpublished rows that no other transaction holds, oldest first. -/
def fetchUnpublishedTransitions (locked : Nat → Bool) (db : Db) : List PendingTransition :=
  (orderBy PendingTransition.createdAt (db.pendingTransitions.select fun t ↦ !t.published)).filter
    fun t ↦ !locked t.id

def markTransitionPublished (id : Nat) (db : Db) : Db :=
  { db with
    pendingTransitions := db.pendingTransitions.modify (fun t ↦ t.id = id ∧ !t.published)
      fun t ↦ { t with published := true } }

end Genjishimada.Repository
