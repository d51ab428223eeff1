import Genjishimada.Library.Ranking
import Genjishimada.Schema
import Genjishimada.Sdk.Completions
import Mathlib.Algebra.Order.Ring.Rat
import Mathlib.Data.Prod.Lex
import Mathlib.Data.String.Basic

/-!
# `repository/completions_repository.py`

The queries and statements of the completions repository.  The joins that fetch
display names and the counts of upvotes are left out, and so are the joins on the map
of a run, which always exists.
-/

namespace Genjishimada.Repository

open Library Sdk

/-! ## World records and leaderboards -/

/-- A row of either query.  `insertedAt` is not selected, but rows are ordered by it. -/
structure LeaderboardRow where
  code : Option String
  userId : Nat
  time : Int
  screenshot : String
  video : Option String
  completion : Bool
  verified : Bool
  rank : Option Nat
  medal : Option Medal
  mapName : String
  difficulty : DifficultyAll
  legacy : Bool
  insertedAt : Int
deriving DecidableEq, Repr

/-- The `archived` filter of the world records. -/
inductive ArchivedFilter where
  | all
  | archived
  | notArchived
deriving DecidableEq, Repr

/-- `$2 = 'all' OR (m.archived IS TRUE) = ($2 = 'archived')` -/
def ArchivedFilter.keeps (filter : ArchivedFilter) (m : CoreMap) : Bool :=
  filter = .all || m.archived = decide (filter = .archived)

/-- The columns both queries take from a run, its map and its rank. -/
def leaderboardRow (m : CoreMap) (c : CoreCompletion) (rank : Option Nat)
    (medal : Option Medal) : LeaderboardRow where
  code := m.code
  userId := c.userId
  time := c.time
  screenshot := c.screenshot
  video := c.video
  completion := c.completion
  verified := c.verified
  rank := rank
  medal := medal
  mapName := m.mapName
  difficulty := m.difficulty
  legacy := c.legacy
  insertedAt := c.insertedAt

/-- `latest_per_user_per_map`: the last verified run that is not legacy, by user and map. -/
def latestPerUserPerMap (db : Db) : List CoreCompletion :=
  distinctOn (fun c ↦ (c.userId, c.mapId))
    (orderBy (fun c ↦ toLex (c.userId, toLex (c.mapId, -c.insertedAt)))
      (db.coreCompletions.select fun c ↦ c.verified && !c.legacy))

/-- The `rank` of `ranked`: among all latest runs on the map, and none for a run without
a video. -/
def worldRecordRank (db : Db) (c : CoreCompletion) : Option Nat :=
  if c.completion then none
  else some (rank (fun r : CoreCompletion ↦ toLex (r.time, r.insertedAt))
    ((latestPerUserPerMap db).filter fun r ↦ r.mapId = c.mapId) c)

/-- `fetch_world_records_per_user` -/
def fetchWorldRecordsPerUser (userId : Nat) (filter : ArchivedFilter) (db : Db) :
    List LeaderboardRow :=
  let withMap := (latestPerUserPerMap db).filterMap fun c ↦
    ((db.maps.get? c.mapId).filter fun m ↦ m.code.isSome && filter.keeps m).map fun m ↦ (c, m)
  let records := withMap.filter fun r ↦
    r.1.userId = userId && !r.1.completion && worldRecordRank db r.1 = some 1
  (orderBy (fun r ↦ toLex (r.2.rawDifficulty, toLex (r.1.time, r.1.insertedAt))) records).map
    fun r ↦ leaderboardRow r.2 r.1 (worldRecordRank db r.1)
      (medalFor (db.medals.get? r.2.id) r.1.time)

/-- `latest_per_user_all`: the last verified run on a map, by user. -/
def latestPerUser (mapId : Nat) (db : Db) : List CoreCompletion :=
  distinctOn CoreCompletion.userId
    (orderBy (fun c ↦ toLex (c.userId, -c.insertedAt))
      (db.coreCompletions.select fun c ↦ c.mapId = mapId && c.verified))

/-- `rankable`, with the `rank` of each of its rows. -/
def rankable (mapId : Nat) (db : Db) : List (CoreCompletion × Option Nat) :=
  let videos := (latestPerUser mapId db).filter fun c ↦ !c.completion
  videos.map fun c ↦ (c, some (rank CoreCompletion.time videos c))

/-- `nonrankable` -/
def nonrankable (mapId : Nat) (db : Db) : List (CoreCompletion × Option Nat) :=
  ((latestPerUser mapId db).filter fun c ↦ c.completion).map fun c ↦ (c, none)

/-- The `CASE` of the final `ORDER BY`. -/
def leaderboardTier (r : LeaderboardRow) : Nat :=
  match r.legacy, r.rank with
  | false, some _ => 0
  | false, none => 1
  | true, some _ => 2
  | true, none => 3

/-- `fetch_map_leaderboard`; a `pageSize` of zero asks for every row. -/
def fetchMapLeaderboard (code : String) (pageSize pageNumber : Nat) (db : Db) :
    List LeaderboardRow :=
  match db.maps.rows.find? fun m ↦ m.code = some code with
  | none => []
  | some m =>
      let combined := rankable m.id db ++ nonrankable m.id db
      let rows := combined.map fun r ↦ leaderboardRow m r.1 r.2
        (r.2.bind fun _ ↦ medalFor (db.medals.get? m.id) r.1.time)
      let ordered := orderBy
        (fun r ↦ toLex (leaderboardTier r, toLex (r.time, r.insertedAt))) rows
      if pageSize = 0 then ordered else (ordered.drop ((pageNumber - 1) * pageSize)).take pageSize

/-! ## Submissions -/

/-- A map with the code exists and is not archived. -/
def checkMapExists (code : String) (db : Db) : Bool :=
  db.maps.rows.any fun m ↦ m.code = some code ∧ m.archived = false

/-- `WHERE code = $1`, which no map satisfies for NULL. -/
def fetchMapMetadataByCode (code : Option String) (db : Db) : Option CoreMap :=
  db.maps.rows.find? fun m ↦ code.isSome ∧ m.code = code

/-- The fastest pending run of the user on the map. -/
def getPendingVerification (userId : Nat) (code : String) (db : Db) : Option CoreCompletion :=
  (orderBy CoreCompletion.time (db.coreCompletions.select fun c ↦
    c.userId = userId ∧ (db.maps.get? c.mapId).any (fun m ↦ m.code = some code) ∧ c.pending ∧
      c.legacy = false)).head?

/-- The run found is one of the runs, and pending. -/
theorem getPendingVerification_spec {userId : Nat} {code : String} {db : Db} {c : CoreCompletion}
    (h : getPendingVerification userId code db = some c) :
    c ∈ db.coreCompletions.rows ∧ c.pending = true := by
  have hmem := mem_orderBy.mp (List.mem_of_mem_head? h)
  rw [Table.mem_select, decide_eq_true_eq] at hmem
  exact ⟨hmem.1, hmem.2.2.2.1⟩

def rejectCompletion (completionId rejectedBy : Nat) (db : Db) : Db :=
  { db with
    coreCompletions := db.coreCompletions.modify (fun c ↦ c.id = completionId)
      fun c ↦ { c with verifiedBy := some rejectedBy } }

theorem mem_rejectCompletion {completionId rejectedBy : Nat} {db : Db} {c : CoreCompletion} :
    c ∈ (rejectCompletion completionId rejectedBy db).coreCompletions.rows ↔
      ∃ c₀ ∈ db.coreCompletions.rows,
        (if c₀.id = completionId then { c₀ with verifiedBy := some rejectedBy } else c₀) = c := by
  simp [rejectCompletion]

/-- The run a new one of the user on the map has to beat: the fastest, rejected and legacy
ones aside.  On `UPDATE` the row itself does not count. -/
def speedRival (new : CoreCompletion) (updating : Bool) (db : Db) : Option CoreCompletion :=
  (orderBy CoreCompletion.time (db.coreCompletions.select fun c ↦
    c.userId = new.userId ∧ c.mapId = new.mapId ∧ c.legacy = false ∧ c.rejected = false ∧
      (updating = false ∨ c.id ≠ new.id))).head?

/-- What the trigger raises, under ERRCODE 23514. -/
inductive SpeedViolation where
  | /-- "You have a pending verification for map % with time %. …" -/
    pendingVerification (bestTime time : Int)
  | /-- "completion=TRUE time % must be strictly faster than current best % …" -/
    completion (bestTime time : Int)
  | /-- "completion=FALSE time % must be strictly faster than current best non-completion % …" -/
    video (bestTime time : Int)
deriving DecidableEq, Repr

/-- `core.enforce_speed_rules_nonlegacy_only()`, `BEFORE INSERT` or `UPDATE`. -/
def enforceSpeedRules (new : CoreCompletion) (updating : Bool) (db : Db) : Option SpeedViolation :=
  if new.legacy then none
  else
    match speedRival new updating db with
    | none => none
    | some best =>
        if new.insertedAt < best.insertedAt then none
        else
          let isPending := db.coreCompletions.rows.any fun c ↦
            c.userId = new.userId ∧ c.mapId = new.mapId ∧ c.time = best.time ∧ c.pending
          if new.completion then
            if best.time ≤ new.time then
              some (if isPending then .pendingVerification best.time new.time
                else .completion best.time new.time)
            else none
          else if best.completion = false ∧ best.time ≤ new.time then
            some (if isPending then .pendingVerification best.time new.time
              else .video best.time new.time)
          else none

/-- How the `INSERT` of a run fails. -/
inductive InsertError where
  | checkViolation (e : SpeedViolation)
  | uniqueViolation
deriving DecidableEq, Repr

/-- The row a submission inserts. -/
def newCompletion (data : CompletionCreateRequest) (m : CoreMap) (now : Int) (id : Nat) :
    CoreCompletion where
  id := id
  mapId := m.id
  userId := data.userId
  time := data.time
  screenshot := data.screenshot
  video := data.video
  completion :=
    m.playtesting = .inProgress ∨ data.video = none ∨ data.video = some "" ∨ m.official = false
  insertedAt := now

theorem key_newCompletion (data : CompletionCreateRequest) (m : CoreMap) (now : Int) (id : Nat) :
    key (newCompletion data m now id) = id := rfl

/-- Returns NULL, and inserts nothing, when no map has the code. -/
def insertCompletion (data : CompletionCreateRequest) (now : Int) (db : Db) :
    Except InsertError (Option Nat × Db) :=
  match fetchMapMetadataByCode (some data.code) db with
  | none => .ok (none, db)
  | some m =>
      let new := newCompletion data m now
      match enforceSpeedRules (new db.coreCompletions.nextId) false db with
      | some e => .error (.checkViolation e)
      | none =>
          if db.coreCompletions.rows.any fun c ↦
              c.mapId = m.id ∧ c.userId = data.userId ∧ c.insertedAt = now then
            .error .uniqueViolation
          else
            .ok (some db.coreCompletions.nextId,
              { db with
                coreCompletions := db.coreCompletions.insert new (key_newCompletion data m now) })

/-- A run that is accepted is the only change. -/
theorem insertCompletion_cases {data : CompletionCreateRequest} {now : Int} {db db' : Db}
    {id : Option Nat} (h : insertCompletion data now db = .ok (id, db')) :
    (id = none ∧ db' = db) ∨
      ∃ m, id = some db.coreCompletions.nextId ∧ db' = { db with
        coreCompletions := db.coreCompletions.insert (newCompletion data m now)
          (key_newCompletion data m now) } := by
  rw [insertCompletion] at h
  split at h
  · obtain ⟨rfl, rfl⟩ := Prod.mk.inj (Except.ok.inj h)
    exact .inl ⟨rfl, rfl⟩
  · rename_i m _
    dsimp only at h
    split at h
    · cases h
    · split at h
      · cases h
      · obtain ⟨rfl, rfl⟩ := Prod.mk.inj (Except.ok.inj h)
        exact .inr ⟨m, rfl, rfl⟩

def setCompletionTournamentLink (coreCompletionId tournamentCompletionId : Nat) (db : Db) : Db :=
  { db with
    coreCompletions := db.coreCompletions.modify (fun c ↦ c.id = coreCompletionId)
      fun c ↦ { c with tournamentCompletionId := some tournamentCompletionId } }

theorem mem_setCompletionTournamentLink {coreCompletionId tournamentCompletionId : Nat} {db : Db}
    {c : CoreCompletion} :
    c ∈ (setCompletionTournamentLink coreCompletionId tournamentCompletionId
        db).coreCompletions.rows ↔
      ∃ c₀ ∈ db.coreCompletions.rows,
        (if c₀.id = coreCompletionId then
          { c₀ with tournamentCompletionId := some tournamentCompletionId } else c₀) = c := by
  simp [setCompletionTournamentLink]

/-! ## Moderation -/

def checkCompletionExists (recordId : Nat) (db : Db) : Bool :=
  (db.coreCompletions.get? recordId).isSome

/-- What `fetch_completion_for_moderation` selects. -/
structure CompletionInfo where
  userId : Nat
  code : Option String
  oldTime : Int
  oldVerified : Bool
  tournamentCompletionId : Option Nat
deriving DecidableEq, Repr

def fetchCompletionForModeration (completionId : Nat) (db : Db) : Option CompletionInfo :=
  (db.coreCompletions.get? completionId).map fun c ↦
    { userId := c.userId, code := (db.maps.get? c.mapId).bind CoreMap.code, oldTime := c.time
      oldVerified := c.verified, tournamentCompletionId := c.tournamentCompletionId }

def updateVerification (recordId : Nat) (verified : Bool) (verifiedBy : Nat)
    (reason : Option String) (db : Db) : Db :=
  { db with
    coreCompletions := db.coreCompletions.modify (fun c ↦ c.id = recordId)
      fun c ↦ { c with verified, verifiedBy := some verifiedBy, reason } }

theorem mem_updateVerification {recordId verifiedBy : Nat} {verified : Bool}
    {reason : Option String} {db : Db} {c : CoreCompletion} :
    c ∈ (updateVerification recordId verified verifiedBy reason db).coreCompletions.rows ↔
      ∃ c₀ ∈ db.coreCompletions.rows,
        (if c₀.id = recordId then
          { c₀ with verified := verified, verifiedBy := some verifiedBy, reason := reason }
        else c₀) = c := by
  simp [updateVerification]

def updateCompletionVerified (completionId : Nat) (verified : Bool) (db : Db) : Db :=
  { db with
    coreCompletions := db.coreCompletions.modify (fun c ↦ c.id = completionId)
      fun c ↦ { c with verified } }

/-- The speed trigger watches the column. -/
def updateCompletionTime (completionId : Nat) (newTime : Int) (db : Db) :
    Except SpeedViolation Db :=
  match (db.coreCompletions.get? completionId).bind fun c ↦
      enforceSpeedRules { c with time := newTime } true db with
  | some e => .error e
  | none =>
      .ok { db with
        coreCompletions := db.coreCompletions.modify (fun c ↦ c.id = completionId)
          fun c ↦ { c with time := newTime } }

def fetchVerifiedTimesForUserMap (userId mapId : Nat) (db : Db) : List Int :=
  (db.coreCompletions.select fun c ↦ c.userId = userId ∧ c.mapId = mapId ∧ c.verified).map
    CoreCompletion.time

/-! ## Suspicious flags -/

/-- The flags on the runs of a user. -/
def fetchSuspiciousFlags (userId : Nat) (db : Db) : List Nat :=
  db.suspiciousFlags.filter fun id ↦ (db.coreCompletions.get? id).any fun c ↦ c.userId = userId

def checkSuspiciousFlagExists (completionId : Nat) (db : Db) : Bool :=
  completionId ∈ db.suspiciousFlags

def insertSuspiciousFlagByCompletionId (completionId : Nat) (db : Db) : Db :=
  { db with suspiciousFlags := db.suspiciousFlags ++ [completionId] }

def deleteSuspiciousFlag (completionId : Nat) (db : Db) : Db :=
  { db with suspiciousFlags := db.suspiciousFlags.filter fun id ↦ id ≠ completionId }

/-! ## The preview of a submission -/

/-- `latest_per_user`: the last verified run with a video on a map, by user. -/
def latestVideoPerUser (mapId : Nat) (db : Db) : List CoreCompletion :=
  distinctOn CoreCompletion.userId
    (orderBy (fun c ↦ toLex (c.userId, -c.insertedAt))
      (db.coreCompletions.select fun c ↦ c.mapId = mapId && c.verified && !c.completion))

/-- `eligible_ranked`: their users and times, and those of the run itself. -/
def eligibleRanked (c : CoreCompletion) (db : Db) : List (Nat × Int) :=
  let latest := (latestVideoPerUser c.mapId db).map fun r ↦ (r.userId, r.time)
  if !c.completion && !latest.contains (c.userId, c.time) then latest ++ [(c.userId, c.time)]
  else latest

/-- The `rank` of `ranked`, joined on the user and the time. -/
def hypotheticalRank (c : CoreCompletion) (db : Db) : Option Nat :=
  ((eligibleRanked c db).find? fun r ↦ r = (c.userId, c.time)).map
    (rank Prod.snd (eligibleRanked c db))

/-- What `fetch_completion_submission` returns, names aside. -/
structure CompletionSubmission where
  id : Nat
  userId : Nat
  time : Int
  screenshot : String
  video : Option String
  verified : Bool
  completion : Bool
  insertedAt : Int
  code : Option String
  difficulty : DifficultyAll
  mapName : String
  hypotheticalRank : Option Nat
  hypotheticalMedal : Option Medal
  verifiedBy : Option Nat
  verificationId : Option Nat
  suspicious : Bool
deriving DecidableEq, Repr

def fetchCompletionSubmission (recordId : Nat) (db : Db) : Option CompletionSubmission :=
  (db.coreCompletions.get? recordId).bind fun c ↦
    ((db.maps.get? c.mapId).filter fun m ↦ m.code.isSome).map fun m ↦
      { id := c.id, userId := c.userId, time := c.time, screenshot := c.screenshot
        video := c.video, verified := c.verified, completion := c.completion
        insertedAt := c.insertedAt, code := m.code, difficulty := m.difficulty
        mapName := m.mapName
        hypotheticalRank := Repository.hypotheticalRank c db
        hypotheticalMedal := if c.completion then none else medalFor (db.medals.get? c.mapId) c.time
        verifiedBy := c.verifiedBy
        verificationId := c.verificationId
        suspicious := !(fetchSuspiciousFlags c.userId db).isEmpty }

end Genjishimada.Repository
