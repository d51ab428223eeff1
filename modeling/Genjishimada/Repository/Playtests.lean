import Genjishimada.Repository.MapSearch
import Genjishimada.Repository.Maps
import Genjishimada.Repository.Users

/-!
# What is read of a playtest

The `playtest` column of the map search, `fetch_partial_map` and the votes of a thread.  A vote
is kept with its map, which `cast_vote` takes from the playtest of the thread.
-/

namespace Genjishimada.Repository

open Library Sdk

/-! ## The tables -/

/-- A row of `playtests.meta`. -/
structure PlaytestRow extends Playtest where
  verificationId : Option Nat := none
  createdAt : Option Int := some 0
deriving DecidableEq, Repr

instance instKeyedPlaytestRow : Keyed PlaytestRow := ⟨fun pm ↦ pm.id⟩

/-- A row of `playtests.votes`. -/
structure VoteRow extends PlaytestVote where
  mapId : Nat
deriving DecidableEq, Repr

/-- The primary name of a user in Overwatch, and the two of `core.users`. -/
structure DisplayNames where
  username : Option String := none
  nickname : Option String := none
  globalName : Option String := none
deriving DecidableEq, Repr

/-- `coalesce(ou.username, u.nickname, u.global_name, …)` -/
def DisplayNames.coalesce (names : DisplayNames) (unknown : String) : String :=
  (names.username.or (names.nickname.or names.globalName)).getD unknown

/-- The tables, with their constraints. -/
structure PlaytestTables where
  maps : Table MapRow
  metas : Table PlaytestRow
  votes : List VoteRow
  creators : List MapCreator
  users : Nat → Option DisplayNames
  /-- `code text UNIQUE` -/
  codes : ∀ m ∈ maps.rows, ∀ m' ∈ maps.rows, m.code ≠ none → m.code = m'.code → m = m'
  /-- `thread_id bigint UNIQUE` -/
  threads : ∀ pm ∈ metas.rows, ∀ pm' ∈ metas.rows, pm.threadId ≠ none →
    pm.threadId = pm'.threadId → pm = pm'
  /-- `REFERENCES playtests.meta (thread_id)`, with the map that `cast_vote` has read there. -/
  metaOfVote : ∀ v ∈ votes, ∃ pm ∈ metas.rows, pm.threadId = some v.threadId ∧ pm.mapId = v.mapId
  mapOfVote : ∀ v ∈ votes, (maps.get? v.mapId).isSome
  userOfVote : ∀ v ∈ votes, (users v.userId).isSome
  /-- `CHECK (difficulty >= 0 AND difficulty <= 10)` -/
  voteRange : ∀ v ∈ votes, 0 ≤ v.difficulty ∧ v.difficulty ≤ 10
  /-- `CHECK (initial_difficulty >= 0 AND initial_difficulty <= 10)` -/
  initialRange : ∀ pm ∈ metas.rows, 0 ≤ pm.initialDifficulty ∧ pm.initialDifficulty ≤ 10

namespace PlaytestTables

variable (t : PlaytestTables)

/-- `avg(difficulty)` -/
def average (votes : List VoteRow) : Option Rat :=
  if votes = [] then none else some ((votes.map (·.difficulty)).sum / votes.length)

/-- `array_agg(DISTINCT user_id)` -/
def arrayAggDistinct (ids : List Nat) : Option (List Nat) :=
  if ids = [] then none else some (orderBy id (distinctOn id ids))

/-! ## The votes of a thread -/

/-- `WHERE playtest_thread_id = $1` -/
def threadVotes (threadId : Nat) : List VoteRow := t.votes.filter fun v ↦ v.threadId = threadId

/-- `get_average_difficulty` -/
def getAverageDifficulty (threadId : Nat) : Option Rat := average (t.threadVotes threadId)

/-- `PlaytestVoteWithUser` -/
structure PlaytestVoteWithUser where
  userId : Nat
  name : String
  difficulty : Rat
deriving DecidableEq, Repr

/-- The row of a vote, if its joins find the map and the user. -/
def voteWithUser (v : VoteRow) : Option PlaytestVoteWithUser :=
  (t.maps.get? v.mapId).bind fun _ ↦ (t.users v.userId).map fun names ↦
    { userId := v.userId, name := names.coalesce "Unknown Name", difficulty := v.difficulty }

/-- `fetch_playtest_votes` -/
def fetchPlaytestVotes (threadId : Nat) : List PlaytestVoteWithUser :=
  (t.threadVotes threadId).filterMap t.voteWithUser

/-! ## The map search -/

/-- The rows of a map in `_playtest_meta_subquery`. -/
def openMetas (mapId : Nat) : List PlaytestRow :=
  t.metas.rows.filter fun pm ↦ pm.mapId = mapId && !pm.completed

/-- Those that may be the one with `rn = 1`. -/
def newestMetas (mapId : Nat) : List PlaytestRow :=
  (t.openMetas mapId).filter fun pm ↦ (t.openMetas mapId).all fun pm' ↦
    nullsFirst (fun x y ↦ decide (y ≤ x)) pm.createdAt pm'.createdAt

/-- `playtests.votes v WHERE v.map_id = m.id` -/
def mapVotes (mapId : Nat) : List VoteRow := t.votes.filter fun v ↦ v.mapId = mapId

/-- The JSON object of a playtest. -/
structure PlaytestObject where
  threadId : Nat
  initialDifficulty : Rat
  verificationId : Option Nat
  completed : Bool
  voteAverage : Option Rat
  voteCount : Nat
  voters : Option (List Nat)
deriving DecidableEq, Repr

/-- `_playtest_json_column`, of a map with the playtest it is joined to. -/
def playtestObject (m : MapRow) (pm : PlaytestRow) : Option PlaytestObject :=
  if m.playtesting = .inProgress then
    pm.threadId.map fun threadId ↦
      { threadId
        initialDifficulty := pm.initialDifficulty
        verificationId := pm.verificationId
        completed := pm.completed
        voteAverage := average (t.mapVotes m.id)
        voteCount := (t.mapVotes m.id).length
        voters := arrayAggDistinct ((t.mapVotes m.id).map (·.userId)) }
  else none

/-- What the `playtest` column of a map may be. -/
def playtestColumn (m : MapRow) : List (Option PlaytestObject) :=
  if t.openMetas m.id = [] then [none] else (t.newestMetas m.id).map (t.playtestObject m)

/-! ## `fetch_partial_map` -/

/-- What `fetch_partial_map` returns of a map. -/
structure PartialMap where
  mapId : Nat
  code : Option String
  mapName : String
  checkpoints : Nat
  difficulty : DifficultyAll
  creatorNames : List String
  creatorName : Option String
deriving DecidableEq, Repr

/-- The names of the primary creators; a map without one has a row all the same. -/
def creatorNames (textLe : String → String → Bool) (mapId : Nat) : List String :=
  let primary := t.creators.filter fun c ↦ c.mapId = mapId && c.isPrimary
  let names := primary.map fun c ↦ ((t.users c.userId).getD {}).coalesce "Unknown User"
  (distinctOn id (if names = [] then ["Unknown User"] else names)).mergeSort textLe

/-- The initial difficulties that the join groups the map by: that of any of its playtests,
completed or not, and NULL if it has none. -/
def initialDifficulties (mapId : Nat) : List (Option Rat) :=
  let metas := t.metas.rows.filter fun pm ↦ pm.mapId = mapId
  if metas = [] then [none] else distinctOn id (metas.map fun pm ↦ some pm.initialDifficulty)

/-- The row of a group; `none` if the conversion of its difficulty raises. -/
def partialMap (textLe : String → String → Bool) (m : MapRow) (group : Option Rat) :
    Option PartialMap :=
  (group.bind convertRawDifficultyToDifficultyAll).map fun difficulty ↦
    { mapId := m.id
      code := m.code
      mapName := m.mapName
      checkpoints := m.checkpoints
      difficulty
      creatorNames := t.creatorNames textLe m.id
      creatorName := (t.creatorNames textLe m.id).head? }

/-- What `fetch_partial_map` may return: `fetchrow` takes any of the groups, as the query does not
order them.  The list is empty if there is no map. -/
def fetchPartialMap (textLe : String → String → Bool) (code : String) : List (Option PartialMap) :=
  match t.maps.rows.find? fun m ↦ m.code = some code with
  | some m => (t.initialDifficulties m.id).map (t.partialMap textLe m)
  | none => []

end PlaytestTables

end Genjishimada.Repository
