import Genjishimada.Library.Percentile
import Genjishimada.Repository.Community
import Genjishimada.Repository.Store

/-!
# `repository/store_repository.py`: the queries behind a bounty

Times are hundredths of a second, so a target is too.
-/

namespace Genjishimada.Repository

open Library Sdk

/-- `verified = TRUE AND legacy = FALSE` -/
def CoreRun (c : CoreCompletion) : Bool := c.verified && !c.legacy

/-- The times of a user's verified runs of a map. -/
def userTimes (userId mapId : Nat) (db : Db) : List Int :=
  (db.coreCompletions.select fun c ↦ CoreRun c ∧ c.userId = userId ∧ c.mapId = mapId).map
    CoreCompletion.time

/-- `m.archived = FALSE AND m.code IS NOT NULL` -/
def playable (m : CoreMap) : Bool := !m.archived && m.code.isSome

/-- A row of `get_user_completions`. -/
structure UserCompletion where
  map : CoreMap
  time : Int
deriving DecidableEq, Repr

/-- The user's best time on each playable map. -/
def getUserCompletions (userId : Nat) (db : Db) : List UserCompletion :=
  (db.maps.select playable).filterMap fun map ↦
    (userTimes userId map.id db).min?.map fun time ↦ { map, time }

/-- `percentile_cont` of all verified runs of the map. -/
def getPercentileTargetTime (mapId : Nat) (percentile : Rat) (db : Db) : Option Rat :=
  percentileCont percentile
    ((db.coreCompletions.select fun c ↦ CoreRun c ∧ c.mapId = mapId).map fun c ↦ (c.time : Rat))

/-- The last verified run that is not a legacy one, by map and user. -/
def rivalRecords (db : Db) : List CoreCompletion := latestRecords CoreRun db

def getUserSkillRank (userId : Nat) (db : Db) : SkillRank :=
  let records := latestRecords (fun c ↦ CoreRun c && c.userId = userId) db
  (firstRank (skillRankData (mapData leaderboardKeeps records db)) userId).getD .ninja

/-- The other users of the rank, fifty at random. -/
def findRivals (userId : Nat) (skillRank : SkillRank) (users : List Nat) (random : Shuffle Nat)
    (db : Db) : List Nat :=
  let ranks := highestRanks users (mapData leaderboardKeeps (rivalRecords db) db)
  (random.order ((ranks.filter fun r ↦ r.1 ≠ userId ∧ r.2 = skillRank).map Prod.fst)).take 50

/-- A row of `find_beatable_rival_map`. -/
structure BeatableMap where
  map : CoreMap
  rivalTime : Int
  userTime : Int
deriving DecidableEq, Repr

/-- The playable maps on which the rival is faster than the user, by a fifth at most. -/
def beatableRivalMaps (userId rivalId : Nat) (db : Db) : List BeatableMap :=
  ((db.maps.select playable).filterMap fun map ↦ do
    let rivalTime ← (userTimes rivalId map.id db).min?
    let userTime ← (userTimes userId map.id db).min?
    some { map, rivalTime, userTime }).filter fun b ↦
      b.rivalTime < b.userTime ∧ b.userTime * 8 ≤ b.rivalTime * 10

def findBeatableRivalMap (userId rivalId : Nat) (random : Shuffle BeatableMap) (db : Db) :
    Option BeatableMap :=
  (random.order (beatableRivalMaps userId rivalId db)).head?

/-- The official playable maps of which the user has no verified run, fifty at random. -/
def getUncompletedMaps (userId : Nat) (random : Shuffle CoreMap) (db : Db) : List CoreMap :=
  (random.order (db.maps.select fun m ↦
    m.official ∧ playable m ∧ userTimes userId m.id db = [])).take 50

end Genjishimada.Repository
