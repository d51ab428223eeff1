import Genjishimada.Repository.Community
import Genjishimada.Repository.Maps

/-!
# `utilities/shared_queries.py`

The rank details of a user: on how many maps of each difficulty the user's last verified run
stands, and with which medals.  A medal is computed from the thresholds of the map or stored
with the run, and only a run with a video has one.
-/

namespace Genjishimada.Repository

open Library Sdk

/-- `RankDetailResponse` -/
structure RankDetailResponse where
  difficulty : DifficultyTop
  completions : Nat
  gold : Nat
  silver : Nat
  bronze : Nat
  rankMet : Bool
  goldRankMet : Bool
  silverRankMet : Bool
  bronzeRankMet : Bool
deriving DecidableEq, Repr

/-- The texts of `legacy_medal`. -/
def medalText : Medal → String
  | .gold => "Gold"
  | .silver => "Silver"
  | .bronze => "Bronze"

/-- `time <= gold`, `time <= silver AND time > gold` and `time <= bronze AND time > silver`;
no comparison with `NULL` holds. -/
def thresholdMet (mm : Option MedalThresholds) (time : Int) : Medal → Bool
  | .gold => (mm.bind (·.gold)).any (time ≤ ·)
  | .silver => (mm.bind (·.silver)).any (time ≤ ·) && (mm.bind (·.gold)).any (· < time)
  | .bronze => (mm.bind (·.bronze)).any (time ≤ ·) && (mm.bind (·.silver)).any (· < time)

/-- The columns `gold`, `silver` and `bronze` of `map_data`. -/
def PlaytestDb.hasMedal (d : PlaytestDb) (uc : CoreCompletion) (medal : Medal) : Bool :=
  uc.video.isSome && (thresholdMet (d.db.medals.get? uc.mapId) uc.time medal ||
    d.legacyMedal uc.id = some (medalText medal))

/-- The `WHERE` of `map_data` on the map. -/
def rankKeeps (official playableOnly : Bool) (m : CoreMap) : Bool :=
  m.official = official && (!playableOnly || !m.archived) &&
    (!playableOnly || m.playtesting = .approved)

/-- The rows of `map_data`: the last verified run of the user on each map that is kept. -/
def PlaytestDb.rankRuns (d : PlaytestDb) (userId : Nat) (official playableOnly : Bool) :
    List (CoreCompletion × CoreMap) :=
  (recordMaps (rankKeeps official playableOnly) (allCompletions d.db) d.db).filter
    fun r ↦ r.1.userId = userId

/-- The row of a difficulty, from `map_data`. -/
def PlaytestDb.rankDetail (d : PlaytestDb) (runs : List (CoreCompletion × CoreMap))
    (difficulty : DifficultyTop) : RankDetailResponse :=
  let count (p : CoreCompletion → Bool) :=
    runs.countP fun r ↦ r.2.difficulty.base = difficulty && p r.1
  let completions := count fun _ ↦ true
  let gold := count (d.hasMedal · .gold)
  let silver := count (d.hasMedal · .silver)
  let bronze := count (d.hasMedal · .bronze)
  { difficulty, completions, gold, silver, bronze
    rankMet := thresholds difficulty ≤ completions
    goldRankMet := thresholds difficulty ≤ gold
    silverRankMet := thresholds difficulty ≤ silver
    bronzeRankMet := thresholds difficulty ≤ bronze }

/-- `get_user_rank_data` -/
def getUserRankData (userId : Nat) (official playableOnly : Bool) (d : PlaytestDb) :
    List RankDetailResponse :=
  [.easy, .medium, .hard, .veryHard, .extreme, .hell].map
    (d.rankDetail (d.rankRuns userId official playableOnly))

end Genjishimada.Repository
