import Genjishimada.Library.Ranking
import Genjishimada.Schema
import Mathlib.Algebra.Order.Ring.Rat
import Mathlib.Data.Prod.Lex

/-!
# `repository/skill_repository.py`: the skill inputs

`SKILL_INPUT_QUERY`, one definition for each of its four common table expressions.
The joins with `core.users` and `users.overwatch_usernames` only fetch a display
name and are left out.  Of runs with equal times `DISTINCT ON` keeps the first in the
table.
-/

namespace Genjishimada.Repository

open Library Sdk

/-- The `WHERE` of `best`: verified, not legacy, on a map with a code that is not
archived. -/
def eligible (db : Db) (c : CoreCompletion) : Bool :=
  c.verified && !c.legacy &&
    (db.maps.get? c.mapId).any fun m ↦ !m.archived && m.code.isSome

/-- `best`: the fastest eligible run per user and map. -/
def best (db : Db) : List CoreCompletion :=
  distinctOn (fun c ↦ (c.userId, c.mapId))
    (orderBy (fun c ↦ toLex (c.userId, toLex (c.mapId, c.time)))
      (db.coreCompletions.select (eligible db)))

/-- A row of `field`. -/
structure FieldRow where
  run : CoreCompletion
  fieldSize : Nat
  timePct : Rat
  fieldRank : Nat

/-- `PARTITION BY map_id`: the best runs on a map. -/
def onMap (runs : List CoreCompletion) (mapId : Nat) : List CoreCompletion :=
  runs.filter fun b ↦ b.mapId = mapId

/-- `field`: each best run with its place in the map's field. -/
def field (db : Db) : List FieldRow :=
  (best db).map fun b ↦
    let runs := onMap (best db) b.mapId
    { run := b
      fieldSize := runs.length
      timePct := percentRank (fun c ↦ -c.time) runs b
      fieldRank := rank CoreCompletion.time runs b }

/-- A row of `video_ranked`. -/
structure VideoRankRow where
  userId : Nat
  mapId : Nat
  videoRank : Nat

/-- `video_ranked`: the ranking of the best runs with a video among themselves. -/
def videoRanked (db : Db) : List VideoRankRow :=
  let videos := (best db).filter fun b ↦ !b.completion
  videos.map fun b ↦
    { userId := b.userId, mapId := b.mapId
      videoRank := rank CoreCompletion.time (onMap videos b.mapId) b }

/-- `fully`: `field LEFT JOIN video_ranked`. -/
def fully (db : Db) : List (FieldRow × Option Nat) :=
  (field db).map fun f ↦
    (f, ((videoRanked db).find? fun vr ↦
      vr.userId = f.run.userId ∧ vr.mapId = f.run.mapId).map VideoRankRow.videoRank)

/-- `round(x, 4)`, half away from zero, for the `x` from zero on it is used with. -/
def round4 (x : Rat) : Rat := (x * 10000 + 1 / 2).floor / 10000

/-- A row of `SKILL_INPUT_QUERY`. -/
structure SkillInput where
  userId : Nat
  mapId : Nat
  code : Option String
  mapName : String
  difficulty : DifficultyAll
  rawDifficulty : Rat
  time : Int
  completion : Bool
  fullyVerified : Bool
  fieldSize : Nat
  fieldRank : Nat
  videoRank : Option Nat
  timePct : Rat
  medal : Option Medal
  hasMedalThresholds : Bool
  suspicious : Bool
deriving DecidableEq

def suspicious (db : Db) (completionId : Nat) : Bool := db.suspiciousFlags.contains completionId

/-- The final `SELECT`, on a row of `fully` and its map. -/
def skillInput (db : Db) (f : FieldRow) (videoRank : Option Nat) (m : CoreMap) : SkillInput where
  userId := f.run.userId
  mapId := f.run.mapId
  code := m.code
  mapName := m.mapName
  difficulty := m.difficulty
  rawDifficulty := m.rawDifficulty
  time := f.run.time
  completion := f.run.completion
  fullyVerified := !f.run.completion
  fieldSize := f.fieldSize
  fieldRank := f.fieldRank
  videoRank := videoRank
  timePct := round4 f.timePct
  medal := medalFor (db.medals.get? f.run.mapId) f.run.time
  hasMedalThresholds := (db.medals.get? f.run.mapId).isSome
  suspicious := suspicious db f.run.id

/-- `SKILL_INPUT_QUERY` -/
def skillInputQuery (db : Db) : List SkillInput :=
  orderBy (fun r ↦ toLex (r.userId, -r.rawDifficulty))
    ((fully db).filterMap fun f ↦
      (db.maps.get? f.1.run.mapId).map fun m ↦ skillInput db f.1 f.2 m)

/-- The rows of the query, those of flagged runs dropped. -/
def fetchSkillInputs (db : Db) : List SkillInput :=
  (skillInputQuery db).filter fun r ↦ !r.suspicious

end Genjishimada.Repository
