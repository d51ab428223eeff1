import Genjishimada.Library.Ranking
import Genjishimada.Schema
import Mathlib.Algebra.Order.Ring.Rat
import Mathlib.Data.Prod.Lex

/-!
# `repository/community_repository.py` and the world records of the rank card

The derived skill ranks and the world-record counts.  The community leaderboard and the
player counts each derive the ranks in a chain of CTEs of their own, and the leaderboard
and the rank card count world records with the same one; `users` are the ids of
`core.users`.
-/

namespace Genjishimada.Repository

open Library Sdk

/-! ## Skill ranks -/

/-- `rank_name` -/
inductive SkillRank where
  | ninja | jumper | skilled | pro | master | grandmaster | god
deriving DecidableEq, Repr

/-- The `CASE difficulty` of `first_rank`. -/
def rankName : DifficultyTop → SkillRank
  | .easy => .jumper
  | .medium => .skilled
  | .hard => .pro
  | .veryHard => .master
  | .extreme => .grandmaster
  | .hell => .god

/-- The `CASE difficulty` of the `ORDER BY` in `first_rank`. -/
def rankOrder : DifficultyTop → Int
  | .easy => 1
  | .medium => 2
  | .hard => 3
  | .veryHard => 4
  | .extreme => 5
  | .hell => 6

def thresholds : DifficultyTop → Nat
  | .easy => 10
  | .medium => 10
  | .hard => 10
  | .veryHard => 10
  | .extreme => 7
  | .hell => 3

/-- `SELECT DISTINCT ON (map_id, user_id) … ORDER BY map_id, user_id, inserted_at DESC`: the last
of the selected runs, by map and user. -/
def latestRecords (p : CoreCompletion → Bool) (db : Db) : List CoreCompletion :=
  distinctOn (fun c ↦ (c.mapId, c.userId))
    (orderBy (fun c ↦ toLex (c.mapId, toLex (c.userId, -c.insertedAt)))
      (db.coreCompletions.select p))

/-- `all_completions` of the player counts: the last verified run. -/
def allCompletions (db : Db) : List CoreCompletion := latestRecords CoreCompletion.verified db

/-- The records on a map that is kept, with the map. -/
def recordMaps (keeps : CoreMap → Bool) (records : List CoreCompletion) (db : Db) :
    List (CoreCompletion × CoreMap) :=
  records.filterMap fun c ↦ ((db.maps.get? c.mapId).filter keeps).map fun m ↦ (c, m)

/-- `map_data`: the user and the base difficulty of each record on a map that is kept. -/
def mapData (keeps : CoreMap → Bool) (records : List CoreCompletion) (db : Db) :
    List (Nat × DifficultyTop) :=
  (distinctOn (fun r ↦ (r.2.id, r.1.userId)) (recordMaps keeps records db)).map
    fun r ↦ (r.1.userId, r.2.difficulty.base)

theorem mem_recordMaps {keeps : CoreMap → Bool} {records : List CoreCompletion} {db : Db}
    {c : CoreCompletion} {m : CoreMap} : (c, m) ∈ recordMaps keeps records db ↔
      c ∈ records ∧ db.maps.get? c.mapId = some m ∧ keeps m = true := by
  simp only [recordMaps, List.mem_filterMap, Option.map_eq_some_iff, Option.filter_eq_some_iff]
  constructor
  · rintro ⟨c', hc, m', hm, heq⟩
    cases heq
    exact ⟨hc, hm⟩
  · rintro ⟨hc, hm⟩
    exact ⟨c, hc, m, hm, rfl⟩

/-- The `WHERE` of the leaderboard's `map_data`. -/
def leaderboardKeeps (m : CoreMap) : Bool := m.official

/-- The `WHERE` of the `map_data` of the player counts. -/
def tierKeeps (m : CoreMap) : Bool := m.official && !m.archived && m.playtesting = .approved

/-- A row of `skill_rank_data`. -/
structure SkillRankData where
  difficulty : DifficultyTop
  userId : Nat
  completions : Nat
  rankMet : Bool
deriving DecidableEq, Repr

/-- `skill_rank_data`: `map_data` grouped by difficulty and user. -/
def skillRankData (data : List (Nat × DifficultyTop)) : List SkillRankData :=
  (distinctOn id data).map fun g ↦
    let completions := data.countP fun r ↦ r = g
    { difficulty := g.2, userId := g.1, completions, rankMet := thresholds g.2 ≤ completions }

/-- The row of `first_rank` of a user with `rank_order = 1`. -/
def firstRank (data : List SkillRankData) (userId : Nat) : Option SkillRank :=
  ((orderBy (fun r ↦ -rankOrder r.difficulty)
    (data.filter fun r ↦ r.rankMet && r.userId = userId)).head?).map fun r ↦ rankName r.difficulty

/-- `highest_ranks` -/
def highestRanks (allUsers : List Nat) (data : List (Nat × DifficultyTop)) :
    List (Nat × SkillRank) :=
  allUsers.map fun u ↦ (u, (firstRank (skillRankData data) u).getD .ninja)

/-- `highest_ranks` of the player counts, of all users. -/
def tierHighestRanks (users : List Nat) (db : Db) : List (Nat × SkillRank) :=
  highestRanks users (mapData tierKeeps (allCompletions db) db)

/-- The `CASE rank_name` of the `ORDER BY`. -/
def SkillRank.position : SkillRank → Int
  | .ninja => 7
  | .jumper => 6
  | .skilled => 5
  | .pro => 4
  | .master => 3
  | .grandmaster => 2
  | .god => 1

/-- `fetch_players_per_skill_tier` -/
def fetchPlayersPerSkillTier (users : List Nat) (db : Db) : List (SkillRank × Nat) :=
  orderBy (fun r ↦ -r.1.position) (countBy ((tierHighestRanks users db).map Prod.snd))

/-! ## World records -/

/-- The `WHERE` of `ranks`. -/
def ranked (c : CoreCompletion) : Bool := 1000 < c.userId && c.time < 9999999900 && c.verified

/-- `ranks`: the runs that are ranked, and their rank on the map. -/
def ranks (db : Db) : List (CoreCompletion × Nat) :=
  let runs := db.coreCompletions.select ranked
  runs.map fun c ↦ (c, rank CoreCompletion.time (runs.filter fun r ↦ r.mapId = c.mapId) c)

end Genjishimada.Repository
