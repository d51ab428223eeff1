import Genjishimada.Repository.Skill
import Mathlib.Algebra.BigOperators.Group.List.Basic
import Mathlib.Algebra.Order.Field.Basic
import Mathlib.Algebra.Order.Group.Unbundled.Abs
import Mathlib.Data.List.Dedup
import Mathlib.Order.OrderDual

/-!
# `services/skill_service.py`: the scorer and the rebuild

Scores are elements of an arbitrary ordered division ring `K`: the arithmetic is
exact.  The source's `**` on floats is the argument `pow`; with `K` the reals it is the
real power.  A division by zero, which only a weight `shrink_k` below zero can cause,
raises in the source and yields zero here; a rebuild that raises changes no table.

The rebuild guard is a record and two functions, one for each stretch of
`recompute_all` between two suspensions.
-/

namespace Genjishimada.Services

open Library Sdk Repository

/-! ## The scorer -/

/-- `Weights` -/
structure Weights (K : Type) where
  diffBase : K
  gamma : K
  timeBonus : K
  shrinkK : K
  wrBonus : K
  partialFactor : K
  medalGold : K
  medalSilver : K
  medalBronze : K

/-- A row of a stored breakdown.  Breakdowns stored before `map_id` was carried have none. -/
structure BreakdownRow (K : Type) where
  mapId : Option Nat
  mapName : String
  difficulty : DifficultyAll
  raw : Rat
  fullyVerified : Bool
  medal : Option Medal
  wr : Bool
  rawScore : K
  contribution : K
  rank : Nat

section Scorer

variable {K : Type} [DivisionRing K] [LinearOrder K] (pow : K → K → K)

/-- `_diff_weight` -/
def diffWeight (raw : Rat) (w : Weights K) : K := pow w.diffBase ((raw : K) - 3 / 2)

/-- `_map_score` -/
def mapScore (row : SkillInput) (w : Weights K) : K :=
  let floor := diffWeight pow row.rawDifficulty w
  if !row.fullyVerified then floor * w.partialFactor
  else
    let fieldSize : K := if row.fieldSize = 0 then 1 else row.fieldSize
    let shrink := fieldSize / (fieldSize + w.shrinkK)
    let timeMult := 1 + w.timeBonus * shrink * (row.timePct : K)
    let medalMult := match row.medal with
      | some .gold => w.medalGold
      | some .silver => w.medalSilver
      | some .bronze => w.medalBronze
      | none => 1
    let wrMult := if row.videoRank = some 1 then 1 + w.wrBonus else 1
    floor * timeMult * medalMult * wrMult

/-- `r.get("map_name") or r.get("code") or f"map {map_id}"` -/
def breakdownName (r : SkillInput) : String :=
  if r.mapName ≠ "" then r.mapName
  else (r.code.filter fun c ↦ c ≠ "").getD ("map " ++ toString r.mapId)

/-- `_player_breakdown`: the scores of a player's maps, best first, each divided by a
power of its place. -/
def playerBreakdown (rows : List SkillInput) (w : Weights K) : List (BreakdownRow K) :=
  let scored := orderBy (fun t : K × SkillInput ↦ OrderDual.toDual t.1)
    (rows.map fun r ↦ (mapScore pow r w, r))
  (scored.zipIdx 1).map fun t ↦
    let (s, r) := t.1
    { mapId := some r.mapId
      mapName := breakdownName r
      difficulty := r.difficulty
      raw := r.rawDifficulty
      fullyVerified := r.fullyVerified
      medal := r.medal
      wr := r.videoRank = some 1
      rawScore := s
      contribution := s / pow t.2 w.gamma
      rank := t.2 }

/-- `_breakdown_score` -/
def breakdownScore (breakdown : List (BreakdownRow K)) : K :=
  (breakdown.map BreakdownRow.contribution).sum

/-- `_player_score` -/
def playerScore (rows : List SkillInput) (w : Weights K) : K :=
  breakdownScore (playerBreakdown pow rows w)

/-! ## The diff of two breakdowns -/

/-- What `_diff_key` returns: the map's id or, tagged, its name. -/
inductive DiffKey where
  | mapId (id : Nat)
  | name (mapName : String)
deriving DecidableEq

/-- `_diff_key` -/
def diffKey (row : BreakdownRow K) : DiffKey :=
  match row.mapId with
  | some id => .mapId id
  | none => .name row.mapName

/-- An entry of `diff["maps"]`. -/
structure DiffEntry (K : Type) where
  map : String
  prev : K
  new : K
  impact : K

/-- Looking a key up in `{_diff_key(row): row for row in rows}`: the last row wins. -/
def byKey (rows : List (BreakdownRow K)) (k : DiffKey) : Option (BreakdownRow K) :=
  rows.reverse.find? fun row ↦ diffKey row = k

/-- `_build_diff`: one entry per map of either breakdown. -/
def buildDiff (prevBreakdown newBreakdown : List (BreakdownRow K)) : List (DiffEntry K) :=
  (prevBreakdown.map diffKey ++ newBreakdown.map diffKey).dedup.map fun k ↦
    let p := byKey prevBreakdown k
    let n := byKey newBreakdown k
    let prevC := (p.map BreakdownRow.contribution).getD 0
    let newC := (n.map BreakdownRow.contribution).getD 0
    { map := (((n.or p).map BreakdownRow.mapName).filter fun s ↦ s ≠ "").getD "unknown"
      prev := prevC
      new := newC
      impact := newC - prevC }

/-! ## Causes -/

/-- `cause_category` -/
inductive CauseCategory where
  | playerAction
  | mapEnvironment
  | system
deriving DecidableEq, Repr

/-- `TriggerDescriptor` -/
structure TriggerDescriptor where
  causeCategory : CauseCategory := .system
  actorUserId : Option Nat := none
deriving DecidableEq, Repr

/-- `_resolve_cause_policy`: one clean completion keeps its cause and actor. -/
def resolveCausePolicy (drained : List TriggerDescriptor) : CauseCategory × Option Nat :=
  match drained with
  | [⟨.playerAction, some actor⟩] => (.playerAction, some actor)
  | _ => (.system, none)

/-! ## The rebuild -/

/-- A row of `skill.snapshot`. -/
structure SnapshotRow (K : Type) where
  userId : Nat
  skillScore : K
  mapsCleared : Nat
  videoClears : Nat
  hardestRaw : Rat
  breakdown : List (BreakdownRow K)
  computedAt : Int

/-- A row of `skill.score_history`. -/
structure HistoryRow (K : Type) where
  userId : Nat
  capturedAt : Int
  skillScore : K

/-- A row of `skill.score_change`. -/
structure ScoreChange (K : Type) where
  userId : Nat
  capturedAt : Int
  previousScore : K
  newScore : K
  delta : K
  causeCategory : CauseCategory
  reason : String
  diff : List (DiffEntry K)

/-- The tables a rebuild writes; the log is in the order of `change_id`. -/
structure SkillTables (K : Type) where
  snapshot : List (SnapshotRow K) := []
  history : List (HistoryRow K) := []
  changes : List (ScoreChange K) := []

/-- `by_user`: the input rows of each user, in the order the users first appear. -/
def byUser (rows : List SkillInput) : List (Nat × List SkillInput) :=
  (distinctOn id (rows.map SkillInput.userId)).map fun u ↦
    (u, rows.filter fun r ↦ r.userId = u)

/-- `prev.get(user_id)`, with `prev` what `fetch_all_snapshots` returns. -/
def prevSnapshot (tables : SkillTables K) (userId : Nat) : Option (SnapshotRow K) :=
  tables.snapshot.find? fun s ↦ s.userId = userId

/-- The snapshot row of one user. -/
def snapshotRow (w : Weights K) (computedAt : Int) (userId : Nat) (urows : List SkillInput) :
    SnapshotRow K :=
  let breakdown := playerBreakdown pow urows w
  { userId
    skillScore := breakdownScore breakdown
    mapsCleared := urows.length
    videoClears := (urows.filter SkillInput.fullyVerified).length
    hardestRaw := (urows.map SkillInput.rawDifficulty).max?.getD 0
    breakdown
    computedAt }

/-- The change row of one user, from the snapshot before and the new snapshot row. -/
def changeRow (policy : CauseCategory × Option Nat) (prev : Option (SnapshotRow K))
    (row : SnapshotRow K) : ScoreChange K :=
  let previousScore := (prev.map SnapshotRow.skillScore).getD 0
  { userId := row.userId
    capturedAt := row.computedAt
    previousScore
    newScore := row.skillScore
    delta := row.skillScore - previousScore
    causeCategory :=
      if policy.1 = .system then .system
      else if some row.userId = policy.2 then .playerAction
      else .mapEnvironment
    reason := if policy.1 = .system then "global recalculation" else "verified completion"
    diff := buildDiff ((prev.map SnapshotRow.breakdown).getD []) row.breakdown }

/-- `INSERT … ON CONFLICT (user_id, captured_at) DO NOTHING`, row by row. -/
def bulkInsertHistory (rows : List (HistoryRow K)) (history : List (HistoryRow K)) :
    List (HistoryRow K) :=
  rows.foldl (fun history r ↦
    if history.any fun h ↦ h.userId = r.userId ∧ h.capturedAt = r.capturedAt then history
    else history ++ [r]) history

/-- `_do_recompute`, once it has read the weights and the inputs. -/
def doRecompute (policy : CauseCategory × Option Nat) (w : Weights K) (rows : List SkillInput)
    (computedAt : Int) (tables : SkillTables K) : SkillTables K :=
  let snapshotRows := (byUser rows).map fun u ↦ snapshotRow pow w computedAt u.1 u.2
  { snapshot := snapshotRows
    history := bulkInsertHistory
      (snapshotRows.map fun s ↦ ⟨s.userId, s.computedAt, s.skillScore⟩) tables.history
    changes := tables.changes ++
      snapshotRows.map fun s ↦ changeRow policy (prevSnapshot tables s.userId) s }

/-! ## The drill-down -/

/-- `CauseCategory`, as it is stored -/
def CauseCategory.text : CauseCategory → String
  | .playerAction => "PLAYER_ACTION"
  | .mapEnvironment => "MAP_ENVIRONMENT"
  | .system => "SYSTEM"

/-- `SkillChangeCause` -/
structure SkillChangeCause (K : Type) where
  map : String
  reason : String
  impact : K

/-- `SkillChangeDetailResponse` -/
structure SkillChangeDetail (K : Type) where
  changeId : Nat
  capturedAt : Int
  previousScore : K
  newScore : K
  delta : K
  percentChange : K
  causeCategory : CauseCategory
  mainCauses : List (SkillChangeCause K)
  otherFactors : K

/-- `_TOP_N` -/
def topN : Nat := 5

/-- `fetch_change`; a change is found by its place in the log. -/
def fetchChange (tables : SkillTables K) (userId changeId : Nat) : Option (ScoreChange K) :=
  (tables.changes[changeId]?).filter fun c ↦ c.userId = userId

/-- What `get_user_change_detail` makes of a row: the maps of the diff by the size of their
impact, the first of them one by one and the rest as a sum. -/
def changeDetail (changeId : Nat) (row : ScoreChange K) : SkillChangeDetail K :=
  let maps := orderBy (fun m : DiffEntry K ↦ OrderDual.toDual |m.impact|) row.diff
  let tail := maps.drop topN
  { changeId
    capturedAt := row.capturedAt
    previousScore := row.previousScore
    newScore := row.newScore
    delta := row.delta
    percentChange := if row.previousScore ≠ 0 then row.delta / row.previousScore * 100 else 0
    causeCategory := row.causeCategory
    mainCauses := (maps.take topN).map fun m ↦
      { map := m.map
        reason := if row.reason ≠ "" then row.reason else row.causeCategory.text
        impact := m.impact }
    otherFactors := (tail.map DiffEntry.impact).sum }

/-- `get_user_change_detail` -/
def getUserChangeDetail (tables : SkillTables K) (userId changeId : Nat) :
    Option (SkillChangeDetail K) :=
  (fetchChange tables userId changeId).map (changeDetail changeId)

end Scorer

/-! ## The rebuild guard -/

/-- `_RecomputeGuard`: whether its lock is held, its flag and its accumulator. -/
structure RecomputeGuard where
  locked : Bool := false
  rerunRequested : Bool := false
  pending : List TriggerDescriptor := []
deriving DecidableEq, Repr

/-- The `while` loop of the lock's holder, up to the next suspension: a rebuild for the
drained descriptors, or the end of the call, which releases the lock. -/
def rebuildLoop (g : RecomputeGuard) : RecomputeGuard × Option (List TriggerDescriptor) :=
  if g.rerunRequested then
    ({ g with rerunRequested := false, pending := [] }, some g.pending)
  else ({ g with locked := false }, none)

/-- `recompute_all`, from its start to its first suspension or its early return. -/
def recomputeAll (descriptor : Option TriggerDescriptor) (g : RecomputeGuard) :
    RecomputeGuard × Option (List TriggerDescriptor) :=
  let g := { g with pending := g.pending ++ [descriptor.getD {}], rerunRequested := true }
  if g.locked then (g, none)
  -- the lock is free and nobody waits for it, so acquiring it does not suspend
  else rebuildLoop { g with locked := true }

/-- The rebuild in progress raises: `async with` releases the lock and the call ends. -/
def rebuildRaises (g : RecomputeGuard) : RecomputeGuard := { g with locked := false }

end Genjishimada.Services
