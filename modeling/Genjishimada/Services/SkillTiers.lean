import Genjishimada.Library.Bucket
import Genjishimada.Library.Percentile
import Genjishimada.Services.Skill

/-!
# `services/skill_service.py`: the tiers

`update_tier_config` and what `repository/skill_repository.py` does for it: the boundaries that
are derived from the positive scores of the snapshot, and the tier and the percentile of a
player.  Scores are rational.
-/

namespace Genjishimada.Services

open Library

/-- The row of `skill.tier_config`. -/
structure TierConfig where
  boundaries : List Rat := []
  percentiles : List Rat
  computedAt : Int := 0
deriving DecidableEq, Repr

/-- The row that migration 0028 inserts. -/
def seedTierConfig : TierConfig where
  percentiles := [0.50, 0.70, 0.85, 0.93, 0.97, 0.99, 0.995]

/-- `_TIER_POPULATION_FLOOR` -/
def tierPopulationFloor : Nat := 20

/-- `_TIER_PERCENTILE_COUNT` -/
def tierPercentileCount : Nat := 7

/-- The scores `WHERE skill_score > 0`. -/
def positiveScores (snapshot : List (SnapshotRow Rat)) : List Rat :=
  (snapshot.map SnapshotRow.skillScore).filter fun score ↦ 0 < score

/-- `compute_tier_boundaries`; without a positive score the join has no group. -/
def computeTierBoundaries (now : Int) (snapshot : List (SnapshotRow Rat)) (cfg : TierConfig) :
    TierConfig :=
  { cfg with
    boundaries :=
      if tierPopulationFloor ≤ (positiveScores snapshot).length then
        cfg.percentiles.filterMap fun p ↦ percentileCont p (positiveScores snapshot)
      else []
    computedAt := now }

/-- The `CASE` for `tier`. -/
def tierOf (cfg : TierConfig) (score : Rat) : Nat :=
  if score ≤ 0 ∨ cfg.boundaries.length = 0 then 0 else widthBucket score cfg.boundaries + 1

/-- The `coalesce` for `percentile`. -/
def percentileOf (snapshot : List (SnapshotRow Rat)) (score : Rat) : Rat :=
  let population := (positiveScores snapshot).length
  if population = 0 then 0
  else ((positiveScores snapshot).countP fun other ↦ other ≤ score : Nat) / (population : Nat)

/-- A row of `fetch_snapshot_with_tier`. -/
structure SnapshotWithTier extends SnapshotRow Rat where
  tier : Nat
  percentile : Rat

/-- `fetch_snapshot_with_tier` -/
def fetchSnapshotWithTier (cfg : TierConfig) (snapshot : List (SnapshotRow Rat)) (userId : Nat) :
    Option SnapshotWithTier :=
  (snapshot.find? fun ss ↦ ss.userId = userId).map fun ss ↦
    { ss with
      tier := tierOf cfg ss.skillScore
      percentile := percentileOf snapshot ss.skillScore }

/-- The checks of `update_tier_config`; an error is the text of `InvalidPercentilesError`. -/
def checkPercentiles (percentiles : List Rat) : Except String Unit :=
  if percentiles.length ≠ tierPercentileCount then
    .error "percentiles must contain exactly 7 values."
  else if percentiles.any fun p ↦ !(0 < p && p < 1) then
    .error "every percentile must be strictly between 0 and 1."
  else if (percentiles.zip percentiles.tail).any fun t ↦ t.2 ≤ t.1 then
    .error "percentiles must be strictly increasing."
  else .ok ()

/-- `update_tier_config` -/
def updateTierConfig (percentiles : List Rat) (now : Int) (snapshot : List (SnapshotRow Rat))
    (cfg : TierConfig) : Except String TierConfig :=
  (checkPercentiles percentiles).map fun _ ↦
    computeTierBoundaries now snapshot { cfg with percentiles }

end Genjishimada.Services
