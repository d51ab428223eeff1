import Genjishimada.Services.Skill

/-!
# `services/skill_service.py`: the weights

`update_weights`, with the `CHECK` of `skill.weight_config`, and the scorer once more with what
it does where the arithmetic fails: `pow` is Python's `**` on floats, which raises for a
negative power of zero and leaves the reals for a fractional power of a negative number.
-/

namespace Genjishimada.Services

open Library Repository

/-! ## `update_weights` -/

/-- `SkillConfigUpdateRequest`; an `UNSET` field is `none`. -/
structure SkillConfigUpdateRequest (K : Type) where
  diffBase : Option K := none
  gamma : Option K := none
  timeBonus : Option K := none
  shrinkK : Option K := none
  wrBonus : Option K := none
  partialFactor : Option K := none
  medalGold : Option K := none
  medalSilver : Option K := none
  medalBronze : Option K := none

namespace SkillConfigUpdateRequest

variable {K : Type}

/-- `not updates` -/
def isEmpty (data : SkillConfigUpdateRequest K) : Bool :=
  data.diffBase.isNone && data.gamma.isNone && data.timeBonus.isNone && data.shrinkK.isNone &&
    data.wrBonus.isNone && data.partialFactor.isNone && data.medalGold.isNone &&
    data.medalSilver.isNone && data.medalBronze.isNone

/-- The `SET` clause, applied to the row. -/
def apply (data : SkillConfigUpdateRequest K) (w : Weights K) : Weights K where
  diffBase := data.diffBase.getD w.diffBase
  gamma := data.gamma.getD w.gamma
  timeBonus := data.timeBonus.getD w.timeBonus
  shrinkK := data.shrinkK.getD w.shrinkK
  wrBonus := data.wrBonus.getD w.wrBonus
  partialFactor := data.partialFactor.getD w.partialFactor
  medalGold := data.medalGold.getD w.medalGold
  medalSilver := data.medalSilver.getD w.medalSilver
  medalBronze := data.medalBronze.getD w.medalBronze

end SkillConfigUpdateRequest

section Scorer

variable {K : Type} [DivisionRing K] [LinearOrder K] (pow : K → K → Option K)

/-- `_diff_weight` -/
def diffWeight? (raw : Rat) (w : Weights K) : Option K := pow w.diffBase (raw - 3 / 2 : Rat)

/-- `_map_score` -/
def mapScore? (row : SkillInput) (w : Weights K) : Option K :=
  (diffWeight? pow row.rawDifficulty w).bind fun floor ↦
    if !row.fullyVerified then some (floor * w.partialFactor)
    else
      let fieldSize : K := if row.fieldSize = 0 then 1 else row.fieldSize
      if fieldSize + w.shrinkK = 0 then none
      -- the rest cannot fail
      else some (mapScore (fun _ _ ↦ floor) row w)

/-- `_player_breakdown` -/
def playerBreakdown? (rows : List SkillInput) (w : Weights K) : Option (List (BreakdownRow K)) :=
  (rows.mapM fun r ↦ (mapScore? pow r w).map fun s ↦ (s, r)).bind fun scores ↦
    ((orderBy (fun t : K × SkillInput ↦ OrderDual.toDual t.1) scores).zipIdx 1).mapM fun t ↦
      (pow t.2 w.gamma).bind fun decay ↦
        if decay = 0 then none
        else some
          { mapId := some t.1.2.mapId
            mapName := breakdownName t.1.2
            difficulty := t.1.2.difficulty
            raw := t.1.2.rawDifficulty
            fullyVerified := t.1.2.fullyVerified
            medal := t.1.2.medal
            wr := t.1.2.videoRank = some 1
            rawScore := t.1.1
            contribution := t.1.1 / decay
            rank := t.2 }

/-- The scoring of `_do_recompute`. -/
def recomputeScores (w : Weights K) (rows : List SkillInput) :
    Option (List (Nat × List (BreakdownRow K))) :=
  (byUser rows).mapM fun u ↦ (playerBreakdown? pow u.2 w).map fun breakdown ↦ (u.1, breakdown)

end Scorer

end Genjishimada.Services
