import Genjishimada.Repository.Bounties
import Genjishimada.Services.QuestClaims
import Genjishimada.Services.Store

/-!
# `services/store_service.py`: drawing a bounty

The three generators and how they fall back on one another.  The outcomes of `random` are
arguments; `random.choice` of a list is the entry at an index, modulo its length.
-/

namespace Genjishimada.Services

open Library Sdk Repository

inductive BountyType where
  | personalImprovement
  | rivalChallenge
  | gapFilling
deriving DecidableEq, Repr

/-- What is drawn at random. -/
structure BountyDraw where
  bountyType : BountyType
  completion : Nat := 0
  rivals : Shuffle Nat := default
  rival : Nat := 0
  rivalMap : Shuffle BeatableMap := default
  uncompleted : Shuffle CoreMap := default
  uncompletedMap : Nat := 0

/-- `random.choice`, or `none` of an empty list. -/
def choice {α : Type} (index : Nat) (l : List α) : Option α := l[index % l.length]?

/-- A quest worth three hundred coins. -/
def bountyQuest (name description bountyType : String) (requirements : QuestRequirements) : QuestData where
  name := name
  description := description
  difficulty := "bounty"
  coinReward := 300
  xpReward := 50
  bountyType := some bountyType
  requirements := requirements

/-! ## Gap filling -/

def generateGapFillingBounty (userId : Nat) (draw : BountyDraw) (db : Db) : QuestData :=
  match choice draw.uncompletedMap (getUncompletedMaps userId draw.uncompleted db) with
  | none =>
      bountyQuest "Explore New Territory" "Complete a new map" "gap_filling"
        { type := .completeMap, mapId := some 0 }
  | some targetMap =>
      bountyQuest "Explore New Territory" ("Complete " ++ targetMap.code.getD "") "gap_filling"
        { type := .completeMap, mapId := some targetMap.id }

/-! ## Personal improvement -/

/-- The best medal whose threshold the time does not beat. A threshold of zero counts as none. -/
def medalTarget (thresholds : Option MedalThresholds) (time : Int) : Option (Medal × Rat) :=
  [(Medal.gold, thresholds.bind MedalThresholds.gold),
    (Medal.silver, thresholds.bind MedalThresholds.silver),
    (Medal.bronze, thresholds.bind MedalThresholds.bronze)].findSome? fun m ↦
      m.2.bind fun threshold ↦
        if threshold ≠ 0 ∧ threshold < time then some (m.1, (threshold : Rat)) else none

/-- The target before it is compared with the user's best, and the medal it earns.  A percentile of
zero counts as none. -/
def suggestedTarget (c : UserCompletion) (db : Db) : Option (Rat × Option Medal) :=
  let percentileTarget := (getPercentileTargetTime c.map.id (3 / 5) db).filter fun t ↦ t ≠ 0
  match medalTarget (getMedalThresholds c.map.id db) c.time, percentileTarget with
  | some (medal, m), some p => some (max m p, if max m p = m then some medal else none)
  | some (medal, m), none => some (m, some medal)
  | none, some p => some (p, none)
  | none, none => none

/-- Nine tenths of the best time, unless the suggested target is below it. -/
def targetTime (c : UserCompletion) (db : Db) : Rat × Option Medal :=
  match suggestedTarget c db with
  | some (t, medal) => if (c.time : Rat) ≤ t then (c.time * (9 / 10), none) else (t, medal)
  | none => (c.time * (9 / 10), none)

def generatePersonalImprovementBounty (userId : Nat) (draw : BountyDraw) (db : Db) : QuestData :=
  match choice draw.completion (getUserCompletions userId db) with
  | none => generateGapFillingBounty userId draw db
  | some c =>
      bountyQuest "Beat Your Best" ("Improve your time on " ++ c.map.code.getD "")
        "personal_improvement"
        { type := .beatTime, mapId := some c.map.id, targetTime := some (targetTime c db).1
          currentBest := some c.time, medalType := (targetTime c db).2.map Medal.lower }

/-! ## Rival challenge -/

/-- A random rival, and a random map on which they can be beaten. -/
def drawRival (userId : Nat) (users : List Nat) (draw : BountyDraw) (db : Db) :
    Option (Nat × BeatableMap) :=
  let rivals := findRivals userId (getUserSkillRank userId db) users draw.rivals db
  (choice draw.rival rivals).bind fun rival ↦
    (findBeatableRivalMap userId rival draw.rivalMap db).map fun targetMap ↦ (rival, targetMap)

def generateRivalChallengeBounty (userId : Nat) (users : List Nat) (draw : BountyDraw) (db : Db) :
    QuestData :=
  match drawRival userId users draw db with
  | none => generatePersonalImprovementBounty userId draw db
  | some (rival, targetMap) =>
      bountyQuest "Rival Challenge"
        ("Beat " ++ db.userName rival ++ "'s time on " ++ targetMap.map.code.getD "") "rival_challenge"
        { type := .beatRival, mapId := some targetMap.map.id, rivalTime := some targetMap.rivalTime
          targetTime := some targetMap.rivalTime }

def generateBountyForUser (userId : Nat) (users : List Nat) (draw : BountyDraw) (db : Db) : QuestData :=
  match draw.bountyType with
  | .personalImprovement => generatePersonalImprovementBounty userId draw db
  | .rivalChallenge => generateRivalChallengeBounty userId users draw db
  | .gapFilling => generateGapFillingBounty userId draw db

end Genjishimada.Services
