import Genjishimada.Sdk.Events

/-!
# `genjishimada_sdk`: medals and quests

The requirement and the progress of a quest are `jsonb`; here they are structures
with the keys the store service reads or changes.  The keys that are only displayed
(`target`, `percentage`, who the rival is) are left out.  Times and targets are hundredths of
a second, and a target need not be a whole number of them.
-/

namespace Genjishimada.Sdk

/-- The three medals, best first. -/
inductive Medal where
  | gold
  | silver
  | bronze
deriving DecidableEq, Repr

/-- `str(medal).lower()` -/
def Medal.lower : Medal → String
  | .gold => "gold"
  | .silver => "silver"
  | .bronze => "bronze"

/-- The text of a top-level difficulty. -/
def DifficultyTop.label : DifficultyTop → String
  | .easy => "Easy"
  | .medium => "Medium"
  | .hard => "Hard"
  | .veryHard => "Very Hard"
  | .extreme => "Extreme"
  | .hell => "Hell"

/-- `requirements["type"]`; an unknown type matches no handler. -/
inductive QuestType where
  | completeMaps
  | earnMedals
  | completeDifficultyRange
  | beatTime
  | beatRival
  | completeMap
  | unknown
deriving DecidableEq, Repr

/-- `QuestRequirements` -/
structure QuestRequirements where
  type : QuestType
  count : Nat := 0
  minCount : Nat := 0
  difficulty : Option String := none
  category : Option String := none
  medalType : Option String := none
  mapId : Option Nat := none
  targetTime : Option Rat := none
  currentBest : Option Rat := none
  rivalTime : Option Rat := none
deriving DecidableEq, Repr

/-- `QuestProgress` -/
structure QuestProgress where
  current : Nat := 0
  completedMapIds : List Nat := []
  countedMapIds : List Nat := []
  /-- How many maps of each difficulty, by its text. -/
  details : List (String × Nat) := []
  medals : List (Nat × Option Medal) := []
  bestAttempt : Option Rat := none
  lastAttempt : Option Rat := none
  completed : Bool := false
  medalEarned : Option Medal := none
deriving DecidableEq, Repr

/-- The `event_data` of a `completion` event.  Un-verifying a run sends no medal. -/
structure CompletionEventData where
  mapId : Nat
  difficulty : DifficultyTop
  category : String
  time : Int
  medal : Option Medal := none
deriving DecidableEq, Repr

end Genjishimada.Sdk
