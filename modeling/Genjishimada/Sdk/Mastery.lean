import Mathlib.Tactic.Common

/-!
# Map mastery of `maps.py` of the SDK
-/

namespace Genjishimada.Sdk

/-- The thresholds of `_level`. -/
def masteryThresholds : List (Nat × String) :=
  [(0, "Placeholder"), (5, "Rookie"), (10, "Explorer"), (15, "Trailblazer"), (20, "Pathfinder"),
    (25, "Specialist"), (30, "Prodigy")]

/-- `_level` -/
def masteryLevel (amount : Nat) : String :=
  masteryThresholds.foldl (fun iconName t ↦ if amount ≥ t.1 then t.2 else iconName) "Placeholder"

/-- `MapMasteryResponse`, of which `level` is computed. -/
structure MapMasteryResponse where
  mapName : String
  amount : Nat
deriving DecidableEq, Repr

def MapMasteryResponse.level (m : MapMasteryResponse) : String := masteryLevel m.amount

end Genjishimada.Sdk
