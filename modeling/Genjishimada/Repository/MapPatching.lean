import Genjishimada.Library.Rounding
import Genjishimada.Repository.MapCreation

/-!
# What an update of a map writes

The medal thresholds as a request has them and as `maps.medals` stores them, and the statements of
`repository/maps_repository.py` that `update_map` runs besides those of `create_map`.
-/

namespace Genjishimada.Repository

open Library Sdk

/-- `MedalsResponse` of a request, which its `__post_init__` has accepted.  A `float` stands here
for the number that `str` shows of it, which is what the codec of `numeric` sends. -/
structure MedalTimes where
  gold : Rat
  silver : Rat
  bronze : Rat
  silver_lt_bronze : silver < bronze
  gold_lt_silver : gold < silver
deriving DecidableEq, Repr

/-- A threshold as the column `numeric(10, 2)` holds it, in hundredths. -/
def hundredths (time : Rat) : Int := roundAway (time * 100)

/-- A `numeric(10, 2)` has eight digits before the point. -/
def fitsNumeric (cents : Int) : Bool := decide (cents.natAbs < 10 ^ 10)

/-- The thresholds that are stored; `none` if one overflows its column. -/
def MedalTimes.stored (medals : MedalTimes) : Option MedalsResponse :=
  let row : MedalsResponse :=
    { gold := hundredths medals.gold, silver := hundredths medals.silver
      bronze := hundredths medals.bronze }
  if fitsNumeric row.gold && fitsNumeric row.silver && fitsNumeric row.bronze then some row else none

namespace MapTables

/-- `update_core_map`, with `columns` for those that only describe the map; `none` if the new code
is refused. -/
def updateCoreMap (t : MapTables) (code : String) (mapId : Nat) (updates : MapPatchRequest)
    (columns : MapDescription → MapDescription) : Option MapTables :=
  (t.base.updateCoreMap code updates).map fun base ↦ ({ t with base }).redescribe mapId columns

/-- `delete_creators` -/
def deleteCreators (t : MapTables) (mapId : Nat) : MapTables :=
  t.redescribe mapId fun m ↦ { m with creators := [] }

/-- What `delete_mechanics`, `delete_restrictions` and `delete_tags` do. -/
def deleteLabels (kind : LabelKind) (t : MapTables) (mapId : Nat) : MapTables :=
  t.redescribe mapId fun m ↦ { m with labels := Function.update m.labels kind [] }

/-- `delete_mechanics` -/
def deleteMechanics : MapTables → Nat → MapTables := deleteLabels .mechanics

/-- `delete_restrictions` -/
def deleteRestrictions : MapTables → Nat → MapTables := deleteLabels .restrictions

/-- `delete_tags` -/
def deleteTags : MapTables → Nat → MapTables := deleteLabels .tags

end MapTables

end Genjishimada.Repository
