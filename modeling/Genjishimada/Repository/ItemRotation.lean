import Genjishimada.Migrations.ItemRotation

/-!
# `repository/store_repository.py`: the rotation of items

How a query collates text is an argument, as a reordering of its rows.
-/

namespace Genjishimada.Repository

open Library Migrations

/-- The rows that are on at `now`. -/
def activeItems (now : Int) (db : ItemDb) : List RotationRow :=
  db.rotations.select (availability.on now)

/-- `WITH current_rotation AS (…)` -/
def currentRotation (now : Int) (db : ItemDb) : List Nat :=
  availability.newest 1 (activeItems now db)

def fetchCurrentRotation (collate : Shuffle RotationRow) (now : Int) (db : ItemDb) :
    List RotationRow :=
  collate.order ((activeItems now db).filter fun r ↦ r.rotationId ∈ currentRotation now db)

def fetchRotationItem (itemName itemType keyType : String) (now : Int) (db : ItemDb) :
    Option RotationRow :=
  ((activeItems now db).filter fun r ↦ r.rotationId ∈ currentRotation now db).find? fun r ↦
    r.itemName = itemName ∧ r.itemType = itemType ∧ r.keyType = keyType

/-- `SET …` of the columns that are given; `none` if the check of the period fails. -/
def updateStoreConfig (rotationPeriodDays : Option Int) (activeKeyType : Option String)
    (db : ItemDb) : Option ItemDb :=
  let config := { db.config with activeKeyType := activeKeyType.getD db.config.activeKeyType }
  match rotationPeriodDays with
  | none => some { db with config }
  | some days =>
      if h : 0 < days then
        some { db with
          config := { config with rotationPeriodDays := days, rotationPeriodDays_check := h } }
      else none

end Genjishimada.Repository
