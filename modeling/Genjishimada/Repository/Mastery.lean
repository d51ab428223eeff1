import Genjishimada.Schema
import Genjishimada.Sdk.Mastery
import Mathlib.Data.List.Dedup

/-!
# Map mastery of `utilities/shared_queries.py` and `repository/maps_repository.py`

The amount of a map name is how many maps of that name a user has a row of `core.completions` on.
-/

namespace Genjishimada.Repository

open Library Sdk

/-- The tables of map mastery. -/
structure MasteryTables where
  db : Db := {}
  users : List Nat := []
  /-- `maps.names` -/
  names : List String := []
  /-- The medal of a row of `maps.mastery`, by its user and its map name. -/
  mastery : Nat → String → Option String := fun _ _ ↦ none

namespace MasteryTables

/-- `minimized_records`: the map name of each map the user has a completion on. -/
def minimizedRecords (t : MasteryTables) (userId : Nat) : List (Option String) :=
  (((t.db.coreCompletions.select fun c ↦ c.userId = userId).map (·.mapId)).dedup).map fun mapId ↦
    (t.db.maps.get? mapId).map (·.mapName)

/-- `map_counts` -/
def mapCount (t : MasteryTables) (userId : Nat) (mapName : String) : Nat :=
  (t.minimizedRecords userId).count (some mapName)

/-- `get_map_mastery_data`, with `textLe` for the collation. -/
def getMapMasteryData (textLe : String → String → Bool) (t : MasteryTables) (userId : Nat)
    (mapName : Option String) : List MapMasteryResponse :=
  ((t.names.filter fun name ↦ mapName.all (name = ·) && name ≠ "Adlersbrunn").mergeSort textLe).map
    fun name ↦ { mapName := name, amount := t.mapCount userId name }

/-- `upsert_map_mastery`, and the medal it returns, if it is another one. -/
def upsertMapMastery (t : MasteryTables) (mapName : String) (userId : Nat) (level : String) :
    Option String × MasteryTables :=
  (if t.mastery userId mapName = some level then none else some level,
    { t with
      mastery := Function.update t.mastery userId
        (Function.update (t.mastery userId) mapName (some level)) })

end MasteryTables

end Genjishimada.Repository
