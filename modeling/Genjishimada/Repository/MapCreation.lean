import Genjishimada.Repository.MapLinks

/-!
# A map and the rows that describe it

The statements of `repository/maps_repository.py` that `create_map` runs, over the database
with the other columns of `core.maps` and the tables that refer to a map.  A new map has no
rows in these, so that of their keys only a creator who is named twice can be violated.
-/

namespace Genjishimada.Repository

open Library Sdk

/-- `Creator` -/
structure Creator where
  id : Nat
  isPrimary : Bool
deriving DecidableEq, Repr

/-- The tables whose rows a map is linked with by their name. -/
inductive LabelKind where
  | mechanics | restrictions | tags
deriving DecidableEq, Repr

/-- The columns of `core.maps` that the other calls leave alone, and the rows that refer to the
map. -/
structure MapDescription where
  checkpoints : Nat := 1
  hidden : Bool := true
  description : Option String := none
  customBanner : Option String := none
  title : Option String := none
  creators : List Creator := []
  /-- The URL and the user of each row of `maps.guides`. -/
  guides : List (String × Nat) := []
  labels : LabelKind → List String := fun _ ↦ []

/-- The tables `create_map` reads and writes. -/
structure MapTables where
  base : PlaytestDb := {}
  /-- By the id of the map. -/
  describe : Nat → MapDescription := fun _ ↦ {}
  /-- `core.users` -/
  users : List Nat := []
  /-- The names in `maps.mechanics`, `maps.restrictions` and `maps.tags`. -/
  names : LabelKind → List String := fun _ ↦ []

/-- Why a row of `maps.creators` is refused. -/
inductive CreatorRefusal where
  | /-- `creators_pkey` -/
    duplicate
  | /-- `creators_user_id_fkey` -/
    unknownUser
deriving DecidableEq, Repr

namespace MapTables

/-- An update of what describes one map. -/
def redescribe (t : MapTables) (mapId : Nat) (f : MapDescription → MapDescription) : MapTables :=
  { t with describe := Function.update t.describe mapId (f (t.describe mapId)) }

/-- `create_core_map`; `none` if the code is taken. -/
def createCoreMap (t : MapTables) (code : String) (mk : Nat → CoreMap)
    (hk : ∀ n, key (mk n) = n) (columns : MapDescription) : Option MapTables :=
  if (t.base.mapOfCode (some code)).isSome then none
  else
    some { t with
      base := t.base.createCoreMap mk hk
      describe := Function.update t.describe t.base.db.maps.nextId columns }

/-- `insert_creators` after those of `earlier`: one row after the other, up to the first that is
refused. -/
def creatorRefusal (users : List Nat) (earlier : List Nat) : List Creator → Option CreatorRefusal
  | [] => none
  | c :: creators =>
      if c.id ∈ earlier then some .duplicate
      else if c.id ∉ users then some .unknownUser
      else creatorRefusal users (c.id :: earlier) creators

/-- `insert_creators` -/
def insertCreators (t : MapTables) (mapId : Nat) (creators : List Creator) :
    Except CreatorRefusal MapTables :=
  match creatorRefusal t.users ((t.describe mapId).creators.map (·.id)) creators with
  | some refusal => .error refusal
  | none => .ok (t.redescribe mapId fun m ↦ { m with creators := m.creators ++ creators })

/-- `insert_guide`, for a URL that is not empty -/
def insertGuide (t : MapTables) (mapId : Nat) (url : String) (userId : Nat) : MapTables :=
  if userId = 0 then t
  else t.redescribe mapId fun m ↦ { m with guides := m.guides ++ [(url, userId)] }

/-- What `insert_mechanics`, `insert_restrictions` and `insert_tags` do: a name that the table
does not have is passed over. -/
def insertLabels (kind : LabelKind) (t : MapTables) (mapId : Nat) (names : List String) :
    MapTables :=
  t.redescribe mapId fun m ↦
    { m with
      labels := Function.update m.labels kind
        (m.labels kind ++ (t.names kind).filter fun name ↦ name ∈ names) }

/-- `insert_mechanics` -/
def insertMechanics : MapTables → Nat → List String → MapTables := insertLabels .mechanics

/-- `insert_restrictions` -/
def insertRestrictions : MapTables → Nat → List String → MapTables := insertLabels .restrictions

/-- `insert_tags` -/
def insertTags : MapTables → Nat → List String → MapTables := insertLabels .tags

end MapTables

end Genjishimada.Repository
