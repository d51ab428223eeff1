import Genjishimada.Repository.MapPatching
import Genjishimada.Services.MapLinking

/-!
# `update_map` of `services/maps_service.py`

The whole call: the map is fetched and converted, one transaction writes what the request sets, and
the map is fetched and converted again.  `PatchFaults` has the points that may raise for a reason of
their own, an unknown map name among those of the transaction.
-/

namespace Genjishimada.Services.MapsService

open Library Sdk Repository

/-- `MapPatchRequest`; an `UNSET` field is `none`. -/
structure MapPatchRequest where
  code : Option String := none
  mapName : Option String := none
  category : Option String := none
  creators : Option (List Creator) := none
  checkpoints : Option Nat := none
  difficulty : Option DifficultyAll := none
  hidden : Option Bool := none
  official : Option Bool := none
  playtesting : Option PlaytestStatus := none
  archived : Option Bool := none
  mechanics : Option (Option (List String)) := none
  restrictions : Option (Option (List String)) := none
  tags : Option (Option (List String)) := none
  description : Option (Option String) := none
  medals : Option (Option MedalTimes) := none
  title : Option (Option String) := none
  customBanner : Option (Option String) := none
deriving DecidableEq, Repr

namespace MapPatchRequest

/-- What is set of the rows of one kind. -/
def labels (data : MapPatchRequest) : LabelKind → Option (Option (List String))
  | .mechanics => data.mechanics
  | .restrictions => data.restrictions
  | .tags => data.tags

/-- `core_updates`, of the columns that the other calls read too. -/
def core (data : MapPatchRequest) : Repository.MapPatchRequest where
  code := data.code
  mapName := data.mapName
  category := data.category
  difficulty := data.difficulty
  official := data.official
  archived := data.archived
  playtesting := data.playtesting
  rest := data.checkpoints.isSome || data.hidden.isSome || data.description.isSome ||
    data.title.isSome || data.customBanner.isSome || data.creators.isSome ||
    data.mechanics.isSome || data.restrictions.isSome || data.tags.isSome

/-- `core_updates`, of the columns that only describe the map. -/
def columns (data : MapPatchRequest) (m : MapDescription) : MapDescription :=
  { m with
    checkpoints := data.checkpoints.getD m.checkpoints
    hidden := data.hidden.getD m.hidden
    description := data.description.getD m.description
    customBanner := (data.customBanner.map normalizeCustomBanner).getD m.customBanner
    title := data.title.getD m.title }

end MapPatchRequest

/-- Why `update_map` raises. -/
inductive PatchError where
  | mapNotFound (code : Option String)
  | mapCodeExists (code : String)
  | duplicateCreator
  | creatorNotFound
  | duplicateMechanic
  | duplicateRestriction
  | duplicateTags
  | /-- A medal overflows its column. -/
    medalsOutOfRange
  | /-- A statement or the commit fails. -/
    database
  | /-- `fetch_maps`, or the conversion of what it returns. -/
    readFailed
deriving DecidableEq, Repr

/-! ## The transaction -/

/-- The handlers of `update_map` for `insert_creators`. -/
def refuseCreator : CreatorRefusal → PatchError
  | .duplicate => .duplicateCreator
  | .unknownUser => .creatorNotFound

/-- `if data.creators is not UNSET: …` -/
def patchCreators (mapId : Nat) (creators : Option (List Creator)) (t : MapTables) :
    Except PatchError MapTables :=
  match creators with
  | none => .ok t
  | some creators =>
      match (t.deleteCreators mapId).insertCreators mapId creators with
      | .ok t => .ok t
      | .error refusal => .error (refuseCreator refusal)

/-- `DuplicateMechanicError`, `DuplicateRestrictionError`, `DuplicateTagsError` -/
def duplicateLabel : LabelKind → PatchError
  | .mechanics => .duplicateMechanic
  | .restrictions => .duplicateRestriction
  | .tags => .duplicateTags

/-- `if data.mechanics is not UNSET: …`, and the same for restrictions and tags -/
def patchLabels (kind : LabelKind) (mapId : Nat) (names : Option (Option (List String)))
    (t : MapTables) : Except PatchError MapTables :=
  match names with
  | none => .ok t
  | some names =>
      let names := names.getD []
      if names.Nodup then .ok (MapTables.insertLabels kind (MapTables.deleteLabels kind t mapId) mapId names)
      else .error (duplicateLabel kind)

/-- `if data.medals is not UNSET: …` -/
def patchMedalTimes (mapId : Nat) (medals : Option (Option MedalTimes)) (t : MapTables) :
    Except PatchError MapTables :=
  match medals with
  | none => .ok t
  | some none => .ok { t with base := t.base.replaceMedals mapId none }
  | some (some medals) =>
      match medals.stored with
      | none => .error .medalsOutOfRange
      | some row => .ok { t with base := t.base.replaceMedals mapId (some row) }

/-- The statements of the transaction, for the map `original` of the code. -/
def updateMapTransaction (code : String) (original : CoreMap) (data : MapPatchRequest)
    (t : MapTables) : Except PatchError MapTables := do
  let thread := t.base.playtestThread original
  let t ← match t.updateCoreMap code original.id data.core data.columns with
    | some t => pure t
    | none => throw (.mapCodeExists (data.code.getD code))
  let t := { t with base := patchInitialDifficulty data.difficulty thread t.base }
  let t ← patchCreators original.id data.creators t
  let t ← patchLabels .mechanics original.id data.mechanics t
  let t ← patchLabels .restrictions original.id data.restrictions t
  let t ← patchLabels .tags original.id data.tags t
  patchMedalTimes original.id data.medals t

/-! ## The call -/

/-- The points of `update_map` that may raise. -/
structure PatchFaults where
  /-- The first `fetch_maps`. -/
  read : Bool := false
  /-- A statement of the transaction, or its commit. -/
  transaction : Bool := false
  /-- The second `fetch_maps`. -/
  reread : Bool := false
deriving DecidableEq, Repr

/-- `fetch_maps(single=True, code=code)`, converted to a `MapResponse`. -/
def readMap (textLe : String → String → Bool) (fails : Bool) (code : String) (t : MapTables) :
    Except PatchError MapResponse :=
  if fails then .error .readFailed
  else
    match fetchMap textLe t code with
    | some (some r) => .ok r
    | _ => .error .readFailed

/-- `update_map`: the tables that are committed, and the map after and before. -/
def updateMap (textLe : String → String → Bool) (faults : PatchFaults) (code : String)
    (data : MapPatchRequest) (t : MapTables) :
    MapTables × Except PatchError (MapResponse × MapResponse) :=
  match t.base.mapOfCode (some code) with
  | none => (t, .error (if faults.read then .readFailed else .mapNotFound (some code)))
  | some original =>
      match readMap textLe faults.read code t with
      | .error e => (t, .error e)
      | .ok before =>
          match if faults.transaction then .error .database
            else updateMapTransaction code original data t with
          | .error e => (t, .error e)
          | .ok updated =>
              (updated, (readMap textLe faults.reread (data.code.getD code) updated).map (·, before))

end Genjishimada.Services.MapsService
