import Genjishimada.Services.MapCreation

/-!
# `link_map_codes` of `services/maps_service.py`

The map as `fetch_maps` returns it and `MapResponse` converts it, the request that clones it,
and the call that links two codes.  The clone is created by `create_map`, which commits; the two
updates of `linked_code` are statements of their own.  `textLe` is the collation, by which
`array_agg(DISTINCT …)` sorts.
-/

namespace Genjishimada.Services.MapsService

open Library Sdk Repository

/-- `get_map_banner` -/
def getMapBanner (mapName : String) : String :=
  "https://cdn.genji.pk" ++ assetBannerPath ++
    String.ofList ((mapName.toList.filter Char.isAlphanum).map Char.toLower) ++ ".png"

/-- The fields of `MapResponse` that `link_map_codes` reads. -/
structure MapResponse where
  mapName : String
  category : String
  creators : List Creator
  checkpoints : Nat
  difficulty : DifficultyAll
  guides : List String
  labels : LabelKind → List String
  description : Option String
  medals : Option MedalsResponse
  title : Option String
  mapBanner : String
  linkedCode : Option String

/-- `primary_creator_id`; `none` if it raises. -/
def MapResponse.primaryCreatorId (mapData : MapResponse) : Option Nat :=
  (mapData.creators.find? (·.isPrimary)).map (·.id)

/-- `array_agg(DISTINCT …)` -/
def arrayAggDistinct (textLe : String → String → Bool) (names : List String) : List String :=
  names.dedup.mergeSort textLe

/-- `creators.sort(key=lambda c: not c.is_primary)`, of creators that come by their id. -/
def sortCreators (creators : List Creator) : List Creator :=
  (creators.mergeSort fun a b ↦ decide (a.id ≤ b.id)).mergeSort fun a b ↦
    decide ((!a.isPrimary).toNat ≤ (!b.isPrimary).toNat)

/-- `MedalsResponse` of a row of `maps.medals`; `none` if it is not valid. -/
def convertMedals (md : MedalThresholds) : Option MedalsResponse :=
  match md.gold, md.silver, md.bronze with
  | some gold, some silver, some bronze =>
      if bronze > silver ∧ silver > gold then some { gold, silver, bronze } else none
  | _, _, _ => none

/-- What `fetch_maps` returns of a map, as a `MapResponse` with these medals. -/
def mapResponse (textLe : String → String → Bool) (t : MapTables) (m : CoreMap)
    (medals : Option MedalsResponse) : MapResponse where
  mapName := m.mapName
  category := m.category
  creators := sortCreators (t.describe m.id).creators
  checkpoints := (t.describe m.id).checkpoints
  difficulty := m.difficulty
  guides := arrayAggDistinct textLe ((t.describe m.id).guides.map Prod.fst)
  labels := fun kind ↦ arrayAggDistinct textLe ((t.describe m.id).labels kind)
  description := (t.describe m.id).description
  medals := medals
  title := (t.describe m.id).title
  mapBanner :=
    (((t.describe m.id).customBanner.filter fun url ↦ url ≠ "")).getD (getMapBanner m.mapName)
  linkedCode := t.base.linkedCode m.id

/-- `msgspec.convert(…, MapResponse)`; `none` if it raises. -/
def convertMap (textLe : String → String → Bool) (t : MapTables) (m : CoreMap) :
    Option MapResponse :=
  match t.base.db.medals.get? m.id with
  | none => some (mapResponse textLe t m none)
  | some md => (convertMedals md).map fun medals ↦ mapResponse textLe t m (some medals)

/-- The map of a code, if there is one; `none` if its conversion raises. -/
def fetchMap (textLe : String → String → Bool) (t : MapTables) (code : String) :
    Option (Option MapResponse) :=
  match t.base.mapOfCode (some code) with
  | none => some none
  | some m => (convertMap textLe t m).map some

/-- `_create_cloned_map_data_payload` -/
def createClonedMapDataPayload (mapData : MapResponse) (code : String) (isOfficial : Bool) :
    MapCreateRequest where
  code := code
  mapName := mapData.mapName
  category := mapData.category
  creators := mapData.creators
  checkpoints := mapData.checkpoints
  difficulty := mapData.difficulty
  official := isOfficial
  hidden := isOfficial
  playtesting := if isOfficial then .inProgress else .approved
  mechanics := mapData.labels .mechanics
  restrictions := mapData.labels .restrictions
  description := mapData.description
  medals := mapData.medals
  guideUrl := some (mapData.guides.head?.getD "")
  title := mapData.title
  customBanner := some mapData.mapBanner

/-! ## `link_map_codes` -/

structure LinkMapsCreateRequest where
  officialCode : String
  unofficialCode : String
deriving DecidableEq, Repr

/-- The await points of `link_map_codes` that may raise. -/
structure LinkFaults where
  read : Bool := false
  create : CreateFaults := {}
  firstUpdate : Bool := false
  secondUpdate : Bool := false
  newsfeed : Bool := false
deriving DecidableEq, Repr

/-- `if map.linked_code: raise LinkedMapError(…)` -/
def refuseLinked (kind code : String) (mapData : Option MapResponse) : Creation Unit :=
  match (mapData.bind (·.linkedCode)).filter fun linkedCode ↦ linkedCode ≠ "" with
  | some linkedCode => throw (.linkedMap s!"{kind} map {code} is already linked to {linkedCode}")
  | none => pure ()

/-- What is committed has this database. -/
def withBase (s : CreationState) (base : PlaytestDb) : CreationState :=
  { s with committed := { s.committed with base } }

/-- `UPDATE core.maps SET linked_code = … WHERE code = …` -/
def updateLinkedCode (fails : Bool) (code linkedCode : String) : Creation Unit := do
  let s ← get
  match if fails then none else s.committed.base.updateLinkedCode code (some linkedCode) with
  | none => throw .updateFailed
  | some base => set (withBase s base)

/-- `link_map_codes` of the repository, in no transaction -/
def linkRows (faults : LinkFaults) (code1 code2 : String) : Creation Unit := do
  updateLinkedCode faults.firstUpdate code1 code2
  updateLinkedCode faults.secondUpdate code2 code1

/-- The two updates, and the newsfeed entry: with a playtest, a task of its own publishes it. -/
def linkAndAnnounce (faults : LinkFaults) (data : LinkMapsCreateRequest)
    (inPlaytest jobStatus : Bool) : Creation Bool := do
  linkRows faults data.officialCode data.unofficialCode
  if !(inPlaytest && jobStatus) then
    createAndPublish faults.newsfeed (.linkedMap data.officialCode data.unofficialCode)
  return jobStatus

/-- Creates the map that is missing, and links the two. -/
def cloneAndLink (faults : LinkFaults) (data : LinkMapsCreateRequest) (payload : MapCreateRequest)
    (inPlaytest : Bool) : Creation Bool := do
  let jobStatus ← createMap faults.create payload
  linkAndAnnounce faults data inPlaytest jobStatus

/-- `link_map_codes`, once the maps are there and not linked; says whether there is a job. -/
def linkFetched (faults : LinkFaults) (data : LinkMapsCreateRequest)
    (officialMap unofficialMap : Option MapResponse) : Creation Bool :=
  match officialMap, unofficialMap with
  | none, none =>
      throw (.linkedMap
        "At least one of official_code or unofficial_code must refer to an existing map.")
  | some officialMap, none =>
      cloneAndLink faults data
        (createClonedMapDataPayload officialMap data.unofficialCode false) false
  | none, some unofficialMap =>
      cloneAndLink faults data
        (createClonedMapDataPayload unofficialMap data.officialCode true) true
  | some _, some _ => linkAndAnnounce faults data false false

/-- `link_map_codes` -/
def linkMapCodes (textLe : String → String → Bool) (faults : LinkFaults)
    (data : LinkMapsCreateRequest) : Creation Bool := do
  let t := (← get).committed
  if faults.read then throw .readFailed
  match fetchMap textLe t data.officialCode, fetchMap textLe t data.unofficialCode with
  | some officialMap, some unofficialMap => do
      refuseLinked "Official" data.officialCode officialMap
      refuseLinked "Unofficial" data.unofficialCode unofficialMap
      linkFetched faults data officialMap unofficialMap
  | _, _ => throw .readFailed

end Genjishimada.Services.MapsService
