import Genjishimada.Library.Program
import Genjishimada.Repository.MapCreation
import Genjishimada.Services.Maps
import Genjishimada.Services.Rewards
import Mathlib.Data.List.Infix

/-!
# `create_map` of `services/maps_service.py`

The whole call with its effects: the rows of its transaction, the XP that `grant_user_xp`
adds on a connection of its own, and what is handed to `publish_message`.  A message is
recorded with the tables as everybody else sees them at that moment.  The calls that may raise
at an await point do so by a flag.
-/

namespace Genjishimada.Services

open Library Sdk Repository

/-- `PlaytestCreatedEvent` -/
structure PlaytestCreatedEvent where
  code : String
  playtestId : Nat
deriving DecidableEq, Repr

/-- What is handed to `publish_message`. -/
inductive MapMessage where
  | xpGrant (event : XpGrantEvent)
  | playtestCreate (event : PlaytestCreatedEvent)
  | /-- The newsfeed entry of a `NewsfeedNewMap`. -/
    newMap (code mapName : String) (difficulty : DifficultyAll) (official : Bool)
      (title : Option String)
  | /-- The newsfeed entry of a `NewsfeedLinkedMap`. -/
    linkedMap (officialCode unofficialCode : String)
deriving DecidableEq, Repr

/-- A message, and the tables without what a transaction has not committed. -/
structure Handover where
  message : MapMessage
  seen : MapTables

/-- `committed` is what others see, `tables` what the connection of the call sees. -/
structure CreationState where
  committed : MapTables := {}
  tables : MapTables := {}
  /-- `lootbox.xp` and the multiplier. -/
  lootbox : Db := {}
  handedOver : List Handover := []

/-- What the connection of the call sees from here on. -/
def CreationState.withTables (s : CreationState) (t : MapTables) : CreationState :=
  { s with tables := t }

/-- Why `create_map` and `link_map_codes` raise. -/
inductive CreationError where
  | mapCodeExists (code : String)
  | duplicateCreator
  | creatorNotFound
  | /-- `ValueError("No primary creator found.")` -/
    noPrimaryCreator
  | duplicateMechanic
  | duplicateRestriction
  | duplicateTags
  | /-- The commit of the transaction of `create_map` fails. -/
    commitFailed
  | /-- `fetch_maps`, or the conversion of what it returns. -/
    readFailed
  | /-- `create_and_publish` -/
    newsfeedFailed
  | linkedMap (message : String)
  | /-- An update of `linked_code`. -/
    updateFailed
deriving DecidableEq, Repr

abbrev Creation := EStateM CreationError CreationState

namespace MapsService

/-- `MapCreateRequest`; `archived` is not looked at. -/
structure MapCreateRequest extends Services.MapCreateRequest where
  creators : List Creator := []
  checkpoints : Nat := 1
  hidden : Bool := true
  mechanics : List String := []
  restrictions : List String := []
  tags : List String := []
  description : Option String := none
  guideUrl : Option String := none
  title : Option String := none
  customBanner : Option String := none
deriving DecidableEq, Repr

/-- `primary_creator_id`; `none` if it raises. -/
def MapCreateRequest.primaryCreatorId (data : MapCreateRequest) : Option Nat :=
  (data.creators.find? (·.isPrimary)).map (·.id)

/-- `if data.guide_url` -/
def MapCreateRequest.guide (data : MapCreateRequest) : Option String :=
  data.guideUrl.filter fun url ↦ url ≠ ""

/-- `_ASSET_BANNER_PATH` -/
def assetBannerPath : String := "/assets/map_banners/"

/-- `_ASSET_BANNER_PATH in url` -/
def isAssetBanner (url : String) : Bool := decide (assetBannerPath.toList <:+: url.toList)

/-- `_normalize_custom_banner` -/
def normalizeCustomBanner (url : Option String) : Option String :=
  url.filter fun url ↦ !isAssetBanner url

/-- The columns of `map_data` besides those of `row`. -/
def MapCreateRequest.columns (data : MapCreateRequest) : MapDescription where
  checkpoints := data.checkpoints
  hidden := data.hidden
  description := data.description
  customBanner := normalizeCustomBanner data.customBanner
  title := data.title

/-! ## The statements of `create_map` -/

/-- A statement on the connection of the call. -/
def execute (f : MapTables → MapTables) : Creation Unit :=
  modify fun s ↦ s.withTables (f s.tables)

/-- `publish_message` -/
def publish (message : MapMessage) : Creation Unit :=
  modify fun s ↦ { s with handedOver := s.handedOver ++ [⟨message, s.committed⟩] }

/-- `conn.transaction()` is entered. -/
def beginTransaction : Creation Unit := modify fun s ↦ s.withTables s.committed

/-- `conn.transaction()` is left. -/
def commit (fails : Bool) : Creation Unit :=
  if fails then throw .commitFailed else modify fun s ↦ { s with committed := s.tables }

/-- `create_core_map`, which returns the id of the map -/
def createCoreMap (data : MapCreateRequest) : Creation Nat := do
  let t := (← get).tables
  match t.createCoreMap data.code data.row (fun _ ↦ rfl) data.columns with
  | none => throw (.mapCodeExists data.code)
  | some created => do
      execute fun _ ↦ created
      return t.base.db.maps.nextId

/-- The handlers of `create_map` for `insert_creators`. -/
def handleCreator : CreatorRefusal → CreationError
  | .duplicate => .duplicateCreator
  | .unknownUser => .creatorNotFound

/-- `insert_creators` -/
def insertCreators (mapId : Nat) (creators : List Creator) : Creation Unit := do
  match (← get).tables.insertCreators mapId creators with
  | .error refusal => throw (handleCreator refusal)
  | .ok inserted => execute fun _ ↦ inserted

/-- `LootboxService.grant_user_xp`: committed and published at once -/
def grantUserXp (userId : Nat) (amount : Int) (type : XpType) : Creation Unit := do
  let s ← get
  let (event, lootbox) := lootboxGrantXp userId amount type none s.lootbox
  set { s with lootbox }
  publish (.xpGrant event)

/-- `XP_AMOUNTS["Guide"]` -/
def guideXp : Int := 35

/-- `if data.guide_url: …` -/
def insertGuide (data : MapCreateRequest) (mapId : Nat) : Creation Unit :=
  match data.guide with
  | none => pure ()
  | some url =>
      match data.primaryCreatorId with
      | none => throw .noPrimaryCreator
      | some userId => do
          execute fun t ↦ t.insertGuide mapId url userId
          grantUserXp userId guideXp .guide

/-- A list is inserted unless it has a duplicate; an empty one inserts nothing. -/
def insertDistinct (names : List String) (duplicate : CreationError)
    (insert : MapTables → List String → MapTables) : Creation Unit :=
  if names.Nodup then execute fun t ↦ insert t names else throw duplicate

/-- `create_playtest_meta_partial`, and the message; says whether there is a job. -/
def startPlaytest (data : MapCreateRequest) : Creation Bool :=
  if data.status = .inProgress then do
    let playtestId := (← get).tables.base.metas.nextId
    execute fun t ↦
      { t with
        base := t.base.createPlaytestMetaPartial data.code (difficultyMidpoint data.difficulty) }
    publish (.playtestCreate { code := data.code, playtestId })
    return true
  else return false

/-! ## `create_map` -/

/-- The await points of `create_map` that may raise, from its commit on. -/
structure CreateFaults where
  commit : Bool := false
  read : Bool := false
  newsfeed : Bool := false
deriving DecidableEq, Repr

/-- The transaction of `create_map`, from the mechanics on. -/
def insertRest (faults : CreateFaults) (data : MapCreateRequest) (mapId : Nat) : Creation Bool := do
  insertDistinct data.mechanics .duplicateMechanic fun t ↦ t.insertMechanics mapId
  insertDistinct data.restrictions .duplicateRestriction fun t ↦ t.insertRestrictions mapId
  insertDistinct data.tags .duplicateTags fun t ↦ t.insertTags mapId
  execute fun t ↦ { t with base := insertMedals mapId data.medals t.base }
  let jobStatus ← startPlaytest data
  commit faults.commit
  return jobStatus

/-- The transaction of `create_map`. -/
def createMapTransaction (faults : CreateFaults) (data : MapCreateRequest) : Creation Bool := do
  beginTransaction
  let mapId ← createCoreMap data
  insertCreators mapId data.creators
  insertGuide data mapId
  insertRest faults data mapId

/-- `create_and_publish` -/
def createAndPublish (fails : Bool) (entry : MapMessage) : Creation Unit :=
  if fails then throw .newsfeedFailed else publish entry

/-- `fetch_maps` by a code, of which the row of `core.maps` is returned. -/
def fetchCoreMap (fails : Bool) (code : String) : Creation CoreMap := do
  match (← get).committed.base.mapOfCode (some code) with
  | none => throw .readFailed
  | some m => if fails then throw .readFailed else return m

/-- `create_map`, once its transaction has committed. -/
def announceMap (faults : CreateFaults) (data : MapCreateRequest) : Creation Unit := do
  let m ← fetchCoreMap faults.read data.code
  if data.status = .approved then
    createAndPublish faults.newsfeed
      (.newMap data.code m.mapName m.difficulty data.official data.title)

/-- `create_map` -/
def createMap (faults : CreateFaults) (data : MapCreateRequest) : Creation Bool := do
  let jobStatus ← createMapTransaction faults data
  announceMap faults data
  return jobStatus

end MapsService

end Genjishimada.Services
