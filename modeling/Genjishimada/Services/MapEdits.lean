import Genjishimada.Services.MapPatching
import Mathlib.Data.Finset.Dedup
import Mathlib.Data.String.Basic

/-!
# Edit requests of `services/maps_service.py`

A moderator is shown the fields a request changes, accepts it, and the newsfeed says what has been
changed: three comparisons of the proposed values with those of the map.  Accepting is not one
transaction.  The archive status, the other changes, the newsfeed entry and the verdict are each
committed when they are written, and `EditFaults` has the points in between that may raise.
-/

namespace Genjishimada.Services.MapsService

open Library Sdk Repository

/-! ## The request -/

/-- The fields an edit request can propose. -/
inductive EditField where
  | code | mapName | category | creators | checkpoints | difficulty | hidden | official | archived
  | labels (kind : LabelKind)
  | description | medals | title | customBanner
deriving DecidableEq, Repr

namespace EditField

/-- In the order of `MapPatchRequest`. -/
def all : List EditField :=
  [code, mapName, category, creators, checkpoints, difficulty, hidden, official, archived,
    labels .mechanics, labels .restrictions, labels .tags, description, medals, title, customBanner]

/-- The key in `proposed_changes`. -/
def name : EditField → String
  | code => "code"
  | mapName => "map_name"
  | category => "category"
  | creators => "creators"
  | checkpoints => "checkpoints"
  | difficulty => "difficulty"
  | hidden => "hidden"
  | official => "official"
  | archived => "archived"
  | labels .mechanics => "mechanics"
  | labels .restrictions => "restrictions"
  | labels .tags => "tags"
  | description => "description"
  | medals => "medals"
  | title => "title"
  | customBanner => "custom_banner"

/-- `_labelize`, the heading of a change. -/
def labelize (field : EditField) : String :=
  " ".intercalate ((field.name.splitOn "_").map String.capitalize)

/-- `_EXCLUDED_FIELDS`, of which `playtesting` cannot be proposed. -/
def excluded : EditField → Bool
  | hidden | official | archived => true
  | _ => false

theorem mem_all (field : EditField) : field ∈ all := by
  cases field with
  | labels kind => cases kind <;> decide
  | _ => decide

end EditField

/-- `MapEditCreateRequest`; an `UNSET` field is `none`. -/
structure MapEditCreateRequest where
  code : String
  reason : String
  createdBy : Nat
  newCode : Option String := none
  mapName : Option String := none
  category : Option String := none
  creators : Option (List Creator) := none
  checkpoints : Option Nat := none
  difficulty : Option DifficultyAll := none
  hidden : Option Bool := none
  archived : Option Bool := none
  official : Option Bool := none
  mechanics : Option (Option (List String)) := none
  restrictions : Option (Option (List String)) := none
  tags : Option (Option (List String)) := none
  description : Option (Option String) := none
  medals : Option (Option MedalTimes) := none
  title : Option (Option String) := none
  customBanner : Option (Option String) := none
deriving DecidableEq, Repr

/-- `to_changes_dict`, as `convert_changes_to_patch` reads it back. -/
def MapEditCreateRequest.toChangesDict (data : MapEditCreateRequest) : MapPatchRequest where
  code := data.newCode
  mapName := data.mapName
  category := data.category
  creators := data.creators
  checkpoints := data.checkpoints
  difficulty := data.difficulty
  hidden := data.hidden
  archived := data.archived
  official := data.official
  mechanics := data.mechanics
  restrictions := data.restrictions
  tags := data.tags
  description := data.description
  medals := data.medals
  title := data.title
  customBanner := data.customBanner

/-- A row of `maps.edit_requests` with all of its proposed changes. -/
structure MapEdit where
  id : Nat
  mapId : Nat
  code : Option String
  proposedChanges : MapPatchRequest
  reason : String
  createdBy : Nat
  accepted : Option Bool := none
  resolvedBy : Option Nat := none
  rejectionReason : Option String := none
deriving DecidableEq, Repr

instance : Keyed MapEdit := ⟨MapEdit.id⟩

/-! ## What the moderator is shown -/

/-- `(id, is_primary)` of two creators, in order. -/
def creatorLe (a b : Creator) : Bool :=
  decide (a.id < b.id) || decide (a.id = b.id) && (!a.isPrimary || b.isPrimary)

/-- `_normalize_creators_for_comparison` -/
def normalizeCreators (creators : List Creator) : List Creator := creators.mergeSort creatorLe

/-- A column of `maps.medals` and a proposed threshold. -/
def sameTime (cents : Option Int) (time : Rat) : Bool :=
  cents.any fun cents ↦ decide ((cents : Rat) / 100 = time)

/-- The row of `maps.medals` and the proposed medals. -/
def sameMedals : Option MedalThresholds → Option MedalTimes → Bool
  | none, none => true
  | some row, some medals =>
      sameTime row.gold medals.gold && sameTime row.silver medals.silver &&
        sameTime row.bronze medals.bronze
  | _, _ => false

/-- The comparison of `_build_field_changes` for one field, with the map as
`fetch_edit_submission` has it. -/
def showsChange (t : MapTables) (m : CoreMap) (proposed : MapPatchRequest) : EditField → Bool
  | .code => proposed.code.any fun code ↦ m.code ≠ some code
  | .mapName => proposed.mapName.any fun mapName ↦ m.mapName ≠ mapName
  | .category => proposed.category.any fun category ↦ m.category ≠ category
  | .creators => proposed.creators.any fun creators ↦
      normalizeCreators (t.describe m.id).creators ≠ normalizeCreators creators
  | .checkpoints => proposed.checkpoints.any fun n ↦ (t.describe m.id).checkpoints ≠ n
  | .difficulty => proposed.difficulty.any fun difficulty ↦ m.difficulty ≠ difficulty
  | .hidden => proposed.hidden.any fun hidden ↦ (t.describe m.id).hidden ≠ hidden
  | .official => proposed.official.any fun official ↦ m.official ≠ official
  | .archived => proposed.archived.any fun archived ↦ m.archived ≠ archived
  | .labels kind => (proposed.labels kind).any fun names ↦
      ((t.describe m.id).labels kind).toFinset ≠ (names.getD []).toFinset
  | .description => proposed.description.any fun text ↦ (t.describe m.id).description ≠ text
  | .medals => proposed.medals.any fun medals ↦ !sameMedals (t.base.db.medals.get? m.id) medals
  | .title => proposed.title.any fun title ↦ (t.describe m.id).title ≠ title
  | .customBanner => proposed.customBanner.any fun url ↦ (t.describe m.id).customBanner ≠ url

/-- `_build_field_changes`: the fields that are shown. -/
def buildFieldChanges (t : MapTables) (m : CoreMap) (proposed : MapPatchRequest) : List EditField :=
  EditField.all.filter (showsChange t m proposed)

/-! ## What the newsfeed says -/

/-- `_list_norm` -/
def listNorm (names : List String) : List String := names.mergeSort fun a b ↦ decide (a ≤ b)

/-- `MedalsResponse` of the map and the proposed one. -/
def sameMedalsResponse : Option MedalsResponse → Option MedalTimes → Bool
  | none, none => true
  | some old, some medals =>
      sameTime (some old.gold) medals.gold && sameTime (some old.silver) medals.silver &&
        sameTime (some old.bronze) medals.bronze
  | _, _ => false

/-- `generate_map_edit_newsfeed` for one field: it is set and not excluded, and `_values_equal` does
not hold.  A `MapResponse` has no `custom_banner`, which counts as `None`. -/
def publishesChange (code : Option String) (old : MapResponse) (patch : MapPatchRequest) :
    EditField → Bool
  | .code => patch.code.any fun new ↦ code ≠ some new
  | .mapName => patch.mapName.any fun mapName ↦ old.mapName ≠ mapName
  | .category => patch.category.any fun category ↦ old.category ≠ category
  | .creators => patch.creators.any fun creators ↦
      normalizeCreators old.creators ≠ normalizeCreators creators
  | .checkpoints => patch.checkpoints.any fun n ↦ old.checkpoints ≠ n
  | .difficulty => patch.difficulty.any fun difficulty ↦ old.difficulty ≠ difficulty
  | .hidden | .official | .archived => false
  | .labels kind => (patch.labels kind).any fun names ↦
      listNorm (old.labels kind) ≠ listNorm (names.getD [])
  | .description => patch.description.any fun text ↦ old.description ≠ text
  | .medals => patch.medals.any fun medals ↦ !sameMedalsResponse old.medals medals
  | .title => patch.title.any fun title ↦ old.title ≠ title
  | .customBanner => patch.customBanner.any (·.isSome)

/-- The fields that are published. -/
def mapEditChanges (code : Option String) (old : MapResponse) (patch : MapPatchRequest) :
    List EditField :=
  EditField.all.filter (publishesChange code old patch)

/-! ## Accepting a request -/

/-- A row of the newsfeed. -/
inductive NewsfeedEntry where
  | archive (code mapName : String) (difficulty : DifficultyAll)
  | unarchive (code mapName : String) (difficulty : DifficultyAll)
  | /-- `NewsfeedMapEdit`, with the labels of its changes. -/
    mapEdit (code : String) (changes : List String) (reason : String)
deriving DecidableEq, Repr

/-- What is committed.  `resolutions` counts how often a request has been resolved. -/
structure EditState where
  tables : MapTables := {}
  requests : Table MapEdit := .empty
  newsfeed : List NewsfeedEntry := []
  resolutions : Nat → Nat := fun _ ↦ 0

/-- Why `resolve_edit_request` raises. -/
inductive EditError where
  | editRequestNotFound (editId : Nat)
  | mapNotFound (code : Option String)
  | /-- `fetch_maps`, or the conversion of what it returns. -/
    readFailed
  | archiveFailed
  | newsfeedFailed
  | publishFailed
  | patch (e : PatchError)
  | resolveFailed
  | notificationFailed
deriving DecidableEq, Repr

/-- The points of `resolve_edit_request` that may raise. -/
structure EditFaults where
  /-- The first `fetch_maps`. -/
  read : Bool := false
  /-- The statement of `set_archive_status`. -/
  archive : Bool := false
  /-- Publishing `api.playtest.force_deny`. -/
  forceDeny : Bool := false
  /-- `fetch_maps` of the archived map. -/
  archivedRead : Bool := false
  /-- The newsfeed entry of the archived map, and its message. -/
  archiveInsert : Bool := false
  archivePublish : Bool := false
  patch : PatchFaults := {}
  /-- The newsfeed entry of the other changes, and its message. -/
  editInsert : Bool := false
  editPublish : Bool := false
  /-- The update of the request. -/
  resolve : Bool := false
  /-- `send_to_playtest`, which is only logged. -/
  playtest : Bool := false
  notification : Bool := false
  /-- Publishing `api.map_edit.resolved`. -/
  publish : Bool := false
deriving DecidableEq, Repr

abbrev Edit := EStateM EditError EditState

/-- `create_and_publish` of the newsfeed: a row, and then its message. -/
def createEntry (insertFails publishFails : Bool) (entry : NewsfeedEntry) : Edit Unit := do
  if insertFails then throw .newsfeedFailed
  modify fun s ↦ { s with newsfeed := s.newsfeed ++ [entry] }
  if publishFails then throw .publishFailed

/-- `fetch_maps(single=True, code=code)`, converted. -/
def readEdited (textLe : String → String → Bool) (fails : Bool) (code : String) :
    Edit MapResponse := do
  match readMap textLe fails code (← get).tables with
  | .ok r => return r
  | .error _ => throw .readFailed

/-- `NewsfeedArchive` or `NewsfeedUnarchive` -/
def archiveEntry (archived : Bool) (code : String) (r : MapResponse) : NewsfeedEntry :=
  if archived then .archive code r.mapName r.difficulty else .unarchive code r.mapName r.difficulty

/-- The statement of `set_archive_status`, of one code; says whether playtests are cancelled. -/
def writeArchiveStatus (fails : Bool) (code : String) (archived : Bool) : Edit Bool := do
  let t := (← get).tables
  match Services.setArchiveStatus [some code] archived t.base with
  | .error _ => throw (.mapNotFound (some code))
  | .ok base => do
      if fails then throw .archiveFailed
      modify fun s ↦ { s with tables := { s.tables with base } }
      return archived && t.base.metas.rows.any (t.base.endedBy [code])

/-- What others are told of it. -/
def tellArchived (textLe : String → String → Bool) (faults : EditFaults) (code : String)
    (archived affected : Bool) : Edit Unit := do
  if affected && faults.forceDeny then throw .publishFailed
  let r ← readEdited textLe faults.archivedRead code
  createEntry faults.archiveInsert faults.archivePublish (archiveEntry archived code r)

/-- `set_archive_status` -/
def setArchiveStatus (textLe : String → String → Bool) (faults : EditFaults) (code : String)
    (archived : Bool) : Edit Unit := do
  let affected ← writeArchiveStatus faults.archive code archived
  tellArchived textLe faults code archived affected

/-- `update_map` -/
def patchMap (textLe : String → String → Bool) (faults : PatchFaults) (code : String)
    (data : MapPatchRequest) : Edit Unit := do
  match updateMap textLe faults code data (← get).tables with
  | (tables, .ok _) => modify fun s ↦ { s with tables }
  | (tables, .error e) => do
      modify fun s ↦ { s with tables }
      throw (.patch e)

/-- `remaining_changes` -/
def MapPatchRequest.remaining (changes : MapPatchRequest) : MapPatchRequest :=
  { changes with archived := none }

/-- `generate_map_edit_newsfeed` -/
def generateMapEditNewsfeed (faults : EditFaults) (code : String) (old : MapResponse)
    (patch : MapPatchRequest) (reason : String) : Edit Unit :=
  match mapEditChanges (some code) old patch with
  | [] => pure ()
  | changes =>
      createEntry faults.editInsert faults.editPublish
        (.mapEdit code (changes.map EditField.labelize) reason)

/-- The changes but for the archive status, and what the newsfeed says of them. -/
def applyRemaining (textLe : String → String → Bool) (faults : EditFaults) (code : String)
    (original : MapResponse) (remaining : MapPatchRequest) (reason : String) : Edit Unit := do
  patchMap textLe faults.patch code remaining
  if remaining ≠ {} then generateMapEditNewsfeed faults code original remaining reason

/-- The changes of an accepted request, once its map is read. -/
def applyChanges (textLe : String → String → Bool) (faults : EditFaults) (code : String)
    (original : MapResponse) (edit : MapEdit) : Edit Unit :=
  let remaining := edit.proposedChanges.remaining
  match edit.proposedChanges.archived with
  | some archived => do
      setArchiveStatus textLe faults code archived
      if remaining ≠ {} then applyRemaining textLe faults code original remaining edit.reason
  | none => applyRemaining textLe faults code original remaining edit.reason

/-- `if accepted: …`.  With no code any map is fetched, and then none of that code is found. -/
def acceptChanges (textLe : String → String → Bool) (faults : EditFaults) (edit : MapEdit) :
    Edit Unit :=
  match edit.code with
  | none => throw (.mapNotFound none)
  | some code => do
      let original ← readEdited textLe faults.read code
      applyChanges textLe faults code original edit

/-- `get_edit_request` -/
def getEditRequest (editId : Nat) : Edit MapEdit := do
  match (← get).requests.get? editId with
  | some edit => return edit
  | none => throw (.editRequestNotFound editId)

/-- `resolve_edit_request` of the repository -/
def markResolved (fails : Bool) (editId : Nat) (accepted : Bool) (resolvedBy : Nat)
    (rejectionReason : Option String) : Edit Unit := do
  if fails then throw .resolveFailed
  modify fun s ↦
    { s with
      requests := s.requests.modify (fun e ↦ e.id = editId) fun e ↦
        { e with accepted := some accepted, resolvedBy := some resolvedBy, rejectionReason }
      resolutions := Function.update s.resolutions editId (s.resolutions editId + 1) }

/-- `send_to_playtest` after an edit, of which an exception is only logged. -/
def sendAfterEdit (textLe : String → String → Bool) (fails : Bool) (edit : MapEdit) : Edit Unit :=
  modify fun s ↦
    let difficulty := edit.proposedChanges.difficulty.or <|
      ((edit.code.bind fun code ↦ (readMap textLe false code s.tables).toOption).map (·.difficulty))
    match difficulty.map fun d ↦ Services.sendToPlaytest edit.code d s.tables.base with
    | some (.ok base) => if fails then s else { s with tables := { s.tables with base } }
    | _ => s

/-- The notification of the submitter, and `api.map_edit.resolved`. -/
def tellResolved (faults : EditFaults) : Edit Unit := do
  if faults.notification then throw .notificationFailed
  if faults.publish then throw .publishFailed

/-- `resolve_edit_request` -/
def resolveEditRequest (textLe : String → String → Bool) (faults : EditFaults) (editId : Nat)
    (accepted : Bool) (resolvedBy : Nat) (rejectionReason : Option String) (toPlaytest : Bool) :
    Edit Unit := do
  let edit ← getEditRequest editId
  if accepted then acceptChanges textLe faults edit
  markResolved faults.resolve editId accepted resolvedBy rejectionReason
  if accepted && toPlaytest then sendAfterEdit textLe faults.playtest edit
  tellResolved faults

end Genjishimada.Services.MapsService
