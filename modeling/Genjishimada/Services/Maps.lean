import Genjishimada.Repository.Maps

/-!
# `services/maps_service.py` and the verdicts of `services/playtest_service.py`

What the calls do to the maps, the playtests, the medals and the edit requests.  A call that
is one transaction returns the database or an error, and an error leaves everything as it
was; `approve` and `resolve_edit_request`, which may raise after a commit, return both.
Messages, newsfeed entries and the rows that only describe a map (creators, mechanics, tags)
are left out.
-/

namespace Genjishimada.Services

open Library Sdk Repository

/-- The errors of the map and playtest services, with the context each carries. -/
inductive MapError where
  | mapNotFound (code : Option String)
  | mapCodeExists (code : String)
  | alreadyInPlaytest (code : String)
  | mapValidation (message field : String)
  | playtestNotFound (threadId : Nat)
  | playtestState (message : String)
  | /-- `msgspec.convert` of a map that was not found. -/
    conversion
  | /-- A unique index without a handler of its own. -/
    uniqueViolation
  | mapNotArchived (code : String)
  | unresolvedChangeRequests (code : String)
  | editRequestNotFound (editId : Nat)
  | pendingEditRequestExists (code : String) (existingId : Nat)
deriving DecidableEq, Repr

/-! ## `maps_service.py` -/

/-- The part of `MapCreateRequest` that ends up in `core.maps`, and the medals. -/
structure MapCreateRequest where
  code : String
  mapName : String := ""
  category : String := ""
  difficulty : DifficultyAll
  official : Bool := true
  playtesting : PlaytestStatus := .inProgress
  medals : Option MedalsResponse := none
deriving DecidableEq, Repr

/-- A map that is not official is never in playtesting. -/
def MapCreateRequest.status (data : MapCreateRequest) : PlaytestStatus :=
  if data.official then data.playtesting else .approved

/-- The row of `map_data`. -/
def MapCreateRequest.row (data : MapCreateRequest) (id : Nat) : CoreMap :=
  setRawDifficulty (difficultyMidpoint data.difficulty)
    { id, code := some data.code, mapName := data.mapName, category := data.category
      difficulty := data.difficulty, official := data.official, playtesting := data.status }

/-- `if data.medals: …` -/
def insertMedals (mapId : Nat) (medals : Option MedalsResponse) (d : PlaytestDb) : PlaytestDb :=
  if medals.isSome then d.replaceMedals mapId medals else d

/-- `create_map` -/
def createMap (data : MapCreateRequest) (d : PlaytestDb) : Except MapError PlaytestDb :=
  if (d.mapOfCode (some data.code)).isSome then .error (.mapCodeExists data.code)
  else
    let created := insertMedals d.db.maps.nextId data.medals (d.createCoreMap data.row)
    if data.status = .inProgress then
      .ok (created.createPlaytestMetaPartial data.code (difficultyMidpoint data.difficulty))
    else .ok created

/-- A patch of the difficulty reaches the open playtest of the map, if it has a thread. -/
def patchInitialDifficulty (difficulty : Option DifficultyAll) (threadId : Option Nat)
    (d : PlaytestDb) : PlaytestDb :=
  match difficulty, threadId with
  | some difficulty, some threadId =>
      d.updatePlaytestInitialDifficulty threadId (difficultyMidpoint difficulty)
  | _, _ => d

/-- `if data.medals is not UNSET: …` -/
def patchMedals (mapId : Nat) (medals : Option (Option MedalsResponse)) (d : PlaytestDb) :
    PlaytestDb :=
  match medals with
  | some medals => d.replaceMedals mapId medals
  | none => d

/-- `update_map` -/
def updateMap (code : Option String) (data : MapPatchRequest) (d : PlaytestDb) :
    Except MapError PlaytestDb :=
  match code, d.mapOfCode code with
  | some c, some original =>
      match d.updateCoreMap c data with
      | none => .error (.mapCodeExists (data.code.getD c))
      | some updated =>
          .ok (patchMedals original.id data.medals
            (patchInitialDifficulty data.difficulty (d.playtestThread original) updated))
  | _, _ => .error (.mapNotFound code)

/-- `set_archive_status` -/
def setArchiveStatus (codes : List (Option String)) (archived : Bool) (d : PlaytestDb) :
    Except MapError PlaytestDb :=
  match codes.find? fun code ↦ (d.lookupMapId code).isNone with
  | some code => .error (.mapNotFound code)
  | none => .ok (d.setArchiveStatus codes.reduceOption archived)

/-- `_convert_to_legacy_internal` -/
def convertToLegacyInternal (code : String) (d : PlaytestDb) : Except MapError PlaytestDb :=
  if d.checkPendingVerifications code then
    .error (.mapValidation "Pending verifications exist for this map code." "code")
  else .ok ((d.removeMapMedalEntries code).convertCompletionsToLegacy code)

/-- `convert_to_legacy` -/
def convertToLegacy (code : String) (d : PlaytestDb) : Except MapError PlaytestDb :=
  if (d.lookupMapId (some code)).isNone then .error (.mapNotFound (some code))
  else convertToLegacyInternal code d

/-- `send_to_playtest` -/
def sendToPlaytest (code : Option String) (initialDifficulty : DifficultyAll) (d : PlaytestDb) :
    Except MapError PlaytestDb :=
  match code, d.mapOfCode code with
  | some c, some m =>
      if m.playtesting = .inProgress then .error (.alreadyInPlaytest c)
      else
        match convertToLegacyInternal c d with
        | .error e => .error e
        | .ok converted =>
            match converted.updateCoreMap c { playtesting := some .inProgress } with
            | none => .error .uniqueViolation
            | some updated =>
                .ok (updated.createPlaytestMetaPartial c (difficultyMidpoint initialDifficulty))
  | _, _ => .error (.mapNotFound code)

/-- `release_code` -/
def releaseCode (code : String) (hasOpenChangeRequests : Bool) (d : PlaytestDb) :
    Except MapError PlaytestDb :=
  match d.mapOfCode (some code) with
  | some m =>
      if !m.archived then .error (.mapNotArchived code)
      else if hasOpenChangeRequests then .error (.unresolvedChangeRequests code)
      else .ok (d.releaseCode code m.id)
  | none => .error (.mapNotFound (some code))

/-! ## Edit requests -/

/-- `create_edit_request` -/
def createEditRequest (code : String) (proposedChanges : MapPatchRequest) (createdBy : Nat)
    (d : PlaytestDb) : Except MapError PlaytestDb :=
  match d.lookupMapId (some code) with
  | none => .error (.mapNotFound (some code))
  | some mapId =>
      match d.checkPendingEditRequest mapId with
      | some existingId => .error (.pendingEditRequestExists code existingId)
      | none => .ok (d.createEditRequest mapId code proposedChanges createdBy)

/-- `remaining_changes` -/
def remainingChanges (p : MapPatchRequest) : MapPatchRequest := { p with archived := none }

/-- No change remains. -/
def noneRemain (p : MapPatchRequest) : Bool := (remainingChanges p).coreEmpty && p.medals.isNone

/-- The map of the request is fetched by its code.  Without a code any map is found, and then
none to change. -/
def fetchOriginal (e : EditRequest) (d : PlaytestDb) : Except MapError Unit :=
  match e.code with
  | none => .error (.mapNotFound none)
  | some code => if (d.mapOfCode (some code)).isNone then .error .conversion else .ok ()

/-- The transaction of the archive change. -/
def applyArchive (e : EditRequest) (d : PlaytestDb) : Except MapError PlaytestDb :=
  match e.proposedChanges.archived with
  | some archived => setArchiveStatus [e.code] archived d
  | none => .ok d

/-- The transaction of the other changes. -/
def applyRemaining (e : EditRequest) (d : PlaytestDb) : Except MapError PlaytestDb :=
  if e.proposedChanges.archived.isSome && noneRemain e.proposedChanges then .ok d
  else updateMap e.code (remainingChanges e.proposedChanges) d

/-- The changes of an accepted request; the first transaction stays if the second fails. -/
def applyChanges (e : EditRequest) (d : PlaytestDb) : PlaytestDb × Option MapError :=
  match fetchOriginal e d with
  | .error err => (d, some err)
  | .ok _ =>
      match applyArchive e d with
      | .error err => (d, some err)
      | .ok archived =>
          match applyRemaining e archived with
          | .error err => (archived, some err)
          | .ok applied => (applied, none)

/-- The map is sent to playtest by the code of the request; an error is only logged. -/
def sendAfterEdit (e : EditRequest) (d : PlaytestDb) : PlaytestDb :=
  match e.proposedChanges.difficulty.or ((d.mapOfCode e.code).map (·.difficulty)) with
  | none => d
  | some difficulty =>
      match sendToPlaytest e.code difficulty d with
      | .ok sent => sent
      | .error _ => d

/-- `resolve_edit_request` -/
def resolveEditRequest (editId : Nat) (accepted : Bool) (resolvedBy : Nat)
    (rejectionReason : Option String) (toPlaytest : Bool) (d : PlaytestDb) :
    PlaytestDb × Option MapError :=
  match d.editRequests.get? editId with
  | none => (d, some (.editRequestNotFound editId))
  | some e =>
      let changed := if accepted then applyChanges e d else (d, none)
      match changed.2 with
      | some err => (changed.1, some err)
      | none =>
          let resolved := changed.1.resolveEditRequest editId accepted resolvedBy rejectionReason
          (if accepted && toPlaytest then sendAfterEdit e resolved else resolved, none)

/-! ## `playtest_service.py` -/

/-- `associate_playtest_meta` -/
def associatePlaytestMeta (playtestId threadId : Nat) (d : PlaytestDb) : Except MapError PlaytestDb :=
  match d.associateThread playtestId threadId with
  | some associated => .ok associated
  | none => .error .uniqueViolation

/-- `approve`: the event needs the map's code and its primary creator, which are only looked
at after the commit. -/
def approve (threadId : Nat) (hasPrimaryCreator : Bool) (d : PlaytestDb) :
    PlaytestDb × Option MapError :=
  match d.getMapIdFromThread threadId with
  | none => (d, some (.playtestNotFound threadId))
  | some mapId =>
      match d.getAverageDifficulty threadId with
      | none => (d, some (.playtestState "Cannot approve playtest with no votes."))
      | some difficulty =>
          let approved := d.approvePlaytest mapId threadId difficulty
          if ((approved.db.maps.get? mapId).bind (·.code)).isNone then
            (approved, some (.playtestState "Map code not found for playtest."))
          else if !hasPrimaryCreator then
            (approved, some (.playtestState "Primary creator not found for map."))
          else (approved, none)

/-- `force_accept` -/
def forceAccept (threadId : Nat) (difficulty : DifficultyAll) (d : PlaytestDb) :
    Except MapError PlaytestDb :=
  match d.getMapIdFromThread threadId with
  | some mapId => .ok (d.approvePlaytest mapId threadId (difficultyMidpoint difficulty))
  | none => .error (.playtestNotFound threadId)

/-- `force_deny` -/
def forceDeny (threadId : Nat) (d : PlaytestDb) : Except MapError PlaytestDb :=
  match d.getMapIdFromThread threadId with
  | some mapId => .ok (d.forceDenyPlaytest mapId threadId)
  | none => .error (.playtestNotFound threadId)

end Genjishimada.Services
