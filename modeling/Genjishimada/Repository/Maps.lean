import Genjishimada.Schema
import Mathlib.Algebra.Order.Ring.Rat

/-!
# `repository/maps_repository.py` and `repository/playtest_repository.py`

The statements on maps, playtests and edit requests.  `PlaytestDb` adds to the database what
they read beside it: two columns, by the id of their row, and the tables of playtests and
edit requests.
-/

namespace Genjishimada.Repository

open Library Sdk

/-! ## Rows -/

/-- A row of `playtests.meta`. -/
structure Playtest where
  id : Nat
  threadId : Option Nat := none
  mapId : Nat
  initialDifficulty : Rat
  completed : Bool := false
deriving DecidableEq, Repr

instance : Keyed Playtest := ⟨Playtest.id⟩

/-- A row of `playtests.votes`. -/
structure PlaytestVote where
  userId : Nat
  threadId : Nat
  difficulty : Rat
deriving DecidableEq, Repr

/-- `MedalsResponse`, in hundredths of a second. -/
structure MedalsResponse where
  gold : Int
  silver : Int
  bronze : Int
deriving DecidableEq, Repr

/-- What `insert_medals` inserts. -/
def MedalsResponse.row (md : MedalsResponse) (mapId : Nat) : MedalThresholds where
  mapId := mapId
  gold := some md.gold
  silver := some md.silver
  bronze := some md.bronze

/-- `MapPatchRequest`; an `UNSET` field is `none`.  `rest` says whether a field is set that
only describes the map: one of the other columns, the creators, mechanics, restrictions or
tags. -/
structure MapPatchRequest where
  code : Option String := none
  mapName : Option String := none
  category : Option String := none
  difficulty : Option DifficultyAll := none
  official : Option Bool := none
  archived : Option Bool := none
  playtesting : Option PlaytestStatus := none
  medals : Option (Option MedalsResponse) := none
  rest : Bool := false
deriving DecidableEq, Repr

/-- A row of `maps.edit_requests`; `proposedChanges` is as `convert_changes_to_patch` reads
them. -/
structure EditRequest where
  id : Nat
  mapId : Nat
  code : Option String
  proposedChanges : MapPatchRequest
  createdBy : Nat
  accepted : Option Bool := none
  resolvedBy : Option Nat := none
  rejectionReason : Option String := none
deriving DecidableEq, Repr

instance : Keyed EditRequest := ⟨EditRequest.id⟩

/-- The database with `core.maps.linked_code` and `core.completions.legacy_medal`, the
playtests and the edit requests.  `writes` counts how often the row of a map, or one that
belongs to it, has been updated. -/
structure PlaytestDb where
  db : Db := {}
  linkedCode : Nat → Option String := fun _ ↦ none
  legacyMedal : Nat → Option String := fun _ ↦ none
  writes : Nat → Nat := fun _ ↦ 0
  metas : Table Playtest := .empty
  votes : List PlaytestVote := []
  editRequests : Table EditRequest := .empty

/-! ## Difficulties -/

/-- `DIFFICULTY_MIDPOINTS` -/
def difficultyMidpoint : DifficultyAll → Rat
  | .easyMinus => 89 / 100
  | .easy => 147 / 100
  | .easyPlus => 206 / 100
  | .mediumMinus => 265 / 100
  | .medium => 323 / 100
  | .mediumPlus => 383 / 100
  | .hardMinus => 442 / 100
  | .hard => 5
  | .hardPlus => 558 / 100
  | .veryHardMinus => 617 / 100
  | .veryHard => 676 / 100
  | .veryHardPlus => 736 / 100
  | .extremeMinus => 795 / 100
  | .extreme => 853 / 100
  | .extremePlus => 912 / 100
  | .hell => 971 / 100

/-- The `CASE` of `set_maps_difficulty_from_raw`; it raises outside of the range. -/
def difficultyFromRaw (raw : Rat) : Option DifficultyAll :=
  if raw < 0 then none
  else if raw < 118 / 100 then some .easyMinus
  else if raw < 176 / 100 then some .easy
  else if raw < 235 / 100 then some .easyPlus
  else if raw < 294 / 100 then some .mediumMinus
  else if raw < 353 / 100 then some .medium
  else if raw < 412 / 100 then some .mediumPlus
  else if raw < 471 / 100 then some .hardMinus
  else if raw < 529 / 100 then some .hard
  else if raw < 588 / 100 then some .hardPlus
  else if raw < 647 / 100 then some .veryHardMinus
  else if raw < 706 / 100 then some .veryHard
  else if raw < 765 / 100 then some .veryHardPlus
  else if raw < 824 / 100 then some .extremeMinus
  else if raw < 882 / 100 then some .extreme
  else if raw < 941 / 100 then some .extremePlus
  else if raw ≤ 10 then some .hell
  else none

/-- Every midpoint lies in the range of its difficulty. -/
theorem difficultyFromRaw_midpoint (d : DifficultyAll) :
    difficultyFromRaw (difficultyMidpoint d) = some d := by
  cases d <;> decide +kernel

/-- `raw_difficulty` is a `numeric(4, 2)`. -/
def numeric2 (q : Rat) : Rat := (q * 100 + 1 / 2).floor / 100

/-- Setting `raw_difficulty`, with the trigger that sets the difficulty from it. -/
def setRawDifficulty (raw : Rat) (m : CoreMap) : CoreMap :=
  { m with
    rawDifficulty := numeric2 raw
    difficulty := (difficultyFromRaw (numeric2 raw)).getD m.difficulty }

namespace PlaytestDb

/-! ## `core.maps` -/

/-- The row of a code, which is unique; `code = NULL` is no row's. -/
def mapOfCode (d : PlaytestDb) (code : Option String) : Option CoreMap :=
  code.bind fun c ↦ d.db.maps.rows.find? fun m ↦ m.code = some c

/-- `lookup_map_id` -/
def lookupMapId (d : PlaytestDb) (code : Option String) : Option Nat :=
  (d.mapOfCode code).map (·.id)

/-- `UPDATE core.maps SET f WHERE p` -/
def updateMaps (d : PlaytestDb) (p : CoreMap → Bool) (f : CoreMap → CoreMap)
    (hf : ∀ m, key (f m) = key m := by intro _; rfl) : PlaytestDb :=
  { d with
    db := { d.db with maps := d.db.maps.modify p f hf }
    writes := fun id ↦ d.writes id + if (d.db.maps.get? id).any p then 1 else 0 }

/-- `ON UPDATE CASCADE` of `linked_code`, when a code is changed. -/
def relink (d : PlaytestDb) (code : String) (newCode : Option String) : PlaytestDb :=
  if newCode = some code then d
  else
    { d with
      linkedCode := fun id ↦ if d.linkedCode id = some code then newCode else d.linkedCode id
      writes := fun id ↦ d.writes id + if d.linkedCode id = some code then 1 else 0 }

end PlaytestDb

/-- `core_updates` is empty, and the rows that describe the map are left alone. -/
def MapPatchRequest.coreEmpty (p : MapPatchRequest) : Bool :=
  !p.rest && p.code.isNone && p.mapName.isNone && p.category.isNone && p.difficulty.isNone &&
    p.official.isNone && p.archived.isNone && p.playtesting.isNone

/-- `core_updates`, applied to the row. -/
def MapPatchRequest.apply (p : MapPatchRequest) (m : CoreMap) : CoreMap :=
  let m := { m with
    code := p.code.or m.code
    mapName := p.mapName.getD m.mapName
    category := p.category.getD m.category
    official := p.official.getD m.official
    archived := p.archived.getD m.archived
    playtesting := p.playtesting.getD m.playtesting }
  match p.difficulty with
  | some difficulty => setRawDifficulty (difficultyMidpoint difficulty) m
  | none => m

theorem MapPatchRequest.key_apply (p : MapPatchRequest) (m : CoreMap) :
    key (p.apply m) = key m := by
  rw [MapPatchRequest.apply]
  split <;> rfl

namespace PlaytestDb

/-- Another map has the new code.  A linked map is renamed like any other: `sync_linked_code` returns
early, and the link back follows through `ON UPDATE CASCADE`. -/
def codeRefused (d : PlaytestDb) (code newCode : String) : Bool :=
  newCode ≠ code && (d.mapOfCode (some code)).isSome && (d.mapOfCode (some newCode)).isSome

/-- `update_core_map`; `none` if the new code is refused. -/
def updateCoreMap (d : PlaytestDb) (code : String) (p : MapPatchRequest) : Option PlaytestDb :=
  if p.coreEmpty then some d
  else
    let updated := d.updateMaps (fun m ↦ m.code = some code) p.apply p.key_apply
    match p.code with
    | some newCode => if d.codeRefused code newCode then none else some (updated.relink code newCode)
    | none => some updated

/-- `delete_medals` and `insert_medals` -/
def replaceMedals (d : PlaytestDb) (mapId : Nat) (medals : Option MedalsResponse) : PlaytestDb :=
  let deleted := d.db.medals.delete fun md ↦ md.mapId = mapId
  { d with
    db := { d.db with
      medals :=
        match medals with
        | some md => deleted.upsert (md.row mapId) id fun _ ↦ rfl
        | none => deleted }
    writes := fun id ↦ d.writes id + if id = mapId then 1 else 0 }

/-- `create_core_map` -/
def createCoreMap (d : PlaytestDb) (mk : Nat → CoreMap)
    (hk : ∀ n, key (mk n) = n := by exact @Eq.refl Nat) : PlaytestDb :=
  { d with db := { d.db with maps := d.db.maps.insert mk hk } }

/-- `code = ANY($1)` -/
def named (codes : List String) (m : CoreMap) : Bool := m.code.any fun c ↦ c ∈ codes

/-- The playtests that `completed_playtests` completes: those that are open and whose map is
rejected once it is archived. -/
def endedBy (d : PlaytestDb) (codes : List String) (pm : Playtest) : Bool :=
  !pm.completed && (d.db.maps.get? pm.mapId).any fun m ↦ named codes m && m.playtesting ≠ .approved

/-- The update of `to_archive`. -/
def archiveMap (m : CoreMap) : CoreMap :=
  { m with
    archived := true
    playtesting := if m.playtesting = .inProgress then .rejected else m.playtesting }

/-- `set_archive_status` -/
def setArchiveStatus (d : PlaytestDb) (codes : List String) (archived : Bool) : PlaytestDb :=
  if archived then
    { d.updateMaps (named codes) archiveMap with
      metas := d.metas.modify (d.endedBy codes) fun pm ↦ { pm with completed := true } }
  else d.updateMaps (named codes) fun m ↦ { m with archived := false }

/-- `release_code` -/
def releaseCode (d : PlaytestDb) (code : String) (mapId : Nat) : PlaytestDb :=
  let cleared :=
    { d with
      editRequests := d.editRequests.modify (fun e ↦ e.code = some code && e.mapId = mapId)
        fun e ↦ { e with code := none } }
  if (d.mapOfCode (some code)).any (·.archived) then
    (cleared.updateMaps (fun m ↦ m.code = some code && m.archived) fun m ↦
      { m with originalCode := m.code, code := none }).relink code none
  else cleared

/-! ## The legacy conversion -/

/-- `check_pending_verifications` -/
def checkPendingVerifications (d : PlaytestDb) (code : String) : Bool :=
  d.db.coreCompletions.rows.any fun c ↦
    (d.db.maps.get? c.mapId).any (fun m ↦ m.code = some code) && c.rejected

/-- `remove_map_medal_entries` -/
def removeMapMedalEntries (d : PlaytestDb) (code : String) : PlaytestDb :=
  { d with
    db := { d.db with
      medals := d.db.medals.delete fun md ↦ some md.mapId = d.lookupMapId (some code) } }

/-- `convert_completions_to_legacy` -/
def convertCompletionsToLegacy (d : PlaytestDb) (code : String) : PlaytestDb :=
  { d with
    db := { d.db with
      coreCompletions := d.db.coreCompletions.modify
        (fun c ↦ some c.mapId = d.lookupMapId (some code) && !c.legacy)
        fun c ↦ { c with legacy := true } } }

/-! ## Playtests -/

/-- `create_playtest_meta_partial` -/
def createPlaytestMetaPartial (d : PlaytestDb) (code : String) (initialDifficulty : Rat) :
    PlaytestDb :=
  match d.mapOfCode (some code) with
  | some m =>
      { d with metas := d.metas.insert fun id ↦ { id, mapId := m.id, initialDifficulty } }
  | none => d

/-- The thread of the `playtest` that `fetch_maps` shows of a map. -/
def playtestThread (d : PlaytestDb) (m : CoreMap) : Option Nat :=
  if m.playtesting = .inProgress then
    (d.metas.rows.find? fun pm ↦ pm.mapId = m.id && !pm.completed && pm.threadId.isSome).bind
      (·.threadId)
  else none

/-- `update_playtest_initial_difficulty` -/
def updatePlaytestInitialDifficulty (d : PlaytestDb) (threadId : Nat) (difficulty : Rat) :
    PlaytestDb :=
  { d with
    metas := d.metas.modify (fun pm ↦ pm.threadId = some threadId)
      fun pm ↦ { pm with initialDifficulty := difficulty } }

/-- `get_map_id_from_thread` -/
def getMapIdFromThread (d : PlaytestDb) (threadId : Nat) : Option Nat :=
  (d.metas.rows.find? fun pm ↦ pm.threadId = some threadId).map (·.mapId)

/-- `get_average_difficulty` -/
def getAverageDifficulty (d : PlaytestDb) (threadId : Nat) : Option Rat :=
  let votes := d.votes.filter fun v ↦ v.threadId = threadId
  if votes.isEmpty then none
  else some ((votes.map (·.difficulty)).foldr (· + ·) 0 / votes.length)

/-- `UPDATE playtests.meta SET completed = TRUE WHERE thread_id = $1` -/
def completePlaytest (d : PlaytestDb) (threadId : Nat) : PlaytestDb :=
  { d with
    metas := d.metas.modify (fun pm ↦ pm.threadId = some threadId)
      fun pm ↦ { pm with completed := true } }

/-- `approve_playtest` and `force_accept_playtest`; the difficulty comes from the votes or
from a midpoint, so that the trigger never raises. -/
def approvePlaytest (d : PlaytestDb) (mapId threadId : Nat) (rawDifficulty : Rat) : PlaytestDb :=
  (d.updateMaps (fun m ↦ m.id = mapId) fun m ↦
    { setRawDifficulty rawDifficulty m with playtesting := .approved }).completePlaytest threadId

/-- `force_deny_playtest` -/
def forceDenyPlaytest (d : PlaytestDb) (mapId threadId : Nat) : PlaytestDb :=
  (d.updateMaps (fun m ↦ m.id = mapId) fun m ↦
    { m with playtesting := .rejected }).completePlaytest threadId

/-- `associate_thread`; `none` if another playtest has the thread. -/
def associateThread (d : PlaytestDb) (playtestId threadId : Nat) : Option PlaytestDb :=
  if d.metas.rows.any fun pm ↦ pm.threadId = some threadId && pm.id ≠ playtestId then none
  else some { d with
    metas := d.metas.modify (fun pm ↦ pm.id = playtestId)
      fun pm ↦ { pm with threadId := some threadId } }

/-! ## Edit requests -/

/-- `check_pending_edit_request` -/
def checkPendingEditRequest (d : PlaytestDb) (mapId : Nat) : Option Nat :=
  (d.editRequests.rows.find? fun e ↦ e.mapId = mapId && e.accepted.isNone).map (·.id)

/-- `create_edit_request` -/
def createEditRequest (d : PlaytestDb) (mapId : Nat) (code : String)
    (proposedChanges : MapPatchRequest) (createdBy : Nat) : PlaytestDb :=
  { d with
    editRequests := d.editRequests.insert fun id ↦
      { id, mapId, code := some code, proposedChanges, createdBy } }

/-- `resolve_edit_request` -/
def resolveEditRequest (d : PlaytestDb) (editId : Nat) (accepted : Bool) (resolvedBy : Nat)
    (rejectionReason : Option String) : PlaytestDb :=
  { d with
    editRequests := d.editRequests.modify (fun e ↦ e.id = editId) fun e ↦
      { e with accepted := some accepted, resolvedBy := some resolvedBy, rejectionReason } }

end PlaytestDb

end Genjishimada.Repository
