import Genjishimada.Library.Dict
import Genjishimada.Repository.Playtests
import Genjishimada.Services.Maps

/-!
# `services/playtest_service.py`, and the plot of `services/maps_service.py`

`approve` with the creators it reads and the event it hands to the broker, and what
`extensions/playtest.py` of the bot does to the map when the event arrives.  The average of the
votes reaches Python as a `float`: `held` is the decimal that it prints, and that is sent
back.
-/

namespace Genjishimada.Services

open Library Sdk Repository

/-- `PlaytestApprovedEvent` -/
structure PlaytestApprovedEvent where
  verifierId : Nat
  difficulty : DifficultyAll
  threadId : Nat
  primaryCreatorId : Nat
  code : String
deriving DecidableEq, Repr

/-- The database with `maps.creators`, and the events handed to `publish_message`. -/
structure ApprovalState where
  db : PlaytestDb := {}
  creators : List MapCreator := []
  published : List PlaytestApprovedEvent := []

/-- Why `approve` raises. -/
inductive ApprovalError where
  | playtest (e : MapError)
  | /-- The exception of `set_maps_difficulty_from_raw`. -/
    outOfRange (rawDifficulty : Rat)
  | /-- `ValueError("Unknown difficulty")` -/
    unknownDifficulty
deriving DecidableEq, Repr

/-- What `approve` knows of a playtest when its transaction commits. -/
structure Approved where
  difficulty : Rat
  primaryCreatorId : Option Nat
  code : Option String
deriving DecidableEq, Repr

/-- `get_primary_creator` -/
def getPrimaryCreator (creators : List MapCreator) (mapId : Nat) : Option Nat :=
  (creators.find? fun c ↦ c.mapId = mapId && c.isPrimary).map (·.userId)

/-- `get_map_code` -/
def getMapCode (d : PlaytestDb) (mapId : Nat) : Option String :=
  (d.db.maps.get? mapId).bind (·.code)

/-- The trigger raises if there is a row to update. -/
def refusesRaw (d : PlaytestDb) (mapId : Nat) (raw : Rat) : Bool :=
  (difficultyFromRaw (numeric2 raw)).isNone && (d.db.maps.get? mapId).isSome

namespace PlaytestService

/-- The transaction of `approve`. -/
def approveTransaction (held : Rat → Rat) (threadId : Nat) (s : ApprovalState) :
    Except ApprovalError (PlaytestDb × Approved) :=
  match s.db.getMapIdFromThread threadId with
  | none => .error (.playtest (.playtestNotFound threadId))
  | some mapId =>
      match (s.db.getAverageDifficulty threadId).map held with
      | none => .error (.playtest (.playtestState "Cannot approve playtest with no votes."))
      | some difficulty =>
          if refusesRaw s.db mapId difficulty then .error (.outOfRange (numeric2 difficulty))
          else
            let approved := s.db.approvePlaytest mapId threadId difficulty
            .ok (approved,
              { difficulty
                primaryCreatorId := getPrimaryCreator s.creators mapId
                code := getMapCode approved mapId })

/-- The event, or why there is none; the transaction has committed. -/
def approvedEvent (threadId verifierId : Nat) (found : Approved) :
    Except ApprovalError PlaytestApprovedEvent :=
  match found.code, found.primaryCreatorId with
  | none, _ => .error (.playtest (.playtestState "Map code not found for playtest."))
  | some _, none => .error (.playtest (.playtestState "Primary creator not found for map."))
  | some code, some primaryCreatorId =>
      match convertRawDifficultyToDifficultyAll found.difficulty with
      | none => .error .unknownDifficulty
      | some difficulty => .ok { verifierId, difficulty, threadId, primaryCreatorId, code }

/-- `approve` -/
def approve (held : Rat → Rat) (threadId verifierId : Nat) (s : ApprovalState) :
    ApprovalState × Option ApprovalError :=
  match approveTransaction held threadId s with
  | .error e => (s, some e)
  | .ok (approved, found) =>
      match approvedEvent threadId verifierId found with
      | .error e => ({ s with db := approved }, some e)
      | .ok event => ({ s with db := approved, published := s.published ++ [event] }, none)

end PlaytestService

/-- `_approve_playtest` of the bot: what its `edit_map` does. -/
def editApprovedMap (event : PlaytestApprovedEvent) (d : PlaytestDb) : Except MapError PlaytestDb :=
  updateMap (some event.code) { difficulty := some event.difficulty } d

/-! ## `get_playtest_plot` -/

/-- Why `get_playtest_plot` raises before it asks the plotter. -/
inductive PlotError where
  | /-- `ValueError("At least one of code or thread_id is required")` -/
    noTarget
  | mapNotFound (target : String)
  | /-- `ValueError("Unknown difficulty")` -/
    unknownDifficulty
deriving DecidableEq, Repr

/-- The votes of a thread by their difficulty, or its initial difficulty if it has none. -/
def threadPlotRows (t : PlaytestTables) (threadId : Nat) : List (Rat × Nat) :=
  countBy ((t.threadVotes threadId).map (·.difficulty)) ++
    if t.threadVotes threadId = [] then
      (t.metas.rows.filter fun pm ↦ pm.threadId = some threadId).map fun pm ↦
        (pm.initialDifficulty, 1)
    else []

/-- The database may answer the query with these rows: it groups in any order, and of the open
playtests of a code takes one that was created last. -/
def PlotAnswer (t : PlaytestTables) (threadId : Option Nat) (code : Option String)
    (answer : List (Rat × Nat)) : Prop :=
  match MapSearchFilters.given threadId, code with
  | some threadId, _ => answer.Perm (threadPlotRows t threadId)
  | none, some code =>
      (∃ m ∈ t.maps.rows, m.code = some code ∧
        ∃ pm ∈ t.newestMetas m.id, answer = [(pm.initialDifficulty, 1)]) ∨
      answer = [] ∧ ∀ m ∈ t.maps.rows, m.code = some code → t.openMetas m.id = []
  | none, none => answer = []

/-- `get_playtest_plot`, up to the request: the votes it sends to the plotter. -/
def getPlaytestPlot (threadId : Option Nat) (code : Option String) (answer : List (Rat × Nat)) :
    Except PlotError (DifficultyAll → Option Nat) :=
  let givenCode := code.filter fun code ↦ code ≠ ""
  if (MapSearchFilters.given threadId).isNone && givenCode.isNone then .error .noTarget
  else if answer = [] then .error (.mapNotFound (givenCode.getD (toString (threadId.getD 0))))
  else
    match answer.mapM fun row ↦
        (convertRawDifficultyToDifficultyAll row.1).map fun label ↦ (label, row.2) with
    | none => .error .unknownDifficulty
    | some votes => .ok (dictOf votes)

end Genjishimada.Services
