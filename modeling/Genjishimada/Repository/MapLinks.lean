import Genjishimada.Repository.Maps

/-!
# `linked_code`

The statements of `repository/maps_repository.py` that set `core.maps.linked_code`, with the
trigger `sync_linked_code` as migration 0026 leaves it.  The trigger edits the counterpart, for
which it skips itself.
-/

namespace Genjishimada.Repository.PlaytestDb

open Library

/-- `linked_code` of one row. -/
def setLink (d : PlaytestDb) (id : Nat) (linkedCode : Option String) : PlaytestDb :=
  { d with
    linkedCode := Function.update d.linkedCode id linkedCode
    writes := Function.update d.writes id (d.writes id + 1) }

/-- `sync_linked_code`, before `m` gets a link; `none` if it raises. -/
def syncLinkedCode (d : PlaytestDb) (m : CoreMap) (linkedCode : Option String) :
    Option PlaytestDb :=
  if linkedCode = d.linkedCode m.id then some d
  else
    match linkedCode with
    | none =>
        match d.mapOfCode (d.linkedCode m.id) with
        | some target =>
            -- only if it points back
            if d.linkedCode target.id = m.code then some (d.setLink target.id none) else some d
        | none => some d
    | some code =>
        if m.code = some code then none
        else
          match d.mapOfCode (some code) with
          | none => none
          | some target =>
              match d.linkedCode target.id with
              | none => some (d.setLink target.id m.code)
              | some targetCurrent => if m.code = some targetCurrent then some d else none

/-- `UPDATE core.maps SET linked_code = $2 WHERE code = $1`; `none` if it raises. -/
def updateLinkedCode (d : PlaytestDb) (code : String) (linkedCode : Option String) :
    Option PlaytestDb :=
  match d.mapOfCode (some code) with
  | some m => (d.syncLinkedCode m linkedCode).map fun d' ↦ d'.setLink m.id linkedCode
  | none => some d

/-- `link_map_codes`, up to the statement that raises. -/
def linkMapCodes (d : PlaytestDb) (code1 code2 : String) : PlaytestDb :=
  match d.updateLinkedCode code1 (some code2) with
  | some d' => (d'.updateLinkedCode code2 (some code1)).getD d'
  | none => d

/-- `unlink_map_codes`, up to the statement that raises. -/
def unlinkMapCodes (d : PlaytestDb) (code : String) : PlaytestDb :=
  match (d.mapOfCode (some code)).bind fun m ↦ d.linkedCode m.id with
  | some linkedCode =>
      if linkedCode = "" then d
      else
        match d.updateLinkedCode code none with
        | some d' => (d'.updateLinkedCode linkedCode none).getD d'
        | none => d
  | none => d

end Genjishimada.Repository.PlaytestDb
