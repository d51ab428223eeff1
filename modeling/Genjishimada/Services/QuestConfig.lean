import Genjishimada.Migrations.QuestRotation

/-!
# `services/store_service.py`: the schedule of the quests

`update_quest_config`, with the statement of the repository it runs, and the repository's
`insert_bounty`, which copies the window of the rotation.
-/

namespace Genjishimada.Services

open Library Migrations

/-! ## `update_quest_config` -/

/-- `UpdateQuestConfigRequest` -/
structure UpdateQuestConfigRequest where
  rotationDay : Option Nat := none
  rotationHour : Option Nat := none
  easyQuestCount : Option Int := none
  mediumQuestCount : Option Int := none
  hardQuestCount : Option Int := none
deriving DecidableEq, Repr

structure UpdateQuestConfigResponse where
  success : Bool := true
  updatedFields : List String
  nextRotationAt : Int
deriving DecidableEq, Repr

/-- `a or b`, for a number that may be missing. -/
def orElse (a : Option Nat) (b : Nat) : Nat :=
  match a with
  | some (n + 1) => n + 1
  | _ => b

/-- `next_rotation_at`, if the day or the hour is in the request. -/
def newNextRotationAt (now : Int) (request : UpdateQuestConfigRequest) (config : QuestConfig) :
    Option Int :=
  if request.rotationDay.isSome ∨ request.rotationHour.isSome then
    let newDay := orElse request.rotationDay (orElse (some config.rotationDay) 1)
    let newHour := orElse request.rotationHour (orElse (some config.rotationHour) 0)
    let candidate := atHour newHour now
    let weekday := isoWeekday candidate
    let shiftDays := (newDay - weekday) % 7
    let candidate := candidate + shiftDays * microsPerDay
    some (if candidate ≤ now then candidate + microsPerWeek else candidate)
  else none

/-- `list(updates.keys())` -/
def updatedFields (request : UpdateQuestConfigRequest) (nextRotationAt : Option Int) : List String :=
  (if request.rotationDay.isSome then ["rotation_day"] else []) ++
    (if request.rotationHour.isSome then ["rotation_hour"] else []) ++
    (if request.easyQuestCount.isSome then ["easy_quest_count"] else []) ++
    (if request.mediumQuestCount.isSome then ["medium_quest_count"] else []) ++
    (if request.hardQuestCount.isSome then ["hard_quest_count"] else []) ++
    (if nextRotationAt.isSome then ["next_rotation_at"] else [])

/-- `none` is a day or an hour out of range: `replace` refuses the hour, and the check of the column
the day. -/
def updateQuestConfig (now : Int) (request : UpdateQuestConfigRequest) (config : QuestConfig) :
    Option (UpdateQuestConfigResponse × QuestConfig) :=
  let day := request.rotationDay.getD config.rotationDay
  let hour := request.rotationHour.getD config.rotationHour
  if h : (1 ≤ day ∧ day ≤ 7) ∧ hour ≤ 23 then
    let next := newNextRotationAt now request config
    some
      ({ updatedFields := updatedFields request next
         nextRotationAt := next.getD config.nextRotationAt },
       { config with
         rotationDay := day
         rotationHour := hour
         easyQuestCount := request.easyQuestCount.getD config.easyQuestCount
         mediumQuestCount := request.mediumQuestCount.getD config.mediumQuestCount
         hardQuestCount := request.hardQuestCount.getD config.hardQuestCount
         nextRotationAt := next.getD config.nextRotationAt
         rotationDay_check := h.1
         rotationHour_check := h.2 })
  else none

/-! ## `insert_bounty` -/

/-- The window of a rotation, as its first global quest has it.  `none` is the `ValueError` of a
rotation without one. -/
def insertBountyRow (rotationId userId : Nat) (questData : QuestData) (rotation : Table QuestRotation) :
    Option (Table QuestRotation) :=
  (orderBy QuestRotation.id
      (rotation.select fun r ↦ r.rotationId = rotationId ∧ r.userId = none)).head?.map fun window ↦
    if rotation.rows.any fun r ↦
        r.rotationId = rotationId ∧ r.userId = some userId ∧ r.questId = none then rotation
    else
      rotation.insert fun id ↦
        { id, rotationId, userId := some userId, questData, availableFrom := window.availableFrom
          availableUntil := window.availableUntil }

end Genjishimada.Services
