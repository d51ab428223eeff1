import Genjishimada.Library.Ranking
import Genjishimada.Schema

/-!
# `repository/store_repository.py`

The quest queries of the store repository, and `store.check_and_generate_quest_rotation`
as far as it shows in the tables: the rotation it installs, if one is due, is an
argument, drawn from the quest templates at random.
-/

namespace Genjishimada.Repository

open Library Sdk

def getMedalThresholds (mapId : Nat) (db : Db) : Option MedalThresholds := db.medals.get? mapId

/-- `_initial_progress` -/
def initialProgress (requirements : QuestRequirements) : QuestProgress :=
  match requirements.type with
  | .beatTime | .beatRival =>
      { bestAttempt := requirements.currentBest, lastAttempt := requirements.currentBest }
  | _ => {}

/-! ## Rotations -/

/-- A new rotation: its id, and the global quests drawn for it. -/
structure GeneratedRotation where
  rotationId : Nat
  quests : List (Nat × QuestRequirements)

/-- `store.check_and_generate_quest_rotation()`; `none` when no rotation is due. -/
def checkAndGenerateQuestRotation (generated : Option GeneratedRotation) (db : Db) : Db :=
  match generated with
  | none => db
  | some rotation =>
      { db with
        currentRotationId := some rotation.rotationId
        rotationQuests := rotation.quests.foldl (fun t quest ↦ t.insert fun id ↦
          { id, rotationId := rotation.rotationId, questId := some quest.1
            requirements := quest.2 }) db.rotationQuests }

def getActiveRotation (db : Db) : Option Nat := db.currentRotationId

def hasProgressRows (userId rotationId : Nat) (db : Db) : Bool :=
  db.questProgress.rows.any fun q ↦ q.userId = userId ∧ q.rotationId = rotationId

def getGlobalQuests (rotationId : Nat) (db : Db) : List RotationQuest :=
  orderBy (fun q : RotationQuest ↦ q.questId.getD 0)
    (db.rotationQuests.select fun q ↦ q.rotationId = rotationId ∧ q.userId = none)

def getBountyForUser (rotationId userId : Nat) (db : Db) : Option RotationQuest :=
  db.rotationQuests.rows.find? fun q ↦
    q.rotationId = rotationId ∧ q.userId = some userId ∧ q.questId = none

/-- `INSERT … ON CONFLICT DO NOTHING`: one row per quest, user and rotation, and one
bounty. -/
def seedProgress (userId rotationId : Nat) (questId : Option Nat)
    (requirements : QuestRequirements) (db : Db) : Db :=
  if db.questProgress.rows.any fun q ↦
      q.userId = userId ∧ q.rotationId = rotationId ∧ q.questId = questId then db
  else
    { db with
      questProgress := db.questProgress.insert fun id ↦
        { id, userId, rotationId, questId, requirements, progress := initialProgress requirements } }

def seedGlobalProgress (userId rotationId : Nat) (globalQuests : List RotationQuest) (db : Db) : Db :=
  globalQuests.foldl (fun db quest ↦
    seedProgress userId rotationId quest.questId quest.requirements db) db

def seedBountyProgress (userId rotationId : Nat) (requirements : QuestRequirements) (db : Db) : Db :=
  seedProgress userId rotationId none requirements db

/-- `none` is the `ValueError` of a rotation without global quests, which has no window. -/
def insertBounty (rotationId userId : Nat) (requirements : QuestRequirements) (db : Db) :
    Option Db :=
  if db.rotationQuests.rows.any fun q ↦ q.rotationId = rotationId ∧ q.userId = none then
    if db.rotationQuests.rows.any fun q ↦
        q.rotationId = rotationId ∧ q.userId = some userId ∧ q.questId = none then some db
    else
      some { db with
        rotationQuests := db.rotationQuests.insert fun id ↦
          { id, rotationId, userId := some userId, requirements } }
  else none

/-! ## Progress -/

/-- The user's quests of the current rotation, `ORDER BY id`. -/
def getActiveUserQuests (userId : Nat) (db : Db) : List UserQuestProgress :=
  orderBy UserQuestProgress.id
    (db.questProgress.select fun q ↦ q.userId = userId ∧ some q.rotationId = db.currentRotationId)

def setQuestProgress (progressId : Nat) (newProgress : QuestProgress) (db : Db) : Db :=
  { db with
    questProgress := db.questProgress.modify (fun q ↦ q.id = progressId)
      fun q ↦ { q with progress := newProgress } }

/-- `SET completed_at = now() WHERE id = $1 AND completed_at IS NULL` -/
def markQuestComplete (progressId : Nat) (now : Int) (db : Db) : Db :=
  { db with
    questProgress := db.questProgress.modify (fun q ↦ q.id = progressId ∧ q.completedAt = none)
      fun q ↦ { q with completedAt := some now } }

end Genjishimada.Repository
