import Genjishimada.Library.Calendar
import Genjishimada.Library.Ranking
import Genjishimada.Services.QuestClaims

/-!
# `0014_quests_system.sql`: the weekly rotation

`store.check_and_generate_quest_rotation` and the functions it calls.  `now`, the id that
`gen_random_uuid` makes and the outcomes of `ORDER BY random()` are arguments.  `none` is a negative
`LIMIT`, which aborts the transaction.
-/

namespace Genjishimada.Migrations

open Library Sdk Services

/-! ## The tables -/

inductive QuestDifficulty where
  | easy
  | medium
  | hard
deriving DecidableEq, Repr

def QuestDifficulty.text : QuestDifficulty → String
  | .easy => "easy"
  | .medium => "medium"
  | .hard => "hard"

/-- `quest_type` -/
inductive QuestPool where
  | global
  | bounty
deriving DecidableEq, Repr

/-- A row of `store.quests`. -/
structure Quest where
  id : Nat
  name : String
  description : String := ""
  questType : QuestPool := .global
  difficulty : QuestDifficulty
  coinReward : Int
  xpReward : Int
  requirements : QuestRequirements
  isActive : Bool := true
deriving DecidableEq, Repr

instance : Keyed Quest := ⟨Quest.id⟩

/-- A row of `store.quest_rotation`. -/
structure QuestRotation where
  id : Nat
  rotationId : Nat
  questId : Option Nat := none
  userId : Option Nat := none
  questData : QuestData
  availableFrom : Int
  availableUntil : Int
deriving DecidableEq, Repr

instance : Keyed QuestRotation := ⟨QuestRotation.id⟩

/-- The row of `store.quest_config`, with the checks of its columns. -/
structure QuestConfig where
  rotationDay : Nat := 1
  rotationHour : Nat := 0
  currentRotationId : Option Nat := none
  lastRotationAt : Int
  nextRotationAt : Int
  easyQuestCount : Int := 2
  mediumQuestCount : Int := 2
  hardQuestCount : Int := 1
  rotationDay_check : 1 ≤ rotationDay ∧ rotationDay ≤ 7 := by decide
  rotationHour_check : rotationHour ≤ 23 := by decide
deriving DecidableEq, Repr

structure QuestDb where
  config : QuestConfig
  quests : Table Quest := .empty
  questRotation : Table QuestRotation := .empty
  rewards : RewardDb := {}
  /-- `core.users` -/
  users : List Nat := []
  /-- Which users have been notified of which rotation. -/
  notified : List (Nat × Nat) := []

/-! ## A new rotation -/

/-- `jsonb_build_object('name', q.name, …)` -/
def Quest.questData (q : Quest) : QuestData where
  name := q.name
  description := q.description
  difficulty := q.difficulty.text
  coinReward := q.coinReward
  xpReward := q.xpReward
  requirements := q.requirements

/-- The active global quests of a difficulty. -/
def globalPool (difficulty : QuestDifficulty) (db : QuestDb) : List Quest :=
  db.quests.select fun q ↦ q.isActive ∧ q.questType = .global ∧ q.difficulty = difficulty

/-- `INSERT … ON CONFLICT DO NOTHING`: a rotation has a quest once. -/
def insertGlobal (rotationId : Nat) (availableFrom availableUntil : Int)
    (rotation : Table QuestRotation) (q : Quest) : Table QuestRotation :=
  if rotation.rows.any fun r ↦ r.rotationId = rotationId ∧ r.questId = some q.id ∧ r.userId = none then
    rotation
  else
    rotation.insert fun id ↦
      { id, rotationId, questId := some q.id, questData := q.questData, availableFrom, availableUntil }

/-- One of the three statements of `select_global_quests`. -/
def selectGlobal (rotationId : Nat) (availableFrom availableUntil : Int)
    (random : QuestDifficulty → Shuffle Quest) (difficulty : QuestDifficulty) (count : Int)
    (db : QuestDb) : Option QuestDb :=
  if count < 0 then none
  else
    some { db with
      questRotation := (((random difficulty).order (globalPool difficulty db)).take count.toNat).foldl
        (insertGlobal rotationId availableFrom availableUntil) db.questRotation }

def selectGlobalQuests (rotationId : Nat) (availableFrom availableUntil : Int)
    (easyCount mediumCount hardCount : Int) (random : QuestDifficulty → Shuffle Quest) (db : QuestDb) :
    Option QuestDb := do
  let db ← selectGlobal rotationId availableFrom availableUntil random .easy easyCount db
  let db ← selectGlobal rotationId availableFrom availableUntil random .medium mediumCount db
  selectGlobal rotationId availableFrom availableUntil random .hard hardCount db

/-- `INSERT … ON CONFLICT DO NOTHING`: a user is notified of a rotation once. -/
def insertRotationNotifications (rotationId : Nat) (db : QuestDb) : QuestDb :=
  { db with
    notified := db.notified ++
      (db.users.map fun u ↦ (u, rotationId)).filter fun n ↦ n ∉ db.notified }

def generateQuestRotation (rotationId : Nat) (rotationStart rotationEnd : Int)
    (easyCount mediumCount hardCount : Int) (random : QuestDifficulty → Shuffle Quest) (db : QuestDb) :
    Option QuestDb := do
  let db := { db with
    questRotation := db.questRotation.delete fun r ↦ r.availableUntil ≤ rotationStart }
  let db ← selectGlobalQuests rotationId rotationStart rotationEnd easyCount mediumCount hardCount random db
  some (insertRotationNotifications rotationId db)

/-! ## `check_and_generate_quest_rotation` -/

structure RotationCheck where
  rotationId : Option Nat
  generated : Bool
  autoClaimed : Nat
  globalQuestsGenerated : Nat
deriving DecidableEq, Repr

/-- How many global quests a rotation has. -/
def globalCount (rotationId : Option Nat) (db : QuestDb) : Nat :=
  (db.questRotation.select fun r ↦ some r.rotationId = rotationId ∧ r.userId = none).length

/-- A rotation is generated if there is none or the next one is due. -/
def QuestConfig.due (now : Int) (cfg : QuestConfig) : Prop :=
  cfg.currentRotationId = none ∨ cfg.nextRotationAt ≤ now

instance (now : Int) (cfg : QuestConfig) : Decidable (cfg.due now) := inferInstanceAs (Decidable (_ ∨ _))

def checkAndGenerateQuestRotation (now : Int) (rotationId : Nat)
    (random : QuestDifficulty → Shuffle Quest) (db : QuestDb) : Option (RotationCheck × QuestDb) :=
  let cfg := db.config
  if cfg.due now then do
    -- `COALESCE(next_rotation_at, now())`, but the column is never `NULL`
    let rotationStart := cfg.nextRotationAt
    let rotationEnd := rotationStart + microsPerWeek
    let (claimed, rewards) := autoClaimCompletedQuests now db.rewards
    let db ← generateQuestRotation rotationId rotationStart rotationEnd cfg.easyQuestCount
      cfg.mediumQuestCount cfg.hardQuestCount random { db with rewards }
    let db := { db with
      config := { cfg with
        lastRotationAt := rotationStart
        nextRotationAt := rotationStart + microsPerWeek
        currentRotationId := some rotationId } }
    some (⟨some rotationId, true, claimed.1, globalCount (some rotationId) db⟩, db)
  else some (⟨cfg.currentRotationId, false, 0, globalCount cfg.currentRotationId db⟩, db)

end Genjishimada.Migrations
