import Genjishimada.Library.Program
import Genjishimada.Library.Table
import Genjishimada.Sdk.Quests
import Mathlib.Algebra.Order.Ring.Rat

/-!
# `services/store_service.py`: paying for quests

`claim_quest`, `admin_update_user_quest` and `store.auto_claim_completed_quests` of migration 0014,
with the columns they read or write.  Each marks a row as claimed, records on it what it is worth,
and adds coins and XP to the user.  Only `claim_quest` applies the XP multiplier.
-/

namespace Genjishimada.Services

open Library Sdk

/-! ## The rows -/

/-- `QuestData`, the `quest_data` of a row. -/
structure QuestData where
  name : String
  description : String := ""
  difficulty : String := ""
  coinReward : Int
  xpReward : Int
  requirements : QuestRequirements
  bountyType : Option String := none
deriving DecidableEq, Repr

/-- A row of `store.user_quest_progress`, with its rewards. -/
structure UserQuestRow where
  id : Nat
  userId : Nat
  questData : QuestData
  progress : QuestProgress := {}
  completedAt : Option Int := none
  claimedAt : Option Int := none
  coinsRewarded : Option Int := none
  xpRewarded : Option Int := none
deriving DecidableEq, Repr

instance : Keyed UserQuestRow := ⟨UserQuestRow.id⟩

/-- The quests, `core.users.coins` and `lootbox.xp` of every user, and the XP multiplier. -/
structure RewardDb where
  quests : Table UserQuestRow := .empty
  coins : Nat → Int := fun _ ↦ 0
  xp : Nat → Option Int := fun _ ↦ none
  /-- `lootbox.xp_multiplier` -/
  xpMultiplier : Rat := 1

/-- The user's XP; no row counts as none. -/
def RewardDb.xpOf (db : RewardDb) (userId : Nat) : Int := (db.xp userId).getD 0

/-- `UPDATE core.users SET coins = coins + amount` -/
def addCoins (userId : Nat) (amount : Int) (db : RewardDb) : RewardDb :=
  { db with coins := fun u ↦ if u = userId then db.coins u + amount else db.coins u }

/-- `INSERT INTO lootbox.xp … ON CONFLICT (user_id) DO UPDATE SET amount = amount + …` -/
def addXp (userId : Nat) (amount : Int) (db : RewardDb) : RewardDb :=
  { db with xp := fun u ↦ if u = userId then some (db.xpOf u + amount) else db.xp u }

inductive QuestClaimError where
  | invalidQuestPatch
  | questNotFound (progressId : Nat)
  | questAlreadyClaimed (progressId : Nat)
  | questNotCompleted (progressId : Nat)
deriving DecidableEq, Repr

abbrev QuestCall := EStateM QuestClaimError RewardDb

/-- `completed_at IS NOT NULL AND claimed_at IS NULL` -/
def UserQuestRow.claimable (q : UserQuestRow) : Bool := q.completedAt.isSome && q.claimedAt.isNone

/-- `SET claimed_at = now(), coins_rewarded = …, xp_rewarded = …` -/
def UserQuestRow.claim (now : Int) (q : UserQuestRow) : UserQuestRow :=
  { q with
    claimedAt := some now, coinsRewarded := some q.questData.coinReward
    xpRewarded := some q.questData.xpReward }

/-- `SELECT … WHERE id = $1 AND user_id = $2` -/
def getUserQuestProgress (userId progressId : Nat) (db : RewardDb) : Option UserQuestRow :=
  (db.quests.get? progressId).filter fun q ↦ q.userId = userId

/-! ## `claim_quest` -/

structure ClaimQuestResponse where
  questName : String
  coinsEarned : Int
  xpEarned : Int
  newCoinBalance : Int
  newXp : Int
deriving DecidableEq, Repr

/-- What a grant of `amount` adds: a multiplier of zero counts as none. -/
def grantedXp (db : RewardDb) (amount : Int) : Int :=
  (amount * if db.xpMultiplier = 0 then 1 else db.xpMultiplier).floor

def claimQuest (userId progressId : Nat) (now : Int) : QuestCall ClaimQuestResponse := fun db ↦
  match getUserQuestProgress userId progressId db with
  | none => .error (.questNotFound progressId) db
  | some q =>
      if q.claimable then
        let db := { db with
          quests := db.quests.modify (fun r ↦ r.id = progressId) (UserQuestRow.claim now) }
        let db := addCoins userId q.questData.coinReward db
        let db' := if 0 < q.questData.xpReward then
          addXp userId (grantedXp db q.questData.xpReward) db else db
        .ok
          { questName := q.questData.name, coinsEarned := q.questData.coinReward
            xpEarned := db'.xpOf userId - db.xpOf userId, newCoinBalance := db.coins userId
            newXp := if 0 < q.questData.xpReward then db'.xpOf userId else 0 }
          db'
      else if q.claimedAt.isSome then .error (.questAlreadyClaimed progressId) db
      else .error (.questNotCompleted progressId) db

/-! ## `admin_update_user_quest` -/

/-! A field that is `none` in a patch is `UNSET`. -/

structure PatchQuestRequirements where
  type : Option QuestType := none
  count : Option Nat := none
  difficulty : Option String := none
  category : Option String := none
  medalType : Option String := none
  mapId : Option Nat := none
  targetTime : Option Rat := none
  rivalTime : Option Rat := none
  minCount : Option Nat := none
deriving DecidableEq, Repr

structure PatchQuestData where
  name : Option String := none
  description : Option String := none
  difficulty : Option String := none
  coinReward : Option Int := none
  xpReward : Option Int := none
  requirements : Option PatchQuestRequirements := none
  bountyType : Option (Option String) := none
deriving DecidableEq, Repr

structure PatchQuestProgress where
  current : Option Nat := none
  details : Option (List (String × Nat)) := none
  completedMapIds : Option (List Nat) := none
  countedMapIds : Option (List Nat) := none
  medals : Option (List (Nat × Option Medal)) := none
  bestAttempt : Option Rat := none
  lastAttempt : Option Rat := none
  completed : Option Bool := none
  medalEarned : Option Medal := none
deriving DecidableEq, Repr

structure AdminUpdateUserQuestRequest where
  completed : Option Bool := none
  questData : Option PatchQuestData := none
  progress : Option PatchQuestProgress := none
  claimed : Option Bool := none
deriving DecidableEq, Repr

/-- `_merge_quest_data_patch`; the requirements of a patch are a struct there, not a `dict`, and are
passed over. -/
def mergeQuestDataPatch (existing : QuestData) (patch : PatchQuestData) : QuestData where
  name := patch.name.getD existing.name
  description := patch.description.getD existing.description
  difficulty := patch.difficulty.getD existing.difficulty
  coinReward := patch.coinReward.getD existing.coinReward
  xpReward := patch.xpReward.getD existing.xpReward
  requirements := existing.requirements
  bountyType := patch.bountyType.getD existing.bountyType

/-- `_auto_patch_progress_for_completion` -/
def autoPatchProgressForCompletion (progress : QuestProgress) (requirements : QuestRequirements) :
    QuestProgress :=
  match requirements.type with
  | .completeMaps | .earnMedals => { progress with current := requirements.count }
  | .completeDifficultyRange => { progress with current := requirements.minCount }
  | .completeMap => { progress with completed := true }
  | .beatTime =>
      match requirements.targetTime with
      | some targetTime => { progress with bestAttempt := some (targetTime - 1) }
      | none => progress
  | .beatRival =>
      match requirements.rivalTime with
      | some rivalTime => { progress with bestAttempt := some (rivalTime - 1) }
      | none => progress
  | .unknown => progress

/-- `base.update(explicit)` -/
def PatchQuestProgress.apply (patch : PatchQuestProgress) (base : QuestProgress) : QuestProgress where
  current := patch.current.getD base.current
  details := patch.details.getD base.details
  completedMapIds := patch.completedMapIds.getD base.completedMapIds
  countedMapIds := patch.countedMapIds.getD base.countedMapIds
  medals := patch.medals.getD base.medals
  bestAttempt := patch.bestAttempt <|> base.bestAttempt
  lastAttempt := patch.lastAttempt <|> base.lastAttempt
  completed := patch.completed.getD base.completed
  medalEarned := patch.medalEarned <|> base.medalEarned

/-- The `SET` clauses of the repository's `admin_update_user_quest`.  What is recorded is read from
the row as it was. -/
def UserQuestRow.adminUpdate (questData : Option QuestData) (progress : Option QuestProgress)
    (completedAt : Option (Option Int)) (claimed : Option Bool) (now : Int) (q : UserQuestRow) :
    UserQuestRow where
  id := q.id
  userId := q.userId
  questData := questData.getD q.questData
  progress := progress.getD q.progress
  completedAt := completedAt.getD q.completedAt
  claimedAt := (claimed.map fun c ↦ if c then some now else none).getD q.claimedAt
  coinsRewarded :=
    (claimed.map fun c ↦ if c then some q.questData.coinReward else none).getD q.coinsRewarded
  xpRewarded :=
    (claimed.map fun c ↦ if c then some q.questData.xpReward else none).getD q.xpRewarded

def adminUpdateUserQuest (userId progressId : Nat) (data : AdminUpdateUserQuestRequest) (now : Int) :
    QuestCall PUnit := fun db ↦
  if data = {} then .error .invalidQuestPatch db
  else
    match getUserQuestProgress userId progressId db with
    | none => .error (.questNotFound progressId) db
    | some existing =>
        let questData := data.questData.map (mergeQuestDataPatch existing.questData)
        let effective := questData.getD existing.questData
        let autoPatched := if data.completed = some true then
          some (autoPatchProgressForCompletion existing.progress effective.requirements) else none
        let progress := match data.progress with
          | some patch => some (patch.apply (autoPatched.getD existing.progress))
          | none => autoPatched
        let completedAt := data.completed.map fun c ↦ if c then some now else none
        let db := { db with
          quests := db.quests.modify (fun r ↦ r.id = progressId)
            (UserQuestRow.adminUpdate questData progress completedAt data.claimed now) }
        if data.claimed = some true ∧ existing.claimedAt = none then
          let db := if effective.coinReward = 0 then db
            else addCoins userId effective.coinReward db
          .ok ⟨⟩ (if effective.xpReward = 0 then db else addXp userId effective.xpReward db)
        else .ok ⟨⟩ db

/-! ## `store.auto_claim_completed_quests` -/

/-- The sum of a reward over a user's rows. -/
def totalOf (reward : UserQuestRow → Int) (userId : Nat) (claimed : List UserQuestRow) : Int :=
  ((claimed.filter fun q ↦ q.userId = userId).map reward).sum

/-- How many quests were claimed, and their coins and XP. -/
def autoClaimCompletedQuests (now : Int) : StateM RewardDb (Nat × Int × Int) := fun db ↦
  let claimed := db.quests.select UserQuestRow.claimable
  let coins (q : UserQuestRow) : Int := q.questData.coinReward
  let xp (q : UserQuestRow) : Int := q.questData.xpReward
  ((claimed.length, (claimed.map coins).sum, (claimed.map xp).sum),
    { db with
      quests := db.quests.modify UserQuestRow.claimable (UserQuestRow.claim now)
      coins := fun u ↦ db.coins u + totalOf coins u claimed
      xp := fun u ↦
        if claimed.any fun q ↦ q.userId = u then some (db.xpOf u + totalOf xp u claimed)
        else db.xp u })

end Genjishimada.Services
