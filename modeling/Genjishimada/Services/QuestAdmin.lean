import Genjishimada.Library.Float64
import Genjishimada.Library.Table
import Genjishimada.Sdk.Quests

/-!
# `services/store_service.py`: what an admin writes to a quest

`admin_update_user_quest` on the `jsonb` columns as the service sees them, which are dicts: a key may
be missing, or be `None`.  Times are seconds, and arithmetic on them is that of doubles.
`details`, `medals`, the `target` of a progress and the keys that no struct names are only carried
along, as their JSON text.
-/

namespace Genjishimada.Services.QuestAdmin

open Library Sdk

/-! ## Dicts -/

/-- What a dict has under a key: nothing, `None` or a value. -/
abbrev Entry (α : Type) := Option (Option α)

namespace Entry

variable {α : Type}

/-- `dict.get(key)` -/
def get (e : Entry α) : Option α := e.join

/-- `dict.get(key, default)` -/
def getOr (e : Entry α) (default : α) : Option α := e.getD (some default)

/-- `dict.update`, with a field that may be `UNSET`. -/
def update (e : Entry α) (field : Option α) : Entry α := (field.map some).or e

end Entry

/-- `requirements`; `current_best` is set by bounties. -/
structure Requirements where
  type : Entry String := none
  count : Entry Rat := none
  difficulty : Entry String := none
  category : Entry String := none
  medalType : Entry String := none
  mapId : Entry Int := none
  targetTime : Entry Rat := none
  targetType : Entry String := none
  rivalUserId : Entry Int := none
  rivalTime : Entry Rat := none
  target : Entry String := none
  minCount : Entry Rat := none
  currentBest : Entry Rat := none
  others : List (String × String) := []
deriving DecidableEq, Repr

/-- `quest_data` -/
structure QuestDict where
  name : Entry String := none
  description : Entry String := none
  difficulty : Entry String := none
  coinReward : Entry Int := none
  xpReward : Entry Int := none
  requirements : Entry Requirements := none
  bountyType : Entry String := none
  others : List (String × String) := []
deriving DecidableEq, Repr

/-- `progress` -/
structure Progress where
  current : Entry Rat := none
  target : Entry String := none
  percentage : Entry Rat := none
  details : Entry String := none
  completedMapIds : Entry (List Int) := none
  countedMapIds : Entry (List Int) := none
  medals : Entry String := none
  mapId : Entry Int := none
  targetTime : Entry Rat := none
  targetType : Entry String := none
  medalType : Entry String := none
  bestAttempt : Entry Rat := none
  lastAttempt : Entry Rat := none
  rivalUserId : Entry Int := none
  rivalTime : Entry Rat := none
  completed : Entry Bool := none
  medalEarned : Entry String := none
  others : List (String × String) := []
deriving DecidableEq, Repr

/-- `quest_data.get("requirements") or {}` -/
def QuestDict.requirementsOrEmpty (questData : QuestDict) : Requirements :=
  questData.requirements.get.getD {}

/-! ## The request -/

/-! A field that is `none` is `UNSET`. -/

structure PatchQuestRequirements where
  type : Option String := none
  count : Option Int := none
  difficulty : Option String := none
  category : Option String := none
  medalType : Option String := none
  mapId : Option Int := none
  targetTime : Option Rat := none
  targetType : Option String := none
  rivalUserId : Option Int := none
  rivalTime : Option Rat := none
  target : Option String := none
  minCount : Option Int := none
deriving DecidableEq, Repr

structure PatchQuestData where
  name : Option String := none
  description : Option String := none
  difficulty : Option String := none
  coinReward : Option Int := none
  xpReward : Option Int := none
  requirements : Option PatchQuestRequirements := none
  bountyType : Option (Option String) := none
deriving DecidableEq, Repr

structure PatchQuestProgress where
  current : Option Int := none
  target : Option String := none
  percentage : Option Int := none
  details : Option String := none
  completedMapIds : Option (List Int) := none
  countedMapIds : Option (List Int) := none
  medals : Option String := none
  mapId : Option Int := none
  targetTime : Option Rat := none
  targetType : Option String := none
  medalType : Option String := none
  bestAttempt : Option Rat := none
  lastAttempt : Option Rat := none
  rivalUserId : Option Int := none
  rivalTime : Option Rat := none
  completed : Option Bool := none
  medalEarned : Option String := none
deriving DecidableEq, Repr

structure AdminUpdateUserQuestRequest where
  completed : Option Bool := none
  questData : Option PatchQuestData := none
  progress : Option PatchQuestProgress := none
  claimed : Option Bool := none
deriving DecidableEq, Repr

/-! ## `_merge_quest_data_patch` -/

/-- `existing_req.update(filtered_req)` -/
def Requirements.update (r : Requirements) (patch : PatchQuestRequirements) : Requirements :=
  { r with
    type := r.type.update patch.type
    count := r.count.update (patch.count.map (↑))
    difficulty := r.difficulty.update patch.difficulty
    category := r.category.update patch.category
    medalType := r.medalType.update patch.medalType
    mapId := r.mapId.update patch.mapId
    targetTime := r.targetTime.update patch.targetTime
    targetType := r.targetType.update patch.targetType
    rivalUserId := r.rivalUserId.update patch.rivalUserId
    rivalTime := r.rivalTime.update patch.rivalTime
    target := r.target.update patch.target
    minCount := r.minCount.update (patch.minCount.map (↑)) }

/-- What `asdict` has for a field that is a struct.  It does not descend into one. -/
inductive AsDict where
  | struct (patch : PatchQuestRequirements)
  | dict (patch : PatchQuestRequirements)

/-- `msgspec.structs.asdict(patch)["requirements"]`, unless it is `UNSET` -/
def PatchQuestData.asdictRequirements (patch : PatchQuestData) : Option AsDict :=
  patch.requirements.map .struct

/-- `_merge_quest_data_patch` -/
def mergeQuestDataPatch (existing : QuestDict) (patch : PatchQuestData) : QuestDict :=
  let merged :=
    match patch.asdictRequirements with
    | some (.dict reqPatch) =>
        { existing with requirements := some (some (existing.requirementsOrEmpty.update reqPatch)) }
    -- `isinstance(req_patch, dict)` fails
    | some (.struct _) => existing
    | none => existing
  { merged with
    name := merged.name.update patch.name
    description := merged.description.update patch.description
    difficulty := merged.difficulty.update patch.difficulty
    coinReward := merged.coinReward.update patch.coinReward
    xpReward := merged.xpReward.update patch.xpReward
    bountyType := patch.bountyType.or merged.bountyType }

/-! ## Completion -/

/-- `requirements.get("type")`, if it is one that has a handler. -/
def Requirements.questType (r : Requirements) : QuestType :=
  match r.type.get with
  | some "complete_maps" => .completeMaps
  | some "earn_medals" => .earnMedals
  | some "complete_difficulty_range" => .completeDifficultyRange
  | some "beat_time" => .beatTime
  | some "beat_rival" => .beatRival
  | some "complete_map" => .completeMap
  | _ => .unknown

/-- `float(time) - 0.01` -/
def hundredthLess (time : Rat) : Rat := float64 (float64 time - float64 (1 / 100))

/-- `_auto_patch_progress_for_completion` -/
def autoPatchProgressForCompletion (existingProgress : Progress) (requirements : Requirements) :
    Progress :=
  match requirements.questType with
  | .completeMaps | .earnMedals =>
      { existingProgress with current := some (requirements.count.getOr 0) }
  | .completeDifficultyRange =>
      { existingProgress with current := some (requirements.minCount.getOr 0) }
  | .completeMap => { existingProgress with completed := some (some true) }
  | .beatTime =>
      match requirements.targetTime.get with
      | some targetTime =>
          { existingProgress with bestAttempt := some (some (hundredthLess targetTime)) }
      | none => existingProgress
  | .beatRival =>
      match requirements.rivalTime.get with
      | some rivalTime =>
          { existingProgress with bestAttempt := some (some (hundredthLess rivalTime)) }
      | none => existingProgress
  | .unknown => existingProgress

/-- `_is_complete_time_target` -/
def isCompleteTimeTarget (progress : Progress) (requirements : Requirements) : Bool :=
  match requirements.targetTime.get, progress.bestAttempt.get with
  | some targetTime, some bestAttempt => float64 bestAttempt < float64 targetTime
  | _, _ => false

/-- `a >= b`; `none` is the `TypeError` of a `None`. -/
def atLeast (a b : Option Rat) : Option Bool :=
  match a, b with
  | some a, some b => some (b ≤ a)
  | _, _ => none

/-- `_is_quest_complete`; `none` if it raises. -/
def isQuestComplete (progress : Progress) (requirements : Requirements) : Option Bool :=
  match requirements.questType with
  | .completeMaps | .earnMedals =>
      atLeast (progress.current.getOr 0) (requirements.count.getOr 0)
  | .completeDifficultyRange =>
      atLeast (progress.current.getOr 0) (requirements.minCount.getOr 0)
  | .beatTime | .beatRival => some (isCompleteTimeTarget progress requirements)
  | .completeMap => some (progress.completed.getOr false = some true)
  | .unknown => some false

/-! ## `admin_update_user_quest` -/

/-- A row of `store.user_quest_progress`. -/
structure UserQuestProgressRow where
  id : Nat
  userId : Nat
  questData : QuestDict := {}
  progress : Progress := {}
  completedAt : Option Int := none
  claimedAt : Option Int := none
  coinsRewarded : Option Int := none
  xpRewarded : Option Int := none
deriving DecidableEq, Repr

instance : Keyed UserQuestProgressRow := ⟨UserQuestProgressRow.id⟩

/-- The quests, `core.users.coins` and `lootbox.xp` of every user. -/
structure QuestAdminDb where
  quests : Table UserQuestProgressRow := .empty
  coins : Nat → Int := fun _ ↦ 0
  xp : Nat → Option Int := fun _ ↦ none

inductive QuestAdminError where
  | invalidQuestPatch
  | questNotFound (progressId : Nat)
deriving DecidableEq, Repr

/-- `get_user_quest_progress` -/
def getUserQuestProgress (userId progressId : Nat) (d : QuestAdminDb) : Option UserQuestProgressRow :=
  (d.quests.get? progressId).filter fun q ↦ q.userId = userId

/-- `base.update(explicit)` -/
def Progress.update (base : Progress) (explicit : PatchQuestProgress) : Progress :=
  { base with
    current := base.current.update (explicit.current.map (↑))
    target := base.target.update explicit.target
    percentage := base.percentage.update (explicit.percentage.map (↑))
    details := base.details.update explicit.details
    completedMapIds := base.completedMapIds.update explicit.completedMapIds
    countedMapIds := base.countedMapIds.update explicit.countedMapIds
    medals := base.medals.update explicit.medals
    mapId := base.mapId.update explicit.mapId
    targetTime := base.targetTime.update explicit.targetTime
    targetType := base.targetType.update explicit.targetType
    medalType := base.medalType.update explicit.medalType
    bestAttempt := base.bestAttempt.update explicit.bestAttempt
    lastAttempt := base.lastAttempt.update explicit.lastAttempt
    rivalUserId := base.rivalUserId.update explicit.rivalUserId
    rivalTime := base.rivalTime.update explicit.rivalTime
    completed := base.completed.update explicit.completed
    medalEarned := base.medalEarned.update explicit.medalEarned }

/-- `admin_update_user_quest` of the repository; `none` leaves a column alone.  The rewards are those
of the row as it was. -/
def UserQuestProgressRow.adminUpdate (questData : Option QuestDict) (progress : Option Progress)
    (completedAt : Option (Option Int)) (claimed : Option Bool) (now : Int) (q : UserQuestProgressRow) :
    UserQuestProgressRow :=
  { q with
    questData := questData.getD q.questData
    progress := progress.getD q.progress
    completedAt := completedAt.getD q.completedAt
    claimedAt := (claimed.map fun c ↦ if c then some now else none).getD q.claimedAt
    coinsRewarded :=
      (claimed.map fun c ↦ if c then q.questData.coinReward.get else none).getD q.coinsRewarded
    xpRewarded :=
      (claimed.map fun c ↦ if c then q.questData.xpReward.get else none).getD q.xpRewarded }

/-- The rewards of a row that is claimed, each unless it is missing or zero. -/
def payRewards (userId : Nat) (questData : QuestDict) (d : QuestAdminDb) : QuestAdminDb :=
  let coinReward := questData.coinReward.get.getD 0
  let xpReward := questData.xpReward.get.getD 0
  { d with
    coins := Function.update d.coins userId (d.coins userId + coinReward)
    xp := if xpReward = 0 then d.xp
      else Function.update d.xp userId (some ((d.xp userId).getD 0 + xpReward)) }

/-- `progress_dict` -/
def updatedProgress (data : AdminUpdateUserQuestRequest) (existing : Progress)
    (requirements : Requirements) : Option Progress :=
  let autoPatched :=
    if data.completed = some true then
      some (autoPatchProgressForCompletion existing requirements)
    else none
  match data.progress with
  | some explicit => some ((autoPatched.getD existing).update explicit)
  | none => autoPatched

/-- `admin_update_user_quest` -/
def adminUpdateUserQuest (now : Int) (userId progressId : Nat) (data : AdminUpdateUserQuestRequest)
    (d : QuestAdminDb) : Except QuestAdminError QuestAdminDb :=
  if data = {} then .error .invalidQuestPatch
  else
    match getUserQuestProgress userId progressId d with
    | none => .error (.questNotFound progressId)
    | some existing =>
        let questData := data.questData.map (mergeQuestDataPatch existing.questData)
        let effective := questData.getD existing.questData
        let progress := updatedProgress data existing.progress effective.requirementsOrEmpty
        let completedAt := data.completed.map fun c ↦ if c then some now else none
        let updated := { d with
          quests := d.quests.modify (fun r ↦ r.id = progressId)
            (UserQuestProgressRow.adminUpdate questData progress completedAt data.claimed now) }
        .ok (if data.claimed = some true ∧ existing.claimedAt = none then
          payRewards userId effective updated else updated)

end Genjishimada.Services.QuestAdmin
