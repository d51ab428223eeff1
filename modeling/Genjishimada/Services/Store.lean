import Genjishimada.Repository.Store
import Genjishimada.Services.Base
import Mathlib.Algebra.Order.Ring.Rat

/-!
# `services/store_service.py`: quest progress

Verifying a run updates the quests of the current rotation and un-verifying it reverts
them.  Both dispatch on the type of the quest and share `_event_matches_quest`, but
the event of a revert carries no medal.
-/

namespace Genjishimada.Services

open Library Sdk Repository

variable {ε : Type}

/-! ## Matching -/

/-- `requirements.get(...)` of a text: the empty text counts as none. -/
def requirementText (s : Option String) : Option String := s.filter fun t ↦ t ≠ ""

def matchCompleteMaps (requirements : QuestRequirements) (e : CompletionEventData) : Bool :=
  ((requirementText requirements.difficulty).all fun d ↦
      d = "any" || e.difficulty.label.toLower = d.toLower) &&
    ((requirementText requirements.category).all fun c ↦ e.category.toLower = c.toLower)

/-- Whether a medal is one the requirement asks for. -/
def medalCounts (requirements : QuestRequirements) (medal : Medal) : Bool :=
  (requirementText requirements.medalType).all fun m ↦
    m.toLower = "any" || medal.lower = m.toLower

def matchEarnMedals (requirements : QuestRequirements) (e : CompletionEventData) : Bool :=
  e.medal.any (medalCounts requirements)

def matchCompleteDifficultyRange (requirements : QuestRequirements) (e : CompletionEventData) :
    Bool :=
  e.difficulty.label.toLower = (requirements.difficulty.getD "").toLower

def matchMapSpecific (requirements : QuestRequirements) (e : CompletionEventData) : Bool :=
  some e.mapId = requirements.mapId

/-- `_event_matches_quest` of a `completion` event. -/
def eventMatchesQuest (requirements : QuestRequirements) (e : CompletionEventData) : Bool :=
  match requirements.type with
  | .completeMaps => matchCompleteMaps requirements e
  | .earnMedals => matchEarnMedals requirements e
  | .completeDifficultyRange => matchCompleteDifficultyRange requirements e
  | .beatTime | .beatRival | .completeMap => matchMapSpecific requirements e
  | .unknown => false

/-! ## Updating -/

/-- `details.get(difficulty, 0)` -/
def detailOf (details : List (String × Nat)) (difficulty : String) : Nat :=
  ((details.find? fun d ↦ d.1 = difficulty).map Prod.snd).getD 0

/-- `details[difficulty] = n`, or without the entry when `n` is zero. -/
def setDetail (details : List (String × Nat)) (difficulty : String) (n : Nat) :
    List (String × Nat) :=
  let rest := details.filter fun d ↦ d.1 ≠ difficulty
  if n = 0 then rest else rest ++ [(difficulty, n)]

/-- `_calculate_new_progress`; the ids are the `list` of a `set`. -/
def calculateNewProgress (progress : QuestProgress) (requirements : QuestRequirements)
    (e : CompletionEventData) : QuestProgress :=
  match requirements.type with
  | .completeMaps =>
      if e.mapId ∈ progress.completedMapIds then progress
      else
        let difficulty := e.difficulty.label.toLower
        { progress with
          completedMapIds := progress.completedMapIds.dedup ++ [e.mapId]
          current := progress.current + 1
          details :=
            setDetail progress.details difficulty (detailOf progress.details difficulty + 1) }
  | .earnMedals =>
      if e.mapId ∈ progress.countedMapIds then progress
      else
        { progress with
          countedMapIds := progress.countedMapIds.dedup ++ [e.mapId]
          current := progress.current + 1
          medals := progress.medals ++ [(e.mapId, e.medal)] }
  | .completeDifficultyRange =>
      if e.mapId ∈ progress.completedMapIds then progress
      else
        { progress with
          completedMapIds := progress.completedMapIds.dedup ++ [e.mapId]
          current := progress.current + 1 }
  | .beatTime | .beatRival =>
      let newTime : Rat := e.time
      { progress with
        lastAttempt := some newTime
        bestAttempt := some ((progress.bestAttempt.map fun best ↦ min best newTime).getD newTime) }
  | .completeMap =>
      { progress with completed := true, medalEarned := e.medal <|> progress.medalEarned }
  | .unknown => progress

/-! ## Reverting -/

def revertCompleteMaps (progress : QuestProgress) (e : CompletionEventData)
    (hasRemainingCompletion : Bool) : QuestProgress :=
  if e.mapId ∉ progress.completedMapIds ∨ hasRemainingCompletion then progress
  else
    let difficulty := e.difficulty.label.toLower
    { progress with
      completedMapIds := progress.completedMapIds.dedup.erase e.mapId
      current := progress.current - 1
      details := setDetail progress.details difficulty (detailOf progress.details difficulty - 1) }

def revertEarnMedals (progress : QuestProgress) (requirements : QuestRequirements)
    (e : CompletionEventData) (remainingMedals : List Medal) : QuestProgress :=
  if e.mapId ∉ progress.countedMapIds ∨ remainingMedals.any (medalCounts requirements) then progress
  else
    { progress with
      countedMapIds := progress.countedMapIds.dedup.erase e.mapId
      current := progress.current - 1
      medals := progress.medals.filter fun m ↦ m.1 ≠ e.mapId }

def revertCompleteDifficultyRange (progress : QuestProgress) (e : CompletionEventData)
    (hasRemainingCompletion : Bool) : QuestProgress :=
  if e.mapId ∉ progress.completedMapIds ∨ hasRemainingCompletion then progress
  else
    { progress with
      completedMapIds := progress.completedMapIds.dedup.erase e.mapId
      current := progress.current - 1 }

def revertBestTime (progress : QuestProgress) (remainingTimes : List Int) : QuestProgress :=
  let bestTime : Option Rat := remainingTimes.min?.map fun t ↦ t
  { progress with bestAttempt := bestTime, lastAttempt := bestTime }

def revertCompleteMap (progress : QuestProgress) (hasRemainingCompletion : Bool) : QuestProgress :=
  if hasRemainingCompletion then progress
  else { progress with completed := false, medalEarned := none }

/-- `_calculate_reverted_progress` -/
def calculateRevertedProgress (progress : QuestProgress) (requirements : QuestRequirements)
    (e : CompletionEventData) (remainingTimes : List Int) (remainingMedals : List Medal) :
    QuestProgress :=
  let hasRemainingCompletion := !remainingTimes.isEmpty
  match requirements.type with
  | .completeMaps => revertCompleteMaps progress e hasRemainingCompletion
  | .earnMedals => revertEarnMedals progress requirements e remainingMedals
  | .completeDifficultyRange => revertCompleteDifficultyRange progress e hasRemainingCompletion
  | .beatTime | .beatRival => revertBestTime progress remainingTimes
  | .completeMap => revertCompleteMap progress hasRemainingCompletion
  | .unknown => progress

/-! ## Completion -/

def isCompleteTimeTarget (progress : QuestProgress) (requirements : QuestRequirements) : Bool :=
  requirements.targetTime.any fun target ↦ progress.bestAttempt.any fun best ↦ best < target

def isQuestComplete (progress : QuestProgress) (requirements : QuestRequirements) : Bool :=
  match requirements.type with
  | .completeMaps | .earnMedals => requirements.count ≤ progress.current
  | .completeDifficultyRange => requirements.minCount ≤ progress.current
  | .beatTime | .beatRival => isCompleteTimeTarget progress requirements
  | .completeMap => progress.completed
  | .unknown => false

/-! ## Provisioning -/

/-- The personalized bounty of a user, as `generate_bounty_for_user` draws it. -/
inductive Bounty where
  | personalImprovement (mapId : Nat) (targetTime currentBest : Rat)
  | rivalChallenge (mapId : Nat) (targetTime : Rat)
  | gapFilling (mapId : Nat)
deriving DecidableEq, Repr

def Bounty.requirements : Bounty → QuestRequirements
  | personalImprovement mapId targetTime currentBest =>
      { type := .beatTime, mapId := some mapId, targetTime := some targetTime
        currentBest := some currentBest }
  | rivalChallenge mapId targetTime =>
      { type := .beatRival, mapId := some mapId, targetTime := some targetTime
        rivalTime := some targetTime }
  | gapFilling mapId => { type := .completeMap, mapId := some mapId }

/-- What provisioning a user draws at random. -/
structure Provision where
  generated : Option GeneratedRotation := none
  bounty : Bounty := .gapFilling 0

/-- The rows of a user who has none in the rotation yet. -/
def provisionQuests (userId rotationId : Nat) (bounty : Bounty) : Service Db Event ε PUnit := do
  let globalQuests ← query (getGlobalQuests rotationId)
  execute (seedGlobalProgress userId rotationId globalQuests)
  match ← query (getBountyForUser rotationId userId) with
  | some _ => return
  | none =>
      match ← query (insertBounty rotationId userId bounty.requirements) with
      | none => throw (.valueError "Rotation window not found for bounty insert.")
      | some db =>
          execute fun _ ↦ db
          execute (seedBountyProgress userId rotationId bounty.requirements)

def ensureUserQuestsForRotation (userId : Nat) (provision : Provision) :
    Service Db Event ε PUnit := do
  execute (checkAndGenerateQuestRotation provision.generated)
  match ← query getActiveRotation with
  | none => throw (.runtimeError "Quest rotation not available.")
  | some rotationId =>
      inTransaction do
        if ← query (hasProgressRows userId rotationId) then return
        else provisionQuests userId rotationId provision.bounty

/-! ## The two entry points -/

/-- What an update does to one quest; whether it has completed it. -/
def updateQuest (e : CompletionEventData) (now : Int) (quest : UserQuestProgress) :
    StateM Db Bool := fun db ↦
  if quest.completedAt.isSome || !eventMatchesQuest quest.requirements e then (false, db)
  else
    let newProgress := calculateNewProgress quest.progress quest.requirements e
    let db := setQuestProgress quest.id newProgress db
    if isQuestComplete newProgress quest.requirements then
      (true, markQuestComplete quest.id now db)
    else (false, db)

/-- The quests the event has completed. -/
def updateQuestProgress (userId : Nat) (e : CompletionEventData) (now : Int)
    (provision : Provision) : Service Db Event ε (List UserQuestProgress) := do
  ensureUserQuestsForRotation userId provision
  inTransaction do
    let quests ← query (getActiveUserQuests userId)
    let completed ← statements (quests.mapM (updateQuest e now))
    return ((quests.zip completed).filter Prod.snd).map Prod.fst

/-- What a revert does to one quest. -/
def revertQuest (e : CompletionEventData) (remainingTimes : List Int)
    (remainingMedals : List Medal) (quest : UserQuestProgress) : StateM Db PUnit := fun db ↦
  if quest.completedAt.isSome || !eventMatchesQuest quest.requirements e then (⟨⟩, db)
  else
    let newProgress :=
      calculateRevertedProgress quest.progress quest.requirements e remainingTimes remainingMedals
    if newProgress = quest.progress then (⟨⟩, db)
    else (⟨⟩, setQuestProgress quest.id newProgress db)

def revertQuestProgress (userId : Nat) (e : CompletionEventData) (remainingTimes : List Int)
    (remainingMedals : List Medal) (provision : Provision) : Service Db Event ε PUnit := do
  ensureUserQuestsForRotation userId provision
  inTransaction do
    let quests ← query (getActiveUserQuests userId)
    statements (quests.forM (revertQuest e remainingTimes remainingMedals))

/-! ## When provisioning raises -/

/-- There is no rotation, or the user has no quest in it and it has no global quest from
which a bounty could take its window. -/
def provisionFails (userId : Nat) (provision : Provision) (db : Db) : Bool :=
  let db := checkAndGenerateQuestRotation provision.generated db
  match getActiveRotation db with
  | none => true
  | some rotationId =>
      !hasProgressRows userId rotationId db && (getBountyForUser rotationId userId db).isNone &&
        !(db.rotationQuests.rows.any fun q ↦ q.rotationId = rotationId ∧ q.userId = none)

theorem rotationQuests_seedGlobalProgress (userId rotationId : Nat) (quests : List RotationQuest)
    (db : Db) :
    (seedGlobalProgress userId rotationId quests db).rotationQuests = db.rotationQuests := by
  rw [seedGlobalProgress]
  induction quests generalizing db with
  | nil => rfl
  | cons quest quests ih =>
      rw [List.foldl_cons, ih, seedProgress]
      split <;> rfl

theorem provisionQuests_raises (userId rotationId : Nat) (bounty : Bounty) (w : World Db Event) :
    raises ((provisionQuests userId rotationId bounty : Service Db Event ε PUnit) w) =
      ((getBountyForUser rotationId userId w.db).isNone &&
        !(w.db.rotationQuests.rows.any fun q ↦ q.rotationId = rotationId ∧ q.userId = none)) := by
  have hseeded := rotationQuests_seedGlobalProgress userId rotationId
    (getGlobalQuests rotationId w.db) w.db
  rw [provisionQuests, query_bind_apply, execute_bind_apply, query_bind_apply, getBountyForUser, hseeded, ← getBountyForUser]
  cases getBountyForUser rotationId userId w.db with
  | some _ => rfl
  | none =>
      dsimp only
      rw [query_bind_apply, insertBounty, hseeded]
      cases w.db.rotationQuests.rows.any fun q ↦ q.rotationId = rotationId ∧ q.userId = none with
      | false => rfl
      | true =>
          rw [if_pos rfl]
          split <;> rfl

theorem ensureUserQuestsForRotation_raises (userId : Nat) (provision : Provision)
    (w : World Db Event) :
    raises ((ensureUserQuestsForRotation userId provision : Service Db Event ε PUnit) w) =
      provisionFails userId provision w.db := by
  rw [ensureUserQuestsForRotation, execute_bind_apply, query_bind_apply, provisionFails]
  simp only
  cases getActiveRotation (checkAndGenerateQuestRotation provision.generated w.db) with
  | none => rfl
  | some rotationId =>
      simp only
      rw [raises_inTransaction]
      change raises ((if hasProgressRows userId rotationId
          (checkAndGenerateQuestRotation provision.generated w.db) then _ else _ :
        Service Db Event ε PUnit) _) = _
      cases hasProgressRows userId rotationId
          (checkAndGenerateQuestRotation provision.generated w.db) with
      | true => rfl
      | false =>
          rw [if_neg Bool.false_ne_true, provisionQuests_raises]
          rfl

/-- Updating the quests raises exactly when provisioning them does. -/
theorem updateQuestProgress_raises (userId : Nat) (e : CompletionEventData) (now : Int)
    (provision : Provision) (w : World Db Event) :
    raises ((updateQuestProgress userId e now provision : Service Db Event ε _) w) =
      provisionFails userId provision w.db := by
  rw [updateQuestProgress, raises_bind_of_ok, ensureUserQuestsForRotation_raises]
  intro _ w'
  rw [raises_inTransaction]
  rfl

theorem revertQuestProgress_raises (userId : Nat) (e : CompletionEventData)
    (remainingTimes : List Int) (remainingMedals : List Medal) (provision : Provision)
    (w : World Db Event) :
    raises ((revertQuestProgress userId e remainingTimes remainingMedals provision :
      Service Db Event ε PUnit) w) = provisionFails userId provision w.db := by
  rw [revertQuestProgress, raises_bind_of_ok, ensureUserQuestsForRotation_raises]
  intro _ w'
  rw [raises_inTransaction]
  rfl

/-! ## What the quest calls touch -/

/-- Nothing has changed but the rotation and the quests. -/
def OnlyQuests (db db' : Db) : Prop :=
  ∃ currentRotationId rotationQuests questProgress,
    db' = { db with
      currentRotationId := currentRotationId, rotationQuests := rotationQuests
      questProgress := questProgress }

namespace OnlyQuests

theorem refl (db : Db) : OnlyQuests db db := ⟨_, _, _, rfl⟩

theorem trans {a b c : Db} (h : OnlyQuests a b) (h' : OnlyQuests b c) : OnlyQuests a c := by
  obtain ⟨_, _, _, rfl⟩ := h
  obtain ⟨_, _, _, rfl⟩ := h'
  exact ⟨_, _, _, rfl⟩

end OnlyQuests

theorem checkAndGenerateQuestRotation_onlyQuests (generated : Option GeneratedRotation) (db : Db) :
    OnlyQuests db (checkAndGenerateQuestRotation generated db) := by
  cases generated with
  | none => exact .refl db
  | some rotation => exact ⟨_, _, _, rfl⟩

theorem seedProgress_onlyQuests (userId rotationId : Nat) (questId : Option Nat)
    (requirements : QuestRequirements) (db : Db) :
    OnlyQuests db (seedProgress userId rotationId questId requirements db) := by
  rw [seedProgress]
  split
  · exact .refl db
  · exact ⟨_, _, _, rfl⟩

theorem seedGlobalProgress_onlyQuests (userId rotationId : Nat) (quests : List RotationQuest)
    (db : Db) : OnlyQuests db (seedGlobalProgress userId rotationId quests db) := by
  rw [seedGlobalProgress]
  induction quests generalizing db with
  | nil => exact .refl db
  | cons quest quests ih => exact (seedProgress_onlyQuests _ _ _ _ db).trans (ih _)

theorem insertBounty_onlyQuests {userId rotationId : Nat} {requirements : QuestRequirements}
    {db db' : Db} (h : insertBounty rotationId userId requirements db = some db') :
    OnlyQuests db db' := by
  rw [insertBounty] at h
  split at h
  · split at h
    · obtain rfl := Option.some.inj h
      exact .refl db
    · obtain rfl := Option.some.inj h
      exact ⟨_, _, _, rfl⟩
  · cases h

theorem provisionQuests_onlyQuests (userId rotationId : Nat) (bounty : Bounty) :
    Moves OnlyQuests (provisionQuests userId rotationId bounty : Service Db Event ε PUnit) := by
  apply Moves.query_bind
  intro w
  refine Moves.bind (fun _ _ _ ↦ .trans)
    (Moves.execute (seedGlobalProgress_onlyQuests _ _ _)) (fun _ ↦ ?_) w
  apply Moves.query_bind
  intro w
  cases getBountyForUser rotationId userId w.db with
  | some _ => exact .refl _
  | none =>
      dsimp only
      rw [query_bind_apply]
      cases hinsert : insertBounty rotationId userId bounty.requirements w.db with
      | none => exact .refl _
      | some db => exact (insertBounty_onlyQuests hinsert).trans (seedProgress_onlyQuests _ _ _ _ _)

theorem ensureUserQuestsForRotation_onlyQuests (userId : Nat) (provision : Provision) :
    Moves OnlyQuests (ensureUserQuestsForRotation userId provision : Service Db Event ε PUnit) := by
  apply Moves.bind (fun _ _ _ ↦ .trans)
    (Moves.execute (checkAndGenerateQuestRotation_onlyQuests provision.generated))
  intro _
  apply Moves.query_bind
  intro w
  cases getActiveRotation w.db with
  | none => exact .refl _
  | some rotationId =>
      refine Moves.inTransaction .refl (Moves.query_bind fun w ↦ ?_) w
      cases hasProgressRows userId rotationId w.db with
      | true => exact .refl _
      | false => exact provisionQuests_onlyQuests _ _ _ w

theorem updateQuest_onlyQuests (e : CompletionEventData) (now : Int) (quest : UserQuestProgress) :
    Steps OnlyQuests (updateQuest e now quest) := by
  intro db
  simp only [updateQuest]
  split
  · exact .refl db
  · split
    · exact ⟨_, _, _, rfl⟩
    · exact ⟨_, _, _, rfl⟩

theorem revertQuest_onlyQuests (e : CompletionEventData) (remainingTimes : List Int)
    (remainingMedals : List Medal) (quest : UserQuestProgress) :
    Steps OnlyQuests (revertQuest e remainingTimes remainingMedals quest) := by
  intro db
  simp only [revertQuest]
  split
  · exact .refl db
  · split
    · exact .refl db
    · exact ⟨_, _, _, rfl⟩

theorem updateQuestProgress_onlyQuests (userId : Nat) (e : CompletionEventData) (now : Int)
    (provision : Provision) :
    Moves OnlyQuests (updateQuestProgress userId e now provision : Service Db Event ε _) := by
  apply Moves.bind (fun _ _ _ ↦ .trans) (ensureUserQuestsForRotation_onlyQuests userId provision)
  intro _
  refine Moves.inTransaction OnlyQuests.refl (Moves.query_bind fun w ↦ ?_)
  refine Moves.bind (fun _ _ _ ↦ .trans) (Moves.statements ?_) (fun _ ↦ Moves.pure .refl _) w
  exact Steps.mapM .refl (fun _ _ _ ↦ .trans) fun quest _ ↦ updateQuest_onlyQuests e now quest

theorem revertQuestProgress_onlyQuests (userId : Nat) (e : CompletionEventData)
    (remainingTimes : List Int) (remainingMedals : List Medal) (provision : Provision) :
    Moves OnlyQuests (revertQuestProgress userId e remainingTimes remainingMedals provision :
      Service Db Event ε PUnit) := by
  apply Moves.bind (fun _ _ _ ↦ .trans) (ensureUserQuestsForRotation_onlyQuests userId provision)
  intro _
  refine Moves.inTransaction OnlyQuests.refl (Moves.query_bind fun w ↦ ?_)
  refine Moves.statements ?_ w
  exact Steps.forM .refl (fun _ _ _ ↦ .trans) fun quest _ ↦
    revertQuest_onlyQuests e remainingTimes remainingMedals quest

/-! ## What the quest calls do not look at -/

section OffCore

variable {P : Table CoreCompletion → Table CoreCompletion → Prop}

end OffCore

end Genjishimada.Services
