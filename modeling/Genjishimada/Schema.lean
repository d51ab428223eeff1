import Genjishimada.Library.Table
import Genjishimada.Sdk.Quests

/-!
# The tables

The columns of `tournaments.*`, `core.maps`, `core.completions`, `maps.medals`,
`lootbox.xp` and the quests in `store.*` that the modelled services read or write, as
migrations 0001, 0014 and 0019 to 0033 leave them.  Every table carries its primary
key in its type, so a state with two rows of one key cannot be built; a unique index
on a user (`streaks`, `xp`) is modelled by making the user the key.  Foreign keys to
`core.users` always hold and the users themselves are only a display name.
-/

namespace Genjishimada

open Library Sdk

/-! ## `core` -/

/-- `core.maps.playtesting` -/
inductive PlaytestStatus where
  | inProgress
  | approved
  | rejected
deriving DecidableEq, Repr

/-- A row of `core.maps`. -/
structure CoreMap where
  id : Nat
  code : Option String
  originalCode : Option String := none
  mapName : String := ""
  category : String := ""
  difficulty : DifficultyAll
  official : Bool := true
  archived : Bool := false
  playtesting : PlaytestStatus := .approved
  rawDifficulty : Rat := 0
deriving DecidableEq, Repr

instance : Keyed CoreMap := ⟨CoreMap.id⟩

/-- A row of `core.completions`. -/
structure CoreCompletion where
  id : Nat
  mapId : Nat
  userId : Nat
  /-- Hundredths of a second. -/
  time : Int
  screenshot : String
  video : Option String
  verified : Bool := false
  verificationId : Option Nat := none
  completion : Bool
  insertedAt : Int
  verifiedBy : Option Nat := none
  legacy : Bool := false
  reason : Option String := none
  tournamentCompletionId : Option Nat := none
deriving DecidableEq, Repr

instance : Keyed CoreCompletion := ⟨CoreCompletion.id⟩

/-- `verified = FALSE AND verified_by IS NULL` -/
def CoreCompletion.pending (c : CoreCompletion) : Bool := !c.verified && c.verifiedBy.isNone

/-- `verified = FALSE AND verified_by IS NOT NULL` -/
def CoreCompletion.rejected (c : CoreCompletion) : Bool := !c.verified && c.verifiedBy.isSome

/-! ## `tournaments` -/

/-- The singleton row of `tournaments.config`. -/
structure Config where
  blacklistWeeks : Nat := 4
  cadence : Cadence := .weekly
  anchorWeekday : Nat := 1
  /-- Seconds since midnight. -/
  anchorTime : Nat := 0
  anchorTz : String := "UTC"
  transitionsPaused : Bool := false
  debugCycleSeconds : Option Nat := none
deriving DecidableEq, Repr

/-- A row of `tournaments.categories`. -/
structure Category where
  id : Nat
  name : String
  difficulties : List DifficultyTop
  participationXp : Int := 0
  placementXp : List PlacementXpTier := []
  streakXp : List StreakXpTier := []
  isActive : Bool := true
deriving DecidableEq, Repr

instance : Keyed Category := ⟨Category.id⟩

/-- A row of `tournaments.editions`. -/
structure Edition where
  id : Nat
  startedAt : Int
  endsAt : Int
  status : EditionStatus := .active
  startAnnounced : Bool := false
deriving DecidableEq, Repr

instance : Keyed Edition := ⟨Edition.id⟩

/-- A row of `tournaments.cycles`. -/
structure Cycle where
  id : Nat
  categoryId : Nat
  mapId : Nat
  status : CycleStatus := .pending
  startedAt : Option Int := none
  editionId : Option Nat := none
deriving DecidableEq, Repr

instance : Keyed Cycle := ⟨Cycle.id⟩

/-- A row of `tournaments.completions`. -/
structure Completion where
  id : Nat
  cycleId : Nat
  userId : Nat
  mapId : Nat
  time : Int
  screenshot : String := ""
  video : Option String := none
  status : CompletionStatus := .pending
  insertedAt : Int
deriving DecidableEq, Repr

instance : Keyed Completion := ⟨Completion.id⟩

/-- `verified boolean GENERATED ALWAYS AS (status = 'verified')` -/
def Completion.verified (c : Completion) : Bool := c.status = .verified

/-- `completion boolean GENERATED ALWAYS AS (video IS NOT NULL)` -/
def Completion.completion (c : Completion) : Bool := c.video.isSome

/-- A row of `tournaments.streaks`, keyed by its unique user. -/
structure Streak where
  userId : Nat
  currentStreak : Nat
  maxStreak : Nat
  lastCycleId : Option Nat
deriving DecidableEq, Repr

instance : Keyed Streak := ⟨Streak.userId⟩

/-- A row of `tournaments.xp_grants`, the grant ledger. -/
structure XpGrant where
  cycleId : Nat
  userId : Nat
  reason : GrantReason
  amount : Int
deriving DecidableEq, Repr

/-- A field of a `jsonb` payload, as `msgspec.convert` finds it. -/
inductive Field (α : Type) where
  | absent
  | malformed
  | value (a : α)
deriving DecidableEq, Repr

/-- The `payload` of a pending transition, by the keys the event structs read. -/
structure Payload where
  editionId : Field Nat := .absent
  results : Field (List TournamentCycleCompletedEvent) := .absent
  started : Field (List TournamentCycleStartedEvent) := .absent
  resultsPending : Field Bool := .absent
deriving DecidableEq, Repr

/-- A row of `tournaments.pending_transitions`, the outbox. -/
structure PendingTransition where
  id : Nat
  cycleId : Option Nat
  editionId : Option Nat
  eventType : TransitionEventType
  payload : Payload
  published : Bool := false
  createdAt : Int
deriving DecidableEq, Repr

instance : Keyed PendingTransition := ⟨PendingTransition.id⟩

/-! ## `maps` and `store` -/

/-- A row of `maps.medals`, keyed by its map. -/
structure MedalThresholds where
  mapId : Nat
  gold : Option Int := none
  silver : Option Int := none
  bronze : Option Int := none
deriving DecidableEq, Repr

instance : Keyed MedalThresholds := ⟨MedalThresholds.mapId⟩

/-- The `CASE` of the queries that show a medal: the best whose threshold a time meets. -/
def medalFor (md : Option MedalThresholds) (time : Int) : Option Medal :=
  if (md.bind MedalThresholds.gold).any (time ≤ ·) then some .gold
  else if (md.bind MedalThresholds.silver).any (time ≤ ·) then some .silver
  else if (md.bind MedalThresholds.bronze).any (time ≤ ·) then some .bronze
  else none

/-- A row of `store.quest_rotation`: a global quest, or the bounty of one user. -/
structure RotationQuest where
  id : Nat
  rotationId : Nat
  questId : Option Nat := none
  userId : Option Nat := none
  requirements : QuestRequirements
deriving DecidableEq, Repr

instance : Keyed RotationQuest := ⟨RotationQuest.id⟩

/-- A row of `store.user_quest_progress`. -/
structure UserQuestProgress where
  id : Nat
  userId : Nat
  rotationId : Nat
  questId : Option Nat := none
  requirements : QuestRequirements
  progress : QuestProgress
  completedAt : Option Int := none
deriving DecidableEq, Repr

instance : Keyed UserQuestProgress := ⟨UserQuestProgress.id⟩

/-! ## `lootbox` -/

/-- A row of `lootbox.xp`, keyed by its user. -/
structure UserXp where
  userId : Nat
  amount : Int
deriving DecidableEq, Repr

instance : Keyed UserXp := ⟨UserXp.userId⟩

/-! ## The database -/

/-- A state of the database. -/
structure Db where
  config : Config := {}
  categories : Table Category := .empty
  maps : Table CoreMap := .empty
  coreCompletions : Table CoreCompletion := .empty
  editions : Table Edition := .empty
  cycles : Table Cycle := .empty
  completions : Table Completion := .empty
  streaks : Table Streak := .empty
  xpGrants : List XpGrant := []
  pendingTransitions : Table PendingTransition := .empty
  medals : Table MedalThresholds := .empty
  /-- `store.quest_config.current_rotation_id` -/
  currentRotationId : Option Nat := none
  rotationQuests : Table RotationQuest := .empty
  questProgress : Table UserQuestProgress := .empty
  xp : Table UserXp := .empty
  /-- `lootbox.xp_multiplier`, `numeric(4, 2)`. -/
  xpMultiplier : Rat := 1
  /-- `COALESCE(global_name, nickname, 'Unknown')` of a user. -/
  userName : Nat → String := fun _ ↦ "Unknown"
  /-- The `completion_id` of every row of `users.suspicious_flags`. -/
  suspiciousFlags : List Nat := []

end Genjishimada
