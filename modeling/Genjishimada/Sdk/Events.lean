import Mathlib.Data.Rat.Defs

/-!
# `genjishimada_sdk`: difficulties, statuses and the event structs

The enumerations the database constrains by `CHECK`, and the structs that travel
over the broker.  Instants are integers (seconds since the epoch); a run's time is
`numeric(10, 2)` and is kept in hundredths of a second.
-/

namespace Genjishimada.Sdk

/-! ## Difficulties -/

/-- `DifficultyTop` -/
inductive DifficultyTop where
  | easy | medium | hard | veryHard | extreme | hell
deriving DecidableEq, Repr

/-- `DifficultyAll` -/
inductive DifficultyAll where
  | easyMinus | easy | easyPlus
  | mediumMinus | medium | mediumPlus
  | hardMinus | hard | hardPlus
  | veryHardMinus | veryHard | veryHardPlus
  | extremeMinus | extreme | extremePlus
  | hell
deriving DecidableEq, Repr

/-- `re.sub(r"\s*[-+]\s*$", "", difficulty)`: the label without its sign. -/
def DifficultyAll.base : DifficultyAll → DifficultyTop
  | .easyMinus | .easy | .easyPlus => .easy
  | .mediumMinus | .medium | .mediumPlus => .medium
  | .hardMinus | .hard | .hardPlus => .hard
  | .veryHardMinus | .veryHard | .veryHardPlus => .veryHard
  | .extremeMinus | .extreme | .extremePlus => .extreme
  | .hell => .hell

/-- The text of a difficulty. -/
def DifficultyAll.label : DifficultyAll → String
  | .easyMinus => "Easy -"
  | .easy => "Easy"
  | .easyPlus => "Easy +"
  | .mediumMinus => "Medium -"
  | .medium => "Medium"
  | .mediumPlus => "Medium +"
  | .hardMinus => "Hard -"
  | .hard => "Hard"
  | .hardPlus => "Hard +"
  | .veryHardMinus => "Very Hard -"
  | .veryHard => "Very Hard"
  | .veryHardPlus => "Very Hard +"
  | .extremeMinus => "Extreme -"
  | .extreme => "Extreme"
  | .extremePlus => "Extreme +"
  | .hell => "Hell"

/-! ## Statuses -/

/-- `Cadence` -/
inductive Cadence where
  | weekly
  | biweekly
deriving DecidableEq, Repr

/-- `EditionStatus`: active → awaiting_results → completed. -/
inductive EditionStatus where
  | active
  | awaitingResults
  | completed
deriving DecidableEq, Repr

/-- `CycleStatus`: pending → active → finalizing → completed. -/
inductive CycleStatus where
  | pending
  | active
  | finalizing
  | completed
deriving DecidableEq, Repr

/-- The tri-state `tournaments.completions.status`. -/
inductive CompletionStatus where
  | pending
  | verified
  | rejected
deriving DecidableEq, Repr

/-- The `CHECK`ed `pending_transitions.event_type`. -/
inductive TransitionEventType where
  | cycleStarted
  | cycleCompleted
  | editionRollover
  | editionResults
deriving DecidableEq, Repr

/-- The `CHECK`ed `xp_grants.reason`. -/
inductive GrantReason where
  | participation
  | placement
  | streak
deriving DecidableEq, Repr

/-! ## Reward tiers -/

structure PlacementXpTier where
  place : Nat
  xp : Int
deriving DecidableEq, Repr

structure StreakXpTier where
  threshold : Nat
  xp : Int
deriving DecidableEq, Repr

/-! ## Events -/

structure TournamentLeaderboardEntryResponse where
  rank : Nat
  userId : Nat
  name : String
  time : Int
  verified : Bool
  completion : Bool
deriving DecidableEq, Repr

structure TournamentCycleStartedEvent where
  cycleId : Nat
  categoryId : Nat
  mapId : Nat
  /-- `COALESCE(code, original_code)`, which is NULL for a map that never had one. -/
  mapCode : Option String
  mapName : String
  startedAt : Int
  endsAt : Int
deriving DecidableEq, Repr

structure TournamentCycleCompletedEvent where
  cycleId : Nat
  categoryId : Nat
  standings : List TournamentLeaderboardEntryResponse
  winnerUserId : Option Nat
deriving DecidableEq, Repr

structure TournamentRolloverEvent where
  editionId : Nat
  results : List TournamentCycleCompletedEvent
  started : List TournamentCycleStartedEvent
  resultsPending : Bool := false
deriving DecidableEq, Repr

structure TournamentEditionResultsEvent where
  editionId : Nat
  results : List TournamentCycleCompletedEvent
deriving DecidableEq, Repr

structure TournamentCompletionCreatedEvent where
  completionId : Nat
  cycleId : Nat
  userId : Nat
  time : Int
  video : Option String
  screenshot : String
deriving DecidableEq, Repr

structure TournamentVerificationChangedEvent where
  tournamentCompletionId : Nat
  cycleId : Nat
  userId : Nat
  verified : Bool
  time : Int
deriving DecidableEq, Repr

/-- `XP_TYPES` -/
inductive XpType where
  | mapSubmission | playtest | guide | completion | record | worldRecord | quest | other | tournament
deriving DecidableEq, Repr

structure XpGrantEvent where
  userId : Nat
  amount : Int
  type : XpType
  previousAmount : Int
  newAmount : Int
  reason : Option String
deriving DecidableEq, Repr

structure CompletionCreatedEvent where
  completionId : Nat
deriving DecidableEq, Repr

structure VerificationChangedEvent where
  completionId : Nat
  verified : Bool
  verifiedBy : Nat
  reason : Option String
deriving DecidableEq, Repr

structure VerificationMessageDeleteEvent where
  verificationId : Option Nat
deriving DecidableEq, Repr

/-- The bodies of the messages the modelled services publish. -/
inductive Event where
  | tournamentRollover (e : TournamentRolloverEvent)
  | tournamentEditionResults (e : TournamentEditionResultsEvent)
  | tournamentCompletionCreated (e : TournamentCompletionCreatedEvent)
  | tournamentVerificationChanged (e : TournamentVerificationChangedEvent)
  | xpGrant (e : XpGrantEvent)
  | completionCreated (e : CompletionCreatedEvent)
  | verificationChanged (e : VerificationChangedEvent)
  | verificationMessageDelete (e : VerificationMessageDeleteEvent)
deriving DecidableEq, Repr

end Genjishimada.Sdk
