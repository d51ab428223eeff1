import Genjishimada.Library.Table

/-!
# `repository/users_repository.py` and what refers to a user

The columns that reference `core.users`, with the rule each foreign key declares, and the two
statements that link a fake member to a real user.  A row is kept with its key, its users and
what a cascade from another table needs; the foreign keys that only name one user are
`references`, told apart by their table.
-/

namespace Genjishimada.Repository

open Library

/-- A row of `maps.creators`. -/
structure MapCreator where
  mapId : Nat
  userId : Nat
  isPrimary : Bool := false
deriving DecidableEq, Repr

/-- A row of `maps.guides`. -/
structure Guide where
  id : Nat
  mapId : Nat
  url : String
  userId : Option Nat
deriving DecidableEq, Repr

/-- A row of `core.completions`. -/
structure UserRun where
  id : Nat
  mapId : Nat
  userId : Nat
  messageId : Option Nat := none
  verifiedBy : Option Nat := none
deriving DecidableEq, Repr

/-- A row of `maps.ratings`. -/
structure UserRating where
  id : Nat
  mapId : Nat
  userId : Option Nat
  quality : Option Nat := none
deriving DecidableEq, Repr

/-- A row of `playtests.votes`. -/
structure UserVote where
  id : Nat
  threadId : Nat
  userId : Option Nat
  difficulty : Nat
deriving DecidableEq, Repr

/-- A row of `completions.upvotes`. -/
structure Upvote where
  id : Nat
  userId : Nat
  messageId : Option Nat
deriving DecidableEq, Repr

/-- A row of `users.suspicious_flags`. -/
structure SuspiciousFlag where
  id : Nat
  userId : Option Nat
  completionId : Option Nat
  flaggedBy : Option Nat
deriving DecidableEq, Repr

/-- The other columns that reference `core.users`. -/
inductive UserColumn where
  | clicks | mastery | xp | rankCardAvatar | rankCardBackground | rankCardBadges
  | editRequestCreatedBy | editRequestResolvedBy
  | staleAlerts | notificationSettings | overwatchUsernames | userKeys | userRewards
  | changeRequests | emailAuth | emailTokens | sessions | rememberTokens | notificationEvents
  | notificationPreferences | purchases | questRotation | questProgress
  | tournamentCompletions | tournamentStreaks | tournamentXpGrants
deriving DecidableEq, Repr

/-- The column is declared without `ON DELETE CASCADE`. -/
def UserColumn.restricts : UserColumn → Bool
  | .clicks | .mastery | .xp | .rankCardAvatar | .rankCardBackground | .rankCardBadges
  | .editRequestCreatedBy | .editRequestResolvedBy => true
  | _ => false

/-- A row of one of the other tables. -/
structure Reference where
  column : UserColumn
  rowId : Nat
  userId : Nat
deriving DecidableEq, Repr

instance : Keyed Guide := ⟨Guide.id⟩
instance : Keyed UserRun := ⟨UserRun.id⟩
instance : Keyed UserRating := ⟨UserRating.id⟩
instance : Keyed UserVote := ⟨UserVote.id⟩
instance : Keyed Upvote := ⟨Upvote.id⟩
instance : Keyed SuspiciousFlag := ⟨SuspiciousFlag.id⟩

/-- The users and what refers to them. -/
structure UsersDb where
  users : List Nat := []
  creators : List MapCreator := []
  guides : Table Guide := .empty
  completions : Table UserRun := .empty
  ratings : Table UserRating := .empty
  votes : Table UserVote := .empty
  upvotes : Table Upvote := .empty
  flags : Table SuspiciousFlag := .empty
  references : List Reference := []

namespace UsersDb

/-- `check_user_exists` -/
def checkUserExists (d : UsersDb) (userId : Nat) : Bool := userId ∈ d.users

/-- The primary key of `maps.creators`: a map that credits both users. -/
def creditsBoth (d : UsersDb) (fake real : Nat) : Bool :=
  fake ≠ real && d.creators.any fun c ↦ c.userId = fake &&
    d.creators.any fun c' ↦ c'.userId = real && c'.mapId = c.mapId

/-- `update_maps_creators_for_fake_member`; `none` if it violates the primary key. -/
def updateMapsCreatorsForFakeMember (d : UsersDb) (fake real : Nat) : Option UsersDb :=
  if d.creditsBoth fake real then none
  else some { d with
    creators := d.creators.map fun c ↦ if c.userId = fake then { c with userId := real } else c }

/-- What is deleted with a run of the user. -/
def ofRuns (d : UsersDb) (userId : Nat) (p : UserRun → Bool) : Bool :=
  d.completions.rows.any fun c ↦ c.userId = userId && p c

/-- A row refers to the user without `ON DELETE CASCADE`, and is not itself deleted. -/
def restricted (d : UsersDb) (userId : Nat) : Bool :=
  (d.references.any fun r ↦ r.userId = userId && r.column.restricts) ||
    d.completions.rows.any fun c ↦ c.verifiedBy = some userId && c.userId ≠ userId

/-- The rows that go with the user. -/
def cascade (d : UsersDb) (userId : Nat) : UsersDb where
  users := d.users.filter (· ≠ userId)
  creators := d.creators.filter (·.userId ≠ userId)
  guides := d.guides.delete (·.userId = some userId)
  completions := d.completions.delete (·.userId = userId)
  ratings := d.ratings.delete (·.userId = some userId)
  votes := d.votes.delete (·.userId = some userId)
  upvotes := d.upvotes.delete fun u ↦ u.userId = userId ||
    d.ofRuns userId fun c ↦ c.messageId.isSome && c.messageId = u.messageId
  flags := d.flags.delete fun f ↦ f.userId = some userId || f.flaggedBy = some userId ||
    d.ofRuns userId fun c ↦ some c.id = f.completionId
  references := d.references.filter (·.userId ≠ userId)

/-- `delete_user`; `none` if a foreign key forbids it. -/
def deleteUser (d : UsersDb) (userId : Nat) : Option UsersDb :=
  if userId ∈ d.users then
    if d.restricted userId then none else some (d.cascade userId)
  else some d

end UsersDb

end Genjishimada.Repository
