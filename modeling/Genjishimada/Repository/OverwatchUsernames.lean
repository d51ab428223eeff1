import Genjishimada.Library.Table

/-!
# The Overwatch usernames of a user

The table `users.overwatch_usernames` and the two statements of
`repository/users_repository.py` that change it.  Besides the user, two constraints can refuse a
row: a user has a username once, and has one primary username.
-/

namespace Genjishimada.Repository

open Library

/-- `OverwatchUsernameItem` -/
structure OverwatchUsernameItem where
  username : String
  isPrimary : Bool := false
deriving DecidableEq, Repr

/-- A row of `users.overwatch_usernames`. -/
structure OverwatchUsername where
  id : Nat
  userId : Nat
  item : OverwatchUsernameItem
deriving DecidableEq, Repr

instance : Keyed OverwatchUsername := ⟨OverwatchUsername.id⟩

/-- `core.users` and the usernames. -/
structure OverwatchDb where
  users : List Nat := []
  usernames : Table OverwatchUsername := .empty

/-- Which constraint refuses a row. -/
inductive UsernameRefusal where
  | /-- `ForeignKeyViolationError` -/
    foreignKey
  | /-- `UniqueConstraintViolationError` -/
    unique
deriving DecidableEq, Repr

namespace OverwatchDb

variable (d : OverwatchDb)

/-- The usernames that are stored of a user. -/
def stored (userId : Nat) : List OverwatchUsernameItem :=
  (d.usernames.select fun r ↦ r.userId = userId).map (·.item)

/-- `delete_overwatch_usernames` -/
def deleteOverwatchUsernames (userId : Nat) : OverwatchDb :=
  { d with usernames := d.usernames.delete fun r ↦ r.userId = userId }

/-- A unique index has a row that `item` collides with. -/
def collides (userId : Nat) (item : OverwatchUsernameItem) : Bool :=
  (d.stored userId).any fun other ↦
    other.username = item.username || (other.isPrimary && item.isPrimary)

/-- `insert_overwatch_username`; a refused row uses up an id. -/
def insertOverwatchUsername (userId : Nat) (item : OverwatchUsernameItem) :
    Except UsernameRefusal Unit × OverwatchDb :=
  let refused := { d with usernames := d.usernames.skipTo (d.usernames.nextId + 1) }
  if d.collides userId item then (.error .unique, refused)
  else if userId ∉ d.users then (.error .foreignKey, refused)
  else (.ok (), { d with usernames := d.usernames.insert fun id ↦ { id, userId, item } })

end OverwatchDb

end Genjishimada.Repository
