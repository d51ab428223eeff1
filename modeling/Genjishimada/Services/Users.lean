import Genjishimada.Library.Program
import Genjishimada.Repository.OverwatchUsernames

/-!
# `set_overwatch_usernames` of `services/users_service.py`

One statement deletes the usernames of the user and one inserts each of the new ones; they are
not in a transaction.  `lost` tells which statement fails for a reason of its own (no connection,
a text that cannot be stored), with no effect.
-/

namespace Genjishimada.Services.UsersService

open Repository

inductive UsersError where
  | userNotFound (userId : Nat)
  | duplicateOverwatchUsername (userId : Nat) (username : String)
  | /-- What a failing statement raises. -/
    database
deriving DecidableEq, Repr

/-- A statement of its own; `lost` if it fails. -/
def statement (lost : Bool) (f : OverwatchDb → Except UsernameRefusal Unit × OverwatchDb) :
    EStateM UsersError OverwatchDb (Except UsernameRefusal Unit) := fun d ↦
  if lost then .error .database d else .ok (f d).1 (f d).2

/-- The loop of `set_overwatch_usernames`, its first statement being number `i`. -/
def insertItems (lost : Nat → Bool) (userId : Nat) :
    Nat → List OverwatchUsernameItem → EStateM UsersError OverwatchDb Unit
  | _, [] => return
  | i, item :: items => do
      match ← statement (lost i) fun d ↦ d.insertOverwatchUsername userId item with
      | .error .foreignKey => throw (.userNotFound userId)
      | .error .unique => throw (.duplicateOverwatchUsername userId item.username)
      | .ok _ => insertItems lost userId (i + 1) items

/-- `set_overwatch_usernames` -/
def setOverwatchUsernames (lost : Nat → Bool) (userId : Nat)
    (newUsernames : List OverwatchUsernameItem) : EStateM UsersError OverwatchDb Unit := do
  let _ ← statement (lost 0) fun d ↦ (.ok (), d.deleteOverwatchUsernames userId)
  insertItems lost userId 1 newUsernames

end Genjishimada.Services.UsersService
