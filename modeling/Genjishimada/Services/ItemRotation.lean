import Genjishimada.Repository.ItemRotation

/-!
# `services/store_service.py`: the rotation of items
-/

namespace Genjishimada.Services

open Library Migrations Repository

inductive ItemRotationError where
  | invalidRotationItemCount (itemCount : Int)
  | invalidKeyType (keyType : String)
  | /-- The database raises: an exception of `store.generate_rotation`, or a failed check. -/
    database
deriving DecidableEq, Repr

/-- `ROTATION_ITEM_MIN` -/
def rotationItemMin : Int := 3

/-- `ROTATION_ITEM_MAX` -/
def rotationItemMax : Int := 5

def validateRotationItemCount (itemCount : Int) : Except ItemRotationError Unit :=
  if itemCount < rotationItemMin ∨ rotationItemMax < itemCount then
    .error (.invalidRotationItemCount itemCount)
  else .ok ()

def generateItemRotation (itemCount now : Int) (draw : RotationDraw) (db : ItemDb) :
    Except ItemRotationError (GeneratedItems × ItemDb) := do
  validateRotationItemCount itemCount
  (generateRotation itemCount now draw db).elim (.error .database) .ok

def ensureKeyTypeExists (db : ItemDb) (keyType : String) : Except ItemRotationError Unit :=
  if keyType ∈ db.keyTypes then .ok () else .error (.invalidKeyType keyType)

/-- `update_config` -/
def updateItemConfig (rotationPeriodDays : Option Int) (activeKeyType : Option String)
    (db : ItemDb) : Except ItemRotationError ItemDb :=
  match activeKeyType.map (ensureKeyTypeExists db) with
  | some (.error e) => .error e
  | _ => (updateStoreConfig rotationPeriodDays activeKeyType db).elim (.error .database) .ok

structure RotationItemResponse where
  itemName : String
  itemType : String
  keyType : String
  rarity : String
  price : Int
  owned : Bool := false
deriving DecidableEq, Repr

structure RotationResponse where
  rotationId : Nat
  availableUntil : Int
  items : List RotationItemResponse
deriving DecidableEq, Repr

/-- The item, and whether the user owns it. -/
def RotationRow.response (owned : RewardKey → Bool) (r : RotationRow) : RotationItemResponse where
  itemName := r.itemName
  itemType := r.itemType
  keyType := r.keyType
  rarity := r.rarity
  price := r.price
  owned := owned r.rewardKey

/-- `get_current_rotation`; `owned` is what `check_user_has_reward` finds for the user, if there is
one, and `clock` the time at which the service asks for it. -/
def getCurrentRotation (collate : Shuffle RotationRow) (owned : RewardKey → Bool) (now clock : Int)
    (db : ItemDb) : RotationResponse :=
  match fetchCurrentRotation collate now db with
  | [] => { rotationId := 0, availableUntil := clock, items := [] }
  | item :: items =>
      { rotationId := item.rotationId
        availableUntil := item.availableUntil
        items := (item :: items).map (RotationRow.response owned) }

end Genjishimada.Services
