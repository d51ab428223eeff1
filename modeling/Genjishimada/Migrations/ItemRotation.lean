import Genjishimada.Library.Calendar
import Genjishimada.Library.Table
import Genjishimada.Library.Timetable

/-!
# `0013_coin_store.sql` and `0015_coin_store_rotation_history.sql`: the rotation of items

`store.generate_rotation`, in the version of the later migration, and `store.check_and_rotate`.
`now`, the id that `gen_random_uuid` makes and the outcomes of `random()` are arguments.  `none` is
an exception, which aborts the transaction.
-/

namespace Genjishimada.Migrations

open Library

/-! ## The tables -/

/-- The primary key of `lootbox.reward_types`. -/
structure RewardKey where
  name : String
  type : String
  keyType : String
deriving DecidableEq, Repr

/-- A row of `lootbox.reward_types`. -/
structure RewardType extends RewardKey where
  rarity : Option String := none
deriving DecidableEq, Repr

/-- `lootbox.reward_types` -/
structure RewardTypes where
  rows : List RewardType := []
  nodup : (rows.map RewardType.toRewardKey).Nodup := by decide

/-- A row of `store.rotations`. -/
structure RotationRow where
  id : Nat
  rotationId : Nat
  itemName : String
  itemType : String
  keyType : String
  rarity : String
  price : Int
  availableFrom : Int
  availableUntil : Int
deriving DecidableEq, Repr

instance : Keyed RotationRow := ⟨RotationRow.id⟩

/-- The reward type that the row refers to. -/
def RotationRow.rewardKey (r : RotationRow) : RewardKey := ⟨r.itemName, r.itemType, r.keyType⟩

/-- When the items of a rotation are available. -/
def availability : Timetable RotationRow Nat Int where
  group := RotationRow.rotationId
  start := RotationRow.availableFrom
  stop := RotationRow.availableUntil

/-- The row of `store.config`, with the check of its period. -/
structure StoreConfig where
  rotationPeriodDays : Int := 7
  lastRotationAt : Int
  nextRotationAt : Int
  activeKeyType : String := "Classic"
  rotationPeriodDays_check : 0 < rotationPeriodDays := by decide
deriving DecidableEq, Repr

structure ItemDb where
  config : StoreConfig
  rewardTypes : RewardTypes := {}
  rotations : Table RotationRow := .empty
  /-- `lootbox.key_types` -/
  keyTypes : List String := []

/-! ## A new rotation -/

/-- What the database draws: the id of the rotation, `(random() * 2)::int`, and the orders in which
the three statements see the reward types. -/
structure RotationDraw where
  rotationId : Nat
  epicRoll : Fin 3
  random : String → Shuffle RewardType

structure GeneratedItems where
  rotationId : Nat
  itemsGenerated : Nat
  availableUntil : Int
deriving DecidableEq, Repr

/-- `SET available_until = now() WHERE available_from <= now() AND available_until > now()` -/
def expireActive (now : Int) (rotations : Table RotationRow) : Table RotationRow :=
  rotations.modify (availability.on now) fun r ↦ { r with availableUntil := now }

/-- A reward type that a rotation may offer. -/
def mayOffer (recentRotationIds : List Nat) (rarity : String) (rotations : Table RotationRow)
    (r : RewardType) : Bool :=
  r.rarity = some rarity ∧ r.type ≠ "coins" ∧
    ¬ rotations.rows.any fun sr ↦ sr.rotationId ∈ recentRotationIds ∧ sr.rewardKey = r.toRewardKey

/-- The row for a reward type. -/
def RewardType.offer (rotationId : Nat) (rarity : String) (price now availableUntil : Int)
    (r : RewardType) (id : Nat) : RotationRow where
  id := id
  rotationId := rotationId
  itemName := r.name
  itemType := r.type
  keyType := r.keyType
  rarity := rarity
  price := price
  availableFrom := now
  availableUntil := availableUntil

def insertItem (rotationId : Nat) (rarity : String) (price now availableUntil : Int)
    (rotations : Table RotationRow) (r : RewardType) : Table RotationRow :=
  rotations.insert (r.offer rotationId rarity price now availableUntil) fun _ ↦ rfl

theorem rows_insertItem (rotationId : Nat) (rarity : String) (price now availableUntil : Int)
    (rotations : Table RotationRow) (r : RewardType) :
    (insertItem rotationId rarity price now availableUntil rotations r).rows =
      rotations.rows ++ [r.offer rotationId rarity price now availableUntil rotations.nextId] := rfl

/-- The reward types that one of the three `INSERT`s selects. -/
def drawItems (recentRotationIds : List Nat) (draw : RotationDraw) (rarity : String) (count : Nat)
    (rewardTypes : RewardTypes) (rotations : Table RotationRow) : List RewardType :=
  ((draw.random rarity).order
    (rewardTypes.rows.filter (mayOffer recentRotationIds rarity rotations))).take count

/-- One of the three `INSERT`s, and its `ROW_COUNT`. -/
def insertOffers (recentRotationIds : List Nat) (draw : RotationDraw) (now availableUntil : Int)
    (rarity : String) (price : Int) (count : Nat) (rewardTypes : RewardTypes)
    (rotations : Table RotationRow) : Nat × Table RotationRow :=
  let items := drawItems recentRotationIds draw rarity count rewardTypes rotations
  (items.length,
    items.foldl (insertItem draw.rotationId rarity price now availableUntil) rotations)

/-- `v_epic_count` -/
def RotationDraw.epicCount (draw : RotationDraw) : Nat :=
  if draw.epicRoll = 0 then 1 else draw.epicRoll

/-- `store.generate_rotation` -/
def generateRotation (pItemCount now : Int) (draw : RotationDraw) (db : ItemDb) :
    Option (GeneratedItems × ItemDb) :=
  let rotations := expireActive now db.rotations
  let recentRotationIds := availability.newest 2 rotations.rows
  let availableUntil := now + db.config.rotationPeriodDays * microsPerDay
  let rareCount := pItemCount - 1 - draw.epicCount
  if rareCount < 0 then none
  else
    let insert := insertOffers recentRotationIds draw now availableUntil
    let (legendaries, rotations) := insert "legendary" 3000 1 db.rewardTypes rotations
    let (epics, rotations) := insert "epic" 1500 draw.epicCount db.rewardTypes rotations
    let (rares, rotations) := insert "rare" 750 rareCount.toNat db.rewardTypes rotations
    some ({ rotationId := draw.rotationId, itemsGenerated := legendaries + epics + rares
            availableUntil },
      { db with
        rotations
        config := { db.config with lastRotationAt := now, nextRotationAt := availableUntil } })

/-- `store.check_and_rotate`, and whether it got the advisory lock. -/
def checkAndRotate (lockAcquired : Bool) (now : Int) (draw : RotationDraw) (db : ItemDb) :
    Option ItemDb :=
  if !lockAcquired then some db
  else if db.config.nextRotationAt ≤ now then (generateRotation 5 now draw db).map Prod.snd
  else some db

end Genjishimada.Migrations
