import Genjishimada.Library.Cycle
import Genjishimada.Schema

/-!
# `repository/lootbox_repository.py`: tiers of XP

The divisions are those of `integer`: they round toward zero, a remainder has the sign of what is
divided, and a result outside the 32 bits raises.
-/

namespace Genjishimada.Repository

open Library

/-! ## The tables -/

/-- `lootbox.main_tiers` -/
def mainTiers : List (Int × String) :=
  [(0, "Newcomer"), (1, "Initiate"), (2, "Apprentice"), (3, "Disciple"), (4, "Enthusiast"),
    (5, "Explorer"), (6, "Visionary"), (7, "Aficionado"), (8, "Virtuoso"), (9, "Savant"),
    (10, "Prodigy"), (11, "Shadow"), (12, "Shinobi"), (13, "Assassin"), (14, "Ronin"),
    (15, "Shogun"), (16, "Dragon"), (17, "Cyber Ninja"), (18, "Legend"), (19, "Mythic")]

/-- `lootbox.sub_tiers` -/
def subTiers : List (Int × String) := [(0, "I"), (1, "II"), (2, "III"), (3, "IV"), (4, "V")]

/-! ## `integer` -/

inductive XpError where
  | integerOutOfRange
deriving DecidableEq, Repr

/-- A value of `integer`. -/
def int4 (n : Int) : Except XpError Int :=
  if -2147483648 ≤ n ∧ n ≤ 2147483647 then .ok n else .error .integerOutOfRange

/-! ## `fetch_user_xp_summary` -/

/-- `main || ' ' || sub`, `NULL` when one of them is. -/
def fullName (main sub : Option String) : Option String :=
  main.bind fun m ↦ sub.map fun s ↦ m ++ " " ++ s

/-- `xp / 100` -/
def rawTier (xp : Int) : Int := xp.tdiv 100

/-- `(xp / 100) % 100` -/
def normalizedTier (xp : Int) : Int := (rawTier xp).tmod 100

/-- `(xp / 100) / 100` -/
def prestigeLevel (xp : Int) : Int := (rawTier xp).tdiv 100

def currentMainTierName (xp : Int) : Option String :=
  joinName mainTiers ((normalizedTier xp).tdiv 5)

def currentSubTierName (xp : Int) : Option String := joinName subTiers ((rawTier xp).tmod 5)

def currentFullTierName (xp : Int) : Option String :=
  fullName (currentMainTierName xp) (currentSubTierName xp)

structure XpSummary where
  xp : Int
  rawTier : Int
  normalizedTier : Int
  prestigeLevel : Int
  currentMainTierName : Option String
  currentSubTierName : Option String
  currentFullTierName : Option String
  nextMainTierName : Option String
  nextSubTierName : Option String
  nextFullTierName : Option String
  nextSubTierXpRequired : Int
  nextSubTierXpTotal : Int
  nextMainTierXpRequired : Int
  nextMainTierXpTotal : Int
deriving DecidableEq, Repr

/-- The row for an amount of XP. -/
def xpSummary (xp : Int) : Except XpError XpSummary := do
  let main := currentMainTierName xp
  let nextMain := joinName mainTiers (((normalizedTier xp).tdiv 5 + 1).tmod 20)
  let nextSub := joinName subTiers ((rawTier xp + 1).tmod 5)
  let nextSubTotal ← int4 ((rawTier xp + 1) * 100)
  let nextMainTotal ←
    int4 ((((normalizedTier xp).tdiv 5 + 1) * 5 + prestigeLevel xp * 100) * 100)
  return {
    xp
    rawTier := rawTier xp
    normalizedTier := normalizedTier xp
    prestigeLevel := prestigeLevel xp
    currentMainTierName := main
    currentSubTierName := currentSubTierName xp
    currentFullTierName := currentFullTierName xp
    nextMainTierName := nextMain
    nextSubTierName := nextSub
    nextFullTierName :=
      if (rawTier xp).tmod 5 = 4 then fullName nextMain nextSub else fullName main nextSub
    nextSubTierXpRequired := nextSubTotal - xp
    nextSubTierXpTotal := nextSubTotal
    nextMainTierXpRequired := nextMainTotal - xp
    nextMainTierXpTotal := nextMainTotal }

/-- `coalesce(xp.amount, 0)` -/
def userXp (db : Db) (userId : Nat) : Int := ((db.xp.get? userId).map UserXp.amount).getD 0

/-- No row for an id that is not in `core.users`. -/
def fetchUserXpSummary (users : List Nat) (db : Db) (userId : Nat) :
    Except XpError (Option XpSummary) :=
  if userId ∈ users then (xpSummary (userXp db userId)).map some else .ok none

/-! ## `fetch_xp_tier_change` -/

inductive RankChange where
  | mainTierRankUp
  | subTierRankUp
deriving DecidableEq, Repr

structure XpTierChange where
  oldXp : Int
  newXp : Int
  oldMainTierName : String
  newMainTierName : String
  oldSubTierName : Option String
  newSubTierName : Option String
  oldPrestigeLevel : Int
  newPrestigeLevel : Int
  rankChangeType : Option RankChange
  prestigeChange : Bool
deriving DecidableEq, Repr

/-- `a != b`, where a comparison with `NULL` does not hold. -/
def sqlNe (a b : Option String) : Bool := a.any fun x ↦ b.any fun y ↦ x ≠ y

/-- A row of `old_tier` and one of `new_tier`. -/
def tierChangeRow (oldXp newXp : Int) (oldMain newMain : String) : XpTierChange :=
  let oldSub := currentSubTierName oldXp
  let newSub := currentSubTierName newXp
  { oldXp
    newXp
    oldMainTierName := oldMain
    newMainTierName := newMain
    oldSubTierName := oldSub
    newSubTierName := newSub
    oldPrestigeLevel := prestigeLevel oldXp
    newPrestigeLevel := prestigeLevel newXp
    rankChangeType :=
      if oldMain ≠ newMain then some .mainTierRankUp
      else if sqlNe oldSub newSub = true then some .subTierRankUp
      else none
    prestigeChange := prestigeLevel oldXp ≠ prestigeLevel newXp }

/-- No row for an amount without a main tier. -/
def fetchXpTierChange (oldXp newXp : Int) : Except XpError (Option XpTierChange) := do
  let oldXp ← int4 oldXp
  let newXp ← int4 newXp
  return (currentMainTierName oldXp).bind fun oldMain ↦
    (currentMainTierName newXp).map (tierChangeRow oldXp newXp oldMain)

end Genjishimada.Repository
