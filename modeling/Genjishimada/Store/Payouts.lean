import Genjishimada.Services.QuestClaims
import Mathlib.Algebra.BigOperators.Group.Multiset.Basic
import Mathlib.Algebra.Order.Floor.Ring
import Mathlib.Data.Rat.Floor
import Mathlib.Tactic.Linarith

/-!
# What the three payouts pay

An admin update records on the row what the row was worth before its patch and pays what it is
worth after it.  The three ways to claim a quest pay the same coins, and the same XP when the
multiplier does not change the reward.
-/

namespace Genjishimada.Store

open Library Sdk Services

section Balance

variable (userId : Nat) (amount : Int) (db : RewardDb)

@[simp] theorem coins_addCoins : (addCoins userId amount db).coins userId = db.coins userId + amount :=
  if_pos rfl

@[simp] theorem xpOf_addCoins (u : Nat) : (addCoins userId amount db).xpOf u = db.xpOf u := rfl

@[simp] theorem xpOf_quests (quests : Table UserQuestRow) (u : Nat) :
    RewardDb.xpOf { db with quests := quests } u = db.xpOf u := rfl

@[simp] theorem quests_addCoins : (addCoins userId amount db).quests = db.quests := rfl

@[simp] theorem coins_addXp (u : Nat) : (addXp userId amount db).coins u = db.coins u := rfl

@[simp] theorem quests_addXp : (addXp userId amount db).quests = db.quests := rfl

@[simp] theorem xpOf_addXp : (addXp userId amount db).xpOf userId = db.xpOf userId + amount := by
  rw [RewardDb.xpOf, addXp]
  dsimp only
  rw [if_pos rfl]
  rfl

end Balance

/-! ## What an admin update records -/

section Admin

variable {userId : Nat} {q : UserQuestRow} {data : AdminUpdateUserQuestRequest} {db : RewardDb}

/-- The `quest_data` of the row after the patch. -/
def effectiveQuestData (data : AdminUpdateUserQuestRequest) (q : UserQuestRow) : QuestData :=
  (data.questData.map (mergeQuestDataPatch q.questData)).getD q.questData

theorem getUserQuestProgress_eq_some {progressId : Nat} :
    getUserQuestProgress userId progressId db = some q ↔
      q ∈ db.quests.rows ∧ q.id = progressId ∧ q.userId = userId := by
  rw [getUserQuestProgress, Option.filter_eq_some_iff, Table.get?_eq_some_iff, decide_eq_true_iff,
    and_assoc]
  exact Iff.rfl

/-- The row after the update. -/
theorem getUserQuestProgress_modify {db' : RewardDb} {f : UserQuestRow → UserQuestRow} {hf}
    (hquests : db'.quests = db.quests.modify (fun r ↦ r.id = q.id) f hf)
    (huser : (f q).userId = q.userId) (hq : getUserQuestProgress userId q.id db = some q) :
    getUserQuestProgress userId q.id db' = some (f q) := by
  obtain ⟨hmem, _, hown⟩ := getUserQuestProgress_eq_some.mp hq
  have hget : db.quests.get? q.id = some q := Table.get?_of_mem hmem
  rw [getUserQuestProgress, hquests, Table.get?_modify, hget, Option.map_some,
    if_pos (decide_eq_true rfl)]
  exact Option.filter_eq_some_iff.mpr ⟨rfl, decide_eq_true (huser.trans hown)⟩

/-- The row after an update that claims it: it has the rewards from before the patch on record. -/
structure ClaimedRow (q r : UserQuestRow) : Prop where
  userId : r.userId = q.userId
  claimedAt : r.claimedAt.isSome
  coinsRewarded : r.coinsRewarded = some q.questData.coinReward
  xpRewarded : r.xpRewarded = some q.questData.xpReward

/-- An admin update that claims an unclaimed row pays what the row is worth after the patch. -/
theorem adminUpdate_pays (now : Int) (hq : getUserQuestProgress userId q.id db = some q)
    (hunclaimed : q.claimedAt = none) (hclaimed : data.claimed = some true) :
    ∃ db' f hf, adminUpdateUserQuest userId q.id data now db = .ok ⟨⟩ db' ∧
      db'.coins userId = db.coins userId + (effectiveQuestData data q).coinReward ∧
      db'.xpOf userId = db.xpOf userId + (effectiveQuestData data q).xpReward ∧
      db'.quests = db.quests.modify (fun r ↦ r.id = q.id) f hf ∧ ClaimedRow q (f q) := by
  have hdata : data ≠ {} := by
    rintro rfl
    cases hclaimed
  let update (progress : Option QuestProgress) (completedAt : Option (Option Int)) :=
    UserQuestRow.adminUpdate (data.questData.map (mergeQuestDataPatch q.questData)) progress
      completedAt (some true) now
  let written (progress : Option QuestProgress) (completedAt : Option (Option Int)) : RewardDb :=
    { db with quests := db.quests.modify (fun r ↦ r.id = q.id) (update progress completedAt) }
  let paid (db : RewardDb) : RewardDb :=
    if (effectiveQuestData data q).coinReward = 0 then db
    else addCoins userId (effectiveQuestData data q).coinReward db
  have hcall : ∃ progress completedAt, adminUpdateUserQuest userId q.id data now db =
      .ok ⟨⟩ (if (effectiveQuestData data q).xpReward = 0 then paid (written progress completedAt)
        else addXp userId (effectiveQuestData data q).xpReward (paid (written progress completedAt))) := by
    rw [adminUpdateUserQuest, if_neg hdata, hq]
    dsimp only
    rw [if_pos ⟨hclaimed, hunclaimed⟩, hclaimed]
    exact ⟨_, _, rfl⟩
  obtain ⟨progress, completedAt, hcall⟩ := hcall
  refine ⟨_, update progress completedAt, fun _ ↦ rfl, hcall, ?_, ?_, ?_, rfl, rfl, rfl, rfl⟩
  · simp only [paid]
    split <;> split <;> simp [*, written]
  · simp only [paid]
    split <;> split <;> simp [*, written]
  · simp only [paid]
    split <;> split <;> rfl

/-- An admin update that claims an unclaimed row records what it pays exactly if the patch of the
request does not change what the row is worth. -/
theorem adminUpdate_records_iff (now : Int) (hq : getUserQuestProgress userId q.id db = some q)
    (hunclaimed : q.claimedAt = none) (hclaimed : data.claimed = some true) :
    (∃ db' r, adminUpdateUserQuest userId q.id data now db = .ok ⟨⟩ db' ∧
        getUserQuestProgress userId q.id db' = some r ∧
        r.coinsRewarded = some (db'.coins userId - db.coins userId) ∧
        r.xpRewarded = some (db'.xpOf userId - db.xpOf userId)) ↔
      ∀ patch, data.questData = some patch →
        patch.coinReward.all (· = q.questData.coinReward) ∧
          patch.xpReward.all (· = q.questData.xpReward) := by
  obtain ⟨db', f, hf, hcall, hcoins, hxp, hquests, hrow⟩ :=
    adminUpdate_pays now hq hunclaimed hclaimed
  have hr := getUserQuestProgress_modify hquests hrow.userId hq
  have hgetD (reward : Int) (patch : Option Int) :
      patch.getD reward = reward ↔ patch.all (· = reward) = true := by
    cases patch <;> simp
  have heffective : ((effectiveQuestData data q).coinReward = q.questData.coinReward ∧
      (effectiveQuestData data q).xpReward = q.questData.xpReward) ↔
      ∀ patch, data.questData = some patch →
        patch.coinReward.all (· = q.questData.coinReward) ∧
          patch.xpReward.all (· = q.questData.xpReward) := by
    rw [effectiveQuestData]
    cases data.questData with
    | none => simp
    | some patch =>
        simp only [Option.map_some, Option.getD_some, mergeQuestDataPatch, hgetD, Option.some.injEq,
          forall_eq']
  rw [← heffective, hcall]
  constructor
  · rintro ⟨_, _, h, hr', hcoins', hxp'⟩
    obtain ⟨_, rfl⟩ := EStateM.Result.ok.inj h
    obtain rfl := Option.some.inj (hr.symm.trans hr')
    rw [hrow.coinsRewarded, hcoins, Option.some.injEq] at hcoins'
    rw [hrow.xpRewarded, hxp, Option.some.injEq] at hxp'
    omega
  · rintro ⟨hcoinReward, hxpReward⟩
    refine ⟨db', f q, rfl, hr, ?_, ?_⟩
    · rw [hrow.coinsRewarded, hcoins, hcoinReward, add_sub_cancel_left]
    · rw [hrow.xpRewarded, hxp, hxpReward, add_sub_cancel_left]

end Admin

/-- A quest worth a hundred coins and fifteen XP. -/
def hundredCoins : RewardDb where
  quests := Table.empty.insert fun id ↦
    { id, userId := 7, completedAt := some 5
      questData := { name := "Warm-Up Round", coinReward := 100, xpReward := 15
                     requirements := { type := .completeMaps, count := 6 } } }

/-- The row of that quest. -/
def hundredCoinsRow : UserQuestRow where
  id := 1
  userId := 7
  completedAt := some 5
  questData := { name := "Warm-Up Round", coinReward := 100, xpReward := 15
                 requirements := { type := .completeMaps, count := 6 } }

/-- The request claims the quest and raises its coins. -/
def raiseAndClaim : AdminUpdateUserQuestRequest where
  questData := some { coinReward := some 500 }
  claimed := some true

/-- The row says a hundred, the user gets five hundred. -/
theorem raiseAndClaim_records :
    ((final (adminUpdateUserQuest 7 1 raiseAndClaim 9 hundredCoins)).quests.get? 1).map
        UserQuestRow.coinsRewarded = some (some 100) ∧
      (final (adminUpdateUserQuest 7 1 raiseAndClaim 9 hundredCoins)).coins 7 -
        hundredCoins.coins 7 = 500 := by
  decide +kernel

/-- A plain claim. -/
theorem hundredCoins_records_iff :
    (∃ db' r, adminUpdateUserQuest 7 1 { claimed := some true } 9 hundredCoins = .ok ⟨⟩ db' ∧
        getUserQuestProgress 7 1 db' = some r ∧
        r.coinsRewarded = some (db'.coins 7 - hundredCoins.coins 7) ∧
        r.xpRewarded = some (db'.xpOf 7 - hundredCoins.xpOf 7)) ↔
      ∀ patch, (none : Option PatchQuestData) = some patch →
        patch.coinReward.all (· = 100) ∧ patch.xpReward.all (· = 15) :=
  adminUpdate_records_iff (q := hundredCoinsRow) 9 rfl rfl rfl

/-! ## The three ways to claim -/

section Ways

variable {db : RewardDb} {q : UserQuestRow}

/-- What the rotation will pay the user. -/
def owed (reward : UserQuestRow → Int) (userId : Nat) (quests : Table UserQuestRow) : Int :=
  totalOf reward userId (quests.select UserQuestRow.claimable)

/-- The database once the rotation has claimed all completed quests. -/
def rotated (now : Int) (db : RewardDb) : RewardDb := (autoClaimCompletedQuests now db).2

theorem coins_rotated (now : Int) (db : RewardDb) (u : Nat) : (rotated now db).coins u =
    db.coins u + owed (fun q ↦ q.questData.coinReward) u db.quests := rfl

theorem xpOf_rotated (now : Int) (db : RewardDb) (u : Nat) : (rotated now db).xpOf u =
    db.xpOf u + owed (fun q ↦ q.questData.xpReward) u db.quests := by
  rw [RewardDb.xpOf, rotated, autoClaimCompletedQuests, owed]
  dsimp only
  split
  · rfl
  · rename_i hnone
    have hempty : (db.quests.select UserQuestRow.claimable).filter (fun q ↦ q.userId = u) = [] := by
      simpa using hnone
    rw [totalOf, hempty]
    exact (add_zero _).symm

theorem totalOf_eq (reward : UserQuestRow → Int) (u : Nat) (rows : List UserQuestRow) :
    totalOf reward u (rows.filter UserQuestRow.claimable) =
      (rows.flatMap fun q ↦ if q.claimable && q.userId = u then [reward q] else []).sum := by
  induction rows with
  | nil => rfl
  | cons q rows ih =>
      rw [totalOf] at ih ⊢
      rw [List.flatMap_cons, List.sum_append, ← ih]
      by_cases hclaimable : q.claimable <;> by_cases huser : q.userId = u <;> simp [hclaimable, huser]

/-- Claiming one quest takes its reward from what the rotation will pay. -/
theorem owed_modify (reward : UserQuestRow → Int) (hq : q ∈ db.quests.rows)
    (hclaimable : q.claimable = true) {f : UserQuestRow → UserQuestRow} (hf)
    (hclaimed : (f q).claimable = false) :
    owed reward q.userId (db.quests.modify (fun r ↦ r.id = q.id) f hf) + reward q =
      owed reward q.userId db.quests := by
  have hsingle : ∀ r ∈ db.quests.rows, decide (r.id = q.id) = true ↔ r = q := by
    intro r hr
    rw [decide_eq_true_iff]
    exact ⟨fun h ↦ Table.eq_of_key_eq hr hq h, fun h ↦ h ▸ rfl⟩
  have hsum := congrArg Multiset.sum (Table.coe_flatMap_modify
    (g := fun r ↦ if r.claimable && r.userId = q.userId then [reward r] else []) hq hsingle hf)
  simpa [owed, Table.select, totalOf_eq, hclaimable, hclaimed] using hsum

/-- The user has the same coins and the same XP. -/
def SameBalance (userId : Nat) (db db' : RewardDb) : Prop :=
  db.coins userId = db'.coins userId ∧ db.xpOf userId = db'.xpOf userId

theorem claim_not_claimable (now : Int) (q : UserQuestRow) : (q.claim now).claimable = false :=
  Bool.and_false _

/-- `claim_quest` pays the coins of the quest and its XP with the multiplier. -/
theorem rotated_claimQuest (now : Int) (hq : q ∈ db.quests.rows) (hclaimable : q.claimable = true) :
    let db' := rotated now (final (claimQuest q.userId q.id now db))
    db'.coins q.userId = (rotated now db).coins q.userId ∧
      db'.xpOf q.userId + q.questData.xpReward = (rotated now db).xpOf q.userId +
        if 0 < q.questData.xpReward then grantedXp db q.questData.xpReward else 0 := by
  have hget : getUserQuestProgress q.userId q.id db = some q :=
    getUserQuestProgress_eq_some.mpr ⟨hq, rfl, rfl⟩
  have hcoins := owed_modify (fun q ↦ q.questData.coinReward) hq hclaimable
    (f := UserQuestRow.claim now) (fun _ ↦ rfl) (claim_not_claimable now q)
  have hxp := owed_modify (fun q ↦ q.questData.xpReward) hq hclaimable
    (f := UserQuestRow.claim now) (fun _ ↦ rfl) (claim_not_claimable now q)
  rw [claimQuest, hget]
  dsimp only
  rw [if_pos hclaimable, final_ok, coins_rotated, coins_rotated, xpOf_rotated, xpOf_rotated]
  constructor
  · split <;> simp only [coins_addXp, coins_addCoins, quests_addXp, quests_addCoins] <;> omega
  · split
    · simp only [xpOf_addXp, xpOf_addCoins, xpOf_quests, quests_addXp, quests_addCoins]
      rw [← hxp]
      change _ + grantedXp db _ + _ + _ = _
      omega
    · simp only [xpOf_addCoins, xpOf_quests, quests_addCoins]
      omega

/-- An admin pays what the rotation would. -/
theorem rotated_adminUpdate (now : Int) (hq : q ∈ db.quests.rows) (hclaimable : q.claimable = true) :
    SameBalance q.userId
      (rotated now (final (adminUpdateUserQuest q.userId q.id { claimed := some true } now db)))
      (rotated now db) := by
  have hget : getUserQuestProgress q.userId q.id db = some q :=
    getUserQuestProgress_eq_some.mpr ⟨hq, rfl, rfl⟩
  have hunclaimed : q.claimedAt = none := by
    rw [UserQuestRow.claimable, Bool.and_eq_true, Option.isNone_iff_eq_none] at hclaimable
    exact hclaimable.2
  obtain ⟨db', f, hf, hcall, hcoins, hxp, hquests, hrow⟩ :=
    @adminUpdate_pays _ _ { claimed := some true } _ now hget hunclaimed rfl
  have hclaimed : (f q).claimable = false := by
    rw [UserQuestRow.claimable, Option.isNone_eq_false_iff.mpr hrow.claimedAt, Bool.and_false]
  have hcoins' := owed_modify (fun q ↦ q.questData.coinReward) hq hclaimable hf hclaimed
  have hxp' := owed_modify (fun q ↦ q.questData.xpReward) hq hclaimable hf hclaimed
  rw [SameBalance, hcall, final_ok, coins_rotated, coins_rotated, xpOf_rotated, xpOf_rotated, hquests,
    hcoins, hxp, effectiveQuestData]
  simp only [Option.map_none, Option.getD_none]
  omega

/-- A reward is granted unchanged if the multiplier raises it by less than one. -/
theorem grantedXp_eq_iff (db : RewardDb) (amount : Int) : grantedXp db amount = amount ↔
    0 ≤ amount * ((if db.xpMultiplier = 0 then 1 else db.xpMultiplier) - 1) ∧
      amount * ((if db.xpMultiplier = 0 then 1 else db.xpMultiplier) - 1) < 1 := by
  change ⌊(amount * if db.xpMultiplier = 0 then 1 else db.xpMultiplier : Rat)⌋ = amount ↔ _
  rw [Int.floor_eq_iff, mul_sub_one, sub_nonneg, sub_lt_iff_lt_add']

/-- The three ways to claim a completed quest leave the user with the same coins and the same XP
exactly if the reward is not negative and the multiplier raises it by less than one. -/
theorem ways_agree_iff (now : Int) (hq : q ∈ db.quests.rows) (hclaimable : q.claimable = true) :
    (SameBalance q.userId (rotated now (final (claimQuest q.userId q.id now db))) (rotated now db) ∧
      SameBalance q.userId
        (rotated now (final (adminUpdateUserQuest q.userId q.id { claimed := some true } now db)))
        (rotated now db)) ↔
      0 ≤ q.questData.xpReward ∧
        0 ≤ q.questData.xpReward * ((if db.xpMultiplier = 0 then 1 else db.xpMultiplier) - 1) ∧
        q.questData.xpReward * ((if db.xpMultiplier = 0 then 1 else db.xpMultiplier) - 1) < 1 := by
  obtain ⟨hcoins, hxp⟩ := rotated_claimQuest now hq hclaimable
  have hsame : SameBalance q.userId (rotated now (final (claimQuest q.userId q.id now db)))
      (rotated now db) ↔ q.questData.xpReward =
        if 0 < q.questData.xpReward then grantedXp db q.questData.xpReward else 0 := by
    rw [SameBalance, hcoins]
    omega
  rw [hsame, and_iff_left (rotated_adminUpdate now hq hclaimable), ← grantedXp_eq_iff]
  rcases lt_trichotomy 0 q.questData.xpReward with hpos | hzero | hneg
  · rw [if_pos hpos, and_iff_right hpos.le, eq_comm]
  · rw [← hzero]
    exact iff_of_true (if_neg (lt_irrefl 0)).symm ⟨le_rfl, (grantedXp_eq_iff db 0).mpr (by simp)⟩
  · rw [if_neg hneg.le.not_gt]
    exact iff_of_false hneg.ne fun h ↦ hneg.not_ge h.1

end Ways

/-- The quest in a week in which XP counts twice. -/
def doubledXp : RewardDb := { hundredCoins with xpMultiplier := 2 }

/-- XP counts twice when the user claims the quest, and once when the rotation or an admin does. -/
theorem doubledXp_differs :
    (final (claimQuest 7 1 9 doubledXp)).xpOf 7 = 30 ∧
      (autoClaimCompletedQuests 9 doubledXp).2.xpOf 7 = 15 ∧
      (final (adminUpdateUserQuest 7 1 { claimed := some true } 9 doubledXp)).xpOf 7 = 15 := by
  decide +kernel

/-- Without a multiplier. -/
theorem hundredCoins_ways_iff :
    (SameBalance 7 (rotated 9 (final (claimQuest 7 1 9 hundredCoins))) (rotated 9 hundredCoins) ∧
      SameBalance 7
        (rotated 9 (final (adminUpdateUserQuest 7 1 { claimed := some true } 9 hundredCoins)))
        (rotated 9 hundredCoins)) ↔
      0 ≤ hundredCoinsRow.questData.xpReward ∧
        0 ≤ hundredCoinsRow.questData.xpReward *
          ((if hundredCoins.xpMultiplier = 0 then 1 else hundredCoins.xpMultiplier) - 1) ∧
        hundredCoinsRow.questData.xpReward *
          ((if hundredCoins.xpMultiplier = 0 then 1 else hundredCoins.xpMultiplier) - 1) < 1 :=
  ways_agree_iff (q := hundredCoinsRow) 9 (List.mem_singleton.mpr rfl) rfl

end Genjishimada.Store
