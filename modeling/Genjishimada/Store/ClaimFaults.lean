import Genjishimada.Library.Script
import Genjishimada.Services.QuestClaims

/-!
# A claim, statement by statement

`claim_quest` marks the row and adds the coins in a transaction, and grants the XP by a call of
its own after the commit.  A fault between the commit and the XP leaves a quest that is claimed
and not paid in full, and a second claim is refused.
-/

namespace Genjishimada.Store

open Library Sdk Services

/-! ## The statements -/

/-- The database, and what has been added to the coins and to the XP of whom. -/
structure QuestBooks where
  db : RewardDb
  coinCredits : List (Nat × Int) := []
  xpCredits : List (Nat × Int) := []

theorem key_claim (now : Int) (q : UserQuestRow) : key (q.claim now) = key q := rfl

/-- `UPDATE store.user_quest_progress … RETURNING …` -/
def claimRow (userId progressId : Nat) (now : Int) : StateM QuestBooks (Option UserQuestRow) :=
  fun s ↦
    match getUserQuestProgress userId progressId s.db with
    | some q =>
        if q.claimable then
          (some (q.claim now), { s with db := { s.db with
            quests := s.db.quests.modify (fun r ↦ r.id = progressId) (UserQuestRow.claim now)
              (key_claim now) } })
        else (none, s)
    | none => (none, s)

/-- `UPDATE core.users SET coins = coins + $2 … RETURNING coins` -/
def creditCoins (userId : Nat) (amount : Int) : StateM QuestBooks Int := fun s ↦
  let db := addCoins userId amount s.db
  (db.coins userId, { s with db, coinCredits := s.coinCredits ++ [(userId, amount)] })

/-- `upsert_user_xp` -/
def creditUserXp (userId : Nat) (xpAmount : Int) (multiplier : Rat) : StateM QuestBooks (Int × Int) :=
  fun s ↦
    let gain := (xpAmount * multiplier).floor
    let db := addXp userId gain s.db
    ((s.db.xpOf userId, db.xpOf userId), { s with db, xpCredits := s.xpCredits ++ [(userId, gain)] })

/-- The transaction of `claim_quest`. -/
def sendClaimTransaction (userId progressId : Nat) (now : Int) :
    Script QuestBooks (Except QuestClaimError (UserQuestRow × Int)) := do
  match ← Script.statement (claimRow userId progressId now) with
  | some row =>
      let newCoins ← Script.statement (creditCoins userId (row.coinsRewarded.getD 0))
      return .ok (row, newCoins)
  | none =>
      match ← Script.query fun s ↦ getUserQuestProgress userId progressId s.db with
      | none => return .error (.questNotFound progressId)
      | some status =>
          if status.claimedAt.isSome then return .error (.questAlreadyClaimed progressId)
          else return .error (.questNotCompleted progressId)

/-- `LootboxService.grant_user_xp`: the multiplier, the XP, the message. -/
def sendUserXp (userId : Nat) (amount : Int) : Script QuestBooks (Int × Int) := do
  let multiplier ← Script.query fun s ↦ if s.db.xpMultiplier = 0 then 1 else s.db.xpMultiplier
  let amounts ← Script.statement (creditUserXp userId amount multiplier)
  Script.external
  return amounts

/-- The part of `claim_quest` after the transaction. -/
def sendReward (userId : Nat) (row : UserQuestRow) (newCoins : Int) :
    Script QuestBooks (Except QuestClaimError ClaimQuestResponse) :=
  let response : ClaimQuestResponse := {
    questName := row.questData.name
    coinsEarned := row.coinsRewarded.getD 0
    xpEarned := 0
    newCoinBalance := newCoins
    newXp := 0 }
  if 0 < row.xpRewarded.getD 0 then do
    let (previousAmount, newAmount) ← sendUserXp userId (row.xpRewarded.getD 0)
    return .ok { response with xpEarned := newAmount - previousAmount, newXp := newAmount }
  else return .ok response

def sendAfterClaim (userId : Nat) : Except QuestClaimError (UserQuestRow × Int) →
    Script QuestBooks (Except QuestClaimError ClaimQuestResponse)
  | .error e => return .error e
  | .ok (row, newCoins) => sendReward userId row newCoins

def sendClaimQuest (userId progressId : Nat) (now : Int) :
    Script QuestBooks (Except QuestClaimError ClaimQuestResponse) := do
  sendAfterClaim userId (← (sendClaimTransaction userId progressId now).atomically)

/-! ## What is promised -/

/-- The row is claimed. -/
def IsClaimed (userId progressId : Nat) (db : RewardDb) : Prop :=
  ∃ q, getUserQuestProgress userId progressId db = some q ∧ q.claimedAt.isSome

/-- The coins of the quest, and its XP with the multiplier if it has any, are the user's. -/
def Credited (userId : Nat) (q : UserQuestRow) (db : RewardDb) (after : QuestBooks) : Prop :=
  after.coinCredits = [(userId, q.questData.coinReward)] ∧
    after.xpCredits =
      if 0 < q.questData.xpReward then [(userId, grantedXp db q.questData.xpReward)] else []

/-- The call claims the row exactly if it credits what the row is worth, and credits nothing
otherwise. -/
def ClaimAtomic (userId progressId : Nat) (db : RewardDb) (after : QuestBooks) : Prop :=
  ∀ q, getUserQuestProgress userId progressId db = some q →
    (IsClaimed userId progressId after.db ∧ ¬ IsClaimed userId progressId db ↔
      Credited userId q db after)

/-- A further claim brings what is missing, and no more. -/
def Retriable (userId progressId : Nat) (now : Int) (db : RewardDb) (after : QuestBooks) : Prop :=
  ∀ q, getUserQuestProgress userId progressId db = some q → q.claimable →
    Credited userId q db ((sendClaimQuest userId progressId now).finish after).2

/-! ## Without faults -/

section Finish

variable {userId progressId : Nat} {now : Int} {s : QuestBooks} {q : UserQuestRow}

/-- The row is claimed and the coins are added. -/
def claimedBooks (userId progressId : Nat) (now : Int) (q : UserQuestRow) (s : QuestBooks) :
    QuestBooks :=
  (creditCoins userId q.questData.coinReward { s with db := { s.db with
    quests := s.db.quests.modify (fun r ↦ r.id = progressId) (UserQuestRow.claim now)
      (key_claim now) } }).2

/-- The XP is added as well, if there is any. -/
def paidBooks (userId progressId : Nat) (now : Int) (q : UserQuestRow) (s : QuestBooks) :
    QuestBooks :=
  let claimed := claimedBooks userId progressId now q s
  if 0 < q.questData.xpReward then
    (creditUserXp userId q.questData.xpReward
      (if s.db.xpMultiplier = 0 then 1 else s.db.xpMultiplier) claimed).2
  else claimed

theorem claimRow_of_claimable (hq : getUserQuestProgress userId progressId s.db = some q)
    (hclaimable : q.claimable = true) : claimRow userId progressId now s =
      (some (q.claim now), { s with db := { s.db with
        quests := s.db.quests.modify (fun r ↦ r.id = progressId) (UserQuestRow.claim now)
          (key_claim now) } }) := by
  rw [claimRow, hq]
  exact if_pos hclaimable

theorem claimRow_of_not_claimable
    (h : ∀ q, getUserQuestProgress userId progressId s.db = some q → q.claimable = false) :
    claimRow userId progressId now s = (none, s) := by
  rw [claimRow]
  cases hq : getUserQuestProgress userId progressId s.db with
  | none => rfl
  | some q => exact if_neg (by rw [h q hq]; exact Bool.false_ne_true)

theorem finish_sendClaimTransaction (hq : getUserQuestProgress userId progressId s.db = some q)
    (hclaimable : q.claimable = true) : (sendClaimTransaction userId progressId now).finish s =
      (.ok (q.claim now, (claimedBooks userId progressId now q s).db.coins userId),
        claimedBooks userId progressId now q s) := by
  change Script.finish (match (claimRow userId progressId now s).1 with
    | some row => _
    | none => _) (claimRow userId progressId now s).2 = _
  rw [claimRow_of_claimable hq hclaimable]
  rfl

theorem sent_sendClaimTransaction (hq : getUserQuestProgress userId progressId s.db = some q)
    (hclaimable : q.claimable = true) : (sendClaimTransaction userId progressId now).sent s = 2 := by
  change Script.sent (match (claimRow userId progressId now s).1 with
    | some row => _
    | none => _) (claimRow userId progressId now s).2 + 1 = _
  rw [claimRow_of_claimable hq hclaimable]
  rfl

/-- A row that is not claimable is refused, as in the call. -/
theorem finish_sendClaimTransaction_refused (now : Int)
    (h : ∀ q, getUserQuestProgress userId progressId s.db = some q → q.claimable = false) :
    ∃ e, claimQuest userId progressId now s.db = .error e s.db ∧
      (sendClaimTransaction userId progressId now).finish s = (.error e, s) := by
  have hrow : (sendClaimTransaction userId progressId now).finish s =
      Script.finish (match getUserQuestProgress userId progressId s.db with
        | none => return .error (.questNotFound progressId)
        | some status =>
            if status.claimedAt.isSome then return .error (.questAlreadyClaimed progressId)
            else return .error (.questNotCompleted progressId)) s := by
    change Script.finish (match (claimRow userId progressId now s).1 with
      | some row => _
      | none => _) (claimRow userId progressId now s).2 = _
    rw [claimRow_of_not_claimable h]
    rfl
  rw [hrow, claimQuest]
  cases hq : getUserQuestProgress userId progressId s.db with
  | none => exact ⟨_, rfl, rfl⟩
  | some q =>
      dsimp only
      rw [h q hq, if_neg Bool.false_ne_true]
      split
      · exact ⟨_, rfl, rfl⟩
      · exact ⟨_, rfl, rfl⟩

/-- The outcome of a call, from an answer and what is left. -/
def outcome (answer : Except QuestClaimError ClaimQuestResponse × QuestBooks) :
    EStateM.Result QuestClaimError RewardDb ClaimQuestResponse :=
  match answer.1 with
  | .ok response => .ok response answer.2.db
  | .error e => .error e answer.2.db

/-- Without a fault the script answers as the call does and leaves the database as the call does. -/
theorem finish_sendClaimQuest (userId progressId : Nat) (now : Int) (s : QuestBooks) :
    outcome ((sendClaimQuest userId progressId now).finish s) =
      claimQuest userId progressId now s.db := by
  rw [sendClaimQuest, Script.finish_bind, Script.finish_atomically]
  by_cases h : ∀ q, getUserQuestProgress userId progressId s.db = some q → q.claimable = false
  · obtain ⟨e, hcall, hscript⟩ := finish_sendClaimTransaction_refused now h
    rw [hscript, hcall]
    rfl
  · simp only [not_forall, Bool.not_eq_false] at h
    obtain ⟨q, hq, hclaimable⟩ := h
    rw [finish_sendClaimTransaction hq hclaimable, sendAfterClaim, sendReward, claimQuest, hq]
    dsimp only
    rw [if_pos hclaimable]
    have hreward : (q.claim now).xpRewarded.getD 0 = q.questData.xpReward := rfl
    by_cases hxp : 0 < q.questData.xpReward
    · rw [hreward, if_pos hxp, if_pos hxp, if_pos hxp]
      rfl
    · rw [hreward, if_neg hxp, if_neg hxp, if_neg hxp, sub_self]
      rfl

/-- What an undisturbed claim leaves. -/
theorem finish_of_claimable (hq : getUserQuestProgress userId progressId s.db = some q)
    (hclaimable : q.claimable = true) :
    ((sendClaimQuest userId progressId now).finish s).2 = paidBooks userId progressId now q s := by
  rw [sendClaimQuest, Script.finish_bind, Script.finish_atomically,
    finish_sendClaimTransaction hq hclaimable, sendAfterClaim, sendReward, paidBooks]
  have hreward : (q.claim now).xpRewarded.getD 0 = q.questData.xpReward := rfl
  by_cases hxp : 0 < q.questData.xpReward
  · rw [hreward, if_pos hxp, if_pos hxp]
    rfl
  · rw [hreward, if_neg hxp, if_neg hxp]
    rfl

theorem finish_of_not_claimable
    (h : ∀ q, getUserQuestProgress userId progressId s.db = some q → q.claimable = false) :
    ((sendClaimQuest userId progressId now).finish s).2 = s := by
  obtain ⟨e, -, hscript⟩ := finish_sendClaimTransaction_refused now h
  rw [sendClaimQuest, Script.finish_bind, Script.finish_atomically, hscript]
  rfl

end Finish

/-! ## With a fault -/

section Exec

variable {userId progressId n : Nat} {now : Int} {s : QuestBooks} {q : UserQuestRow}

/-- Up to the commit nothing is kept, and the XP comes two statements after it. -/
theorem exec_of_claimable (hq : getUserQuestProgress userId progressId s.db = some q)
    (hclaimable : q.claimable = true) : (sendClaimQuest userId progressId now).exec n s =
      if n < 4 then s
      else if n < 6 then claimedBooks userId progressId now q s
      else paidBooks userId progressId now q s := by
  have hsent : (sendClaimTransaction userId progressId now).atomically.sent s = 4 := by
    rw [Script.sent_atomically, sent_sendClaimTransaction hq hclaimable]
  by_cases hn : n < 4
  · rw [if_pos hn, sendClaimQuest, Script.exec_bind_of_lt _ _ _ _ (hsent ▸ hn),
      Script.exec_atomically_eq, sent_sendClaimTransaction hq hclaimable, if_pos hn]
  · obtain ⟨k, rfl⟩ := Nat.exists_eq_add_of_le (Nat.le_of_not_lt hn)
    have hadd := Script.exec_bind_add (sendClaimTransaction userId progressId now).atomically
      (sendAfterClaim userId) k s
    rw [hsent, Script.finish_atomically, finish_sendClaimTransaction hq hclaimable,
      sendAfterClaim, sendReward] at hadd
    have hreward : (q.claim now).xpRewarded.getD 0 = q.questData.xpReward := rfl
    rw [if_neg hn, sendClaimQuest, hadd, hreward, paidBooks]
    by_cases hxp : 0 < q.questData.xpReward
    · rw [if_pos hxp, if_pos hxp]
      -- the multiplier, the XP, the message
      match k with
      | 0 => rfl
      | 1 => rfl
      | k + 2 =>
          have hlate : ¬ 4 + (k + 2) < 6 := by omega
          rw [if_neg hlate]
          cases k <;> rfl
    · rw [if_neg hxp, if_neg hxp, ite_self]
      rfl

theorem exec_of_not_claimable
    (h : ∀ q, getUserQuestProgress userId progressId s.db = some q → q.claimable = false) :
    (sendClaimQuest userId progressId now).exec n s = s := by
  obtain ⟨e, -, hscript⟩ := finish_sendClaimTransaction_refused now h
  have hreads : ((sendClaimTransaction userId progressId now).atomically.finish s).2 = s := by
    rw [Script.finish_atomically, hscript]
  rcases Nat.lt_or_ge n ((sendClaimTransaction userId progressId now).atomically.sent s) with
    hn | hn
  · rw [sendClaimQuest, Script.exec_bind_of_lt _ _ _ _ hn, Script.exec_atomically_eq, hscript,
      ite_self]
  · obtain ⟨k, rfl⟩ := Nat.exists_eq_add_of_le hn
    rw [sendClaimQuest, Script.exec_bind_add, hreads, Script.finish_atomically, hscript]
    rfl

end Exec

/-! ## Books -/

section Books

variable {userId progressId : Nat} {now : Int} {db : RewardDb} {q : UserQuestRow}

theorem getUserQuestProgress_claimed (now : Int)
    (hq : getUserQuestProgress userId progressId db = some q) :
    getUserQuestProgress userId progressId (claimedBooks userId progressId now q { db }).db =
      some (q.claim now) := by
  rw [getUserQuestProgress, Option.filter_eq_some_iff] at hq
  obtain ⟨hget, huser⟩ := hq
  have hkey : q.id = progressId := Table.key_of_get? hget
  have hclaimed : (claimedBooks userId progressId now q { db }).db.quests.get? progressId =
      some (q.claim now) := by
    refine (Table.get?_modify (t := db.quests) (k := progressId) (fun r ↦ r.id = progressId)
      (UserQuestRow.claim now) (key_claim now)).trans ?_
    rw [hget, Option.map_some, if_pos (by simpa using hkey)]
  rw [getUserQuestProgress, hclaimed, Option.filter_eq_some_iff]
  exact ⟨rfl, huser⟩

/-- The XP leaves the quests alone. -/
theorem quests_paidBooks (s : QuestBooks) :
    (paidBooks userId progressId now q s).db.quests =
      (claimedBooks userId progressId now q s).db.quests := by
  rw [paidBooks]
  split
  · rfl
  · rfl

theorem getUserQuestProgress_paid (now : Int)
    (hq : getUserQuestProgress userId progressId db = some q) :
    getUserQuestProgress userId progressId (paidBooks userId progressId now q { db }).db =
      some (q.claim now) := by
  rw [getUserQuestProgress, quests_paidBooks, ← getUserQuestProgress,
    getUserQuestProgress_claimed now hq]

theorem not_claimable_claim (q : UserQuestRow) : (q.claim now).claimable = false := by
  rw [UserQuestRow.claimable, UserQuestRow.claim]
  exact Bool.and_false _

theorem not_isClaimed_of_claimable (hq : getUserQuestProgress userId progressId db = some q)
    (hclaimable : q.claimable = true) : ¬ IsClaimed userId progressId db := by
  rintro ⟨q', hq', hclaimed⟩
  obtain rfl := Option.some.inj (hq.symm.trans hq')
  rw [UserQuestRow.claimable, Bool.and_eq_true, Option.isNone_iff_eq_none] at hclaimable
  rw [hclaimable.2] at hclaimed
  cases hclaimed

/-- Both are credited in the end. -/
theorem credited_paid : Credited userId q db (paidBooks userId progressId now q { db }) := by
  by_cases hxp : 0 < q.questData.xpReward
  · rw [Credited, if_pos hxp, paidBooks, if_pos hxp]
    exact ⟨rfl, rfl⟩
  · rw [Credited, if_neg hxp, paidBooks, if_neg hxp]
    exact ⟨rfl, rfl⟩

/-- With the coins alone, only a quest without XP is paid. -/
theorem credited_claimed_iff :
    Credited userId q db (claimedBooks userId progressId now q { db }) ↔
      ¬ 0 < q.questData.xpReward := by
  by_cases hxp : 0 < q.questData.xpReward
  · rw [Credited, if_pos hxp]
    refine iff_of_false ?_ (not_not.mpr hxp)
    rintro ⟨-, hnone⟩
    cases hnone
  · rw [Credited, if_neg hxp]
    exact iff_of_true ⟨rfl, rfl⟩ hxp

theorem not_credited : ¬ Credited userId q db { db } := by
  rintro ⟨hnone, -⟩
  cases hnone

end Books

/-! ## Atomicity -/

/-- The statement after the first `n` is the read of the multiplier or the upsert of the XP of a
claim that has just been committed. -/
def FaultBeforeXp (userId progressId n : Nat) (db : RewardDb) : Prop :=
  ∃ q, getUserQuestProgress userId progressId db = some q ∧ q.claimable = true ∧
    0 < q.questData.xpReward ∧ (n = 4 ∨ n = 5)

section Atomic

variable {userId progressId n : Nat} {now later : Int} {db : RewardDb} {q : UserQuestRow}

/-- A claim after the row is claimed brings nothing. -/
theorem retriable_of_claim {after : QuestBooks}
    (hq : getUserQuestProgress userId progressId db = some q)
    (hafter : getUserQuestProgress userId progressId after.db = some (q.claim now))
    (hclaimable : q.claimable = true) :
    Retriable userId progressId later db after ↔ Credited userId q db after := by
  have hstay : ((sendClaimQuest userId progressId later).finish after).2 = after := by
    apply finish_of_not_claimable
    intro q' hq'
    obtain rfl := Option.some.inj (hafter.symm.trans hq')
    exact not_claimable_claim q
  rw [Retriable, hstay]
  constructor
  · intro h
    exact h q hq hclaimable
  · intro h q' hq' _
    obtain rfl := Option.some.inj (hq.symm.trans hq')
    exact h

theorem claimAtomic_of_claim {after : QuestBooks}
    (hq : getUserQuestProgress userId progressId db = some q)
    (hafter : getUserQuestProgress userId progressId after.db = some (q.claim now))
    (hclaimable : q.claimable = true) :
    ClaimAtomic userId progressId db after ↔ Credited userId q db after := by
  have hnew : IsClaimed userId progressId after.db ∧ ¬ IsClaimed userId progressId db :=
    ⟨⟨_, hafter, rfl⟩, not_isClaimed_of_claimable hq hclaimable⟩
  constructor
  · intro h
    exact (h q hq).mp hnew
  · intro h q' hq'
    obtain rfl := Option.some.inj (hq.symm.trans hq')
    exact iff_of_true hnew h

/-- A call that leaves everything as it was. -/
theorem claimAtomic_self : ClaimAtomic userId progressId db { db } := by
  intro q hq
  refine iff_of_false ?_ not_credited
  rintro ⟨h, hnot⟩
  exact hnot h

theorem retriable_self (userId progressId : Nat) (later : Int) (db : RewardDb) :
    Retriable userId progressId later db { db } := by
  intro q hq hclaimable
  rw [finish_of_claimable hq hclaimable]
  exact credited_paid

/-- **Wherever the fault is, a quest is claimed if and only if it is paid, and another claim brings
what is missing, unless the fault is between the commit and the XP.** -/
theorem claim_faults_iff (userId progressId n : Nat) (now later : Int) (db : RewardDb) :
    ClaimAtomic userId progressId db ((sendClaimQuest userId progressId now).exec n { db }) ∧
        Retriable userId progressId later db
          ((sendClaimQuest userId progressId now).exec n { db }) ↔
      ¬ FaultBeforeXp userId progressId n db := by
  by_cases h : ∀ q, getUserQuestProgress userId progressId db = some q → q.claimable = false
  · rw [exec_of_not_claimable h]
    refine iff_of_true ⟨claimAtomic_self, retriable_self userId progressId later db⟩ ?_
    rintro ⟨q, hq, hclaimable, -⟩
    rw [h q hq] at hclaimable
    cases hclaimable
  · simp only [not_forall, Bool.not_eq_false] at h
    obtain ⟨q, hq, hclaimable⟩ := h
    have hfault : FaultBeforeXp userId progressId n db ↔
        0 < q.questData.xpReward ∧ (n = 4 ∨ n = 5) := by
      constructor
      · rintro ⟨q', hq', -, hxp, hn⟩
        obtain rfl := Option.some.inj (hq.symm.trans hq')
        exact ⟨hxp, hn⟩
      · rintro ⟨hxp, hn⟩
        exact ⟨q, hq, hclaimable, hxp, hn⟩
    rw [exec_of_claimable hq hclaimable, hfault]
    by_cases hbefore : n < 4
    · rw [if_pos hbefore]
      refine iff_of_true ⟨claimAtomic_self, retriable_self userId progressId later db⟩ ?_
      rintro ⟨-, hn⟩
      omega
    · rw [if_neg hbefore]
      by_cases hcommitted : n < 6
      · have hafter := getUserQuestProgress_claimed now hq
        rw [if_pos hcommitted, claimAtomic_of_claim hq hafter hclaimable,
          retriable_of_claim hq hafter hclaimable, credited_claimed_iff, and_self]
        have hn : n = 4 ∨ n = 5 := by omega
        exact not_congr (and_iff_left hn).symm
      · have hafter := getUserQuestProgress_paid now hq
        rw [if_neg hcommitted, claimAtomic_of_claim hq hafter hclaimable,
          retriable_of_claim hq hafter hclaimable, and_self]
        refine iff_of_true credited_paid ?_
        rintro ⟨-, hn⟩
        omega

end Atomic

/-- A completed quest of user 3, worth 30 coins and 50 XP. -/
def completedQuest : RewardDb where
  quests := Table.empty.insert fun id ↦
    { id, userId := 3, completedAt := some 5
      questData := { name := "", coinReward := 30, xpReward := 50, requirements := { type := .completeMaps } } }

/-- The upsert of the XP raises: the quest is claimed, the coins are there, and another claim brings
nothing. -/
theorem lostXp_not_atomic :
    let after := (sendClaimQuest 3 1 9).exec 5 { db := completedQuest }
    ¬ ClaimAtomic 3 1 completedQuest after ∧ ¬ Retriable 3 1 10 completedQuest after := by
  constructor
  · intro hatomic
    have hcredited := (hatomic _ rfl).mp ⟨⟨_, rfl, rfl⟩, not_isClaimed_of_claimable rfl rfl⟩
    cases hcredited.2
  · intro hretry
    cases (hretry _ rfl rfl).2

end Genjishimada.Store
