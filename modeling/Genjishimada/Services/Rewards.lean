import Genjishimada.Library.Program
import Genjishimada.Repository.Tournaments

/-!
# `services/tournament_reward_service.py`

Every grant claims its row of the ledger `tournaments.xp_grants` first and adds to
`lootbox.xp` only when the claim is new.  The `api.xp.grant` notifications are
returned, for the caller to publish once its transaction has committed.
-/

namespace Genjishimada.Services

open Library Sdk Repository

/-! ## `LootboxService.grant_xp` -/

/-- `result or 1.0`: a multiplier of zero counts as none. -/
def fetchXpMultiplier (db : Db) : Rat := if db.xpMultiplier = 0 then 1 else db.xpMultiplier

/-- Adds `floor(amount * multiplier)`; returns the amounts before and after. -/
def upsertUserXp (userId : Nat) (xpAmount : Int) (multiplier : Rat) : StateM Db (Int × Int) :=
  fun db ↦
    let gain := (xpAmount * multiplier).floor
    let previous := ((db.xp.get? userId).map UserXp.amount).getD 0
    ((previous, previous + gain),
      { db with
        xp := db.xp.upsert { userId, amount := gain } fun x ↦ { x with amount := x.amount + gain } })

/-- `LootboxService.grant_xp` with a `pending_events` collector. -/
def lootboxGrantXp (userId : Nat) (amount : Int) (type : XpType) (reason : Option String) :
    StateM Db XpGrantEvent := do
  let (previousAmount, newAmount) ← upsertUserXp userId amount (fetchXpMultiplier (← get))
  return { userId, amount, type, previousAmount, newAmount, reason }

/-! ## The grants -/

/-- `_grant_xp`: the ledger claim, then the XP. -/
def grantXp (userId : Nat) (amount : Int) (reason : String) (cycleId : Nat)
    (grantReasonKey : GrantReason) : StateM Db (List XpGrantEvent) := do
  if ← claimXpGrant cycleId userId grantReasonKey amount then
    return [← lootboxGrantXp userId amount .tournament (some reason)]
  else
    return []

def awardParticipation (cycle : Cycle) (userId : Nat) : StateM Db (List XpGrantEvent) := do
  match fetchCategory cycle.categoryId (← get) with
  | none => return []
  | some category =>
      if category.participationXp = 0 then return []
      else
        grantXp userId category.participationXp "Tournament Participation" cycle.id .participation

/-- `{tier.place: tier.xp for tier in tiers}.get(place)`, where the last tier of a
place wins and no tier is as good as a tier of `0`. -/
def placementByPlace (tiers : List PlacementXpTier) (place : Nat) : Int :=
  ((tiers.reverse.find? fun t ↦ t.place = place).map PlacementXpTier.xp).getD 0

/-- The placement grant of one standing. -/
def awardPlacement (tiers : List PlacementXpTier) (cycleId : Nat)
    (entry : TournamentLeaderboardEntryResponse) : StateM Db (List XpGrantEvent) := do
  let xp := placementByPlace tiers entry.rank
  if xp = 0 then return []
  else grantXp entry.userId xp s!"Tournament Placement #{entry.rank}" cycleId .placement

def awardCyclePlacements (event : TournamentCycleCompletedEvent) :
    StateM Db (List XpGrantEvent) := do
  match fetchCategory event.categoryId (← get) with
  | none => return []
  | some category =>
      let events ← event.standings.mapM (awardPlacement category.placementXp event.cycleId)
      return events.flatten

/-! ## Streaks -/

/-- `{tier.threshold: tier.xp for tier in tiers}.get(threshold, 0)` -/
def streakXpAt (tiers : List StreakXpTier) (threshold : Nat) : Int :=
  ((tiers.reverse.find? fun t ↦ t.threshold = threshold).map StreakXpTier.xp).getD 0

/-- The edition's highest child cycle, which keys its streak updates. -/
def markerCycle (results : List TournamentCycleCompletedEvent) : Nat :=
  (results.map TournamentCycleCompletedEvent.cycleId).foldr max 0

/-- Everyone who submitted in some child cycle, whatever became of the run. -/
def participantsUnion (results : List TournamentCycleCompletedEvent) (db : Db) : List Nat :=
  (results.flatMap fun entry ↦ fetchCycleParticipants entry.cycleId db).dedup

/-- The most generous tier at exactly `currentStreak` among the categories the user
played. -/
def streakBonus (results : List TournamentCycleCompletedEvent) (db : Db) (userId : Nat)
    (currentStreak : Nat) : Int :=
  let played := results.filter fun entry ↦ userId ∈ fetchCycleParticipants entry.cycleId db
  let xps := played.map fun entry ↦
    ((fetchCategory entry.categoryId db).map fun c ↦ streakXpAt c.streakXp currentStreak).getD 0
  xps.max?.getD 0

/-- One participant: advance, then the bonus if the new streak earns one. -/
def advanceParticipant (bonus : Nat → Nat → Int) (marker userId : Nat) :
    StateM Db (List XpGrantEvent) := do
  let streak ← advanceStreak userId marker true
  let xp := bonus userId streak.currentStreak
  if xp = 0 then return []
  else grantXp userId xp s!"Tournament Streak x{streak.currentStreak}" marker .streak

/-- One tracked user who took no part. -/
def resetStreak (marker userId : Nat) : StateM Db PUnit := do
  let _ ← advanceStreak userId marker false

def awardEditionStreaks (results : List TournamentCycleCompletedEvent) :
    StateM Db (List XpGrantEvent) := do
  if results = [] then return []
  let marker := markerCycle results
  let db ← get
  let participants := participantsUnion results db
  let events ← participants.mapM (advanceParticipant (streakBonus results db) marker)
  let allTracked := fetchAllStreakUserIds (← get)
  (allTracked.filter (· ∉ participants)).forM (resetStreak marker)
  return events.flatten

/-! ## What the grants touch -/

/-- Nothing has changed but the ledger and the XP. -/
def OnlyGrants (db db' : Db) : Prop :=
  ∃ xpGrants xp, db' = { db with xpGrants := xpGrants, xp := xp }

/-- Nothing has changed but the ledger, the XP and the streaks. -/
def OnlyRewards (db db' : Db) : Prop :=
  ∃ xpGrants xp streaks, db' = { db with xpGrants := xpGrants, xp := xp, streaks := streaks }

namespace OnlyGrants

variable {a b c : Db}

theorem refl (db : Db) : OnlyGrants db db := ⟨_, _, rfl⟩

theorem trans (h : OnlyGrants a b) (h' : OnlyGrants b c) : OnlyGrants a c := by
  obtain ⟨_, _, rfl⟩ := h
  obtain ⟨_, _, rfl⟩ := h'
  exact ⟨_, _, rfl⟩

theorem streaks_eq (h : OnlyGrants a b) : b.streaks = a.streaks := by
  obtain ⟨_, _, rfl⟩ := h
  rfl

theorem onlyRewards (h : OnlyGrants a b) : OnlyRewards a b := by
  obtain ⟨_, _, rfl⟩ := h
  exact ⟨_, _, _, rfl⟩

end OnlyGrants

namespace OnlyRewards

theorem refl (db : Db) : OnlyRewards db db := ⟨_, _, _, rfl⟩

theorem trans {a b c : Db} (h : OnlyRewards a b) (h' : OnlyRewards b c) : OnlyRewards a c := by
  obtain ⟨_, _, _, rfl⟩ := h
  obtain ⟨_, _, _, rfl⟩ := h'
  exact ⟨_, _, _, rfl⟩

variable {db db' : Db} (h : OnlyRewards db db')
include h

theorem editions_eq : db'.editions = db.editions := by
  obtain ⟨_, _, _, rfl⟩ := h
  rfl

theorem cycles_eq : db'.cycles = db.cycles := by
  obtain ⟨_, _, _, rfl⟩ := h
  rfl

theorem completions_eq : db'.completions = db.completions := by
  obtain ⟨_, _, _, rfl⟩ := h
  rfl

theorem userName_eq : db'.userName = db.userName := by
  obtain ⟨_, _, _, rfl⟩ := h
  rfl

theorem pendingTransitions_eq : db'.pendingTransitions = db.pendingTransitions := by
  obtain ⟨_, _, _, rfl⟩ := h
  rfl

end OnlyRewards

theorem grantXp_onlyGrants (userId : Nat) (amount : Int) (reason : String) (cycleId : Nat)
    (key : GrantReason) : Steps OnlyGrants (grantXp userId amount reason cycleId key) := by
  have hclaim : Steps OnlyGrants (claimXpGrant cycleId userId key amount) := by
    intro db
    rw [claimXpGrant]
    split
    · exact .refl db
    · exact ⟨_, _, rfl⟩
  refine Steps.bind (fun _ _ _ ↦ .trans) hclaim fun claimed ↦ ?_
  cases claimed with
  | true => exact fun _ ↦ ⟨_, _, rfl⟩
  | false => exact .refl

theorem awardParticipation_onlyGrants (cycle : Cycle) (userId : Nat) :
    Steps OnlyGrants (awardParticipation cycle userId) := by
  intro db
  rw [awardParticipation, get_bind_apply]
  cases fetchCategory cycle.categoryId db with
  | none => exact .refl db
  | some category =>
      dsimp only
      split
      · exact .refl db
      · exact grantXp_onlyGrants _ _ _ _ _ db

theorem awardPlacement_onlyGrants (tiers : List PlacementXpTier) (cycleId : Nat)
    (entry : TournamentLeaderboardEntryResponse) :
    Steps OnlyGrants (awardPlacement tiers cycleId entry) := by
  intro db
  rw [awardPlacement]
  split
  · exact .refl db
  · exact grantXp_onlyGrants _ _ _ _ _ db

theorem awardCyclePlacements_onlyGrants (event : TournamentCycleCompletedEvent) :
    Steps OnlyGrants (awardCyclePlacements event) := by
  intro db
  rw [awardCyclePlacements, get_bind_apply]
  cases fetchCategory event.categoryId db with
  | none => exact .refl db
  | some category =>
      exact Steps.mapM .refl (fun _ _ _ ↦ .trans)
        (fun entry _ ↦ awardPlacement_onlyGrants category.placementXp event.cycleId entry) db

theorem advanceStreak_onlyRewards (userId cycleId : Nat) (participated : Bool) :
    Steps OnlyRewards (advanceStreak userId cycleId participated) := fun _ ↦ ⟨_, _, _, rfl⟩

theorem advanceParticipant_onlyRewards (bonus : Nat → Nat → Int) (marker userId : Nat) :
    Steps OnlyRewards (advanceParticipant bonus marker userId) := by
  refine Steps.bind (fun _ _ _ ↦ .trans) (advanceStreak_onlyRewards _ _ _) fun streak ↦ ?_
  intro db
  dsimp only
  split
  · exact .refl db
  · exact (grantXp_onlyGrants _ _ _ _ _ db).onlyRewards

theorem awardEditionStreaks_onlyRewards (results : List TournamentCycleCompletedEvent) :
    Steps OnlyRewards (awardEditionStreaks results) := by
  intro db
  by_cases h : results = []
  · rw [awardEditionStreaks, if_pos h]
    exact .refl db
  · rw [awardEditionStreaks, if_neg h]
    have hadvance := Steps.mapM (l := participantsUnion results db) .refl (fun _ _ _ ↦ .trans)
      (fun u _ ↦ advanceParticipant_onlyRewards (streakBonus results db) (markerCycle results) u) db
    refine hadvance.trans ?_
    exact Steps.forM .refl (fun _ _ _ ↦ .trans)
      (fun userId _ ↦ advanceStreak_onlyRewards userId (markerCycle results) false) _

/-! ## What the ledger records -/

/-- The ledger holds the claim of this cycle, user and reason. -/
def Claimed (cycleId userId : Nat) (reason : GrantReason) (db : Db) : Prop :=
  ∃ g ∈ db.xpGrants, g.cycleId = cycleId ∧ g.userId = userId ∧ g.reason = reason

/-- No claim is withdrawn, and every new one satisfies `P`. -/
def GrantsOnly (P : XpGrant → Prop) (db db' : Db) : Prop :=
  (∀ g ∈ db.xpGrants, g ∈ db'.xpGrants) ∧ ∀ g ∈ db'.xpGrants, g ∈ db.xpGrants ∨ P g

namespace GrantsOnly

variable {P P' : XpGrant → Prop}

theorem refl (db : Db) : GrantsOnly P db db := ⟨fun _ ↦ id, fun _ ↦ .inl⟩

theorem trans {a b c : Db} (h : GrantsOnly P a b) (h' : GrantsOnly P b c) : GrantsOnly P a c :=
  ⟨fun g hg ↦ h'.1 g (h.1 g hg), fun g hg ↦ (h'.2 g hg).elim (h.2 g) .inr⟩

theorem claimed {db db' : Db} (h : GrantsOnly P db db') {cycleId userId : Nat}
    {reason : GrantReason} (hc : Claimed cycleId userId reason db) :
    Claimed cycleId userId reason db' := by
  obtain ⟨g, hg, hkey⟩ := hc
  exact ⟨g, h.1 g hg, hkey⟩

end GrantsOnly

section Grant

variable (userId : Nat) (amount : Int) (reason : String) (cycleId : Nat) (key : GrantReason)

theorem grantXp_xpGrants (db : Db) : (grantXp userId amount reason cycleId key db).2.xpGrants =
    (claimXpGrant cycleId userId key amount db).2.xpGrants := by
  rw [grantXp]
  change (if _ then _ else _ : StateM Db _) _ |>.2.xpGrants = _
  split <;> rfl

/-- A grant records at most its own claim. -/
theorem grantXp_grantsOnly :
    Steps (GrantsOnly fun g ↦ g = { cycleId, userId, reason := key, amount })
      (grantXp userId amount reason cycleId key) := by
  intro db
  rw [GrantsOnly, grantXp_xpGrants, claimXpGrant]
  split
  · exact GrantsOnly.refl db
  · simp only [List.mem_append, List.mem_singleton]
    exact ⟨fun _ ↦ .inl, fun _ ↦ id⟩

/-- After a grant its claim is on the ledger. -/
theorem grantXp_claimed (db : Db) :
    Claimed cycleId userId key (grantXp userId amount reason cycleId key db).2 := by
  rw [Claimed, grantXp_xpGrants, claimXpGrant]
  split
  · rename_i h
    simpa using h
  · exact ⟨_, List.mem_append_right _ (List.mem_singleton_self _), rfl, rfl, rfl⟩

end Grant

end Genjishimada.Services
