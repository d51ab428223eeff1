import Genjishimada.Repository.Tournaments

/-!
# The leaderboard of a cycle

`fetch_leaderboard` keeps one run per user, the best, and ranks the runs it keeps.
No two of them compare equal, because the user is the last tiebreak, so a run's rank
is its position; and verified runs come before all others, so the users with a
verified run are exactly those ranked at most as high as there are of them.
-/

namespace Genjishimada.Tournaments

open Library Sdk Repository

variable {cycleId : Nat} {db : Db}

/-- The users with a verified run in the cycle. -/
def verifiedRunners (cycleId : Nat) (db : Db) : List Nat :=
  ((db.completions.select fun c ↦ c.cycleId = cycleId ∧ c.verified).map Completion.userId).dedup

theorem mem_verifiedRunners {u : Nat} : u ∈ verifiedRunners cycleId db ↔
    ∃ c ∈ db.completions.rows, c.cycleId = cycleId ∧ c.verified = true ∧ c.userId = u := by
  simp [verifiedRunners, and_assoc]

theorem mem_fetchCycleParticipants {u : Nat} : u ∈ fetchCycleParticipants cycleId db ↔
    ∃ c ∈ db.completions.rows, c.cycleId = cycleId ∧ c.userId = u := by
  simp [fetchCycleParticipants, and_assoc]

/-! ## The best run of each user -/

theorem mem_rows_of_mem_bestPerUser {c : Completion} (h : c ∈ bestPerUser cycleId db) :
    c ∈ db.completions.rows ∧ c.cycleId = cycleId := by
  have h := mem_of_mem_distinctOn h
  rw [mem_orderBy, Table.mem_select] at h
  simpa using h

/-- The leaderboard keeps one run per user. -/
theorem nodup_bestPerUser (cycleId : Nat) (db : Db) :
    ((bestPerUser cycleId db).map Completion.userId).Nodup := nodup_map_distinctOn _ _

/-- Every participant is on the leaderboard, and nobody else. -/
theorem perm_map_bestPerUser (cycleId : Nat) (db : Db) :
    ((bestPerUser cycleId db).map Completion.userId).Perm (fetchCycleParticipants cycleId db) := by
  refine (List.perm_ext_iff_of_nodup (nodup_bestPerUser cycleId db) (List.nodup_dedup _)).mpr ?_
  intro u
  change u ∈ _ ↔ u ∈ fetchCycleParticipants cycleId db
  rw [mem_fetchCycleParticipants, List.mem_map]
  constructor
  · rintro ⟨c, hc, rfl⟩
    exact ⟨c, (mem_rows_of_mem_bestPerUser hc).1, (mem_rows_of_mem_bestPerUser hc).2, rfl⟩
  · rintro ⟨c, hc, hcycle, rfl⟩
    have hmem : c ∈ orderBy standingKey (db.completions.select fun c ↦ c.cycleId = cycleId) := by
      simpa using ⟨hc, hcycle⟩
    exact exists_mem_distinctOn hmem

/-- The run kept for a user is at least as good as any other of theirs. -/
theorem bestPerUser_le {b c : Completion} (hb : b ∈ bestPerUser cycleId db)
    (hc : c ∈ db.completions.rows) (hcycle : c.cycleId = cycleId) (hu : c.userId = b.userId) :
    standingKey b ≤ standingKey c := by
  rw [bestPerUser] at hb
  refine distinctOn_le (pairwise_orderBy _ _) hb ?_ hu
  simpa using ⟨hc, hcycle⟩

theorem verified_of_standingKey_le {b c : Completion} (h : standingKey b ≤ standingKey c)
    (hc : c.verified = true) : b.verified = true := by
  have hle : (!b.verified) ≤ (!c.verified) := (Prod.Lex.le_iff.mp h).elim le_of_lt fun h ↦ h.1.le
  cases hb : b.verified with
  | true => rfl
  | false =>
      rw [hb, hc] at hle
      exact absurd hle (by decide)

/-- A verified run is ranked before an unverified one. -/
theorem standingKey_lt {b c : Completion} (hb : b.verified = true) (hc : ¬ c.verified = true) :
    standingKey b < standingKey c := by
  refine Prod.Lex.lt_iff.mpr (.inl ?_)
  simp [standingKey, hb, hc]

/-- A user's best run is verified exactly when they have a verified run. -/
theorem verified_iff_mem_verifiedRunners {b : Completion} (hb : b ∈ bestPerUser cycleId db) :
    b.verified = true ↔ b.userId ∈ verifiedRunners cycleId db := by
  rw [mem_verifiedRunners]
  constructor
  · intro h
    obtain ⟨hmem, hcycle⟩ := mem_rows_of_mem_bestPerUser hb
    exact ⟨b, hmem, hcycle, h, rfl⟩
  · rintro ⟨c, hc, hcycle, hv, hu⟩
    exact verified_of_standingKey_le (bestPerUser_le hb hc hcycle hu) hv

/-- As many best runs are verified as there are users with a verified run. -/
theorem countP_verified_bestPerUser (cycleId : Nat) (db : Db) :
    (bestPerUser cycleId db).countP Completion.verified = (verifiedRunners cycleId db).length := by
  have hperm : (((bestPerUser cycleId db).filter Completion.verified).map Completion.userId).Perm
      (verifiedRunners cycleId db) := by
    refine (List.perm_ext_iff_of_nodup ?_ (List.nodup_dedup _)).mpr fun u ↦ ?_
    · exact (nodup_bestPerUser cycleId db).sublist (List.filter_sublist.map _)
    · change u ∈ _ ↔ u ∈ verifiedRunners cycleId db
      rw [List.mem_map]
      constructor
      · rintro ⟨b, hb, rfl⟩
        obtain ⟨hb, hv⟩ := List.mem_filter.mp hb
        exact (verified_iff_mem_verifiedRunners hb).mp hv
      · intro hu
        obtain ⟨c, hc, hcycle, hv, rfl⟩ := mem_verifiedRunners.mp hu
        have hpart : c.userId ∈ (bestPerUser cycleId db).map Completion.userId :=
          (perm_map_bestPerUser cycleId db).mem_iff.mpr
            (mem_fetchCycleParticipants.mpr ⟨c, hc, hcycle, rfl⟩)
        obtain ⟨b, hb, hbu⟩ := List.mem_map.mp hpart
        refine ⟨b, List.mem_filter.mpr ⟨hb, ?_⟩, hbu⟩
        rw [verified_iff_mem_verifiedRunners hb, hbu]
        exact hu
  rw [List.countP_eq_length_filter, ← hperm.length_eq, List.length_map]

/-! ## Ranks -/

theorem standingKey_injOn (cycleId : Nat) (db : Db) :
    ((bestPerUser cycleId db).map standingKey).Nodup := by
  have hnodup := nodup_bestPerUser cycleId db
  rw [List.nodup_map_iff_inj_on hnodup.of_map]
  intro a ha b hb h
  have hu : a.userId = b.userId := by
    simp only [standingKey, EmbeddingLike.apply_eq_iff_eq, Prod.mk.injEq] at h
    exact h.2.2.2.2
  exact List.inj_on_of_nodup_map hnodup ha hb hu

/-- The standing of the run `c`. -/
def standing (cycleId : Nat) (db : Db) (c : Completion) : TournamentLeaderboardEntryResponse :=
  { rank := rank standingKey (bestPerUser cycleId db) c, userId := c.userId
    name := db.userName c.userId, time := c.time, verified := c.verified, completion := c.completion }

theorem mem_fetchLeaderboard {s : TournamentLeaderboardEntryResponse} :
    s ∈ fetchLeaderboard cycleId db ↔ ∃ c ∈ bestPerUser cycleId db, standing cycleId db c = s := by
  simp [fetchLeaderboard, standing]

/-- There is one standing per participant. -/
theorem length_fetchLeaderboard (cycleId : Nat) (db : Db) :
    (fetchLeaderboard cycleId db).length = (fetchCycleParticipants cycleId db).length := by
  rw [← (perm_map_bestPerUser cycleId db).length_eq]
  simp [fetchLeaderboard]

/-- A standing's rank is its position. -/
theorem rank_getElem_fetchLeaderboard {i : Nat} (hi : i < (fetchLeaderboard cycleId db).length) :
    (fetchLeaderboard cycleId db)[i].rank = i + 1 := by
  have hlt := pairwise_lt_orderBy (standingKey_injOn cycleId db)
  have hperm := perm_orderBy standingKey (bestPerUser cycleId db)
  simp only [fetchLeaderboard, List.getElem_map]
  rw [← rank_perm hperm, rank_getElem hlt]

/-- Users with a verified run are ranked at most as high as there are of them, and
nobody else is. -/
theorem rank_le_iff {s : TournamentLeaderboardEntryResponse} (hs : s ∈ fetchLeaderboard cycleId db) :
    s.rank ≤ (verifiedRunners cycleId db).length ↔ s.userId ∈ verifiedRunners cycleId db := by
  obtain ⟨c, hc, rfl⟩ := mem_fetchLeaderboard.mp hs
  rw [← countP_verified_bestPerUser, standing, ← verified_iff_mem_verifiedRunners hc]
  exact rank_le_countP_iff (fun a _ b _ ↦ standingKey_lt) hc

/-- Every rank from one to the number of participants is taken. -/
theorem exists_rank_eq {p : Nat} (hp : 0 < p) (hle : p ≤ (fetchCycleParticipants cycleId db).length) :
    ∃ s ∈ fetchLeaderboard cycleId db, s.rank = p := by
  have hi : p - 1 < (fetchLeaderboard cycleId db).length := by
    rw [length_fetchLeaderboard]
    omega
  refine ⟨_, List.getElem_mem hi, ?_⟩
  rw [rank_getElem_fetchLeaderboard]
  omega

theorem rank_le {s : TournamentLeaderboardEntryResponse} (hs : s ∈ fetchLeaderboard cycleId db) :
    s.rank ≤ (fetchCycleParticipants cycleId db).length := by
  obtain ⟨c, hc, rfl⟩ := mem_fetchLeaderboard.mp hs
  rw [← (perm_map_bestPerUser cycleId db).length_eq, List.length_map]
  exact rank_le_length hc

end Genjishimada.Tournaments
