import Genjishimada.Services.Skill
import Genjishimada.Library.Diminishing
import Mathlib.Analysis.SpecialFunctions.Pow.Real

/-!
# The aggregate of a player

A player's score is a sum with diminishing returns of the scores on the maps: it is a function
of the multiset of those, one more map adds something between nothing and its own score, and no
map is worth less for being played better.
-/

namespace Genjishimada.Skill

open Library Services Repository

section Aggregate

variable {K : Type} [DivisionRing K] [LinearOrder K] {pow : K → K → K} {w : Weights K}
  {rows rows' : List SkillInput}

/-- What `i**gamma` does: it is positive and does not fall. -/
structure Decaying (pow : K → K → K) (gamma : K) : Prop where
  pos : ∀ i : Nat, 0 < i → 0 < pow i gamma
  step_le : ∀ i : Nat, 0 < i → pow i gamma ≤ pow (i + 1 : Nat) gamma

/-- The scores on the maps, as a multiset. -/
def mapScores (pow : K → K → K) (w : Weights K) (rows : List SkillInput) : Multiset K :=
  (rows.map fun r ↦ mapScore pow r w : List K)

/-- The weight of a place. -/
def share (pow : K → K → K) (gamma : K) (i : Nat) : K := (pow (i + 1 : Nat) gamma)⁻¹

theorem Decaying.declining [IsStrictOrderedRing K] {gamma : K} (h : Decaying pow gamma) :
    Declining (share pow gamma) where
  nonneg i := inv_nonneg.mpr (h.pos (i + 1) i.succ_pos).le
  step_le i := inv_anti₀ (h.pos (i + 1) i.succ_pos) (h.step_le (i + 1) i.succ_pos)

omit [LinearOrder K] in
theorem share_zero {gamma : K} (hone : pow 1 gamma = 1) : share pow gamma 0 = 1 := by
  rw [share, Nat.zero_add, Nat.cast_one, hone, inv_one]

/-- The score of a player is a sum with diminishing returns. -/
theorem playerScore_eq_aggregate (pow : K → K → K) (w : Weights K) (rows : List SkillInput) :
    playerScore pow rows w = aggregate (share pow w.gamma) (mapScores pow w rows) := by
  let scored := orderBy (fun t : K × SkillInput ↦ OrderDual.toDual t.1)
    (rows.map fun r ↦ (mapScore pow r w, r))
  have hperm : (scored.map Prod.fst).Perm (rows.map fun r ↦ mapScore pow r w) := by
    have h := (perm_orderBy (fun t : K × SkillInput ↦ OrderDual.toDual t.1)
      (rows.map fun r ↦ (mapScore pow r w, r))).map Prod.fst
    rw [List.map_map] at h
    exact h
  have hsorted : (scored.map Prod.fst).Pairwise (· ≥ ·) := by
    have h := pairwise_orderBy (fun t : K × SkillInput ↦ OrderDual.toDual t.1)
      (rows.map fun r ↦ (mapScore pow r w, r))
    exact List.pairwise_map.mpr (h.imp OrderDual.toDual_le_toDual.mp)
  have hplaces : playerScore pow rows w =
      (((scored.map Prod.fst).zipIdx 1).map fun t ↦ t.1 * (pow t.2 w.gamma)⁻¹).sum := by
    rw [playerScore, breakdownScore, playerBreakdown, List.map_map, List.zipIdx_map, List.map_map]
    simp only [Function.comp_def, div_eq_mul_inv]
    rfl
  rw [hplaces, mapScores, ← Multiset.coe_eq_coe.mpr hperm, ← weighted_eq_aggregate hsorted,
    sum_zipIdx_eq_weighted (fun i : Nat ↦ (pow i w.gamma)⁻¹)]
  congr 1
  funext i
  rw [share, Nat.add_comm]

omit [LinearOrder K] in
theorem mapScores_insert (before after : List SkillInput) (r : SkillInput) :
    mapScores pow w (before ++ r :: after) =
      mapScore pow r w ::ₘ mapScores pow w (before ++ after) := by
  rw [mapScores, mapScores, List.map_append, List.map_cons, List.map_append, Multiset.cons_coe]
  exact Multiset.coe_eq_coe.mpr List.perm_middle

end Aggregate

/-- The score of a player depends on the multiset of the scores on the maps; one more row raises
it by nothing at least and by its own score at most; a row with a larger score in the place of
another never lowers it. -/
theorem playerScore_aggregates {K : Type} [DivisionRing K] [LinearOrder K] [IsStrictOrderedRing K]
    (pow : K → K → K) (w : Weights K) (hone : pow 1 w.gamma = 1) (hdecay : Decaying pow w.gamma)
    (rows : List SkillInput) (hnonneg : ∀ r ∈ rows, 0 ≤ mapScore pow r w) :
    (∀ rows', (rows'.map fun r ↦ mapScore pow r w).Perm (rows.map fun r ↦ mapScore pow r w) →
      playerScore pow rows' w = playerScore pow rows w) ∧
    (∀ before r after, rows = before ++ after → 0 ≤ mapScore pow r w →
      0 ≤ playerScore pow (before ++ r :: after) w - playerScore pow rows w ∧
        playerScore pow (before ++ r :: after) w - playerScore pow rows w ≤ mapScore pow r w) ∧
    ∀ before r r' after, rows = before ++ r :: after → mapScore pow r w ≤ mapScore pow r' w →
      playerScore pow rows w ≤ playerScore pow (before ++ r' :: after) w := by
  have hscores : ∀ x ∈ mapScores pow w rows, 0 ≤ x := by
    intro x hx
    obtain ⟨r, hr, rfl⟩ := List.mem_map.mp (Multiset.mem_coe.mp hx)
    exact hnonneg r hr
  refine ⟨?_, ?_, ?_⟩
  · intro rows' hperm
    rw [playerScore_eq_aggregate, playerScore_eq_aggregate, mapScores,
      Multiset.coe_eq_coe.mpr hperm]
    rfl
  · rintro before r after rfl hr
    have hadds := aggregate_cons_le hdecay.declining hscores hr
    rw [share_zero hone, mul_one] at hadds
    rw [playerScore_eq_aggregate, playerScore_eq_aggregate, mapScores_insert]
    exact ⟨sub_nonneg.mpr (aggregate_le_cons hdecay.declining hscores hr),
      sub_le_iff_le_add.mpr hadds⟩
  · rintro before r r' after rfl hle
    rw [playerScore_eq_aggregate, playerScore_eq_aggregate, mapScores_insert, mapScores_insert]
    exact aggregate_cons_le_cons hdecay.declining.nonneg hle

/-- The power of the reals decays, whatever the exponent, as long as it is not negative. -/
theorem decaying_rpow {gamma : ℝ} (h : 0 ≤ gamma) : Decaying Real.rpow gamma where
  pos i hi := Real.rpow_pos_of_pos (Nat.cast_pos.mpr hi) gamma
  step_le i _ := Real.rpow_le_rpow (Nat.cast_nonneg i) (Nat.cast_le.mpr i.le_succ) h

/-- A partial clear of a map of the least difficulty. -/
def partialClear (mapId : Nat) : SkillInput where
  userId := 7
  mapId := mapId
  code := none
  mapName := "Hanamura"
  difficulty := .easy
  rawDifficulty := 3 / 2
  time := 1000
  completion := true
  fullyVerified := false
  fieldSize := 1
  fieldRank := 1
  videoRank := none
  timePct := 0
  medal := none
  hasMedalThresholds := false
  suspicious := false

/-- Weights with no bonus, over the reals. -/
def plainWeights : Weights ℝ where
  diffBase := 1
  gamma := 1
  timeBonus := 0
  shrinkK := 0
  wrBonus := 0
  partialFactor := 1
  medalGold := 1
  medalSilver := 1
  medalBronze := 1

theorem mapScore_partialClear (mapId : Nat) :
    0 ≤ mapScore Real.rpow (partialClear mapId) plainWeights := by
  have hfloor : 0 ≤ diffWeight Real.rpow (partialClear mapId).rawDifficulty plainWeights :=
    Real.rpow_nonneg zero_le_one _
  exact mul_nonneg hfloor zero_le_one

/-- A second partial clear counts for what the power of the reals leaves of it. -/
theorem partialClears_aggregate :
    0 ≤ playerScore Real.rpow [partialClear 1, partialClear 2] plainWeights -
        playerScore Real.rpow [partialClear 2] plainWeights ∧
      playerScore Real.rpow [partialClear 1, partialClear 2] plainWeights -
        playerScore Real.rpow [partialClear 2] plainWeights ≤
        mapScore Real.rpow (partialClear 1) plainWeights := by
  have hnonneg : ∀ r ∈ [partialClear 2], 0 ≤ mapScore Real.rpow r plainWeights := by
    intro r hr
    rw [List.mem_singleton.mp hr]
    exact mapScore_partialClear 2
  exact (playerScore_aggregates Real.rpow plainWeights (Real.one_rpow 1) (decaying_rpow zero_le_one)
    [partialClear 2] hnonneg).2.1 [] (partialClear 1) [partialClear 2] rfl (mapScore_partialClear 1)

end Genjishimada.Skill
