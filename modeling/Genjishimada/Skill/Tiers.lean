import Genjishimada.Services.SkillTiers

/-!
# Tiers and percentiles

The boundaries are the values at ascending fractions of the positive scores, so they ascend, and
the bucket of a score among them and the share of the scores that it reaches ascend with it.
-/

namespace Genjishimada.Skill

open Library Services

/-! ## What is shown of a player -/

/-- A player's row with its tier and percentile. -/
def Shown (cfg : TierConfig) (snapshot : List (SnapshotRow Rat)) (row : SnapshotWithTier) : Prop :=
  ∃ userId, fetchSnapshotWithTier cfg snapshot userId = some row

/-- The number of players with a positive score. -/
def population (snapshot : List (SnapshotRow Rat)) : Nat := (positiveScores snapshot).length

structure TiersSound (cfg : TierConfig) (snapshot : List (SnapshotRow Rat)) : Prop where
  boundaries : cfg.boundaries = [] ∨
    cfg.boundaries.length = 7 ∧ cfg.boundaries.Pairwise (· ≤ ·)
  tier_le : ∀ row row', Shown cfg snapshot row → Shown cfg snapshot row' → 0 < row.skillScore →
    row.skillScore ≤ row'.skillScore → row.tier ≤ row'.tier
  ranked : ∀ row, Shown cfg snapshot row → 0 < row.skillScore → 20 ≤ population snapshot →
    1 ≤ row.tier ∧ row.tier ≤ 8
  unranked : ∀ row, Shown cfg snapshot row → 0 < row.skillScore →
    (row.tier = 0 ↔ population snapshot < 20)
  percentile_le : ∀ row row', Shown cfg snapshot row → Shown cfg snapshot row' →
    row.skillScore ≤ row'.skillScore → row.percentile ≤ row'.percentile

/-- The percentile of the best player is one. -/
def BestIsOne (cfg : TierConfig) (snapshot : List (SnapshotRow Rat)) : Prop :=
  ∀ row, Shown cfg snapshot row → (∀ s ∈ snapshot, s.skillScore ≤ row.skillScore) →
    row.percentile = 1

/-! ## The percentiles that are accepted -/

section Accepted

variable {percentiles : List Rat}

/-- Neighbours that ascend. -/
theorem pairwise_of_zip_tail {l : List Rat}
    (h : (l.zip l.tail).any (fun t ↦ t.2 ≤ t.1) = false) : l.Pairwise (· < ·) := by
  rw [← List.isChain_iff_pairwise]
  induction l with
  | nil => exact .nil
  | cons a t ih =>
      cases t with
      | nil => exact .singleton a
      | cons b t =>
          rw [List.tail_cons, List.zip_cons_cons, List.any_cons, Bool.or_eq_false_iff,
            decide_eq_false_iff_not, not_le] at h
          exact .cons_cons h.1 (ih h.2)

theorem of_checkPercentiles (h : checkPercentiles percentiles = .ok ()) :
    percentiles.length = 7 ∧ (∀ p ∈ percentiles, 0 < p ∧ p < 1) ∧ percentiles.Pairwise (· < ·) := by
  rw [checkPercentiles] at h
  split at h
  · cases h
  · rename_i hlength
    split at h
    · cases h
    · rename_i hrange
      split at h
      · cases h
      · rename_i hascend
        refine ⟨not_not.mp hlength, ?_, pairwise_of_zip_tail (Bool.not_eq_true _ ▸ hascend)⟩
        simpa using hrange

end Accepted

/-! ## Boundaries -/

section Boundaries

variable {snapshot : List (SnapshotRow Rat)} {now : Int} {cfg : TierConfig}

theorem boundaries_computeTierBoundaries (hfloor : 20 ≤ population snapshot) :
    (computeTierBoundaries now snapshot cfg).boundaries =
      cfg.percentiles.filterMap fun p ↦ percentileCont p (positiveScores snapshot) :=
  if_pos hfloor

theorem boundaries_of_few (hfew : population snapshot < 20) :
    (computeTierBoundaries now snapshot cfg).boundaries = [] :=
  if_neg hfew.not_ge

/-- The values at ascending fractions ascend. -/
theorem boundaries_ascend (now : Int) (hfloor : 20 ≤ population snapshot)
    (hrange : ∀ p ∈ cfg.percentiles, 0 < p ∧ p < 1) (hsorted : cfg.percentiles.Pairwise (· < ·)) :
    (computeTierBoundaries now snapshot cfg).boundaries.length = cfg.percentiles.length ∧
      (computeTierBoundaries now snapshot cfg).boundaries.Pairwise (· ≤ ·) := by
  have hne : positiveScores snapshot ≠ [] := by
    rw [← List.length_pos_iff]
    exact Nat.lt_of_lt_of_le (by decide) hfloor
  rw [boundaries_computeTierBoundaries hfloor]
  refine ⟨?_, ?_⟩
  · rw [List.length_filterMap_eq_countP, List.countP_eq_length]
    intro p hp
    obtain ⟨hlow, hhigh⟩ := hrange p hp
    rw [percentileCont_eq hne ⟨hlow.le, hhigh.le⟩, Option.isSome_some]
  · rw [List.pairwise_filterMap]
    refine hsorted.imp_of_mem fun {p q} hp hq hpq v hv w hw ↦ ?_
    exact percentileCont_mono hne (hrange p hp).1.le hpq.le (hrange q hq).2.le hv hw

end Boundaries

/-! ## Tiers and percentiles -/

section Rows

variable {snapshot : List (SnapshotRow Rat)} {cfg : TierConfig}
  {row : SnapshotWithTier} {x y : Rat}

theorem Shown.eq (h : Shown cfg snapshot row) : row.toSnapshotRow ∈ snapshot ∧
    row.tier = tierOf cfg row.skillScore ∧ row.percentile = percentileOf snapshot row.skillScore := by
  obtain ⟨userId, hrow⟩ := h
  obtain ⟨ss, hfind, rfl⟩ := Option.map_eq_some_iff.mp hrow
  exact ⟨List.mem_of_find?_eq_some hfind, rfl, rfl⟩

theorem tierOf_of_pos (hx : 0 < x) (hne : cfg.boundaries ≠ []) :
    tierOf cfg x = widthBucket x cfg.boundaries + 1 := by
  refine if_neg ?_
  rintro (hle | hnil)
  · exact hle.not_gt hx
  · exact hne (List.length_eq_zero_iff.mp hnil)

theorem tierOf_of_nil (hnil : cfg.boundaries = []) (x : Rat) : tierOf cfg x = 0 := by
  refine if_pos (.inr ?_)
  rw [hnil, List.length_nil]

theorem tierOf_mono (hsorted : cfg.boundaries.Pairwise (· ≤ ·)) (hx : 0 < x) (hxy : x ≤ y) :
    tierOf cfg x ≤ tierOf cfg y := by
  by_cases hnil : cfg.boundaries = []
  · rw [tierOf_of_nil hnil, tierOf_of_nil hnil]
  · rw [tierOf_of_pos hx hnil, tierOf_of_pos (hx.trans_le hxy) hnil]
    exact Nat.succ_le_succ (widthBucket_mono hsorted hxy)

theorem percentileOf_mono (snapshot : List (SnapshotRow Rat)) (hxy : x ≤ y) :
    percentileOf snapshot x ≤ percentileOf snapshot y := by
  rw [percentileOf, percentileOf]
  split
  · exact le_rfl
  · apply div_le_div_of_nonneg_right _ (Nat.cast_nonneg _)
    rw [Nat.cast_le]
    apply List.countP_mono_left
    intro other _ hother
    rw [decide_eq_true_eq] at hother ⊢
    exact hother.trans hxy

/-- All positive scores are at or below the largest score. -/
theorem percentileOf_largest (hlargest : ∀ s ∈ snapshot, s.skillScore ≤ x) :
    percentileOf snapshot x = if population snapshot = 0 then 0 else 1 := by
  rw [percentileOf]
  have hall : (positiveScores snapshot).countP (fun other ↦ other ≤ x) = population snapshot := by
    rw [population, List.countP_eq_length]
    intro score hscore
    obtain ⟨s, hs, rfl⟩ := List.mem_map.mp (List.mem_filter.mp hscore).1
    exact decide_eq_true (hlargest s hs)
  simp only [hall]
  rw [population]
  split
  · rfl
  · rename_i hne
    exact div_self (Nat.cast_ne_zero.mpr hne)

/-- The boundaries that are derived from accepted percentiles. -/
theorem tiersSound_of_accepted (now : Int) (snapshot : List (SnapshotRow Rat)) (cfg : TierConfig)
    (hok : checkPercentiles cfg.percentiles = .ok ()) :
    TiersSound (computeTierBoundaries now snapshot cfg) snapshot := by
  obtain ⟨hlength, hrange, hascend⟩ := of_checkPercentiles hok
  have hmany : 20 ≤ population snapshot →
      (computeTierBoundaries now snapshot cfg).boundaries.length = 7 ∧
        (computeTierBoundaries now snapshot cfg).boundaries.Pairwise (· ≤ ·) := by
    intro hfloor
    obtain ⟨hseven, hsorted⟩ := boundaries_ascend now hfloor hrange hascend
    exact ⟨hseven.trans hlength, hsorted⟩
  have hranked : ∀ x, 0 < x → 20 ≤ population snapshot →
      1 ≤ tierOf (computeTierBoundaries now snapshot cfg) x ∧
        tierOf (computeTierBoundaries now snapshot cfg) x ≤ 8 := by
    intro x hx hfloor
    obtain ⟨hseven, hsorted⟩ := hmany hfloor
    have hne : (computeTierBoundaries now snapshot cfg).boundaries ≠ [] := by
      rw [← List.length_pos_iff, hseven]
      exact Nat.succ_pos 6
    rw [tierOf_of_pos hx hne]
    refine ⟨Nat.succ_pos _, Nat.succ_le_succ ?_⟩
    rw [← hseven]
    exact widthBucket_le_length hsorted
  have hboundaries : (computeTierBoundaries now snapshot cfg).boundaries = [] ∨
      (computeTierBoundaries now snapshot cfg).boundaries.length = 7 ∧
        (computeTierBoundaries now snapshot cfg).boundaries.Pairwise (· ≤ ·) := by
    rcases Nat.lt_or_ge (population snapshot) 20 with hfew | hfloor
    · exact .inl (boundaries_of_few hfew)
    · exact .inr (hmany hfloor)
  refine ⟨hboundaries, ?_, ?_, ?_, ?_⟩
  · intro row row' hrow hrow' hpos hle
    rw [hrow.eq.2.1, hrow'.eq.2.1]
    rcases hboundaries with hnil | ⟨-, hsorted⟩
    · rw [tierOf_of_nil hnil, tierOf_of_nil hnil]
    · exact tierOf_mono hsorted hpos hle
  · intro row hrow hpos hfloor
    rw [hrow.eq.2.1]
    exact hranked row.skillScore hpos hfloor
  · intro row hrow hpos
    rw [hrow.eq.2.1]
    rcases Nat.lt_or_ge (population snapshot) 20 with hfew | hfloor
    · exact iff_of_true (tierOf_of_nil (boundaries_of_few hfew) _) hfew
    · exact iff_of_false (Nat.ne_of_gt (hranked row.skillScore hpos hfloor).1) hfloor.not_gt
  · intro row row' hrow hrow' hle
    rw [hrow.eq.2.2, hrow'.eq.2.2]
    exact percentileOf_mono snapshot hle

end Rows

/-- The percentiles that an update stores, and the boundaries that are derived from them then and
at every later rebuild: the boundaries are seven in ascending order or none, and tiers and
percentiles ascend with the score, with a percentile of one for the best player once anyone has
a positive score. -/
theorem tiers_sound {percentiles : List Rat} {now later : Int}
    {snapshot rebuilt : List (SnapshotRow Rat)} {cfg₀ cfg : TierConfig}
    (hok : updateTierConfig percentiles now snapshot cfg₀ = .ok cfg) :
    (TiersSound cfg snapshot ∧ (0 < population snapshot → BestIsOne cfg snapshot)) ∧
      TiersSound (computeTierBoundaries later rebuilt cfg) rebuilt ∧
      (0 < population rebuilt → BestIsOne (computeTierBoundaries later rebuilt cfg) rebuilt) := by
  have hbest : ∀ (cfg : TierConfig) snapshot, 0 < population snapshot → BestIsOne cfg snapshot := by
    intro cfg snapshot hpos row hrow hlargest
    rw [hrow.eq.2.2, percentileOf_largest hlargest, if_neg hpos.ne']
  rw [updateTierConfig] at hok
  cases hcheck : checkPercentiles percentiles with
  | error e =>
      rw [hcheck] at hok
      cases hok
  | ok _ =>
      rw [hcheck] at hok
      cases hok
      exact ⟨⟨tiersSound_of_accepted now snapshot { cfg₀ with percentiles } hcheck, hbest _ _⟩,
        tiersSound_of_accepted later rebuilt
          (computeTierBoundaries now snapshot { cfg₀ with percentiles }) hcheck, hbest _ _⟩

/-! ## Nobody with a positive score -/

/-- A player whose partial clears count for nothing. -/
def zeroSnapshot : List (SnapshotRow Rat) :=
  [{ userId := 7, skillScore := 0, mapsCleared := 1, videoClears := 0, hardestRaw := 3 / 2,
      breakdown := [], computedAt := 0 }]

/-- The best player has the percentile zero. -/
theorem zeroSnapshot_best :
    (updateTierConfig seedTierConfig.percentiles 1 zeroSnapshot seedTierConfig).map
        TierConfig.percentiles = .ok seedTierConfig.percentiles ∧
      ∀ cfg, ¬ BestIsOne cfg zeroSnapshot := by
  refine ⟨by decide +kernel, fun cfg hbest ↦ ?_⟩
  have hone := hbest _ ⟨7, rfl⟩ fun s hs ↦ by
    rw [List.mem_singleton.mp hs]
  have hzero : percentileOf zeroSnapshot 0 = 0 := by decide +kernel
  exact zero_ne_one (hzero.symm.trans hone)

/-- Twenty players with the scores from 1 to 20. -/
def twentyPlayers : List (SnapshotRow Rat) :=
  (List.range 20).map fun i ↦
    { userId := i, skillScore := i + 1, mapsCleared := 1, videoClears := 0, hardestRaw := 3 / 2,
      breakdown := [], computedAt := 0 }

/-- The rule for the seeded percentiles and twenty players. -/
theorem twentyPlayers_sound :
    (TiersSound (computeTierBoundaries 1 twentyPlayers seedTierConfig) twentyPlayers ∧
        (0 < population twentyPlayers →
          BestIsOne (computeTierBoundaries 1 twentyPlayers seedTierConfig) twentyPlayers)) ∧
      TiersSound (computeTierBoundaries 2 zeroSnapshot
        (computeTierBoundaries 1 twentyPlayers seedTierConfig)) zeroSnapshot ∧
      (0 < population zeroSnapshot → BestIsOne (computeTierBoundaries 2 zeroSnapshot
        (computeTierBoundaries 1 twentyPlayers seedTierConfig)) zeroSnapshot) :=
  tiers_sound (show updateTierConfig seedTierConfig.percentiles 1 twentyPlayers seedTierConfig = _ by
    have hcheck : checkPercentiles seedTierConfig.percentiles = .ok () := by decide +kernel
    rw [updateTierConfig, hcheck]
    rfl)

end Genjishimada.Skill
