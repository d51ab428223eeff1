import Genjishimada.Library.Run
import Genjishimada.Services.SkillConfig
import Genjishimada.Skill.Improvement
import Mathlib.Algebra.Order.Floor.Semiring
import Mathlib.Analysis.SpecialFunctions.Pow.Real
import Mathlib.Tactic.FieldSimp

/-!
# Weights that score

Of the nine weights only `gamma` is checked when they are set.  The scores of a rebuild are
numbers, and none of them is negative, whatever the rows, exactly when the base of the floor is
positive, no multiplier is negative, and the time bonus fits the field-size shrink.
-/

namespace Genjishimada.Skill

open Library Services Repository Sdk

/-! ## The field-size shrink -/

section Shrink

variable {b k n : ℝ}

/-- The time bonus `b` fits the shrink constant `k`: no field size cancels `k`, and the sizes
next to `-k` leave the bonus small enough. -/
def FitsShrink (b k : ℝ) : Prop :=
  0 ≤ k ∧ 0 ≤ 1 + b ∨
    k < 0 ∧ -k ≤ (1 + b) * ((⌊-k⌋₊ : ℝ) + 1) ∧
      (1 ≤ ⌊-k⌋₊ → (⌊-k⌋₊ : ℝ) ≠ -k ∧ (1 + b) * (⌊-k⌋₊ : ℝ) ≤ -k)

theorem time_nonneg_of_pos_iff (h : 0 < n + k) : 0 ≤ 1 + b * (n / (n + k)) ↔ -k ≤ (1 + b) * n := by
  have heq : 1 + b * (n / (n + k)) = (n + k + b * n) / (n + k) := by
    field_simp
  rw [heq, le_div_iff₀ h, zero_mul]
  constructor <;> intro _ <;> linarith

theorem time_nonneg_of_neg_iff (h : n + k < 0) : 0 ≤ 1 + b * (n / (n + k)) ↔ (1 + b) * n ≤ -k := by
  have heq : 1 + b * (n / (n + k)) = -(n + k + b * n) / -(n + k) := by
    have hne := h.ne
    field_simp
  rw [heq, le_div_iff₀ (neg_pos.mpr h), zero_mul]
  constructor <;> intro _ <;> linarith

/-- Every field size has its time multiplier, and it is not negative. -/
theorem fitsShrink_iff : FitsShrink b k ↔
    ∀ n : Nat, 1 ≤ n → (n : ℝ) + k ≠ 0 ∧ 0 ≤ 1 + b * ((n : ℝ) / ((n : ℝ) + k)) := by
  constructor
  · rintro (⟨hk, hb⟩ | ⟨hk, habove, hbelow⟩) n hn
    · have hpos : (0 : ℝ) < n + k := by
        have hn' : (0 : ℝ) < n := Nat.cast_pos.mpr hn
        linarith
      refine ⟨hpos.ne', (time_nonneg_of_pos_iff hpos).mpr ?_⟩
      exact (neg_nonpos.mpr hk).trans (mul_nonneg hb n.cast_nonneg)
    · have hb : 0 ≤ 1 + b := by
        by_contra hneg
        rw [not_le] at hneg
        have hfloor : (0 : ℝ) ≤ ⌊-k⌋₊ := Nat.cast_nonneg _
        have hle := mul_nonpos_of_nonpos_of_nonneg hneg.le (by linarith : (0 : ℝ) ≤ ⌊-k⌋₊ + 1)
        linarith
      rcases Nat.lt_or_ge ⌊-k⌋₊ n with hlt | hge
      · -- sizes above `-k`
        have hcast : (⌊-k⌋₊ : ℝ) + 1 ≤ n := by exact_mod_cast hlt
        have hpos : (0 : ℝ) < n + k := by
          have hfloor := Nat.lt_floor_add_one (-k)
          linarith
        refine ⟨hpos.ne', (time_nonneg_of_pos_iff hpos).mpr ?_⟩
        exact habove.trans (mul_le_mul_of_nonneg_left hcast hb)
      · -- sizes below it
        obtain ⟨hne, hle⟩ := hbelow (hn.trans hge)
        have hcast : (n : ℝ) ≤ ⌊-k⌋₊ := by exact_mod_cast hge
        have hneg : (n : ℝ) + k < 0 := by
          have hfloor := (Nat.floor_le (neg_nonneg.mpr hk.le)).lt_of_ne hne
          linarith
        refine ⟨hneg.ne, (time_nonneg_of_neg_iff hneg).mpr ?_⟩
        exact (mul_le_mul_of_nonneg_left hcast hb).trans hle
  · intro h
    rcases le_or_gt 0 k with hk | hk
    · refine .inl ⟨hk, ?_⟩
      by_contra hneg
      rw [not_le] at hneg
      -- a field large enough
      have hsize := Nat.lt_floor_add_one (k / -(1 + b))
      rw [div_lt_iff₀ (neg_pos.mpr hneg)] at hsize
      obtain ⟨-, hnonneg⟩ := h (⌊k / -(1 + b)⌋₊ + 1) (Nat.le_add_left _ _)
      have hpos : (0 : ℝ) < ((⌊k / -(1 + b)⌋₊ + 1 : Nat) : ℝ) + k := by
        have hcast : (0 : ℝ) < ((⌊k / -(1 + b)⌋₊ + 1 : Nat) : ℝ) := Nat.cast_pos.mpr (Nat.succ_pos _)
        linarith
      rw [time_nonneg_of_pos_iff hpos] at hnonneg
      push_cast at hnonneg
      linarith
    · refine .inr ⟨hk, ?_, fun hfloor ↦ ?_⟩
      · obtain ⟨-, hnonneg⟩ := h (⌊-k⌋₊ + 1) (Nat.le_add_left _ _)
        have hpos : (0 : ℝ) < ((⌊-k⌋₊ + 1 : Nat) : ℝ) + k := by
          have hlt := Nat.lt_floor_add_one (-k)
          push_cast
          linarith
        rw [time_nonneg_of_pos_iff hpos] at hnonneg
        push_cast at hnonneg
        exact hnonneg
      · obtain ⟨hne, hnonneg⟩ := h ⌊-k⌋₊ hfloor
        have hne' : (⌊-k⌋₊ : ℝ) ≠ -k := fun heq ↦ hne (by rw [heq, neg_add_cancel])
        have hneg : (⌊-k⌋₊ : ℝ) + k < 0 := by
          have hlt := (Nat.floor_le (neg_nonneg.mpr hk.le)).lt_of_ne hne'
          linarith
        exact ⟨hne', (time_nonneg_of_neg_iff hneg).mp hnonneg⟩

end Shrink

/-! ## Sound weights -/

open Classical in
/-- Python's `**`; `none` if it raises or leaves the reals. -/
noncomputable def realPower (x y : ℝ) : Option ℝ :=
  if x = 0 ∧ y < 0 then none
  else if x < 0 ∧ ∀ n : ℤ, y ≠ n then none
  else some (x ^ y)

/-- The bounds of the input rows. -/
structure InBounds (r : SkillInput) : Prop where
  raw_nonneg : 0 ≤ r.rawDifficulty
  raw_le : r.rawDifficulty ≤ 10
  fieldSize : 1 ≤ r.fieldSize
  pct_nonneg : 0 ≤ r.timePct
  pct_le : r.timePct ≤ 1

/-- The scoring of a rebuild succeeds, and no score is negative. -/
structure RecomputeSound (w : Weights ℝ) (rows : List SkillInput) : Prop where
  maps : ∀ r ∈ rows, ∃ s, mapScore? realPower r w = some s ∧ 0 ≤ s
  players : ∃ scores, recomputeScores realPower w rows = some scores ∧
    ∀ u ∈ scores, (∀ row ∈ u.2, 0 ≤ row.rawScore ∧ 0 ≤ row.contribution) ∧ 0 ≤ breakdownScore u.2

/-- Whatever the rows. -/
def WeightsSound (w : Weights ℝ) : Prop :=
  ∀ rows, (∀ r ∈ rows, InBounds r) → RecomputeSound w rows

/-- A positive base, multipliers that are not negative, and a time bonus that fits. -/
structure SoundRanges (w : Weights ℝ) : Prop where
  diffBase : 0 < w.diffBase
  partialFactor : 0 ≤ w.partialFactor
  medalGold : 0 ≤ w.medalGold
  medalSilver : 0 ≤ w.medalSilver
  medalBronze : 0 ≤ w.medalBronze
  wrBonus : 0 ≤ 1 + w.wrBonus
  timeBonus : FitsShrink w.timeBonus w.shrinkK

section Power

variable {x y : ℝ}

theorem realPower_of_pos (hx : 0 < x) (y : ℝ) : realPower x y = some (x ^ y) := by
  rw [realPower, if_neg fun h ↦ hx.ne' h.1, if_neg fun h ↦ hx.not_gt h.1]

theorem realPower_zero (hy : y < 0) : realPower 0 y = none := if_pos ⟨rfl, hy⟩

theorem realPower_of_neg (hx : x < 0) (hy : ∀ n : ℤ, y ≠ n) : realPower x y = none := by
  rw [realPower, if_neg fun h ↦ hx.ne h.1, if_pos ⟨hx, hy⟩]

/-- The exponent of the lowest difficulty is no whole number. -/
theorem lowest_exponent (n : ℤ) : ((0 - 3 / 2 : Rat) : ℝ) ≠ n := by
  intro h
  have hrat : (0 - 3 / 2 : Rat) = (n : Rat) := by exact_mod_cast h
  have htwice : ((2 * n : ℤ) : Rat) = ((-3 : ℤ) : Rat) := by
    push_cast
    rw [← hrat]
    norm_num
  have hint : 2 * n = -3 := by exact_mod_cast htwice
  omega

end Power

/-! ## The scores of sound weights -/

section Sound

variable {w : Weights ℝ} {r : SkillInput} {rows : List SkillInput}

theorem timeFactor_nonneg (h : FitsShrink w.timeBonus w.shrinkK) (hr : InBounds r) :
    0 ≤ timeFactor w r.fieldSize r.timePct := by
  obtain ⟨-, hfull⟩ := fitsShrink_iff.mp h r.fieldSize hr.fieldSize
  have hpct : (0 : ℝ) ≤ (r.timePct : ℝ) := Rat.cast_nonneg.mpr hr.pct_nonneg
  have hrest : (0 : ℝ) ≤ 1 - (r.timePct : ℝ) := sub_nonneg.mpr (by exact_mod_cast hr.pct_le)
  rw [timeFactor, if_neg (Nat.one_le_iff_ne_zero.mp hr.fieldSize)]
  -- between the multiplier of the slowest and that of the fastest
  calc (0 : ℝ) ≤ (1 - (r.timePct : ℝ)) +
        r.timePct * (1 + w.timeBonus * ((r.fieldSize : ℝ) / ((r.fieldSize : ℝ) + w.shrinkK))) :=
      add_nonneg hrest (mul_nonneg hpct hfull)
    _ = 1 + w.timeBonus * ((r.fieldSize : ℝ) / ((r.fieldSize : ℝ) + w.shrinkK)) * r.timePct := by
      ring

theorem medalFactor_nonneg (h : SoundRanges w) (medal : Option Medal) : 0 ≤ medalFactor w medal := by
  cases medal with
  | none => exact zero_le_one
  | some medal =>
      cases medal
      · exact h.medalGold
      · exact h.medalSilver
      · exact h.medalBronze

theorem recordFactor_nonneg (h : SoundRanges w) (videoRank : Option Nat) :
    0 ≤ recordFactor w videoRank := by
  rw [recordFactor]
  split
  · exact h.wrBonus
  · exact zero_le_one

/-- The score, once the floor is there: a field whose size cancels the shrink constant has none. -/
theorem mapScore?_of_floor {floor : ℝ} (hfloor : diffWeight? realPower r.rawDifficulty w = some floor)
    (hr : InBounds r) :
    mapScore? realPower r w =
      if !r.fullyVerified then some (floor * w.partialFactor)
      else if (r.fieldSize : ℝ) + w.shrinkK = 0 then none
      else some (mapScore (fun _ _ ↦ floor) r w) := by
  rw [mapScore?, hfloor, Option.bind_some]
  simp only [if_neg (Nat.one_le_iff_ne_zero.mp hr.fieldSize)]

theorem diffWeight_rpow (raw : Rat) (w : Weights ℝ) :
    diffWeight Real.rpow raw w = w.diffBase ^ ((raw - 3 / 2 : Rat) : ℝ) := by
  rw [diffWeight]
  push_cast
  rfl

/-- Where nothing fails, the score is that of the real power. -/
theorem mapScore?_eq (h : SoundRanges w) (hr : InBounds r) :
    mapScore? realPower r w = some (mapScore Real.rpow r w) := by
  have hfloor := realPower_of_pos h.diffBase ((r.rawDifficulty - 3 / 2 : Rat) : ℝ)
  rw [mapScore?_of_floor hfloor hr]
  cases hverified : r.fullyVerified with
  | false =>
      rw [Bool.not_false, if_pos rfl, mapScore_of_unverified Real.rpow hverified, diffWeight_rpow]
  | true =>
      obtain ⟨hsize, -⟩ := fitsShrink_iff.mp h.timeBonus r.fieldSize hr.fieldSize
      rw [Bool.not_true, if_neg Bool.false_ne_true, if_neg hsize, mapScore_of_video _ hverified,
        mapScore_of_video _ hverified, diffWeight_rpow]
      rfl

theorem mapScore_nonneg (h : SoundRanges w) (hr : InBounds r) : 0 ≤ mapScore Real.rpow r w := by
  have hpos : 0 ≤ diffWeight Real.rpow r.rawDifficulty w := by
    rw [diffWeight_rpow]
    exact Real.rpow_nonneg h.diffBase.le _
  cases hverified : r.fullyVerified with
  | false =>
      rw [mapScore_of_unverified _ hverified]
      exact mul_nonneg hpos h.partialFactor
  | true =>
      rw [mapScore_of_video _ hverified]
      exact mul_nonneg (mul_nonneg (mul_nonneg hpos (timeFactor_nonneg h.timeBonus hr))
        (medalFactor_nonneg h _)) (recordFactor_nonneg h _)

/-- A traversal whose steps succeed is a map. -/
theorem mapM_eq_some_map {α β : Type} {f : α → Option β} {g : α → β} {l : List α}
    (h : ∀ a ∈ l, f a = some (g a)) : l.mapM f = some (l.map g) := by
  induction l with
  | nil => rfl
  | cons a l ih =>
      rw [List.mapM_cons, h a List.mem_cons_self, ih fun b hb ↦ h b (List.mem_cons_of_mem a hb)]
      rfl

theorem playerBreakdown?_eq (h : SoundRanges w) (hrows : ∀ r ∈ rows, InBounds r) :
    playerBreakdown? realPower rows w = some (playerBreakdown Real.rpow rows w) := by
  have hscores : rows.mapM (fun r ↦ (mapScore? realPower r w).map fun s ↦ (s, r)) =
      some (rows.map fun r ↦ (mapScore Real.rpow r w, r)) := by
    apply mapM_eq_some_map
    intro r hr
    rw [mapScore?_eq h (hrows r hr), Option.map_some]
  rw [playerBreakdown?, hscores, Option.bind_some, playerBreakdown]
  apply mapM_eq_some_map
  rintro ⟨⟨s, r⟩, i⟩ hmem
  -- the places start at one
  have hpos : (0 : ℝ) < i := Nat.cast_pos.mpr (List.le_snd_of_mem_zipIdx hmem)
  have hdecay := Real.rpow_pos_of_pos hpos w.gamma
  simp only [realPower_of_pos hpos, Option.bind_some, if_neg hdecay.ne']
  rfl

/-- The rebuild stores the scores of the real power. -/
theorem recomputeScores_eq (h : SoundRanges w) (hrows : ∀ r ∈ rows, InBounds r) :
    recomputeScores realPower w rows =
      some ((byUser rows).map fun u ↦ (u.1, playerBreakdown Real.rpow u.2 w)) := by
  apply mapM_eq_some_map
  intro u hu
  obtain ⟨userId, -, rfl⟩ := List.mem_map.mp hu
  rw [playerBreakdown?_eq h fun r hr ↦ hrows r (List.mem_filter.mp hr).1, Option.map_some]

/-- The contributions are the scores, divided by a positive power. -/
theorem playerBreakdown_nonneg (h : SoundRanges w) (hrows : ∀ r ∈ rows, InBounds r) :
    ∀ row ∈ playerBreakdown Real.rpow rows w, 0 ≤ row.rawScore ∧ 0 ≤ row.contribution := by
  intro row hrow
  obtain ⟨⟨⟨s, r⟩, i⟩, hmem, rfl⟩ := List.mem_map.mp hrow
  have hscored := (perm_orderBy _ _).mem_iff.mp (List.fst_mem_of_mem_zipIdx hmem)
  obtain ⟨r', hr', heq⟩ := List.mem_map.mp hscored
  have hs : 0 ≤ s := by
    obtain rfl : mapScore Real.rpow r' w = s := congrArg Prod.fst heq
    exact mapScore_nonneg h (hrows r' hr')
  exact ⟨hs, div_nonneg hs (Real.rpow_nonneg (Nat.cast_nonneg i) w.gamma)⟩

theorem breakdownScore_nonneg {breakdown : List (BreakdownRow ℝ)}
    (h : ∀ row ∈ breakdown, 0 ≤ row.rawScore ∧ 0 ≤ row.contribution) :
    0 ≤ breakdownScore breakdown := by
  apply List.sum_nonneg
  intro x hx
  obtain ⟨row, hrow, rfl⟩ := List.mem_map.mp hx
  exact (h row hrow).2

/-- Weights in their ranges are sound. -/
theorem SoundRanges.sound (h : SoundRanges w) : WeightsSound w := by
  intro rows hrows
  refine ⟨fun r hr ↦ ⟨_, mapScore?_eq h (hrows r hr), mapScore_nonneg h (hrows r hr)⟩,
    _, recomputeScores_eq h hrows, fun u hu ↦ ?_⟩
  obtain ⟨⟨userId, urows⟩, huser, rfl⟩ := List.mem_map.mp hu
  obtain ⟨_, -, heq⟩ := List.mem_map.mp huser
  have hurows : ∀ r ∈ urows, InBounds r := by
    obtain rfl : rows.filter _ = urows := congrArg Prod.snd heq
    exact fun r hr ↦ hrows r (List.mem_filter.mp hr).1
  have hnonneg := playerBreakdown_nonneg h hurows
  exact ⟨hnonneg, breakdownScore_nonneg hnonneg⟩

end Sound

/-! ## Rows that tell weights apart -/

/-- A row of the lowest difficulty. -/
def probe (fullyVerified : Bool) (fieldSize : Nat) (timePct : Rat) (medal : Option Medal)
    (videoRank : Option Nat) : SkillInput where
  userId := 1
  mapId := 1
  code := none
  mapName := ""
  difficulty := .easyMinus
  rawDifficulty := 0
  time := 1000
  completion := !fullyVerified
  fullyVerified
  fieldSize
  fieldRank := 1
  videoRank
  timePct
  medal
  hasMedalThresholds := medal.isSome
  suspicious := false

section Probe

variable {w : Weights ℝ}

theorem inBounds_probe (fullyVerified : Bool) {fieldSize : Nat} (hsize : 1 ≤ fieldSize)
    {timePct : Rat} (hpct : 0 ≤ timePct ∧ timePct ≤ 1) (medal : Option Medal)
    (videoRank : Option Nat) :
    InBounds (probe fullyVerified fieldSize timePct medal videoRank) where
  raw_nonneg := le_rfl
  raw_le := show (0 : Rat) ≤ 10 by norm_num
  fieldSize := hsize
  pct_nonneg := hpct.1
  pct_le := hpct.2

theorem WeightsSound.score_probe (h : WeightsSound w) (fullyVerified : Bool) {fieldSize : Nat}
    (hsize : 1 ≤ fieldSize) {timePct : Rat} (hpct : 0 ≤ timePct ∧ timePct ≤ 1)
    (medal : Option Medal) (videoRank : Option Nat) :
    ∃ s, mapScore? realPower (probe fullyVerified fieldSize timePct medal videoRank) w = some s ∧
      0 ≤ s := by
  apply (h [probe fullyVerified fieldSize timePct medal videoRank] ?_).maps
  · exact List.mem_singleton_self _
  · intro r hr
    rw [List.mem_singleton.mp hr]
    exact inBounds_probe fullyVerified hsize hpct medal videoRank

/-- The floor of the lowest difficulty has a negative, fractional exponent. -/
theorem WeightsSound.diffBase_pos (h : WeightsSound w) : 0 < w.diffBase := by
  obtain ⟨s, hs, -⟩ := h.score_probe false le_rfl ⟨le_rfl, zero_le_one⟩ none none
  obtain ⟨floor, hfloor, -⟩ := Option.bind_eq_some_iff.mp hs
  have hfloor' : realPower w.diffBase ((0 - 3 / 2 : Rat) : ℝ) = some floor := hfloor
  rcases lt_trichotomy w.diffBase 0 with hneg | hzero | hpos
  · rw [realPower_of_neg hneg lowest_exponent] at hfloor'
    cases hfloor'
  · rw [hzero, realPower_zero (by norm_num)] at hfloor'
    cases hfloor'
  · exact hpos

theorem WeightsSound.partialFactor_nonneg (h : WeightsSound w) : 0 ≤ w.partialFactor := by
  obtain ⟨s, hs, hnonneg⟩ := h.score_probe false le_rfl ⟨le_rfl, zero_le_one⟩ none none
  obtain ⟨floor, hfloor, hs⟩ := Option.bind_eq_some_iff.mp hs
  have hfloor' := realPower_of_pos h.diffBase_pos ((0 - 3 / 2 : Rat) : ℝ)
  have hpos := Real.rpow_pos_of_pos h.diffBase_pos ((0 - 3 / 2 : Rat) : ℝ)
  obtain rfl := Option.some.inj (hfloor'.symm.trans hfloor)
  obtain rfl := Option.some.inj hs
  exact nonneg_of_mul_nonneg_right hnonneg hpos

/-- The multipliers of a video run. -/
theorem WeightsSound.factors (h : WeightsSound w) {fieldSize : Nat} (hsize : 1 ≤ fieldSize)
    {timePct : Rat} (hpct : 0 ≤ timePct ∧ timePct ≤ 1) (medal : Option Medal)
    (videoRank : Option Nat) :
    (fieldSize : ℝ) + w.shrinkK ≠ 0 ∧
      0 ≤ timeFactor w fieldSize timePct * medalFactor w medal * recordFactor w videoRank := by
  obtain ⟨s, hs, hnonneg⟩ := h.score_probe true hsize hpct medal videoRank
  have hpos := Real.rpow_pos_of_pos h.diffBase_pos ((0 - 3 / 2 : Rat) : ℝ)
  have hfloor : diffWeight? realPower (probe true fieldSize timePct medal videoRank).rawDifficulty w =
      some (w.diffBase ^ ((0 - 3 / 2 : Rat) : ℝ)) := realPower_of_pos h.diffBase_pos _
  rw [mapScore?_of_floor hfloor (inBounds_probe true hsize hpct medal videoRank)] at hs
  have hverified : (probe true fieldSize timePct medal videoRank).fullyVerified = true := rfl
  rw [hverified, Bool.not_true, if_neg Bool.false_ne_true] at hs
  split at hs
  · cases hs
  · rename_i hne
    refine ⟨hne, ?_⟩
    obtain rfl := Option.some.inj hs
    rw [mapScore_of_video _ hverified, mul_assoc, mul_assoc, ← mul_assoc (timeFactor w _ _)] at hnonneg
    exact nonneg_of_mul_nonneg_right hnonneg hpos

/-- The slowest run of a field has no time bonus. -/
theorem timeFactor_slowest (w : Weights ℝ) (fieldSize : Nat) : timeFactor w fieldSize 0 = 1 := by
  rw [timeFactor, Rat.cast_zero, mul_zero, add_zero]

theorem WeightsSound.medalFactor_nonneg (h : WeightsSound w) (medal : Option Medal) :
    0 ≤ medalFactor w medal := by
  obtain ⟨-, hnonneg⟩ := h.factors le_rfl ⟨le_rfl, zero_le_one⟩ medal none
  rwa [timeFactor_slowest, one_mul, recordFactor, if_neg (Option.some_ne_none 1).symm, mul_one] at hnonneg

/-- Weights that are sound are in their ranges. -/
theorem WeightsSound.ranges (h : WeightsSound w) : SoundRanges w where
  diffBase := h.diffBase_pos
  partialFactor := h.partialFactor_nonneg
  medalGold := h.medalFactor_nonneg (some .gold)
  medalSilver := h.medalFactor_nonneg (some .silver)
  medalBronze := h.medalFactor_nonneg (some .bronze)
  wrBonus := by
    obtain ⟨-, hnonneg⟩ := h.factors le_rfl ⟨le_rfl, zero_le_one⟩ none (some 1)
    rwa [timeFactor_slowest, one_mul, medalFactor, one_mul, recordFactor, if_pos rfl] at hnonneg
  timeBonus := by
    rw [fitsShrink_iff]
    intro n hn
    obtain ⟨hne, hnonneg⟩ := h.factors hn ⟨zero_le_one, le_rfl⟩ none none
    refine ⟨hne, ?_⟩
    rwa [medalFactor, mul_one, recordFactor, if_neg (Option.some_ne_none 1).symm, mul_one, timeFactor,
      if_neg (Nat.one_le_iff_ne_zero.mp hn), Rat.cast_one, mul_one] at hnonneg

end Probe

end Genjishimada.Skill
