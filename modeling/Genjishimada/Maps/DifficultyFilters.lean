import Genjishimada.Maps.Difficulties
import Genjishimada.Maps.Paging

/-!
# The difficulty filters of the map search

The ranges of the top difficulties follow each other from 0 to 10.  The SDK and the filter of
one difficulty leave out the upper end of a range, and the filter of a range of difficulties
does not.
-/

namespace Genjishimada.Maps

open Library Repository Sdk

/-- The position of a difficulty among the top ones. -/
def level : DifficultyTop → Nat
  | .easy => 0
  | .medium => 1
  | .hard => 2
  | .veryHard => 3
  | .extreme => 4
  | .hell => 5

/-! ## The ranges -/

section Ranges

variable {raw : Rat} {d lo hi : DifficultyTop}

theorem level_le_hell (d : DifficultyTop) : level d ≤ level .hell := by
  cases d <;> decide

/-- The lower ends ascend. -/
theorem lower_le_lower : level lo ≤ level hi → (difficultyRangesTop lo).1 ≤ (difficultyRangesTop hi).1 := by
  cases lo <;> cases hi <;> norm_num [level, difficultyRangesTop]

theorem upper_le_upper : level lo ≤ level hi → (difficultyRangesTop lo).2 ≤ (difficultyRangesTop hi).2 := by
  cases lo <;> cases hi <;> norm_num [level, difficultyRangesTop]

/-- A range ends where the next begins. -/
theorem upper_le_lower : level lo < level hi → (difficultyRangesTop lo).2 ≤ (difficultyRangesTop hi).1 := by
  cases lo <;> cases hi <;> norm_num [level, difficultyRangesTop]

/-- `raw` lies in the range of `d`, which includes 10 for "Hell". -/
def InTop (d : DifficultyTop) (raw : Rat) : Prop :=
  (difficultyRangesTop d).1 ≤ raw ∧ (raw < (difficultyRangesTop d).2 ∨ d = .hell ∧ raw = 10)

theorem lower_lt_upper (d : DifficultyTop) : (difficultyRangesTop d).1 < (difficultyRangesTop d).2 := by
  cases d <;> norm_num [difficultyRangesTop]

/-- The ranges exclude each other. -/
theorem InTop.level_le (h : InTop d raw) : (difficultyRangesTop lo).1 ≤ raw ↔ level lo ≤ level d := by
  refine ⟨fun hlow ↦ ?_, fun hle ↦ (lower_le_lower hle).trans h.1⟩
  by_contra hlt
  rw [not_le] at hlt
  rcases h.2 with hupper | ⟨rfl, -⟩
  · exact absurd (hupper.trans_le (upper_le_lower hlt)) hlow.not_gt
  · exact absurd (level_le_hell lo) hlt.not_ge

theorem InTop.le_level (h : InTop d raw) :
    raw < (difficultyRangesTop hi).2 ∨ hi = .hell ↔ level d ≤ level hi := by
  constructor
  · rintro (hupper | rfl)
    · by_contra hlt
      rw [not_le] at hlt
      exact absurd (hupper.trans_le (upper_le_lower hlt)) h.1.not_gt
    · exact level_le_hell d
  · intro hle
    rcases h.2 with hupper | ⟨rfl, -⟩
    · exact .inl (hupper.trans_le (upper_le_upper hle))
    · refine .inr ?_
      cases hi <;> first | rfl | exact absurd hle (by decide)

theorem mem_tops (d : DifficultyTop) :
    d ∈ [DifficultyTop.easy, .medium, .hard, .veryHard, .extreme, .hell] := by
  cases d <;> decide

theorem ascending_top : Ascending difficultyRangesTop .hell level where
  injective d d' := by cases d <;> cases d' <;> decide
  upper_le_lower _ _ := upper_le_lower
  rank_le_hell := level_le_hell
  hell_le_ten := by norm_num [difficultyRangesTop]

theorem InTop.unique {d' : DifficultyTop} (h : InTop d raw) (h' : InTop d' raw) : d = d' :=
  ascending_top.unique h h'

/-- The difficulty of a raw one is the one in whose range it lies. -/
theorem convertRaw_eq_some_iff :
    convertRawDifficultyToDifficultyTop raw = some d ↔ InTop d raw :=
  ascending_top.convertRawDifficulty_eq_some_iff mem_tops

/-- The range of a difficulty is part of that of its top one. -/
theorem base_ranges (all : DifficultyAll) :
    (difficultyRangesTop all.base).1 ≤ (difficultyRangesAll all).1 ∧
      (difficultyRangesAll all).2 ≤ (difficultyRangesTop all.base).2 := by
  cases all <;> norm_num [DifficultyAll.base, difficultyRangesAll, difficultyRangesTop]

/-- The trigger and the SDK agree. -/
theorem inTop_base {all : DifficultyAll} (h : difficultyFromRaw raw = some all) :
    InTop all.base raw := by
  obtain ⟨hlow, hupper⟩ := inRange_of_difficultyFromRaw h
  obtain ⟨hfirst, hlast⟩ := base_ranges all
  refine ⟨hfirst.trans hlow, ?_⟩
  rcases hupper with hlt | ⟨rfl, hten⟩
  · exact .inl (hlt.trans_le hlast)
  · exact .inr ⟨rfl, hten⟩

end Ranges

/-! ## The filters -/

/-- What `numeric(4, 2)` and `trg_maps_set_difficulty_from_raw` make of a row. -/
structure DifficultyFromRaw (m : CoreMap) : Prop where
  grid : OnGrid (1 / 100) m.rawDifficulty
  trigger : difficultyFromRaw m.rawDifficulty = some m.difficulty

theorem difficultyFromRaw_setRawDifficulty {raw : Rat} {m : CoreMap}
    (h : difficultyFromRaw (numeric2 raw) ≠ none) : DifficultyFromRaw (setRawDifficulty raw m) := by
  obtain ⟨all, hall⟩ := Option.ne_none_iff_exists'.mp h
  refine ⟨⟨(raw * 100 + 1 / 2).floor, ?_⟩, ?_⟩
  · show numeric2 raw = _
    rw [numeric2, div_eq_mul_one_div]
  · show difficultyFromRaw (numeric2 raw) = some ((difficultyFromRaw (numeric2 raw)).getD _)
    rw [hall, Option.getD_some]

/-- What the driver makes of a `float`: next to a decimal, and whole numbers as they are. -/
structure BindsFloats (backend : Backend) : Prop where
  near : ∀ q, 0 ≤ q → q ≤ 10 → |backend.numeric q - q| < 1 / 100
  whole : ∀ n : Nat, n ≤ 10 → backend.numeric n = n

/-- The search without a filter on the difficulty. -/
def anyDifficulty (f : MapSearchFilters) : MapSearchFilters :=
  { f with difficultyExact := none, difficultyRangeMin := none, difficultyRangeMax := none }

/-- With `difficulty_range_min` and `difficulty_range_max`. -/
def withRange (f : MapSearchFilters) (lo hi : DifficultyTop) : MapSearchFilters :=
  { f with difficultyExact := none, difficultyRangeMin := some lo, difficultyRangeMax := some hi }

/-- With `difficulty_exact`. -/
def withExact (f : MapSearchFilters) (d : DifficultyTop) : MapSearchFilters :=
  { f with difficultyExact := some d, difficultyRangeMin := none, difficultyRangeMax := none }

/-- The range from `lo` to `hi` finds the map if its difficulty lies in it, and the range of one
difficulty finds it as the filter of that one does. -/
def RangeFaithful (backend : Backend) (f : MapSearchFilters) (db : MapsDb)
    (pick : Nat → Option PlaytestMeta) (m : MapRow) (lo hi : DifficultyTop) : Prop :=
  (m ∈ searchRows backend (withRange f lo hi) db pick ↔
      ∃ d, convertRawDifficultyToDifficultyTop m.rawDifficulty = some d ∧
        level lo ≤ level d ∧ level d ≤ level hi) ∧
    (lo = hi → (m ∈ searchRows backend (withRange f lo hi) db pick ↔
      m ∈ searchRows backend (withExact f lo) db pick))

/-- The raw difficulty is not the upper end of the range, unless the bound the driver passes is
below it, nor its lower end if that bound is above it. -/
def OffTheEnds (backend : Backend) (lo hi : DifficultyTop) (raw : Rat) : Prop :=
  ¬ (raw = (difficultyRangesTop lo).1 ∧ raw < backend.numeric (difficultyRangesTop lo).1) ∧
    ¬ (hi ≠ .hell ∧ raw = (difficultyRangesTop hi).2 ∧
      raw ≤ backend.numeric (difficultyRangesTop hi).2)

section Filters

variable {backend : Backend} {f : MapSearchFilters} {db : MapsDb} {pick : Nat → Option PlaytestMeta}
  {m : MapRow} {lo hi d : DifficultyTop}

theorem whereClauses_withRange (pm : Option PlaytestMeta) :
    whereClauses backend (withRange f lo hi) m pm =
      (whereClauses backend (anyDifficulty f) m pm &&
        (decide (backend.numeric (difficultyRangesTop lo).1 ≤ m.rawDifficulty) &&
          decide (m.rawDifficulty ≤ backend.numeric (difficultyRangesTop hi).2))) := by
  simp only [whereClauses, withRange, anyDifficulty, getRawDifficultyBounds, Option.isSome_some,
    Option.isSome_none, Option.getD_some, Option.all_none, Bool.or_self, Bool.and_true, if_true,
    Bool.false_eq_true, if_false, MapSearchFilters.givenCode]
  ac_rfl

theorem whereClauses_withExact (pm : Option PlaytestMeta) :
    whereClauses backend (withExact f d) m pm =
      (whereClauses backend (anyDifficulty f) m pm && exactDifficulty backend m d) := by
  simp only [whereClauses, withExact, anyDifficulty, Option.isSome_none, Option.all_some,
    Option.all_none, Bool.or_self, Bool.and_true, Bool.false_eq_true, if_false,
    MapSearchFilters.givenCode]
  ac_rfl

theorem mem_searchRows_withRange (hm : m ∈ searchRows backend (anyDifficulty f) db pick) :
    m ∈ searchRows backend (withRange f lo hi) db pick ↔
      backend.numeric (difficultyRangesTop lo).1 ≤ m.rawDifficulty ∧
        m.rawDifficulty ≤ backend.numeric (difficultyRangesTop hi).2 := by
  obtain ⟨hrow, hclauses⟩ := List.mem_filter.mp hm
  have hrow' : m ∈ fromRows backend (withRange f lo hi) db := hrow
  rw [searchRows, List.mem_filter, and_iff_right hrow', whereClauses_withRange, hclauses,
    Bool.true_and, Bool.and_eq_true, decide_eq_true_eq, decide_eq_true_eq]

theorem mem_searchRows_withExact (hm : m ∈ searchRows backend (anyDifficulty f) db pick) :
    m ∈ searchRows backend (withExact f d) db pick ↔ exactDifficulty backend m d = true := by
  obtain ⟨hrow, hclauses⟩ := List.mem_filter.mp hm
  have hrow' : m ∈ fromRows backend (withExact f d) db := hrow
  rw [searchRows, List.mem_filter, and_iff_right hrow', whereClauses_withExact, hclauses,
    Bool.true_and]

/-- "Hell" is the text of the difficulties from its range. -/
theorem difficulty_eq_hell_iff (hrow : DifficultyFromRaw m.toCoreMap) :
    m.difficulty = .hell ↔ (difficultyRangesTop .hell).1 ≤ m.rawDifficulty := by
  have hin := inTop_base hrow.trigger
  rw [hin.level_le]
  cases m.difficulty <;> decide

/-- The ends of the ranges are multiples of a hundredth. -/
theorem onGrid_ends (d : DifficultyTop) : OnGrid (1 / 100) (difficultyRangesTop d).1 ∧
    OnGrid (1 / 100) (difficultyRangesTop d).2 := by
  cases d
  · exact ⟨⟨0, by norm_num [difficultyRangesTop]⟩, ⟨235, by norm_num [difficultyRangesTop]⟩⟩
  · exact ⟨⟨235, by norm_num [difficultyRangesTop]⟩, ⟨412, by norm_num [difficultyRangesTop]⟩⟩
  · exact ⟨⟨412, by norm_num [difficultyRangesTop]⟩, ⟨588, by norm_num [difficultyRangesTop]⟩⟩
  · exact ⟨⟨588, by norm_num [difficultyRangesTop]⟩, ⟨765, by norm_num [difficultyRangesTop]⟩⟩
  · exact ⟨⟨765, by norm_num [difficultyRangesTop]⟩, ⟨941, by norm_num [difficultyRangesTop]⟩⟩
  · exact ⟨⟨941, by norm_num [difficultyRangesTop]⟩, ⟨1000, by norm_num [difficultyRangesTop]⟩⟩

theorem ends_bounds (d : DifficultyTop) :
    (0 ≤ (difficultyRangesTop d).1 ∧ (difficultyRangesTop d).1 ≤ 10) ∧
      0 ≤ (difficultyRangesTop d).2 ∧ (difficultyRangesTop d).2 ≤ 10 := by
  cases d <;> norm_num [difficultyRangesTop]

section Bounds

variable (hbinds : BindsFloats backend) (hrow : DifficultyFromRaw m.toCoreMap)

include hbinds hrow

/-- The lower bound of a filter. -/
theorem lower_bound_iff (d : DifficultyTop) :
    backend.numeric (difficultyRangesTop d).1 ≤ m.rawDifficulty ↔
      (difficultyRangesTop d).1 ≤ m.rawDifficulty ∧
        ¬ (m.rawDifficulty = (difficultyRangesTop d).1 ∧
          m.rawDifficulty < backend.numeric (difficultyRangesTop d).1) := by
  obtain ⟨⟨hzero, hten⟩, -⟩ := ends_bounds d
  exact hrow.grid.bound_le_iff (by norm_num) (onGrid_ends d).1 (hbinds.near _ hzero hten)

/-- Its upper bound. -/
theorem upper_bound_iff (d : DifficultyTop) :
    m.rawDifficulty ≤ backend.numeric (difficultyRangesTop d).2 ↔
      m.rawDifficulty < (difficultyRangesTop d).2 ∨ m.rawDifficulty = (difficultyRangesTop d).2 ∧
        m.rawDifficulty ≤ backend.numeric (difficultyRangesTop d).2 := by
  obtain ⟨-, hzero, hten⟩ := ends_bounds d
  exact hrow.grid.le_bound_iff (by norm_num) (onGrid_ends d).2 (hbinds.near _ hzero hten)

/-- No raw difficulty is above the range of "Hell". -/
theorem upper_bound_hell : m.rawDifficulty ≤ backend.numeric (difficultyRangesTop .hell).2 := by
  have hten : backend.numeric (difficultyRangesTop .hell).2 = 10 := hbinds.whole 10 le_rfl
  rw [hten]
  rcases (inTop_base hrow.trigger).2 with hupper | ⟨-, heq⟩
  · exact hupper.le.trans (ends_bounds _).2.2
  · exact heq.le

/-- Off the ends, the bounds compare as the ends of the ranges do. -/
theorem bounds_iff (hoff : OffTheEnds backend lo hi m.rawDifficulty) :
    (backend.numeric (difficultyRangesTop lo).1 ≤ m.rawDifficulty ↔
        (difficultyRangesTop lo).1 ≤ m.rawDifficulty) ∧
      (m.rawDifficulty ≤ backend.numeric (difficultyRangesTop hi).2 ↔
        m.rawDifficulty < (difficultyRangesTop hi).2 ∨ hi = .hell) := by
  obtain ⟨hlow, hupper⟩ := hoff
  refine ⟨?_, ?_⟩
  · rw [lower_bound_iff hbinds hrow, and_iff_left hlow]
  · by_cases hell : hi = .hell
    · subst hell
      exact iff_of_true (upper_bound_hell hbinds hrow) (.inr rfl)
    · rw [upper_bound_iff hbinds hrow, or_iff_left hell, or_iff_left fun h ↦ hupper ⟨hell, h⟩]

/-- Off the ends, the filter of one difficulty is its range. -/
theorem exactDifficulty_iff (hoff : OffTheEnds backend d d m.rawDifficulty) :
    exactDifficulty backend m d = true ↔
      backend.numeric (difficultyRangesTop d).1 ≤ m.rawDifficulty ∧
        m.rawDifficulty ≤ backend.numeric (difficultyRangesTop d).2 := by
  obtain ⟨hlow, hupper⟩ := bounds_iff hbinds hrow hoff
  rw [exactDifficulty]
  split
  · rename_i hell
    subst hell
    rw [decide_eq_true_eq, difficulty_eq_hell_iff hrow, hlow,
      and_iff_left (upper_bound_hell hbinds hrow)]
  · rename_i hell
    rw [Bool.and_eq_true, decide_eq_true_eq, decide_eq_true_eq]
    refine and_congr_right fun _ ↦ ⟨le_of_lt, fun hle ↦ ?_⟩
    obtain ⟨-, hzero, hten⟩ := ends_bounds d
    have hlt := (hupper.mp hle).resolve_right hell
    apply lt_of_not_ge
    intro hge
    -- a bound that is not above the row would put the upper end there too
    have hiff := hrow.grid.bound_le_iff (by norm_num) (onGrid_ends d).2 (hbinds.near _ hzero hten)
    exact hlt.not_ge (hiff.mp hge).1

end Bounds

/-- What the SDK says of a map, by the ends of the ranges. -/
theorem convertRaw_between_iff (hrow : DifficultyFromRaw m.toCoreMap) :
    (∃ d, convertRawDifficultyToDifficultyTop m.rawDifficulty = some d ∧
        level lo ≤ level d ∧ level d ≤ level hi) ↔
      (difficultyRangesTop lo).1 ≤ m.rawDifficulty ∧
        (m.rawDifficulty < (difficultyRangesTop hi).2 ∨ hi = .hell) := by
  have hin := inTop_base hrow.trigger
  rw [hin.level_le, hin.le_level]
  constructor
  · rintro ⟨d, hd, hbetween⟩
    rw [hin.unique (convertRaw_eq_some_iff.mp hd)]
    exact hbetween
  · exact fun hbetween ↦ ⟨_, convertRaw_eq_some_iff.mpr hin, hbetween⟩

/-- Whatever else is searched for: a range of difficulties keeps the maps whose difficulty lies
in it, and the range of one difficulty those that the filter of that difficulty keeps, exactly
when the raw difficulty is not an end of the range where the bounds go wrong. -/
theorem rangeFaithful_iff (hbinds : BindsFloats backend)
    (hm : m ∈ searchRows backend (anyDifficulty f) db pick) (hrow : DifficultyFromRaw m.toCoreMap)
    (hle : level lo ≤ level hi) :
    RangeFaithful backend f db pick m lo hi ↔ OffTheEnds backend lo hi m.rawDifficulty := by
  have hends : (difficultyRangesTop lo).1 < (difficultyRangesTop hi).2 :=
    (lower_lt_upper lo).trans_le (upper_le_upper hle)
  rw [RangeFaithful, mem_searchRows_withRange hm, mem_searchRows_withExact hm,
    convertRaw_between_iff hrow]
  constructor
  · rintro ⟨hiff, -⟩
    refine ⟨?_, ?_⟩
    · rintro ⟨heq, hlt⟩
      refine hlt.not_ge (hiff.mpr ⟨heq.ge, .inl ?_⟩).1
      rw [heq]
      exact hends
    · rintro ⟨hell, heq, hbound⟩
      have hlow : backend.numeric (difficultyRangesTop lo).1 ≤ m.rawDifficulty := by
        rw [lower_bound_iff hbinds hrow, heq]
        exact ⟨hends.le, fun h ↦ hends.ne' h.1⟩
      rcases (hiff.mp ⟨hlow, hbound⟩).2 with hlt | hhell
      · exact hlt.ne heq
      · exact hell hhell
  · intro hoff
    obtain ⟨hlow, hupper⟩ := bounds_iff hbinds hrow hoff
    refine ⟨by rw [hlow, hupper], ?_⟩
    rintro rfl
    rw [exactDifficulty_iff hbinds hrow hoff]

end Filters

/-! ## The lower end of "Medium" -/

/-- The text of a `float` is the decimal it was written as. -/
theorem bindsFloats_plainBackend : BindsFloats plainBackend where
  near q _ _ := by
    show |q - q| < 1 / 100
    rw [sub_self, abs_zero]
    norm_num
  whole _ _ := rfl

/-- A map at the lower end of "Medium". -/
def lowestMedium : MapRow :=
  { id := 1, code := some "AAAA", difficulty := .mediumMinus, rawDifficulty := 235 / 100 }

def lowestMediumDb : MapsDb :=
  { twoMaps with maps := Table.empty.insert fun id ↦ { lowestMedium with id } }

theorem difficultyFromRaw_lowestMedium : DifficultyFromRaw lowestMedium.toCoreMap where
  grid := (onGrid_ends .medium).1
  trigger := by decide +kernel

/-- The range from "Easy" to "Easy" finds it. -/
theorem lowestMedium_not_faithful :
    ¬ RangeFaithful plainBackend {} lowestMediumDb (fun _ ↦ none) lowestMedium .easy .easy := by
  rintro ⟨hiff, -⟩
  obtain ⟨d, hd, -, hle⟩ := hiff.mp (by decide +kernel)
  rw [show convertRawDifficultyToDifficultyTop lowestMedium.rawDifficulty = some .medium by
    decide +kernel, Option.some.injEq] at hd
  rw [← hd] at hle
  exact absurd hle (by decide)

/-- The rule at that map. -/
theorem lowestMedium_faithful_iff :
    RangeFaithful plainBackend {} lowestMediumDb (fun _ ↦ none) lowestMedium .easy .easy ↔
      OffTheEnds plainBackend .easy .easy lowestMedium.rawDifficulty :=
  rangeFaithful_iff bindsFloats_plainBackend (by decide +kernel) difficultyFromRaw_lowestMedium le_rfl

end Genjishimada.Maps
