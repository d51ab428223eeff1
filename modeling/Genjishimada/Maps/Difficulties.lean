import Genjishimada.Library.Grid
import Genjishimada.Repository.MapSearch
import Genjishimada.Repository.Maps
import Mathlib.Algebra.Order.Floor.Ring
import Mathlib.Data.Rat.Floor

/-!
# The ranges of the difficulties

The SDK and the trigger on `core.maps` read the same difficulty off the same number.  They differ
only in the number they are given: `raw_difficulty` has two decimals.
-/

namespace Genjishimada.Maps

open Library Repository Sdk

/-! ## Ranges that follow each other -/

section Ranges

variable {D : Type} {ranges : D → Rat × Rat} {hell d d' : D} {rank : D → Nat} {raw : Rat}

/-- `raw` lies in the range of `d`, which includes 10 for "Hell". -/
def InRange (ranges : D → Rat × Rat) (hell d : D) (raw : Rat) : Prop :=
  (ranges d).1 ≤ raw ∧ (raw < (ranges d).2 ∨ d = hell ∧ raw = 10)

/-- The ranges ascend in the order of `rank`, with "Hell" last. -/
structure Ascending (ranges : D → Rat × Rat) (hell : D) (rank : D → Nat) : Prop where
  injective : ∀ d d', rank d = rank d' → d = d'
  upper_le_lower : ∀ d d', rank d < rank d' → (ranges d).2 ≤ (ranges d').1
  rank_le_hell : ∀ d, rank d ≤ rank hell
  hell_le_ten : (ranges hell).1 ≤ 10

/-- The range of a lower difficulty ends first. -/
theorem Ascending.rank_not_lt (h : Ascending ranges hell rank) (hd : InRange ranges hell d raw)
    (hd' : InRange ranges hell d' raw) : ¬ rank d < rank d' := by
  intro hlt
  rcases hd.2 with hupper | ⟨rfl, -⟩
  · exact absurd (hupper.trans_le (h.upper_le_lower d d' hlt)) hd'.1.not_gt
  · exact absurd (h.rank_le_hell d') hlt.not_ge

/-- The ranges exclude each other. -/
theorem Ascending.unique (h : Ascending ranges hell rank) (hd : InRange ranges hell d raw)
    (hd' : InRange ranges hell d' raw) : d = d' :=
  h.injective d d'
    (le_antisymm (not_lt.mp (h.rank_not_lt hd' hd)) (not_lt.mp (h.rank_not_lt hd hd')))

/-- What the loop over the ranges finds. -/
theorem inRange_of_find? {keys : List D} {entry : D × Rat × Rat}
    (h : (keys.map fun d ↦ (d, ranges d)).find?
      (fun entry ↦ entry.2.1 ≤ raw && raw < entry.2.2) = some entry) :
    InRange ranges hell entry.1 raw := by
  have hmem := List.mem_of_find?_eq_some h
  have hin := List.find?_some h
  obtain ⟨d, -, rfl⟩ := List.mem_map.mp hmem
  rw [Bool.and_eq_true, decide_eq_true_eq, decide_eq_true_eq] at hin
  exact ⟨hin.1, .inl hin.2⟩

/-- The difficulty of a raw one is the one in whose range it lies. -/
theorem Ascending.convertRawDifficulty_eq_some_iff (hasc : Ascending ranges hell rank)
    {keys : List D} (hkeys : ∀ d, d ∈ keys) :
    convertRawDifficulty hell (keys.map fun d ↦ (d, ranges d)) raw = some d ↔
      InRange ranges hell d raw := by
  rw [convertRawDifficulty]
  constructor
  · intro h
    split at h
    · rename_i entry hfind
      cases h
      exact inRange_of_find? hfind
    · split at h
      · rename_i hten
        cases h
        rw [hten]
        exact ⟨hasc.hell_le_ten, .inr ⟨rfl, rfl⟩⟩
      · cases h
  · intro h
    split
    · rename_i entry hfind
      rw [hasc.unique (inRange_of_find? hfind) h]
    · rename_i hnone
      rw [List.find?_eq_none] at hnone
      rcases h.2 with hupper | ⟨rfl, hten⟩
      · exfalso
        apply hnone (d, ranges d) (List.mem_map_of_mem (hkeys d))
        rw [Bool.and_eq_true, decide_eq_true_eq, decide_eq_true_eq]
        exact ⟨h.1, hupper⟩
      · rw [if_pos hten]

end Ranges

/-! ## The sixteen difficulties -/

section All

variable {raw : Rat} {all : DifficultyAll}

theorem mem_difficultiesAll (d : DifficultyAll) : d ∈ difficultiesAll := by
  cases d <;> decide

theorem lower_le_upper (d : DifficultyAll) :
    (difficultyRangesAll d).1 ≤ (difficultyRangesAll d).2 := by
  cases d <;> norm_num [difficultyRangesAll]

/-- A range ends where the next begins. -/
theorem isChain_difficultiesAll :
    difficultiesAll.IsChain fun d d' ↦ (difficultyRangesAll d).2 ≤ (difficultyRangesAll d').1 := by
  simp only [difficultiesAll, List.isChain_cons_cons, List.IsChain.singleton, difficultyRangesAll,
    le_refl, and_self]

theorem ascending_all :
    Ascending difficultyRangesAll .hell fun d ↦ difficultiesAll.idxOf d where
  injective d d' h := (List.idxOf_inj (mem_difficultiesAll d)).mp h
  upper_le_lower d d' h := by
    have htrans : Trans (fun d d' ↦ (difficultyRangesAll d).2 ≤ (difficultyRangesAll d').1)
        (fun d d' ↦ (difficultyRangesAll d).2 ≤ (difficultyRangesAll d').1)
        fun d d' ↦ (difficultyRangesAll d).2 ≤ (difficultyRangesAll d').1 :=
      ⟨fun hab hbc ↦ hab.trans ((lower_le_upper _).trans hbc)⟩
    have hpair := List.pairwise_iff_getElem.mp isChain_difficultiesAll.pairwise
      (difficultiesAll.idxOf d) (difficultiesAll.idxOf d')
      (List.idxOf_lt_length_of_mem (mem_difficultiesAll d))
      (List.idxOf_lt_length_of_mem (mem_difficultiesAll d')) h
    rw [List.getElem_idxOf, List.getElem_idxOf] at hpair
    exact hpair
  rank_le_hell d := by cases d <;> decide
  hell_le_ten := by norm_num [difficultyRangesAll]

/-- One branch of the `CASE`. -/
theorem of_ite_lt {c : Rat} {found rest : Option DifficultyAll}
    (h : (if raw < c then found else rest) = some all) :
    raw < c ∧ found = some all ∨ c ≤ raw ∧ rest = some all := by
  by_cases hlt : raw < c
  · rw [if_pos hlt] at h
    exact .inl ⟨hlt, h⟩
  · rw [if_neg hlt] at h
    exact .inr ⟨not_lt.mp hlt, h⟩

/-- What the trigger sets. -/
theorem inRange_of_difficultyFromRaw (h : difficultyFromRaw raw = some all) :
    InRange difficultyRangesAll .hell all raw := by
  unfold difficultyFromRaw at h
  rcases of_ite_lt h with ⟨-, hnone⟩ | ⟨hlow, h⟩
  · cases hnone
  -- the branches from "Easy -" to "Extreme +"
  iterate 15
    rcases of_ite_lt h with ⟨hupper, hfound⟩ | ⟨hnext, h⟩
    · cases hfound
      exact ⟨hlow, .inl hupper⟩
    have hlow := hnext
  split at h
  · rename_i hten
    cases h
    refine ⟨hlow, ?_⟩
    rcases hten.lt_or_eq with hlt | heq
    · exact .inl hlt
    · exact .inr ⟨rfl, heq⟩
  · cases h

theorem exists_ite_lt {c : Rat} {found : DifficultyAll} {rest : Option DifficultyAll}
    (h : ∃ all, rest = some all) : ∃ all, (if raw < c then some found else rest) = some all := by
  split
  · exact ⟨found, rfl⟩
  · exact h

/-- The trigger raises outside of 0 to 10 only. -/
theorem exists_difficultyFromRaw (hzero : 0 ≤ raw) (hten : raw ≤ 10) :
    ∃ all, difficultyFromRaw raw = some all := by
  unfold difficultyFromRaw
  rw [if_neg hzero.not_gt]
  iterate 15
    apply exists_ite_lt
  exact ⟨.hell, if_pos hten⟩

theorem ranges_bounds (d : DifficultyAll) :
    0 ≤ (difficultyRangesAll d).1 ∧ (difficultyRangesAll d).2 ≤ 10 := by
  cases d <;> norm_num [difficultyRangesAll]

theorem difficultyFromRaw_eq_some_iff :
    difficultyFromRaw raw = some all ↔ InRange difficultyRangesAll .hell all raw := by
  constructor
  · exact inRange_of_difficultyFromRaw
  · intro h
    obtain ⟨hzero, hten⟩ := ranges_bounds all
    have hle : raw ≤ 10 := by
      rcases h.2 with hupper | ⟨-, heq⟩
      · exact hupper.le.trans hten
      · exact heq.le
    obtain ⟨found, hfound⟩ := exists_difficultyFromRaw (hzero.trans h.1) hle
    rw [hfound, ascending_all.unique (inRange_of_difficultyFromRaw hfound) h]

/-- The SDK and the trigger agree on a number. -/
theorem convertRawDifficultyToDifficultyAll_eq (raw : Rat) :
    convertRawDifficultyToDifficultyAll raw = difficultyFromRaw raw := by
  ext all
  rw [difficultyFromRaw_eq_some_iff]
  exact ascending_all.convertRawDifficulty_eq_some_iff mem_difficultiesAll

end All

/-! ## Two decimals -/

section Decimals

variable {raw q : Rat}

/-- `numeric(4, 2)` rounds half a hundredth up. -/
theorem gridFloor_numeric2 (raw : Rat) :
    GridFloor (1 / 100) (raw + 1 / 200) (numeric2 raw) := by
  have hlow := Int.floor_le (raw * 100 + 1 / 2)
  have hhigh := Int.lt_floor_add_one (raw * 100 + 1 / 2)
  have heq : numeric2 raw = (⌊raw * 100 + 1 / 2⌋ : Int) * (1 / 100) := div_eq_mul_one_div _ _
  rw [heq]
  refine ⟨⟨_, rfl⟩, ?_, ?_⟩
  · linarith
  · linarith

theorem numeric2_eq_iff (hq : OnGrid (1 / 100) q) :
    numeric2 raw = q ↔ q ≤ raw + 1 / 200 ∧ raw + 1 / 200 < q + 1 / 100 :=
  (gridFloor_numeric2 raw).eq_iff (by norm_num) hq

/-- Between 0 and 10 it stays there. -/
theorem numeric2_bounds (hzero : 0 ≤ raw) (hten : raw ≤ 10) :
    0 ≤ numeric2 raw ∧ numeric2 raw ≤ 10 := by
  have hround := gridFloor_numeric2 raw
  constructor
  · rw [hround.le_iff (by norm_num) ⟨0, by norm_num⟩]
    linarith
  · have hlt : numeric2 raw < 1001 / 100 := by
      rw [hround.lt_iff (by norm_num) ⟨1001, by norm_num⟩]
      linarith
    by_contra hgt
    rw [not_le] at hgt
    have hstep := OnGrid.add_le_of_lt (s := 1 / 100) (by norm_num) ⟨1000, by norm_num⟩ hround.grid hgt
    linarith

theorem onGrid_midpoint (label : DifficultyAll) : OnGrid (1 / 100) (difficultyMidpoint label) := by
  cases label
  case easyMinus => exact ⟨89, by norm_num [difficultyMidpoint]⟩
  case easy => exact ⟨147, by norm_num [difficultyMidpoint]⟩
  case easyPlus => exact ⟨206, by norm_num [difficultyMidpoint]⟩
  case mediumMinus => exact ⟨265, by norm_num [difficultyMidpoint]⟩
  case medium => exact ⟨323, by norm_num [difficultyMidpoint]⟩
  case mediumPlus => exact ⟨383, by norm_num [difficultyMidpoint]⟩
  case hardMinus => exact ⟨442, by norm_num [difficultyMidpoint]⟩
  case hard => exact ⟨500, by norm_num [difficultyMidpoint]⟩
  case hardPlus => exact ⟨558, by norm_num [difficultyMidpoint]⟩
  case veryHardMinus => exact ⟨617, by norm_num [difficultyMidpoint]⟩
  case veryHard => exact ⟨676, by norm_num [difficultyMidpoint]⟩
  case veryHardPlus => exact ⟨736, by norm_num [difficultyMidpoint]⟩
  case extremeMinus => exact ⟨795, by norm_num [difficultyMidpoint]⟩
  case extreme => exact ⟨853, by norm_num [difficultyMidpoint]⟩
  case extremePlus => exact ⟨912, by norm_num [difficultyMidpoint]⟩
  case hell => exact ⟨971, by norm_num [difficultyMidpoint]⟩

/-- A midpoint is stored as it is. -/
theorem numeric2_midpoint (label : DifficultyAll) :
    numeric2 (difficultyMidpoint label) = difficultyMidpoint label := by
  rw [numeric2_eq_iff (onGrid_midpoint label)]
  constructor <;> linarith

end Decimals

end Genjishimada.Maps
