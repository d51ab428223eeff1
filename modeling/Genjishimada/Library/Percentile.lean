import Genjishimada.Library.Ranking
import Mathlib.Algebra.Order.Floor.Ring
import Mathlib.Algebra.Order.Ring.Rat
import Mathlib.Data.Rat.Floor
import Mathlib.Tactic.Linarith

/-!
# `percentile_cont`

The value at a fraction of the sorted values, interpolated between its two neighbours.  Between
the members of an ascending sequence the interpolation ascends, and so a larger fraction has no
smaller value.
-/

namespace Genjishimada.Library

/-- `percentile_cont(p) WITHIN GROUP (ORDER BY …)`, for a fraction between zero and one; `none` is the
`NULL` of no values. -/
def percentileCont (p : Rat) (values : List Rat) : Option Rat :=
  let sorted := orderBy id values
  let position := p * (sorted.length - 1 : Nat)
  match sorted[⌊position⌋.toNat]?, sorted[⌈position⌉.toNat]? with
  | some first, some second => some (first + (position - ⌊position⌋) * (second - first))
  | _, _ => none

/-! ## Interpolation -/

/-- The sequence `a` at a rational place. -/
def interpolate (a : Nat → Rat) (x : Rat) : Rat :=
  a ⌊x⌋.toNat + (x - ⌊x⌋) * (a ⌈x⌉.toNat - a ⌊x⌋.toNat)

section Interpolate

variable {a : Nat → Rat} {x y : Rat}

/-- An interpolated value lies between its neighbours. -/
theorem interpolate_bounds (ha : Monotone a) (x : Rat) :
    a ⌊x⌋.toNat ≤ interpolate a x ∧ interpolate a x ≤ a ⌈x⌉.toNat := by
  have hstep : 0 ≤ a ⌈x⌉.toNat - a ⌊x⌋.toNat :=
    sub_nonneg.mpr (ha (Int.toNat_le_toNat (Int.floor_le_ceil x)))
  have hlow : 0 ≤ x - ⌊x⌋ := sub_nonneg.mpr (Int.floor_le x)
  have hhigh : x - ⌊x⌋ ≤ 1 := by
    have hlt := Int.lt_floor_add_one x
    linarith
  rw [interpolate]
  refine ⟨le_add_of_nonneg_right (mul_nonneg hlow hstep), ?_⟩
  have hle := mul_le_mul_of_nonneg_right hhigh hstep
  linarith

theorem interpolate_mono (ha : Monotone a) (hxy : x ≤ y) : interpolate a x ≤ interpolate a y := by
  rcases (Int.floor_mono hxy).lt_or_eq with hlt | heq
  · -- a member of the sequence lies between them
    have hbetween : ⌈x⌉ ≤ ⌊y⌋ := (Int.ceil_le_floor_add_one x).trans hlt
    calc interpolate a x ≤ a ⌈x⌉.toNat := (interpolate_bounds ha x).2
      _ ≤ a ⌊y⌋.toNat := ha (Int.toNat_le_toNat hbetween)
      _ ≤ interpolate a y := (interpolate_bounds ha y).1
  · rcases (Int.ceil_mono hxy).lt_or_eq with hlt' | heq'
    · -- `x` is a member itself
      have hx : ⌈x⌉ = ⌊x⌋ := by
        have hy := Int.ceil_le_floor_add_one y
        have hxle := Int.floor_le_ceil x
        omega
      calc interpolate a x ≤ a ⌈x⌉.toNat := (interpolate_bounds ha x).2
        _ = a ⌊y⌋.toNat := by rw [hx, heq]
        _ ≤ interpolate a y := (interpolate_bounds ha y).1
    · have hstep : 0 ≤ a ⌈y⌉.toNat - a ⌊y⌋.toNat :=
        sub_nonneg.mpr (ha (Int.toNat_le_toNat (Int.floor_le_ceil y)))
      rw [interpolate, interpolate, heq, heq']
      have hle := mul_le_mul_of_nonneg_right (sub_le_sub_right hxy (⌊y⌋ : Rat)) hstep
      linarith

end Interpolate

/-! ## The value at a fraction -/

section Percentile

variable {p q v w : Rat} {values : List Rat}

/-- The sorted values, the last of them repeated. -/
def sortedValue (values : List Rat) (i : Nat) : Rat :=
  ((orderBy id values)[min i (values.length - 1)]?).getD 0

theorem getElem?_orderBy {k : Nat} (hk : k < values.length) :
    (orderBy id values)[k]? = some (sortedValue values k) := by
  have hlt : k < (orderBy id values).length := by rwa [length_orderBy]
  rw [sortedValue, min_eq_left (Nat.le_sub_one_of_lt hk), List.getElem?_eq_getElem hlt,
    Option.getD_some]

theorem sortedValue_mono (values : List Rat) : Monotone (sortedValue values) := by
  intro i j hij
  by_cases hne : values = []
  · rw [hne]
    exact le_rfl
  · have hpos := List.length_pos_iff.mpr hne
    have hmin : min i (values.length - 1) ≤ min j (values.length - 1) := min_le_min_right _ hij
    have hlength : (orderBy id values).length = values.length := length_orderBy
    have hj : min j (values.length - 1) < (orderBy id values).length := by omega
    rw [sortedValue, sortedValue, List.getElem?_eq_getElem hj,
      List.getElem?_eq_getElem (hmin.trans_lt hj), Option.getD_some, Option.getD_some]
    rcases hmin.eq_or_lt with heq | hlt
    · simp only [heq, le_refl]
    · exact List.pairwise_iff_getElem.mp (pairwise_orderBy id values) _ _ _ _ hlt

/-- A fraction of some values has a value. -/
theorem percentileCont_eq (hne : values ≠ []) (hp : 0 ≤ p ∧ p ≤ 1) :
    percentileCont p values =
      some (interpolate (sortedValue values) (p * (values.length - 1 : Nat))) := by
  have hpos := List.length_pos_iff.mpr hne
  have hlast : (0 : Rat) ≤ (values.length - 1 : Nat) := Nat.cast_nonneg _
  have hle : p * (values.length - 1 : Nat) ≤ (values.length - 1 : Nat) :=
    mul_le_of_le_one_left hlast hp.2
  have hceil : ⌈p * (values.length - 1 : Nat)⌉ ≤ ((values.length - 1 : Nat) : ℤ) := by
    rw [Int.ceil_le]
    exact_mod_cast hle
  have hfloor := Int.floor_le_ceil (p * (values.length - 1 : Nat))
  rw [percentileCont]
  simp only [length_orderBy]
  rw [getElem?_orderBy (k := ⌊p * (values.length - 1 : Nat)⌋.toNat) (by omega),
    getElem?_orderBy (k := ⌈p * (values.length - 1 : Nat)⌉.toNat) (by omega)]
  rfl

theorem percentileCont_mono (hne : values ≠ []) (hp : 0 ≤ p) (hpq : p ≤ q) (hq : q ≤ 1)
    (hv : percentileCont p values = some v) (hw : percentileCont q values = some w) : v ≤ w := by
  rw [percentileCont_eq hne ⟨hp, hpq.trans hq⟩, Option.some.injEq] at hv
  rw [percentileCont_eq hne ⟨hp.trans hpq, hq⟩, Option.some.injEq] at hw
  rw [← hv, ← hw]
  exact interpolate_mono (sortedValue_mono values) (mul_le_mul_of_nonneg_right hpq (Nat.cast_nonneg _))

end Percentile

end Genjishimada.Library
