import Mathlib.Algebra.Order.Ring.Rat
import Mathlib.Data.Rat.Floor
import Mathlib.Tactic.Linarith
import Mathlib.Tactic.Push

/-!
# Rounding half away from zero

`roundAway x` is the integer nearest to `x`, a tie going away from zero, as a decimal column
rounds what it is given.  It is monotone, and two numbers are rounded to different integers
exactly if a tie lies between them on the side where it separates them (`roundAway_lt_iff`).
-/

namespace Genjishimada.Library

variable {x y : Rat} {k : Int}

/-- The nearest integer, a tie going away from zero. -/
def roundAway (x : Rat) : Int := if 0 ≤ x then ⌊x + 1 / 2⌋ else -⌊-x + 1 / 2⌋

/-- `x` is on the lower side of the tie between `k` and `k + 1`. -/
def BelowTie (k : Int) (x : Rat) : Prop := if 0 ≤ k then x < k + 1 / 2 else x ≤ k + 1 / 2

instance (k : Int) (x : Rat) : Decidable (BelowTie k x) :=
  inferInstanceAs (Decidable (if 0 ≤ k then x < k + 1 / 2 else x ≤ k + 1 / 2))

theorem roundAway_le_iff : roundAway x ≤ k ↔ BelowTie k x := by
  unfold roundAway BelowTie
  split
  · rename_i hx
    rw [← Int.lt_add_one_iff, Int.floor_lt]
    push_cast
    split
    · constructor <;> intro h <;> linarith
    · -- no tie below zero is above `x`
      rename_i hk
      have hk : (k : Rat) ≤ -1 := by exact_mod_cast (show k ≤ -1 by omega)
      constructor <;> intro h <;> linarith
  · rename_i hx
    rw [neg_le, Int.le_floor]
    push_cast
    split
    · rename_i hk
      have hk : (0 : Rat) ≤ k := by exact_mod_cast hk
      constructor <;> intro h <;> linarith
    · constructor <;> intro h <;> linarith

/-- Rounding keeps a strict order exactly if a tie separates the numbers. -/
theorem roundAway_lt_iff : roundAway x < roundAway y ↔ ∃ k, BelowTie k x ∧ ¬ BelowTie k y := by
  constructor
  · intro h
    exact ⟨roundAway x, roundAway_le_iff.mp le_rfl, fun hy ↦ h.not_ge (roundAway_le_iff.mpr hy)⟩
  · rintro ⟨k, hx, hy⟩
    exact (roundAway_le_iff.mpr hx).trans_lt (not_le.mp fun h ↦ hy (roundAway_le_iff.mp h))

theorem roundAway_mono (h : x ≤ y) : roundAway x ≤ roundAway y := by
  refine roundAway_le_iff.mpr ?_
  have hy : BelowTie (roundAway y) y := roundAway_le_iff.mp le_rfl
  unfold BelowTie at hy ⊢
  split
  · rw [if_pos ‹_›] at hy
    exact h.trans_lt hy
  · rw [if_neg ‹_›] at hy
    exact h.trans hy

@[simp] theorem roundAway_intCast (k : Int) : roundAway k = k := by
  refine le_antisymm (roundAway_le_iff.mpr ?_) (not_lt.mp fun h ↦ ?_)
  · unfold BelowTie
    split <;> linarith
  · have hle : roundAway k ≤ k - 1 := by omega
    have hbelow := roundAway_le_iff.mp hle
    unfold BelowTie at hbelow
    push_cast at hbelow
    split at hbelow <;> linarith

end Genjishimada.Library
