import Mathlib.Algebra.Order.Group.Unbundled.Abs
import Mathlib.Algebra.Order.Ring.Cast
import Mathlib.Tactic.Linarith
import Mathlib.Tactic.Ring

/-!
# Bounds next to a grid

The multiples of a step, compared with a bound that is less than a step off a multiple `q`, as
the binary fraction next to a decimal one.  The comparison is the one with `q`, but at `q`.  And
the multiple that a number has reached, as a rounded one has.
-/

namespace Genjishimada.Library

universe u

variable {R : Type u} [CommRing R] [LinearOrder R] {s x y q b : R}

/-- `x` is a multiple of the step `s`. -/
def OnGrid (s x : R) : Prop := ∃ k : ℤ, x = k * s

namespace OnGrid

variable [IsStrictOrderedRing R]

/-- Different multiples are a step apart. -/
theorem add_le_of_lt (hs : 0 < s) (hx : OnGrid s x) (hy : OnGrid s y) (h : x < y) : x + s ≤ y := by
  obtain ⟨k, rfl⟩ := hx
  obtain ⟨l, rfl⟩ := hy
  have hkl : k + 1 ≤ l := by
    have hcast : (k : R) < l := lt_of_mul_lt_mul_right h hs.le
    exact_mod_cast hcast
  calc (k : R) * s + s = ((k + 1 : ℤ) : R) * s := by push_cast; ring
    _ ≤ l * s := mul_le_mul_of_nonneg_right (by exact_mod_cast hkl) hs.le

/-- A multiple is above the bound if it is above `q`, or is `q` and the bound is not above it. -/
theorem bound_le_iff (hs : 0 < s) (hx : OnGrid s x) (hq : OnGrid s q) (hb : |b - q| < s) :
    b ≤ x ↔ q ≤ x ∧ ¬ (x = q ∧ x < b) := by
  obtain ⟨hlow, hhigh⟩ := abs_lt.mp hb
  rcases lt_trichotomy x q with h | h | h
  · have hstep := hx.add_le_of_lt hs hq h
    constructor
    · intro hbx
      linarith
    · rintro ⟨hqx, -⟩
      linarith
  · constructor
    · intro hbx
      exact ⟨h.ge, fun hlt ↦ hbx.not_gt hlt.2⟩
    · rintro ⟨-, hnot⟩
      exact not_lt.mp fun hlt ↦ hnot ⟨h, hlt⟩
  · have hstep := hq.add_le_of_lt hs hx h
    constructor
    · intro _
      exact ⟨h.le, fun heq ↦ h.ne' heq.1⟩
    · intro _
      linarith

/-- A multiple is below the bound if it is below `q`, or is `q` and the bound is not below it. -/
theorem le_bound_iff (hs : 0 < s) (hx : OnGrid s x) (hq : OnGrid s q) (hb : |b - q| < s) :
    x ≤ b ↔ x < q ∨ x = q ∧ x ≤ b := by
  obtain ⟨hlow, hhigh⟩ := abs_lt.mp hb
  rcases lt_trichotomy x q with h | h | h
  · have hstep := hx.add_le_of_lt hs hq h
    constructor
    · exact fun _ ↦ .inl h
    · intro _
      linarith
  · constructor
    · exact fun hxb ↦ .inr ⟨h, hxb⟩
    · rintro (hlt | ⟨-, hxb⟩)
      · exact absurd h hlt.ne
      · exact hxb
  · have hstep := hq.add_le_of_lt hs hx h
    constructor
    · intro hxb
      linarith
    · rintro (hlt | ⟨heq, -⟩)
      · exact absurd hlt h.not_gt
      · exact absurd heq h.ne'

end OnGrid

/-- `y` is the last multiple that `z` has reached. -/
structure GridFloor (s z y : R) : Prop where
  grid : OnGrid s y
  le : y ≤ z
  lt : z < y + s

namespace GridFloor

variable [IsStrictOrderedRing R] {z : R}

/-- It has passed what `z` has. -/
theorem le_iff (hs : 0 < s) (h : GridFloor s z y) (hq : OnGrid s q) : q ≤ y ↔ q ≤ z := by
  constructor
  · exact fun hle ↦ hle.trans h.le
  · intro hle
    apply le_of_not_gt
    intro hlt
    exact ((h.grid.add_le_of_lt hs hq hlt).trans hle).not_gt h.lt

theorem lt_iff (hs : 0 < s) (h : GridFloor s z y) (hq : OnGrid s q) : y < q ↔ z < q := by
  rw [← not_le, ← not_le, h.le_iff hs hq]

theorem eq_iff (hs : 0 < s) (h : GridFloor s z y) (hq : OnGrid s q) :
    y = q ↔ q ≤ z ∧ z < q + s := by
  constructor
  · rintro rfl
    exact ⟨h.le, h.lt⟩
  · rintro ⟨hle, hlt⟩
    apply le_antisymm
    · apply le_of_not_gt
      intro hgt
      exact ((hq.add_le_of_lt hs h.grid hgt).trans h.le).not_gt hlt
    · exact (h.le_iff hs hq).mpr hle

end GridFloor

end Genjishimada.Library
