import Mathlib.Algebra.Order.Ring.Defs
import Mathlib.Algebra.BigOperators.Group.List.Basic
import Mathlib.Data.Multiset.Sort
import Mathlib.Data.List.Sort
import Mathlib.Tactic.Common

/-!
# Sums with diminishing returns

Values sorted from the largest down are weighted by their place, and the weights do not grow.
`aggregate c` is such a sum, of a multiset: the order the values come in, and the order of equal
ones, is no part of it.  One more value moves every smaller one down a place; what they lose is
at most what the new one brings (`aggregate_le_cons`), and the sum grows by at most the weight of
the first place (`aggregate_cons_le`).
-/

namespace Genjishimada.Library

universe u

variable {K : Type u} [Semiring K] [LinearOrder K] {c : Nat → K} {l l' : List K} {s t : K}

/-! ## Weighted lists -/

/-- The values of a list, each times the weight of its place. -/
def weighted (c : Nat → K) : List K → K
  | [] => 0
  | s :: l => s * c 0 + weighted (fun i ↦ c (i + 1)) l

omit [LinearOrder K] in
theorem sum_zipIdx_eq_weighted (c : Nat → K) (l : List K) (n : Nat) :
    ((l.zipIdx n).map fun t ↦ t.1 * c t.2).sum = weighted (fun i ↦ c (n + i)) l := by
  induction l generalizing n with
  | nil => rfl
  | cons s l ih =>
      have hshift : (fun i ↦ c (n + 1 + i)) = fun i ↦ c (n + (i + 1)) := by
        funext i
        rw [Nat.add_assoc, Nat.add_comm 1]
      rw [List.zipIdx_cons, List.map_cons, List.sum_cons, ih, hshift]
      rfl

/-- Weights that are not negative and do not grow. -/
structure Declining (c : Nat → K) : Prop where
  nonneg : ∀ i, 0 ≤ c i
  step_le : ∀ i, c (i + 1) ≤ c i

/-- The weights from the second place on. -/
theorem Declining.tail (h : Declining c) : Declining fun i ↦ c (i + 1) where
  nonneg i := h.nonneg (i + 1)
  step_le i := h.step_le (i + 1)

section Ordered

variable [IsOrderedRing K]

/-- Larger values have a larger sum. -/
theorem weighted_le_weighted (h : ∀ i, 0 ≤ c i) (hl : List.Forall₂ (· ≤ ·) l l') :
    weighted c l ≤ weighted c l' := by
  induction hl generalizing c with
  | nil => exact le_rfl
  | cons hst _ ih =>
      rw [weighted, weighted]
      apply add_le_add
      · exact mul_le_mul_of_nonneg_right hst (h 0)
      · exact ih fun i ↦ h (i + 1)

/-- A place further down every value counts for less. -/
theorem weighted_tail_le (h : Declining c) (hl : ∀ x ∈ l, 0 ≤ x) :
    weighted (fun i ↦ c (i + 1)) l ≤ weighted c l := by
  induction l generalizing c with
  | nil => exact le_rfl
  | cons a l ih =>
      rw [weighted, weighted]
      apply add_le_add
      · exact mul_le_mul_of_nonneg_left (h.step_le 0) (hl a List.mem_cons_self)
      · exact ih h.tail fun x hx ↦ hl x (List.mem_cons_of_mem a hx)

/-- A value at the head that is at least as large as the rest makes up for what the rest loses:
each value is replaced by the one before it. -/
theorem weighted_le_cons (h : Declining c) (hl : (s :: l).Pairwise (· ≥ ·))
    (hnonneg : ∀ x ∈ s :: l, 0 ≤ x) : weighted c l ≤ weighted c (s :: l) := by
  induction l generalizing c s with
  | nil =>
      rw [weighted, weighted, weighted, add_zero]
      exact mul_nonneg (hnonneg s List.mem_cons_self) (h.nonneg 0)
  | cons a l ih =>
      rw [List.pairwise_cons] at hl
      rw [weighted, weighted]
      apply add_le_add
      · exact mul_le_mul_of_nonneg_right (hl.1 a List.mem_cons_self) (h.nonneg 0)
      · exact ih h.tail hl.2 fun x hx ↦ hnonneg x (List.mem_cons_of_mem s hx)

/-! ## One more value -/

theorem weighted_le_orderedInsert (h : Declining c) (hl : l.Pairwise (· ≥ ·))
    (hnonneg : ∀ x ∈ l, 0 ≤ x) (hs : 0 ≤ s) :
    weighted c l ≤ weighted c (l.orderedInsert (· ≥ ·) s) := by
  induction l generalizing c with
  | nil =>
      rw [List.orderedInsert_nil, weighted, weighted, weighted, add_zero]
      exact mul_nonneg hs (h.nonneg 0)
  | cons a l ih =>
      by_cases hsa : s ≥ a
      · rw [List.orderedInsert_cons_of_le _ _ hsa]
        apply weighted_le_cons h
        · apply List.Pairwise.cons _ hl
          intro x hx
          rcases List.mem_cons.mp hx with rfl | hx
          · exact hsa
          · exact ge_trans hsa ((List.pairwise_cons.mp hl).1 x hx)
        · intro x hx
          rcases List.mem_cons.mp hx with rfl | hx
          · exact hs
          · exact hnonneg x hx
      · rw [List.orderedInsert_of_not_le _ _ hsa, weighted, weighted]
        have hrest := ih h.tail (List.pairwise_cons.mp hl).2 fun x hx ↦
          hnonneg x (List.mem_cons_of_mem a hx)
        exact add_le_add_right hrest _

theorem weighted_orderedInsert_le (h : Declining c) (hnonneg : ∀ x ∈ l, 0 ≤ x) (hs : 0 ≤ s) :
    weighted c (l.orderedInsert (· ≥ ·) s) ≤ s * c 0 + weighted c l := by
  induction l generalizing c with
  | nil => exact le_rfl
  | cons a l ih =>
      by_cases hsa : s ≥ a
      · rw [List.orderedInsert_cons_of_le _ _ hsa, weighted]
        exact add_le_add_right (weighted_tail_le h hnonneg) _
      · have hrest := ih h.tail fun x hx ↦ hnonneg x (List.mem_cons_of_mem a hx)
        rw [List.orderedInsert_of_not_le _ _ hsa, weighted, weighted]
        calc a * c 0 + weighted (fun i ↦ c (i + 1)) (l.orderedInsert (· ≥ ·) s)
            ≤ a * c 0 + (s * c 1 + weighted (fun i ↦ c (i + 1)) l) := add_le_add_right hrest _
          _ ≤ a * c 0 + (s * c 0 + weighted (fun i ↦ c (i + 1)) l) :=
              add_le_add_right (add_le_add_left (mul_le_mul_of_nonneg_left (h.step_le 0) hs) _) _
          _ = s * c 0 + (a * c 0 + weighted (fun i ↦ c (i + 1)) l) := add_left_comm _ _ _

omit [Semiring K] [IsOrderedRing K] in
/-- The values below the inserted one move down a place, where a larger value stood. -/
theorem forall₂_orderedInsert_cons {a : K} (hsa : s ≤ a) (hl : (a :: l).Pairwise (· ≥ ·)) :
    List.Forall₂ (· ≤ ·) (l.orderedInsert (· ≥ ·) s) (a :: l) := by
  induction l generalizing a with
  | nil => exact .cons hsa .nil
  | cons b l ih =>
      rw [List.pairwise_cons] at hl
      by_cases hsb : s ≥ b
      · rw [List.orderedInsert_cons_of_le _ _ hsb]
        exact .cons hsa (List.forall₂_refl _)
      · rw [List.orderedInsert_of_not_le _ _ hsb]
        exact .cons (hl.1 b List.mem_cons_self) (ih (not_le.mp hsb).le hl.2)

omit [Semiring K] [IsOrderedRing K] in
/-- A larger value inserted into a sorted list leaves no place with less. -/
theorem forall₂_orderedInsert (hst : s ≤ t) (hl : l.Pairwise (· ≥ ·)) :
    List.Forall₂ (· ≤ ·) (l.orderedInsert (· ≥ ·) s) (l.orderedInsert (· ≥ ·) t) := by
  induction l with
  | nil => exact .cons hst .nil
  | cons a l ih =>
      by_cases hsa : s ≥ a
      · have hta : t ≥ a := ge_trans hst hsa
        rw [List.orderedInsert_cons_of_le _ _ hsa, List.orderedInsert_cons_of_le _ _ hta]
        exact .cons hst (List.forall₂_refl _)
      · rw [List.orderedInsert_of_not_le _ _ hsa]
        by_cases hta : t ≥ a
        · rw [List.orderedInsert_cons_of_le _ _ hta]
          exact .cons hta (forall₂_orderedInsert_cons (not_le.mp hsa).le hl)
        · rw [List.orderedInsert_of_not_le _ _ hta]
          exact .cons le_rfl (ih (List.pairwise_cons.mp hl).2)

end Ordered

/-! ## The sum of a multiset -/

/-- The values from the largest down, each times the weight of its place. -/
def aggregate (c : Nat → K) (m : Multiset K) : K := weighted c (m.sort (· ≥ ·))

variable {m : Multiset K}

/-- Any way to sort the values gives the sum. -/
theorem weighted_eq_aggregate (hl : l.Pairwise (· ≥ ·)) : weighted c l = aggregate c l := by
  have hperm : l.Perm ((l : Multiset K).sort (· ≥ ·)) :=
    Multiset.coe_eq_coe.mp (Multiset.sort_eq (l : Multiset K) (· ≥ ·)).symm
  rw [aggregate, ← hperm.eq_of_pairwise' hl (Multiset.pairwise_sort _ _)]

omit [Semiring K] in
/-- One more value goes to its place. -/
theorem sort_cons_eq_orderedInsert (s : K) (m : Multiset K) :
    (s ::ₘ m).sort (· ≥ ·) = (m.sort (· ≥ ·)).orderedInsert (· ≥ ·) s := by
  have hperm : ((s ::ₘ m).sort (· ≥ ·)).Perm ((m.sort (· ≥ ·)).orderedInsert (· ≥ ·) s) := by
    apply Multiset.coe_eq_coe.mp
    rw [Multiset.sort_eq, Multiset.coe_eq_coe.mpr (List.perm_orderedInsert _ _ _),
      ← Multiset.cons_coe, Multiset.sort_eq]
  exact hperm.eq_of_pairwise' (Multiset.pairwise_sort _ _)
    (List.Pairwise.orderedInsert _ _ (Multiset.pairwise_sort _ _))

section Aggregate

variable [IsOrderedRing K]

/-- One more value never lowers the sum. -/
theorem aggregate_le_cons (h : Declining c) (hm : ∀ x ∈ m, 0 ≤ x) (hs : 0 ≤ s) :
    aggregate c m ≤ aggregate c (s ::ₘ m) := by
  rw [aggregate, aggregate, sort_cons_eq_orderedInsert]
  apply weighted_le_orderedInsert h (Multiset.pairwise_sort _ _) _ hs
  exact fun x hx ↦ hm x ((Multiset.mem_sort (· ≥ ·)).mp hx)

/-- It adds at most what it is worth in the first place. -/
theorem aggregate_cons_le (h : Declining c) (hm : ∀ x ∈ m, 0 ≤ x) (hs : 0 ≤ s) :
    aggregate c (s ::ₘ m) ≤ s * c 0 + aggregate c m := by
  rw [aggregate, aggregate, sort_cons_eq_orderedInsert]
  apply weighted_orderedInsert_le h _ hs
  exact fun x hx ↦ hm x ((Multiset.mem_sort (· ≥ ·)).mp hx)

/-- A larger value in the place of another never lowers the sum. -/
theorem aggregate_cons_le_cons (h : ∀ i, 0 ≤ c i) (hst : s ≤ t) :
    aggregate c (s ::ₘ m) ≤ aggregate c (t ::ₘ m) := by
  rw [aggregate, aggregate, sort_cons_eq_orderedInsert, sort_cons_eq_orderedInsert]
  exact weighted_le_weighted h (forall₂_orderedInsert hst (Multiset.pairwise_sort _ _))

end Aggregate

end Genjishimada.Library
