import Mathlib.Data.List.Sort
import Mathlib.Order.Defs.LinearOrder

/-!
# `width_bucket`

The bucket of a value among sorted thresholds, by binary search.  On sorted thresholds it is the
number of those that are not above the value, ties included.
-/

namespace Genjishimada.Library

universe u

variable {α : Type u} [LinearOrder α] {x y : α} {bs : List α}

/-- The loop over `[left, right)`. -/
def bucketSearch (x : α) (bs : List α) (left right : Nat) : Nat :=
  if left < right then
    if bs[(left + right) / 2]?.any fun b ↦ x < b then bucketSearch x bs left ((left + right) / 2)
    else bucketSearch x bs ((left + right) / 2 + 1) right
  else left
termination_by right - left

/-- `width_bucket(operand, thresholds)` -/
def widthBucket (x : α) (bs : List α) : Nat := bucketSearch x bs 0 bs.length

/-- In a sorted list, what is not above `x` comes first. -/
theorem getElem_le_iff (hs : bs.Pairwise (· ≤ ·)) {i : Nat} (hi : i < bs.length) :
    bs[i] ≤ x ↔ i < bs.countP (· ≤ x) := by
  induction bs generalizing i with
  | nil => cases hi
  | cons b t ih =>
      obtain ⟨hb, ht⟩ := List.pairwise_cons.mp hs
      by_cases hbx : b ≤ x
      · rw [List.countP_cons_of_pos (by simpa using hbx)]
        cases i with
        | zero => exact iff_of_true hbx (Nat.succ_pos _)
        | succ i =>
            rw [List.getElem_cons_succ, ih ht, Nat.succ_lt_succ_iff]
      · have hall : ∀ c ∈ b :: t, ¬ c ≤ x := by
          intro c hc hcx
          rcases List.mem_cons.mp hc with rfl | hc
          · exact hbx hcx
          · exact hbx ((hb c hc).trans hcx)
        have hzero : (b :: t).countP (· ≤ x) = 0 := by
          rw [List.countP_eq_zero]
          simpa using hall
        rw [hzero]
        exact iff_of_false (hall _ (List.getElem_mem hi)) (Nat.not_lt_zero i)

/-- The search keeps the bucket between its ends. -/
theorem bucketSearch_eq (hs : bs.Pairwise (· ≤ ·)) {left right : Nat}
    (hleft : left ≤ bs.countP (· ≤ x)) (hright : bs.countP (· ≤ x) ≤ right)
    (hlength : right ≤ bs.length) : bucketSearch x bs left right = bs.countP (· ≤ x) := by
  fun_induction bucketSearch x bs left right with
  | case1 left right hlt habove ih =>
      have hmid : (left + right) / 2 < bs.length := by omega
      rw [List.getElem?_eq_getElem hmid, Option.any_some, decide_eq_true_eq, ← not_le,
        getElem_le_iff hs hmid, not_lt] at habove
      exact ih hleft habove hmid.le
  | case2 left right hlt hbelow ih =>
      have hmid : (left + right) / 2 < bs.length := by omega
      rw [List.getElem?_eq_getElem hmid, Option.any_some, decide_eq_true_eq, not_lt,
        getElem_le_iff hs hmid] at hbelow
      exact ih hbelow hright hlength
  | case3 left right hge => omega

theorem widthBucket_eq (hs : bs.Pairwise (· ≤ ·)) : widthBucket x bs = bs.countP (· ≤ x) :=
  bucketSearch_eq hs (Nat.zero_le _) List.countP_le_length le_rfl

/-- The bucket of a larger value is no lower. -/
theorem widthBucket_mono (hs : bs.Pairwise (· ≤ ·)) (hxy : x ≤ y) :
    widthBucket x bs ≤ widthBucket y bs := by
  rw [widthBucket_eq hs, widthBucket_eq hs]
  apply List.countP_mono_left
  intro b _ hb
  rw [decide_eq_true_eq] at hb ⊢
  exact hb.trans hxy

theorem widthBucket_le_length (hs : bs.Pairwise (· ≤ ·)) : widthBucket x bs ≤ bs.length := by
  rw [widthBucket_eq hs]
  exact List.countP_le_length

end Genjishimada.Library
