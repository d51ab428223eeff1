import Genjishimada.Library.ReadCommitted
import Mathlib.Algebra.Order.Ring.Int
import Mathlib.Logic.Function.Basic

/-!
# Accounts

An account is a row that holds a balance, or does not exist yet.  A transaction posts to
it by writing the balance it finds with its own amount added; the amount counts once the
transaction commits.  `Balanced` says what the row looks like all the while, and the rules
below say that posting, committing and rolling back keep it so.
-/

namespace Genjishimada.Library

universe u

variable {τ : Type u} [DecidableEq τ]

/-- The balance of an account: zero while it does not exist. -/
def balance (row : Row τ (Option Int)) : Int := row.committed.getD 0

/-- The balance is what has been posted so far, which is never below zero, and the
transaction that has written the row, if there is one, is the one with an amount of its
own. -/
structure Balanced (row : Row τ (Option Int)) (posted : Int) (amount : τ → Option Int) :
    Prop where
  balance : balance row = posted
  nonneg : 0 ≤ posted
  pending : ∀ t a, amount t = some a →
    row.pending = some (t, some (posted + a)) ∧ 0 ≤ posted + a
  holds : ∀ t, row.Holds t → amount t ≠ none

namespace Balanced

variable {row : Row τ (Option Int)} {posted a : Int} {amount : τ → Option Int} {t : τ}

omit [DecidableEq τ] in
theorem not_holds (h : Balanced row posted amount) (ht : amount t = none) : ¬ row.Holds t :=
  fun hholds ↦ h.holds t hholds ht

omit [DecidableEq τ] in
/-- A balance that is not committed yet is not below zero either. -/
theorem pending_nonneg (h : Balanced row posted amount) {c : Int}
    (hpending : row.pending = some (t, some c)) : 0 ≤ c := by
  obtain ⟨a, ha⟩ := Option.ne_none_iff_exists'.mp (h.holds t ⟨_, hpending⟩)
  obtain ⟨hpending', hc⟩ := h.pending t a ha
  rw [hpending] at hpending'
  cases hpending'
  exact hc

/-- Posting an amount to a row that nobody else has written. -/
theorem write (h : Balanced row posted amount) (hfree : row.free t = true)
    (ha : 0 ≤ posted + a) :
    Balanced (row.write t (some (posted + a))) posted (Function.update amount t (some a)) := by
  constructor
  · exact h.balance
  · exact h.nonneg
  · intro t' a' ht'
    by_cases htt : t' = t
    · subst htt
      rw [Function.update_self] at ht'
      cases ht'
      exact ⟨rfl, ha⟩
    · rw [Function.update_of_ne htt] at ht'
      exact absurd ⟨_, (h.pending t' a' ht').1⟩ (Row.not_holds_of_free hfree htt)
  · intro t' ht'
    by_cases htt : t' = t
    · subst htt
      simp
    · exact absurd ht' (Row.not_holds_of_some rfl htt)

/-- The amount counts from the commit on. -/
theorem commit (h : Balanced row posted amount) (ha : amount t = some a) :
    Balanced (row.commit t) (posted + a) (Function.update amount t none) := by
  obtain ⟨hpending, hnonneg⟩ := h.pending t a ha
  rw [Row.commit_of_some hpending]
  constructor
  · rfl
  · exact hnonneg
  · intro t' a' ht'
    by_cases htt : t' = t
    · subst htt
      simp at ht'
    · rw [Function.update_of_ne htt] at ht'
      have hpending' := (h.pending t' a' ht').1
      exact absurd ⟨_, hpending'⟩ (Row.not_holds_of_some hpending htt)
  · intro t' ht'
    exact absurd ht' (Row.not_holds_of_none rfl)

/-- An amount that is rolled back never counts. -/
theorem rollback (h : Balanced row posted amount) :
    Balanced (row.rollback t) posted (Function.update amount t none) := by
  constructor
  · rw [Library.balance, Row.committed_rollback]
    exact h.balance
  · exact h.nonneg
  · intro t' a' ht'
    by_cases htt : t' = t
    · subst htt
      simp at ht'
    · rw [Function.update_of_ne htt] at ht'
      have hpending := h.pending t' a' ht'
      rw [Row.rollback_of_not_holds (Row.not_holds_of_some hpending.1 (Ne.symm htt))]
      exact hpending
  · intro t' ht'
    rcases row.holds_or t with ⟨c, hc, _⟩ | hnot
    · rw [Row.rollback_of_some hc] at ht'
      exact absurd ht' (Row.not_holds_of_none rfl)
    · rw [Row.rollback_of_not_holds hnot] at ht'
      have htt : t' ≠ t := by
        rintro rfl
        exact hnot ht'
      rw [Function.update_of_ne htt]
      exact h.holds t' ht'

end Balanced

end Genjishimada.Library
