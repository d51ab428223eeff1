import Mathlib.Tactic.Common

/-!
# Rows under READ COMMITTED

A `Row τ α` is one row of a table shared by the transactions `τ`: its last committed
version and, while some transaction has updated it and has not ended, that
transaction's version.  The transaction with an uncommitted version holds the row's
lock, so there is at most one.

* A `SELECT` reads `seen`: the transaction's own version or the last committed one.
* An `UPDATE` waits until the row is `free`, reads the version it finds then (which is
  what re-evaluating it on a row that has changed in the meantime amounts to) and
  `write`s a new one.
* `commit` and `rollback` end a transaction and release the lock.
-/

namespace Genjishimada.Library

universe u v

variable {τ : Type u} {α : Type v}

/-- A row shared by transactions: its last committed version and an uncommitted one. -/
structure Row (τ : Type u) (α : Type v) where
  committed : α
  pending : Option (τ × α) := none
deriving DecidableEq, Repr

namespace Row

variable [DecidableEq τ] {r : Row τ α} {t t' : τ} {a : α}

/-- The version a statement of `t` reads. -/
def seen (r : Row τ α) (t : τ) : α :=
  match r.pending with
  | some (t', a) => if t' = t then a else r.committed
  | none => r.committed

/-- No transaction other than `t` holds the lock. -/
def free (r : Row τ α) (t : τ) : Bool := r.pending.all fun p ↦ p.1 = t

/-- `UPDATE` by `t`. -/
def write (r : Row τ α) (t : τ) (a : α) : Row τ α := { r with pending := some (t, a) }

/-- `COMMIT` of `t`. -/
def commit (r : Row τ α) (t : τ) : Row τ α :=
  match r.pending with
  | some (t', a) => if t' = t then ⟨a, none⟩ else r
  | none => r

/-- `ROLLBACK` of `t`. -/
def rollback (r : Row τ α) (t : τ) : Row τ α :=
  match r.pending with
  | some (t', _) => if t' = t then ⟨r.committed, none⟩ else r
  | none => r

/-- `t` has an uncommitted version of the row, and with it the lock. -/
def Holds (r : Row τ α) (t : τ) : Prop := ∃ a, r.pending = some (t, a)

omit [DecidableEq τ] in
/-- One transaction holds the lock at most. -/
theorem not_holds_of_some (h : r.pending = some (t, a)) (ht : t' ≠ t) : ¬ r.Holds t' := by
  rintro ⟨a', h'⟩
  rw [h] at h'
  cases h'
  exact ht rfl

omit [DecidableEq τ] in
theorem not_holds_of_none (h : r.pending = none) : ¬ r.Holds t := by
  rintro ⟨a, h'⟩
  rw [h] at h'
  cases h'

omit [DecidableEq τ] in
/-- A transaction holds the lock, and nobody else does, or it does not. -/
theorem holds_or (r : Row τ α) (t : τ) :
    (∃ a, r.pending = some (t, a) ∧ ∀ t', t' ≠ t → ¬ r.Holds t') ∨ ¬ r.Holds t := by
  by_cases h : r.Holds t
  · obtain ⟨a, ha⟩ := h
    exact .inl ⟨a, ha, fun t' ht ↦ not_holds_of_some ha ht⟩
  · exact .inr h

theorem free_iff : r.free t = true ↔ r.pending = none ∨ ∃ a, r.pending = some (t, a) := by
  cases h : r.pending with
  | none => simp [free, h]
  | some p =>
      obtain ⟨t', a⟩ := p
      simp only [free, h, Option.all_some, decide_eq_true_eq, reduceCtorEq, Option.some.injEq,
        Prod.mk.injEq, false_or]
      constructor
      · rintro rfl
        exact ⟨a, rfl, rfl⟩
      · rintro ⟨_, rfl, _⟩
        rfl

/-- Nobody else holds the lock of a row that is free. -/
theorem not_holds_of_free (h : r.free t = true) (ht : t' ≠ t) : ¬ r.Holds t' := by
  rcases free_iff.mp h with hnone | ⟨a, ha⟩
  · exact not_holds_of_none hnone
  · exact not_holds_of_some ha ht

/-- A transaction sees its own update. -/
theorem seen_of_some (h : r.pending = some (t, a)) : r.seen t = a := by
  rw [seen, h]
  exact if_pos rfl

/-- A transaction that has not updated the row sees its committed version. -/
theorem seen_of_not_holds (h : ¬ r.Holds t) : r.seen t = r.committed := by
  cases hr : r.pending with
  | none => rw [seen, hr]
  | some p =>
      obtain ⟨t', a⟩ := p
      rw [seen, hr]
      refine if_neg ?_
      rintro rfl
      exact h ⟨a, hr⟩

@[simp] theorem seen_write : (r.write t a).seen t = a := seen_of_some rfl

omit [DecidableEq τ] in
@[simp] theorem committed_write : (r.write t a).committed = r.committed := rfl

omit [DecidableEq τ] in
@[simp] theorem pending_write : (r.write t a).pending = some (t, a) := rfl

theorem commit_of_some (h : r.pending = some (t, a)) : r.commit t = ⟨a, none⟩ := by
  rw [commit, h]
  exact if_pos rfl

/-- A transaction that has not updated the row does not change it by ending. -/
theorem commit_of_not_holds (h : ¬ r.Holds t) : r.commit t = r := by
  cases hr : r.pending with
  | none => rw [commit, hr]
  | some p =>
      obtain ⟨t', a⟩ := p
      rw [commit, hr]
      refine if_neg ?_
      rintro rfl
      exact h ⟨a, hr⟩

theorem rollback_of_some (h : r.pending = some (t, a)) : r.rollback t = ⟨r.committed, none⟩ := by
  rw [rollback, h]
  exact if_pos rfl

theorem rollback_of_not_holds (h : ¬ r.Holds t) : r.rollback t = r := by
  cases hr : r.pending with
  | none => rw [rollback, hr]
  | some p =>
      obtain ⟨t', a⟩ := p
      rw [rollback, hr]
      refine if_neg ?_
      rintro rfl
      exact h ⟨a, hr⟩

/-- A rollback leaves the committed version alone. -/
@[simp] theorem committed_rollback : (r.rollback t).committed = r.committed := by
  rcases r.holds_or t with ⟨a, ha, _⟩ | h
  · rw [rollback_of_some ha]
  · rw [rollback_of_not_holds h]

end Row

end Genjishimada.Library
