import Mathlib.Data.List.Basic
import Mathlib.Logic.Function.Basic

/-!
# Deleting rows under READ COMMITTED

A `Pool τ ι` is the rows of a table from which the transactions `τ` delete: those that are
committed, and for each of them the transaction that has deleted it and has not ended.
That transaction holds the row's lock.  A `DELETE` of a row waits until the row is free
and deletes it if it is still there.

`Taken` says which row each transaction holds; the rules below say that deleting,
committing, rolling back and inserting keep it so, and what they do to the number of rows.
-/

namespace Genjishimada.Library

universe u v

/-- The committed rows of a table, and who has deleted them without having committed. -/
structure Pool (τ : Type u) (ι : Type v) where
  rows : List ι
  locks : ι → Option τ := fun _ ↦ none

variable {τ : Type u} {ι : Type v} [DecidableEq τ] [DecidableEq ι]

namespace Pool

/-- No transaction other than `t` has deleted the row. -/
def free (p : Pool τ ι) (t : τ) (i : ι) : Bool := (p.locks i).all fun t' ↦ t' = t

/-- `DELETE` by `t`. -/
def delete (p : Pool τ ι) (t : τ) (i : ι) : Pool τ ι :=
  { p with locks := Function.update p.locks i (some t) }

/-- `COMMIT` of the transaction that has deleted the row. -/
def commit (p : Pool τ ι) (i : ι) : Pool τ ι :=
  { rows := p.rows.erase i, locks := Function.update p.locks i none }

/-- `ROLLBACK` of the transaction that has deleted the row. -/
def rollback (p : Pool τ ι) (i : ι) : Pool τ ι :=
  { p with locks := Function.update p.locks i none }

/-- `COMMIT` of a transaction that has inserted rows. -/
def insert (p : Pool τ ι) (rows : List ι) : Pool τ ι := { p with rows := p.rows ++ rows }

end Pool

/-- Each transaction holds the row it has deleted, which is still there for the others. -/
def Taken (p : Pool τ ι) (takes : τ → Option ι) : Prop :=
  ∀ t i, takes t = some i → i ∈ p.rows ∧ p.locks i = some t

namespace Taken

variable {p : Pool τ ι} {takes : τ → Option ι} {t : τ} {i : ι}

omit [DecidableEq τ] [DecidableEq ι] in
/-- No two transactions have deleted the same row. -/
theorem ne (h : Taken p takes) (hi : takes t = some i) {t' : τ} {i' : ι}
    (hi' : takes t' = some i') (ht : t' ≠ t) : i' ≠ i := by
  rintro rfl
  have hlock := (h t' i' hi').2
  rw [(h t i' hi).2] at hlock
  exact ht (Option.some.inj hlock).symm

theorem delete (h : Taken p takes) (hmem : i ∈ p.rows) (hfree : p.free t i = true) :
    Taken (p.delete t i) (Function.update takes t (some i)) := by
  intro t' i' ht'
  by_cases ht : t' = t
  · subst ht
    rw [Function.update_self] at ht'
    cases ht'
    exact ⟨hmem, Function.update_self ..⟩
  · rw [Function.update_of_ne ht] at ht'
    obtain ⟨hmem', hlock⟩ := h t' i' ht'
    have hne : i' ≠ i := by
      rintro rfl
      rw [Pool.free, hlock] at hfree
      exact ht (by simpa using hfree)
    refine ⟨hmem', ?_⟩
    rw [← hlock]
    exact Function.update_of_ne hne _ _

/-- The transactions that have not ended keep the rows they hold. -/
theorem release (h : Taken p takes) (hi : takes t = some i) {rows : List ι}
    (hrows : ∀ i', i' ≠ i → i' ∈ p.rows → i' ∈ rows) :
    Taken ⟨rows, Function.update p.locks i none⟩ (Function.update takes t none) := by
  intro t' i' ht'
  by_cases ht : t' = t
  · subst ht
    rw [Function.update_self] at ht'
    cases ht'
  · rw [Function.update_of_ne ht] at ht'
    have hne := h.ne hi ht' ht
    obtain ⟨hmem', hlock⟩ := h t' i' ht'
    refine ⟨hrows i' hne hmem', ?_⟩
    rw [← hlock]
    exact Function.update_of_ne hne _ _

theorem commit (h : Taken p takes) (hi : takes t = some i) :
    Taken (p.commit i) (Function.update takes t none) :=
  h.release hi fun _ hne hmem ↦ (List.mem_erase_of_ne hne).mpr hmem

omit [DecidableEq τ] in
/-- A transaction that commits has deleted one row. -/
theorem length_commit (h : Taken p takes) (hi : takes t = some i) :
    (p.commit i).rows.length + 1 = p.rows.length := by
  have hmem := (h t i hi).1
  have hpos := List.length_pos_of_mem hmem
  rw [Pool.commit, List.length_erase_of_mem hmem]
  omega

theorem rollback (h : Taken p takes) (hi : takes t = some i) :
    Taken (p.rollback i) (Function.update takes t none) :=
  h.release hi fun _ _ hmem ↦ hmem

omit [DecidableEq τ] [DecidableEq ι] in
theorem insert (h : Taken p takes) (rows : List ι) : Taken (p.insert rows) takes :=
  fun t i hi ↦ ⟨List.mem_append_left _ (h t i hi).1, (h t i hi).2⟩

end Taken

end Genjishimada.Library
