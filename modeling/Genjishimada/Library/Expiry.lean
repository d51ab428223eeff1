import Mathlib.Order.Basic

/-!
# Rows that expire

A store of rows, each with the time it was last touched.  A row is live as long as that is after a
cutoff, which moves with the clock.  Stores are alike when they have the same live rows; a store and
the one that is left when its dead rows are collected are alike, and stay alike.
-/

namespace Genjishimada.Library

universe u v w

variable {K : Type u} {V : Type v} {T : Type w}

section Defs

variable [LT T] [DecidableLT T]

/-- The live row under a key. -/
def liveRow (touched : V → T) (cutoff : T) (rows : K → Option V) (k : K) : Option V :=
  (rows k).filter fun v ↦ cutoff < touched v

/-- The stores have the same live rows. -/
def Alike (touched : V → T) (cutoff : T) (rows rows' : K → Option V) : Prop :=
  ∀ k, liveRow touched cutoff rows k = liveRow touched cutoff rows' k

/-- Only dead rows are collected. -/
def collect (touched : V → T) (cutoff : T) (rows : K → Option V) (k : K) : Option V :=
  (rows k).filter fun v ↦ !decide (touched v < cutoff)

end Defs

variable [Preorder T] [DecidableLT T] {touched : V → T} {cutoff later : T}
  {rows rows' : K → Option V} {k : K}

theorem Alike.refl (rows : K → Option V) : Alike touched cutoff rows rows := fun _ ↦ rfl

theorem Alike.symm (h : Alike touched cutoff rows rows') : Alike touched cutoff rows' rows :=
  fun k ↦ (h k).symm

theorem Alike.trans {rows'' : K → Option V} (h : Alike touched cutoff rows rows')
    (h' : Alike touched cutoff rows' rows'') : Alike touched cutoff rows rows'' :=
  fun k ↦ (h k).trans (h' k)

/-- What is live later is live now. -/
theorem liveRow_later (hle : cutoff ≤ later) : liveRow touched later rows k =
    (liveRow touched cutoff rows k).filter fun v ↦ later < touched v := by
  rw [liveRow, liveRow, Option.filter_filter]
  congr 1
  funext v
  by_cases hlive : later < touched v
  · simp [hlive, lt_of_le_of_lt hle hlive]
  · simp [hlive]

/-- Stores that are alike stay alike while time passes. -/
theorem Alike.of_le (h : Alike touched cutoff rows rows') (hle : cutoff ≤ later) :
    Alike touched later rows rows' := by
  intro k
  rw [liveRow_later hle, liveRow_later hle, h k]

/-- Writing the same row, or none, keeps stores alike. -/
theorem Alike.update [DecidableEq K] (h : Alike touched cutoff rows rows') (k : K) (v : Option V) :
    Alike touched cutoff (Function.update rows k v) (Function.update rows' k v) := by
  intro k'
  rcases eq_or_ne k' k with rfl | hne
  · simp only [liveRow, Function.update_self]
  · have hk := h k'
    simp only [liveRow] at hk
    simp only [liveRow, Function.update_of_ne hne, hk]

/-- Dropping the rows that meet a condition keeps stores alike. -/
theorem Alike.drop (h : Alike touched cutoff rows rows') (p : K → V → Bool) :
    Alike touched cutoff (fun k ↦ (rows k).filter (p k)) fun k ↦ (rows' k).filter (p k) := by
  intro k
  have hcomm (o : Option V) : (o.filter (p k)).filter (fun v ↦ cutoff < touched v) =
      (o.filter fun v ↦ cutoff < touched v).filter (p k) := by
    rw [Option.filter_filter, Option.filter_filter]
    simp only [Bool.and_comm]
  have hk := h k
  simp only [liveRow] at hk
  simp only [liveRow, hcomm, hk]

/-- Collecting dead rows leaves the live ones. -/
theorem alike_collect (rows : K → Option V) :
    Alike touched cutoff rows (collect touched cutoff rows) := by
  intro k
  rw [liveRow, liveRow, collect, Option.filter_filter]
  congr 1
  funext v
  by_cases hlive : cutoff < touched v
  · simp [hlive, lt_asymm hlive]
  · simp [hlive]

end Genjishimada.Library
