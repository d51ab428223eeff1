import Mathlib.Data.List.Basic
import Mathlib.Algebra.Order.Group.Int
import Mathlib.Tactic.Common

/-!
# Bounds on every window of time

Events carry a time, and `Bounded w limit events` says that no window of length `w`, open at
its start, has more than `limit` of them.  Where events only come later and later, the window
that ends with the new one decides (`bounded_cons_iff`).
-/

namespace Genjishimada.Library

universe u

variable {E : Type u} {time : E → Int} {w : Int} {limit : Nat} {events : List E} {e : E}

/-- The event is after a moment. -/
def since (time : E → Int) (start : Int) (e : E) : Bool := start < time e

/-- The event is in the window that begins after a moment. -/
def inside (time : E → Int) (w start : Int) (e : E) : Bool := start < time e && time e ≤ start + w

/-- Every window has so many events at most. -/
def Bounded (time : E → Int) (w : Int) (limit : Nat) (events : List E) : Prop :=
  ∀ start, events.countP (inside time w start) ≤ limit

theorem bounded_nil : Bounded time w limit [] := fun _ ↦ Nat.zero_le _

theorem inside_imp_since {start : Int} (h : inside time w start e = true) :
    since time start e = true := by
  rw [inside, Bool.and_eq_true] at h
  exact h.1

/-- Where an event comes last, the window that it ends decides whether the bound is kept. -/
theorem bounded_cons_iff (hw : 0 < w) (hlast : ∀ x ∈ events, time x ≤ time e)
    (hbounded : Bounded time w limit events) :
    Bounded time w limit (e :: events) ↔
      events.countP (since time (time e - w)) < limit := by
  -- up to the last event, the window that it ends has all that came since the window began
  have hends : ∀ x ∈ events, (inside time w (time e - w) x = true ↔
      since time (time e - w) x = true) := by
    intro x hx
    have hle := hlast x hx
    rw [inside, since, Bool.and_eq_true, decide_eq_true_eq, decide_eq_true_eq]
    constructor
    · exact fun h ↦ h.1
    · exact fun h ↦ ⟨h, by omega⟩
  have hself : inside time w (time e - w) e = true := by
    rw [inside, Bool.and_eq_true, decide_eq_true_eq, decide_eq_true_eq]
    omega
  constructor
  · intro hall
    have hcount := hall (time e - w)
    rw [List.countP_cons_of_pos hself, List.countP_congr hends] at hcount
    exact hcount
  · intro hlt start
    by_cases hin : inside time w start e = true
    · rw [List.countP_cons_of_pos hin]
      have hle : events.countP (inside time w start) ≤ events.countP (since time (time e - w)) := by
        apply List.countP_mono_left
        intro x _ hx
        rw [inside, Bool.and_eq_true, decide_eq_true_eq, decide_eq_true_eq] at hin hx
        rw [since, decide_eq_true_eq]
        omega
      omega
    · rw [List.countP_cons_of_neg hin]
      exact hbounded start

end Genjishimada.Library
