import Mathlib.Order.Bounds.Basic

/-!
# Hours and weekdays of UTC timestamps

A timestamp counts microseconds since the epoch, which was a Thursday.  `OnSlot` is the
weekly recurring instant of an ISO weekday and an hour, and `nextSlot` the first such
instant after a given one (`isLeast_nextSlot`).
-/

namespace Genjishimada.Library

/-- An hour, in microseconds. -/
def microsPerHour : Int := 3600000000

/-- A day, in microseconds. -/
def microsPerDay : Int := 86400000000

/-- A week, in microseconds. -/
def microsPerWeek : Int := 604800000000

/-- `isoweekday()`: Monday is 1, Sunday is 7. -/
def isoWeekday (t : Int) : Int := (t / microsPerDay + 3) % 7 + 1

/-- `replace(hour=hour, minute=0, second=0, microsecond=0)` -/
def atHour (hour : Nat) (t : Int) : Int := t / microsPerDay * microsPerDay + hour * microsPerHour

/-- The full hour `hour` of a day that is the weekday `weekday`. -/
def OnSlot (weekday hour : Nat) (t : Int) : Prop :=
  isoWeekday t = weekday ∧ t % microsPerDay = hour * microsPerHour

instance (weekday hour : Nat) (t : Int) : Decidable (OnSlot weekday hour t) :=
  inferInstanceAs (Decidable (_ ∧ _))

variable {weekday hour : Nat} {t s now : Int}

/-- The day of `atHour` is the day it was called on. -/
theorem atHour_div (hhour : hour ≤ 23) : atHour hour t / microsPerDay = t / microsPerDay := by
  rw [atHour]
  simp only [microsPerHour, microsPerDay]
  omega

theorem atHour_mod (hhour : hour ≤ 23) : atHour hour t % microsPerDay = hour * microsPerHour := by
  rw [atHour]
  simp only [microsPerHour, microsPerDay]
  omega

/-- Two instants of one slot are a whole number of weeks apart. -/
theorem OnSlot.weeks (ht : OnSlot weekday hour t) (hs : OnSlot weekday hour s) :
    ∃ k : Int, t = s + k * microsPerWeek := by
  obtain ⟨hday, hrem⟩ := ht
  obtain ⟨hday', hrem'⟩ := hs
  rw [isoWeekday] at hday hday'
  refine ⟨(t / microsPerDay - s / microsPerDay) / 7, ?_⟩
  simp only [microsPerHour, microsPerDay, microsPerWeek] at *
  omega

theorem OnSlot.add_week (ht : OnSlot weekday hour t) : OnSlot weekday hour (t + microsPerWeek) := by
  obtain ⟨hday, hrem⟩ := ht
  rw [isoWeekday] at hday
  rw [OnSlot, isoWeekday]
  simp only [microsPerHour, microsPerDay, microsPerWeek] at *
  omega

/-- An instant of the slot at most a week after `now` is the first one after it. -/
theorem OnSlot.isLeast (ht : OnSlot weekday hour t) (hnow : now < t) (hweek : t ≤ now + microsPerWeek) :
    IsLeast {t | now < t ∧ OnSlot weekday hour t} t := by
  refine ⟨⟨hnow, ht⟩, ?_⟩
  rintro s ⟨hs, hslot⟩
  obtain ⟨k, rfl⟩ := hslot.weeks ht
  rw [microsPerWeek] at *
  have hk : 0 ≤ k := by
    by_contra hneg
    omega
  omega

/-- The slot of the week that starts today. -/
def slotThisWeek (weekday hour : Nat) (now : Int) : Int :=
  atHour hour now + (weekday - isoWeekday (atHour hour now)) % 7 * microsPerDay

/-- The slot of the week that starts today, or a week later if that is not after `now`. -/
def nextSlot (weekday hour : Nat) (now : Int) : Int :=
  if slotThisWeek weekday hour now ≤ now then slotThisWeek weekday hour now + microsPerWeek
  else slotThisWeek weekday hour now

theorem onSlot_slotThisWeek (hday : 1 ≤ weekday ∧ weekday ≤ 7) (hhour : hour ≤ 23) (now : Int) :
    OnSlot weekday hour (slotThisWeek weekday hour now) := by
  have hdiv : atHour hour now / microsPerDay = now / microsPerDay := atHour_div hhour
  have hmod : atHour hour now % microsPerDay = hour * microsPerHour := atHour_mod hhour
  rw [OnSlot, slotThisWeek, isoWeekday, isoWeekday]
  simp only [microsPerHour, microsPerDay] at *
  omega

/-- The slot of the week that starts today is less than a week before or after `now`. -/
theorem slotThisWeek_near (hhour : hour ≤ 23) (now : Int) :
    now < slotThisWeek weekday hour now + microsPerWeek ∧
      slotThisWeek weekday hour now < now + microsPerWeek := by
  have hlt := Int.emod_lt_of_pos (weekday - isoWeekday (atHour hour now)) (show (0 : Int) < 7 by decide)
  have hnonneg := Int.emod_nonneg (weekday - isoWeekday (atHour hour now)) (show (7 : Int) ≠ 0 by decide)
  have hat : now - microsPerDay < atHour hour now ∧ atHour hour now < now + microsPerDay := by
    rw [atHour]
    simp only [microsPerHour, microsPerDay]
    omega
  rw [slotThisWeek]
  simp only [microsPerDay, microsPerWeek] at *
  omega

/-- `nextSlot` is the first instant of the slot after `now`. -/
theorem isLeast_nextSlot (hday : 1 ≤ weekday ∧ weekday ≤ 7) (hhour : hour ≤ 23) (now : Int) :
    IsLeast {t | now < t ∧ OnSlot weekday hour t} (nextSlot weekday hour now) := by
  have hslot := onSlot_slotThisWeek hday hhour now
  obtain ⟨hafter, hbefore⟩ := slotThisWeek_near hhour now
  rw [nextSlot]
  split
  · rename_i hle
    exact hslot.add_week.isLeast hafter (Int.add_le_add_right hle _)
  · rename_i hlt
    exact hslot.isLeast (not_le.mp hlt) hbefore.le

/-- Different hours have no instant in common. -/
theorem OnSlot.hour_eq {weekday' hour' : Nat} (h : OnSlot weekday hour t)
    (h' : OnSlot weekday' hour' t) : hour = hour' := by
  have hrem : (hour * microsPerHour : Int) = hour' * microsPerHour := h.2.symm.trans h'.2
  rw [microsPerHour] at hrem
  omega

end Genjishimada.Library
