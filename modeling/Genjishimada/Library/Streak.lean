import Genjishimada.Library.Ranking
import Mathlib.Data.List.TakeWhile

/-!
# Streaks

A history is a list of events, each of which one took part in or missed.  Under an
order of recency the current streak is the number of consecutive most recent events
one took part in.

Events need not enter the history in that order.  What a new event does to the
streak is said here: it adds one when every more recent event was taken, and a missed
one cuts the streak off where it stands.
-/

namespace Genjishimada.Library

universe u w

variable {α : Type u} {κ : Type w} [LinearOrder κ] {key : α → κ} {took : α → Bool} {h : List α} {a : α}

/-- The number of consecutive most recent events that satisfy `took`; a smaller key
is more recent. -/
def streak (key : α → κ) (took : α → Bool) (h : List α) : Nat :=
  ((orderBy key h).takeWhile took).length

@[simp] theorem streak_nil : streak key took [] = 0 := rfl

/-- A streak is zero when the most recent event was missed. -/
theorem streak_eq_zero_iff (hh : (h.map key).Nodup) :
    streak key took h = 0 ↔ ∀ b ∈ h, (∀ c ∈ h, key b ≤ key c) → ¬ took b := by
  rw [streak]
  have hsorted := pairwise_lt_orderBy hh
  have hmem : ∀ b, b ∈ orderBy key h ↔ b ∈ h := fun b ↦ mem_orderBy
  cases hl : orderBy key h with
  | nil =>
      rw [hl] at hmem
      exact ⟨fun _ b hb ↦ by simpa using (hmem b).mpr hb, fun _ ↦ rfl⟩
  | cons b l =>
      rw [hl] at hmem hsorted
      obtain ⟨hb, _⟩ := List.pairwise_cons.mp hsorted
      have hfirst : ∀ c ∈ h, key b ≤ key c := fun c hc ↦ by
        rcases List.mem_cons.mp ((hmem c).mpr hc) with rfl | hc
        · exact le_rfl
        · exact (hb c hc).le
      constructor
      · intro hzero c hc hle htook
        rcases List.mem_cons.mp ((hmem c).mpr hc) with rfl | hc'
        · rw [List.takeWhile_cons_of_pos htook] at hzero
          cases hzero
        · exact absurd (hle b ((hmem b).mp List.mem_cons_self)) (hb c hc').not_ge
      · intro hmissed
        have hnot := hmissed b ((hmem b).mp List.mem_cons_self) hfirst
        rw [List.takeWhile_cons_of_neg hnot]
        rfl

/-! ## A new event -/

/-- A list in strict order is the sort of its permutations. -/
theorem orderBy_eq_of_perm {l : List α} (hl : l.Pairwise fun a b ↦ key a < key b)
    (hperm : l.Perm h) : orderBy key h = l := by
  have hnodup : (l.map key).Nodup := List.pairwise_map.mpr (hl.imp fun hlt ↦ hlt.ne)
  have hsorted := pairwise_lt_orderBy ((hperm.map key).nodup_iff.mp hnodup)
  refine ((perm_orderBy key h).trans hperm.symm).eq_of_pairwise ?_ hsorted hl
  exact fun a b _ _ hab hba ↦ absurd hab hba.not_gt

/-- The events more recent than `a`. -/
def later (key : α → κ) (h : List α) (a : α) : List α := h.filter fun b ↦ key b < key a

/-- The events less recent than `a`. -/
def earlier (key : α → κ) (h : List α) (a : α) : List α := h.filter fun b ↦ key a < key b

theorem mem_later {b : α} : b ∈ later key h a ↔ b ∈ h ∧ key b < key a := by simp [later]

theorem mem_earlier {b : α} : b ∈ earlier key h a ↔ b ∈ h ∧ key a < key b := by simp [earlier]

section Concat

variable (hh : ((h ++ [a]).map key).Nodup)
include hh

omit [LinearOrder κ] in
theorem nodup_map_of_concat : (h.map key).Nodup := by
  rw [List.map_append] at hh
  exact hh.of_append_left

omit [LinearOrder κ] in
theorem ne_of_concat : ∀ b ∈ h, key b ≠ key a := by
  rw [List.map_append, List.nodup_append] at hh
  exact fun b hb ↦ hh.2.2 _ (List.mem_map_of_mem hb) _ (by simp)

theorem perm_later_earlier : (later key h a ++ earlier key h a).Perm h := by
  have hne := ne_of_concat hh
  have hrest : earlier key h a = h.filter fun b ↦ !decide (key b < key a) :=
    List.filter_congr fun b hb ↦ by
      rw [← decide_not, decide_eq_decide, not_lt]
      exact (hne b hb).symm.le_iff_lt.symm
  rw [hrest]
  exact List.filter_append_perm _ h

/-- The recent order with `a`: what is more recent, `a`, what is less recent. -/
theorem orderBy_concat : orderBy key (h ++ [a]) =
    orderBy key (later key h a) ++ a :: orderBy key (earlier key h a) := by
  have hnodup := nodup_map_of_concat hh
  have hlater := pairwise_lt_orderBy (hnodup.sublist
    ((List.filter_sublist (p := fun b ↦ key b < key a)).map key))
  have hearlier := pairwise_lt_orderBy (hnodup.sublist
    ((List.filter_sublist (p := fun b ↦ key a < key b)).map key))
  refine orderBy_eq_of_perm (List.pairwise_append.mpr ⟨hlater, List.pairwise_cons.mpr
    ⟨fun b hb ↦ (mem_earlier.mp (mem_orderBy.mp hb)).2, hearlier⟩, fun b hb c hc ↦ ?_⟩) ?_
  · have hba := (mem_later.mp (mem_orderBy.mp hb)).2
    rcases List.mem_cons.mp hc with rfl | hc
    · exact hba
    · exact hba.trans (mem_earlier.mp (mem_orderBy.mp hc)).2
  · have hcons : (orderBy key (later key h a) ++ a :: orderBy key (earlier key h a)).Perm
        ((later key h a ++ earlier key h a) ++ [a]) := by
      refine (List.Perm.append (perm_orderBy key _) ((perm_orderBy key _).cons a)).trans ?_
      rw [List.append_assoc]
      exact List.Perm.append_left _ (List.perm_append_singleton a _).symm
    exact hcons.trans ((perm_later_earlier hh).append_right [a])

theorem orderBy_split : orderBy key h =
    orderBy key (later key h a) ++ orderBy key (earlier key h a) := by
  have hsorted : (orderBy key (later key h a) ++ a :: orderBy key (earlier key h a)).Pairwise
      fun a b ↦ key a < key b := by
    rw [← orderBy_concat hh]
    exact pairwise_lt_orderBy hh
  refine orderBy_eq_of_perm (hsorted.sublist ((List.sublist_cons_self _ _).append_left _)) ?_
  exact (List.Perm.append (perm_orderBy key _) (perm_orderBy key _)).trans (perm_later_earlier hh)

end Concat

/-- A streak over two stretches goes into the second when the first is complete. -/
theorem length_takeWhile_append (took : α → Bool) (l l' : List α) :
    ((l ++ l').takeWhile took).length =
      if ∀ b ∈ l, took b = true then l.length + (l'.takeWhile took).length
      else (l.takeWhile took).length := by
  have hall : (l.takeWhile took).length = l.length ↔ ∀ b ∈ l, took b = true := by
    rw [← List.takeWhile_eq_self_iff]
    exact ⟨fun hlen ↦ (List.takeWhile_sublist took).eq_of_length hlen, congrArg List.length⟩
  rw [List.takeWhile_append]
  by_cases htook : ∀ b ∈ l, took b = true
  · rw [if_pos (hall.mpr htook), if_pos htook, List.length_append]
  · rw [if_neg (mt hall.mp htook), if_neg htook]

section Concat

variable (hh : ((h ++ [a]).map key).Nodup)
include hh

/-- The streak, taken apart at the place of `a`. -/
theorem streak_split : streak key took h =
    if ∀ b ∈ later key h a, took b = true then
      (later key h a).length + streak key took (earlier key h a)
    else streak key took (later key h a) := by
  rw [streak, orderBy_split hh, length_takeWhile_append, length_orderBy]
  simp only [mem_orderBy, streak]

theorem streak_concat : streak key took (h ++ [a]) =
    if ∀ b ∈ later key h a, took b = true then
      (later key h a).length + if took a then streak key took (earlier key h a) + 1 else 0
    else streak key took (later key h a) := by
  rw [streak, orderBy_concat hh, length_takeWhile_append, length_orderBy, List.takeWhile_cons]
  simp only [mem_orderBy, streak]
  split
  · congr 1
    split <;> rfl
  · rfl

/-- A taken event adds one exactly when every more recent one was taken. -/
theorem streak_concat_of_taken (ha : took a = true) :
    streak key took (h ++ [a]) = streak key took h + 1 ↔
      ∀ b ∈ h, key b < key a → took b = true := by
  have hall : (∀ b ∈ h, key b < key a → took b = true) ↔ ∀ b ∈ later key h a, took b = true := by
    simp only [mem_later, and_imp]
  rw [hall, streak_concat hh, streak_split hh, if_pos ha]
  split
  · exact ⟨fun _ ↦ ‹_›, fun _ ↦ by omega⟩
  · exact ⟨fun h ↦ by omega, fun h ↦ absurd h ‹_›⟩

/-- A missed event leaves the streak over what is more recent. -/
theorem streak_concat_of_missed (ha : took a = false) :
    streak key took (h ++ [a]) = streak key took (later key h a) := by
  rw [streak_concat hh, ha]
  split
  · rename_i hall
    have hself : (orderBy key (later key h a)).takeWhile took = orderBy key (later key h a) :=
      List.takeWhile_eq_self_iff.mpr fun b hb ↦ hall b (mem_orderBy.mp hb)
    have hfull : streak key took (later key h a) = (later key h a).length := by
      rw [streak, hself, length_orderBy]
    rw [hfull, if_neg Bool.false_ne_true, Nat.add_zero]
  · rfl

/-- A missed event ends the streak exactly when the most recent event was missed, if
it is more recent. -/
theorem streak_concat_eq_zero_iff (ha : took a = false) :
    streak key took (h ++ [a]) = 0 ↔
      ∀ b ∈ h, key b < key a → (∀ c ∈ h, key b ≤ key c) → took b = false := by
  have hnodup : ((later key h a).map key).Nodup :=
    (nodup_map_of_concat hh).sublist (List.filter_sublist.map key)
  rw [streak_concat_of_missed hh ha, streak_eq_zero_iff hnodup]
  constructor
  · intro hzero b hb hba hfirst
    refine Bool.eq_false_iff.mpr (hzero b (mem_later.mpr ⟨hb, hba⟩) fun c hc ↦ ?_)
    exact hfirst c (mem_later.mp hc).1
  · intro hzero b hb hfirst
    obtain ⟨hb, hba⟩ := mem_later.mp hb
    refine Bool.eq_false_iff.mp (hzero b hb hba fun c hc ↦ ?_)
    by_cases hca : key c < key a
    · exact hfirst c (mem_later.mpr ⟨hc, hca⟩)
    · exact hba.le.trans (not_lt.mp hca)

/-- A missed event leaves the streak alone exactly when the streak does not reach past
its place. -/
theorem streak_concat_eq_iff (ha : took a = false) :
    streak key took (h ++ [a]) = streak key took h ↔
      ((∀ b ∈ h, key b < key a → took b = true) →
        ∀ b ∈ h, key a < key b → (∀ c ∈ h, key a < key c → key b ≤ key c) → took b = false) := by
  have hnodup : ((earlier key h a).map key).Nodup :=
    (nodup_map_of_concat hh).sublist (List.filter_sublist.map key)
  have hall : (∀ b ∈ h, key b < key a → took b = true) ↔ ∀ b ∈ later key h a, took b = true := by
    simp only [mem_later, and_imp]
  have hzero : streak key took (earlier key h a) = 0 ↔
      ∀ b ∈ h, key a < key b → (∀ c ∈ h, key a < key c → key b ≤ key c) → took b = false := by
    rw [streak_eq_zero_iff hnodup]
    simp only [mem_earlier, and_imp, Bool.not_eq_true]
  rw [hall, ← hzero, streak_concat hh, streak_split hh, ha]
  split
  · rename_i htook
    simp only [Bool.false_eq_true, if_false]
    exact ⟨fun h _ ↦ by omega, fun h ↦ by rw [h htook]⟩
  · rename_i htook
    exact ⟨fun _ h ↦ absurd h htook, fun _ ↦ rfl⟩

end Concat

end Genjishimada.Library
