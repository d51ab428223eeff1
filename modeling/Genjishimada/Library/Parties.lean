import Mathlib.Data.List.Basic

/-!
# Parties that take turns

A system of parties keeps their states in a list, and a step of one party sets its entry.
The lemmas say what is in the list after such a step: the party's new state
(`mem_set_self`) and the states of the others (`mem_set_of_mem`).
-/

namespace Genjishimada.Library

universe u

variable {α : Type u} {parties : List α} {i j : Nat} {a a' x y : α}

/-- The other parties stay. -/
theorem mem_set_of_mem (a' : α) (ha : parties[i]? = some a) (hx : x ∈ parties) :
    x = a ∨ x ∈ parties.set i a' := by
  obtain ⟨j, hj⟩ := List.mem_iff_getElem?.mp hx
  by_cases h : i = j
  · subst h
    exact .inl (Option.some.inj (hj.symm.trans ha))
  · refine .inr (List.mem_iff_getElem?.mpr ⟨j, ?_⟩)
    rw [List.getElem?_set_ne h, hj]

/-- The party's new state is there. -/
theorem mem_set_self (ha : parties[i]? = some a) : a' ∈ parties.set i a' :=
  List.mem_set (List.getElem?_eq_some_iff.mp ha).1 a'

/-- What holds of a party and is not taken back still holds of one. -/
theorem exists_mem_set {P : α → Prop} (ha : parties[i]? = some a) (hP : P a → P a')
    (h : ∃ x ∈ parties, P x) : ∃ x ∈ parties.set i a', P x := by
  obtain ⟨x, hx, hPx⟩ := h
  rcases mem_set_of_mem a' ha hx with rfl | hx
  · exact ⟨a', mem_set_self ha, hP hPx⟩
  · exact ⟨x, hx, hPx⟩

/-- What holds of one party after a step holds of the one that took it, or held of another
before. -/
theorem exists_of_exists_mem_set {P : α → Prop} (h : ∃ x ∈ parties.set i a', P x) :
    (∃ x ∈ parties, P x) ∨ P a' := by
  obtain ⟨x, hx, hPx⟩ := h
  rcases List.mem_or_eq_of_mem_set hx with hx | rfl
  · exact .inl ⟨x, hx, hPx⟩
  · exact .inr hPx

/-- A party after a step is the one that took it, or was there before. -/
theorem getElem?_set_cases (ha : parties[i]? = some a) (hx : (parties.set i a')[j]? = some x) :
    j = i ∧ x = a' ∨ j ≠ i ∧ parties[j]? = some x := by
  by_cases h : i = j
  · subst h
    rw [List.getElem?_set_self (List.getElem?_eq_some_iff.mp ha).1] at hx
    exact .inl ⟨rfl, (Option.some.inj hx).symm⟩
  · rw [List.getElem?_set_ne h] at hx
    exact .inr ⟨fun hij ↦ h hij.symm, hx⟩

/-- A party that is there after one has joined was there before, or is the one that joined. -/
theorem getElem?_append_cases (hx : (parties ++ [a])[j]? = some x) :
    parties[j]? = some x ∨ j = parties.length ∧ x = a := by
  rcases Nat.lt_trichotomy j parties.length with hj | rfl | hj
  · rw [List.getElem?_append_left hj] at hx
    exact .inl hx
  · rw [List.getElem?_concat_length] at hx
    exact .inr ⟨rfl, (Option.some.inj hx).symm⟩
  · have hlt := (List.getElem?_eq_some_iff.mp hx).1
    rw [List.length_append, List.length_singleton] at hlt
    omega

/-- No two parties stand in `R` after a step, if none did before and the party stands in it only
where it did already. -/
theorem eq_of_getElem?_set {R : α → α → Prop} (ha : parties[i]? = some a)
    (hleft : ∀ y, R a' y → R a y) (hright : ∀ x, R x a' → R x a)
    (h : ∀ (j k : Nat) (x y : α), parties[j]? = some x → parties[k]? = some y → R x y → j = k)
    (j k : Nat) (x y : α) (hx : (parties.set i a')[j]? = some x)
    (hy : (parties.set i a')[k]? = some y) (hR : R x y) : j = k := by
  rcases getElem?_set_cases ha hx with ⟨hj, rfl⟩ | ⟨_, hx'⟩
  · rcases getElem?_set_cases ha hy with ⟨hk, _⟩ | ⟨_, hy'⟩
    · rw [hj, hk]
    · exact hj.trans (h _ _ _ _ ha hy' (hleft y hR))
  · rcases getElem?_set_cases ha hy with ⟨hk, rfl⟩ | ⟨_, hy'⟩
    · exact (h _ _ _ _ hx' ha (hright x hR)).trans hk.symm
    · exact h _ _ _ _ hx' hy' hR

end Genjishimada.Library
