import Mathlib.Data.List.Dedup

/-!
# Tallies

A tally is a counter beside the list of what it has counted.  It is right when the counter
is the number of distinct things counted and each of them is entitled to be counted.
-/

namespace Genjishimada.Library

variable {α : Type*} [DecidableEq α]

/-- `n` is the number of distinct elements of `l`, all of which are entitled. -/
structure Tally (entitled : α → Prop) (n : Nat) (l : List α) : Prop where
  count : n = l.dedup.length
  entitled : ∀ a ∈ l, entitled a

namespace Tally

variable {p p' : α → Prop} {n : Nat} {l : List α} {a : α}

/-- Nothing has been counted. -/
theorem nil (p : α → Prop) : Tally p 0 [] := ⟨rfl, fun _ h ↦ absurd h List.not_mem_nil⟩

theorem mono (h : Tally p n l) (hp : ∀ a ∈ l, p a → p' a) : Tally p' n l :=
  ⟨h.count, fun a ha ↦ hp a ha (h.entitled a ha)⟩

/-- Counting something new. -/
theorem add (h : Tally p n l) (hnew : a ∉ l) (ha : p a) : Tally p (n + 1) (l.dedup ++ [a]) := by
  have hnodup : (l.dedup ++ [a]).Nodup := by
    rw [← List.concat_eq_append, List.nodup_concat, List.mem_dedup]
    exact ⟨hnew, l.nodup_dedup⟩
  refine ⟨?_, fun b hb ↦ ?_⟩
  · rw [hnodup.dedup, List.length_append, h.count]
    rfl
  · rcases List.mem_append.mp hb with hb | hb
    · exact h.entitled b (List.mem_dedup.mp hb)
    · rwa [List.mem_singleton.mp hb]

/-- No longer counting something that was counted. -/
theorem drop (h : Tally p n l) (ha : a ∈ l) (hp : ∀ b ∈ l, b ≠ a → p b → p' b) :
    Tally p' (n - 1) (l.dedup.erase a) := by
  refine ⟨?_, fun b hb ↦ ?_⟩
  · rw [(l.nodup_dedup.erase a).dedup, List.length_erase_of_mem (List.mem_dedup.mpr ha), h.count]
  · obtain ⟨hne, hb⟩ := l.nodup_dedup.mem_erase_iff.mp hb
    have hb := List.mem_dedup.mp hb
    exact hp b hb hne (h.entitled b hb)

end Tally

end Genjishimada.Library
