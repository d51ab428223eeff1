import Mathlib.Data.List.Basic
import Mathlib.Data.List.Infix

/-!
# Words in a text

A word is found in a text that is put together of pieces exactly if it is found in one of them, when
what stands between the pieces has no letter of the word.
-/

namespace Genjishimada.Library

universe u v

variable {α : Type u} {β : Type v} {w l₁ l₂ pre post : List α} {c : α}

/-- No occurrence of a word goes over a letter that it does not have. -/
theorem infix_append_cons_iff (hc : c ∉ w) : w <:+: l₁ ++ c :: l₂ ↔ w <:+: l₁ ∨ w <:+: l₂ := by
  constructor
  · rintro ⟨p, q, h⟩
    rw [List.append_assoc, List.append_eq_append_iff] at h
    rcases h with ⟨m, hl₁, hw⟩ | ⟨m, hp, hl₂⟩
    · rw [List.append_eq_append_iff] at hw
      rcases hw with ⟨m', hm, -⟩ | ⟨m', hw, hcons⟩
      · exact .inl ⟨p, m', by rw [hl₁, hm, List.append_assoc]⟩
      · cases m' with
        | nil => exact .inl ⟨p, [], by rw [hl₁, hw, List.append_nil, List.append_nil]⟩
        | cons d m' =>
            obtain ⟨rfl, -⟩ := List.cons.inj hcons
            exact absurd (hw ▸ List.mem_append_right m List.mem_cons_self) hc
    · cases m with
      | nil =>
          cases w with
          | nil => exact .inl List.nil_infix
          | cons d w =>
              obtain ⟨rfl, -⟩ := List.cons.inj hl₂
              exact absurd List.mem_cons_self hc
      | cons d m =>
          obtain ⟨-, rfl⟩ := List.cons.inj hl₂
          exact .inr ⟨m, q, List.append_assoc ..⟩
  · rintro (h | h)
    · exact h.trans List.infix_append_left
    · exact (h.trans (List.suffix_cons c l₂).isInfix).trans List.infix_append_right

/-- A word is not found in letters that it does not have. -/
theorem infix_append_left_iff (hw : w ≠ []) (hpre : ∀ c ∈ pre, c ∉ w) :
    w <:+: pre ++ l₁ ↔ w <:+: l₁ := by
  induction pre with
  | nil => rfl
  | cons c pre ih =>
      obtain ⟨hc, hpre⟩ := List.forall_mem_cons.mp hpre
      rw [← ih hpre]
      have hsplit : w <:+: [] ++ c :: (pre ++ l₁) ↔ w <:+: [] ∨ w <:+: pre ++ l₁ :=
        infix_append_cons_iff hc
      exact hsplit.trans (or_iff_right fun h ↦ hw (List.infix_nil.mp h))

/-- Letters that a word does not have take a text apart. -/
theorem infix_append_append_iff (hw : w ≠ []) (hpre : ∀ c ∈ pre, c ∉ w) (hne : pre ≠ []) :
    w <:+: l₁ ++ (pre ++ l₂) ↔ w <:+: l₁ ∨ w <:+: l₂ := by
  cases pre with
  | nil => exact absurd rfl hne
  | cons c pre =>
      obtain ⟨hc, hpre⟩ := List.forall_mem_cons.mp hpre
      exact (infix_append_cons_iff hc).trans (or_congr_right (infix_append_left_iff hw hpre))

/-- A word that stands in a text of pieces, each between the same letters, stands in a piece. -/
theorem infix_flatMap_iff {l : List β} {body : β → List α} (hw : w ≠ [])
    (hpre : ∀ c ∈ pre, c ∉ w) (hpost : ∀ c ∈ post, c ∉ w) (hne : post ≠ []) :
    w <:+: l.flatMap (fun i ↦ pre ++ body i ++ post) ↔ ∃ i ∈ l, w <:+: body i := by
  induction l with
  | nil => exact iff_of_false (fun h ↦ hw (List.infix_nil.mp h)) fun ⟨i, hi, _⟩ ↦ by cases hi
  | cons i l ih =>
      rw [List.flatMap_cons, List.append_assoc, infix_append_append_iff hw hpost hne, ih,
        infix_append_left_iff hw hpre, List.exists_mem_cons_iff]

end Genjishimada.Library
