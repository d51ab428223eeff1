import Mathlib.Algebra.Order.Ring.Int
import Mathlib.Order.Bounds.Defs
import Mathlib.Data.List.Nodup

/-!
# Ranks along a line

A rank that is constant on blocks of a fixed width, as a level by points or a page by entries:
the next value at which it differs is the end of the block.
-/

namespace Genjishimada.Library

universe u v

variable {α : Type u} {β : Type v}

section Blocks

variable {g : Int → β} {w x : Int}

theorem lt_next_block (hw : 0 < w) : x < (x / w + 1) * w := by
  have hmod := Int.emod_lt_of_pos x hw
  have hdiv := Int.mul_ediv_add_emod x w
  calc x = x / w * w + x % w := by rw [mul_comm, hdiv]
    _ < x / w * w + w := by omega
    _ = (x / w + 1) * w := by rw [add_mul, one_mul]

/-- Before the end of the block the rank is the same. -/
theorem ediv_eq_of_lt_next (hw : 0 < w) {y : Int} (hxy : x ≤ y) (hy : y < (x / w + 1) * w) :
    y / w = x / w := by
  have hle : x / w ≤ y / w := Int.ediv_le_ediv hw hxy
  have hlt : y / w < x / w + 1 := Int.ediv_lt_of_lt_mul hw hy
  omega

/-- Neighbouring blocks of different rank: the rank changes first at the end of the block. -/
theorem isLeast_next_block (hw : 0 < w) (hne : g (x / w + 1) ≠ g (x / w)) :
    IsLeast {y | x < y ∧ g (y / w) ≠ g (x / w)} ((x / w + 1) * w) := by
  constructor
  · refine ⟨lt_next_block hw, ?_⟩
    rwa [Int.mul_ediv_cancel _ hw.ne']
  · rintro y ⟨hxy, hy⟩
    by_contra hlt
    rw [ediv_eq_of_lt_next hw hxy.le (not_le.mp hlt)] at hy
    exact hy rfl

end Blocks

section Lookup

variable [DecidableEq α] {ts : List (α × β)} {a a' : α}

/-- `LEFT JOIN ts ON a = ts.threshold`, and the name that it finds. -/
def joinName (ts : List (α × β)) (a : α) : Option β :=
  (ts.find? fun t ↦ t.1 = a).map Prod.snd

theorem exists_joinName (h : a ∈ ts.map Prod.fst) : ∃ b, joinName ts a = some b ∧ (a, b) ∈ ts := by
  obtain ⟨t, ht, rfl⟩ := List.mem_map.mp h
  have hsome : (ts.find? fun t' ↦ t'.1 = t.1).isSome := by
    rw [List.find?_isSome]
    exact ⟨t, ht, by simp⟩
  obtain ⟨t', ht'⟩ := Option.isSome_iff_exists.mp hsome
  have hkey : t'.1 = t.1 := by simpa using List.find?_some ht'
  refine ⟨t'.2, by rw [joinName, ht', Option.map_some], ?_⟩
  rw [← hkey]
  exact List.mem_of_find?_eq_some ht'

/-- No two rows have one name, so the name says which row it is. -/
theorem joinName_inj (hnames : (ts.map Prod.snd).Nodup) (h : a ∈ ts.map Prod.fst)
    (h' : a' ∈ ts.map Prod.fst) : joinName ts a = joinName ts a' ↔ a = a' := by
  constructor
  · intro heq
    obtain ⟨b, hb, hmem⟩ := exists_joinName h
    obtain ⟨b', hb', hmem'⟩ := exists_joinName h'
    obtain rfl : b = b' := by simpa [hb, hb'] using heq
    exact congrArg Prod.fst (List.inj_on_of_nodup_map hnames hmem hmem' rfl)
  · rintro rfl
    rfl

end Lookup

end Genjishimada.Library
