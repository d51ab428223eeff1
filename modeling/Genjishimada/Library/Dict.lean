import Genjishimada.Library.Ranking
import Mathlib.Algebra.Order.BigOperators.Group.List
import Mathlib.Algebra.Order.Ring.Nat
import Mathlib.Data.List.Induction

/-!
# Dict comprehensions

`{k: v for k, v in rows}` keeps the last value of a key.  The values of a grouping survive under
other keys if no two groups get the same key.
-/

namespace Genjishimada.Library

universe u v

section Dict

variable {κ : Type u} {ν : Type v} [DecidableEq κ] {rows : List (κ × ν)} {k : κ}

/-- `{k: v for k, v in rows}` -/
def dictOf (rows : List (κ × ν)) : κ → Option ν :=
  rows.foldl (fun dict row ↦ Function.update dict row.1 (some row.2)) fun _ ↦ none

theorem dictOf_append_singleton (rows : List (κ × ν)) (row : κ × ν) :
    dictOf (rows ++ [row]) = Function.update (dictOf rows) row.1 (some row.2) := by
  rw [dictOf, List.foldl_append]
  rfl

/-- Later rows take precedence. -/
theorem dictOf_append (rows rows' : List (κ × ν)) (k : κ) :
    dictOf (rows ++ rows') k = (dictOf rows' k).or (dictOf rows k) := by
  induction rows' using List.reverseRecOn with
  | nil => rw [List.append_nil]; rfl
  | append_singleton rows' row ih =>
      rw [← List.append_assoc, dictOf_append_singleton, dictOf_append_singleton]
      by_cases hk : k = row.1
      · rw [hk, Function.update_self, Function.update_self, Option.some_or]
      · rw [Function.update_of_ne hk, Function.update_of_ne hk, ih]

/-- A key that no row has is not set. -/
theorem dictOf_eq_none (h : k ∉ rows.map Prod.fst) : dictOf rows k = none := by
  induction rows using List.reverseRecOn with
  | nil => rfl
  | append_singleton rows row ih =>
      rw [List.map_append, List.mem_append, not_or] at h
      rw [dictOf_append_singleton, Function.update_of_ne, ih h.1]
      rintro rfl
      exact h.2 (List.mem_singleton.mpr rfl)

/-- The values of a key, in the order of the rows. -/
def valuesOf (rows : List (κ × ν)) (k : κ) : List ν := (rows.filter fun row ↦ row.1 = k).map Prod.snd

theorem valuesOf_eq_nil_iff : valuesOf rows k = [] ↔ k ∉ rows.map Prod.fst := by
  rw [valuesOf, List.map_eq_nil_iff, List.filter_eq_nil_iff, List.mem_map]
  constructor
  · rintro h ⟨row, hrow, rfl⟩
    exact h row hrow (decide_eq_true rfl)
  · intro h row hrow hk
    exact h ⟨row, hrow, of_decide_eq_true hk⟩

theorem valuesOf_append_singleton (rows : List (κ × ν)) (row : κ × ν) (k : κ) :
    valuesOf (rows ++ [row]) k = if row.1 = k then valuesOf rows k ++ [row.2] else valuesOf rows k := by
  rw [valuesOf, List.filter_append, List.map_append]
  by_cases hk : row.1 = k
  · rw [if_pos hk, List.filter_singleton, decide_eq_true hk]
    rfl
  · rw [if_neg hk, List.filter_singleton, decide_eq_false hk]
    exact List.append_nil _

variable [AddCommMonoid ν] [PartialOrder ν] [IsOrderedCancelAddMonoid ν]

/-- Of positive values none is lost exactly if each key has one. -/
theorem dictOf_eq_sum_iff (hpos : ∀ row ∈ rows, 0 < row.2) :
    (∀ k, (dictOf rows k).getD 0 = (valuesOf rows k).sum) ↔ (rows.map Prod.fst).Nodup := by
  induction rows using List.reverseRecOn with
  | nil => exact iff_of_true (fun _ ↦ rfl) List.nodup_nil
  | append_singleton rows row ih =>
      have hrows : ∀ r ∈ rows, 0 < r.2 := fun r hr ↦ hpos r (List.mem_append_left _ hr)
      have hvalues : ∀ x ∈ valuesOf rows row.1, 0 < x := by
        intro x hx
        obtain ⟨r, hr, rfl⟩ := List.mem_map.mp hx
        exact hrows r (List.mem_of_mem_filter hr)
      have hother : ∀ k, k ≠ row.1 → (dictOf (rows ++ [row]) k = dictOf rows k ∧
          valuesOf (rows ++ [row]) k = valuesOf rows k) := by
        intro k hk
        rw [dictOf_append_singleton, Function.update_of_ne hk, valuesOf_append_singleton,
          if_neg hk.symm]
        exact ⟨rfl, rfl⟩
      have hsame : ((dictOf (rows ++ [row]) row.1).getD 0 = (valuesOf (rows ++ [row]) row.1).sum) ↔
          row.1 ∉ rows.map Prod.fst := by
        rw [dictOf_append_singleton, Function.update_self, valuesOf_append_singleton, if_pos rfl,
          List.sum_append, List.sum_singleton, Option.getD_some, eq_comm, add_eq_right,
          ← valuesOf_eq_nil_iff]
        constructor
        · intro hzero
          by_contra hne
          exact (List.sum_pos _ hvalues hne).ne' hzero
        · intro hnil
          rw [hnil]
          rfl
      have hsnoc : ((rows ++ [row]).map Prod.fst).Nodup ↔
          row.1 ∉ rows.map Prod.fst ∧ (rows.map Prod.fst).Nodup := by
        rw [List.map_append, List.map_singleton, ← List.concat_eq_append, List.nodup_concat]
      rw [hsnoc, ← ih hrows]
      constructor
      · intro h
        have hfresh := hsame.mp (h row.1)
        refine ⟨hfresh, fun k ↦ ?_⟩
        by_cases hk : k = row.1
        · rw [hk, dictOf_eq_none hfresh, valuesOf_eq_nil_iff.mpr hfresh]
          rfl
        · rw [← (hother k hk).1, ← (hother k hk).2]
          exact h k
      · rintro ⟨hfresh, h⟩ k
        by_cases hk : k = row.1
        · rw [hk]
          exact hsame.mpr hfresh
        · rw [(hother k hk).1, (hother k hk).2]
          exact h k

end Dict

/-! ## Groups under other keys -/

section Groups

variable {β : Type u} {κ : Type v} [DecidableEq β] [DecidableEq κ] {l : List β}
  {rows : List (β × Nat)} {label : β → κ}

/-- The rows under the labels of their groups. -/
def relabel (label : β → κ) (rows : List (β × Nat)) : List (κ × Nat) :=
  rows.map fun row ↦ (label row.1, row.2)

theorem countBy_singleton (a : β) : countBy [a] = [(a, 1)] := by
  simp [countBy, distinctOn]

/-- The counts of all keys add up, as long as each is listed once. -/
theorem sum_countP_groups (label : β → κ) {groups : List κ} (hgroups : groups.Nodup)
    (hl : ∀ a ∈ l, label a ∈ groups) :
    (groups.map fun g ↦ l.countP fun a ↦ label a = g).sum = l.length := by
  have hones : ∀ L : List β, (L.map fun _ ↦ 1).sum = L.length := by
    intro L
    rw [List.map_const', List.sum_replicate, nsmul_eq_mul, Nat.cast_id, mul_one]
  rw [← hones, ← sum_groups label _ hgroups hl]
  simp only [hones, List.countP_eq_length_filter]

/-- The groups of a label have the rows of that label between them. -/
theorem sum_valuesOf_countBy (l : List β) (label : β → κ) (k : κ) :
    (valuesOf (relabel label (countBy l)) k).sum = l.countP fun a ↦ label a = k := by
  have hvalues : valuesOf (relabel label (countBy l)) k =
      (distinctOn id (l.filter fun a ↦ label a = k)).map fun g ↦ l.countP fun a ↦ a = g := by
    have hfilter := filter_distinctOn id (fun a ↦ decide (label a = k)) l
    simp only [id] at hfilter
    rw [← hfilter, valuesOf, relabel, countBy, List.map_map, List.filter_map, List.map_map]
    rfl
  have hcount : ∀ g ∈ distinctOn id (l.filter fun a ↦ label a = k),
      (l.countP fun a ↦ a = g) = (l.filter fun a ↦ label a = k).countP fun a ↦ id a = g := by
    intro g hg
    have hlabel := (List.mem_filter.mp (mem_distinctOn_id.mp hg)).2
    rw [List.countP_filter]
    apply List.countP_congr
    intro a _
    by_cases ha : a = g
    · subst ha
      simp only [id, decide_true, hlabel, Bool.and_self]
    · simp only [id, ha, decide_false, Bool.false_and]
  rw [hvalues, List.map_congr_left hcount, List.countP_eq_length_filter]
  exact sum_countP_groups id (nodup_distinctOn_id _) fun a ha ↦ mem_distinctOn_id.mpr ha

/-- Grouped rows keep their counts under other keys exactly if different ones get different
keys. -/
theorem dictOf_relabel_iff (hrows : rows.Perm (countBy l)) :
    (∀ k, (dictOf (relabel label rows) k).getD 0 = l.countP fun a ↦ label a = k) ↔
      ∀ a ∈ l, ∀ b ∈ l, label a = label b → a = b := by
  have hperm : (relabel label rows).Perm (relabel label (countBy l)) := hrows.map _
  have hpos : ∀ row ∈ relabel label rows, 0 < row.2 := by
    intro row hrow
    obtain ⟨r, hr, rfl⟩ := List.mem_map.mp (hperm.mem_iff.mp hrow)
    obtain ⟨g, hg, rfl⟩ := List.mem_map.mp hr
    exact List.countP_pos_iff.mpr ⟨g, mem_distinctOn_id.mp hg, decide_eq_true rfl⟩
  have hkeys : ((relabel label rows).map Prod.fst).Perm ((distinctOn id l).map label) := by
    refine (hperm.map Prod.fst).trans (List.Perm.of_eq ?_)
    rw [relabel, countBy, List.map_map, List.map_map]
    rfl
  have hnodup : ((relabel label rows).map Prod.fst).Nodup ↔
      ∀ a ∈ l, ∀ b ∈ l, label a = label b → a = b := by
    rw [hkeys.nodup_iff, List.nodup_map_iff_inj_on (nodup_distinctOn_id l)]
    simp only [mem_distinctOn_id]
  rw [← hnodup, ← dictOf_eq_sum_iff hpos]
  refine forall_congr' fun k ↦ ?_
  have hsum : (valuesOf (relabel label rows) k).sum = (valuesOf (relabel label (countBy l)) k).sum :=
    ((hperm.filter _).map Prod.snd).sum_eq
  rw [hsum, sum_valuesOf_countBy]

end Groups

end Genjishimada.Library
