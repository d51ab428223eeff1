import Mathlib.Data.List.Nodup
import Mathlib.Algebra.Order.Group.Multiset
import Mathlib.Logic.Function.Basic
import Mathlib.Tactic.Common

/-!
# Tables with an identity primary key

A `Table α` is a list of rows together with the proofs that no two rows share a
key and that the next identity value is unused, so that a table with a duplicate
key cannot be built.  The three statements that change one are `modify`
(`UPDATE … SET … WHERE …`), `insert` (`INSERT`, with a generated key) and `delete`
(`DELETE … WHERE …`); what they do to a row is read off `get?` and `mem_…`.
-/

namespace Genjishimada.Library

universe u

/-- Rows that carry an integer primary key. -/
class Keyed (α : Type u) where
  /-- The primary key of a row. -/
  key : α → Nat

export Keyed (key)

/-- Rows with pairwise distinct keys, all below the next identity value. -/
@[ext]
structure Table (α : Type u) [Keyed α] where
  /-- The rows, in insertion order. -/
  rows : List α
  /-- The value the identity column generates next. -/
  nextId : Nat
  /-- No two rows share a key. -/
  nodup : (rows.map key).Nodup
  /-- The next identity value is unused. -/
  fresh : ∀ r ∈ rows, key r < nextId

namespace Table

variable {α : Type u} [Keyed α] {t : Table α} {k : Nat} {r r' : α}

/-- The empty table. -/
def empty : Table α := ⟨[], 1, by simp, by simp⟩

instance : Inhabited (Table α) := ⟨empty⟩

/-- The row of a key. -/
def get? (t : Table α) (k : Nat) : Option α := t.rows.find? fun r ↦ key r = k

/-- `SELECT … WHERE p`, in insertion order. -/
def select (t : Table α) (p : α → Bool) : List α := t.rows.filter p

/-- `UPDATE … SET f WHERE p`, for an `f` that leaves the key alone. -/
def modify (t : Table α) (p : α → Bool) (f : α → α)
    (hf : ∀ r, key (f r) = key r := by intro _; rfl) : Table α where
  rows := t.rows.map fun r ↦ if p r then f r else r
  nextId := t.nextId
  nodup := by
    have h : (key ∘ fun r ↦ if p r then f r else r) = (key : α → Nat) := by
      funext r
      simp only [Function.comp_apply]
      split
      · exact hf r
      · rfl
    rw [List.map_map, h]
    exact t.nodup
  fresh := by
    intro r hr
    obtain ⟨s, hs, rfl⟩ := List.mem_map.mp hr
    split
    · rw [hf]
      exact t.fresh s hs
    · exact t.fresh s hs

/-- `INSERT`, the key being generated by the identity column. -/
def insert (t : Table α) (mk : Nat → α) (hk : ∀ n, key (mk n) = n := by exact @Eq.refl Nat) :
    Table α where
  rows := t.rows ++ [mk t.nextId]
  nextId := t.nextId + 1
  nodup := by
    rw [List.map_append, List.map_singleton, hk]
    refine List.nodup_append.mpr ⟨t.nodup, List.nodup_singleton _, ?_⟩
    intro a ha b hb hab
    obtain ⟨s, hs, rfl⟩ := List.mem_map.mp ha
    rw [List.mem_singleton] at hb
    exact absurd (t.fresh s hs) (by omega)
  fresh := by
    intro r hr
    rcases List.mem_append.mp hr with hr | hr
    · exact Nat.lt_succ_of_lt (t.fresh r hr)
    · rw [List.mem_singleton.mp hr, hk]
      exact Nat.lt_succ_self _

/-- `DELETE … WHERE p`. -/
def delete (t : Table α) (p : α → Bool) : Table α where
  rows := t.rows.filter fun r ↦ !p r
  nextId := t.nextId
  nodup := t.nodup.sublist (List.filter_sublist.map _)
  fresh := fun r hr ↦ t.fresh r (List.mem_filter.mp hr).1

/-- The table once its identity column has reached `n`; a failed `INSERT` does not give its value
back. -/
def skipTo (t : Table α) (n : Nat) : Table α where
  rows := t.rows
  nextId := max t.nextId n
  nodup := t.nodup
  fresh := fun r hr ↦ Nat.lt_of_lt_of_le (t.fresh r hr) (Nat.le_max_left _ _)

/-- `INSERT … ON CONFLICT (key) DO UPDATE SET f`, for a key the caller supplies. -/
def upsert (t : Table α) (r : α) (f : α → α)
    (hf : ∀ r, key (f r) = key r := by intro _; rfl) : Table α where
  rows :=
    if (t.get? (key r)).isSome then (t.modify (fun s ↦ key s = key r) f hf).rows
    else t.rows ++ [r]
  nextId := max t.nextId (key r + 1)
  nodup := by
    split
    · exact (t.modify _ f hf).nodup
    · rename_i h
      rw [List.map_append, List.map_singleton]
      refine List.nodup_append.mpr ⟨t.nodup, List.nodup_singleton _, ?_⟩
      intro a ha b hb hab
      obtain ⟨s, hs, rfl⟩ := List.mem_map.mp ha
      rw [List.mem_singleton] at hb
      refine h (List.find?_isSome.mpr ⟨s, hs, ?_⟩)
      simpa [hb] using hab
  fresh := by
    intro s hs
    split at hs
    · exact Nat.lt_of_lt_of_le ((t.modify _ f hf).fresh s hs) (Nat.le_max_left _ _)
    · rcases List.mem_append.mp hs with hs | hs
      · exact Nat.lt_of_lt_of_le (t.fresh s hs) (Nat.le_max_left _ _)
      · rw [List.mem_singleton.mp hs]
        exact Nat.le_max_right _ _

/-! ## Rows and keys -/

@[simp] theorem rows_empty : (empty : Table α).rows = [] := rfl

@[simp] theorem rows_modify (p : α → Bool) (f : α → α) (hf) :
    (t.modify p f hf).rows = t.rows.map fun r ↦ if p r then f r else r := rfl

@[simp] theorem rows_insert (mk : Nat → α) (hk) :
    (t.insert mk hk).rows = t.rows ++ [mk t.nextId] := rfl

@[simp] theorem rows_delete (p : α → Bool) : (t.delete p).rows = t.rows.filter fun r ↦ !p r := rfl

@[simp] theorem rows_skipTo (n : Nat) : (t.skipTo n).rows = t.rows := rfl

@[simp] theorem nextId_modify (p : α → Bool) (f : α → α) (hf) :
    (t.modify p f hf).nextId = t.nextId := rfl

@[simp] theorem nextId_insert (mk : Nat → α) (hk) : (t.insert mk hk).nextId = t.nextId + 1 := rfl

@[simp] theorem nextId_delete (p : α → Bool) : (t.delete p).nextId = t.nextId := rfl

/-- Two rows of a table with one key are one row. -/
theorem eq_of_key_eq (hr : r ∈ t.rows) (hr' : r' ∈ t.rows) (h : key r = key r') : r = r' :=
  List.inj_on_of_nodup_map t.nodup hr hr' h

/-- A table has no duplicate row. -/
theorem rows_nodup (t : Table α) : t.rows.Nodup := List.Nodup.of_map _ t.nodup

/-- Looking a key up finds the one row that carries it. -/
theorem get?_eq_some_iff : t.get? k = some r ↔ r ∈ t.rows ∧ key r = k := by
  constructor
  · intro h
    exact ⟨List.mem_of_find?_eq_some h, by simpa using List.find?_some h⟩
  · rintro ⟨hr, rfl⟩
    cases h : t.get? (key r) with
    | none =>
        have := List.find?_eq_none.mp h r hr
        simp at this
    | some s =>
        have hs : s ∈ t.rows := List.mem_of_find?_eq_some h
        have hk : key s = key r := by simpa using List.find?_some h
        rw [eq_of_key_eq hs hr hk]

/-- A key is not found when no row carries it. -/
theorem get?_eq_none_iff : t.get? k = none ↔ ∀ r ∈ t.rows, key r ≠ k := by
  simp [get?]

theorem get?_of_mem (hr : r ∈ t.rows) : t.get? (key r) = some r :=
  get?_eq_some_iff.mpr ⟨hr, rfl⟩

theorem mem_of_get? (h : t.get? k = some r) : r ∈ t.rows := (get?_eq_some_iff.mp h).1

theorem key_of_get? (h : t.get? k = some r) : key r = k := (get?_eq_some_iff.mp h).2

theorem lt_nextId_of_get? (h : t.get? k = some r) : k < t.nextId := by
  rw [← key_of_get? h]
  exact t.fresh r (mem_of_get? h)

@[simp] theorem get?_nextId : t.get? t.nextId = none :=
  get?_eq_none_iff.mpr fun r hr h ↦ absurd (t.fresh r hr) (by omega)

@[simp] theorem mem_select {p : α → Bool} : r ∈ t.select p ↔ r ∈ t.rows ∧ p r = true :=
  List.mem_filter

/-- Selected rows have pairwise distinct keys. -/
theorem nodup_map_key_select (p : α → Bool) : ((t.select p).map key).Nodup :=
  t.nodup.sublist (List.filter_sublist.map _)

/-! ## What the statements do to a row -/

/-- `UPDATE` rewrites the row of a key when its condition holds of it. -/
@[simp] theorem get?_modify (p : α → Bool) (f : α → α) (hf) :
    (t.modify p f hf).get? k = (t.get? k).map fun r ↦ if p r then f r else r := by
  have h : (fun r : α ↦ decide (key (if p r then f r else r) = k)) = fun r ↦ decide (key r = k) := by
    funext r
    split
    · rw [hf]
    · rfl
  simp only [get?, rows_modify, List.find?_map, Function.comp_def]
  rw [h]

/-- `UPDATE` leaves a row alone when its condition fails on it. -/
theorem get?_modify_of_not {p : α → Bool} {f : α → α} {hf} (h : ∀ r, t.get? k = some r → p r = false) :
    (t.modify p f hf).get? k = t.get? k := by
  rw [get?_modify]
  cases hr : t.get? k with
  | none => rfl
  | some r => simp [h r hr]

theorem mem_modify {p : α → Bool} {f : α → α} {hf} :
    r ∈ (t.modify p f hf).rows ↔ ∃ s ∈ t.rows, (if p s then f s else s) = r := by
  simp

/-- `INSERT` adds the row of the generated key and no other. -/
@[simp] theorem get?_insert (mk : Nat → α) (hk) :
    (t.insert mk hk).get? k = if k = t.nextId then some (mk t.nextId) else t.get? k := by
  by_cases h : k = t.nextId
  · rw [if_pos h, get?_eq_some_iff]
    exact ⟨by simp, by rw [hk, h]⟩
  · rw [if_neg h]
    have hne : ¬ t.nextId = k := fun e ↦ h e.symm
    simp [get?, hk, hne]

theorem mem_insert {mk : Nat → α} {hk} : r ∈ (t.insert mk hk).rows ↔ r ∈ t.rows ∨ r = mk t.nextId := by
  simp

@[simp] theorem mem_delete {p : α → Bool} : r ∈ (t.delete p).rows ↔ r ∈ t.rows ∧ p r = false := by
  simp

/-- `DELETE` removes the row of a key when its condition holds of it. -/
@[simp] theorem get?_delete (p : α → Bool) :
    (t.delete p).get? k = (t.get? k).filter fun r ↦ !p r := by
  cases h : t.get? k with
  | none =>
      rw [get?_eq_none_iff] at h
      exact get?_eq_none_iff.mpr fun r hr ↦ h r (mem_delete.mp hr).1
  | some r =>
      obtain ⟨hr, rfl⟩ := get?_eq_some_iff.mp h
      cases hp : p r with
      | true =>
          have hn : (t.delete p).get? (key r) = none := by
            refine get?_eq_none_iff.mpr fun s hs hk ↦ ?_
            obtain ⟨hs, hps⟩ := mem_delete.mp hs
            rw [eq_of_key_eq hs hr hk, hp] at hps
            exact Bool.noConfusion hps
          rw [hn, Option.filter_some, if_neg (by rw [hp]; decide)]
      | false =>
          rw [get?_of_mem (mem_delete.mpr ⟨hr, hp⟩), Option.filter_some, if_pos (by rw [hp]; rfl)]

/-- `INSERT … ON CONFLICT DO UPDATE` touches the row of the given key and no other. -/
@[simp] theorem get?_upsert (r : α) (f : α → α) (hf) :
    (t.upsert r f hf).get? k =
      if k = key r then some (((t.get? k).map f).getD r) else t.get? k := by
  by_cases h : (t.get? (key r)).isSome
  · have hrows : (t.upsert r f hf).rows = (t.modify (fun s ↦ key s = key r) f hf).rows := if_pos h
    have hget : (t.upsert r f hf).get? k = (t.modify (fun s ↦ key s = key r) f hf).get? k := by
      rw [get?, get?, hrows]
    rw [hget, get?_modify]
    by_cases hk : k = key r
    · obtain ⟨s, hs⟩ := Option.isSome_iff_exists.mp h
      simp [hk, hs, key_of_get? hs]
    · cases hs : t.get? k with
      | none => simp [hk]
      | some s =>
          have hne : ¬ key s = key r := by
            rw [key_of_get? hs]
            exact hk
          simp [hk, hne]
  · have hrows : (t.upsert r f hf).rows = t.rows ++ [r] := if_neg h
    have hnone : t.get? (key r) = none := by simpa using h
    by_cases hk : k = key r
    · subst hk
      rw [if_pos rfl, hnone]
      exact get?_eq_some_iff.mpr ⟨by simp [hrows], rfl⟩
    · have hne : ¬ key r = k := fun e ↦ hk e.symm
      rw [if_neg hk, get?, hrows]
      simp [get?, hne]

/-- `UPDATE` of the row of a key. -/
theorem get?_modify_key {p : α → Bool} {f : α → α} {hf}
    (hp : ∀ r ∈ t.rows, p r = true ↔ key r = k) :
    (t.modify p f hf).get? = Function.update t.get? k ((t.get? k).map f) := by
  funext j
  rw [get?_modify, Function.update_apply]
  split
  · rename_i hj
    subst hj
    refine Option.map_congr fun r hr ↦ if_pos ((hp r (mem_of_get? hr)).mpr (key_of_get? hr))
  · rename_i hj
    cases hr : t.get? j with
    | none => rfl
    | some r =>
        have hnot : ¬ p r = true := fun h ↦
          hj ((key_of_get? hr).symm.trans ((hp r (mem_of_get? hr)).mp h))
        rw [Option.map_some, if_neg hnot]

/-- A condition on the row of a key selects it or nothing. -/
theorem select_key {p : α → Bool} (hp : ∀ r ∈ t.rows, p r = true → key r = k) :
    t.select p = ((t.get? k).filter p).toList := by
  have hnodup : (t.select p).Nodup := t.rows_nodup.filter _
  have hmem (r : α) : r ∈ t.select p ↔ (t.get? k).filter p = some r := by
    rw [mem_select, Option.filter_eq_some_iff, get?_eq_some_iff]
    constructor
    · rintro ⟨hr, hpr⟩
      exact ⟨⟨hr, hp r hr hpr⟩, hpr⟩
    · rintro ⟨⟨hr, -⟩, hpr⟩
      exact ⟨hr, hpr⟩
  cases hfound : (t.get? k).filter p with
  | none =>
      refine List.eq_nil_iff_forall_not_mem.mpr fun r hr ↦ ?_
      rw [hmem, hfound] at hr
      cases hr
  | some r =>
      have hall : ∀ s ∈ t.select p, s = r := fun s hs ↦
        (Option.some.inj (hfound.symm.trans ((hmem s).mp hs))).symm
      exact List.perm_singleton.mp ((List.perm_ext_iff_of_nodup hnodup (List.nodup_singleton r)).mpr
        fun s ↦ ⟨fun hs ↦ List.mem_singleton.mpr (hall s hs), fun hs ↦ by
          rw [List.mem_singleton.mp hs]
          exact (hmem r).mpr hfound⟩)

/-! ## Sums over the rows

`g` lists what each row stands for; `UPDATE` of a single row replaces its share. -/

section FlatMap

variable {β : Type*} {g : α → List β} {p : α → Bool} {f : α → α}

omit [Keyed α] in
theorem coe_flatMap_map {l : List α} (hl : l.Nodup) (hr : r ∈ l)
    (hp : ∀ s ∈ l, p s = true ↔ s = r) :
    (((l.map fun s ↦ if p s then f s else s).flatMap g : List β) : Multiset β) + g r =
      (l.flatMap g : List β) + (g (f r) : Multiset β) := by
  induction l with
  | nil => simp at hr
  | cons a l ih =>
      obtain ⟨ha, hl⟩ := List.nodup_cons.mp hl
      simp only [List.map_cons, List.flatMap_cons, ← Multiset.coe_add]
      by_cases har : a = r
      · subst har
        have hrest : (l.map fun s ↦ if p s then f s else s) = l := by
          refine (List.map_congr_left fun s hs ↦ if_neg fun hps ↦ ha ?_).trans (List.map_id l)
          rwa [← (hp s (List.mem_cons_of_mem _ hs)).mp hps]
        rw [if_pos ((hp a List.mem_cons_self).mpr rfl), hrest]
        ac_rfl
      · have hr : r ∈ l := (List.mem_cons.mp hr).resolve_left fun h ↦ har h.symm
        have hpa : ¬ p a = true := fun h ↦ har ((hp a List.mem_cons_self).mp h)
        rw [if_neg hpa, add_assoc, ih hl hr fun s hs ↦ hp s (List.mem_cons_of_mem _ hs), ← add_assoc]

/-- `UPDATE` of exactly one row. -/
theorem coe_flatMap_modify (hr : r ∈ t.rows) (hp : ∀ s ∈ t.rows, p s = true ↔ s = r) (hf) :
    (((t.modify p f hf).rows.flatMap g : List β) : Multiset β) + g r =
      (t.rows.flatMap g : List β) + (g (f r) : Multiset β) :=
  coe_flatMap_map t.rows_nodup hr hp

/-- `UPDATE` of exactly one row, and how many rows meet a condition. -/
theorem countP_modify (hr : r ∈ t.rows) (hp : ∀ s ∈ t.rows, p s = true ↔ s = r) (hf)
    (q : α → Bool) :
    (t.modify p f hf).rows.countP q + (if q r then 1 else 0) =
      t.rows.countP q + if q (f r) then 1 else 0 := by
  have hcount : ∀ l : List α, l.countP q = (l.flatMap fun s ↦ if q s then [()] else []).length := by
    intro l
    induction l with
    | nil => rfl
    | cons a l ih =>
        rw [List.countP_cons, ih, List.flatMap_cons, List.length_append, Nat.add_comm]
        split <;> rfl
  have hsum := congrArg Multiset.card
    (coe_flatMap_modify (g := fun s ↦ if q s then [()] else []) hr hp hf)
  simp only [Multiset.card_add, Multiset.coe_card, ← hcount] at hsum
  have hlength : ∀ b : Bool, (if b then [()] else []).length = if b then 1 else 0 := by
    rintro (_ | _) <;> rfl
  rw [hlength, hlength] at hsum
  exact hsum

end FlatMap

end Table

end Genjishimada.Library
