import Genjishimada.Library.Ranking
import Genjishimada.Library.Table
import Mathlib.Data.List.Nodup
import Mathlib.Data.List.Perm.Basic

/-!
# Lists kept in an order of their own

Rows that carry the position they are shown at, in a table whose statements
read them `ORDER BY` that position.  `renumber` writes `1, 2, 3, …` down a
list, and the two statements that change positions are

* `normalize`, which gives each row its `ROW_NUMBER()`;
* `swapPositions`, which exchanges the positions of two rows.

A sort of rows with equal positions is free to order them as it likes; each
statement here takes the `Shuffle` it saw the rows in.  Where the positions are
distinct nothing depends on it (`listing_eq`): a table has one listing, and
exchanging two neighbours and renumbering is one transposition of it
(`listing_normalize_swapPositions`).
-/

namespace Genjishimada.Library

universe u v

/-- Rows that carry their position in a list. -/
class Positioned (α : Type u) extends Keyed α where
  /-- The position of a row. -/
  pos : α → Nat
  /-- The row at another position. -/
  setPos : Nat → α → α
  pos_setPos : ∀ n a, pos (setPos n a) = n
  key_setPos : ∀ n a, key (setPos n a) = key a
  setPos_setPos : ∀ m n a, setPos m (setPos n a) = setPos m a
  setPos_pos : ∀ a, setPos (pos a) a = a

export Positioned (pos setPos)

attribute [simp] Positioned.pos_setPos Positioned.key_setPos Positioned.setPos_setPos
  Positioned.setPos_pos

variable {α : Type u} [Positioned α] {β : Type v} [Positioned β] {l l' : List α} {x y n : Nat}

/-! ## Renumbering -/

/-- The list with the positions `1, 2, 3, …`. -/
def renumber (l : List α) : List α := l.mapIdx fun i a ↦ setPos (i + 1) a

@[simp] theorem length_renumber (l : List α) : (renumber l).length = l.length :=
  List.length_mapIdx

theorem map_pos_renumber (l : List α) : (renumber l).map pos = List.range' 1 l.length := by
  apply List.ext_getElem
  · simp
  · intro i hi hi'
    simp [renumber, Nat.add_comm]

@[simp] theorem map_key_renumber (l : List α) : (renumber l).map key = l.map key := by
  apply List.ext_getElem
  · simp
  · intro i hi hi'
    simp [renumber]

/-- A renumbered list is strictly sorted. -/
theorem pairwise_renumber (l : List α) : (renumber l).Pairwise fun a b ↦ pos a < pos b := by
  have h : ((renumber l).map pos).Pairwise (· < ·) := by
    rw [map_pos_renumber]
    exact List.pairwise_lt_range'
  exact List.pairwise_map.mp h

theorem renumber_eq_self (h : l.map pos = List.range' 1 l.length) : renumber l = l := by
  apply List.ext_getElem
  · simp
  · intro i hi hi'
    have hpos : pos l[i] = i + 1 := by
      have := List.getElem_of_eq h (by simpa using hi')
      simpa [Nat.add_comm] using this
    simp [renumber, ← hpos]

/-- The rows of a list without their positions. -/
def unplaced (l : List α) : List α := l.map (setPos 0)

@[simp] theorem unplaced_renumber (l : List α) : unplaced (renumber l) = unplaced l := by
  apply List.ext_getElem
  · simp [unplaced]
  · intro i hi hi'
    simp [unplaced, renumber]

/-- What a renumbered list holds does not depend on the positions before. -/
theorem renumber_unplaced (l : List α) : renumber (unplaced l) = renumber l := by
  apply List.ext_getElem
  · simp [unplaced]
  · intro i hi hi'
    simp [unplaced, renumber]

theorem renumber_congr (h : unplaced l = unplaced l') : renumber l = renumber l' := by
  rw [← renumber_unplaced l, h, renumber_unplaced]

/-- Showing the rows and renumbering commute. -/
theorem map_renumber {f : α → β} (hf : ∀ n a, f (setPos n a) = setPos n (f a)) (l : List α) :
    (renumber l).map f = renumber (l.map f) := by
  apply List.ext_getElem
  · simp
  · intro i hi hi'
    simp [renumber, hf]

/-! ## Precedence -/

/-- The row of `x` stands before that of `y`. -/
def Precedes (l : List α) (x y : Nat) : Prop := [x, y].Sublist (l.map key)

/-- Exchanging two neighbours moves no other pair. -/
theorem precedes_swap {before after : List α} {a b : α} (h : ¬ (x = key a ∧ y = key b))
    (h' : ¬ (x = key b ∧ y = key a)) :
    Precedes (before ++ a :: b :: after) x y ↔ Precedes (before ++ b :: a :: after) x y := by
  simp only [Precedes, List.map_append, List.map_cons]
  generalize before.map key = l₁
  generalize after.map key = l₂
  induction l₁ with
  | nil =>
      simp only [List.nil_append, List.cons_sublist_cons', List.singleton_sublist]
      grind
  | cons c l₁ ih =>
      simp only [List.cons_append, List.cons_sublist_cons', List.singleton_sublist, List.mem_append,
        List.mem_cons] at ih ⊢
      grind

/-! ## The listing of a table -/

variable {t : Table α} {σ τ : Shuffle α}

/-- `SELECT … ORDER BY pos`, the rows being seen in the order `σ` has them. -/
def listing (σ : Shuffle α) (t : Table α) : List α := orderBy pos (σ.order t.rows)

theorem listing_perm (σ : Shuffle α) (t : Table α) : (listing σ t).Perm t.rows :=
  (perm_orderBy pos _).trans (σ.perm t.rows)

theorem mem_listing {a : α} : a ∈ listing σ t ↔ a ∈ t.rows := (listing_perm σ t).mem_iff

theorem nodup_map_key_listing (σ : Shuffle α) (t : Table α) : ((listing σ t).map key).Nodup :=
  ((listing_perm σ t).map key).nodup_iff.mpr t.nodup

/-- The rows in strictly increasing positions are the listing. -/
theorem listing_eq (hl : l.Pairwise fun a b ↦ pos a < pos b) (hp : l.Perm t.rows) :
    listing σ t = l := by
  have hperm : (listing σ t).Perm l := (listing_perm σ t).trans hp.symm
  have hnodup : (l.map pos).Nodup := List.pairwise_map.mpr (hl.imp fun h ↦ h.ne)
  refine List.Perm.eq_of_pairwise ?_ (pairwise_orderBy pos _) (hl.imp fun h ↦ h.le) hperm
  intro a b ha hb hab hba
  exact List.inj_on_of_nodup_map hnodup (hperm.subset ha) hb (le_antisymm hab hba)

/-- The listing of rows at distinct positions is strictly sorted. -/
theorem pairwise_listing (h : (t.rows.map pos).Nodup) :
    (listing σ t).Pairwise fun a b ↦ pos a < pos b := by
  have hmap : ((listing σ t).map pos).Nodup := ((listing_perm σ t).map pos).nodup_iff.mpr h
  exact pairwise_lt_orderBy (((perm_orderBy pos _).map pos).nodup_iff.mp hmap)

/-- Rows at distinct positions have one listing. -/
theorem listing_congr (h : (t.rows.map pos).Nodup) (σ τ : Shuffle α) : listing σ t = listing τ t :=
  listing_eq (pairwise_listing h) (listing_perm τ t)

/-- The positions are exactly `1, …, n`. -/
def Sequential (t : Table α) : Prop := (t.rows.map pos).Perm (List.range' 1 t.rows.length)

theorem Sequential.nodup (h : Sequential t) : (t.rows.map pos).Nodup :=
  h.nodup_iff.mpr List.nodup_range'

theorem Sequential.map_pos_listing (h : Sequential t) (σ : Shuffle α) :
    (listing σ t).map pos = List.range' 1 (listing σ t).length := by
  rw [(listing_perm σ t).length_eq]
  have hp : ((listing σ t).map pos).Perm (List.range' 1 t.rows.length) :=
    ((listing_perm σ t).map pos).trans h
  have hle : ((listing σ t).map pos).Pairwise (· ≤ ·) :=
    List.pairwise_map.mpr (pairwise_orderBy pos _)
  have hrange : (List.range' 1 t.rows.length).Pairwise (· ≤ ·) := List.pairwise_le_range'
  exact List.Perm.eq_of_pairwise' hle hrange hp

theorem Sequential.renumber_listing (h : Sequential t) (σ : Shuffle α) :
    renumber (listing σ t) = listing σ t := renumber_eq_self (h.map_pos_listing σ)

/-- A table is in sequence as soon as a listing of it is. -/
theorem sequential_of_listing (h : (listing σ t).map pos = List.range' 1 (listing σ t).length) :
    Sequential t := by
  have hp := ((listing_perm σ t).map pos).symm
  rwa [h, (listing_perm σ t).length_eq] at hp

/-! ## The statements -/

/-- `ROW_NUMBER() OVER (ORDER BY pos)` of the row of a key. -/
def rowNumber (σ : Shuffle α) (t : Table α) (k : Nat) : Nat :=
  ((listing σ t).map key).idxOf k + 1

/-- `UPDATE … SET pos = ranked.rn FROM (SELECT id, ROW_NUMBER() …) AS ranked WHERE c.id = ranked.id`. -/
def normalize (σ : Shuffle α) (t : Table α) : Table α :=
  t.modify (fun _ ↦ true) (fun r ↦ setPos (rowNumber σ t (key r)) r)
    fun _ ↦ Positioned.key_setPos _ _

/-- `UPDATE … SET pos = CASE … END FROM … AS self, … AS other`: the rows of `x` and `y` exchange
their positions, if both are there. -/
def swapPositions (x y : Nat) (t : Table α) : Table α :=
  match t.get? x, t.get? y with
  | some self, some other =>
      t.modify (fun r ↦ key r = x || key r = y)
        (fun r ↦ setPos (if key r = x then pos other else pos self) r)
        fun _ ↦ Positioned.key_setPos _ _
  | _, _ => t

/-- `COALESCE(MAX(pos), 0) + 1`. -/
def nextPosition (t : Table α) : Nat := (t.rows.map pos).max?.getD 0 + 1

theorem map_rowNumber (σ : Shuffle α) (t : Table α) :
    (listing σ t).map (fun r ↦ setPos (rowNumber σ t (key r)) r) = renumber (listing σ t) := by
  apply List.ext_getElem
  · simp
  · intro i hi hi'
    have hnodup := nodup_map_key_listing σ t
    have hidx := hnodup.idxOf_getElem i (by simpa using hi)
    rw [List.getElem_map] at hidx
    simp [renumber, rowNumber, hidx]

/-- Numbering the rows renumbers the listing. -/
theorem listing_normalize (σ τ : Shuffle α) (t : Table α) :
    listing τ (normalize σ t) = renumber (listing σ t) := by
  refine listing_eq (pairwise_renumber _) ?_
  rw [← map_rowNumber]
  simpa [normalize] using (listing_perm σ t).map fun r ↦ setPos (rowNumber σ t (key r)) r

/-- However the positions were, numbering leaves `1, …, n`. -/
theorem sequential_normalize (σ : Shuffle α) (t : Table α) : Sequential (normalize σ t) := by
  refine sequential_of_listing (σ := σ) ?_
  rw [listing_normalize, map_pos_renumber, length_renumber]

theorem lt_nextPosition {r : α} (hr : r ∈ t.rows) : pos r < nextPosition t := by
  have hmem : pos r ∈ t.rows.map pos := List.mem_map_of_mem hr
  have hle := List.le_max?_getD_of_mem (k := 0) hmem
  exact Nat.lt_succ_of_le hle

theorem nextPosition_of_sequential (h : Sequential t) : nextPosition t = t.rows.length + 1 := by
  refine congrArg (· + 1) ?_
  cases hlen : t.rows.length with
  | zero =>
      rw [List.length_eq_zero_iff] at hlen
      simp [hlen]
  | succ n =>
      have hmax : (t.rows.map pos).max? = some (n + 1) := by
        refine List.max?_eq_some_iff.mpr ⟨?_, fun b hb ↦ ?_⟩
        · exact h.symm.subset (List.mem_range'_1.mpr (by omega))
        · have := List.mem_range'_1.mp (h.subset hb)
          omega
      simp [hmax]

/-- A row inserted after all others is listed last. -/
theorem listing_insert {mk : Nat → α} {hk} (h : (t.rows.map pos).Nodup)
    (hmk : ∀ r ∈ t.rows, pos r < pos (mk t.nextId)) :
    listing τ (t.insert mk hk) = listing σ t ++ [mk t.nextId] := by
  refine listing_eq ?_ ((listing_perm σ t).append_right _)
  refine List.pairwise_append.mpr ⟨pairwise_listing h, List.pairwise_singleton _ _, ?_⟩
  intro a ha b hb
  rw [List.mem_singleton.mp hb]
  exact hmk a (mem_listing.mp ha)

theorem sequential_insert {mk : Nat → α} {hk} (h : Sequential t)
    (hmk : pos (mk t.nextId) = nextPosition t) : Sequential (t.insert mk hk) := by
  rw [nextPosition_of_sequential h] at hmk
  have hrange : List.range' 1 (t.rows.length + 1) = List.range' 1 t.rows.length ++ [t.rows.length + 1] := by
    rw [List.range'_1_concat, Nat.add_comm 1]
  rw [Sequential, Table.rows_insert, List.map_append, List.map_singleton, List.length_append,
    List.length_singleton, hmk, hrange]
  exact h.append_right _

/-- An update that leaves the positions alone leaves them `1, …, n`. -/
theorem sequential_modify {p : α → Bool} {f : α → α} (hf : ∀ r, key (f r) = key r)
    (h : Sequential t) (hpos : ∀ r, pos (f r) = pos r) : Sequential (t.modify p f hf) := by
  have hmap : (t.rows.map fun r ↦ if p r then f r else r).map pos = t.rows.map pos := by
    rw [List.map_map]
    refine List.map_congr_left fun r _ ↦ ?_
    simp only [Function.comp_apply]
    split
    · exact hpos r
    · rfl
  rw [Sequential, Table.rows_modify, hmap, List.length_map]
  exact h

/-- The rows that stay keep their order when others are deleted. -/
theorem listing_delete (h : (t.rows.map pos).Nodup) (p : α → Bool) :
    listing τ (t.delete p) = (listing σ t).filter fun r ↦ !p r :=
  listing_eq ((pairwise_listing h).filter _) ((listing_perm σ t).filter _)

theorem nodup_map_pos_delete (h : (t.rows.map pos).Nodup) (p : α → Bool) :
    ((t.delete p).rows.map pos).Nodup := h.sublist (List.filter_sublist.map pos)

/-- Deleting rows and numbering the rest: the list without them, renumbered. -/
theorem listing_normalize_delete (h : (t.rows.map pos).Nodup) (p : α → Bool) (υ : Shuffle α) :
    listing τ (normalize υ (t.delete p)) = renumber ((listing σ t).filter fun r ↦ !p r) := by
  rw [listing_normalize, listing_delete (σ := σ) h]

theorem swapPositions_of_get? {self other : α} (hx : t.get? x = some self) (hy : t.get? y = some other) :
    (swapPositions x y t).rows = t.rows.map fun r ↦
      if key r = x || key r = y then setPos (if key r = x then pos other else pos self) r else r := by
  rw [swapPositions, hx, hy]
  rfl

/-- Which of the two rows is named first does not matter. -/
theorem swapPositions_comm (x y : Nat) (t : Table α) : swapPositions x y t = swapPositions y x t := by
  cases hx : t.get? x with
  | none => cases hy : t.get? y <;> simp [swapPositions, hx, hy]
  | some self =>
      cases hy : t.get? y with
      | none => simp [swapPositions, hx, hy]
      | some other =>
          apply Table.ext
          · rw [swapPositions_of_get? hx hy, swapPositions_of_get? hy hx]
            refine List.map_congr_left fun r _ ↦ ?_
            by_cases hrx : key r = x <;> by_cases hry : key r = y
            · have hself : self = other := by
                rw [hrx] at hry
                rw [hry, hy] at hx
                exact (Option.some.inj hx).symm
              simp [hrx, hself]
            · subst hrx
              simp [hry]
            · subst hry
              simp [hrx]
            · simp [hrx, hry]
          · simp [swapPositions, hx, hy]

/-- Exchanging the positions of two neighbours of the listing exchanges the two rows. -/
theorem listing_swapPositions {before after : List α} {a b : α} (h : (t.rows.map pos).Nodup)
    (hl : listing σ t = before ++ a :: b :: after) :
    listing τ (swapPositions (key a) (key b) t) =
      before ++ setPos (pos a) b :: setPos (pos b) a :: after := by
  have hmem {r : α} (hr : r ∈ before ++ a :: b :: after) : r ∈ t.rows := mem_listing.mp (hl ▸ hr)
  have ha := t.get?_of_mem (hmem (r := a) (by simp))
  have hb := t.get?_of_mem (hmem (r := b) (by simp))
  have hkeys := hl ▸ nodup_map_key_listing σ t
  have hlt := hl ▸ pairwise_listing (σ := σ) h
  refine listing_eq ?_ ?_
  · -- the positions down the list are those of before
    have hpos : (before ++ setPos (pos a) b :: setPos (pos b) a :: after).map pos =
        (before ++ a :: b :: after).map pos := by simp
    exact List.pairwise_map.mp (hpos ▸ List.pairwise_map.mpr hlt)
  · rw [swapPositions_of_get? ha hb]
    refine .trans ?_ ((hl ▸ listing_perm σ t).map _)
    rw [List.map_append, List.map_cons, List.map_cons, List.nodup_append, List.nodup_cons,
      List.nodup_cons] at hkeys
    obtain ⟨-, ⟨hafter, hbafter, -⟩, hbefore⟩ := hkeys
    obtain ⟨hab, haafter⟩ := not_or.mp (List.mem_cons.not.mp hafter)
    -- the other rows are left alone
    have hfix (m : List α) (hm : ∀ r ∈ m, key r ≠ key a ∧ key r ≠ key b) : (m.map fun r ↦
        if key r = key a || key r = key b then setPos (if key r = key a then pos b else pos a) r else r) =
        m := by
      refine (List.map_congr_left fun r hr ↦ ?_).trans (List.map_id m)
      simp [hm r hr]
    rw [List.map_append, List.map_cons, List.map_cons, hfix before, hfix after]
    · have hswap := List.Perm.swap (setPos (pos b) a) (setPos (pos a) b) after
      simpa [Ne.symm hab] using hswap.append_left before
    · intro r hr
      have hr := List.mem_map_of_mem (f := key) hr
      exact ⟨fun h ↦ haafter (h ▸ hr), fun h ↦ hbafter (h ▸ hr)⟩
    · intro r hr
      have hr := List.mem_map_of_mem (f := key) hr
      exact ⟨hbefore _ hr _ (by simp), hbefore _ hr _ (by simp)⟩

/-- The two statements of a reorder: one transposition of the listing, renumbered. -/
theorem listing_normalize_swapPositions {before after : List α} {a b : α}
    (h : (t.rows.map pos).Nodup) (hl : listing σ t = before ++ a :: b :: after) (υ : Shuffle α) :
    listing τ (normalize υ (swapPositions (key a) (key b) t)) =
      renumber (before ++ b :: a :: after) := by
  rw [listing_normalize, listing_swapPositions h hl]
  refine renumber_congr ?_
  simp [unplaced]

end Genjishimada.Library
