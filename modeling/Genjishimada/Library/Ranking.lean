import Mathlib.Algebra.BigOperators.Group.List.Basic
import Mathlib.Data.List.Sort
import Mathlib.Data.Set.Function
import Mathlib.Tactic.Common

/-!
# `ORDER BY`, `DISTINCT ON`, `GROUP BY` and `RANK`

The constructs a leaderboard query is made of, over an arbitrary linear
order of sort keys:

* `orderBy key l` sorts stably by `key`;
* `distinctOn part l` keeps the first row of each group, so that after a sort
  that refines the grouping it keeps each group's best row;
* `countBy l` lists the groups with how many rows each has;
* `rank key l a` is one more than the number of rows strictly before `a`, and
  `percentRank key l a` the share of the other rows that are.

When the keys of the rows are distinct the rank of a row is its position, which
is `rank_getElem`.  A `WHERE` commutes with a sort (`orderBy_filter`) and, when it
keeps or drops whole groups, with `DISTINCT ON` (`filter_distinctOn`).
-/

namespace Genjishimada.Library

universe u v w

variable {α : Type u} {β : Type v} {κ : Type w} [LinearOrder κ] {key : α → κ} {l : List α} {a b : α}

/-! ## `ORDER BY` -/

/-- `ORDER BY key ASC`; rows with equal keys keep their order. -/
def orderBy (key : α → κ) (l : List α) : List α := l.insertionSort fun a b ↦ key a ≤ key b

instance instTotalOrderBy (key : α → κ) : Std.Total fun a b : α ↦ key a ≤ key b := ⟨fun a b ↦ le_total (key a) (key b)⟩

instance instTransOrderBy (key : α → κ) : IsTrans α fun a b ↦ key a ≤ key b := ⟨fun _ _ _ ↦ le_trans⟩

theorem perm_orderBy (key : α → κ) (l : List α) : (orderBy key l).Perm l :=
  List.perm_insertionSort _ l

@[simp] theorem mem_orderBy : a ∈ orderBy key l ↔ a ∈ l := List.mem_insertionSort _

@[simp] theorem length_orderBy : (orderBy key l).length = l.length := List.length_insertionSort _ l

/-- The sorted list is sorted. -/
theorem pairwise_orderBy (key : α → κ) (l : List α) :
    (orderBy key l).Pairwise fun a b ↦ key a ≤ key b := List.pairwise_insertionSort _ l

/-- Sorting by a total order is a normal form of the rows of a list. -/
theorem mergeSort_eq_iff_perm {le : α → α → Bool} {l l' : List α}
    (htrans : ∀ a b c, le a b = true → le b c = true → le a c = true)
    (htotal : ∀ a b, (le a b || le b a) = true)
    (hanti : ∀ a b, le a b = true → le b a = true → a = b) :
    l.mergeSort le = l'.mergeSort le ↔ l.Perm l' := by
  constructor
  · intro h
    exact (List.mergeSort_perm l le).symm.trans (h ▸ List.mergeSort_perm l' le)
  · intro h
    have hperm : (l.mergeSort le).Perm (l'.mergeSort le) :=
      (List.mergeSort_perm l le).trans (h.trans (List.mergeSort_perm l' le).symm)
    exact hperm.eq_of_pairwise (fun a b _ _ ↦ hanti a b)
      (List.pairwise_mergeSort htrans htotal l) (List.pairwise_mergeSort htrans htotal l')

/-- Rows with pairwise distinct keys are sorted strictly. -/
theorem pairwise_lt_orderBy (hl : (l.map key).Nodup) :
    (orderBy key l).Pairwise fun a b ↦ key a < key b := by
  have hn : ((orderBy key l).map key).Nodup := ((perm_orderBy key l).map key).nodup_iff.mpr hl
  have hne : (orderBy key l).Pairwise fun a b ↦ key a ≠ key b := List.pairwise_map.mp hn
  exact (pairwise_orderBy key l).imp₂ (fun _ _ hle hne ↦ lt_of_le_of_ne hle hne) hne

/-- The first row of a sorted list is before every row. -/
theorem orderBy_head_le {t : List α} (h : orderBy key l = a :: t) (hb : b ∈ l) : key a ≤ key b := by
  have hs : (a :: t).Pairwise fun a b ↦ key a ≤ key b := h ▸ pairwise_orderBy key l
  have hb : b ∈ a :: t := h ▸ mem_orderBy.mpr hb
  rcases List.mem_cons.mp hb with rfl | hb
  · exact le_rfl
  · exact (List.pairwise_cons.mp hs).1 b hb

/-- Inserting a row into a sorted list and dropping rows commute. -/
theorem filter_orderedInsert (p : α → Bool) (a : α) {s : List α}
    (hs : s.Pairwise fun a b ↦ key a ≤ key b) :
    (s.orderedInsert (fun a b ↦ key a ≤ key b) a).filter p =
      if p a then (s.filter p).orderedInsert (fun a b ↦ key a ≤ key b) a else s.filter p := by
  induction s with
  | nil => by_cases ha : p a <;> simp [ha]
  | cons b s ih =>
      obtain ⟨hb, hs⟩ := List.pairwise_cons.mp hs
      rw [List.orderedInsert_cons]
      by_cases hab : key a ≤ key b
      · rw [if_pos hab, List.filter_cons]
        split
        · have hle : ∀ c ∈ (b :: s).filter p, key a ≤ key c := by
            intro c hc
            rcases List.mem_cons.mp (List.mem_filter.mp hc).1 with rfl | hc
            · exact hab
            · exact hab.trans (hb c hc)
          cases h : (b :: s).filter p with
          | nil => rfl
          | cons c t => rw [List.orderedInsert_cons, if_pos (hle c (h ▸ List.mem_cons_self))]
        · rfl
      · rw [if_neg hab, List.filter_cons, ih hs, List.filter_cons]
        by_cases ha : p a <;> by_cases hb : p b <;> simp [ha, hb, hab]

/-- Of some rows, one comes before all. -/
theorem exists_first (key : α → κ) (ha : a ∈ l) : ∃ b ∈ l, ∀ c ∈ l, key b ≤ key c := by
  cases h : orderBy key l with
  | nil =>
      have ha : a ∈ orderBy key l := mem_orderBy.mpr ha
      rw [h] at ha
      cases ha
  | cons b t =>
      refine ⟨b, ?_, fun c hc ↦ orderBy_head_le h hc⟩
      have hb : b ∈ orderBy key l := h ▸ List.mem_cons_self
      exact mem_orderBy.mp hb

/-- Dropping rows and sorting commute. -/
theorem orderBy_filter (key : α → κ) (p : α → Bool) (l : List α) :
    orderBy key (l.filter p) = (orderBy key l).filter p := by
  induction l with
  | nil => rfl
  | cons a l ih =>
      have hcons : orderBy key (a :: l) = (orderBy key l).orderedInsert _ a := rfl
      rw [hcons, filter_orderedInsert p a (pairwise_orderBy key l), List.filter_cons]
      split
      · rw [← ih]
        rfl
      · exact ih

/-- Keys that order the rows alike sort them alike. -/
theorem orderBy_congr {κ' : Type w} [LinearOrder κ'] {key' : α → κ'}
    (h : ∀ a ∈ l, ∀ b ∈ l, key a ≤ key b ↔ key' a ≤ key' b) : orderBy key l = orderBy key' l := by
  have hmap := List.map_insertionSort (fun a b ↦ key a ≤ key b) (fun a b ↦ key' a ≤ key' b) id l h
  rwa [List.map_id, List.map_id] at hmap

/-- Rewriting the rows without touching their keys and sorting commute. -/
theorem orderBy_map {f : α → α} (h : ∀ a, key (f a) = key a) (l : List α) :
    orderBy key (l.map f) = (orderBy key l).map f := by
  refine (List.map_insertionSort _ (fun a b ↦ key a ≤ key b) f l fun a _ b _ ↦ ?_).symm
  rw [h, h]

/-- Rewriting only rows that are dropped changes nothing. -/
theorem filter_map_eq_filter {f : α → α} {p : α → Bool}
    (h : ∀ a ∈ l, f a = a ∨ p (f a) = false ∧ p a = false) : (l.map f).filter p = l.filter p := by
  induction l with
  | nil => rfl
  | cons a l ih =>
      have ih := ih fun b hb ↦ h b (List.mem_cons_of_mem a hb)
      rw [List.map_cons, List.filter_cons, List.filter_cons, ih]
      rcases h a List.mem_cons_self with heq | ⟨hnew, hold⟩
      · rw [heq]
      · rw [hnew, hold]
        rfl

/-- An outcome of `ORDER BY random()`: some reordering of the rows. -/
structure Shuffle (α : Type u) where
  order : List α → List α
  perm : ∀ l, (order l).Perm l

instance : Inhabited (Shuffle α) := ⟨⟨id, fun _ ↦ .refl _⟩⟩

theorem Shuffle.mem_order (σ : Shuffle α) : a ∈ σ.order l ↔ a ∈ l := (σ.perm l).mem_iff

@[simp] theorem Shuffle.order_eq_nil_iff (σ : Shuffle α) : σ.order l = [] ↔ l = [] := by
  rw [← List.length_eq_zero_iff, (σ.perm l).length_eq, List.length_eq_zero_iff]

/-- The outcome that has `a` first. -/
def Shuffle.first [DecidableEq α] (a : α) : Shuffle α where
  order l := if a ∈ l then a :: l.erase a else l
  perm l := by
    split
    · exact (List.perm_cons_erase ‹_›).symm
    · exact .refl _

/-- Of the rows that come before all others, a sort may put any first. -/
theorem head?_orderBy_first [DecidableEq α] (ha : a ∈ l) (hfirst : ∀ b ∈ l, key a ≤ key b) :
    (orderBy key ((Shuffle.first a).order l)).head? = some a := by
  have horder : (Shuffle.first a).order l = a :: l.erase a := if_pos ha
  have hsort : orderBy key (a :: l.erase a) = a :: orderBy key (l.erase a) :=
    List.insertionSort_cons_of_forall_rel _ fun b hb ↦ hfirst b (List.mem_of_mem_erase hb)
  rw [horder, hsort, List.head?_cons]

/-! ## `DISTINCT ON` -/

section DistinctOn

variable [DecidableEq β] {part : α → β}

/-- `SELECT DISTINCT ON (part)`: the first row of each group. -/
def distinctOn (part : α → β) : List α → List α
  | [] => []
  | a :: l => a :: (distinctOn part l).filter fun b ↦ part b ≠ part a

theorem mem_of_mem_distinctOn (h : a ∈ distinctOn part l) : a ∈ l := by
  induction l with
  | nil => simp [distinctOn] at h
  | cons b l ih =>
      rw [distinctOn, List.mem_cons, List.mem_filter] at h
      rcases h with rfl | ⟨h, _⟩
      · exact List.mem_cons_self
      · exact List.mem_cons_of_mem _ (ih h)

/-- The kept rows are in pairwise different groups. -/
theorem nodup_map_distinctOn (part : α → β) (l : List α) : ((distinctOn part l).map part).Nodup := by
  induction l with
  | nil => simp [distinctOn]
  | cons a l ih =>
      rw [distinctOn, List.map_cons, List.nodup_cons]
      refine ⟨?_, ih.sublist (List.filter_sublist.map part)⟩
      intro h
      obtain ⟨b, hb, hba⟩ := List.mem_map.mp h
      simp [hba] at hb

/-- Every group of the input is represented. -/
theorem exists_mem_distinctOn (h : a ∈ l) : ∃ b ∈ distinctOn part l, part b = part a := by
  induction l with
  | nil => simp at h
  | cons c l ih =>
      by_cases hc : part a = part c
      · exact ⟨c, List.mem_cons_self, hc.symm⟩
      · have ha : a ∈ l := by
          rcases List.mem_cons.mp h with rfl | h
          · exact absurd rfl hc
          · exact h
        obtain ⟨b, hb, hba⟩ := ih ha
        refine ⟨b, ?_, hba⟩
        rw [distinctOn, List.mem_cons, List.mem_filter]
        exact .inr ⟨hb, by simpa [hba] using hc⟩

/-- `SELECT DISTINCT` keeps every value. -/
@[simp] theorem mem_distinctOn_id {l : List β} {b : β} : b ∈ distinctOn id l ↔ b ∈ l := by
  constructor
  · exact mem_of_mem_distinctOn
  · intro hb
    have hrep : ∃ b' ∈ distinctOn id l, b' = b := exists_mem_distinctOn hb
    obtain ⟨_, hb', rfl⟩ := hrep
    exact hb'

theorem nodup_distinctOn_id (l : List β) : (distinctOn id l).Nodup := by
  have h := nodup_map_distinctOn id l
  rwa [List.map_id] at h

/-- Groupings that put the same rows together keep the same rows. -/
theorem distinctOn_congr {γ : Type w} [DecidableEq γ] {part' : α → γ}
    (h : ∀ a ∈ l, ∀ b ∈ l, part a = part b ↔ part' a = part' b) :
    distinctOn part l = distinctOn part' l := by
  induction l with
  | nil => rfl
  | cons a l ih =>
      have ih := ih fun b hb c hc ↦ h b (List.mem_cons_of_mem _ hb) c (List.mem_cons_of_mem _ hc)
      rw [distinctOn, distinctOn, ih]
      congr 1
      apply List.filter_congr
      intro b hb
      have hb := List.mem_cons_of_mem a (mem_of_mem_distinctOn hb)
      simp only [ne_eq, h b hb a List.mem_cons_self]

/-- Rewriting the rows without moving them between groups and `DISTINCT ON` commute. -/
theorem distinctOn_map {f : α → α} (h : ∀ a, part (f a) = part a) (l : List α) :
    distinctOn part (l.map f) = (distinctOn part l).map f := by
  induction l with
  | nil => rfl
  | cons a l ih =>
      rw [List.map_cons, distinctOn, distinctOn, List.map_cons, ih, List.filter_map]
      congr 2
      apply List.filter_congr
      intro b _
      simp only [Function.comp_apply, h]

/-- Of rows with pairwise different `part`s, at most one has a given one. -/
theorem filter_eq_toList_find? (hl : (l.map part).Nodup) (b : β) :
    l.filter (fun a ↦ part a = b) = (l.find? fun a ↦ part a = b).toList := by
  induction l with
  | nil => rfl
  | cons a l ih =>
      obtain ⟨ha, hl⟩ := List.nodup_cons.mp hl
      by_cases hab : part a = b
      · have hnil : l.filter (fun c ↦ part c = b) = [] := by
          rw [List.filter_eq_nil_iff]
          intro c hc hcb
          apply ha
          rw [hab, ← of_decide_eq_true hcb]
          exact List.mem_map_of_mem hc
        simp [hab, hnil]
      · simp [hab, ih hl]

/-- After a sort, the row kept for a group is its first in the order. -/
theorem distinctOn_le (hl : l.Pairwise fun a b ↦ key a ≤ key b) (ha : a ∈ distinctOn part l)
    (hb : b ∈ l) (hab : part b = part a) : key a ≤ key b := by
  induction l with
  | nil => simp at hb
  | cons c l ih =>
      obtain ⟨hc, hl⟩ := List.pairwise_cons.mp hl
      rw [distinctOn, List.mem_cons, List.mem_filter] at ha
      rcases ha with rfl | ⟨ha, hac⟩
      · rcases List.mem_cons.mp hb with rfl | hb
        · exact le_rfl
        · exact hc b hb
      · rcases List.mem_cons.mp hb with rfl | hb
        · simp [hab] at hac
        · exact ih hl ha hb

/-- Where no group has two first rows, the row kept after a sort is the first of its group. -/
theorem mem_distinctOn_orderBy_iff
    (hinj : ∀ a ∈ l, ∀ b ∈ l, part a = part b → key a = key b → a = b) :
    a ∈ distinctOn part (orderBy key l) ↔ a ∈ l ∧ ∀ b ∈ l, part b = part a → key a ≤ key b := by
  constructor
  · intro ha
    refine ⟨mem_orderBy.mp (mem_of_mem_distinctOn ha), fun b hb hpart ↦ ?_⟩
    exact distinctOn_le (pairwise_orderBy key l) ha (mem_orderBy.mpr hb) hpart
  · rintro ⟨ha, hfirst⟩
    have hkept : ∃ b ∈ distinctOn part (orderBy key l), part b = part a :=
      exists_mem_distinctOn (mem_orderBy.mpr ha)
    obtain ⟨b, hb, hpart⟩ := hkept
    have hmem := mem_orderBy.mp (mem_of_mem_distinctOn hb)
    have hle := distinctOn_le (pairwise_orderBy key l) hb (mem_orderBy.mpr ha) hpart.symm
    obtain rfl : b = a := hinj b hmem a ha hpart (le_antisymm hle (hfirst b hmem hpart))
    exact hb

/-- Of a group, only its first row is kept after a sort. -/
theorem filter_distinctOn_orderBy_eq
    (hinj : ∀ a ∈ l, ∀ b ∈ l, part a = part b → key a = key b → a = b) (ha : a ∈ l)
    (hfirst : ∀ b ∈ l, part b = part a → key a ≤ key b) :
    (distinctOn part (orderBy key l)).filter (fun b ↦ part b = part a) = [a] := by
  rw [filter_eq_toList_find? (nodup_map_distinctOn part _)]
  have hkept : a ∈ distinctOn part (orderBy key l) :=
    (mem_distinctOn_orderBy_iff hinj).mpr ⟨ha, hfirst⟩
  cases hfound : (distinctOn part (orderBy key l)).find? fun b ↦ part b = part a with
  | none => exact absurd (decide_eq_true rfl) (List.find?_eq_none.mp hfound a hkept)
  | some b =>
      have hpart : part b = part a := of_decide_eq_true (List.find?_some hfound :)
      obtain ⟨hb, hbfirst⟩ :=
        (mem_distinctOn_orderBy_iff hinj).mp (List.mem_of_find?_eq_some hfound)
      have hle := hbfirst a ha hpart.symm
      rw [hinj b hb a ha hpart (le_antisymm hle (hfirst b hb hpart))]
      rfl

/-- Dropping whole groups and keeping each group's first row commute. -/
theorem filter_distinctOn (part : α → β) (q : β → Bool) (l : List α) :
    (distinctOn part l).filter (fun a ↦ q (part a)) =
      distinctOn part (l.filter fun a ↦ q (part a)) := by
  induction l with
  | nil => rfl
  | cons a l ih =>
      rw [distinctOn, List.filter_cons, List.filter_cons]
      have hcomm : ((distinctOn part l).filter fun b ↦ part b ≠ part a).filter
          (fun b ↦ q (part b)) =
          (distinctOn part (l.filter fun b ↦ q (part b))).filter fun b ↦ part b ≠ part a := by
        rw [← ih, List.filter_filter, List.filter_filter]
        simp only [Bool.and_comm]
      split
      · rw [distinctOn, hcomm]
      · rename_i ha
        rw [hcomm, ← ih, List.filter_filter]
        refine List.filter_congr fun b _ ↦ ?_
        by_cases hb : part b = part a
        · simp [hb, ha]
        · simp [hb]

/-- Of a group, the first row is kept. -/
theorem filter_distinctOn_eq (part : α → β) (b : β) (l : List α) :
    (distinctOn part l).filter (fun a ↦ part a = b) =
      (l.filter fun a ↦ part a = b).head?.toList := by
  have h := filter_distinctOn part (fun b' ↦ decide (b' = b)) l
  rw [h]
  have hall : ∀ a ∈ l.filter fun a ↦ part a = b, part a = b := by
    intro a ha
    simpa using (List.mem_filter.mp ha).2
  cases hl : l.filter fun a ↦ part a = b with
  | nil => rfl
  | cons a t =>
      rw [hl] at hall
      have hnil : (distinctOn part t).filter (fun c ↦ part c ≠ part a) = [] := by
        rw [List.filter_eq_nil_iff]
        intro c hc
        have hc := hall c (List.mem_cons_of_mem _ (mem_of_mem_distinctOn hc))
        simp [hc, hall a List.mem_cons_self]
      rw [distinctOn, hnil]
      rfl

end DistinctOn

/-! ## `GROUP BY` -/

/-- `SELECT g, count(*) … GROUP BY g`: the groups, and how many rows each has. -/
def countBy [DecidableEq β] (l : List β) : List (β × Nat) :=
  (distinctOn id l).map fun g ↦ (g, l.countP fun a ↦ a = g)

/-- The sums of the groups add up to the sum of all rows, as long as each row's group is listed
once. -/
theorem sum_groups [DecidableEq β] {M : Type w} [AddCommMonoid M] (part : α → β) (f : α → M)
    {groups : List β} (hgroups : groups.Nodup) (hl : ∀ a ∈ l, part a ∈ groups) :
    (groups.map fun g ↦ ((l.filter fun a ↦ part a = g).map f).sum).sum = (l.map f).sum := by
  induction l with
  | nil => simp
  | cons a l ih =>
      have hone : (groups.map fun g ↦ if part a = g then f a else 0).sum = f a := by
        rw [List.sum_map_eq_nsmul_single (part a) _ fun g hg _ ↦ if_neg (Ne.symm hg), if_pos rfl,
          List.count_eq_one_of_mem hgroups (hl a List.mem_cons_self), one_nsmul]
      have hsplit : (groups.map fun g ↦ (((a :: l).filter fun a ↦ part a = g).map f).sum) =
          groups.map fun g ↦ (if part a = g then f a else 0) +
            ((l.filter fun a ↦ part a = g).map f).sum := by
        apply List.map_congr_left
        intro g _
        rw [List.filter_cons]
        by_cases hg : part a = g
        · simp [hg]
        · simp [hg]
      rw [hsplit, List.sum_map_add, hone, ih fun b hb ↦ hl b (List.mem_cons_of_mem a hb),
        List.map_cons, List.sum_cons]

/-- A condition that implies another counts as many rows only if it holds of the same ones. -/
theorem countP_eq_countP_iff {p q : α → Bool} (h : ∀ a ∈ l, p a = true → q a = true) :
    l.countP p = l.countP q ↔ ∀ a ∈ l, q a = true → p a = true := by
  rw [List.countP_eq_length_filter, List.countP_eq_length_filter (p := q)]
  have hfilter : l.filter p = (l.filter q).filter p := by
    rw [List.filter_filter]
    refine List.filter_congr fun a ha ↦ ?_
    cases hp : p a with
    | true => rw [h a ha hp, Bool.true_and]
    | false => rfl
  rw [hfilter, List.length_filter_eq_length_iff]
  simp only [List.mem_filter, and_imp]

/-! ## `RANK` -/

/-- `RANK() OVER (ORDER BY key)`: one more than the number of rows before. -/
def rank (key : α → κ) (l : List α) (a : α) : Nat := 1 + l.countP fun b ↦ key b < key a

/-- A row before which there is none has rank one. -/
theorem rank_eq_one_iff_forall_le : rank key l a = 1 ↔ ∀ b ∈ l, key a ≤ key b := by
  simp [rank]

/-- The rank of a row does not depend on the order the rows are listed in. -/
theorem rank_perm {l' : List α} (h : l.Perm l') : rank key l a = rank key l' a := by
  rw [rank, rank, h.countP_eq]

/-- Fewer rows than there are come before a given one: it does not itself. -/
theorem countP_lt_length (key : α → κ) (ha : a ∈ l) : l.countP (fun b ↦ key b < key a) < l.length := by
  refine lt_of_le_of_ne List.countP_le_length fun h ↦ ?_
  simpa using List.countP_eq_length.mp h a ha

theorem rank_le_length (ha : a ∈ l) : rank key l a ≤ l.length := by
  have h := countP_lt_length key ha
  rw [rank]
  omega

/-- `PERCENT_RANK() OVER (ORDER BY key)`: the share of the other rows that come
before; `0` for a row on its own. -/
def percentRank (key : α → κ) (l : List α) (a : α) : Rat :=
  (l.countP fun b ↦ key b < key a : Nat) / (l.length - 1 : Nat)

/-- In a strictly sorted list the rank of a row is its position. -/
theorem rank_getElem (hl : l.Pairwise fun a b ↦ key a < key b) (i : Nat) (hi : i < l.length) :
    rank key l l[i] = i + 1 := by
  induction l generalizing i with
  | nil => simp at hi
  | cons c l ih =>
      obtain ⟨hc, hl⟩ := List.pairwise_cons.mp hl
      cases i with
      | zero =>
          rw [List.getElem_cons_zero, rank_eq_one_iff_forall_le]
          intro b hb
          rcases List.mem_cons.mp hb with rfl | hb
          · exact le_rfl
          · exact (hc b hb).le
      | succ i =>
          have hi' : i < l.length := by simpa using hi
          have hlt : key c < key l[i] := hc _ (List.getElem_mem hi')
          have h := ih hl i hi'
          rw [rank] at h ⊢
          rw [List.getElem_cons_succ, List.countP_cons_of_pos (by simpa using hlt)]
          omega

/-- The rows of one side of a cut rank by their own number: if the `n` rows of
`p` all come before every other row, a row satisfies `p` exactly when its rank
is at most `n`. -/
theorem rank_le_countP_iff {p : α → Bool} (hp : ∀ a ∈ l, ∀ b ∈ l, p a → ¬ p b → key a < key b)
    (ha : a ∈ l) : rank key l a ≤ l.countP p ↔ p a = true := by
  constructor
  · intro h
    by_contra hpa
    have hle : l.countP p ≤ l.countP fun b ↦ key b < key a :=
      List.countP_mono_left fun b hb hpb ↦ by simpa using hp b hb a ha hpb hpa
    rw [rank] at h
    omega
  · intro hpa
    have hsub : ∀ b ∈ l, decide (key b < key a) → p b := by
      intro b hb hlt
      by_contra hpb
      have := hp a ha b hb hpa hpb
      exact absurd (lt_trans this (by simpa using hlt)) (lt_irrefl _)
    have hlt := countP_lt_length key (List.mem_filter.mpr ⟨ha, hpa⟩ : a ∈ l.filter p)
    have heq : l.countP (fun b ↦ key b < key a) = (l.filter p).countP fun b ↦ key b < key a := by
      rw [List.countP_filter]
      refine List.countP_congr fun b hb ↦ ?_
      constructor
      · intro h
        simpa [hsub b hb h] using h
      · intro h
        simp only [Bool.and_eq_true] at h
        exact h.1
    rw [rank, heq, List.countP_eq_length_filter (p := p)]
    omega

end Genjishimada.Library
