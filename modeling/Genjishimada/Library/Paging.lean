import Mathlib.Data.List.Nodup
import Mathlib.Data.List.Perm.Subperm
import Mathlib.Data.List.Sort
import Mathlib.Tactic.Common

/-!
# Pages of a query

A query with `ORDER BY le` may return its rows in any order that `le` allows, and another
one each time it is run.  `pages size answers n` is what a client gets who asks for the
first `n` pages with `LIMIT size OFFSET k * size`, page `k` being cut out of the answer
`answers k`.

The client sees every row exactly once, whatever the answers, when every tie is settled
inside one page (`pages_perm`), and otherwise some answers show a row twice
(`exists_pages_not_nodup`).  A sort that ends with a unique column has no ties
(`settled_of_antisymm`), and `ThenBy` is a sort by one key after another.
-/

namespace Genjishimada.Library

universe u

variable {α : Type u} {le r s : α → α → Prop} {rows l l' : List α} {a b x y : α} {size n k : Nat}

/-- An order in which the rows may be returned. -/
structure Resolves (le : α → α → Prop) (rows answer : List α) : Prop where
  perm : answer.Perm rows
  sorted : answer.Pairwise le

/-- `LIMIT size OFFSET k * size` -/
def page (size : Nat) (answer : List α) (k : Nat) : List α := (answer.drop (k * size)).take size

/-- The first `n` pages, each of its own answer. -/
def pages (size : Nat) (answers : Nat → List α) (n : Nat) : List α :=
  (List.range n).flatMap fun k ↦ page size (answers k) k

theorem pages_succ (size : Nat) (answers : Nat → List α) (n : Nat) :
    pages size answers (n + 1) = pages size answers n ++ page size (answers n) n := by
  rw [pages, List.range_succ, List.flatMap_append, List.flatMap_singleton, pages]

/-- The rows up to the end of a page are those before it, and it. -/
theorem take_append_page (size : Nat) (answer : List α) (k : Nat) :
    answer.take (k * size) ++ page size answer k = answer.take ((k + 1) * size) := by
  rw [page, Nat.succ_mul, List.take_add]

/-- The pages of one answer are its rows. -/
theorem pages_const (size : Nat) (answer : List α) (n : Nat) :
    pages size (fun _ ↦ answer) n = answer.take (n * size) := by
  induction n with
  | zero => rw [Nat.zero_mul, List.take_zero]; rfl
  | succ n ih => rw [pages_succ, ih, take_append_page]

/-- The tied rows of `a` end where they begin, or no page does in between. -/
def SettledAt (le : α → α → Prop) [DecidableRel le] (size : Nat) (rows : List α) (a : α) : Prop :=
  ∀ k, ¬ (rows.countP (fun b ↦ ¬ le a b) < k * size ∧ k * size < rows.countP fun b ↦ le b a)

/-- No tie straddles the end of a page. -/
def Settled (le : α → α → Prop) [DecidableRel le] (size : Nat) (rows : List α) : Prop :=
  ∀ a ∈ rows, SettledAt le size rows a

/-- Orders that agree have the same ties. -/
theorem settled_congr {le' : α → α → Prop} [DecidableRel le] [DecidableRel le']
    (h : ∀ a b, le a b ↔ le' a b) : Settled le size rows ↔ Settled le' size rows := by
  simp only [Settled, SettledAt, h]

/-! ## Sort keys -/

/-- By `r`, and where that leaves a tie by `s`. -/
def ThenBy (r s : α → α → Prop) (a b : α) : Prop := r a b ∧ (r b a → s a b)

instance instDecidableThenBy [DecidableRel r] [DecidableRel s] : DecidableRel (ThenBy r s) :=
  fun _ _ ↦ instDecidableAnd

instance instTransThenBy [IsTrans α r] [IsTrans α s] : IsTrans α (ThenBy r s) where
  trans a b c := by
    rintro ⟨hab, hab'⟩ ⟨hbc, hbc'⟩
    refine ⟨IsTrans.trans a b c hab hbc, fun hca ↦ ?_⟩
    exact IsTrans.trans a b c (hab' (IsTrans.trans b c a hbc hca)) (hbc' (IsTrans.trans c a b hca hab))

instance instTotalThenBy [Std.Total r] [Std.Total s] : Std.Total (ThenBy r s) where
  total a b := by
    by_cases hab : r a b
    · by_cases hba : r b a
      · rcases Std.Total.total (r := s) a b with h | h
        · exact .inl ⟨hab, fun _ ↦ h⟩
        · exact .inr ⟨hba, fun _ ↦ h⟩
      · exact .inl ⟨hab, fun h ↦ absurd h hba⟩
    · exact .inr ⟨(Std.Total.total a b).resolve_left hab, fun h ↦ absurd h hab⟩

/-- A tie of both keys. -/
theorem ThenBy.tie (hab : ThenBy r s a b) (hba : ThenBy r s b a) : s a b ∧ s b a :=
  ⟨hab.2 hba.1, hba.2 hab.1⟩

/-- Without ties nothing straddles the end of a page. -/
theorem settled_of_antisymm [DecidableRel le] (hrows : rows.Nodup)
    (hanti : ∀ a ∈ rows, ∀ b ∈ rows, le a b → le b a → a = b) : Settled le size rows := by
  rintro a ha k ⟨hlo, hhi⟩
  have hsplit : (rows.countP fun b ↦ le b a) ≤
      (rows.countP fun b ↦ ¬ le a b) + rows.countP fun b ↦ le b a ∧ le a b := by
    rw [List.countP_eq_countP_filter_add rows (fun b ↦ le b a) (fun b ↦ ¬ le a b),
      List.countP_filter, List.countP_filter]
    refine Nat.add_le_add (List.countP_mono_left fun b _ hb ↦ ?_)
      (List.countP_mono_left fun b _ hb ↦ ?_)
    · exact (Bool.and_eq_true _ _ ▸ hb).2
    · simpa using hb
  have hone : (rows.countP fun b ↦ le b a ∧ le a b) ≤ 1 := by
    rw [List.countP_eq_length_filter]
    have hsub : rows.filter (fun b ↦ le b a ∧ le a b) ⊆ [a] := by
      intro b hb
      obtain ⟨hb, htie⟩ := List.mem_filter.mp hb
      obtain ⟨hba, hab⟩ := of_decide_eq_true htie
      exact List.mem_singleton.mpr (hanti b hb a ha hba hab)
    exact (List.Nodup.subperm (hrows.filter _) hsub).length_le
  omega

/-! ## Prefixes of a sorted list -/

/-- What comes early in a sorted list is a prefix of it. -/
theorem filter_eq_take {p : α → Bool} (hl : l.Pairwise le)
    (hp : ∀ x y, le x y → p y = true → p x = true) : l.filter p = l.take (l.countP p) := by
  induction l with
  | nil => rfl
  | cons x l ih =>
      obtain ⟨hx, hl⟩ := List.pairwise_cons.mp hl
      by_cases hpx : p x = true
      · rw [List.filter_cons_of_pos hpx, List.countP_cons_of_pos hpx, List.take_succ_cons, ih hl]
      · have hnone : ∀ y ∈ l, ¬ p y = true := fun y hy hpy ↦ hpx (hp x y (hx y hy) hpy)
        rw [List.filter_cons_of_neg hpx, List.countP_cons_of_neg hpx,
          List.filter_eq_nil_iff.mpr hnone, List.countP_eq_zero.mpr hnone, List.take_zero]

/-- What is behind the prefix does not come early. -/
theorem not_of_le_countP {p : α → Bool} (hl : l.Pairwise le)
    (hp : ∀ x y, le x y → p y = true → p x = true) {i : Nat} (hi : l.countP p ≤ i)
    (ha : l[i]? = some a) : ¬ p a = true := by
  have hfilter := filter_eq_take hl hp
  have hdrop : (l.drop (l.countP p)).countP p = 0 := by
    have hsum : l.countP p = (l.take (l.countP p)).countP p + (l.drop (l.countP p)).countP p := by
      rw [← List.countP_append, List.take_append_drop]
    have hall : (l.take (l.countP p)).countP p = l.countP p := by
      rw [← hfilter, List.countP_filter]
      simp
    omega
  rw [List.countP_eq_zero] at hdrop
  refine hdrop a (List.mem_iff_getElem?.mpr ⟨i - l.countP p, ?_⟩)
  rw [List.getElem?_drop, Nat.add_sub_cancel' hi, ha]

/-- What is in the prefix comes early. -/
theorem of_lt_countP {p : α → Bool} (hl : l.Pairwise le)
    (hp : ∀ x y, le x y → p y = true → p x = true) {i : Nat} (hi : i < l.countP p)
    (ha : l[i]? = some a) : p a = true := by
  have hmem : a ∈ l.take (l.countP p) := by
    refine List.mem_iff_getElem?.mpr ⟨i, ?_⟩
    rw [List.getElem?_take_of_lt hi, ha]
  rw [← filter_eq_take hl hp] at hmem
  exact (List.mem_filter.mp hmem).2

/-! ## Settled ties -/

section Settled

variable [DecidableRel le] [IsTrans α le] [Std.Total le] {answer answer' : List α}

omit [DecidableRel le] [IsTrans α le] in
theorem le_self (a : α) : le a a := (Std.Total.total a a).elim id id

omit [Std.Total le] in
/-- What comes before a row that comes before `a` does too. -/
theorem before_closed (a x y : α) (hxy : le x y) (hy : decide (¬ le a y) = true) :
    decide (¬ le a x) = true :=
  decide_eq_true fun hax ↦ of_decide_eq_true hy (IsTrans.trans a x y hax hxy)

omit [Std.Total le] in
/-- What comes before a row that comes no later than `a` comes no later. -/
theorem upTo_closed (a x y : α) (hxy : le x y) (hy : decide (le y a) = true) :
    decide (le x a) = true :=
  decide_eq_true (IsTrans.trans x y a hxy (of_decide_eq_true hy))

/-- Before the end of a page stand the rows that come before what stands there, if its ties are
settled. -/
theorem take_eq_filter (ha : Resolves le rows answer) (hget : answer[k * size]? = some a)
    (hsettled : SettledAt le size rows a) :
    rows.countP (fun b ↦ ¬ le a b) = k * size ∧
      answer.take (k * size) = answer.filter fun b ↦ ¬ le a b := by
  have hle : rows.countP (fun b ↦ ¬ le a b) ≤ k * size := by
    by_contra hlt
    rw [← ha.perm.countP_eq, not_le] at hlt
    have := of_lt_countP ha.sorted (before_closed a) hlt hget
    simp only [decide_eq_true_eq] at this
    exact this (le_self a)
  have hlt : k * size < rows.countP fun b ↦ le b a := by
    by_contra hge
    rw [← ha.perm.countP_eq, not_lt] at hge
    have := not_of_le_countP ha.sorted (upTo_closed a) hge hget
    simp only [decide_eq_true_eq] at this
    exact this (le_self a)
  have heq : rows.countP (fun b ↦ ¬ le a b) = k * size := by
    have := hsettled k
    omega
  refine ⟨heq, ?_⟩
  rw [filter_eq_take ha.sorted (before_closed a), ha.perm.countP_eq, heq]

/-- The rows up to the end of a page do not depend on the answer. -/
theorem take_perm (hsettled : Settled le size rows) (ha : Resolves le rows answer)
    (ha' : Resolves le rows answer') (k : Nat) :
    (answer.take (k * size)).Perm (answer'.take (k * size)) := by
  have hperm := ha.perm.trans ha'.perm.symm
  cases hget : answer[k * size]? with
  | none =>
      have hlen := List.getElem?_eq_none_iff.mp hget
      rw [List.take_of_length_le hlen, List.take_of_length_le (hperm.length_eq ▸ hlen)]
      exact hperm
  | some a =>
      have hmem : a ∈ rows := ha.perm.mem_iff.mp (List.mem_of_getElem? hget)
      obtain ⟨hcount, htake⟩ := take_eq_filter ha hget (hsettled a hmem)
      have htake' := filter_eq_take ha'.sorted (before_closed a)
      rw [ha'.perm.countP_eq, hcount] at htake'
      rw [htake, ← htake']
      exact hperm.filter _

/-- **If all ties are settled, the pages show every row exactly once.** -/
theorem pages_perm (hsettled : Settled le size rows) {answers : Nat → List α}
    (ha : ∀ k, Resolves le rows (answers k)) (hn : rows.length ≤ n * size) :
    (pages size answers n).Perm rows := by
  have htake : ∀ n, (pages size answers n).Perm ((answers 0).take (n * size)) := by
    intro n
    induction n with
    | zero =>
        rw [Nat.zero_mul, List.take_zero]
        exact .refl _
    | succ n ih =>
        rw [pages_succ]
        have hbefore := ih.trans (take_perm hsettled (ha 0) (ha n) n)
        refine (hbefore.append_right _).trans ?_
        rw [take_append_page]
        exact take_perm hsettled (ha n) (ha 0) (n + 1)
  refine (htake n).trans ?_
  rw [List.take_of_length_le ((ha 0).perm.length_eq ▸ hn)]
  exact (ha 0).perm

end Settled

/-! ## A tie that straddles the end of a page -/

section Straddling

variable [DecidableRel le] [IsTrans α le] [Std.Total le] {answer : List α}

theorem resolves_insertionSort (le : α → α → Prop) [DecidableRel le] [IsTrans α le] [Std.Total le]
    (rows : List α) : Resolves le rows (rows.insertionSort le) :=
  ⟨List.perm_insertionSort le rows, List.pairwise_insertionSort le rows⟩

/-- Of some rows, one may be returned first. -/
theorem exists_least (h : rows ≠ []) : ∃ a ∈ rows, ∀ b ∈ rows, le a b := by
  obtain ⟨hperm, hsorted⟩ := resolves_insertionSort le rows
  cases hrows : rows.insertionSort le with
  | nil =>
      rw [hrows] at hperm
      exact absurd (List.nil_perm.mp hperm) h
  | cons a l =>
      rw [hrows] at hperm hsorted
      refine ⟨a, hperm.mem_iff.mp List.mem_cons_self, fun b hb ↦ ?_⟩
      rcases List.mem_cons.mp (hperm.mem_iff.mpr hb) with rfl | hb
      · exact le_self b
      · exact (List.pairwise_cons.mp hsorted).1 b hb

omit [DecidableRel le] [IsTrans α le] [Std.Total le] in
/-- Tied neighbours may be returned either way round. -/
theorem Resolves.swap (h : Resolves le rows (l ++ x :: y :: l')) (hyx : le y x) :
    Resolves le rows (l ++ y :: x :: l') := by
  refine ⟨(List.Perm.append_left _ (List.Perm.swap x y l')).trans h.perm, ?_⟩
  have hsorted := h.sorted
  simp only [List.pairwise_append, List.pairwise_cons, List.mem_cons] at hsorted ⊢
  obtain ⟨hl, ⟨hx, hy, hl'⟩, hcross⟩ := hsorted
  refine ⟨hl, ⟨?_, fun a ha ↦ hx a (.inr ha), hl'⟩, ?_⟩
  · rintro a (rfl | ha)
    · exact hyx
    · exact hy a ha
  · rintro a ha b (rfl | rfl | hb)
    · exact hcross a ha b (.inr (.inl rfl))
    · exact hcross a ha b (.inl rfl)
    · exact hcross a ha b (.inr (.inr hb))

/-- A row that stands at a place of a page is on the page. -/
theorem mem_page {i : Nat} (hlo : k * size ≤ i) (hhi : i < (k + 1) * size)
    (hget : answer[i]? = some a) : a ∈ page size answer k := by
  rw [Nat.succ_mul] at hhi
  refine List.mem_iff_getElem?.mpr ⟨i - k * size, ?_⟩
  rw [page, List.getElem?_take_of_lt (by omega), List.getElem?_drop, Nat.add_sub_cancel' hlo, hget]

omit [DecidableRel le] [IsTrans α le] [Std.Total le] in
/-- Two places next to each other cut a list. -/
theorem exists_eq_append {j : Nat} (hj : j + 1 < answer.length) :
    ∃ l x y l', answer = l ++ x :: y :: l' ∧ l.length = j := by
  refine ⟨answer.take j, answer[j], answer[j + 1], answer.drop (j + 2), ?_, ?_⟩
  · rw [← List.drop_eq_getElem_cons hj, ← List.drop_eq_getElem_cons, List.take_append_drop]
  · rw [List.length_take]
    omega

/-- **If a tie straddles the end of a page, some answers show a row twice.** -/
theorem exists_pages_not_nodup (hsize : 0 < size) (h : ¬ Settled le size rows) :
    ∃ answers, (∀ k, Resolves le rows (answers k)) ∧
      ∃ n, rows.length ≤ n * size ∧ ¬ (pages size answers n).Nodup := by
  simp only [Settled, SettledAt, not_forall, not_not] at h
  obtain ⟨a, _, k, hlo, hhi⟩ := h
  have ha := resolves_insertionSort le rows
  rw [← ha.perm.countP_eq] at hlo hhi
  have hlen : ((rows.insertionSort le).countP fun b ↦ le b a) ≤ (rows.insertionSort le).length :=
    List.countP_le_length
  -- the rows on either side of the end of page `k - 1` are tied with `a`
  obtain ⟨j, hj⟩ : ∃ j, k * size = j + 1 := ⟨k * size - 1, by omega⟩
  have hcut : ∃ l x y l', rows.insertionSort le = l ++ x :: y :: l' ∧ l.length = j :=
    exists_eq_append (by omega)
  obtain ⟨l, x, y, l', hsplit, hl⟩ := hcut
  rw [hsplit] at ha hlo hhi
  have hx : (l ++ x :: y :: l')[j]? = some x := by
    rw [List.getElem?_append_right hl.le, hl, Nat.sub_self, List.getElem?_cons_zero]
  have hy : (l ++ x :: y :: l')[j + 1]? = some y := by
    rw [List.getElem?_append_right (by omega), hl, Nat.add_sub_cancel_left]
    rfl
  have hax : le a x := by
    have := not_of_le_countP ha.sorted (before_closed a) (by omega) hx
    simpa using this
  have hya : le y a := by
    have hlt : j + 1 < (l ++ x :: y :: l').countP fun b ↦ le b a := hj ▸ hhi
    have := of_lt_countP ha.sorted (upTo_closed a) hlt hy
    exact of_decide_eq_true this
  have ha' := ha.swap (IsTrans.trans y a x hya hax)
  have hx' : (l ++ y :: x :: l')[j + 1]? = some x := by
    rw [List.getElem?_append_right (by omega), hl, Nat.add_sub_cancel_left]
    rfl
  obtain ⟨i, rfl⟩ : ∃ i, k = i + 1 := ⟨k - 1, by rcases k with _ | k <;> simp_all⟩
  -- `x` is the last row of page `i`, and with its neighbour exchanged the first of the next
  refine ⟨fun p ↦ if p ≤ i then l ++ x :: y :: l' else l ++ y :: x :: l', fun p ↦ ?_,
    i + 2 + rows.length, ?_, fun hnodup ↦ ?_⟩
  · dsimp only
    split
    · exact ha
    · exact ha'
  · exact (Nat.le_mul_of_pos_right _ hsize).trans (Nat.mul_le_mul_right size (by omega))
  · have hdisjoint := (List.nodup_flatMap.mp hnodup).2
    have hi' : i + 1 < (List.range (i + 2 + rows.length)).length := by
      rw [List.length_range]
      omega
    have hi : i < (List.range (i + 2 + rows.length)).length := by omega
    have hpages := List.pairwise_iff_getElem.mp hdisjoint i (i + 1) hi hi' (Nat.lt_succ_self i)
    simp only [List.getElem_range, Function.onFun] at hpages
    rw [if_pos le_rfl, if_neg (by omega)] at hpages
    refine hpages (mem_page ?_ ?_ hx) (mem_page ?_ ?_ hx')
    · rw [Nat.succ_mul] at hj
      omega
    · omega
    · omega
    · rw [Nat.succ_mul]
      omega

end Straddling

end Genjishimada.Library
