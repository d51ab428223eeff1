import Mathlib.Logic.Function.Basic
import Mathlib.Tactic.Common

/-!
# Rows that point to each other

A row `i` may have a key `key i`, which no other row has, and may point to the key `ptr i` of
another row.  `Paired` says that pointers go both ways and that a row without a key has none;
`Linked` adds the constraints under which the statements that change a key or a pointer keep it:
`pair` and `unpair` set and clear two pointers, and `cascade` is what a foreign key with
`ON UPDATE CASCADE` does to the pointers when a key changes.
-/

namespace Genjishimada.Library

universe u v

variable {ι : Type u} {κ : Type v} {key ptr : ι → Option κ} {i j : ι} {a b : κ}

/-- Pointers go both ways, and a row without a key has none. -/
structure Paired (key ptr : ι → Option κ) : Prop where
  symm : ∀ i j a, ptr i = some a → key j = some a → ptr j = key i
  released : ∀ i, key i = none → ptr i = none

/-- Keys are unique, and pointers are paired and refer to other rows. -/
structure Linked (key ptr : ι → Option κ) : Prop extends Paired key ptr where
  unique : ∀ i j a, key i = some a → key j = some a → i = j
  references : ∀ i a, ptr i = some a → ∃ j, key j = some a
  notSelf : ∀ i a, ptr i = some a → key i ≠ some a

/-- The pointers to `a` point to `b`, or nowhere. -/
def cascade [DecidableEq κ] (a : κ) (b : Option κ) (ptr : ι → Option κ) (i : ι) : Option κ :=
  if ptr i = some a then b else ptr i

/-- `i` and `j` have the pointers `a` and `b`. -/
def setPair [DecidableEq ι] (i j : ι) (a b : Option κ) (ptr : ι → Option κ) : ι → Option κ :=
  Function.update (Function.update ptr i a) j b

namespace Linked

/-- A row with a pointer has a key. -/
theorem exists_key (h : Linked key ptr) (hi : ptr i = some a) : ∃ b, key i = some b := by
  rw [← Option.isSome_iff_exists, ← Option.ne_none_iff_isSome]
  intro hnone
  rw [h.released i hnone] at hi
  cases hi

/-- Nobody points to a row that points nowhere. -/
theorem no_pointer (h : Linked key ptr) (hi : ptr i = none) (hkey : key i = some a) (j : ι) :
    ptr j ≠ some a := by
  intro hj
  obtain ⟨b, hb⟩ := h.exists_key hj
  have hback := h.symm j i a hj hkey
  rw [hi, hb] at hback
  cases hback

section Pair

variable [DecidableEq ι]

@[simp] theorem setPair_right (i j : ι) (a b : Option κ) (ptr : ι → Option κ) :
    setPair i j a b ptr j = b := Function.update_self ..

theorem setPair_left (h : i ≠ j) (a b : Option κ) (ptr : ι → Option κ) :
    setPair i j a b ptr i = a := by
  rw [setPair, Function.update_of_ne h, Function.update_self]

theorem setPair_of_ne {k : ι} (hi : k ≠ i) (hj : k ≠ j) (a b : Option κ) (ptr : ι → Option κ) :
    setPair i j a b ptr k = ptr k := by
  rw [setPair, Function.update_of_ne hj, Function.update_of_ne hi]

/-- Two rows that point nowhere can be paired. -/
theorem pair (h : Linked key ptr) (hne : i ≠ j) (hi : key i = some a) (hj : key j = some b)
    (hpi : ptr i = none) (hpj : ptr j = none) :
    Linked key (setPair i j (some b) (some a) ptr) where
  unique := h.unique
  symm k l c hk hl := by
    by_cases hkj : k = j
    · subst hkj
      rw [setPair_right, Option.some.injEq] at hk
      subst hk
      obtain rfl := h.unique l i _ hl hi
      rw [setPair_left hne, hj]
    · by_cases hki : k = i
      · subst hki
        rw [setPair_left hne, Option.some.injEq] at hk
        subst hk
        obtain rfl := h.unique l j _ hl hj
        rw [setPair_right, hi]
      · rw [setPair_of_ne hki hkj] at hk
        have hli : l ≠ i := by
          rintro rfl
          exact h.no_pointer hpi hl k hk
        have hlj : l ≠ j := by
          rintro rfl
          exact h.no_pointer hpj hl k hk
        rw [setPair_of_ne hli hlj]
        exact h.symm k l c hk hl
  released k hk := by
    have hki : k ≠ i := by
      rintro rfl
      rw [hi] at hk
      cases hk
    have hkj : k ≠ j := by
      rintro rfl
      rw [hj] at hk
      cases hk
    rw [setPair_of_ne hki hkj]
    exact h.released k hk
  references k c hk := by
    by_cases hkj : k = j
    · subst hkj
      rw [setPair_right] at hk
      exact ⟨i, hi.trans hk⟩
    · by_cases hki : k = i
      · subst hki
        rw [setPair_left hne] at hk
        exact ⟨j, hj.trans hk⟩
      · rw [setPair_of_ne hki hkj] at hk
        exact h.references k c hk
  notSelf k c hk hkc := by
    by_cases hkj : k = j
    · subst hkj
      rw [setPair_right] at hk
      exact hne (h.unique i k c (hi.trans hk) hkc)
    · by_cases hki : k = i
      · subst hki
        rw [setPair_left hne] at hk
        exact hne (h.unique k j c hkc (hj.trans hk))
      · rw [setPair_of_ne hki hkj] at hk
        exact h.notSelf k c hk hkc

/-- Two rows that are paired can be unpaired. -/
theorem unpair (h : Linked key ptr) (hi : ptr i = some b) (hj : key j = some b) :
    Linked key (setPair i j none none ptr) := by
  have hkept : ∀ k c, setPair i j none none ptr k = some c → k ≠ i ∧ k ≠ j ∧ ptr k = some c := by
    intro k c hk
    have hkj : k ≠ j := by
      rintro rfl
      rw [setPair_right] at hk
      cases hk
    have hki : k ≠ i := by
      rintro rfl
      rw [setPair_left hkj] at hk
      cases hk
    rw [setPair_of_ne hki hkj] at hk
    exact ⟨hki, hkj, hk⟩
  obtain ⟨a, ha⟩ := h.exists_key hi
  refine ⟨⟨fun k l c hk hl ↦ ?_, fun k hk ↦ ?_⟩, h.unique, fun k c hk ↦ ?_, fun k c hk ↦ ?_⟩
  · obtain ⟨hki, hkj, hk⟩ := hkept k c hk
    have hback := h.symm k l c hk hl
    obtain ⟨d, hd⟩ := h.exists_key hk
    -- the row pointed to is neither of the two, as their partners are each other
    have hli : l ≠ i := by
      rintro rfl
      rw [hi, hd] at hback
      exact hkj (h.unique k j d hd (hj.trans hback))
    have hlj : l ≠ j := by
      rintro rfl
      rw [h.symm i l b hi hj, ha, hd] at hback
      exact hki (h.unique k i d hd (ha.trans hback))
    rw [setPair_of_ne hli hlj, hback]
  · have hki : k ≠ i := by
      rintro rfl
      rw [ha] at hk
      cases hk
    have hkj : k ≠ j := by
      rintro rfl
      rw [hj] at hk
      cases hk
    rw [setPair_of_ne hki hkj]
    exact h.released k hk
  · exact h.references k c (hkept k c hk).2.2
  · exact h.notSelf k c (hkept k c hk).2.2

/-- A pointer that is replaced leaves its old target pointing back. -/
theorem not_paired_replace (h : Linked key ptr) (hne : i ≠ j) (hi : ptr i = some a)
    (hj : key j = some b) (hab : a ≠ b) : ¬ Paired key (setPair i j (some b) (key i) ptr) := by
  intro hpaired
  obtain ⟨k, hk⟩ := h.references i a hi
  obtain ⟨c, hc⟩ := h.exists_key hi
  have hki : k ≠ i := by
    rintro rfl
    exact h.notSelf k a hi hk
  have hkj : k ≠ j := by
    rintro rfl
    exact hab (Option.some.inj (hk.symm.trans hj))
  have hback : setPair i j (some b) (key i) ptr k = some c := by
    rw [setPair_of_ne hki hkj, h.symm i k a hi hk, hc]
  have hforth := hpaired.symm k i c hback hc
  rw [setPair_left hne, hk, Option.some.injEq] at hforth
  exact hab hforth.symm

end Pair

section Cascade

variable [DecidableEq ι] [DecidableEq κ]

/-- A row can be given a new key, and the pointers to it follow. -/
theorem rename (h : Linked key ptr) (hi : key i = some a) (hfree : ∀ k, key k ≠ some b) :
    Linked (Function.update key i (some b)) (cascade a (some b) ptr) := by
  have hkey : ∀ k c, Function.update key i (some b) k = some c →
      k = i ∧ c = b ∨ k ≠ i ∧ key k = some c ∧ c ≠ a ∧ c ≠ b := by
    intro k c hk
    by_cases hki : k = i
    · subst hki
      rw [Function.update_self, Option.some.injEq] at hk
      exact .inl ⟨rfl, hk.symm⟩
    · rw [Function.update_of_ne hki] at hk
      refine .inr ⟨hki, hk, ?_, ?_⟩
      · rintro rfl
        exact hki (h.unique k i c hk hi)
      · rintro rfl
        exact hfree k hk
  have hptr : ∀ k c, cascade a (some b) ptr k = some c →
      ptr k = some a ∧ c = b ∨ ptr k = some c ∧ c ≠ a ∧ c ≠ b := by
    intro k c hk
    rw [cascade] at hk
    split at hk
    · exact .inl ⟨‹_›, (Option.some.inj hk).symm⟩
    · rename_i hka
      refine .inr ⟨hk, ?_, ?_⟩
      · rintro rfl
        exact hka hk
      · rintro rfl
        obtain ⟨l, hl⟩ := h.references k c hk
        exact hfree l hl
  have hback : ∀ k l c, ptr k = some c → key l = some c → k ≠ i →
      cascade a (some b) ptr l = key k := by
    intro k l c hk hl hki
    rw [cascade, h.symm k l c hk hl]
    refine if_neg fun hka ↦ hki (h.unique k i a hka hi)
  have hback' : ∀ l c, ptr i = some c → key l = some c → cascade a (some b) ptr l = some b := by
    intro l c hk hl
    rw [cascade, h.symm i l c hk hl, hi]
    exact if_pos rfl
  refine ⟨⟨fun k l c hk hl ↦ ?_, fun k hk ↦ ?_⟩, fun k l c hk hl ↦ ?_, fun k c hk ↦ ?_,
    fun k c hk hkc ↦ ?_⟩
  · -- the row pointed to, before and after
    have hold : ∃ d, ptr k = some d ∧ key l = some d := by
      rcases hptr k c hk with ⟨hka, rfl⟩ | ⟨hkc, -, hcb⟩
      · rcases hkey l c hl with ⟨rfl, -⟩ | ⟨-, -, -, hcb⟩
        · exact ⟨a, hka, hi⟩
        · exact absurd rfl hcb
      · rcases hkey l c hl with ⟨-, rfl⟩ | ⟨-, hlc, -⟩
        · exact absurd rfl hcb
        · exact ⟨c, hkc, hlc⟩
    obtain ⟨d, hd, hld⟩ := hold
    by_cases hki : k = i
    · subst hki
      rw [hback' l d hd hld, Function.update_self]
    · rw [hback k l d hd hld hki, Function.update_of_ne hki]
  · have hki : k ≠ i := by
      rintro rfl
      rw [Function.update_self] at hk
      cases hk
    rw [Function.update_of_ne hki] at hk
    rw [cascade, h.released k hk]
    exact if_neg nofun
  · rcases hkey k c hk with ⟨rfl, rfl⟩ | ⟨hki, hk, hca, hcb⟩
    · rcases hkey l c hl with ⟨rfl, -⟩ | ⟨-, -, -, hcb⟩
      · rfl
      · exact absurd rfl hcb
    · rcases hkey l c hl with ⟨-, rfl⟩ | ⟨-, hl, -, -⟩
      · exact absurd rfl hcb
      · exact h.unique k l c hk hl
  · rcases hptr k c hk with ⟨-, rfl⟩ | ⟨hk, hca, -⟩
    · exact ⟨i, Function.update_self ..⟩
    · obtain ⟨l, hl⟩ := h.references k c hk
      refine ⟨l, ?_⟩
      rw [Function.update_of_ne, hl]
      rintro rfl
      exact hca (Option.some.inj (hl.symm.trans hi))
  · rcases hptr k c hk with ⟨hka, rfl⟩ | ⟨hptrc, hca, hcb⟩
    · rcases hkey k c hkc with ⟨rfl, -⟩ | ⟨-, -, -, hcb⟩
      · exact h.notSelf k a hka hi
      · exact hcb rfl
    · rcases hkey k c hkc with ⟨-, rfl⟩ | ⟨-, hkeyc, -, -⟩
      · exact hcb rfl
      · exact h.notSelf k c hptrc hkeyc

/-- A row that points nowhere can give up its key. -/
theorem release (h : Linked key ptr) (hi : key i = some a) (hpi : ptr i = none) :
    Linked (Function.update key i none) (cascade a none ptr) := by
  have hptr : cascade a none ptr = ptr := by
    funext k
    exact if_neg (h.no_pointer hpi hi k)
  have hkey : ∀ k c, Function.update key i none k = some c → k ≠ i ∧ key k = some c := by
    intro k c hk
    have hki : k ≠ i := by
      rintro rfl
      rw [Function.update_self] at hk
      cases hk
    rw [Function.update_of_ne hki] at hk
    exact ⟨hki, hk⟩
  rw [hptr]
  refine ⟨⟨fun k l c hk hl ↦ ?_, fun k hk ↦ ?_⟩, fun k l c hk hl ↦ ?_, fun k c hk ↦ ?_,
    fun k c hk hkc ↦ ?_⟩
  · have hki : k ≠ i := by
      rintro rfl
      rw [hpi] at hk
      cases hk
    rw [Function.update_of_ne hki]
    exact h.symm k l c hk (hkey l c hl).2
  · by_cases hki : k = i
    · rw [hki, hpi]
    · rw [Function.update_of_ne hki] at hk
      exact h.released k hk
  · exact h.unique k l c (hkey k c hk).2 (hkey l c hl).2
  · obtain ⟨l, hl⟩ := h.references k c hk
    refine ⟨l, ?_⟩
    rw [Function.update_of_ne, hl]
    rintro rfl
    exact h.no_pointer hpi hl k hk
  · exact h.notSelf k c hk (hkey k c hkc).2

/-- A row that points somewhere goes on doing so without a key. -/
theorem not_paired_release (h : Linked key ptr) (hi : key i = some a) (hpi : ptr i = some b) :
    ¬ Paired (Function.update key i none) (cascade a none ptr) := by
  intro hpaired
  have hnone := hpaired.released i (Function.update_self ..)
  have hba : ptr i ≠ some a := fun hself ↦ h.notSelf i a hself hi
  rw [cascade, if_neg hba, hpi] at hnone
  cases hnone

end Cascade

end Linked

end Genjishimada.Library
