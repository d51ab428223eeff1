import Mathlib.Logic.Function.Basic
import Mathlib.Data.Option.Basic
import Mathlib.Tactic.Common

/-!
# Directories with aliases

A directory has entries under identities and names that stand for them, several for one.  What is
looked up is the entry a name stands for: a new name shows what the other one shows, an entry that
is changed is changed under all of its names, and one that is dropped takes them along.
-/

namespace Genjishimada.Library

universe u v w

/-- Names that stand for entries. -/
@[ext]
structure Directory (K : Type u) (I : Type v) (V : Type w) where
  target : K → Option I
  value : I → Option V

namespace Directory

variable {K : Type u} {I : Type v} {V : Type w} {d : Directory K I V} {k k' : K} {i : I} {v : V}

def empty : Directory K I V := ⟨fun _ ↦ none, fun _ ↦ none⟩

/-- The entry a name stands for. -/
def lookup (d : Directory K I V) (k : K) : Option V := (d.target k).bind d.value

/-- A new entry under a new name. -/
def add [DecidableEq K] [DecidableEq I] (d : Directory K I V) (k : K) (i : I) (v : V) :
    Directory K I V :=
  ⟨Function.update d.target k (some i), Function.update d.value i (some v)⟩

/-- The name `k` for what `k'` stands for. -/
def link [DecidableEq K] (d : Directory K I V) (k k' : K) : Directory K I V :=
  ⟨Function.update d.target k (d.target k'), d.value⟩

/-- The entry a name stands for is changed. -/
def adjust [DecidableEq I] (d : Directory K I V) (k : K) (f : V → V) : Directory K I V :=
  match d.target k with
  | none => d
  | some i => ⟨d.target, Function.update d.value i ((d.value i).map f)⟩

/-- The entries that meet a condition are dropped, with their names. -/
def drop (d : Directory K I V) (p : V → Bool) : Directory K I V :=
  ⟨fun k ↦ (d.target k).filter fun i ↦ !(d.value i).any p, fun i ↦ (d.value i).filter fun v ↦ !p v⟩

/-- Every name stands for an entry. -/
def Bound (d : Directory K I V) : Prop := ∀ k i, d.target k = some i → (d.value i).isSome

/-- Which entries are dropped is all that counts. -/
theorem drop_congr {p q : V → Bool} (h : ∀ i v, d.value i = some v → p v = q v) :
    d.drop p = d.drop q := by
  refine Directory.ext (funext fun k ↦ ?_) (funext fun i ↦ ?_)
  · refine congrArg (fun f ↦ (d.target k).filter f) (funext fun i ↦ ?_)
    cases hi : d.value i with
    | none => rfl
    | some v => rw [Option.any_some, Option.any_some, h i v hi]
  · change (d.value i).filter _ = (d.value i).filter _
    cases hi : d.value i with
    | none => rfl
    | some v => rw [Option.filter_some, Option.filter_some, h i v hi]

/-- A new name shows what the other one shows. -/
theorem lookup_link [DecidableEq K] :
    (d.link k k').lookup = Function.update d.lookup k (d.lookup k') := by
  funext k₁
  rcases eq_or_ne k₁ k with rfl | hk
  · simp only [lookup, link, Function.update_self]
  · simp only [lookup, link, Function.update_of_ne hk]

/-- A new entry shows under its name alone. -/
theorem lookup_add [DecidableEq K] [DecidableEq I] (hi : ∀ k, d.target k ≠ some i) :
    (d.add k i v).lookup = Function.update d.lookup k (some v) := by
  funext k₁
  rcases eq_or_ne k₁ k with rfl | hk
  · simp only [lookup, add, Function.update_self, Option.bind_some]
  · simp only [lookup, add, Function.update_of_ne hk]
    refine Option.bind_congr fun j hj ↦ Function.update_of_ne ?_ _ _
    rintro rfl
    exact hi k₁ hj

@[simp] theorem target_adjust [DecidableEq I] (f : V → V) : (d.adjust k f).target = d.target := by
  unfold adjust
  split <;> rfl

theorem value_adjust [DecidableEq I] (f : V → V) : (d.adjust k f).value i =
    if d.target k = some i then (d.value i).map f else d.value i := by
  unfold adjust
  cases d.target k with
  | none => rfl
  | some j =>
      rcases eq_or_ne i j with rfl | hi
      · simp
      · simp [hi, hi.symm]

/-- An entry is changed under each of its names. -/
theorem lookup_adjust [DecidableEq I] (f : V → V) : (d.adjust k f).lookup k' =
    if d.target k' = d.target k then (d.lookup k').map f else d.lookup k' := by
  unfold adjust
  cases hk : d.target k with
  | none => cases hk' : d.target k' <;> simp [lookup, hk']
  | some i =>
      cases hk' : d.target k' with
      | none => simp [lookup, hk']
      | some j =>
          rcases eq_or_ne j i with rfl | hj
          · simp [lookup, hk']
          · simp [lookup, hk', hj]

/-- What is not dropped shows as before, and what is dropped under no name. -/
theorem lookup_drop (p : V → Bool) (k : K) :
    (d.drop p).lookup k = (d.lookup k).filter fun v ↦ !p v := by
  simp only [lookup, drop]
  cases d.target k with
  | none => rfl
  | some i =>
      cases hi : d.value i with
      | none => simp [hi]
      | some v => cases hv : p v <;> simp [hi, hv, Option.filter_some]

end Directory

end Genjishimada.Library
