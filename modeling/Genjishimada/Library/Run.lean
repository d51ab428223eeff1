import Mathlib.Data.List.Basic

/-!
# Runs of a labelled transition relation

A system is a relation `R : S → L → S → Prop` between states, labelled by what
happened (the call made, the row read, the clock).  `Run R s ls s'` says that the
labels `ls`, in that order, lead from `s` to `s'`.

The rules the developments over it use are `Run.invariant`, which lifts a step lemma
to whole runs, `Run.mono`, which weakens the relation, and `Run.congr`, which replaces
it by one that agrees with it under an invariant.  A run in which *every* step meets a
condition is a run of `Guarded c R`.
-/

namespace Genjishimada.Library

universe u v

variable {S : Type u} {L : Type v}

/-- A finite run: the labels it takes, in order, and the states it joins. -/
inductive Run (R : S → L → S → Prop) : S → List L → S → Prop
  | /-- No step at all. -/
    nil (s : S) : Run R s [] s
  | /-- One step, then the rest of the run. -/
    cons {s s' s'' : S} {l : L} {ls : List L} :
      R s l s' → Run R s' ls s'' → Run R s (l :: ls) s''

/-- The steps of `R` taken from a state in which `c` holds of the label. -/
def Guarded (c : S → L → Prop) (R : S → L → S → Prop) (s : S) (l : L) (s' : S) : Prop :=
  c s l ∧ R s l s'

/-- The relation computed by a partial step function. -/
def ofStep (step : S → L → Option S) (s : S) (l : L) (s' : S) : Prop := step s l = some s'

namespace Run

variable {R R' : S → L → S → Prop} {s s' s'' : S} {l : L} {ls ls' : List L}

/-- A run of no labels stays where it is. -/
@[simp] theorem nil_iff : Run R s [] s' ↔ s = s' := by
  constructor
  · rintro ⟨⟩
    rfl
  · rintro rfl
    exact .nil s

/-- A run of one label more is one step followed by a run. -/
theorem cons_iff : Run R s (l :: ls) s'' ↔ ∃ s', R s l s' ∧ Run R s' ls s'' := by
  constructor
  · rintro (_ | ⟨h, hs⟩)
    exact ⟨_, h, hs⟩
  · rintro ⟨s', h, hs⟩
    exact .cons h hs

/-- One step is a run. -/
theorem single (h : R s l s') : Run R s [l] s' := .cons h (.nil s')

/-- Runs concatenate. -/
theorem append (h : Run R s ls s') (h' : Run R s' ls' s'') : Run R s (ls ++ ls') s'' := by
  induction h with
  | nil _ => exact h'
  | cons hl _ ih => exact .cons hl (ih h')

/-- Appending one step at the end of a run. -/
theorem snoc (h : Run R s ls s') (hl : R s' l s'') : Run R s (ls ++ [l]) s'' :=
  h.append (single hl)

/-- A run over two lists of labels passes through a state between them. -/
theorem append_iff : Run R s (ls ++ ls') s'' ↔ ∃ s', Run R s ls s' ∧ Run R s' ls' s'' := by
  induction ls generalizing s with
  | nil => simp
  | cons l ls ih =>
      simp only [List.cons_append, cons_iff, ih]
      constructor
      · rintro ⟨s₁, hl, s₂, h, h'⟩
        exact ⟨s₂, ⟨s₁, hl, h⟩, h'⟩
      · rintro ⟨s₂, ⟨s₁, hl, h⟩, h'⟩
        exact ⟨s₁, hl, s₂, h, h'⟩

/-- A run of a smaller relation is a run of a larger one. -/
theorem mono (hR : ∀ s l s', R s l s' → R' s l s') (h : Run R s ls s') : Run R' s ls s' := by
  induction h with
  | nil s => exact .nil s
  | cons hl _ ih => exact .cons (hR _ _ _ hl) ih

/-- A run whose labels all meet a condition takes only steps that meet it. -/
theorem guarded {c : L → Prop} (h : Run R s ls s') (hc : ∀ l ∈ ls, c l) :
    Run (Guarded (fun _ l ↦ c l) R) s ls s' := by
  induction h with
  | nil s => exact .nil s
  | cons hl _ ih =>
      obtain ⟨hhead, htail⟩ := List.forall_mem_cons.mp hc
      exact .cons ⟨hhead, hl⟩ (ih htail)

/-- What every step preserves, every run preserves. -/
theorem invariant {Inv : S → Prop} (hstep : ∀ s l s', Inv s → R s l s' → Inv s')
    (h : Run R s ls s') (hs : Inv s) : Inv s' := by
  induction h with
  | nil _ => exact hs
  | cons hl _ ih => exact ih (hstep _ _ _ hs hl)

/-- Relations that agree on the steps from invariant states have the same runs. -/
theorem congr (Inv : S → Prop) (hiff : ∀ s l s', Inv s → (R s l s' ↔ R' s l s'))
    (hinv : ∀ s l s', Inv s → R s l s' → Inv s') (hs : Inv s) :
    Run R s ls s' ↔ Run R' s ls s' := by
  induction ls generalizing s with
  | nil => rw [nil_iff, nil_iff]
  | cons l ls ih =>
      rw [cons_iff, cons_iff]
      refine exists_congr fun s₁ ↦ ?_
      rw [← hiff s l s₁ hs]
      exact and_congr_right fun hl ↦ ih (hinv s l s₁ hs hl)

/-- The runs of a step function are what iterating it computes. -/
theorem ofStep_iff {step : S → L → Option S} :
    Run (ofStep step) s ls s' ↔ ls.foldlM step s = some s' := by
  induction ls generalizing s with
  | nil => simp
  | cons l ls ih =>
      rw [cons_iff, List.foldlM_cons, Option.bind_eq_bind, Option.bind_eq_some_iff]
      exact exists_congr fun s₁ ↦ and_congr_right fun _ ↦ ih

end Run

end Genjishimada.Library
