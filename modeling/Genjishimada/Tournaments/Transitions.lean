import Genjishimada.Library.Run
import Genjishimada.Migrations

/-!
# What a transition does

`process_edition_transitions` in the terms its properties are stated in: either
nothing, or it closes one active edition that is due and, unless paused, opens the
next one with one child cycle per active category.

The loop that creates the children is a run of `ChildStep`, and so is the loop of a
bootstrap; what a run of it adds to the cycles is said once, in `childRun_rows`.
-/

namespace Genjishimada.Tournaments

open Library Sdk Repository Migrations

/-! ## Creating child cycles -/

/-- The child cycle of one category, if there was a map for it. -/
inductive ChildStep (editionId : Nat) (startedAt : Int) (db : Db) (cat : Category) : Db → Prop
  | skip : ChildStep editionId startedAt db cat db
  | create (mapId : Nat) :
      ChildStep editionId startedAt db cat
        (createCycleForEdition editionId cat.id mapId startedAt db).2

section ChildRun

variable {editionId : Nat} {startedAt : Int} {db db' : Db} {cats : List Category}

/-- Creating children touches nothing but the cycles. -/
theorem childRun_eq (h : Run (ChildStep editionId startedAt) db cats db') :
    db' = { db with cycles := db'.cycles } := by
  induction h with
  | nil _ => rfl
  | cons hstep _ ih =>
      rw [ih]
      cases hstep with
      | skip => rfl
      | create mapId => rfl

/-- Creating children adds at most one cycle per category, active and of the edition. -/
theorem childRun_rows (h : Run (ChildStep editionId startedAt) db cats db') :
    ∃ new, db'.cycles.rows = db.cycles.rows ++ new ∧
      (new.map Cycle.categoryId).Sublist (cats.map Category.id) ∧
      ∀ cy ∈ new, db.cycles.nextId ≤ cy.id ∧ cy.status = .active ∧
        cy.editionId = some editionId ∧ cy.startedAt = some startedAt := by
  induction h with
  | nil _ => exact ⟨[], by simp⟩
  | cons hstep _ ih =>
      obtain ⟨new, hrows, hcats, hnew⟩ := ih
      cases hstep with
      | skip => exact ⟨new, hrows, hcats.cons _, hnew⟩
      | create mapId =>
          refine ⟨_ :: new, hrows.trans (List.append_assoc _ [_] _), hcats.cons_cons _, ?_⟩
          intro cy hcy
          rcases List.mem_cons.mp hcy with rfl | hcy
          · exact ⟨le_rfl, rfl, rfl, rfl⟩
          · obtain ⟨hid, hrest⟩ := hnew cy hcy
            exact ⟨(Nat.le_succ _).trans hid, hrest⟩

end ChildRun

/-! ## The transition -/

section Transition

variable {lockFree : Bool} {now : Int} {random : Nat → Shuffle CoreMap} {db : Db}

theorem createChild_step (editionId : Nat) (startedAt : Int) (cat : Category) :
    ChildStep editionId startedAt db cat (createChild editionId startedAt now random db cat) := by
  rw [createChild]
  split
  · exact .skip
  · exact .create _

/-- The loop over the active categories. -/
theorem createNextEdition_run (period : Int) (prev : Edition) :
    Run (ChildStep db.editions.nextId prev.endsAt)
      (createEdition prev.endsAt (prev.endsAt + period) db).2 (activeCategories db)
      (createNextEdition period prev now random db) := by
  have hfold (editionId : Nat) (cats : List Category) (db : Db) :
      Run (ChildStep editionId prev.endsAt) db cats
        (cats.foldl (createChild editionId prev.endsAt now random) db) := by
    induction cats generalizing db with
    | nil => exact .nil db
    | cons cat cats ih => exact .cons (createChild_step editionId prev.endsAt cat) (ih _)
  exact hfold _ _ _

theorem dueEdition_spec {e : Edition} (h : dueEdition now db = some e) :
    e ∈ db.editions.rows ∧ e.status = .active ∧ e.endsAt ≤ now := by
  have hmem := mem_orderBy.mp (List.mem_of_head? h)
  simpa using hmem

/-- A transition does nothing, closes the due edition, or also opens the next. -/
theorem processEditionTransitions_cases (lockFree : Bool) (now : Int)
    (random : Nat → Shuffle CoreMap) (db : Db) :
    (lockFree = false ∨ dueEdition now db = none) ∧
      processEditionTransitions lockFree now random db = db ∨
    (∃ e, lockFree = true ∧ dueEdition now db = some e ∧ db.config.transitionsPaused = true ∧
      processEditionTransitions lockFree now random db = closeEdition e.id db) ∨
    ∃ e, lockFree = true ∧ dueEdition now db = some e ∧ db.config.transitionsPaused = false ∧
      Run (ChildStep db.editions.nextId e.endsAt)
        (createEdition e.endsAt (e.endsAt + editionPeriod db.config) (closeEdition e.id db)).2
        (activeCategories db) (processEditionTransitions lockFree now random db) := by
  cases hl : lockFree with
  | false => exact .inl ⟨.inl rfl, rfl⟩
  | true =>
      rw [processEditionTransitions, if_neg (by decide)]
      cases hdue : dueEdition now db with
      | none => exact .inl ⟨.inr rfl, rfl⟩
      | some e =>
          cases hp : db.config.transitionsPaused with
          | true => exact .inr (.inl ⟨e, rfl, rfl, rfl, rfl⟩)
          | false =>
              have hrun := @createNextEdition_run now random (closeEdition e.id db)
                (editionPeriod db.config) e
              exact .inr (.inr ⟨e, rfl, rfl, rfl, hrun⟩)

end Transition

end Genjishimada.Tournaments
