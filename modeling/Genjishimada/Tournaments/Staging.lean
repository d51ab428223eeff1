import Genjishimada.Services.Tournament
import Genjishimada.Tournaments.Transitions

/-!
# Staged maps

`select_map`, `choose_map` and `reroll_map` stage the map of a category's next cycle
as a pending row of `tournaments.cycles`.  The transition that creates the next
cycle never looks at that row except to keep its map out of the draw, so a staged
choice stays where it is through every transition, until an admin replaces it.
-/

namespace Genjishimada.Tournaments

open Library Sdk Repository Migrations Services

/-! ## The machine -/

/-- A map choice of an admin, or a tick of the cron. -/
inductive StagingLabel where
  | select (categoryId : Nat) (now : Int) (random : Shuffle CoreMap)
  | choose (categoryId : Nat) (mapCode : String)
  | reroll (categoryId : Nat) (now : Int) (random : Shuffle CoreMap)
  | transition (lockFree : Bool) (now : Int) (random : Nat → Shuffle CoreMap)

/-- The database after a step; a choice that raises keeps what it has written. -/
def stagingStep (db : Db) : StagingLabel → Db
  | .select categoryId now random => (final (selectMap categoryId now random { db })).db
  | .choose categoryId mapCode => (final (chooseMap categoryId mapCode { db })).db
  | .reroll categoryId now random => (final (rerollMap categoryId now random { db })).db
  | .transition lockFree now random => processEditionTransitions lockFree now random db

/-- The step stages another map for the category in place of the one it has. -/
def StagingLabel.Replaces (categoryId : Nat) : StagingLabel → Prop
  | .choose c _ | .reroll c _ _ => c = categoryId
  | .select _ _ _ | .transition _ _ _ => False

/-- The staged cycle `cy` is promoted between two databases: the category has a new
child cycle on its map, and `cy` is not pending any more. -/
def Promoted (cy : Cycle) (db db' : Db) : Prop :=
  (∃ child ∈ db'.cycles.rows, child ∉ db.cycles.rows ∧ child.editionId.isSome ∧
    child.categoryId = cy.categoryId ∧ child.mapId = cy.mapId) ∧
  ∀ r ∈ db'.cycles.rows, r.id = cy.id → r.status ≠ .pending

/-! ## Staged cycles stay -/

/-- A program never removes the cycle `cy`. -/
def Retains (cy : Cycle) (w w' : World Db Event) : Prop :=
  cy ∈ w.db.cycles.rows → cy ∈ w'.db.cycles.rows

namespace Retains

variable {cy : Cycle} {w : World Db Event} {α β : Type}

theorem trans (a b c : World Db Event) (h : Retains cy a b) (h' : Retains cy b c) :
    Retains cy a c := fun hcy ↦ h' (h hcy)

theorem bind {x : Tournament α} {f : α → Tournament β} (hx : Retains cy w (final (x w)))
    (hf : ∀ a w', x w = .ok a w' → Retains cy w' (final (f a w'))) :
    Retains cy w (final ((x >>= f) w)) := final_bind trans hx hf

/-- A read changes nothing; what follows may use what was read. -/
theorem query_bind {q : Db → α} {f : α → Tournament β}
    (hf : ∀ a, q w.db = a → Retains cy w (final (f a w))) :
    Retains cy w (final ((query q >>= f) w)) := hf _ rfl

theorem requireCategory (categoryId : Nat) :
    Retains cy w (final (requireCategory categoryId w)) := by
  refine query_bind fun category _ ↦ ?_
  cases category <;> exact id

theorem stageCycle (categoryId mapId : Nat) :
    Retains cy w (final (stageCycle categoryId mapId w)) := by
  refine bind (fun hcy ↦ Table.mem_insert.mpr (.inl hcy)) fun _ w' _ ↦ ?_
  refine query_bind fun result _ ↦ ?_
  cases result <;> exact id

theorem selectMapFor (category : Category) (config : Config) (excludeMapIds : List Nat) (now : Int)
    (random : Shuffle CoreMap) :
    Retains cy w (final (selectMapFor category config excludeMapIds now random w)) := by
  refine query_bind fun eligible _ ↦ ?_
  cases eligible with
  | cons selected _ => exact id
  | nil =>
      refine query_bind fun selected _ ↦ ?_
      cases selected <;> exact id

/-- Deleting the pending cycle of another category. -/
theorem deletePending {categoryId : Nat} (hne : categoryId ≠ cy.categoryId) {existing : Cycle}
    (h : fetchPendingCycle categoryId w.db = some existing) :
    Retains cy w { w with db := deleteCycle existing.id w.db } := by
  intro hcy
  have hmem : existing ∈ w.db.cycles.rows := List.mem_of_find?_eq_some h
  have hcat : existing.categoryId = categoryId := by
    have := List.find?_some h
    simp only [decide_eq_true_eq] at this
    exact this.1
  refine Table.mem_delete.mpr ⟨hcy, decide_eq_false fun hid ↦ hne ?_⟩
  rw [← hcat, Table.eq_of_key_eq hmem hcy hid.symm]

end Retains

section Step

variable {cy : Cycle} {db : Db}

theorem selectMap_retains (categoryId : Nat) (now : Int) (random : Shuffle CoreMap)
    (w : World Db Event) : Retains cy w (final (selectMap categoryId now random w)) := by
  refine Retains.query_bind fun existing _ ↦ ?_
  cases existing with
  | some _ => exact id
  | none =>
      refine Retains.query_bind fun config _ ↦ ?_
      refine .bind (.requireCategory _) fun category w₁ _ ↦ ?_
      exact .bind (.selectMapFor _ _ _ _ _) fun selected w₂ _ ↦ .stageCycle _ _

theorem chooseMap_retains {categoryId : Nat} (hne : categoryId ≠ cy.categoryId) (mapCode : String)
    (w : World Db Event) : Retains cy w (final (chooseMap categoryId mapCode w)) := by
  refine .bind (.requireCategory _) fun category w₁ _ ↦ Retains.query_bind fun map _ ↦ ?_
  cases map with
  | none => exact id
  | some map =>
      dsimp only
      split
      · exact id
      · refine Retains.query_bind fun existing hexisting ↦ ?_
        cases existing with
        | none => exact .stageCycle _ _
        | some existing =>
            exact .bind (.deletePending hne hexisting) fun _ w₂ _ ↦ .stageCycle _ _

theorem rerollMap_retains {categoryId : Nat} (hne : categoryId ≠ cy.categoryId) (now : Int)
    (random : Shuffle CoreMap) (w : World Db Event) :
    Retains cy w (final (rerollMap categoryId now random w)) := by
  refine .bind (.requireCategory _) fun category w₁ _ ↦ ?_
  refine Retains.query_bind fun existing hexisting ↦ ?_
  cases existing with
  | none => exact id
  | some existing =>
      refine .bind (.deletePending hne hexisting) fun _ w₂ _ ↦ Retains.query_bind fun config _ ↦ ?_
      exact .bind (.selectMapFor _ _ _ _ _) fun selected w₃ _ ↦ .stageCycle _ _

/-- A transition leaves every pending cycle alone. -/
theorem transition_retains (hpending : cy.status = .pending) (hcy : cy ∈ db.cycles.rows)
    (lockFree : Bool) (now : Int) (random : Nat → Shuffle CoreMap) :
    cy ∈ (processEditionTransitions lockFree now random db).cycles.rows := by
  have hclosed (e : Edition) : cy ∈ (closeEdition e.id db).cycles.rows :=
    List.mem_map.mpr ⟨cy, hcy, if_neg (by simp [hpending])⟩
  rcases processEditionTransitions_cases lockFree now random db with
    ⟨_, h⟩ | ⟨e, _, _, _, h⟩ | ⟨e, _, _, _, h⟩
  · rwa [h]
  · rw [h]
    exact hclosed e
  · obtain ⟨new, hrows, _⟩ := childRun_rows h
    rw [hrows]
    exact List.mem_append_left _ (hclosed e)

/-- Unless the step replaces it, a pending cycle stays as it is. -/
theorem stagingStep_retains (hpending : cy.status = .pending) (hcy : cy ∈ db.cycles.rows)
    {l : StagingLabel} (hl : ¬ l.Replaces cy.categoryId) : cy ∈ (stagingStep db l).cycles.rows := by
  cases l with
  | select categoryId now random => exact selectMap_retains categoryId now random _ hcy
  | choose categoryId mapCode => exact chooseMap_retains hl mapCode _ hcy
  | reroll categoryId now random => exact rerollMap_retains hl now random _ hcy
  | transition lockFree now random => exact transition_retains hpending hcy lockFree now random

end Step

/-! ## Never promoted -/

/-- Whatever transitions and further choices follow, a staged cycle is never
promoted: as long as no admin replaces it, it stays pending. -/
theorem staged_not_promoted {db : Db} {cy : Cycle} {ls : List StagingLabel}
    (hcy : cy ∈ db.cycles.rows) (hpending : cy.status = .pending)
    (hls : ∀ l ∈ ls, ¬ l.Replaces cy.categoryId) : ¬ Promoted cy db (ls.foldl stagingStep db) := by
  have hstays : ∀ (ls : List StagingLabel) (db : Db), cy ∈ db.cycles.rows →
      (∀ l ∈ ls, ¬ l.Replaces cy.categoryId) → cy ∈ (ls.foldl stagingStep db).cycles.rows := by
    intro ls
    induction ls with
    | nil => exact fun db hcy _ ↦ hcy
    | cons l ls ih =>
        intro db hcy hls
        refine ih _ (stagingStep_retains hpending hcy (hls l List.mem_cons_self)) ?_
        exact fun l' hl' ↦ hls l' (List.mem_cons_of_mem _ hl')
  exact fun h ↦ h.2 cy (hstays ls db hcy hls) rfl hpending

/-- A category with two maps, the second of which is about to be staged. -/
def twoMaps : Db where
  categories := Table.empty.insert fun id ↦ { id, name := "Easy", difficulties := [.easy] }
  maps := (Table.empty.insert fun id ↦ { id, code := some "AAAA", difficulty := .easy }).insert
    fun id ↦ { id, code := some "BBBB", difficulty := .easyPlus }
  editions := Table.empty.insert fun id ↦ { id, startedAt := 0, endsAt := 10 }

/-- The map is chosen, the boundary comes, and the next cycle is on the other map. -/
theorem chosenMap_not_promoted :
    let chosen := stagingStep twoMaps (.choose 1 "BBBB")
    let next := stagingStep chosen (.transition true 10 fun _ ↦ default)
    chosen.cycles.get? 1 = some { id := 1, categoryId := 1, mapId := 2 } ∧
      (next.cycles.get? 2).map Cycle.mapId = some 1 ∧
      next.cycles.get? 1 = some { id := 1, categoryId := 1, mapId := 2 } ∧
      ¬ Promoted { id := 1, categoryId := 1, mapId := 2 } chosen next := by
  refine ⟨by decide +kernel, by decide +kernel, by decide +kernel, fun h ↦ ?_⟩
  exact h.2 { id := 1, categoryId := 1, mapId := 2 } (by decide +kernel) rfl rfl

/-- The same choice, through two boundaries. -/
theorem staged_not_promoted_twoMaps :
    ¬ Promoted { id := 1, categoryId := 1, mapId := 2 } (stagingStep twoMaps (.choose 1 "BBBB"))
      ([.transition true 10 fun _ ↦ default, .transition true 700000 fun _ ↦ default].foldl
        stagingStep (stagingStep twoMaps (.choose 1 "BBBB"))) :=
  staged_not_promoted (by decide +kernel) rfl (by simp [StagingLabel.Replaces])

end Genjishimada.Tournaments
