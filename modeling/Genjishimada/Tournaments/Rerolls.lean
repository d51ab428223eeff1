import Genjishimada.Tournaments.Editions

/-!
# Rerolls that raise

`reroll_map` and `reroll_active_cycle` first delete the cycle of the category and then look for
another map.  They hold one connection, which commits each statement on its own, so where there
is no map the cycle is gone and with it its completions.  The reroll of an active cycle also
raises after all its statements, when the announcement cannot be sent.
-/

namespace Genjishimada.Tournaments

open Library Sdk Repository Migrations Services

/-- A call that raises leaves the cycles and their completions as they were. -/
def Undone {α : Type} (x : Tournament α) (w : World Db Event) : Prop :=
  raises (x w) = true →
    (final (x w)).db.cycles = w.db.cycles ∧ (final (x w)).db.completions = w.db.completions

/-- The category has a map for the cycle that takes the place of its pending one. -/
def PendingReplaceable (categoryId : Nat) (db : Db) : Prop :=
  ∀ cat cy, fetchCategory categoryId db = some cat → fetchPendingCycle categoryId db = some cy →
    HasMap db cat

/-- The next message can be sent, or is not sent at all. -/
def Announces (headers : Headers) (w : World Db Event) : Prop :=
  headers.pytestEnabled = true ∨ w.nextFaults.attempt.isRaised = false

/-- The category has a map for the cycle that takes the place of its active one in the edition,
and the new cycle can be announced. -/
def ActiveReplaceable (categoryId : Nat) (headers : Headers) (w : World Db Event) : Prop :=
  ∀ cat cy edition, fetchCategory categoryId w.db = some cat →
    fetchActiveCycle categoryId w.db = some cy → cycleEdition cy w.db = some edition →
      HasMap w.db cat ∧ Announces headers w

section Undone

variable {α : Type} {x : Tournament α} {w w' : World Db Event} {e : Failure TournamentsError}

theorem undone_of_ok {a : α} (h : x w = .ok a w') : Undone x w := by
  intro hraises
  rw [h] at hraises
  cases hraises

/-- A call that raises before its first statement. -/
theorem undone_of_untouched (h : x w = .error e w) : Undone x w := by
  intro _
  rw [h]
  exact ⟨rfl, rfl⟩

/-- A call that raises when a cycle is gone. -/
theorem not_undone_of_removed {cy : Cycle} (h : x w = .error e w') (hcy : cy ∈ w.db.cycles.rows)
    (hgone : cy ∉ w'.db.cycles.rows) : ¬ Undone x w := by
  intro hundone
  have hraises : raises (x w) = true := by
    rw [h]
    rfl
  have hcycles := (hundone hraises).1
  rw [h, final_error] at hcycles
  rw [hcycles] at hgone
  exact hgone hcy

end Undone

/-! ## The parts of a reroll -/

section Parts

variable {db : Db} {w : World Db Event} {cat : Category} {cy : Cycle} {categoryId : Nat}

theorem requireCategory_of_some (h : fetchCategory categoryId w.db = some cat) :
    requireCategory categoryId w = .ok cat w := by
  rw [requireCategory, query_bind_apply, h]
  rfl

theorem requireCategory_of_none (h : fetchCategory categoryId w.db = none) :
    requireCategory categoryId w = .error (.domain (.categoryNotFound categoryId)) w := by
  rw [requireCategory, query_bind_apply, h]
  rfl

theorem not_mem_deleteCycle (cy : Cycle) (db : Db) : cy ∉ (deleteCycle cy.id db).cycles.rows := by
  intro h
  exact absurd (Table.mem_delete.mp h).2 (by simp)

/-- A staged cycle can be read back. -/
theorem stageCycle_of_mem {m : CoreMap} (categoryId : Nat) (hm : m ∈ w.db.maps.rows) :
    ∃ cy w', stageCycle categoryId m.id w = .ok cy w' := by
  have hfound : (fetchPendingCycle categoryId (createCycle categoryId m.id w.db)).isSome := by
    rw [fetchPendingCycle, List.find?_isSome]
    refine ⟨_, List.mem_append_right _ (List.mem_singleton_self _), ?_⟩
    have hget : (w.db.maps.get? m.id).isSome := by
      rw [show w.db.maps.get? m.id = some m from Table.get?_of_mem hm]
      rfl
    exact decide_eq_true ⟨rfl, rfl, hget⟩
  obtain ⟨cy, hcy⟩ := Option.isSome_iff_exists.mp hfound
  rw [stageCycle, execute_bind_apply, query_bind_apply, hcy]
  exact ⟨cy, _, rfl⟩

/-- Whether a publish raises is decided by the faults it meets. -/
theorem raises_publishMessage_iff (routingKey : RoutingKey) (data : Event) (headers : Headers)
    (key : IdempotencyKey) (w : World Db Event) :
    raises ((publishMessage routingKey data headers (some key) : Tournament _) w) = false ↔
      Announces headers w := by
  obtain ⟨pytestEnabled⟩ := headers
  have hkey : ¬ (routingKey ∉ ignoreIdempotency ∧ some key = none) := fun h ↦ Option.some_ne_none _ h.2
  cases pytestEnabled with
  | true =>
      rw [publishMessage, if_neg hkey]
      exact iff_of_true rfl (.inl rfl)
  | false =>
      have happly := publishMessage_apply (ε := TournamentsError) routingKey data (some key)
        (.inr (Option.some_ne_none _)) w
      rw [happly, Announces]
      cases w.nextFaults.attempt with
      | raised e => exact iff_of_false Bool.true_eq_false.mp (by rintro (h | h) <;> cases h)
      | swallowed => exact iff_of_true rfl (.inr rfl)
      | delivered => exact iff_of_true rfl (.inr rfl)

end Parts

/-! ## The pending cycle -/

theorem rerollMap_undone_iff (categoryId : Nat) (now : Int) (random : Shuffle CoreMap)
    (w : World Db Event) :
    Undone (rerollMap categoryId now random) w ↔ PendingReplaceable categoryId w.db := by
  cases hcat : fetchCategory categoryId w.db with
  | none =>
      refine iff_of_true (undone_of_untouched (bind_of_error (requireCategory_of_none hcat))) ?_
      intro cat cy h
      rw [hcat] at h
      cases h
  | some cat =>
      cases hcy : fetchPendingCycle categoryId w.db with
      | none =>
          have hrun : rerollMap categoryId now random w =
              .error (.domain (.pendingCycleNotFound categoryId)) w := by
            rw [rerollMap, bind_of_ok (requireCategory_of_some hcat), query_bind_apply, hcy]
            rfl
          refine iff_of_true (undone_of_untouched hrun) ?_
          intro cat cy _ h
          rw [hcy] at h
          cases h
      | some cy =>
          let w₁ : World Db Event := { w with db := deleteCycle cy.id w.db }
          have hrun : rerollMap categoryId now random w = (do
              let selected ← selectMapFor cat w₁.db.config [cy.mapId] now random
              stageCycle categoryId selected.id) w₁ := by
            rw [rerollMap, bind_of_ok (requireCategory_of_some hcat), query_bind_apply, hcy]
            rfl
          have hcond : PendingReplaceable categoryId w.db ↔ HasMap w.db cat := by
            constructor
            · exact fun h ↦ h cat cy hcat hcy
            · intro h cat' cy' hcat' _
              rw [hcat, Option.some.injEq] at hcat'
              rw [← hcat']
              exact h
          rw [hcond]
          rcases selectMapFor_cases now w₁ cat w₁.db.config [cy.mapId] random with
            ⟨hmap, m, hm, _, hok⟩ | ⟨hmap, e, herror⟩
          · obtain ⟨staged, w', hstage⟩ := stageCycle_of_mem (w := w₁) categoryId hm
            exact iff_of_true (undone_of_ok (hrun.trans ((bind_of_ok hok).trans hstage))) hmap
          · apply iff_of_false _ hmap
            exact not_undone_of_removed (hrun.trans (bind_of_error herror))
              (List.mem_of_find?_eq_some hcy) (not_mem_deleteCycle cy w.db)

/-! ## The active cycle -/

/-- The reroll of an active cycle once a map is selected. -/
def replaceActive (categoryId : Nat) (edition : Edition) (selected : CoreMap) (headers : Headers) :
    Tournament Cycle := do
  let created ← statements
    (createCycleForEdition edition.id categoryId selected.id edition.startedAt)
  let result ← query (fetchActiveCycleWithMap categoryId)
  let _ ← publishMessage .tournamentRollover
    (.tournamentRollover
      { editionId := edition.id, results := []
        started := [{ cycleId := created.id, categoryId, mapId := selected.id
                      mapCode := selected.code, mapName := selected.mapName
                      startedAt := edition.startedAt, endsAt := edition.endsAt }] })
    headers (some (.tournamentActiveReroll created.id))
  match result with
  | some result => return result
  | none => throw .validationError

/-- It raises where the announcement does, and has created the cycle by then. -/
theorem replaceActive_cases {w : World Db Event} {m : CoreMap} (categoryId : Nat)
    (edition : Edition) (headers : Headers) (hm : m ∈ w.db.maps.rows) :
    (Announces headers w ∧ ∃ cy w', replaceActive categoryId edition m headers w = .ok cy w') ∨
    ¬ Announces headers w ∧ ∃ e w',
      w'.db = (createCycleForEdition edition.id categoryId m.id edition.startedAt w.db).2 ∧
        replaceActive categoryId edition m headers w = .error e w' := by
  let created := createCycleForEdition edition.id categoryId m.id edition.startedAt w.db
  let w₁ : World Db Event := { w with db := created.2 }
  let announce : Tournament JobStatusResponse := publishMessage .tournamentRollover
    (.tournamentRollover
      { editionId := edition.id, results := []
        started := [{ cycleId := created.1.id, categoryId, mapId := m.id, mapCode := m.code
                      mapName := m.mapName, startedAt := edition.startedAt
                      endsAt := edition.endsAt }] })
    headers (some (.tournamentActiveReroll created.1.id))
  have hfound : (fetchActiveCycleWithMap categoryId w₁.db).isSome := by
    rw [fetchActiveCycleWithMap, List.find?_isSome]
    refine ⟨_, List.mem_append_right _ (List.mem_singleton_self _), ?_⟩
    have hget : (w.db.maps.get? m.id).isSome := by
      rw [show w.db.maps.get? m.id = some m from Table.get?_of_mem hm]
      rfl
    exact decide_eq_true ⟨rfl, rfl, hget⟩
  obtain ⟨cy, hcy⟩ := Option.isSome_iff_exists.mp hfound
  have hrun : replaceActive categoryId edition m headers w = (announce >>= fun _ ↦ pure cy) w₁ := by
    have hcreate : (statements (createCycleForEdition edition.id categoryId m.id
        edition.startedAt) : Tournament Cycle) w = .ok created.1 w₁ := rfl
    rw [replaceActive, bind_of_ok hcreate, query_bind_apply, hcy]
  have hraises := raises_publishMessage_iff .tournamentRollover (.tournamentRollover
    { editionId := edition.id, results := []
      started := [{ cycleId := created.1.id, categoryId, mapId := m.id, mapCode := m.code
                    mapName := m.mapName, startedAt := edition.startedAt
                    endsAt := edition.endsAt }] })
    headers (.tournamentActiveReroll created.1.id) w₁
  have hkeeps : (final (announce w₁)).db = w₁.db := publishMessage_keepsDb _ _ _ _ w₁
  rw [hrun]
  cases hannounce : announce w₁ with
  | ok job w' =>
      refine .inl ⟨hraises.mp ?_, cy, w', bind_of_ok hannounce⟩
      change raises (announce w₁) = false
      rw [hannounce]
      rfl
  | error e w' =>
      rw [hannounce] at hkeeps
      refine .inr ⟨fun h ↦ ?_, e, w', hkeeps, bind_of_error hannounce⟩
      have hnot : raises (announce w₁) = false := hraises.mpr h
      rw [hannounce] at hnot
      cases hnot

theorem rerollActiveCycle_undone_iff (categoryId : Nat) (headers : Headers) (now : Int)
    (random : Shuffle CoreMap) (w : World Db Event) :
    Undone (rerollActiveCycle categoryId headers now random) w ↔
      ActiveReplaceable categoryId headers w := by
  cases hcat : fetchCategory categoryId w.db with
  | none =>
      refine iff_of_true (undone_of_untouched (bind_of_error (requireCategory_of_none hcat))) ?_
      intro cat cy edition h
      rw [hcat] at h
      cases h
  | some cat =>
      cases hcy : fetchActiveCycle categoryId w.db with
      | none =>
          have hrun : rerollActiveCycle categoryId headers now random w =
              .error (.domain (.noCycleActive categoryId)) w := by
            rw [rerollActiveCycle, bind_of_ok (requireCategory_of_some hcat), query_bind_apply, hcy]
            rfl
          refine iff_of_true (undone_of_untouched hrun) ?_
          intro cat cy edition _ h
          rw [hcy] at h
          cases h
      | some cy =>
          cases hedition : cycleEdition cy w.db with
          | none =>
              have hrun : rerollActiveCycle categoryId headers now random w =
                  .error (.domain (.noCycleActive categoryId)) w := by
                rw [rerollActiveCycle, bind_of_ok (requireCategory_of_some hcat), query_bind_apply, hcy]
                change (query (cycleEdition cy) >>= _) w = _
                rw [query_bind_apply, hedition]
                rfl
              refine iff_of_true (undone_of_untouched hrun) ?_
              intro cat' cy' edition _ hcy' hedition'
              rw [hcy, Option.some.injEq] at hcy'
              rw [← hcy', hedition] at hedition'
              cases hedition'
          | some edition =>
              let w₁ : World Db Event :=
                { w with db := deleteCycle cy.id (deleteCycleCompletions cy.id w.db).2 }
              have hrun : rerollActiveCycle categoryId headers now random w = (do
                  let selected ← selectMapFor cat w₁.db.config [cy.mapId] now random
                  replaceActive categoryId edition selected headers) w₁ := by
                rw [rerollActiveCycle, bind_of_ok (requireCategory_of_some hcat), query_bind_apply, hcy]
                change (query (cycleEdition cy) >>= _) w = _
                rw [query_bind_apply, hedition]
                rfl
              have hcond : ActiveReplaceable categoryId headers w ↔
                  HasMap w.db cat ∧ Announces headers w := by
                constructor
                · exact fun h ↦ h cat cy edition hcat hcy hedition
                · intro h cat' _ _ hcat' _ _
                  rw [hcat, Option.some.injEq] at hcat'
                  rw [← hcat']
                  exact h
              have hmem : cy ∈ w.db.cycles.rows := List.mem_of_find?_eq_some hcy
              have hgone : cy ∉ w₁.db.cycles.rows := not_mem_deleteCycle cy _
              rw [hcond]
              rcases selectMapFor_cases now w₁ cat w₁.db.config [cy.mapId] random with
                ⟨hmap, m, hm, _, hok⟩ | ⟨hmap, e, herror⟩
              · have hreplace := hrun.trans (bind_of_ok hok)
                rcases replaceActive_cases (w := w₁) categoryId edition headers hm with
                  ⟨hannounces, created, w', h⟩ | ⟨hannounces, e, w', hdb, h⟩
                · exact iff_of_true (undone_of_ok (hreplace.trans h)) ⟨hmap, hannounces⟩
                · apply iff_of_false _ fun hboth ↦ hannounces hboth.2
                  apply not_undone_of_removed (hreplace.trans h) hmem
                  rw [hdb]
                  intro hin
                  rcases Table.mem_insert.mp hin with hin | hnew
                  · exact hgone hin
                  · -- the id of the new cycle was not in use
                    have hfresh : cy.id < w.db.cycles.nextId := w.db.cycles.fresh cy hmem
                    have hid : cy.id = w.db.cycles.nextId := congrArg Cycle.id hnew
                    omega
              · apply iff_of_false _ fun hboth ↦ hmap hboth.1
                exact not_undone_of_removed (hrun.trans (bind_of_error herror)) hmem hgone

/-- A reroll that raises leaves the cycles and their completions as they were exactly where the
category has a map once there is a cycle to replace and, for an active cycle, the announcement
can be sent. -/
theorem rerolls_undone_iff (categoryId : Nat) (headers : Headers) (now : Int)
    (random : Shuffle CoreMap) (w : World Db Event) :
    (Undone (rerollMap categoryId now random) w ↔ PendingReplaceable categoryId w.db) ∧
      (Undone (rerollActiveCycle categoryId headers now random) w ↔
        ActiveReplaceable categoryId headers w) :=
  ⟨rerollMap_undone_iff categoryId now random w,
    rerollActiveCycle_undone_iff categoryId headers now random w⟩

/-- A category whose only map has been archived since it was chosen, with a run on the active
cycle. -/
def archivedMap : Db where
  categories := Table.empty.insert fun id ↦ { id, name := "Easy", difficulties := [.easy] }
  maps := Table.empty.insert fun id ↦ { id, code := some "ABCD", difficulty := .easy
                                        archived := true }
  editions := Table.empty.insert fun id ↦ { id, startedAt := 0, endsAt := 604800 }
  cycles := (Table.empty.insert fun id ↦ { id, categoryId := 1, mapId := 1 }).insert fun id ↦
    { id, categoryId := 1, mapId := 1, status := .active, startedAt := some 0, editionId := some 1 }
  completions := Table.empty.insert fun id ↦
    { id, cycleId := 2, userId := 7, mapId := 1, time := 1000, screenshot := "s", insertedAt := 5 }

/-- Both rerolls raise, and the cycle they were to replace is gone, the run with it. -/
theorem archivedMap_not_undone :
    ¬ Undone (rerollMap 1 9 default) { db := archivedMap } ∧
      ¬ Undone (rerollActiveCycle 1 {} 9 default) { db := archivedMap } := by
  constructor
  · intro h
    have hcycles := congrArg (·.rows.length) (h (by decide +kernel)).1
    revert hcycles
    decide +kernel
  · intro h
    have hruns := congrArg (·.rows.length) (h (by decide +kernel)).2
    revert hruns
    decide +kernel

end Genjishimada.Tournaments
