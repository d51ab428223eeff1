import Genjishimada.Tournaments.Editions
import Mathlib

/-!
# The least recently used map

Where no map is eligible, the next map is the first row of the maps joined with their cycles, in
the order of the starts.  A map has a row for each of its cycles, so it stands in that order with
its *first* use, and with a cycle that has not started before all others.  The row it should
stand with is its last.
-/

namespace Genjishimada.Tournaments

open Library Sdk Repository Migrations Services

/-- The maps the fallback chooses from. -/
def candidates (difficulties : List DifficultyTop) (db : Db) : List CoreMap :=
  db.maps.select (selectable difficulties)

/-- The query, with rows of equal starts in any order. -/
def leastRecentlyUsed (ties : Shuffle (CoreMap × WithBot Int)) (difficulties : List DifficultyTop)
    (db : Db) : Option CoreMap :=
  ((orderBy Prod.snd (ties.order ((candidates difficulties db).flatMap (usesOf db)))).head?).map
    Prod.fst

/-- The starts of the cycles on a map; `⊥` is a cycle that has not started. -/
def startsOf (db : Db) (m : CoreMap) : List (WithBot Int) :=
  (db.cycles.select fun cy ↦ cy.mapId = m.id).map Cycle.startedAt

/-- The first start of a map; `⊥` without a cycle or with one that has not started. -/
def firstUse (db : Db) (m : CoreMap) : WithBot Int := (startsOf db m).min?.getD ⊥

/-- The last start of a map; `⊥` if it was never started. -/
def lastStart (db : Db) (m : CoreMap) : WithBot Int := (startsOf db m).foldr (· ⊔ ·) ⊥

/-- The most recent use of a map.  One that is staged and was never started is not one that was
never used: its use is still to come. -/
def lastUse (db : Db) (m : CoreMap) : WithBot (WithTop Int) :=
  if lastStart db m = ⊥ ∧ staged db m.id then ⊤ else (lastStart db m).map WithTop.some

/-- No candidate was last used before the map. -/
def LeastRecent (difficulties : List DifficultyTop) (db : Db) (m : CoreMap) : Prop :=
  ∀ m' ∈ candidates difficulties db, lastUse db m ≤ lastUse db m'

/-- The candidates that were used first are the ones that were last used first. -/
def FirstIsLeastRecent (difficulties : List DifficultyTop) (db : Db) : Prop :=
  ∀ m ∈ candidates difficulties db,
    (∀ m' ∈ candidates difficulties db, firstUse db m ≤ firstUse db m') →
      LeastRecent difficulties db m

/-! ## What the query may return -/

section Query

variable {difficulties : List DifficultyTop} {db : Db} {m : CoreMap} {start : WithBot Int}

theorem fst_of_mem_usesOf {row : CoreMap × WithBot Int} (h : row ∈ usesOf db m) : row.1 = m := by
  rw [usesOf] at h
  split at h
  · exact congrArg Prod.fst (List.mem_singleton.mp h)
  · obtain ⟨cy, _, rfl⟩ := List.mem_map.mp h
    rfl

theorem usesOf_eq (db : Db) (m : CoreMap) :
    usesOf db m = (if startsOf db m = [] then [⊥] else startsOf db m).map fun s ↦ (m, s) := by
  rw [usesOf, startsOf]
  cases db.cycles.select fun cy ↦ cy.mapId = m.id with
  | nil => rfl
  | cons cy cys =>
      have hne : ¬ ((cy :: cys).map Cycle.startedAt : List (WithBot Int)) = [] :=
        List.cons_ne_nil _ _
      rw [if_neg hne]
      exact List.map_map.symm

theorem mem_usesOf : (m, start) ∈ usesOf db m ↔
    start ∈ if startsOf db m = [] then [⊥] else startsOf db m := by
  rw [usesOf_eq]
  constructor
  · intro h
    obtain ⟨s, hs, heq⟩ := List.mem_map.mp h
    rw [← (Prod.mk.inj heq).2]
    exact hs
  · exact fun h ↦ List.mem_map_of_mem h

/-- The first use of a map is the least of its rows. -/
theorem firstUse_mem (db : Db) (m : CoreMap) : (m, firstUse db m) ∈ usesOf db m := by
  rw [mem_usesOf, firstUse]
  split
  · rename_i hnil
    rw [hnil]
    exact List.mem_singleton_self _
  · rename_i hne
    cases hmin : (startsOf db m).min? with
    | none => exact absurd (List.min?_eq_none_iff.mp hmin) hne
    | some s => exact List.min?_mem hmin

theorem firstUse_le (h : (m, start) ∈ usesOf db m) : firstUse db m ≤ start := by
  rw [mem_usesOf] at h
  rw [firstUse]
  cases hmin : (startsOf db m).min? with
  | none => exact bot_le
  | some s =>
      have hne : startsOf db m ≠ [] := by
        intro hnil
        rw [hnil] at hmin
        cases hmin
      rw [if_neg hne] at h
      exact (List.min?_eq_some_iff.mp hmin).2 start h

theorem mem_rows {row : CoreMap × WithBot Int} :
    row ∈ (candidates difficulties db).flatMap (usesOf db) ↔
      row.1 ∈ candidates difficulties db ∧ row ∈ usesOf db row.1 := by
  rw [List.mem_flatMap]
  constructor
  · rintro ⟨m, hm, hrow⟩
    obtain rfl := fst_of_mem_usesOf hrow
    exact ⟨hm, hrow⟩
  · exact fun ⟨hm, hrow⟩ ↦ ⟨row.1, hm, hrow⟩

/-- The map that is returned was used first. -/
theorem first_of_leastRecentlyUsed {ties : Shuffle (CoreMap × WithBot Int)}
    (h : leastRecentlyUsed ties difficulties db = some m) :
    m ∈ candidates difficulties db ∧
      ∀ m' ∈ candidates difficulties db, firstUse db m ≤ firstUse db m' := by
  obtain ⟨⟨m₀, start⟩, hhead, rfl⟩ := Option.map_eq_some_iff.mp h
  obtain ⟨rest, hsorted⟩ := List.head?_eq_some_iff.mp hhead
  have hmem := mem_rows.mp (ties.mem_order.mp (mem_orderBy.mp (List.mem_of_head? hhead)))
  refine ⟨hmem.1, fun m' hm' ↦ ?_⟩
  have hrow : (m', firstUse db m') ∈ (candidates difficulties db).flatMap (usesOf db) :=
    mem_rows.mpr ⟨hm', firstUse_mem db m'⟩
  exact (firstUse_le hmem.2).trans (orderBy_head_le hsorted (ties.mem_order.mpr hrow))

/-- The order that puts one row before all others. -/
def putFirst (row : CoreMap × WithBot Int) : Shuffle (CoreMap × WithBot Int) where
  order l := if row ∈ l then row :: l.erase row else l
  perm l := by
    split
    · rename_i hrow
      exact (List.perm_cons_erase hrow).symm
    · exact .refl l

/-- Any map that was used first may be returned. -/
theorem exists_leastRecentlyUsed (hm : m ∈ candidates difficulties db)
    (hfirst : ∀ m' ∈ candidates difficulties db, firstUse db m ≤ firstUse db m') :
    ∃ ties, leastRecentlyUsed ties difficulties db = some m := by
  have hrow : (m, firstUse db m) ∈ (candidates difficulties db).flatMap (usesOf db) :=
    mem_rows.mpr ⟨hm, firstUse_mem db m⟩
  refine ⟨putFirst (m, firstUse db m), ?_⟩
  have hle : ∀ row ∈ ((candidates difficulties db).flatMap (usesOf db)).erase (m, firstUse db m),
      firstUse db m ≤ row.2 := by
    intro row hrow
    obtain ⟨hcandidate, huse⟩ := mem_rows.mp (List.mem_of_mem_erase hrow)
    exact (hfirst row.1 hcandidate).trans (firstUse_le huse)
  rw [leastRecentlyUsed, putFirst]
  simp only [if_pos hrow]
  rw [orderBy, List.insertionSort_cons_of_forall_rel _ hle]
  rfl

/-- The repository's query leaves the rows as they come. -/
theorem fetchLeastRecentlyUsedMap_eq (difficulties : List DifficultyTop) (db : Db) :
    fetchLeastRecentlyUsedMap difficulties db = leastRecentlyUsed default difficulties db := rfl

end Query

/-- Whichever of several rows of equal starts comes first, the fallback returns a least recently
used map exactly where the candidates that were used first are least recently used. -/
theorem leastRecentlyUsed_iff (difficulties : List DifficultyTop) (db : Db) :
    (∀ ties m, leastRecentlyUsed ties difficulties db = some m → LeastRecent difficulties db m) ↔
      FirstIsLeastRecent difficulties db := by
  constructor
  · intro h m hm hfirst
    obtain ⟨ties, hties⟩ := exists_leastRecentlyUsed hm hfirst
    exact h ties m hties
  · intro h ties m hties
    obtain ⟨hm, hfirst⟩ := first_of_leastRecentlyUsed hties
    exact h m hm hfirst

/-- Where no map is eligible, a transition falls back to the same query. -/
theorem selectEligibleMap_of_exhausted {categoryId : Nat} {cat : Category} {db : Db} {now : Int}
    {random : Shuffle CoreMap} (hcat : fetchCategory categoryId db = some cat)
    (hpool : fetchEligibleMaps cat.difficulties db.config.blacklistWeeks [] now random db = []) :
    selectEligibleMap categoryId now random db =
      (leastRecentlyUsed default cat.difficulties db).map CoreMap.id := by
  rw [selectEligibleMap, hcat, Option.bind_some, hpool, ← fetchLeastRecentlyUsedMap_eq]
  rfl

/-- Two maps of a category, with these starts of their cycles. -/
def usedMaps (cycles : Table Cycle) : Db where
  categories := Table.empty.insert fun id ↦ { id, name := "Easy", difficulties := [.easy] }
  maps := (Table.empty.insert fun id ↦ { id, code := some "ABCD", difficulty := .easy }).insert
    fun id ↦ { id, code := some "EFGH", difficulty := .easy }
  cycles := cycles

/-- The first map was used before the second and again after it. -/
def usedTwice : Db := usedMaps <|
  ((Table.empty.insert fun id ↦ { id, categoryId := 1, mapId := 1, status := .completed
                                  startedAt := some 1000 }).insert fun id ↦
    { id, categoryId := 1, mapId := 2, status := .completed, startedAt := some 2000 }).insert fun id ↦
      { id, categoryId := 1, mapId := 1, status := .completed, startedAt := some 3000 }

/-- The first map is staged, the second was used. -/
def stagedFirst : Db := usedMaps <|
  (Table.empty.insert fun id ↦ { id, categoryId := 1, mapId := 1 }).insert fun id ↦
    { id, categoryId := 1, mapId := 2, status := .completed, startedAt := some 2000 }

/-- No map is eligible, and the fallback returns the map that was last used last, or the staged
one. -/
theorem usedMaps_not_leastRecent : [usedTwice, stagedFirst].Forall fun db ↦
    selectEligibleMap 1 4000 default db = some 1 ∧
      ∃ m, fetchLeastRecentlyUsedMap [.easy] db = some m ∧
        fetchEligibleMaps [.easy] db.config.blacklistWeeks [] 4000 default db = [] ∧
        ¬ LeastRecent [.easy] db m := by
  rw [List.forall_iff_forall_mem]
  intro db hdb
  have hchosen : ∀ db ∈ [usedTwice, stagedFirst],
      selectEligibleMap 1 4000 default db = some 1 ∧
        (fetchLeastRecentlyUsedMap [.easy] db).map CoreMap.id = some 1 ∧
        fetchEligibleMaps [.easy] db.config.blacklistWeeks [] 4000 default db = [] ∧
        ∀ m ∈ candidates [.easy] db, m.id = 1 →
          ∃ m' ∈ candidates [.easy] db, ¬ lastUse db m ≤ lastUse db m' := by
    decide +kernel
  obtain ⟨hselected, hfetched, hpool, hlater⟩ := hchosen db hdb
  obtain ⟨m, hm, hid⟩ := Option.map_eq_some_iff.mp hfetched
  obtain ⟨hrow, hselectable⟩ := selectable_of_fetchLeastRecentlyUsedMap hm
  obtain ⟨m', hm', hlt⟩ := hlater m (Table.mem_select.mpr ⟨hrow, hselectable⟩) hid
  exact ⟨hselected, m, hm, hpool, fun h ↦ hlt (h m' hm')⟩

end Genjishimada.Tournaments
