import Genjishimada.Maps.Search
import Mathlib.Algebra.Order.Ring.Rat
import Mathlib.Logic.Function.Basic

/-!
# Paging the map search

A client asks for page after page, and the database orders the rows anew for each of them,
as the `ORDER BY` allows; it also joins any one of several playtests of a map that were
created at the same time.  The search without a sort orders by `raw_difficulty` alone, so
that a tie at the end of a page is shown twice or not at all, and a filter on creator ids
that stands alone shows a map once for each creator: the pages are exact when neither
happens (`paging_exact_iff`).
-/

namespace Genjishimada.Maps

open Library Repository Sdk

/-! ## The order of the rows -/

section Order

variable {α : Type} {le : α → α → Bool}

theorem nullsFirst_total (h : ∀ a b, le a b = true ∨ le b a = true) (x y : Option α) :
    nullsFirst le x y = true ∨ nullsFirst le y x = true := by
  cases x with
  | none => exact .inl rfl
  | some a =>
      cases y with
      | none => exact .inr rfl
      | some b => exact h a b

theorem nullsFirst_trans (h : ∀ a b c, le a b = true → le b c = true → le a c = true)
    (x y z : Option α) (hxy : nullsFirst le x y = true) (hyz : nullsFirst le y z = true) :
    nullsFirst le x z = true := by
  cases x with
  | none => rfl
  | some a =>
      cases y with
      | none => cases hxy
      | some b =>
          cases z with
          | none => cases hyz
          | some c => exact h a b c hxy hyz

variable {value : MapRow → Option α} {direction : Direction}

theorem columnLe_total (h : ∀ a b, le a b = true ∨ le b a = true) (m m' : MapRow) :
    columnLe direction le value m m' = true ∨ columnLe direction le value m' m = true := by
  cases direction with
  | asc => exact nullsFirst_total h _ _
  | desc => exact nullsFirst_total (fun a b ↦ h b a) _ _

theorem columnLe_trans (h : ∀ a b c, le a b = true → le b c = true → le a c = true)
    (m₁ m₂ m₃ : MapRow) (h₁₂ : columnLe direction le value m₁ m₂ = true)
    (h₂₃ : columnLe direction le value m₂ m₃ = true) :
    columnLe direction le value m₁ m₃ = true := by
  cases direction with
  | asc => exact nullsFirst_trans h _ _ _ h₁₂ h₂₃
  | desc => exact nullsFirst_trans (fun a b c hab hbc ↦ h c b a hbc hab) _ _ _ h₁₂ h₂₃

theorem decide_le_total [LinearOrder α] (a b : α) :
    decide (a ≤ b) = true ∨ decide (b ≤ a) = true := by
  simpa using le_total a b

theorem decide_le_trans [LinearOrder α] (a b c : α) (hab : decide (a ≤ b) = true)
    (hbc : decide (b ≤ c) = true) : decide (a ≤ c) = true :=
  decide_eq_true ((of_decide_eq_true hab).trans (of_decide_eq_true hbc))

end Order

section OrderBy

variable (backend : Backend) (f : MapSearchFilters) (db : MapsDb)

theorem sortKey_le_total (key : SortKey) (m m' : MapRow) :
    key.le backend db m m' = true ∨ key.le backend db m' m = true := by
  rw [SortKey.le]
  cases key.column with
  | difficulty => exact columnLe_total decide_le_total m m'
  | checkpoints => exact columnLe_total decide_le_total m m'
  | ratings => exact columnLe_total decide_le_total m m'
  | mapName => exact columnLe_total backend.textLe_total m m'
  | title => exact columnLe_total backend.textLe_total m m'
  | code => exact columnLe_total backend.textLe_total m m'

theorem sortKey_le_trans (key : SortKey) (m₁ m₂ m₃ : MapRow) :
    key.le backend db m₁ m₂ = true → key.le backend db m₂ m₃ = true →
      key.le backend db m₁ m₃ = true := by
  rw [SortKey.le]
  cases key.column with
  | difficulty => exact columnLe_trans decide_le_trans m₁ m₂ m₃
  | checkpoints => exact columnLe_trans decide_le_trans m₁ m₂ m₃
  | ratings => exact columnLe_trans decide_le_trans m₁ m₂ m₃
  | mapName => exact columnLe_trans backend.textLe_trans m₁ m₂ m₃
  | title => exact columnLe_trans backend.textLe_trans m₁ m₂ m₃
  | code => exact columnLe_trans backend.textLe_trans m₁ m₂ m₃

instance instTotalKey (key : SortKey) : Std.Total fun a b ↦ key.le backend db a b = true :=
  ⟨sortKey_le_total backend db key⟩

instance instTransKey (key : SortKey) : IsTrans MapRow fun a b ↦ key.le backend db a b = true :=
  ⟨sortKey_le_trans backend db key⟩

instance instTotalSortLe (keys : List SortKey) : Std.Total (sortLe backend db keys) := by
  induction keys with
  | nil => exact ⟨fun a b ↦ le_total a.id b.id⟩
  | cons key keys ih => exact instTotalThenBy

instance instTransSortLe (keys : List SortKey) : IsTrans MapRow (sortLe backend db keys) := by
  induction keys with
  | nil => exact ⟨fun _ _ _ ↦ le_trans⟩
  | cons key keys ih => exact instTransThenBy

instance instDecidableSortLe : (keys : List SortKey) → DecidableRel (sortLe backend db keys)
  | [] => fun a b ↦ inferInstanceAs (Decidable (a.id ≤ b.id))
  | key :: keys =>
      have := instDecidableSortLe keys
      inferInstanceAs (DecidableRel (ThenBy (fun a b ↦ key.le backend db a b = true) _))

/-- Rows tied in all keys are the same map. -/
theorem sortLe_antisymm {keys : List SortKey} {a b : MapRow} (hab : sortLe backend db keys a b)
    (hba : sortLe backend db keys b a) : a.id = b.id := by
  induction keys with
  | nil => exact le_antisymm hab hba
  | cons key keys ih =>
      obtain ⟨hab, hba⟩ := hab.tie hba
      exact ih hab hba

instance instTotalOrderLe : Std.Total (orderLe backend f db) where
  total a b := by
    rw [orderLe, orderLe]
    split
    · exact le_total _ _
    · exact Std.Total.total a b

instance instTransOrderLe : IsTrans MapRow (orderLe backend f db) where
  trans a b c := by
    rw [orderLe, orderLe, orderLe]
    split
    · exact le_trans
    · exact IsTrans.trans a b c

instance instDecidableOrderLe : DecidableRel (orderLe backend f db) :=
  fun a b ↦ inferInstanceAs (Decidable
    (if f.sort = [] then a.rawDifficulty ≤ b.rawDifficulty else sortLe backend db f.sort a b))

/-! ## Exact paging -/

/-- The order in which the database may return the rows of the query. -/
def IsAnswer (answer : List MapRow) : Prop :=
  ∃ pick, (∀ id, pick id ∈ newestPlaytests f db id) ∧
    Resolves (orderLe backend f db) (searchRows backend f db pick) answer

/-- The first `n` pages. -/
def results (answers : Nat → List MapRow) (n : Nat) : List SearchRow :=
  (List.range n).flatMap fun k : Nat ↦ fetchMaps { f with pageNumber := k + 1 } (answers k)

/-- Whatever the answers of the database, the pages show every map that satisfies the filters
exactly once, and say how many there are. -/
def PagingExact : Prop :=
  ∀ answers, (∀ k, IsAnswer backend f db (answers k)) →
    ∀ n, (satisfying backend f db).length ≤ n * f.pageSize →
      ((results f answers n).map SearchRow.map).Perm (satisfying backend f db) ∧
        ∀ r ∈ results f answers n, r.totalResults = (satisfying backend f db).length

/-- The query has a row for each map that satisfies the filters. -/
structure RowPerMap : Prop where
  /-- Of the playtests that may be joined to a map, all pass the filters or none does. -/
  playtests : ∀ m ∈ db.maps.rows, relatedFilters backend f db m.id = true →
    ∀ pm ∈ newestPlaytests f db m.id, ∀ pm' ∈ newestPlaytests f db m.id,
      whereClauses backend f m pm = true → whereClauses backend f m pm' = true
  /-- If only creator ids are asked for, no map has two of them. -/
  creators : OnlyCreatorIds f → ∀ m ∈ satisfying backend f db,
    (db.creators.countP fun c ↦ c.1 = m.id ∧ c.2 ∈ f.creatorIds) ≤ 1

/-- Nothing is shown twice, and nothing left out. -/
structure Pageable : Prop extends RowPerMap backend f db where
  /-- `return_all` shows no pages. -/
  paged : f.returnAll = true → satisfying backend f db = []
  /-- Without a sort, no page ends among maps of one raw difficulty. -/
  ties : f.sort = [] → Settled (fun a b : MapRow ↦ a.rawDifficulty ≤ b.rawDifficulty) f.pageSize
    (satisfying backend f db)

end OrderBy

/-! ## The rows of the query -/

section Rows

variable {backend : Backend} {f : MapSearchFilters} {db : MapsDb} {m : MapRow} {answer : List MapRow}
  {answers : Nat → List MapRow} {n : Nat} {pick : Nat → Option PlaytestMeta}

/-- A map has a playtest that may be joined to it, be it none at all. -/
theorem exists_mem_newestPlaytests (f : MapSearchFilters) (db : MapsDb) (mapId : Nat) :
    ∃ pm, pm ∈ newestPlaytests f db mapId := by
  rw [newestPlaytests]
  split
  · exact ⟨none, List.mem_singleton.mpr rfl⟩
  · next hmetas =>
      let newer (p q : PlaytestMeta) : Prop :=
        nullsFirst (fun x y ↦ decide (y ≤ x)) p.createdAt q.createdAt = true
      have htotal : Std.Total newer :=
        ⟨fun p q ↦ nullsFirst_total (fun a b ↦ decide_le_total b a) _ _⟩
      have htrans : IsTrans PlaytestMeta newer :=
        ⟨fun p q r ↦ nullsFirst_trans (fun a b c hab hbc ↦ decide_le_trans c b a hbc hab) _ _ _⟩
      have hleast : ∃ p ∈ playtestMetas f db mapId, ∀ q ∈ playtestMetas f db mapId, newer p q :=
        exists_least hmetas
      obtain ⟨p, hp, hnewest⟩ := hleast
      exact ⟨some p, List.mem_map_of_mem (List.mem_filter.mpr ⟨hp, List.all_eq_true.mpr hnewest⟩)⟩

/-- Playtests can be joined, and any that may be to a given map. -/
theorem exists_pick (f : MapSearchFilters) (db : MapsDb) {mapId : Nat} {pm : Option PlaytestMeta}
    (hpm : pm ∈ newestPlaytests f db mapId) :
    ∃ pick : Nat → Option PlaytestMeta,
      (∀ id, pick id ∈ newestPlaytests f db id) ∧ pick mapId = pm := by
  choose pick hpick using exists_mem_newestPlaytests f db
  refine ⟨Function.update pick mapId pm, fun id ↦ ?_, Function.update_self ..⟩
  by_cases hid : id = mapId
  · subst hid
    rwa [Function.update_self]
  · rw [Function.update_of_ne hid]
    exact hpick id

theorem mem_satisfying : m ∈ satisfying backend f db ↔ m ∈ db.maps.rows ∧
    relatedFilters backend f db m.id = true ∧
      ∃ pm ∈ newestPlaytests f db m.id, whereClauses backend f m pm = true := by
  rw [satisfying, Table.mem_select, satisfies, Bool.and_eq_true, List.any_eq_true]

/-- The rows are the maps that satisfy the filters, if it does not matter which playtests are
joined. -/
theorem mem_searchRows (h : RowPerMap backend f db) (hpick : ∀ id, pick id ∈ newestPlaytests f db id) :
    m ∈ searchRows backend f db pick ↔ m ∈ satisfying backend f db := by
  rw [searchRows, List.mem_filter, mem_fromRows, mem_satisfying, and_assoc]
  refine and_congr_right fun hm ↦ and_congr_right fun hrelated ↦ ?_
  constructor
  · exact fun hwhere ↦ ⟨_, hpick m.id, hwhere⟩
  · rintro ⟨pm, hpm, hwhere⟩
    exact h.playtests m hm hrelated pm hpm _ (hpick m.id) hwhere

/-- And each is there once. -/
theorem searchRows_perm (hvalid : f.Valid) (h : RowPerMap backend f db)
    (hpick : ∀ id, pick id ∈ newestPlaytests f db id) :
    (searchRows backend f db pick).Perm (satisfying backend f db) := by
  have hnodup : (searchRows backend f db pick).Nodup := by
    by_cases hids : OnlyCreatorIds f
    · rw [List.nodup_iff_count_le_one]
      intro m
      by_cases hm : m ∈ searchRows backend f db pick
      · have hsatisfies := (mem_searchRows h hpick).mp hm
        have hle : (searchRows backend f db pick).count m ≤ (fromRows backend f db).count m :=
          List.filter_sublist.count_le m
        rw [count_fromRows hvalid hids (mem_satisfying.mp hsatisfies).1] at hle
        exact hle.trans (h.creators hids m hsatisfies)
      · rw [List.count_eq_zero_of_not_mem hm]
        exact Nat.zero_le 1
    · exact (nodup_fromRows hids).filter _
  have hsatisfying : (satisfying backend f db).Nodup := db.maps.rows_nodup.filter _
  exact (List.perm_ext_iff_of_nodup hnodup hsatisfying).mpr fun m ↦ mem_searchRows h hpick

/-- Page after page, the rows of the search are the pages of the answers. -/
theorem map_results (hpaged : f.returnAll = false) :
    (results f answers n).map SearchRow.map = pages f.pageSize answers n := by
  rw [results, pages, List.map_flatMap]
  refine List.flatMap_congr fun k _ ↦ ?_
  have hpage : (max 1 ((k : Int) + 1) - 1).toNat = k := by omega
  simp only [fetchMaps, hpaged, Bool.false_eq_true, if_false, hpage, List.map_map]
  exact List.map_id _

/-- What is shown has been answered. -/
theorem mem_of_mem_results {r : SearchRow} (hr : r ∈ results f answers n) :
    ∃ k, r.map ∈ answers k ∧ r.totalResults = (answers k).length := by
  obtain ⟨k, _, hr⟩ := List.mem_flatMap.mp hr
  simp only [fetchMaps] at hr
  obtain ⟨m, hm, rfl⟩ := List.mem_map.mp hr
  refine ⟨k, ?_, rfl⟩
  split at hm
  · exact hm
  · exact List.mem_of_mem_drop (List.mem_of_mem_take hm)

/-! ## When the pages are exact -/

/-- An order of the rows is an answer, and one is enough for all queries. -/
theorem isAnswer_insertionSort (hpick : ∀ id, pick id ∈ newestPlaytests f db id) :
    IsAnswer backend f db ((searchRows backend f db pick).insertionSort (orderLe backend f db)) :=
  ⟨pick, hpick, resolves_insertionSort _ _⟩

/-- The ties of the `ORDER BY` are settled. -/
theorem Pageable.settled (h : Pageable backend f db) :
    Settled (orderLe backend f db) f.pageSize (satisfying backend f db) := by
  by_cases hsort : f.sort = []
  · have hiff : ∀ a b, orderLe backend f db a b ↔ a.rawDifficulty ≤ b.rawDifficulty := by
      intro a b
      rw [orderLe, if_pos hsort]
    exact (settled_congr hiff).mpr (h.ties hsort)
  · refine settled_of_antisymm (db.maps.rows_nodup.filter _) fun a ha b hb hab hba ↦ ?_
    rw [orderLe, if_neg hsort] at hab hba
    exact Table.eq_of_key_eq (mem_satisfying.mp ha).1 (mem_satisfying.mp hb).1
      (sortLe_antisymm backend db hab hba)

theorem Pageable.exact (hvalid : f.Valid) (h : Pageable backend f db) :
    PagingExact backend f db := by
  intro answers hanswers n hn
  have hresolves : ∀ k, Resolves (orderLe backend f db) (satisfying backend f db) (answers k) := by
    intro k
    obtain ⟨pick, hpick, hperm, hsorted⟩ := hanswers k
    exact ⟨hperm.trans (searchRows_perm hvalid h.toRowPerMap hpick), hsorted⟩
  constructor
  · cases hpaged : f.returnAll with
    | false =>
        rw [map_results hpaged]
        exact pages_perm h.settled hresolves hn
    | true =>
        have hnil := h.paged hpaged
        have hresults : results f answers n = [] := by
          rw [List.eq_nil_iff_forall_not_mem]
          intro r hr
          obtain ⟨k, hk, _⟩ := mem_of_mem_results hr
          have hmem := (hresolves k).perm.mem_iff.mp hk
          rw [hnil] at hmem
          cases hmem
        rw [hresults, hnil]
        exact .refl _
  · intro r hr
    obtain ⟨k, _, htotal⟩ := mem_of_mem_results hr
    rw [htotal, (hresolves k).perm.length_eq]

/-- A map that one playtest lets through is shown with any other as well. -/
theorem PagingExact.playtests (h : PagingExact backend f db) (hm : m ∈ db.maps.rows)
    (hrelated : relatedFilters backend f db m.id = true) {pm pm' : Option PlaytestMeta}
    (hsize : 0 < f.pageSize) (hpm : pm ∈ newestPlaytests f db m.id)
    (hpm' : pm' ∈ newestPlaytests f db m.id) (hwhere : whereClauses backend f m pm = true) :
    whereClauses backend f m pm' = true := by
  obtain ⟨pick, hpick, hpick'⟩ := exists_pick f db hpm'
  obtain ⟨hperm, _⟩ := h _ (fun _ ↦ isAnswer_insertionSort hpick)
    (satisfying backend f db).length (Nat.le_mul_of_pos_right _ hsize)
  have hshown := hperm.mem_iff.mpr (mem_satisfying.mpr ⟨hm, hrelated, pm, hpm, hwhere⟩)
  obtain ⟨r, hr, rfl⟩ := List.mem_map.mp hshown
  obtain ⟨_, hanswer, _⟩ := mem_of_mem_results hr
  have hrow := (List.perm_insertionSort _ _).mem_iff.mp hanswer
  rw [← hpick']
  exact (List.mem_filter.mp hrow).2

/-- With `return_all` every page shows all rows. -/
theorem PagingExact.paged (h : PagingExact backend f db) (hsize : 0 < f.pageSize)
    (hall : f.returnAll = true) : satisfying backend f db = [] := by
  choose pick hpick using exists_mem_newestPlaytests f db
  let answer := (searchRows backend f db pick).insertionSort (orderLe backend f db)
  have hlength : ∀ n, (satisfying backend f db).length ≤ n * f.pageSize →
      n * answer.length = (satisfying backend f db).length := by
    intro n hn
    obtain ⟨hperm, _⟩ := h (fun _ ↦ answer) (fun _ ↦ isAnswer_insertionSort hpick) n hn
    rw [← hperm.length_eq, List.length_map, results, List.length_flatMap]
    simp [fetchMaps, hall]
  have hn := hlength _ (Nat.le_mul_of_pos_right _ hsize)
  have hn' := hlength ((satisfying backend f db).length + 1)
    ((Nat.le_succ _).trans (Nat.le_mul_of_pos_right _ hsize))
  rw [Nat.succ_mul] at hn'
  have hzero : answer.length = 0 := by omega
  rw [hzero, Nat.mul_zero] at hn
  exact List.length_eq_zero_iff.mp hn.symm

/-- A map is not shown once for each of its creators. -/
theorem PagingExact.creators (h : PagingExact backend f db) (hvalid : f.Valid)
    (hsize : 0 < f.pageSize) (hids : OnlyCreatorIds f) (hm : m ∈ satisfying backend f db) :
    (db.creators.countP fun c ↦ c.1 = m.id ∧ c.2 ∈ f.creatorIds) ≤ 1 := by
  have hpaged : f.returnAll = false := by
    cases hall : f.returnAll with
    | false => rfl
    | true =>
        rw [h.paged hsize hall] at hm
        cases hm
  obtain ⟨hrow, _, pm, hpm, hwhere⟩ := mem_satisfying.mp hm
  obtain ⟨pick, hpick, hpick'⟩ := exists_pick f db hpm
  let answer := (searchRows backend f db pick).insertionSort (orderLe backend f db)
  let n := (satisfying backend f db).length + answer.length
  have hn : n ≤ n * f.pageSize := Nat.le_mul_of_pos_right _ hsize
  obtain ⟨hperm, _⟩ := h (fun _ ↦ answer) (fun _ ↦ isAnswer_insertionSort hpick) n
    ((Nat.le_add_right _ _).trans hn)
  -- the pages of one answer are its rows, so the rows are as distinct as the maps
  rw [map_results hpaged, pages_const,
    List.take_of_length_le ((Nat.le_add_left _ _).trans hn)] at hperm
  have hnodup : (searchRows backend f db pick).Nodup :=
    (List.perm_insertionSort _ _).nodup_iff.mp
      (hperm.nodup_iff.mpr (db.maps.rows_nodup.filter _))
  rw [← count_fromRows hvalid hids hrow, ← List.count_filter (p := fun m ↦
    whereClauses backend f m (pick m.id)) (by rw [hpick', hwhere])]
  exact List.nodup_iff_count_le_one.mp hnodup m

theorem PagingExact.rowPerMap (h : PagingExact backend f db) (hvalid : f.Valid)
    (hsize : 0 < f.pageSize) : RowPerMap backend f db :=
  ⟨fun _ hm hrelated _ hpm _ hpm' ↦ h.playtests hm hrelated hsize hpm hpm',
    fun hids _ hm ↦ h.creators hvalid hsize hids hm⟩

/-- No page ends inside a tie. -/
theorem PagingExact.ties (h : PagingExact backend f db) (hvalid : f.Valid)
    (hsize : 0 < f.pageSize) (hpaged : f.returnAll = false) :
    Settled (orderLe backend f db) f.pageSize (satisfying backend f db) := by
  by_contra hties
  obtain ⟨answers, hresolves, n, hn, hnodup⟩ := exists_pages_not_nodup hsize hties
  choose pick hpick using exists_mem_newestPlaytests f db
  have hperm := searchRows_perm hvalid (h.rowPerMap hvalid hsize) hpick
  have hanswers : ∀ k, IsAnswer backend f db (answers k) := fun k ↦
    ⟨pick, hpick, (hresolves k).perm.trans hperm.symm, (hresolves k).sorted⟩
  obtain ⟨hexact, _⟩ := h answers hanswers n hn
  rw [map_results hpaged] at hexact
  exact hnodup (hexact.nodup_iff.mpr (db.maps.rows_nodup.filter _))

/-- A database whose `ILIKE` finds nothing and whose collation tells no texts apart. -/
def plainBackend : Backend where
  ilike _ _ := false
  numeric q := q
  textLe _ _ := true
  textLe_total _ _ := .inl rfl
  textLe_trans _ _ _ _ _ := rfl

/-- Two maps of one raw difficulty. -/
def twoMaps : MapsDb where
  maps := (Table.empty.insert fun id ↦
    { id, code := some "AAAA", difficulty := .easy }).insert fun id ↦
    { id, code := some "BBBB", difficulty := .easy }

end Rows

end Genjishimada.Maps
