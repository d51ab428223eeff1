import Genjishimada.Skill.Feed

/-!
# What a change is made of

The score is the sum of the contributions of the maps, and a rebuild stores them with the id of
the map, so the impacts of a diff are the contributions after and before: they add up to the
change of the score.  The drill-down lists the largest and sums the others, and keeps that.

Maps are told apart by their id; that two of them share a name does not matter.
-/

namespace Genjishimada.Skill

open Library Services Repository

variable {K : Type} [DivisionRing K] [LinearOrder K] (pow : K → K → K)

/-! ## One diff -/

section Diff

variable {rows prev new : List (BreakdownRow K)} {keys : List DiffKey}

omit [DivisionRing K] [LinearOrder K] in
/-- Where the keys are distinct, the rows of a key are the row that is looked up. -/
theorem toList_byKey (h : (rows.map diffKey).Nodup) (k : DiffKey) :
    (byKey rows k).toList = rows.reverse.filter fun row ↦ diffKey row = k := by
  have hreverse : (rows.reverse.map diffKey).Nodup := by
    rw [List.map_reverse]
    exact List.nodup_reverse.mpr h
  exact (filter_eq_toList_find? hreverse k).symm

omit [LinearOrder K] in
/-- Looked up key by key, the contributions add up to the score. -/
theorem sum_contribution_byKey (h : (rows.map diffKey).Nodup) (hkeys : keys.Nodup)
    (hrows : ∀ row ∈ rows, diffKey row ∈ keys) :
    (keys.map fun k ↦ ((byKey rows k).map BreakdownRow.contribution).getD 0).sum =
      breakdownScore rows := by
  have hlookup : (keys.map fun k ↦ ((byKey rows k).map BreakdownRow.contribution).getD 0) =
      keys.map fun k ↦
        ((rows.reverse.filter fun row ↦ diffKey row = k).map BreakdownRow.contribution).sum := by
    apply List.map_congr_left
    intro k _
    rw [← toList_byKey h]
    cases byKey rows k with
    | none => rfl
    | some row => simp
  rw [hlookup, sum_groups diffKey BreakdownRow.contribution hkeys
    fun row hrow ↦ hrows row (List.mem_reverse.mp hrow), List.map_reverse, List.sum_reverse]
  rfl

omit [LinearOrder K] in
/-- The impacts of a diff add up to the change of the score. -/
theorem sum_impact_buildDiff (hprev : (prev.map diffKey).Nodup) (hnew : (new.map diffKey).Nodup) :
    ((buildDiff prev new).map DiffEntry.impact).sum =
      breakdownScore new - breakdownScore prev := by
  let keys := (prev.map diffKey ++ new.map diffKey).dedup
  have hkeys : keys.Nodup := List.nodup_dedup _
  have hmem : ∀ k, k ∈ prev.map diffKey ∨ k ∈ new.map diffKey → k ∈ keys := by
    intro k hk
    exact List.mem_dedup.mpr (List.mem_append.mpr hk)
  have hprevSum := sum_contribution_byKey hprev hkeys
    fun row hrow ↦ hmem _ (.inl (List.mem_map_of_mem hrow))
  have hnewSum := sum_contribution_byKey hnew hkeys
    fun row hrow ↦ hmem _ (.inr (List.mem_map_of_mem hrow))
  have himpacts : (buildDiff prev new).map DiffEntry.impact = keys.map fun k ↦
      ((byKey new k).map BreakdownRow.contribution).getD 0 -
        ((byKey prev k).map BreakdownRow.contribution).getD 0 := by
    rw [buildDiff, List.map_map]
    rfl
  rw [himpacts, ← hprevSum, ← hnewSum, eq_sub_iff_add_eq, ← List.sum_map_add]
  simp only [sub_add_cancel]

end Diff

/-! ## One breakdown -/

/-- A user is read at most once on a map. -/
theorem nodup_skillInputs (db : Db) :
    ((fetchSkillInputs db).map fun r ↦ (r.userId, r.mapId)).Nodup := by
  have hfully : (fully db).Pairwise fun f f' ↦
      (f.1.run.userId, f.1.run.mapId) ≠ (f'.1.run.userId, f'.1.run.mapId) := by
    rw [fully, field, List.pairwise_map, List.pairwise_map]
    exact List.pairwise_map.mp (nodup_map_distinctOn (fun c : CoreCompletion ↦ (c.userId, c.mapId)) _)
  have hquery : ((skillInputQuery db).map fun r ↦ (r.userId, r.mapId)).Nodup := by
    rw [skillInputQuery]
    apply ((perm_orderBy _ _).map _).nodup_iff.mpr
    apply List.pairwise_map.mpr
    apply List.pairwise_filterMap.mpr
    apply hfully.imp
    intro f f' hne r hr r' hr'
    obtain ⟨m, _, rfl⟩ := Option.map_eq_some_iff.mp hr
    obtain ⟨m', _, rfl⟩ := Option.map_eq_some_iff.mp hr'
    exact hne
  exact hquery.sublist (List.filter_sublist.map _)

/-- The rows of one user are of different maps. -/
theorem nodup_mapId_byUser {db : Db} {userId : Nat} {urows : List SkillInput}
    (h : (userId, urows) ∈ byUser (fetchSkillInputs db)) : (urows.map SkillInput.mapId).Nodup := by
  obtain ⟨u, _, heq⟩ := List.mem_map.mp h
  obtain ⟨rfl, rfl⟩ := Prod.mk.inj heq
  have hrows := (nodup_skillInputs db).sublist
    ((List.filter_sublist (p := fun r : SkillInput ↦ decide (r.userId = u))).map _)
  apply List.pairwise_map.mpr
  apply (List.pairwise_map.mp hrows).imp_of_mem
  intro r r' hr hr' hne hmap
  have hu : r.userId = u := of_decide_eq_true (List.mem_filter.mp hr).2
  have hu' : r'.userId = u := of_decide_eq_true (List.mem_filter.mp hr').2
  exact hne (Prod.ext (hu.trans hu'.symm) hmap)

/-- The keys of a breakdown are the ids of the maps. -/
theorem nodup_diffKey_playerBreakdown {urows : List SkillInput} (w : Weights K)
    (h : (urows.map SkillInput.mapId).Nodup) :
    ((playerBreakdown pow urows w).map diffKey).Nodup := by
  let scored := orderBy (fun t : K × SkillInput ↦ OrderDual.toDual t.1)
    (urows.map fun r ↦ (mapScore pow r w, r))
  have hkeys : (playerBreakdown pow urows w).map diffKey =
      scored.map fun t ↦ DiffKey.mapId t.2.mapId := by
    rw [playerBreakdown, List.map_map]
    calc (scored.zipIdx 1).map _ = (scored.zipIdx 1).map ((fun t ↦ DiffKey.mapId t.2.mapId) ∘ Prod.fst) := rfl
      _ = scored.map fun t ↦ DiffKey.mapId t.2.mapId := by
        rw [← List.map_map, List.zipIdx_map_fst]
  have hperm : (scored.map fun t ↦ DiffKey.mapId t.2.mapId).Perm
      ((urows.map SkillInput.mapId).map DiffKey.mapId) := by
    have hsort := (perm_orderBy (fun t : K × SkillInput ↦ OrderDual.toDual t.1)
      (urows.map fun r ↦ (mapScore pow r w, r))).map fun t ↦ DiffKey.mapId t.2.mapId
    rw [List.map_map] at hsort
    rw [List.map_map]
    exact hsort
  rw [hkeys]
  apply hperm.nodup_iff.mpr
  exact h.map fun _ _ ↦ DiffKey.mapId.inj

/-! ## One rebuild -/

/-- What a rebuild stores of a user: no key twice, and the score the contributions add up to. -/
structure Balanced (s : SnapshotRow K) : Prop where
  nodup : (s.breakdown.map diffKey).Nodup
  score : s.skillScore = breakdownScore s.breakdown

/-- The impacts add up to the change, which is what the score moved by. -/
structure Conserves (c : ScoreChange K) : Prop where
  impacts : (c.diff.map DiffEntry.impact).sum = c.delta
  delta : c.delta = c.newScore - c.previousScore

theorem balanced_recompute (tables : SkillTables K) {r : Rebuild K} {s : SnapshotRow K}
    (h : s ∈ (recompute pow tables r).snapshot) : Balanced s := by
  obtain ⟨⟨userId, urows⟩, hu, rfl⟩ := List.mem_map.mp h
  constructor
  · exact nodup_diffKey_playerBreakdown pow r.weights (nodup_mapId_byUser hu)
  · rfl

omit [LinearOrder K] in
theorem conserves_changeRow {policy : CauseCategory × Option Nat} {prev : Option (SnapshotRow K)}
    {s : SnapshotRow K} (hprev : ∀ p, prev = some p → Balanced p) (hs : Balanced s) :
    Conserves (changeRow policy prev s) := by
  constructor
  · cases prev with
    | none =>
        have hnil : (([] : List (BreakdownRow K)).map diffKey).Nodup := List.nodup_nil
        have hsum := sum_impact_buildDiff hnil hs.nodup
        rw [← hs.score] at hsum
        exact hsum
    | some p =>
        have hsum := sum_impact_buildDiff (hprev p rfl).nodup hs.nodup
        rw [← hs.score, ← (hprev p rfl).score] at hsum
        exact hsum
  · rfl

/-- The tables are kept by rebuilds: each user's row is balanced, and each change conserves. -/
structure Conserving (tables : SkillTables K) : Prop where
  snapshot : ∀ s ∈ tables.snapshot, Balanced s
  changes : ∀ c ∈ tables.changes, Conserves c

theorem Conserving.recompute {tables : SkillTables K} (h : Conserving tables) (r : Rebuild K) :
    Conserving (recompute pow tables r) where
  snapshot _ hs := balanced_recompute pow tables hs
  changes c hc := by
    rcases List.mem_append.mp hc with hc | hc
    · exact h.changes c hc
    · obtain ⟨s, hs, rfl⟩ := List.mem_map.mp hc
      apply conserves_changeRow
      · exact fun p hp ↦ h.snapshot p (List.mem_of_find?_eq_some hp)
      · exact balanced_recompute pow tables hs

theorem Conserving.tablesAfter {tables : SkillTables K} (h : Conserving tables)
    (rs : List (Rebuild K)) : Conserving (tablesAfter pow tables rs) := by
  induction rs generalizing tables with
  | nil => exact h
  | cons r rs ih => exact ih (h.recompute pow r)

/-! ## The drill-down -/

/-- What the drill-down shows adds up to the impacts of the row, in whatever order they are
stored. -/
theorem sum_changeDetail (changeId : Nat) (c : ScoreChange K) :
    ((changeDetail changeId c).mainCauses.map SkillChangeCause.impact).sum +
      (changeDetail changeId c).otherFactors = (c.diff.map DiffEntry.impact).sum := by
  let maps := orderBy (fun m : DiffEntry K ↦ OrderDual.toDual |m.impact|) c.diff
  have hcauses : (changeDetail changeId c).mainCauses.map SkillChangeCause.impact =
      (maps.take topN).map DiffEntry.impact := by
    rw [changeDetail, List.map_map]
    rfl
  have hperm : (maps.map DiffEntry.impact).Perm (c.diff.map DiffEntry.impact) :=
    (perm_orderBy _ _).map _
  calc ((changeDetail changeId c).mainCauses.map SkillChangeCause.impact).sum +
        (changeDetail changeId c).otherFactors
      = ((maps.take topN).map DiffEntry.impact).sum + ((maps.drop topN).map DiffEntry.impact).sum := by
        rw [hcauses]
        rfl
    _ = (maps.map DiffEntry.impact).sum := by
        rw [← List.sum_append, ← List.map_append, List.take_append_drop]
    _ = (c.diff.map DiffEntry.impact).sum := hperm.sum_eq

/-- After any sequence of rebuilds, the impacts of each stored diff add up to its change, and so
do the main causes and the other factors that the drill-down shows of it, in whatever order the
diff was stored. -/
theorem changes_conserve (rs : List (Rebuild K)) :
    (∀ c ∈ (tablesAfter pow {} rs).changes,
      (c.diff.map DiffEntry.impact).sum = c.delta ∧ c.delta = c.newScore - c.previousScore) ∧
    ∀ userId changeId c, fetchChange (tablesAfter pow {} rs) userId changeId = some c →
      ∀ maps, maps.Perm c.diff →
        ((changeDetail changeId { c with diff := maps }).mainCauses.map
            SkillChangeCause.impact).sum +
          (changeDetail changeId { c with diff := maps }).otherFactors = c.delta := by
  have hempty : Conserving ({} : SkillTables K) := by
    constructor <;> exact fun _ h ↦ absurd h List.not_mem_nil
  have hkeeps := hempty.tablesAfter pow rs
  constructor
  · intro c hc
    exact ⟨(hkeeps.changes c hc).impacts, (hkeeps.changes c hc).delta⟩
  · intro userId changeId c hfetch maps hperm
    have hc : c ∈ (tablesAfter pow {} rs).changes :=
      List.mem_of_getElem? (Option.filter_eq_some_iff.mp hfetch).1
    rw [sum_changeDetail, ← (hkeeps.changes c hc).impacts]
    exact (hperm.map DiffEntry.impact).sum_eq

end Genjishimada.Skill
