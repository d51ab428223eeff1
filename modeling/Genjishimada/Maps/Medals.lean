import Genjishimada.Maps.Cloning
import Genjishimada.Maps.Patching

/-!
# Medal thresholds that survive being stored

A request's thresholds are strictly ordered; the columns round them to hundredths, half away from
zero, and what is read is checked again.  The order survives exactly if a rounding boundary lies
between each two neighbours.  Otherwise the map that has been written cannot be read any more,
nor can any page it is on.
-/

namespace Genjishimada.Maps

open Library Sdk Repository Services Services.MapsService

variable {textLe : String → String → Bool} {medals : MedalTimes} {row : MedalsResponse}
  {t t' : MapTables} {m original : CoreMap} {code : String}

/-! ## Storing and reading one map -/

/-- Between gold and silver, and between silver and bronze, lies an odd multiple of 0.005, the
smaller on its lower side: below it, or on it if it is negative. -/
def Separated (medals : MedalTimes) : Prop :=
  (∃ k, BelowTie k (medals.gold * 100) ∧ ¬ BelowTie k (medals.silver * 100)) ∧
    ∃ k, BelowTie k (medals.silver * 100) ∧ ¬ BelowTie k (medals.bronze * 100)

theorem stored_eq_some (h : medals.stored = some row) :
    row.gold = hundredths medals.gold ∧ row.silver = hundredths medals.silver ∧
      row.bronze = hundredths medals.bronze := by
  rw [MedalTimes.stored] at h
  split at h
  · cases h
    exact ⟨rfl, rfl, rfl⟩
  · cases h

/-- The stored thresholds are in order exactly if the thresholds are separated. -/
theorem ordered_stored_iff (h : medals.stored = some row) :
    row.bronze > row.silver ∧ row.silver > row.gold ↔ Separated medals := by
  obtain ⟨hgold, hsilver, hbronze⟩ := stored_eq_some h
  rw [hgold, hsilver, hbronze, and_comm]
  exact and_congr roundAway_lt_iff roundAway_lt_iff

/-- A row of three thresholds is read if they are in order. -/
theorem convertMedals_isSome_iff {mapId : Nat} :
    (convertMedals (row.row mapId)).isSome = true ↔
      row.bronze > row.silver ∧ row.silver > row.gold := by
  simp only [convertMedals, MedalsResponse.row]
  split <;> simp_all

/-- A map is read if its medals are. -/
theorem convertMap_isSome_iff_medals (textLe : String → String → Bool) : (convertMap textLe t m).isSome = true ↔
    ∀ row, t.base.db.medals.get? m.id = some row → (convertMedals row).isSome = true := by
  unfold convertMap
  cases t.base.db.medals.get? m.id with
  | none => simp
  | some row => simp

theorem convertMap_isSome_iff (textLe : String → String → Bool)
    (hrow : t.base.db.medals.get? m.id = some (row.row m.id)) :
    (convertMap textLe t m).isSome = true ↔ row.bronze > row.silver ∧ row.silver > row.gold := by
  rw [convertMap_isSome_iff_medals, hrow]
  simp only [Option.some.injEq, forall_eq', convertMedals_isSome_iff]

/-- What is read of a row of three thresholds are these. -/
theorem eq_of_convertMedals {md : MedalsResponse} {mapId : Nat}
    (h : convertMedals (row.row mapId) = some md) : md = row := by
  simp only [convertMedals, MedalsResponse.row] at h
  split at h
  · cases h
    rfl
  · cases h

/-! ## What is accepted -/

/-- Medals are written to the map `m` of the tables `t` by a call whose transaction commits. -/
inductive Accepts (textLe : String → String → Bool) (medals : MedalTimes) :
    MapTables → CoreMap → Prop where
  | /-- `create_map`; there is a map of the code, and there was none. -/
    create {faults : CreateFaults} {data : MapsService.MapCreateRequest} {row : MedalsResponse}
      {s : CreationState} {m : CoreMap} (hstored : medals.stored = some row)
      (hdata : data.medals = some row)
      (hfree : s.committed.base.mapOfCode (some data.code) = none)
      (hm : (final (MapsService.createMap faults data s)).committed.base.mapOfCode
        (some data.code) = some m) :
      Accepts textLe medals (final (MapsService.createMap faults data s)).committed m
  | /-- `update_map`; the map could be read, and nothing but reading it again may have failed. -/
    update {faults : PatchFaults} {code : String} {data : MapsService.MapPatchRequest}
      {original m : CoreMap} {before : MapResponse} {t t' : MapTables}
      {result : Except PatchError (MapResponse × MapResponse)}
      (hdata : data.medals = some (some medals))
      (horiginal : t.base.mapOfCode (some code) = some original)
      (hread : readMap textLe faults.read code t = .ok before)
      (hrun : MapsService.updateMap textLe faults code data t = (t', result))
      (hcommit : ∀ e, result = .error e → e = .readFailed)
      (hm : m ∈ t'.base.db.maps.rows) (hid : m.id = original.id) : Accepts textLe medals t' m

/-- The thresholds an update has written. -/
theorem get?_medals_patched {data : MapsService.MapPatchRequest}
    (hdata : data.medals = some (some medals)) (hrefusal : patchRefusal code data t = none) :
    ∃ row, medals.stored = some row ∧
      (patched code original data t).base.db.medals.get? original.id = some (row.row original.id) := by
  obtain ⟨-, -, -, hfits⟩ := patchRefusal_eq_none_iff.mp hrefusal
  cases hstored : medals.stored with
  | none =>
      rw [hdata, Option.join_some, Option.any_some, hstored] at hfits
      exact absurd rfl hfits
  | some row =>
      refine ⟨row, rfl, ?_⟩
      rw [medals_patched, if_pos rfl, hdata, Option.map_some, Option.bind_some, hstored]
      rfl

/-- The thresholds that are in the tables once they have been accepted. -/
theorem Accepts.get?_medals (h : Accepts textLe medals t m) :
    ∃ row, medals.stored = some row ∧ t.base.db.medals.get? m.id = some (row.row m.id) := by
  cases h with
  | @create faults data row s _ hstored hdata hfree hm =>
      refine ⟨row, hstored, ?_⟩
      have hcommits : (final (MapsService.createMap faults data s)).committed =
          created data s.committed := by
        refine (committed_createMap_cases faults data s).resolve_left fun hsame ↦ ?_
        rw [hsame, hfree] at hm
        cases hm
      rw [hcommits] at hm ⊢
      rw [mapOfCode_created data hfree, Option.some.injEq] at hm
      rw [← hm, (base_created_cases data s.committed).2, hdata]
      exact (get?_replaceMedals _ _ _ (some row)).trans (if_pos rfl)
  | update hdata horiginal hread hrun hcommit hm hid =>
      rw [hid]
      rw [MapsService.updateMap, horiginal] at hrun
      simp only [hread] at hrun
      split at hrun
      · -- the transaction raises, with none of the errors that leave it committed
        rename_i e he
        cases hrun
        rw [hcommit e rfl, updateMapTransaction_eq] at he
        split at he
        · cases he
        · split at he
          · rename_i e' hrefusal
            cases he
            exact absurd hrefusal patchRefusal_ne_readFailed
          · cases he
      · rename_i updated hupdated
        cases hrun
        rw [updateMapTransaction_eq] at hupdated
        split at hupdated
        · cases hupdated
        · split at hupdated
          · cases hupdated
          · rename_i hrefusal
            cases hupdated
            exact get?_medals_patched hdata hrefusal

/-! ## Reading them again -/

/-- The map can be fetched, with the thresholds that are stored, and so can any list of maps whose
other maps can. -/
structure RoundTrips (textLe : String → String → Bool) (medals : MedalTimes) (t : MapTables)
    (m : CoreMap) : Prop where
  fetched : ∃ r, convertMap textLe t m = some r ∧ r.medals = medals.stored ∧ r.medals.isSome = true
  page (page : List CoreMap) (hothers : ∀ m' ∈ page, m' ≠ m → (convertMap textLe t m').isSome = true) :
    (page.mapM (convertMap textLe t)).isSome = true

/-- A write that is accepted can be read exactly if the thresholds are separated. -/
theorem accepted_roundTrips_iff (textLe : String → String → Bool) (medals : MedalTimes)
    (t : MapTables) (m : CoreMap) (h : Accepts textLe medals t m) :
    RoundTrips textLe medals t m ↔ Separated medals := by
  obtain ⟨row, hstored, hrow⟩ := h.get?_medals
  rw [← ordered_stored_iff hstored, ← convertMap_isSome_iff textLe hrow]
  constructor
  · rintro ⟨⟨r, hr, -⟩, -⟩
    rw [hr]
    rfl
  · intro hsome
    refine ⟨?_, fun page hothers ↦ isSome_mapM_iff.mpr fun m' hm' ↦ ?_⟩
    · obtain ⟨r, hr⟩ := Option.isSome_iff_exists.mp hsome
      refine ⟨r, hr, ?_⟩
      obtain ⟨md, rfl, ⟨hnone, -⟩ | ⟨row', md, hrow', hmd, rfl⟩⟩ := convertMap_eq_some_iff.mp hr
      · rw [hrow] at hnone
        cases hnone
      · rw [hrow, Option.some.injEq] at hrow'
        subst hrow'
        rw [hstored, eq_of_convertMedals hmd]
        exact ⟨rfl, rfl⟩
    · by_cases heq : m' = m
      · rw [heq]
        exact hsome
      · exact hothers m' hm' heq

/-! ### A map with medals -/

/-- A new map with these thresholds. -/
def medalRequest (medals : MedalTimes) : MapsService.MapCreateRequest where
  code := "AAAAA"
  difficulty := .easy
  creators := [⟨1, true⟩]
  medals := medals.stored

/-- What is committed once it has been created, and could or could not be read then. -/
def afterMedals (readFails : Bool) (medals : MedalTimes) : MapTables :=
  (final (MapsService.createMap { read := readFails } (medalRequest medals) oneUser)).committed

theorem accepts_medalRequest (readFails : Bool) (h : medals.stored = some row) :
    Accepts textLe medals (afterMedals readFails medals) ((medalRequest medals).row 1) := by
  have hcommitted : afterMedals readFails medals = created (medalRequest medals) oneUser.committed :=
    committed_createMap rfl rfl rfl
  refine .create h h rfl ?_
  show (afterMedals readFails medals).base.mapOfCode _ = _
  rw [hcommitted]
  exact mapOfCode_created (medalRequest medals) rfl

/-- Ten, twenty and thirty seconds. -/
def spreadMedals : MedalTimes := ⟨10, 20, 30, by decide, by decide⟩

theorem spreadMedals_stored : spreadMedals.stored = some ⟨1000, 2000, 3000⟩ := by decide +kernel

theorem spreadMedals_roundTrip :
    RoundTrips (fun _ _ ↦ true) spreadMedals (afterMedals false spreadMedals)
      ((medalRequest spreadMedals).row 1) :=
  (accepted_roundTrips_iff _ _ _ _ (accepts_medalRequest false spreadMedals_stored)).mpr
      ⟨⟨1500, by decide +kernel, by decide +kernel⟩, 2500, by decide +kernel, by decide +kernel⟩

/-- Thresholds a millisecond apart. -/
def closeMedals : MedalTimes :=
  ⟨1001 / 1000, 1002 / 1000, 1003 / 1000, by decide +kernel, by decide +kernel⟩

/-- All three are stored as one second. -/
theorem closeMedals_stored : closeMedals.stored = some ⟨100, 100, 100⟩ := by decide +kernel

theorem closeMedals_not_roundTrip :
    Accepts (fun _ _ ↦ true) closeMedals (afterMedals true closeMedals)
        ((medalRequest closeMedals).row 1) ∧
      ¬RoundTrips (fun _ _ ↦ true) closeMedals (afterMedals true closeMedals)
        ((medalRequest closeMedals).row 1) := by
  have haccepts : Accepts (fun _ _ ↦ true) closeMedals (afterMedals true closeMedals)
      ((medalRequest closeMedals).row 1) := accepts_medalRequest true closeMedals_stored
  refine ⟨haccepts, fun h ↦ ?_⟩
  obtain ⟨row, hstored, hrow⟩ := haccepts.get?_medals
  rw [closeMedals_stored, Option.some.injEq] at hstored
  obtain ⟨r, hr, -⟩ := h.fetched
  have hsome := (convertMap_isSome_iff _ hrow).mp (Option.isSome_iff_exists.mpr ⟨r, hr⟩)
  rw [← hstored] at hsome
  exact absurd hsome (by decide)

end Genjishimada.Maps
