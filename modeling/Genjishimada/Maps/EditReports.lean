import Genjishimada.Library.Ranking
import Genjishimada.Maps.EditResolution

/-!
# What is said of an edit

A moderator is shown the fields that a request changes, and the newsfeed says afterwards which have
been changed.  Both compare what is proposed, and not what is stored: a difficulty sets the raw value
as well, a banner is normalised, names that no table has are passed over and thresholds are rounded.
For all other fields the three comparisons agree.
-/

namespace Genjishimada.Maps

open Library Sdk Repository Services Services.MapsService

/-! ## What is stored of a field -/

/-- The stored value of a field is the same in both. -/
def SameStored (t t' : MapTables) (mapId : Nat) : EditField → Prop
  | .code => (t'.base.db.maps.get? mapId).map (·.code) = (t.base.db.maps.get? mapId).map (·.code)
  | .mapName =>
      (t'.base.db.maps.get? mapId).map (·.mapName) = (t.base.db.maps.get? mapId).map (·.mapName)
  | .category =>
      (t'.base.db.maps.get? mapId).map (·.category) = (t.base.db.maps.get? mapId).map (·.category)
  | .creators => (t.describe mapId).creators.Perm (t'.describe mapId).creators
  | .checkpoints => (t'.describe mapId).checkpoints = (t.describe mapId).checkpoints
  | .difficulty =>
      (t'.base.db.maps.get? mapId).map (fun m ↦ (m.difficulty, m.rawDifficulty)) =
        (t.base.db.maps.get? mapId).map fun m ↦ (m.difficulty, m.rawDifficulty)
  | .hidden => (t'.describe mapId).hidden = (t.describe mapId).hidden
  | .official =>
      (t'.base.db.maps.get? mapId).map (·.official) = (t.base.db.maps.get? mapId).map (·.official)
  | .archived =>
      (t'.base.db.maps.get? mapId).map (·.archived) = (t.base.db.maps.get? mapId).map (·.archived)
  | .labels kind => ∀ name, name ∈ (t'.describe mapId).labels kind ↔ name ∈ (t.describe mapId).labels kind
  | .description => (t'.describe mapId).description = (t.describe mapId).description
  | .medals => t'.base.db.medals.get? mapId = t.base.db.medals.get? mapId
  | .title => (t'.describe mapId).title = (t.describe mapId).title
  | .customBanner => (t'.describe mapId).customBanner = (t.describe mapId).customBanner

/-- What is shown of a field, and what is published, is that its stored value changes. -/
structure Reported (t t' : MapTables) (code : String) (m : CoreMap) (r : MapResponse)
    (proposed : MapsService.MapPatchRequest) (field : EditField) : Prop where
  shown : field ∈ buildFieldChanges t m proposed ↔ ¬SameStored t t' m.id field
  published : field ∈ mapEditChanges (some code) r proposed.remaining ↔
    ¬SameStored t t' m.id field ∧ field.excluded = false

/-! ## When it is right -/

/-- The lists have the same names. -/
def SameNames (names names' : List String) : Prop := ∀ name, name ∈ names ↔ name ∈ names'

/-- The thresholds are stored as they are. -/
def Exact (medals : MedalTimes) (row : MedalsResponse) : Prop :=
  (row.gold : Rat) / 100 = medals.gold ∧ (row.silver : Rat) / 100 = medals.silver ∧
    (row.bronze : Rat) / 100 = medals.bronze

/-- What is proposed for a field is stored as it is, and a banner is new or none. -/
def Reportable (t : MapTables) (m : CoreMap) (proposed : MapsService.MapPatchRequest) :
    EditField → Prop
  | .difficulty => proposed.difficulty = some m.difficulty →
      m.rawDifficulty = difficultyMidpoint m.difficulty
  | .labels kind => ∀ names, proposed.labels kind = some names →
      SameNames (names.getD []) ((t.describe m.id).labels kind) ∨
        SameNames ((t.names kind).filter fun name ↦ name ∈ names.getD [])
          ((t.describe m.id).labels kind) →
      ∀ name ∈ names.getD [], name ∈ t.names kind
  | .medals => ∀ medals row, proposed.medals = some (some medals) → medals.stored = some row →
      t.base.db.medals.get? m.id = some (row.row m.id) → Exact medals row
  | .customBanner => ∀ url, proposed.customBanner = some url →
      if url = none then (t.describe m.id).customBanner = none
      else (t.describe m.id).customBanner ≠ url ∧
        (t.describe m.id).customBanner ≠ normalizeCustomBanner url
  | _ => True

section Comparisons

variable {α : Type} [DecidableEq α]

/-- A value is shown if it differs from that before, and stored if it is proposed. -/
theorem any_ne_iff (proposed : Option α) (old : α) :
    (proposed.any fun new ↦ old ≠ new) = true ↔ ¬proposed.getD old = old := by
  cases proposed with
  | none => simp
  | some new => rw [Option.any_some, Option.getD_some, decide_eq_true_iff, ne_comm]

/-- The order of creators is total. -/
theorem normalizeCreators_eq_iff {creators creators' : List Creator} :
    normalizeCreators creators = normalizeCreators creators' ↔ creators.Perm creators' := by
  refine mergeSort_eq_iff_perm ?_ ?_ ?_
  · rintro ⟨a, pa⟩ ⟨b, pb⟩ ⟨c, pc⟩ hab hbc
    simp only [creatorLe] at *
    cases pa <;> cases pb <;> cases pc <;> grind
  · rintro ⟨a, pa⟩ ⟨b, pb⟩
    simp only [creatorLe]
    cases pa <;> cases pb <;> grind
  · rintro ⟨a, pa⟩ ⟨b, pb⟩ hab hba
    simp only [creatorLe] at *
    cases pa <;> cases pb <;> grind

theorem listNorm_eq_iff {names names' : List String} :
    listNorm names = listNorm names' ↔ names.Perm names' := by
  refine mergeSort_eq_iff_perm ?_ ?_ ?_
  · intro a b c hab hbc
    simp only [decide_eq_true_eq] at *
    exact hab.trans hbc
  · intro a b
    simp only [Bool.or_eq_true, decide_eq_true_eq]
    exact le_total a b
  · intro a b hab hba
    simp only [decide_eq_true_eq] at *
    exact le_antisymm hab hba

/-- The creators a response lists are those that are stored. -/
theorem perm_sortCreators (creators : List Creator) : (sortCreators creators).Perm creators :=
  (List.mergeSort_perm _ _).trans (List.mergeSort_perm _ _)

/-- Lists without repetition are permutations if they have the same names. -/
theorem listNorm_arrayAggDistinct_iff (textLe : String → String → Bool) {names stored : List String}
    (hnodup : names.Nodup) :
    listNorm (arrayAggDistinct textLe stored) = listNorm names ↔ SameNames names stored := by
  rw [listNorm_eq_iff]
  have hstored : (arrayAggDistinct textLe stored).Perm stored.dedup := List.mergeSort_perm _ _
  rw [List.perm_ext_iff_of_nodup (hstored.nodup_iff.mpr (List.nodup_dedup _)) hnodup]
  refine forall_congr' fun name ↦ ?_
  rw [hstored.mem_iff, List.mem_dedup]
  exact iff_comm

/-- The known names of a list are the same as the list if all of them are known. -/
theorem sameNames_iff_filter {names known stored : List String} :
    (SameNames names stored ↔ SameNames (known.filter fun name ↦ name ∈ names) stored) ↔
      (SameNames names stored ∨ SameNames (known.filter fun name ↦ name ∈ names) stored →
        ∀ name ∈ names, name ∈ known) := by
  have hmem {name : String} : name ∈ known.filter (fun name ↦ name ∈ names) ↔
      name ∈ known ∧ name ∈ names := by
    rw [List.mem_filter, decide_eq_true_eq]
  constructor
  · intro hiff hor name hname
    have hboth : SameNames names stored ∧ SameNames (known.filter fun name ↦ name ∈ names) stored :=
      hor.elim (fun h ↦ ⟨h, hiff.mp h⟩) fun h ↦ ⟨hiff.mpr h, h⟩
    exact (hmem.mp ((hboth.2 name).mpr ((hboth.1 name).mp hname))).1
  · intro hknown
    have hsame (h : SameNames names stored ∨
        SameNames (known.filter fun name ↦ name ∈ names) stored) (name : String) :
        name ∈ known.filter (fun name ↦ name ∈ names) ↔ name ∈ names :=
      hmem.trans ⟨And.right, fun hname ↦ ⟨hknown h name hname, hname⟩⟩
    constructor
    · intro h name
      rw [hsame (.inl h) name, h name]
    · intro h name
      rw [← hsame (.inr h) name, h name]

end Comparisons

/-! ## What is stored once the changes are applied -/

section Accepted

variable {textLe : String → String → Bool} {faults : EditFaults} {edit : MapEdit} {code : String}
  {s s' : EditState} {m : CoreMap} {r : MapResponse}

/-- What is stored of the map `m` once the changes `proposed` are accepted. -/
structure StoredAs (t t' : MapTables) (m : CoreMap) (proposed : MapsService.MapPatchRequest) :
    Prop where
  nodup : ∀ kind, (namesOf proposed kind).Nodup
  fits : ∀ medals, proposed.medals = some (some medals) → ∃ row, medals.stored = some row
  row : ∃ m', t'.base.db.maps.get? m.id = some m' ∧ m'.code = proposed.code.or m.code ∧
    m'.mapName = proposed.mapName.getD m.mapName ∧ m'.category = proposed.category.getD m.category ∧
    m'.official = proposed.official.getD m.official ∧
    m'.archived = proposed.archived.getD m.archived ∧
    m'.difficulty = proposed.difficulty.getD m.difficulty ∧
    m'.rawDifficulty = (proposed.difficulty.map difficultyMidpoint).getD m.rawDifficulty
  describe : t'.describe m.id = patchedDescription t.names proposed (t.describe m.id)
  medals : t'.base.db.medals.get? m.id =
    (proposed.medals.map fun medals ↦ (medals.bind (·.stored)).map (·.row m.id)).getD
      (t.base.db.medals.get? m.id)

/-- The columns that a patch writes. -/
theorem apply_columns (data : MapsService.MapPatchRequest) (m : CoreMap) :
    (data.core.apply m).code = data.code.or m.code ∧
      (data.core.apply m).mapName = data.mapName.getD m.mapName ∧
      (data.core.apply m).category = data.category.getD m.category ∧
      (data.core.apply m).official = data.official.getD m.official ∧
      (data.core.apply m).archived = data.archived.getD m.archived ∧
      (data.core.apply m).difficulty = data.difficulty.getD m.difficulty ∧
      (data.core.apply m).rawDifficulty =
        (data.difficulty.map difficultyMidpoint).getD m.rawDifficulty := by
  have hdifficulty : data.core.difficulty = data.difficulty := rfl
  rw [MapPatchRequest.apply, hdifficulty]
  cases data.difficulty with
  | none => exact ⟨rfl, rfl, rfl, rfl, rfl, rfl, rfl⟩
  | some difficulty =>
      refine ⟨rfl, rfl, rfl, rfl, rfl, ?_, numeric2_midpoint difficulty⟩
      show (difficultyFromRaw (numeric2 (difficultyMidpoint difficulty))).getD _ = difficulty
      rw [numeric2_midpoint, difficultyFromRaw_midpoint, Option.getD_some]

/-- Accepted changes are stored. -/
theorem storedAs_of_acceptChanges (hinv : MapsInv s.tables.base)
    (horiginal : Original textLe faults s.tables edit code m r)
    (h : acceptChanges textLe faults edit s = .ok () s') :
    StoredAs s.tables s'.tables m edit.proposedChanges := by
  have happly : MapsService.applyChanges textLe faults code r edit s = .ok () s' := by
    rcases acceptChanges_cases textLe faults edit s with
      ⟨code', m', r', horiginal', happly⟩ | ⟨hnone, -⟩
    · obtain ⟨rfl, rfl⟩ := horiginal.code_unique horiginal'
      rw [← happly, h]
    · exact absurd ⟨code, m, r, horiginal⟩ hnone
  obtain ⟨m₁, hm₁, hrefusal, htables⟩ := tables_applyChanges happly horiginal.map
  obtain ⟨hinv₁, hid, hcode, hmapName, hcategory, hofficial, harchived, hdifficulty, hraw⟩ :
      MapsInv (withArchiveStatus code edit.proposedChanges.archived s.tables).base ∧
        m₁.id = m.id ∧ m₁.code = m.code ∧ m₁.mapName = m.mapName ∧ m₁.category = m.category ∧
        m₁.official = m.official ∧ m₁.archived = edit.proposedChanges.archived.getD m.archived ∧
        m₁.difficulty = m.difficulty ∧ m₁.rawDifficulty = m.rawDifficulty := by
    cases ha : edit.proposedChanges.archived with
    | none =>
        rw [ha] at hm₁
        cases horiginal.map.symm.trans hm₁
        exact ⟨hinv, rfl, rfl, rfl, rfl, rfl, rfl, rfl, rfl⟩
    | some archived =>
        rw [ha] at hm₁
        obtain ⟨hinv₁, hm, -, -⟩ :=
          withArchived_original hinv horiginal.map horiginal.response archived
        cases hm.symm.trans hm₁
        refine ⟨hinv₁, ?_⟩
        cases archived <;> exact ⟨rfl, rfl, rfl, rfl, rfl, rfl, rfl, rfl⟩
  have hsame : (withArchiveStatus code edit.proposedChanges.archived s.tables).describe =
        s.tables.describe ∧
      (withArchiveStatus code edit.proposedChanges.archived s.tables).names = s.tables.names ∧
      (withArchiveStatus code edit.proposedChanges.archived s.tables).base.db.medals =
        s.tables.base.db.medals := by
    cases edit.proposedChanges.archived with
    | none => exact ⟨rfl, rfl, rfl⟩
    | some archived => cases archived <;> exact ⟨rfl, rfl, rfl⟩
  obtain ⟨hdescribe, hnames, hmedals⟩ := hsame
  obtain ⟨-, -, hnodup, hfits⟩ := patchRefusal_eq_none_iff.mp hrefusal
  have hrow := (patched_change hinv₁ hm₁ hrefusal).row
  obtain ⟨hcode', hmapName', hcategory', hofficial', harchived', hdifficulty', hraw'⟩ :=
    apply_columns edit.proposedChanges.remaining m₁
  rw [htables]
  refine ⟨hnodup, fun medals hset ↦ ?_, ?_, ?_, ?_⟩
  · have hstored : ¬medals.stored.isNone = true := by
      intro hnone
      apply hfits
      show edit.proposedChanges.medals.join.any _ = true
      rw [hset, Option.join_some, Option.any_some, hnone]
    exact Option.ne_none_iff_exists'.mp (by simpa using hstored)
  · refine ⟨_, hid ▸ hrow, ?_⟩
    rw [hcode', hmapName', hcategory', hofficial', harchived', hdifficulty', hraw', hcode, hmapName,
      hcategory, hofficial, harchived, hdifficulty, hraw]
    exact ⟨rfl, rfl, rfl, rfl, rfl, rfl, rfl⟩
  · rw [← hid, ← hdescribe, ← hnames]
    exact describe_redescribe _ _ _
  · rw [medals_patched, if_pos hid.symm, hid, hmedals]
    rfl

end Accepted

/-! ## The comparisons, field by field -/

section Fields

variable {textLe : String → String → Bool} {code : String} {t t' : MapTables} {m : CoreMap}
  {r : MapResponse} {proposed : MapsService.MapPatchRequest} {field : EditField}

/-- A field is shown, or published, if its comparison says so. -/
theorem reported_iff_comparisons : Reported t t' code m r proposed field ↔
    (showsChange t m proposed field = true ↔ ¬SameStored t t' m.id field) ∧
      (publishesChange (some code) r proposed.remaining field = true ↔
        ¬SameStored t t' m.id field ∧ field.excluded = false) := by
  have hshown : field ∈ buildFieldChanges t m proposed ↔ showsChange t m proposed field = true := by
    rw [buildFieldChanges, List.mem_filter, and_iff_right (EditField.mem_all field)]
  have hpublished : field ∈ mapEditChanges (some code) r proposed.remaining ↔
      publishesChange (some code) r proposed.remaining field = true := by
    rw [mapEditChanges, List.mem_filter, and_iff_right (EditField.mem_all field)]
  rw [← hshown, ← hpublished]
  exact ⟨fun h ↦ ⟨h.shown, h.published⟩, fun h ↦ ⟨h.1, h.2⟩⟩

/-- A field that is published if it is shown is right if the latter is. -/
theorem reported_of_shown (hfield : field.excluded = false)
    (hpublished : publishesChange (some code) r proposed.remaining field = showsChange t m proposed field) :
    Reported t t' code m r proposed field ↔
      (showsChange t m proposed field = true ↔ ¬SameStored t t' m.id field) := by
  rw [reported_iff_comparisons, hpublished, hfield, and_iff_left rfl, and_self_iff]

/-- A field that is never published. -/
theorem reported_of_excluded (hfield : field.excluded = true)
    (hpublished : publishesChange (some code) r proposed.remaining field = false) :
    Reported t t' code m r proposed field ↔
      (showsChange t m proposed field = true ↔ ¬SameStored t t' m.id field) := by
  rw [reported_iff_comparisons, hpublished, hfield]
  exact and_iff_left (iff_of_false Bool.false_ne_true fun h ↦ Bool.noConfusion h.2)

/-- What a response has of the map. -/
theorem exists_mapResponse (hr : convertMap textLe t m = some r) :
    ∃ medals, r = mapResponse textLe t m medals ∧
      (t.base.db.medals.get? m.id = none ∧ medals = none ∨
        ∃ row md, t.base.db.medals.get? m.id = some row ∧ convertMedals row = some md ∧
          medals = some md) := by
  rw [convertMap] at hr
  cases hrow : t.base.db.medals.get? m.id with
  | none =>
      rw [hrow] at hr
      cases hr
      exact ⟨none, rfl, .inl ⟨rfl, rfl⟩⟩
  | some row =>
      rw [hrow] at hr
      obtain ⟨md, hmd, rfl⟩ := Option.map_eq_some_iff.mp hr
      exact ⟨some md, rfl, .inr ⟨row, md, rfl, hmd, rfl⟩⟩

/-- The columns of the row. -/
theorem sameStored_column {α : Type} {f : CoreMap → α} {m' : CoreMap} {new : α}
    (hm : t.base.db.maps.get? m.id = some m) (hm' : t'.base.db.maps.get? m.id = some m')
    (hnew : f m' = new) :
    (t'.base.db.maps.get? m.id).map f = (t.base.db.maps.get? m.id).map f ↔ new = f m := by
  rw [hm, hm', Option.map_some, Option.map_some, Option.some.injEq, hnew]

theorem reported_code (h : StoredAs t t' m proposed)
    (hm : t.base.mapOfCode (some code) = some m) : Reported t t' code m r proposed .code := by
  obtain ⟨m', hm', hnew, -⟩ := h.row
  obtain ⟨hrow, hcode⟩ := get?_of_mapOfCode hm
  have hpublished : publishesChange (some code) r proposed.remaining .code =
      showsChange t m proposed .code := by
    rw [publishesChange, showsChange, hcode]
    rfl
  rw [reported_of_shown rfl hpublished, SameStored, sameStored_column hrow hm' hnew, showsChange]
  cases proposed.code with
  | none => simp
  | some new =>
      rw [Option.any_some, Option.some_or, decide_eq_true_iff, ne_comm]

theorem reported_creators (h : StoredAs t t' m proposed)
    (hr : convertMap textLe t m = some r) : Reported t t' code m r proposed .creators := by
  obtain ⟨medals, rfl, -⟩ := exists_mapResponse hr
  have hresponse : normalizeCreators (mapResponse textLe t m medals).creators =
      normalizeCreators (t.describe m.id).creators :=
    normalizeCreators_eq_iff.mpr (perm_sortCreators _)
  have hpublished : publishesChange (some code) (mapResponse textLe t m medals) proposed.remaining
      .creators = showsChange t m proposed .creators := by
    rw [publishesChange, showsChange, hresponse]
    rfl
  have hnew : (t'.describe m.id).creators = proposed.creators.getD (t.describe m.id).creators := by
    rw [h.describe]
    rfl
  rw [reported_of_shown rfl hpublished, SameStored, hnew, showsChange]
  cases proposed.creators with
  | none => simp
  | some creators =>
      rw [Option.any_some, Option.getD_some, decide_eq_true_iff, ne_eq, normalizeCreators_eq_iff]

/-- A difficulty sets the raw value too. -/
theorem reported_difficulty_iff (h : StoredAs t t' m proposed)
    (hm : t.base.mapOfCode (some code) = some m) (hr : convertMap textLe t m = some r) :
    Reported t t' code m r proposed .difficulty ↔ Reportable t m proposed .difficulty := by
  obtain ⟨m', hm', -, -, -, -, -, hdifficulty, hraw⟩ := h.row
  obtain ⟨hrow, -⟩ := get?_of_mapOfCode hm
  obtain ⟨medals, rfl, -⟩ := exists_mapResponse hr
  rw [reported_of_shown rfl rfl, SameStored,
    sameStored_column hrow hm' (Prod.ext hdifficulty hraw : (m'.difficulty, m'.rawDifficulty) =
      (proposed.difficulty.getD m.difficulty,
        (proposed.difficulty.map difficultyMidpoint).getD m.rawDifficulty)),
    showsChange, any_ne_iff, Reportable]
  cases proposed.difficulty with
  | none => simp
  | some difficulty =>
      rw [Option.getD_some, Option.map_some, Option.getD_some, Prod.mk.injEq, not_iff_not,
        Option.some.injEq]
      constructor
      · rintro hsame rfl
        exact (hsame.mp rfl).2.symm
      · intro hraw
        refine ⟨fun heq ↦ ⟨heq, ?_⟩, And.left⟩
        rw [hraw heq, heq]

/-- Names that the table does not have are passed over. -/
theorem reported_labels_iff (h : StoredAs t t' m proposed) (hr : convertMap textLe t m = some r)
    (kind : LabelKind) :
    Reported t t' code m r proposed (.labels kind) ↔ Reportable t m proposed (.labels kind) := by
  obtain ⟨medals, rfl, -⟩ := exists_mapResponse hr
  have hnew : (t'.describe m.id).labels kind = ((proposed.labels kind).map fun names ↦
      (t.names kind).filter fun name ↦ name ∈ names.getD []).getD ((t.describe m.id).labels kind) := by
    rw [h.describe]
    cases kind <;> rfl
  have hnodup := h.nodup kind
  have hremaining : proposed.remaining.labels kind = proposed.labels kind := by cases kind <;> rfl
  rw [reported_iff_comparisons, SameStored, hnew, showsChange, publishesChange, hremaining,
    Reportable]
  rw [namesOf] at hnodup
  cases hset : proposed.labels kind with
  | none => simp
  | some names =>
      rw [hset, Option.join_some] at hnodup
      have hshown : ((t.describe m.id).labels kind).toFinset ≠ (names.getD []).toFinset ↔
          ¬SameNames (names.getD []) ((t.describe m.id).labels kind) := by
        rw [ne_eq, not_iff_not, Finset.ext_iff]
        refine forall_congr' fun name ↦ ?_
        rw [List.mem_toFinset, List.mem_toFinset]
        exact iff_comm
      have hpublished : listNorm ((mapResponse textLe t m medals).labels kind) ≠
          listNorm (names.getD []) ↔ ¬SameNames (names.getD []) ((t.describe m.id).labels kind) := by
        rw [ne_eq, not_iff_not]
        exact listNorm_arrayAggDistinct_iff textLe hnodup
      rw [Option.any_some, Option.any_some, decide_eq_true_iff, decide_eq_true_iff, hshown,
        hpublished, Option.map_some, Option.getD_some, and_iff_left (rfl : EditField.excluded _ = false),
        and_self_iff, not_iff_not]
      simp only [Option.some.injEq, forall_eq']
      exact sameNames_iff_filter

/-- A threshold that is rounded is not that of the request. -/
theorem sameTime_iff {cents : Int} {time : Rat} :
    sameTime (some cents) time = true ↔ (cents : Rat) / 100 = time := by
  show decide ((cents : Rat) / 100 = time) = true ↔ _
  exact decide_eq_true_iff

/-- A response has the thresholds of the row. -/
theorem sameMedalsResponse_eq {medals : Option MedalsResponse} {new : Option MedalTimes}
    (h : t.base.db.medals.get? m.id = none ∧ medals = none ∨
      ∃ row md, t.base.db.medals.get? m.id = some row ∧ convertMedals row = some md ∧
        medals = some md) :
    sameMedalsResponse medals new = sameMedals (t.base.db.medals.get? m.id) new := by
  rcases h with ⟨hrow, rfl⟩ | ⟨row, md, hrow, hmd, rfl⟩
  · rw [hrow]
    cases new <;> rfl
  · rw [hrow]
    cases new with
    | none => rfl
    | some new =>
        rw [convertMedals] at hmd
        split at hmd
        case h_2 => cases hmd
        case h_1 gold silver bronze hgold hsilver hbronze =>
          split at hmd
          · cases hmd
            rw [sameMedals, hgold, hsilver, hbronze]
            rfl
          · cases hmd

theorem hundredths_of_exact {cents : Int} {time : Rat} (h : (cents : Rat) / 100 = time) :
    hundredths time = cents := by
  rw [hundredths, ← h, div_mul_cancel₀ _ (by decide), roundAway_intCast]

/-- The row is compared as equal if it is the stored one, which is exact. -/
theorem sameMedals_iff {old : Option MedalThresholds} {new : MedalTimes} {row : MedalsResponse}
    {mapId : Nat} (hold : ∀ md, old = some md → md.mapId = mapId) (hstored : new.stored = some row) :
    sameMedals old (some new) = true ↔ old = some (row.row mapId) ∧ Exact new row := by
  obtain ⟨hgold, hsilver, hbronze⟩ := stored_eq_some hstored
  constructor
  · intro h
    cases old with
    | none => cases h
    | some md =>
        rw [sameMedals, Bool.and_eq_true, Bool.and_eq_true] at h
        obtain ⟨⟨hg, hs⟩, hb⟩ := h
        have hsome {cents : Option Int} {time : Rat} (h : sameTime cents time = true) :
            cents = some (hundredths time) ∧ (hundredths time : Rat) / 100 = time := by
          cases cents with
          | none => cases h
          | some cents =>
              rw [hundredths_of_exact (sameTime_iff.mp h)]
              exact ⟨rfl, sameTime_iff.mp h⟩
        refine ⟨?_, ?_⟩
        · rw [MedalsResponse.row, hgold, hsilver, hbronze, ← (hsome hg).1, ← (hsome hs).1,
            ← (hsome hb).1, ← hold md rfl]
        · rw [Exact, hgold, hsilver, hbronze]
          exact ⟨(hsome hg).2, (hsome hs).2, (hsome hb).2⟩
  · rintro ⟨rfl, hg, hs, hb⟩
    rw [sameMedals, Bool.and_eq_true, Bool.and_eq_true]
    exact ⟨⟨sameTime_iff.mpr hg, sameTime_iff.mpr hs⟩, sameTime_iff.mpr hb⟩

/-- Thresholds are rounded when they are stored. -/
theorem reported_medals_iff (h : StoredAs t t' m proposed) (hr : convertMap textLe t m = some r) :
    Reported t t' code m r proposed .medals ↔ Reportable t m proposed .medals := by
  obtain ⟨medals, rfl, hmedals⟩ := exists_mapResponse hr
  have hpublished : publishesChange (some code) (mapResponse textLe t m medals) proposed.remaining
      .medals = showsChange t m proposed .medals := by
    rw [publishesChange, showsChange]
    show proposed.medals.any _ = proposed.medals.any _
    congr 1
    funext new
    rw [← sameMedalsResponse_eq hmedals]
    rfl
  rw [reported_of_shown rfl hpublished, SameStored, h.medals, showsChange, Reportable]
  cases hset : proposed.medals with
  | none => simp
  | some new =>
      cases new with
      | none =>
          refine iff_of_true ?_ fun _ _ h ↦ absurd (Option.some.inj h) (Option.some_ne_none _).symm
          cases t.base.db.medals.get? m.id <;> simp [sameMedals]
      | some new =>
          obtain ⟨row, hstored⟩ := h.fits new hset
          have hsame : sameMedals (t.base.db.medals.get? m.id) (some new) = true ↔
              t.base.db.medals.get? m.id = some (row.row m.id) ∧ Exact new row :=
            sameMedals_iff (fun _ ↦ Table.key_of_get?) hstored
          rw [Option.any_some, Option.map_some, Option.getD_some, Option.bind_some, hstored,
            Option.map_some, Bool.not_eq_true', ← Bool.not_eq_true, not_iff_not, hsame]
          constructor
          · rintro hiff medals' row' heq hstored' hrow
            cases heq
            cases hstored.symm.trans hstored'
            exact (hiff.mpr hrow.symm).2
          · intro hexact
            refine ⟨fun hrow ↦ hrow.1.symm, fun hrow ↦ ⟨hrow.symm, ?_⟩⟩
            exact hexact new row rfl hstored hrow.symm

/-- A banner is normalised when it is stored, and a response does not have it. -/
theorem reported_customBanner_iff (h : StoredAs t t' m proposed)  :
    Reported t t' code m r proposed .customBanner ↔ Reportable t m proposed .customBanner := by
  have hnew : (t'.describe m.id).customBanner =
      (proposed.customBanner.map normalizeCustomBanner).getD (t.describe m.id).customBanner := by
    rw [h.describe]
    rfl
  have hremaining : proposed.remaining.customBanner = proposed.customBanner := rfl
  rw [reported_iff_comparisons, SameStored, hnew, showsChange, publishesChange, hremaining,
    Reportable]
  cases proposed.customBanner with
  | none => simp
  | some url =>
      rw [Option.any_some, Option.any_some, decide_eq_true_iff, Option.map_some, Option.getD_some,
        and_iff_left (rfl : EditField.excluded _ = false), ne_eq, not_iff_not]
      simp only [Option.some.injEq, forall_eq']
      cases url with
      | none =>
          have hnone : normalizeCustomBanner none = none := rfl
          rw [hnone, if_pos rfl, eq_comm, and_iff_right Iff.rfl]
          refine ⟨fun h ↦ ?_, fun h ↦ iff_of_false Bool.false_ne_true (not_not.mpr h)⟩
          by_contra hcolumn
          exact absurd (h.mpr hcolumn) Bool.false_ne_true
      | some url =>
          rw [if_neg (Option.some_ne_none url), Option.isSome_some]
          constructor
          · rintro ⟨hshown, hpublished⟩
            have hnew := hpublished.mp rfl
            exact ⟨fun hcolumn ↦ hnew (hshown.mp hcolumn), fun hcolumn ↦ hnew hcolumn.symm⟩
          · rintro ⟨hcolumn, hnew⟩
            exact ⟨iff_of_false hcolumn hnew.symm, iff_of_true rfl hnew.symm⟩

/-- The fields that are written as they are proposed. -/
theorem reported_iff_reportable (h : StoredAs t t' m proposed)
    (hm : t.base.mapOfCode (some code) = some m) (hr : convertMap textLe t m = some r)
    (field : EditField) :
    Reported t t' code m r proposed field ↔ Reportable t m proposed field := by
  obtain ⟨m', hm', -, hmapName, hcategory, hofficial, harchived, -, -⟩ := h.row
  obtain ⟨hrow, -⟩ := get?_of_mapOfCode hm
  obtain ⟨medals, hresponse, -⟩ := exists_mapResponse hr
  have hdescribe := h.describe
  cases field with
  | difficulty => exact reported_difficulty_iff h hm hr
  | labels kind => exact reported_labels_iff h hr kind
  | medals => exact reported_medals_iff h hr
  | customBanner => exact reported_customBanner_iff h
  | code => exact iff_of_true (reported_code h hm) trivial
  | creators => exact iff_of_true (reported_creators h hr) trivial
  | mapName =>
      subst hresponse
      refine iff_of_true ?_ trivial
      rw [reported_of_shown rfl rfl, SameStored, sameStored_column hrow hm' hmapName]
      exact any_ne_iff _ _
  | category =>
      subst hresponse
      refine iff_of_true ?_ trivial
      rw [reported_of_shown rfl rfl, SameStored, sameStored_column hrow hm' hcategory]
      exact any_ne_iff _ _
  | official =>
      refine iff_of_true ?_ trivial
      rw [reported_of_excluded rfl rfl, SameStored, sameStored_column hrow hm' hofficial]
      exact any_ne_iff _ _
  | archived =>
      refine iff_of_true ?_ trivial
      rw [reported_of_excluded rfl rfl, SameStored, sameStored_column hrow hm' harchived]
      exact any_ne_iff _ _
  | checkpoints =>
      subst hresponse
      refine iff_of_true ?_ trivial
      rw [reported_of_shown rfl rfl, SameStored, hdescribe]
      exact any_ne_iff _ _
  | hidden =>
      refine iff_of_true ?_ trivial
      rw [reported_of_excluded rfl rfl, SameStored, hdescribe]
      exact any_ne_iff _ _
  | description =>
      subst hresponse
      refine iff_of_true ?_ trivial
      rw [reported_of_shown rfl rfl, SameStored, hdescribe]
      exact any_ne_iff _ _
  | title =>
      subst hresponse
      refine iff_of_true ?_ trivial
      rw [reported_of_shown rfl rfl, SameStored, hdescribe]
      exact any_ne_iff _ _

end Fields

/-- Of an accepted request, the fields that are shown are those whose stored value changes, and the
fields that are published are these without the excluded ones, exactly if each is proposed as it is
stored. -/
theorem accepted_reported_iff (textLe : String → String → Bool) (faults : EditFaults)
    (edit : MapEdit) (code : String) (m : CoreMap) (r : MapResponse) (s s' : EditState)
    (hinv : MapsInv s.tables.base) (horiginal : Original textLe faults s.tables edit code m r)
    (h : acceptChanges textLe faults edit s = .ok () s') :
    (∀ field, Reported s.tables s'.tables code m r edit.proposedChanges field) ↔
      ∀ field, Reportable s.tables m edit.proposedChanges field := by
  have hstored := storedAs_of_acceptChanges hinv horiginal h
  exact forall_congr' fun field ↦
    reported_iff_reportable hstored horiginal.map horiginal.response field

/-- The request of `oneRequest`. -/
def proposedEdit (changes : MapsService.MapPatchRequest) : MapEdit where
  id := 1
  mapId := 1
  code := some "AAAAA"
  proposedChanges := changes
  reason := "typo"
  createdBy := 1

theorem exists_original (changes : MapsService.MapPatchRequest) :
    ∃ m r, Original (fun _ _ ↦ true) {} (oneRequest changes).tables (proposedEdit changes) "AAAAA" m r :=
  ⟨_, _, rfl, rfl, rfl, rfl⟩

theorem titled_reported :
    ∃ s' m r, acceptChanges (fun _ _ ↦ true) {} (proposedEdit { title := some (some "Spring") })
        (oneRequest { title := some (some "Spring") }) = .ok () s' ∧
      ∀ field, Reported (oneRequest { title := some (some "Spring") }).tables s'.tables "AAAAA" m r
        { title := some (some "Spring") } field := by
  have haccept : ∃ s', acceptChanges (fun _ _ ↦ true) {}
      (proposedEdit { title := some (some "Spring") })
      (oneRequest { title := some (some "Spring") }) = .ok () s' := ⟨_, rfl⟩
  obtain ⟨s', haccept⟩ := haccept
  obtain ⟨m, r, horiginal⟩ := exists_original { title := some (some "Spring") }
  refine ⟨s', m, r, haccept, (accepted_reported_iff _ _ _ _ m r _ s' (oneRequest_inv _) horiginal
    haccept).mpr fun field ↦ ?_⟩
  cases field with
  | labels kind => cases kind <;> exact nofun
  | difficulty | medals | customBanner => exact nofun
  | _ => exact trivial

/-- A banner of the site's own is shown and published, and is stored as none. -/
theorem assetBanner_not_reported :
    ∃ s' m r, acceptChanges (fun _ _ ↦ true) {}
        (proposedEdit { customBanner := some (some "/assets/map_banners/hanamura.png") })
        (oneRequest { customBanner := some (some "/assets/map_banners/hanamura.png") }) =
          .ok () s' ∧
      ¬∀ field, Reported
        (oneRequest { customBanner := some (some "/assets/map_banners/hanamura.png") }).tables
        s'.tables "AAAAA" m r
        { customBanner := some (some "/assets/map_banners/hanamura.png") } field := by
  have haccept : ∃ s', acceptChanges (fun _ _ ↦ true) {}
      (proposedEdit { customBanner := some (some "/assets/map_banners/hanamura.png") })
      (oneRequest { customBanner := some (some "/assets/map_banners/hanamura.png") }) =
        .ok () s' := ⟨_, rfl⟩
  obtain ⟨s', haccept⟩ := haccept
  obtain ⟨m, r, horiginal⟩ :=
    exists_original { customBanner := some (some "/assets/map_banners/hanamura.png") }
  refine ⟨s', m, r, haccept, fun hall ↦ ?_⟩
  have hstored := storedAs_of_acceptChanges (oneRequest_inv _) horiginal haccept
  have hbanner := (reported_customBanner_iff hstored).mp (hall .customBanner) _ rfl
  have hnone : normalizeCustomBanner (some "/assets/map_banners/hanamura.png") = none := by
    decide +kernel
  rw [if_neg (Option.some_ne_none _), hnone] at hbanner
  exact hbanner.2 rfl

end Genjishimada.Maps
