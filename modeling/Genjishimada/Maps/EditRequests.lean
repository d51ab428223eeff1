import Genjishimada.Maps.Legacy
import Genjishimada.Maps.Playtests

/-!
# What an edit request touches

An edit request carries the id of its map and, for querying, the map's code of the time.  Its
resolution finds the map by that code, which may have been renamed, released or given to
another map since, and which the changes themselves may rename before the map is sent to
playtest.

The effect of each part of a resolution is a `Change`: the row of one map, the other maps as
they were, and the ids of the maps that were written.
-/

namespace Genjishimada.Maps

open Library Sdk Repository Services

/-! ## The calls -/

inductive EditLabel where
  | /-- A call that is not about edit requests. -/
    map (l : PlaytestLabel)
  | releaseCode (code : String) (hasOpenChangeRequests : Bool)
  | convertToLegacy (code : String)
  | createEditRequest (code : String) (proposedChanges : MapPatchRequest) (createdBy : Nat)
  | resolveEditRequest (editId : Nat) (accepted : Bool) (resolvedBy : Nat)
      (rejectionReason : Option String) (toPlaytest : Bool)

/-- One call. -/
def editStep (d : PlaytestDb) : EditLabel → PlaytestDb
  | .map l => playtestStep d l
  | .releaseCode code hasOpen => after d (releaseCode code hasOpen d)
  | .convertToLegacy code => after d (convertToLegacy code d)
  | .createEditRequest code changes createdBy => after d (createEditRequest code changes createdBy d)
  | .resolveEditRequest editId accepted resolvedBy reason toPlaytest =>
      (resolveEditRequest editId accepted resolvedBy reason toPlaytest d).1

/-! ## What a resolution should touch -/

/-- Only the map of the request is written, and it is in progress if it was to be sent to
playtest. -/
structure TouchesOwn (d : PlaytestDb) (e : EditRequest) (toPlaytest : Bool)
    (result : PlaytestDb × Option MapError) : Prop where
  others : ∀ id, id ≠ e.mapId → result.1.writes id = d.writes id
  playtest : toPlaytest = true → result.2 = none →
    ∃ m, result.1.db.maps.get? e.mapId = some m ∧ m.playtesting = .inProgress

/-- An acceptance touches its own map. -/
def AcceptsOwn (d : PlaytestDb) : EditLabel → Prop
  | .resolveEditRequest editId true resolvedBy reason toPlaytest =>
      ∀ e, d.editRequests.get? editId = some e →
        TouchesOwn d e toPlaytest (resolveEditRequest editId true resolvedBy reason toPlaytest d)
  | _ => True

/-- The changes are refused because of the code they give. -/
def Refused (d : PlaytestDb) (e : EditRequest) : Prop :=
  ∃ code ∈ e.code, ∃ newCode ∈ e.proposedChanges.code, d.codeRefused code newCode = true

/-- The changes give the map another code. -/
def Renames (e : EditRequest) : Prop := ∃ newCode ∈ e.proposedChanges.code, e.code ≠ some newCode

/-- The status of the map after the changes. -/
def statusAfter (e : EditRequest) (m : CoreMap) : PlaytestStatus :=
  e.proposedChanges.playtesting.getD
    (if e.proposedChanges.archived = some true ∧ m.playtesting = .inProgress then .rejected
      else m.playtesting)

/-- The map can be sent to playtest after the changes. -/
def Sendable (d : PlaytestDb) (e : EditRequest) (m : CoreMap) : Prop :=
  ¬ Renames e ∧ statusAfter e m ≠ .inProgress ∧ ¬ HasRejected d m

/-- The code of the request is that of its map, and the changes let the map be sent to playtest;
or it is that of another map, and there is nothing to change or the changes are refused. -/
def Addressed (d : PlaytestDb) (e : EditRequest) (toPlaytest : Bool) : Prop :=
  ∀ m, d.mapOfCode e.code = some m →
    if m.id = e.mapId then
      ¬ Refused d e →
        (Renames e → ∀ id, id ≠ e.mapId → d.linkedCode id ≠ e.code) ∧
          (toPlaytest = true → statusAfter e m = .inProgress ∨ Sendable d e m)
    else
      e.proposedChanges.archived = none ∧ (Refused d e ∨ noneRemain e.proposedChanges = true ∧
        (toPlaytest = true → ¬ Sendable d e m ∧
          ∃ own, d.db.maps.get? e.mapId = some own ∧ own.playtesting = .inProgress))

/-- An acceptance is of a request whose code is right. -/
def CodeKept (d : PlaytestDb) : EditLabel → Prop
  | .resolveEditRequest editId true _ _ toPlaytest =>
      ∀ e, d.editRequests.get? editId = some e → Addressed d e toPlaytest
  | _ => True

/-! ## Writes -/

/-- Exactly these maps are written. -/
structure Writes (d d' : PlaytestDb) (ids : Nat → Prop) : Prop where
  mono : ∀ id, d.writes id ≤ d'.writes id
  iff : ∀ id, d.writes id < d'.writes id ↔ ids id

section Writes

variable {d d' d'' : PlaytestDb} {ids ids' : Nat → Prop} {m : CoreMap}

theorem Writes.none (hwrites : d'.writes = d.writes) : Writes d d' fun _ ↦ False := by
  constructor
  · intro id
    rw [hwrites]
  · intro id
    rw [hwrites]
    exact iff_of_false (lt_irrefl _) not_false

theorem Writes.trans (h : Writes d d' ids) (h' : Writes d' d'' ids') :
    Writes d d'' fun id ↦ ids id ∨ ids' id := by
  constructor
  · intro id
    exact (h.mono id).trans (h'.mono id)
  · intro id
    rw [← h.iff, ← h'.iff]
    have hle := h.mono id
    have hle' := h'.mono id
    omega

theorem Writes.congr (h : Writes d d' ids) (hiff : ∀ id, ids id ↔ ids' id) : Writes d d' ids' := by
  refine ⟨h.mono, fun id ↦ ?_⟩
  rw [h.iff, hiff]

theorem Writes.eq_iff (h : Writes d d' ids) (id : Nat) : d'.writes id = d.writes id ↔ ¬ ids id := by
  rw [← h.iff]
  have hle := h.mono id
  omega

/-- Counting one write of some maps. -/
theorem writes_of_add {q : Nat → Prop} [DecidablePred q]
    (hwrites : ∀ id, d'.writes id = d.writes id + if q id then 1 else 0) : Writes d d' q := by
  constructor
  · intro id
    rw [hwrites]
    exact Nat.le_add_right _ _
  · intro id
    rw [hwrites]
    by_cases h : q id
    · simp [h]
    · simp [h]

/-- `UPDATE core.maps … WHERE code = …` -/
theorem writes_updateMaps {p : CoreMap → Bool} {f : CoreMap → CoreMap} {hf}
    (hm : m ∈ d.db.maps.rows) (hp : ∀ m' ∈ d.db.maps.rows, p m' = true ↔ m' = m) :
    Writes d (d.updateMaps p f hf) (· = m.id) := by
  apply writes_of_add
  intro id
  show d.writes id + (if (d.db.maps.get? id).any p then 1 else 0) = _
  congr 1
  apply if_congr _ rfl rfl
  rw [Option.any_eq_true]
  constructor
  · rintro ⟨m', hm', hpm'⟩
    rw [← Table.key_of_get? hm', (hp m' (Table.mem_of_get? hm')).mp hpm']
    rfl
  · rintro rfl
    exact ⟨m, Table.get?_of_mem hm, (hp m hm).mpr rfl⟩

theorem writes_relink (d : PlaytestDb) (code : String) (newCode : Option String) :
    Writes d (d.relink code newCode)
      fun id ↦ newCode ≠ some code ∧ d.linkedCode id = some code := by
  rw [PlaytestDb.relink]
  by_cases hsame : newCode = some code
  · rw [if_pos hsame]
    exact (Writes.none rfl).congr fun id ↦ iff_of_false not_false fun h ↦ h.1 hsame
  · rw [if_neg hsame]
    refine (writes_of_add (q := fun id ↦ d.linkedCode id = some code) ?_).congr
      fun id ↦ (and_iff_right hsame).symm
    intro id
    rfl

end Writes

/-! ## The parts of a resolution -/

/-- Some maps are written, and the row of one is another now. -/
structure Change (d d' : PlaytestDb) (m m' : CoreMap) (ids : Nat → Prop) : Prop where
  inv : MapsInv d'
  row : d'.db.maps.get? m.id = some m'
  others : ∀ id, id ≠ m.id → d'.db.maps.get? id = d.db.maps.get? id
  runs : d'.db.coreCompletions = d.db.coreCompletions
  writes : Writes d d' ids

section Parts

variable {d d' d'' : PlaytestDb} {m m' m'' : CoreMap} {ids ids' : Nat → Prop} {code : String}
  {e : EditRequest}

theorem Change.id_eq (h : Change d d' m m' ids) : m'.id = m.id := Table.key_of_get? h.row

theorem Change.trans (h : Change d d' m m' ids) (h' : Change d' d'' m' m'' ids') :
    Change d d'' m m'' fun id ↦ ids id ∨ ids' id := by
  refine ⟨h'.inv, ?_, fun id hid ↦ ?_, h'.runs.trans h.runs, h.writes.trans h'.writes⟩
  · rw [← h.id_eq]
    exact h'.row
  · rw [h'.others id (by rwa [h.id_eq]), h.others id hid]

/-- The map is found by the code it has now. -/
theorem Change.mapOfCode (h : Change d d' m m' ids) (hc : m'.code = some code) :
    d'.mapOfCode (some code) = some m' :=
  h.inv.mapOfCode (Table.mem_of_get? h.row) hc

/-- No map is found by a code it no longer has, unless another map has it. -/
theorem Change.mapOfCode_none (h : Change d d' m m' ids) (hinv : MapsInv d)
    (hm : d.mapOfCode (some code) = some m) (hc : m'.code ≠ some code) :
    d'.mapOfCode (some code) = none := by
  obtain ⟨hmem, hcode, _⟩ := mem_of_mapOfCode hm
  cases hfind : d'.mapOfCode (some code) with
  | none => rfl
  | some other =>
      obtain ⟨hmem', hcode', _⟩ := mem_of_mapOfCode hfind
      have hget : d'.db.maps.get? other.id = some other := Table.get?_of_mem hmem'
      by_cases hid : other.id = m.id
      · rw [hid, h.row] at hget
        rw [Option.some.inj hget] at hc
        exact absurd hcode' hc
      · rw [h.others _ hid] at hget
        have heq := hinv.codes other (Table.mem_of_get? hget) m hmem (by simp [hcode'])
          (hcode'.trans hcode.symm)
        rw [heq] at hid
        exact absurd rfl hid

theorem Change.hasRejected (h : Change d d' m m' ids) : HasRejected d' m' ↔ HasRejected d m := by
  rw [HasRejected, HasRejected, runsOf, runsOf, h.runs, h.id_eq]

/-- The row of a code, and no other. -/
theorem decide_code_iff (hinv : MapsInv d) (hm : d.mapOfCode (some code) = some m) :
    ∀ m' ∈ d.db.maps.rows, decide (m'.code = some code) = true ↔ m' = m := by
  obtain ⟨hmem, hcode, _⟩ := mem_of_mapOfCode hm
  intro m' hm'
  rw [decide_eq_true_eq]
  constructor
  · intro hc'
    exact hinv.codes m' hm' m hmem (by simp [hc']) (hc'.trans hcode.symm)
  · rintro rfl
    exact hcode

/-- An update of the row of a code. -/
theorem change_updateMaps {p : CoreMap → Bool} {f : CoreMap → CoreMap} {hf}
    (hinv : MapsInv (d.updateMaps p f hf)) (hm : m ∈ d.db.maps.rows)
    (hp : ∀ m' ∈ d.db.maps.rows, p m' = true ↔ m' = m) :
    Change d (d.updateMaps p f hf) m (f m) (· = m.id) := by
  refine ⟨hinv, ?_, fun id hid ↦ ?_, rfl, writes_updateMaps hm hp⟩
  · refine (Table.get?_modify p f hf).trans ?_
    have hget : d.db.maps.get? m.id = some m := Table.get?_of_mem hm
    rw [hget, Option.map_some, if_pos ((hp m hm).mpr rfl)]
  · have hnot : ∀ m', d.db.maps.get? id = some m' → p m' = false := by
      intro m' hm'
      rw [← Bool.not_eq_true, hp m' (Table.mem_of_get? hm')]
      rintro rfl
      exact hid (Table.key_of_get? hm').symm
    show (d.db.maps.modify p f hf).get? id = _
    exact Table.get?_modify_of_not hnot

/-- An update that keeps the codes takes and frees none. -/
theorem codeRefused_of_updateMaps {p : CoreMap → Bool} {f : CoreMap → CoreMap} {hf}
    (hmaps : d'.db.maps = (d.updateMaps p f hf).db.maps) (hcode : ∀ m, (f m).code = m.code) (newCode : String) :
    d'.codeRefused code newCode = d.codeRefused code newCode := by
  have hsame : ∀ m : CoreMap, (if p m then f m else m).code = m.code := by
    intro m
    split
    · exact hcode m
    · rfl
  have hfind : ∀ c, d'.mapOfCode (some c) =
      (d.mapOfCode (some c)).map fun m ↦ if p m then f m else m := by
    intro c
    show d'.db.maps.rows.find? _ = (d.db.maps.rows.find? _).map _
    rw [hmaps]
    show (d.db.maps.rows.map _).find? _ = _
    rw [List.find?_map]
    congr 2
    funext m
    simp only [Function.comp_apply, hsame m]
  rw [PlaytestDb.codeRefused, PlaytestDb.codeRefused, hfind, hfind, Option.isSome_map,
    Option.isSome_map]

theorem Change.congr (h : Change d d' m m' ids) (hiff : ∀ id, ids id ↔ ids' id) :
    Change d d' m m' ids' :=
  ⟨h.inv, h.row, h.others, h.runs, h.writes.congr hiff⟩

/-- The row that `set_archive_status` leaves. -/
def archivedRow (archived : Bool) (m : CoreMap) : CoreMap :=
  if archived then PlaytestDb.archiveMap m else { m with archived := false }

theorem setArchiveStatus_of_mapOfCode (hm : d.mapOfCode (some code) = some m) (archived : Bool) :
    setArchiveStatus [some code] archived d = .ok (d.setArchiveStatus [code] archived) := by
  have hlookup : (d.lookupMapId (some code)).isNone = false := by
    rw [PlaytestDb.lookupMapId, hm]
    rfl
  simp only [setArchiveStatus, List.find?_cons, hlookup, List.find?_nil]
  rfl

theorem setArchiveStatus_change (hinv : MapsInv d) (hm : d.mapOfCode (some code) = some m)
    (archived : Bool) :
    Change d (d.setArchiveStatus [code] archived) m (archivedRow archived m) (· = m.id) := by
  obtain ⟨hmem, hc, _⟩ := mem_of_mapOfCode hm
  have hnamed : ∀ m' ∈ d.db.maps.rows, PlaytestDb.named [code] m' = true ↔ m' = m := by
    intro m' hm'
    rw [← decide_code_iff hinv hm m' hm', PlaytestDb.named]
    cases m'.code <;> simp
  have hinv' : MapsInv (d.setArchiveStatus [code] archived) := hinv.setArchiveStatus _ _
  cases archived with
  | true =>
      have hchange : Change d (d.updateMaps (PlaytestDb.named [code]) PlaytestDb.archiveMap) m
          (PlaytestDb.archiveMap m) (· = m.id) :=
        change_updateMaps (hinv.updateMaps fun _ ↦ rfl) hmem hnamed
      exact ⟨hinv', hchange.row, hchange.others, rfl, hchange.writes.mono, hchange.writes.iff⟩
  | false => exact change_updateMaps (hinv.updateMaps fun _ ↦ rfl) hmem hnamed

theorem codeRefused_setArchiveStatus (d : PlaytestDb) (code newCode : String) (archived : Bool) :
    (d.setArchiveStatus [code] archived).codeRefused code newCode = d.codeRefused code newCode := by
  cases archived with
  | true =>
      have hmaps : (d.setArchiveStatus [code] true).db.maps =
          (d.updateMaps (PlaytestDb.named [code]) PlaytestDb.archiveMap).db.maps := rfl
      exact codeRefused_of_updateMaps hmaps (fun _ ↦ rfl) newCode
  | false =>
      have hmaps : (d.setArchiveStatus [code] false).db.maps =
          (d.updateMaps (PlaytestDb.named [code]) fun m ↦ { m with archived := false }).db.maps :=
        rfl
      exact codeRefused_of_updateMaps hmaps (fun _ ↦ rfl) newCode

/-- The code is still that of the same map. -/
theorem id_mapOfCode_setArchiveStatus (d : PlaytestDb) (codes : List String) (code : String)
    (archived : Bool) :
    ((d.setArchiveStatus codes archived).mapOfCode (some code)).map (·.id) =
      (d.mapOfCode (some code)).map (·.id) := by
  have hmap (f : CoreMap → CoreMap) (hid : ∀ m, (f m).id = m.id) (hcode : ∀ m, (f m).code = m.code) :
      ((d.db.maps.rows.map fun m ↦ if PlaytestDb.named codes m then f m else m).find? fun m ↦
        m.code = some code).map (·.id) =
          (d.db.maps.rows.find? fun m ↦ m.code = some code).map (·.id) := by
    rw [List.find?_map, Option.map_map]
    congr 1
    · funext m
      rw [Function.comp_apply]
      split_ifs
      · exact hid m
      · rfl
    · congr 1
      funext m
      rw [Function.comp_apply]
      split_ifs
      · rw [hcode]
      · rfl
  cases archived with
  | true => exact hmap PlaytestDb.archiveMap (fun _ ↦ rfl) fun _ ↦ rfl
  | false => exact hmap (fun m ↦ { m with archived := false }) (fun _ ↦ rfl) fun _ ↦ rfl

theorem linkedCode_setArchiveStatus (d : PlaytestDb) (codes : List String) (archived : Bool) :
    (d.setArchiveStatus codes archived).linkedCode = d.linkedCode := by
  cases archived <;> rfl

/-- The archive change is of the map of the code. -/
theorem applyArchive_change (hinv : MapsInv d) (hm : d.mapOfCode (some code) = some m)
    (hcode : e.code = some code) : ∃ archived m', applyArchive e d = .ok archived ∧
      Change d archived m m' (fun id ↦ e.proposedChanges.archived ≠ none ∧ id = m.id) ∧
      archived.linkedCode = d.linkedCode ∧ m'.code = m.code ∧
      m'.playtesting = (if e.proposedChanges.archived = some true ∧ m.playtesting = .inProgress
        then .rejected else m.playtesting) ∧
      ∀ newCode, archived.codeRefused code newCode = d.codeRefused code newCode := by
  obtain ⟨hmem, hc, _⟩ := mem_of_mapOfCode hm
  cases hchange : e.proposedChanges.archived with
  | none =>
      refine ⟨d, m, ?_, ⟨hinv, Table.get?_of_mem hmem, fun _ _ ↦ rfl, rfl, ?_⟩, rfl, rfl, ?_,
        fun _ ↦ rfl⟩
      · rw [applyArchive, hchange]
      · exact (Writes.none rfl).congr fun _ ↦ iff_of_false not_false fun h ↦ h.1 rfl
      · rw [if_neg (by simp)]
  | some archived =>
      have hok : applyArchive e d = .ok (d.setArchiveStatus [code] archived) := by
        rw [applyArchive, hchange, hcode]
        exact setArchiveStatus_of_mapOfCode hm archived
      refine ⟨_, _, hok, (setArchiveStatus_change hinv hm archived).congr fun _ ↦ by simp,
        linkedCode_setArchiveStatus _ _ _, ?_, ?_, fun newCode ↦
          codeRefused_setArchiveStatus d code newCode archived⟩
      · cases archived <;> rfl
      · cases archived <;> simp [archivedRow, PlaytestDb.archiveMap]

theorem relink_frame (d : PlaytestDb) (code : String) (newCode : Option String) :
    (d.relink code newCode).db = d.db ∧ (d.relink code newCode).metas = d.metas := by
  rw [PlaytestDb.relink]
  split <;> exact ⟨rfl, rfl⟩

theorem playtesting_apply (data : MapPatchRequest) (m : CoreMap) :
    (data.apply m).playtesting = data.playtesting.getD m.playtesting := by
  rw [MapPatchRequest.apply]
  split <;> rfl

theorem apply_of_coreEmpty {data : MapPatchRequest} (h : data.coreEmpty = true) (m : CoreMap) :
    data.apply m = m := by
  simp only [MapPatchRequest.coreEmpty, Bool.and_eq_true, Option.isNone_iff_eq_none] at h
  obtain ⟨⟨⟨⟨⟨⟨⟨-, hcode⟩, hmapName⟩, hcategory⟩, hdifficulty⟩, hofficial⟩, harchived⟩,
    hplaytesting⟩ := h
  rw [MapPatchRequest.apply, hdifficulty, hcode, hmapName, hcategory, hofficial, harchived,
    hplaytesting]
  rfl

/-- A patch of the map of the code, if its new code is free. -/
theorem updateCoreMap_apply {data : MapPatchRequest} (hinv : MapsInv d)
    (hm : d.mapOfCode (some code) = some m) (hs : d.updateCoreMap code data = some d') :
    Change d d' m (data.apply m) fun id ↦ data.coreEmpty = false ∧ id = m.id ∨
      (∃ newCode ∈ data.code, some code ≠ some newCode) ∧ d.linkedCode id = some code := by
  obtain ⟨hmem, hc, _⟩ := mem_of_mapOfCode hm
  have hinv' := hinv.updateCoreMap hs
  rw [PlaytestDb.updateCoreMap] at hs
  split at hs
  · rename_i hempty
    obtain rfl := Option.some.inj hs
    have hnone : data.code = none := by
      simp only [MapPatchRequest.coreEmpty, Bool.and_eq_true, Option.isNone_iff_eq_none] at hempty
      exact hempty.1.1.1.1.1.1.2
    rw [apply_of_coreEmpty hempty]
    refine ⟨hinv, Table.get?_of_mem hmem, fun _ _ ↦ rfl, rfl, ?_⟩
    refine (Writes.none rfl).congr fun id ↦ iff_of_false not_false ?_
    rintro (⟨hnot, _⟩ | ⟨⟨newCode, hnew, _⟩, _⟩)
    · rw [hempty] at hnot
      cases hnot
    · rw [hnone] at hnew
      cases hnew
  · rename_i hempty
    have hempty : data.coreEmpty = false := Bool.not_eq_true _ ▸ hempty
    have hsingle := decide_code_iff hinv hm
    split at hs
    · rename_i newCode hnew
      split at hs
      · cases hs
      · obtain rfl := Option.some.inj hs
        set updated := d.updateMaps (fun m ↦ m.code = some code) data.apply data.key_apply
        obtain ⟨hdb, hmetas⟩ := relink_frame updated code (some newCode)
        have hchange : Change d updated m (data.apply m) (· = m.id) :=
          change_updateMaps (hinv'.congr (by rw [hdb]) hmetas.symm) hmem hsingle
        refine ⟨hinv', ?_, ?_, ?_, ?_⟩
        · rw [hdb]
          exact hchange.row
        · rw [hdb]
          exact hchange.others
        · rw [hdb]
          exact hchange.runs
        · refine (hchange.writes.trans (writes_relink updated code (some newCode))).congr fun id ↦ ?_
          have hlinked : updated.linkedCode id = d.linkedCode id := rfl
          rw [hlinked]
          simp [hempty, hnew, eq_comm]
    · rename_i hnone
      obtain rfl := Option.some.inj hs
      have hchange : Change d _ m _ _ := change_updateMaps hinv' hmem hsingle
      refine ⟨hinv', hchange.row, hchange.others, rfl, ?_⟩
      refine hchange.writes.congr fun id ↦ ?_
      simp [hempty, hnone]

theorem patchInitialDifficulty_frame (difficulty : Option DifficultyAll) (threadId : Option Nat)
    (d : PlaytestDb) : (patchInitialDifficulty difficulty threadId d).db = d.db ∧
      (patchInitialDifficulty difficulty threadId d).writes = d.writes := by
  rw [patchInitialDifficulty.eq_def]
  split <;> exact ⟨rfl, rfl⟩

/-- The difficulty of the playtest and the medals are patched after the map. -/
theorem patch_change (h : Change d d' m m' ids) (difficulty : Option DifficultyAll)
    (threadId : Option Nat) (medals : Option (Option MedalsResponse)) :
    Change d (patchMedals m.id medals (patchInitialDifficulty difficulty threadId d')) m m'
      fun id ↦ ids id ∨ medals ≠ none ∧ id = m.id := by
  set patched := patchInitialDifficulty difficulty threadId d'
  obtain ⟨hdb, hwrites⟩ := patchInitialDifficulty_frame difficulty threadId d'
  have hinv : MapsInv patched := by
    simp only [patched, patchInitialDifficulty]
    split
    · exact h.inv.modifyMetas fun _ ↦ ⟨rfl, rfl⟩
    · exact h.inv
  have hpatched : Writes d patched ids := by
    constructor
    · intro id
      rw [hwrites]
      exact h.writes.mono id
    · intro id
      rw [hwrites]
      exact h.writes.iff id
  cases medals with
  | none =>
      refine ⟨hinv, ?_, ?_, ?_, hpatched.congr fun id ↦ by simp⟩
      · show patched.db.maps.get? m.id = some m'
        rw [hdb]
        exact h.row
      · show ∀ id, id ≠ m.id → patched.db.maps.get? id = d.db.maps.get? id
        rw [hdb]
        exact h.others
      · show patched.db.coreCompletions = d.db.coreCompletions
        rw [hdb]
        exact h.runs
  | some medals =>
      have hmedals : Writes patched (patched.replaceMedals m.id medals) (· = m.id) :=
        writes_of_add fun _ ↦ rfl
      refine ⟨hinv.congr rfl rfl, ?_, ?_, ?_, (hpatched.trans hmedals).congr fun id ↦ by simp⟩
      · show patched.db.maps.get? m.id = some m'
        rw [hdb]
        exact h.row
      · show ∀ id, id ≠ m.id → patched.db.maps.get? id = d.db.maps.get? id
        rw [hdb]
        exact h.others
      · show patched.db.coreCompletions = d.db.coreCompletions
        rw [hdb]
        exact h.runs

/-- The other changes are of the map of the code as well, unless they are refused. -/
theorem applyRemaining_change (hinv : MapsInv d) (hm : d.mapOfCode (some code) = some m)
    (hcode : e.code = some code) :
    (∃ err, applyRemaining e d = .error err ∧
        ∃ newCode ∈ e.proposedChanges.code, d.codeRefused code newCode = true) ∨
      ∃ applied m', applyRemaining e d = .ok applied ∧
        Change d applied m m' (fun id ↦ noneRemain e.proposedChanges = false ∧ id = m.id ∨
          Renames e ∧ d.linkedCode id = some code) ∧
        m'.code = e.proposedChanges.code.or m.code ∧
        m'.playtesting = e.proposedChanges.playtesting.getD m.playtesting ∧
        ∀ newCode ∈ e.proposedChanges.code, d.codeRefused code newCode = false := by
  obtain ⟨hmem, hc, _⟩ := mem_of_mapOfCode hm
  rw [applyRemaining]
  split
  · rename_i hnothing
    rw [Bool.and_eq_true] at hnothing
    have hparts := hnothing.2
    simp only [noneRemain, remainingChanges, MapPatchRequest.coreEmpty, Bool.and_eq_true,
      Option.isNone_iff_eq_none] at hparts
    have hnone : e.proposedChanges.code = none := hparts.1.1.1.1.1.1.1.2
    refine .inr ⟨d, m, rfl, ⟨hinv, Table.get?_of_mem hmem, fun _ _ ↦ rfl, rfl, ?_⟩, ?_, ?_, ?_⟩
    · refine (Writes.none rfl).congr fun id ↦ iff_of_false not_false ?_
      rintro (⟨hnot, _⟩ | ⟨⟨newCode, hnew, _⟩, _⟩)
      · rw [hnothing.2] at hnot
        cases hnot
      · rw [hnone] at hnew
        cases hnew
    · rw [hnone, Option.none_or]
    · rw [hparts.1.2, Option.getD_none]
    · rw [hnone]
      intro newCode hnew
      cases hnew
  · simp only [updateMap, hcode, hm]
    cases hu : d.updateCoreMap code (remainingChanges e.proposedChanges) with
    | none =>
        obtain ⟨newCode, hnew, htaken⟩ := exists_codeRefused hu
        exact .inl ⟨_, rfl, newCode, hnew, htaken⟩
    | some updated =>
        have hchange := updateCoreMap_apply hinv hm hu
        have hfree : ∀ newCode ∈ e.proposedChanges.code, d.codeRefused code newCode = false := by
          intro newCode hnew
          exact codeRefused_eq_false hu newCode hnew
        refine .inr ⟨_, (remainingChanges e.proposedChanges).apply m, rfl, ?_, code_apply _ m,
          playtesting_apply _ m, hfree⟩
        refine (patch_change hchange _ _ _).congr fun id ↦ ?_
        have hrest : noneRemain e.proposedChanges = false ↔
            (remainingChanges e.proposedChanges).coreEmpty = false ∨
              (remainingChanges e.proposedChanges).medals ≠ none := by
          have hmedals : (remainingChanges e.proposedChanges).medals = e.proposedChanges.medals :=
            rfl
          rw [noneRemain, Bool.and_eq_false_iff, hmedals]
          cases e.proposedChanges.medals <;> simp
        have hrename : Renames e ↔ ∃ newCode ∈ (remainingChanges e.proposedChanges).code,
            some code ≠ some newCode := by
          rw [Renames, hcode]
          rfl
        rw [hrest, hrename, or_and_right, or_right_comm]

theorem createPlaytestMetaPartial_frame (d : PlaytestDb) (code : String) (difficulty : Rat) :
    (d.createPlaytestMetaPartial code difficulty).db = d.db ∧
      (d.createPlaytestMetaPartial code difficulty).writes = d.writes := by
  rw [PlaytestDb.createPlaytestMetaPartial]
  split <;> exact ⟨rfl, rfl⟩

/-- A map that no code leads to is not sent. -/
theorem sendAfterEdit_of_none (hm : d.mapOfCode e.code = none) : sendAfterEdit e d = d := by
  have hrefused : ∀ difficulty, sendToPlaytest e.code difficulty d = .error (.mapNotFound e.code) := by
    intro difficulty
    cases hcode : e.code with
    | none => rfl
    | some code =>
        rw [hcode] at hm
        simp only [sendToPlaytest, hm]
  rw [sendAfterEdit]
  split
  · rfl
  · rw [hrefused]

/-- The map that is found is sent by the code of the request. -/
theorem sendAfterEdit_eq (hm : d.mapOfCode (some code) = some m) (hcode : e.code = some code) :
    ∃ difficulty, sendAfterEdit e d = after d (sendToPlaytest (some code) difficulty d) := by
  rw [sendAfterEdit, hcode, hm]
  cases e.proposedChanges.difficulty with
  | none =>
      refine ⟨m.difficulty, ?_⟩
      simp only [Option.map_some, Option.none_or]
      cases sendToPlaytest (some code) m.difficulty d <;> rfl
  | some difficulty =>
      refine ⟨difficulty, ?_⟩
      simp only [Option.some_or]
      cases sendToPlaytest (some code) difficulty d <;> rfl

/-- The map of the code is sent to playtest unless it is there already or has a rejected run. -/
theorem sendAfterEdit_cases (hinv : MapsInv d) (hm : d.mapOfCode (some code) = some m)
    (hcode : e.code = some code) :
    m.playtesting ≠ .inProgress ∧ ¬ HasRejected d m ∧
        (∃ m', (sendAfterEdit e d).db.maps.get? m.id = some m' ∧ m'.playtesting = .inProgress) ∧
        (∀ id, id ≠ m.id → (sendAfterEdit e d).db.maps.get? id = d.db.maps.get? id) ∧
        Writes d (sendAfterEdit e d) (· = m.id) ∨
      ¬ (m.playtesting ≠ .inProgress ∧ ¬ HasRejected d m) ∧ sendAfterEdit e d = d := by
  obtain ⟨hmem, hc, _⟩ := mem_of_mapOfCode hm
  obtain ⟨difficulty, hsend⟩ := sendAfterEdit_eq hm hcode
  rw [hsend]
  by_cases hprogress : m.playtesting = .inProgress
  · refine .inr ⟨fun h ↦ h.1 hprogress, ?_⟩
    simp only [sendToPlaytest, hm, if_pos hprogress, after]
  · by_cases hrejected : HasRejected d m
    · refine .inr ⟨fun h ↦ h.2 hrejected, ?_⟩
      simp only [sendToPlaytest, hm, if_neg hprogress,
        convertToLegacyInternal_of_rejected hinv hmem hc hrejected, after]
    · refine .inl ⟨hprogress, hrejected, ?_⟩
      have hconverted : MapsInv (converted d code) := hinv.congr rfl rfl
      have hm' : (converted d code).mapOfCode (some code) = some m := hm
      cases hu : (converted d code).updateCoreMap code { playtesting := some .inProgress } with
      | none =>
          obtain ⟨newCode, hnew, _⟩ := exists_codeRefused hu
          cases hnew
      | some updated =>
          have hchange := updateCoreMap_apply hconverted hm' hu
          obtain ⟨hdb, hwrites⟩ := createPlaytestMetaPartial_frame updated code
            (difficultyMidpoint difficulty)
          simp only [sendToPlaytest, hm, if_neg hprogress,
            convertToLegacyInternal_of_not hinv hmem hc hrejected, hu, after, hdb]
          refine ⟨⟨_, hchange.row, playtesting_apply _ m⟩, hchange.others, ?_, ?_⟩
          · intro id
            rw [hwrites]
            exact hchange.writes.mono id
          · intro id
            rw [hwrites]
            refine (hchange.writes.iff id).trans ?_
            simp [MapPatchRequest.coreEmpty]

/-- A map that the changes do not rename keeps its code. -/
theorem code_eq_iff (hcode : e.code = some code) (hc : m.code = some code) :
    e.proposedChanges.code.or m.code = some code ↔ ¬ Renames e := by
  rw [Renames, hcode, hc]
  cases e.proposedChanges.code with
  | none => simp
  | some newCode => simp [eq_comm]

/-- What an acceptance does to the map of the code and to the others. -/
theorem resolve_cases (hinv : MapsInv d) (hm : d.mapOfCode (some code) = some m)
    (hcode : e.code = some code) (editId resolvedBy : Nat) (reason : Option String)
    (toPlaytest : Bool) (he : d.editRequests.get? editId = some e) :
    (∃ d' err, resolveEditRequest editId true resolvedBy reason toPlaytest d = (d', some err) ∧
        Refused d e ∧ Writes d d' fun id ↦ e.proposedChanges.archived ≠ none ∧ id = m.id) ∨
      ∃ d' m', resolveEditRequest editId true resolvedBy reason toPlaytest d = (d', none) ∧
        ¬ Refused d e ∧ d'.db.maps.get? m.id = some m' ∧
        (m'.playtesting = .inProgress ↔
          statusAfter e m = .inProgress ∨ toPlaytest = true ∧ Sendable d e m) ∧
        (∀ id, id ≠ m.id → d'.db.maps.get? id = d.db.maps.get? id) ∧
        Writes d d' fun id ↦ id = m.id ∧ (e.proposedChanges.archived ≠ none ∨
          noneRemain e.proposedChanges = false ∨ toPlaytest = true ∧ Sendable d e m) ∨
            Renames e ∧ d.linkedCode id = some code := by
  obtain ⟨hmem, hc, _⟩ := mem_of_mapOfCode hm
  have hfetch : fetchOriginal e d = .ok () := by
    simp only [fetchOriginal, hcode, hm]
    rfl
  obtain ⟨archived, m₁, harchive, hchange₁, hlinked, hc₁, hstatus₁, htaken⟩ :=
    applyArchive_change hinv hm hcode
  have hm₁ : archived.mapOfCode (some code) = some m₁ := hchange₁.mapOfCode (hc₁.trans hc)
  rcases applyRemaining_change hchange₁.inv hm₁ hcode with
    ⟨err, hremaining, newCode, hnew, hrefused⟩ | ⟨applied, m₂, hremaining, hchange₂, hc₂, hstatus₂,
      hfree⟩
  · left
    refine ⟨archived, err, ?_, ?_, hchange₁.writes⟩
    · simp only [resolveEditRequest, he, applyChanges, hfetch, harchive, hremaining, if_true]
    · rw [htaken] at hrefused
      exact ⟨code, hcode, newCode, hnew, hrefused⟩
  · right
    have hfree' : ¬ Refused d e := by
      rintro ⟨code', hcode', newCode, hnew, htaken'⟩
      obtain rfl := Option.some.inj (hcode.symm.trans hcode')
      rw [← htaken, hfree newCode hnew] at htaken'
      cases htaken'
    have hchange := hchange₁.trans hchange₂
    have hstatus : m₂.playtesting = statusAfter e m := by
      rw [hstatus₂, hstatus₁, statusAfter]
    have hcode₂ : m₂.code = some code ↔ ¬ Renames e := by
      rw [hc₂, hc₁]
      exact code_eq_iff hcode hc
    set resolved := applied.resolveEditRequest editId true resolvedBy reason
    have hresult : resolveEditRequest editId true resolvedBy reason toPlaytest d =
        (if toPlaytest then sendAfterEdit e resolved else resolved, none) := by
      simp only [resolveEditRequest, he, applyChanges, hfetch, harchive, hremaining, if_true,
        Bool.true_and]
      rfl
    have hinv' : MapsInv resolved := hchange.inv.congr rfl rfl
    have hresolved : Change d resolved m m₂ _ :=
      ⟨hinv', hchange.row, hchange.others, hchange.runs, hchange.writes.mono, hchange.writes.iff⟩
    have hids : ∀ id, (e.proposedChanges.archived ≠ none ∧ id = m.id ∨
        (noneRemain e.proposedChanges = false ∧ id = m₁.id ∨
          Renames e ∧ archived.linkedCode id = some code)) ↔
        id = m.id ∧ (e.proposedChanges.archived ≠ none ∨ noneRemain e.proposedChanges = false) ∨
          Renames e ∧ d.linkedCode id = some code := by
      intro id
      rw [hchange₁.id_eq, hlinked]
      tauto
    have hrejected : HasRejected resolved m₂ ↔ HasRejected d m := hresolved.hasRejected
    rw [hresult]
    by_cases hsend : toPlaytest = true ∧ Sendable d e m
    · obtain ⟨hto, hrenames, hprogress, hnot⟩ := hsend
      rw [← hstatus] at hprogress
      rw [← hrejected] at hnot
      have hm₂ := hresolved.mapOfCode (hcode₂.mpr hrenames)
      rcases sendAfterEdit_cases hinv' hm₂ hcode with
        ⟨_, _, ⟨m', hrow, hstatus'⟩, hothers, hwrites⟩ | ⟨hcannot, _⟩
      · refine ⟨sendAfterEdit e resolved, m', by rw [if_pos hto], hfree', ?_, ?_, ?_, ?_⟩
        · rw [← hresolved.id_eq]
          exact hrow
        · refine iff_of_true hstatus' (.inr ⟨hto, hrenames, ?_, ?_⟩)
          · rwa [← hstatus]
          · rwa [← hrejected]
        · intro id hid
          rw [hothers id (by rwa [hresolved.id_eq]), hresolved.others id hid]
        · refine (hresolved.writes.trans hwrites).congr fun id ↦ ?_
          have hsend : toPlaytest = true ∧ Sendable d e m :=
            ⟨hto, hrenames, by rwa [← hstatus], by rwa [← hrejected]⟩
          rw [hids, hresolved.id_eq]
          tauto
      · exact absurd ⟨hprogress, hnot⟩ hcannot
    · have hstay : (if toPlaytest then sendAfterEdit e resolved else resolved) = resolved := by
        split
        · rename_i hto
          by_cases hrenames : Renames e
          · apply sendAfterEdit_of_none
            rw [hcode]
            exact hresolved.mapOfCode_none hinv hm fun h ↦ hcode₂.mp h hrenames
          · have hm₂ := hresolved.mapOfCode (hcode₂.mpr hrenames)
            rcases sendAfterEdit_cases hinv' hm₂ hcode with ⟨hprogress, hnot, _⟩ | ⟨_, hstay⟩
            · rw [hstatus] at hprogress
              rw [hrejected] at hnot
              exact absurd ⟨hto, hrenames, hprogress, hnot⟩ hsend
            · exact hstay
        · rfl
      refine ⟨resolved, m₂, by rw [hstay], hfree', hresolved.row, ?_, hresolved.others, ?_⟩
      · rw [hstatus]
        exact (or_iff_left hsend).symm
      · refine hresolved.writes.congr fun id ↦ ?_
        rw [hids]
        tauto

/-- An acceptance touches its own map exactly when its code is right. -/
theorem touchesOwn_iff (hinv : MapsInv d) {editId resolvedBy : Nat} {reason : Option String}
    {toPlaytest : Bool} (he : d.editRequests.get? editId = some e) :
    TouchesOwn d e toPlaytest (resolveEditRequest editId true resolvedBy reason toPlaytest d) ↔
      Addressed d e toPlaytest := by
  cases hm : d.mapOfCode e.code with
  | none =>
      obtain ⟨err, hfetch⟩ : ∃ err, fetchOriginal e d = .error err := by
        cases hcode : e.code with
        | none => exact ⟨.mapNotFound none, by simp only [fetchOriginal, hcode]⟩
        | some code =>
            rw [hcode] at hm
            exact ⟨.conversion, by simp [fetchOriginal, hcode, hm]⟩
      have hresult : resolveEditRequest editId true resolvedBy reason toPlaytest d =
          (d, some err) := by
        simp only [resolveEditRequest, he, applyChanges, hfetch, if_true]
      rw [hresult]
      refine iff_of_true ⟨fun _ _ ↦ rfl, fun _ h ↦ by cases h⟩ fun m hm' ↦ ?_
      rw [hm] at hm'
      cases hm'
  | some m =>
      obtain ⟨_, _, hsome⟩ := mem_of_mapOfCode hm
      obtain ⟨code, hcode⟩ := Option.ne_none_iff_exists'.mp hsome
      have hm' : d.mapOfCode (some code) = some m := by rw [← hcode, hm]
      have haddressed : Addressed d e toPlaytest ↔ if m.id = e.mapId then
          ¬ Refused d e →
            (Renames e → ∀ id, id ≠ e.mapId → d.linkedCode id ≠ e.code) ∧
              (toPlaytest = true → statusAfter e m = .inProgress ∨ Sendable d e m)
          else
            e.proposedChanges.archived = none ∧ (Refused d e ∨ noneRemain e.proposedChanges = true ∧
              (toPlaytest = true → ¬ Sendable d e m ∧
                ∃ own, d.db.maps.get? e.mapId = some own ∧ own.playtesting = .inProgress)) := by
        constructor
        · intro h
          exact h m hm
        · intro h m' hm''
          obtain rfl := Option.some.inj (hm.symm.trans hm'')
          exact h
      rw [haddressed]
      rcases resolve_cases hinv hm' hcode editId resolvedBy reason toPlaytest he with
        ⟨d', err, hresult, hrefused, hwrites⟩ |
          ⟨d', m', hresult, hfree, hrow, hstatus, hothers, hwrites⟩
      · rw [hresult]
        constructor
        · intro htouches
          split
          · intro hfree
            exact absurd hrefused hfree
          · rename_i hown
            refine ⟨?_, .inl hrefused⟩
            by_contra harchived
            exact (hwrites.eq_iff m.id).mp (htouches.others m.id hown) ⟨harchived, rfl⟩
        · intro haddr
          refine ⟨fun id hid ↦ (hwrites.eq_iff id).mpr ?_, fun _ hnone ↦ by cases hnone⟩
          rintro ⟨harchived, rfl⟩
          rw [if_neg hid] at haddr
          exact harchived haddr.1
      · rw [hresult]
        by_cases hown : m.id = e.mapId
        · rw [if_pos hown, imp_iff_right hfree]
          constructor
          · intro htouches
            constructor
            · intro hrenames id hid hlinked
              apply (hwrites.eq_iff id).mp (htouches.others id hid)
              exact .inr ⟨hrenames, hlinked.trans hcode⟩
            · intro hto
              obtain ⟨own, hget, hprogress⟩ := htouches.playtest hto rfl
              rw [← hown, hrow, Option.some_inj] at hget
              rw [← hget] at hprogress
              exact (hstatus.mp hprogress).imp id And.right
          · rintro ⟨hlinked, hto⟩
            refine ⟨fun id hid ↦ (hwrites.eq_iff id).mpr ?_, fun h _ ↦ ⟨m', ?_, ?_⟩⟩
            · rintro (⟨rfl, _⟩ | ⟨hrenames, hlink⟩)
              · exact hid hown
              · exact hlinked hrenames id hid (hlink.trans hcode.symm)
            · rw [← hown]
              exact hrow
            · exact hstatus.mpr ((hto h).imp id fun hsend ↦ ⟨h, hsend⟩)
        · rw [if_neg hown]
          have hrow' : d'.db.maps.get? e.mapId = d.db.maps.get? e.mapId :=
            hothers _ fun heq ↦ hown heq.symm
          constructor
          · intro htouches
            have hnone := (hwrites.eq_iff m.id).mp (htouches.others m.id hown)
            simp only [true_and, not_or, not_and] at hnone
            obtain ⟨⟨harchived, hremain, hsend⟩, _⟩ := hnone
            refine ⟨of_not_not harchived, .inr ⟨Bool.not_eq_false _ ▸ hremain, fun hto ↦ ?_⟩⟩
            refine ⟨hsend hto, ?_⟩
            rw [← hrow']
            exact htouches.playtest hto rfl
          · rintro ⟨harchived, hrefused | ⟨hremain, hto⟩⟩
            · exact absurd hrefused hfree
            · have hkeeps : ¬ Renames e := by
                rintro ⟨newCode, hnew, _⟩
                rw [Option.mem_def] at hnew
                simp [noneRemain, remainingChanges, MapPatchRequest.coreEmpty, hnew] at hremain
              refine ⟨fun id hid ↦ (hwrites.eq_iff id).mpr ?_, fun h _ ↦ ?_⟩
              · rintro (⟨_, harch | hremain' | ⟨h, hsend⟩⟩ | ⟨hrenames, _⟩)
                · exact harch harchived
                · rw [hremain] at hremain'
                  cases hremain'
                · exact (hto h).1 hsend
                · exact hkeeps hrenames
              · show ∃ own, d'.db.maps.get? e.mapId = some own ∧ own.playtesting = .inProgress
                rw [hrow']
                exact (hto h).2

end Parts

/-! ## Runs -/

section Runs

variable {d d' : PlaytestDb} {e : EditRequest}

/-- A code that is released is no map's. -/
theorem MapsInv.releaseCode (h : MapsInv d) (code : String) (mapId : Nat) :
    MapsInv (d.releaseCode code mapId) := by
  simp only [PlaytestDb.releaseCode]
  split
  · apply MapsInv.relink
    have hmaps := h.isSome_modify (fun m ↦ m.code = some code && m.archived)
      (fun m ↦ { m with originalCode := m.code, code := none }) fun _ ↦ rfl
    refine ⟨?_, h.threads, hmaps⟩
    intro r hr r' hr' hne heq
    obtain ⟨m, hm, rfl⟩ := List.mem_map.mp hr
    obtain ⟨m', hm', rfl⟩ := List.mem_map.mp hr'
    split at hne
    · exact absurd rfl hne
    · rename_i hnot
      rw [if_neg hnot] at heq ⊢
      split at heq
      · exact absurd heq hne
      · rename_i hnot'
        rw [if_neg hnot']
        exact h.codes m hm m' hm' hne heq
  · exact h.congr rfl rfl

theorem MapsInv.applyChanges (h : MapsInv d) (e : EditRequest) : MapsInv (applyChanges e d).1 := by
  rw [Services.applyChanges]
  split
  · exact h
  · cases harchive : applyArchive e d with
    | error err => exact h
    | ok archived =>
        have harchived : MapsInv archived := by
          rw [applyArchive] at harchive
          split at harchive
          · rw [Services.setArchiveStatus] at harchive
            split at harchive
            · cases harchive
            · cases harchive
              exact h.setArchiveStatus _ _
          · cases harchive
            exact h
        cases hremaining : applyRemaining e archived with
        | error err =>
            simp only [hremaining]
            exact harchived
        | ok applied =>
            simp only [hremaining]
            rw [applyRemaining] at hremaining
            split at hremaining
            · cases hremaining
              exact harchived
            · exact harchived.updateMap hremaining

theorem MapsInv.sendAfterEdit (h : MapsInv d) (e : EditRequest) :
    MapsInv (sendAfterEdit e d) := by
  rw [Services.sendAfterEdit]
  split
  · exact h
  · split
    · rename_i hsent
      exact h.sendToPlaytest hsent
    · exact h

theorem MapsInv.resolveEditRequest (h : MapsInv d) (editId : Nat) (accepted : Bool)
    (resolvedBy : Nat) (reason : Option String) (toPlaytest : Bool) :
    MapsInv (resolveEditRequest editId accepted resolvedBy reason toPlaytest d).1 := by
  simp only [Services.resolveEditRequest]
  split
  · exact h
  · rename_i e _
    have hchanged : MapsInv (if accepted then Services.applyChanges e d else (d, none)).1 := by
      split
      · exact h.applyChanges e
      · exact h
    split
    · exact hchanged
    · have hresolved : MapsInv ((if accepted then Services.applyChanges e d else (d, none)).1
          |>.resolveEditRequest editId accepted resolvedBy reason) := hchanged.congr rfl rfl
      show MapsInv (if _ then _ else _)
      split
      · exact hresolved.sendAfterEdit e
      · exact hresolved

theorem MapsInv.editStep (h : MapsInv d) (l : EditLabel) : MapsInv (editStep d l) := by
  cases l with
  | map l => exact h.playtestStep l
  | releaseCode code hasOpen =>
      apply h.after
      intro d' hs
      rw [Services.releaseCode] at hs
      split at hs
      · split at hs
        · cases hs
        · split at hs
          · cases hs
          · cases hs
            exact h.releaseCode _ _
      · cases hs
  | convertToLegacy code =>
      apply h.after
      intro d' hs
      rw [Services.convertToLegacy] at hs
      split at hs
      · cases hs
      · rw [convertToLegacyInternal] at hs
        split at hs
        · cases hs
        · cases hs
          exact h.congr rfl rfl
  | createEditRequest code changes createdBy =>
      apply h.after
      intro d' hs
      rw [Services.createEditRequest] at hs
      split at hs
      · cases hs
      · split at hs
        · cases hs
        · cases hs
          exact h.congr rfl rfl
  | resolveEditRequest editId accepted resolvedBy reason toPlaytest =>
      exact h.resolveEditRequest editId accepted resolvedBy reason toPlaytest

end Runs

/-- Whatever is renamed, released, archived and created between a request and its acceptance:
each acceptance of a run writes the map of its request alone, and leaves it in progress if it
was to be sent to playtest, exactly when the code of each request that is accepted is right. -/
theorem acceptsOwn_run_iff {d₀ d : PlaytestDb} {ls : List EditLabel} (hinv : MapsInv d₀) :
    Run (fun d l d' ↦ d' = editStep d l ∧ AcceptsOwn d l) d₀ ls d ↔
      Run (Guarded CodeKept fun d l d' ↦ d' = editStep d l) d₀ ls d := by
  apply Run.congr MapsInv
  · intro d l d' hinv
    rw [Guarded, and_comm]
    apply and_congr_left
    intro _
    cases l with
    | resolveEditRequest editId accepted resolvedBy reason toPlaytest =>
        cases accepted with
        | true => exact forall_congr' fun e ↦ forall_congr' fun he ↦ touchesOwn_iff hinv he
        | false => exact Iff.rfl
    | _ => exact Iff.rfl
  · rintro d l d' hinv ⟨rfl, _⟩
    exact hinv.editStep l
  · exact hinv

/-- The map of a request is renamed, its code is given to a new map, and the request is
accepted. -/
def reusedCode : List EditLabel :=
  [.map (.createMap { code := "AAAA", difficulty := .easy }),
    .createEditRequest "AAAA" { mapName := some "Paris" } 5,
    .map (.updateMap "AAAA" { code := some "BBBB" }),
    .map (.createMap { code := "AAAA", difficulty := .easy })]

def acceptReused : EditLabel := .resolveEditRequest 1 true 6 none false

/-- The new map gets the name that was proposed for the old one. -/
theorem reusedCode_names :
    ((editStep (reusedCode.foldl editStep {}) acceptReused).db.maps.rows.map
      fun m ↦ (m.id, m.mapName)) = [(1, ""), (2, "Paris")] := by
  decide +kernel

theorem reusedCode_not_acceptsOwn : ¬ AcceptsOwn (reusedCode.foldl editStep {}) acceptReused := by
  intro haccepts
  have hmap : ((reusedCode.foldl editStep {}).editRequests.get? 1).map (·.mapId) = some 1 := by
    decide +kernel
  have hwritten : (editStep (reusedCode.foldl editStep {}) acceptReused).writes 2 ≠
      (reusedCode.foldl editStep {}).writes 2 := by
    decide +kernel
  obtain ⟨e, he, hid⟩ := Option.map_eq_some_iff.mp hmap
  apply hwritten
  apply (haccepts e he).others
  rw [hid]
  decide

/-- The rule at that run. -/
theorem reusedCode_run_iff :
    (Run (fun d l d' ↦ d' = editStep d l ∧ AcceptsOwn d l) {} (reusedCode ++ [acceptReused])
        ((reusedCode ++ [acceptReused]).foldl editStep {}) ↔
      Run (Guarded CodeKept fun d l d' ↦ d' = editStep d l) {} (reusedCode ++ [acceptReused])
        ((reusedCode ++ [acceptReused]).foldl editStep {})) :=
  acceptsOwn_run_iff mapsInv_empty

end Genjishimada.Maps
