import Genjishimada.Maps.Medals
import Genjishimada.Services.MapEdits

/-!
# An acceptance that fails half way

`resolve_edit_request` commits the archive status, the other changes, the newsfeed entry and the
verdict one after the other.  It leaves nothing behind if it is refused before the first of these,
which depends on the changes, or if nothing after it fails.
-/

namespace Genjishimada.Maps

open Library Sdk Repository Services Services.MapsService

/-! ## What is not undone -/

/-- None of the changes is applied, no newsfeed entry is created, and the request is as it was. -/
structure Untouched (s s' : EditState) : Prop where
  tables : s'.tables = s.tables
  newsfeed : s'.newsfeed = s.newsfeed
  requests : s'.requests = s.requests
  resolutions : s'.resolutions = s.resolutions

/-- An acceptance that raises leaves nothing behind. -/
def Undone (textLe : String → String → Bool) (faults : EditFaults) (editId resolvedBy : Nat)
    (reason : Option String) (toPlaytest : Bool) (s : EditState) : Prop :=
  ∀ e s', resolveEditRequest textLe faults editId true resolvedBy reason toPlaytest s = .error e s' →
    Untouched s s'

/-- The map of the request is read. -/
structure Original (textLe : String → String → Bool) (faults : EditFaults) (t : MapTables)
    (edit : MapEdit) (code : String) (m : CoreMap) (r : MapResponse) : Prop where
  read : faults.read = false
  named : edit.code = some code
  map : t.base.mapOfCode (some code) = some m
  response : convertMap textLe t m = some r

/-- The transaction of the patch commits. -/
structure PatchCommits (faults : PatchFaults) (code : String) (data : MapsService.MapPatchRequest)
    (t : MapTables) : Prop where
  read : faults.read = false
  transaction : faults.transaction = false
  refusal : patchRefusal code data t = none

/-- The map can be read again after it. -/
structure PatchReads (faults : PatchFaults) (data : MapsService.MapPatchRequest) : Prop where
  reread : faults.reread = false
  medals : ∀ medals, data.medals = some (some medals) → Separated medals

/-- What follows the statement of `set_archive_status` does not fail. -/
structure ArchiveTold (faults : EditFaults) (affected : Bool) : Prop where
  forceDeny : affected = true → faults.forceDeny = false
  read : faults.archivedRead = false
  insert : faults.archiveInsert = false
  publish : faults.archivePublish = false

/-- Archiving the map of this code cancels a playtest. -/
def cancels (t : MapTables) (code : String) (archived : Bool) : Bool :=
  archived && t.base.metas.rows.any (t.base.endedBy [code])

/-- The changes but for the archive status are applied, and told. -/
structure RemainingApplied (faults : EditFaults) (code : String) (r : MapResponse)
    (remaining : MapsService.MapPatchRequest) (t : MapTables) : Prop where
  commits : PatchCommits faults.patch code remaining t
  reads : PatchReads faults.patch remaining
  told : mapEditChanges (some code) r remaining ≠ [] →
    faults.editInsert = false ∧ faults.editPublish = false

/-- Everything the request changes is applied, and told. -/
structure Applied (faults : EditFaults) (edit : MapEdit) (code : String) (r : MapResponse)
    (t : MapTables) : Prop where
  archive : ∀ archived, edit.proposedChanges.archived = some archived →
    faults.archive = false ∧ ArchiveTold faults (cancels t code archived)
  remaining : edit.proposedChanges.archived = none ∨ edit.proposedChanges.remaining ≠ {} →
    RemainingApplied faults code r edit.proposedChanges.remaining t

/-- Nothing fails. -/
def GoesThrough (textLe : String → String → Bool) (faults : EditFaults) (editId : Nat)
    (s : EditState) : Prop :=
  ∃ edit code m r, s.requests.get? editId = some edit ∧
    Original textLe faults s.tables edit code m r ∧ Applied faults edit code r s.tables ∧
    faults.resolve = false ∧ faults.notification = false ∧ faults.publish = false

/-- The first of the steps that the changes call for is not committed: the archive status, the other
changes or, if there is nothing to change, the verdict. -/
def FirstFails (faults : EditFaults) (edit : MapEdit) (code : String) (t : MapTables) : Prop :=
  if edit.proposedChanges.archived ≠ none then faults.archive = true
  else if edit.proposedChanges ≠ {} then ¬PatchCommits faults.patch code edit.proposedChanges t
  else ¬PatchCommits faults.patch code {} t ∨ faults.patch.reread = true ∨ faults.resolve = true

/-- The request is refused before anything is committed. -/
def RefusedFirst (textLe : String → String → Bool) (faults : EditFaults) (editId : Nat)
    (s : EditState) : Prop :=
  ∀ edit, s.requests.get? editId = some edit → ∀ code m r,
    Original textLe faults s.tables edit code m r → FirstFails faults edit code s.tables

/-! ## What the parts leave alone -/

/-- A program that raises does not return. -/
theorem not_returned {e : EditError} {s₁ : EditState} :
    ¬∃ s', (.error e s₁ : EStateM.Result EditError EditState Unit) = .ok () s' := by
  rintro ⟨s', h⟩
  cases h

/-- Nothing but the newsfeed may be new. -/
structure OnlyNews (s s' : EditState) : Prop where
  tables : s'.tables = s.tables
  requests : s'.requests = s.requests
  resolutions : s'.resolutions = s.resolutions

/-- The requests are as they were, and the map may have been written. -/
structure Grown (mapId : Nat) (s s' : EditState) : Prop where
  requests : s'.requests = s.requests
  resolutions : s'.resolutions = s.resolutions
  writes : s.tables.base.writes mapId ≤ s'.tables.base.writes mapId

section Frames

variable {s s' s'' : EditState} {mapId : Nat}

theorem OnlyNews.refl (s : EditState) : OnlyNews s s := ⟨rfl, rfl, rfl⟩

theorem OnlyNews.trans (h : OnlyNews s s') (h' : OnlyNews s' s'') : OnlyNews s s'' :=
  ⟨h'.tables.trans h.tables, h'.requests.trans h.requests, h'.resolutions.trans h.resolutions⟩

theorem OnlyNews.grown (h : OnlyNews s s') : Grown mapId s s' :=
  ⟨h.requests, h.resolutions, (congrArg (fun t ↦ t.base.writes mapId) h.tables).ge⟩

theorem Grown.trans (h : Grown mapId s s') (h' : Grown mapId s' s'') : Grown mapId s s'' :=
  ⟨h'.requests.trans h.requests, h'.resolutions.trans h.resolutions, h.writes.trans h'.writes⟩

variable {textLe : String → String → Bool} {faults : EditFaults} {code : String}

theorem readEdited_cases (textLe : String → String → Bool) (code : String) (fails : Bool)
    (s : EditState) :
    (∃ r, readEdited textLe fails code s = .ok r s ∧ readMap textLe fails code s.tables = .ok r) ∨
      readEdited textLe fails code s = .error .readFailed s ∧
        ∃ e, readMap textLe fails code s.tables = .error e := by
  rw [readEdited, bind_of_ok (get_apply s)]
  cases hread : readMap textLe fails code s.tables with
  | ok r => exact .inl ⟨r, rfl, rfl⟩
  | error e => exact .inr ⟨rfl, e, rfl⟩

/-- A newsfeed entry is two steps, and changes nothing else. -/
theorem createEntry_news (insertFails publishFails : Bool) (entry : NewsfeedEntry)
    (s : EditState) : OnlyNews s (final (createEntry insertFails publishFails entry s)) := by
  cases insertFails with
  | true => exact .refl s
  | false => cases publishFails <;> exact ⟨rfl, rfl, rfl⟩

theorem createEntry_ok_iff (insertFails publishFails : Bool) (entry : NewsfeedEntry)
    (s : EditState) : (∃ s', createEntry insertFails publishFails entry s = .ok () s') ↔
      insertFails = false ∧ publishFails = false := by
  cases insertFails with
  | true => exact iff_of_false not_returned fun h ↦ Bool.noConfusion h.1
  | false =>
      cases publishFails with
      | true => exact iff_of_false not_returned fun h ↦ Bool.noConfusion h.2
      | false => exact ⟨fun _ ↦ ⟨rfl, rfl⟩, fun _ ↦ ⟨_, rfl⟩⟩

theorem readEdited_news (fails : Bool) (s : EditState) :
    OnlyNews s (final (readEdited textLe fails code s)) := by
  rcases readEdited_cases textLe code fails s with ⟨r, h, -⟩ | ⟨h, -⟩ <;>
    rw [h] <;> exact .refl s

theorem tellArchived_news (textLe : String → String → Bool) (faults : EditFaults) (code : String)
    (archived affected : Bool) (s : EditState) :
    OnlyNews s (final (tellArchived textLe faults code archived affected s)) := by
  have htold : OnlyNews s (final ((readEdited textLe faults.archivedRead code >>= fun r ↦
      createEntry faults.archiveInsert faults.archivePublish (archiveEntry archived code r)) s)) :=
    final_bind (fun _ _ _ ↦ .trans) (readEdited_news _ s) fun _ _ _ ↦ createEntry_news _ _ _ _
  unfold tellArchived
  split
  · exact .refl s
  · exact htold

theorem tellArchived_tables {archived affected : Bool}
    (hrun : tellArchived textLe faults code archived affected s = .ok () s') :
    s'.tables = s.tables := by
  have hnews := tellArchived_news textLe faults code archived affected s
  rw [hrun] at hnews
  exact hnews.tables

/-- What follows the statement goes through if the map can still be read. -/
theorem tellArchived_ok_iff (faults : EditFaults) (archived affected : Bool) {s : EditState} {r : MapResponse}
    (hr : readMap textLe false code s.tables = .ok r) :
    (∃ s', tellArchived textLe faults code archived affected s = .ok () s') ↔
      ArchiveTold faults affected := by
  have hiff : (∃ s', tellArchived textLe faults code archived affected s = .ok () s') ↔
      (affected && faults.forceDeny) = false ∧ ∃ r' s₁ s', readEdited textLe faults.archivedRead code s =
        .ok r' s₁ ∧ createEntry faults.archiveInsert faults.archivePublish
          (archiveEntry archived code r') s₁ = .ok () s' := by
    unfold tellArchived
    cases affected && faults.forceDeny with
    | true => exact iff_of_false not_returned fun h ↦ Bool.noConfusion h.1
    | false =>
        simp only [Bool.false_eq_true, if_false, true_and]
        constructor
        · rintro ⟨s', h⟩
          obtain ⟨r', s₁, hread, hentry⟩ := exists_of_bind_ok h
          exact ⟨r', s₁, s', hread, hentry⟩
        · rintro ⟨r', s₁, s', hread, hentry⟩
          exact ⟨s', (bind_of_ok hread).trans hentry⟩
  rw [hiff, Bool.and_eq_false_imp]
  constructor
  · rintro ⟨hdeny, r', s₁, s', hread, hentry⟩
    obtain ⟨hinsert, hpublish⟩ := (createEntry_ok_iff _ _ _ s₁).mp ⟨s', hentry⟩
    refine ⟨hdeny, ?_, hinsert, hpublish⟩
    cases hfails : faults.archivedRead with
    | false => rfl
    | true =>
        rw [hfails] at hread
        cases hread
  · rintro ⟨hdeny, hread, hinsert, hpublish⟩
    obtain ⟨s', hentry⟩ := (createEntry_ok_iff _ _ (archiveEntry archived code r) s).mpr
      ⟨hinsert, hpublish⟩
    refine ⟨hdeny, r, s, s', ?_, hentry⟩
    rw [readEdited, bind_of_ok (get_apply s), hread, hr]
    rfl

theorem generateMapEditNewsfeed_news (r : MapResponse) (patch : MapsService.MapPatchRequest)
    (reason : String) (s : EditState) :
    OnlyNews s (final (generateMapEditNewsfeed faults code r patch reason s)) := by
  unfold generateMapEditNewsfeed
  cases mapEditChanges (some code) r patch with
  | nil => exact .refl s
  | cons field fields => exact createEntry_news _ _ _ s

theorem generateMapEditNewsfeed_ok_iff (r : MapResponse) (patch : MapsService.MapPatchRequest)
    (reason : String) (s : EditState) :
    (∃ s', generateMapEditNewsfeed faults code r patch reason s = .ok () s') ↔
      (mapEditChanges (some code) r patch ≠ [] →
        faults.editInsert = false ∧ faults.editPublish = false) := by
  unfold generateMapEditNewsfeed
  cases hchanges : mapEditChanges (some code) r patch with
  | nil => exact ⟨fun _ h ↦ absurd rfl h, fun _ ↦ ⟨s, rfl⟩⟩
  | cons field fields =>
      refine (createEntry_ok_iff _ _ _ s).trans ⟨fun h _ ↦ h, fun h ↦ h (List.cons_ne_nil _ _)⟩

end Frames

/-! ## The patch -/

section Patch

variable {textLe : String → String → Bool} {code : String} {t : MapTables} {m : CoreMap}
  {r : MapResponse} {data : MapsService.MapPatchRequest} {s : EditState}

theorem readMap_of_convertMap (hm : t.base.mapOfCode (some code) = some m)
    (hr : convertMap textLe t m = some r) : readMap textLe false code t = .ok r := by
  rw [readMap, if_neg Bool.false_ne_true, fetchMap, hm]
  simp only [hr, Option.map_some]

theorem readMap_isOk_iff (fails : Bool) (hm : t.base.mapOfCode (some code) = some m) :
    (∃ r, readMap textLe fails code t = .ok r) ↔
      fails = false ∧ (convertMap textLe t m).isSome = true := by
  cases fails with
  | true => exact iff_of_false except_error_not_ok fun h ↦ Bool.noConfusion h.1
  | false =>
      cases hr : convertMap textLe t m with
      | some r => exact ⟨fun _ ↦ ⟨rfl, rfl⟩, fun _ ↦ ⟨r, readMap_of_convertMap hm hr⟩⟩
      | none =>
          have herror : readMap textLe false code t = .error .readFailed := by
            rw [readMap, if_neg Bool.false_ne_true, fetchMap, hm]
            simp only [hr, Option.map_none]
          rw [herror]
          exact iff_of_false except_error_not_ok fun h ↦ Bool.noConfusion h.2

theorem updateMap_of_commits {faults : PatchFaults} (hm : t.base.mapOfCode (some code) = some m)
    (hr : convertMap textLe t m = some r) (h : PatchCommits faults code data t) :
    MapsService.updateMap textLe faults code data t = (patched code m data t,
      (readMap textLe faults.reread (data.code.getD code) (patched code m data t)).map (·, r)) := by
  rw [MapsService.updateMap, hm]
  simp only [h.read, readMap_of_convertMap hm hr, h.transaction, Bool.false_eq_true, if_false,
    updateMapTransaction_eq, h.refusal]

/-- A patch that does not commit leaves the tables alone. -/
theorem updateMap_of_not_commits (textLe : String → String → Bool) {faults : PatchFaults}
    (hm : t.base.mapOfCode (some code) = some m) (h : ¬PatchCommits faults code data t) :
    ∃ e, MapsService.updateMap textLe faults code data t = (t, .error e) := by
  rw [MapsService.updateMap, hm]
  cases hread : readMap textLe faults.read code t with
  | error e => exact ⟨e, rfl⟩
  | ok before =>
      obtain ⟨hfails, -⟩ := (readMap_isOk_iff faults.read hm).mp ⟨before, hread⟩
      cases htransaction : faults.transaction with
      | true => exact ⟨_, rfl⟩
      | false =>
          simp only [Bool.false_eq_true, if_false, updateMapTransaction_eq]
          cases hrefusal : patchRefusal code data t with
          | some e => exact ⟨e, rfl⟩
          | none => exact absurd ⟨hfails, htransaction, hrefusal⟩ h

/-- The map can be read again if its new medals can. -/
theorem reread_isOk_iff {faults : PatchFaults} (hinv : MapsInv t.base)
    (hm : t.base.mapOfCode (some code) = some m) (hr : convertMap textLe t m = some r)
    (hrefusal : patchRefusal code data t = none) :
    (∃ r, readMap textLe faults.reread (data.code.getD code) (patched code m data t) = .ok r) ↔
      PatchReads faults data := by
  have hchange := patched_change hinv hm hrefusal
  have hcode : (data.core.apply m).code = some (data.code.getD code) := by
    rw [code_apply, (mem_of_mapOfCode hm).2.1]
    show data.code.or (some code) = _
    cases data.code <;> rfl
  rw [readMap_isOk_iff faults.reread (hchange.mapOfCode hcode)]
  have hmedals := medals_patched code m data t m.id
  rw [if_pos rfl] at hmedals
  have hread : (convertMap textLe (patched code m data t) (data.core.apply m)).isSome = true ↔
      ∀ medals, data.medals = some (some medals) → Separated medals := by
    rw [convertMap_isSome_iff_medals, hchange.id_eq, hmedals]
    cases hdata : data.medals with
    | none =>
        have hsome : (convertMap textLe t m).isSome = true := Option.isSome_of_eq_some hr
        exact iff_of_true ((convertMap_isSome_iff_medals textLe).mp hsome) nofun
    | some medals =>
        cases medals with
        | none => exact iff_of_true nofun nofun
        | some medals =>
            obtain ⟨-, -, -, hfits⟩ := patchRefusal_eq_none_iff.mp hrefusal
            rw [hdata] at hfits
            cases hstored : medals.stored with
            | none => exact absurd (congrArg Option.isNone hstored) hfits
            | some row =>
                have hrow : ((some (some medals)).map fun medals ↦
                    (medals.bind (·.stored)).map (·.row m.id)).getD (t.base.db.medals.get? m.id) =
                      some (row.row m.id) := by
                  rw [Option.map_some, Option.getD_some, Option.bind_some, hstored, Option.map_some]
                simp only [hrow, Option.some.injEq, forall_eq', convertMedals_isSome_iff,
                  ordered_stored_iff hstored]
  exact ⟨fun ⟨hfails, hsome⟩ ↦ ⟨hfails, hread.mp hsome⟩, fun h ↦ ⟨h.reread, hread.mpr h.medals⟩⟩

end Patch

/-! ## The programs -/

section Programs

variable {textLe : String → String → Bool} {faults : EditFaults} {code : String} {m : CoreMap}
  {r : MapResponse} {data : MapsService.MapPatchRequest} {s s' : EditState}

theorem patchMap_apply (textLe : String → String → Bool) (faults : PatchFaults) (code : String)
    (data : MapsService.MapPatchRequest) (s : EditState) :
    patchMap textLe faults code data s =
      match MapsService.updateMap textLe faults code data s.tables with
      | (tables, .ok _) => .ok () { s with tables }
      | (tables, .error e) => .error (.patch e) { s with tables } := by
  rw [patchMap, bind_of_ok (get_apply s)]
  cases MapsService.updateMap textLe faults code data s.tables with
  | mk tables result => cases result <;> rfl

theorem final_patchMap (textLe : String → String → Bool) (faults : PatchFaults) (code : String)
    (data : MapsService.MapPatchRequest) (s : EditState) :
    final (patchMap textLe faults code data s) =
      { s with tables := (MapsService.updateMap textLe faults code data s.tables).1 } := by
  rw [patchMap_apply]
  cases MapsService.updateMap textLe faults code data s.tables with
  | mk tables result => cases result <;> rfl

theorem patchMap_grown (mapId : Nat) (faults : PatchFaults) (s : EditState) :
    Grown mapId s (final (patchMap textLe faults code data s)) := by
  rw [final_patchMap]
  refine ⟨rfl, rfl, ?_⟩
  rcases updateMap_tables textLe faults code data s.tables with h | ⟨m, -, -, h⟩
  · rw [h]
  · rw [h]
    exact writes_le_patched code m data s.tables mapId

theorem patchMap_ok_iff (faults : PatchFaults) (data : MapsService.MapPatchRequest) (hinv : MapsInv s.tables.base)
    (hm : s.tables.base.mapOfCode (some code) = some m)
    (hr : convertMap textLe s.tables m = some r) :
    (∃ s', patchMap textLe faults code data s = .ok () s') ↔
      PatchCommits faults code data s.tables ∧ PatchReads faults data := by
  rw [patchMap_apply]
  by_cases hcommits : PatchCommits faults code data s.tables
  · rw [updateMap_of_commits hm hr hcommits, and_iff_right hcommits,
      ← reread_isOk_iff hinv hm hr hcommits.refusal]
    cases readMap textLe faults.reread (data.code.getD code) (patched code m data s.tables) with
    | ok after => exact ⟨fun _ ↦ ⟨after, rfl⟩, fun _ ↦ ⟨_, rfl⟩⟩
    | error e => exact iff_of_false not_returned except_error_not_ok
  · obtain ⟨e, he⟩ := updateMap_of_not_commits textLe hm hcommits
    rw [he]
    exact iff_of_false not_returned fun h ↦ hcommits h.1

theorem applyRemaining_grown (mapId : Nat) (remaining : MapsService.MapPatchRequest)
    (reason : String) (s : EditState) :
    Grown mapId s (final (applyRemaining textLe faults code r remaining reason s)) := by
  refine final_bind (fun _ _ _ ↦ .trans) (patchMap_grown mapId faults.patch s) fun _ s₁ _ ↦ ?_
  split
  · exact (generateMapEditNewsfeed_news r remaining reason s₁).grown
  · exact (OnlyNews.refl s₁).grown

/-- A patch that sets a field writes the map. -/
theorem coreEmpty_or_medals (h : data ≠ {}) :
    data.core.coreEmpty = false ∨ data.medals ≠ none := by
  by_contra hnot
  rw [not_or, Bool.not_eq_false, not_not] at hnot
  obtain ⟨hempty, hmedals⟩ := hnot
  apply h
  simp only [MapPatchRequest.coreEmpty, MapsService.MapPatchRequest.core, Bool.and_eq_true,
    Bool.not_eq_true', Bool.or_eq_false_iff, Option.isNone_iff_eq_none, Option.isSome_eq_false_iff]
    at hempty
  cases data
  simp_all

theorem writes_lt_patched (hinv : MapsInv s.tables.base)
    (hm : s.tables.base.mapOfCode (some code) = some m)
    (hrefusal : patchRefusal code data s.tables = none) (h : data ≠ {}) :
    s.tables.base.writes m.id < (patched code m data s.tables).base.writes m.id :=
  ((patched_change hinv hm hrefusal).writes.iff m.id).mpr (.inl ⟨coreEmpty_or_medals h, rfl⟩)

theorem mapEditChanges_empty (code : Option String) (r : MapResponse) :
    mapEditChanges code r {} = [] := by
  refine List.filter_eq_nil_iff.mpr fun field _ ↦ ?_
  cases field with
  | labels kind => cases kind <;> exact Bool.false_ne_true
  | _ => exact Bool.false_ne_true

theorem applyRemaining_ok_iff (hinv : MapsInv s.tables.base)
    (hm : s.tables.base.mapOfCode (some code) = some m)
    (hr : convertMap textLe s.tables m = some r) (old : MapResponse)
    (remaining : MapsService.MapPatchRequest) (reason : String) :
    (∃ s', applyRemaining textLe faults code old remaining reason s = .ok () s') ↔
      RemainingApplied faults code old remaining s.tables := by
  have hpatch := patchMap_ok_iff faults.patch remaining hinv hm hr
  have htold : ∀ s₁, (∃ s', (if remaining ≠ {} then
      generateMapEditNewsfeed faults code old remaining reason else pure () : Edit Unit) s₁ =
        .ok () s') ↔ (mapEditChanges (some code) old remaining ≠ [] →
          faults.editInsert = false ∧ faults.editPublish = false) := by
    intro s₁
    split
    · exact generateMapEditNewsfeed_ok_iff old remaining reason s₁
    · rename_i hempty
      rw [not_not.mp hempty, mapEditChanges_empty]
      exact iff_of_true ⟨s₁, rfl⟩ fun h ↦ absurd rfl h
  constructor
  · rintro ⟨s', h⟩
    obtain ⟨_, s₁, hrun, hrest⟩ := exists_of_bind_ok h
    obtain ⟨hcommits, hreads⟩ := hpatch.mp ⟨s₁, hrun⟩
    exact ⟨hcommits, hreads, (htold s₁).mp ⟨s', hrest⟩⟩
  · rintro ⟨hcommits, hreads, hnews⟩
    obtain ⟨s₁, hrun⟩ := hpatch.mpr ⟨hcommits, hreads⟩
    obtain ⟨s', hrest⟩ := (htold s₁).mpr hnews
    exact ⟨s', (bind_of_ok hrun).trans hrest⟩

/-- A patch that is refused leaves nothing, and one that commits leaves what it writes. -/
theorem applyRemaining_of_not_commits (hm : s.tables.base.mapOfCode (some code) = some m)
    (old : MapResponse) (reason : String) (h : ¬PatchCommits faults.patch code data s.tables) :
    ∃ e, applyRemaining textLe faults code old data reason s = .error e s := by
  obtain ⟨e, he⟩ := updateMap_of_not_commits textLe hm h
  refine ⟨.patch e, bind_of_error ?_⟩
  rw [patchMap_apply, he]

theorem writes_lt_applyRemaining (hinv : MapsInv s.tables.base)
    (hm : s.tables.base.mapOfCode (some code) = some m)
    (hr : convertMap textLe s.tables m = some r) (old : MapResponse) (reason : String)
    (hcommits : PatchCommits faults.patch code data s.tables) (h : data ≠ {}) :
    s.tables.base.writes m.id <
      (final (applyRemaining textLe faults code old data reason s)).tables.base.writes m.id := by
  have hpatched := writes_lt_patched hinv hm hcommits.refusal h
  have hfinal : (final (patchMap textLe faults.patch code data s)).tables =
      patched code m data s.tables := by
    rw [final_patchMap, updateMap_of_commits hm hr hcommits]
  rw [← hfinal] at hpatched
  rw [MapsService.applyRemaining, bind_apply]
  cases hrun : patchMap textLe faults.patch code data s with
  | error e s₁ =>
      rw [hrun] at hpatched
      exact hpatched
  | ok _ s₁ =>
      rw [hrun] at hpatched
      refine hpatched.trans_le ?_
      rw [if_pos h]
      exact (generateMapEditNewsfeed_news old data reason s₁).grown.writes

/-- What is committed once the archive status is. -/
def withArchived (code : String) (archived : Bool) (s : EditState) : EditState :=
  { s with tables := { s.tables with base := s.tables.base.setArchiveStatus [code] archived } }

theorem writeArchiveStatus_apply (hm : s.tables.base.mapOfCode (some code) = some m) (fails archived : Bool) :
    writeArchiveStatus fails code archived s =
      if fails then .error .archiveFailed s
      else .ok (cancels s.tables code archived) (withArchived code archived s) := by
  rw [writeArchiveStatus, bind_of_ok (get_apply s)]
  simp only [setArchiveStatus_of_mapOfCode hm]
  cases fails <;> rfl

/-- The map that has been archived can be read as before. -/
theorem withArchived_original (hinv : MapsInv s.tables.base)
    (hm : s.tables.base.mapOfCode (some code) = some m)
    (hr : convertMap textLe s.tables m = some r) (archived : Bool) :
    MapsInv (withArchived code archived s).tables.base ∧
      (withArchived code archived s).tables.base.mapOfCode (some code) =
        some (archivedRow archived m) ∧
      (∃ r', convertMap textLe (withArchived code archived s).tables (archivedRow archived m) =
        some r') ∧
      s.tables.base.writes m.id < (withArchived code archived s).tables.base.writes m.id := by
  have hchange := setArchiveStatus_change hinv hm archived
  have hcode : (archivedRow archived m).code = some code := by
    rw [← (mem_of_mapOfCode hm).2.1]
    cases archived <;> rfl
  refine ⟨hchange.inv, hchange.mapOfCode hcode, ?_, (hchange.writes.iff m.id).mpr rfl⟩
  have hmedals : (withArchived code archived s).tables.base.db.medals = s.tables.base.db.medals := by
    cases archived <;> rfl
  rw [← Option.isSome_iff_exists, convertMap_isSome_iff_medals, hmedals, hchange.id_eq,
    ← convertMap_isSome_iff_medals textLe, hr]
  rfl

/-- Archiving takes no code and no user. -/
theorem patchRefusal_withArchived (archived : Bool) :
    patchRefusal code data (withArchived code archived s).tables = patchRefusal code data s.tables := by
  have hfree : (withArchived code archived s).tables.base.codeRefused code =
      s.tables.base.codeRefused code :=
    funext fun newCode ↦ codeRefused_setArchiveStatus s.tables.base code newCode archived
  rw [patchRefusal, hfree]
  rfl

theorem applyChanges_of_archived {archived : Bool} {edit : MapEdit}
    (ha : edit.proposedChanges.archived = some archived) (old : MapResponse) :
    MapsService.applyChanges textLe faults code old edit = (do
      setArchiveStatus textLe faults code archived
      if edit.proposedChanges.remaining ≠ {} then
        MapsService.applyRemaining textLe faults code old edit.proposedChanges.remaining edit.reason) := by
  rw [MapsService.applyChanges, ha]

theorem applyChanges_of_none {edit : MapEdit} (ha : edit.proposedChanges.archived = none)
    (old : MapResponse) :
    MapsService.applyChanges textLe faults code old edit =
      MapsService.applyRemaining textLe faults code old edit.proposedChanges edit.reason := by
  have hremaining : edit.proposedChanges.remaining = edit.proposedChanges := by
    rw [MapsService.MapPatchRequest.remaining, ← ha]
  rw [MapsService.applyChanges, ha]
  simp only [hremaining]

/-- What is done after the archive status, with the map that has been archived. -/
theorem afterArchived_grown (mapId : Nat) (archived affected : Bool) (old : MapResponse)
    (remaining : MapsService.MapPatchRequest) (reason : String) (s : EditState) :
    Grown mapId s (final ((do
      tellArchived textLe faults code archived affected
      if remaining ≠ {} then
        MapsService.applyRemaining textLe faults code old remaining reason : Edit Unit) s)) := by
  refine final_bind (fun _ _ _ ↦ .trans) (tellArchived_news textLe faults code archived affected s).grown
    fun _ s₁ _ ↦ ?_
  split
  · exact applyRemaining_grown mapId remaining reason s₁
  · exact (OnlyNews.refl s₁).grown

theorem applyChanges_archived_apply {archived : Bool} {edit : MapEdit}
    (ha : edit.proposedChanges.archived = some archived) (old : MapResponse)
    (hm : s.tables.base.mapOfCode (some code) = some m) :
    MapsService.applyChanges textLe faults code old edit s =
      if faults.archive then .error .archiveFailed s
      else (do
        tellArchived textLe faults code archived (cancels s.tables code archived)
        if edit.proposedChanges.remaining ≠ {} then
          MapsService.applyRemaining textLe faults code old edit.proposedChanges.remaining
            edit.reason : Edit Unit) (withArchived code archived s) := by
  rw [applyChanges_of_archived ha, MapsService.setArchiveStatus, bind_assoc, bind_apply,
    writeArchiveStatus_apply hm]
  cases faults.archive <;> rfl

theorem remainingApplied_withArchived {archived : Bool} {old : MapResponse} :
    RemainingApplied faults code old data (withArchived code archived s).tables ↔
      RemainingApplied faults code old data s.tables := by
  have hcommits : PatchCommits faults.patch code data (withArchived code archived s).tables ↔
      PatchCommits faults.patch code data s.tables := by
    constructor <;> rintro ⟨hread, htransaction, hrefusal⟩ <;> refine ⟨hread, htransaction, ?_⟩
    · rwa [patchRefusal_withArchived] at hrefusal
    · rwa [patchRefusal_withArchived]
  constructor <;> rintro ⟨h, hreads, htold⟩
  · exact ⟨hcommits.mp h, hreads, htold⟩
  · exact ⟨hcommits.mpr h, hreads, htold⟩

theorem applyChanges_ok_iff (faults : EditFaults) (edit : MapEdit) (hinv : MapsInv s.tables.base)
    (hm : s.tables.base.mapOfCode (some code) = some m)
    (hr : convertMap textLe s.tables m = some r) (old : MapResponse) :
    (∃ s', MapsService.applyChanges textLe faults code old edit s = .ok () s') ↔
      Applied faults edit code old s.tables := by
  cases ha : edit.proposedChanges.archived with
  | none =>
      have hremaining : edit.proposedChanges.remaining = edit.proposedChanges := by
        rw [MapsService.MapPatchRequest.remaining, ← ha]
      rw [applyChanges_of_none ha, applyRemaining_ok_iff hinv hm hr, ← hremaining]
      constructor
      · intro h
        refine ⟨fun archived harchived ↦ ?_, fun _ ↦ h⟩
        rw [ha] at harchived
        cases harchived
      · intro h
        exact h.remaining (.inl ha)
  | some archived =>
      obtain ⟨hinv', hm', ⟨r', hr'⟩, -⟩ := withArchived_original hinv hm hr archived
      have htell := tellArchived_ok_iff faults archived
        (cancels s.tables code archived) (readMap_of_convertMap hm' hr')
      have hrest : ∀ s₁, s₁.tables = (withArchived code archived s).tables →
          ((∃ s', (if edit.proposedChanges.remaining ≠ {} then
            MapsService.applyRemaining textLe faults code old edit.proposedChanges.remaining
              edit.reason else pure () : Edit Unit) s₁ = .ok () s') ↔
            (edit.proposedChanges.remaining ≠ {} →
              RemainingApplied faults code old edit.proposedChanges.remaining s.tables)) := by
        intro s₁ hs₁
        split
        · rename_i hset
          rw [← hs₁] at hinv' hm' hr'
          rw [applyRemaining_ok_iff hinv' hm' hr', hs₁, remainingApplied_withArchived]
          exact ⟨fun h _ ↦ h, fun h ↦ h hset⟩
        · rename_i hset
          exact iff_of_true ⟨s₁, rfl⟩ fun h ↦ absurd h hset
      rw [applyChanges_archived_apply ha old hm]
      cases harchive : faults.archive with
      | true =>
          refine iff_of_false not_returned fun h ↦ ?_
          rw [(h.archive archived ha).1] at harchive
          cases harchive
      | false =>
          rw [if_neg Bool.false_ne_true]
          constructor
          · rintro ⟨s', h⟩
            obtain ⟨_, s₁, hrun, hafter⟩ := exists_of_bind_ok h
            have hs₁ := tellArchived_tables hrun
            refine ⟨fun archived' ha' ↦ ?_, fun hset ↦ (hrest s₁ hs₁).mp ⟨s', hafter⟩ ?_⟩
            · rw [ha, Option.some.injEq] at ha'
              rw [← ha']
              exact ⟨harchive, htell.mp ⟨s₁, hrun⟩⟩
            · rw [ha] at hset
              exact hset.resolve_left (Option.some_ne_none archived)
          · intro h
            obtain ⟨s₁, hrun⟩ := htell.mpr (h.archive archived ha).2
            have hs₁ := tellArchived_tables hrun
            obtain ⟨s', hafter⟩ := (hrest s₁ hs₁).mpr fun hset ↦ h.remaining (.inr hset)
            exact ⟨s', (bind_of_ok hrun).trans hafter⟩

theorem applyChanges_grown (textLe : String → String → Bool) (faults : EditFaults) (edit : MapEdit) (old : MapResponse)
    (hm : s.tables.base.mapOfCode (some code) = some m) (hinv : MapsInv s.tables.base) :
    Grown m.id s (final (MapsService.applyChanges textLe faults code old edit s)) := by
  cases ha : edit.proposedChanges.archived with
  | none =>
      rw [applyChanges_of_none ha]
      exact applyRemaining_grown m.id _ _ s
  | some archived =>
      rw [applyChanges_archived_apply ha old hm]
      split
      · exact (OnlyNews.refl s).grown
      · have hwritten : Grown m.id s (withArchived code archived s) :=
          ⟨rfl, rfl, (setArchiveStatus_change hinv hm archived).writes.mono m.id⟩
        exact hwritten.trans (afterArchived_grown m.id _ _ _ _ _ _)

/-- The first step fails, and leaves nothing, or the map is written. -/
theorem applyChanges_first (faults : EditFaults) {edit : MapEdit} (hinv : MapsInv s.tables.base)
    (hm : s.tables.base.mapOfCode (some code) = some m)
    (hr : convertMap textLe s.tables m = some r) (old : MapResponse)
    (hset : edit.proposedChanges ≠ {}) :
    FirstFails faults edit code s.tables ∧
        (∃ e, MapsService.applyChanges textLe faults code old edit s = .error e s) ∨
      ¬FirstFails faults edit code s.tables ∧ s.tables.base.writes m.id <
        (final (MapsService.applyChanges textLe faults code old edit s)).tables.base.writes m.id := by
  cases ha : edit.proposedChanges.archived with
  | none =>
      have hfirst : FirstFails faults edit code s.tables ↔
          ¬PatchCommits faults.patch code edit.proposedChanges s.tables := by
        rw [FirstFails, if_neg (not_not.mpr ha), if_pos hset]
      rw [hfirst, applyChanges_of_none ha]
      by_cases hcommits : PatchCommits faults.patch code edit.proposedChanges s.tables
      · exact .inr ⟨not_not.mpr hcommits,
          writes_lt_applyRemaining hinv hm hr old edit.reason hcommits hset⟩
      · exact .inl ⟨hcommits, applyRemaining_of_not_commits hm old edit.reason hcommits⟩
  | some archived =>
      have hfirst : FirstFails faults edit code s.tables ↔ faults.archive = true := by
        rw [FirstFails, if_pos (by rw [ha]; exact Option.some_ne_none archived)]
      obtain ⟨-, -, -, hlt⟩ := withArchived_original hinv hm hr archived
      rw [hfirst, applyChanges_archived_apply ha old hm]
      cases harchive : faults.archive with
      | true => exact .inl ⟨rfl, _, rfl⟩
      | false =>
          refine .inr ⟨Bool.false_ne_true, hlt.trans_le ?_⟩
          rw [if_neg Bool.false_ne_true]
          exact (afterArchived_grown m.id _ _ _ _ _ _).writes

/-- With nothing to change, nothing is written. -/
theorem applyChanges_empty (textLe : String → String → Bool) (faults : EditFaults) (code : String)
    (s : EditState) {edit : MapEdit} (old : MapResponse)
    (hempty : edit.proposedChanges = {}) :
    final (MapsService.applyChanges textLe faults code old edit s) = s := by
  have ha : edit.proposedChanges.archived = none := by rw [hempty]
  have hpatch : final (patchMap textLe faults.patch code {} s) = s := by
    rw [final_patchMap]
    rcases updateMap_tables textLe faults.patch code {} s.tables with h | ⟨m, -, -, h⟩
    · rw [h]
    · rw [h, patched_empty]
  rw [applyChanges_of_none ha, hempty, MapsService.applyRemaining, bind_apply]
  cases hrun : patchMap textLe faults.patch code {} s with
  | error e s₁ =>
      rw [hrun] at hpatch
      exact hpatch
  | ok _ s₁ =>
      rw [hrun] at hpatch
      rw [if_neg (not_not.mpr rfl)]
      exact hpatch

/-- The tables once the archive status of a request is set. -/
def withArchiveStatus (code : String) (archived : Option Bool) (t : MapTables) : MapTables :=
  match archived with
  | none => t
  | some archived => { t with base := t.base.setArchiveStatus [code] archived }

theorem id_mapOfCode_withArchiveStatus (code : String) (archived : Option Bool) (t : MapTables) :
    ((withArchiveStatus code archived t).base.mapOfCode (some code)).map (·.id) =
      (t.base.mapOfCode (some code)).map (·.id) := by
  cases archived with
  | none => rfl
  | some archived => exact id_mapOfCode_setArchiveStatus t.base [code] code archived

/-- What is patched once the changes have been applied. -/
theorem tables_applyRemaining {old : MapResponse} {remaining : MapsService.MapPatchRequest}
    {reason : String}
    (h : MapsService.applyRemaining textLe faults code old remaining reason s = .ok () s') :
    ∃ m, s.tables.base.mapOfCode (some code) = some m ∧ patchRefusal code remaining s.tables = none ∧
      s'.tables = patched code m remaining s.tables := by
  obtain ⟨_, s₁, hpatch, hnews⟩ := exists_of_bind_ok h
  have htables : s'.tables = s₁.tables := by
    split at hnews
    · have honly : OnlyNews s₁
          (final (generateMapEditNewsfeed faults code old remaining reason s₁)) :=
        generateMapEditNewsfeed_news old remaining reason s₁
      rw [hnews] at honly
      exact honly.tables
    · cases hnews
      rfl
  rw [patchMap_apply] at hpatch
  split at hpatch
  case h_2 => cases hpatch
  case h_1 tables r' hupdate =>
    cases hpatch
    obtain ⟨m, hm, hrefusal, rfl⟩ := updateMap_eq_ok hupdate
    exact ⟨m, hm, hrefusal, htables⟩

/-- All changes together: the archive status, and the patch of the others. -/
theorem tables_applyChanges {old : MapResponse} {edit : MapEdit}
    (h : MapsService.applyChanges textLe faults code old edit s = .ok () s')
    (hm : s.tables.base.mapOfCode (some code) = some m) :
    ∃ m₁, (withArchiveStatus code edit.proposedChanges.archived s.tables).base.mapOfCode
        (some code) = some m₁ ∧
      patchRefusal code edit.proposedChanges.remaining
        (withArchiveStatus code edit.proposedChanges.archived s.tables) = none ∧
      s'.tables = patched code m₁ edit.proposedChanges.remaining
        (withArchiveStatus code edit.proposedChanges.archived s.tables) := by
  cases ha : edit.proposedChanges.archived with
  | none =>
      have hremaining : edit.proposedChanges.remaining = edit.proposedChanges := by
        rw [MapsService.MapPatchRequest.remaining, ← ha]
      rw [applyChanges_of_none ha] at h
      rw [hremaining]
      exact tables_applyRemaining h
  | some archived =>
      rw [applyChanges_archived_apply ha old hm] at h
      split at h
      · cases h
      · obtain ⟨_, s₁, htell, hrest⟩ := exists_of_bind_ok h
        have htables : s₁.tables = withArchiveStatus code (some archived) s.tables :=
          tellArchived_tables htell
        rw [← htables]
        split at hrest
        · exact tables_applyRemaining hrest
        · rename_i hempty
          cases hrest
          -- a patch that sets nothing
          rw [not_not.mp hempty]
          have hid : (s'.tables.base.mapOfCode (some code)).map (·.id) = some m.id := by
            rw [htables, id_mapOfCode_withArchiveStatus, hm]
            rfl
          obtain ⟨m₁, hm₁, -⟩ := Option.map_eq_some_iff.mp hid
          refine ⟨m₁, hm₁, ?_, (patched_empty code m₁ s'.tables).symm⟩
          exact patchRefusal_eq_none_iff.mpr
            ⟨Bool.false_ne_true, rfl, fun kind ↦ by cases kind <;> exact List.nodup_nil,
              Bool.false_ne_true⟩

end Programs

/-! ## The resolution -/

section Resolution

variable {textLe : String → String → Bool} {faults : EditFaults} {editId resolvedBy : Nat}
  {reason : Option String} {toPlaytest : Bool} {s s' : EditState} {edit : MapEdit} {code : String}
  {m : CoreMap} {r : MapResponse} {e : EditError}

/-- What an acceptance does once the changes are applied. -/
def finish (textLe : String → String → Bool) (faults : EditFaults) (editId resolvedBy : Nat)
    (reason : Option String) (toPlaytest : Bool) (edit : MapEdit) : Edit Unit := do
  markResolved faults.resolve editId true resolvedBy reason
  if true && toPlaytest then sendAfterEdit textLe faults.playtest edit
  tellResolved faults

theorem resolveEditRequest_of_some (hedit : s.requests.get? editId = some edit) :
    resolveEditRequest textLe faults editId true resolvedBy reason toPlaytest s =
      (do
        acceptChanges textLe faults edit
        finish textLe faults editId resolvedBy reason toPlaytest edit : Edit Unit) s := by
  have hget : getEditRequest editId s = .ok edit s := by
    rw [getEditRequest, bind_of_ok (get_apply s), hedit]
    rfl
  rw [MapsService.resolveEditRequest, bind_of_ok hget]
  rfl

theorem resolveEditRequest_of_none (hedit : s.requests.get? editId = none) :
    resolveEditRequest textLe faults editId true resolvedBy reason toPlaytest s =
      .error (.editRequestNotFound editId) s := by
  have hget : getEditRequest editId s = .error (.editRequestNotFound editId) s := by
    rw [getEditRequest, bind_of_ok (get_apply s), hedit]
    rfl
  exact bind_of_error hget

theorem sendAfterEdit_apply (textLe : String → String → Bool) (fails : Bool) (edit : MapEdit) (s : EditState) :
    ∃ base, MapsService.sendAfterEdit textLe fails edit s =
      .ok () { s with tables := { s.tables with base } } := by
  refine ⟨(final (MapsService.sendAfterEdit textLe fails edit s)).tables.base, ?_⟩
  simp only [MapsService.sendAfterEdit, modify_apply, final_ok]
  split
  · split <;> rfl
  · rfl

theorem tellResolved_cases (faults : EditFaults) (s : EditState) :
    final (tellResolved faults s) = s ∧
      ((∃ s', tellResolved faults s = .ok () s') ↔
        faults.notification = false ∧ faults.publish = false) := by
  unfold tellResolved
  cases faults.notification with
  | true => exact ⟨rfl, iff_of_false not_returned fun h ↦ Bool.noConfusion h.1⟩
  | false =>
      cases faults.publish with
      | true => exact ⟨rfl, iff_of_false not_returned fun h ↦ Bool.noConfusion h.2⟩
      | false => exact ⟨rfl, fun _ ↦ ⟨rfl, rfl⟩, fun _ ↦ ⟨s, rfl⟩⟩

/-- The verdict is one step, and what follows it takes nothing back. -/
theorem finish_cases (textLe : String → String → Bool) (faults : EditFaults)
    (editId resolvedBy : Nat) (reason : Option String) (toPlaytest : Bool) (edit : MapEdit)
    (s : EditState) :
    faults.resolve = true ∧
        finish textLe faults editId resolvedBy reason toPlaytest edit s = .error .resolveFailed s ∨
      faults.resolve = false ∧
        (final (finish textLe faults editId resolvedBy reason toPlaytest edit s)).resolutions editId =
          s.resolutions editId + 1 ∧
        ((∃ s', finish textLe faults editId resolvedBy reason toPlaytest edit s = .ok () s') ↔
          faults.notification = false ∧ faults.publish = false) := by
  cases hresolve : faults.resolve with
  | true =>
      refine .inl ⟨rfl, ?_⟩
      rw [finish, hresolve]
      rfl
  | false =>
      refine .inr ⟨rfl, ?_⟩
      set marked := final (markResolved false editId true resolvedBy reason s) with hmarked
      have hmark : markResolved false editId true resolvedBy reason s = .ok () marked := rfl
      have hcount : marked.resolutions editId = s.resolutions editId + 1 :=
        Function.update_self ..
      rw [finish, hresolve, bind_of_ok hmark]
      split
      · obtain ⟨base, hsent⟩ := sendAfterEdit_apply textLe faults.playtest edit marked
        rw [bind_of_ok hsent]
        obtain ⟨hfinal, hok⟩ := tellResolved_cases faults
          { marked with tables := { marked.tables with base } }
        rw [hfinal]
        exact ⟨hcount, hok⟩
      · obtain ⟨hfinal, hok⟩ := tellResolved_cases faults marked
        rw [hfinal]
        exact ⟨hcount, hok⟩

/-- Of the tables of maps, it may change those of `core.maps` and of playtests. -/
theorem finish_describe
    (h : finish textLe faults editId resolvedBy reason toPlaytest edit s = .ok () s') :
    s'.tables.describe = s.tables.describe := by
  have htold {s₁ s₂ : EditState} (h : tellResolved faults s₁ = .ok () s₂) : s₂ = s₁ := by
    have hfinal := (tellResolved_cases faults s₁).1
    rwa [h] at hfinal
  obtain ⟨_, marked, hmark, hrest⟩ := exists_of_bind_ok h
  have hmarked : marked.tables = s.tables := by
    rw [markResolved] at hmark
    split at hmark
    · cases hmark
    · cases hmark
      rfl
  split at hrest
  · obtain ⟨base, hsent⟩ := sendAfterEdit_apply textLe faults.playtest edit marked
    rw [bind_of_ok hsent] at hrest
    rw [htold hrest, hmarked]
  · rw [htold hrest, hmarked]

theorem finish_ok_iff :
    (∃ s', finish textLe faults editId resolvedBy reason toPlaytest edit s = .ok () s') ↔
      faults.resolve = false ∧ faults.notification = false ∧ faults.publish = false := by
  rcases finish_cases textLe faults editId resolvedBy reason toPlaytest edit s with
    ⟨hfails, hrun⟩ | ⟨hresolve, -, hok⟩
  · rw [hrun, hfails]
    exact iff_of_false not_returned fun h ↦ Bool.noConfusion h.1
  · rw [hok, and_iff_right hresolve]

/-- The map is read, or the acceptance ends there. -/
theorem acceptChanges_cases (textLe : String → String → Bool) (faults : EditFaults) (edit : MapEdit)
    (s : EditState) :
    (∃ code m r, Original textLe faults s.tables edit code m r ∧
        acceptChanges textLe faults edit s = MapsService.applyChanges textLe faults code r edit s) ∨
      (¬∃ code m r, Original textLe faults s.tables edit code m r) ∧
        ∃ e, acceptChanges textLe faults edit s = .error e s := by
  cases hcode : edit.code with
  | none =>
      refine .inr ⟨fun ⟨code, m, r, h⟩ ↦ ?_, .mapNotFound none, ?_⟩
      · rw [h.named] at hcode
        cases hcode
      · rw [acceptChanges, hcode]
        rfl
  | some code =>
      have haccept : acceptChanges textLe faults edit = (do
          let original ← readEdited textLe faults.read code
          MapsService.applyChanges textLe faults code original edit) := by
        rw [acceptChanges, hcode]
      rw [haccept]
      rcases readEdited_cases textLe code faults.read s with
        ⟨r, hread, hmap⟩ | ⟨hread, e, hmap⟩
      · left
        cases hm : s.tables.base.mapOfCode (some code) with
        | none =>
            rw [readMap, fetchMap, hm] at hmap
            split at hmap <;> cases hmap
        | some m =>
            obtain ⟨hfails, hsome⟩ := (readMap_isOk_iff faults.read hm).mp ⟨r, hmap⟩
            obtain ⟨r', hr'⟩ := Option.isSome_iff_exists.mp hsome
            rw [hfails, readMap_of_convertMap hm hr'] at hmap
            cases hmap
            exact ⟨code, m, r, ⟨hfails, hcode, hm, hr'⟩, bind_of_ok hread⟩
      · right
        refine ⟨fun ⟨code', m, r, h⟩ ↦ ?_, .readFailed, bind_of_error hread⟩
        have hsame := h.named
        rw [hcode, Option.some.injEq] at hsame
        rw [hsame, h.read, readMap_of_convertMap h.map h.response] at hmap
        cases hmap

/-- The map of a request is one. -/
theorem Original.code_unique {code' : String} {m' : CoreMap} {r' : MapResponse}
    (h : Original textLe faults s.tables edit code m r)
    (h' : Original textLe faults s.tables edit code' m' r') : code' = code ∧ r' = r := by
  have hcode : code' = code := Option.some.inj (h'.named.symm.trans h.named)
  subst hcode
  have hm : m' = m := Option.some.inj (h'.map.symm.trans h.map)
  subst hm
  exact ⟨rfl, Option.some.inj (h'.response.symm.trans h.response)⟩

/-- The call returns if nothing fails. -/
theorem resolveEditRequest_ok_iff (hinv : MapsInv s.tables.base) :
    (∃ s', resolveEditRequest textLe faults editId true resolvedBy reason toPlaytest s = .ok () s') ↔
      GoesThrough textLe faults editId s := by
  cases hedit : s.requests.get? editId with
  | none =>
      rw [resolveEditRequest_of_none hedit]
      refine iff_of_false not_returned ?_
      rintro ⟨_, _, _, _, h, _⟩
      rw [hedit] at h
      cases h
  | some edit =>
      rw [resolveEditRequest_of_some hedit]
      rcases acceptChanges_cases textLe faults edit s with
        ⟨code, m, r, horiginal, haccept⟩ | ⟨hnone, e, haccept⟩
      · have happlied := applyChanges_ok_iff faults edit hinv horiginal.map
          horiginal.response r
        rw [← haccept] at happlied
        constructor
        · rintro ⟨s', h⟩
          obtain ⟨_, s₁, hrun, hfinish⟩ := exists_of_bind_ok h
          exact ⟨edit, code, m, r, hedit, horiginal, happlied.mp ⟨s₁, hrun⟩,
            finish_ok_iff.mp ⟨s', hfinish⟩⟩
        · rintro ⟨edit', code', m', r', hedit', horiginal', happlied', hfinish⟩
          rw [hedit, Option.some.injEq] at hedit'
          subst hedit'
          obtain ⟨rfl, rfl⟩ := horiginal.code_unique horiginal'
          obtain ⟨s₁, hrun⟩ := happlied.mpr happlied'
          obtain ⟨s', hok⟩ := finish_ok_iff.mpr hfinish
          exact ⟨s', (bind_of_ok hrun).trans hok⟩
      · rw [bind_of_error haccept]
        refine iff_of_false not_returned ?_
        rintro ⟨edit', code, m, r, hedit', horiginal, _⟩
        rw [hedit, Option.some.injEq] at hedit'
        subst hedit'
        exact absurd ⟨code, m, r, horiginal⟩ hnone

theorem Original.refusedFirst_iff (h : Original textLe faults s.tables edit code m r)
    (hedit : s.requests.get? editId = some edit) :
    RefusedFirst textLe faults editId s ↔ FirstFails faults edit code s.tables := by
  constructor
  · intro hrefused
    exact hrefused edit hedit code m r h
  · intro hfirst edit' hedit' code' m' r' h'
    rw [hedit, Option.some.injEq] at hedit'
    subst hedit'
    obtain ⟨rfl, -⟩ := h.code_unique h'
    exact hfirst

/-- With nothing to change, the patch can only fail to be read again. -/
theorem applied_empty_iff (hempty : edit.proposedChanges = {}) {t : MapTables} :
    Applied faults edit code r t ↔
      PatchCommits faults.patch code {} t ∧ faults.patch.reread = false := by
  have ha : edit.proposedChanges.archived = none := by rw [hempty]
  have hremaining : edit.proposedChanges.remaining = {} := by rw [hempty]; rfl
  constructor
  · intro h
    have happlied := h.remaining (.inl ha)
    rw [hremaining] at happlied
    exact ⟨happlied.commits, happlied.reads.reread⟩
  · rintro ⟨hcommits, hreread⟩
    refine ⟨fun archived harchived ↦ ?_, fun _ ↦ ?_⟩
    · rw [ha] at harchived
      cases harchived
    · rw [hremaining]
      refine ⟨hcommits, ⟨hreread, nofun⟩, fun htold ↦ ?_⟩
      exact absurd (mapEditChanges_empty (some code) r) htold

/-- Once a step is committed, what follows takes nothing back. -/
theorem not_untouched_finish {s₁ : EditState}
    (hrun : finish textLe faults editId resolvedBy reason toPlaytest edit s₁ = .error e s')
    (hresolutions : s₁.resolutions = s.resolutions)
    (hs₁ : faults.resolve = true → ¬Untouched s s₁) : ¬Untouched s s' := by
  intro huntouched
  rcases finish_cases textLe faults editId resolvedBy reason toPlaytest edit s₁ with
    ⟨hfails, herror⟩ | ⟨-, hcount, -⟩
  · rw [hrun] at herror
    cases herror
    exact hs₁ hfails huntouched
  · rw [hrun, final_error, huntouched.resolutions, hresolutions] at hcount
    omega

theorem not_untouched_of_writes (h : s.tables.base.writes m.id < s'.tables.base.writes m.id) :
    ¬Untouched s s' := by
  intro huntouched
  rw [huntouched.tables] at h
  exact lt_irrefl _ h

/-- If the call raises, the first step has failed, and nothing is left, or something is. -/
theorem resolveEditRequest_error (hinv : MapsInv s.tables.base)
    (h : resolveEditRequest textLe faults editId true resolvedBy reason toPlaytest s = .error e s') :
    RefusedFirst textLe faults editId s ∧ s' = s ∨
      ¬RefusedFirst textLe faults editId s ∧ ¬Untouched s s' := by
  cases hedit : s.requests.get? editId with
  | none =>
      rw [resolveEditRequest_of_none hedit] at h
      cases h
      refine .inl ⟨fun edit hedit' ↦ ?_, rfl⟩
      rw [hedit] at hedit'
      cases hedit'
  | some edit =>
      rw [resolveEditRequest_of_some hedit] at h
      rcases acceptChanges_cases textLe faults edit s with
        ⟨code, m, r, horiginal, haccept⟩ | ⟨hnone, e', haccept⟩
      · rw [horiginal.refusedFirst_iff hedit]
        by_cases hset : edit.proposedChanges = {}
        · have hfirst : FirstFails faults edit code s.tables ↔
              ¬PatchCommits faults.patch code {} s.tables ∨ faults.patch.reread = true ∨
                faults.resolve = true := by
            rw [FirstFails, if_neg (by rw [hset]; exact not_not.mpr rfl), if_neg (not_not.mpr hset)]
          have hok := applyChanges_ok_iff faults edit hinv horiginal.map
            horiginal.response r
          have hsame := applyChanges_empty textLe faults code s r hset
          rw [← haccept] at hok hsame
          rw [applied_empty_iff hset] at hok
          cases hrun : acceptChanges textLe faults edit s with
          | error e₁ s₁ =>
              rw [hrun] at hok hsame
              rw [bind_of_error hrun] at h
              cases h
              refine .inl ⟨hfirst.mpr ?_, hsame⟩
              by_contra hnot
              rw [not_or, not_not, not_or, Bool.not_eq_true] at hnot
              obtain ⟨_, hrun'⟩ := hok.mpr ⟨hnot.1, hnot.2.1⟩
              cases hrun'
          | ok _ s₁ =>
              rw [hrun] at hok hsame
              rw [bind_of_ok hrun, show s₁ = s from hsame] at h
              obtain ⟨hcommits, hreread⟩ := hok.mp ⟨s₁, rfl⟩
              cases hresolve : faults.resolve with
              | true =>
                  rw [finish, hresolve] at h
                  cases h
                  exact .inl ⟨hfirst.mpr (.inr (.inr hresolve)), rfl⟩
              | false =>
                  refine .inr ⟨fun hnot ↦ ?_, not_untouched_finish h rfl fun hfails ↦ ?_⟩
                  · rcases hfirst.mp hnot with hnot | hnot | hnot
                    · exact hnot hcommits
                    · rw [hreread] at hnot
                      cases hnot
                    · rw [hresolve] at hnot
                      cases hnot
                  · rw [hresolve] at hfails
                    cases hfails
        · rcases applyChanges_first faults hinv horiginal.map horiginal.response r hset with
            ⟨hfirst, e₁, hrun⟩ | ⟨hfirst, hlt⟩
          · rw [bind_of_error (haccept.trans hrun)] at h
            cases h
            exact .inl ⟨hfirst, rfl⟩
          · refine .inr ⟨hfirst, ?_⟩
            have hgrown := applyChanges_grown textLe faults edit r
              horiginal.map hinv
            rw [← haccept] at hlt hgrown
            cases hrun : acceptChanges textLe faults edit s with
            | error e₁ s₁ =>
                rw [hrun] at hlt
                rw [bind_of_error hrun] at h
                cases h
                exact not_untouched_of_writes hlt
            | ok _ s₁ =>
                rw [hrun] at hlt hgrown
                rw [bind_of_ok hrun] at h
                exact not_untouched_finish h hgrown.resolutions fun _ ↦ not_untouched_of_writes hlt
      · rw [bind_of_error haccept] at h
        cases h
        refine .inl ⟨fun edit' hedit' code m r horiginal ↦ ?_, rfl⟩
        rw [hedit, Option.some.injEq] at hedit'
        subst hedit'
        exact absurd ⟨code, m, r, horiginal⟩ hnone

end Resolution

/-- An acceptance that raises leaves nothing behind exactly if it is refused before the first of its
steps is committed, or does not raise. -/
theorem acceptance_undone_iff (textLe : String → String → Bool) (faults : EditFaults)
    (editId resolvedBy : Nat) (reason : Option String) (toPlaytest : Bool) (s : EditState)
    (hinv : MapsInv s.tables.base) :
    Undone textLe faults editId resolvedBy reason toPlaytest s ↔
      RefusedFirst textLe faults editId s ∨ GoesThrough textLe faults editId s := by
  constructor
  · intro h
    cases hrun : MapsService.resolveEditRequest textLe faults editId true resolvedBy reason
        toPlaytest s with
    | ok u s' => exact .inr ((resolveEditRequest_ok_iff hinv).mp ⟨s', hrun⟩)
    | error e s' =>
        rcases resolveEditRequest_error hinv hrun with ⟨hrefused, -⟩ | ⟨-, htouched⟩
        · exact .inl hrefused
        · exact absurd (h e s' hrun) htouched
  · rintro (hrefused | hgoes) e s' hrun
    · rcases resolveEditRequest_error hinv hrun with ⟨-, rfl⟩ | ⟨hnot, -⟩
      · exact ⟨rfl, rfl, rfl, rfl⟩
      · exact absurd hrefused hnot
    · obtain ⟨s'', hok⟩ := (resolveEditRequest_ok_iff hinv).mpr hgoes
      rw [hok] at hrun
      cases hrun

/-! ### One map and one request -/

/-- A map, and a request that proposes these changes. -/
def oneRequest (changes : MapsService.MapPatchRequest) : EditState where
  tables := { base := { db := { maps := (Table.empty : Table CoreMap).insert fun id ↦
    { id, code := some "AAAAA", mapName := "Hanamura", difficulty := .easy } } } }
  requests := (Table.empty : Table MapEdit).insert fun id ↦
    { id, mapId := 1, code := some "AAAAA", proposedChanges := changes, reason := "typo"
      createdBy := 1 }

theorem oneRequest_inv (changes : MapsService.MapPatchRequest) :
    MapsInv (oneRequest changes).tables.base where
  codes m hm m' hm' _ _ := by
    have hone : (oneRequest changes).tables.base.db.maps.rows = [_] := rfl
    rw [hone, List.mem_singleton] at hm hm'
    rw [hm, hm']
  threads _ h := absurd h List.not_mem_nil
  maps _ h := absurd h List.not_mem_nil

theorem archived_undone :
    Undone (fun _ _ ↦ true) {} 1 1 none false (oneRequest { archived := some true }) := by
  refine (acceptance_undone_iff _ _ _ _ _ _ _ (oneRequest_inv _)).mpr (.inr ?_)
  refine ⟨_, "AAAAA", _, _, rfl, ⟨rfl, rfl, rfl, rfl⟩, ⟨fun _ _ ↦ ?_, fun h ↦ ?_⟩, rfl, rfl, rfl⟩
  · exact ⟨rfl, fun _ ↦ rfl, rfl, rfl, rfl⟩
  · exact absurd h (by decide)

/-- The map is archived, and announced, and then the other change is refused. -/
theorem archived_not_undone :
    ¬Undone (fun _ _ ↦ true) {} 1 1 none false
      (oneRequest { archived := some true, mechanics := some (some ["Bhop", "Bhop"]) }) := by
  intro h
  have hrun : resolveEditRequest (fun _ _ ↦ true) {} 1 true 1 none false
      (oneRequest { archived := some true, mechanics := some (some ["Bhop", "Bhop"]) }) =
        .error (.patch .duplicateMechanic) _ := rfl
  exact absurd (h _ _ hrun).newsfeed (List.cons_ne_nil _ _)

end Genjishimada.Maps
