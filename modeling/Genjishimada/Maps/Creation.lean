import Genjishimada.Maps.Rows
import Genjishimada.Services.MapCreation

/-!
# Creating a map

`create_map` checks what it is given while it inserts it.  What comes before the guide is refused
with nothing done but rows of its transaction.  The XP for the guide is granted on another
connection, and the playtest is announced before the commit: neither is taken back.
-/

namespace Genjishimada.Maps

open Library Sdk Repository Services Services.MapsService

/-! ## What is refused -/

/-- The refusals before the XP is granted. -/
def earlyRefusal (data : MapsService.MapCreateRequest) (t : MapTables) : Option CreationError :=
  if (t.base.mapOfCode (some data.code)).isSome then some (.mapCodeExists data.code)
  else
    match MapTables.creatorRefusal t.users [] data.creators with
    | some refusal => some (handleCreator refusal)
    | none =>
        if data.guide.isSome && data.primaryCreatorId.isNone then some .noPrimaryCreator else none

/-- The refusals after it. -/
def lateRefusal (data : MapsService.MapCreateRequest) : Option CreationError :=
  if ¬data.mechanics.Nodup then some .duplicateMechanic
  else if ¬data.restrictions.Nodup then some .duplicateRestriction
  else if ¬data.tags.Nodup then some .duplicateTags
  else none

/-! ## What is inserted -/

/-- The row of the map. -/
def withRow (data : MapsService.MapCreateRequest) (t : MapTables) : MapTables :=
  { t with
    base := t.base.createCoreMap data.row
    describe := Function.update t.describe t.base.db.maps.nextId data.columns }

/-- The creators. -/
def withCreators (creators : List Creator) (mapId : Nat) (t : MapTables) : MapTables :=
  t.redescribe mapId fun m ↦ { m with creators := m.creators ++ creators }

/-- The guide. -/
def withGuide (data : MapsService.MapCreateRequest) (mapId : Nat) (t : MapTables) : MapTables :=
  match data.guide, data.primaryCreatorId with
  | some url, some userId => t.insertGuide mapId url userId
  | _, _ => t

/-- The map, its creators and its guide. -/
def withGuided (data : MapsService.MapCreateRequest) (t : MapTables) : MapTables :=
  withGuide data t.base.db.maps.nextId
    (withCreators data.creators t.base.db.maps.nextId (withRow data t))

/-- The mechanics, restrictions, tags and medals. -/
def withLabels (data : MapsService.MapCreateRequest) (mapId : Nat) (t : MapTables) : MapTables :=
  let labelled :=
    ((t.insertMechanics mapId data.mechanics).insertRestrictions mapId data.restrictions).insertTags
      mapId data.tags
  { labelled with base := insertMedals mapId data.medals labelled.base }

/-- The playtest. -/
def withPlaytest (data : MapsService.MapCreateRequest) (t : MapTables) : MapTables :=
  if data.status = .inProgress then
    { t with
      base := t.base.createPlaytestMetaPartial data.code (difficultyMidpoint data.difficulty) }
  else t

/-- All rows of a map. -/
def created (data : MapsService.MapCreateRequest) (t : MapTables) : MapTables :=
  withPlaytest data (withLabels data t.base.db.maps.nextId (withGuided data t))

/-- The XP for the guide. -/
def granted (data : MapsService.MapCreateRequest) (s : CreationState) : CreationState :=
  match data.guide, data.primaryCreatorId with
  | some _, some userId =>
      { s with
        lootbox := (lootboxGrantXp userId guideXp .guide none s.lootbox).2
        handedOver := s.handedOver ++
          [⟨.xpGrant (lootboxGrantXp userId guideXp .guide none s.lootbox).1, s.committed⟩] }
  | _, _ => s

/-- The announcement of the playtest. -/
def announced (data : MapsService.MapCreateRequest) (playtestId : Nat) (s : CreationState) :
    CreationState :=
  if data.status = .inProgress then
    { s with
      handedOver := s.handedOver ++
        [⟨.playtestCreate { code := data.code, playtestId }, s.committed⟩] }
  else s

theorem earlyRefusal_eq_none_iff {data : MapsService.MapCreateRequest} {t : MapTables} :
    earlyRefusal data t = none ↔
      t.base.mapOfCode (some data.code) = none ∧
        MapTables.creatorRefusal t.users [] data.creators = none ∧
        ¬(data.guide.isSome && data.primaryCreatorId.isNone) = true := by
  unfold earlyRefusal
  cases t.base.mapOfCode (some data.code) with
  | some m => simp
  | none =>
      cases MapTables.creatorRefusal t.users [] data.creators with
      | some refusal => simp
      | none => simp

theorem lateRefusal_eq_none_iff {data : MapsService.MapCreateRequest} :
    lateRefusal data = none ↔
      data.mechanics.Nodup ∧ data.restrictions.Nodup ∧ data.tags.Nodup := by
  unfold lateRefusal
  split_ifs <;> simp_all

/-! ### What the connection sees -/

section Tables

variable (data : MapsService.MapCreateRequest) (playtestId : Nat) (s : CreationState)
  (t t' : MapTables)

@[simp] theorem committed_withTables : (s.withTables t).committed = s.committed := rfl

@[simp] theorem tables_withTables : (s.withTables t).tables = t := rfl

@[simp] theorem lootbox_withTables : (s.withTables t).lootbox = s.lootbox := rfl

@[simp] theorem handedOver_withTables : (s.withTables t).handedOver = s.handedOver := rfl

@[simp] theorem withTables_withTables : (s.withTables t).withTables t' = s.withTables t' := rfl

/-- The XP does not depend on the rows of the transaction. -/
@[simp] theorem granted_withTables :
    granted data (s.withTables t) = (granted data s).withTables t := by
  unfold granted
  split <;> rfl

/-- Nor does the announcement. -/
@[simp] theorem announced_withTables :
    announced data playtestId (s.withTables t) = (announced data playtestId s).withTables t := by
  unfold announced
  split <;> rfl

end Tables

/-! ## The transaction -/

section Transaction

variable {data : MapsService.MapCreateRequest} {faults : CreateFaults} {s : CreationState}
  {t t' : MapTables} {e : CreationError} {mapId : Nat}

theorem createCoreMap_of_taken (htaken : (s.tables.base.mapOfCode (some data.code)).isSome = true) :
    MapsService.createCoreMap data s = .error (.mapCodeExists data.code) s := by
  have hnone : s.tables.createCoreMap data.code data.row (fun _ ↦ rfl) data.columns = none :=
    if_pos htaken
  rw [MapsService.createCoreMap, bind_of_ok (get_apply s)]
  simp only [hnone]
  rfl

theorem createCoreMap_of_free (hfree : ¬(s.tables.base.mapOfCode (some data.code)).isSome = true) :
    MapsService.createCoreMap data s =
      .ok s.tables.base.db.maps.nextId (s.withTables (withRow data s.tables)) := by
  have hsome : s.tables.createCoreMap data.code data.row (fun _ ↦ rfl) data.columns =
      some (withRow data s.tables) := if_neg hfree
  rw [MapsService.createCoreMap, bind_of_ok (get_apply s)]
  simp only [hsome]
  rfl

theorem beginTransaction_apply (s : CreationState) :
    beginTransaction s = .ok () (s.withTables s.committed) := rfl

theorem execute_apply (f : MapTables → MapTables) (s : CreationState) :
    MapsService.execute f s = .ok () (s.withTables (f s.tables)) := rfl

/-- The creators of a map that has just got its row. -/
theorem insertCreators_withRow (data : MapsService.MapCreateRequest) (t : MapTables)
    (creators : List Creator) :
    (withRow data t).insertCreators t.base.db.maps.nextId creators =
      match MapTables.creatorRefusal t.users [] creators with
      | some refusal => .error refusal
      | none => .ok (withCreators creators t.base.db.maps.nextId (withRow data t)) := by
  have hnew : (withRow data t).describe t.base.db.maps.nextId = data.columns :=
    Function.update_self ..
  rw [MapTables.insertCreators, hnew]
  rfl

theorem insertCreators_of_refusal {creators : List Creator} {refusal : CreatorRefusal}
    (h : s.tables.insertCreators mapId creators = .error refusal) :
    MapsService.insertCreators mapId creators s = .error (handleCreator refusal) s := by
  rw [MapsService.insertCreators, bind_of_ok (get_apply s), h]
  rfl

theorem insertCreators_of_ok {creators : List Creator}
    (h : s.tables.insertCreators mapId creators = .ok t) :
    MapsService.insertCreators mapId creators s = .ok () (s.withTables t) := by
  rw [MapsService.insertCreators, bind_of_ok (get_apply s), h]
  rfl

theorem insertGuide_of_none (h : (data.guide.isSome && data.primaryCreatorId.isNone) = true) :
    MapsService.insertGuide data mapId s = .error .noPrimaryCreator s := by
  rw [Bool.and_eq_true, Option.isNone_iff_eq_none] at h
  obtain ⟨hguide, hprimary⟩ := h
  obtain ⟨url, hurl⟩ := Option.isSome_iff_exists.mp hguide
  simp only [MapsService.insertGuide, hurl, hprimary]
  rfl

theorem insertGuide_of_some (h : ¬(data.guide.isSome && data.primaryCreatorId.isNone) = true) :
    MapsService.insertGuide data mapId s =
      .ok () ((granted data s).withTables (withGuide data mapId s.tables)) := by
  cases hguide : data.guide with
  | none =>
      simp only [MapsService.insertGuide, granted, withGuide, hguide]
      rfl
  | some url =>
      cases hprimary : data.primaryCreatorId with
      | none => simp [hguide, hprimary] at h
      | some userId =>
          simp only [MapsService.insertGuide, granted, withGuide, hguide, hprimary]
          rfl

/-- A map that is refused before its guide leaves rows of the transaction. -/
theorem createMapTransaction_of_early (h : earlyRefusal data s.committed = some e) :
    ∃ t, createMapTransaction faults data s = .error e (s.withTables t) := by
  rw [createMapTransaction, bind_of_ok (beginTransaction_apply s)]
  rw [earlyRefusal] at h
  split at h
  · rename_i htaken
    cases h
    exact ⟨_, bind_of_error (createCoreMap_of_taken htaken)⟩
  · rename_i hfree
    rw [bind_of_ok (createCoreMap_of_free hfree)]
    have hcreators := insertCreators_withRow data s.committed data.creators
    split at h
    · rename_i refusal hrefusal
      cases h
      rw [hrefusal] at hcreators
      exact ⟨_, bind_of_error (insertCreators_of_refusal hcreators)⟩
    · rename_i haccepted
      rw [haccepted] at hcreators
      split at h
      · rename_i hguide
        cases h
        rw [bind_of_ok (insertCreators_of_ok hcreators)]
        exact ⟨_, bind_of_error (insertGuide_of_none hguide)⟩
      · cases h

/-- A map that is not refused has its row, its creators and its guide, and the XP is granted. -/
theorem createMapTransaction_of_accepted (h : earlyRefusal data s.committed = none) :
    createMapTransaction faults data s =
      insertRest faults data s.committed.base.db.maps.nextId
        ((granted data s).withTables (withGuided data s.committed)) := by
  obtain ⟨hfree, hcreators, hguide⟩ := earlyRefusal_eq_none_iff.mp h
  have hinsert := insertCreators_withRow data s.committed data.creators
  rw [hcreators] at hinsert
  rw [createMapTransaction, bind_of_ok (beginTransaction_apply s),
    bind_of_ok (createCoreMap_of_free (by rw [tables_withTables, hfree]; exact Bool.false_ne_true)),
    bind_of_ok (insertCreators_of_ok hinsert), bind_of_ok (insertGuide_of_some hguide),
    withTables_withTables, withTables_withTables, granted_withTables, withTables_withTables]
  rfl

/-! ### From the mechanics on -/

theorem insertDistinct_of_nodup {names : List String} (h : names.Nodup) (duplicate : CreationError)
    (insert : MapTables → List String → MapTables) :
    insertDistinct names duplicate insert s =
      .ok () (s.withTables (insert s.tables names)) := by
  rw [insertDistinct, if_pos h]
  rfl

theorem insertDistinct_of_not {names : List String} (h : ¬names.Nodup) (duplicate : CreationError)
    (insert : MapTables → List String → MapTables) :
    insertDistinct names duplicate insert s = .error duplicate s := by
  rw [insertDistinct, if_neg h]
  rfl

theorem startPlaytest_apply (s : CreationState) :
    startPlaytest data s =
      .ok (decide (data.status = .inProgress))
        ((announced data s.tables.base.metas.nextId s).withTables (withPlaytest data s.tables)) := by
  by_cases hstatus : data.status = .inProgress
  · rw [startPlaytest, if_pos hstatus, announced, if_pos hstatus, withPlaytest, if_pos hstatus,
      decide_eq_true hstatus]
    rfl
  · rw [startPlaytest, if_neg hstatus, announced, if_neg hstatus, withPlaytest, if_neg hstatus,
      decide_eq_false hstatus]
    rfl

/-- A list with a duplicate leaves rows of the transaction. -/
theorem insertRest_of_late (h : lateRefusal data = some e) :
    ∃ t, insertRest faults data mapId s = .error e (s.withTables t) := by
  rw [lateRefusal] at h
  rw [insertRest]
  split at h
  · rename_i hmechanics
    cases h
    exact ⟨_, bind_of_error (insertDistinct_of_not hmechanics _ _)⟩
  rename_i hmechanics
  rw [bind_of_ok (insertDistinct_of_nodup (not_not.mp hmechanics) _ _)]
  split at h
  · rename_i hrestrictions
    cases h
    exact ⟨_, bind_of_error (insertDistinct_of_not hrestrictions _ _)⟩
  rename_i hrestrictions
  rw [bind_of_ok (insertDistinct_of_nodup (not_not.mp hrestrictions) _ _)]
  split at h
  · rename_i htags
    cases h
    exact ⟨_, bind_of_error (insertDistinct_of_not htags _ _)⟩
  · cases h

/-- The playtest gets the id that is next when the call begins. -/
theorem nextId_withLabels (data : MapsService.MapCreateRequest) (mapId : Nat) (t : MapTables) :
    (withLabels data mapId t).base.metas.nextId = t.base.metas.nextId := by
  show (insertMedals mapId data.medals t.base).metas.nextId = _
  unfold insertMedals
  split <;> rfl

theorem nextId_withGuided (data : MapsService.MapCreateRequest) (t : MapTables) :
    (withGuided data t).base.metas.nextId = t.base.metas.nextId := by
  unfold withGuided withGuide
  split
  · unfold MapTables.insertGuide
    split <;> rfl
  · rfl

/-- The lists have no duplicate: all rows are in, the playtest is announced, and it is left to the
commit. -/
theorem insertRest_of_distinct (h : lateRefusal data = none) :
    insertRest faults data mapId s =
      (do commit faults.commit; return decide (data.status = .inProgress) : Creation Bool)
        ((announced data s.tables.base.metas.nextId s).withTables
          (withPlaytest data (withLabels data mapId s.tables))) := by
  obtain ⟨hmechanics, hrestrictions, htags⟩ := lateRefusal_eq_none_iff.mp h
  rw [insertRest, bind_of_ok (insertDistinct_of_nodup hmechanics _ _),
    bind_of_ok (insertDistinct_of_nodup hrestrictions _ _),
    bind_of_ok (insertDistinct_of_nodup htags _ _), bind_of_ok (execute_apply _ _),
    bind_of_ok (startPlaytest_apply _), ← nextId_withLabels data mapId s.tables]
  simp only [withTables_withTables, announced_withTables, tables_withTables]
  rfl

/-- What `create_map` has done when it comes to its commit. -/
def beforeCommit (data : MapsService.MapCreateRequest) (s : CreationState) : CreationState :=
  (announced data s.committed.base.metas.nextId (granted data s)).withTables
    (created data s.committed)

theorem createMapTransaction_of_late (hearly : earlyRefusal data s.committed = none)
    (hlate : lateRefusal data = some e) :
    ∃ t, createMapTransaction faults data s = .error e ((granted data s).withTables t) := by
  rw [createMapTransaction_of_accepted hearly]
  exact insertRest_of_late hlate

theorem createMapTransaction_of_distinct (hearly : earlyRefusal data s.committed = none)
    (hlate : lateRefusal data = none) :
    createMapTransaction faults data s =
      (do commit faults.commit; return decide (data.status = .inProgress) : Creation Bool)
        (beforeCommit data s) := by
  rw [createMapTransaction_of_accepted hearly, insertRest_of_distinct hlate, tables_withTables,
    nextId_withGuided, announced_withTables, withTables_withTables]
  rfl

end Transaction

/-! ## Once it has committed -/

section Announce

variable {data : MapsService.MapCreateRequest} {faults : CreateFaults} {s s' : CreationState}
  {e : CreationError}

/-- The exceptions that leave `create_map` before its transaction has committed. -/
def BeforeCommit : CreationError → Prop
  | .readFailed | .newsfeedFailed | .linkedMap _ | .updateFailed => False
  | _ => True

theorem fetchCoreMap_cases (fails : Bool) (code : String) (s : CreationState) :
    fetchCoreMap fails code s = .error .readFailed s ∨
      ∃ m, fails = false ∧ s.committed.base.mapOfCode (some code) = some m ∧
        fetchCoreMap fails code s = .ok m s := by
  rw [fetchCoreMap, bind_of_ok (get_apply s)]
  cases hm : s.committed.base.mapOfCode (some code) with
  | none => exact .inl rfl
  | some m =>
      cases fails with
      | true => exact .inl rfl
      | false => exact .inr ⟨m, rfl, rfl, rfl⟩

/-- It reads the map and puts it in the newsfeed, or raises. -/
theorem announceMap_cases (faults : CreateFaults) (data : MapsService.MapCreateRequest)
    (s : CreationState) :
    (∃ e, ¬BeforeCommit e ∧ announceMap faults data s = .error e s) ∨
      announceMap faults data s = .ok () s ∨
      ∃ entry, (∀ event, entry ≠ .playtestCreate event) ∧
        announceMap faults data s =
          .ok () { s with handedOver := s.handedOver ++ [⟨entry, s.committed⟩] } := by
  rw [announceMap]
  obtain hread | ⟨m, -, -, hread⟩ := fetchCoreMap_cases faults.read data.code s
  · exact .inl ⟨.readFailed, id, bind_of_error hread⟩
  · rw [bind_of_ok hread]
    by_cases hstatus : data.status = .approved
    · rw [if_pos hstatus, createAndPublish]
      cases faults.newsfeed with
      | true => exact .inl ⟨.newsfeedFailed, id, rfl⟩
      | false => exact .inr (.inr ⟨_, fun _ h ↦ MapMessage.noConfusion h, rfl⟩)
    · rw [if_neg hstatus]
      exact .inr (.inl rfl)

/-- What it raises, it raises after the commit. -/
theorem announceMap_error (h : announceMap faults data s = .error e s') : ¬BeforeCommit e := by
  obtain ⟨e', he', hrun⟩ | hrun | ⟨_, -, hrun⟩ := announceMap_cases faults data s <;>
    rw [hrun] at h <;> cases h
  exact he'

/-- Nothing more is committed, and no playtest is announced. -/
theorem announceMap_final (faults : CreateFaults) (data : MapsService.MapCreateRequest)
    (s : CreationState) :
    (final (announceMap faults data s)).committed = s.committed ∧
      ∃ news, (final (announceMap faults data s)).handedOver = s.handedOver ++ news ∧
        ∀ p ∈ news, ∀ event, p.message ≠ .playtestCreate event := by
  obtain ⟨e, -, h⟩ | h | ⟨entry, hentry, h⟩ := announceMap_cases faults data s
  · rw [h]
    exact ⟨rfl, [], (List.append_nil _).symm, by simp⟩
  · rw [h]
    exact ⟨rfl, [], (List.append_nil _).symm, by simp⟩
  · rw [h]
    exact ⟨rfl, _, rfl, by simpa using hentry⟩

/-- It returns if nothing fails. -/
theorem announceMap_ok_iff (hmap : (s.committed.base.mapOfCode (some data.code)).isSome = true) :
    (∃ s', announceMap faults data s = .ok () s') ↔
      faults.read = false ∧ (data.status = .approved → faults.newsfeed = false) := by
  rw [announceMap]
  obtain ⟨m, hm⟩ := Option.isSome_iff_exists.mp hmap
  cases hread : faults.read with
  | true =>
      have herror : fetchCoreMap true data.code s = .error .readFailed s := by
        rw [fetchCoreMap, bind_of_ok (get_apply s), hm]
        rfl
      rw [bind_of_error herror]
      simp
  | false =>
      have hok : fetchCoreMap false data.code s = .ok m s := by
        rw [fetchCoreMap, bind_of_ok (get_apply s), hm]
        rfl
      rw [bind_of_ok hok]
      by_cases hstatus : data.status = .approved
      · rw [if_pos hstatus, createAndPublish]
        cases faults.newsfeed with
        | true => simp [hstatus]
        | false => exact iff_of_true ⟨_, rfl⟩ ⟨rfl, fun _ ↦ rfl⟩
      · rw [if_neg hstatus]
        exact iff_of_true ⟨_, rfl⟩ ⟨rfl, fun h ↦ absurd h hstatus⟩

end Announce

/-! ## The call -/

section Call

variable {data : MapsService.MapCreateRequest} {faults : CreateFaults} {s s' : CreationState}
  {t : MapTables} {e : CreationError}

theorem base_withGuided (data : MapsService.MapCreateRequest) (t : MapTables) :
    (withGuided data t).base = t.base.createCoreMap data.row := by
  unfold withGuided withGuide
  split
  · unfold MapTables.insertGuide
    split <;> rfl
  · rfl

theorem base_withPlaytest (data : MapsService.MapCreateRequest) (t : MapTables) :
    (withPlaytest data t).base =
      if data.status = .inProgress then
        t.base.createPlaytestMetaPartial data.code (difficultyMidpoint data.difficulty)
      else t.base := by
  unfold withPlaytest
  split <;> rfl

theorem base_created (data : MapsService.MapCreateRequest) (t : MapTables) :
    (created data t).base =
      if data.status = .inProgress then
        (insertMedals t.base.db.maps.nextId data.medals
          (t.base.createCoreMap data.row)).createPlaytestMetaPartial data.code
            (difficultyMidpoint data.difficulty)
      else insertMedals t.base.db.maps.nextId data.medals (t.base.createCoreMap data.row) := by
  rw [created, base_withPlaytest, ← base_withGuided data t]
  rfl

/-- The maps, medals and playtests are those of the call that looks at nothing else. -/
theorem createMap_base (hfree : t.base.mapOfCode (some data.code) = none) :
    Services.createMap data.toMapCreateRequest t.base = .ok (created data t).base := by
  rw [Services.createMap, hfree, Option.isSome_none, if_neg Bool.false_ne_true, base_created]
  split <;> rfl

/-- The new map is a map. -/
theorem maps_created (data : MapsService.MapCreateRequest) (t : MapTables) :
    (created data t).base.db.maps = (t.base.createCoreMap data.row).db.maps := by
  have hmedals : (insertMedals t.base.db.maps.nextId data.medals
      (t.base.createCoreMap data.row)).db.maps = (t.base.createCoreMap data.row).db.maps := by
    unfold insertMedals
    split <;> rfl
  rw [base_created]
  split
  · unfold PlaytestDb.createPlaytestMetaPartial
    split <;> exact hmedals
  · exact hmedals

theorem mapOfCode_created_isSome (data : MapsService.MapCreateRequest) (t : MapTables) :
    ((created data t).base.mapOfCode (some data.code)).isSome = true := by
  rw [mapOfCode_isSome, maps_created]
  exact ⟨data.row t.base.db.maps.nextId, List.mem_append_right _ (List.mem_singleton_self _), rfl⟩

/-- The row of `maps.guides` of a new map. -/
def guideRows (data : MapsService.MapCreateRequest) : List (String × Nat) :=
  match data.guide, data.primaryCreatorId with
  | some url, some userId => if userId = 0 then [] else [(url, userId)]
  | _, _ => []

/-- The lists of the request. -/
def requested (data : MapsService.MapCreateRequest) : LabelKind → List String
  | .mechanics => data.mechanics
  | .restrictions => data.restrictions
  | .tags => data.tags

/-- What describes a new map. -/
def description (data : MapsService.MapCreateRequest) (names : LabelKind → List String) :
    MapDescription :=
  { data.columns with
    creators := data.creators
    guides := guideRows data
    labels := fun kind ↦ (names kind).filter fun name ↦ name ∈ requested data kind }

theorem describe_redescribe (t : MapTables) (mapId : Nat) (f : MapDescription → MapDescription) :
    (t.redescribe mapId f).describe mapId = f (t.describe mapId) :=
  Function.update_self ..

theorem describe_withGuided (data : MapsService.MapCreateRequest) (t : MapTables) :
    (withGuided data t).describe t.base.db.maps.nextId =
      { data.columns with creators := data.creators, guides := guideRows data } := by
  have hrow : (withRow data t).describe t.base.db.maps.nextId = data.columns :=
    Function.update_self ..
  have hcreators : (withCreators data.creators t.base.db.maps.nextId (withRow data t)).describe
      t.base.db.maps.nextId = { data.columns with creators := data.creators } := by
    rw [withCreators, describe_redescribe, hrow]
    rfl
  rw [withGuided, withGuide, guideRows]
  split
  · rw [MapTables.insertGuide]
    split
    · exact hcreators
    · rw [describe_redescribe, hcreators]
      rfl
  · exact hcreators

theorem names_withGuided (data : MapsService.MapCreateRequest) (t : MapTables) :
    (withGuided data t).names = t.names := by
  unfold withGuided withGuide
  split
  · unfold MapTables.insertGuide
    split <;> rfl
  · rfl

theorem describe_created (data : MapsService.MapCreateRequest) (t : MapTables) :
    (created data t).describe t.base.db.maps.nextId = description data t.names := by
  have hlabels : (withLabels data t.base.db.maps.nextId (withGuided data t)).describe
      t.base.db.maps.nextId = description data t.names := by
    show (MapTables.insertTags _ _ data.tags).describe t.base.db.maps.nextId = _
    rw [MapTables.insertTags, MapTables.insertLabels, describe_redescribe,
      MapTables.insertRestrictions, MapTables.insertLabels, describe_redescribe,
      MapTables.insertMechanics, MapTables.insertLabels, describe_redescribe,
      describe_withGuided, description, ← names_withGuided data t]
    congr 1
    funext kind
    cases kind <;> rfl
  rw [← hlabels]
  unfold created withPlaytest
  split <;> rfl

/-- The other maps are described as before. -/
theorem describe_created_of_ne (data : MapsService.MapCreateRequest) (t : MapTables) {mapId : Nat}
    (h : mapId ≠ t.base.db.maps.nextId) : (created data t).describe mapId = t.describe mapId := by
  have hother (t' : MapTables) (f : MapDescription → MapDescription) :
      (t'.redescribe t.base.db.maps.nextId f).describe mapId = t'.describe mapId :=
    Function.update_of_ne h _ _
  have hguided : (withGuided data t).describe mapId = t.describe mapId := by
    have hrow : (withCreators data.creators t.base.db.maps.nextId (withRow data t)).describe mapId =
        t.describe mapId := (hother _ _).trans (Function.update_of_ne h _ _)
    rw [withGuided, withGuide]
    split
    · rw [MapTables.insertGuide]
      split
      · exact hrow
      · exact (hother _ _).trans hrow
    · exact hrow
  have hlabels : (withLabels data t.base.db.maps.nextId (withGuided data t)).describe mapId =
      t.describe mapId := by
    show (MapTables.insertTags _ _ data.tags).describe mapId = _
    rw [MapTables.insertTags, MapTables.insertLabels, hother, MapTables.insertRestrictions,
      MapTables.insertLabels, hother, MapTables.insertMechanics, MapTables.insertLabels, hother,
      hguided]
  rw [← hlabels]
  unfold created withPlaytest
  split <;> rfl

/-- The refusals are exceptions before the commit. -/
theorem beforeCommit_of_early (h : earlyRefusal data t = some e) : BeforeCommit e := by
  rw [earlyRefusal] at h
  split at h
  · cases h
    trivial
  · split at h
    · rename_i refusal hrefusal
      cases h
      cases refusal <;> trivial
    · split at h
      · cases h
        trivial
      · cases h

theorem beforeCommit_of_late (h : lateRefusal data = some e) : BeforeCommit e := by
  unfold lateRefusal at h
  split_ifs at h <;> cases h <;> trivial

theorem committed_granted (data : MapsService.MapCreateRequest) (s : CreationState) :
    (granted data s).committed = s.committed := by
  unfold granted
  split <;> rfl

theorem committed_beforeCommit (data : MapsService.MapCreateRequest) (s : CreationState) :
    (beforeCommit data s).committed = s.committed := by
  rw [beforeCommit, committed_withTables, announced]
  split <;> exact committed_granted data s

/-- What is left once the transaction has committed. -/
def afterCommit (data : MapsService.MapCreateRequest) (s : CreationState) : CreationState :=
  { beforeCommit data s with committed := created data s.committed }

theorem createMap_of_early (h : earlyRefusal data s.committed = some e) :
    ∃ t, createMap faults data s = .error e (s.withTables t) := by
  have hrun : ∃ t, createMapTransaction faults data s = .error e (s.withTables t) :=
    createMapTransaction_of_early h
  obtain ⟨t, ht⟩ := hrun
  exact ⟨t, bind_of_error ht⟩

theorem createMap_of_late (hearly : earlyRefusal data s.committed = none)
    (hlate : lateRefusal data = some e) :
    ∃ t, createMap faults data s = .error e ((granted data s).withTables t) := by
  have hrun : ∃ t,
      createMapTransaction faults data s = .error e ((granted data s).withTables t) :=
    createMapTransaction_of_late hearly hlate
  obtain ⟨t, ht⟩ := hrun
  exact ⟨t, bind_of_error ht⟩

theorem createMap_of_commitFails (hearly : earlyRefusal data s.committed = none)
    (hlate : lateRefusal data = none) (hcommit : faults.commit = true) :
    createMap faults data s = .error .commitFailed (beforeCommit data s) := by
  apply bind_of_error
  rw [createMapTransaction_of_distinct hearly hlate, hcommit]
  rfl

theorem createMap_of_commits (hearly : earlyRefusal data s.committed = none)
    (hlate : lateRefusal data = none) (hcommit : faults.commit = false) :
    createMap faults data s =
      (do announceMap faults data; return decide (data.status = .inProgress) : Creation Bool)
        (afterCommit data s) := by
  apply bind_of_ok
  rw [createMapTransaction_of_distinct hearly hlate, hcommit]
  rfl

/-- What has been committed stays as it is. -/
theorem committed_createMap (hearly : earlyRefusal data s.committed = none)
    (hlate : lateRefusal data = none) (hcommit : faults.commit = false) :
    (final (createMap faults data s)).committed = created data s.committed := by
  obtain ⟨hcommitted, -⟩ := announceMap_final faults data (afterCommit data s)
  rw [createMap_of_commits hearly hlate hcommit, bind_apply]
  cases hrun : announceMap faults data (afterCommit data s) with
  | ok _ s' =>
      rw [hrun] at hcommitted
      exact hcommitted
  | error e s' =>
      rw [hrun] at hcommitted
      exact hcommitted

/-- Nothing is committed, or the whole map. -/
theorem committed_createMap_cases (faults : CreateFaults) (data : MapsService.MapCreateRequest)
    (s : CreationState) :
    (final (MapsService.createMap faults data s)).committed = s.committed ∨
      (final (MapsService.createMap faults data s)).committed = created data s.committed := by
  cases hearly : earlyRefusal data s.committed with
  | some e =>
      have hrun : ∃ t, MapsService.createMap faults data s = .error e (s.withTables t) :=
        createMap_of_early hearly
      obtain ⟨t, ht⟩ := hrun
      rw [ht]
      exact .inl rfl
  | none =>
      cases hlate : lateRefusal data with
      | some e =>
          have hrun : ∃ t,
              MapsService.createMap faults data s = .error e ((granted data s).withTables t) :=
            createMap_of_late hearly hlate
          obtain ⟨t, ht⟩ := hrun
          rw [ht, final_error, committed_withTables, committed_granted]
          exact .inl rfl
      | none =>
          cases hcommit : faults.commit with
          | true =>
              rw [createMap_of_commitFails hearly hlate hcommit]
              exact .inl (committed_beforeCommit data s)
          | false => exact .inr (committed_createMap hearly hlate hcommit)

/-- A call that returns has committed the whole map. -/
theorem committed_of_createMap_ok {b : Bool} (h : createMap faults data s = .ok b s') :
    s'.committed = created data s.committed := by
  cases hearly : earlyRefusal data s.committed with
  | some e =>
      have hrun : ∃ t, createMap faults data s = .error e (s.withTables t) :=
        createMap_of_early hearly
      obtain ⟨t, ht⟩ := hrun
      rw [ht] at h
      cases h
  | none =>
      cases hlate : lateRefusal data with
      | some e =>
          have hrun : ∃ t, createMap faults data s = .error e ((granted data s).withTables t) :=
            createMap_of_late hearly hlate
          obtain ⟨t, ht⟩ := hrun
          rw [ht] at h
          cases h
      | none =>
          cases hcommit : faults.commit with
          | true =>
              rw [createMap_of_commitFails hearly hlate hcommit] at h
              cases h
          | false =>
              have hcommitted : (final (createMap faults data s)).committed = created data s.committed :=
                committed_createMap hearly hlate hcommit
              rw [h] at hcommitted
              exact hcommitted

/-- The call returns if nothing fails after its commit. -/
theorem createMap_ok_iff (hearly : earlyRefusal data s.committed = none)
    (hlate : lateRefusal data = none) (hcommit : faults.commit = false) :
    (∃ b s', createMap faults data s = .ok b s') ↔
      faults.read = false ∧ (data.status = .approved → faults.newsfeed = false) := by
  rw [createMap_of_commits hearly hlate hcommit,
    ← announceMap_ok_iff (s := afterCommit data s) (mapOfCode_created_isSome data s.committed)]
  constructor
  · rintro ⟨b, s', h⟩
    obtain ⟨_, s₁, hrun, -⟩ := exists_of_bind_ok h
    exact ⟨s₁, hrun⟩
  · rintro ⟨s', hrun⟩
    exact ⟨_, s', bind_of_ok hrun⟩

/-- There is a job if there is a playtest. -/
theorem eq_of_createMap_ok {b : Bool} (hearly : earlyRefusal data s.committed = none)
    (hlate : lateRefusal data = none) (hcommit : faults.commit = false)
    (h : createMap faults data s = .ok b s') : b = decide (data.status = .inProgress) := by
  rw [createMap_of_commits hearly hlate hcommit] at h
  obtain ⟨_, s₁, -, hreturn⟩ := exists_of_bind_ok h
  cases hreturn
  rfl

end Call

/-! ## What a call leaves -/

/-- What the call has handed over. -/
def handedOverBy (faults : CreateFaults) (data : MapsService.MapCreateRequest) (s : CreationState) :
    List Handover :=
  (final (createMap faults data s)).handedOver.drop s.handedOver.length

/-- A call that raises before its commit leaves nothing, and a playtest is announced of a map that
is there in the end. -/
structure CleanCreation (faults : CreateFaults) (data : MapsService.MapCreateRequest)
    (s : CreationState) : Prop where
  nothingLeft : ∀ e s', createMap faults data s = .error e s' → BeforeCommit e →
    s'.committed = s.committed ∧ s'.lootbox = s.lootbox ∧ s'.handedOver = s.handedOver
  announced : ∀ p ∈ handedOverBy faults data s, ∀ event, p.message = .playtestCreate event →
    ((final (createMap faults data s)).committed.base.mapOfCode (some event.code)).isSome

/-- A playtest is announced of a map that is committed by then. -/
def AnnouncesCommitted (faults : CreateFaults) (data : MapsService.MapCreateRequest)
    (s : CreationState) : Prop :=
  ∀ p ∈ handedOverBy faults data s, ∀ event, p.message = .playtestCreate event →
    (p.seen.base.mapOfCode (some event.code)).isSome

section Clean

variable {data : MapsService.MapCreateRequest} {faults : CreateFaults} {s : CreationState}
  {t : MapTables} {e : CreationError}

/-- The messages for the guide. -/
theorem exists_handedOver_granted (data : MapsService.MapCreateRequest) (s : CreationState) :
    ∃ grants, (granted data s).handedOver = s.handedOver ++ grants ∧
      ∀ p ∈ grants, ∀ event, p.message ≠ .playtestCreate event := by
  unfold granted
  split
  · exact ⟨_, rfl, by simp⟩
  · exact ⟨[], (List.append_nil _).symm, by simp⟩

theorem granted_of_none (hguide : data.guide = none) : granted data s = s := by
  unfold granted
  rw [hguide]

/-- A map with a guide that is not refused has its XP granted. -/
theorem handedOver_granted_ne (hearly : earlyRefusal data t = none)
    (hguide : data.guide.isSome = true) : (granted data s).handedOver ≠ s.handedOver := by
  obtain ⟨-, -, hprimary⟩ := earlyRefusal_eq_none_iff.mp hearly
  obtain ⟨url, hurl⟩ := Option.isSome_iff_exists.mp hguide
  rw [hurl, Option.isSome_some, Bool.true_and, Option.isNone_iff_eq_none] at hprimary
  obtain ⟨userId, huser⟩ := Option.ne_none_iff_exists'.mp hprimary
  unfold granted
  simp only [hurl, huser]
  intro h
  simpa using congrArg List.length h

theorem handedOver_beforeCommit (data : MapsService.MapCreateRequest) (s : CreationState) :
    (beforeCommit data s).handedOver =
      (granted data s).handedOver ++
        if data.status = .inProgress then
          [⟨.playtestCreate { code := data.code, playtestId := s.committed.base.metas.nextId },
            s.committed⟩]
        else [] := by
  rw [beforeCommit, handedOver_withTables, announced]
  split
  · rw [committed_granted]
  · exact (List.append_nil _).symm

/-- A map that is not refused: nothing but its guide, its playtest and the newsfeed. -/
theorem exists_handedOver_createMap (hearly : earlyRefusal data s.committed = none)
    (hlate : lateRefusal data = none) :
    ∃ news, (final (createMap faults data s)).handedOver = (beforeCommit data s).handedOver ++ news ∧
      ∀ p ∈ news, ∀ event, p.message ≠ .playtestCreate event := by
  cases hcommit : faults.commit with
  | true =>
      rw [createMap_of_commitFails hearly hlate hcommit]
      exact ⟨[], (List.append_nil _).symm, by simp⟩
  | false =>
      rw [createMap_of_commits hearly hlate hcommit]
      obtain ⟨-, hnews⟩ := announceMap_final faults data (afterCommit data s)
      rw [bind_apply]
      cases hrun : announceMap faults data (afterCommit data s) with
      | ok _ s' =>
          rw [hrun] at hnews
          exact hnews
      | error e s' =>
          rw [hrun] at hnews
          exact hnews

/-- The messages of a map that is refused. -/
theorem exists_handedOver_refused (h : earlyRefusal data s.committed ≠ none ∨ lateRefusal data ≠ none) :
    ∃ grants, (final (createMap faults data s)).handedOver = s.handedOver ++ grants ∧
      ∀ p ∈ grants, ∀ event, p.message ≠ .playtestCreate event := by
  cases hearly : earlyRefusal data s.committed with
  | some e =>
      have hrun : ∃ t, createMap faults data s = .error e (s.withTables t) :=
        createMap_of_early hearly
      obtain ⟨t, ht⟩ := hrun
      rw [ht]
      exact ⟨[], (List.append_nil _).symm, by simp⟩
  | none =>
      obtain ⟨e, hlate⟩ := Option.ne_none_iff_exists'.mp (h.resolve_left (not_not.mpr hearly))
      have hrun : ∃ t, createMap faults data s = .error e ((granted data s).withTables t) :=
        createMap_of_late hearly hlate
      obtain ⟨t, ht⟩ := hrun
      rw [ht]
      exact exists_handedOver_granted data s

/-- A playtest is announced of a map that is not refused, while nothing is committed. -/
theorem forall_playtestCreate_iff {Q : Handover → PlaytestCreatedEvent → Prop} :
    (∀ p ∈ handedOverBy faults data s, ∀ event, p.message = .playtestCreate event → Q p event) ↔
      (earlyRefusal data s.committed = none → lateRefusal data = none →
        data.status = .inProgress →
        Q ⟨.playtestCreate ⟨data.code, s.committed.base.metas.nextId⟩, s.committed⟩
          ⟨data.code, s.committed.base.metas.nextId⟩) := by
  by_cases hrefused : earlyRefusal data s.committed ≠ none ∨ lateRefusal data ≠ none
  · have hgrants : ∃ grants,
        (final (createMap faults data s)).handedOver = s.handedOver ++ grants ∧
          ∀ p ∈ grants, ∀ event, p.message ≠ .playtestCreate event :=
      exists_handedOver_refused hrefused
    obtain ⟨grants, hover, hnone⟩ := hgrants
    rw [handedOverBy, hover, List.drop_left]
    constructor
    · intro _ hearly hlate
      exact absurd hrefused (by simp [hearly, hlate])
    · intro _ p hp event hevent
      exact absurd hevent (hnone p hp event)
  · rw [not_or, not_not, not_not] at hrefused
    obtain ⟨hearly, hlate⟩ := hrefused
    have hnews : ∃ news,
        (final (createMap faults data s)).handedOver = (beforeCommit data s).handedOver ++ news ∧
          ∀ p ∈ news, ∀ event, p.message ≠ .playtestCreate event :=
      exists_handedOver_createMap hearly hlate
    obtain ⟨news, hover, hnews⟩ := hnews
    obtain ⟨grants, hgranted, hgrants⟩ := exists_handedOver_granted data s
    rw [handedOverBy, hover, handedOver_beforeCommit, hgranted, List.append_assoc,
      List.append_assoc, List.drop_left]
    constructor
    · intro h _ _ hstatus
      apply h _ _ _ rfl
      rw [if_pos hstatus]
      exact List.mem_append_right _ (List.mem_append_left _ (List.mem_singleton_self _))
    · intro h p hp event hevent
      rcases List.mem_append.mp hp with hp | hp
      · exact absurd hevent (hgrants p hp event)
      rcases List.mem_append.mp hp with hp | hp
      · split at hp
        · rename_i hstatus
          rw [List.mem_singleton] at hp
          subst hp
          cases hevent
          exact h hearly hlate hstatus
        · cases hp
      · exact absurd hevent (hnews p hp event)

theorem handedOver_beforeCommit_eq_iff :
    (beforeCommit data s).handedOver = s.handedOver ↔
      (granted data s).handedOver = s.handedOver ∧ data.status ≠ .inProgress := by
  obtain ⟨grants, hgranted, -⟩ := exists_handedOver_granted data s
  rw [handedOver_beforeCommit, hgranted, List.append_assoc, List.append_right_eq_self,
    List.append_right_eq_self, List.append_eq_nil_iff]
  by_cases hstatus : data.status = .inProgress <;> simp [hstatus]

/-- The XP is left by a refusal after it or by the commit, the announcement by the commit. -/
theorem nothingLeft_iff :
    (∀ e s', createMap faults data s = .error e s' → BeforeCommit e →
      s'.committed = s.committed ∧ s'.lootbox = s.lootbox ∧ s'.handedOver = s.handedOver) ↔
      earlyRefusal data s.committed ≠ none ∨
        (data.guide.isSome = true → lateRefusal data = none ∧ faults.commit = false) ∧
          (data.status = .inProgress → lateRefusal data ≠ none ∨ faults.commit = false) := by
  cases hearly : earlyRefusal data s.committed with
  | some e =>
      have hrun : ∃ t, createMap faults data s = .error e (s.withTables t) :=
        createMap_of_early hearly
      obtain ⟨t, ht⟩ := hrun
      refine iff_of_true ?_ (.inl (Option.some_ne_none e))
      intro e' s' h _
      rw [ht] at h
      cases h
      exact ⟨rfl, rfl, rfl⟩
  | none =>
      rw [or_iff_right (not_not.mpr rfl)]
      cases hlate : lateRefusal data with
      | some e =>
          have hrun : ∃ t, createMap faults data s = .error e ((granted data s).withTables t) :=
            createMap_of_late hearly hlate
          obtain ⟨t, ht⟩ := hrun
          constructor
          · intro h
            obtain ⟨-, -, hover⟩ := h _ _ ht (beforeCommit_of_late hlate)
            exact ⟨fun hguide ↦ absurd hover (handedOver_granted_ne hearly hguide),
              fun _ ↦ .inl (Option.some_ne_none e)⟩
          · rintro ⟨hguide, -⟩ e' s' h -
            rw [ht, granted_of_none] at h
            · cases h
              exact ⟨rfl, rfl, rfl⟩
            · by_contra hne
              cases (hguide (Option.isSome_iff_ne_none.mpr hne)).1
      | none =>
          cases hcommit : faults.commit with
          | false =>
              refine iff_of_true ?_ ⟨fun _ ↦ ⟨rfl, rfl⟩, fun _ ↦ .inr rfl⟩
              intro e s' h hbefore
              rw [createMap_of_commits hearly hlate hcommit, bind_apply] at h
              cases hrun : announceMap faults data (afterCommit data s) with
              | ok _ _ =>
                  rw [hrun] at h
                  cases h
              | error e' _ =>
                  rw [hrun] at h
                  cases h
                  exact absurd hbefore (announceMap_error hrun)
          | true =>
              have hrun := createMap_of_commitFails hearly hlate hcommit
              constructor
              · intro h
                obtain ⟨-, -, hover⟩ := h _ _ hrun trivial
                obtain ⟨hgranted, hstatus⟩ := handedOver_beforeCommit_eq_iff.mp hover
                exact ⟨fun hguide ↦ absurd hgranted (handedOver_granted_ne hearly hguide),
                  fun h ↦ absurd h hstatus⟩
              · rintro ⟨hguide, hstatus⟩ e' s' h -
                have hnone : data.guide = none := by
                  by_contra hne
                  cases (hguide (Option.isSome_iff_ne_none.mpr hne)).2
                have hnot : data.status ≠ .inProgress := fun h ↦ by
                  rcases hstatus h with h | h
                  · exact h rfl
                  · cases h
                rw [hrun, beforeCommit, granted_of_none hnone, announced, if_neg hnot] at h
                cases h
                exact ⟨rfl, rfl, rfl⟩

/-- The map of an announcement is there in the end if the commit succeeds. -/
theorem announced_of_commits
    (h : earlyRefusal data s.committed = none → lateRefusal data = none →
      data.status = .inProgress → faults.commit = false) :
    ∀ p ∈ handedOverBy faults data s, ∀ event, p.message = .playtestCreate event →
      ((final (createMap faults data s)).committed.base.mapOfCode (some event.code)).isSome := by
  apply (forall_playtestCreate_iff (Q := fun _ event ↦
    ((final (createMap faults data s)).committed.base.mapOfCode (some event.code)).isSome)).mpr
  intro hearly hlate hstatus
  rw [committed_createMap hearly hlate (h hearly hlate hstatus)]
  exact mapOfCode_created_isSome data s.committed

/-- `create_map` is undone as a whole if it is refused before the guide, or has no guide or
playtest that a later refusal or the commit would have to undo.  A playtest it announces is
announced too early. -/
theorem cleanCreation_iff (faults : CreateFaults) (data : MapsService.MapCreateRequest)
    (s : CreationState) :
    (CleanCreation faults data s ↔
      earlyRefusal data s.committed ≠ none ∨
        (data.guide.isSome = true → lateRefusal data = none ∧ faults.commit = false) ∧
          (data.status = .inProgress → lateRefusal data ≠ none ∨ faults.commit = false)) ∧
      (AnnouncesCommitted faults data s ↔
        (data.status = .inProgress →
          earlyRefusal data s.committed ≠ none ∨ lateRefusal data ≠ none)) := by
  constructor
  · constructor
    · intro h
      exact nothingLeft_iff.mp h.nothingLeft
    · intro h
      refine ⟨nothingLeft_iff.mpr h, announced_of_commits ?_⟩
      intro hearly hlate hstatus
      obtain ⟨-, hcommit⟩ := h.resolve_left (not_not.mpr hearly)
      exact (hcommit hstatus).resolve_left (not_not.mpr hlate)
  · rw [AnnouncesCommitted, forall_playtestCreate_iff]
    constructor
    · intro h hstatus
      by_contra hnone
      rw [not_or, not_not, not_not] at hnone
      obtain ⟨hearly, hlate⟩ := hnone
      have hseen := h hearly hlate hstatus
      rw [(earlyRefusal_eq_none_iff.mp hearly).1] at hseen
      cases hseen
    · intro h hearly hlate hstatus
      rcases h hstatus with hne | hne
      · exact absurd hearly hne
      · exact absurd hlate hne

end Clean

/-- A map with a guide that names a mechanic twice. -/
def repeatedMechanic : MapsService.MapCreateRequest where
  code := "AAAAA"
  difficulty := .easy
  creators := [⟨1, true⟩]
  mechanics := ["Bhop", "Bhop"]
  guideUrl := some "https://youtube.com/watch?v=test"

/-- A database with one user. -/
def oneUser : CreationState where
  committed := { users := [1] }

/-- The creator keeps the XP for the guide of a map that is refused. -/
theorem repeatedMechanic_not_clean :
    ¬(CleanCreation {} repeatedMechanic oneUser ∧ AnnouncesCommitted {} repeatedMechanic oneUser) := by
  rintro ⟨h, -⟩
  have hearly : earlyRefusal repeatedMechanic oneUser.committed = none := by decide
  obtain ⟨hguide, -⟩ := (nothingLeft_iff.mp h.nothingLeft).resolve_left (not_not.mpr hearly)
  have hlate := (hguide (by decide)).1
  exact absurd (lateRefusal_eq_none_iff.mp hlate).1 (by decide)

end Genjishimada.Maps
