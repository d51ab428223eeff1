import Genjishimada.Maps.Creation
import Genjishimada.Maps.Difficulties
import Genjishimada.Maps.LinkedCodes
import Genjishimada.Services.MapLinking

/-!
# Linking codes, with a clone

`link_map_codes` creates the map that is missing and then links the two.  The clone is committed
before anything is linked, and the link before the newsfeed is written: what fails in between
stays.  The clone carries what `_create_cloned_map_data_payload` lists, which the tags are not.
-/

namespace Genjishimada.Maps

open Library Sdk Repository Services Services.MapsService

/-! ## The updates -/

section Updates

variable {faults : LinkFaults} {s : CreationState} {m m' : CoreMap} {code1 code2 : String}

theorem updateLinkedCode_of_none {fails : Bool}
    (h : fails = true ∨ s.committed.base.updateLinkedCode code1 (some code2) = none) :
    MapsService.updateLinkedCode fails code1 code2 s = .error .updateFailed s := by
  have hnone : (if fails then none else s.committed.base.updateLinkedCode code1 (some code2)) =
      none := by
    split
    · rfl
    · exact h.resolve_left ‹_›
  rw [MapsService.updateLinkedCode, bind_of_ok (get_apply s), hnone]
  rfl

theorem updateLinkedCode_of_some {d : PlaytestDb}
    (h : s.committed.base.updateLinkedCode code1 (some code2) = some d) :
    MapsService.updateLinkedCode false code1 code2 s = .ok () (withBase s d) := by
  rw [MapsService.updateLinkedCode, bind_of_ok (get_apply s), if_neg Bool.false_ne_true, h]
  rfl

/-- A code is not linked to itself. -/
theorem linkRows_of_refused (hm : s.committed.base.mapOfCode (some code1) = some m)
    (hfree : s.committed.base.linkedCode m.id = none)
    (h : code1 = code2 ∨ faults.firstUpdate = true) :
    linkRows faults code1 code2 s = .error .updateFailed s := by
  apply bind_of_error
  apply updateLinkedCode_of_none
  rcases h with rfl | h
  · refine .inr (updateLinkedCode_refused hm ?_ fun hne ↦ absurd rfl hne)
    rw [hfree]
    exact (Option.some_ne_none code1).symm
  · exact .inl h

/-- Two maps with these codes, neither of which is linked. -/
structure Unlinked (d : PlaytestDb) (m m' : CoreMap) (code1 code2 : String) : Prop where
  first : d.mapOfCode (some code1) = some m
  second : d.mapOfCode (some code2) = some m'
  ne : code1 ≠ code2
  firstFree : d.linkedCode m.id = none
  secondFree : d.linkedCode m'.id = none

/-- The two are linked to each other. -/
def LinkedTo (d : PlaytestDb) (code1 code2 : String) : Prop :=
  ∃ m m', d.mapOfCode (some code1) = some m ∧ d.mapOfCode (some code2) = some m' ∧
    d.linkedCode m.id = some code2 ∧ d.linkedCode m'.id = some code1

/-- Both links, as the trigger sets them with the first update. -/
def linkedBase (d : PlaytestDb) (m m' : CoreMap) (code1 code2 : String) : PlaytestDb :=
  (d.setLink m'.id (some code1)).setLink m.id (some code2)

namespace Unlinked

variable {d : PlaytestDb}

theorem id_ne (h : Unlinked d m m' code1 code2) : m.id ≠ m'.id := by
  intro hid
  obtain ⟨hrow, hcode⟩ := get?_of_mapOfCode h.first
  obtain ⟨hrow', hcode'⟩ := get?_of_mapOfCode h.second
  rw [hid, hrow', Option.some.injEq] at hrow
  rw [← hrow, hcode', Option.some.injEq] at hcode
  exact h.ne hcode.symm

theorem linkedCode_first (m m' : CoreMap) (d : PlaytestDb) (code1 code2 : String) :
    (linkedBase d m m' code1 code2).linkedCode m.id = some code2 :=
  Function.update_self ..

theorem linkedCode_second (h : Unlinked d m m' code1 code2) :
    (linkedBase d m m' code1 code2).linkedCode m'.id = some code1 :=
  (Function.update_of_ne h.id_ne.symm ..).trans (Function.update_self ..)

theorem firstUpdate (h : Unlinked d m m' code1 code2) :
    d.updateLinkedCode code1 (some code2) = some (linkedBase d m m' code1 code2) := by
  refine updateLinkedCode_free h.first h.second h.ne ?_ h.secondFree
  rw [h.firstFree]
  exact (Option.some_ne_none code2).symm

theorem secondUpdate (h : Unlinked d m m' code1 code2) :
    (linkedBase d m m' code1 code2).updateLinkedCode code2 (some code1) =
      some ((linkedBase d m m' code1 code2).setLink m'.id (some code1)) :=
  updateLinkedCode_self (d := linkedBase d m m' code1 code2) h.second h.linkedCode_second

theorem linkMapCodes (h : Unlinked d m m' code1 code2) :
    d.linkMapCodes code1 code2 = (linkedBase d m m' code1 code2).setLink m'.id (some code1) := by
  rw [linkMapCodes_of_some h.firstUpdate, h.secondUpdate, Option.getD_some]

theorem db_linkMapCodes (h : Unlinked d m m' code1 code2) :
    (d.linkMapCodes code1 code2).db = d.db := by
  rw [h.linkMapCodes]
  rfl

/-- `link_map_codes` links them. -/
theorem linkedTo (h : Unlinked d m m' code1 code2) :
    LinkedTo (d.linkMapCodes code1 code2) code1 code2 := by
  rw [h.linkMapCodes]
  refine ⟨m, m', h.first, h.second, ?_, Function.update_self ..⟩
  exact (Function.update_of_ne h.id_ne ..).trans (linkedCode_first m m' d code1 code2)

end Unlinked

/-- The trigger has set both links when the second update fails. -/
theorem linkRows_of_secondFails (h : Unlinked s.committed.base m m' code1 code2)
    (hfirst : faults.firstUpdate = false) (hsecond : faults.secondUpdate = true) :
    linkRows faults code1 code2 s =
      .error .updateFailed (withBase s (linkedBase s.committed.base m m' code1 code2)) := by
  rw [linkRows, hfirst, bind_of_ok (updateLinkedCode_of_some h.firstUpdate)]
  exact updateLinkedCode_of_none (.inl hsecond)

theorem linkRows_of_ok (h : Unlinked s.committed.base m m' code1 code2)
    (hfirst : faults.firstUpdate = false) (hsecond : faults.secondUpdate = false) :
    linkRows faults code1 code2 s =
      .ok () (withBase s (s.committed.base.linkMapCodes code1 code2)) := by
  rw [linkRows, hfirst, bind_of_ok (updateLinkedCode_of_some h.firstUpdate), hsecond,
    h.linkMapCodes]
  exact updateLinkedCode_of_some h.secondUpdate

end Updates

/-! ## The updates and the newsfeed entry -/

section Announce

variable {faults : LinkFaults} {data : LinkMapsCreateRequest} {s : CreationState} {m m' : CoreMap}
  {inPlaytest jobStatus : Bool}

theorem linkAndAnnounce_of_refused
    (hm : s.committed.base.mapOfCode (some data.officialCode) = some m)
    (hfree : s.committed.base.linkedCode m.id = none)
    (h : data.officialCode = data.unofficialCode ∨ faults.firstUpdate = true) :
    linkAndAnnounce faults data inPlaytest jobStatus s = .error .updateFailed s :=
  bind_of_error (linkRows_of_refused hm hfree h)

/-- Once the first update is through, the link stays. -/
theorem linkAndAnnounce_of_later
    (h : Unlinked s.committed.base m m' data.officialCode data.unofficialCode)
    (hfirst : faults.firstUpdate = false)
    (hlater : faults.secondUpdate = true ∨
      (inPlaytest && jobStatus) = false ∧ faults.newsfeed = true) :
    ∃ e s', linkAndAnnounce faults data inPlaytest jobStatus s = .error e s' ∧
      s'.committed.base.db = s.committed.base.db ∧
      s'.committed.base.linkedCode m.id = some data.unofficialCode := by
  cases hsecond : faults.secondUpdate with
  | true =>
      exact ⟨_, _, bind_of_error (linkRows_of_secondFails h hfirst hsecond), rfl,
        Unlinked.linkedCode_first m m' s.committed.base data.officialCode data.unofficialCode⟩
  | false =>
      obtain ⟨hplaytest, hnewsfeed⟩ := hlater.resolve_left (by rw [hsecond]; exact Bool.false_ne_true)
      rw [linkAndAnnounce, bind_of_ok (linkRows_of_ok h hfirst hsecond), hplaytest, hnewsfeed]
      refine ⟨_, _, rfl, h.db_linkMapCodes, ?_⟩
      show (s.committed.base.linkMapCodes data.officialCode data.unofficialCode).linkedCode m.id = _
      rw [h.linkMapCodes]
      exact (Function.update_of_ne h.id_ne ..).trans
        (Unlinked.linkedCode_first m m' s.committed.base data.officialCode data.unofficialCode)

theorem linkAndAnnounce_of_ok
    (h : Unlinked s.committed.base m m' data.officialCode data.unofficialCode)
    (hfirst : faults.firstUpdate = false) (hsecond : faults.secondUpdate = false)
    (hnewsfeed : (inPlaytest && jobStatus) = false → faults.newsfeed = false) :
    ∃ s', linkAndAnnounce faults data inPlaytest jobStatus s = .ok jobStatus s' ∧
      s'.committed = (withBase s (s.committed.base.linkMapCodes data.officialCode
        data.unofficialCode)).committed := by
  rw [linkAndAnnounce, bind_of_ok (linkRows_of_ok h hfirst hsecond)]
  cases hplaytest : (inPlaytest && jobStatus) with
  | true => exact ⟨_, rfl, rfl⟩
  | false =>
      rw [hnewsfeed hplaytest]
      exact ⟨_, rfl, rfl⟩

end Announce

/-! ## The tables -/

/-- The constraints of the schema on the rows of a map: the keys of `maps.creators`, what refers to
another row, and that no code or URL is empty. -/
structure TablesInv (t : MapTables) : Prop where
  links : ∀ id, t.base.linkedCode id ≠ some ""
  noLink : ∀ id, t.base.db.maps.get? id = none → t.base.linkedCode id = none
  noMedals : ∀ id, t.base.db.maps.get? id = none → t.base.db.medals.get? id = none
  creators : ∀ id, ((t.describe id).creators.map (·.id)).Nodup
  users : ∀ id, ∀ c ∈ (t.describe id).creators, c.id ∈ t.users
  guides : ∀ id, ∀ g ∈ (t.describe id).guides, g.1 ≠ ""
  labels : ∀ id kind, ∀ name ∈ (t.describe id).labels kind, name ∈ t.names kind

section Rows

variable {textLe : String → String → Bool} {t : MapTables} {m : CoreMap} {r : MapResponse}
  {code : String} {creators : List Creator} {users earlier : List Nat}

theorem sortCreators_perm (creators : List Creator) : (sortCreators creators).Perm creators :=
  (List.mergeSort_perm _ _).trans (List.mergeSort_perm _ _)

theorem mem_arrayAggDistinct {names : List String} {name : String} :
    name ∈ arrayAggDistinct textLe names ↔ name ∈ names := by
  rw [arrayAggDistinct, List.mem_mergeSort, List.mem_dedup]

theorem nodup_arrayAggDistinct (names : List String) : (arrayAggDistinct textLe names).Nodup :=
  (List.mergeSort_perm _ _).nodup_iff.mpr (List.nodup_dedup names)

/-- Creators are accepted who are all known, and nobody twice. -/
theorem creatorRefusal_eq_none_iff :
    MapTables.creatorRefusal users earlier creators = none ↔
      (creators.map (·.id)).Nodup ∧ ∀ c ∈ creators, c.id ∉ earlier ∧ c.id ∈ users := by
  induction creators generalizing earlier with
  | nil => simp [MapTables.creatorRefusal]
  | cons c creators ih =>
      rw [MapTables.creatorRefusal]
      by_cases hearlier : c.id ∈ earlier
      · simp [hearlier]
      by_cases husers : c.id ∈ users
      · rw [if_neg hearlier, if_neg (not_not.mpr husers), ih, List.map_cons, List.nodup_cons,
          List.forall_mem_cons]
        constructor
        · rintro ⟨hnodup, hall⟩
          refine ⟨⟨?_, hnodup⟩, ⟨hearlier, husers⟩, ?_⟩
          · intro hmem
            obtain ⟨c', hc', heq⟩ := List.mem_map.mp hmem
            exact (hall c' hc').1 (heq ▸ List.mem_cons_self)
          · exact fun c' hc' ↦ ⟨fun h ↦ (hall c' hc').1 (List.mem_cons_of_mem _ h), (hall c' hc').2⟩
        · rintro ⟨⟨hnew, hnodup⟩, -, hall⟩
          refine ⟨hnodup, fun c' hc' ↦ ⟨?_, (hall c' hc').2⟩⟩
          intro hmem
          rcases List.mem_cons.mp hmem with heq | hmem
          · exact hnew (heq ▸ List.mem_map_of_mem hc')
          · exact (hall c' hc').1 hmem
      · simp [hearlier, husers]

/-- What is fetched of a map is converted. -/
theorem convertMap_eq_some_iff :
    convertMap textLe t m = some r ↔
      ∃ medals, r = mapResponse textLe t m medals ∧
        (t.base.db.medals.get? m.id = none ∧ medals = none ∨
          ∃ row md, t.base.db.medals.get? m.id = some row ∧ convertMedals row = some md ∧
            medals = some md) := by
  unfold convertMap
  cases hmedals : t.base.db.medals.get? m.id with
  | none => simp [eq_comm]
  | some row =>
      simp only [reduceCtorEq, false_and, false_or, Option.some.injEq, Option.map_eq_some_iff]
      constructor
      · rintro ⟨md, hmd, rfl⟩
        exact ⟨_, rfl, row, md, rfl, hmd, rfl⟩
      · rintro ⟨_, rfl, _, md, rfl, hmd, rfl⟩
        exact ⟨md, hmd, rfl⟩

/-- What is fetched is what the tables hold. -/
theorem guides_ne_of_convertMap (hinv : TablesInv t) (hr : convertMap textLe t m = some r) :
    ∀ g ∈ r.guides, g ≠ "" := by
  obtain ⟨medals, rfl, -⟩ := convertMap_eq_some_iff.mp hr
  intro g hg
  obtain ⟨⟨url, userId⟩, hmem, rfl⟩ := List.mem_map.mp (mem_arrayAggDistinct.mp hg)
  exact hinv.guides m.id _ hmem

theorem creatorRefusal_of_convertMap (hinv : TablesInv t) (hr : convertMap textLe t m = some r) :
    MapTables.creatorRefusal t.users [] r.creators = none := by
  obtain ⟨medals, rfl, -⟩ := convertMap_eq_some_iff.mp hr
  have hperm := sortCreators_perm (t.describe m.id).creators
  refine creatorRefusal_eq_none_iff.mpr ⟨?_, ?_⟩
  · exact (hperm.map _).nodup_iff.mpr (hinv.creators m.id)
  · exact fun c hc ↦ ⟨List.not_mem_nil, hinv.users m.id c (hperm.mem_iff.mp hc)⟩

theorem nodup_labels_of_convertMap (hr : convertMap textLe t m = some r) (kind : LabelKind) :
    (r.labels kind).Nodup := by
  obtain ⟨medals, rfl, -⟩ := convertMap_eq_some_iff.mp hr
  exact nodup_arrayAggDistinct _

theorem labels_of_convertMap (hinv : TablesInv t) (hr : convertMap textLe t m = some r)
    (kind : LabelKind) : ∀ name ∈ r.labels kind, name ∈ t.names kind := by
  obtain ⟨medals, rfl, -⟩ := convertMap_eq_some_iff.mp hr
  exact fun name hname ↦ hinv.labels m.id kind name (mem_arrayAggDistinct.mp hname)

theorem linkedCode_of_convertMap (hr : convertMap textLe t m = some r) :
    r.linkedCode = t.base.linkedCode m.id := by
  obtain ⟨medals, rfl, -⟩ := convertMap_eq_some_iff.mp hr
  rfl

/-! ### The request -/

/-- The guide of the request is the first one. -/
theorem guide_payload (hne : ∀ g ∈ r.guides, g ≠ "") (code : String) (isOfficial : Bool) :
    (createClonedMapDataPayload r code isOfficial).guide = r.guides.head? := by
  show (some (r.guides.head?.getD "")).filter _ = _
  cases hguides : r.guides with
  | nil => rfl
  | cons g guides =>
      have hg : g ≠ "" := hne g (hguides ▸ List.mem_cons_self)
      simp [Option.filter, hg]

theorem status_payload (r : MapResponse) (code : String) (isOfficial : Bool) :
    (createClonedMapDataPayload r code isOfficial).status =
      if isOfficial then .inProgress else .approved := by
  cases isOfficial <;> rfl

theorem lateRefusal_payload (hr : convertMap textLe t m = some r) (code : String)
    (isOfficial : Bool) : lateRefusal (createClonedMapDataPayload r code isOfficial) = none :=
  lateRefusal_eq_none_iff.mpr ⟨nodup_labels_of_convertMap hr .mechanics,
    nodup_labels_of_convertMap hr .restrictions, List.nodup_nil⟩

/-- A clone is refused that has a guide but no primary creator. -/
theorem earlyRefusal_payload_iff (hinv : TablesInv t) (hr : convertMap textLe t m = some r)
    (hfree : t.base.mapOfCode (some code) = none) (isOfficial : Bool) :
    earlyRefusal (createClonedMapDataPayload r code isOfficial) t = none ↔
      (r.guides ≠ [] → r.primaryCreatorId ≠ none) := by
  have hguide := guide_payload (guides_ne_of_convertMap hinv hr) code isOfficial
  have hprimary : (createClonedMapDataPayload r code isOfficial).primaryCreatorId =
      r.primaryCreatorId := rfl
  rw [earlyRefusal_eq_none_iff, hguide, hprimary]
  constructor
  · rintro ⟨-, -, h⟩ hne hnone
    exact h (by simp [hnone, hne])
  · intro h
    refine ⟨hfree, creatorRefusal_of_convertMap hinv hr, ?_⟩
    intro hboth
    rw [Bool.and_eq_true, List.isSome_head?, Option.isNone_iff_eq_none] at hboth
    exact h (by simpa using hboth.1) hboth.2

end Rows

/-! ### The clone -/

section Created

variable {data : MapsService.MapCreateRequest} {t : MapTables} {m : CoreMap} {code : String}

/-- Nothing but the map, its medals and its playtest is new. -/
theorem base_created_cases (data : MapsService.MapCreateRequest) (t : MapTables) :
    (created data t).base.linkedCode = t.base.linkedCode ∧
      (created data t).base.db.medals =
        (insertMedals t.base.db.maps.nextId data.medals (t.base.createCoreMap data.row)).db.medals := by
  have hmedals : (insertMedals t.base.db.maps.nextId data.medals
      (t.base.createCoreMap data.row)).linkedCode = t.base.linkedCode := by
    unfold insertMedals
    split <;> rfl
  rw [base_created]
  split
  · unfold PlaytestDb.createPlaytestMetaPartial
    split <;> exact ⟨hmedals, rfl⟩
  · exact ⟨hmedals, rfl⟩

theorem mapOfCode_created (data : MapsService.MapCreateRequest) (hfree : t.base.mapOfCode (some data.code) = none) :
    (created data t).base.mapOfCode (some data.code) = some (data.row t.base.db.maps.nextId) := by
  have hnone : t.base.db.maps.rows.find? (fun m ↦ m.code = some data.code) = none := hfree
  show (created data t).base.db.maps.rows.find? (fun m ↦ m.code = some data.code) = _
  rw [maps_created]
  show (t.base.db.maps.rows ++ [data.row t.base.db.maps.nextId]).find? _ = _
  rw [List.find?_append, hnone, Option.none_or]
  exact List.find?_cons_of_pos (decide_eq_true rfl)

/-- The other maps are where they were. -/
theorem mapOfCode_created_of_some (data : MapsService.MapCreateRequest) (hm : t.base.mapOfCode (some code) = some m) :
    (created data t).base.mapOfCode (some code) = some m := by
  have hsome : t.base.db.maps.rows.find? (fun m ↦ m.code = some code) = some m := hm
  show (created data t).base.db.maps.rows.find? (fun m ↦ m.code = some code) = _
  rw [maps_created]
  show (t.base.db.maps.rows ++ [data.row t.base.db.maps.nextId]).find? _ = _
  rw [List.find?_append, hsome, Option.some_or]

theorem medals_created (hinv : TablesInv t) :
    (created data t).base.db.medals.get? t.base.db.maps.nextId =
      data.medals.map fun md ↦ md.row t.base.db.maps.nextId := by
  have hnone := hinv.noMedals t.base.db.maps.nextId Table.get?_nextId
  rw [(base_created_cases data t).2]
  cases hmedals : data.medals with
  | none => exact hnone
  | some md =>
      show ((t.base.db.medals.delete fun row ↦ row.mapId = t.base.db.maps.nextId).upsert
        (md.row t.base.db.maps.nextId) id fun _ ↦ rfl).get? t.base.db.maps.nextId = _
      have hkey : t.base.db.maps.nextId = key (md.row t.base.db.maps.nextId) := rfl
      rw [Table.get?_upsert, if_pos hkey, Table.get?_delete, hnone]
      rfl

end Created

/-- Two maps have the same in the fields a `MapCreateRequest` carries. -/
structure Agrees (a b : MapResponse) : Prop where
  mapName : a.mapName = b.mapName
  category : a.category = b.category
  creators : ∀ c, c ∈ a.creators ↔ c ∈ b.creators
  checkpoints : a.checkpoints = b.checkpoints
  difficulty : a.difficulty = b.difficulty
  guide : a.guides.head? = b.guides.head?
  labels : ∀ kind name, name ∈ a.labels kind ↔ name ∈ b.labels kind
  description : a.description = b.description
  medals : a.medals = b.medals
  title : a.title = b.title
  mapBanner : a.mapBanner = b.mapBanner

/-- The fields of the source that its clone gets wrong have nothing to lose: no tags, no banner that
counts as generated and is not the map's own, and no guide for a user whose id is no truth value. -/
structure Carried (r : MapResponse) : Prop where
  tags : r.labels .tags = []
  banner : isAssetBanner r.mapBanner = true → r.mapBanner = getMapBanner r.mapName
  guide : r.guides ≠ [] → r.primaryCreatorId ≠ some 0

section Clone

variable {textLe : String → String → Bool} {t t' : MapTables} {m : CoreMap} {r : MapResponse}
  {code : String} {isOfficial : Bool}

theorem convertMedals_row {row : MedalThresholds} {md : MedalsResponse}
    (h : convertMedals row = some md) (mapId : Nat) : convertMedals (md.row mapId) = some md := by
  unfold convertMedals at h
  split at h
  · split at h
    · rename_i hordered
      cases h
      exact if_pos hordered
    · cases h
  · cases h

/-- The clone can be fetched. -/
theorem fetchMap_clone (hinv : TablesInv t) (hr : convertMap textLe t m = some r)
    (hfree : t.base.mapOfCode (some code) = none)
    (hdb : t'.base.db = (created (createClonedMapDataPayload r code isOfficial) t).base.db) :
    fetchMap textLe t' code =
      some (some (mapResponse textLe t'
        ((createClonedMapDataPayload r code isOfficial).row t.base.db.maps.nextId) r.medals)) := by
  have hmap : t'.base.mapOfCode (some code) =
      some ((createClonedMapDataPayload r code isOfficial).row t.base.db.maps.nextId) := by
    rw [← mapOfCode_created (createClonedMapDataPayload r code isOfficial) hfree]
    show (t'.base.db.maps.rows.find? fun m ↦ m.code = some code) = _
    rw [hdb]
    rfl
  have hmedals : t'.base.db.medals.get? t.base.db.maps.nextId =
      r.medals.map fun md ↦ md.row t.base.db.maps.nextId := by
    rw [hdb, medals_created hinv]
    rfl
  rw [fetchMap, hmap]
  refine congrArg (Option.map some) (convertMap_eq_some_iff.mpr ⟨r.medals, rfl, ?_⟩)
  obtain ⟨medals, rfl, ⟨-, rfl⟩ | ⟨row, md, -, hmd, rfl⟩⟩ := convertMap_eq_some_iff.mp hr
  · exact .inl ⟨hmedals, rfl⟩
  · exact .inr ⟨_, md, hmedals, convertMedals_row hmd _, rfl⟩

/-! ### What it carries -/

theorem arrayAggDistinct_nil : arrayAggDistinct textLe [] = [] := by
  simp [arrayAggDistinct]

theorem arrayAggDistinct_singleton (name : String) : arrayAggDistinct textLe [name] = [name] := by
  simp [arrayAggDistinct]

/-- The guide is inserted again, for the primary creator. -/
theorem guide_clone_iff (hinv : TablesInv t) (hr : convertMap textLe t m = some r)
    (hguided : r.guides ≠ [] → r.primaryCreatorId ≠ none) (code : String) (isOfficial : Bool) :
    (arrayAggDistinct textLe
      ((guideRows (createClonedMapDataPayload r code isOfficial)).map Prod.fst)).head? =
        r.guides.head? ↔ (r.guides ≠ [] → r.primaryCreatorId ≠ some 0) := by
  have hguide := guide_payload (guides_ne_of_convertMap hinv hr) code isOfficial
  have hprimary : (createClonedMapDataPayload r code isOfficial).primaryCreatorId =
      r.primaryCreatorId := rfl
  rw [guideRows, hguide, hprimary]
  cases hguides : r.guides with
  | nil => simp [arrayAggDistinct_nil]
  | cons url guides =>
      obtain ⟨userId, huser⟩ := Option.ne_none_iff_exists'.mp
        (hguided (hguides ▸ List.cons_ne_nil url guides))
      rw [huser, List.head?_cons]
      by_cases hzero : userId = 0
      · simp [hzero, arrayAggDistinct_nil]
      · simp [hzero, arrayAggDistinct_singleton]

/-- A list of the request is linked as far as its names are known. -/
theorem labels_clone_iff {names known : List String} (hknown : ∀ name ∈ names, name ∈ known)
    {list : List String} :
    (∀ name, name ∈ arrayAggDistinct textLe (known.filter fun name ↦ name ∈ list) ↔
      name ∈ names) ↔ ∀ name, name ∈ known → (name ∈ list ↔ name ∈ names) := by
  apply forall_congr'
  intro name
  rw [mem_arrayAggDistinct, List.mem_filter, decide_eq_true_eq]
  constructor
  · intro h hmem
    rw [← h, and_iff_right hmem]
  · intro h
    constructor
    · exact fun hmem ↦ (h hmem.1).mp hmem.2
    · exact fun hmem ↦ ⟨hknown name hmem, (h (hknown name hmem)).mpr hmem⟩

theorem infix_toList_append (a b c d : String) : b.toList <:+: (a ++ b ++ c ++ d).toList := by
  rw [String.toList_append, String.toList_append, String.toList_append, List.append_assoc]
  exact List.infix_append _ _ _

/-- A generated banner counts as one. -/
theorem isAssetBanner_getMapBanner (mapName : String) :
    isAssetBanner (getMapBanner mapName) = true :=
  decide_eq_true (infix_toList_append ..)

theorem getMapBanner_ne (mapName : String) : getMapBanner mapName ≠ "" := by
  intro h
  have hasset := isAssetBanner_getMapBanner mapName
  rw [h] at hasset
  exact absurd hasset (by decide)

theorem mapBanner_ne_of_convertMap (hr : convertMap textLe t m = some r) : r.mapBanner ≠ "" := by
  obtain ⟨medals, rfl, -⟩ := convertMap_eq_some_iff.mp hr
  show ((t.describe m.id).customBanner.filter fun url ↦ url ≠ "").getD _ ≠ ""
  cases hbanner : (t.describe m.id).customBanner.filter fun url ↦ url ≠ "" with
  | none => exact getMapBanner_ne m.mapName
  | some url =>
      obtain ⟨-, hne⟩ := Option.filter_eq_some_iff.mp hbanner
      exact of_decide_eq_true hne

/-- A banner of the source's own is set again. -/
theorem banner_clone_iff {banner : String} (hne : banner ≠ "") (mapName : String) :
    ((normalizeCustomBanner (some banner)).filter fun url ↦ url ≠ "").getD (getMapBanner mapName) =
      banner ↔ (isAssetBanner banner = true → banner = getMapBanner mapName) := by
  by_cases hasset : isAssetBanner banner = true
  · have hnone : normalizeCustomBanner (some banner) = none := by
      simp [normalizeCustomBanner, hasset]
    rw [hnone, Option.filter_none, Option.getD_none]
    exact ⟨fun h _ ↦ h.symm, fun h ↦ (h hasset).symm⟩
  · have hsome : normalizeCustomBanner (some banner) = some banner := by
      simp [normalizeCustomBanner, hasset]
    rw [hsome, Option.filter_some, if_pos (decide_eq_true hne), Option.getD_some]
    exact iff_of_true rfl fun h ↦ absurd h hasset

/-- What is fetched of the clone, with the request in place of the tables. -/
theorem mapResponse_clone (r : MapResponse) (code : String) (isOfficial : Bool)
    (hdescribe : t'.describe t.base.db.maps.nextId =
      description (createClonedMapDataPayload r code isOfficial) t.names) :
    mapResponse textLe t'
        ((createClonedMapDataPayload r code isOfficial).row t.base.db.maps.nextId) r.medals =
      { r with
        creators := sortCreators r.creators
        guides := arrayAggDistinct textLe
          ((guideRows (createClonedMapDataPayload r code isOfficial)).map Prod.fst)
        labels := fun kind ↦ arrayAggDistinct textLe ((t.names kind).filter fun name ↦
          name ∈ requested (createClonedMapDataPayload r code isOfficial) kind)
        mapBanner :=
          ((normalizeCustomBanner (some r.mapBanner)).filter fun url ↦ url ≠ "").getD
            (getMapBanner r.mapName)
        linkedCode := t'.base.linkedCode t.base.db.maps.nextId } := by
  have hid : ((createClonedMapDataPayload r code isOfficial).row t.base.db.maps.nextId).id =
      t.base.db.maps.nextId := rfl
  have hdifficulty : ((createClonedMapDataPayload r code isOfficial).row
      t.base.db.maps.nextId).difficulty = r.difficulty := by
    show (difficultyFromRaw (numeric2 (difficultyMidpoint r.difficulty))).getD r.difficulty = _
    rw [numeric2_midpoint, difficultyFromRaw_midpoint, Option.getD_some]
  rw [mapResponse, hid, hdescribe, hdifficulty]
  rfl

/-- The clone agrees with its source in everything but what the request does not carry. -/
theorem agrees_clone_iff (hinv : TablesInv t) (hr : convertMap textLe t m = some r)
    (hguided : r.guides ≠ [] → r.primaryCreatorId ≠ none)
    (hdescribe : t'.describe t.base.db.maps.nextId =
      description (createClonedMapDataPayload r code isOfficial) t.names) :
    Agrees (mapResponse textLe t'
      ((createClonedMapDataPayload r code isOfficial).row t.base.db.maps.nextId) r.medals) r ↔
        Carried r := by
  have hguide := guide_clone_iff hinv hr hguided code isOfficial
  have hbanner := banner_clone_iff (mapBanner_ne_of_convertMap hr) r.mapName
  have hlabels := labels_of_convertMap hinv hr
  rw [mapResponse_clone r code isOfficial hdescribe]
  constructor
  · intro h
    refine ⟨List.eq_nil_iff_forall_not_mem.mpr ?_, hbanner.mp h.mapBanner, hguide.mp h.guide⟩
    intro name hname
    have hnone := (labels_clone_iff (hlabels .tags)).mp (h.labels .tags) name
      (hlabels .tags name hname)
    exact List.not_mem_nil (hnone.mpr hname)
  · intro h
    refine
      { mapName := rfl
        category := rfl
        creators := fun c ↦ (sortCreators_perm r.creators).mem_iff
        checkpoints := rfl
        difficulty := rfl
        guide := hguide.mpr h.guide
        labels := fun kind ↦ (labels_clone_iff (hlabels kind)).mpr fun name _ ↦ ?_
        description := rfl
        medals := rfl
        title := rfl
        mapBanner := hbanner.mpr h.banner }
    cases kind with
    | mechanics => exact Iff.rfl
    | restrictions => exact Iff.rfl
    | tags =>
        rw [h.tags]
        exact Iff.rfl

end Clone

/-! ## The call -/

/-- A clone is whole if it is refused before its commit, or nothing fails after it and the source has
nothing that the request does not carry. -/
def CloneWhole (faults : LinkFaults) (r : MapResponse) (isOfficial : Bool) : Prop :=
  (r.guides ≠ [] ∧ r.primaryCreatorId = none) ∨ faults.create.commit = true ∨
    (faults.create.read = false ∧
      (isOfficial = false → faults.create.newsfeed = false ∧ faults.newsfeed = false) ∧
      faults.firstUpdate = false ∧ faults.secondUpdate = false ∧ Carried r)

/-- A link is whole if the first update is refused or nothing fails. -/
def LinkWhole (faults : LinkFaults) (data : LinkMapsCreateRequest) : Prop :=
  data.officialCode = data.unofficialCode ∨ faults.firstUpdate = true ∨
    faults.secondUpdate = false ∧ faults.newsfeed = false

section Call

variable {textLe : String → String → Bool} {faults : LinkFaults} {data : LinkMapsCreateRequest}
  {s s' : CreationState} {m m₁ m₂ : CoreMap} {r : MapResponse} {code : String} {isOfficial : Bool}
  {e : CreationError}

theorem maps_created_ne (data : MapsService.MapCreateRequest) (t : MapTables) :
    (created data t).base.db.maps ≠ t.base.db.maps := by
  intro h
  rw [maps_created] at h
  have hnext : t.base.db.maps.nextId + 1 = t.base.db.maps.nextId := congrArg Table.nextId h
  omega

/-- A program that raises before anything is committed, or does all it should. -/
def Whole (textLe : String → String → Bool) (x : Creation Bool) (data : LinkMapsCreateRequest)
    (clone : Option (String × MapResponse)) (s : CreationState) : Prop :=
  (∀ e s', x s = .error e s' → s'.committed.base.db.maps = s.committed.base.db.maps ∧
    s'.committed.base.linkedCode = s.committed.base.linkedCode) ∧
  (∀ b s', x s = .ok b s' → LinkedTo s'.committed.base data.officialCode data.unofficialCode ∧
    ∀ c ∈ clone, ∃ r, fetchMap textLe s'.committed c.1 = some (some r) ∧ Agrees r c.2)

theorem Whole.of_error {x : Creation Bool} {clone : Option (String × MapResponse)}
    (hrun : x s = .error e s') (hcommitted : s'.committed = s.committed) :
    Whole textLe x data clone s := by
  constructor
  · intro e₁ s₁ h
    rw [hrun] at h
    cases h
    rw [hcommitted]
    exact ⟨rfl, rfl⟩
  · intro b s₁ h
    rw [hrun] at h
    cases h

theorem not_whole_of_error {x : Creation Bool} {clone : Option (String × MapResponse)}
    (hrun : x s = .error e s') (hmaps : s'.committed.base.db.maps ≠ s.committed.base.db.maps) :
    ¬Whole textLe x data clone s :=
  fun h ↦ hmaps (h.1 e s' hrun).1

/-- The clone has been created, and is linked now. -/
theorem whole_linked_iff {x : Creation Bool} (hinv : TablesInv s.committed)
    (hr : convertMap textLe s.committed m = some r)
    (hfree : s.committed.base.mapOfCode (some code) = none)
    (hguided : r.guides ≠ [] → r.primaryCreatorId ≠ none)
    (hcommitted : s'.committed =
      created (createClonedMapDataPayload r code isOfficial) s.committed)
    (hunlinked : Unlinked s'.committed.base m₁ m₂ data.officialCode data.unofficialCode)
    (hrun : x s = linkAndAnnounce faults data isOfficial isOfficial s') :
    Whole textLe x data (some (code, r)) s ↔
      (isOfficial = false → faults.newsfeed = false) ∧ faults.firstUpdate = false ∧
        faults.secondUpdate = false ∧ Carried r := by
  have hmaps : s'.committed.base.db.maps ≠ s.committed.base.db.maps := by
    rw [hcommitted]
    exact maps_created_ne _ s.committed
  cases hfirst : faults.firstUpdate with
  | true =>
      have herror : linkAndAnnounce faults data isOfficial isOfficial s' = .error .updateFailed s' :=
        linkAndAnnounce_of_refused hunlinked.first hunlinked.firstFree (.inr hfirst)
      exact iff_of_false (not_whole_of_error (hrun.trans herror) hmaps) (by simp)
  | false =>
      by_cases hlater : faults.secondUpdate = true ∨ isOfficial = false ∧ faults.newsfeed = true
      · have hfails : ∃ e s₁, linkAndAnnounce faults data isOfficial isOfficial s' = .error e s₁ ∧
            s₁.committed.base.db = s'.committed.base.db ∧
            s₁.committed.base.linkedCode m₁.id = some data.unofficialCode :=
          linkAndAnnounce_of_later hunlinked hfirst (by rwa [Bool.and_self])
        obtain ⟨e, s₁, herror, hdb, -⟩ := hfails
        refine iff_of_false (not_whole_of_error (hrun.trans herror) (by rwa [hdb])) ?_
        rintro ⟨hnewsfeed, -, hsecond, -⟩
        rcases hlater with h | ⟨hofficial, h⟩
        · rw [hsecond] at h
          cases h
        · rw [hnewsfeed hofficial] at h
          cases h
      · rw [not_or, Bool.not_eq_true, not_and, Bool.not_eq_true] at hlater
        obtain ⟨hsecond, hnewsfeed⟩ := hlater
        have hok : ∃ s₁, linkAndAnnounce faults data isOfficial isOfficial s' = .ok isOfficial s₁ ∧
            s₁.committed = (withBase s' (s'.committed.base.linkMapCodes data.officialCode
              data.unofficialCode)).committed :=
          linkAndAnnounce_of_ok hunlinked hfirst hsecond (by rwa [Bool.and_self])
        obtain ⟨s₁, hok, hs₁⟩ := hok
        have hdb : s₁.committed.base.db =
            (created (createClonedMapDataPayload r code isOfficial) s.committed).base.db := by
          rw [hs₁, ← hcommitted]
          exact hunlinked.db_linkMapCodes
        have hdescribe : s₁.committed.describe s.committed.base.db.maps.nextId =
            description (createClonedMapDataPayload r code isOfficial) s.committed.names := by
          rw [hs₁, ← describe_created, ← hcommitted]
          rfl
        have hfetched := fetchMap_clone hinv hr hfree hdb
        have hagrees := agrees_clone_iff hinv hr hguided hdescribe
        have hlinked : LinkedTo s₁.committed.base data.officialCode data.unofficialCode := by
          rw [hs₁]
          exact hunlinked.linkedTo
        constructor
        · rintro ⟨-, hreturned⟩
          obtain ⟨r', hr', hagree⟩ := (hreturned _ s₁ (hrun.trans hok)).2 _ rfl
          rw [hfetched] at hr'
          cases hr'
          exact ⟨hnewsfeed, rfl, hsecond, hagrees.mp hagree⟩
        · rintro ⟨-, -, -, hcarried⟩
          constructor
          · intro e s₂ h
            rw [hrun, hok] at h
            cases h
          · intro b s₂ h
            rw [hrun, hok] at h
            cases h
            refine ⟨hlinked, ?_⟩
            rintro c ⟨⟩
            exact ⟨_, hfetched, hagrees.mpr hcarried⟩

theorem whole_cloneAndLink_iff (hinv : TablesInv s.committed)
    (hr : convertMap textLe s.committed m = some r)
    (hfree : s.committed.base.mapOfCode (some code) = none)
    (hunlinked : Unlinked (created (createClonedMapDataPayload r code isOfficial) s.committed).base
      m₁ m₂ data.officialCode data.unofficialCode) :
    Whole textLe
      (cloneAndLink faults data (createClonedMapDataPayload r code isOfficial) isOfficial) data
      (some (code, r)) s ↔ CloneWhole faults r isOfficial := by
  have hlate := lateRefusal_payload hr code isOfficial
  have hearly := earlyRefusal_payload_iff hinv hr hfree isOfficial
  by_cases hrefused : r.guides ≠ [] ∧ r.primaryCreatorId = none
  · refine iff_of_true ?_ (.inl hrefused)
    obtain ⟨e, he⟩ := Option.ne_none_iff_exists'.mp fun h ↦ hearly.mp h hrefused.1 hrefused.2
    have hrun : ∃ t, createMap faults.create (createClonedMapDataPayload r code isOfficial) s =
        .error e (s.withTables t) := createMap_of_early he
    obtain ⟨t, ht⟩ := hrun
    exact .of_error (bind_of_error ht) rfl
  have hguided : r.guides ≠ [] → r.primaryCreatorId ≠ none :=
    fun hne hnone ↦ hrefused ⟨hne, hnone⟩
  replace hearly := hearly.mpr hguided
  rw [CloneWhole, or_iff_right hrefused]
  cases hcommit : faults.create.commit with
  | true =>
      refine iff_of_true ?_ (.inl rfl)
      exact .of_error (bind_of_error (createMap_of_commitFails hearly hlate hcommit))
        (committed_beforeCommit _ s)
  | false =>
      rw [or_iff_right Bool.false_ne_true]
      have hcreated : (final (createMap faults.create
          (createClonedMapDataPayload r code isOfficial) s)).committed =
            created (createClonedMapDataPayload r code isOfficial) s.committed :=
        committed_createMap hearly hlate hcommit
      have hok : (∃ b s', createMap faults.create
          (createClonedMapDataPayload r code isOfficial) s = .ok b s') ↔ _ :=
        createMap_ok_iff hearly hlate hcommit
      have happroved : (createClonedMapDataPayload r code isOfficial).status = .approved ↔
          isOfficial = false := by
        rw [status_payload]
        cases isOfficial <;> simp
      rw [happroved] at hok
      cases hrun : createMap faults.create (createClonedMapDataPayload r code isOfficial) s with
      | error e s₁ =>
          rw [hrun] at hcreated hok
          refine iff_of_false (not_whole_of_error (bind_of_error hrun) ?_) ?_
          · rw [show s₁.committed = _ from hcreated]
            exact maps_created_ne _ s.committed
          · rintro ⟨hread, hnewsfeed, -⟩
            obtain ⟨b, s₂, h⟩ := hok.mpr ⟨hread, fun h ↦ (hnewsfeed h).1⟩
            cases h
      | ok b s₁ =>
          have hb := eq_of_createMap_ok hearly hlate hcommit hrun
          have hjob : b = isOfficial := by
            rw [hb, status_payload]
            cases isOfficial <;> rfl
          rw [hrun] at hcreated hok
          obtain ⟨hread, hnewsfeed⟩ := hok.mp ⟨b, s₁, rfl⟩
          have hs₁ : s₁.committed =
              created (createClonedMapDataPayload r code isOfficial) s.committed := hcreated
          have hlinked : cloneAndLink faults data (createClonedMapDataPayload r code isOfficial)
              isOfficial s = linkAndAnnounce faults data isOfficial isOfficial s₁ := by
            rw [cloneAndLink, bind_of_ok hrun, hjob]
          rw [whole_linked_iff hinv hr hfree hguided hs₁ (hs₁ ▸ hunlinked) hlinked]
          constructor
          · rintro ⟨hlast, hrest⟩
            exact ⟨hread, fun h ↦ ⟨hnewsfeed h, hlast h⟩, hrest⟩
          · rintro ⟨-, hlast, hrest⟩
            exact ⟨fun h ↦ (hlast h).2, hrest⟩

/-- Two maps that are there are linked, and nothing is created. -/
theorem whole_link_iff (hm₁ : s.committed.base.mapOfCode (some data.officialCode) = some m₁)
    (hm₂ : s.committed.base.mapOfCode (some data.unofficialCode) = some m₂)
    (hfree₁ : s.committed.base.linkedCode m₁.id = none)
    (hfree₂ : s.committed.base.linkedCode m₂.id = none) :
    Whole textLe (linkAndAnnounce faults data false false) data none s ↔ LinkWhole faults data := by
  by_cases hrefused : data.officialCode = data.unofficialCode ∨ faults.firstUpdate = true
  · refine iff_of_true (.of_error (linkAndAnnounce_of_refused hm₁ hfree₁ hrefused) rfl) ?_
    exact hrefused.elim .inl fun h ↦ .inr (.inl h)
  · rw [not_or, Bool.not_eq_true] at hrefused
    obtain ⟨hne, hfirst⟩ := hrefused
    have hunlinked : Unlinked s.committed.base m₁ m₂ data.officialCode data.unofficialCode :=
      ⟨hm₁, hm₂, hne, hfree₁, hfree₂⟩
    rw [LinkWhole, or_iff_right hne, or_iff_right (by rw [hfirst]; exact Bool.false_ne_true)]
    by_cases hlater : faults.secondUpdate = true ∨ faults.newsfeed = true
    · have hfails : ∃ e s₁, linkAndAnnounce faults data false false s = .error e s₁ ∧
          s₁.committed.base.db = s.committed.base.db ∧
          s₁.committed.base.linkedCode m₁.id = some data.unofficialCode :=
        linkAndAnnounce_of_later hunlinked hfirst (hlater.imp_right fun h ↦ ⟨rfl, h⟩)
      obtain ⟨e, s₁, herror, -, hlink⟩ := hfails
      refine iff_of_false ?_ ?_
      · intro h
        rw [(h.1 e s₁ herror).2, hfree₁] at hlink
        cases hlink
      · rintro ⟨hsecond, hnewsfeed⟩
        rw [hsecond, hnewsfeed] at hlater
        exact hlater.elim Bool.false_ne_true Bool.false_ne_true
    · rw [not_or, Bool.not_eq_true, Bool.not_eq_true] at hlater
      refine iff_of_true ?_ hlater
      have hok : ∃ s₁, linkAndAnnounce faults data false false s = .ok false s₁ ∧
          s₁.committed = (withBase s (s.committed.base.linkMapCodes data.officialCode
            data.unofficialCode)).committed :=
        linkAndAnnounce_of_ok hunlinked hfirst hlater.1 fun _ ↦ hlater.2
      obtain ⟨s₁, hok, hs₁⟩ := hok
      constructor
      · intro e s₂ h
        rw [hok] at h
        cases h
      · intro b s₂ h
        rw [hok] at h
        cases h
        rw [hs₁]
        exact ⟨hunlinked.linkedTo, fun c hc ↦ nomatch hc⟩

end Call

/-! ## Linking two codes -/

/-- The code of a map that is there, and the other code, which is no map's. -/
def IsClone (t : MapTables) (data : LinkMapsCreateRequest) (source code : String) : Prop :=
  (source = data.officialCode ∧ code = data.unofficialCode ∨
    source = data.unofficialCode ∧ code = data.officialCode) ∧
  (t.base.mapOfCode (some source)).isSome ∧ t.base.mapOfCode (some code) = none

/-- `link_map_codes` raises and leaves the maps and their links as they are, or links the two codes,
one of them perhaps of a clone that agrees with its source. -/
structure LinksAtomically (textLe : String → String → Bool) (faults : LinkFaults)
    (data : LinkMapsCreateRequest) (s : CreationState) : Prop where
  raised : ∀ e s', linkMapCodes textLe faults data s = .error e s' →
    s'.committed.base.db.maps = s.committed.base.db.maps ∧
      s'.committed.base.linkedCode = s.committed.base.linkedCode
  linked : ∀ b s', linkMapCodes textLe faults data s = .ok b s' →
    LinkedTo s'.committed.base data.officialCode data.unofficialCode
  cloned : ∀ b s', linkMapCodes textLe faults data s = .ok b s' →
    ∀ source code, IsClone s.committed data source code →
      ∃ r r', fetchMap textLe s.committed source = some (some r) ∧
        fetchMap textLe s'.committed code = some (some r') ∧ Agrees r' r

/-- Both maps are read, one at least is there, and none is linked. -/
structure Accepted (textLe : String → String → Bool) (faults : LinkFaults)
    (data : LinkMapsCreateRequest) (t : MapTables) (officialMap unofficialMap : Option MapResponse) :
    Prop where
  read : faults.read = false
  official : fetchMap textLe t data.officialCode = some officialMap
  unofficial : fetchMap textLe t data.unofficialCode = some unofficialMap
  officialFree : ∀ r ∈ officialMap, r.linkedCode = none
  unofficialFree : ∀ r ∈ unofficialMap, r.linkedCode = none

/-- What is to be done is done as a whole. -/
def LinksWhole (faults : LinkFaults) (data : LinkMapsCreateRequest) :
    Option MapResponse → Option MapResponse → Prop
  | some r, none => CloneWhole faults r false
  | none, some r => CloneWhole faults r true
  | some _, some _ => LinkWhole faults data
  | none, none => True

section Link

variable {textLe : String → String → Bool} {faults : LinkFaults} {data : LinkMapsCreateRequest}
  {s : CreationState} {t : MapTables} {m : CoreMap} {o u : Option MapResponse} {r : MapResponse}
  {code source : String}

theorem fetchMap_eq_some_some (h : fetchMap textLe t code = some (some r)) :
    ∃ m, t.base.mapOfCode (some code) = some m ∧ convertMap textLe t m = some r := by
  rw [fetchMap] at h
  cases hm : t.base.mapOfCode (some code) with
  | none =>
      rw [hm] at h
      cases h
  | some m =>
      rw [hm] at h
      obtain ⟨r', hr', heq⟩ := Option.map_eq_some_iff.mp h
      cases heq
      exact ⟨m, rfl, hr'⟩

theorem fetchMap_eq_some_none (h : fetchMap textLe t code = some none) :
    t.base.mapOfCode (some code) = none := by
  rw [fetchMap] at h
  cases hm : t.base.mapOfCode (some code) with
  | none => rfl
  | some m =>
      rw [hm] at h
      obtain ⟨r', -, heq⟩ := Option.map_eq_some_iff.mp h
      cases heq

/-- No link is an empty string, which would count as none. -/
theorem linkedCode_ne_of_fetchMap (hinv : TablesInv t) (h : fetchMap textLe t code = some o) :
    ∀ r ∈ o, r.linkedCode ≠ some "" := by
  rintro r rfl
  obtain ⟨m, -, hr⟩ := fetchMap_eq_some_some h
  rw [linkedCode_of_convertMap hr]
  exact hinv.links m.id

theorem refuseLinked_of_free (kind code : String) (hfree : ∀ r ∈ o, r.linkedCode = none) :
    refuseLinked kind code o s = .ok () s := by
  have hnone : o.bind (·.linkedCode) = none := Option.bind_eq_none_iff.mpr hfree
  rw [refuseLinked, hnone]
  rfl

theorem refuseLinked_of_linked (kind code : String) (hne : ∀ r ∈ o, r.linkedCode ≠ some "")
    (hlinked : ¬∀ r ∈ o, r.linkedCode = none) : ∃ e, refuseLinked kind code o s = .error e s := by
  rw [not_forall] at hlinked
  obtain ⟨r, hr⟩ := hlinked
  rw [not_forall] at hr
  obtain ⟨rfl, hr⟩ := hr
  obtain ⟨linkedCode, hcode⟩ := Option.ne_none_iff_exists'.mp hr
  have hsome : ((some r).bind (·.linkedCode)).filter (fun c ↦ decide (c ≠ "")) = some linkedCode := by
    rw [Option.bind_some, hcode, Option.filter_some, if_pos]
    exact decide_eq_true fun h ↦ hne r rfl (hcode.trans (congrArg some h))
  rw [refuseLinked, hsome]
  exact ⟨_, rfl⟩

/-- The call raises at once, or goes on with two maps that are accepted. -/
theorem linkMapCodes_refused_or (textLe : String → String → Bool) (faults : LinkFaults)
    (data : LinkMapsCreateRequest) (s : CreationState) (hinv : TablesInv s.committed) :
    ((∃ e, linkMapCodes textLe faults data s = .error e s) ∧
      ∀ o u, ¬Accepted textLe faults data s.committed o u) ∨
    ∃ o u, Accepted textLe faults data s.committed o u ∧
      linkMapCodes textLe faults data s = linkFetched faults data o u s := by
  rw [linkMapCodes, bind_of_ok (get_apply s)]
  cases hread : faults.read with
  | true =>
      refine .inl ⟨⟨_, rfl⟩, fun o u h ↦ ?_⟩
      rw [h.read] at hread
      cases hread
  | false =>
      cases ho : fetchMap textLe s.committed data.officialCode with
      | none =>
          refine .inl ⟨⟨_, rfl⟩, fun o u h ↦ ?_⟩
          rw [h.official] at ho
          cases ho
      | some o =>
          cases hu : fetchMap textLe s.committed data.unofficialCode with
          | none =>
              refine .inl ⟨⟨_, rfl⟩, fun o u h ↦ ?_⟩
              rw [h.unofficial] at hu
              cases hu
          | some u =>
              show ((∃ e, (do
                  refuseLinked "Official" data.officialCode o
                  refuseLinked "Unofficial" data.unofficialCode u
                  linkFetched faults data o u : Creation Bool) s = .error e s) ∧ _) ∨ _
              by_cases hofficial : ∀ r ∈ o, r.linkedCode = none
              · by_cases hunofficial : ∀ r ∈ u, r.linkedCode = none
                · refine .inr ⟨o, u, ⟨hread, ho, hu, hofficial, hunofficial⟩, ?_⟩
                  show (do
                    refuseLinked "Official" data.officialCode o
                    refuseLinked "Unofficial" data.unofficialCode u
                    linkFetched faults data o u : Creation Bool) s = _
                  rw [bind_of_ok (refuseLinked_of_free _ _ hofficial),
                    bind_of_ok (refuseLinked_of_free _ _ hunofficial)]
                · obtain ⟨e, he⟩ := refuseLinked_of_linked (s := s) "Unofficial" data.unofficialCode
                    (linkedCode_ne_of_fetchMap hinv hu) hunofficial
                  refine .inl ⟨⟨e, ?_⟩, fun o' u' h ↦ hunofficial ?_⟩
                  · rw [bind_of_ok (refuseLinked_of_free _ _ hofficial)]
                    exact bind_of_error he
                  · have hsame := hu.symm.trans h.unofficial
                    cases hsame
                    exact h.unofficialFree
              · obtain ⟨e, he⟩ := refuseLinked_of_linked (s := s) "Official" data.officialCode
                  (linkedCode_ne_of_fetchMap hinv ho) hofficial
                refine .inl ⟨⟨e, bind_of_error he⟩, fun o' u' h ↦ hofficial ?_⟩
                have hsame := ho.symm.trans h.official
                cases hsame
                exact h.officialFree

/-- A call that comes down to `x` links as a whole if `x` does. -/
theorem linksAtomically_iff_whole {x : Creation Bool} {clone : Option (String × MapResponse)}
    (hrun : linkMapCodes textLe faults data s = x s)
    (hclone : ∀ source code, IsClone s.committed data source code → ∃ c ∈ clone, code = c.1 ∧
      fetchMap textLe s.committed source = some (some c.2))
    (hsource : ∀ c ∈ clone, ∃ source, IsClone s.committed data source c.1 ∧
      fetchMap textLe s.committed source = some (some c.2)) :
    LinksAtomically textLe faults data s ↔ Whole textLe x data clone s := by
  constructor
  · intro h
    refine ⟨fun e s' hx ↦ h.raised e s' (hrun.trans hx), fun b s' hx ↦
      ⟨h.linked b s' (hrun.trans hx), fun c hc ↦ ?_⟩⟩
    obtain ⟨source, his, hfetch⟩ := hsource c hc
    obtain ⟨r, r', hr, hr', hagree⟩ := h.cloned b s' (hrun.trans hx) source c.1 his
    rw [hfetch] at hr
    cases hr
    exact ⟨r', hr', hagree⟩
  · intro h
    refine ⟨fun e s' hx ↦ h.1 e s' (hrun.symm.trans hx), fun b s' hx ↦
      (h.2 b s' (hrun.symm.trans hx)).1, ?_⟩
    intro b s' hx source code his
    obtain ⟨c, hc, rfl, hfetch⟩ := hclone source code his
    obtain ⟨r', hr', hagree⟩ := (h.2 b s' (hrun.symm.trans hx)).2 c hc
    exact ⟨c.2, r', hfetch, hr', hagree⟩

/-- One map is there and the other is not. -/
theorem linksAtomically_iff_cloneWhole (hinv : TablesInv s.committed) {isOfficial : Bool}
    (hcodes : source = data.officialCode ∧ code = data.unofficialCode ∧ isOfficial = false ∨
      source = data.unofficialCode ∧ code = data.officialCode ∧ isOfficial = true)
    (hsome : fetchMap textLe s.committed source = some (some r))
    (hnone : fetchMap textLe s.committed code = some none) (hlink : r.linkedCode = none)
    (hrun : linkMapCodes textLe faults data s =
      cloneAndLink faults data (createClonedMapDataPayload r code isOfficial) isOfficial s) :
    LinksAtomically textLe faults data s ↔ CloneWhole faults r isOfficial := by
  obtain ⟨m, hm, hr⟩ := fetchMap_eq_some_some hsome
  have hfree := fetchMap_eq_some_none hnone
  rw [linkedCode_of_convertMap hr] at hlink
  have hne : source ≠ code := fun h ↦ by
    rw [h, hfree] at hm
    cases hm
  have hmap := mapOfCode_created_of_some (createClonedMapDataPayload r code isOfficial) hm
  have hmap' := mapOfCode_created (createClonedMapDataPayload r code isOfficial) hfree
  have hlinks := (base_created_cases (createClonedMapDataPayload r code isOfficial) s.committed).1
  have hnoLink := hinv.noLink s.committed.base.db.maps.nextId Table.get?_nextId
  have hunlinked : ∃ m₁ m₂,
      Unlinked (created (createClonedMapDataPayload r code isOfficial) s.committed).base m₁ m₂
        data.officialCode data.unofficialCode := by
    rcases hcodes with ⟨rfl, rfl, -⟩ | ⟨rfl, rfl, -⟩
    · exact ⟨m, _, hmap, hmap', hne, hlinks ▸ hlink, hlinks ▸ hnoLink⟩
    · exact ⟨_, m, hmap', hmap, hne.symm, hlinks ▸ hnoLink, hlinks ▸ hlink⟩
  obtain ⟨m₁, m₂, hunlinked⟩ := hunlinked
  have his : IsClone s.committed data source code := by
    refine ⟨?_, Option.isSome_iff_exists.mpr ⟨m, hm⟩, hfree⟩
    exact hcodes.imp (fun h ↦ ⟨h.1, h.2.1⟩) fun h ↦ ⟨h.1, h.2.1⟩
  have honly : ∀ source' code', IsClone s.committed data source' code' →
      source' = source ∧ code' = code := by
    rintro source' code' ⟨hpair, hthere, -⟩
    have hcode : source' ≠ code := fun h ↦ by
      rw [h, hfree] at hthere
      cases hthere
    rcases hcodes with ⟨rfl, rfl, -⟩ | ⟨rfl, rfl, -⟩
    · exact hpair.resolve_right fun h ↦ hcode h.1
    · exact hpair.resolve_left fun h ↦ hcode h.1
  calc
    _ ↔ Whole textLe (cloneAndLink faults data (createClonedMapDataPayload r code isOfficial)
          isOfficial) data (some (code, r)) s := by
      apply linksAtomically_iff_whole hrun
      · intro source' code' h
        obtain ⟨rfl, rfl⟩ := honly source' code' h
        exact ⟨_, rfl, rfl, hsome⟩
      · rintro c ⟨⟩
        exact ⟨source, his, hsome⟩
    _ ↔ CloneWhole faults r isOfficial := whole_cloneAndLink_iff hinv hr hfree hunlinked

/-- A call that raises at once has nothing to undo. -/
theorem LinksAtomically.of_error {e : CreationError}
    (hrun : linkMapCodes textLe faults data s = .error e s) :
    LinksAtomically textLe faults data s := by
  constructor
  · intro e' s' h
    rw [hrun] at h
    cases h
    exact ⟨rfl, rfl⟩
  · intro b s' h
    rw [hrun] at h
    cases h
  · intro b s' h
    rw [hrun] at h
    cases h

/-- Both maps are there. -/
theorem linksAtomically_iff_linkWhole {r' : MapResponse}
    (ho : fetchMap textLe s.committed data.officialCode = some (some r))
    (hu : fetchMap textLe s.committed data.unofficialCode = some (some r'))
    (hlink : r.linkedCode = none) (hlink' : r'.linkedCode = none)
    (hrun : linkMapCodes textLe faults data s = linkAndAnnounce faults data false false s) :
    LinksAtomically textLe faults data s ↔ LinkWhole faults data := by
  obtain ⟨m, hm, hr⟩ := fetchMap_eq_some_some ho
  obtain ⟨m', hm', hr'⟩ := fetchMap_eq_some_some hu
  rw [linkedCode_of_convertMap hr] at hlink
  rw [linkedCode_of_convertMap hr'] at hlink'
  calc
    _ ↔ Whole textLe (linkAndAnnounce faults data false false) data none s := by
      apply linksAtomically_iff_whole hrun
      · rintro source code ⟨⟨-, rfl⟩ | ⟨-, rfl⟩, -, hnone⟩
        · rw [hm'] at hnone
          cases hnone
        · rw [hm] at hnone
          cases hnone
      · rintro c ⟨⟩
    _ ↔ LinkWhole faults data := whole_link_iff hm hm' hlink hlink'

/-- `link_map_codes` is atomic exactly when what it sets out to do is done as a whole. -/
theorem linksAtomically_iff (textLe : String → String → Bool) (faults : LinkFaults)
    (data : LinkMapsCreateRequest) (s : CreationState) (hinv : TablesInv s.committed) :
    LinksAtomically textLe faults data s ↔
      ∀ o u, Accepted textLe faults data s.committed o u → LinksWhole faults data o u := by
  rcases linkMapCodes_refused_or textLe faults data s hinv with ⟨⟨e, hrun⟩, hnone⟩ | ⟨o, u, h, hrun⟩
  · exact iff_of_true (.of_error hrun) fun o u h ↦ absurd h (hnone o u)
  · have honly : (∀ o' u', Accepted textLe faults data s.committed o' u' →
        LinksWhole faults data o' u') ↔ LinksWhole faults data o u := by
      refine ⟨fun hall ↦ hall o u h, fun hwhole o' u' h' ↦ ?_⟩
      have ho := h.official.symm.trans h'.official
      have hu := h.unofficial.symm.trans h'.unofficial
      cases ho
      cases hu
      exact hwhole
    rw [honly]
    cases o with
    | none =>
        cases u with
        | none => exact iff_of_true (.of_error hrun) trivial
        | some r =>
            exact linksAtomically_iff_cloneWhole hinv (.inr ⟨rfl, rfl, rfl⟩) h.unofficial h.official
              (h.unofficialFree r rfl) hrun
    | some r =>
        cases u with
        | none =>
            exact linksAtomically_iff_cloneWhole hinv (.inl ⟨rfl, rfl, rfl⟩) h.official h.unofficial
              (h.officialFree r rfl) hrun
        | some r' =>
            exact linksAtomically_iff_linkWhole h.official h.unofficial (h.officialFree r rfl)
              (h.unofficialFree r' rfl) hrun

end Link

/-! ### A map and a code that is no map's -/

/-- A database with one official map, which has these tags. -/
def oneTagged (tags : List String) : CreationState where
  committed :=
    { base := { db := { maps :=
        (Table.empty : Table CoreMap).insert fun id ↦
          { id, code := some "AAAAA", mapName := "Hanamura", difficulty := .easy } } }
      describe := fun _ ↦ { labels := Function.update (fun _ ↦ []) .tags tags }
      names := Function.update (fun _ ↦ []) .tags tags }

theorem oneTagged_inv (tags : List String) : TablesInv (oneTagged tags).committed where
  links := fun _ h ↦ by cases h
  noLink := fun _ _ ↦ rfl
  noMedals := fun _ _ ↦ rfl
  creators := fun _ ↦ List.nodup_nil
  users := fun _ c hc ↦ absurd hc List.not_mem_nil
  guides := fun _ g hg ↦ absurd hg List.not_mem_nil
  labels := fun _ _ _ h ↦ h

/-- The official map is there, the unofficial one is to be cloned. -/
def toUnofficial : LinkMapsCreateRequest := ⟨"AAAAA", "BBBBB"⟩

/-- What is fetched of the map. -/
def taggedResponse (tags : List String) : MapResponse :=
  mapResponse (fun _ _ ↦ true) (oneTagged tags).committed
    { id := 1, code := some "AAAAA", mapName := "Hanamura", difficulty := .easy } none

theorem fetchMap_official (tags : List String) :
    fetchMap (fun _ _ ↦ true) (oneTagged tags).committed toUnofficial.officialCode =
      some (some (taggedResponse tags)) := rfl

theorem fetchMap_unofficial (tags : List String) :
    fetchMap (fun _ _ ↦ true) (oneTagged tags).committed toUnofficial.unofficialCode =
      some none := rfl

theorem oneTagged_links : LinksAtomically (fun _ _ ↦ true) {} toUnofficial (oneTagged []) := by
  apply (linksAtomically_iff _ _ _ _ (oneTagged_inv [])).mpr
  intro o u h
  have ho := h.official.symm.trans (fetchMap_official [])
  have hu := h.unofficial.symm.trans (fetchMap_unofficial [])
  cases ho
  cases hu
  refine .inr (.inr ⟨rfl, fun _ ↦ ⟨rfl, rfl⟩, rfl, rfl, ?_, fun _ ↦ rfl, fun h ↦ ?_⟩)
  · exact arrayAggDistinct_nil
  · exact absurd arrayAggDistinct_nil h

/-- The clone of a map with a tag has none. -/
theorem oneTagged_not_links :
    ¬LinksAtomically (fun _ _ ↦ true) {} toUnofficial (oneTagged ["Other Heroes"]) := by
  intro h
  have hwhole := (linksAtomically_iff_cloneWhole (oneTagged_inv ["Other Heroes"])
    (.inl ⟨rfl, rfl, rfl⟩) (fetchMap_official _) (fetchMap_unofficial _) rfl rfl).mp h
  rcases hwhole with ⟨hguides, -⟩ | hcommit | ⟨-, -, -, -, hcarried⟩
  · exact hguides arrayAggDistinct_nil
  · cases hcommit
  · have hmem : "Other Heroes" ∈ (taggedResponse ["Other Heroes"]).labels .tags :=
      mem_arrayAggDistinct.mpr List.mem_cons_self
    rw [hcarried.tags] at hmem
    cases hmem

end Genjishimada.Maps
