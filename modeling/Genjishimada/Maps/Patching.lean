import Genjishimada.Maps.Creation
import Genjishimada.Maps.EditRequests
import Genjishimada.Services.MapPatching

/-!
# The transaction of an update

What the statements of `update_map` refuse, and what they leave.
-/

namespace Genjishimada.Maps

open Library Sdk Repository Services Services.MapsService

variable {code : String} {original : CoreMap} {data : MapsService.MapPatchRequest}
  {t t' : MapTables}

/-! ## What is refused, and what is written -/

/-- The names of one kind a request has. -/
def namesOf (data : MapsService.MapPatchRequest) (kind : LabelKind) : List String :=
  (data.labels kind).join.getD []

/-- The first statement that is refused. -/
def patchRefusal (code : String) (data : MapsService.MapPatchRequest) (t : MapTables) :
    Option PatchError :=
  if data.code.any (t.base.codeRefused code) then some (.mapCodeExists (data.code.getD code))
  else
    match data.creators.bind (MapTables.creatorRefusal t.users []) with
    | some refusal => some (refuseCreator refusal)
    | none =>
        if ¬(namesOf data .mechanics).Nodup then some .duplicateMechanic
        else if ¬(namesOf data .restrictions).Nodup then some .duplicateRestriction
        else if ¬(namesOf data .tags).Nodup then some .duplicateTags
        else if data.medals.join.any (·.stored.isNone) then some .medalsOutOfRange
        else none

/-- Every statement goes through. -/
theorem patchRefusal_eq_none_iff :
    patchRefusal code data t = none ↔
      (¬data.code.any (t.base.codeRefused code) = true) ∧
        data.creators.bind (MapTables.creatorRefusal t.users []) = none ∧
        (∀ kind, (namesOf data kind).Nodup) ∧ ¬data.medals.join.any (·.stored.isNone) = true := by
  unfold patchRefusal
  by_cases hcode : data.code.any (t.base.codeRefused code) = true
  · simp [hcode]
  · rw [if_neg hcode]
    cases data.creators.bind (MapTables.creatorRefusal t.users []) with
    | some refusal => simp
    | none =>
        have hkinds : (∀ kind, (namesOf data kind).Nodup) ↔
            (namesOf data .mechanics).Nodup ∧ (namesOf data .restrictions).Nodup ∧
              (namesOf data .tags).Nodup :=
          ⟨fun h ↦ ⟨h _, h _, h _⟩, fun ⟨hm, hr, ht⟩ kind ↦ by cases kind <;> assumption⟩
        rw [hkinds]
        split_ifs <;> simp_all

/-- Each statement is refused for its own reason. -/
theorem patchRefusal_ne_readFailed : patchRefusal code data t ≠ some .readFailed := by
  unfold patchRefusal
  split
  · simp
  · split
    · rename_i refusal _
      cases refusal <;> simp [refuseCreator]
    · split_ifs <;> simp

/-- The creators of a request, or those there are. -/
def withPatchedCreators (data : MapsService.MapPatchRequest) (m : MapDescription) : MapDescription :=
  { m with creators := data.creators.getD m.creators }

/-- The names of one kind that the table has, if the request sets them. -/
def withPatchedLabels (kind : LabelKind) (known : List String)
    (names : Option (Option (List String))) (m : MapDescription) : MapDescription :=
  { m with
    labels := Function.update m.labels kind
      ((names.map fun names ↦ known.filter fun name ↦ name ∈ names.getD []).getD (m.labels kind)) }

/-- What describes the map after an update. -/
def patchedDescription (names : LabelKind → List String) (data : MapsService.MapPatchRequest)
    (m : MapDescription) : MapDescription :=
  withPatchedLabels .tags (names .tags) data.tags <|
    withPatchedLabels .restrictions (names .restrictions) data.restrictions <|
      withPatchedLabels .mechanics (names .mechanics) data.mechanics <|
        withPatchedCreators data (data.columns m)

/-- The row of `core.maps` and its playtest after an update. -/
def patchedRow (code : String) (original : CoreMap) (data : MapsService.MapPatchRequest)
    (d : PlaytestDb) : PlaytestDb :=
  patchInitialDifficulty data.difficulty (d.playtestThread original)
    ((d.updateCoreMap code data.core).getD d)

/-- These and the medals. -/
def patchedBase (code : String) (original : CoreMap) (data : MapsService.MapPatchRequest)
    (d : PlaytestDb) : PlaytestDb :=
  match data.medals with
  | none => patchedRow code original data d
  | some medals => (patchedRow code original data d).replaceMedals original.id (medals.bind (·.stored))

/-- The tables after an update. -/
def patched (code : String) (original : CoreMap) (data : MapsService.MapPatchRequest)
    (t : MapTables) : MapTables :=
  { t.redescribe original.id (patchedDescription t.names data) with
    base := patchedBase code original data t.base }

/-! ## The statements -/

section Statements

variable {mapId : Nat} {f g : MapDescription → MapDescription}

@[simp] theorem users_redescribe (t : MapTables) : (t.redescribe mapId f).users = t.users := rfl

@[simp] theorem names_redescribe (t : MapTables) : (t.redescribe mapId f).names = t.names := rfl

theorem redescribe_redescribe (t : MapTables) :
    (t.redescribe mapId f).redescribe mapId g = t.redescribe mapId (g ∘ f) := by
  unfold MapTables.redescribe
  simp

theorem redescribe_id (t : MapTables) : t.redescribe mapId (fun m ↦ m) = t := by
  unfold MapTables.redescribe
  rw [Function.update_eq_self]

theorem patchCreators_eq (t : MapTables) :
    patchCreators mapId data.creators t =
      match data.creators.bind (MapTables.creatorRefusal t.users []) with
      | some refusal => .error (refuseCreator refusal)
      | none => .ok (t.redescribe mapId (withPatchedCreators data)) := by
  unfold patchCreators withPatchedCreators
  cases data.creators with
  | none => exact congrArg Except.ok (redescribe_id t).symm
  | some creators =>
      have hrows : ((t.deleteCreators mapId).describe mapId).creators = [] := by
        rw [MapTables.deleteCreators, describe_redescribe]
      have husers : (t.deleteCreators mapId).users = t.users := rfl
      simp only [MapTables.insertCreators, hrows, husers, List.map_nil, Option.bind_some]
      cases MapTables.creatorRefusal t.users [] creators with
      | some refusal => rfl
      | none =>
          simp only [MapTables.deleteCreators, redescribe_redescribe]
          rfl

theorem patchLabels_eq (kind : LabelKind) (names : Option (Option (List String))) (t : MapTables) :
    patchLabels kind mapId names t =
      if (names.join.getD []).Nodup then
        .ok (t.redescribe mapId (withPatchedLabels kind (t.names kind) names))
      else .error (duplicateLabel kind) := by
  unfold patchLabels withPatchedLabels
  cases names with
  | none =>
      rw [if_pos (by exact List.nodup_nil)]
      simp only [Option.map_none, Option.getD_none, Function.update_eq_self]
      exact congrArg Except.ok (redescribe_id t).symm
  | some names =>
      show (if (names.getD []).Nodup then _ else _) = if (names.getD []).Nodup then _ else _
      split
      · rw [MapTables.insertLabels, MapTables.deleteLabels, redescribe_redescribe]
        congr 2
        funext m
        simp only [Function.comp_apply, Function.update_self, Function.update_idem, List.nil_append]
        rfl
      · rfl

/-- The statements on `core.maps`. -/
theorem updateCoreMap_eq (t : MapTables) :
    t.updateCoreMap code mapId data.core data.columns =
      if data.code.any (t.base.codeRefused code) then none
      else some ({ t with base := (t.base.updateCoreMap code data.core).getD t.base }.redescribe
        mapId data.columns) := by
  have hrefused : t.base.updateCoreMap code data.core = none ↔
      data.code.any (t.base.codeRefused code) = true := by
    unfold PlaytestDb.updateCoreMap MapPatchRequest.coreEmpty
    cases hcode : data.code with
    | none =>
        have hnone : data.core.code = none := hcode
        simp only [hnone, Option.any_none]
        split <;> simp
    | some newCode =>
        have hsome : data.core.code = some newCode := hcode
        simp [hsome]
  rw [MapTables.updateCoreMap]
  cases hbase : t.base.updateCoreMap code data.core with
  | none => rw [if_pos (hrefused.mp hbase), Option.map_none]
  | some base =>
      have hfree : ¬data.code.any (t.base.codeRefused code) = true := fun h ↦ by
        rw [hrefused.mpr h] at hbase
        cases hbase
      rw [if_neg hfree, Option.map_some, Option.getD_some]

end Statements

/-! ## The transaction -/

/-- The tables without their medals. -/
def patchedRest (code : String) (original : CoreMap) (data : MapsService.MapPatchRequest)
    (t : MapTables) : MapTables :=
  { t.redescribe original.id (patchedDescription t.names data) with
    base := patchedRow code original data t.base }

theorem patchMedalTimes_eq (code : String) (original : CoreMap)
    (data : MapsService.MapPatchRequest) (t : MapTables) :
    patchMedalTimes original.id data.medals (patchedRest code original data t) =
      if data.medals.join.any (·.stored.isNone) then .error .medalsOutOfRange
      else .ok (patched code original data t) := by
  unfold patchMedalTimes patched patchedBase
  cases data.medals with
  | none => rfl
  | some medals =>
      cases medals with
      | none => rfl
      | some medals =>
          simp only [Option.join_some, Option.any_some, Option.bind_some]
          cases medals.stored <;> rfl

/-- The statements commit what they write, unless one is refused. -/
theorem updateMapTransaction_eq (code : String) (original : CoreMap)
    (data : MapsService.MapPatchRequest) (t : MapTables) :
    updateMapTransaction code original data t =
      match patchRefusal code data t with
      | some e => .error e
      | none => .ok (patched code original data t) := by
  unfold updateMapTransaction patchRefusal
  rw [updateCoreMap_eq]
  by_cases hcode : data.code.any (t.base.codeRefused code) = true
  · rw [if_pos hcode, if_pos hcode]
    rfl
  · rw [if_neg hcode, if_neg hcode]
    simp only [pure_bind]
    show (patchCreators original.id data.creators
      ({ t with base := patchedRow code original data t.base }.redescribe original.id data.columns) >>=
        fun t ↦ _) = _
    simp only [patchCreators_eq, users_redescribe]
    cases data.creators.bind (MapTables.creatorRefusal t.users []) with
    | some refusal => rfl
    | none =>
        show (patchLabels .mechanics original.id data.mechanics _ >>= fun t ↦
          patchLabels .restrictions original.id data.restrictions t >>= fun t ↦
            patchLabels .tags original.id data.tags t >>= fun t ↦
              patchMedalTimes original.id data.medals t) = _
        simp only [patchLabels_eq, except_guard_bind, redescribe_redescribe, names_redescribe]
        by_cases hmechanics : (namesOf data .mechanics).Nodup
        · rw [if_neg (not_not.mpr hmechanics)]
          refine (if_pos hmechanics).trans ?_
          by_cases hrestrictions : (namesOf data .restrictions).Nodup
          · rw [if_neg (not_not.mpr hrestrictions)]
            refine (if_pos hrestrictions).trans ?_
            by_cases htags : (namesOf data .tags).Nodup
            · rw [if_neg (not_not.mpr htags)]
              refine (if_pos htags).trans ?_
              refine (patchMedalTimes_eq code original data t).trans ?_
              split <;> rfl
            · rw [if_pos htags]
              exact if_neg htags
          · rw [if_pos hrestrictions]
            exact if_neg hrestrictions
        · rw [if_pos hmechanics]
          exact if_neg hmechanics

/-! ## What is left -/

section Patched

variable {m : CoreMap}

/-- The codes are not in the way. -/
theorem exists_updateCoreMap (hrefusal : patchRefusal code data t = none) :
    ∃ d, t.base.updateCoreMap code data.core = some d := by
  obtain ⟨hfree, -⟩ := patchRefusal_eq_none_iff.mp hrefusal
  cases hu : t.base.updateCoreMap code data.core with
  | some d => exact ⟨d, rfl⟩
  | none =>
      obtain ⟨newCode, hnew, htaken⟩ := exists_codeRefused hu
      rw [Option.any_eq_true] at hfree
      exact absurd ⟨newCode, hnew, htaken⟩ hfree

theorem patchedBase_eq (d : PlaytestDb) :
    patchedBase code m data d =
      patchMedals m.id (data.medals.map (·.bind (·.stored))) (patchedRow code m data d) := by
  unfold patchedBase patchMedals
  cases data.medals <;> rfl

/-- The map of the code is patched, and no other. -/
theorem patched_change (hinv : MapsInv t.base) (hm : t.base.mapOfCode (some code) = some m)
    (hrefusal : patchRefusal code data t = none) :
    Change t.base (patched code m data t).base m (data.core.apply m) fun id ↦
      (data.core.coreEmpty = false ∨ data.medals ≠ none) ∧ id = m.id ∨
        (∃ newCode ∈ data.code, some code ≠ some newCode) ∧ t.base.linkedCode id = some code := by
  obtain ⟨d, hd⟩ := exists_updateCoreMap hrefusal
  have hchange := updateCoreMap_apply hinv hm hd
  show Change t.base (patchedBase code m data t.base) m _ _
  rw [patchedBase_eq, patchedRow, hd, Option.getD_some]
  refine (patch_change hchange _ _ _).congr fun id ↦ ?_
  have hmedals : data.medals.map (·.bind (·.stored)) ≠ none ↔ data.medals ≠ none := by
    cases data.medals <;> simp
  rw [hmedals, or_and_right, or_right_comm]
  rfl

theorem medals_patchedRow (d : PlaytestDb) :
    (patchedRow code m data d).db.medals = d.db.medals := by
  rw [patchedRow, (patchInitialDifficulty_frame _ _ _).1]
  cases hu : d.updateCoreMap code data.core with
  | none => rfl
  | some d' =>
      rw [Option.getD_some]
      rw [PlaytestDb.updateCoreMap] at hu
      split at hu
      · cases hu
        rfl
      · split at hu
        · split at hu
          · cases hu
          · cases hu
            rw [(relink_frame _ _ _).1]
            rfl
        · cases hu
          rfl

theorem get?_replaceMedals (d : PlaytestDb) (mapId mapId' : Nat) (medals : Option MedalsResponse) :
    (d.replaceMedals mapId medals).db.medals.get? mapId' =
      if mapId' = mapId then medals.map (·.row mapId) else d.db.medals.get? mapId' := by
  have hdeleted : (d.db.medals.delete fun md ↦ md.mapId = mapId).get? mapId' =
      if mapId' = mapId then none else d.db.medals.get? mapId' := by
    rw [Table.get?_delete]
    cases hrow : d.db.medals.get? mapId' with
    | none => simp
    | some row =>
        have hkey : row.mapId = mapId' := Table.key_of_get? hrow
        by_cases hid : mapId' = mapId <;> simp [hkey, hid]
  cases medals with
  | none => exact hdeleted
  | some row =>
      show ((d.db.medals.delete fun md ↦ md.mapId = mapId).upsert (row.row mapId) id
        fun _ ↦ rfl).get? mapId' = _
      have hkey : key (row.row mapId) = mapId := rfl
      rw [Table.get?_upsert, hkey, hdeleted]
      by_cases hid : mapId' = mapId <;> simp [hid]

/-- The medals of the map are those of the request, if it has any. -/
theorem medals_patched (code : String) (m : CoreMap) (data : MapsService.MapPatchRequest)
    (t : MapTables) (id : Nat) :
    (patched code m data t).base.db.medals.get? id =
      if id = m.id then
        (data.medals.map fun medals ↦ (medals.bind (·.stored)).map (·.row m.id)).getD
          (t.base.db.medals.get? m.id)
      else t.base.db.medals.get? id := by
  show (patchedBase code m data t.base).db.medals.get? id = _
  unfold patchedBase
  cases data.medals with
  | none =>
      rw [medals_patchedRow, Option.map_none, Option.getD_none]
      split
      · rename_i hid
        rw [hid]
      · rfl
  | some medals =>
      rw [Option.map_some, Option.getD_some]
      show ((patchedRow code m data t.base).replaceMedals m.id _).db.medals.get? id = _
      rw [get?_replaceMedals, medals_patchedRow]

theorem writes_le_updateCoreMap {d d' : PlaytestDb} {p : Repository.MapPatchRequest}
    (hu : d.updateCoreMap code p = some d') (id : Nat) : d.writes id ≤ d'.writes id := by
  have hupdate : d.writes id ≤
      (d.updateMaps (fun m ↦ m.code = some code) p.apply p.key_apply).writes id :=
    Nat.le_add_right _ _
  rw [PlaytestDb.updateCoreMap] at hu
  split at hu
  · cases hu
    exact le_rfl
  · split at hu
    · split at hu
      · cases hu
      · cases hu
        exact hupdate.trans ((writes_relink _ _ _).mono id)
    · cases hu
      exact hupdate

/-- No write is taken back. -/
theorem writes_le_patched (code : String) (m : CoreMap) (data : MapsService.MapPatchRequest)
    (t : MapTables) (id : Nat) : t.base.writes id ≤ (patched code m data t).base.writes id := by
  have hrow : t.base.writes id ≤ (patchedRow code m data t.base).writes id := by
    rw [patchedRow, (patchInitialDifficulty_frame _ _ _).2]
    cases hu : t.base.updateCoreMap code data.core with
    | none => exact le_rfl
    | some d => exact writes_le_updateCoreMap hu id
  show _ ≤ (patchedBase code m data t.base).writes id
  unfold patchedBase
  cases data.medals with
  | none => exact hrow
  | some medals => exact hrow.trans (Nat.le_add_right _ _)

/-- An update that sets nothing writes nothing. -/
theorem patched_empty (code : String) (m : CoreMap) (t : MapTables) : patched code m {} t = t := by
  have hdescription : patchedDescription t.names {} = fun m ↦ m := by
    funext m
    simp [patchedDescription, withPatchedLabels, withPatchedCreators,
      MapsService.MapPatchRequest.columns]
  rw [patched, hdescription, redescribe_id]
  rfl

/-- The tables that `update_map` commits. -/
theorem updateMap_tables (textLe : String → String → Bool) (faults : PatchFaults) (code : String)
    (data : MapsService.MapPatchRequest) (t : MapTables) :
    (MapsService.updateMap textLe faults code data t).1 = t ∨
      ∃ m, t.base.mapOfCode (some code) = some m ∧ patchRefusal code data t = none ∧
        (MapsService.updateMap textLe faults code data t).1 = patched code m data t := by
  unfold MapsService.updateMap
  cases hm : t.base.mapOfCode (some code) with
  | none => exact .inl rfl
  | some m =>
      cases readMap textLe faults.read code t with
      | error e => exact .inl rfl
      | ok before =>
          cases faults.transaction with
          | true => exact .inl rfl
          | false =>
              simp only [Bool.false_eq_true, if_false, updateMapTransaction_eq]
              cases hrefusal : patchRefusal code data t with
              | some e => exact .inl rfl
              | none => exact .inr ⟨m, rfl, rfl, rfl⟩

/-- A call that returns has patched the map of the code. -/
theorem updateMap_eq_ok {textLe : String → String → Bool} {faults : PatchFaults}
    {r : MapResponse × MapResponse}
    (h : MapsService.updateMap textLe faults code data t = (t', .ok r)) :
    ∃ m, t.base.mapOfCode (some code) = some m ∧ patchRefusal code data t = none ∧
      t' = patched code m data t := by
  unfold MapsService.updateMap at h
  cases hm : t.base.mapOfCode (some code) with
  | none =>
      rw [hm] at h
      cases h
  | some m =>
      simp only [hm] at h
      cases hread : readMap textLe faults.read code t with
      | error e =>
          rw [hread] at h
          cases h
      | ok before =>
          simp only [hread, updateMapTransaction_eq] at h
          cases htransaction : faults.transaction with
          | true =>
              rw [htransaction] at h
              cases h
          | false =>
              simp only [htransaction, Bool.false_eq_true, if_false] at h
              cases hrefusal : patchRefusal code data t with
              | some e =>
                  rw [hrefusal] at h
                  cases h
              | none =>
                  rw [hrefusal] at h
                  exact ⟨m, rfl, rfl, (congrArg Prod.fst h).symm⟩

end Patched

end Genjishimada.Maps
