import Genjishimada.Services.Maps

/-!
# Codes and threads

The unique indexes on `core.maps.code` and `playtests.meta.thread_id` and the foreign key
from a playtest to its map, as an invariant that every call keeps.  A code that is no
longer of any map has no row, and a map whose code was released has no code.
-/

namespace Genjishimada.Maps

open Library Sdk Repository Services

/-- The constraints of the schema. -/
structure MapsInv (d : PlaytestDb) : Prop where
  codes : ∀ m ∈ d.db.maps.rows, ∀ m' ∈ d.db.maps.rows, m.code ≠ none → m.code = m'.code → m = m'
  threads : ∀ pm ∈ d.metas.rows, ∀ pm' ∈ d.metas.rows, pm.threadId ≠ none →
    pm.threadId = pm'.threadId → pm = pm'
  maps : ∀ pm ∈ d.metas.rows, (d.db.maps.get? pm.mapId).isSome

/-- The database after a call: as it was, if the call raises before its commit. -/
def after (d : PlaytestDb) : Except MapError PlaytestDb → PlaytestDb
  | .ok d' => d'
  | .error _ => d

variable {d d' : PlaytestDb} {m : CoreMap} {c code : String}

theorem mem_of_mapOfCode {code : Option String} (h : d.mapOfCode code = some m) :
    m ∈ d.db.maps.rows ∧ m.code = code ∧ code ≠ none := by
  obtain ⟨c, rfl, hfind⟩ := Option.bind_eq_some_iff.mp h
  exact ⟨List.mem_of_find?_eq_some hfind, by simpa using List.find?_some hfind, by simp⟩

theorem mapOfCode_isSome : (d.mapOfCode (some c)).isSome ↔
    ∃ m ∈ d.db.maps.rows, m.code = some c := by
  simp [PlaytestDb.mapOfCode]

/-- The row of a code is the one that carries it. -/
theorem MapsInv.mapOfCode (h : MapsInv d) (hm : m ∈ d.db.maps.rows) (hc : m.code = some c) :
    d.mapOfCode (some c) = some m := by
  obtain ⟨m', hm'⟩ := Option.isSome_iff_exists.mp (mapOfCode_isSome.mpr ⟨m, hm, hc⟩)
  obtain ⟨hmem, hcode, _⟩ := mem_of_mapOfCode hm'
  have heq : m' = m := by
    apply h.codes m' hmem m hm
    · simp [hcode]
    · rw [hcode, hc]
  rw [hm', heq]

theorem code_apply (p : MapPatchRequest) (m : CoreMap) : (p.apply m).code = p.code.or m.code := by
  rw [MapPatchRequest.apply]
  split <;> rfl

/-- A patch that fails has a code that is taken. -/
theorem exists_codeRefused {p : MapPatchRequest} (hs : d.updateCoreMap c p = none) :
    ∃ newCode ∈ p.code, d.codeRefused c newCode = true := by
  rw [PlaytestDb.updateCoreMap] at hs
  split at hs
  · cases hs
  · split at hs
    · rename_i newCode hnew
      split at hs
      · rename_i htaken
        exact ⟨newCode, hnew, htaken⟩
      · cases hs
    · cases hs

/-- A patch that succeeds has none. -/
theorem codeRefused_eq_false {p : MapPatchRequest} (hs : d.updateCoreMap c p = some d') :
    ∀ newCode ∈ p.code, d.codeRefused c newCode = false := by
  intro newCode hnew
  rw [Option.mem_def] at hnew
  rw [PlaytestDb.updateCoreMap] at hs
  split at hs
  · rename_i hempty
    simp [MapPatchRequest.coreEmpty, hnew] at hempty
  · rw [hnew] at hs
    simp only at hs
    split at hs
    · cases hs
    · rename_i hfree
      exact Bool.not_eq_true _ ▸ hfree

/-! ## What the statements keep -/

/-- An update loses no map. -/
theorem MapsInv.isSome_modify (h : MapsInv d) (p : CoreMap → Bool) (f : CoreMap → CoreMap) (hf) :
    ∀ pm ∈ d.metas.rows, ((d.db.maps.modify p f hf).get? pm.mapId).isSome := by
  intro pm hpm
  rw [Table.get?_modify, Option.isSome_map]
  exact h.maps pm hpm

/-- An update that keeps the codes. -/
theorem MapsInv.updateMaps (h : MapsInv d) {p : CoreMap → Bool} {f : CoreMap → CoreMap} {hf}
    (hcode : ∀ m, (f m).code = m.code) : MapsInv (d.updateMaps p f hf) := by
  have hsame : ∀ m : CoreMap, (if p m then f m else m).code = m.code := by
    intro m
    split
    · exact hcode m
    · rfl
  refine ⟨?_, h.threads, h.isSome_modify p f hf⟩
  intro r hr r' hr' hne heq
  obtain ⟨m, hm, rfl⟩ := List.mem_map.mp hr
  obtain ⟨m', hm', rfl⟩ := List.mem_map.mp hr'
  rw [hsame] at hne
  rw [hsame, hsame] at heq
  rw [h.codes m hm m' hm' hne heq]

theorem MapsInv.relink (h : MapsInv d) (code : String) (newCode : Option String) :
    MapsInv (d.relink code newCode) := by
  rw [PlaytestDb.relink]
  split
  · exact h
  · exact ⟨h.codes, h.threads, h.maps⟩

/-- An update of the playtests that keeps their maps and threads. -/
theorem MapsInv.modifyMetas (h : MapsInv d) {p : Playtest → Bool}
    {f : Playtest → Playtest} {hf}
    (hkeep : ∀ pm, (f pm).threadId = pm.threadId ∧ (f pm).mapId = pm.mapId) :
    MapsInv { d with metas := d.metas.modify p f hf } := by
  have hsame : ∀ pm : Playtest, (if p pm then f pm else pm).threadId = pm.threadId ∧
      (if p pm then f pm else pm).mapId = pm.mapId := by
    intro pm
    split
    · exact hkeep pm
    · exact ⟨rfl, rfl⟩
  refine ⟨h.codes, ?_, ?_⟩
  · intro r hr r' hr' hne heq
    obtain ⟨pm, hpm, rfl⟩ := List.mem_map.mp hr
    obtain ⟨pm', hpm', rfl⟩ := List.mem_map.mp hr'
    rw [(hsame pm).1] at hne
    rw [(hsame pm).1, (hsame pm').1] at heq
    rw [h.threads pm hpm pm' hpm' hne heq]
  · intro r hr
    obtain ⟨pm, hpm, rfl⟩ := List.mem_map.mp hr
    rw [(hsame pm).2]
    exact h.maps pm hpm

/-- A new playtest of a map that is there. -/
theorem MapsInv.createPlaytestMetaPartial (h : MapsInv d) (code : String) (difficulty : Rat) :
    MapsInv (d.createPlaytestMetaPartial code difficulty) := by
  rw [PlaytestDb.createPlaytestMetaPartial]
  split
  · rename_i m hm
    refine ⟨h.codes, ?_, ?_⟩
    · intro r hr r' hr' hne heq
      rcases List.mem_append.mp hr with hr | hr
      · rcases List.mem_append.mp hr' with hr' | hr'
        · exact h.threads r hr r' hr' hne heq
        · rw [List.mem_singleton.mp hr'] at heq
          exact absurd heq hne
      · rw [List.mem_singleton.mp hr] at hne
        exact absurd rfl hne
    · intro r hr
      rcases List.mem_append.mp hr with hr | hr
      · exact h.maps r hr
      · rw [List.mem_singleton.mp hr]
        show (d.db.maps.get? (key m)).isSome
        rw [Table.get?_of_mem (mem_of_mapOfCode hm).1]
        rfl
  · exact h

/-- A new map whose code is not taken. -/
theorem MapsInv.createCoreMap (h : MapsInv d) {mk : Nat → CoreMap} {hk}
    (hcode : ∀ id, (mk id).code = some code) (hfree : d.mapOfCode (some code) = none) :
    MapsInv (d.createCoreMap mk hk) := by
  have hnone : ∀ m ∈ d.db.maps.rows, m.code ≠ some code := by
    intro m hm hc
    have hsome := mapOfCode_isSome.mpr ⟨m, hm, hc⟩
    rw [hfree] at hsome
    cases hsome
  refine ⟨?_, h.threads, fun pm hpm ↦ ?_⟩
  swap
  · show ((d.db.maps.insert mk hk).get? pm.mapId).isSome
    rw [Table.get?_insert]
    split
    · rfl
    · exact h.maps pm hpm
  intro r hr r' hr' hne heq
  rcases List.mem_append.mp hr with hr | hr <;> rcases List.mem_append.mp hr' with hr' | hr'
  · exact h.codes r hr r' hr' hne heq
  · rw [List.mem_singleton.mp hr', hcode] at heq
    exact absurd heq (hnone r hr)
  · rw [List.mem_singleton.mp hr, hcode] at heq
    exact absurd heq.symm (hnone r' hr')
  · rw [List.mem_singleton.mp hr, List.mem_singleton.mp hr']

/-- A patch with a code that is not taken. -/
theorem MapsInv.updateCoreMap (h : MapsInv d) {p : MapPatchRequest}
    (hs : d.updateCoreMap c p = some d') : MapsInv d' := by
  have hcode : ∀ m, (p.apply m).code = p.code.or m.code := by
    intro m
    rw [MapPatchRequest.apply]
    split <;> rfl
  rw [PlaytestDb.updateCoreMap] at hs
  split at hs
  · obtain rfl := Option.some.inj hs
    exact h
  · split at hs
    · rename_i newCode hnew
      split at hs
      · cases hs
      · rename_i htaken
        obtain rfl := Option.some.inj hs
        apply MapsInv.relink
        refine ⟨?_, h.threads, h.isSome_modify _ _ p.key_apply⟩
        -- a row with the new code is the updated one
        have hother : ∀ m ∈ d.db.maps.rows, ∀ m' ∈ d.db.maps.rows, m.code = some c →
            m'.code ≠ some c → m'.code ≠ some newCode := by
          intro m hm m' hm' hc hc' hn
          apply htaken
          have h₁ := mapOfCode_isSome.mpr ⟨m, hm, hc⟩
          have h₂ := mapOfCode_isSome.mpr ⟨m', hm', hn⟩
          have hne : newCode ≠ c := by
            rintro rfl
            exact hc' hn
          simp [PlaytestDb.codeRefused, h₁, h₂, hne]
        intro r hr r' hr' hne heq
        obtain ⟨m, hm, rfl⟩ := List.mem_map.mp hr
        obtain ⟨m', hm', rfl⟩ := List.mem_map.mp hr'
        by_cases hc : m.code = some c <;> by_cases hc' : m'.code = some c
        · rw [h.codes m hm m' hm' (by simp [hc]) (hc.trans hc'.symm)]
        · simp only [hc, hc', decide_true, decide_false, if_true, if_false, hcode, hnew,
            Option.or_some, Bool.false_eq_true] at heq
          exact absurd heq.symm (hother m hm m' hm' hc hc')
        · simp only [hc, hc', decide_true, decide_false, if_true, if_false, hcode, hnew,
            Option.or_some, Bool.false_eq_true] at heq
          exact absurd heq (hother m' hm' m hm hc' hc)
        · simp only [hc, hc', decide_false, if_false, Bool.false_eq_true] at hne heq ⊢
          exact h.codes m hm m' hm' hne heq
    · rename_i hnone
      obtain rfl := Option.some.inj hs
      apply h.updateMaps
      intro m
      rw [hcode, hnone, Option.none_or]

/-- A thread that no other playtest has. -/
theorem MapsInv.associateThread (h : MapsInv d) {playtestId threadId : Nat}
    (hs : d.associateThread playtestId threadId = some d') : MapsInv d' := by
  rw [PlaytestDb.associateThread] at hs
  split at hs
  · cases hs
  · rename_i hfree
    obtain rfl := Option.some.inj hs
    have hother : ∀ pm ∈ d.metas.rows, pm.id ≠ playtestId → pm.threadId ≠ some threadId := by
      intro pm hpm hid hthread
      apply hfree
      exact List.any_eq_true.mpr ⟨pm, hpm, by simp [hid, hthread]⟩
    refine ⟨h.codes, ?_, ?_⟩
    · intro r hr r' hr' hne heq
      obtain ⟨pm, hpm, rfl⟩ := List.mem_map.mp hr
      obtain ⟨pm', hpm', rfl⟩ := List.mem_map.mp hr'
      by_cases hid : pm.id = playtestId <;> by_cases hid' : pm'.id = playtestId
      · rw [Table.eq_of_key_eq hpm hpm' (hid.trans hid'.symm)]
      · simp only [hid, hid', decide_true, decide_false, if_true, if_false,
          Bool.false_eq_true] at heq
        exact absurd heq.symm (hother pm' hpm' hid')
      · simp only [hid, hid', decide_true, decide_false, if_true, if_false,
          Bool.false_eq_true] at heq
        exact absurd heq (hother pm hpm hid)
      · simp only [hid, hid', decide_false, if_false, Bool.false_eq_true] at hne heq ⊢
        exact h.threads pm hpm pm' hpm' hne heq
    · intro r hr
      obtain ⟨pm, hpm, rfl⟩ := List.mem_map.mp hr
      split
      · exact h.maps pm hpm
      · exact h.maps pm hpm

/-! ## What the calls keep -/

/-- The constraints are on the maps and the playtests alone. -/
theorem MapsInv.congr (h : MapsInv d) (hmaps : d'.db.maps = d.db.maps)
    (hmetas : d'.metas = d.metas) : MapsInv d' := by
  constructor
  · rw [hmaps]
    exact h.codes
  · rw [hmetas]
    exact h.threads
  · rw [hmaps, hmetas]
    exact h.maps

theorem insertMedals_frame (mapId : Nat) (medals : Option MedalsResponse) (d : PlaytestDb) :
    (insertMedals mapId medals d).db.maps = d.db.maps ∧
      (insertMedals mapId medals d).metas = d.metas := by
  rw [insertMedals]
  split <;> exact ⟨rfl, rfl⟩

theorem patchMedals_frame (mapId : Nat) (medals : Option (Option MedalsResponse)) (d : PlaytestDb) :
    (patchMedals mapId medals d).db.maps = d.db.maps ∧
      (patchMedals mapId medals d).metas = d.metas := by
  cases medals <;> exact ⟨rfl, rfl⟩

theorem MapsInv.after (h : MapsInv d) {result : Except MapError PlaytestDb}
    (hok : ∀ d', result = .ok d' → MapsInv d') : MapsInv (after d result) := by
  cases result with
  | ok d' => exact hok d' rfl
  | error e => exact h

theorem MapsInv.createMap (h : MapsInv d) {data : MapCreateRequest}
    (hs : createMap data d = .ok d') : MapsInv d' := by
  simp only [Services.createMap] at hs
  split at hs
  · cases hs
  · rename_i hfree
    have hfree : d.mapOfCode (some data.code) = none := by simpa using hfree
    have hcreated : MapsInv (insertMedals d.db.maps.nextId data.medals
        (d.createCoreMap data.row)) := by
      obtain ⟨hmaps, hmetas⟩ :=
        insertMedals_frame d.db.maps.nextId data.medals (d.createCoreMap data.row)
      have hrow : MapsInv (d.createCoreMap data.row) := h.createCoreMap (fun _ ↦ rfl) hfree
      exact hrow.congr hmaps hmetas
    split at hs
    · cases hs
      exact hcreated.createPlaytestMetaPartial _ _
    · cases hs
      exact hcreated

theorem MapsInv.updateMap (h : MapsInv d) {code : Option String} {data : MapPatchRequest}
    (hs : updateMap code data d = .ok d') : MapsInv d' := by
  simp only [Services.updateMap] at hs
  split at hs
  · split at hs
    · cases hs
    · rename_i hupdated
      cases hs
      have hinv := h.updateCoreMap hupdated
      obtain ⟨hmaps, hmetas⟩ := patchMedals_frame _ _ _
      refine MapsInv.congr ?_ hmaps hmetas
      simp only [patchInitialDifficulty]
      split
      · exact hinv.modifyMetas fun _ ↦ ⟨rfl, rfl⟩
      · exact hinv
  · cases hs

theorem MapsInv.setArchiveStatus (h : MapsInv d) (codes : List String) (archived : Bool) :
    MapsInv (d.setArchiveStatus codes archived) := by
  rw [PlaytestDb.setArchiveStatus]
  split
  · have harchived : MapsInv (d.updateMaps (PlaytestDb.named codes) PlaytestDb.archiveMap) :=
      h.updateMaps fun _ ↦ rfl
    exact harchived.modifyMetas fun _ ↦ ⟨rfl, rfl⟩
  · exact h.updateMaps fun _ ↦ rfl

theorem MapsInv.sendToPlaytest (h : MapsInv d) {code : Option String} {difficulty : DifficultyAll}
    (hs : sendToPlaytest code difficulty d = .ok d') : MapsInv d' := by
  simp only [Services.sendToPlaytest] at hs
  split at hs
  · split at hs
    · cases hs
    · split at hs
      · cases hs
      · rename_i converted hconverted
        have hinv : MapsInv converted := by
          rw [convertToLegacyInternal] at hconverted
          split at hconverted
          · cases hconverted
          · cases hconverted
            exact h.congr rfl rfl
        split at hs
        · cases hs
        · rename_i updated hupdated
          cases hs
          exact (hinv.updateCoreMap hupdated).createPlaytestMetaPartial _ _
  · cases hs

/-- A verdict on a playtest. -/
theorem MapsInv.completePlaytest (h : MapsInv d) (threadId : Nat) :
    MapsInv (d.completePlaytest threadId) :=
  h.modifyMetas fun _ ↦ ⟨rfl, rfl⟩

theorem MapsInv.approvePlaytest (h : MapsInv d) (mapId threadId : Nat) (raw : Rat) :
    MapsInv (d.approvePlaytest mapId threadId raw) := by
  apply MapsInv.completePlaytest
  exact h.updateMaps fun _ ↦ rfl

theorem MapsInv.forceDenyPlaytest (h : MapsInv d) (mapId threadId : Nat) :
    MapsInv (d.forceDenyPlaytest mapId threadId) := by
  apply MapsInv.completePlaytest
  exact h.updateMaps fun _ ↦ rfl

end Genjishimada.Maps
