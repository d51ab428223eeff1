import Genjishimada.Services.Mastery
import Mathlib.Data.List.Induction

/-!
# What map mastery counts

The amount of a map name is meant to be the number of maps of that name the user has finished, in a
run that is verified.  It is counted over all runs, also those that are pending, rejected or no
longer verified, so it is right as long as there is a verified run wherever there is one at all.
-/

namespace Genjishimada.Maps

open Library Sdk Repository Services

variable {t : MasteryTables} {u : Nat} {name : String} {textLe : String → String → Bool}

/-- The maps of a name on which the user has such a run. -/
def mapsWith (p : CoreCompletion → Bool) (t : MasteryTables) (u : Nat) (name : String) :
    List CoreMap :=
  t.db.maps.select fun m ↦ m.mapName = name &&
    t.db.coreCompletions.rows.any fun c ↦ p c ∧ c.userId = u ∧ c.mapId = m.id

/-- How many distinct maps of a name the user has a verified completion on. -/
def verifiedMaps (t : MasteryTables) (u : Nat) (name : String) : Nat :=
  (mapsWith CoreCompletion.verified t u name).length

/-- What is reported is the number of verified maps, and a mastery update stores its level. -/
structure MasteryRight (textLe : String → String → Bool) (t : MasteryTables) (u : Nat) : Prop where
  amount : ∀ row ∈ t.getMapMasteryData textLe u none, row.amount = verifiedMaps t u row.mapName
  badge : ∀ t', processMapMastery textLe u t = some t' →
    ∀ row ∈ t.getMapMasteryData textLe u none,
      t'.mastery u row.mapName = some (masteryLevel (verifiedMaps t u row.mapName))

/-- Wherever the user has a run, on a map whose name is reported, a run of theirs is verified. -/
def VerifiedWherePlayed (t : MasteryTables) (u : Nat) : Prop :=
  ∀ m ∈ t.db.maps.rows, m.mapName ∈ t.names → m.mapName ≠ "Adlersbrunn" →
    (∃ c ∈ t.db.coreCompletions.rows, c.userId = u ∧ c.mapId = m.id) →
      ∃ c ∈ t.db.coreCompletions.rows, c.verified = true ∧ c.userId = u ∧ c.mapId = m.id

/-! ## The amount -/

theorem mem_mapsWith {p : CoreCompletion → Bool} {m : CoreMap} :
    m ∈ mapsWith p t u name ↔ m ∈ t.db.maps.rows ∧ m.mapName = name ∧
      ∃ c ∈ t.db.coreCompletions.rows, p c = true ∧ c.userId = u ∧ c.mapId = m.id := by
  simp only [mapsWith, Table.mem_select, Bool.and_eq_true, decide_eq_true_eq, List.any_eq_true]

/-- The amount is the number of maps with any run. -/
theorem mapCount_eq (t : MasteryTables) (u : Nat) (name : String) :
    t.mapCount u name = (mapsWith (fun _ ↦ true) t u name).length := by
  set played := ((t.db.coreCompletions.select fun c ↦ c.userId = u).map (·.mapId)).dedup with hplayed
  set named : Nat → Bool := fun mapId ↦ (t.db.maps.get? mapId).map (·.mapName) == some name with hnamed
  have hcount : t.mapCount u name = (played.filter named).length := by
    rw [MasteryTables.mapCount, MasteryTables.minimizedRecords, List.count_eq_countP, List.countP_map,
      List.countP_eq_length_filter]
    rfl
  have hperm : (played.filter named).Perm ((mapsWith (fun _ ↦ true) t u name).map key) := by
    refine (List.perm_ext_iff_of_nodup ((List.nodup_dedup _).filter _)
      (Table.nodup_map_key_select _)).mpr fun mapId ↦ ?_
    have hmem : mapId ∈ played ↔
        ∃ c ∈ t.db.coreCompletions.rows, c.userId = u ∧ c.mapId = mapId := by
      simp only [hplayed, List.mem_dedup, List.mem_map, Table.mem_select, decide_eq_true_eq]
      exact exists_congr fun c ↦ and_assoc
    rw [List.mem_filter, hmem, hnamed, beq_iff_eq, Option.map_eq_some_iff, List.mem_map]
    constructor
    · rintro ⟨⟨c, hc, hu, hmap⟩, m, hm, hname⟩
      have hid : m.id = mapId := Table.key_of_get? hm
      exact ⟨m, mem_mapsWith.mpr ⟨Table.mem_of_get? hm, hname, c, hc, rfl, hu, hmap.trans hid.symm⟩,
        hid⟩
    · rintro ⟨m, hm, rfl⟩
      obtain ⟨hrow, hname, c, hc, -, hu, hmap⟩ := mem_mapsWith.mp hm
      exact ⟨⟨c, hc, hu, hmap⟩, m, Table.get?_of_mem hrow, hname⟩
  rw [hcount, hperm.length_eq, List.length_map]

/-- It is right exactly if each of these maps has a verified one. -/
theorem mapCount_eq_verifiedMaps_iff :
    t.mapCount u name = verifiedMaps t u name ↔
      ∀ m ∈ mapsWith (fun _ ↦ true) t u name, m ∈ mapsWith CoreCompletion.verified t u name := by
  have hsub : (mapsWith CoreCompletion.verified t u name).Sublist
      (mapsWith (fun _ ↦ true) t u name) := by
    refine List.monotone_filter_right _ fun m h ↦ ?_
    simp only [Bool.and_eq_true, List.any_eq_true, decide_eq_true_eq] at h ⊢
    obtain ⟨hname, c, hc, -, hu, hmap⟩ := h
    exact ⟨hname, c, hc, trivial, hu, hmap⟩
  have hnodup (p : CoreCompletion → Bool) : (mapsWith p t u name).Nodup :=
    (t.db.maps.rows_nodup).filter _
  rw [mapCount_eq, verifiedMaps, eq_comm, hsub.length_eq]
  constructor
  · intro h m hm
    rwa [h]
  · intro h
    have hperm : (mapsWith CoreCompletion.verified t u name).Perm
        (mapsWith (fun _ ↦ true) t u name) :=
      (List.perm_ext_iff_of_nodup (hnodup _) (hnodup _)).mpr fun m ↦ ⟨fun hm ↦ hsub.subset hm, h m⟩
    exact hsub.eq_of_length hperm.length_eq

theorem mem_getMapMasteryData {row : MapMasteryResponse} :
    row ∈ t.getMapMasteryData textLe u none ↔
      (row.mapName ∈ t.names ∧ row.mapName ≠ "Adlersbrunn") ∧
        row.amount = t.mapCount u row.mapName := by
  simp only [MasteryTables.getMapMasteryData, List.mem_map, List.mem_mergeSort, List.mem_filter,
    Option.all_none, Bool.true_and, decide_eq_true_eq]
  constructor
  · rintro ⟨name, hname, rfl⟩
    exact ⟨hname, rfl⟩
  · rintro ⟨hname, hamount⟩
    exact ⟨row.mapName, hname, by rw [← hamount]⟩

/-- All reported amounts are right exactly if there is a verified run wherever there is one. -/
theorem amount_iff :
    (∀ row ∈ t.getMapMasteryData textLe u none, row.amount = verifiedMaps t u row.mapName) ↔
      VerifiedWherePlayed t u := by
  constructor
  · intro h m hm hname hnot ⟨c, hc, hu, hmap⟩
    have hcount : t.mapCount u m.mapName = verifiedMaps t u m.mapName :=
      h { mapName := m.mapName, amount := t.mapCount u m.mapName }
        (mem_getMapMasteryData.mpr ⟨⟨hname, hnot⟩, rfl⟩)
    have hplayed : m ∈ mapsWith (fun _ ↦ true) t u m.mapName :=
      mem_mapsWith.mpr ⟨hm, rfl, c, hc, rfl, hu, hmap⟩
    exact (mem_mapsWith.mp (mapCount_eq_verifiedMaps_iff.mp hcount m hplayed)).2.2
  · intro h row hrow
    obtain ⟨⟨hname, hnot⟩, hamount⟩ := mem_getMapMasteryData.mp hrow
    rw [hamount, mapCount_eq_verifiedMaps_iff]
    intro m hm
    obtain ⟨hm, hmap, c, hc, -, hplayed⟩ := mem_mapsWith.mp hm
    exact mem_mapsWith.mpr
      ⟨hm, hmap, h m hm (hmap ▸ hname) (hmap ▸ hnot) ⟨c, hc, hplayed⟩⟩

/-! ## The badge -/

@[simp] theorem mastery_updateMastery (m : MapMasteryResponse) (v : Nat) (name : String) :
    (updateMastery t u m).mastery v name =
      if v = u ∧ name = m.mapName then some m.level else t.mastery v name := by
  simp only [updateMastery, MasteryTables.upsertMapMastery, Function.update_apply]
  split_ifs <;> simp_all

/-- Each row reported leaves its level, since a name has one row. -/
theorem mastery_foldl {rows : List MapMasteryResponse}
    (hsame : ∀ row ∈ rows, ∀ row' ∈ rows, row.mapName = row'.mapName → row = row')
    {row : MapMasteryResponse} (hrow : row ∈ rows) :
    (rows.foldl (fun t m ↦ updateMastery t u m) t).mastery u row.mapName = some row.level := by
  -- from the last row: it is the row itself, or it has another name
  induction rows using List.reverseRecOn with
  | nil => exact absurd hrow List.not_mem_nil
  | append_singleton rows last ih =>
    rw [List.foldl_append, List.foldl_cons, List.foldl_nil, mastery_updateMastery]
    by_cases hname : row.mapName = last.mapName
    · rw [if_pos ⟨rfl, hname⟩, hsame row hrow last (by simp) hname]
    · have hrow : row ∈ rows := by
        rcases List.mem_append.mp hrow with h | h
        · exact h
        · exact absurd (congrArg (·.mapName) (List.mem_singleton.mp h)) hname
      rw [if_neg (fun h ↦ hname h.2)]
      exact ih (fun row hrow row' hrow' ↦ hsame row (List.mem_append_left _ hrow) row'
        (List.mem_append_left _ hrow')) hrow

/-- A mastery update stores the level of each amount reported. -/
theorem mastery_processMapMastery {t' : MasteryTables} (h : processMapMastery textLe u t = some t')
    {row : MapMasteryResponse} (hrow : row ∈ t.getMapMasteryData textLe u none) :
    t'.mastery u row.mapName = some (masteryLevel row.amount) := by
  simp only [processMapMastery, Option.ite_none_right_eq_some, Option.some.injEq] at h
  obtain ⟨-, rfl⟩ := h
  refine mastery_foldl (fun row hrow row' hrow' hname ↦ ?_) hrow
  have hamount := (mem_getMapMasteryData.mp hrow).2
  have hamount' := (mem_getMapMasteryData.mp hrow').2
  cases row; cases row'
  simp_all

/-- After any calls, the amounts reported for a user count the verified maps, and the badges stored
are their levels, exactly if the user has a verified run on each map they have a run on. -/
theorem masteryRight_iff (textLe : String → String → Bool) (s : MasterySite)
    (calls : List MasteryCall) (k u : Nat) :
    MasteryRight textLe ((calls.take k).foldl (MasteryCall.after textLe) s).tables u ↔
      VerifiedWherePlayed ((calls.take k).foldl (MasteryCall.after textLe) s).tables u := by
  set t := ((calls.take k).foldl (MasteryCall.after textLe) s).tables
  constructor
  · intro h
    exact amount_iff.mp h.amount
  · intro h
    have hamount : ∀ row ∈ t.getMapMasteryData textLe u none, row.amount = verifiedMaps t u row.mapName :=
      amount_iff.mpr h
    exact ⟨hamount, fun t' ht' row hrow ↦ by
      rw [mastery_processMapMastery ht' hrow, hamount row hrow]⟩

/-- A user with no runs, and a map. -/
def newPlayer : MasterySite where
  world :=
    { db :=
        { maps := Table.empty.insert fun id ↦
            { id, code := some "AAAAA", mapName := "Hanamura", difficulty := .easy } } }
  users := [7]
  names := ["Hanamura"]

/-- A first run, which is pending. -/
def firstRun : CompletionCreateRequest where
  code := "AAAAA"
  userId := 7
  time := 1200
  screenshot := ""
  video := none

/-- The pending run counts for one map. -/
theorem firstRun_not_masteryRight :
    ¬ MasteryRight (· ≤ ·) (([MasteryCall.submit firstRun {} 5].take 1).foldl
      (MasteryCall.after (· ≤ ·)) newPlayer).tables 7 := by
  intro h
  have hamount := h.amount { mapName := "Hanamura", amount := 1 }
    (mem_getMapMasteryData.mpr ⟨by decide +kernel, by decide +kernel⟩)
  revert hamount
  decide +kernel

end Genjishimada.Maps
