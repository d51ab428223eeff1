import Genjishimada.Maps.Difficulties
import Genjishimada.Repository.Playtests

/-!
# The playtests of a map

The map search counts the votes of a playtest by its map, the votes themselves are listed by
thread, and `fetch_partial_map` joins every playtest of the map.  The three agree on the open
playtest of a map as long as the completed ones have left nothing behind.
-/

namespace Genjishimada.Maps

open Library Sdk Repository PlaytestTables

/-- A map with one open playtest, besides those that are completed. -/
structure OpenPlaytest (t : PlaytestTables) (m : MapRow) (code : String) (pm : PlaytestRow)
    (threadId : Nat) : Prop where
  mem_maps : m ∈ t.maps.rows
  code_eq : m.code = some code
  status : m.playtesting = .inProgress
  mem_metas : pm ∈ t.metas.rows
  mapId_eq : pm.mapId = m.id
  opened : pm.completed = false
  thread : pm.threadId = some threadId
  only : ∀ pm' ∈ t.metas.rows, pm'.mapId = m.id → pm'.completed = false → pm' = pm

/-- The votes shown are those of the open thread, and the difficulty is that of the open
playtest. -/
structure Isolated (t : PlaytestTables) (textLe : String → String → Bool) (m : MapRow)
    (code : String) (pm : PlaytestRow) (threadId : Nat) : Prop where
  object : ∀ shown ∈ t.playtestColumn m, ∃ playtest, shown = some playtest ∧
    playtest.threadId = threadId ∧
    playtest.voteAverage = t.getAverageDifficulty threadId ∧
    playtest.voteCount = (t.fetchPlaytestVotes threadId).length ∧
    playtest.voters = arrayAggDistinct ((t.fetchPlaytestVotes threadId).map (·.userId))
  difficulty : ∀ row ∈ t.fetchPartialMap textLe code, ∃ found, row = some found ∧
    convertRawDifficultyToDifficultyAll pm.initialDifficulty = some found.difficulty

/-- A completed playtest of the map has no votes, and the same initial difficulty. -/
def EarlierForgotten (t : PlaytestTables) (m : MapRow) (pm : PlaytestRow) : Prop :=
  ∀ pm' ∈ t.metas.rows, pm'.mapId = m.id → pm'.completed = true →
    (∀ v ∈ t.votes, pm'.threadId ≠ some v.threadId) ∧
      convertRawDifficultyToDifficultyAll pm'.initialDifficulty =
        convertRawDifficultyToDifficultyAll pm.initialDifficulty

section Reads

variable {t : PlaytestTables} {textLe : String → String → Bool} {m : MapRow} {code : String}
  {pm : PlaytestRow} {threadId : Nat} {v : VoteRow}

/-! ## The votes -/

/-- Every vote finds its map and its user. -/
theorem exists_voteWithUser (hv : v ∈ t.votes) :
    ∃ vote, t.voteWithUser v = some vote ∧ vote.userId = v.userId := by
  obtain ⟨m, hm⟩ := Option.isSome_iff_exists.mp (t.mapOfVote v hv)
  obtain ⟨names, hnames⟩ := Option.isSome_iff_exists.mp (t.userOfVote v hv)
  rw [voteWithUser, hm, hnames]
  exact ⟨_, rfl, rfl⟩

/-- The voters listed. -/
theorem map_userId_fetchPlaytestVotes (t : PlaytestTables) (threadId : Nat) :
    (t.fetchPlaytestVotes threadId).map (·.userId) = (t.threadVotes threadId).map (·.userId) := by
  rw [fetchPlaytestVotes, List.map_filterMap, ← List.filterMap_eq_map]
  apply List.filterMap_congr
  intro v hv
  obtain ⟨vote, hvote, huser⟩ := exists_voteWithUser (List.mem_of_mem_filter hv)
  rw [hvote, Option.map_some, huser]
  rfl

theorem length_fetchPlaytestVotes (t : PlaytestTables) (threadId : Nat) :
    (t.fetchPlaytestVotes threadId).length = (t.threadVotes threadId).length := by
  have h := congrArg List.length (map_userId_fetchPlaytestVotes t threadId)
  rw [List.length_map, List.length_map] at h
  exact h

/-- A vote is on the map of its thread's playtest. -/
theorem mapId_of_vote (hv : v ∈ t.votes) (hpm : pm ∈ t.metas.rows)
    (hthread : pm.threadId = some v.threadId) : v.mapId = pm.mapId := by
  obtain ⟨pm', hpm', hthread', hmap⟩ := t.metaOfVote v hv
  rw [← hmap, t.threads pm hpm pm' hpm' (by rw [hthread]; exact Option.some_ne_none _)
    (hthread.trans hthread'.symm)]

variable (h : OpenPlaytest t m code pm threadId)

include h

/-- The votes of the open thread are on its map. -/
theorem OpenPlaytest.mapId_of_thread (hv : v ∈ t.votes) (hthread : v.threadId = threadId) :
    v.mapId = m.id := by
  rw [mapId_of_vote hv h.mem_metas (by rw [h.thread, hthread]), h.mapId_eq]

/-- The search counts as many votes as are listed if no other thread of the map has any. -/
theorem OpenPlaytest.length_mapVotes_iff :
    (t.mapVotes m.id).length = (t.threadVotes threadId).length ↔
      ∀ v ∈ t.votes, v.mapId = m.id → v.threadId = threadId := by
  have hsub : ∀ v ∈ t.votes, decide (v.threadId = threadId) = true →
      decide (v.mapId = m.id) = true := by
    intro v hv hthread
    exact decide_eq_true (h.mapId_of_thread hv (of_decide_eq_true hthread))
  have hiff := countP_eq_countP_iff hsub
  rw [List.countP_eq_length_filter, List.countP_eq_length_filter] at hiff
  rw [eq_comm]
  refine hiff.trans ?_
  simp only [decide_eq_true_eq]

theorem OpenPlaytest.mapVotes_eq (hall : ∀ v ∈ t.votes, v.mapId = m.id → v.threadId = threadId) :
    t.mapVotes m.id = t.threadVotes threadId := by
  apply List.filter_congr
  intro v hv
  exact decide_eq_decide.mpr ⟨hall v hv, h.mapId_of_thread hv⟩

/-! ## The playtest shown -/

theorem OpenPlaytest.mem_openMetas {pm' : PlaytestRow} : pm' ∈ t.openMetas m.id ↔ pm' = pm := by
  rw [openMetas, List.mem_filter, Bool.and_eq_true, decide_eq_true_eq, Bool.not_eq_true']
  constructor
  · rintro ⟨hmem, hmap, hopen⟩
    exact h.only pm' hmem hmap hopen
  · rintro rfl
    exact ⟨h.mem_metas, h.mapId_eq, h.opened⟩

theorem OpenPlaytest.mem_playtestColumn {shown : Option PlaytestObject} :
    shown ∈ t.playtestColumn m ↔ shown = t.playtestObject m pm := by
  have hne : t.openMetas m.id ≠ [] := List.ne_nil_of_mem (h.mem_openMetas.mpr rfl)
  have hnewest : ∀ pm', pm' ∈ t.newestMetas m.id ↔ pm' = pm := by
    intro pm'
    rw [newestMetas, List.mem_filter, h.mem_openMetas, and_iff_left_iff_imp]
    intro heq
    rw [List.all_eq_true]
    intro other hother
    rw [heq, h.mem_openMetas.mp hother]
    cases pm.createdAt with
    | none => rfl
    | some created => exact decide_eq_true le_rfl
  rw [playtestColumn, if_neg hne, List.mem_map]
  simp only [hnewest, exists_eq_left]
  exact eq_comm

/-! ## The partial map -/

theorem OpenPlaytest.mem_fetchPartialMap {row : Option PartialMap} :
    row ∈ t.fetchPartialMap textLe code ↔
      ∃ pm' ∈ t.metas.rows, pm'.mapId = m.id ∧
        row = t.partialMap textLe m (some pm'.initialDifficulty) := by
  have hfind : (t.maps.rows.find? fun m ↦ m.code = some code) = some m := by
    have hsome : (t.maps.rows.find? fun m ↦ m.code = some code).isSome :=
      List.find?_isSome.mpr ⟨m, h.mem_maps, decide_eq_true h.code_eq⟩
    obtain ⟨m', hm'⟩ := Option.isSome_iff_exists.mp hsome
    have hcode : m'.code = some code := by simpa using List.find?_some hm'
    rw [hm', t.codes m' (List.mem_of_find?_eq_some hm') m h.mem_maps
      (by rw [hcode]; exact Option.some_ne_none code) (hcode.trans h.code_eq.symm)]
  have hne : (t.metas.rows.filter fun pm ↦ pm.mapId = m.id) ≠ [] :=
    List.ne_nil_of_mem (List.mem_filter.mpr ⟨h.mem_metas, decide_eq_true h.mapId_eq⟩)
  rw [fetchPartialMap, hfind]
  simp only [initialDifficulties, if_neg hne, List.mem_map, mem_distinctOn_id, List.mem_filter,
    decide_eq_true_eq]
  constructor
  · rintro ⟨group, ⟨pm', ⟨hmem, hmap⟩, rfl⟩, rfl⟩
    exact ⟨pm', hmem, hmap, rfl⟩
  · rintro ⟨pm', hmem, hmap, rfl⟩
    exact ⟨_, ⟨pm', ⟨hmem, hmap⟩, rfl⟩, rfl⟩

omit h in
/-- A stored difficulty has a label. -/
theorem exists_label (hpm : pm ∈ t.metas.rows) :
    ∃ label, convertRawDifficultyToDifficultyAll pm.initialDifficulty = some label := by
  obtain ⟨hzero, hten⟩ := t.initialRange pm hpm
  rw [convertRawDifficultyToDifficultyAll_eq]
  exact exists_difficultyFromRaw hzero hten

omit h in
theorem partialMap_difficulty_iff {label : DifficultyAll} {raw : Rat} :
    (∃ found, t.partialMap textLe m (some raw) = some found ∧ some label = some found.difficulty) ↔
      convertRawDifficultyToDifficultyAll raw = some label := by
  rw [partialMap, Option.bind_some]
  cases convertRawDifficultyToDifficultyAll raw with
  | none => simp
  | some found => simp [eq_comm]

/-- Whatever the database picks: the open playtest is shown alone exactly when the completed ones
of the map have no votes and the same initial difficulty. -/
theorem isolated_iff : Isolated t textLe m code pm threadId ↔ EarlierForgotten t m pm := by
  obtain ⟨label, hlabel⟩ := exists_label h.mem_metas
  constructor
  · intro hisolated pm' hpm' hmap hcompleted
    constructor
    · intro v hv hthread
      have hobject := hisolated.object _ (h.mem_playtestColumn.mpr rfl)
      rw [playtestObject, if_pos h.status, h.thread, Option.map_some] at hobject
      obtain ⟨playtest, hshown, -, -, hcount, -⟩ := hobject
      obtain rfl := Option.some.inj hshown
      rw [length_fetchPlaytestVotes] at hcount
      have hvote : v.threadId = threadId :=
        h.length_mapVotes_iff.mp hcount v hv ((mapId_of_vote hv hpm' hthread).trans hmap)
      have heq : pm' = pm :=
        t.threads pm' hpm' pm h.mem_metas (by rw [hthread]; exact Option.some_ne_none _)
          (by rw [hthread, h.thread, hvote])
      rw [heq, h.opened] at hcompleted
      cases hcompleted
    · have hrow := hisolated.difficulty _ (h.mem_fetchPartialMap.mpr ⟨pm', hpm', hmap, rfl⟩)
      rw [hlabel] at hrow
      rw [partialMap_difficulty_iff.mp hrow, hlabel]
  · intro hforgotten
    have hall : ∀ v ∈ t.votes, v.mapId = m.id → v.threadId = threadId := by
      intro v hv hmap
      obtain ⟨pm', hpm', hthread, hmap'⟩ := t.metaOfVote v hv
      have hopen : pm'.completed = false := by
        rw [← Bool.not_eq_true]
        intro hcompleted
        exact (hforgotten pm' hpm' (hmap'.trans hmap) hcompleted).1 v hv hthread
      rw [h.only pm' hpm' (hmap'.trans hmap) hopen, h.thread, Option.some.injEq] at hthread
      exact hthread.symm
    constructor
    · intro shown hshown
      rw [h.mem_playtestColumn.mp hshown, playtestObject, if_pos h.status, h.thread,
        Option.map_some, h.mapVotes_eq hall, length_fetchPlaytestVotes,
        map_userId_fetchPlaytestVotes]
      exact ⟨_, rfl, rfl, rfl, rfl, rfl⟩
    · intro row hrow
      obtain ⟨pm', hpm', hmap, rfl⟩ := h.mem_fetchPartialMap.mp hrow
      rw [hlabel, partialMap_difficulty_iff]
      cases hcompleted : pm'.completed with
      | false => rw [h.only pm' hpm' hmap hcompleted, hlabel]
      | true => rw [(hforgotten pm' hpm' hmap hcompleted).2, hlabel]

end Reads

/-! ## A second playtest -/

/-- A map that was sent to playtest again. -/
def sentBackMap : MapRow :=
  { id := 1, code := some "AAAA", difficulty := .hard, rawDifficulty := 5
    playtesting := .inProgress }

def firstMeta : PlaytestRow :=
  { id := 1, threadId := some 7, mapId := 1, initialDifficulty := 5, completed := true }

def secondMeta : PlaytestRow :=
  { id := 2, threadId := some 8, mapId := 1, initialDifficulty := 89 / 100, createdAt := some 1 }

/-- The vote is on its first playtest. -/
def sentBack : PlaytestTables where
  maps := Table.empty.insert fun id ↦ { sentBackMap with id }
  metas := (Table.empty.insert fun id ↦ { firstMeta with id }).insert fun id ↦ { secondMeta with id }
  votes := [⟨⟨2, 7, 4⟩, 1⟩]
  creators := []
  users _ := some {}
  codes := by decide +kernel
  threads := by decide +kernel
  metaOfVote := by decide +kernel
  mapOfVote := by decide +kernel
  userOfVote _ _ := rfl
  voteRange := by decide +kernel
  initialRange := by decide +kernel

/-- It is counted in the second. -/
theorem sentBack_not_isolated :
    ¬ Isolated sentBack (fun a b ↦ decide (a ≤ b)) sentBackMap "AAAA" secondMeta 8 := by
  intro h
  have hshown : some ⟨8, 89 / 100, none, false, some 4, 1, some [2]⟩ ∈
      sentBack.playtestColumn sentBackMap := by
    decide +kernel
  have hlisted : (sentBack.fetchPlaytestVotes 8).length = 0 := by decide +kernel
  obtain ⟨playtest, hplaytest, -, -, hcount, -⟩ := h.object _ hshown
  rw [← Option.some.inj hplaytest, hlisted] at hcount
  cases hcount

/-- The rule at that map. -/
theorem sentBack_isolated_iff :
    Isolated sentBack (fun a b ↦ decide (a ≤ b)) sentBackMap "AAAA" secondMeta 8 ↔
      EarlierForgotten sentBack sentBackMap secondMeta := by
  refine isolated_iff ⟨?_, rfl, rfl, ?_, rfl, rfl, rfl, ?_⟩
  · exact List.mem_singleton.mpr rfl
  · decide +kernel
  · decide +kernel

end Genjishimada.Maps
