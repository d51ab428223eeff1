import Genjishimada.Maps.Rows
import Genjishimada.Repository.SharedQueries

/-!
# The legacy conversion

Before a map is converted to legacy a guard looks for runs that wait for their
verification.  It asks for `verified_by IS NOT NULL`, which a run has once it is rejected,
while one in the queue has none.  The conversion then deletes the thresholds of the map and
marks its runs as legacy, and stores no medal with them.
-/

namespace Genjishimada.Maps

open Library Sdk Repository Services

variable {d d' : PlaytestDb} {m : CoreMap} {code : String} {difficulty : DifficultyAll}

/-! ## The guard -/

/-- The runs of a map. -/
def runsOf (d : PlaytestDb) (m : CoreMap) : List CoreCompletion :=
  d.db.coreCompletions.select fun c ↦ c.mapId = m.id

def HasPending (d : PlaytestDb) (m : CoreMap) : Prop := ∃ c ∈ runsOf d m, c.pending = true

def HasRejected (d : PlaytestDb) (m : CoreMap) : Prop := ∃ c ∈ runsOf d m, c.rejected = true

/-- The error of the guard. -/
def pendingError : MapError :=
  .mapValidation "Pending verifications exist for this map code." "code"

/-- What the guard is for. -/
structure GuardsPending (d : PlaytestDb) (m : CoreMap) (code : String) (difficulty : DifficultyAll) :
    Prop where
  convert : convertToLegacy code d = .error pendingError ↔ HasPending d m
  send : sendToPlaytest (some code) difficulty d = .error pendingError ↔ HasPending d m
  unchanged : HasPending d m → after d (convertToLegacy code d) = d ∧
    after d (sendToPlaytest (some code) difficulty d) = d
  queued : ∀ d',
    convertToLegacy code d = .ok d' ∨ sendToPlaytest (some code) difficulty d = .ok d' → ∀ c ∈ runsOf d m, c.pending = true → d'.db.coreCompletions.get? c.id = some c
  decided : ¬ HasPending d m → ∃ d', convertToLegacy code d = .ok d'

/-- The conversion, once it is past the guard. -/
def converted (d : PlaytestDb) (code : String) : PlaytestDb :=
  (d.removeMapMedalEntries code).convertCompletionsToLegacy code

section Conversion

variable (h : MapsInv d) (hm : m ∈ d.db.maps.rows) (hc : m.code = some code)

include h hm hc

theorem lookupMapId_of_mem : d.lookupMapId (some code) = some m.id := by
  rw [PlaytestDb.lookupMapId, h.mapOfCode hm hc]
  rfl

/-- The guard looks for rejected runs. -/
theorem checkPendingVerifications_iff :
    d.checkPendingVerifications code = true ↔ HasRejected d m := by
  have hmap : ∀ c : CoreCompletion,
      (d.db.maps.get? c.mapId).any (fun m ↦ m.code = some code) = true ↔ c.mapId = m.id := by
    intro c
    rw [Option.any_eq_true]
    constructor
    · rintro ⟨m', hm', hcode⟩
      have hcode' := of_decide_eq_true hcode
      rw [← Table.key_of_get? hm', h.codes m' (Table.mem_of_get? hm') m hm (by simp [hcode'])
        (hcode'.trans hc.symm)]
      rfl
    · intro hid
      refine ⟨m, ?_, decide_eq_true hc⟩
      rw [hid]
      exact Table.get?_of_mem hm
  rw [PlaytestDb.checkPendingVerifications, List.any_eq_true]
  apply exists_congr
  intro c
  simp only [Bool.and_eq_true, hmap, runsOf, Table.mem_select, decide_eq_true_eq, and_assoc]

theorem convertToLegacy_eq : convertToLegacy code d = convertToLegacyInternal code d := by
  rw [convertToLegacy, lookupMapId_of_mem h hm hc]
  rfl

theorem convertToLegacyInternal_of_rejected (hrejected : HasRejected d m) :
    convertToLegacyInternal code d = .error pendingError := by
  rw [convertToLegacyInternal, if_pos ((checkPendingVerifications_iff h hm hc).mpr hrejected)]
  rfl

theorem convertToLegacyInternal_of_not (hrejected : ¬ HasRejected d m) :
    convertToLegacyInternal code d = .ok (converted d code) := by
  rw [convertToLegacyInternal,
    if_neg (fun hcheck ↦ hrejected ((checkPendingVerifications_iff h hm hc).mp hcheck))]
  rfl

theorem convert_eq_error_iff : convertToLegacy code d = .error pendingError ↔ HasRejected d m := by
  rw [convertToLegacy_eq h hm hc]
  by_cases hrejected : HasRejected d m
  · exact iff_of_true (convertToLegacyInternal_of_rejected h hm hc hrejected) hrejected
  · rw [convertToLegacyInternal_of_not h hm hc hrejected]
    exact iff_of_false (by simp) hrejected

/-- A map that is in progress is refused before the guard. -/
theorem send_eq_error_iff : sendToPlaytest (some code) difficulty d = .error pendingError ↔
    m.playtesting ≠ .inProgress ∧ HasRejected d m := by
  simp only [sendToPlaytest, h.mapOfCode hm hc]
  by_cases hprogress : m.playtesting = .inProgress
  · rw [if_pos hprogress]
    exact iff_of_false (by simp [pendingError]) (fun hand ↦ hand.1 hprogress)
  · rw [if_neg hprogress]
    by_cases hrejected : HasRejected d m
    · rw [convertToLegacyInternal_of_rejected h hm hc hrejected]
      exact iff_of_true rfl ⟨hprogress, hrejected⟩
    · rw [convertToLegacyInternal_of_not h hm hc hrejected]
      refine iff_of_false ?_ (fun hand ↦ hrejected hand.2)
      intro heq
      cases heq

end Conversion

/-- The guard does what it is for exactly when the map has a rejected run if and only if it has
a pending one, and has none if it is in progress. -/
theorem guardsPending_iff (h : MapsInv d) (hm : m ∈ d.db.maps.rows) (hc : m.code = some code) :
    GuardsPending d m code difficulty ↔
      (HasPending d m ↔ HasRejected d m) ∧ (m.playtesting = .inProgress → ¬ HasPending d m) := by
  constructor
  · intro hguard
    have hsame : HasPending d m ↔ HasRejected d m := by
      rw [← hguard.convert, convert_eq_error_iff h hm hc]
    refine ⟨hsame, fun hprogress hpending ↦ ?_⟩
    exact ((send_eq_error_iff h hm hc).mp (hguard.send.mpr hpending)).1 hprogress
  · rintro ⟨hsame, hprogress⟩
    have hconvert : convertToLegacy code d = .error pendingError ↔ HasPending d m := by
      rw [convert_eq_error_iff h hm hc, hsame]
    have hsend : sendToPlaytest (some code) difficulty d = .error pendingError ↔ HasPending d m := by
      rw [send_eq_error_iff h hm hc, ← hsame]
      exact and_iff_right_of_imp fun hpending hin ↦ hprogress hin hpending
    refine ⟨hconvert, hsend, fun hpending ↦ ?_, fun d' hok c hrun hpending ↦ ?_, fun hnone ↦ ?_⟩
    · rw [hconvert.mpr hpending, hsend.mpr hpending]
      exact ⟨rfl, rfl⟩
    · have hpending : HasPending d m := ⟨c, hrun, hpending⟩
      rw [hconvert.mpr hpending, hsend.mpr hpending] at hok
      rcases hok with hok | hok <;> cases hok
    · refine ⟨converted d code, ?_⟩
      rw [convertToLegacy_eq h hm hc]
      exact convertToLegacyInternal_of_not h hm hc (fun hrejected ↦ hnone (hsame.mpr hrejected))

theorem mapsInv_of_single (hmaps : d.db.maps.rows = [m]) (hmetas : d.metas = .empty) :
    MapsInv d := by
  refine ⟨fun m hm m' hm' _ _ ↦ ?_, ?_, ?_⟩
  · rw [hmaps, List.mem_singleton] at hm hm'
    rw [hm, hm']
  · rw [hmetas]
    intro pm hpm
    cases hpm
  · rw [hmetas]
    intro pm hpm
    cases hpm

/-- A map with one run, which is in the queue. -/
def queuedMap : CoreMap := { id := 1, code := some "AAAA", difficulty := .easy }

def queuedDb : PlaytestDb where
  db :=
    { maps := Table.empty.insert fun id ↦ { queuedMap with id }
      coreCompletions := Table.empty.insert fun id ↦
        { id, mapId := 1, userId := 5, time := 1000, screenshot := "", video := none
          completion := true, insertedAt := 0 } }

/-- The conversion goes through and the run becomes a legacy run. -/
theorem queuedDb_not_guarded : ¬ GuardsPending queuedDb queuedMap "AAAA" .easy := by
  intro hguard
  have hpending : HasPending queuedDb queuedMap := ⟨_, List.mem_singleton_self _, rfl⟩
  have hraise := hguard.convert.mpr hpending
  rw [show convertToLegacy "AAAA" queuedDb = .ok (converted queuedDb "AAAA") from rfl] at hraise
  cases hraise

/-- The rule at that map. -/
theorem queuedDb_guarded_iff :
    GuardsPending queuedDb queuedMap "AAAA" .easy ↔
      (HasPending queuedDb queuedMap ↔ HasRejected queuedDb queuedMap) ∧
        (queuedMap.playtesting = .inProgress → ¬ HasPending queuedDb queuedMap) :=
  guardsPending_iff (mapsInv_of_single rfl rfl) (List.mem_singleton_self _) rfl

/-! ## The medals -/

/-- What `convert_completions_to_legacy` does to a run. -/
def toLegacy (mapId : Nat) (c : CoreCompletion) : CoreCompletion :=
  if c.mapId = mapId && !c.legacy then { c with legacy := true } else c

theorem toLegacy_frame (mapId : Nat) (c : CoreCompletion) :
    (toLegacy mapId c).id = c.id ∧ (toLegacy mapId c).mapId = c.mapId ∧
      (toLegacy mapId c).userId = c.userId ∧ (toLegacy mapId c).insertedAt = c.insertedAt ∧
      (toLegacy mapId c).verified = c.verified ∧ (toLegacy mapId c).video = c.video ∧
      (toLegacy mapId c).time = c.time := by
  rw [toLegacy]
  split <;> exact ⟨rfl, rfl, rfl, rfl, rfl, rfl, rfl⟩

/-- The medal columns of a row. -/
def medalCounts (r : RankDetailResponse) : DifficultyTop × Nat × Nat × Nat :=
  (r.difficulty, r.gold, r.silver, r.bronze)

/-- The conversion changes no medal count of any user. -/
def MedalsPreserved (d : PlaytestDb) (code : String) : Prop :=
  ∀ userId official,
    (getUserRankData userId official false (after d (convertToLegacy code d))).map medalCounts =
      (getUserRankData userId official false d).map medalCounts

/-- A user's last verified run on the map, if it has a video, has no medal from the thresholds
that is not stored with it. -/
def MedalsStored (d : PlaytestDb) (m : CoreMap) : Prop :=
  ∀ c ∈ allCompletions d.db, c.mapId = m.id → c.video.isSome = true → ∀ medal,
    thresholdMet (d.db.medals.get? m.id) c.time medal = true →
      d.legacyMedal c.id = some (medalText medal)

/-- The medal of a difficulty is counted on these rows. -/
def medalCount (d : PlaytestDb) (userId : Nat) (official : Bool) (medal : Medal)
    (difficulty : DifficultyTop) : Nat :=
  (d.rankRuns userId official false).countP fun r ↦
    r.2.difficulty.base = difficulty && d.hasMedal r.1 medal

/-- Two states show the same medals if they count the same ones. -/
theorem medalCounts_eq_iff {userId : Nat} {official : Bool} :
    (getUserRankData userId official false d').map medalCounts =
        (getUserRankData userId official false d).map medalCounts ↔
      ∀ medal difficulty, medalCount d' userId official medal difficulty =
        medalCount d userId official medal difficulty := by
  rw [getUserRankData, getUserRankData, List.map_map, List.map_map, List.map_inj_left]
  constructor
  · intro h medal difficulty
    have hall : difficulty ∈ [DifficultyTop.easy, .medium, .hard, .veryHard, .extreme, .hell] := by
      cases difficulty <;> simp
    have hrow := h difficulty hall
    simp only [Function.comp_apply, medalCounts, PlaytestDb.rankDetail, Prod.mk.injEq] at hrow
    obtain ⟨_, hgold, hsilver, hbronze⟩ := hrow
    cases medal with
    | gold => exact hgold
    | silver => exact hsilver
    | bronze => exact hbronze
  · intro h difficulty _
    simp only [Function.comp_apply, medalCounts, PlaytestDb.rankDetail, Prod.mk.injEq, true_and]
    exact ⟨h .gold difficulty, h .silver difficulty, h .bronze difficulty⟩

section Medals

variable (h : MapsInv d) (hm : m ∈ d.db.maps.rows) (hc : m.code = some code)

include h hm hc

/-- The last verified runs are the same ones, as legacy runs. -/
theorem allCompletions_converted :
    allCompletions (converted d code).db = (allCompletions d.db).map (toLegacy m.id) := by
  have hrows : (converted d code).db.coreCompletions.rows =
      d.db.coreCompletions.rows.map (toLegacy m.id) := by
    have hlookup : (d.removeMapMedalEntries code).lookupMapId (some code) = some m.id := by
      show d.lookupMapId (some code) = some m.id
      exact lookupMapId_of_mem h hm hc
    refine List.map_congr_left fun c _ ↦ ?_
    rw [hlookup, toLegacy]
    simp only [Option.some.injEq]
  have hselect : (converted d code).db.coreCompletions.select CoreCompletion.verified =
      (d.db.coreCompletions.select CoreCompletion.verified).map (toLegacy m.id) := by
    rw [Table.select, hrows, List.filter_map, Table.select]
    congr 1
    apply List.filter_congr
    intro c _
    exact (toLegacy_frame m.id c).2.2.2.2.1
  rw [allCompletions, latestRecords, hselect, orderBy_map, distinctOn_map]
  · rfl
  · intro c
    obtain ⟨_, hmap, huser, _⟩ := toLegacy_frame m.id c
    rw [hmap, huser]
  · intro c
    obtain ⟨_, hmap, huser, hinserted, _⟩ := toLegacy_frame m.id c
    rw [hmap, huser, hinserted]

theorem rankRuns_converted (userId : Nat) (official playableOnly : Bool) :
    (converted d code).rankRuns userId official playableOnly =
      (d.rankRuns userId official playableOnly).map fun r ↦ (toLegacy m.id r.1, r.2) := by
  rw [PlaytestDb.rankRuns, PlaytestDb.rankRuns, allCompletions_converted h hm hc, recordMaps,
    recordMaps, List.filterMap_map, List.filter_filterMap, List.filter_filterMap, List.map_filterMap]
  apply List.filterMap_congr
  intro c _
  obtain ⟨_, hmap, huser, _⟩ := toLegacy_frame m.id c
  show Option.filter _ (Option.map _ (Option.filter _ (d.db.maps.get? (toLegacy m.id c).mapId))) = _
  rw [hmap]
  cases (d.db.maps.get? c.mapId).filter (rankKeeps official playableOnly) with
  | none => rfl
  | some m' =>
      simp only [Option.map_some, huser, Option.filter_some]
      split <;> rfl

/-- A run of the map keeps the medal that is stored with it, and any other run its medal. -/
theorem hasMedal_converted (c : CoreCompletion) (medal : Medal) :
    (converted d code).hasMedal (toLegacy m.id c) medal =
      if c.mapId = m.id then c.video.isSome && d.legacyMedal c.id = some (medalText medal)
      else d.hasMedal c medal := by
  obtain ⟨hid, hmap, _, _, _, hvideo, htime⟩ := toLegacy_frame m.id c
  have hmedals : (converted d code).db.medals.get? c.mapId =
      if c.mapId = m.id then none else d.db.medals.get? c.mapId := by
    show (d.db.medals.delete fun md ↦ some md.mapId = d.lookupMapId (some code)).get? c.mapId = _
    rw [Table.get?_delete, lookupMapId_of_mem h hm hc]
    cases hmd : d.db.medals.get? c.mapId with
    | none => simp
    | some md =>
        have hkey : md.mapId = c.mapId := Table.key_of_get? hmd
        simp [Option.filter_some, hkey]
  have hlegacy : (converted d code).legacyMedal c.id = d.legacyMedal c.id := rfl
  rw [PlaytestDb.hasMedal, hid, hmap, hvideo, htime, hmedals, hlegacy]
  split
  · cases medal <;> simp [thresholdMet]
  · rfl

/-- What the converted database counts, over the runs as they were. -/
theorem medalCount_converted (userId : Nat) (official : Bool) (medal : Medal)
    (difficulty : DifficultyTop) :
    medalCount (converted d code) userId official medal difficulty =
      (d.rankRuns userId official false).countP fun r ↦ r.2.difficulty.base = difficulty &&
        if r.1.mapId = m.id then r.1.video.isSome && d.legacyMedal r.1.id = some (medalText medal)
        else d.hasMedal r.1 medal := by
  rw [medalCount, rankRuns_converted h hm hc, List.countP_map]
  apply List.countP_congr
  intro r _
  simp only [Function.comp_apply, hasMedal_converted h hm hc]

end Medals

/-- The conversion keeps every user's medals exactly when it is refused, or when no medal is
computed that is not also stored. -/
theorem medalsPreserved_iff (h : MapsInv d) (hm : m ∈ d.db.maps.rows) (hc : m.code = some code) :
    MedalsPreserved d code ↔ HasRejected d m ∨ MedalsStored d m := by
  by_cases hrejected : HasRejected d m
  · refine iff_of_true (fun userId official ↦ ?_) (.inl hrejected)
    rw [(convert_eq_error_iff h hm hc).mpr hrejected]
    rfl
  · have hconverted : after d (convertToLegacy code d) = converted d code := by
      rw [convertToLegacy_eq h hm hc, convertToLegacyInternal_of_not h hm hc hrejected]
      rfl
    rw [or_iff_right hrejected]
    simp only [MedalsPreserved, hconverted, medalCounts_eq_iff, medalCount_converted h hm hc]
    -- a run that has a medal after the conversion had it before
    have hkeep : ∀ (r : CoreCompletion × CoreMap) (medal : Medal) (difficulty : DifficultyTop),
        (r.2.difficulty.base = difficulty && if r.1.mapId = m.id then
          r.1.video.isSome && d.legacyMedal r.1.id = some (medalText medal)
          else d.hasMedal r.1 medal) = true →
        (r.2.difficulty.base = difficulty && d.hasMedal r.1 medal) = true := by
      intro r medal difficulty hafter
      rw [Bool.and_eq_true] at hafter ⊢
      refine ⟨hafter.1, ?_⟩
      have hmedal := hafter.2
      split at hmedal
      · rw [Bool.and_eq_true] at hmedal
        simp [PlaytestDb.hasMedal, hmedal.1, of_decide_eq_true hmedal.2]
      · exact hmedal
    constructor
    · intro hsame c hrun hid hvideo medal hmet
      have hrow : (c, m) ∈ d.rankRuns c.userId m.official false := by
        refine List.mem_filter.mpr ⟨mem_recordMaps.mpr ⟨hrun, ?_, ?_⟩, decide_eq_true rfl⟩
        · rw [hid]
          exact Table.get?_of_mem hm
        · simp [rankKeeps]
      have hcount := hsame c.userId m.official medal m.difficulty.base
      rw [medalCount, countP_eq_countP_iff fun r _ ↦ hkeep r medal _] at hcount
      have hafter := hcount (c, m) hrow (by simp [PlaytestDb.hasMedal, hvideo, hid, hmet])
      simpa [hid, hvideo] using hafter
    · intro hstored userId official medal difficulty
      rw [medalCount, countP_eq_countP_iff fun r _ ↦ hkeep r medal difficulty]
      intro r hrow hbefore
      obtain ⟨hrun, _⟩ := mem_recordMaps.mp (List.mem_filter.mp hrow).1
      rw [Bool.and_eq_true] at hbefore ⊢
      refine ⟨hbefore.1, ?_⟩
      have hmedal := hbefore.2
      split
      · rename_i hid
        rw [PlaytestDb.hasMedal, Bool.and_eq_true, Bool.or_eq_true, hid] at hmedal
        rw [Bool.and_eq_true, decide_eq_true_eq]
        refine ⟨hmedal.1, ?_⟩
        rcases hmedal.2 with hmet | hlegacy
        · exact hstored r.1 hrun hid hmedal.1 medal hmet
        · exact of_decide_eq_true hlegacy
      · exact hmedal

/-- The map with a verified run that beats its gold medal. -/
def goldDb : PlaytestDb :=
  let verified : PlaytestDb :=
    { db :=
        { maps := Table.empty.insert fun id ↦ { queuedMap with id }
          coreCompletions := Table.empty.insert fun id ↦
            { id, mapId := 1, userId := 5, time := 900, screenshot := "", video := some "v"
              verified := true, verifiedBy := some 6, completion := false, insertedAt := 0 } } }
  verified.replaceMedals 1 (some ⟨1000, 1500, 2000⟩)

/-- The gold medal is gone after the conversion. -/
theorem goldDb_not_preserved : ¬ MedalsPreserved goldDb "AAAA" := by
  intro hpreserved
  have hsame := congrArg (fun l ↦ (l.map fun r ↦ r.2.1)) (hpreserved 5 true)
  revert hsame
  decide +kernel

/-- The rule at that map. -/
theorem goldDb_preserved_iff :
    MedalsPreserved goldDb "AAAA" ↔
      HasRejected goldDb queuedMap ∨ MedalsStored goldDb queuedMap :=
  medalsPreserved_iff (mapsInv_of_single rfl rfl) (List.mem_singleton_self _) rfl

end Genjishimada.Maps
