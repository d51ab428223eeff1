import Genjishimada.Services.Skill
import Mathlib.Tactic.Ring
import Mathlib.Algebra.Field.Rat

/-!
# Flagged runs in the skill inputs

`fetch_skill_inputs` drops the rows of flagged runs after the query has ranked them, so
a flagged run still counts in the field of its map and among its videos.  Taking it
away puts the user's next run in its place, if there is one; the other users see no
difference exactly when nothing they are compared by tells the two runs apart.
-/

namespace Genjishimada.Skill

open Library Services Repository Sdk

variable {db : Db} {c b : CoreCompletion}

/-! ## What the scorer reads -/

/-- The columns of a skill input that `_map_score` reads. -/
structure ScoreInput where
  userId : Nat
  mapId : Nat
  rawDifficulty : Rat
  fullyVerified : Bool
  fieldSize : Nat
  timePct : Rat
  medal : Option Medal
  videoRank : Option Nat
deriving DecidableEq

def scoreInput (r : SkillInput) : ScoreInput where
  userId := r.userId
  mapId := r.mapId
  rawDifficulty := r.rawDifficulty
  fullyVerified := r.fullyVerified
  fieldSize := r.fieldSize
  timePct := r.timePct
  medal := r.medal
  videoRank := r.videoRank

/-- The score of a row depends on these columns only. -/
theorem mapScore_congr {K : Type} [DivisionRing K] [LinearOrder K] (pow : K → K → K) (w : Weights K)
    {r r' : SkillInput} (h : scoreInput r = scoreInput r') :
    mapScore pow r w = mapScore pow r' w := by
  obtain ⟨_, _, hraw, hverified, hsize, hpct, hmedal, hrank⟩ := ScoreInput.mk.inj h
  simp only [mapScore, hraw, hverified, hsize, hpct, hmedal, hrank]

/-- The database without one completion. -/
def without (db : Db) (c : CoreCompletion) : Db :=
  { db with coreCompletions := db.coreCompletions.delete fun r ↦ r.id = c.id }

/-- The scores of everyone but the user of `c` are computed from the same inputs with
and without `c`. -/
def ContributesNothing (db : Db) (c : CoreCompletion) : Prop :=
  ∀ s : ScoreInput, s.userId ≠ c.userId →
    (s ∈ (fetchSkillInputs db).map scoreInput ↔
      s ∈ (fetchSkillInputs (without db c)).map scoreInput)

/-- The run a user is ranked by on a map. -/
def rankedRun (db : Db) (userId mapId : Nat) : Option CoreCompletion :=
  (best db).find? fun b ↦ (b.userId, b.mapId) = (userId, mapId)

/-- How many of the runs ranked on a map have a property. -/
def fieldCount (db : Db) (mapId : Nat) (q : CoreCompletion → Bool) : Nat :=
  (best db).countP fun b ↦ b.mapId = mapId ∧ q b

/-- The percentile shown of a run faster than `slower` others in a field of `size`. -/
def shownPct (slower size : Nat) : Rat := round4 (slower / (size - 1 : Nat))

/-- `c` ranks before `b` among the runs with a video. -/
def BeatsOnVideo (c b : CoreCompletion) : Prop := c.completion = false ∧ c.time < b.time

instance (c b : CoreCompletion) : Decidable (BeatsOnVideo c b) :=
  inferInstanceAs (Decidable (_ ∧ _))

/-- The inputs of `b` do not tell whether `c` or the slower `c'` is in its field: `b` is
not between the two, or rounding hides it, and they are alike among the videos. -/
structure Alike (db : Db) (c c' b : CoreCompletion) : Prop where
  percentile : c.time ≤ b.time → b.time < c'.time →
    let slower := fieldCount db b.mapId fun r ↦ b.time < r.time
    let size := fieldCount db b.mapId fun _ ↦ true
    shownPct (slower + 1) size = shownPct slower size
  video : b.completion = false → (BeatsOnVideo c b ↔ BeatsOnVideo c' b)

/-- If a user is ranked by `c`, then for every unflagged run ranked with it the user has
another run that takes its place unnoticed. -/
def Replaceable (db : Db) (c : CoreCompletion) : Prop :=
  rankedRun db c.userId c.mapId = some c →
    ∀ b ∈ best db, b.userId ≠ c.userId → b.mapId = c.mapId → suspicious db b.id = false →
      ∃ c', rankedRun (without db c) c.userId c.mapId = some c' ∧ Alike db c c' b

/-! ## The rows of the query -/

/-- The eligible runs in the order `DISTINCT ON` reads them. -/
def sortedRuns (db : Db) : List CoreCompletion :=
  orderBy (fun c ↦ toLex (c.userId, toLex (c.mapId, c.time)))
    (db.coreCompletions.select (eligible db))

theorem best_eq (db : Db) : best db = distinctOn (fun c ↦ (c.userId, c.mapId)) (sortedRuns db) := rfl

theorem mem_sortedRuns : b ∈ sortedRuns db ↔ b ∈ db.coreCompletions.rows ∧ eligible db b = true := by
  rw [sortedRuns, mem_orderBy, Table.mem_select]

theorem mem_rows_of_mem_best (h : b ∈ best db) :
    b ∈ db.coreCompletions.rows ∧ eligible db b = true :=
  mem_sortedRuns.mp (mem_of_mem_distinctOn h)

/-- A user has one ranked run per map. -/
theorem eq_of_mem_best {b' : CoreCompletion} (h : b ∈ best db) (h' : b' ∈ best db)
    (hu : b.userId = b'.userId) (hm : b.mapId = b'.mapId) : b = b' := by
  have hnodup := nodup_map_distinctOn (fun c : CoreCompletion ↦ (c.userId, c.mapId)) (sortedRuns db)
  apply List.inj_on_of_nodup_map hnodup h h'
  rw [hu, hm]

/-- The map of a ranked run. -/
theorem exists_map_of_mem_best (h : b ∈ best db) : ∃ m, db.maps.get? b.mapId = some m := by
  have heligible := (mem_rows_of_mem_best h).2
  rw [eligible] at heligible
  cases hm : db.maps.get? b.mapId with
  | none => simp [hm] at heligible
  | some m => exact ⟨m, rfl⟩

/-- The rank of a ranked run among the videos of its map. -/
theorem videoRank_of_mem_best (h : b ∈ best db) :
    ((videoRanked db).find? fun vr ↦ vr.userId = b.userId ∧ vr.mapId = b.mapId).map
        VideoRankRow.videoRank =
      if b.completion then none
      else some (1 + fieldCount db b.mapId fun r ↦ !r.completion && r.time < b.time) := by
  rw [videoRanked, List.find?_map, Option.map_map]
  have hfind : ((best db).filter fun r ↦ !r.completion).find?
      ((fun vr : VideoRankRow ↦ decide (vr.userId = b.userId ∧ vr.mapId = b.mapId)) ∘ fun r ↦
        ⟨r.userId, r.mapId, rank CoreCompletion.time
          (onMap ((best db).filter fun b ↦ !b.completion) r.mapId) r⟩) =
      if b.completion then none else some b := by
    split
    · rename_i hvideo
      rw [List.find?_eq_none]
      intro r hr hrb
      obtain ⟨hr, hrvideo⟩ := List.mem_filter.mp hr
      obtain ⟨hu, hm⟩ : r.userId = b.userId ∧ r.mapId = b.mapId := by simpa using hrb
      rw [eq_of_mem_best hr h hu hm, hvideo] at hrvideo
      cases hrvideo
    · rename_i hvideo
      have hb : b ∈ (best db).filter fun r ↦ !r.completion := by
        rw [List.mem_filter]
        exact ⟨h, by simpa using hvideo⟩
      cases hr : ((best db).filter fun r ↦ !r.completion).find? _ with
      | none =>
          have := List.find?_eq_none.mp hr b hb
          simp at this
      | some r =>
          have hmem := List.mem_of_find?_eq_some hr
          obtain ⟨hu, hm⟩ : r.userId = b.userId ∧ r.mapId = b.mapId := by
            simpa using List.find?_some hr
          rw [eq_of_mem_best (List.mem_filter.mp hmem).1 h hu hm]
  rw [hfind]
  split
  · rfl
  · simp only [Option.map_some, Function.comp_apply, rank, onMap, List.countP_filter, fieldCount]
    congr 2
    apply List.countP_congr
    intro r _
    simp only [Bool.and_eq_true, decide_eq_true_eq, Bool.not_eq_true']
    tauto

/-- What the scorer reads of a ranked run. -/
def scoreInputOf (db : Db) (b : CoreCompletion) (m : CoreMap) : ScoreInput where
  userId := b.userId
  mapId := b.mapId
  rawDifficulty := m.rawDifficulty
  fullyVerified := !b.completion
  fieldSize := fieldCount db b.mapId fun _ ↦ true
  timePct := shownPct (fieldCount db b.mapId fun r ↦ b.time < r.time)
    (fieldCount db b.mapId fun _ ↦ true)
  medal := medalFor (db.medals.get? b.mapId) b.time
  videoRank :=
    if b.completion then none
    else some (1 + fieldCount db b.mapId fun r ↦ !r.completion && r.time < b.time)

/-- The scorer reads one row for each ranked run that is not flagged. -/
theorem mem_scoreInputs {s : ScoreInput} : s ∈ (fetchSkillInputs db).map scoreInput ↔
    ∃ b ∈ best db, ∃ m, db.maps.get? b.mapId = some m ∧ suspicious db b.id = false ∧
      s = scoreInputOf db b m := by
  have hrow (b : CoreCompletion) (hb : b ∈ best db) (m : CoreMap) :
      scoreInput (skillInput db
        { run := b
          fieldSize := (onMap (best db) b.mapId).length
          timePct := percentRank (fun c ↦ -c.time) (onMap (best db) b.mapId) b
          fieldRank := rank CoreCompletion.time (onMap (best db) b.mapId) b }
        (((videoRanked db).find? fun vr ↦ vr.userId = b.userId ∧ vr.mapId = b.mapId).map
          VideoRankRow.videoRank) m) = scoreInputOf db b m := by
    have hsize : (onMap (best db) b.mapId).length = fieldCount db b.mapId fun _ ↦ true := by
      rw [onMap, ← List.countP_eq_length_filter, fieldCount]
      simp
    have hslower : ((onMap (best db) b.mapId).countP fun r ↦ -r.time < -b.time) =
        fieldCount db b.mapId fun r ↦ b.time < r.time := by
      rw [onMap, List.countP_filter, fieldCount]
      apply List.countP_congr
      intro r _
      simp [and_comm]
    rw [videoRank_of_mem_best hb, percentRank, hslower, hsize]
    rfl
  simp only [List.mem_map, fetchSkillInputs, List.mem_filter, skillInputQuery, mem_orderBy,
    List.mem_filterMap, fully, field, List.mem_map, Option.map_eq_some_iff]
  constructor
  · rintro ⟨_, ⟨⟨f, ⟨_, ⟨b, hb, rfl⟩, rfl⟩, m, hm, rfl⟩, hflag⟩, rfl⟩
    refine ⟨b, hb, m, hm, by simpa [skillInput] using hflag, ?_⟩
    exact hrow b hb m
  · rintro ⟨b, hb, m, hm, hflag, rfl⟩
    exact ⟨_, ⟨⟨_, ⟨_, ⟨b, hb, rfl⟩, rfl⟩, m, hm, rfl⟩, by simpa [skillInput] using hflag⟩,
      hrow b hb m⟩

/-! ## Taking a run away -/

/-- The run is of another user or on another map than `c`. -/
def Elsewhere (c b : CoreCompletion) : Bool := !decide ((b.userId, b.mapId) = (c.userId, c.mapId))

theorem sortedRuns_without :
    sortedRuns (without db c) = (sortedRuns db).filter fun r ↦ !decide (r.id = c.id) := by
  rw [sortedRuns, sortedRuns, ← orderBy_filter]
  congr 1
  change List.filter (eligible db) (db.coreCompletions.rows.filter _) = _
  rw [List.filter_filter, Table.select, List.filter_filter]
  simp only [Bool.and_comm]

/-- A row with the id of `c` is `c`. -/
theorem eq_of_id_eq (hc : c ∈ db.coreCompletions.rows) (hb : b ∈ sortedRuns db)
    (h : b.id = c.id) : b = c :=
  Table.eq_of_key_eq (mem_sortedRuns.mp hb).1 hc h

/-- The runs ranked elsewhere stay the same. -/
theorem filter_best_without (hc : c ∈ db.coreCompletions.rows) :
    (best (without db c)).filter (Elsewhere c) = (best db).filter (Elsewhere c) := by
  have h (runs : List CoreCompletion) :
      (distinctOn (fun c ↦ (c.userId, c.mapId)) runs).filter (Elsewhere c) =
        distinctOn (fun c ↦ (c.userId, c.mapId)) (runs.filter (Elsewhere c)) :=
    filter_distinctOn (fun b : CoreCompletion ↦ (b.userId, b.mapId))
      (fun g ↦ !decide (g = (c.userId, c.mapId))) runs
  rw [best_eq, best_eq, h, h, sortedRuns_without, List.filter_filter]
  congr 1
  apply List.filter_congr
  intro r hr
  by_cases hid : r.id = c.id
  · obtain rfl := eq_of_id_eq hc hr hid
    simp [Elsewhere]
  · simp [hid]

theorem rankedRun_eq (db : Db) (userId mapId : Nat) : rankedRun db userId mapId =
    ((sortedRuns db).filter fun b ↦ (b.userId, b.mapId) = (userId, mapId)).head? := by
  have h := filter_distinctOn_eq (fun b : CoreCompletion ↦ (b.userId, b.mapId)) (userId, mapId)
    (sortedRuns db)
  rw [rankedRun, best_eq, ← List.head?_filter, h]
  cases ((sortedRuns db).filter fun b ↦ (b.userId, b.mapId) = (userId, mapId)).head? with
  | none => rfl
  | some b => rfl

/-- Taking away a run that nobody is ranked by changes no ranked run. -/
theorem rankedRun_without (hc : c ∈ db.coreCompletions.rows)
    (h : rankedRun db c.userId c.mapId ≠ some c) :
    rankedRun (without db c) c.userId c.mapId = rankedRun db c.userId c.mapId := by
  rw [rankedRun_eq] at h
  rw [rankedRun_eq, rankedRun_eq, sortedRuns_without, List.filter_filter]
  simp only [Bool.and_comm]
  rw [← List.filter_filter]
  have hmem : ∀ b ∈ (sortedRuns db).filter fun b ↦ (b.userId, b.mapId) = (c.userId, c.mapId),
      b ∈ sortedRuns db := fun b hb ↦ (List.mem_filter.mp hb).1
  cases hruns : (sortedRuns db).filter fun b ↦ (b.userId, b.mapId) = (c.userId, c.mapId) with
  | nil => rfl
  | cons b runs =>
      rw [hruns] at h hmem
      have hid : b.id ≠ c.id := by
        intro hid
        rw [eq_of_id_eq hc (hmem b List.mem_cons_self) hid] at h
        exact h rfl
      simp [hid]

/-- A count over the field of a map: the runs elsewhere, and the one run of the user of
`c` on the map of `c`. -/
theorem fieldCount_eq (db : Db) (c : CoreCompletion) (mapId : Nat) (q : CoreCompletion → Bool) :
    fieldCount db mapId q =
      ((best db).filter (Elsewhere c)).countP (fun b ↦ b.mapId = mapId ∧ q b) +
        (rankedRun db c.userId c.mapId).toList.countP (fun b ↦ b.mapId = mapId ∧ q b) := by
  have hown := filter_eq_toList_find?
    (nodup_map_distinctOn (fun c : CoreCompletion ↦ (c.userId, c.mapId)) (sortedRuns db))
    (c.userId, c.mapId)
  rw [rankedRun, best_eq, ← hown, ← best_eq, fieldCount,
    List.countP_eq_countP_filter_add _ _ (Elsewhere c)]
  congr 2
  apply List.filter_congr
  intro b _
  simp [Elsewhere]

/-- On the other maps every count stays the same. -/
theorem fieldCount_without_of_ne (hc : c ∈ db.coreCompletions.rows) {mapId : Nat}
    (h : mapId ≠ c.mapId) (q : CoreCompletion → Bool) :
    fieldCount (without db c) mapId q = fieldCount db mapId q := by
  have hown (db : Db) :
      (rankedRun db c.userId c.mapId).toList.countP (fun b ↦ b.mapId = mapId ∧ q b) = 0 := by
    rw [List.countP_eq_zero]
    intro b hb
    have hb := List.find?_some (Option.mem_toList.mp hb)
    have hmap : b.mapId = c.mapId := by
      have : b.userId = c.userId ∧ b.mapId = c.mapId := by simpa using hb
      exact this.2
    simp [hmap, Ne.symm h]
  rw [fieldCount_eq _ c, fieldCount_eq db c, filter_best_without hc, hown, hown]

/-- If nobody is ranked by `c`, every count stays the same. -/
theorem fieldCount_without_of_unranked (hc : c ∈ db.coreCompletions.rows)
    (h : rankedRun db c.userId c.mapId ≠ some c) (mapId : Nat) (q : CoreCompletion → Bool) :
    fieldCount (without db c) mapId q = fieldCount db mapId q := by
  rw [fieldCount_eq _ c, fieldCount_eq db c, filter_best_without hc, rankedRun_without hc h]

/-- The users ranked elsewhere are the same with and without `c`. -/
theorem mem_best_without (hc : c ∈ db.coreCompletions.rows) (hu : b.userId ≠ c.userId) :
    b ∈ best (without db c) ↔ b ∈ best db := by
  have helse : Elsewhere c b = true := by simp [Elsewhere, hu]
  have h (db : Db) : b ∈ best db ↔ b ∈ (best db).filter (Elsewhere c) := by
    rw [List.mem_filter]
    exact ⟨fun hb ↦ ⟨hb, helse⟩, fun hb ↦ hb.1⟩
  rw [h, h db, filter_best_without hc]

/-- `c` shows in the inputs of nobody exactly when it shows in none of the counts taken
for an unflagged run of another user. -/
theorem contributesNothing_iff (hc : c ∈ db.coreCompletions.rows) :
    ContributesNothing db c ↔ ∀ b ∈ best db, b.userId ≠ c.userId → suspicious db b.id = false →
      ∀ m, scoreInputOf (without db c) b m = scoreInputOf db b m := by
  constructor
  · intro h b hb hu hflag m
    obtain ⟨m', hm'⟩ := exists_map_of_mem_best hb
    have hs : scoreInputOf db b m' ∈ (fetchSkillInputs (without db c)).map scoreInput := by
      rw [← h _ hu]
      exact mem_scoreInputs.mpr ⟨b, hb, m', hm', hflag, rfl⟩
    obtain ⟨b', hb', m'', hm'', _, heq⟩ := mem_scoreInputs.mp hs
    have huser : b.userId = b'.userId := congrArg ScoreInput.userId heq
    have hmap : b.mapId = b'.mapId := congrArg ScoreInput.mapId heq
    obtain rfl : b = b' := by
      refine eq_of_mem_best hb ?_ huser hmap
      rw [← mem_best_without hc (huser ▸ hu)]
      exact hb'
    have hm'' : db.maps.get? b.mapId = some m'' := hm''
    obtain rfl : m' = m'' := Option.some.inj (hm'.symm.trans hm'')
    -- the map only decides the raw difficulty
    have := ScoreInput.mk.inj heq
    simp only [scoreInputOf, ScoreInput.mk.injEq]
    tauto
  · intro h s hu
    rw [mem_scoreInputs, mem_scoreInputs]
    constructor
    · rintro ⟨b, hb, m, hm, hflag, rfl⟩
      exact ⟨b, (mem_best_without hc hu).mpr hb, m, hm, hflag, (h b hb hu hflag m).symm⟩
    · rintro ⟨b, hb, m, hm, hflag, rfl⟩
      have hb := (mem_best_without hc hu).mp hb
      exact ⟨b, hb, m, hm, hflag, h b hb hu hflag m⟩

/-! ## The run that takes its place -/

/-- A run found by user and map is of that user on that map. -/
theorem owner_of_rankedRun {userId mapId : Nat} (h : rankedRun db userId mapId = some b) :
    b ∈ best db ∧ b.userId = userId ∧ b.mapId = mapId := by
  refine ⟨List.mem_of_find?_eq_some h, ?_⟩
  simpa using List.find?_some h

/-- The run that takes the place of a ranked run is no faster. -/
theorem rankedRun_time_le {c' : CoreCompletion} (h : rankedRun db c.userId c.mapId = some c)
    (h' : rankedRun (without db c) c.userId c.mapId = some c') : c.time ≤ c'.time := by
  obtain ⟨hc, _, _⟩ := owner_of_rankedRun h
  obtain ⟨hc', hu, hm⟩ := owner_of_rankedRun h'
  have hmem : c' ∈ sortedRuns db := by
    have := mem_of_mem_distinctOn hc'
    rw [← sortedRuns, sortedRuns_without, List.mem_filter] at this
    exact this.1
  have hle := distinctOn_le (pairwise_orderBy _ _) hc hmem (by rw [hu, hm])
  simp only [Prod.Lex.toLex_le_toLex, hu, hm, lt_irrefl, false_or, true_and] at hle
  exact hle

/-- With `c` ranked, a count over its map changes as the run in its place differs. -/
theorem fieldCount_of_ranked (h : rankedRun db c.userId c.mapId = some c)
    (q : CoreCompletion → Bool) :
    fieldCount db c.mapId q =
      ((best db).filter (Elsewhere c)).countP (fun b ↦ b.mapId = c.mapId ∧ q b) +
        if q c then 1 else 0 := by
  rw [fieldCount_eq db c, h, Option.toList_some, List.countP_singleton]
  simp

theorem fieldCount_without_of_ranked (hc : c ∈ db.coreCompletions.rows) {c' : CoreCompletion}
    (h : rankedRun (without db c) c.userId c.mapId = some c') (q : CoreCompletion → Bool) :
    fieldCount (without db c) c.mapId q =
      ((best db).filter (Elsewhere c)).countP (fun b ↦ b.mapId = c.mapId ∧ q b) +
        if q c' then 1 else 0 := by
  rw [fieldCount_eq _ c, filter_best_without hc, h, Option.toList_some, List.countP_singleton]
  simp [(owner_of_rankedRun h).2.2]

/-- With `c` ranked, the inputs of another run on the map stay the same exactly when a
run takes the place of `c` unnoticed. -/
theorem scoreInputOf_without_iff (hc : c ∈ db.coreCompletions.rows)
    (h : rankedRun db c.userId c.mapId = some c) (hmap : b.mapId = c.mapId) (m : CoreMap) :
    scoreInputOf (without db c) b m = scoreInputOf db b m ↔
      ∃ c', rankedRun (without db c) c.userId c.mapId = some c' ∧ Alike db c c' b := by
  cases hrun : rankedRun (without db c) c.userId c.mapId with
  | none =>
      -- the field has shrunk
      constructor
      · intro heq
        have hsize := congrArg ScoreInput.fieldSize heq
        simp only [scoreInputOf, hmap] at hsize
        rw [fieldCount_of_ranked h, fieldCount_eq _ c, filter_best_without hc, hrun] at hsize
        simp at hsize
      · rintro ⟨c', hc', _⟩
        cases hc'
  | some c' =>
      have hle := rankedRun_time_le h hrun
      have hsize : fieldCount (without db c) c.mapId (fun _ ↦ true) =
          fieldCount db c.mapId fun _ ↦ true := by
        rw [fieldCount_of_ranked h, fieldCount_without_of_ranked hc hrun]
      -- the slower runs, without and with `c`
      have hslower := fieldCount_of_ranked h fun r ↦ b.time < r.time
      have hslower' := fieldCount_without_of_ranked hc hrun fun r ↦ b.time < r.time
      have hpct : shownPct (fieldCount (without db c) c.mapId fun r ↦ b.time < r.time)
            (fieldCount db c.mapId fun _ ↦ true) =
          shownPct (fieldCount db c.mapId fun r ↦ b.time < r.time)
            (fieldCount db c.mapId fun _ ↦ true) ↔
          (c.time ≤ b.time → b.time < c'.time →
            shownPct ((fieldCount db c.mapId fun r ↦ b.time < r.time) + 1)
              (fieldCount db c.mapId fun _ ↦ true) =
            shownPct (fieldCount db c.mapId fun r ↦ b.time < r.time)
              (fieldCount db c.mapId fun _ ↦ true)) := by
        by_cases hbc : b.time < c.time
        · have hbc' : b.time < c'.time := lt_of_lt_of_le hbc hle
          rw [hslower, hslower']
          simp [hbc, hbc', not_le.mpr hbc]
        · by_cases hbc' : b.time < c'.time
          · rw [hslower, hslower']
            simp [hbc, hbc', not_lt.mp hbc]
          · rw [hslower, hslower']
            simp [hbc, hbc']
      have hvideo : (fieldCount (without db c) c.mapId fun r ↦ !r.completion && r.time < b.time) =
          (fieldCount db c.mapId fun r ↦ !r.completion && r.time < b.time) ↔
          (BeatsOnVideo c b ↔ BeatsOnVideo c' b) := by
        have hbeats (r : CoreCompletion) :
            (!r.completion && decide (r.time < b.time)) = true ↔ BeatsOnVideo r b := by
          simp [BeatsOnVideo]
        rw [fieldCount_of_ranked h, fieldCount_without_of_ranked hc hrun]
        simp only [hbeats]
        by_cases h₁ : BeatsOnVideo c b <;> by_cases h₂ : BeatsOnVideo c' b <;> simp [h₁, h₂]
      simp only [scoreInputOf, hmap, hsize, ScoreInput.mk.injEq, true_and, Option.some.injEq,
        exists_eq_left']
      constructor
      · rintro ⟨hp, _, hv⟩
        constructor
        · rw [hmap]
          exact hpct.mp hp
        · intro hb
          rw [← hvideo]
          simpa [hb] using hv
      · intro halike
        refine ⟨hpct.mpr ?_, rfl, ?_⟩
        · rw [← hmap]
          exact halike.percentile
        · cases hb : b.completion with
          | true => rfl
          | false => simpa using hvideo.mpr (halike.video hb)

/-- A flagged run contributes nothing to the inputs of the other users exactly when
nobody is ranked by it, or the user's next run takes its place unnoticed by every
unflagged run of the map. -/
theorem flaggedRun_contributesNothing_iff (db : Db) (c : CoreCompletion)
    (hc : c ∈ db.coreCompletions.rows) (_hflag : suspicious db c.id = true) :
    ContributesNothing db c ↔ Replaceable db c := by
  rw [contributesNothing_iff hc]
  constructor
  · intro h hranked b hb hu hmap hflag
    obtain ⟨m, _⟩ := exists_map_of_mem_best hb
    exact (scoreInputOf_without_iff hc hranked hmap m).mp (h b hb hu hflag m)
  · intro h b hb hu hflag m
    by_cases hmap : b.mapId = c.mapId
    · by_cases hranked : rankedRun db c.userId c.mapId = some c
      · exact (scoreInputOf_without_iff hc hranked hmap m).mpr (h hranked b hb hu hmap hflag)
      · simp only [scoreInputOf, fieldCount_without_of_unranked hc hranked]
        rfl
    · simp only [scoreInputOf, fieldCount_without_of_ne hc hmap]
      rfl

/-- Two video runs on one map, the faster one flagged. -/
def flaggedRecord : Db where
  maps := Table.empty.insert fun id ↦ { id, code := some "ABCD", difficulty := .easy }
  coreCompletions := (Table.empty.insert fun id ↦
    { id, mapId := 1, userId := 7, time := 1000, screenshot := "", video := some "v"
      verified := true, completion := false, insertedAt := 5 }).insert fun id ↦
    { id, mapId := 1, userId := 8, time := 1250, screenshot := "", video := some "w"
      verified := true, completion := false, insertedAt := 6 }
  suspiciousFlags := [1]

/-- The flagged run takes the world record from the other user. -/
theorem flaggedRecord_contributes : ∃ c ∈ flaggedRecord.coreCompletions.rows,
    suspicious flaggedRecord c.id = true ∧ ¬ ContributesNothing flaggedRecord c := by
  refine ⟨_, List.mem_cons_self, rfl, fun h ↦ ?_⟩
  have h := (h ⟨8, 1, 0, true, 2, 0, none, some 2⟩ (by decide)).mp (by decide +kernel)
  revert h
  decide +kernel

/-- The two sides at the flagged run. -/
theorem flaggedRun_contributesNothing_iff_flaggedRecord :
    let c : CoreCompletion := { id := 1, mapId := 1, userId := 7, time := 1000, screenshot := ""
                                video := some "v", verified := true, completion := false
                                insertedAt := 5 }
    suspicious flaggedRecord c.id = true ∧
      (ContributesNothing flaggedRecord c ↔ Replaceable flaggedRecord c) :=
  ⟨rfl, flaggedRun_contributesNothing_iff flaggedRecord _ List.mem_cons_self rfl⟩

end Genjishimada.Skill
