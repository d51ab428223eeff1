import Genjishimada.Repository.Completions

/-!
# World records and leaderboards

Both queries keep each user's last run on a map.  The leaderboard ranks the ones with a
video; the world records rank all of them and then keep a first place only if it has a
video.  So a first place on the leaderboard is no world record when a run without a
video is ahead of it.
-/

namespace Genjishimada.Completions

open Library Repository

variable {db : Db} {m : CoreMap} {code : String} {c : CoreCompletion} {u : Nat}

/-- No verified run is a legacy run. -/
def NoLegacy (db : Db) : Prop :=
  ∀ c ∈ db.coreCompletions.rows, c.verified = true → c.legacy = false

/-- `core.maps.code` is unique. -/
def UniqueCodes (db : Db) : Prop :=
  ∀ m ∈ db.maps.rows, ∀ m' ∈ db.maps.rows, m.code.isSome → m.code = m'.code → m = m'

instance : Decidable (NoLegacy db) :=
  inferInstanceAs (Decidable (∀ c ∈ db.coreCompletions.rows, _ → _))

instance : Decidable (UniqueCodes db) :=
  inferInstanceAs (Decidable (∀ m ∈ db.maps.rows, ∀ m' ∈ db.maps.rows, _ → _ → _))

/-- The user's world records list a run on the map of the code. -/
def HoldsRecord (db : Db) (userId : Nat) (code : String) : Prop :=
  ∃ row ∈ fetchWorldRecordsPerUser userId .all db, row.code = some code

/-- The user is first on the leaderboard; of several, those whose run came first. -/
def LeadsBoard (db : Db) (userId : Nat) (code : String) : Prop :=
  ∃ row ∈ fetchMapLeaderboard code 0 1 db, row.userId = userId ∧ row.rank = some 1 ∧
    ∀ row' ∈ fetchMapLeaderboard code 0 1 db, row'.rank = some 1 →
      row.insertedAt ≤ row'.insertedAt

instance : Decidable (HoldsRecord db u code) :=
  inferInstanceAs (Decidable (∃ row ∈ fetchWorldRecordsPerUser u .all db, _))

instance : Decidable (LeadsBoard db u code) :=
  inferInstanceAs (Decidable (∃ row ∈ fetchMapLeaderboard code 0 1 db, _ ∧ _ ∧
    ∀ row' ∈ fetchMapLeaderboard code 0 1 db, _ → _))

/-- The order of the world records: by time, then by when the run came. -/
def runOrder (c : CoreCompletion) : Int ×ₗ Int := toLex (c.time, c.insertedAt)

/-- No run without a video is ahead of every run with one. -/
def VideoAhead (db : Db) (mapId : Nat) : Prop :=
  ∀ c ∈ latestPerUser mapId db, c.completion = true →
    (∃ v ∈ latestPerUser mapId db, v.completion = false) →
      ∃ v ∈ latestPerUser mapId db, v.completion = false ∧ runOrder v ≤ runOrder c

/-! ## The same runs -/

/-- Without legacy runs both queries keep the same runs on a map. -/
theorem latestPerUserPerMap_eq (h : NoLegacy db) (mapId : Nat) :
    ((latestPerUserPerMap db).filter fun c ↦ c.mapId = mapId) = latestPerUser mapId db := by
  have hgroup := filter_distinctOn (fun c : CoreCompletion ↦ (c.userId, c.mapId))
    (fun g ↦ decide (g.2 = mapId))
    (orderBy (fun c ↦ toLex (c.userId, toLex (c.mapId, -c.insertedAt)))
      (db.coreCompletions.select fun c ↦ c.verified && !c.legacy))
  have hrows : (db.coreCompletions.select fun c ↦ c.verified && !c.legacy).filter
      (fun c ↦ decide (c.mapId = mapId)) =
      db.coreCompletions.select fun c ↦ c.mapId = mapId && c.verified := by
    rw [Table.select, Table.select, List.filter_filter]
    apply List.filter_congr
    intro c hc
    cases hverified : c.verified with
    | false => simp
    | true => simp [h c hc hverified]
  have hmap : ∀ c ∈ db.coreCompletions.select (fun c ↦ c.mapId = mapId && c.verified),
      c.mapId = mapId := by
    intro c hc
    have hc := (Table.mem_select.mp hc).2
    simp only [Bool.and_eq_true, decide_eq_true_eq] at hc
    exact hc.1
  -- on one map, the map plays no part in the sort and the grouping
  have hsort : orderBy (fun c : CoreCompletion ↦ toLex (c.userId, toLex (c.mapId, -c.insertedAt)))
      (db.coreCompletions.select fun c ↦ c.mapId = mapId && c.verified) =
      orderBy (fun c ↦ toLex (c.userId, -c.insertedAt))
        (db.coreCompletions.select fun c ↦ c.mapId = mapId && c.verified) := by
    apply orderBy_congr
    intro a ha b hb
    simp [Prod.Lex.toLex_le_toLex, hmap a ha, hmap b hb]
  change (distinctOn _ _).filter _ = _
  rw [hgroup, ← orderBy_filter, hrows, latestPerUser, hsort]
  apply distinctOn_congr
  intro a ha b hb
  simp [hmap a (mem_orderBy.mp ha), hmap b (mem_orderBy.mp hb)]

/-! ## What the queries say -/

/-- A world record on a map is a latest run with a video and no latest run before it. -/
theorem holdsRecord_iff (hlegacy : NoLegacy db) (hcodes : UniqueCodes db)
    (hm : m ∈ db.maps.rows) (hcode : m.code = some code) : HoldsRecord db u code ↔
      ∃ c ∈ latestPerUser m.id db, c.userId = u ∧ c.completion = false ∧
        ∀ r ∈ latestPerUser m.id db, runOrder c ≤ runOrder r := by
  have hget : db.maps.get? m.id = some m := Table.get?_of_mem hm
  have hrank (c : CoreCompletion) (hc : c.mapId = m.id) : worldRecordRank db c = some 1 ↔
      c.completion = false ∧ ∀ r ∈ latestPerUser m.id db, runOrder c ≤ runOrder r := by
    rw [worldRecordRank, hc, latestPerUserPerMap_eq hlegacy]
    split
    · rename_i hvideo
      simp [hvideo]
    · rename_i hvideo
      rw [Option.some.injEq, rank_eq_one_iff_forall_le]
      have hvideo : c.completion = false := by simpa using hvideo
      rw [hvideo]
      constructor
      · intro h
        exact ⟨rfl, h⟩
      · intro h
        exact h.2
  have hmem (c : CoreCompletion) : c ∈ latestPerUser m.id db ↔
      c ∈ latestPerUserPerMap db ∧ c.mapId = m.id := by
    rw [← latestPerUserPerMap_eq hlegacy, List.mem_filter, decide_eq_true_eq]
  simp only [HoldsRecord, fetchWorldRecordsPerUser, List.mem_map, mem_orderBy, List.mem_filter,
    List.mem_filterMap, Option.map_eq_some_iff, Option.filter_eq_some_iff, Bool.and_eq_true,
    decide_eq_true_eq, Bool.not_eq_true']
  constructor
  · rintro ⟨_, ⟨_, ⟨⟨c, hc, m', ⟨hm', hkeep⟩, rfl⟩, ⟨hu, _⟩, hfirst⟩, rfl⟩, hcode'⟩
    obtain rfl : m' = m := by
      have hcode' : m'.code = some code := hcode'
      apply hcodes m' (Table.mem_of_get? hm') m hm
      · rw [hcode']
        rfl
      · rw [hcode', hcode]
    have hcm : c.mapId = m'.id := (Table.key_of_get? hm').symm
    obtain ⟨hvideo, hle⟩ := (hrank c hcm).mp hfirst
    exact ⟨c, (hmem c).mpr ⟨hc, hcm⟩, hu, hvideo, hle⟩
  · rintro ⟨c, hc, hu, hvideo, hle⟩
    obtain ⟨hc, hcm⟩ := (hmem c).mp hc
    have hfirst := (hrank c hcm).mpr ⟨hvideo, hle⟩
    refine ⟨_, ⟨(c, m), ⟨⟨c, hc, m, ⟨by rw [hcm]; exact hget, ?_⟩, rfl⟩, ⟨hu, hvideo⟩, hfirst⟩, rfl⟩,
      hcode⟩
    simp [hcode, ArchivedFilter.keeps]

/-- The map a leaderboard is found by. -/
theorem find?_code (hcodes : UniqueCodes db) (hm : m ∈ db.maps.rows) (hcode : m.code = some code) :
    (db.maps.rows.find? fun m ↦ m.code = some code) = some m := by
  cases hfind : db.maps.rows.find? fun m ↦ m.code = some code with
  | none =>
      have := List.find?_eq_none.mp hfind m hm
      simp [hcode] at this
  | some m' =>
      have hcode' : m'.code = some code := by simpa using List.find?_some hfind
      congr 1
      apply hcodes m' (List.mem_of_find?_eq_some hfind) m hm
      · rw [hcode']
        rfl
      · rw [hcode', hcode]

/-- The first places of a leaderboard are the fastest of the latest runs with a video. -/
theorem mem_firstPlaces (hcodes : UniqueCodes db) (hm : m ∈ db.maps.rows)
    (hcode : m.code = some code) (row : LeaderboardRow) :
    (row ∈ fetchMapLeaderboard code 0 1 db ∧ row.rank = some 1) ↔
      ∃ c ∈ latestPerUser m.id db, c.completion = false ∧
        (∀ r ∈ latestPerUser m.id db, r.completion = false → c.time ≤ r.time) ∧
        row = leaderboardRow m c (some 1) (medalFor (db.medals.get? m.id) c.time) := by
  have hrank (c : CoreCompletion) :
      rank CoreCompletion.time ((latestPerUser m.id db).filter fun c ↦ !c.completion) c = 1 ↔
        ∀ r ∈ latestPerUser m.id db, r.completion = false → c.time ≤ r.time := by
    rw [rank_eq_one_iff_forall_le]
    simp only [List.mem_filter, Bool.not_eq_true', and_imp]
  simp only [fetchMapLeaderboard, find?_code hcodes hm hcode, if_pos, mem_orderBy, List.mem_map,
    List.mem_append, rankable, nonrankable, List.mem_filter, Bool.not_eq_true']
  constructor
  · rintro ⟨⟨_, ⟨c, ⟨hc, hvideo⟩, rfl⟩ | ⟨c, _, rfl⟩, rfl⟩, hfirst⟩
    · have hfirst : rank CoreCompletion.time _ c = 1 := Option.some.inj hfirst
      refine ⟨c, hc, hvideo, (hrank c).mp hfirst, ?_⟩
      rw [hfirst]
      rfl
    · cases hfirst
  · rintro ⟨c, hc, hvideo, hle, rfl⟩
    have hfirst := (hrank c).mpr hle
    refine ⟨⟨_, .inl ⟨c, ⟨hc, hvideo⟩, rfl⟩, ?_⟩, rfl⟩
    rw [hfirst]
    rfl

/-- A user leads a leaderboard with a run that is first, in the order of the world
records, among the latest runs with a video. -/
theorem leadsBoard_iff (hcodes : UniqueCodes db) (hm : m ∈ db.maps.rows)
    (hcode : m.code = some code) : LeadsBoard db u code ↔
      ∃ c ∈ latestPerUser m.id db, c.userId = u ∧ c.completion = false ∧
        ∀ r ∈ latestPerUser m.id db, r.completion = false → runOrder c ≤ runOrder r := by
  have hboard := mem_firstPlaces hcodes hm hcode
  constructor
  · rintro ⟨row, hrow, hu, hfirst, hearliest⟩
    obtain ⟨c, hc, hvideo, hle, rfl⟩ := (hboard row).mp ⟨hrow, hfirst⟩
    refine ⟨c, hc, hu, hvideo, fun r hr hrvideo ↦ ?_⟩
    rcases lt_or_eq_of_le (hle r hr hrvideo) with hlt | heq
    · exact Prod.Lex.toLex_le_toLex.mpr (.inl hlt)
    · -- a tie on time is another first place
      have hr' : ∀ r' ∈ latestPerUser m.id db, r'.completion = false → r.time ≤ r'.time :=
        fun r' hr' hv ↦ heq ▸ hle r' hr' hv
      obtain ⟨hmem, hrfirst⟩ := (hboard _).mpr ⟨r, hr, hrvideo, hr', rfl⟩
      exact Prod.Lex.toLex_le_toLex.mpr (.inr ⟨heq, hearliest _ hmem hrfirst⟩)
  · rintro ⟨c, hc, hu, hvideo, hle⟩
    have htime : ∀ r ∈ latestPerUser m.id db, r.completion = false → c.time ≤ r.time := by
      intro r hr hv
      rcases Prod.Lex.toLex_le_toLex.mp (hle r hr hv) with hlt | ⟨heq, _⟩
      · exact hlt.le
      · exact heq.le
    obtain ⟨hmem, hfirst⟩ := (hboard _).mpr ⟨c, hc, hvideo, htime, rfl⟩
    refine ⟨_, hmem, hu, hfirst, ?_⟩
    intro row' hrow' hfirst'
    obtain ⟨r, hr, hrvideo, hrle, rfl⟩ := (hboard row').mp ⟨hrow', hfirst'⟩
    rcases Prod.Lex.toLex_le_toLex.mp (hle r hr hrvideo) with hlt | ⟨_, hins⟩
    · exact absurd (hrle c hc hvideo) (not_le.mpr hlt)
    · exact hins

/-- The world records on a map are the first places of its leaderboard exactly when no
run without a video is ahead of every run with one. -/
theorem worldRecords_eq_firstPlaces_iff (db : Db) (m : CoreMap) (code : String)
    (hlegacy : NoLegacy db) (hcodes : UniqueCodes db) (hm : m ∈ db.maps.rows)
    (hcode : m.code = some code) :
    (∀ u, HoldsRecord db u code ↔ LeadsBoard db u code) ↔ VideoAhead db m.id := by
  simp only [holdsRecord_iff hlegacy hcodes hm hcode, leadsBoard_iff hcodes hm hcode]
  constructor
  · intro h c hc hcompletion ⟨v, hv, hvideo⟩
    -- the first run with a video
    have hv' : v ∈ (latestPerUser m.id db).filter fun r ↦ !r.completion := by
      simp [hv, hvideo]
    obtain ⟨f, hf, hmin⟩ := exists_first runOrder hv'
    obtain ⟨hf, hfvideo⟩ := List.mem_filter.mp hf
    have hfvideo : f.completion = false := by simpa using hfvideo
    have hleads : ∀ r ∈ latestPerUser m.id db, r.completion = false → runOrder f ≤ runOrder r := by
      intro r hr hrvideo
      apply hmin
      simp [hr, hrvideo]
    obtain ⟨r, hr, _, hrvideo, hle⟩ := (h f.userId).mpr ⟨f, hf, rfl, hfvideo, hleads⟩
    exact ⟨r, hr, hrvideo, hle c hc⟩
  · intro h u
    constructor
    · rintro ⟨c, hc, hu, hvideo, hle⟩
      exact ⟨c, hc, hu, hvideo, fun r hr _ ↦ hle r hr⟩
    · rintro ⟨c, hc, hu, hvideo, hle⟩
      refine ⟨c, hc, hu, hvideo, fun r hr ↦ ?_⟩
      cases hr' : r.completion with
      | false => exact hle r hr hr'
      | true =>
          obtain ⟨v, hv, hvvideo, hvr⟩ := h r hr hr' ⟨c, hc, hvideo⟩
          exact (hle v hv hvvideo).trans hvr

/-- A run without a video by user 7, and a slower one with a video by user 8. -/
def screenshotAhead : Db where
  maps := Table.empty.insert fun id ↦ { id, code := some "ABCD", difficulty := .easy }
  coreCompletions := (Table.empty.insert fun id ↦
    { id, mapId := 1, userId := 7, time := 1000, screenshot := "s", video := none
      verified := true, completion := true, insertedAt := 5 }).insert fun id ↦
    { id, mapId := 1, userId := 8, time := 1250, screenshot := "s", video := some "v"
      verified := true, completion := false, insertedAt := 6 }

/-- User 8 is first on the leaderboard and holds no world record. -/
theorem screenshotAhead_no_record : NoLegacy screenshotAhead ∧
    LeadsBoard screenshotAhead 8 "ABCD" ∧ ¬ HoldsRecord screenshotAhead 8 "ABCD" := by
  decide +kernel

/-- The two sides on that map. -/
theorem worldRecords_eq_firstPlaces_iff_screenshotAhead :
    ∃ m, (∀ u, HoldsRecord screenshotAhead u "ABCD" ↔ LeadsBoard screenshotAhead u "ABCD") ↔
      VideoAhead screenshotAhead m := by
  refine ⟨1, worldRecords_eq_firstPlaces_iff screenshotAhead
    { id := 1, code := some "ABCD", difficulty := .easy } "ABCD" ?_ ?_ ?_ rfl⟩
  · decide
  · decide
  · exact List.mem_cons_self

end Genjishimada.Completions
