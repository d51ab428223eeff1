import Genjishimada.Community.WorldRecords

/-!
# The rank a verifier is shown

`fetch_completion_submission` previews the rank of a pending run with a video.  It ranks the
run among the last runs with a video of every user, the user's own among them; the
leaderboard takes the last run of every user and then drops those without a video.  So a
competitor who has gone on to a run without a video is counted by the preview only, and so
is an earlier run of the user; a user who stands with a later run is ranked by that one.
-/

namespace Genjishimada.Completions

open Community Library Repository

variable {db : Db} {m : CoreMap} {code : String} {c r v x : CoreCompletion} {mapId verifiedBy : Nat}
  {reason : Option String}

/-! ## The two ranks -/

/-- The rank of a user on a leaderboard. -/
def leaderboardRank (code : String) (userId : Nat) (db : Db) : Option Nat :=
  ((fetchMapLeaderboard code 0 1 db).find? fun row ↦ row.userId = userId).bind (·.rank)

/-- The rank a verifier is shown. -/
def previewedRank (completionId : Nat) (db : Db) : Option Nat :=
  (fetchCompletionSubmission completionId db).bind (·.hypotheticalRank)

/-- The run the user stands with once the run is verified: a later verified one, or the run. -/
def standing (db : Db) (c : CoreCompletion) : CoreCompletion :=
  ((latestPerUser c.mapId db).find? fun r ↦
    r.userId = c.userId && c.insertedAt < r.insertedAt).getD c

/-- The faster runs with a video that are not the last run of their user. -/
def overtakenVideos (db : Db) (c : CoreCompletion) : Nat :=
  (latestVideoPerUser c.mapId db).countP fun v ↦
    v.time < c.time && v ∉ latestPerUser c.mapId db

/-- The last runs with a video between the run and the one the user stands with. -/
def videosBetween (db : Db) (c : CoreCompletion) : Nat :=
  (latestPerUser c.mapId db).countP fun v ↦
    !v.completion && (c.time ≤ v.time && v.time < (standing db c).time)

/-- The user stands with a run with a video, no earlier one is faster, and what only the preview
counts is made up by what only the leaderboard counts. -/
structure SameField (db : Db) (c : CoreCompletion) : Prop where
  video : (standing db c).completion = false
  own : ∀ v ∈ latestVideoPerUser c.mapId db, v.userId = c.userId → c.time ≤ v.time
  ahead : overtakenVideos db c = videosBetween db c

/-! ## The last runs -/

section Latest

/-- A run among some runs of the map is the last of its user. -/
theorem mem_latest (h : UniqueRuns db) {p : CoreCompletion → Bool}
    (hp : ∀ c, p c = true → c.mapId = mapId) :
    x ∈ distinctOn CoreCompletion.userId
        (orderBy (fun c ↦ toLex (c.userId, -c.insertedAt)) (db.coreCompletions.select p)) ↔
      (x ∈ db.coreCompletions.rows ∧ p x = true) ∧
        ∀ y ∈ db.coreCompletions.rows, p y = true → y.userId = x.userId →
          y.insertedAt ≤ x.insertedAt := by
  rw [mem_distinctOn_orderBy_iff, Table.mem_select]
  · apply and_congr_right
    intro hx
    constructor
    · intro hlast y hy hpy huser
      have hle := hlast y (Table.mem_select.mpr ⟨hy, hpy⟩) huser
      simp only [Prod.Lex.toLex_le_toLex, huser, lt_irrefl, true_and, false_or] at hle
      omega
    · intro hlast y hy huser
      obtain ⟨hy, hpy⟩ := Table.mem_select.mp hy
      have hle := hlast y hy hpy huser
      simp only [Prod.Lex.toLex_le_toLex, huser, lt_irrefl, true_and, false_or]
      omega
  · intro a ha b hb huser hkey
    obtain ⟨ha, hpa⟩ := Table.mem_select.mp ha
    obtain ⟨hb, hpb⟩ := Table.mem_select.mp hb
    have hinserted := (Prod.mk.inj (toLex.injective hkey)).2
    exact h a ha b hb ((hp a hpa).trans (hp b hpb).symm) huser (by omega)

/-- `x` is the last verified run of its user on the map. -/
def IsLast (db : Db) (mapId : Nat) (x : CoreCompletion) : Prop :=
  (x ∈ db.coreCompletions.rows ∧ x.mapId = mapId ∧ x.verified = true) ∧
    ∀ y ∈ db.coreCompletions.rows, y.mapId = mapId → y.verified = true → y.userId = x.userId →
      y.insertedAt ≤ x.insertedAt

theorem mem_latestPerUser (h : UniqueRuns db) : x ∈ latestPerUser mapId db ↔ IsLast db mapId x := by
  have hmap : ∀ c : CoreCompletion, (decide (c.mapId = mapId) && c.verified) = true →
      c.mapId = mapId := by
    intro c hc
    rw [Bool.and_eq_true, decide_eq_true_eq] at hc
    exact hc.1
  rw [latestPerUser, mem_latest h hmap, IsLast]
  simp only [Bool.and_eq_true, decide_eq_true_eq, and_imp]

theorem mem_latestVideoPerUser (h : UniqueRuns db) : x ∈ latestVideoPerUser mapId db ↔
    (x ∈ db.coreCompletions.rows ∧ x.mapId = mapId ∧ x.verified = true ∧ x.completion = false) ∧
      ∀ y ∈ db.coreCompletions.rows, y.mapId = mapId → y.verified = true → y.completion = false →
        y.userId = x.userId → y.insertedAt ≤ x.insertedAt := by
  have hmap : ∀ c : CoreCompletion,
      (decide (c.mapId = mapId) && c.verified && !c.completion) = true → c.mapId = mapId := by
    intro c hc
    rw [Bool.and_eq_true, Bool.and_eq_true, decide_eq_true_eq] at hc
    exact hc.1.1
  rw [latestVideoPerUser, mem_latest h hmap]
  simp only [Bool.and_eq_true, decide_eq_true_eq, Bool.not_eq_true', and_imp, and_assoc]

theorem nodup_users_latestPerUser (mapId : Nat) (db : Db) :
    ((latestPerUser mapId db).map CoreCompletion.userId).Nodup :=
  nodup_map_distinctOn _ _

theorem nodup_users_latestVideoPerUser (mapId : Nat) (db : Db) :
    ((latestVideoPerUser mapId db).map CoreCompletion.userId).Nodup :=
  nodup_map_distinctOn _ _

/-- A last run with a video is the last one with a video. -/
theorem mem_latestVideoPerUser_of_latest (h : UniqueRuns db) (hx : x ∈ latestPerUser mapId db)
    (hvideo : x.completion = false) : x ∈ latestVideoPerUser mapId db := by
  obtain ⟨⟨hmem, hmap, hverified⟩, hlast⟩ := (mem_latestPerUser h).mp hx
  exact (mem_latestVideoPerUser h).mpr ⟨⟨hmem, hmap, hverified, hvideo⟩,
    fun y hy hymap hyverified _ ↦ hlast y hy hymap hyverified⟩

/-- Where the last run of the user has a video, it is the last one with a video. -/
theorem eq_of_latestVideo (h : UniqueRuns db) (hx : x ∈ latestPerUser mapId db)
    (hvideo : x.completion = false) (hv : v ∈ latestVideoPerUser mapId db)
    (huser : v.userId = x.userId) : v = x :=
  List.inj_on_of_nodup_map (nodup_users_latestVideoPerUser mapId db) hv
    (mem_latestVideoPerUser_of_latest h hx hvideo) huser

/-- The last runs with a video, by whether they are the last run of their user. -/
theorem countP_latestVideoPerUser (h : UniqueRuns db) (p : CoreCompletion → Bool) :
    (latestVideoPerUser mapId db).countP p =
      ((latestPerUser mapId db).filter fun v ↦ !v.completion).countP p +
        (latestVideoPerUser mapId db).countP fun v ↦ p v && v ∉ latestPerUser mapId db := by
  have hperm : ((latestPerUser mapId db).filter fun v ↦ !v.completion).Perm
      ((latestVideoPerUser mapId db).filter fun v ↦ v ∈ latestPerUser mapId db) := by
    refine (List.perm_ext_iff_of_nodup ?_ ?_).mpr fun v ↦ ?_
    · exact (nodup_users_latestPerUser mapId db).of_map.filter _
    · exact (nodup_users_latestVideoPerUser mapId db).of_map.filter _
    · rw [List.mem_filter, List.mem_filter, decide_eq_true_eq, Bool.not_eq_true']
      constructor
      · rintro ⟨hv, hvideo⟩
        exact ⟨mem_latestVideoPerUser_of_latest h hv hvideo, hv⟩
      · rintro ⟨hv, hlast⟩
        exact ⟨hlast, ((mem_latestVideoPerUser h).mp hv).1.2.2.2⟩
  rw [hperm.countP_eq, List.countP_filter]
  induction latestVideoPerUser mapId db with
  | nil => rfl
  | cons v l ih =>
      rw [List.countP_cons, List.countP_cons, List.countP_cons, ih]
      cases p v <;> by_cases hv : v ∈ latestPerUser mapId db <;> simp [hv] <;> omega

end Latest

/-! ## The preview -/

/-- The preview counts the faster last runs with a video. -/
theorem hypotheticalRank_eq (hvideo : c.completion = false) : hypotheticalRank c db =
    some (1 + (latestVideoPerUser c.mapId db).countP fun v ↦ v.time < c.time) := by
  have hcount : ∀ l : List CoreCompletion,
      (l.map fun r ↦ (r.userId, r.time)).countP (fun b ↦ b.2 < c.time) =
        l.countP fun v ↦ v.time < c.time := by
    intro l
    rw [List.countP_map]
    rfl
  have hmem : (c.userId, c.time) ∈ eligibleRanked c db := by
    rw [eligibleRanked, hvideo]
    split
    · exact List.mem_append_right _ (List.mem_singleton_self _)
    · rename_i hthere
      simpa using hthere
  have hfind : (eligibleRanked c db).find? (fun r ↦ r = (c.userId, c.time)) =
      some (c.userId, c.time) := by
    cases hfound : (eligibleRanked c db).find? fun r ↦ r = (c.userId, c.time) with
    | none =>
        have hne := List.find?_eq_none.mp hfound _ hmem
        exact absurd (decide_eq_true rfl) hne
    | some r =>
        have heq := List.find?_some hfound
        rw [decide_eq_true_eq] at heq
        rw [heq]
  rw [hypotheticalRank, hfind, Option.map_some, rank, eligibleRanked]
  split
  · -- the run itself is not faster than itself
    rw [List.countP_append, hcount]
    simp
  · rw [hcount]

theorem previewedRank_eq (hm : m ∈ db.maps.rows) (hcode : m.code = some code)
    (hc : c ∈ db.coreCompletions.rows) (hmap : c.mapId = m.id) (hvideo : c.completion = false) :
    previewedRank c.id db =
      some (1 + (latestVideoPerUser c.mapId db).countP fun v ↦ v.time < c.time) := by
  have hget : db.coreCompletions.get? c.id = some c := Table.get?_of_mem hc
  have hmapGet : db.maps.get? m.id = some m := Table.get?_of_mem hm
  have hnamed : m.code.isSome = true := by
    rw [hcode]
    rfl
  rw [previewedRank, fetchCompletionSubmission, hget, Option.bind_some, hmap, hmapGet,
    Option.filter_some, if_pos hnamed, Option.map_some, Option.bind_some, ← hmap]
  exact hypotheticalRank_eq hvideo

/-! ## The leaderboard -/

/-- A user is ranked by the last run, if that has a video. -/
theorem leaderboardRank_eq (hcodes : UniqueCodes db) (hm : m ∈ db.maps.rows)
    (hcode : m.code = some code) (hr : r ∈ latestPerUser m.id db) :
    leaderboardRank code r.userId db =
      if r.completion then none
      else some (rank CoreCompletion.time ((latestPerUser m.id db).filter fun v ↦ !v.completion) r) := by
  have hrow : ∀ row, row ∈ fetchMapLeaderboard code 0 1 db ↔ ∃ v ∈ latestPerUser m.id db,
      row = if v.completion then leaderboardRow m v none none
        else leaderboardRow m v
          (some (rank CoreCompletion.time ((latestPerUser m.id db).filter fun v ↦ !v.completion) v))
          (medalFor (db.medals.get? m.id) v.time) := by
    intro row
    simp only [fetchMapLeaderboard, find?_code hcodes hm hcode, if_pos, mem_orderBy, List.mem_map,
      List.mem_append, rankable, nonrankable, List.mem_filter, Bool.not_eq_true']
    constructor
    · rintro ⟨_, ⟨v, ⟨hv, hvideo⟩, rfl⟩ | ⟨v, ⟨hv, hvideo⟩, rfl⟩, rfl⟩
      · refine ⟨v, hv, ?_⟩
        rw [hvideo, if_neg Bool.false_ne_true]
        rfl
      · refine ⟨v, hv, ?_⟩
        rw [hvideo, if_pos rfl]
        rfl
    · rintro ⟨v, hv, rfl⟩
      cases hvideo : v.completion with
      | false =>
          rw [if_neg Bool.false_ne_true]
          exact ⟨_, .inl ⟨v, ⟨hv, hvideo⟩, rfl⟩, rfl⟩
      | true =>
          rw [if_pos rfl]
          exact ⟨_, .inr ⟨v, ⟨hv, hvideo⟩, rfl⟩, rfl⟩
  rw [leaderboardRank]
  cases hfind : (fetchMapLeaderboard code 0 1 db).find? fun row ↦ row.userId = r.userId with
  | none =>
      have hnone := List.find?_eq_none.mp hfind _ ((hrow _).mpr ⟨r, hr, rfl⟩)
      exfalso
      apply hnone
      split <;> exact decide_eq_true rfl
  | some row =>
      obtain ⟨v, hv, rfl⟩ := (hrow row).mp (List.mem_of_find?_eq_some hfind)
      have huser : v.userId = r.userId := by
        have hfound := List.find?_some hfind
        rw [decide_eq_true_eq] at hfound
        rw [← hfound]
        split <;> rfl
      obtain rfl : v = r :=
        List.inj_on_of_nodup_map (nodup_users_latestPerUser m.id db) hv hr huser
      rw [Option.bind_some]
      split <;> rfl

/-! ## The verdict -/

section Verdict

/-- The run as the verdict leaves it. -/
def verifiedRun (verifiedBy : Nat) (reason : Option String) (c : CoreCompletion) : CoreCompletion :=
  { c with verified := true, verifiedBy := some verifiedBy, reason }

theorem mem_verified (hc : c ∈ db.coreCompletions.rows) :
    x ∈ (updateVerification c.id true verifiedBy reason db).coreCompletions.rows ↔
      x = verifiedRun verifiedBy reason c ∨ x ∈ db.coreCompletions.rows ∧ x ≠ c := by
  rw [mem_updateVerification]
  constructor
  · rintro ⟨x, hx, rfl⟩
    by_cases hid : x.id = c.id
    · obtain rfl : x = c := Table.eq_of_key_eq hx hc hid
      exact .inl (if_pos hid)
    · rw [if_neg hid]
      refine .inr ⟨hx, fun heq ↦ ?_⟩
      rw [heq] at hid
      exact hid rfl
  · rintro (rfl | ⟨hx, hne⟩)
    · exact ⟨c, hc, if_pos rfl⟩
    · refine ⟨x, hx, if_neg fun hid ↦ hne ?_⟩
      exact Table.eq_of_key_eq hx hc hid

theorem uniqueRuns_verified (h : UniqueRuns db) (hc : c ∈ db.coreCompletions.rows) :
    UniqueRuns (updateVerification c.id true verifiedBy reason db) := by
  have hback : ∀ x ∈ (updateVerification c.id true verifiedBy reason db).coreCompletions.rows,
      ∃ y ∈ db.coreCompletions.rows, y.mapId = x.mapId ∧ y.userId = x.userId ∧
        y.insertedAt = x.insertedAt ∧ key y = key x := by
    intro x hx
    rcases (mem_verified hc).mp hx with rfl | ⟨hx, _⟩
    · exact ⟨c, hc, rfl, rfl, rfl, rfl⟩
    · exact ⟨x, hx, rfl, rfl, rfl, rfl⟩
  intro a ha b hb hmap huser hinserted
  obtain ⟨a₀, ha₀, hamap, hauser, hainserted, hakey⟩ := hback a ha
  obtain ⟨b₀, hb₀, hbmap, hbuser, hbinserted, hbkey⟩ := hback b hb
  have heq : a₀ = b₀ := h a₀ ha₀ b₀ hb₀ (by rw [hamap, hbmap, hmap])
    (by rw [hauser, hbuser, huser]) (by rw [hainserted, hbinserted, hinserted])
  apply Table.eq_of_key_eq ha hb
  rw [← hakey, ← hbkey, heq]

/-- The other users stand with the runs they stood with. -/
theorem mem_latest_verified_of_ne (h : UniqueRuns db) (hc : c ∈ db.coreCompletions.rows)
    (huser : x.userId ≠ c.userId) :
    x ∈ latestPerUser mapId (updateVerification c.id true verifiedBy reason db) ↔
      x ∈ latestPerUser mapId db := by
  have hrows : ∀ y : CoreCompletion, y.userId = x.userId →
      (y ∈ (updateVerification c.id true verifiedBy reason db).coreCompletions.rows ↔
        y ∈ db.coreCompletions.rows) := by
    intro y hy
    rw [mem_verified hc]
    constructor
    · rintro (rfl | ⟨hmem, _⟩)
      · exact absurd hy.symm huser
      · exact hmem
    · intro hmem
      refine .inr ⟨hmem, fun heq ↦ huser ?_⟩
      rw [← hy, heq]
  rw [mem_latestPerUser (uniqueRuns_verified h hc), mem_latestPerUser h, IsLast, IsLast, hrows x rfl]
  apply and_congr_right
  intro _
  constructor
  · intro hlast y hy hmap hverified hyuser
    exact hlast y ((hrows y hyuser).mpr hy) hmap hverified hyuser
  · intro hlast y hy hmap hverified hyuser
    exact hlast y ((hrows y hyuser).mp hy) hmap hverified hyuser

/-- The user stands with the run, or with a verified one that came later. -/
theorem standing_cases (h : UniqueRuns db) (hc : c ∈ db.coreCompletions.rows) :
    (standing db c = c ∧ ∀ y ∈ latestPerUser c.mapId db, y.userId = c.userId →
        y.insertedAt ≤ c.insertedAt) ∨
      (standing db c ∈ latestPerUser c.mapId db ∧ (standing db c).userId = c.userId ∧
        c.insertedAt < (standing db c).insertedAt) := by
  rw [standing]
  cases hfind : (latestPerUser c.mapId db).find? fun r ↦
      r.userId = c.userId && c.insertedAt < r.insertedAt with
  | none =>
      refine .inl ⟨rfl, fun y hy huser ↦ ?_⟩
      have hnot := List.find?_eq_none.mp hfind y hy
      rw [Bool.and_eq_true, decide_eq_true_eq, decide_eq_true_eq, not_and, not_lt] at hnot
      exact hnot huser
  | some r =>
      have hfound := List.find?_some hfind
      rw [Bool.and_eq_true, decide_eq_true_eq, decide_eq_true_eq] at hfound
      exact .inr ⟨List.mem_of_find?_eq_some hfind, hfound⟩

/-- After the verdict the user is there with that run. -/
theorem exists_standing (h : UniqueRuns db) (hc : c ∈ db.coreCompletions.rows) (verifiedBy : Nat)
    (reason : Option String) :
    ∃ r ∈ latestPerUser c.mapId (updateVerification c.id true verifiedBy reason db),
      r.userId = c.userId ∧ r.time = (standing db c).time ∧
        r.completion = (standing db c).completion := by
  have h' : UniqueRuns (updateVerification c.id true verifiedBy reason db) := uniqueRuns_verified h hc
  rcases standing_cases h hc with ⟨heq, hlast⟩ | ⟨hmem, huser, hlater⟩
  · refine ⟨verifiedRun verifiedBy reason c, (mem_latestPerUser h').mpr ⟨⟨?_, rfl, rfl⟩, ?_⟩, rfl,
      by rw [heq]; rfl, by rw [heq]; rfl⟩
    · exact (mem_verified hc).mpr (.inl rfl)
    · intro y hy hmap hverified hyuser
      rcases (mem_verified hc).mp hy with rfl | ⟨hy, _⟩
      · exact le_rfl
      · -- the last verified run of the user did not come later, so that none did
        have hy' : y ∈ db.coreCompletions.select fun c' ↦ c'.mapId = c.mapId && c'.verified :=
          Table.mem_select.mpr ⟨hy, by rw [hverified]; simpa using hmap⟩
        have hrep : ∃ z ∈ latestPerUser c.mapId db, z.userId = y.userId :=
          exists_mem_distinctOn (mem_orderBy.mpr hy')
        obtain ⟨z, hz, hzuser⟩ := hrep
        have hzy := ((mem_latestPerUser h).mp hz).2 y hy hmap hverified hzuser.symm
        exact hzy.trans (hlast z hz (hzuser.trans hyuser))
  · obtain ⟨⟨hrow, hmap, hverified⟩, hlast⟩ := (mem_latestPerUser h).mp hmem
    refine ⟨standing db c, (mem_latestPerUser h').mpr ⟨⟨?_, hmap, hverified⟩, ?_⟩, huser, rfl, rfl⟩
    · refine (mem_verified hc).mpr (.inr ⟨hrow, fun heq ↦ ?_⟩)
      rw [heq] at hlater
      exact lt_irrefl _ hlater
    · intro y hy hymap hyverified hyuser
      rcases (mem_verified hc).mp hy with rfl | ⟨hy, _⟩
      · exact hlater.le
      · exact hlast y hy hymap hyverified hyuser

/-- The leaderboard counts the last runs with a video that are faster than that run. -/
theorem countP_verified (h : UniqueRuns db) (hc : c ∈ db.coreCompletions.rows)
    (hr : r ∈ latestPerUser c.mapId (updateVerification c.id true verifiedBy reason db))
    (huser : r.userId = c.userId) :
    ((latestPerUser c.mapId (updateVerification c.id true verifiedBy reason db)).filter
        fun v ↦ !v.completion).countP (fun v ↦ v.time < r.time) =
      ((latestPerUser c.mapId db).filter fun v ↦ !v.completion).countP
        fun v ↦ v.userId ≠ c.userId && v.time < r.time := by
  rw [List.countP_filter, List.countP_filter, List.countP_eq_length_filter,
    List.countP_eq_length_filter]
  apply List.Perm.length_eq
  refine (List.perm_ext_iff_of_nodup ?_ ?_).mpr fun v ↦ ?_
  · exact (nodup_users_latestPerUser _ _).of_map.filter _
  · exact (nodup_users_latestPerUser _ _).of_map.filter _
  · simp only [List.mem_filter, Bool.and_eq_true, decide_eq_true_eq]
    by_cases hv : v.userId = c.userId
    · refine iff_of_false (fun hv' ↦ ?_) fun hv' ↦ hv'.2.1.1 hv
      have heq : v = r := List.inj_on_of_nodup_map (nodup_users_latestPerUser _ _) hv'.1 hr
        (hv.trans huser.symm)
      rw [heq] at hv'
      exact lt_irrefl _ hv'.2.1
    · rw [mem_latest_verified_of_ne h hc hv, and_iff_right hv]

end Verdict

/-! ## When they agree -/

section Agreement

/-- The faster last runs with a video, the user's own aside. -/
def aheadOf (db : Db) (c : CoreCompletion) (time : Int) : Nat :=
  ((latestPerUser c.mapId db).filter fun v ↦ !v.completion).countP
    fun v ↦ v.userId ≠ c.userId && v.time < time

/-- Where no run of the user's own is in the way, the preview counts those ahead of the run and
the overtaken ones, and the leaderboard those ahead of the run and those between. -/
theorem countP_of_own (h : UniqueRuns db) (hc : c ∈ db.coreCompletions.rows)
    (hvideo : (standing db c).completion = false)
    (hown : ∀ v ∈ latestVideoPerUser c.mapId db, v.userId = c.userId → c.time ≤ v.time) :
    (latestVideoPerUser c.mapId db).countP (fun v ↦ v.time < c.time) =
        aheadOf db c c.time + overtakenVideos db c ∧
      aheadOf db c (standing db c).time = aheadOf db c c.time + videosBetween db c := by
  have hmine : ∀ v ∈ latestPerUser c.mapId db, v.completion = false → v.userId = c.userId →
      c.time ≤ v.time :=
    fun v hv hvvideo huser ↦ hown v (mem_latestVideoPerUser_of_latest h hv hvvideo) huser
  constructor
  · rw [countP_latestVideoPerUser h, aheadOf, overtakenVideos]
    congr 1
    apply List.countP_congr
    intro v hv
    obtain ⟨hv, hvvideo⟩ := List.mem_filter.mp hv
    rw [Bool.not_eq_true'] at hvvideo
    simp only [Bool.and_eq_true, decide_eq_true_eq]
    constructor
    · intro hlt
      exact ⟨fun huser ↦ absurd (hmine v hv hvvideo huser) (not_le.mpr hlt), hlt⟩
    · exact fun hboth ↦ hboth.2
  · -- the user's last run with a video, if it is the last one at all, is not ahead of itself
    have hstands : c.time ≤ (standing db c).time ∧ ∀ v ∈ latestPerUser c.mapId db,
        v.completion = false → v.userId = c.userId → c.time ≤ v.time → v.time < (standing db c).time →
          False := by
      rcases standing_cases h hc with ⟨heq, _⟩ | ⟨hmem, huser, _⟩
      · rw [heq]
        exact ⟨le_rfl, fun v _ _ _ hle hlt ↦ absurd hlt (not_lt.mpr hle)⟩
      · refine ⟨hmine _ hmem hvideo huser, fun v hv _ hvuser _ hlt ↦ ?_⟩
        have heq : v = standing db c := List.inj_on_of_nodup_map (nodup_users_latestPerUser _ _) hv
          hmem (hvuser.trans huser.symm)
        rw [heq] at hlt
        exact lt_irrefl _ hlt
    obtain ⟨hle, hnone⟩ := hstands
    rw [aheadOf, aheadOf, videosBetween, List.countP_filter, List.countP_filter]
    have hall : ∀ v ∈ latestPerUser c.mapId db, v.completion = false → v.userId = c.userId →
        c.time ≤ v.time ∧ ¬ v.time < (standing db c).time :=
      fun v hv hvvideo huser ↦ ⟨hmine v hv hvvideo huser,
        fun hlt ↦ hnone v hv hvvideo huser (hmine v hv hvvideo huser) hlt⟩
    revert hall
    induction latestPerUser c.mapId db with
    | nil => exact fun _ ↦ rfl
    | cons v l ih =>
        intro hall
        rw [List.countP_cons, List.countP_cons, List.countP_cons,
          ih fun x hx ↦ hall x (List.mem_cons_of_mem _ hx)]
        cases hvvideo : v.completion with
        | true => simp
        | false =>
            have hv := hall v List.mem_cons_self hvvideo
            by_cases huser : v.userId = c.userId
            · obtain ⟨hge, hnlt⟩ := hv huser
              simp [huser, hnlt]
            · by_cases hfast : v.time < c.time
              · have hlt : v.time < (standing db c).time := lt_of_lt_of_le hfast hle
                have hnle : ¬ c.time ≤ v.time := not_le.mpr hfast
                simp [huser, hfast, hlt, hnle]
                omega
              · have hge : c.time ≤ v.time := not_lt.mp hfast
                by_cases hlt : v.time < (standing db c).time
                · simp [huser, hfast, hlt, hge]
                  omega
                · simp [huser, hfast, hlt]

/-- A faster run of the user's own is counted by the preview and not by the leaderboard. -/
theorem aheadOf_lt_of_own (h : UniqueRuns db) (hc : c ∈ db.coreCompletions.rows)
    (hvideo : (standing db c).completion = false) (hv : v ∈ latestVideoPerUser c.mapId db)
    (huser : v.userId = c.userId) (hfast : v.time < c.time) :
    aheadOf db c (standing db c).time <
      (latestVideoPerUser c.mapId db).countP fun v ↦ v.time < c.time := by
  have hle : (standing db c).time ≤ c.time := by
    rcases standing_cases h hc with ⟨heq, _⟩ | ⟨hmem, hsuser, _⟩
    · rw [heq]
    · have heq : v = standing db c := eq_of_latestVideo h hmem hvideo hv (huser.trans hsuser.symm)
      rw [← heq]
      exact hfast.le
  have hsub : aheadOf db c (standing db c).time ≤
      (latestVideoPerUser c.mapId db).countP fun v ↦ v.userId ≠ c.userId && v.time < c.time := by
    rw [aheadOf, countP_latestVideoPerUser h]
    refine le_trans (List.countP_mono_left fun x _ hx ↦ ?_) (Nat.le_add_right _ _)
    rw [Bool.and_eq_true, decide_eq_true_eq, decide_eq_true_eq] at hx ⊢
    exact ⟨hx.1, lt_of_lt_of_le hx.2 hle⟩
  refine lt_of_le_of_lt hsub ?_
  refine lt_of_le_of_ne (List.countP_mono_left fun x _ hx ↦ ?_) fun heq ↦ ?_
  · rw [Bool.and_eq_true] at hx
    exact hx.2
  · have himp : ∀ x ∈ latestVideoPerUser c.mapId db,
        (decide (x.userId ≠ c.userId) && decide (x.time < c.time)) = true →
          decide (x.time < c.time) = true := by
      intro x _ hx
      rw [Bool.and_eq_true] at hx
      exact hx.2
    have hmine := (countP_eq_countP_iff himp).mp heq v hv (decide_eq_true hfast)
    rw [Bool.and_eq_true, decide_eq_true_eq] at hmine
    exact hmine.1 huser

end Agreement

/-- The preview of a pending run with a video is the rank its user gets exactly when the user
stands with a run with a video, no earlier one is faster, and the overtaken runs with a video
that are faster are as many as the ones between. -/
theorem previewedRank_eq_leaderboardRank_iff (db : Db) (c : CoreCompletion) (m : CoreMap)
    (code : String) (verifiedBy : Nat) (reason : Option String) (hruns : UniqueRuns db)
    (hcodes : UniqueCodes db) (hm : m ∈ db.maps.rows) (hcode : m.code = some code)
    (hc : c ∈ db.coreCompletions.rows) (hmap : c.mapId = m.id)
    (hvideo : c.completion = false) :
    previewedRank c.id db =
        leaderboardRank code c.userId (updateVerification c.id true verifiedBy reason db) ↔
      SameField db c := by
  obtain ⟨r, hr, huser, htime, hkind⟩ := exists_standing hruns hc verifiedBy reason
  have hcount := countP_verified hruns hc hr huser
  rw [hmap] at hr
  have hboard : leaderboardRank code r.userId
      (updateVerification c.id true verifiedBy reason db) = _ :=
    leaderboardRank_eq hcodes hm hcode hr
  rw [previewedRank_eq hm hcode hc hmap hvideo, ← huser, hboard, ← hmap, rank, hcount, hkind, htime]
  cases hstands : (standing db c).completion with
  | true =>
      rw [if_pos rfl]
      refine iff_of_false (fun heq ↦ by cases heq) fun hsame ↦ ?_
      rw [hsame.video] at hstands
      cases hstands
  | false =>
      rw [if_neg Bool.false_ne_true, Option.some.injEq, Nat.add_left_cancel_iff]
      change _ = aheadOf db c (standing db c).time ↔ _
      constructor
      · intro heq
        have hown : ∀ v ∈ latestVideoPerUser c.mapId db, v.userId = c.userId → c.time ≤ v.time := by
          intro v hv hvuser
          by_contra hlt
          have hless := aheadOf_lt_of_own hruns hc hstands hv hvuser (not_le.mp hlt)
          rw [← heq] at hless
          exact lt_irrefl _ hless
        obtain ⟨hpreview, hleads⟩ := countP_of_own hruns hc hstands hown
        refine ⟨hstands, hown, ?_⟩
        rw [hpreview, hleads] at heq
        omega
      · intro hsame
        obtain ⟨hpreview, hleads⟩ := countP_of_own hruns hc hstands hsame.own
        rw [hpreview, hsame.ahead, ← hleads]

/-- User 7's run with a video, which is to be verified. -/
def pendingVideo : CoreCompletion where
  id := 3
  mapId := 1
  userId := 7
  time := 1100
  screenshot := "s"
  video := some "v"
  completion := false
  insertedAt := 7

theorem key_pendingVideo (id : Nat) : key { pendingVideo with id } = id := rfl

/-- User 8 has gone on from a faster run with a video to one without. -/
def goneOn : Db where
  maps := Table.empty.insert fun id ↦ { id, code := some "ABCD", difficulty := .easy }
  coreCompletions := ((Table.empty.insert fun id ↦
    { id, mapId := 1, userId := 8, time := 1000, screenshot := "s", video := some "v"
      verified := true, completion := false, insertedAt := 5 }).insert fun id ↦
    { id, mapId := 1, userId := 8, time := 900, screenshot := "s", video := none
      verified := true, completion := true, insertedAt := 6 }).insert
        (fun id ↦ { pendingVideo with id }) key_pendingVideo

/-- The verifier is shown a second place; the leaderboard says first. -/
theorem goneOn_preview_differs : (pendingVideo ∈ goneOn.coreCompletions.rows ∧
      pendingVideo.pending = true ∧ pendingVideo.completion = false) ∧
    previewedRank 3 goneOn ≠ leaderboardRank "ABCD" 7 (updateVerification 3 true 9 none goneOn) := by
  decide +kernel

/-- The rule at that run. -/
theorem goneOn_preview_iff :
    previewedRank 3 goneOn = leaderboardRank "ABCD" 7 (updateVerification 3 true 9 none goneOn) ↔
      SameField goneOn pendingVideo := by
  refine previewedRank_eq_leaderboardRank_iff goneOn pendingVideo
    { id := 1, code := some "ABCD", difficulty := .easy } "ABCD" 9 none ?_ ?_ ?_ rfl ?_ rfl rfl
  · decide
  · decide
  · exact List.mem_cons_self
  · decide

end Genjishimada.Completions
