import Genjishimada.Repository.Completions
import Genjishimada.Skill.Suspicion
import Mathlib.Algebra.Order.Field.Basic
import Mathlib.Data.Rat.Cast.Order
import Mathlib.Tactic.Linarith
import Mathlib.Tactic.NormNum

/-!
# One more run

A user is scored by the fastest run on a map.  A faster run with a video raises every factor
of the score, as long as the weights reward what they are named for: a gold medal no less
than a silver one, a larger field no less than a smaller one.  A faster run without a video
takes the place of one with a video and leaves only the floor, which is how the score is
meant; that case aside, one more run never lowers it (`scoreOn_le_of_added`).
-/

namespace Genjishimada.Skill

open Library Services Repository Sdk

/-! ## One more run -/

/-- The database with one more completion. -/
def added (db : Db) (new : Nat → CoreCompletion) (hkey : ∀ id, key (new id) = id) : Db :=
  { db with coreCompletions := db.coreCompletions.insert new hkey }

section Added

variable {db : Db} {new : Nat → CoreCompletion} {hkey : ∀ id, key (new id) = id}

theorem rows_without_added :
    (without (added db new hkey) (new db.coreCompletions.nextId)).coreCompletions.rows =
      db.coreCompletions.rows := by
  have hfresh : ∀ r ∈ db.coreCompletions.rows,
      (!decide (r.id = (new db.coreCompletions.nextId).id)) = true := by
    intro r hr
    have hlt : r.id < db.coreCompletions.nextId := db.coreCompletions.fresh r hr
    have hid : (new db.coreCompletions.nextId).id = db.coreCompletions.nextId := hkey _
    rw [hid, Bool.not_eq_true', decide_eq_false_iff_not]
    omega
  show ((db.coreCompletions.insert new hkey).delete _).rows = _
  rw [Table.rows_delete, Table.rows_insert, List.filter_append, List.filter_eq_self.mpr hfresh]
  simp

/-- Taking the run away again leaves the inputs as they were. -/
theorem best_without_added :
    best (without (added db new hkey) (new db.coreCompletions.nextId)) = best db := by
  rw [best_eq, best_eq, sortedRuns, sortedRuns, Table.select, Table.select, rows_without_added]
  rfl

theorem fetchSkillInputs_without_added :
    fetchSkillInputs (without (added db new hkey) (new db.coreCompletions.nextId)) =
      fetchSkillInputs db := by
  rw [fetchSkillInputs, fetchSkillInputs, skillInputQuery, skillInputQuery, fully, fully, field,
    field, videoRanked, videoRanked, best_without_added]
  rfl

end Added

/-! ## The score on a map -/

section Score

variable {K : Type} [DivisionRing K] [LinearOrder K] [IsStrictOrderedRing K] (pow : K → K → K)
  {w : Weights K} {db : Db} {b c : CoreCompletion} {m : CoreMap}

/-- The user's score on a map, if the user is scored on it. -/
def scoreOn (w : Weights K) (db : Db) (userId mapId : Nat) : Option K :=
  ((fetchSkillInputs db).find? fun r ↦ r.userId = userId ∧ r.mapId = mapId).map fun r ↦
    mapScore pow r w

/-- The factors of `_map_score`. -/
def timeFactor (w : Weights K) (fieldSize : Nat) (timePct : Rat) : K :=
  let size : K := if fieldSize = 0 then 1 else fieldSize
  1 + w.timeBonus * (size / (size + w.shrinkK)) * (timePct : K)

def medalFactor (w : Weights K) : Option Medal → K
  | some .gold => w.medalGold
  | some .silver => w.medalSilver
  | some .bronze => w.medalBronze
  | none => 1

def recordFactor (w : Weights K) (videoRank : Option Nat) : K :=
  if videoRank = some 1 then 1 + w.wrBonus else 1

omit [LinearOrder K] [IsStrictOrderedRing K] in
theorem mapScore_of_video {r : SkillInput} (h : r.fullyVerified = true) (w : Weights K) :
    mapScore pow r w = diffWeight pow r.rawDifficulty w * timeFactor w r.fieldSize r.timePct *
      medalFactor w r.medal * recordFactor w r.videoRank := by
  rw [mapScore, h]
  rfl

omit [LinearOrder K] [IsStrictOrderedRing K] in
theorem mapScore_of_unverified {r : SkillInput} (h : r.fullyVerified = false) (w : Weights K) :
    mapScore pow r w = diffWeight pow r.rawDifficulty w * w.partialFactor := by
  rw [mapScore, h]
  rfl

/-- The score of a run that a user is scored by. -/
def runScore (w : Weights K) (db : Db) (b : CoreCompletion) (m : CoreMap) : K :=
  let s := scoreInputOf db b m
  if s.fullyVerified then
    diffWeight pow s.rawDifficulty w * timeFactor w s.fieldSize s.timePct * medalFactor w s.medal *
      recordFactor w s.videoRank
  else diffWeight pow s.rawDifficulty w * w.partialFactor

omit [LinearOrder K] [IsStrictOrderedRing K] in
theorem mapScore_eq_runScore {r : SkillInput} (h : scoreInput r = scoreInputOf db b m) :
    mapScore pow r w = runScore pow w db b m := by
  rw [runScore, ← h]
  cases hr : r.fullyVerified with
  | true =>
      rw [mapScore_of_video pow hr]
      exact (if_pos hr).symm
  | false =>
      rw [mapScore_of_unverified pow hr]
      exact (if_neg (by rw [scoreInput, hr]; exact Bool.false_ne_true)).symm

omit [LinearOrder K] [IsStrictOrderedRing K] in
/-- A user is scored by the ranked run, unless it is flagged. -/
theorem scoreOn_eq_some (hb : b ∈ best db) (hm : db.maps.get? b.mapId = some m)
    (hflag : suspicious db b.id = false) :
    scoreOn pow w db b.userId b.mapId = some (runScore pow w db b m) := by
  have hrow : scoreInputOf db b m ∈ (fetchSkillInputs db).map scoreInput :=
    mem_scoreInputs.mpr ⟨b, hb, m, hm, hflag, rfl⟩
  obtain ⟨r, hr, hread⟩ := List.mem_map.mp hrow
  rw [scoreOn]
  cases hfind : (fetchSkillInputs db).find? fun r ↦ r.userId = b.userId ∧ r.mapId = b.mapId with
  | none =>
      have hnot := List.find?_eq_none.mp hfind r hr
      have huser : r.userId = b.userId := congrArg ScoreInput.userId hread
      have hmap : r.mapId = b.mapId := congrArg ScoreInput.mapId hread
      exact absurd (decide_eq_true ⟨huser, hmap⟩) hnot
  | some r' =>
      have hfound := List.find?_some hfind
      rw [decide_eq_true_eq] at hfound
      obtain ⟨b', hb', m', hm', _, hread'⟩ :=
        mem_scoreInputs.mp (List.mem_map_of_mem (List.mem_of_find?_eq_some hfind))
      have huser : r'.userId = b'.userId := congrArg ScoreInput.userId hread'
      have hmap : r'.mapId = b'.mapId := congrArg ScoreInput.mapId hread'
      obtain rfl : b' = b := eq_of_mem_best hb' hb (huser.symm.trans hfound.1)
        (hmap.symm.trans hfound.2)
      obtain rfl : m' = m := Option.some.inj (hm'.symm.trans hm)
      rw [Option.map_some, mapScore_eq_runScore pow hread']

omit [LinearOrder K] [IsStrictOrderedRing K] in
/-- Where a user is scored on a map, it is by a ranked run that is not flagged. -/
theorem exists_of_scoreOn {userId mapId : Nat} {s : K}
    (h : scoreOn pow w db userId mapId = some s) :
    ∃ b ∈ best db, ∃ m, db.maps.get? b.mapId = some m ∧ suspicious db b.id = false ∧
      b.userId = userId ∧ b.mapId = mapId ∧ s = runScore pow w db b m := by
  obtain ⟨r, hr, rfl⟩ := Option.map_eq_some_iff.mp h
  have hfound := List.find?_some hr
  rw [decide_eq_true_eq] at hfound
  obtain ⟨b, hb, m, hm, hflag, hread⟩ :=
    mem_scoreInputs.mp (List.mem_map_of_mem (List.mem_of_find?_eq_some hr))
  have huser : r.userId = b.userId := congrArg ScoreInput.userId hread
  have hmap : r.mapId = b.mapId := congrArg ScoreInput.mapId hread
  exact ⟨b, hb, m, hm, hflag, huser.symm.trans hfound.1, hmap.symm.trans hfound.2,
    mapScore_eq_runScore pow hread⟩

end Score

/-! ## What a faster run is worth -/

/-- The weights reward what they are named for. -/
structure Rewarding {K : Type} [DivisionRing K] [LinearOrder K] (w : Weights K) : Prop where
  diffBase : 0 < w.diffBase
  timeBonus : 0 ≤ w.timeBonus
  shrinkK : 0 ≤ w.shrinkK
  wrBonus : 0 ≤ w.wrBonus
  partialFactor : w.partialFactor ≤ 1
  bronze : 1 ≤ w.medalBronze
  silver : w.medalBronze ≤ w.medalSilver
  gold : w.medalSilver ≤ w.medalGold

section Factors

variable {K : Type} [DivisionRing K] [LinearOrder K] [IsStrictOrderedRing K] {w : Weights K}

theorem ratCast_le_ratCast {q r : Rat} (h : q ≤ r) : (q : K) ≤ r := by
  rw [← sub_nonneg, ← Rat.cast_sub, Rat.cast_def]
  exact div_nonneg (Int.cast_nonneg (Rat.num_nonneg.mpr (sub_nonneg.mpr h))) (Nat.cast_nonneg _)

theorem timeFactor_le_timeFactor (h : Rewarding w) (fieldSize : Nat) {pct pct' : Rat}
    (hpct : pct ≤ pct') : timeFactor w fieldSize pct ≤ timeFactor w fieldSize pct' := by
  have hsize : (0 : K) ≤ if fieldSize = 0 then 1 else (fieldSize : K) := by
    split
    · exact zero_le_one
    · exact Nat.cast_nonneg _
  have hshrink : 0 ≤ w.timeBonus * ((if fieldSize = 0 then 1 else (fieldSize : K)) /
      ((if fieldSize = 0 then 1 else (fieldSize : K)) + w.shrinkK)) :=
    mul_nonneg h.timeBonus (div_nonneg hsize (add_nonneg hsize h.shrinkK))
  rw [timeFactor, timeFactor]
  exact add_le_add_right (mul_le_mul_of_nonneg_left (ratCast_le_ratCast hpct) hshrink) 1

theorem one_le_timeFactor (h : Rewarding w) (fieldSize : Nat) {pct : Rat} (hpct : 0 ≤ pct) :
    1 ≤ timeFactor w fieldSize pct := by
  have hzero : timeFactor w fieldSize 0 = 1 := by
    rw [timeFactor, Rat.cast_zero, mul_zero, add_zero]
  rw [← hzero]
  exact timeFactor_le_timeFactor h fieldSize hpct

omit [IsStrictOrderedRing K] in
theorem one_le_medalFactor (h : Rewarding w) (medal : Option Medal) : 1 ≤ medalFactor w medal := by
  have hsilver := h.bronze.trans h.silver
  match medal with
  | none => exact le_rfl
  | some .bronze => exact h.bronze
  | some .silver => exact hsilver
  | some .gold => exact hsilver.trans h.gold

omit [IsStrictOrderedRing K] in
/-- A faster run gets the same medal or a better one. -/
theorem medalFactor_le_medalFactor (h : Rewarding w) (md : Option MedalThresholds) {t t' : Int}
    (hle : t' ≤ t) : medalFactor w (medalFor md t) ≤ medalFactor w (medalFor md t') := by
  have hmet : ∀ threshold : Option Int, threshold.any (t ≤ ·) = true →
      threshold.any (t' ≤ ·) = true := by
    intro threshold hany
    rw [Option.any_eq_true] at hany ⊢
    obtain ⟨x, hx, hle'⟩ := hany
    exact ⟨x, hx, decide_eq_true (hle.trans (of_decide_eq_true hle'))⟩
  have hsilver := h.bronze.trans h.silver
  have hgold := hsilver.trans h.gold
  rw [medalFor, medalFor]
  split
  · rename_i hmedal
    rw [if_pos (hmet _ hmedal)]
  · split
    · rename_i hmedal
      split
      · exact h.gold
      · rw [if_pos (hmet _ hmedal)]
    · split
      · rename_i hmedal
        split
        · exact h.silver.trans h.gold
        · split
          · exact h.silver
          · rw [if_pos (hmet _ hmedal)]
      · exact one_le_medalFactor h _

theorem one_le_recordFactor (h : Rewarding w) (videoRank : Option Nat) :
    1 ≤ recordFactor w videoRank := by
  rw [recordFactor]
  split
  · exact le_add_of_nonneg_right h.wrBonus
  · exact le_rfl

theorem recordFactor_le_recordFactor (h : Rewarding w) {n n' : Nat} (hle : n' ≤ n) :
    recordFactor w (some (1 + n)) ≤ recordFactor w (some (1 + n')) := by
  by_cases hfirst : n = 0
  · obtain rfl : n' = 0 := by omega
    rw [hfirst]
  · have hnot : recordFactor w (some (1 + n)) = 1 := if_neg (by simp [hfirst])
    rw [hnot]
    exact one_le_recordFactor h _

theorem shownPct_le_shownPct {slower slower' : Nat} (size : Nat) (h : slower ≤ slower') :
    shownPct slower size ≤ shownPct slower' size := by
  have hdiv : (slower : Rat) / (size - 1 : Nat) ≤ slower' / (size - 1 : Nat) :=
    div_le_div_of_nonneg_right (Nat.cast_le.mpr h) (Nat.cast_nonneg _)
  have hfloor : ((slower : Rat) / (size - 1 : Nat) * 10000 + 1 / 2).floor ≤
      ((slower' : Rat) / (size - 1 : Nat) * 10000 + 1 / 2).floor := by
    apply Rat.floor_monotone
    linarith
  rw [shownPct, shownPct, round4, round4]
  exact div_le_div_of_nonneg_right (Int.cast_le.mpr hfloor) (by norm_num)

theorem shownPct_nonneg (slower size : Nat) : 0 ≤ shownPct slower size := by
  have hzero : shownPct 0 size = 0 := by
    rw [shownPct, Nat.cast_zero, zero_div]
    decide +kernel
  rw [← hzero]
  exact shownPct_le_shownPct size (Nat.zero_le slower)

end Factors

/-! ## The score of the user -/

/-- A ranked run is found by its user and map. -/
theorem rankedRun_eq_some {db : Db} {b : CoreCompletion} (hb : b ∈ best db) :
    rankedRun db b.userId b.mapId = some b := by
  rw [rankedRun]
  cases hfind : (best db).find? fun b' ↦ (b'.userId, b'.mapId) = (b.userId, b.mapId) with
  | none => exact absurd (decide_eq_true rfl) (List.find?_eq_none.mp hfind b hb)
  | some b' =>
      have hfound := List.find?_some hfind
      rw [decide_eq_true_eq, Prod.mk.injEq] at hfound
      rw [eq_of_mem_best (List.mem_of_find?_eq_some hfind) hb hfound.1 hfound.2]

section Improvement

variable {K : Type} [DivisionRing K] [LinearOrder K] [IsStrictOrderedRing K] {pow : K → K → K}
  {w : Weights K} {db : Db} {b c : CoreCompletion} {m : CoreMap}

/-- The factors beyond the floor. -/
theorem one_le_factors (h : Rewarding w) (fieldSize : Nat) {pct : Rat} (hpct : 0 ≤ pct)
    (medal : Option Medal) (videoRank : Option Nat) :
    1 ≤ timeFactor w fieldSize pct * medalFactor w medal * recordFactor w videoRank :=
  one_le_mul_of_one_le_of_one_le
    (one_le_mul_of_one_le_of_one_le (one_le_timeFactor h _ hpct) (one_le_medalFactor h _))
    (one_le_recordFactor h _)

theorem mul_factors_le {floor t t' m m' r r' : K} (hfloor : 0 ≤ floor) (ht : t ≤ t') (hm : m ≤ m')
    (hr : r ≤ r') (ht' : 1 ≤ t') (hm' : 1 ≤ m) (hr' : 1 ≤ r) :
    floor * t * m * r ≤ floor * t' * m' * r' := by
  have htime : floor * t ≤ floor * t' := mul_le_mul_of_nonneg_left ht hfloor
  have hpos : 0 ≤ floor * t' := mul_nonneg hfloor (zero_le_one.trans ht')
  have hmedal : floor * t * m ≤ floor * t' * m' :=
    mul_le_mul htime hm (zero_le_one.trans hm') hpos
  exact mul_le_mul hmedal hr (zero_le_one.trans hr')
    (mul_nonneg hpos (zero_le_one.trans (hm'.trans hm)))

/-- A ranked run that takes the place of a slower one, and keeps its video, scores no less. -/
theorem runScore_le_of_ranked (h : Rewarding w) (hfloor : 0 ≤ diffWeight pow m.rawDifficulty w)
    (hc : c ∈ db.coreCompletions.rows) (hranked : rankedRun db c.userId c.mapId = some c)
    (hb : rankedRun (without db c) c.userId c.mapId = some b)
    (hvideo : c.completion = true → b.completion = true) :
    runScore pow w (without db c) b m ≤ runScore pow w db c m := by
  have hle : c.time ≤ b.time := rankedRun_time_le hranked hb
  have hmap : b.mapId = c.mapId := (owner_of_rankedRun hb).2.2
  have hcount := fieldCount_of_ranked hranked
  have hcount' := fieldCount_without_of_ranked hc hb
  rw [runScore, runScore]
  cases hkind : c.completion with
  | true =>
      simp [scoreInputOf, hkind, hvideo hkind]
  | false =>
      cases hkind' : b.completion with
      | true =>
          -- from the floor alone to the floor and its factors
          have hone := one_le_factors h (fieldCount db c.mapId fun _ ↦ true)
            (shownPct_nonneg (fieldCount db c.mapId fun r ↦ c.time < r.time)
              (fieldCount db c.mapId fun _ ↦ true))
            (medalFor (db.medals.get? c.mapId) c.time)
            (some (1 + fieldCount db c.mapId fun r ↦ !r.completion && r.time < c.time))
          simp only [scoreInputOf, hkind, hkind', Bool.not_true, Bool.not_false, Bool.false_eq_true,
            if_false, if_true, mul_assoc] at hone ⊢
          exact mul_le_mul_of_nonneg_left (h.partialFactor.trans hone) hfloor
      | false =>
          have hsize : fieldCount (without db c) c.mapId (fun _ ↦ true) =
              fieldCount db c.mapId fun _ ↦ true := by
            rw [hcount, hcount']
          have hslower : fieldCount (without db c) c.mapId (fun r ↦ b.time < r.time) ≤
              fieldCount db c.mapId fun r ↦ c.time < r.time := by
            rw [hcount, hcount']
            simp only [lt_irrefl, decide_false, Bool.false_eq_true, if_false, Nat.add_zero]
            apply List.countP_mono_left
            intro r _ hr
            rw [decide_eq_true_eq, decide_eq_true_eq] at hr ⊢
            exact ⟨hr.1, lt_of_le_of_lt hle hr.2⟩
          have hahead : fieldCount db c.mapId (fun r ↦ !r.completion && r.time < c.time) ≤
              fieldCount (without db c) c.mapId fun r ↦ !r.completion && r.time < b.time := by
            rw [hcount, hcount']
            simp only [lt_irrefl, decide_false, Bool.and_false, Bool.false_eq_true, if_false,
              Nat.add_zero]
            apply List.countP_mono_left
            intro r _ hr
            rw [decide_eq_true_eq, Bool.and_eq_true, decide_eq_true_eq] at hr ⊢
            exact ⟨hr.1, hr.2.1, lt_of_lt_of_le hr.2.2 hle⟩
          have htime := timeFactor_le_timeFactor h (fieldCount db c.mapId fun _ ↦ true)
            (shownPct_le_shownPct (fieldCount db c.mapId fun _ ↦ true) hslower)
          have hmedal := medalFactor_le_medalFactor h (db.medals.get? c.mapId) hle
          have hrecord := recordFactor_le_recordFactor h hahead
          simp only [scoreInputOf, hkind, hkind', hmap, hsize, Bool.not_false, if_true]
          exact mul_factors_le hfloor htime hmedal hrecord (one_le_timeFactor h _ (shownPct_nonneg _ _))
            (one_le_medalFactor h _) (one_le_recordFactor h _)

omit [LinearOrder K] [IsStrictOrderedRing K] in
/-- Where a user is ranked on a map by the same run with and without `c`, the score is the
same. -/
theorem runScore_of_unranked (hc : c ∈ db.coreCompletions.rows)
    (hranked : rankedRun db c.userId c.mapId ≠ some c) :
    runScore pow w (without db c) b m = runScore pow w db b m := by
  have hsame : scoreInputOf (without db c) b m = scoreInputOf db b m := by
    simp only [scoreInputOf, fieldCount_without_of_unranked hc hranked]
    rfl
  rw [runScore, runScore, hsame]

/-- A user's score on a map is no lower with a run than without it, if it takes the place of no
run with a video or has one itself. -/
theorem scoreOn_le_of_mem (h : Rewarding w) (hpow : ∀ x y : K, 0 < x → 0 < pow x y)
    (hc : c ∈ db.coreCompletions.rows) (hflag : suspicious db c.id = false)
    (hvideo : ∀ b, rankedRun (without db c) c.userId c.mapId = some b → c.completion = true →
      b.completion = false → b.time < c.time) {s : K}
    (hs : scoreOn pow w (without db c) c.userId c.mapId = some s) :
    ∃ s', scoreOn pow w db c.userId c.mapId = some s' ∧ s ≤ s' := by
  obtain ⟨b, hb, m, hm, hbflag, huser, hmap, rfl⟩ := exists_of_scoreOn pow hs
  have hfloor : 0 ≤ diffWeight pow m.rawDifficulty w := (hpow _ _ h.diffBase).le
  have hrankedB : rankedRun (without db c) c.userId c.mapId = some b := by
    have hfound := rankedRun_eq_some hb
    rwa [huser, hmap] at hfound
  by_cases hranked : rankedRun db c.userId c.mapId = some c
  · have hkeeps : c.completion = true → b.completion = true := by
      intro hkind
      cases hkind' : b.completion with
      | true => rfl
      | false =>
          exact absurd (hvideo b hrankedB hkind hkind') (not_lt.mpr (rankedRun_time_le hranked hrankedB))
    have hmem : c ∈ best db := (owner_of_rankedRun hranked).1
    have hget : db.maps.get? c.mapId = some m := by
      rw [← hmap]
      exact hm
    exact ⟨_, scoreOn_eq_some pow hmem hget hflag,
      runScore_le_of_ranked h hfloor hc hranked hrankedB hkeeps⟩
  · have hstill : rankedRun db c.userId c.mapId = some b := by
      rw [← rankedRun_without hc hranked]
      exact hrankedB
    refine ⟨runScore pow w db b m, ?_, (runScore_of_unranked hc hranked).le⟩
    rw [← huser, ← hmap]
    exact scoreOn_eq_some pow (owner_of_rankedRun hstill).1 hm hbflag

end Improvement

/-- One more run of a user never lowers the user's score on the map, unless it has no video and
is at least as fast as the run with a video that the user is scored by. -/
theorem scoreOn_le_of_added {K : Type} [DivisionRing K] [LinearOrder K] [IsStrictOrderedRing K]
    (pow : K → K → K) (hpow : ∀ x y : K, 0 < x → 0 < pow x y) (w : Weights K) (hw : Rewarding w)
    (db : Db) (new : Nat → CoreCompletion) (hkey : ∀ id, key (new id) = id) (userId mapId : Nat)
    (hown : (new db.coreCompletions.nextId).userId = userId ∧
      (new db.coreCompletions.nextId).mapId = mapId)
    (hflag : suspicious db (new db.coreCompletions.nextId).id = false)
    (hvideo : ∀ b, rankedRun db userId mapId = some b →
      (new db.coreCompletions.nextId).completion = true → b.completion = false →
        b.time < (new db.coreCompletions.nextId).time)
    (s : K) (hs : scoreOn pow w db userId mapId = some s) :
    ∃ s', scoreOn pow w (added db new hkey) userId mapId = some s' ∧ s ≤ s' := by
  obtain ⟨rfl, rfl⟩ := hown
  have hmem : new db.coreCompletions.nextId ∈ (added db new hkey).coreCompletions.rows :=
    List.mem_append_right _ (List.mem_singleton_self _)
  apply scoreOn_le_of_mem hw hpow hmem hflag
  · intro b hb
    apply hvideo b
    rw [rankedRun, best_without_added] at hb
    exact hb
  · rw [scoreOn, fetchSkillInputs_without_added]
    exact hs

/-- A power, as far as the floor of a map of difficulty 5/2 needs it. -/
def unitPow (x y : Rat) : Rat := if y = 1 then x else 1

theorem unitPow_pos (x y : Rat) (hx : 0 < x) : 0 < unitPow x y := by
  rw [unitPow]
  split
  · exact hx
  · exact one_pos

/-- The weights a deployment starts with. -/
def seeded : Weights Rat where
  diffBase := 144 / 100
  gamma := 68 / 100
  timeBonus := 55 / 100
  shrinkK := 10
  wrBonus := 10 / 100
  partialFactor := 60 / 100
  medalGold := 112 / 100
  medalSilver := 107 / 100
  medalBronze := 103 / 100

/-- Two users with a video each, on a map with medals. -/
def twoVideos : Db where
  maps := Table.empty.insert fun id ↦ { id, code := some "ABCD", difficulty := .easy
                                        rawDifficulty := 5 / 2 }
  medals := Table.empty.insert fun mapId ↦ { mapId, gold := some 800, silver := some 1000 }
  coreCompletions := (Table.empty.insert fun id ↦
    { id, mapId := 1, userId := 7, time := 1000, screenshot := "s", video := some "v"
      verified := true, completion := false, insertedAt := 5 }).insert fun id ↦
    { id, mapId := 1, userId := 8, time := 2000, screenshot := "s", video := some "v"
      verified := true, completion := false, insertedAt := 6 }

/-- One more verified run. -/
def fasterRun (userId : Nat) (time : Int) (completion : Bool) (id : Nat) : CoreCompletion where
  id := id
  mapId := 1
  userId := userId
  time := time
  screenshot := "s"
  video := if completion then none else some "v"
  verified := true
  completion := completion
  insertedAt := 7

theorem key_fasterRun (userId : Nat) (time : Int) (completion : Bool) (id : Nat) :
    key (fasterRun userId time completion id) = id := rfl

theorem rewarding_seeded : Rewarding seeded := by
  constructor <;> decide +kernel

/-- The second user takes the record with a video of 9.00. -/
theorem scoreOn_fasterRun :
    ∃ s s', scoreOn unitPow seeded twoVideos 8 1 = some s ∧
      scoreOn unitPow seeded (added twoVideos (fasterRun 8 900 false) (key_fasterRun _ _ _)) 8 1 =
        some s' ∧ s ≤ s' := by
  have hscored : (scoreOn unitPow seeded twoVideos 8 1).isSome = true := by decide +kernel
  obtain ⟨s, hs⟩ := Option.isSome_iff_exists.mp hscored
  obtain ⟨s', hs', hle⟩ := scoreOn_le_of_added unitPow unitPow_pos seeded rewarding_seeded twoVideos
    (fasterRun 8 900 false) (key_fasterRun _ _ _) 8 1 ⟨rfl, rfl⟩ (by decide +kernel)
    (fun _ _ hkind _ ↦ absurd hkind Bool.false_ne_true) s hs
  exact ⟨s, s', hs, hs', hle⟩

/-- Bonuses are not negative, medals multiply by one at least and a partial clear by one at
most. -/
def Admissible (w : Weights Rat) : Prop :=
  0 ≤ w.timeBonus ∧ 0 ≤ w.wrBonus ∧ 1 ≤ w.medalGold ∧ 1 ≤ w.medalSilver ∧ 1 ≤ w.medalBronze ∧
    w.partialFactor ≤ 1

/-- The score of the user before the run and after it. -/
def scoresAround (w : Weights Rat) (userId : Nat) (time : Int) (completion : Bool) :
    Option Rat × Option Rat :=
  (scoreOn unitPow w twoVideos userId 1,
    scoreOn unitPow w (added twoVideos (fasterRun userId time completion) (key_fasterRun _ _ _))
      userId 1)

/-- The run is let in and does not lower the score of its user. -/
def KeepsScore (w : Weights Rat) (userId : Nat) (time : Int) (completion : Bool) : Prop :=
  enforceSpeedRules (fasterRun userId time completion 3) false twoVideos = none →
    ∀ s, (scoresAround w userId time completion).1 = some s →
      ∃ s', (scoresAround w userId time completion).2 = some s' ∧ s ≤ s'

theorem not_keepsScore {w : Weights Rat} {userId : Nat} {time : Int} {completion : Bool}
    (haccepted : enforceSpeedRules (fasterRun userId time completion 3) false twoVideos = none)
    (hlower : ∃ s ∈ (scoresAround w userId time completion).1,
      ∃ s' ∈ (scoresAround w userId time completion).2, s' < s) :
    ¬ KeepsScore w userId time completion := by
  intro hkeeps
  obtain ⟨s, hs, s', hs', hlt⟩ := hlower
  obtain ⟨s'', hs'', hle⟩ := hkeeps haccepted s hs
  rw [Option.mem_def.mp hs', Option.some.injEq] at hs''
  rw [← hs''] at hle
  exact absurd hlt (not_lt.mpr hle)

/-- A faster run lowers the score where it has no video; and, with a video, where silver is worth
more than gold, where the field shrinks below nothing, or where the floor is negative. -/
theorem fasterRun_lowers :
    (Admissible seeded ∧ ¬ KeepsScore seeded 7 900 true) ∧
      (Admissible { seeded with medalGold := 1, medalSilver := 2 } ∧
        ¬ KeepsScore { seeded with medalGold := 1, medalSilver := 2 } 7 700 false) ∧
      (Admissible { seeded with shrinkK := -4 } ∧
        ¬ KeepsScore { seeded with shrinkK := -4 } 8 900 false) ∧
      (Admissible { seeded with diffBase := -1 } ∧
        ¬ KeepsScore { seeded with diffBase := -1 } 8 900 false) := by
  refine ⟨⟨?_, not_keepsScore ?_ ?_⟩, ⟨?_, not_keepsScore ?_ ?_⟩, ⟨?_, not_keepsScore ?_ ?_⟩, ?_,
    not_keepsScore ?_ ?_⟩
  all_goals first | (unfold Admissible; decide +kernel) | decide +kernel

end Genjishimada.Skill
