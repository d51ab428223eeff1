import Genjishimada.Services.Skill
import Mathlib.Algebra.Field.Rat
import Mathlib.Tactic.Abel

/-!
# The change feed

A rebuild replaces the snapshot and logs one change row for each user it has data for.
A user without an eligible run has no snapshot row and gets no change row either, so the
feed of a user who drops out keeps counting the score that is gone, and starts again
from zero when the user returns.  Between drop-outs it telescopes.
-/

namespace Genjishimada.Skill

open Library Services Repository

variable {K : Type} [DivisionRing K] [LinearOrder K] (pow : K → K → K)

/-- What one rebuild reads and is told. -/
structure Rebuild (K : Type) where
  db : Db
  weights : Weights K
  policy : CauseCategory × Option Nat
  computedAt : Int

/-- The tables after one more rebuild. -/
def recompute (tables : SkillTables K) (r : Rebuild K) : SkillTables K :=
  doRecompute pow r.policy r.weights (fetchSkillInputs r.db) r.computedAt tables

/-- The tables after a sequence of rebuilds; one that raises changes nothing. -/
def tablesAfter (tables : SkillTables K) (rs : List (Rebuild K)) : SkillTables K :=
  rs.foldl (recompute pow) tables

/-! ## The feed of a user -/

section Feed

variable {pow}

/-- The current score of a user, zero without a snapshot row. -/
def scoreOf (tables : SkillTables K) (userId : Nat) : K :=
  ((prevSnapshot tables userId).map SnapshotRow.skillScore).getD 0

/-- The change rows of a user, in order. -/
def changesOf (tables : SkillTables K) (userId : Nat) : List (ScoreChange K) :=
  tables.changes.filter fun r ↦ r.userId = userId

/-- The sum of the changes of a user. -/
def totalDelta (tables : SkillTables K) (userId : Nat) : K :=
  ((changesOf tables userId).map ScoreChange.delta).sum

/-- Each row starts from the score the row before ended with, the first from `score`. -/
def Follows : K → List (ScoreChange K) → Prop
  | _, [] => True
  | score, r :: rs => r.previousScore = score ∧ Follows r.newScore rs

/-- The feed of a user adds up to the current score and each row goes on where the row
before ended. -/
def Telescopes (tables : SkillTables K) (userId : Nat) : Prop :=
  totalDelta tables userId = scoreOf tables userId ∧ Follows 0 (changesOf tables userId)

end Feed

/-- The score a rebuild takes from a user it has no data for. -/
def droppedScore (tables : SkillTables K) (r : Rebuild K) (userId : Nat) : K :=
  if (prevSnapshot (recompute pow tables r) userId).isNone then scoreOf tables userId else 0

/-- The scores the rebuilds of a sequence took from a user they had no data for. -/
def droppedScores (userId : Nat) : SkillTables K → List (Rebuild K) → K
  | _, [] => 0
  | tables, r :: rs =>
      droppedScore pow tables r userId + droppedScores userId (recompute pow tables r) rs

/-- The previous score of a new row, given the snapshot row it replaces and the rows the
user has already: where the last of them ended, or zero without a snapshot row. -/
def StartsFrom (prev : Option (SnapshotRow K)) (rows : List (ScoreChange K))
    (r : ScoreChange K) : Prop :=
  if prev.isSome then (rows.getLast?.map ScoreChange.newScore) = some r.previousScore
  else r.previousScore = 0

/-! ## One rebuild -/

variable {tables : SkillTables K} {r : Rebuild K} {rs : List (Rebuild K)} {u : Nat}

theorem map_fst_byUser (rows : List SkillInput) :
    (byUser rows).map Prod.fst = distinctOn id (rows.map SkillInput.userId) := by
  rw [byUser, List.map_map]
  exact List.map_id _

/-- There is one snapshot row per user. -/
theorem nodup_snapshot (tables : SkillTables K) (r : Rebuild K) :
    ((recompute pow tables r).snapshot.map SnapshotRow.userId).Nodup := by
  have huser : (recompute pow tables r).snapshot.map SnapshotRow.userId =
      (byUser (fetchSkillInputs r.db)).map Prod.fst := by
    rw [recompute, doRecompute, List.map_map]
    rfl
  rw [huser, map_fst_byUser]
  simpa using nodup_map_distinctOn id ((fetchSkillInputs r.db).map SkillInput.userId)

/-- A rebuild adds one change row for each user it has data for, and only those. -/
theorem changesOf_recompute :
    changesOf (recompute pow tables r) u = changesOf tables u ++
      ((prevSnapshot (recompute pow tables r) u).map
        (changeRow r.policy (prevSnapshot tables u))).toList := by
  have hnew := filter_eq_toList_find? (nodup_snapshot pow tables r) u
  have hchanges : (recompute pow tables r).changes = tables.changes ++
      (recompute pow tables r).snapshot.map fun s ↦
        changeRow r.policy (prevSnapshot tables s.userId) s := rfl
  rw [changesOf, hchanges, List.filter_append, List.filter_map]
  have hcomp : ((fun r : ScoreChange K ↦ decide (r.userId = u)) ∘
      fun s ↦ changeRow r.policy (prevSnapshot tables s.userId) s) =
      fun s : SnapshotRow K ↦ decide (s.userId = u) := by
    funext s
    rfl
  rw [hcomp, hnew, changesOf]
  refine congrArg (HAppend.hAppend _) ?_
  change _ = (Option.map _ ((recompute pow tables r).snapshot.find? _)).toList
  cases h : (recompute pow tables r).snapshot.find? fun s ↦ decide (s.userId = u) with
  | none => rfl
  | some s =>
      obtain rfl : s.userId = u := by simpa using List.find?_some h
      rfl

/-- One rebuild moves the sum of a user's changes as it moves the score, except for a
score it drops. -/
theorem totalDelta_recompute :
    totalDelta (recompute pow tables r) u - totalDelta tables u =
      scoreOf (recompute pow tables r) u - scoreOf tables u + droppedScore pow tables r u := by
  rw [totalDelta, totalDelta, changesOf_recompute, List.map_append, List.sum_append, droppedScore,
    scoreOf, scoreOf]
  cases prevSnapshot (recompute pow tables r) u with
  | none => simp
  | some s =>
      simp only [Option.map_some, Option.toList_some, List.map_singleton, List.sum_singleton,
        Option.getD_some, Option.isNone_some, Bool.false_eq_true, if_false, changeRow]
      abel

/-- A new row of a user starts where the user's last row ended, or from zero when the
user had no snapshot row. -/
def RowsStart (tables : SkillTables K) (r : Rebuild K) (userId : Nat) : Prop :=
  ∃ rows, changesOf (recompute pow tables r) userId = changesOf tables userId ++ rows ∧
    ∀ row ∈ rows, StartsFrom (prevSnapshot tables userId) (changesOf tables userId) row

/-- No rebuild of the sequence drops the user. -/
def NeverDropped (userId : Nat) : SkillTables K → List (Rebuild K) → Prop
  | _, [] => True
  | tables, r :: rs =>
      ((prevSnapshot tables userId).isSome →
        (prevSnapshot (recompute pow tables r) userId).isSome) ∧
      NeverDropped userId (recompute pow tables r) rs

/-! ## Sequences of rebuilds -/

/-- A user with a snapshot row has a last change row, which ended with its score. -/
def Anchored (tables : SkillTables K) : Prop :=
  ∀ u s, prevSnapshot tables u = some s →
    (changesOf tables u).getLast?.map ScoreChange.newScore = some s.skillScore

theorem Anchored.of_recompute (tables : SkillTables K) (r : Rebuild K) :
    Anchored (recompute pow tables r) := by
  intro u s hs
  rw [changesOf_recompute, hs]
  simp [changeRow]

theorem Anchored.tablesAfter (h : Anchored tables) (rs : List (Rebuild K)) :
    Anchored (tablesAfter pow tables rs) := by
  induction rs generalizing tables with
  | nil => exact h
  | cons r rs ih => exact ih (Anchored.of_recompute pow tables r)

theorem Anchored.rowsStart (h : Anchored tables) (r : Rebuild K) (u : Nat) :
    RowsStart pow tables r u := by
  refine ⟨_, changesOf_recompute pow, ?_⟩
  intro row hrow
  obtain ⟨s, _, rfl⟩ := Option.map_eq_some_iff.mp (Option.mem_toList.mp hrow)
  rw [StartsFrom]
  cases hprev : prevSnapshot tables u with
  | none => rfl
  | some p =>
      rw [Option.isSome_some, if_pos rfl, h u p hprev]
      rfl

/-- Over a sequence of rebuilds the sum of a user's changes moves as the score does,
except for the scores they drop. -/
theorem totalDelta_tablesAfter (tables : SkillTables K) (rs : List (Rebuild K)) (u : Nat) :
    totalDelta (tablesAfter pow tables rs) u - totalDelta tables u =
      scoreOf (tablesAfter pow tables rs) u - scoreOf tables u +
        droppedScores pow u tables rs := by
  induction rs generalizing tables with
  | nil => simp [tablesAfter, droppedScores]
  | cons r rs ih =>
      have ih := ih (recompute pow tables r)
      have hstep : totalDelta (recompute pow tables r) u - totalDelta tables u =
          scoreOf (recompute pow tables r) u - scoreOf tables u + droppedScore pow tables r u :=
        totalDelta_recompute pow
      rw [tablesAfter, List.foldl_cons, ← tablesAfter, droppedScores]
      generalize tablesAfter pow (recompute pow tables r) rs = last at ih ⊢
      calc totalDelta last u - totalDelta tables u
          = (totalDelta last u - totalDelta (recompute pow tables r) u) +
            (totalDelta (recompute pow tables r) u - totalDelta tables u) := by abel
        _ = _ := by
            rw [ih, hstep]
            abel

/-! ## Users who never drop out -/

section NeverDropped

omit [DivisionRing K] [LinearOrder K] in
theorem follows_append {score : K} {rows : List (ScoreChange K)} {row : ScoreChange K} :
    Follows score (rows ++ [row]) ↔ Follows score rows ∧
      row.previousScore = (rows.getLast?.map ScoreChange.newScore).getD score := by
  induction rows generalizing score with
  | nil => simp [Follows]
  | cons r rows ih =>
      rw [List.cons_append, Follows, Follows, ih, and_assoc]
      cases rows with
      | nil => simp [Follows]
      | cons r' rows =>
          rw [List.getLast?_cons_cons]
          have hsome : (r' :: rows).getLast?.isSome := by simp
          obtain ⟨last, hlast⟩ := Option.isSome_iff_exists.mp hsome
          rw [hlast]
          rfl

theorem droppedScores_eq_zero (h : NeverDropped pow u tables rs) :
    droppedScores pow u tables rs = 0 := by
  induction rs generalizing tables with
  | nil => rfl
  | cons r rs ih =>
      obtain ⟨hr, h⟩ := h
      rw [droppedScores, ih h, add_zero, droppedScore]
      split
      · rename_i hnone
        have hprev : prevSnapshot tables u = none := by
          by_contra hsome
          have := hr (Option.isSome_iff_ne_none.mpr hsome)
          rw [Option.isNone_iff_eq_none.mp hnone] at this
          cases this
        rw [scoreOf, hprev]
        rfl
      · rfl

/-- As long as a user is not dropped, each row goes on where the row before ended, and
the last ended with the current score. -/
theorem follows_tablesAfter (h : NeverDropped pow u tables rs)
    (hfollows : Follows 0 (changesOf tables u))
    (hlast : (changesOf tables u).getLast?.map ScoreChange.newScore =
      (prevSnapshot tables u).map SnapshotRow.skillScore) :
    Follows 0 (changesOf (tablesAfter pow tables rs) u) := by
  induction rs generalizing tables with
  | nil => exact hfollows
  | cons r rs ih =>
      obtain ⟨hr, h⟩ := h
      apply ih h
      · rw [changesOf_recompute]
        cases prevSnapshot (recompute pow tables r) u with
        | none => simpa using hfollows
        | some s =>
            rw [Option.map_some, Option.toList_some, follows_append]
            refine ⟨hfollows, ?_⟩
            rw [hlast]
            rfl
      · rw [changesOf_recompute]
        cases hnew : prevSnapshot (recompute pow tables r) u with
        | none =>
            have hprev : prevSnapshot tables u = none := by
              by_contra hsome
              have := hr (Option.isSome_iff_ne_none.mpr hsome)
              rw [hnew] at this
              cases this
            rw [hprev] at hlast
            simpa using hlast
        | some s => simp [changeRow]

end NeverDropped

/-- After any sequence of rebuilds a user's changes add up to the current score and the
scores dropped on the way; each row starts where the row before ended, or from zero
when the user had no snapshot row; and if the user was never dropped the feed
telescopes. -/
theorem feed_balances (rs : List (Rebuild K)) (u : Nat) :
    totalDelta (tablesAfter pow {} rs) u =
        scoreOf (tablesAfter pow {} rs) u + droppedScores pow u {} rs ∧
      (∀ before r after, rs = before ++ r :: after →
        RowsStart pow (tablesAfter pow {} before) r u) ∧
      (NeverDropped pow u {} rs → Telescopes (tablesAfter pow {} rs) u) := by
  have hsum : totalDelta (tablesAfter pow {} rs) u =
      scoreOf (tablesAfter pow {} rs) u + droppedScores pow u {} rs := by
    have h := totalDelta_tablesAfter pow {} rs u
    simpa [totalDelta, changesOf, scoreOf, prevSnapshot] using h
  refine ⟨hsum, ?_, ?_⟩
  · intro before r after _
    have hempty : Anchored ({} : SkillTables K) := by
      intro u s hs
      simp [prevSnapshot] at hs
    exact (hempty.tablesAfter pow before).rowsStart pow r u
  · intro h
    constructor
    · rw [hsum, droppedScores_eq_zero pow h, add_zero]
    · apply follows_tablesAfter pow h
      · trivial
      · rfl

/-- A verified run of user 7 on a map with a code. -/
def oneRun : Db where
  maps := Table.empty.insert fun id ↦ { id, code := some "ABCD", difficulty := .easy }
  coreCompletions := Table.empty.insert fun id ↦
    { id, mapId := 1, userId := 7, time := 1250, screenshot := "", video := none
      verified := true, completion := true, insertedAt := 5 }

/-- Weights for which every power taken below is a power of one. -/
def unitWeights : Weights Rat where
  diffBase := 1
  gamma := 1
  timeBonus := 1
  shrinkK := 1
  wrBonus := 1
  partialFactor := 1
  medalGold := 1
  medalSilver := 1
  medalBronze := 1

/-- The run of user 7 is verified, un-verified and verified again: the feed adds up to
two although the score is one, and its second row starts from zero. -/
theorem returningUser_not_telescopes :
    let rebuild (db : Db) : Rebuild Rat := ⟨db, unitWeights, (.system, none), 0⟩
    ¬ Telescopes (tablesAfter (fun _ _ ↦ 1) {} [rebuild oneRun, rebuild {}, rebuild oneRun]) 7 := by
  rintro rebuild ⟨hsum, _⟩
  revert hsum
  decide +kernel

end Genjishimada.Skill
