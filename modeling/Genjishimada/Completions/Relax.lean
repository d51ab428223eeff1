import Genjishimada.Services.Completions

/-!
# The relaxed speed rule on tournament maps (D-07)

A run that is slower than the user's best is refused by the speed trigger.  On the map of
an active cycle `submit_completion` means to record it all the same, as a tournament row
without a core row.  It does so on the connection whose transaction the refusal has just
aborted, so the row is refused as well.
-/

namespace Genjishimada.Completions

open Library Sdk Repository Services

/-- What the relaxed rule promises of a submission: it returns, with one tournament row
more and no core row. -/
def Relaxed (data : CompletionCreateRequest) (cycle : Cycle) (now : Int) (w : World Db Event)
    (r : EStateM.Result (Failure CompletionsError) (World Db Event) SubmissionResponse) : Prop :=
  ∃ response w', r = .ok response w' ∧
    w'.db.completions = w.db.completions.insert (fun id ↦
      { id, cycleId := cycle.id, userId := data.userId, mapId := cycle.mapId, time := data.time
        screenshot := data.screenshot, video := data.video, insertedAt := now }) ∧
    w'.db.coreCompletions.rows.map key = w.db.coreCompletions.rows.map key

/-- A submission on the map of an active cycle that the speed trigger refuses raises and
leaves nothing, not even the supersession of a pending run. -/
theorem submitCompletion_of_violation (data : CompletionCreateRequest) (headers : Headers)
    (now : Int) (w : World Db Event) {cycle : Cycle} {e : SpeedViolation}
    (hmap : checkMapExists data.code w.db = true)
    (hcycle : resolveActiveCycle data.code w.db = some cycle)
    (hinsert : insertCompletion data now (superseded data w.db) = .error (.checkViolation e)) :
    submitCompletion data headers now w = .error inFailedTransaction w := by
  have hquery : (query (checkMapExists data.code) : Completions Bool) w = .ok true w := by
    rw [← hmap]
    rfl
  have hresolve : (Tx.query inFailedTransaction (resolveActiveCycle data.code) : CompletionsTx _)
      { db := w.db } = .ok (some cycle) { db := w.db } := by
    rw [← hcycle]
    rfl
  obtain ⟨toDelete, hsupersede⟩ := supersedePending_of_cycle data w.db cycle
  have htransaction : submitTransaction data now { db := w.db } =
      .error inFailedTransaction { db := superseded data w.db, aborted := true } := by
    rw [submitTransaction, bind_of_ok hresolve, bind_of_ok hsupersede, insertSubmission,
      bind_of_ok (Tx.attempt_of_error hinsert)]
    exact bind_of_error (recordTournamentCompletion_of_aborted data now _ cycle)
  have hlost : withTransaction (submitTransaction data now) w = .error inFailedTransaction w := by
    rw [withTransaction, Tx.commit_of_error htransaction]
  rw [submitCompletion, bind_of_ok hquery]
  simp only [Bool.not_true, Bool.false_eq_true, if_false]
  rw [bind_of_error hlost]

/-- No submission that the relaxed rule is meant for is recorded. -/
theorem relaxedSubmission_lost (data : CompletionCreateRequest) (headers : Headers) (now : Int)
    (w : World Db Event) {cycle : Cycle} {e : SpeedViolation}
    (hmap : checkMapExists data.code w.db = true)
    (hcycle : resolveActiveCycle data.code w.db = some cycle)
    (hinsert : insertCompletion data now (superseded data w.db) = .error (.checkViolation e)) :
    ¬ Relaxed data cycle now w (submitCompletion data headers now w) := by
  rw [submitCompletion_of_violation data headers now w hmap hcycle hinsert]
  rintro ⟨response, w', h, _⟩
  cases h

/-- The active cycle's map, on which user 7 has a verified run. -/
def fasterRunVerified : World Db Event where
  db :=
    { maps := Table.empty.insert fun id ↦ { id, code := some "AAAAA", difficulty := .easy }
      cycles := Table.empty.insert fun id ↦
        { id, categoryId := 1, mapId := 1, status := .active, startedAt := some 0 }
      coreCompletions := Table.empty.insert fun id ↦
        { id, mapId := 1, userId := 7, time := 1000, screenshot := "", video := some "v"
          verified := true, completion := false, insertedAt := 0 } }

/-- A slower run with a video. -/
def slowerRun : CompletionCreateRequest where
  code := "AAAAA"
  userId := 7
  time := 1200
  screenshot := ""
  video := some "w"

theorem relaxedSubmission_lost_slowerRun :
    ¬ Relaxed slowerRun { id := 1, categoryId := 1, mapId := 1, status := .active, startedAt := some 0 }
      5 fasterRunVerified (submitCompletion slowerRun {} 5 fasterRunVerified) :=
  relaxedSubmission_lost slowerRun {} 5 fasterRunVerified (e := .video 1000 1200) (by decide +kernel)
    (by decide +kernel) (by rfl)

/-- The slower run raises, and neither table has a row for it. -/
theorem slowerRun_raises :
    ∃ w', submitCompletion slowerRun {} 5 fasterRunVerified = .error inFailedTransaction w' ∧
      w'.db.completions.rows = [] ∧ w'.db.coreCompletions.rows.length = 1 := by
  refine ⟨_, rfl, ?_⟩
  decide +kernel

end Genjishimada.Completions
