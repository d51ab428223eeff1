import Genjishimada.Services.Tournament
import Genjishimada.Tournaments.Drain

/-!
# Verdicts in flight

Any number of verify and reject calls on one tournament run, interleaved: a call
reads the row, then runs its transaction, then publishes, and other calls may take
any of their steps in between.

The guard that makes `verified` terminal is in the read, while the `UPDATE` of the
transaction only asks that the status differ from the target.  So a reject undoes a
verify exactly when its transaction runs on a row that has become verified since
the read.
-/

namespace Genjishimada.Tournaments

open Library Sdk Repository Services

/-! ## The machine -/

/-- How far a call has come. -/
inductive CallPhase where
  /-- The precheck has let the verdict through. -/
  | prechecked
  /-- The precheck has found a verify of a verified row. -/
  | replay
  /-- The transaction has committed. -/
  | written (updated : Option Completion) (events : List XpGrantEvent)
  | returned
  | raised
deriving DecidableEq

/-- A call of `verify_tournament_completion` or `reject_tournament_completion`. -/
structure Call where
  verified : Bool
  phase : CallPhase
  /-- Its transaction has granted participation XP. -/
  granted : Bool := false
  /-- Its transaction has rejected the row after participation XP was granted for it. -/
  revoked : Bool := false
deriving DecidableEq

/-- The database and every call so far, in the order of their reads. -/
structure VerdictState where
  db : Db
  calls : List Call := []

inductive VerdictLabel where
  | read (verified : Bool)
  | write (call : Nat)
  | publish (call : Nat) (faults : List PublishFaults)

/-- Participation XP has been granted for the row by one of the calls. -/
def VerdictState.granted (s : VerdictState) : Bool := s.calls.any Call.granted

/-- Where the precheck leaves a call. -/
def prechecked (tc : Nat) (verified : Bool) (db : Db) : CallPhase :=
  match verdictPrecheck tc verified { db } with
  | .ok true _ => .prechecked
  | .ok false _ => .replay
  | .error _ _ => .raised

/-- The key a verdict is published under. -/
def verdictKey (tc : Nat) (verified : Bool) : IdempotencyKey :=
  if verified then .tournamentVerify tc else .tournamentReject tc

/-- Where the publish leaves a call. -/
def published {α : Type} (r : EStateM.Result (Failure TournamentsError) (World Db Event) α) :
    CallPhase :=
  match r with
  | .ok _ _ => .returned
  | .error _ _ => .raised

def verdictStep (tc : Nat) (s : VerdictState) : VerdictLabel → Option VerdictState
  | .read verified =>
      some { s with calls := s.calls ++ [{ verified, phase := prechecked tc verified s.db }] }
  | .write i =>
      match s.calls[i]? with
      | some { verified, phase := .prechecked, .. } =>
          let ((updated, events), db) := verdictWrite tc verified verified s.db
          let call : Call :=
            { verified, phase := .written updated events, granted := !events.isEmpty
              revoked := !verified && updated.isSome && s.granted }
          some { db, calls := s.calls.set i call }
      | _ => none
  | .publish i faults =>
      match s.calls[i]? with
      | some call =>
          match call.phase with
          | .written updated events =>
              let r := verdictPublish tc call.verified {} (verdictKey tc call.verified)
                (updated, events) { db := s.db, faults }
              some { db := (final r).db, calls := s.calls.set i { call with phase := published r } }
          | .replay =>
              let r := noopVerdictJob tc (verdictKey tc call.verified) { db := s.db, faults }
              some { db := (final r).db, calls := s.calls.set i { call with phase := published r } }
          | _ => none
      | none => none

/-- The status of the run. -/
def VerdictState.status (tc : Nat) (s : VerdictState) : Option CompletionStatus :=
  (fetchTournamentCompletion tc s.db).map Completion.status

/-! ## What the steps do -/

section Steps

variable {tc : Nat} {s s' : VerdictState}

/-- Publishing a verdict writes nothing. -/
theorem publishVerdict_db (row : Completion) (verified : Bool) (key : IdempotencyKey)
    (w : World Db Event) : (final (publishVerdict row verified {} key w)).db = w.db := by
  rw [publishVerdict, publishMessage_apply _ _ _ (.inr (Option.some_ne_none _))]
  cases w.nextFaults.attempt <;> rfl

theorem noopVerdictJob_db (key : IdempotencyKey) (w : World Db Event) :
    (final (noopVerdictJob tc key w)).db = w.db := by
  rw [noopVerdictJob, query_bind_apply]
  cases fetchTournamentCompletion tc w.db with
  | none => rfl
  | some existing => exact publishVerdict_db _ _ _ w

theorem verdictPublish_db (verified : Bool) (key : IdempotencyKey)
    (written : Option Completion × List XpGrantEvent) (w : World Db Event) :
    (final (verdictPublish tc verified {} key written w)).db = w.db := by
  obtain ⟨_ | updated, events⟩ := written
  · rw [verdictPublish, query_bind_apply]
    cases fetchTournamentCompletion tc w.db with
    | none => rfl
    | some current =>
        dsimp only
        split
        · exact noopVerdictJob_db _ w
        · exact publishVerdict_db _ _ _ w
  · obtain ⟨w', hok, hdb, _⟩ := publishXpEvents_apply (ε := TournamentsError) events w
    rw [verdictPublish, bind_of_ok hok, publishVerdict_db, hdb]

/-- What a step does to the database, and to the list of calls. -/
theorem verdictStep_cases {l : VerdictLabel} (h : verdictStep tc s l = some s') :
    (∃ verified, l = .read verified ∧
      s' = { s with calls := s.calls ++ [{ verified, phase := prechecked tc verified s.db }] }) ∨
    (∃ i call, l = .write i ∧ s.calls[i]? = some call ∧ call.phase = .prechecked ∧
      s' =
        { db := (verdictWrite tc call.verified call.verified s.db).2
          calls := s.calls.set i
            { verified := call.verified
              phase := .written (verdictWrite tc call.verified call.verified s.db).1.1
                (verdictWrite tc call.verified call.verified s.db).1.2
              granted := !(verdictWrite tc call.verified call.verified s.db).1.2.isEmpty
              revoked := !call.verified &&
                (verdictWrite tc call.verified call.verified s.db).1.1.isSome && s.granted } }) ∨
    ∃ i faults call phase, l = .publish i faults ∧ s.calls[i]? = some call ∧
      s' = { s with calls := s.calls.set i { call with phase } } := by
  cases l with
  | read verified => exact .inl ⟨verified, rfl, (Option.some.inj h).symm⟩
  | write i =>
      rw [verdictStep] at h
      split at h
      · rename_i verified _ _ hcall
        exact .inr (.inl ⟨i, _, rfl, hcall, rfl, (Option.some.inj h).symm⟩)
      · cases h
  | publish i faults =>
      rw [verdictStep] at h
      cases hcall : s.calls[i]? with
      | none =>
          rw [hcall] at h
          cases h
      | some call =>
          simp only [hcall] at h
          split at h
          · rw [verdictPublish_db] at h
            exact .inr (.inr ⟨i, faults, call, _, rfl, hcall, (Option.some.inj h).symm⟩)
          · rw [noopVerdictJob_db] at h
            exact .inr (.inr ⟨i, faults, call, _, rfl, hcall, (Option.some.inj h).symm⟩)
          · cases h

end Steps

/-! ## Terminal verdicts -/

/-- The transaction of a reject meets a verified row. -/
def Overtaken (tc : Nat) (s : VerdictState) (l : VerdictLabel) : Prop :=
  ∃ i call, l = .write i ∧ s.calls[i]? = some call ∧ call.verified = false ∧
    s.status tc = some .verified

/-- Across a step a verified row stays verified, and no reject has returned that
moved a row for which participation XP was granted. -/
structure Terminal (tc : Nat) (s s' : VerdictState) : Prop where
  stays : s.status tc = some .verified → s'.status tc = some .verified
  kept : ∀ call ∈ s'.calls, call.phase = .returned → call.revoked = false

/-- What every state satisfies that no overtaken reject has led to. -/
structure VerdictInv (tc : Nat) (s : VerdictState) : Prop where
  kept : ∀ call ∈ s.calls, call.revoked = false
  granted : s.granted = true → s.status tc = some .verified

section Terminal

variable {tc : Nat} {s s' : VerdictState} {l : VerdictLabel}

/-- A verdict's transaction leaves the row in its target status, or changes nothing. -/
theorem status_verdictWrite (tc : Nat) (verified : Bool) (db : Db) :
    ((verdictWrite tc verified verified db).1 = (none, []) ∧
      (verdictWrite tc verified verified db).2 = db) ∨
    (fetchTournamentCompletion tc (verdictWrite tc verified verified db).2).map
        Completion.status = some (targetStatus verified) ∧
      (verified = false → (verdictWrite tc verified verified db).1.2 = []) := by
  rcases verdictWrite_cases tc verified verified db with
    ⟨_, h⟩ | ⟨c, events, db', _, _, h, hevents, hget⟩
  · rw [h]
    exact .inl ⟨rfl, rfl⟩
  · rw [h]
    exact .inr ⟨by rw [fetchTournamentCompletion, hget]; rfl, hevents⟩

/-- Replacing a call in which nothing was granted grants nothing more. -/
theorem granted_set {db : Db} {i : Nat} {call : Call}
    (h : ({ db, calls := s.calls.set i call } : VerdictState).granted = true) :
    call.granted = true ∨ s.granted = true := by
  obtain ⟨c, hc, hg⟩ := List.any_eq_true.mp h
  rcases List.mem_or_eq_of_mem_set hc with hc | rfl
  · exact .inr (List.any_eq_true.mpr ⟨c, hc, hg⟩)
  · exact .inl hg

theorem VerdictInv.step (hs : VerdictInv tc s) (h : verdictStep tc s l = some s')
    (hl : ¬ Overtaken tc s l) : VerdictInv tc s' := by
  rcases verdictStep_cases h with
    ⟨verified, rfl, rfl⟩ | ⟨i, call, rfl, hcall, hphase, rfl⟩ | ⟨i, faults, call, phase, rfl, hcall, rfl⟩
  · refine ⟨fun call hcall ↦ ?_, fun hg ↦ hs.granted ?_⟩
    · rcases List.mem_append.mp hcall with hcall | hcall
      · exact hs.kept call hcall
      · rw [List.mem_singleton.mp hcall]
    · simpa [VerdictState.granted] using hg
  · have hwrite := status_verdictWrite tc call.verified s.db
    -- before a reject that is not overtaken, nothing has been granted
    have hreject : call.verified = false → s.granted = false := fun hv ↦ by
      rw [Bool.eq_false_iff]
      exact fun hg ↦ hl ⟨i, call, rfl, hcall, hv, hs.granted hg⟩
    refine ⟨fun c hc ↦ ?_, fun hg ↦ ?_⟩
    · rcases List.mem_or_eq_of_mem_set hc with hc | rfl
      · exact hs.kept c hc
      · cases hv : call.verified with
        | true => rfl
        | false => simp [hreject hv]
    · rcases hwrite with ⟨hnone, hdb⟩ | ⟨hstatus, hevents⟩
      · rcases granted_set hg with hg | hg
        · simp [hnone] at hg
        · rw [VerdictState.status, hdb]
          exact hs.granted hg
      · cases hv : call.verified with
        | true =>
            rw [hv] at hstatus
            exact hstatus
        | false =>
            rcases granted_set hg with hg | hg
            · simp [hevents hv] at hg
            · rw [hreject hv] at hg
              cases hg
  · refine ⟨fun c hc ↦ ?_, fun hg ↦ ?_⟩
    · rcases List.mem_or_eq_of_mem_set hc with hc | rfl
      · exact hs.kept c hc
      · exact hs.kept call (List.mem_of_getElem? hcall)
    · refine hs.granted ((granted_set hg).elim (fun hg ↦ ?_) id)
      exact List.any_eq_true.mpr ⟨call, List.mem_of_getElem? hcall, hg⟩

/-- A reject that is not overtaken finds a verified row only to leave it. -/
theorem status_step (h : verdictStep tc s l = some s') (hl : ¬ Overtaken tc s l)
    (hv : s.status tc = some .verified) : s'.status tc = some .verified := by
  rcases verdictStep_cases h with
    ⟨verified, rfl, rfl⟩ | ⟨i, call, rfl, hcall, hphase, rfl⟩ | ⟨i, faults, call, phase, rfl, hcall, rfl⟩
  · exact hv
  · rcases status_verdictWrite tc call.verified s.db with ⟨_, hdb⟩ | ⟨hstatus, _⟩
    · rw [VerdictState.status, hdb]
      exact hv
    · cases hc : call.verified with
      | true =>
          rw [hc] at hstatus
          exact hstatus
      | false => exact absurd ⟨i, call, rfl, hcall, hc, hv⟩ hl
  · exact hv

/-- An overtaken reject turns a verified row into a rejected one. -/
theorem status_of_overtaken (h : verdictStep tc s l = some s') (hl : Overtaken tc s l) :
    s.status tc = some .verified ∧ s'.status tc = some .rejected := by
  obtain ⟨i, call, rfl, hcall, hreject, hv⟩ := hl
  refine ⟨hv, ?_⟩
  rcases verdictStep_cases h with
    ⟨_, hl, _⟩ | ⟨i', call', hl, hcall', hphase, rfl⟩ | ⟨_, _, _, _, hl, _⟩
  · cases hl
  · cases hl
    obtain rfl : call = call' := Option.some.inj (hcall.symm.trans hcall')
    rw [hreject, VerdictState.status]
    rcases verdictWrite_cases tc false false s.db with
      ⟨hall, _⟩ | ⟨c, events, db', _, _, hwrite, _, hget⟩
    · obtain ⟨c, hc, hstatus⟩ := Option.map_eq_some_iff.mp hv
      have := hall c hc
      rw [hstatus] at this
      cases this
    · rw [hwrite, fetchTournamentCompletion, hget]
      rfl
  · cases hl

/-- However calls are interleaved, `verified` is terminal across a run, and no reject
that returns has moved a row for which participation XP was granted, exactly when no
reject of the run is overtaken. -/
theorem verdicts_terminal_iff {ls : List VerdictLabel} (hs : s.calls = []) :
    Run (fun s l s' ↦ verdictStep tc s l = some s' ∧ Terminal tc s s') s ls s' ↔
      Run (Guarded (fun s l ↦ ¬ Overtaken tc s l) (ofStep (verdictStep tc))) s ls s' := by
  have hnot {s s' : VerdictState} {l : VerdictLabel} (hstep : verdictStep tc s l = some s')
      (hterminal : Terminal tc s s') : ¬ Overtaken tc s l := by
    intro hl
    obtain ⟨hv, hr⟩ := status_of_overtaken hstep hl
    rw [hterminal.stays hv] at hr
    cases hr
  apply Run.congr (VerdictInv tc)
  · intro s l s' hinv
    constructor
    · rintro ⟨hstep, hterminal⟩
      exact ⟨hnot hstep hterminal, hstep⟩
    · rintro ⟨hl, hstep⟩
      exact ⟨hstep, status_step hstep hl, fun call hcall _ ↦ (hinv.step hstep hl).kept call hcall⟩
  · rintro s l s' hinv ⟨hstep, hterminal⟩
    exact hinv.step hstep (hnot hstep hterminal)
  · exact ⟨by simp [hs], by simp [VerdictState.granted, hs]⟩

end Terminal

/-- A pending run in a category that pays for taking part. -/
def awaitingVerdict : VerdictState where
  db :=
    { categories := Table.empty.insert fun id ↦
        { id, name := "Easy", difficulties := [.easy], participationXp := 50 }
      cycles := Table.empty.insert fun id ↦
        { id, categoryId := 1, mapId := 1, status := .active, startedAt := some 0 }
      completions := Table.empty.insert fun id ↦
        { id, cycleId := 1, userId := 7, mapId := 1, time := 1250, insertedAt := 5 } }

/-- A reject reads, a verify runs to its end, the reject goes on: the verified row is
rejected, and the reject returns although the XP is granted. -/
theorem overtakenReject_revokes :
    let verify : List VerdictLabel := [.read false, .read true, .write 1, .publish 1 []]
    let reject : List VerdictLabel := [.write 0, .publish 0 []]
    (verify.foldlM (verdictStep 1) awaitingVerdict).map (fun s ↦ (s.status 1, s.granted)) =
        some (some .verified, true) ∧
      ((verify ++ reject).foldlM (verdictStep 1) awaitingVerdict).map (fun s ↦
        (s.status 1, s.calls.any fun c ↦ !c.verified && c.phase = .returned && c.revoked)) =
        some (some .rejected, true) := by
  decide +kernel

/-- The first read of that run. -/
theorem verdicts_terminal_iff_awaitingVerdict :
    let s' := { awaitingVerdict with calls := [{ verified := false, phase := .prechecked }] }
    Run (fun s l s' ↦ verdictStep 1 s l = some s' ∧ Terminal 1 s s') awaitingVerdict
        [.read false] s' ↔
      Run (Guarded (fun s l ↦ ¬ Overtaken 1 s l) (ofStep (verdictStep 1))) awaitingVerdict
        [.read false] s' := verdicts_terminal_iff rfl

end Genjishimada.Tournaments
