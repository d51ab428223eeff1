import Genjishimada.Library.Run
import Genjishimada.Services.Completions

/-!
# Core runs and their tournament rows

A run on the map of an active cycle is a core row linked to a tournament row, and the
edition waits until the tournament row is decided.  Three operations decide the core row:
a verify, a reject, and a faster submission that supersedes it.  The last one leaves the
linked row pending for good, and so does a verify whose quests cannot be provisioned,
which raises between the two rows.
-/

namespace Genjishimada.Completions

open Library Sdk Repository Services

/-! ## The property -/

/-- The foreign keys of a link and of a tournament row. -/
structure ForeignKeys (db : Db) : Prop where
  link : ∀ c ∈ db.coreCompletions.rows, ∀ t, c.tournamentCompletionId = some t →
    (db.completions.get? t).isSome = true
  cycle : ∀ tc ∈ db.completions.rows, (db.cycles.get? tc.cycleId).isSome = true

/-- The core run is linked to a row that is still pending. -/
def AwaitsVerdict (db : Db) (c : CoreCompletion) : Prop :=
  ∃ t tc, c.tournamentCompletionId = some t ∧ db.completions.get? t = some tc ∧ tc.status = .pending

/-- Some core run is linked to the row. -/
def linked (db : Db) (tc : Completion) : Bool :=
  db.coreCompletions.rows.any fun c ↦ c.tournamentCompletionId = some tc.id

/-- The core run is linked to a row of a child cycle of the edition. -/
def OnEdition (editionId : Nat) (db : Db) (c : CoreCompletion) : Prop :=
  ∃ t tc, c.tournamentCompletionId = some t ∧ db.completions.get? t = some tc ∧
    (db.cycles.get? tc.cycleId).any (fun cy ↦ cy.editionId = some editionId) = true

/-- A linked row is pending only while its core run is, and an edition all of whose core
runs are decided waits for no linked row. -/
structure Carried (db : Db) : Prop where
  pending : ∀ c ∈ db.coreCompletions.rows, AwaitsVerdict db c → c.pending = true
  drains : ∀ editionId, (∀ c ∈ db.coreCompletions.rows, OnEdition editionId db c →
      c.pending = false) →
    (db.completions.rows.countP fun tc ↦ inflight editionId db tc && linked db tc) = 0

/-- A call; `faults` are those of its publishes. -/
inductive DecisionLabel where
  | submit (data : CompletionCreateRequest) (headers : Headers) (now : Int)
      (faults : List PublishFaults)
  | verify (recordId : Nat) (data : CompletionVerificationUpdateRequest) (headers : Headers)
      (now : Int) (provision : Provision) (faults : List PublishFaults)

/-- The database once the call has ended, by returning or by raising. -/
def decisionStep (db : Db) : DecisionLabel → Db
  | .submit data headers now faults => (final (submitCompletion data headers now { db, faults })).db
  | .verify recordId data headers now provision faults =>
      (final (verifyCompletion recordId data headers now provision { db, faults })).db

section Submission

variable {data : CompletionCreateRequest} {now : Int} {db db' : Db}

/-- What an accepted submission adds to the database in which it has superseded the
pending run: at most a pending core row, and its tournament row. -/
structure Adds (db db' : Db) : Prop where
  core : ∀ c ∈ db'.coreCompletions.rows, c ∈ db.coreCompletions.rows ∨
    (c.pending = true ∧ ∀ t, c.tournamentCompletionId = some t →
      (db'.completions.get? t).isSome = true)
  core_kept : ∀ c ∈ db.coreCompletions.rows, c ∈ db'.coreCompletions.rows
  completions_kept : ∀ t tc, db.completions.get? t = some tc → db'.completions.get? t = some tc
  cycle : ∀ tc ∈ db'.completions.rows, tc ∈ db.completions.rows ∨
    (db.cycles.get? tc.cycleId).isSome = true
  cycles : db'.cycles = db.cycles

theorem Adds.refl (db : Db) : Adds db db where
  core _ h := .inl h
  core_kept _ h := h
  completions_kept _ _ h := h
  cycle _ h := .inl h
  cycles := rfl

/-- A run without a tournament row. -/
theorem adds_insert (m : CoreMap) : Adds db { db with
    coreCompletions := db.coreCompletions.insert (newCompletion data m now)
      (key_newCompletion data m now) } where
  core c hc := by
    have hcases : c ∈ db.coreCompletions.rows ∨
        c = newCompletion data m now db.coreCompletions.nextId := by simpa using hc
    rcases hcases with hc | rfl
    · exact .inl hc
    · exact .inr ⟨rfl, fun _ h ↦ by cases h⟩
  core_kept c hc := by simp [hc]
  completions_kept _ _ h := h
  cycle _ h := .inl h
  cycles := rfl

/-- A run with a tournament row. -/
theorem adds_linked (m : CoreMap) {cycle : Cycle} (hcycle : (db.cycles.get? cycle.id).isSome = true) :
    Adds db (setCompletionTournamentLink db.coreCompletions.nextId db.completions.nextId
      { db with
        coreCompletions := db.coreCompletions.insert (newCompletion data m now)
          (key_newCompletion data m now)
        completions := db.completions.insert fun id ↦
          { id, cycleId := cycle.id, userId := data.userId, mapId := cycle.mapId, time := data.time
            screenshot := data.screenshot, video := data.video, insertedAt := now } }) where
  core c hc := by
    obtain ⟨c₀, hc₀, rfl⟩ := mem_setCompletionTournamentLink.mp hc
    have hcases : c₀ ∈ db.coreCompletions.rows ∨
        c₀ = newCompletion data m now db.coreCompletions.nextId := by simpa using hc₀
    rcases hcases with hc₀ | rfl
    · have hne : c₀.id ≠ db.coreCompletions.nextId := (db.coreCompletions.fresh c₀ hc₀).ne
      rw [if_neg hne]
      exact .inl hc₀
    · right
      have hid : (newCompletion data m now db.coreCompletions.nextId).id =
          db.coreCompletions.nextId := rfl
      rw [if_pos hid]
      refine ⟨rfl, ?_⟩
      rintro t ⟨⟩
      simp [setCompletionTournamentLink]
  core_kept c hc := by
    have hne : c.id ≠ db.coreCompletions.nextId := (db.coreCompletions.fresh c hc).ne
    exact mem_setCompletionTournamentLink.mpr ⟨c, by simp [hc], if_neg hne⟩
  completions_kept t tc h := by
    have hne : t ≠ db.completions.nextId := (Table.lt_nextId_of_get? h).ne
    simp [setCompletionTournamentLink, hne, h]
  cycle tc htc := by
    have hcases : tc ∈ db.completions.rows ∨ tc.cycleId = cycle.id := by
      simp only [setCompletionTournamentLink, Table.rows_insert, List.mem_append,
        List.mem_singleton] at htc
      rcases htc with htc | rfl
      · exact .inl htc
      · exact .inr rfl
    rcases hcases with htc | htc
    · exact .inl htc
    · rw [htc]
      exact .inr hcycle
  cycles := rfl

theorem superseded_completions (data : CompletionCreateRequest) (db : Db) :
    (superseded data db).completions = db.completions ∧
      (superseded data db).cycles = db.cycles := by
  obtain ⟨_, h⟩ := superseded_onlyCore data db
  rw [h]
  exact ⟨rfl, rfl⟩

/-- Superseding decides the pending run and leaves the others alone. -/
theorem mem_superseded {c : CoreCompletion} (hc : c ∈ (superseded data db).coreCompletions.rows) :
    c ∈ db.coreCompletions.rows ∨
      ∃ p ∈ db.coreCompletions.rows, getPendingVerification data.userId data.code db = some p ∧
        data.time < p.time ∧ c = { p with verifiedBy := some botUserId } := by
  rw [superseded] at hc
  split at hc
  · rename_i p hp
    split at hc
    · rename_i hfaster
      obtain ⟨c₀, hc₀, rfl⟩ := mem_rejectCompletion.mp hc
      split
      · rename_i hid
        have hmem := (getPendingVerification_spec hp).1
        have heq : c₀ = p := Table.eq_of_key_eq hc₀ hmem hid
        rw [heq]
        exact .inr ⟨p, hmem, hp, hfaster, rfl⟩
      · exact .inl hc₀
    · exact .inl hc
  · exact .inl hc

theorem submission_adds (h : submission data now db = some db') : Adds (superseded data db) db' := by
  rw [submission] at h
  split at h
  · cases h
  · split at h
    · cases h
    · rename_i id inserted hinsert
      have hadds : Adds (superseded data db) inserted := by
        rcases insertCompletion_cases hinsert with ⟨_, rfl⟩ | ⟨m, _, rfl⟩
        · exact .refl _
        · exact adds_insert m
      cases hresolve : resolveActiveCycle data.code db with
      | none =>
          rw [hresolve] at h
          obtain rfl := Option.some.inj h
          exact hadds
      | some cycle =>
          rw [hresolve] at h
          rcases insertCompletion_cases hinsert with ⟨rfl, _⟩ | ⟨m, rfl, rfl⟩
          · obtain rfl := Option.some.inj h
            exact hadds
          · simp only [tournamentRecorded] at h
            split at h
            · cases h
            · rename_i tc recorded hcreate
              obtain rfl := Option.some.inj h
              obtain ⟨hcycle, rfl, rfl⟩ := createTournamentCompletion_cases hcreate
              exact adds_linked m hcycle

theorem ForeignKeys.submit (h : ForeignKeys db)
    (hsubmission : submission data now db = some db') : ForeignKeys db' := by
  have hadds := submission_adds hsubmission
  obtain ⟨hcompletions, hcycles⟩ := superseded_completions data db
  constructor
  · intro c hc t ht
    rcases hadds.core c hc with hc | ⟨_, hlink⟩
    · have hold : (db.completions.get? t).isSome = true := by
        rcases mem_superseded hc with hc | ⟨p, hp, _, _, rfl⟩
        · exact h.link c hc t ht
        · exact h.link p hp t ht
      obtain ⟨tc, htc⟩ := Option.isSome_iff_exists.mp hold
      rw [← hcompletions] at htc
      rw [hadds.completions_kept t tc htc]
      rfl
    · exact hlink t ht
  · intro tc htc
    rw [hadds.cycles, hcycles]
    rcases hadds.cycle tc htc with htc | hcycle
    · rw [hcompletions] at htc
      exact h.cycle tc htc
    · rwa [hcycles] at hcycle

end Submission

/-! ## A verdict -/

section Verdict

variable {recordId : Nat} {data : CompletionVerificationUpdateRequest} {headers : Headers} {now : Int}
  {provision : Provision} {faults : List PublishFaults} {db db₁ db' : Db} {c : CoreCompletion}

/-- The runs once one of them is decided; only that one changes, and keeps its link. -/
theorem mem_decided {verified : Bool} {verifiedBy : Nat} {reason : Option String}
    (honly : OnlyQuests (updateVerification recordId verified verifiedBy reason db) db₁)
    {c' : CoreCompletion} (hc' : c' ∈ db₁.coreCompletions.rows) :
    ∃ c ∈ db.coreCompletions.rows, c'.tournamentCompletionId = c.tournamentCompletionId ∧
      ((c.id = recordId ∧ c'.pending = false) ∨ (c.id ≠ recordId ∧ c' = c)) := by
  obtain ⟨_, _, _, rfl⟩ := honly
  obtain ⟨c, hc, rfl⟩ := mem_updateVerification.mp hc'
  by_cases hid : c.id = recordId
  · rw [if_pos hid]
    exact ⟨c, hc, rfl, .inl ⟨hid, by simp [CoreCompletion.pending]⟩⟩
  · rw [if_neg hid]
    exact ⟨c, hc, rfl, .inr ⟨hid, rfl⟩⟩

theorem OnlyQuests_updateVerification {verified : Bool} {verifiedBy : Nat} {reason : Option String}
    (honly : OnlyQuests (updateVerification recordId verified verifiedBy reason db) db₁) :
    db₁.completions = db.completions ∧ db₁.cycles = db.cycles := by
  obtain ⟨_, _, _, rfl⟩ := honly
  exact ⟨rfl, rfl⟩

theorem ForeignKeys.decided {verified : Bool} {verifiedBy : Nat} {reason : Option String}
    (h : ForeignKeys db)
    (honly : OnlyQuests (updateVerification recordId verified verifiedBy reason db) db₁) :
    ForeignKeys db₁ := by
  obtain ⟨hcompletions, hcycles⟩ := OnlyQuests_updateVerification honly
  constructor
  · intro c' hc' t ht
    obtain ⟨c, hc, hlink, _⟩ := mem_decided honly hc'
    rw [hcompletions]
    exact h.link c hc t (hlink.symm.trans ht)
  · rw [hcompletions, hcycles]
    exact h.cycle

/-- What the propagation leaves of the runs of the tournament. -/
theorem propagated_get? (info : CompletionInfo) (verified : Bool) (hfk : ForeignKeys db₁) :
    let db' := propagated info verified db₁
    db'.coreCompletions = db₁.coreCompletions ∧ db'.cycles = db₁.cycles ∧
      ∀ t, db'.completions.get? t = (db₁.completions.get? t).map fun tc ↦
        if info.tournamentCompletionId = some t then { tc with status := targetStatus verified }
        else tc := by
  intro db'
  obtain ⟨completions, db₂, heq, ⟨_, _, rfl⟩, hget⟩ := propagated_eq info verified db₁
  have hdb : db' = _ := heq
  rw [hdb]
  refine ⟨rfl, rfl, fun t ↦ (hget t).trans ?_⟩
  cases htc : db₁.completions.get? t with
  | none => rfl
  | some tc =>
      have hcycle : (fetchCycle tc.cycleId db₁).isSome = true := hfk.cycle tc (Table.mem_of_get? htc)
      simp [hcycle]

theorem ForeignKeys.propagated (h : ForeignKeys db₁) (info : CompletionInfo) (verified : Bool) :
    ForeignKeys (propagated info verified db₁) := by
  obtain ⟨hcore, hcycles, hget⟩ := propagated_get? info verified h
  constructor
  · intro c hc t ht
    rw [hcore] at hc
    rw [hget, Option.isSome_map]
    exact h.link c hc t ht
  · intro tc' htc'
    have hget' := Table.get?_of_mem htc'
    rw [hget] at hget'
    obtain ⟨tc, htc, htc'⟩ := Option.map_eq_some_iff.mp hget'
    have hcycleId : tc'.cycleId = tc.cycleId := by
      rw [← htc']
      split <;> rfl
    rw [hcycles, hcycleId]
    exact h.cycle tc (Table.mem_of_get? htc)

end Verdict

/-! ## Runs of calls -/

section Runs

variable {db db' : Db} {l : DecisionLabel}

theorem ForeignKeys.step (hfk : ForeignKeys db) : ForeignKeys (decisionStep db l) := by
  cases l with
  | submit data headers now faults =>
      rw [decisionStep, submitCompletion_db]
      cases checkMapExists data.code db with
      | false => exact hfk
      | true =>
          rw [if_pos rfl]
          cases hsubmission : submission data now db with
          | none => exact hfk
          | some db' => exact hfk.submit hsubmission
  | verify recordId data headers now provision faults =>
      rw [decisionStep]
      cases hinfo : fetchCompletionForModeration recordId db with
      | none =>
          rw [verifyCompletion_db]
          simp only [hinfo]
          exact hfk
      | some info =>
          rcases verifyCompletion_cases recordId data headers now provision { db, faults } hinfo with
            ⟨_, honly⟩ | ⟨_, db₁, honly, hdb⟩
          · exact hfk.decided honly
          · rw [hdb]
            exact (hfk.decided honly).propagated info data.verified

end Runs

end Genjishimada.Completions
