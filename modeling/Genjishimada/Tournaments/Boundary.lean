import Genjishimada.Services.Completions
import Genjishimada.Tournaments.Drain
import Genjishimada.Tournaments.Editions
import Genjishimada.Tournaments.Leaderboard

/-!
# Submissions at the boundary of an edition

A submission resolves the active cycle of its map by an unlocked read at the start of its
transaction, and its row is there for others only when the transaction commits.  In between
the cron may close the edition, and the poller may count what is in verification, read the
standings and publish them.

Each step is what one transaction reads or commits at one moment, under READ COMMITTED:
the read and the rest of a submission, a bootstrap, a transition, a verdict, and of the poller
the count, the reading of one cycle, and the commit.  The poller holds the lock of an edition
from the count to the commit, and its commit never fails here.  The list of the child cycles is
read with the count: while an edition awaits its results no step changes it.
-/

namespace Genjishimada.Tournaments

open Library Sdk Repository Migrations Services

/-! ## The machine -/

/-- A submission that has resolved its active cycle and not yet committed. -/
structure InFlight where
  data : CompletionCreateRequest
  activeCycle : Option Cycle
  /-- `now()`, the start of the transaction. -/
  now : Int

/-- The results of an edition, as far as they are computed. -/
structure Computation where
  edition : Edition
  /-- The runs that were there when the count let the edition publish. -/
  counted : List Nat
  unread : List Cycle
  results : List TournamentCycleCompletedEvent := []
  /-- The runs in the standings, by the cycle. -/
  standings : List (Nat × List Nat) := []

structure BoundaryState where
  db : Db
  inFlight : List InFlight := []
  computations : List Computation := []

inductive BoundaryLabel where
  | resolve (data : CompletionCreateRequest) (now : Int)
  | insert (i : Nat)
  | bootstrap (zones : TimeZones) (now : Int) (random : Nat → Shuffle CoreMap)
  | transition (lockFree : Bool) (now : Int) (random : Nat → Shuffle CoreMap)
  | verdict (tournamentCompletionId : Nat) (verified : Bool)
  | count (editionId : Nat)
  | read (i : Nat)
  | publish (i : Nat) (now : Int)

/-- The rest of the transaction of a submission. -/
def insertInFlight (submission : InFlight) (db : Db) : Db :=
  final ((submitResolved submission.data submission.activeCycle submission.now).commit db)

/-- The in-flight count, and what an edition does that has to wait. -/
def countEdition (s : BoundaryState) (edition : Edition) : BoundaryState :=
  if countInflightVerifications edition.id s.db = 0 then
    { s with
      computations := s.computations ++ [{
        edition
        counted := s.db.completions.rows.map Completion.id
        unread := fetchEditionChildCycles edition.id s.db }] }
  else if edition.startAnnounced then s
  else { s with db := markEditionStartAnnounced edition.id s.db }

/-- The live leaderboard of the next cycle. -/
def Computation.readNext (p : Computation) (db : Db) : Option Computation :=
  match p.unread with
  | [] => none
  | child :: unread =>
      some { p with
        unread
        results := p.results ++ [buildCycleCompletedEvent child.id child.categoryId db]
        standings := p.standings ++ [(child.id, (bestPerUser child.id db).map Completion.id)] }

/-- The grants, the results, and the flip to `completed`. -/
def publishResults (now : Int) (p : Computation) (db : Db) : Db :=
  if p.edition.startAnnounced then
    completeEdition p.edition.id
      (createPendingTransition none (some p.edition.id) .editionResults
        (encodeEditionResults { editionId := p.edition.id, results := p.results }) now db)
  else
    completeEdition p.edition.id
      (awardEditionStreaks p.results (p.results.mapM awardCyclePlacements db).2).2

def boundaryStep (s : BoundaryState) : BoundaryLabel → Option BoundaryState
  | .resolve data now =>
      some { s with inFlight := s.inFlight ++ [⟨data, resolveActiveCycle data.code s.db, now⟩] }
  | .insert i =>
      s.inFlight[i]?.map fun submission ↦
        { s with db := insertInFlight submission s.db, inFlight := s.inFlight.eraseIdx i }
  | .bootstrap zones now random =>
      some { s with
        db := (final (inTransaction (bootstrapInsert zones now random) { db := s.db })).db }
  | .transition lockFree now random =>
      some { s with db := processEditionTransitions lockFree now random s.db }
  | .verdict tc verified => some { s with db := (verdictWrite tc verified verified s.db).2 }
  | .count editionId =>
      ((s.db.editions.get? editionId).filter fun e ↦ e.status = .awaitingResults ∧
        s.computations.all fun p ↦ p.edition.id ≠ editionId).map (countEdition s)
  | .read i =>
      s.computations[i]?.bind fun p ↦
        (p.readNext s.db).map fun p' ↦ { s with computations := s.computations.set i p' }
  | .publish i now =>
      (s.computations[i]?.filter fun p ↦ p.unread.isEmpty ∧
        (s.db.editions.get? p.edition.id).any fun e ↦ e.status = .awaitingResults).map fun p ↦
          { s with db := publishResults now p s.db }

/-! ## What is lost -/

/-- The cycle is a child of the edition. -/
def ChildOf (db : Db) (cycleId editionId : Nat) : Prop :=
  ∃ cy ∈ db.cycles.rows, cy.id = cycleId ∧ cy.editionId = some editionId

/-- The cycle is a child of the edition whose results are computed, and not still to be read. -/
def Computation.HasRead (p : Computation) (db : Db) (cycleId : Nat) : Prop :=
  ChildOf db cycleId p.edition.id ∧ cycleId ∉ p.unread.map Cycle.id

/-- The run was there at the count, or it is in the standings of its cycle. -/
def Computation.Sees (p : Computation) (c : Completion) : Prop :=
  c.id ∈ p.counted ∨ ∃ entry ∈ p.standings, entry.1 = c.cycleId ∧ c.id ∈ entry.2

/-- Every committed run on a cycle that is read is seen by the computation of the results. -/
def NoneLost (s : BoundaryState) : Prop :=
  ∀ p ∈ s.computations, ∀ c ∈ s.db.completions.rows, p.HasRead s.db c.cycleId → p.Sees c

instance (db : Db) (cycleId editionId : Nat) : Decidable (ChildOf db cycleId editionId) :=
  inferInstanceAs
    (Decidable (∃ cy ∈ db.cycles.rows, cy.id = cycleId ∧ cy.editionId = some editionId))

instance (p : Computation) (db : Db) (cycleId : Nat) : Decidable (p.HasRead db cycleId) :=
  inferInstanceAs (Decidable (ChildOf db cycleId p.edition.id ∧ cycleId ∉ p.unread.map Cycle.id))

instance (p : Computation) (c : Completion) : Decidable (p.Sees c) :=
  inferInstanceAs (Decidable
    (c.id ∈ p.counted ∨ ∃ entry ∈ p.standings, entry.1 = c.cycleId ∧ c.id ∈ entry.2))

instance (s : BoundaryState) : Decidable (NoneLost s) :=
  inferInstanceAs (Decidable (∀ p ∈ s.computations, ∀ c ∈ s.db.completions.rows,
    p.HasRead s.db c.cycleId → p.Sees c))

/-- Its user has a better run on the cycle. -/
def Bettered (c : Completion) (db : Db) : Prop :=
  ∃ better ∈ db.completions.rows, better.cycleId = c.cycleId ∧ better.userId = c.userId ∧
    standingKey better < standingKey c

/-- The transaction of a submission gets as far as its tournament row. -/
def Recorded (data : CompletionCreateRequest) (cycle : Cycle) (now : Int) (db : Db) : Prop :=
  ∃ id inserted recorded, insertCompletion data now (superseded data db) = .ok (some id, inserted) ∧
    createTournamentCompletion cycle.id data.userId cycle.mapId data.time data.screenshot data.video
      now inserted = .ok recorded

/-- A submission commits its row on a cycle that is read; or a cycle is read on which one has
committed a row since the count, and its user has a better one. -/
def Late (s : BoundaryState) : BoundaryLabel → Prop
  | .insert i => ∃ submission cycle, s.inFlight[i]? = some submission ∧
      submission.activeCycle = some cycle ∧
      Recorded submission.data cycle submission.now s.db ∧
      ∃ p ∈ s.computations, p.HasRead s.db cycle.id
  | .read i => ∃ p child unread, s.computations[i]? = some p ∧ p.unread = child :: unread ∧
      ∃ c ∈ s.db.completions.rows, c.cycleId = child.id ∧ c.id ∉ p.counted ∧ Bettered c s.db
  | _ => False

/-! ## Steps with nothing in between -/

section Together

variable {s : BoundaryState}

/-- The two halves of a submission are its transaction. -/
theorem run_submission (data : CompletionCreateRequest) (now : Int) (hs : s.inFlight = []) :
    Run (ofStep boundaryStep) s [.resolve data now, .insert 0]
      { s with db := final ((submitTransaction data now).commit s.db) } := by
  have hresolve : ofStep boundaryStep s (.resolve data now)
      { s with inFlight := [⟨data, resolveActiveCycle data.code s.db, now⟩] } := by
    rw [ofStep, boundaryStep, hs, List.nil_append]
  refine .cons hresolve (.single ?_)
  rw [ofStep, boundaryStep]
  simp [insertInFlight, submitTransaction_eq, hs]
  rfl

/-- Reading the cycles one after the other adds what reading them all at once does. -/
theorem run_reads {p : Computation} {i : Nat} (hi : s.computations[i]? = some p) :
    ∃ p', Run (ofStep boundaryStep) s (List.replicate p.unread.length (.read i))
        { s with computations := s.computations.set i p' } ∧
      p'.edition = p.edition ∧ p'.unread = [] ∧
      p'.results = p.results ++ p.unread.map fun child ↦
        buildCycleCompletedEvent child.id child.categoryId s.db := by
  induction hunread : p.unread generalizing s p with
  | nil =>
      refine ⟨p, ?_, rfl, hunread, by simp⟩
      obtain ⟨hlt, hget⟩ := List.getElem?_eq_some_iff.mp hi
      have hset : s.computations.set i p = s.computations := by
        rw [← hget]
        exact List.set_getElem_self hlt
      rw [hset]
      exact .nil s
  | cons child unread ih =>
      let p₁ : Computation :=
        { p with
          unread
          results := p.results ++ [buildCycleCompletedEvent child.id child.categoryId s.db]
          standings := p.standings ++ [(child.id, (bestPerUser child.id s.db).map Completion.id)] }
      let s₁ : BoundaryState := { s with computations := s.computations.set i p₁ }
      have hstep : ofStep boundaryStep s (.read i) s₁ := by
        rw [ofStep, boundaryStep, hi, Option.bind_some, Computation.readNext, hunread]
        rfl
      have hi₁ : s₁.computations[i]? = some p₁ :=
        List.getElem?_set_self (List.getElem?_eq_some_iff.mp hi).1
      obtain ⟨p', hrun, hedition, hnone, hresults⟩ := ih hi₁ rfl
      refine ⟨p', .cons hstep ?_, hedition, hnone, ?_⟩
      · rwa [List.set_set] at hrun
      · rw [hresults, List.append_assoc]
        rfl

/-- The grants with the publication of some results. -/
theorem publishGrants_onlyRewards (p : Computation) (db : Db) :
    OnlyRewards db (awardEditionStreaks p.results (p.results.mapM awardCyclePlacements db).2).2 := by
  have hplacements := Steps.mapM (l := p.results) .refl (fun _ _ _ ↦ .trans)
    (fun event _ ↦ awardCyclePlacements_onlyGrants event) db
  exact hplacements.onlyRewards.trans (awardEditionStreaks_onlyRewards p.results _)

/-- The steps of the poller on an edition are its turn in a tick. -/
theorem run_turn {e : Edition} (he : s.db.editions.get? e.id = some e)
    (hawaiting : e.status = .awaitingResults)
    (hfree : ∀ p ∈ s.computations, p.edition.id ≠ e.id) (now : Int) :
    ∃ rest s', Run (ofStep boundaryStep) s (.count e.id :: rest) s' ∧
      DrainStep now s.db e s'.db ∧
      ∀ l ∈ rest, l = .read s.computations.length ∨ l = .publish s.computations.length now := by
  have hcount : ofStep boundaryStep s (.count e.id) (countEdition s e) := by
    rw [ofStep, boundaryStep, he, Option.filter_some, if_pos]
    · rfl
    · simpa [hawaiting] using hfree
  by_cases hinflight : countInflightVerifications e.id s.db = 0
  · let p : Computation :=
      { edition := e
        counted := s.db.completions.rows.map Completion.id
        unread := fetchEditionChildCycles e.id s.db }
    have hcounted : countEdition s e = { s with computations := s.computations ++ [p] } := by
      rw [countEdition, if_pos hinflight]
    rw [hcounted] at hcount
    obtain ⟨p', hreads, hedition, hunread, hresults⟩ :=
      @run_reads { s with computations := s.computations ++ [p] } p s.computations.length (by simp)
    let s₁ : BoundaryState :=
      { s with computations := (s.computations ++ [p]).set s.computations.length p' }
    have hpublish : ofStep boundaryStep s₁ (.publish s.computations.length now)
        { s₁ with db := publishResults now p' s.db } := by
      have hget : s₁.computations[s.computations.length]? = some p' :=
        List.getElem?_set_self (by simp)
      rw [ofStep, boundaryStep, hget, Option.filter_some, if_pos]
      · rfl
      · simp [s₁, hunread, hedition, p, he, hawaiting]
    refine ⟨_, _, .cons hcount (hreads.snoc hpublish), ?_, ?_⟩
    · have hbuild : p'.results = buildResults e.id s.db := hresults
      change DrainStep now s.db e (publishResults now p' s.db)
      rw [publishResults, hedition]
      split
      · rename_i hannounced
        refine ⟨s.db, .refl _, ?_⟩
        rw [drainEdition, if_neg (fun h ↦ h.1 hannounced), if_neg (fun h ↦ h.1 hannounced),
          if_pos hinflight, writeDrainedResultsRow, hbuild]
      · rename_i hannounced
        have hgrants := publishGrants_onlyRewards p' s.db
        refine ⟨_, hgrants, ?_⟩
        have hsame := countInflightVerifications_congr hgrants.completions_eq hgrants.cycles_eq e.id
        rw [drainEdition, hsame, hinflight, if_neg (fun h ↦ lt_irrefl 0 h.2),
          if_pos ⟨hannounced, rfl⟩]
    · intro l hl
      rcases List.mem_append.mp hl with hl | hl
      · exact .inl (List.eq_of_mem_replicate hl)
      · exact .inr (List.mem_singleton.mp hl)
  · refine ⟨[], countEdition s e, .single hcount, ⟨s.db, .refl _, ?_⟩, by simp⟩
    have hpos : countInflightVerifications e.id s.db > 0 := Nat.pos_of_ne_zero hinflight
    rw [countEdition, if_neg hinflight]
    split
    · rename_i hannounced
      rw [drainEdition, if_neg (fun h ↦ h.1 hannounced), if_neg (fun h ↦ h.1 hannounced),
        if_neg hinflight]
    · rename_i hannounced
      rw [drainEdition, if_pos ⟨hannounced, hpos⟩]

end Together

/-! ## The rest of a submission -/

/-- The row a submission adds to the tournament. -/
def submittedRow (data : CompletionCreateRequest) (cycle : Cycle) (now : Int) (id : Nat) :
    Completion where
  id := id
  cycleId := cycle.id
  userId := data.userId
  mapId := cycle.mapId
  time := data.time
  screenshot := data.screenshot
  video := data.video
  insertedAt := now

theorem key_submittedRow (data : CompletionCreateRequest) (cycle : Cycle) (now : Int) (id : Nat) :
    key (submittedRow data cycle now id) = id := rfl

/-- A submission adds its row, if it gets that far, and changes nothing else of the tournament. -/
theorem insertInFlight_spec (submission : InFlight) (db : Db) :
    let db' := insertInFlight submission db
    db'.cycles = db.cycles ∧ db'.editions = db.editions ∧
      ((∃ cycle, submission.activeCycle = some cycle ∧
          Recorded submission.data cycle submission.now db ∧
          db'.completions = db.completions.insert (submittedRow submission.data cycle submission.now)
            (key_submittedRow submission.data cycle submission.now)) ∨
        (¬ ∃ cycle, submission.activeCycle = some cycle ∧
            Recorded submission.data cycle submission.now db) ∧
          db'.completions = db.completions) := by
  intro db'
  obtain ⟨data, activeCycle, now⟩ := submission
  cases activeCycle with
  | none =>
      rcases submitResolved_of_none data now db with hleaves | ⟨id, inserted, hinsert, hleaves⟩
      · have hdb : db' = db := hleaves.final_commit
        rw [hdb]
        exact ⟨rfl, rfl, .inr ⟨by simp, rfl⟩⟩
      · have hdb : db' = inserted := hleaves.final_commit
        obtain ⟨core, hcore⟩ := insertCompletion_onlyCore hinsert
        rw [hdb, hcore]
        exact ⟨rfl, rfl, .inr ⟨by simp, rfl⟩⟩
  | some cycle =>
      have hleaves := submitResolved_of_cycle data now db cycle
      cases hinsert : insertCompletion data now (superseded data db) with
      | error e =>
          rw [hinsert] at hleaves
          have hdb : db' = db := hleaves.final_commit
          rw [hdb]
          refine ⟨rfl, rfl, .inr ⟨?_, rfl⟩⟩
          rintro ⟨_, _, id, inserted, _, h, _⟩
          rw [hinsert] at h
          cases h
      | ok result =>
          obtain ⟨id, inserted⟩ := result
          rw [hinsert] at hleaves
          obtain ⟨core, hcore⟩ := insertCompletion_onlyCore hinsert
          cases id with
          | none =>
              have hdb : db' = inserted := hleaves.final_commit
              rw [hdb, hcore]
              refine ⟨rfl, rfl, .inr ⟨?_, rfl⟩⟩
              rintro ⟨_, _, id, inserted, _, h, _⟩
              rw [hinsert] at h
              cases h
          | some id =>
              simp only [tournamentRecorded] at hleaves
              cases hcreate : createTournamentCompletion cycle.id data.userId cycle.mapId data.time
                  data.screenshot data.video now inserted with
              | error e =>
                  rw [hcreate] at hleaves
                  have hdb : db' = db := hleaves.final_commit
                  rw [hdb]
                  refine ⟨rfl, rfl, .inr ⟨?_, rfl⟩⟩
                  rintro ⟨cycle', hcycle, id', inserted', recorded, h, h'⟩
                  obtain rfl := Option.some.inj hcycle
                  rw [hinsert] at h
                  cases h
                  rw [hcreate] at h'
                  cases h'
              | ok recorded =>
                  obtain ⟨tc, recorded⟩ := recorded
                  rw [hcreate] at hleaves
                  have hdb : db' = setCompletionTournamentLink id tc recorded := hleaves.final_commit
                  obtain ⟨_, _, rfl⟩ := createTournamentCompletion_cases hcreate
                  rw [hdb, hcore]
                  refine ⟨rfl, rfl, .inl ⟨cycle, rfl, ⟨id, inserted, _, hinsert, hcreate⟩, rfl⟩⟩

/-! ## Steps that lose nothing -/

/-- The cycles of an edition move with it: while it is active they are active or finalizing, while
it awaits results they are finalizing, and no cycle is there before its edition. -/
structure Owned (db : Db) : Prop where
  owner : ∀ cy ∈ db.cycles.rows, ∀ e, cy.editionId = some e → e < db.editions.nextId
  active : ∀ ed ∈ db.editions.rows, ed.status = .active → ∀ cy ∈ db.cycles.rows,
    cy.editionId = some ed.id → cy.status = .active ∨ cy.status = .finalizing
  awaiting : ∀ ed ∈ db.editions.rows, ed.status = .awaitingResults → ∀ cy ∈ db.cycles.rows,
    cy.editionId = some ed.id → cy.status = .finalizing

/-- `UNIQUE (cycle_id, user_id, inserted_at)` -/
def UniqueRuns (db : Db) : Prop :=
  ∀ c ∈ db.completions.rows, ∀ c' ∈ db.completions.rows, c.cycleId = c'.cycleId →
    c.userId = c'.userId → c.insertedAt = c'.insertedAt → c = c'

/-- What no statement changes of a run. -/
def identity (c : Completion) : Nat × Nat × Nat × Int := (c.id, c.cycleId, c.userId, c.insertedAt)

theorem Owned.congr {db db' : Db} (howned : Owned db) (heditions : db'.editions = db.editions)
    (hcycles : db'.cycles = db.cycles) : Owned db' := by
  obtain ⟨howner, hactive, hawaiting⟩ := howned
  constructor
  · rwa [heditions, hcycles]
  · rwa [heditions, hcycles]
  · rwa [heditions, hcycles]

/-- The runs, their cycles and the children of the editions there are have stayed. -/
structure Quiet (db db' : Db) : Prop where
  owned : Owned db → Owned db'
  rows : db'.completions.rows.map identity = db.completions.rows.map identity
  children : ∀ k e, e < db.editions.nextId → (ChildOf db' k e ↔ ChildOf db k e)
  nextId : db.editions.nextId ≤ db'.editions.nextId

namespace Quiet

variable {a b c db db' : Db}

theorem trans (h : Quiet a b) (h' : Quiet b c) : Quiet a c where
  owned := fun hodd ↦ h'.owned (h.owned hodd)
  rows := h'.rows.trans h.rows
  children := fun k e he ↦ (h'.children k e (he.trans_le h.nextId)).trans (h.children k e he)
  nextId := h.nextId.trans h'.nextId

/-- A step that touches neither the editions nor the cycles. -/
theorem of_eq (heditions : db'.editions = db.editions) (hcycles : db'.cycles = db.cycles)
    (hrows : db'.completions.rows.map identity = db.completions.rows.map identity) :
    Quiet db db' where
  owned := fun howned ↦ howned.congr heditions hcycles
  rows := hrows
  children := fun k e _ ↦ by rw [ChildOf, ChildOf, hcycles]
  nextId := by rw [heditions]

theorem refl (db : Db) : Quiet db db := .of_eq rfl rfl rfl

theorem verdict (tc : Nat) (verified : Bool) (db : Db) :
    Quiet db (verdictWrite tc verified verified db).2 := by
  obtain ⟨heditions, hcycles, _, _, hrows⟩ := verdictWrite_frame tc verified verified db
  refine .of_eq heditions hcycles ?_
  have hmap := congrArg (List.map identity) hrows
  rwa [List.map_map, List.map_map] at hmap

/-- Statements that change the status of editions and of cycles. -/
theorem of_map {f : Cycle → Cycle} {g : Edition → Edition}
    (hcycles : db'.cycles.rows = db.cycles.rows.map f)
    (heditions : db'.editions.rows = db.editions.rows.map g)
    (hnextId : db'.editions.nextId = db.editions.nextId)
    (hrows : db'.completions = db.completions)
    (hf : ∀ cy, (f cy).id = cy.id ∧ (f cy).editionId = cy.editionId) (hg : ∀ ed, (g ed).id = ed.id)
    (hstatus : Owned db → ∀ ed ∈ db.editions.rows, ∀ cy ∈ db.cycles.rows,
      cy.editionId = some ed.id →
      ((g ed).status = .active → (f cy).status = .active ∨ (f cy).status = .finalizing) ∧
        ((g ed).status = .awaitingResults → (f cy).status = .finalizing)) : Quiet db db' := by
  have hcycle (cy' : Cycle) : cy' ∈ db'.cycles.rows ↔ ∃ cy ∈ db.cycles.rows, f cy = cy' := by
    rw [hcycles, List.mem_map]
  -- The status of an edition and of one of its cycles after the statements.
  have hpair (howned : Owned db) {ed' : Edition} (hed' : ed' ∈ db'.editions.rows) {cy' : Cycle}
      (hcy' : cy' ∈ db'.cycles.rows) (hof : cy'.editionId = some ed'.id) :
      (ed'.status = .active → cy'.status = .active ∨ cy'.status = .finalizing) ∧
        (ed'.status = .awaitingResults → cy'.status = .finalizing) := by
    rw [heditions] at hed'
    obtain ⟨ed, hed, rfl⟩ := List.mem_map.mp hed'
    obtain ⟨cy, hcy, rfl⟩ := (hcycle cy').mp hcy'
    rw [(hf cy).2, hg] at hof
    exact hstatus howned ed hed cy hcy hof
  refine ⟨fun howned ↦ ⟨?_, ?_, ?_⟩, by rw [hrows], ?_, hnextId.ge⟩
  · intro cy' hcy' e he
    obtain ⟨cy, hcy, rfl⟩ := (hcycle cy').mp hcy'
    rw [(hf cy).2] at he
    rw [hnextId]
    exact howned.owner cy hcy e he
  · intro ed' hed' hactive cy' hcy' hof
    exact (hpair howned hed' hcy' hof).1 hactive
  · intro ed' hed' hawaiting cy' hcy' hof
    exact (hpair howned hed' hcy' hof).2 hawaiting
  · intro k e _
    constructor
    · rintro ⟨cy', hcy', hk, he⟩
      obtain ⟨cy, hcy, rfl⟩ := (hcycle cy').mp hcy'
      exact ⟨cy, hcy, (hf cy).1.symm.trans hk, (hf cy).2.symm.trans he⟩
    · rintro ⟨cy, hcy, hk, he⟩
      exact ⟨f cy, (hcycle _).mpr ⟨cy, hcy, rfl⟩, (hf cy).1.trans hk, (hf cy).2.trans he⟩

/-- The edition that is closed had active or finalizing cycles, which are now finalizing. -/
theorem closeEdition {e : Edition} (he : e ∈ db.editions.rows) (hactive : e.status = .active) :
    Quiet db (closeEdition e.id db) := by
  refine of_map rfl rfl rfl rfl (fun cy ↦ ?_) (fun ed ↦ ?_) fun howned ed hed cy hcy hof ↦ ?_
  · split <;> exact ⟨rfl, rfl⟩
  · split <;> rfl
  · by_cases heq : ed = e
    · subst heq
      have hstatus := howned.active ed hed hactive cy hcy hof
      simp [hof, hstatus]
    · have hid : ed.id ≠ e.id := fun h ↦ heq (Table.eq_of_key_eq hed he h)
      simp only [hof, Option.some.injEq, hid, false_and, decide_false, Bool.false_eq_true, if_false]
      exact ⟨fun h ↦ howned.active ed hed h cy hcy hof, fun h ↦ howned.awaiting ed hed h cy hcy hof⟩

theorem completeEdition (editionId : Nat) (db : Db) : Quiet db (completeEdition editionId db) := by
  refine of_map rfl rfl rfl rfl (fun cy ↦ ?_) (fun ed ↦ ?_) fun howned ed hed cy hcy hof ↦ ?_
  · split <;> exact ⟨rfl, rfl⟩
  · split <;> rfl
  · by_cases hid : ed.id = editionId
    · simp [hid]
    · simp only [hof, Option.some.injEq, hid, decide_false, Bool.false_eq_true, if_false]
      exact ⟨fun h ↦ howned.active ed hed h cy hcy hof, fun h ↦ howned.awaiting ed hed h cy hcy hof⟩

theorem markEditionStartAnnounced (editionId : Nat) (db : Db) :
    Quiet db (markEditionStartAnnounced editionId db) := by
  refine of_map (List.map_id _).symm rfl rfl rfl (fun _ ↦ ⟨rfl, rfl⟩) (fun ed ↦ ?_)
    fun howned ed hed cy hcy hof ↦ ?_
  · split <;> rfl
  · have hstatus : (if ed.id = editionId then { ed with startAnnounced := true } else ed).status =
        ed.status := by split <;> rfl
    simp only [decide_eq_true_eq, hstatus]
    exact ⟨fun h ↦ howned.active ed hed h cy hcy hof, fun h ↦ howned.awaiting ed hed h cy hcy hof⟩

/-- The cycles of a new edition are active, and of no edition there was. -/
theorem createEdition {startedAt endsAt : Int} {cats : List Category}
    (hrun : Run (ChildStep db.editions.nextId startedAt) a cats db')
    (hcreate : a.editions = (createEdition startedAt endsAt db).2.editions)
    (hcycles : a.cycles = db.cycles) (hcompletions : a.completions = db.completions) :
    Quiet db db' := by
  obtain ⟨new, hrows, _, hnew⟩ := childRun_rows hrun
  have hframe := childRun_eq hrun
  have hcycle (cy : Cycle) : cy ∈ db'.cycles.rows ↔ cy ∈ db.cycles.rows ∨ cy ∈ new := by
    rw [hrows, hcycles]
    exact List.mem_append
  have heditions : db'.editions.rows =
      db.editions.rows ++ [{ id := db.editions.nextId, startedAt, endsAt }] := by
    rw [hframe]
    exact congrArg Table.rows hcreate
  have hnextId : db'.editions.nextId = db.editions.nextId + 1 := by
    rw [hframe]
    exact congrArg Table.nextId hcreate
  refine ⟨fun howned ↦ ⟨?_, ?_, ?_⟩, by rw [hframe, hcompletions], ?_, by omega⟩
  · intro cy hcy e he
    rw [hnextId]
    rcases (hcycle cy).mp hcy with hold | hcy
    · exact (howned.owner cy hold e he).trans (Nat.lt_succ_self _)
    · obtain ⟨_, _, hof, _⟩ := hnew cy hcy
      rw [hof] at he
      rw [← Option.some.inj he]
      exact Nat.lt_succ_self _
  · intro ed hed hactive cy hcy hof
    rw [heditions, List.mem_append, List.mem_singleton] at hed
    rcases (hcycle cy).mp hcy with hold | hcy
    · rcases hed with hed | rfl
      · exact howned.active ed hed hactive cy hold hof
      · exact absurd (howned.owner cy hold _ hof) (lt_irrefl _)
    · exact .inl (hnew cy hcy).2.1
  · intro ed hed hawaiting cy hcy hof
    rw [heditions, List.mem_append, List.mem_singleton] at hed
    rcases hed with hed | rfl
    · rcases (hcycle cy).mp hcy with hold | hcy
      · exact howned.awaiting ed hed hawaiting cy hold hof
      · have hid : db.editions.nextId = ed.id :=
          Option.some.inj ((hnew cy hcy).2.2.1.symm.trans hof)
        exact absurd (db.editions.fresh ed hed) (by rw [hid]; exact lt_irrefl _)
    · cases hawaiting
  · intro k e he
    constructor
    · rintro ⟨cy, hcy, hk, hof⟩
      rcases (hcycle cy).mp hcy with hold | hcy
      · exact ⟨cy, hold, hk, hof⟩
      · have hid : db.editions.nextId = e := Option.some.inj ((hnew cy hcy).2.2.1.symm.trans hof)
        exact absurd he (by rw [hid]; exact lt_irrefl _)
    · rintro ⟨cy, hcy, hk, hof⟩
      exact ⟨cy, (hcycle cy).mpr (.inl hcy), hk, hof⟩

theorem transition (lockFree : Bool) (now : Int) (random : Nat → Shuffle CoreMap) (db : Db) :
    Quiet db (processEditionTransitions lockFree now random db) := by
  rcases processEditionTransitions_cases lockFree now random db with
    ⟨_, h⟩ | ⟨e, _, hdue, _, h⟩ | ⟨e, _, hdue, _, hrun⟩
  · rw [h]
    exact .refl db
  · obtain ⟨he, hactive, _⟩ := dueEdition_spec hdue
    rw [h]
    exact closeEdition he hactive
  · obtain ⟨he, hactive, _⟩ := dueEdition_spec hdue
    exact (closeEdition he hactive).trans (createEdition hrun rfl rfl rfl)

theorem bootstrap (zones : TimeZones) (now : Int) (random : Nat → Shuffle CoreMap) (db : Db) :
    Quiet db (final (inTransaction (bootstrapInsert zones now random) { db })).db := by
  rcases bootstrapInsert_cases zones now random db with ⟨_, _, db₂, _, hrun, h⟩ | ⟨_, h⟩
  · rw [h]
    exact (createEdition hrun rfl rfl rfl).trans (of_eq rfl rfl rfl)
  · rw [h]
    exact .refl db

theorem publish (now : Int) (p : Computation) (db : Db) : Quiet db (publishResults now p db) := by
  rw [publishResults]
  split
  · have hrow : Quiet db (createPendingTransition none (some p.edition.id) .editionResults
        (encodeEditionResults { editionId := p.edition.id, results := p.results }) now db) :=
      of_eq rfl rfl rfl
    exact hrow.trans (completeEdition p.edition.id _)
  · have hrewards := publishGrants_onlyRewards p db
    refine (of_eq hrewards.editions_eq hrewards.cycles_eq ?_).trans
      (completeEdition p.edition.id _)
    rw [hrewards.completions_eq]

end Quiet

/-! ## What a computation knows -/

/-- A computation knows runs that are there, and has yet to read cycles of its edition. -/
structure Computation.Sound (p : Computation) (db : Db) : Prop where
  edition : p.edition.id < db.editions.nextId
  counted : ∀ id ∈ p.counted, id ∈ db.completions.rows.map Completion.id
  standings : ∀ entry ∈ p.standings, ∀ id ∈ entry.2, id ∈ db.completions.rows.map Completion.id
  nodup : (p.unread.map Cycle.id).Nodup
  unread : ∀ child ∈ p.unread, ChildOf db child.id p.edition.id
  unreadOnce : ∀ entry ∈ p.standings, entry.1 ∉ p.unread.map Cycle.id

/-- What every step keeps. -/
structure Tracked (s : BoundaryState) : Prop where
  owned : Owned s.db
  unique : UniqueRuns s.db
  sound : ∀ p ∈ s.computations, p.Sound s.db

section Knows

variable {p : Computation} {db db' : Db}

theorem Computation.Sound.mono (h : p.Sound db) (hnextId : db.editions.nextId ≤ db'.editions.nextId)
    (hids : ∀ id ∈ db.completions.rows.map Completion.id,
      id ∈ db'.completions.rows.map Completion.id)
    (hchildren : ∀ k, ChildOf db k p.edition.id → ChildOf db' k p.edition.id) : p.Sound db' where
  edition := h.edition.trans_le hnextId
  counted := fun id hid ↦ hids id (h.counted id hid)
  standings := fun entry hentry id hid ↦ hids id (h.standings entry hentry id hid)
  nodup := h.nodup
  unread := fun child hchild ↦ hchildren _ (h.unread child hchild)
  unreadOnce := h.unreadOnce

/-- A run after the step is one before it, up to its status. -/
theorem Quiet.mem_rows (h : Quiet db db') {c : Completion} (hc : c ∈ db'.completions.rows) :
    ∃ c₀ ∈ db.completions.rows, c₀.id = c.id ∧ c₀.cycleId = c.cycleId ∧ c₀.userId = c.userId ∧
      c₀.insertedAt = c.insertedAt := by
  have hmem : identity c ∈ db.completions.rows.map identity := by
    rw [← h.rows]
    exact List.mem_map_of_mem hc
  obtain ⟨c₀, hc₀, heq⟩ := List.mem_map.mp hmem
  rw [identity, identity, Prod.mk.injEq, Prod.mk.injEq, Prod.mk.injEq] at heq
  exact ⟨c₀, hc₀, heq⟩

theorem UniqueRuns.of_quiet (h : UniqueRuns db) (hquiet : Quiet db db') : UniqueRuns db' := by
  intro c hc c' hc' hcycle huser hat
  obtain ⟨c₀, hc₀, hid, hcycle₀, huser₀, hat₀⟩ := hquiet.mem_rows hc
  obtain ⟨c₁, hc₁, hid₁, hcycle₁, huser₁, hat₁⟩ := hquiet.mem_rows hc'
  have heq : c₀ = c₁ := by
    apply h c₀ hc₀ c₁ hc₁
    · rw [hcycle₀, hcycle, hcycle₁]
    · rw [huser₀, huser, huser₁]
    · rw [hat₀, hat, hat₁]
  have hkey : c.id = c'.id := by rw [← hid, heq, hid₁]
  exact Table.eq_of_key_eq hc hc' hkey

theorem Computation.Sound.of_quiet (h : p.Sound db) (hquiet : Quiet db db') : p.Sound db' := by
  have hids : db'.completions.rows.map Completion.id = db.completions.rows.map Completion.id := by
    have hfst := congrArg (List.map Prod.fst) hquiet.rows
    rwa [List.map_map, List.map_map] at hfst
  refine h.mono hquiet.nextId (fun id hid ↦ ?_) fun k hk ↦ (hquiet.children k _ h.edition).mpr hk
  rwa [hids]

variable {s : BoundaryState}

theorem Tracked.of_quiet (hs : Tracked s) (hquiet : Quiet s.db db') :
    Tracked { s with db := db' } where
  owned := hquiet.owned hs.owned
  unique := hs.unique.of_quiet hquiet
  sound := fun p hp ↦ (hs.sound p hp).of_quiet hquiet

/-- Where the runs and the children have stayed, nothing is lost. -/
theorem NoneLost.of_quiet (hkept : NoneLost s) (hs : Tracked s) (hquiet : Quiet s.db db') :
    NoneLost { s with db := db' } := by
  rintro p hp c hc ⟨hchild, hread⟩
  obtain ⟨c₀, hc₀, hid, hcycle, _, _⟩ := hquiet.mem_rows hc
  rw [← hcycle] at hchild hread
  have hsees := hkept p hp c₀ hc₀ ⟨(hquiet.children _ _ (hs.sound p hp).edition).mp hchild, hread⟩
  rwa [Computation.Sees, hid, hcycle] at hsees

end Knows

/-! ## One step -/

/-- The row of a submission is the only one of its user on the cycle at its moment. -/
theorem UniqueRuns.insert {data : CompletionCreateRequest} {cycle : Cycle} {now : Int}
    {db db' : Db} (h : UniqueRuns db) (hrecorded : Recorded data cycle now db)
    (hrows : db'.completions.rows =
      db.completions.rows ++ [submittedRow data cycle now db.completions.nextId]) :
    UniqueRuns db' := by
  have hnew : ∀ c ∈ db.completions.rows,
      ¬ (c.cycleId = cycle.id ∧ c.userId = data.userId ∧ c.insertedAt = now) := by
    obtain ⟨id, inserted, recorded, hinsert, hcreate⟩ := hrecorded
    obtain ⟨core, hcore⟩ := insertCompletion_onlyCore hinsert
    rw [createTournamentCompletion] at hcreate
    split at hcreate
    · cases hcreate
    · split at hcreate
      · cases hcreate
      · rename_i hany
        rw [hcore] at hany
        simpa using hany
  intro c hc c' hc' hcycle huser hat
  rw [hrows, List.mem_append, List.mem_singleton] at hc hc'
  rcases hc with hc | rfl
  · rcases hc' with hc' | rfl
    · exact h c hc c' hc' hcycle huser hat
    · exact absurd ⟨hcycle, huser, hat⟩ (hnew c hc)
  · rcases hc' with hc' | rfl
    · exact absurd ⟨hcycle.symm, huser.symm, hat.symm⟩ (hnew c' hc')
    · rfl

/-- The run kept for a user is the one that no other betters. -/
theorem mem_bestPerUser_iff {db : Db} (h : UniqueRuns db) {c : Completion}
    (hc : c ∈ db.completions.rows) : c ∈ bestPerUser c.cycleId db ↔ ¬ Bettered c db := by
  constructor
  · rintro hbest ⟨better, hbetter, hcycle, huser, hlt⟩
    exact absurd hlt (not_lt.mpr (bestPerUser_le hbest hbetter hcycle huser))
  · intro hnot
    have hparticipant : c.userId ∈ (bestPerUser c.cycleId db).map Completion.userId :=
      (perm_map_bestPerUser c.cycleId db).mem_iff.mpr (mem_fetchCycleParticipants.mpr ⟨c, hc, rfl, rfl⟩)
    obtain ⟨b, hb, huser⟩ := List.mem_map.mp hparticipant
    obtain ⟨hmem, hcycle⟩ := mem_rows_of_mem_bestPerUser hb
    have hle : standingKey c ≤ standingKey b :=
      not_lt.mp fun hlt ↦ hnot ⟨b, hmem, hcycle, huser, hlt⟩
    have heq : standingKey b = standingKey c := (bestPerUser_le hb hc rfl huser.symm).antisymm hle
    have hat : b.insertedAt = c.insertedAt := by
      simp only [standingKey, toLex_inj, Prod.mk.injEq] at heq
      exact heq.2.2.2.1
    rwa [h b hmem c hc hcycle huser hat] at hb

/-- A run that a computation has seen was there. -/
theorem Computation.Sound.not_sees {p : Computation} {db : Db} (h : p.Sound db) {c : Completion}
    (hc : db.completions.nextId ≤ c.id) : ¬ p.Sees c := by
  have hfresh : c.id ∉ db.completions.rows.map Completion.id := by
    intro hmem
    obtain ⟨c₀, hc₀, hid⟩ := List.mem_map.mp hmem
    have hlt : c₀.id < db.completions.nextId := db.completions.fresh c₀ hc₀
    omega
  rintro (hcounted | ⟨entry, hentry, _, hin⟩)
  · exact hfresh (h.counted _ hcounted)
  · exact hfresh (h.standings entry hentry _ hin)

section Step

variable {s s' : BoundaryState}

/-- The row of a submission is lost exactly when some results have passed its cycle. -/
theorem insertInFlight_step (hs : Tracked s) {submission : InFlight} {i : Nat}
    (hi : s.inFlight[i]? = some submission)
    (hs' : s' = { s with
      db := insertInFlight submission s.db, inFlight := s.inFlight.eraseIdx i }) :
    Tracked s' ∧ (NoneLost s → (NoneLost s' ↔ ¬ Late s (.insert i))) := by
  have hcomputations : s'.computations = s.computations := by rw [hs']
  have hdb : s'.db = insertInFlight submission s.db := by rw [hs']
  obtain ⟨hcycles, heditions, hrows⟩ := insertInFlight_spec submission s.db
  rw [← hdb] at hcycles heditions hrows
  rcases hrows with ⟨cycle, hcycle, hrecorded, hcompletions⟩ | ⟨hnot, hcompletions⟩
  · let row := submittedRow submission.data cycle submission.now s.db.completions.nextId
    have hrows : s'.db.completions.rows = s.db.completions.rows ++ [row] :=
      congrArg Table.rows hcompletions
    have hchild (k e : Nat) : ChildOf s'.db k e ↔ ChildOf s.db k e := by
      rw [ChildOf, ChildOf, hcycles]
    have hread (p : Computation) (k : Nat) : p.HasRead s'.db k ↔ p.HasRead s.db k :=
      and_congr_left' (hchild k p.edition.id)
    have hlate : Late s (.insert i) ↔ ∃ p ∈ s.computations, p.HasRead s.db cycle.id := by
      constructor
      · rintro ⟨_, _, hi', hcycle', _, hex⟩
        obtain rfl := Option.some.inj (hi.symm.trans hi')
        obtain rfl := Option.some.inj (hcycle.symm.trans hcycle')
        exact hex
      · exact fun hex ↦ ⟨submission, cycle, hi, hcycle, hrecorded, hex⟩
    refine ⟨⟨hs.owned.congr heditions hcycles, hs.unique.insert hrecorded hrows, ?_⟩,
      fun hkept ↦ ?_⟩
    · rw [hcomputations]
      refine fun p hp ↦ (hs.sound p hp).mono (by rw [heditions]) ?_ fun k ↦ (hchild k _).mpr
      intro id hid
      rw [hrows, List.map_append]
      exact List.mem_append_left _ hid
    · rw [hlate, NoneLost, hcomputations, hrows]
      constructor
      · rintro hnone ⟨p, hp, hpread⟩
        have hsees := hnone p hp row (List.mem_append_right _ (List.mem_singleton_self row))
          ((hread p _).mpr hpread)
        exact (hs.sound p hp).not_sees le_rfl hsees
      · intro hnot p hp c hc hpread
        rw [hread] at hpread
        rcases List.mem_append.mp hc with hc | hc
        · exact hkept p hp c hc hpread
        · rw [List.mem_singleton.mp hc] at hpread
          exact absurd ⟨p, hp, hpread⟩ hnot
  · have hquiet : Quiet s.db s'.db := .of_eq heditions hcycles (by rw [hcompletions])
    have htracked := hs.of_quiet hquiet
    refine ⟨⟨htracked.owned, htracked.unique, ?_⟩, fun hkept ↦ iff_of_true ?_ ?_⟩
    · rw [hcomputations]
      exact htracked.sound
    · rw [NoneLost, hcomputations]
      exact hkept.of_quiet hs hquiet
    · rintro ⟨_, cycle, hi', hcycle, hrecorded, _⟩
      obtain rfl := Option.some.inj (hi.symm.trans hi')
      exact hnot ⟨cycle, hcycle, hrecorded⟩

/-- All cycles of an edition that awaits its results are there to be read. -/
theorem mem_fetchEditionChildCycles_of_childOf {db : Db} (howned : Owned db) {e : Edition}
    (he : e ∈ db.editions.rows) (hawaiting : e.status = .awaitingResults) {k : Nat} :
    ChildOf db k e.id ↔ k ∈ (fetchEditionChildCycles e.id db).map Cycle.id := by
  rw [List.mem_map]
  constructor
  · rintro ⟨cy, hcy, hk, hof⟩
    have hfinalizing := howned.awaiting e he hawaiting cy hcy hof
    exact ⟨cy, by simp [fetchEditionChildCycles, hcy, hof, hfinalizing], hk⟩
  · rintro ⟨cy, hcy, hk⟩
    simp only [fetchEditionChildCycles, mem_orderBy, Table.mem_select, decide_eq_true_eq] at hcy
    exact ⟨cy, hcy.1, hk, hcy.2.1⟩

/-- A count loses nothing: the results it opens have all their cycles still to be read. -/
theorem countEdition_step (hs : Tracked s) {e : Edition} (he : e ∈ s.db.editions.rows)
    (hawaiting : e.status = .awaitingResults) :
    Tracked (countEdition s e) ∧ (NoneLost s → NoneLost (countEdition s e)) := by
  rw [countEdition]
  split
  · let p : Computation :=
      { edition := e
        counted := s.db.completions.rows.map Completion.id
        unread := fetchEditionChildCycles e.id s.db }
    have hunread {k : Nat} : ChildOf s.db k e.id ↔ k ∈ p.unread.map Cycle.id :=
      mem_fetchEditionChildCycles_of_childOf hs.owned he hawaiting
    refine ⟨⟨hs.owned, hs.unique, fun q hq ↦ ?_⟩, fun hkept q hq ↦ ?_⟩
    · rcases List.mem_append.mp hq with hq | hq
      · exact hs.sound q hq
      · rw [List.mem_singleton.mp hq]
        exact
          { edition := s.db.editions.fresh e he
            counted := fun _ ↦ id
            standings := by simp
            nodup := by
              have hperm := (perm_orderBy Cycle.id (s.db.cycles.select fun cy ↦
                cy.editionId = some e.id ∧ cy.status = .finalizing)).map Cycle.id
              exact hperm.nodup_iff.mpr (Table.nodup_map_key_select _)
            unread := fun child hchild ↦ hunread.mpr (List.mem_map_of_mem hchild)
            unreadOnce := by simp }
    · rcases List.mem_append.mp hq with hq | hq
      · exact hkept q hq
      · rw [List.mem_singleton.mp hq]
        rintro c - ⟨hchild, hread⟩
        exact absurd (hunread.mp hchild) hread
  · split
    · exact ⟨hs, id⟩
    · have hquiet := Quiet.markEditionStartAnnounced e.id s.db
      exact ⟨hs.of_quiet hquiet, fun hkept ↦ hkept.of_quiet hs hquiet⟩

section ReadNext

variable {p p' : Computation} {db : Db}

/-- What reading a cycle adds to a computation. -/
theorem Computation.readNext_cases (h : p.readNext db = some p') :
    ∃ child unread, p.unread = child :: unread ∧ p'.unread = unread ∧ p'.edition = p.edition ∧
      p'.counted = p.counted ∧
      p'.standings = p.standings ++ [(child.id, (bestPerUser child.id db).map Completion.id)] := by
  rw [readNext] at h
  cases hunread : p.unread with
  | nil =>
      rw [hunread] at h
      cases h
  | cons child unread =>
      rw [hunread] at h
      cases h
      exact ⟨child, unread, rfl, rfl, rfl, rfl, rfl⟩

theorem Computation.Sound.readNext (hp : p.Sound db) (h : p.readNext db = some p') :
    p'.Sound db := by
  obtain ⟨child, unread, hunread, hunread', hedition, hcounted, hstandings⟩ :=
    Computation.readNext_cases h
  have hnodup := hp.nodup
  rw [hunread, List.map_cons, List.nodup_cons] at hnodup
  refine ⟨by rw [hedition]; exact hp.edition, by rw [hcounted]; exact hp.counted, ?_,
    by rw [hunread']; exact hnodup.2, ?_, ?_⟩
  · intro entry hentry id hid
    rw [hstandings, List.mem_append, List.mem_singleton] at hentry
    rcases hentry with hentry | rfl
    · exact hp.standings entry hentry id hid
    · obtain ⟨c, hc, rfl⟩ := List.mem_map.mp hid
      exact List.mem_map_of_mem (mem_rows_of_mem_bestPerUser hc).1
  · intro cy hcy
    rw [hunread'] at hcy
    rw [hedition]
    refine hp.unread cy ?_
    rw [hunread]
    exact List.mem_cons_of_mem _ hcy
  · intro entry hentry
    rw [hstandings, List.mem_append, List.mem_singleton] at hentry
    rw [hunread']
    rcases hentry with hentry | rfl
    · have honce := hp.unreadOnce entry hentry
      rw [hunread, List.map_cons, List.mem_cons] at honce
      exact fun hmem ↦ honce (.inr hmem)
    · exact hnodup.1

end ReadNext

/-- Reading a cycle loses the runs on it that came after the count and are not best. -/
theorem readNext_step (hs : Tracked s) {p p' : Computation} {i : Nat}
    (hi : s.computations[i]? = some p) (hp' : p.readNext s.db = some p')
    (hs' : s' = { s with computations := s.computations.set i p' }) :
    Tracked s' ∧ (NoneLost s → (NoneLost s' ↔ ¬ Late s (.read i))) := by
  have hdb : s'.db = s.db := by rw [hs']
  have hcomputations : s'.computations = s.computations.set i p' := by rw [hs']
  have hp : p ∈ s.computations := List.mem_of_getElem? hi
  have hmem : p' ∈ s'.computations := by
    rw [hcomputations]
    exact List.mem_set (List.getElem?_eq_some_iff.mp hi).1 p'
  have hcases {q : Computation} (hq : q ∈ s'.computations) : q ∈ s.computations ∨ q = p' := by
    rw [hcomputations] at hq
    exact List.mem_or_eq_of_mem_set hq
  refine ⟨⟨by rw [hdb]; exact hs.owned, by rw [hdb]; exact hs.unique, fun q hq ↦ ?_⟩,
    fun hkept ↦ ?_⟩
  · rw [hdb]
    rcases hcases hq with hq | rfl
    · exact hs.sound q hq
    · exact (hs.sound p hp).readNext hp'
  obtain ⟨child, unread, hunread, hunread', hedition, hcounted, hstandings⟩ :=
    Computation.readNext_cases hp'
  have hlate : Late s (.read i) ↔ ∃ c ∈ s.db.completions.rows, c.cycleId = child.id ∧
      c.id ∉ p.counted ∧ Bettered c s.db := by
    constructor
    · rintro ⟨_, _, _, hi', hunread₁, hex⟩
      obtain rfl := Option.some.inj (hi.symm.trans hi')
      obtain ⟨rfl, rfl⟩ := List.cons.inj (hunread.symm.trans hunread₁)
      exact hex
    · exact fun hex ↦ ⟨p, child, unread, hi, hunread, hex⟩
  have hsound := hs.sound p hp
  rw [hlate]
  constructor
  · rintro hnone ⟨c, hc, hcycle, hnew, hbettered⟩
    have hnotin := hsound.nodup
    rw [hunread, List.map_cons, List.nodup_cons] at hnotin
    have hread : p'.HasRead s'.db c.cycleId := by
      rw [Computation.HasRead, hdb, hedition, hunread', hcycle]
      exact ⟨hsound.unread child (by rw [hunread]; exact List.mem_cons_self), hnotin.1⟩
    rcases hnone p' hmem c (by rwa [hdb]) hread with hseen | ⟨entry, hentry, hof, hin⟩
    · rw [hcounted] at hseen
      exact hnew hseen
    · rw [hstandings, List.mem_append, List.mem_singleton] at hentry
      rcases hentry with hentry | rfl
      · -- the cycle was still to be read
        refine hsound.unreadOnce entry hentry ?_
        rw [hof, hcycle, hunread]
        exact List.mem_cons_self
      · obtain ⟨c₀, hc₀, hid⟩ := List.mem_map.mp hin
        rw [Table.eq_of_key_eq (mem_rows_of_mem_bestPerUser hc₀).1 hc hid, ← hcycle] at hc₀
        exact (mem_bestPerUser_iff hs.unique hc).mp hc₀ hbettered
  · intro hnot q hq c hc hread
    rw [hdb] at hc hread
    rcases hcases hq with hq | rfl
    · exact hkept q hq c hc hread
    · obtain ⟨hchild, hpassed⟩ := hread
      rw [hedition] at hchild
      rw [hunread'] at hpassed
      by_cases hcycle : c.cycleId = child.id
      · by_cases hseen : c.id ∈ p.counted
        · exact .inl (by rwa [hcounted])
        · have hbest : c ∈ bestPerUser child.id s.db := by
            rw [← hcycle, mem_bestPerUser_iff hs.unique hc]
            exact fun hbettered ↦ hnot ⟨c, hc, hcycle, hseen, hbettered⟩
          refine .inr ⟨(child.id, (bestPerUser child.id s.db).map Completion.id), ?_, hcycle.symm,
            List.mem_map_of_mem hbest⟩
          rw [hstandings]
          exact List.mem_append_right _ (List.mem_singleton_self _)
      · have hread : p.HasRead s.db c.cycleId := by
          refine ⟨hchild, ?_⟩
          rw [hunread, List.map_cons, List.mem_cons]
          exact not_or.mpr ⟨hcycle, hpassed⟩
        rcases hkept p hp c hc hread with hseen | ⟨entry, hentry, hof, hin⟩
        · exact .inl (by rwa [hcounted])
        · refine .inr ⟨entry, ?_, hof, hin⟩
          rw [hstandings]
          exact List.mem_append_left _ hentry

/-- A step keeps what is tracked, and loses a run exactly when it is late. -/
theorem boundaryStep_spec {l : BoundaryLabel} (hs : Tracked s) (h : boundaryStep s l = some s') :
    Tracked s' ∧ (NoneLost s → (NoneLost s' ↔ ¬ Late s l)) := by
  have hquiet {db' : Db} (hquiet : Quiet s.db db') (hl : ¬ Late s l) :
      Tracked { s with db := db' } ∧ (NoneLost s → (NoneLost { s with db := db' } ↔ ¬ Late s l)) :=
    ⟨hs.of_quiet hquiet, fun hkept ↦ iff_of_true (hkept.of_quiet hs hquiet) hl⟩
  cases l with
  | resolve data now =>
      cases h
      exact ⟨⟨hs.owned, hs.unique, hs.sound⟩, fun hkept ↦ iff_of_true hkept not_false⟩
  | insert i =>
      obtain ⟨submission, hi, rfl⟩ := Option.map_eq_some_iff.mp h
      exact insertInFlight_step hs hi rfl
  | bootstrap zones now random =>
      cases h
      exact hquiet (.bootstrap zones now random s.db) not_false
  | transition lockFree now random =>
      cases h
      exact hquiet (.transition lockFree now random s.db) not_false
  | verdict tc verified =>
      cases h
      exact hquiet (.verdict tc verified s.db) not_false
  | count editionId =>
      obtain ⟨e, he, rfl⟩ := Option.map_eq_some_iff.mp h
      obtain ⟨hget, hguard⟩ := Option.filter_eq_some_iff.mp he
      simp only [Bool.decide_and, Bool.and_eq_true, decide_eq_true_eq] at hguard
      obtain ⟨htracked, hcount⟩ := countEdition_step hs (Table.mem_of_get? hget) hguard.1
      exact ⟨htracked, fun hkept ↦ iff_of_true (hcount hkept) not_false⟩
  | read i =>
      obtain ⟨p, hi, hp⟩ := Option.bind_eq_some_iff.mp h
      obtain ⟨p', hp', rfl⟩ := Option.map_eq_some_iff.mp hp
      exact readNext_step hs hi hp' rfl
  | publish i now =>
      obtain ⟨p, _, rfl⟩ := Option.map_eq_some_iff.mp h
      exact hquiet (.publish now p s.db) not_false

end Step

/-! ## Runs -/

/-- No run is lost in any state reached exactly when no step is late. -/
theorem runs_noneLost_iff {db : Db} (howned : Owned db) (hunique : UniqueRuns db)
    (ls : List BoundaryLabel) (s : BoundaryState) :
    Run (fun s l s' ↦ boundaryStep s l = some s' ∧ NoneLost s') { db } ls s ↔
      Run (Guarded (fun s l ↦ ¬ Late s l) (ofStep boundaryStep)) { db } ls s := by
  refine Run.congr (fun s ↦ Tracked s ∧ NoneLost s) ?_ ?_
    ⟨⟨howned, hunique, by simp⟩, by simp [NoneLost]⟩
  · rintro s l s' ⟨htracked, hkept⟩
    constructor
    · rintro ⟨hstep, hkept'⟩
      exact ⟨((boundaryStep_spec htracked hstep).2 hkept).mp hkept', hstep⟩
    · rintro ⟨hlate, hstep⟩
      exact ⟨hstep, ((boundaryStep_spec htracked hstep).2 hkept).mpr hlate⟩
  · rintro s l s' ⟨htracked, _⟩ ⟨hstep, hkept'⟩
    exact ⟨(boundaryStep_spec htracked hstep).1, hkept'⟩

/-- The submission of a run on the map of the first cycle. -/
def firstRun : CompletionCreateRequest where
  code := "AAAA"
  userId := 7
  time := 1000
  screenshot := ""
  video := none

/-- A submission resolves its cycle, and commits after the results are out. -/
def lateSubmission : List BoundaryLabel :=
  [.bootstrap utc 0 fun _ ↦ default, .resolve firstRun 59, .transition true 60 fun _ ↦ default,
    .count 1, .read 0, .publish 0 61, .insert 0]

/-- The run is on a completed cycle whose standings have come out empty. -/
theorem lateSubmission_lost :
    ∃ s, Run (ofStep boundaryStep) { db := unstarted.db } lateSubmission s ∧ ¬ NoneLost s ∧
      s.db.completions.rows.map (fun c ↦ (c.cycleId, c.userId, c.status)) = [(1, 7, .pending)] ∧
      (s.db.cycles.get? 1).map Cycle.status = some .completed ∧
      s.computations.map (fun p ↦ p.results.map fun entry ↦ (entry.cycleId, entry.standings)) =
        [[(1, [])]] := by
  have hrun : ((lateSubmission.foldlM boundaryStep { db := unstarted.db }).any fun s ↦
      ¬ NoneLost s ∧
        s.db.completions.rows.map (fun c ↦ (c.cycleId, c.userId, c.status)) = [(1, 7, .pending)] ∧
        (s.db.cycles.get? 1).map Cycle.status = some .completed ∧
        s.computations.map (fun p ↦ p.results.map fun entry ↦ (entry.cycleId, entry.standings)) =
          [[(1, [])]]) = true := by
    decide +kernel
  obtain ⟨s, hs, hlost⟩ := Option.any_eq_true _ _ |>.mp hrun
  exact ⟨s, Run.ofStep_iff.mpr hs, of_decide_eq_true hlost⟩

/-- A submission commits before its edition is closed, and the results wait for its verdict. -/
def timelySubmission : List BoundaryLabel :=
  [.bootstrap utc 0 fun _ ↦ default, .resolve firstRun 59, .insert 0,
    .transition true 60 fun _ ↦ default, .count 1, .verdict 1 true, .count 1, .read 0,
    .publish 0 62]

theorem runs_noneLost_iff_timelySubmission :
    ∃ s, Run (Guarded (fun s l ↦ ¬ Late s l) (ofStep boundaryStep)) { db := unstarted.db }
      timelySubmission s := by
  let step (s : BoundaryState) (l : BoundaryLabel) : Option BoundaryState :=
    (boundaryStep s l).filter fun s' ↦ NoneLost s'
  have hrun : (timelySubmission.foldlM step { db := unstarted.db }).isSome = true := by
    decide +kernel
  obtain ⟨s, hs⟩ := Option.isSome_iff_exists.mp hrun
  have howned : Owned unstarted.db := ⟨by simp [unstarted], by simp [unstarted], by simp [unstarted]⟩
  refine ⟨s, (runs_noneLost_iff howned (by simp [UniqueRuns, unstarted]) timelySubmission s).mp ?_⟩
  refine (Run.ofStep_iff.mpr hs).mono fun a l b h ↦ ?_
  obtain ⟨hstep, hkept⟩ := Option.filter_eq_some_iff.mp h
  exact ⟨hstep, of_decide_eq_true hkept⟩

end Genjishimada.Tournaments
