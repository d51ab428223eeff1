import Genjishimada.Library.Streak
import Genjishimada.Tournaments.Publication

/-!
# Participation streaks

Publishing the results of an edition advances the streak of everyone who took part
and resets that of everyone else who has one.  Advance and reset look only at what
is stored, not at when the edition ended, so they compute the streak over the
editions in the order of their publication.

The streaks agree with the order in which the editions ended exactly as long as
every edition that is published late fits in: everyone who took part in it took part
in all later ones published before, and everyone who did not missed the latest.
-/

namespace Genjishimada.Tournaments

open Library Sdk Repository Services

/-! ## What one publication does to the streaks -/

/-- The streak row of a user after an edition's streaks are awarded. -/
def streakAfter (results : List TournamentCycleCompletedEvent) (db : Db) (u : Nat) : Option Streak :=
  if results = [] then db.streaks.get? u
  else if u ∈ participantsUnion results db then
    some (((db.streaks.get? u).map (updateStreak (markerCycle results) true)).getD
      (newStreak u (markerCycle results) true))
  else (db.streaks.get? u).map (updateStreak (markerCycle results) false)

section Award

variable {db : Db}

theorem advanceStreak_get? (u marker : Nat) (participated : Bool) (x : Nat) :
    (advanceStreak u marker participated db).2.streaks.get? x =
      if x = u then
        some (((db.streaks.get? x).map (updateStreak marker participated)).getD
          (newStreak u marker participated))
      else db.streaks.get? x := by
  rw [advanceStreak, Table.get?_upsert, key_newStreak]

theorem advanceParticipant_get? (bonus : Nat → Nat → Int) (marker u : Nat) (db : Db) (x : Nat) :
    (advanceParticipant bonus marker u db).2.streaks.get? x =
      if x = u then
        some (((db.streaks.get? x).map (updateStreak marker true)).getD (newStreak u marker true))
      else db.streaks.get? x := by
  rw [← advanceStreak_get?]
  have hgrant (streak : Streak) (db : Db) :
      ((if bonus u streak.currentStreak = 0 then pure []
        else grantXp u (bonus u streak.currentStreak)
          s!"Tournament Streak x{streak.currentStreak}" marker .streak :
          StateM Db (List XpGrantEvent)) db).2.streaks = db.streaks := by
    split
    · rfl
    · exact (grantXp_onlyGrants _ _ _ _ _ db).streaks_eq
  exact congrArg (fun t ↦ Table.get? t x) (hgrant _ _)

/-- Awarding the streaks of an edition treats each user on their own. -/
theorem awardEditionStreaks_get? (results : List TournamentCycleCompletedEvent) (db : Db) (x : Nat) :
    (awardEditionStreaks results db).2.streaks.get? x = streakAfter results db x := by
  rw [streakAfter]
  by_cases hr : results = []
  · rw [awardEditionStreaks, if_pos hr, if_pos hr]
    rfl
  rw [awardEditionStreaks, if_neg hr, if_neg hr]
  let marker := markerCycle results
  let participants := participantsUnion results db
  let db₁ := (participants.mapM (advanceParticipant (streakBonus results db) marker) db).2
  let others := (fetchAllStreakUserIds db₁).filter (· ∉ participants)
  change (others.forM (resetStreak marker) db₁).2.streaks.get? x = _
  obtain ⟨hadvance, hkept⟩ := mapM_pointwise (v := fun db x ↦ db.streaks.get? x) (k := id)
    (F := fun u old ↦ some ((old.map (updateStreak marker true)).getD (newStreak u marker true)))
    (f := advanceParticipant (streakBonus results db) marker)
    (advanceParticipant_get? (streakBonus results db) marker)
    (show (participants.map id).Nodup from (List.map_id _).symm ▸ List.nodup_dedup _) db
  have hnodup : (others.map id).Nodup :=
    (List.map_id _).symm ▸ (db₁.streaks.nodup).sublist List.filter_sublist
  obtain ⟨hreset, hleft⟩ := forM_pointwise (v := fun db x ↦ db.streaks.get? x) (k := id)
    (F := fun u old ↦
      some ((old.map (updateStreak marker false)).getD (newStreak u marker false)))
    (f := resetStreak marker) (fun u db x ↦ advanceStreak_get? u marker false x) hnodup db₁
  have hothers : x ∈ others ↔ (db₁.streaks.get? x).isSome ∧ x ∉ participants := by
    rw [List.mem_filter, decide_eq_true_iff, Option.isSome_iff_exists]
    refine and_congr_left' ?_
    simp only [fetchAllStreakUserIds, List.mem_map, Table.get?_eq_some_iff]
    rfl
  by_cases hx : x ∈ participants
  · have hnot : ∀ u ∈ others, id u ≠ x := fun u hu h ↦ (hothers.mp (h ▸ hu)).2 hx
    rw [hleft x hnot, if_pos hx]
    exact hadvance x hx
  · rw [if_neg hx]
    have hsame : db₁.streaks.get? x = db.streaks.get? x := hkept x fun u hu h ↦ hx (h ▸ hu)
    cases hget : db.streaks.get? x with
    | none =>
        have hnot : ∀ u ∈ others, id u ≠ x := fun u hu h ↦ by
          simpa [hsame, hget] using (hothers.mp (h ▸ hu)).1
        rw [hleft x hnot, hsame, hget]
        rfl
    | some s =>
        refine (hreset x (hothers.mpr ⟨by rw [hsame, hget]; rfl, hx⟩)).trans ?_
        rw [id_eq, hsame, hget]
        rfl

theorem streakAfter_congr {db db' : Db} (hstreaks : db'.streaks = db.streaks)
    (hcompletions : db'.completions = db.completions) (results : List TournamentCycleCompletedEvent)
    (u : Nat) : streakAfter results db' u = streakAfter results db u := by
  have hunion : participantsUnion results db' = participantsUnion results db := by
    simp only [participantsUnion, fetchCycleParticipants, hcompletions]
  rw [streakAfter, streakAfter, hstreaks, hunion]

end Award

/-! ## Histories -/

/-- The cycles of an edition. -/
def cyclesOf (editionId : Nat) (db : Db) : List Nat :=
  (db.cycles.select fun cy ↦ cy.editionId = some editionId).map Cycle.id

/-- Whether a user submitted to a cycle of the edition, whatever became of the run. -/
def submitted (db : Db) (u : Nat) (p : Edition) : Bool :=
  db.completions.rows.any fun c ↦ c.userId = u ∧ c.cycleId ∈ cyclesOf p.id db

/-- The order in which the editions ended, the latest first. -/
def recency (p : Edition) : Int ×ₗ Int := toLex (-p.endsAt, -p.id)

def currentStreak (u : Nat) (db : Db) : Nat :=
  ((db.streaks.get? u).map Streak.currentStreak).getD 0

/-- Which cycles belong to which edition and who submitted to them is as before. -/
structure SameHistory (db db' : Db) : Prop where
  cycles : db'.cycles.rows.map (fun cy ↦ (cy.id, cy.editionId)) =
    db.cycles.rows.map fun cy ↦ (cy.id, cy.editionId)
  completions : db'.completions.rows.map (fun c ↦ (c.userId, c.cycleId)) =
    db.completions.rows.map fun c ↦ (c.userId, c.cycleId)

section History

variable {db db' : Db}

theorem SameHistory.refl (db : Db) : SameHistory db db := ⟨rfl, rfl⟩

theorem SameHistory.cyclesOf_eq (h : SameHistory db db') (editionId : Nat) :
    cyclesOf editionId db' = cyclesOf editionId db := by
  have hpairs (db : Db) : cyclesOf editionId db =
      ((db.cycles.rows.map fun cy ↦ (cy.id, cy.editionId)).filter
        fun x ↦ x.2 = some editionId).map Prod.fst := by
    rw [cyclesOf, Table.select, List.filter_map, List.map_map]
    rfl
  rw [hpairs, hpairs, h.cycles]

theorem SameHistory.submitted_eq (h : SameHistory db db') (u : Nat) (p : Edition) :
    submitted db' u p = submitted db u p := by
  have hpairs (db : Db) (l : List Nat) :
      (db.completions.rows.any fun c ↦ c.userId = u ∧ c.cycleId ∈ l) =
        (db.completions.rows.map fun c ↦ (c.userId, c.cycleId)).any
          fun x ↦ x.1 = u ∧ x.2 ∈ l := by
    rw [List.any_map]
    rfl
  rw [submitted, submitted, h.cyclesOf_eq, hpairs, hpairs, h.completions]

theorem mem_cyclesOf {c editionId : Nat} :
    c ∈ cyclesOf editionId db ↔ ∃ cy ∈ db.cycles.rows, cy.editionId = some editionId ∧ cy.id = c := by
  simp [cyclesOf, and_assoc]

/-- A cycle belongs to one edition. -/
theorem eq_of_mem_cyclesOf {c e e' : Nat} (h : c ∈ cyclesOf e db) (h' : c ∈ cyclesOf e' db) :
    e = e' := by
  obtain ⟨cy, hcy, he, rfl⟩ := mem_cyclesOf.mp h
  obtain ⟨cy', hcy', he', hid⟩ := mem_cyclesOf.mp h'
  obtain rfl : cy' = cy := Table.eq_of_key_eq hcy' hcy hid
  exact Option.some.inj (he.symm.trans he')

end History

/-! ## The results of an edition -/

/-- The results cover exactly the cycles of the edition. -/
def Covers (results : List TournamentCycleCompletedEvent) (editionId : Nat) (db : Db) : Prop :=
  ∀ c, c ∈ results.map TournamentCycleCompletedEvent.cycleId ↔ c ∈ cyclesOf editionId db

namespace Covers

variable {results : List TournamentCycleCompletedEvent} {p : Edition} {db : Db}
  (h : Covers results p.id db)
include h

theorem eq_nil_iff : results = [] ↔ cyclesOf p.id db = [] := by
  rw [← List.map_eq_nil_iff (f := TournamentCycleCompletedEvent.cycleId),
    List.eq_nil_iff_forall_not_mem, List.eq_nil_iff_forall_not_mem]
  exact forall_congr' fun c ↦ not_congr (h c)

/-- The marker is a cycle of the edition. -/
theorem marker (hne : results ≠ []) : markerCycle results ∈ cyclesOf p.id db := by
  have hmax : ∀ {l : List Nat}, l ≠ [] → l.foldr max 0 ∈ l := by
    intro l
    induction l with
    | nil => exact fun h ↦ absurd rfl h
    | cons a l ih =>
        intro _
        rw [List.foldr_cons]
        rcases max_choice a (l.foldr max 0) with hm | hm
        · rw [hm]
          exact List.mem_cons_self
        · cases l with
          | nil =>
              rw [List.foldr_nil, Nat.max_zero]
              exact List.mem_cons_self
          | cons b l =>
              rw [hm]
              exact List.mem_cons_of_mem _ (ih (List.cons_ne_nil b l))
  exact (h _).mp (hmax fun hnil ↦ hne (List.map_eq_nil_iff.mp hnil))

/-- The participants are the users who submitted. -/
theorem mem_participantsUnion {u : Nat} :
    u ∈ participantsUnion results db ↔ submitted db u p = true := by
  have hmem (c : Nat) : c ∈ cyclesOf p.id db ↔ ∃ entry ∈ results, entry.cycleId = c :=
    (h c).symm.trans List.mem_map
  simp only [participantsUnion, fetchCycleParticipants, submitted, List.mem_dedup,
    List.mem_flatMap, List.mem_map, Table.mem_select, List.any_eq_true, decide_eq_true_iff, hmem]
  constructor
  · rintro ⟨entry, hentry, c, ⟨hc, hcycle⟩, rfl⟩
    exact ⟨c, hc, rfl, entry, hentry, hcycle.symm⟩
  · rintro ⟨c, hc, rfl, entry, hentry, hcycle⟩
    exact ⟨entry, hentry, c, ⟨hc, hcycle.symm⟩, rfl⟩

/-- What the results of an edition do to a streak. -/
theorem currentStreak_eq {db' : Db} {u : Nat}
    (hget : db'.streaks.get? u = streakAfter results db u)
    (hmarker : results ≠ [] → ∀ s, db.streaks.get? u = some s →
      s.lastCycleId ≠ some (markerCycle results)) :
    currentStreak u db' =
      if cyclesOf p.id db = [] then currentStreak u db
      else if submitted db u p then currentStreak u db + 1 else 0 := by
  rw [currentStreak, hget, streakAfter, currentStreak]
  by_cases hr : results = []
  · rw [if_pos hr, if_pos (h.eq_nil_iff.mp hr)]
  rw [if_neg hr, if_neg (mt h.eq_nil_iff.mpr hr)]
  by_cases hu : submitted db u p = true
  · rw [if_pos (h.mem_participantsUnion.mpr hu), if_pos hu]
    cases hs : db.streaks.get? u with
    | none => rfl
    | some s =>
        have hlast := hmarker hr s hs
        simp [updateStreak, hlast]
  · rw [if_neg (mt h.mem_participantsUnion.mp hu), if_neg hu]
    cases db.streaks.get? u <;> rfl

end Covers

/-! ## The machine -/

structure StreakState where
  db : Db
  /-- The editions whose results have been published, in that order. -/
  published : List Edition := []

inductive StreakLabel where
  /-- The poller takes up an edition. -/
  | edition (now : Int) (edition : Edition)
  /-- The poller publishes a row of the outbox. -/
  | row (row : PendingTransition)
  | verdict (tournamentCompletionId : Nat) (verified : Bool)

/-- The poller takes up the editions that await results and the unpublished rows. -/
def StreakLabel.Enabled (db : Db) : StreakLabel → Prop
  | edition _ e => e ∈ db.editions.rows ∧ e.status = .awaitingResults
  | row t => t ∈ db.pendingTransitions.rows ∧ t.published = false
  | verdict _ _ => True

instance (db : Db) : (l : StreakLabel) → Decidable (l.Enabled db)
  | .edition _ e =>
      inferInstanceAs (Decidable (e ∈ db.editions.rows ∧ e.status = .awaitingResults))
  | .row t => inferInstanceAs (Decidable (t ∈ db.pendingTransitions.rows ∧ t.published = false))
  | .verdict _ _ => .isTrue ⟨⟩

/-- The database after a step. -/
def streakDb (db : Db) : StreakLabel → Db
  | .edition now e => (final ((processEdition now e : Tournament _) { db })).db
  | .row t => (final ((publishTransition t : Tournament _) { db })).db
  | .verdict tc verified => (verdictWrite tc verified verified db).2

/-- The edition whose results a step publishes. -/
def publishes (db : Db) : StreakLabel → Option Edition
  | .edition _ e =>
      if e.startAnnounced = false ∧ countInflightVerifications e.id db = 0 then some e else none
  | .row t => (deferredResults t).bind db.editions.get?
  | .verdict _ _ => none

def StreakStep (s : StreakState) (l : StreakLabel) (s' : StreakState) : Prop :=
  l.Enabled s.db ∧
    s' = { db := streakDb s.db l, published := s.published ++ (publishes s.db l).toList }

/-! ## What a step does -/

/-- The four branches of the drain. -/
theorem streakDb_edition (now : Int) (e : Edition) (db : Db) :
    e.startAnnounced = false ∧ 0 < countInflightVerifications e.id db ∧
      streakDb db (.edition now e) = markEditionStartAnnounced e.id db ∨
    e.startAnnounced = false ∧ countInflightVerifications e.id db = 0 ∧
      (∃ db₁, OnlyRewards db db₁ ∧
        (∀ u, db₁.streaks.get? u = streakAfter (buildResults e.id db) db u) ∧
        streakDb db (.edition now e) = completeEdition e.id db₁) ∨
    e.startAnnounced = true ∧ countInflightVerifications e.id db = 0 ∧
      streakDb db (.edition now e) = writeDrainedResultsRow e.id now db ∨
    e.startAnnounced = true ∧ 0 < countInflightVerifications e.id db ∧
      streakDb db (.edition now e) = db := by
  have hrun : streakDb db (.edition now e) =
      (final ((if ¬ e.startAnnounced ∧ countInflightVerifications e.id db > 0 then
          announceStart e.id (fetchActiveEditionStartedCycles db)
        else if ¬ e.startAnnounced ∧ countInflightVerifications e.id db = 0 then
          publishCombined e.id (fetchActiveEditionStartedCycles db)
        else if countInflightVerifications e.id db = 0 then
          (do
            execute (writeDrainedResultsRow e.id now)
            return [])
        else return [] : Tournament _) { db })).db := rfl
  rw [hrun]
  cases ha : e.startAnnounced with
  | false =>
      rcases Nat.eq_zero_or_pos (countInflightVerifications e.id db) with hi | hi
      · refine .inr (.inl ⟨rfl, hi, ?_⟩)
        rw [if_neg (by simp [hi]), if_pos (by simp [hi])]
        have hsends : Sends receipt (publishCombined e.id (fetchActiveEditionStartedCycles db) :
            Tournament _) { db } [.combined e.id] _ := publishCombined_sends fun _ ↦ rfl
        obtain ⟨_, db₁, hgrants, hdb⟩ := hsends.of_no_faults
        refine ⟨_, hgrants.onlyRewards.trans (awardEditionStreaks_onlyRewards _ _), fun u ↦ ?_, hdb⟩
        rw [awardEditionStreaks_get?,
          streakAfter_congr hgrants.streaks_eq hgrants.onlyRewards.completions_eq]
      · refine .inl ⟨rfl, hi, ?_⟩
        rw [if_pos (by simp [hi])]
        have hsends : Sends receipt (announceStart e.id (fetchActiveEditionStartedCycles db) :
            Tournament _) { db } [.startOnly e.id] _ := announceStart_sends fun _ ↦ rfl
        obtain ⟨_, hdb⟩ := hsends.of_no_faults
        exact hdb
  | true =>
      refine .inr (.inr ?_)
      rw [if_neg (by simp), if_neg (by simp)]
      rcases Nat.eq_zero_or_pos (countInflightVerifications e.id db) with hi | hi
      · rw [if_pos hi]
        exact .inl ⟨rfl, hi, rfl⟩
      · rw [if_neg hi.ne']
        exact .inr ⟨rfl, hi, rfl⟩

/-- A row that decodes pays for its results and is marked. -/
theorem streakDb_row {t : PendingTransition} {routingKey : RoutingKey} {event : OutboxEvent}
    (h : buildEvent t = .ok (routingKey, event)) (db : Db) :
    ∃ db₁, OnlyRewards db db₁ ∧
      (∀ u, db₁.streaks.get? u = streakAfter event.results db u) ∧
      streakDb db (.row t) = markTransitionPublished t.id db₁ := by
  obtain ⟨_, db₁, hgrants, hdb⟩ :=
    (publishTransition_sends (ε := TournamentsError) h { db }).of_no_faults
  refine ⟨_, hgrants.onlyRewards.trans (awardEditionStreaks_onlyRewards _ _), fun u ↦ ?_, hdb⟩
  rw [awardEditionStreaks_get?,
    streakAfter_congr hgrants.streaks_eq hgrants.onlyRewards.completions_eq]

/-! ## The invariant -/

/-- An unpublished row holds the results of an edition that is completed but whose
results are still to come. -/
structure Waiting (s : StreakState) (t : PendingTransition) (e : TournamentEditionResultsEvent) :
    Prop where
  decodes : ∃ routingKey, buildEvent t = .ok (routingKey, .editionResults e)
  deferred : deferredResults t = some e.editionId
  covers : Covers e.results e.editionId s.db
  completed : editionStatus e.editionId s.db = some .completed
  unpublished : ∀ q ∈ s.published, q.id ≠ e.editionId

structure StreakInv (s : StreakState) : Prop where
  /-- The cycles of an edition that awaits results are finalizing. -/
  finalizing : ∀ cy ∈ s.db.cycles.rows, ∀ id, cy.editionId = some id →
    editionStatus id s.db = some .awaitingResults → cy.status = .finalizing
  completed : ∀ q ∈ s.published, editionStatus q.id s.db = some .completed
  nodup : (s.published.map Edition.id).Nodup
  waiting : ∀ t ∈ s.db.pendingTransitions.rows, t.published = false → ∃ e, Waiting s t e
  /-- Of an edition only one row waits. -/
  once : ∀ t ∈ s.db.pendingTransitions.rows, ∀ t' ∈ s.db.pendingTransitions.rows,
    t.published = false → t'.published = false → deferredResults t = deferredResults t' → t = t'
  /-- A streak remembers a cycle of a published edition. -/
  marker : ∀ u st c, s.db.streaks.get? u = some st → st.lastCycleId = some c →
    ∃ q ∈ s.published, c ∈ cyclesOf q.id s.db

section Inv

variable {s s' : StreakState} {l : StreakLabel} {db db' : Db}

theorem SameHistory.of_eq (hcycles : db'.cycles = db.cycles)
    (hcompletions : db'.completions = db.completions) : SameHistory db db' :=
  ⟨by rw [hcycles], by rw [hcompletions]⟩

theorem sameHistory_completeEdition (editionId : Nat) (db : Db) :
    SameHistory db (completeEdition editionId db) := by
  refine ⟨?_, rfl⟩
  rw [completeEdition, Table.rows_modify, List.map_map]
  refine List.map_congr_left fun cy _ ↦ ?_
  rw [Function.comp_apply]
  split <;> rfl

theorem SameHistory.trans {db'' : Db} (h : SameHistory db db') (h' : SameHistory db' db'') :
    SameHistory db db'' :=
  ⟨h'.cycles.trans h.cycles, h'.completions.trans h.completions⟩

theorem SameHistory.covers {results : List TournamentCycleCompletedEvent} {editionId : Nat}
    (h : SameHistory db db') (hc : Covers results editionId db) : Covers results editionId db' := by
  rw [Covers, h.cyclesOf_eq]
  exact hc

theorem editionStatus_completeEdition (id editionId : Nat) (db : Db) :
    editionStatus id (completeEdition editionId db) =
      if id = editionId then (editionStatus id db).map fun _ ↦ .completed
      else editionStatus id db := by
  rw [editionStatus, stage_completeEdition, editionStatus]
  split
  · rw [Option.map_map, Option.map_map]
    rfl
  · rfl

theorem editionStatus_of_mem {e : Edition} (h : e ∈ db.editions.rows) :
    editionStatus e.id db = some e.status := by
  rw [editionStatus, stage, show db.editions.get? e.id = some e from Table.get?_of_mem h]
  rfl

theorem editionStatus_congr (h : db'.editions = db.editions) (id : Nat) :
    editionStatus id db' = editionStatus id db := by
  rw [editionStatus, editionStatus, stage, stage, h]

/-- The results built for an edition that awaits them cover its cycles. -/
theorem StreakInv.covers_buildResults (hs : StreakInv s) {editionId : Nat}
    (h : editionStatus editionId s.db = some .awaitingResults) :
    Covers (buildResults editionId s.db) editionId s.db := by
  intro c
  rw [mem_cyclesOf, buildResults, List.map_map, List.mem_map]
  simp only [fetchEditionChildCycles, mem_orderBy, Table.mem_select, decide_eq_true_iff, and_assoc]
  refine exists_congr fun cy ↦ and_congr_right fun hcy ↦ and_congr_right fun he ↦ ?_
  exact and_iff_right (hs.finalizing cy hcy editionId he h)

/-- A step keeps the history; it leaves the streaks alone or publishes the results of
one edition. -/
theorem StreakInv.step_spec (hs : StreakInv s) (h : StreakStep s l s') :
    SameHistory s.db s'.db ∧
      (publishes s.db l = none ∧ s'.db.streaks = s.db.streaks ∨
        ∃ p results, publishes s.db l = some p ∧ Covers results p.id s.db ∧
          (∀ q ∈ s.published, q.id ≠ p.id) ∧
          ∀ u, s'.db.streaks.get? u = streakAfter results s.db u) := by
  obtain ⟨henabled, rfl⟩ := h
  cases l with
  | edition now e =>
      obtain ⟨hmem, hawaiting⟩ := henabled
      have hstatus : editionStatus e.id s.db = some .awaitingResults :=
        (editionStatus_of_mem hmem).trans (congrArg some hawaiting)
      rcases streakDb_edition now e s.db with
        ⟨ha, hi, hdb⟩ | ⟨ha, hi, db₁, hr, hget, hdb⟩ | ⟨ha, hi, hdb⟩ | ⟨ha, hi, hdb⟩
      · rw [hdb]
        exact ⟨.of_eq rfl rfl, .inl ⟨by simp [publishes, hi.ne'], rfl⟩⟩
      · rw [hdb]
        refine ⟨(SameHistory.of_eq hr.cycles_eq hr.completions_eq).trans
          (sameHistory_completeEdition _ _), .inr ⟨e, _, by simp [publishes, ha, hi],
          hs.covers_buildResults hstatus, fun q hq heq ↦ ?_, hget⟩⟩
        have hcompleted := hs.completed q hq
        rw [heq, hstatus] at hcompleted
        cases hcompleted
      · rw [hdb]
        exact ⟨⟨(sameHistory_completeEdition e.id s.db).cycles, rfl⟩,
          .inl ⟨by simp [publishes, ha], rfl⟩⟩
      · rw [hdb]
        exact ⟨.refl _, .inl ⟨by simp [publishes, ha], rfl⟩⟩
  | row t =>
      obtain ⟨hmem, hunpublished⟩ := henabled
      obtain ⟨e, hw⟩ := hs.waiting t hmem hunpublished
      obtain ⟨routingKey, hbuild⟩ := hw.decodes
      obtain ⟨db₁, hr, hget, hdb⟩ := streakDb_row hbuild s.db
      have hcompleted := hw.completed
      simp only [editionStatus, stage, Option.map_map, Option.map_eq_some_iff] at hcompleted
      obtain ⟨p, hp, _⟩ := hcompleted
      have hid : p.id = e.editionId := Table.key_of_get? hp
      rw [hdb]
      refine ⟨.of_eq hr.cycles_eq hr.completions_eq, .inr ⟨p, e.results, ?_, hid ▸ hw.covers,
        fun q hq ↦ hid ▸ hw.unpublished q hq, hget⟩⟩
      rw [publishes, hw.deferred]
      exact hp
  | verdict tc verified =>
      obtain ⟨_, hcycles, _, hstreaks, hcompletions⟩ := verdictWrite_frame tc verified verified s.db
      refine ⟨⟨by rw [streakDb, hcycles], ?_⟩, .inl ⟨rfl, hstreaks⟩⟩
      have hpairs := congrArg (List.map fun c : Completion ↦ (c.userId, c.cycleId)) hcompletions
      rw [List.map_map, List.map_map] at hpairs
      exact hpairs

/-- After an edition every streak remembers its marker. -/
theorem lastCycleId_streakAfter {results : List TournamentCycleCompletedEvent} {u : Nat}
    {st : Streak} (h : streakAfter results db u = some st) (hne : results ≠ []) :
    st.lastCycleId = some (markerCycle results) := by
  have hupdate (participated : Bool) (old : Streak) :
      (updateStreak (markerCycle results) participated old).lastCycleId =
        some (markerCycle results) := by
    cases participated <;> rfl
  rw [streakAfter, if_neg hne] at h
  cases hs : db.streaks.get? u with
  | none =>
      rw [hs] at h
      split at h
      · rw [← Option.some.inj h]
        rfl
      · cases h
  | some old =>
      rw [hs] at h
      split at h
      · rw [← Option.some.inj h]
        exact hupdate true old
      · rw [← Option.some.inj h]
        exact hupdate false old

theorem StreakInv.marker_step (hs : StreakInv s) (h : StreakStep s l s') (u : Nat) (st : Streak)
    (c : Nat) (hget : s'.db.streaks.get? u = some st) (hc : st.lastCycleId = some c) :
    ∃ q ∈ s'.published, c ∈ cyclesOf q.id s'.db := by
  obtain ⟨hhistory, hspec⟩ := hs.step_spec h
  obtain ⟨_, rfl⟩ := h
  simp only [hhistory.cyclesOf_eq]
  have hold (hget : s.db.streaks.get? u = some st) :
      ∃ q ∈ s.published ++ (publishes s.db l).toList, c ∈ cyclesOf q.id s.db := by
    obtain ⟨q, hq, hc⟩ := hs.marker u st c hget hc
    exact ⟨q, List.mem_append_left _ hq, hc⟩
  rcases hspec with ⟨_, hstreaks⟩ | ⟨p, results, hp, hcovers, _, hstreaks⟩
  · rw [hstreaks] at hget
    exact hold hget
  · rw [hstreaks] at hget
    by_cases hne : results = []
    · rw [streakAfter, if_pos hne] at hget
      exact hold hget
    · rw [lastCycleId_streakAfter hget hne] at hc
      rw [hp, ← Option.some.inj hc]
      exact ⟨p, by simp, hcovers.marker hne⟩

theorem StreakInv.nodup_step (hs : StreakInv s) (h : StreakStep s l s') :
    (s'.published.map Edition.id).Nodup := by
  obtain ⟨_, hspec⟩ := hs.step_spec h
  obtain ⟨_, rfl⟩ := h
  rcases hspec with ⟨hnone, _⟩ | ⟨p, _, hp, _, hfresh, _⟩
  · rw [hnone, Option.toList_none, List.append_nil]
    exact hs.nodup
  · rw [hp, Option.toList_some, List.map_append, List.map_singleton, List.nodup_append]
    refine ⟨hs.nodup, List.nodup_singleton _, fun a ha b hb ↦ ?_⟩
    obtain ⟨q, hq, rfl⟩ := List.mem_map.mp ha
    rw [List.mem_singleton.mp hb]
    exact hfresh q hq

theorem Waiting.transfer {t : PendingTransition} {e : TournamentEditionResultsEvent}
    (hw : Waiting s t e) (hhistory : SameHistory s.db s'.db)
    (hstatus : editionStatus e.editionId s'.db = some .completed)
    (hpublished : ∀ q ∈ s'.published, q ∈ s.published ∨ q.id ≠ e.editionId) : Waiting s' t e where
  decodes := hw.decodes
  deferred := hw.deferred
  covers := hhistory.covers hw.covers
  completed := hstatus
  unpublished q hq := (hpublished q hq).elim (hw.unpublished q) id

/-- A step that publishes nothing and moves no edition. -/
theorem StreakInv.of_quiet (hs : StreakInv s) (hhistory : SameHistory s.db db')
    (hcycles : db'.cycles = s.db.cycles)
    (hstatus : ∀ id, editionStatus id db' = editionStatus id s.db)
    (hrows : db'.pendingTransitions = s.db.pendingTransitions)
    (hstreaks : db'.streaks = s.db.streaks) :
    StreakInv { db := db', published := s.published } where
  finalizing cy hcy id he h := by
    rw [hstatus] at h
    exact hs.finalizing cy (hcycles ▸ hcy) id he h
  completed q hq := (hstatus q.id).trans (hs.completed q hq)
  nodup := hs.nodup
  waiting t ht hu := by
    obtain ⟨e, hw⟩ := hs.waiting t (hrows ▸ ht) hu
    exact ⟨e, hw.transfer hhistory ((hstatus _).trans hw.completed) fun _ ↦ .inl⟩
  once t ht t' ht' := hs.once t (hrows ▸ ht) t' (hrows ▸ ht')
  marker u st c hget hc := by
    obtain ⟨q, hq, hmem⟩ := hs.marker u st c (hstreaks ▸ hget) hc
    exact ⟨q, hq, hhistory.cyclesOf_eq q.id ▸ hmem⟩

section Complete

variable {editionId : Nat} (hcycles : db'.cycles = (completeEdition editionId s.db).cycles)
  (heditions : db'.editions = (completeEdition editionId s.db).editions)
include heditions

theorem editionStatus_of_completes (id : Nat) : editionStatus id db' =
    if id = editionId then (editionStatus id s.db).map fun _ ↦ .completed
    else editionStatus id s.db := by
  rw [editionStatus_congr heditions, editionStatus_completeEdition]

/-- A completed edition stays completed. -/
theorem completed_of_completes {id : Nat} (h : editionStatus id s.db = some .completed) :
    editionStatus id db' = some .completed := by
  rw [editionStatus_of_completes heditions, h]
  split <;> rfl

include hcycles in
theorem StreakInv.finalizing_of_completes (hs : StreakInv s) (cy : Cycle)
    (hcy : cy ∈ db'.cycles.rows) (id : Nat) (he : cy.editionId = some id)
    (h : editionStatus id db' = some .awaitingResults) : cy.status = .finalizing := by
  rw [hcycles, completeEdition, Table.mem_modify] at hcy
  rw [editionStatus_of_completes heditions] at h
  split at h
  · obtain ⟨_, _, h⟩ := Option.map_eq_some_iff.mp h
    cases h
  · rename_i hne
    obtain ⟨cy', hcy', rfl⟩ := hcy
    split at he
    · rename_i heq
      rw [of_decide_eq_true heq, Option.some.injEq] at he
      exact absurd he.symm hne
    · rw [if_neg ‹_›]
      exact hs.finalizing cy' hcy' id he h

end Complete

/-- An edition that awaits results is not one of those completed. -/
theorem ne_of_awaiting {id id' : Nat} (hstatus : editionStatus id db = some .awaitingResults)
    (h : editionStatus id' db = some .completed) : id' ≠ id := by
  rintro rfl
  rw [hstatus] at h
  cases h

/-- The results of an edition are published as it completes. -/
theorem StreakInv.publish (hs : StreakInv s) {e : Edition} {db₁ : Db}
    (hstatus : editionStatus e.id s.db = some .awaitingResults) (hr : OnlyRewards s.db db₁)
    (hhistory : SameHistory s.db (completeEdition e.id db₁))
    (hnodup : ((s.published ++ [e]).map Edition.id).Nodup)
    (hmarker : ∀ u st c, (completeEdition e.id db₁).streaks.get? u = some st →
      st.lastCycleId = some c →
      ∃ q ∈ s.published ++ [e], c ∈ cyclesOf q.id (completeEdition e.id db₁)) :
    StreakInv { db := completeEdition e.id db₁, published := s.published ++ [e] } := by
  have hcycles : (completeEdition e.id db₁).cycles = (completeEdition e.id s.db).cycles := by
    rw [completeEdition, completeEdition, hr.cycles_eq]
  have heditions : (completeEdition e.id db₁).editions = (completeEdition e.id s.db).editions := by
    rw [completeEdition, completeEdition, hr.editions_eq]
  have hrows {t : PendingTransition} (ht : t ∈ (completeEdition e.id db₁).pendingTransitions.rows) :
      t ∈ s.db.pendingTransitions.rows := hr.pendingTransitions_eq ▸ ht
  refine ⟨hs.finalizing_of_completes hcycles heditions, fun q hq ↦ ?_, hnodup,
    fun t ht hu ↦ ?_, fun t ht t' ht' ↦ hs.once t (hrows ht) t' (hrows ht'), hmarker⟩
  · rcases List.mem_append.mp hq with hq | hq
    · exact completed_of_completes heditions (hs.completed q hq)
    · rw [List.mem_singleton.mp hq]
      dsimp only
      rw [editionStatus_of_completes heditions, if_pos rfl, hstatus, Option.map_some]
  · obtain ⟨e', hw⟩ := hs.waiting t (hrows ht) hu
    refine ⟨e', hw.transfer hhistory (completed_of_completes heditions hw.completed)
      fun q hq ↦ (List.mem_append.mp hq).imp_right fun hq ↦ ?_⟩
    rw [List.mem_singleton.mp hq]
    exact (ne_of_awaiting hstatus hw.completed).symm

/-- The results of an edition are written to a row as it completes. -/
theorem StreakInv.drain (hs : StreakInv s) {e : Edition} {now : Int}
    (hstatus : editionStatus e.id s.db = some .awaitingResults)
    (hhistory : SameHistory s.db (writeDrainedResultsRow e.id now s.db))
    (hnodup : (s.published.map Edition.id).Nodup)
    (hmarker : ∀ u st c, (writeDrainedResultsRow e.id now s.db).streaks.get? u = some st →
      st.lastCycleId = some c →
      ∃ q ∈ s.published, c ∈ cyclesOf q.id (writeDrainedResultsRow e.id now s.db)) :
    StreakInv { db := writeDrainedResultsRow e.id now s.db, published := s.published } := by
  let row := drainedRow e.id now s.db s.db.pendingTransitions.nextId
  have hrows : (writeDrainedResultsRow e.id now s.db).pendingTransitions.rows =
      s.db.pendingTransitions.rows ++ [row] := rfl
  have heditions : (writeDrainedResultsRow e.id now s.db).editions =
      (completeEdition e.id s.db).editions := rfl
  have hne {t : PendingTransition} (ht : t ∈ s.db.pendingTransitions.rows)
      (hu : t.published = false) : deferredResults t ≠ deferredResults row := by
    obtain ⟨e', hw⟩ := hs.waiting t ht hu
    rw [hw.deferred]
    exact fun heq ↦ ne_of_awaiting hstatus hw.completed (Option.some.inj heq)
  refine ⟨hs.finalizing_of_completes rfl heditions,
    fun q hq ↦ completed_of_completes heditions (hs.completed q hq), hnodup,
    fun t ht hu ↦ ?_, fun t ht t' ht' hu hu' heq ↦ ?_, hmarker⟩
  · rw [hrows] at ht
    rcases List.mem_append.mp ht with ht | ht
    · obtain ⟨e', hw⟩ := hs.waiting t ht hu
      exact ⟨e', hw.transfer hhistory (completed_of_completes heditions hw.completed)
        fun _ ↦ .inl⟩
    · rw [List.mem_singleton.mp ht]
      refine ⟨{ editionId := e.id, results := buildResults e.id s.db }, ⟨_, rfl⟩, rfl,
        hhistory.covers (hs.covers_buildResults hstatus), ?_,
        fun q hq ↦ ne_of_awaiting hstatus (hs.completed q hq)⟩
      dsimp only
      rw [editionStatus_of_completes heditions, if_pos rfl, hstatus, Option.map_some]
  · rw [hrows] at ht ht'
    rcases List.mem_append.mp ht with ht | ht <;> rcases List.mem_append.mp ht' with ht' | ht'
    · exact hs.once t ht t' ht' hu hu' heq
    · rw [List.mem_singleton.mp ht'] at heq
      exact absurd heq (hne ht hu)
    · rw [List.mem_singleton.mp ht] at heq
      exact absurd heq.symm (hne ht' hu')
    · rw [List.mem_singleton.mp ht, List.mem_singleton.mp ht']

/-- A row that waits is published. -/
theorem StreakInv.publishRow (hs : StreakInv s) {t : PendingTransition}
    {e : TournamentEditionResultsEvent} {db₁ : Db} {published : List Edition}
    (hmem : t ∈ s.db.pendingTransitions.rows) (hunpublished : t.published = false)
    (hw : Waiting s t e) (hr : OnlyRewards s.db db₁)
    (hp : ∀ q ∈ published, q ∈ s.published ∨ q.id = e.editionId)
    (hhistory : SameHistory s.db (markTransitionPublished t.id db₁))
    (hnodup : (published.map Edition.id).Nodup)
    (hmarker : ∀ u st c, (markTransitionPublished t.id db₁).streaks.get? u = some st →
      st.lastCycleId = some c →
      ∃ q ∈ published, c ∈ cyclesOf q.id (markTransitionPublished t.id db₁)) :
    StreakInv { db := markTransitionPublished t.id db₁, published := published } := by
  have hrows {t' : PendingTransition}
      (ht' : t' ∈ (markTransitionPublished t.id db₁).pendingTransitions.rows)
      (hu : t'.published = false) : t' ∈ s.db.pendingTransitions.rows ∧ t' ≠ t := by
    rw [markTransitionPublished, Table.mem_modify, hr.pendingTransitions_eq] at ht'
    obtain ⟨t₀, ht₀, rfl⟩ := ht'
    split at hu
    · cases hu
    · rename_i hnot
      rw [if_neg hnot]
      refine ⟨ht₀, ?_⟩
      rintro rfl
      simp [hu] at hnot
  have hstatus (id : Nat) : editionStatus id (markTransitionPublished t.id db₁) =
      editionStatus id s.db := editionStatus_congr hr.editions_eq id
  refine ⟨fun cy hcy id he h ↦ ?_, fun q hq ↦ ?_, hnodup, fun t' ht' hu ↦ ?_,
    fun t' ht' t'' ht'' hu' hu'' ↦ ?_, hmarker⟩
  · exact hs.finalizing cy (hr.cycles_eq ▸ hcy) id he ((hstatus id).symm.trans h)
  · refine (hstatus q.id).trans ?_
    rcases hp q hq with hq | hq
    · exact hs.completed q hq
    · rw [hq]
      exact hw.completed
  · obtain ⟨hold, hne⟩ := hrows ht' hu
    obtain ⟨e', hw'⟩ := hs.waiting t' hold hu
    refine ⟨e', hw'.transfer hhistory ((hstatus _).trans hw'.completed) fun q hq ↦
      (hp q hq).imp_right fun hq heq ↦ hne ?_⟩
    refine hs.once t' hold t hmem hu hunpublished ?_
    rw [hw'.deferred, hw.deferred, ← heq, hq]
  · exact hs.once t' (hrows ht' hu').1 t'' (hrows ht'' hu'').1 hu' hu''

/-- Every step keeps the invariant. -/
theorem StreakInv.step (hs : StreakInv s) (h : StreakStep s l s') : StreakInv s' := by
  have hmarker := hs.marker_step h
  have hnodup := hs.nodup_step h
  obtain ⟨hhistory, _⟩ := hs.step_spec h
  obtain ⟨henabled, rfl⟩ := h
  cases l with
  | edition now e =>
      obtain ⟨hmem, hawaiting⟩ := henabled
      have hstatus : editionStatus e.id s.db = some .awaitingResults :=
        (editionStatus_of_mem hmem).trans (congrArg some hawaiting)
      have hquiet (h : publishes s.db (.edition now e) = none) :
          s.published ++ (publishes s.db (.edition now e)).toList = s.published := by
        rw [h, Option.toList_none, List.append_nil]
      rcases streakDb_edition now e s.db with
        ⟨ha, hi, hdb⟩ | ⟨ha, hi, db₁, hr, hget, hdb⟩ | ⟨ha, hi, hdb⟩ | ⟨ha, hi, hdb⟩
      · rw [hquiet (by simp [publishes, hi.ne'])]
        rw [hdb] at hhistory ⊢
        refine hs.of_quiet hhistory rfl (fun id ↦ ?_) rfl rfl
        rw [editionStatus, stage, markEditionStartAnnounced, Table.get?_modify, editionStatus, stage]
        cases s.db.editions.get? id with
        | none => rfl
        | some e' =>
            simp only [Option.map_some]
            split <;> rfl
      · have hp : publishes s.db (.edition now e) = some e := by simp [publishes, ha, hi]
        rw [hp, hdb] at hmarker hnodup hhistory ⊢
        exact hs.publish hstatus hr hhistory hnodup hmarker
      · rw [hquiet (by simp [publishes, ha])] at hmarker hnodup ⊢
        rw [hdb] at hmarker hnodup hhistory ⊢
        exact hs.drain hstatus hhistory hnodup hmarker
      · rw [hquiet (by simp [publishes, ha])]
        rw [hdb]
        exact hs
  | row t =>
      obtain ⟨hmem, hunpublished⟩ := henabled
      obtain ⟨e, hw⟩ := hs.waiting t hmem hunpublished
      obtain ⟨routingKey, hbuild⟩ := hw.decodes
      obtain ⟨db₁, hr, _, hdb⟩ := streakDb_row hbuild s.db
      rw [hdb] at hmarker hnodup hhistory ⊢
      refine hs.publishRow hmem hunpublished hw hr (fun q hq ↦ ?_) hhistory hnodup hmarker
      rw [publishes, hw.deferred, Option.bind_some] at hq
      refine (List.mem_append.mp hq).imp_right fun hq ↦ ?_
      exact Table.key_of_get? (Option.mem_toList.mp hq)
  | verdict tc verified =>
      obtain ⟨heditions, hcycles, hrows, hstreaks, _⟩ := verdictWrite_frame tc verified verified s.db
      rw [show publishes s.db (.verdict tc verified) = none from rfl, Option.toList_none,
        List.append_nil]
      exact hs.of_quiet hhistory hcycles (editionStatus_congr heditions) hrows hstreaks

end Inv

/-! ## Streaks and recency -/

/-- Every streak is the streak over the published editions, by recency. -/
def Consistent (s : StreakState) : Prop :=
  ∀ u, currentStreak u s.db = streak recency (submitted s.db u) s.published

/-- The streaks are right after the step, and the step has advanced the streak of
everyone who took part in the edition it publishes by one. -/
structure Counted (s : StreakState) (l : StreakLabel) (s' : StreakState) : Prop where
  consistent : Consistent s'
  once : ∀ p ∈ publishes s.db l, ∀ u, submitted s.db u p = true →
    currentStreak u s'.db = currentStreak u s.db + 1

/-- For the user, the edition fits in with what has been published. -/
structure Fits (s : StreakState) (p : Edition) (u : Nat) : Prop where
  /-- Who took part in it took part in every later one. -/
  took : submitted s.db u p = true →
    ∀ q ∈ s.published, recency q < recency p → submitted s.db u q = true
  /-- Who did not missed the latest. -/
  missed : cyclesOf p.id s.db ≠ [] → submitted s.db u p = false →
    ∀ q ∈ s.published, recency q < recency p → (∀ r ∈ s.published, recency q ≤ recency r) →
      submitted s.db u q = false
  /-- If it has no cycles at all, no streak reaches past it. -/
  childless : cyclesOf p.id s.db = [] →
    (∀ q ∈ s.published, recency q < recency p → submitted s.db u q = true) →
    ∀ q ∈ s.published, recency p < recency q →
      (∀ r ∈ s.published, recency p < recency r → recency q ≤ recency r) →
      submitted s.db u q = false

/-- The edition whose results the step publishes, if any, fits in. -/
def InStep (s : StreakState) (l : StreakLabel) : Prop := ∀ p ∈ publishes s.db l, ∀ u, Fits s p u

section Run

variable {s s' : StreakState} {l : StreakLabel} {p : Edition} {u : Nat}

/-- What the step does to a streak. -/
theorem StreakInv.currentStreak_step (hs : StreakInv s) (h : StreakStep s l s') (u : Nat) :
    currentStreak u s'.db =
      match publishes s.db l with
      | none => currentStreak u s.db
      | some p =>
          if cyclesOf p.id s.db = [] then currentStreak u s.db
          else if submitted s.db u p then currentStreak u s.db + 1 else 0 := by
  obtain ⟨_, ⟨hnone, hstreaks⟩ | ⟨p, results, hp, hcovers, hfresh, hget⟩⟩ := hs.step_spec h
  · rw [hnone, currentStreak, hstreaks]
    rfl
  · rw [hp]
    refine hcovers.currentStreak_eq (hget u) fun hne st hst hlast ↦ ?_
    obtain ⟨q, hq, hc⟩ := hs.marker u st _ hst hlast
    exact hfresh q hq (eq_of_mem_cyclesOf hc (hcovers.marker hne))

theorem submitted_of_childless {db : Db} (h : cyclesOf p.id db = []) : submitted db u p = false := by
  simp [submitted, h]

theorem nodup_recency {l : List Edition} (h : (l.map Edition.id).Nodup) :
    (l.map recency).Nodup := by
  refine List.pairwise_map.mpr ((List.pairwise_map.mp h).imp fun hne heq ↦ hne ?_)
  have hsnd : -(_ : Int) = -_ := congrArg (fun k ↦ (ofLex k).2) heq
  exact Int.ofNat_inj.mp (Int.neg_inj.mp hsnd)

/-- The streak of a user is right after the publication exactly when the edition fits
in for them. -/
theorem fits_iff (hcount : currentStreak u s.db = streak recency (submitted s.db u) s.published)
    (hnodup : ((s.published ++ [p]).map recency).Nodup) :
    (if cyclesOf p.id s.db = [] then currentStreak u s.db
      else if submitted s.db u p then currentStreak u s.db + 1 else 0) =
      streak recency (submitted s.db u) (s.published ++ [p]) ↔ Fits s p u := by
  by_cases hc : cyclesOf p.id s.db = []
  · have hu : submitted s.db u p = false := submitted_of_childless hc
    rw [if_pos hc, hcount, eq_comm, streak_concat_eq_iff hnodup hu]
    exact ⟨fun h ↦ ⟨by simp [hu], fun h ↦ absurd hc h, fun _ ↦ h⟩, fun h ↦ h.childless hc⟩
  rw [if_neg hc]
  cases hu : submitted s.db u p with
  | true =>
      rw [if_pos rfl, hcount, eq_comm, streak_concat_of_taken hnodup hu]
      exact ⟨fun h ↦ ⟨fun _ ↦ h, by simp [hu], fun h ↦ absurd h hc⟩, fun h ↦ h.took hu⟩
  | false =>
      rw [if_neg Bool.false_ne_true, eq_comm, streak_concat_eq_zero_iff hnodup hu]
      exact ⟨fun h ↦ ⟨by simp [hu], fun _ _ ↦ h, fun h ↦ absurd h hc⟩, fun h ↦ h.missed hc hu⟩

theorem StreakInv.counted_iff (hs : StreakInv s) (hcount : Consistent s) (h : StreakStep s l s') :
    Counted s l s' ↔ InStep s l := by
  obtain ⟨hhistory, _⟩ := hs.step_spec h
  have hstep := hs.currentStreak_step h
  have hnodup := nodup_recency (hs.nodup_step h)
  have hconsistent : Consistent s' ↔
      ∀ u, currentStreak u s'.db = streak recency (submitted s.db u) s'.published := by
    refine forall_congr' fun u ↦ ?_
    rw [show submitted s'.db u = submitted s.db u from funext fun p ↦ hhistory.submitted_eq u p]
  have hpublished : s'.published = s.published ++ (publishes s.db l).toList := by
    rw [h.2]
  rw [hpublished] at hnodup hconsistent
  rw [InStep]
  cases hp : publishes s.db l with
  | none =>
      rw [hp] at hstep hnodup hconsistent
      refine iff_of_true ⟨hconsistent.mpr fun u ↦ ?_, by simp [hp]⟩ (by simp)
      rw [hstep u, Option.toList_none, List.append_nil]
      exact hcount u
  | some p =>
      rw [hp] at hstep hnodup hconsistent
      simp only [Option.toList_some] at hnodup hconsistent
      have hfits : Consistent s' ↔ ∀ u, Fits s p u := hconsistent.trans <| forall_congr' fun u ↦ by
        rw [hstep u]
        exact fits_iff (hcount u) hnodup
      constructor
      · rintro hcounted _ ⟨⟩
        exact hfits.mp hcounted.consistent
      · intro h
        refine ⟨hfits.mpr (h p rfl), ?_⟩
        rw [hp]
        rintro _ ⟨⟩ u hu
        have hc : cyclesOf p.id s.db ≠ [] := fun hc ↦ by
          rw [submitted_of_childless hc] at hu
          cases hu
        rw [hstep u]
        dsimp only
        rw [if_neg hc, if_pos hu]

/-- Nothing has been published yet: the editions that await results are finalized, the
outbox is settled, and nobody has a streak. -/
structure Unpublished (db : Db) : Prop where
  finalizing : ∀ cy ∈ db.cycles.rows, ∀ id, cy.editionId = some id →
    editionStatus id db = some .awaitingResults → cy.status = .finalizing
  outbox : ∀ t ∈ db.pendingTransitions.rows, t.published = true
  streaks : db.streaks.rows = []

theorem Unpublished.inv {db : Db} (h : Unpublished db) : StreakInv { db } where
  finalizing := h.finalizing
  completed _ hq := absurd hq List.not_mem_nil
  nodup := List.nodup_nil
  waiting t ht hu := by
    rw [h.outbox t ht] at hu
    cases hu
  once t ht _ _ hu := by
    rw [h.outbox t ht] at hu
    cases hu
  marker u st c hget := by
    have hmem := Table.mem_of_get? hget
    rw [h.streaks] at hmem
    exact absurd hmem List.not_mem_nil

theorem Unpublished.consistent {db : Db} (h : Unpublished db) : Consistent { db } := by
  intro u
  rw [streak_nil, currentStreak, Table.get?, h.streaks]
  rfl

/-- From right streaks on, a run gets them right exactly when its editions fit in. -/
theorem StreakInv.run_iff {ls : List StreakLabel} (hs : StreakInv s) (hcount : Consistent s) :
    Run (fun s l s' ↦ StreakStep s l s' ∧ Counted s l s') s ls s' ↔
      Run (Guarded InStep StreakStep) s ls s' := by
  refine Run.congr (fun s ↦ StreakInv s ∧ Consistent s) (fun s l s' ⟨hs, hcount⟩ ↦ ?_)
    (fun s l s' ⟨hs, _⟩ ⟨hstep, hcounted⟩ ↦ ⟨hs.step hstep, hcounted.consistent⟩) ⟨hs, hcount⟩
  rw [Guarded, and_comm]
  exact and_congr_left fun hstep ↦ hs.counted_iff hcount hstep

/-- In whatever order the editions are published, the streaks are right all along,
and everyone is advanced once per edition, exactly when every edition fits in with
those published before it. -/
theorem streaks_counted_iff {db : Db} {ls : List StreakLabel} (h : Unpublished db) :
    Run (fun s l s' ↦ StreakStep s l s' ∧ Counted s l s') { db } ls s ↔
      Run (Guarded InStep StreakStep) { db } ls s :=
  h.inv.run_iff h.consistent

/-- The edition whose results the step publishes, if any, ended after all those
published before it, and has cycles. -/
def InOrder (s : StreakState) (l : StreakLabel) : Prop :=
  ∀ p ∈ publishes s.db l, (∀ q ∈ s.published, recency p < recency q) ∧ cyclesOf p.id s.db ≠ []

theorem InOrder.inStep (h : InOrder s l) : InStep s l := fun p hp _ ↦ by
  obtain ⟨hlast, hcycles⟩ := h p hp
  exact ⟨fun _ q hq hlt ↦ absurd hlt (hlast q hq).asymm,
    fun _ _ q hq hlt ↦ absurd hlt (hlast q hq).asymm, fun h ↦ absurd h hcycles⟩

/-- Editions published in the order in which they ended give the right streaks. -/
theorem streaks_counted_of_inOrder {db : Db} {ls : List StreakLabel} (h : Unpublished db)
    (hrun : Run (Guarded InOrder StreakStep) { db } ls s) :
    Run (fun s l s' ↦ StreakStep s l s' ∧ Counted s l s') { db } ls s :=
  (h.inv.run_iff h.consistent).mpr (hrun.mono fun _ _ _ ⟨horder, hstep⟩ ↦ ⟨horder.inStep, hstep⟩)

end Run

/-- The first edition still has a run in verification when the second ends. -/
def stackedEditions : Db where
  editions := (Table.empty.insert fun id ↦
      { id, startedAt := 0, endsAt := 10, status := .awaitingResults, startAnnounced := true }).insert
    fun id ↦ { id, startedAt := 10, endsAt := 20, status := .awaitingResults }
  cycles := (Table.empty.insert fun id ↦
      { id, categoryId := 1, mapId := 1, status := .finalizing, editionId := some 1 }).insert
    fun id ↦ { id, categoryId := 1, mapId := 2, status := .finalizing, editionId := some 2 }
  completions := (Table.empty.insert fun id ↦
      { id, cycleId := 1, userId := 7, mapId := 1, time := 1250, insertedAt := 5 }).insert
    fun id ↦ { id, cycleId := 2, userId := 8, mapId := 2, time := 1250, status := .verified
               insertedAt := 15 }

/-- Its editions as the poller reads them. -/
def firstEdition : Edition :=
  { id := 1, startedAt := 0, endsAt := 10, status := .awaitingResults, startAnnounced := true }

def secondEdition : Edition := { id := 2, startedAt := 10, endsAt := 20, status := .awaitingResults }

theorem unpublished_stackedEditions : Unpublished stackedEditions where
  finalizing cy hcy _ _ _ := by
    have hall : ∀ cy ∈ stackedEditions.cycles.rows, cy.status = .finalizing := by decide
    exact hall cy hcy
  outbox := by simp [stackedEditions]
  streaks := rfl

/-- The second edition is published first.  User 7 took part in the first only, and
ends with a streak although the latest edition was missed. -/
theorem stackedEditions_not_counted : ∃ ls s, Unpublished stackedEditions ∧
    Run StreakStep { db := stackedEditions } ls s ∧
    (∀ e ∈ s.db.editions.rows, e.status = .completed) ∧
    s.published.map Edition.id = [2, 1] ∧
    currentStreak 7 s.db = 1 ∧ streak recency (submitted s.db 7) s.published = 0 := by
  let db₁ := streakDb stackedEditions (.edition 30 secondEdition)
  let db₂ := streakDb db₁ (.verdict 1 true)
  let db₃ := streakDb db₂ (.edition 40 firstEdition)
  let row := drainedRow 1 40 db₂ 1
  refine ⟨_, _, unpublished_stackedEditions,
    .cons (l := StreakLabel.edition 30 secondEdition) ⟨by decide, rfl⟩ <|
    .cons (l := StreakLabel.verdict 1 true) ⟨trivial, rfl⟩ <|
    .cons (l := StreakLabel.edition 40 firstEdition) ⟨by decide +kernel, rfl⟩ <|
    .cons (l := StreakLabel.row row) ⟨by decide +kernel, rfl⟩ (.nil _), ?_⟩
  decide +kernel

/-- The publication of the second edition. -/
theorem streaks_counted_iff_stackedEditions :
    let l := StreakLabel.edition 30 secondEdition
    let s : StreakState := { db := streakDb stackedEditions l, published := [secondEdition] }
    Run (fun s l s' ↦ StreakStep s l s' ∧ Counted s l s') { db := stackedEditions } [l] s ↔
      Run (Guarded InStep StreakStep) { db := stackedEditions } [l] s :=
  streaks_counted_iff unpublished_stackedEditions

end Genjishimada.Tournaments
