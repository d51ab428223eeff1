import Genjishimada.Library.Run
import Genjishimada.Services.Attempts
import Genjishimada.Services.Outbox

/-!
# What a tick of the poller does

A tick of `publish_pending_transitions` in the terms its properties are stated in.
The messages it sends are kept as receipts, and its effect on the database is taken
apart into the effect on each edition, `drainEdition`, and on each outbox row, with
the grants in between, which touch no edition, cycle or row.
-/

namespace Genjishimada.Tournaments

open Library Sdk Repository Services

variable {ε : Type}

/-! ## Receipts -/

/-- What identifies a message of the poller. -/
inductive Receipt where
  /-- An outbox row's event, with the key it is published and deduplicated under. -/
  | row (routingKey : RoutingKey) (body : Event) (key : IdempotencyKey)
  /-- The start-only rollover of an edition: no results, but results pending. -/
  | startOnly (editionId : Nat)
  /-- The combined rollover of an edition: no results pending. -/
  | combined (editionId : Nat)
deriving DecidableEq, Repr

/-- The receipt of a message, if the poller's outbox owes such a message at all. -/
def receipt (m : Message Event) : Option Receipt :=
  match m.messageId, m.body with
  | .key (.tournamentRollover editionId), .tournamentRollover e =>
      if e.resultsPending then if e.results.isEmpty then some (.startOnly editionId) else none
      else some (.combined editionId)
  | .key (.tournamentRolloverStart editionId), body =>
      some (.row m.routingKey body (.tournamentRolloverStart editionId))
  | .key (.tournamentResults editionId), body =>
      some (.row m.routingKey body (.tournamentResults editionId))
  | _, _ => none

/-- The message behind an outbox row. -/
def rowReceipt (t : PendingTransition) : Option Receipt :=
  match buildEvent t with
  | .ok (routingKey, event) =>
      some (.row routingKey event.body (idempotencyKey t.eventType event.editionId))
  | .error _ => none

/-- An outbox row whose payload does not convert to its struct. -/
def undecodable (t : PendingTransition) : Bool := (rowReceipt t).isNone

/-! ## What a tick does to one edition -/

/-- The effect of `processEdition` on the database, its grants apart. -/
def drainEdition (now : Int) (edition : Edition) (db : Db) : Db :=
  if ¬ edition.startAnnounced ∧ countInflightVerifications edition.id db > 0 then
    markEditionStartAnnounced edition.id db
  else if ¬ edition.startAnnounced ∧ countInflightVerifications edition.id db = 0 then
    completeEdition edition.id db
  else if countInflightVerifications edition.id db = 0 then
    writeDrainedResultsRow edition.id now db
  else db

/-- The messages `processEdition` attempts to send. -/
def editionSends (db : Db) (edition : Edition) : List Receipt :=
  if edition.startAnnounced then []
  else if countInflightVerifications edition.id db > 0 then [.startOnly edition.id]
  else [.combined edition.id]

theorem countInflightVerifications_congr {db db' : Db} (hc : db'.completions = db.completions)
    (hy : db'.cycles = db.cycles) (editionId : Nat) :
    countInflightVerifications editionId db' = countInflightVerifications editionId db := by
  have h : inflight editionId db' = inflight editionId db := by
    funext c
    simp only [inflight, hy]
  rw [countInflightVerifications, countInflightVerifications, hc, h]

/-- Grants do not touch what a results event is built from. -/
theorem buildCycleCompletedEvent_congr {db db' : Db} (h : OnlyRewards db db')
    (cycleId categoryId : Nat) :
    buildCycleCompletedEvent cycleId categoryId db' =
      buildCycleCompletedEvent cycleId categoryId db := by
  simp only [buildCycleCompletedEvent, fetchLeaderboard, bestPerUser, h.completions_eq,
    h.userName_eq]

/-- Reading the children one by one, with the grants of each in between, reads what
reading them all at once does. -/
theorem buildEntries_apply (children : List Cycle) (w : World Db Event) :
    ∃ entries db', (children.mapM fun child ↦ do
          let entry ← query (buildCycleCompletedEvent child.id child.categoryId)
          let events ← statements (awardCyclePlacements entry)
          return (entry, events) : Service Db Event ε _) w = .ok entries { w with db := db' } ∧
      entries.map Prod.fst =
        children.map (fun child ↦ buildCycleCompletedEvent child.id child.categoryId w.db) ∧
      OnlyGrants w.db db' := by
  induction children generalizing w with
  | nil => exact ⟨[], w.db, rfl, rfl, .refl _⟩
  | cons child children ih =>
      let entry := buildCycleCompletedEvent child.id child.categoryId w.db
      let w₁ : World Db Event := { w with db := (awardCyclePlacements entry w.db).2 }
      have hstep : OnlyGrants w.db w₁.db := awardCyclePlacements_onlyGrants entry w.db
      obtain ⟨entries, db', hok, hentries, hrest⟩ := ih w₁
      refine ⟨(entry, (awardCyclePlacements entry w.db).1) :: entries, db', ?_, ?_,
        hstep.trans hrest⟩
      · rw [List.mapM_cons]
        exact (bind_of_ok rfl).trans (bind_of_ok hok)
      · rw [List.map_cons, hentries, List.map_cons]
        simp only [buildCycleCompletedEvent_congr hstep.onlyRewards]
        rfl

section Sends

variable {ρ : Type} {f : Message Event → Option ρ} {r : ρ} {editionId : Nat}
  {started : List TournamentCycleStartedEvent} {w : World Db Event}

/-- `announceStart` attempts the start-only rollover. -/
theorem announceStart_sends
    (hr : ∀ w : World Db Event, f (w.message .tournamentRollover
      (.tournamentRollover { editionId, results := [], started, resultsPending := true })
      (some (.tournamentRollover editionId))) = some r) :
    Sends f (announceStart editionId started : Service Db Event ε _) w [r]
      fun _ db ↦ db = markEditionStartAnnounced editionId w.db := by
  refine (Sends.execute _).andThen fun _ w₁ h₁ ↦ ?_
  refine (Sends.publish (.inr (Option.some_ne_none _)) (hr w₁)).bind fun _ w₂ h₂ ↦ ?_
  exact .pure _ (by rw [h₂, h₁])

/-- `publishCombined` grants, attempts the combined rollover and completes. -/
theorem publishCombined_sends
    (hr : ∀ w' : World Db Event, f (w'.message .tournamentRollover
      (.tournamentRollover { editionId, results := buildResults editionId w.db, started })
      (some (.tournamentRollover editionId))) = some r) :
    Sends f (publishCombined editionId started : Service Db Event ε _) w [r]
      fun _ db ↦ ∃ db₁, OnlyGrants w.db db₁ ∧
        db = completeEdition editionId
          (awardEditionStreaks (buildResults editionId w.db) db₁).2 := by
  refine (Sends.query _).andThen fun children w₁ ⟨hchildren, hdb₁⟩ ↦ ?_
  obtain ⟨entries, db₁, hok, hentries, hgrants⟩ := buildEntries_apply (ε := ε) children w₁
  have hloop : Sends f _ w₁ [] fun a db ↦ a = entries ∧ db = db₁ := .of_eq hok ⟨rfl, rfl⟩
  refine hloop.andThen fun entries' w₂ ⟨hentries', hdb₂⟩ ↦ ?_
  have hresults : entries'.map Prod.fst = buildResults editionId w.db := by
    rw [hentries', hentries, hdb₁, hchildren]
    rfl
  rw [hresults]
  refine (Sends.statements _).andThen fun streakEvents w₃ h₃ ↦ ?_
  refine (Sends.publish (.inr (Option.some_ne_none _)) (hr w₃)).bind fun _ w₄ h₄ ↦ ?_
  refine (Sends.execute _).andThen fun _ w₅ h₅ ↦ .pure _ ⟨db₁, hdb₁ ▸ hgrants, ?_⟩
  rw [h₅, h₄, show w₃.db = _ from congrArg Prod.snd h₃, hdb₂]

end Sends

/-- What `processEdition` sends, and what it does to the database. -/
theorem processEdition_sends (now : Int) (edition : Edition) (w : World Db Event) :
    Sends receipt (processEdition now edition : Service Db Event ε _) w (editionSends w.db edition)
      fun _ db ↦ ∃ db₁, OnlyRewards w.db db₁ ∧ db = drainEdition now edition db₁ := by
  refine (Sends.query _).andThen fun inflight w₁ h₁ ↦ ?_
  refine (Sends.query _).andThen fun started w₂ h₂ ↦ ?_
  have hdb : w₂.db = w.db := h₂.2.trans h₁.2
  rw [h₁.1, ← hdb, editionSends]
  by_cases ha : edition.startAnnounced = true
  · rw [if_neg (fun h ↦ h.1 ha), if_neg (fun h ↦ h.1 ha), if_pos ha]
    have hdrain : drainEdition now edition w₂.db =
        if countInflightVerifications edition.id w₂.db = 0 then
          writeDrainedResultsRow edition.id now w₂.db
        else w₂.db := by
      rw [drainEdition, if_neg (fun h ↦ h.1 ha), if_neg (fun h ↦ h.1 ha)]
    split
    · refine (Sends.execute _).andThen fun _ w₃ h₃ ↦ .pure _ ⟨w₂.db, .refl _, ?_⟩
      rw [h₃, hdrain, if_pos ‹_›]
    · refine .pure _ ⟨w₂.db, .refl _, ?_⟩
      rw [hdrain, if_neg ‹_›]
  · by_cases hi : countInflightVerifications edition.id w₂.db > 0
    · rw [if_pos ⟨ha, hi⟩, if_neg ha, if_pos hi]
      refine (announceStart_sends fun _ ↦ rfl).mono fun _ db h ↦ ⟨w₂.db, .refl _, ?_⟩
      rw [h, drainEdition, if_pos ⟨ha, hi⟩]
    · rw [if_neg (fun h ↦ hi h.2), if_pos ⟨ha, by omega⟩, if_neg ha, if_neg hi]
      refine (publishCombined_sends fun _ ↦ rfl).mono fun _ db ⟨db₁, hgrants, hdb⟩ ↦ ?_
      have h : OnlyRewards w₂.db (awardEditionStreaks (buildResults edition.id w₂.db) db₁).2 :=
        hgrants.onlyRewards.trans (awardEditionStreaks_onlyRewards _ _)
      refine ⟨_, h, ?_⟩
      have hcount := countInflightVerifications_congr h.completions_eq h.cycles_eq edition.id
      rw [hdb, drainEdition, hcount, if_neg (fun h ↦ hi h.2), if_pos ⟨ha, by omega⟩]

/-! ## What a tick does to the editions -/

/-- One edition of the drain: some grants, then `drainEdition`. -/
def DrainStep (now : Int) (db : Db) (edition : Edition) (db' : Db) : Prop :=
  ∃ db₁, OnlyRewards db db₁ ∧ db' = drainEdition now edition db₁

/-- The edition has been announced and nothing on it is in verification any more. -/
def drains (db : Db) (edition : Edition) : Bool :=
  edition.startAnnounced ∧ countInflightVerifications edition.id db = 0

/-- The `edition_results` row of an edition. -/
def drainedRow (editionId : Nat) (now : Int) (db : Db) (id : Nat) : PendingTransition :=
  { id, cycleId := none, editionId := some editionId, eventType := .editionResults
    payload := encodeEditionResults { editionId, results := buildResults editionId db }
    createdAt := now }

theorem key_drainedRow (editionId : Nat) (now : Int) (db : Db) (id : Nat) :
    key (drainedRow editionId now db id) = id := rfl

/-- The edition whose deferred results an outbox row carries. -/
def deferredResults (t : PendingTransition) : Option Nat :=
  if t.eventType = .editionResults then t.editionId else none

section DrainEdition

variable (now : Int) (edition : Edition) (db : Db)

/-- The four branches of the state machine. -/
theorem drainEdition_cases :
    edition.startAnnounced = false ∧ 0 < countInflightVerifications edition.id db ∧
      drainEdition now edition db = markEditionStartAnnounced edition.id db ∨
    edition.startAnnounced = false ∧ countInflightVerifications edition.id db = 0 ∧
      drainEdition now edition db = completeEdition edition.id db ∨
    edition.startAnnounced = true ∧ countInflightVerifications edition.id db = 0 ∧
      drainEdition now edition db = writeDrainedResultsRow edition.id now db ∨
    edition.startAnnounced = true ∧ 0 < countInflightVerifications edition.id db ∧
      drainEdition now edition db = db := by
  cases ha : edition.startAnnounced <;>
    rcases Nat.eq_zero_or_pos (countInflightVerifications edition.id db) with hi | hi <;>
    simp [drainEdition, ha, hi, Nat.ne_of_gt]

theorem drainEdition_pendingTransitions :
    (drainEdition now edition db).pendingTransitions =
      if drains db edition then
        db.pendingTransitions.insert (drainedRow edition.id now db)
          (key_drainedRow edition.id now db)
      else db.pendingTransitions := by
  rcases drainEdition_cases now edition db with
    ⟨ha, _, h⟩ | ⟨ha, _, h⟩ | ⟨ha, hi, h⟩ | ⟨_, hi, h⟩
  · rw [h, if_neg (by simp [drains, ha])]
    rfl
  · rw [h, if_neg (by simp [drains, ha])]
    rfl
  · rw [h, if_pos (by simp [drains, ha, hi])]
    rfl
  · rw [h, if_neg (by simp [drains, hi.ne'])]

variable {edition} {id : Nat}

/-- Draining an edition leaves the others alone. -/
theorem drainEdition_get?_edition (h : id ≠ edition.id) :
    (drainEdition now edition db).editions.get? id = db.editions.get? id := by
  have hne (e : Edition) (he : db.editions.get? id = some e) :
      decide (e.id = edition.id) = false := by
    rw [show e.id = id from Table.key_of_get? he]
    exact decide_eq_false h
  rcases drainEdition_cases now edition db with
    ⟨_, _, hd⟩ | ⟨_, _, hd⟩ | ⟨_, _, hd⟩ | ⟨_, _, hd⟩
  · simp only [hd, markEditionStartAnnounced, Table.get?_modify_of_not hne]
  · simp only [hd, completeEdition, Table.get?_modify_of_not hne]
  · simp only [hd, writeDrainedResultsRow, completeEdition, createPendingTransition,
      Table.get?_modify_of_not hne]
  · rw [hd]

/-- The cycles of one edition do not count for another. -/
theorem completeEdition_inflight (h : id ≠ edition.id) :
    countInflightVerifications id (completeEdition edition.id db) =
      countInflightVerifications id db := by
  have hin : inflight id (completeEdition edition.id db) = inflight id db := by
    funext c
    rw [inflight, inflight, completeEdition, Table.get?_modify]
    cases hc : db.cycles.get? c.cycleId with
    | none => rfl
    | some cy =>
        by_cases he : cy.editionId = some edition.id
        · simp [he, h.symm]
        · simp [he]
  rw [countInflightVerifications, countInflightVerifications, hin]
  rfl

/-- Draining an edition leaves the runs in verification of the others alone. -/
theorem drainEdition_inflight (h : id ≠ edition.id) :
    countInflightVerifications id (drainEdition now edition db) =
      countInflightVerifications id db := by
  rcases drainEdition_cases now edition db with
    ⟨_, _, hd⟩ | ⟨_, _, hd⟩ | ⟨_, _, hd⟩ | ⟨_, _, hd⟩
  · rw [hd]
    exact countInflightVerifications_congr rfl rfl id
  · rw [hd, completeEdition_inflight db h]
  · rw [hd, writeDrainedResultsRow, completeEdition_inflight _ h]
    exact countInflightVerifications_congr rfl rfl id
  · rw [hd]

end DrainEdition

theorem nodup_fetchAwaitingResultsEditions (locked : Nat → Bool) (db : Db) :
    ((fetchAwaitingResultsEditions locked db).map Edition.id).Nodup := by
  have hperm := (perm_orderBy Edition.endsAt
    (db.editions.select fun e ↦ e.status = .awaitingResults)).map Edition.id
  exact (hperm.nodup_iff.mpr (Table.nodup_map_key_select _)).sublist (List.filter_sublist.map _)

theorem mem_fetchAwaitingResultsEditions {locked : Nat → Bool} {db : Db} {e : Edition} :
    e ∈ fetchAwaitingResultsEditions locked db ↔
      e ∈ db.editions.rows ∧ e.status = .awaitingResults ∧ locked e.id = false := by
  simp [fetchAwaitingResultsEditions, and_assoc]

section DrainRun

variable {now : Int} {db db' : Db} {es : List Edition}

theorem DrainStep.inflight {edition : Edition} {id : Nat} (h : DrainStep now db edition db')
    (hid : id ≠ edition.id) :
    countInflightVerifications id db' = countInflightVerifications id db := by
  obtain ⟨db₁, hr, rfl⟩ := h
  rw [drainEdition_inflight now db₁ hid]
  exact countInflightVerifications_congr hr.completions_eq hr.cycles_eq id

theorem DrainStep.get?_edition {edition : Edition} {id : Nat} (h : DrainStep now db edition db')
    (hid : id ≠ edition.id) : db'.editions.get? id = db.editions.get? id := by
  obtain ⟨db₁, hr, rfl⟩ := h
  rw [drainEdition_get?_edition now db₁ hid, hr.editions_eq]

/-- Draining some editions leaves the runs in verification of the others alone. -/
theorem drainRun_inflight {id : Nat} (h : Run (DrainStep now) db es db')
    (hid : ∀ e ∈ es, id ≠ e.id) :
    countInflightVerifications id db' = countInflightVerifications id db := by
  induction h with
  | nil _ => rfl
  | cons hstep _ ih =>
      rw [ih fun e he ↦ hid e (List.mem_cons_of_mem _ he)]
      exact hstep.inflight (hid _ List.mem_cons_self)

/-- Draining some editions leaves the others alone. -/
theorem drainRun_get?_edition {id : Nat} (h : Run (DrainStep now) db es db')
    (hid : ∀ e ∈ es, id ≠ e.id) : db'.editions.get? id = db.editions.get? id := by
  induction h with
  | nil _ => rfl
  | cons hstep _ ih =>
      rw [ih fun e he ↦ hid e (List.mem_cons_of_mem _ he)]
      exact hstep.get?_edition (hid _ List.mem_cons_self)

end DrainRun

/-- The first half of a tick drains the editions it is not locked out of. -/
theorem processAwaitingResultsEditions_sends (now : Int) (locked : Nat → Bool)
    (w : World Db Event) :
    Sends receipt (processAwaitingResultsEditions now locked : Service Db Event ε _) w
      ((fetchAwaitingResultsEditions locked w.db).flatMap (editionSends w.db))
      fun _ db ↦ Run (DrainStep now) w.db (fetchAwaitingResultsEditions locked w.db) db := by
  refine (Sends.query _).andThen fun es w₁ h₁ ↦ ?_
  rw [← h₁.1]
  have hids : (es.map Edition.id).Nodup := by
    rw [h₁.1]
    exact nodup_fetchAwaitingResultsEditions locked w.db
  have hloop : Sends receipt (es.mapM (processEdition now) : Service Db Event ε _) w₁
      (es.flatMap (editionSends w.db))
      fun _ db ↦ ∃ done, es = done ++ [] ∧ Run (DrainStep now) w.db done db := by
    refine .mapM _ (fun rest db ↦ ∃ done, es = done ++ rest ∧ Run (DrainStep now) w.db done db)
      (fun e rest w₂ h₂ ↦ ?_) ⟨[], rfl, by rw [h₁.2]; exact .nil _⟩
    obtain ⟨done, hes, hrun⟩ := h₂
    have hne : ∀ e' ∈ done, e.id ≠ e'.id := fun e' he' heq ↦ by
      rw [hes, List.map_append, List.map_cons] at hids
      exact (List.nodup_append.mp hids).2.2 _ (List.mem_map_of_mem he') _ List.mem_cons_self heq.symm
    have hsends : editionSends w.db e = editionSends w₂.db e := by
      rw [editionSends, editionSends, drainRun_inflight hrun hne]
    rw [hsends]
    refine (processEdition_sends now e w₂).mono fun _ db hdb ↦ ⟨done ++ [e], by simp [hes], ?_⟩
    exact hrun.snoc hdb
  refine hloop.returning fun events db h ↦ ?_
  obtain ⟨done, hes, hrun⟩ := h
  rwa [hes, List.append_nil]

/-! ## What a tick does to the outbox rows -/

/-- One outbox row of the poll: some grants, then the mark. -/
def PublishStep (db : Db) (row : PendingTransition) (db' : Db) : Prop :=
  ∃ db₁, OnlyRewards db db₁ ∧ db' = markTransitionPublished row.id db₁

/-- Marking a row leaves the other rows alone. -/
theorem PublishStep.mem_rows {db db' : Db} {row row' : PendingTransition}
    (h : PublishStep db row db') (hmem : row' ∈ db.pendingTransitions.rows)
    (hid : row'.id ≠ row.id) : row' ∈ db'.pendingTransitions.rows := by
  obtain ⟨db₁, hr, rfl⟩ := h
  rw [markTransitionPublished, Table.mem_modify]
  exact ⟨row', by rwa [hr.pendingTransitions_eq], by simp [hid]⟩

theorem receipt_message (w : World Db Event) (routingKey : RoutingKey) (body : Event)
    (eventType : TransitionEventType) (editionId : Nat) :
    receipt (w.message routingKey body (some (idempotencyKey eventType editionId))) =
      some (.row routingKey body (idempotencyKey eventType editionId)) := by
  rw [idempotencyKey]
  split <;> rfl

/-- A row that decodes is granted for, sent and marked. -/
theorem publishTransition_sends {row : PendingTransition} {routingKey : RoutingKey}
    {event : OutboxEvent} (h : buildEvent row = .ok (routingKey, event)) (w : World Db Event) :
    Sends receipt (publishTransition row : Service Db Event ε _) w
      [.row routingKey event.body (idempotencyKey row.eventType event.editionId)]
      fun _ db ↦ ∃ db₁, OnlyGrants w.db db₁ ∧
        db = markTransitionPublished row.id (awardEditionStreaks event.results db₁).2 := by
  rw [publishTransition, h, pure_bind]
  refine (Sends.statements _).andThen fun placements w₁ h₁ ↦ ?_
  refine (Sends.statements _).andThen fun streaks w₂ h₂ ↦ ?_
  refine (Sends.publish (.inr (Option.some_ne_none _)) (receipt_message _ _ _ _ _)).bind
    fun _ w₃ h₃ ↦ ?_
  refine (Sends.execute _).andThen fun _ w₄ h₄ ↦ .pure _ ⟨w₁.db, ?_, ?_⟩
  · rw [show w₁.db = (event.results.mapM awardCyclePlacements w.db).2 from congrArg Prod.snd h₁]
    exact Steps.mapM .refl (fun _ _ _ ↦ .trans) (fun e _ ↦ awardCyclePlacements_onlyGrants e) _
  · rw [h₄, h₃, show w₂.db = _ from congrArg Prod.snd h₂]

/-- A row that does not decode never gets past `_build_event`. -/
theorem publishTransition_ne_ok {row : PendingTransition} (h : undecodable row = true)
    (w : World Db Event) (events : List XpGrantEvent) (w' : World Db Event) :
    (publishTransition row : Service Db Event ε _) w ≠ .ok events w' := by
  rw [undecodable, rowReceipt] at h
  rw [publishTransition]
  cases hb : buildEvent row with
  | ok built => simp [hb] at h
  | error e =>
      rw [bind_of_error (throw_apply _ _)]
      exact fun h ↦ by cases h

/-- Publishing rows that all decode sends each of them once. -/
theorem publishTransitions_sends (rows : List PendingTransition)
    (hrows : ∀ row ∈ rows, undecodable row = false) (w : World Db Event) :
    Sends receipt (rows.mapM publishTransition : Service Db Event ε _) w
      (rows.flatMap fun row ↦ (rowReceipt row).toList)
      fun _ db ↦ Run PublishStep w.db rows db := by
  have hloop : Sends receipt (rows.mapM publishTransition : Service Db Event ε _) w
      (rows.flatMap fun row ↦ (rowReceipt row).toList)
      fun _ db ↦ ∃ done, rows = done ++ [] ∧ Run PublishStep w.db done db := by
    refine .mapM _ (fun rest db ↦ ∃ done, rows = done ++ rest ∧ Run PublishStep w.db done db)
      (fun row rest w₁ h₁ ↦ ?_) ⟨[], rfl, .nil _⟩
    obtain ⟨done, hdone, hrun⟩ := h₁
    have hrow := hrows row (by simp [hdone])
    rw [undecodable, rowReceipt] at hrow
    rw [rowReceipt]
    cases hb : buildEvent row with
    | error e => simp [hb] at hrow
    | ok built =>
        obtain ⟨routingKey, event⟩ := built
        refine (publishTransition_sends hb w₁).mono fun _ db ⟨db₁, hgrants, hdb⟩ ↦ ?_
        have h : OnlyRewards w₁.db (awardEditionStreaks event.results db₁).2 :=
          hgrants.onlyRewards.trans (awardEditionStreaks_onlyRewards _ _)
        exact ⟨done ++ [row], by simp [hdone], hrun.snoc ⟨_, h, hdb⟩⟩
  refine hloop.mono fun events db h ↦ ?_
  obtain ⟨done, hdone, hrun⟩ := h
  rwa [hdone, List.append_nil]

/-! ## The whole tick -/

/-- The publish attempts a tick owes: one for each edition that is first announced
or that drains, and one for each unpublished row. -/
def attemptsDue (lockedEditions lockedTransitions : Nat → Bool) (db : Db) : Nat :=
  (fetchAwaitingResultsEditions lockedEditions db).countP
      (fun e ↦ !e.startAnnounced || countInflightVerifications e.id db = 0) +
    (fetchUnpublishedTransitions lockedTransitions db).length

/-- The rows the second half of a tick reads, once the drain has led to `db`. -/
def rowsDue (before : Db) (locked : Nat → Bool) (db : Db) : List PendingTransition :=
  fetchUnpublishedTransitions (fun id ↦ id < before.pendingTransitions.nextId && locked id) db

theorem DrainStep.drains_congr {now : Int} {db db' : Db} {edition e : Edition}
    (h : DrainStep now db edition db') (hid : e.id ≠ edition.id) : drains db' e = drains db e := by
  rw [drains, drains, h.inflight hid]

/-- The outbox row a drain adds, if any. -/
theorem DrainStep.rows {now : Int} {db db' : Db} {edition : Edition}
    (h : DrainStep now db edition db') :
    ∃ new, db'.pendingTransitions.rows = db.pendingTransitions.rows ++ new ∧
      db.pendingTransitions.nextId ≤ db'.pendingTransitions.nextId ∧
      new.map deferredResults = (if drains db edition then [some edition.id] else []) ∧
      ∀ t ∈ new, t.published = false ∧ db.pendingTransitions.nextId ≤ t.id ∧
        undecodable t = false := by
  obtain ⟨db₁, hr, rfl⟩ := h
  have hd : drains db₁ edition = drains db edition := by
    rw [drains, drains, countInflightVerifications_congr hr.completions_eq hr.cycles_eq]
  rw [drainEdition_pendingTransitions, hd, hr.pendingTransitions_eq]
  split
  · refine ⟨[drainedRow edition.id now db₁ db.pendingTransitions.nextId], rfl, Nat.le_succ _, rfl, ?_⟩
    intro t ht
    rw [List.mem_singleton.mp ht]
    exact ⟨rfl, le_rfl, rfl⟩
  · exact ⟨[], by simp, le_rfl, rfl, by simp⟩

/-- The outbox rows a drain adds: one per edition that drains, all of them new,
unpublished and decodable. -/
theorem drainRun_rows {now : Int} {db db' : Db} {es : List Edition}
    (h : Run (DrainStep now) db es db') (hids : (es.map Edition.id).Nodup) :
    ∃ new, db'.pendingTransitions.rows = db.pendingTransitions.rows ++ new ∧
      new.map deferredResults = (es.filter (drains db)).map (fun e ↦ some e.id) ∧
      ∀ t ∈ new, t.published = false ∧ db.pendingTransitions.nextId ≤ t.id ∧
        undecodable t = false := by
  induction h with
  | nil db => exact ⟨[], by simp, rfl, by simp⟩
  | cons hstep _ ih =>
      rename_i db db₁ db' e es hrun
      obtain ⟨he, hids⟩ := List.nodup_cons.mp hids
      obtain ⟨new, hnew, hnext, hmap, hall⟩ := hstep.rows
      obtain ⟨new', hnew', hmap', hall'⟩ := ih hids
      have hrest : es.filter (drains db₁) = es.filter (drains db) :=
        List.filter_congr fun e' he' ↦
          hstep.drains_congr fun heq ↦ he (heq ▸ List.mem_map_of_mem he')
      refine ⟨new ++ new', by rw [hnew', hnew, List.append_assoc], ?_, ?_⟩
      · rw [List.map_append, hmap, hmap', hrest, List.filter_cons]
        split <;> rfl
      · intro t ht
        rcases List.mem_append.mp ht with ht | ht
        · exact hall t ht
        · obtain ⟨hp, hle, hu⟩ := hall' t ht
          exact ⟨hp, hnext.trans hle, hu⟩

theorem nodup_fetchUnpublishedTransitions (locked : Nat → Bool) (db : Db) :
    ((fetchUnpublishedTransitions locked db).map PendingTransition.id).Nodup := by
  have hperm := (perm_orderBy PendingTransition.createdAt
    (db.pendingTransitions.select fun t ↦ !t.published)).map PendingTransition.id
  exact (hperm.nodup_iff.mpr (Table.nodup_map_key_select _)).sublist (List.filter_sublist.map _)

theorem length_fetchUnpublishedTransitions (locked : Nat → Bool) (db : Db) :
    (fetchUnpublishedTransitions locked db).length =
      db.pendingTransitions.rows.countP fun t ↦ !t.published && !locked t.id := by
  have hperm := perm_orderBy PendingTransition.createdAt
    (db.pendingTransitions.select fun t ↦ !t.published)
  rw [fetchUnpublishedTransitions, ← List.countP_eq_length_filter, hperm.countP_eq, Table.select,
    List.countP_filter]
  exact List.countP_congr fun t _ ↦ by simp [and_comm]

theorem mem_fetchUnpublishedTransitions {locked : Nat → Bool} {db : Db} {t : PendingTransition} :
    t ∈ fetchUnpublishedTransitions locked db ↔
      t ∈ db.pendingTransitions.rows ∧ t.published = false ∧ locked t.id = false := by
  simp [fetchUnpublishedTransitions, and_assoc]

/-- The rows of the second half: those the tick found, and those its drain added. -/
theorem rowsDue_of_drainRun {now : Int} {db db' : Db} {es : List Edition} (locked : Nat → Bool)
    (h : Run (DrainStep now) db es db') (hids : (es.map Edition.id).Nodup) :
    (rowsDue db locked db').length =
        (fetchUnpublishedTransitions locked db).length + es.countP (drains db) ∧
      (∀ t ∈ fetchUnpublishedTransitions locked db, t ∈ rowsDue db locked db') ∧
      ∀ t ∈ rowsDue db locked db',
        t ∈ fetchUnpublishedTransitions locked db ∨ undecodable t = false := by
  obtain ⟨new, hnew, hmap, hall⟩ := drainRun_rows h hids
  have hlen : new.length = es.countP (drains db) := by
    rw [← List.length_map (f := deferredResults), hmap, List.length_map,
      List.countP_eq_length_filter]
  have hold : ∀ t ∈ db.pendingTransitions.rows, t.id < db.pendingTransitions.nextId :=
    db.pendingTransitions.fresh
  refine ⟨?_, fun t ht ↦ ?_, fun t ht ↦ ?_⟩
  · rw [rowsDue, length_fetchUnpublishedTransitions, length_fetchUnpublishedTransitions, hnew,
      List.countP_append, ← hlen]
    congr 1
    · exact List.countP_congr fun t ht ↦ by simp [hold t ht]
    · refine List.countP_eq_length.mpr fun t ht ↦ ?_
      obtain ⟨hp, hle, _⟩ := hall t ht
      simp [hp, Nat.not_lt.mpr hle]
  · rw [mem_fetchUnpublishedTransitions] at ht
    rw [rowsDue, mem_fetchUnpublishedTransitions, hnew]
    exact ⟨List.mem_append_left _ ht.1, ht.2.1, by simp [ht.2.2]⟩
  · rw [rowsDue, mem_fetchUnpublishedTransitions, hnew, List.mem_append] at ht
    obtain ⟨ht | ht, hp, hl⟩ := ht
    · refine .inl (mem_fetchUnpublishedTransitions.mpr ⟨ht, hp, ?_⟩)
      simpa [hold t ht] using hl
    · exact .inr (hall t ht).2.2

theorem length_editionSends (db : Db) (es : List Edition) :
    (es.flatMap (editionSends db)).length + es.countP (drains db) =
      es.countP fun e ↦ !e.startAnnounced || countInflightVerifications e.id db = 0 := by
  induction es with
  | nil => rfl
  | cons e es ih =>
      rw [List.flatMap_cons, List.length_append, List.countP_cons, List.countP_cons, ← ih]
      have he : (editionSends db e).length + (if drains db e then 1 else 0) =
          if !e.startAnnounced || countInflightVerifications e.id db = 0 then 1 else 0 := by
        cases ha : e.startAnnounced <;>
          rcases Nat.eq_zero_or_pos (countInflightVerifications e.id db) with hi | hi <;>
          simp [editionSends, drains, ha, hi, Nat.ne_of_gt]
      omega

/-- The sends of the two halves add up to what the tick owes. -/
theorem attemptsDue_eq {now : Int} {lockedEditions : Nat → Bool} {db db' : Db}
    (lockedTransitions : Nat → Bool)
    (h : Run (DrainStep now) db (fetchAwaitingResultsEditions lockedEditions db) db') :
    attemptsDue lockedEditions lockedTransitions db =
      ((fetchAwaitingResultsEditions lockedEditions db).flatMap (editionSends db)).length +
        (rowsDue db lockedTransitions db').length := by
  have hcount := length_editionSends db (fetchAwaitingResultsEditions lockedEditions db)
  have hrows := (rowsDue_of_drainRun lockedTransitions h (nodup_fetchAwaitingResultsEditions _ _)).1
  rw [attemptsDue]
  omega

section Tick

variable (now : Int) {lockedEditions lockedTransitions : Nat → Bool} {w : World Db Event}

/-- The two halves of a tick, when the first returns. -/
theorem drainOutbox_eq {drained : List XpGrantEvent} {w₁ : World Db Event}
    (h : (processAwaitingResultsEditions now lockedEditions : Service Db Event ε _) w =
      .ok drained w₁) :
    (drainOutbox now lockedEditions lockedTransitions : Service Db Event ε _) w =
      (do
        let published ← (rowsDue w.db lockedTransitions w₁.db).mapM publishTransition
        return drained ++ published.flatten : Service Db Event ε _) w₁ := by
  have hquery : (query fun db ↦ db.pendingTransitions.nextId : Service Db Event ε Nat) w =
      .ok w.db.pendingTransitions.nextId w := rfl
  rw [drainOutbox, bind_of_ok hquery, bind_of_ok h]
  rfl

/-- The second half of a tick sends its rows, if they all decode. -/
theorem publishRows_sends (drained : List XpGrantEvent) {rows : List PendingTransition}
    (hrows : ∀ t ∈ rows, undecodable t = false) (w₁ : World Db Event) :
    Sends receipt (do
        let published ← rows.mapM publishTransition
        return drained ++ published.flatten : Service Db Event ε _) w₁
      (rows.flatMap fun t ↦ (rowReceipt t).toList) fun _ db ↦ Run PublishStep w₁.db rows db :=
  (publishTransitions_sends rows hrows w₁).returning fun _ _ h ↦ h

theorem length_rowReceipts {rows : List PendingTransition}
    (hrows : ∀ t ∈ rows, undecodable t = false) :
    (rows.flatMap fun t ↦ (rowReceipt t).toList).length = rows.length := by
  induction rows with
  | nil => rfl
  | cons t rows ih =>
      have ht := hrows t List.mem_cons_self
      rw [List.flatMap_cons, List.length_append, ih fun t ht ↦ hrows t (List.mem_cons_of_mem _ ht),
        List.length_cons]
      cases hr : rowReceipt t with
      | none => simp [undecodable, hr] at ht
      | some r => simp [Nat.add_comm]

/-- A tick whose rows all decode and whose attempts all return commits. -/
theorem drainOutbox_returns
    (hrows : ∀ t ∈ fetchUnpublishedTransitions lockedTransitions w.db, undecodable t = false)
    (hr : ¬ Raises w.faults (attemptsDue lockedEditions lockedTransitions w.db)) :
    ∃ events w' db₁,
      (drainOutbox now lockedEditions lockedTransitions : Service Db Event ε _) w = .ok events w' ∧
      Run (DrainStep now) w.db (fetchAwaitingResultsEditions lockedEditions w.db) db₁ ∧
      Run PublishStep db₁ (rowsDue w.db lockedTransitions db₁) w'.db ∧
      w'.receipts receipt = w.receipts receipt ++ delivered w.faults
        ((fetchAwaitingResultsEditions lockedEditions w.db).flatMap (editionSends w.db) ++
          (rowsDue w.db lockedTransitions db₁).flatMap fun t ↦ (rowReceipt t).toList) := by
  have hfirst := processAwaitingResultsEditions_sends (ε := ε) now lockedEditions w
  have hcount := length_editionSends w.db (fetchAwaitingResultsEditions lockedEditions w.db)
  obtain ⟨drained, w₁, hok₁, hf₁, hb₁, hrun₁⟩ :=
    hfirst.returns fun h ↦ hr (h.mono (by rw [attemptsDue]; omega))
  obtain ⟨_, _, hdue⟩ := rowsDue_of_drainRun lockedTransitions hrun₁
    (nodup_fetchAwaitingResultsEditions _ _)
  have hdecode : ∀ t ∈ rowsDue w.db lockedTransitions w₁.db, undecodable t = false :=
    fun t ht ↦ (hdue t ht).elim (hrows t) id
  rw [attemptsDue_eq lockedTransitions hrun₁, raises_add, not_or, ← hf₁, ← length_rowReceipts hdecode] at hr
  obtain ⟨events, w₂, hok₂, _, hb₂, hrun₂⟩ :=
    (publishRows_sends (ε := ε) drained hdecode w₁).returns hr.2
  refine ⟨events, w₂, w₁.db, by rw [drainOutbox_eq now hok₁, hok₂], hrun₁, hrun₂, ?_⟩
  rw [hb₂, hb₁, hf₁, delivered_append, List.append_assoc]

/-- A tick that finds a row it cannot decode, or one of whose attempts raises, raises. -/
theorem drainOutbox_raises
    (h : (∃ t ∈ fetchUnpublishedTransitions lockedTransitions w.db, undecodable t = true) ∨
      Raises w.faults (attemptsDue lockedEditions lockedTransitions w.db)) :
    ∃ e w', (drainOutbox now lockedEditions lockedTransitions : Service Db Event ε _) w =
      .error e w' := by
  have hfirst := processAwaitingResultsEditions_sends (ε := ε) now lockedEditions w
  by_cases hr₁ : Raises w.faults
      ((fetchAwaitingResultsEditions lockedEditions w.db).flatMap (editionSends w.db)).length
  · obtain ⟨e, w₁, he⟩ := hfirst.raises hr₁
    refine ⟨e, w₁, ?_⟩
    have hquery : (query fun db ↦ db.pendingTransitions.nextId : Service Db Event ε Nat) w =
        .ok w.db.pendingTransitions.nextId w := rfl
    rw [drainOutbox, bind_of_ok hquery, bind_of_error he]
  · obtain ⟨drained, w₁, hok₁, hf₁, _, hrun₁⟩ := hfirst.returns hr₁
    obtain ⟨_, hfound, hdue⟩ := rowsDue_of_drainRun lockedTransitions hrun₁
      (nodup_fetchAwaitingResultsEditions _ _)
    rw [drainOutbox_eq now hok₁]
    by_cases hundecodable : ∃ t ∈ fetchUnpublishedTransitions lockedTransitions w.db,
        undecodable t = true
    · obtain ⟨t, ht, hu⟩ := hundecodable
      have hne := mapM_ne_ok (hfound t ht) (publishTransition_ne_ok (ε := ε) hu) w₁
      cases hm : ((rowsDue w.db lockedTransitions w₁.db).mapM publishTransition :
          Service Db Event ε _) w₁ with
      | ok published w₂ => exact absurd hm (hne published w₂)
      | error e w₂ => exact ⟨e, w₂, bind_of_error hm⟩
    · have hrows : ∀ t ∈ fetchUnpublishedTransitions lockedTransitions w.db,
          undecodable t = false := fun t ht ↦ by
        simpa using fun hu ↦ hundecodable ⟨t, ht, hu⟩
      have hdecode : ∀ t ∈ rowsDue w.db lockedTransitions w₁.db, undecodable t = false :=
        fun t ht ↦ (hdue t ht).elim (hrows t) id
      have hr := h.resolve_left hundecodable
      rw [attemptsDue_eq lockedTransitions hrun₁, raises_add] at hr
      have hr₂ := hr.resolve_left hr₁
      rw [← hf₁, ← length_rowReceipts hdecode] at hr₂
      exact (publishRows_sends (ε := ε) drained hdecode w₁).raises hr₂

theorem publishXpEvent_apply (event : XpGrantEvent) (w : World Db Event) :
    ∃ w', (publishXpEvent event : Service Db Event ε _) w = .ok ⟨⟩ w' ∧ w'.db = w.db ∧
      w'.receipts receipt = w.receipts receipt := by
  have hpublish := publishMessage_apply (ε := ε) .xpGrant (Event.xpGrant event) none
    (.inl (by decide)) w
  rw [publishXpEvent, tryCatch_apply, bind_apply, hpublish]
  cases w.nextFaults.attempt with
  | raised e => exact ⟨_, rfl, rfl, rfl⟩
  | swallowed => exact ⟨_, rfl, rfl, rfl⟩
  | delivered => exact ⟨_, rfl, rfl, by simp [World.receipts, World.message, receipt]⟩

/-- The notifications after the commit change nothing the outbox accounts for. -/
theorem publishXpEvents_apply (events : List XpGrantEvent) (w : World Db Event) :
    ∃ w', (publishXpEvents events : Service Db Event ε _) w = .ok ⟨⟩ w' ∧ w'.db = w.db ∧
      w'.receipts receipt = w.receipts receipt := by
  induction events generalizing w with
  | nil => exact ⟨w, rfl, rfl, rfl⟩
  | cons event events ih =>
      obtain ⟨w₁, h₁, hdb₁, hb₁⟩ := publishXpEvent_apply (ε := ε) event w
      obtain ⟨w₂, h₂, hdb₂, hb₂⟩ := ih w₁
      exact ⟨w₂, (bind_of_ok h₁).trans h₂, hdb₂.trans hdb₁, hb₂.trans hb₁⟩

/-- A tick that raises leaves the database as it was. -/
theorem publishPendingTransitions_raises
    (h : (∃ t ∈ fetchUnpublishedTransitions lockedTransitions w.db, undecodable t = true) ∨
      Raises w.faults (attemptsDue lockedEditions lockedTransitions w.db)) :
    ∃ e w', (publishPendingTransitions now lockedEditions lockedTransitions :
      Service Db Event ε _) w = .error e w' ∧ w'.db = w.db := by
  obtain ⟨e, w', he⟩ := drainOutbox_raises (ε := ε) now h
  refine ⟨e, { w' with db := w.db }, ?_, rfl⟩
  rw [publishPendingTransitions]
  exact bind_of_error (transaction_of_error he)

/-- A tick that does not raise drains the editions, publishes the rows and commits. -/
theorem publishPendingTransitions_returns
    (hrows : ∀ t ∈ fetchUnpublishedTransitions lockedTransitions w.db, undecodable t = false)
    (hr : ¬ Raises w.faults (attemptsDue lockedEditions lockedTransitions w.db)) :
    ∃ w' db₁,
      (publishPendingTransitions now lockedEditions lockedTransitions : Service Db Event ε _) w =
        .ok ⟨⟩ w' ∧
      Run (DrainStep now) w.db (fetchAwaitingResultsEditions lockedEditions w.db) db₁ ∧
      Run PublishStep db₁ (rowsDue w.db lockedTransitions db₁) w'.db ∧
      w'.receipts receipt = w.receipts receipt ++ delivered w.faults
        ((fetchAwaitingResultsEditions lockedEditions w.db).flatMap (editionSends w.db) ++
          (rowsDue w.db lockedTransitions db₁).flatMap fun t ↦ (rowReceipt t).toList) := by
  obtain ⟨events, w₁, db₁, hok, hdrain, hpublish, hb⟩ :=
    drainOutbox_returns (ε := ε) now hrows hr
  obtain ⟨w₂, hok₂, hdb₂, hb₂⟩ := publishXpEvents_apply (ε := ε) events w₁
  refine ⟨w₂, db₁, ?_, hdrain, by rwa [hdb₂], by rw [hb₂, hb]⟩
  rw [publishPendingTransitions]
  exact (bind_of_ok (transaction_of_ok hok)).trans hok₂

end Tick

end Genjishimada.Tournaments
